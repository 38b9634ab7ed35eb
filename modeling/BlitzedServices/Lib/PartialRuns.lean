import Mathlib.Data.List.Basic

/-!
# Runs that can get stuck

A step that has no result ends a run. `AlongM` says that a condition on the state and the next message holds at each
message that is reached. Where the condition and an invariant give a step its result and keep the invariant, the whole
run has a result, and the invariant holds at its end.
-/

set_option autoImplicit false
set_option relaxedAutoImplicit false

namespace BlitzedServices.Lib

variable {σ μ : Type}

/-- The condition holds at each message when its turn comes. -/
def AlongM (step : σ → μ → Option σ) (ok : σ → μ → Prop) : σ → List μ → Prop
  | _, [] => True
  | s, m :: l => ok s m ∧ ∀ s', step s m = some s' → AlongM step ok s' l

variable {step : σ → μ → Option σ} {ok : σ → μ → Prop} {p : σ → Prop}

theorem alongM_true (s : σ) (l : List μ) : AlongM step (fun _ _ ↦ True) s l := by
  induction l generalizing s with
  | nil => trivial
  | cons m l ih => exact ⟨trivial, fun s' _ ↦ ih s'⟩

/-- A message that is handled, and what comes after it. -/
theorem AlongM.cons {s s' : σ} {m : μ} {l : List μ} (hok : ok s m) (hs : step s m = some s')
    (h : AlongM step ok s' l) : AlongM step ok s (m :: l) :=
  ⟨hok, fun _ hs'' ↦ Option.some.inj (hs.symm.trans hs'') ▸ h⟩

/-- A run whose messages meet the condition does not get stuck and keeps the invariant. -/
theorem AlongM.invariant (hstep : ∀ s m, p s → ok s m → ∃ s', step s m = some s' ∧ p s') {s : σ} {l : List μ}
    (hs : p s) (h : AlongM step ok s l) : ∃ s', l.foldlM step s = some s' ∧ p s' := by
  induction l generalizing s with
  | nil => exact ⟨s, rfl, hs⟩
  | cons m l ih =>
    obtain ⟨s', hs', hp⟩ := hstep s m hs h.1
    obtain ⟨s'', hrun, hend⟩ := ih hp (h.2 s' hs')
    exact ⟨s'', by rw [List.foldlM_cons, hs']; exact hrun, hend⟩

/-- What the steps of a run preserve that have a result holds at its end. -/
theorem AlongM.of_foldlM (hstep : ∀ s m s', p s → ok s m → step s m = some s' → p s') {s s' : σ} {l : List μ}
    (hs : p s) (h : AlongM step ok s l) (hrun : l.foldlM step s = some s') : p s' := by
  induction l generalizing s with
  | nil => exact Option.some.inj hrun ▸ hs
  | cons m l ih =>
    rw [List.foldlM_cons, Option.bind_eq_bind, Option.bind_eq_some_iff] at hrun
    obtain ⟨t, ht, hrest⟩ := hrun
    exact ih (hstep s m t hs h.1 ht) (h.2 t ht) hrest

/-- What a run meets its first part meets. -/
theorem AlongM.of_append {s : σ} {l l' : List μ} (h : AlongM step ok s (l ++ l')) : AlongM step ok s l := by
  induction l generalizing s with
  | nil => trivial
  | cons m l ih => exact ⟨h.1, fun s' hs' ↦ ih (h.2 s' hs')⟩

end BlitzedServices.Lib
