import Mathlib

/-!
# Runs

A run takes a list of messages one by one. `Along` says that a condition on the state and the next
message holds at each of them, and `Along.invariant` that what every such step preserves holds at the
end. A run can also be cut: what holds along it holds along its parts.
-/

set_option autoImplicit false
set_option relaxedAutoImplicit false

namespace BlitzedServices.Lib

variable {σ μ : Type}

/-- The condition holds at each message when its turn comes. -/
def Along (step : σ → μ → σ) (ok : σ → μ → Prop) : σ → List μ → Prop
  | _, [] => True
  | s, m :: l => ok s m ∧ Along step ok (step s m) l

variable {step : σ → μ → σ} {ok ok' : σ → μ → Prop}

@[simp] theorem along_nil (s : σ) : Along step ok s [] := trivial

@[simp] theorem along_cons (s : σ) (m : μ) (l : List μ) :
    Along step ok s (m :: l) ↔ ok s m ∧ Along step ok (step s m) l := Iff.rfl

theorem along_true (s : σ) (l : List μ) : Along step (fun _ _ ↦ True) s l := by
  induction l generalizing s with
  | nil => trivial
  | cons m l ih => exact ⟨trivial, ih _⟩

/-- A condition on the messages alone. -/
theorem along_of_forall {q : μ → Prop} {l : List μ} (h : ∀ m ∈ l, q m) (s : σ) :
    Along step (fun _ m ↦ q m) s l := by
  induction l generalizing s with
  | nil => trivial
  | cons m l ih => exact ⟨h m List.mem_cons_self, ih (fun m' hm' ↦ h m' (List.mem_cons_of_mem m hm')) _⟩

theorem along_append (s : σ) (l l' : List μ) :
    Along step ok s (l ++ l') ↔ Along step ok s l ∧ Along step ok (l.foldl step s) l' := by
  induction l generalizing s with
  | nil => simp
  | cons m l ih => rw [List.cons_append, along_cons, along_cons, ih, and_assoc, List.foldl_cons]

theorem Along.mono {s : σ} {l : List μ} (h : Along step ok s l)
    (hok : ∀ s m, ok s m → ok' s m) : Along step ok' s l := by
  induction l generalizing s with
  | nil => trivial
  | cons m l ih => exact ⟨hok s m h.1, ih h.2⟩

/-- What every step of the run preserves holds at its end. -/
theorem Along.invariant {p : σ → Prop} (hstep : ∀ s m, p s → ok s m → p (step s m))
    {s : σ} {l : List μ} (hs : p s) (h : Along step ok s l) : p (l.foldl step s) := by
  induction l generalizing s with
  | nil => exact hs
  | cons m l ih => exact ih (hstep s m hs h.1) h.2

/-- What the condition and an invariant give holds at each message. -/
theorem Along.imp {p : σ → Prop} (hstep : ∀ s m, p s → ok s m → p (step s m))
    (hok : ∀ s m, p s → ok s m → ok' s m) {s : σ} {l : List μ} (hs : p s)
    (h : Along step ok s l) : Along step ok' s l := by
  induction l generalizing s with
  | nil => trivial
  | cons m l ih => exact ⟨hok s m hs h.1, ih (hstep s m hs h.1) h.2⟩

/-- What every step preserves without a condition. -/
theorem foldl_invariant {p : σ → Prop} (hstep : ∀ s m, p s → p (step s m)) {s : σ}
    (hs : p s) (l : List μ) : p (l.foldl step s) := by
  induction l generalizing s with
  | nil => exact hs
  | cons m l ih => exact ih (hstep s m hs)

/-- Where a step that is allowed keeps the invariant exactly under the condition, the invariant holds in
every state of a run iff the condition holds along it. -/
theorem Along.iff_prefixes {p : σ → Prop}
    (hstep : ∀ s m, p s → ok' s m → (p (step s m) ↔ ok s m)) {s : σ} {l : List μ}
    (hallowed : Along step ok' s l) (hs : p s) :
    (∀ l', l' <+: l → p (l'.foldl step s)) ↔ Along step ok s l := by
  induction l generalizing s with
  | nil =>
    refine iff_of_true (fun l' hl' ↦ ?_) trivial
    rw [List.prefix_nil.mp hl']
    exact hs
  | cons m l ih =>
    constructor
    · intro h
      have hnext : p (step s m) := h [m] (List.prefix_append [m] l)
      refine ⟨(hstep s m hs hallowed.1).mp hnext, (ih hallowed.2 hnext).mp fun l' hl' ↦ ?_⟩
      exact h (m :: l') (List.cons_prefix_cons.mpr ⟨rfl, hl'⟩)
    · rintro ⟨hm, hl⟩ l' hl'
      cases l' with
      | nil => exact hs
      | cons m' l' =>
        obtain ⟨rfl, htail⟩ := List.cons_prefix_cons.mp hl'
        exact (ih hallowed.2 ((hstep s m' hs hallowed.1).mpr hm)).mpr hl l' htail

/-- The same where every step is allowed. -/
theorem along_iff_prefixes {p : σ → Prop} (hstep : ∀ s m, p s → (p (step s m) ↔ ok s m))
    {s : σ} (hs : p s) (l : List μ) :
    (∀ l', l' <+: l → p (l'.foldl step s)) ↔ Along step ok s l :=
  (along_true s l).iff_prefixes (fun s m h _ ↦ hstep s m h) hs

end BlitzedServices.Lib
