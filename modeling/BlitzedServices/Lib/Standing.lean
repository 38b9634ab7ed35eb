import Mathlib.Data.List.Basic
import Mathlib.Data.List.Nodup
import Mathlib.Logic.Function.Basic

/-!
# What stands on the other side

A table is kept on one side, and the other side is told of its rows one by one: that a key has a value now, or that it
has none any more. The table may keep less of a key or a value than is told (`toKey` and `toVal`, the columns). `Told`
says how the two sides agree then. It is kept by rows that are added, by rows that are deleted and by telling all rows
again; and a key that the column cuts stands for ever (`hearAll_of_cut`).
-/

set_option autoImplicit false
set_option relaxedAutoImplicit false

namespace BlitzedServices.Lib

/-- What one side tells the other. -/
inductive Announcement (κ ν : Type) where
  | set (k : κ) (v : ν)
  | unset (k : κ)
  deriving DecidableEq

variable {κ ν : Type} [DecidableEq κ]

/-- The other side hears it. -/
def hear (s : κ → Option ν) : Announcement κ ν → κ → Option ν
  | .set k v => Function.update s k (some v)
  | .unset k => Function.update s k none

/-- It hears one after the other. -/
def hearAll (s : κ → Option ν) (l : List (Announcement κ ν)) : κ → Option ν := l.foldl hear s

theorem hearAll_append (s : κ → Option ν) (l l' : List (Announcement κ ν)) :
    hearAll s (l ++ l') = hearAll (hearAll s l) l' := List.foldl_append ..

/-- The rows of the table and what stands on the other side. -/
structure Told (toKey : κ → κ) (toVal : ν → ν) (rows : List (κ × ν)) (s : κ → Option ν) : Prop where
  nodup : (rows.map Prod.fst).Nodup
  stored : ∀ p ∈ rows, toKey p.1 = p.1 ∧ toVal p.2 = p.2
  stands : ∀ p ∈ rows, ∃ k v, s k = some v ∧ toKey k = p.1 ∧ toVal v = p.2
  held : ∀ k v, s k = some v → toKey k = k → (k, toVal v) ∈ rows

section Steps

variable {toKey : κ → κ} {toVal : ν → ν} {rows : List (κ × ν)} {s : κ → Option ν}

/-- A row is added and told. -/
theorem Told.insert (h : Told toKey toVal rows s) (hkey : ∀ k, toKey (toKey k) = toKey k)
    (hval : ∀ v, toVal (toVal v) = toVal v) {k : κ} {v : ν} (hnew : ∀ p ∈ rows, p.1 ≠ toKey k) :
    Told toKey toVal (rows ++ [(toKey k, toVal v)]) (hear s (.set k v)) where
  nodup := by
    rw [List.map_append, List.map_singleton, List.nodup_append]
    refine ⟨h.nodup, List.nodup_singleton _, fun x hx y hy ↦ ?_⟩
    obtain ⟨p, hp, rfl⟩ := List.mem_map.mp hx
    rw [List.mem_singleton.mp hy]
    exact hnew p hp
  stored p hp := by
    rcases List.mem_append.mp hp with hp | hp
    · exact h.stored p hp
    · rw [List.mem_singleton.mp hp]
      exact ⟨hkey k, hval v⟩
  stands p hp := by
    rcases List.mem_append.mp hp with hp | hp
    · obtain ⟨k', v', hs, hk', hv'⟩ := h.stands p hp
      have hne : k' ≠ k := fun heq ↦ hnew p hp (by rw [← hk', heq])
      exact ⟨k', v', by rw [hear, Function.update_of_ne hne, hs], hk', hv'⟩
    · rw [List.mem_singleton.mp hp]
      exact ⟨k, v, Function.update_self .., rfl, rfl⟩
  held k' v' hs hk' := by
    by_cases heq : k' = k
    · subst heq
      rw [hear, Function.update_self] at hs
      rw [← Option.some.inj hs, hk']
      exact List.mem_append_right _ (List.mem_singleton_self _)
    · rw [hear, Function.update_of_ne heq] at hs
      exact List.mem_append_left _ (h.held k' v' hs hk')

theorem hearAll_unset (s : κ → Option ν) (keys : List κ) (k : κ) :
    hearAll s (keys.map .unset) k = if k ∈ keys then none else s k := by
  induction keys generalizing s with
  | nil => rfl
  | cons key keys ih =>
    rw [List.map_cons, hearAll, List.foldl_cons, ← hearAll, ih, hear]
    by_cases hk : k ∈ keys
    · rw [if_pos hk, if_pos (List.mem_cons_of_mem _ hk)]
    · by_cases heq : k = key
      · rw [if_neg hk, heq, Function.update_self, if_pos List.mem_cons_self]
      · rw [if_neg hk, Function.update_of_ne heq, if_neg]
        exact fun hmem ↦ (List.mem_cons.mp hmem).elim heq hk

/-- Rows are deleted and told of. -/
theorem Told.delete (h : Told toKey toVal rows s) (p : κ × ν → Bool) :
    Told toKey toVal (rows.filter fun r ↦ !p r) (hearAll s (((rows.filter p).map Prod.fst).map .unset)) := by
  have hdeleted (r : κ × ν) (hr : r ∈ rows) (hp : p r = false) : r.1 ∉ (rows.filter p).map Prod.fst := by
    intro hmem
    obtain ⟨r', hr', heq⟩ := List.mem_map.mp hmem
    obtain ⟨hmem', hp'⟩ := List.mem_filter.mp hr'
    rw [List.inj_on_of_nodup_map h.nodup hmem' hr heq, hp] at hp'
    cases hp'
  refine ⟨h.nodup.sublist (List.filter_sublist.map _), fun r hr ↦ h.stored r (List.mem_of_mem_filter hr),
    fun r hr ↦ ?_, fun k v hs hk ↦ ?_⟩
  · obtain ⟨hmem, hp⟩ := List.mem_filter.mp hr
    have hp : p r = false := by simpa using hp
    obtain ⟨k, v, hs, hk, hv⟩ := h.stands r hmem
    refine ⟨k, v, ?_, hk, hv⟩
    rw [hearAll_unset, if_neg, hs]
    -- a key that is taken back is in the table, so the column does not cut it
    intro hout
    obtain ⟨r', hr', heq⟩ := List.mem_map.mp hout
    have hself := (h.stored r' (List.mem_of_mem_filter hr')).1
    rw [heq, hk] at hself
    exact hdeleted r hmem hp (hself ▸ hout)
  · rw [hearAll_unset] at hs
    split_ifs at hs with hout
    have hmem := h.held k v hs hk
    refine List.mem_filter.mpr ⟨hmem, ?_⟩
    by_contra hp
    have hp : p (k, toVal v) = true := by simpa using hp
    exact hout (List.mem_map.mpr ⟨_, List.mem_filter.mpr ⟨hmem, hp⟩, rfl⟩)

theorem hearAll_set (hnodup : (rows.map Prod.fst).Nodup) (k : κ) (v : ν) :
    hearAll s (rows.map fun p ↦ .set p.1 p.2) k = some v ↔ (k, v) ∈ rows ∨ k ∉ rows.map Prod.fst ∧ s k = some v := by
  induction rows generalizing s with
  | nil => exact ⟨fun hs ↦ .inr ⟨List.not_mem_nil, hs⟩, fun hs ↦ hs.elim (absurd · List.not_mem_nil) And.right⟩
  | cons p rows ih =>
    rw [List.map_cons, List.nodup_cons] at hnodup
    rw [List.map_cons, hearAll, List.foldl_cons, ← hearAll, ih hnodup.2, hear, List.map_cons]
    by_cases heq : k = p.1
    · subst heq
      have hnone (v : ν) : (p.1, v) ∉ rows := fun hmem ↦ hnodup.1 (List.mem_map.mpr ⟨_, hmem, rfl⟩)
      have hself : (p.1, v) = p ↔ p.2 = v := ⟨fun heq ↦ by rw [← heq], fun heq ↦ by rw [← heq]⟩
      simp [hnone, hnodup.1, Function.update_self, List.mem_cons, hself]
    · have hne : (k, v) ≠ p := fun hp ↦ heq (by rw [← hp])
      simp [heq, hne, List.mem_cons]

/-- All rows are told again. -/
theorem Told.again (h : Told toKey toVal rows s) :
    Told toKey toVal rows (hearAll s (rows.map fun p ↦ .set p.1 p.2)) where
  nodup := h.nodup
  stored := h.stored
  stands p hp := ⟨p.1, p.2, (hearAll_set h.nodup _ _).mpr (.inl hp), (h.stored p hp).1, (h.stored p hp).2⟩
  held k v hs hk := by
    rcases (hearAll_set h.nodup _ _).mp hs with hmem | ⟨-, hs⟩
    · rw [(h.stored _ hmem).2]
      exact hmem
    · exact h.held k v hs hk

/-- All rows are told to a side that knows nothing. -/
theorem told_first (hnodup : (rows.map Prod.fst).Nodup) (hstored : ∀ p ∈ rows, toKey p.1 = p.1 ∧ toVal p.2 = p.2) :
    Told toKey toVal rows (hearAll (fun _ ↦ none) (rows.map fun p ↦ .set p.1 p.2)) where
  nodup := hnodup
  stored := hstored
  stands p hp := ⟨p.1, p.2, (hearAll_set hnodup _ _).mpr (.inl hp), (hstored p hp).1, (hstored p hp).2⟩
  held k v hs _ := by
    rcases (hearAll_set hnodup _ _).mp hs with hmem | ⟨-, hs⟩
    · rw [(hstored _ hmem).2]
      exact hmem
    · cases hs

omit [DecidableEq κ] in
/-- Where nothing is cut, what stands is what the table holds. -/
theorem Told.exact (h : Told toKey toVal rows s) (hwhole : ∀ k v, s k = some v → toKey k = k ∧ toVal v = v) (k : κ)
    (v : ν) : s k = some v ↔ (k, v) ∈ rows := by
  constructor
  · intro hs
    have hmem := h.held k v hs (hwhole k v hs).1
    rwa [(hwhole k v hs).2] at hmem
  · intro hmem
    obtain ⟨k', v', hs, hk, hv⟩ := h.stands _ hmem
    obtain ⟨hk', hv'⟩ := hwhole k' v' hs
    obtain rfl : k' = k := hk'.symm.trans hk
    obtain rfl : v' = v := hv'.symm.trans hv
    exact hs

/-- A key that the column cuts is never taken back where only keys of the table are. -/
theorem hearAll_of_cut {l : List (Announcement κ ν)} (hl : ∀ k, .unset k ∈ l → toKey k = k) {k : κ}
    (hcut : toKey k ≠ k) (hs : (s k).isSome = true) : (hearAll s l k).isSome = true := by
  induction l generalizing s with
  | nil => exact hs
  | cons a l ih =>
    refine ih (fun k hk ↦ hl k (List.mem_cons_of_mem _ hk)) ?_
    cases a with
    | set k' v =>
      rw [hear, Function.update_apply]
      split_ifs
      · rfl
      · exact hs
    | unset k' =>
      have hne : k ≠ k' := fun heq ↦ hcut (heq ▸ hl k' List.mem_cons_self)
      rw [hear, Function.update_of_ne hne]
      exact hs

end Steps

end BlitzedServices.Lib
