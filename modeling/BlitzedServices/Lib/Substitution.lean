import Mathlib

/-!
# Replacing the occurrences of a word

The occurrences of `old` in a list are counted from the left, without overlaps. `replaceWithin` puts `new` in
their place one after another, for as long as the whole list stays below a bound; `front` is the part that is
done. `replaceWithin_cases` is one occurrence, or the head of the list when there is none.
-/

set_option autoImplicit false
set_option relaxedAutoImplicit false

namespace BlitzedServices.Lib.Substitution

variable {α : Type} [DecidableEq α]

/-- The number of leftmost occurrences that do not overlap. -/
def occurrences (old : List α) : List α → ℕ
  | [] => 0
  | c :: s =>
    if old.isPrefixOf (c :: s) then occurrences old (s.drop (old.length - 1)) + 1 else occurrences old s
termination_by s => s.length
decreasing_by
  all_goals
    simp only [List.length_drop, List.length_cons]
    omega

/-- The occurrences of `old` replaced from the left until the list would reach `size`. -/
def replaceWithin (size : ℕ) (old new front : List α) : List α → List α
  | [] => front
  | c :: s =>
    if old.isPrefixOf (c :: s) then
      if (front ++ new ++ s.drop (old.length - 1)).length < size then
        replaceWithin size old new (front ++ new) (s.drop (old.length - 1))
      else front ++ c :: s
    else replaceWithin size old new (front ++ [c]) s
termination_by s => s.length
decreasing_by
  all_goals
    simp only [List.length_drop, List.length_cons]
    omega

variable {size : ℕ} {old new front : List α}

@[simp]
theorem occurrences_nil : occurrences old [] = 0 := by
  rw [occurrences]

@[simp]
theorem replaceWithin_nil : replaceWithin size old new front [] = front := by
  rw [replaceWithin]

theorem occurrences_cons_of_elsewhere {c : α} {s : List α} (h : ¬old <+: c :: s) :
    occurrences old (c :: s) = occurrences old s := by
  rw [occurrences, if_neg (by rwa [List.isPrefixOf_iff_prefix])]

theorem replaceWithin_cons_of_elsewhere {c : α} {s : List α} (h : ¬old <+: c :: s) :
    replaceWithin size old new front (c :: s) = replaceWithin size old new (front ++ [c]) s := by
  rw [replaceWithin, if_neg (by rwa [List.isPrefixOf_iff_prefix])]

theorem occurrences_append (hold : old ≠ []) (s : List α) :
    occurrences old (old ++ s) = occurrences old s + 1 := by
  cases old with
  | nil => exact absurd rfl hold
  | cons d old =>
    rw [List.cons_append, occurrences, if_pos]
    · simp
    · rw [List.isPrefixOf_iff_prefix, ← List.cons_append]
      exact List.prefix_append _ _

theorem replaceWithin_append (hold : old ≠ []) (s : List α) :
    replaceWithin size old new front (old ++ s) =
      if (front ++ new ++ s).length < size then replaceWithin size old new (front ++ new) s
      else front ++ (old ++ s) := by
  cases old with
  | nil => exact absurd rfl hold
  | cons d old =>
    rw [List.cons_append, replaceWithin, if_pos]
    · simp
    · rw [List.isPrefixOf_iff_prefix, ← List.cons_append]
      exact List.prefix_append _ _

/-- A list is empty, or has an occurrence at its head, or has none there. -/
theorem occurrence_cases (old s : List α) :
    s = [] ∨ (∃ rest, s = old ++ rest) ∨ ∃ c rest, s = c :: rest ∧ ¬old <+: c :: rest := by
  by_cases hprefix : old <+: s
  · rcases hprefix with ⟨rest, hrest⟩
    exact .inr (.inl ⟨rest, hrest.symm⟩)
  · cases s with
    | nil => exact .inl rfl
    | cons c rest => exact .inr (.inr ⟨c, rest, rfl, hprefix⟩)

/-- Induction along the occurrences. -/
theorem occurrence_induction (new : List α) {motive : List α → List α → Prop} (hold : old ≠ [])
    (nil : ∀ front, motive front [])
    (occurrence : ∀ front rest, motive (front ++ new) rest → motive front (old ++ rest))
    (skip : ∀ front c rest, ¬old <+: c :: rest → motive (front ++ [c]) rest → motive front (c :: rest))
    (front s : List α) : motive front s := by
  induction hlen : s.length using Nat.strongRecOn generalizing front s with
  | ind len ih =>
    have hpos := List.length_pos_iff.mpr hold
    rcases occurrence_cases old s with rfl | ⟨rest, rfl⟩ | ⟨c, rest, rfl, hnot⟩
    · exact nil front
    · rw [List.length_append] at hlen
      exact occurrence front rest (ih rest.length (by omega) _ rest rfl)
    · rw [List.length_cons] at hlen
      exact skip front c rest hnot (ih rest.length (by omega) _ rest rfl)

/-- Without an occurrence the list stays. -/
theorem replaceWithin_of_occurrences_eq_zero {s : List α} (hold : old ≠ []) (h : occurrences old s = 0) :
    replaceWithin size old new front s = front ++ s := by
  induction front, s using occurrence_induction new hold with
  | nil front => rw [replaceWithin_nil, List.append_nil]
  | occurrence front rest ih =>
    rw [occurrences_append hold] at h
    omega
  | skip front c rest hnot ih =>
    rw [occurrences_cons_of_elsewhere hnot] at h
    rw [replaceWithin_cons_of_elsewhere hnot, ih h, List.append_assoc, List.singleton_append]

/-- Without room for one longer word the list stays. -/
theorem replaceWithin_of_no_room {s : List α} (hold : old ≠ []) (hle : old.length ≤ new.length)
    (hroom : size ≤ (front ++ s).length + (new.length - old.length)) :
    replaceWithin size old new front s = front ++ s := by
  induction front, s using occurrence_induction new hold with
  | nil front => rw [replaceWithin_nil, List.append_nil]
  | occurrence front rest ih =>
    rw [replaceWithin_append hold, if_neg]
    simp only [List.length_append] at hroom ⊢
    omega
  | skip front c rest hnot ih =>
    rw [replaceWithin_cons_of_elsewhere hnot, ih, List.append_assoc, List.singleton_append]
    simp only [List.length_append, List.length_cons, List.length_nil] at hroom ⊢
    omega

/-- A shorter word always fits: the list gets shorter with each occurrence. -/
theorem length_replaceWithin_of_lt (front : List α) {s : List α} (hold : old ≠ []) (hlt : new.length < old.length)
    (hsize : (front ++ s).length < size) :
    (replaceWithin size old new front s).length + occurrences old s * (old.length - new.length) =
      (front ++ s).length := by
  induction front, s using occurrence_induction new hold with
  | nil front => simp
  | occurrence front rest ih =>
    simp only [List.length_append] at hsize ih ⊢
    have hfits : (front ++ new ++ rest).length < size := by
      simp only [List.length_append]
      omega
    rw [replaceWithin_append hold, if_pos hfits, occurrences_append hold, Nat.add_one_mul]
    have hrest := ih (by omega)
    omega
  | skip front c rest hnot ih =>
    simp only [List.length_append, List.length_cons, List.length_nil] at hsize ih ⊢
    rw [replaceWithin_cons_of_elsewhere hnot, occurrences_cons_of_elsewhere hnot]
    have hrest := ih (by omega)
    omega

end BlitzedServices.Lib.Substitution
