import Mathlib.Data.List.Nodup
import Mathlib.Logic.Function.Basic

/-!
# Two indexes of one relation

A relation is kept twice: every `a` has the list of the `b` it is related to, and every `b` the list of the `a`.
`Mirrored` says that the two agree and that nothing is listed twice. Adding one pair, removing one pair, and removing
all pairs of one side keep it.
-/

set_option autoImplicit false
set_option relaxedAutoImplicit false

namespace BlitzedServices.Lib

variable {α β : Type} {left left' : α → List β} {right right' : β → List α} {a : α} {b : β}

/-- The two indexes list the same pairs, each once. -/
structure Mirrored (left : α → List β) (right : β → List α) : Prop where
  mem_iff : ∀ a b, b ∈ left a ↔ a ∈ right b
  left_nodup : ∀ a, (left a).Nodup
  right_nodup : ∀ b, (right b).Nodup

theorem mirrored_empty : Mirrored (fun _ : α ↦ ([] : List β)) fun _ ↦ [] :=
  ⟨fun _ _ ↦ iff_of_false List.not_mem_nil List.not_mem_nil, fun _ ↦ List.nodup_nil, fun _ ↦ List.nodup_nil⟩

section Entries

variable [BEq α] [LawfulBEq α]

/-- The lists on one side need only be erased from where the other side says. -/
theorem Mirrored.erase_of_notMem (h : Mirrored left right) (hb : b ∉ left a) : (right b).erase a = right b :=
  List.erase_of_not_mem fun hmem ↦ hb ((h.mem_iff a b).mpr hmem)

variable [DecidableEq α]

/-- All pairs of one side are taken out: its list is emptied, and it is erased wherever it is listed. -/
theorem Mirrored.removeAll (h : Mirrored left right) (a : α) :
    Mirrored (Function.update left a []) fun b ↦ (right b).erase a where
  mem_iff := by
    intro x y
    by_cases hx : x = a
    · rw [hx, Function.update_self]
      exact iff_of_false List.not_mem_nil (h.right_nodup y).not_mem_erase
    · rw [Function.update_of_ne hx, List.mem_erase_of_ne hx]
      exact h.mem_iff x y
  left_nodup := by
    intro x
    by_cases hx : x = a
    · rw [hx, Function.update_self]
      exact List.nodup_nil
    · rw [Function.update_of_ne hx]
      exact h.left_nodup x
  right_nodup := fun y ↦ (h.right_nodup y).erase a

variable [DecidableEq β] [BEq β] [LawfulBEq β]

/-- A pair is taken out of both lists. -/
theorem Mirrored.remove (h : Mirrored left right) (a : α) (b : β) :
    Mirrored (Function.update left a ((left a).erase b)) (Function.update right b ((right b).erase a)) where
  mem_iff := by
    intro x y
    by_cases hx : x = a <;> by_cases hy : y = b
    · rw [hx, hy, Function.update_self, Function.update_self]
      exact iff_of_false (h.left_nodup a).not_mem_erase (h.right_nodup b).not_mem_erase
    · rw [hx, Function.update_self, Function.update_of_ne hy, List.mem_erase_of_ne hy]
      exact h.mem_iff a y
    · rw [hy, Function.update_self, Function.update_of_ne hx, List.mem_erase_of_ne hx]
      exact h.mem_iff x b
    · rw [Function.update_of_ne hx, Function.update_of_ne hy]
      exact h.mem_iff x y
  left_nodup := by
    intro x
    by_cases hx : x = a
    · rw [hx, Function.update_self]
      exact (h.left_nodup a).erase b
    · rw [Function.update_of_ne hx]
      exact h.left_nodup x
  right_nodup := by
    intro y
    by_cases hy : y = b
    · rw [hy, Function.update_self]
      exact (h.right_nodup b).erase a
    · rw [Function.update_of_ne hy]
      exact h.right_nodup y

end Entries

/-- A pair that is in neither index is put in front of both lists. -/
theorem Mirrored.add [DecidableEq α] [DecidableEq β] (h : Mirrored left right) (hab : a ∉ right b) :
    Mirrored (Function.update left a (b :: left a)) (Function.update right b (a :: right b)) where
  mem_iff := by
    intro x y
    by_cases hx : x = a <;> by_cases hy : y = b
    · simp [hx, hy]
    · simp [hx, hy, h.mem_iff]
    · simp [hx, hy, h.mem_iff]
    · simp [hx, hy, h.mem_iff]
  left_nodup := by
    intro x
    by_cases hx : x = a
    · rw [hx, Function.update_self]
      exact List.nodup_cons.mpr ⟨fun hmem ↦ hab ((h.mem_iff a b).mp hmem), h.left_nodup a⟩
    · rw [Function.update_of_ne hx]
      exact h.left_nodup x
  right_nodup := by
    intro y
    by_cases hy : y = b
    · rw [hy, Function.update_self]
      exact List.nodup_cons.mpr ⟨hab, h.right_nodup b⟩
    · rw [Function.update_of_ne hy]
      exact h.right_nodup y

end BlitzedServices.Lib
