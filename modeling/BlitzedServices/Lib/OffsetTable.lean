import Mathlib

/-!
# Entries behind a table of their positions

A count, then for every entry its position and its length, then the entries one after the other. Numbers are
written by any function that takes a fixed number of symbols. `drop_packed_table` says what stands in the table
for an entry, and `take_drop_packed` that its position and length lead to it.
-/

set_option autoImplicit false
set_option relaxedAutoImplicit false

namespace BlitzedServices.Lib

variable {α : Type} (put : ℕ → List α) {w : ℕ}

/-- The positions and lengths of entries, the first of which stands at a position. -/
def offsetTable : ℕ → List (List α) → List α
  | _, [] => []
  | pos, e :: es => put pos ++ put e.length ++ offsetTable (pos + e.length) es

/-- Where the first entry stands. -/
def firstOffset (w count : ℕ) : ℕ := count * (2 * w) + w

/-- The count, the table and the entries. -/
def packed (w : ℕ) (es : List (List α)) : List α :=
  put es.length ++ offsetTable put (firstOffset w es.length) es ++ es.flatten

/-- Where an entry stands. -/
def entryOffset (w : ℕ) (es : List (List α)) (i : ℕ) : ℕ :=
  firstOffset w es.length + (es.take i).flatten.length

variable {put}

theorem length_offsetTable (hput : ∀ n, (put n).length = w) (pos : ℕ) (es : List (List α)) :
    (offsetTable put pos es).length = es.length * (2 * w) := by
  induction es generalizing pos with
  | nil => simp [offsetTable]
  | cons e es ih =>
    rw [offsetTable, List.length_append, List.length_append, hput, hput, ih, List.length_cons]
    ring

theorem drop_offsetTable (hput : ∀ n, (put n).length = w) (pos : ℕ) (es : List (List α)) {i : ℕ}
    (hi : i < es.length) :
    ∃ rest, (offsetTable put pos es).drop (i * (2 * w)) =
      put (pos + (es.take i).flatten.length) ++ put es[i].length ++ rest := by
  induction es generalizing pos i with
  | nil => exact absurd hi (Nat.not_lt_zero i)
  | cons e es ih =>
    cases i with
    | zero => exact ⟨offsetTable put (pos + e.length) es, by simp [offsetTable]⟩
    | succ i =>
      obtain ⟨rest, hrest⟩ := ih (pos + e.length) (Nat.lt_of_succ_lt_succ hi)
      refine ⟨rest, ?_⟩
      have hfront : (put pos ++ put e.length).length = 2 * w := by
        rw [List.length_append, hput, hput]
        omega
      have hskip : (i + 1) * (2 * w) = (put pos ++ put e.length).length + i * (2 * w) := by
        rw [hfront]
        ring
      rw [offsetTable, hskip, List.drop_length_add_append, hrest, List.getElem_cons_succ, List.take_succ_cons,
        List.flatten_cons, List.length_append, Nat.add_assoc]

theorem length_header (hput : ∀ n, (put n).length = w) (es : List (List α)) :
    (put es.length ++ offsetTable put (firstOffset w es.length) es).length = firstOffset w es.length := by
  rw [List.length_append, hput, length_offsetTable hput, firstOffset, Nat.add_comm]

theorem length_packed (hput : ∀ n, (put n).length = w) (es : List (List α)) :
    (packed put w es).length = firstOffset w es.length + es.flatten.length := by
  rw [packed, List.length_append, length_header hput]

/-- The table has for an entry its position and its length. -/
theorem drop_packed_table (hput : ∀ n, (put n).length = w) (es : List (List α)) {i : ℕ} (hi : i < es.length) :
    ∃ rest, (packed put w es).drop (i * (2 * w) + w) =
      put (entryOffset w es i) ++ put es[i].length ++ rest := by
  obtain ⟨rest, hrest⟩ := drop_offsetTable hput (firstOffset w es.length) es hi
  refine ⟨rest ++ es.flatten, ?_⟩
  have hle : i * (2 * w) ≤ (offsetTable put (firstOffset w es.length) es).length := by
    rw [length_offsetTable hput]
    exact Nat.mul_le_mul_right _ hi.le
  have hskip : i * (2 * w) + w = (put es.length).length + i * (2 * w) := by
    rw [hput, Nat.add_comm]
  rw [packed, List.append_assoc, hskip, List.drop_length_add_append, List.drop_append_of_le_length hle, hrest,
    entryOffset, List.append_assoc]

theorem take_drop_flatten (es : List (List α)) {i : ℕ} (hi : i < es.length) :
    (es.flatten.drop (es.take i).flatten.length).take es[i].length = es[i] := by
  have hsplit : es.flatten = (es.take i).flatten ++ (es[i] ++ (es.drop (i + 1)).flatten) := by
    rw [← List.flatten_cons, List.getElem_cons_drop, ← List.flatten_append, List.take_append_drop]
  rw [hsplit, List.drop_left, List.take_left]

/-- At the position of an entry stands the entry. -/
theorem take_drop_packed (hput : ∀ n, (put n).length = w) (es : List (List α)) {i : ℕ} (hi : i < es.length) :
    ((packed put w es).drop (entryOffset w es i)).take es[i].length = es[i] := by
  rw [packed, entryOffset]
  nth_rewrite 1 [← length_header hput es]
  rw [List.drop_length_add_append]
  exact take_drop_flatten es hi

/-- An entry begins in front of the end. -/
theorem entryOffset_le_length (hput : ∀ n, (put n).length = w) (es : List (List α)) (i : ℕ) :
    entryOffset w es i ≤ (packed put w es).length := by
  have hsplit : es.flatten = (es.take i).flatten ++ (es.drop i).flatten := by
    rw [← List.flatten_append, List.take_append_drop]
  rw [length_packed hput, entryOffset, hsplit, List.length_append]
  omega

end BlitzedServices.Lib
