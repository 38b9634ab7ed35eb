import Mathlib

/-!
# Circular buffers that leave one cell unused

A buffer of `size` cells with a head, the next element to take, and a tail, the next free cell.
Both positions are below `size` by construction. Equal positions mean an empty buffer, so at most
`size - 1` elements fit, and a chunk is stored or taken without crossing the end of the array:
`push` and `pop` move a position by a whole chunk and wrap it only when it reaches the end.

`contents` is the list of elements from head to tail. The two laws are `contents_push`, storing a
chunk appends it, and `contents_eq_slice_append_pop`, a chunk read at the head is the front of the
contents and `pop` drops exactly it.
-/

set_option autoImplicit false
set_option relaxedAutoImplicit false

namespace BlitzedServices.Lib

/-- A circular buffer of `size` cells. Cells outside the array are never read by `contents`. -/
structure CircularBuffer (α : Type*) (size : ℕ) where
  cell : ℕ → α
  head : ℕ
  tail : ℕ
  head_lt : head < size
  tail_lt : tail < size

namespace CircularBuffer

variable {α : Type*} {size : ℕ}

/-- The array index `offset` cells after `position`, wrapping once. -/
def wrapIndex (size position offset : ℕ) : ℕ :=
  if position + offset < size then position + offset else position + offset - size

/-- The number of stored elements. -/
def length (b : CircularBuffer α size) : ℕ :=
  if b.head ≤ b.tail then b.tail - b.head else b.tail + size - b.head

/-- The stored elements, oldest first. -/
def contents (b : CircularBuffer α size) : List α :=
  (List.range b.length).map fun offset ↦ b.cell (wrapIndex size b.head offset)

/-- The `count` cells from `position` on, read without wrapping. -/
def slice (cell : ℕ → α) (position count : ℕ) : List α :=
  (List.range count).map fun offset ↦ cell (position + offset)

/-- The array after a chunk is copied to the cells from `position` on. -/
def store (cell : ℕ → α) (position : ℕ) (chunk : List α) (i : ℕ) : α :=
  if h : position ≤ i ∧ i - position < chunk.length then chunk[i - position] else cell i

/-- A position moved forward by `count` cells, sent back to the start at the end of the array. -/
def advance (size position count : ℕ) : ℕ :=
  if position + count < size then position + count else 0

theorem advance_lt {position count : ℕ} (h : position < size) :
    advance size position count < size := by
  unfold advance
  split_ifs <;> omega

/-- Copies a chunk to the tail and moves the tail past it. -/
def push (b : CircularBuffer α size) (chunk : List α) : CircularBuffer α size where
  cell := store b.cell b.tail chunk
  head := b.head
  tail := advance size b.tail chunk.length
  head_lt := b.head_lt
  tail_lt := advance_lt b.tail_lt

/-- Moves the head past `count` cells. -/
def pop (b : CircularBuffer α size) (count : ℕ) : CircularBuffer α size where
  cell := b.cell
  head := advance size b.head count
  tail := b.tail
  head_lt := advance_lt b.head_lt
  tail_lt := b.tail_lt

@[simp] theorem push_head (b : CircularBuffer α size) (chunk : List α) :
    (b.push chunk).head = b.head := rfl

@[simp] theorem push_tail (b : CircularBuffer α size) (chunk : List α) :
    (b.push chunk).tail = advance size b.tail chunk.length := rfl

@[simp] theorem pop_head (b : CircularBuffer α size) (count : ℕ) :
    (b.pop count).head = advance size b.head count := rfl

@[simp] theorem pop_tail (b : CircularBuffer α size) (count : ℕ) :
    (b.pop count).tail = b.tail := rfl

@[simp] theorem length_contents (b : CircularBuffer α size) : b.contents.length = b.length := by
  simp [contents]

@[simp] theorem length_slice (cell : ℕ → α) (position count : ℕ) :
    (slice cell position count).length = count := by
  simp [slice]

theorem getElem_contents (b : CircularBuffer α size) (i : ℕ) (h : i < b.contents.length) :
    b.contents[i] = b.cell (wrapIndex size b.head i) := by
  simp [contents]

theorem getElem_slice (cell : ℕ → α) (position count i : ℕ)
    (h : i < (slice cell position count).length) :
    (slice cell position count)[i] = cell (position + i) := by
  simp [slice]

theorem length_lt (b : CircularBuffer α size) : b.length < size := by
  have hhead := b.head_lt
  have htail := b.tail_lt
  unfold length
  split_ifs <;> omega

theorem length_eq_zero_iff (b : CircularBuffer α size) : b.length = 0 ↔ b.head = b.tail := by
  have hhead := b.head_lt
  have htail := b.tail_lt
  unfold length
  split_ifs <;> omega

theorem contents_eq_nil_iff (b : CircularBuffer α size) : b.contents = [] ↔ b.head = b.tail := by
  rw [← List.length_eq_zero_iff, length_contents, length_eq_zero_iff]

/-- One cell stays unused, so a chunk that keeps the length below `size` keeps head and tail
distinct unless nothing is stored. -/
theorem length_push (b : CircularBuffer α size) (chunk : List α)
    (hend : b.tail + chunk.length ≤ size) (hfit : b.length + chunk.length < size) :
    (b.push chunk).length = b.length + chunk.length := by
  have hhead := b.head_lt
  have htail := b.tail_lt
  simp only [length, push_head, push_tail, advance] at hfit ⊢
  split_ifs at hfit ⊢ <;> omega

theorem length_pop (b : CircularBuffer α size) (count : ℕ)
    (hend : b.head + count ≤ size) (hcount : count ≤ b.length) :
    (b.pop count).length = b.length - count := by
  have hhead := b.head_lt
  have htail := b.tail_lt
  simp only [length, pop_head, pop_tail, advance] at hcount ⊢
  split_ifs at hcount ⊢ <;> omega

theorem store_of_mem (cell : ℕ → α) (position : ℕ) (chunk : List α) (i : ℕ)
    (hi : i < chunk.length) : store cell position chunk (position + i) = chunk[i] := by
  simp [store, hi]

theorem store_of_not_mem (cell : ℕ → α) (position : ℕ) (chunk : List α) (i : ℕ)
    (hi : i < position ∨ position + chunk.length ≤ i) :
    store cell position chunk i = cell i := by
  unfold store
  rw [dif_neg]
  omega

/-- A stored element lies `i` cells after the head, away from the free cells at the tail. -/
theorem wrapIndex_outside_tail (b : CircularBuffer α size) {count i : ℕ}
    (hfit : b.length + count < size) (hi : i < b.length) :
    wrapIndex size b.head i < b.tail ∨ b.tail + count ≤ wrapIndex size b.head i := by
  have hhead := b.head_lt
  have htail := b.tail_lt
  unfold length at hfit hi
  unfold wrapIndex
  split_ifs at hfit hi ⊢ <;> omega

/-- The cells that a chunk fills continue the contents. -/
theorem wrapIndex_add_length (b : CircularBuffer α size) {count i : ℕ}
    (hend : b.tail + count ≤ size) (hi : i < count) :
    wrapIndex size b.head (b.length + i) = b.tail + i := by
  have hhead := b.head_lt
  have htail := b.tail_lt
  unfold length wrapIndex
  split_ifs <;> omega

/-- Storing a chunk that does not cross the end of the array and leaves one cell unused appends it
to the contents. -/
theorem contents_push (b : CircularBuffer α size) (chunk : List α)
    (hend : b.tail + chunk.length ≤ size) (hfit : b.length + chunk.length < size) :
    (b.push chunk).contents = b.contents ++ chunk := by
  have hlength := length_push b chunk hend hfit
  apply List.ext_getElem
  · simp [hlength]
  · intro i hleft hright
    rw [getElem_contents]
    rw [length_contents, hlength] at hleft
    change store b.cell b.tail chunk (wrapIndex size b.head i) = _
    by_cases hold : i < b.length
    · rw [store_of_not_mem _ _ _ _ (wrapIndex_outside_tail b hfit hold),
        List.getElem_append_left (by simpa using hold), getElem_contents]
    · obtain ⟨k, rfl⟩ := Nat.exists_eq_add_of_le (not_lt.mp hold)
      have hk : k < chunk.length := by omega
      rw [wrapIndex_add_length b hend hk, store_of_mem _ _ _ _ hk,
        List.getElem_append_right (by simp)]
      simp

/-- A chunk read at the head without crossing the end of the array is the front of the contents,
and moving the head past it leaves the rest. -/
theorem contents_eq_slice_append_pop (b : CircularBuffer α size) (count : ℕ)
    (hend : b.head + count ≤ size) (hcount : count ≤ b.length) :
    b.contents = slice b.cell b.head count ++ (b.pop count).contents := by
  have hhead := b.head_lt
  have hlength := length_pop b count hend hcount
  apply List.ext_getElem
  · simp [hlength]
    omega
  · intro i hleft hright
    rw [length_contents] at hleft
    rw [getElem_contents]
    by_cases hfront : i < count
    · rw [List.getElem_append_left (by simpa using hfront), getElem_slice]
      congr 1
      unfold wrapIndex
      split_ifs <;> omega
    · obtain ⟨k, rfl⟩ := Nat.exists_eq_add_of_le (not_lt.mp hfront)
      rw [List.getElem_append_right (by simp), getElem_contents]
      change b.cell _ = b.cell _
      congr 1
      have htail := b.tail_lt
      simp only [wrapIndex, pop_head, advance, length_slice, Nat.add_sub_cancel_left]
      unfold length at hleft
      split_ifs at hleft ⊢ <;> omega

end CircularBuffer

end BlitzedServices.Lib
