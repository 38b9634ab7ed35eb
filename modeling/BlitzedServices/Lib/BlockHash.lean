import Mathlib

/-!
# Hashing a stream block by block

`feed` takes the elements of a stream one by one. They gather in a block, and a full block goes into the state. So a
stream that comes in pieces is fed as the whole is (`feed_append`), and what a machine with a buffer does at once is a
block that fills up (`feed_full`) or does not (`feed_short`).
-/

set_option autoImplicit false
set_option relaxedAutoImplicit false

namespace BlitzedServices.Lib

variable {σ β : Type}

/-- One element goes into the block that gathers behind the state. -/
def gather (compress : σ → List β → σ) (size : ℕ) (p : σ × List β) (x : β) : σ × List β :=
  if p.2.length + 1 = size then (compress p.1 (p.2 ++ [x]), []) else (p.1, p.2 ++ [x])

/-- A stream goes in. -/
def feed (compress : σ → List β → σ) (size : ℕ) (p : σ × List β) (xs : List β) : σ × List β :=
  xs.foldl (gather compress size) p

/-- `n` in `k` bytes, the highest first. -/
def bigEndian (k n : ℕ) : List (BitVec 8) :=
  (List.range k).map fun i ↦ BitVec.ofNat 8 (n / 256 ^ (k - 1 - i))

@[simp] theorem length_bigEndian (k n : ℕ) : (bigEndian k n).length = k := by
  rw [bigEndian, List.length_map, List.length_range]

section Feed

variable {compress : σ → List β → σ} {size : ℕ}

theorem feed_append (p : σ × List β) (xs ys : List β) :
    feed compress size p (xs ++ ys) = feed compress size (feed compress size p xs) ys :=
  List.foldl_append

/-- What does not fill the block is put behind it. -/
theorem feed_short {p : σ × List β} {xs : List β} (h : p.2.length + xs.length < size) :
    feed compress size p xs = (p.1, p.2 ++ xs) := by
  induction xs generalizing p with
  | nil => rw [List.append_nil]; rfl
  | cons x xs ih =>
    rw [List.length_cons] at h
    have hone : gather compress size p x = (p.1, p.2 ++ [x]) := if_neg (by omega)
    rw [feed, List.foldl_cons, hone, ← feed, ih (by rw [List.length_append, List.length_singleton]; omega),
      List.append_assoc, List.singleton_append]

/-- What fills the block to the end makes it go into the state. -/
theorem feed_full {p : σ × List β} {xs : List β} (hxs : xs ≠ []) (h : p.2.length + xs.length = size) :
    feed compress size p xs = (compress p.1 (p.2 ++ xs), []) := by
  obtain ⟨front, x, rfl⟩ := (List.eq_nil_or_concat' xs).resolve_left hxs
  rw [List.length_append, List.length_singleton] at h
  have hfront : feed compress size p front = (p.1, p.2 ++ front) := feed_short (by omega)
  have hfull : (p.2 ++ front).length + 1 = size := by
    rw [List.length_append]
    omega
  rw [feed_append, hfront, ← List.append_assoc]
  exact if_pos hfull

/-- A whole block goes into the state at once when none has begun. -/
theorem feed_block {s : σ} {block : List β} (hsize : 0 < size) (h : block.length = size) :
    feed compress size (s, []) block = (compress s block, []) :=
  feed_full (List.ne_nil_of_length_pos (by omega)) (by rw [h]; exact Nat.zero_add size)

theorem gather_length {p : σ × List β} (x : β) (h : p.2.length < size) :
    (gather compress size p x).2.length = (p.2.length + 1) % size := by
  rw [gather]
  split_ifs with hfull
  · rw [hfull, Nat.mod_self, List.length_nil]
  · rw [List.length_append, List.length_singleton, Nat.mod_eq_of_lt (by omega)]

theorem feed_length {p : σ × List β} (xs : List β) (h : p.2.length < size) :
    (feed compress size p xs).2.length = (p.2.length + xs.length) % size := by
  induction xs generalizing p with
  | nil => rw [List.length_nil, Nat.add_zero, Nat.mod_eq_of_lt h]; rfl
  | cons x xs ih =>
    have hone : (gather compress size p x).2.length = (p.2.length + 1) % size := gather_length x h
    have hlt : (gather compress size p x).2.length < size := by
      rw [hone]
      exact Nat.mod_lt _ (by omega)
    rw [feed, List.foldl_cons, ← feed, ih hlt, hone, Nat.mod_add_mod, List.length_cons]
    congr 1
    omega

end Feed

end BlitzedServices.Lib
