import Mathlib.Data.List.Nodup
import Mathlib.Data.List.Range

/-!
# A ledger of allocated blocks

Blocks of the heap are numbered in the order of their allocation, and the ledger keeps those that were
freed, with repetitions. `Owns` is the discipline of a program that frees a block at most once: it holds
the blocks of a list, none of them freed and none twice. Allocating, freeing a held block and forgetting
one keep it; freeing a block again can never be made good.
-/

set_option autoImplicit false
set_option relaxedAutoImplicit false

namespace BlitzedServices.Lib

/-- The number of the next block, and the blocks freed so far. -/
structure Ledger where
  fresh : ℕ
  freed : List ℕ

namespace Ledger

variable {l : Ledger} {live other : List ℕ} {block : ℕ}

/-- `n` allocations, of the blocks from `l.fresh` on. -/
def alloc (l : Ledger) (n : ℕ) : Ledger :=
  { l with fresh := l.fresh + n }

/-- The blocks of `n` allocations. -/
def news (l : Ledger) (n : ℕ) : List ℕ :=
  List.range' l.fresh n

/-- `free`. -/
def free (l : Ledger) (block : ℕ) : Ledger :=
  { l with freed := block :: l.freed }

/-- Every block was freed at most once. -/
def Clean (l : Ledger) : Prop :=
  l.freed.Nodup

/-- The blocks of `live` are allocated, different and not freed. -/
structure Owns (l : Ledger) (live : List ℕ) : Prop where
  nodup : (live ++ l.freed).Nodup
  lt_fresh : ∀ block ∈ live ++ l.freed, block < l.fresh

theorem Owns.clean (h : l.Owns live) : l.Clean :=
  h.nodup.of_append_right

theorem Owns.perm (h : l.Owns live) (hperm : live.Perm other) : l.Owns other := by
  have happend : (live ++ l.freed).Perm (other ++ l.freed) := hperm.append_right l.freed
  exact ⟨happend.nodup_iff.mp h.nodup, fun block hmem ↦ h.lt_fresh block (happend.mem_iff.mpr hmem)⟩

/-- Blocks may be forgotten. -/
theorem Owns.sublist (h : l.Owns live) (hsub : other.Sublist live) : l.Owns other :=
  ⟨h.nodup.sublist (hsub.append_right l.freed),
    fun block hmem ↦ h.lt_fresh block ((hsub.append_right l.freed).subset hmem)⟩

theorem Owns.alloc (h : l.Owns live) (n : ℕ) : (l.alloc n).Owns (l.news n ++ live) := by
  constructor
  · rw [List.append_assoc, List.nodup_append']
    refine ⟨List.nodup_range', h.nodup, fun block hnew hold ↦ ?_⟩
    have hlt := h.lt_fresh block hold
    have hle := (List.mem_range'_1.mp hnew).1
    omega
  · intro block hmem
    rw [List.append_assoc, List.mem_append] at hmem
    show block < l.fresh + n
    rcases hmem with hnew | hold
    · exact (List.mem_range'_1.mp hnew).2
    · exact (h.lt_fresh block hold).trans_le (Nat.le_add_right _ _)

theorem Owns.free (h : l.Owns (block :: live)) : (l.free block).Owns live := by
  have hperm : (block :: live ++ l.freed).Perm (live ++ block :: l.freed) := List.perm_middle.symm
  exact ⟨hperm.nodup_iff.mp h.nodup, fun other hmem ↦ h.lt_fresh other (hperm.mem_iff.mpr hmem)⟩

/-- Held blocks are freed one after the other. -/
theorem Owns.frees (h : l.Owns (live ++ other)) : (live.foldl Ledger.free l).Owns other := by
  induction live generalizing l with
  | nil => exact h
  | cons block live ih => exact ih h.free

theorem freed_suffix_frees (blocks : List ℕ) (l : Ledger) : l.freed <:+ (blocks.foldl Ledger.free l).freed := by
  induction blocks generalizing l with
  | nil => exact List.suffix_refl _
  | cons block blocks ih => exact (List.suffix_cons block _).trans (ih (l.free block))

theorem Clean.of_suffix {later : Ledger} (h : later.Clean) (hsuffix : l.freed <:+ later.freed) : l.Clean :=
  h.sublist hsuffix.sublist

/-- A block that was freed is freed again. -/
theorem not_clean_free (h : block ∈ l.freed) : ¬ (l.free block).Clean :=
  fun hclean ↦ (List.nodup_cons.mp hclean).1 h

end Ledger

end BlitzedServices.Lib
