import Mathlib.Data.List.Perm.Basic
import Mathlib.Data.List.Nodup
import Mathlib.Data.List.Range
import Mathlib.Order.Lattice

/-!
# Numbered lists in a table

The rows of a table belong to lists, and each has a number in its list. `Numbered` says that the numbers of a list are
1, 2, ... up to its length, each once, and `Ordered` that they follow a key. A row that is put behind the last one keeps
both, and so does numbering the list anew after rows were deleted; then every row that is left moves up by the number of
deleted rows before it (`idx_renumber_filter`).

Without that the next number is in use unless the deleted rows were the last ones (`numbered_append_filter_iff`).
-/

set_option autoImplicit false
set_option relaxedAutoImplicit false

namespace BlitzedServices.Lib

/-- The list a row belongs to, and its number there. -/
structure Numbering (ρ κ : Type) where
  owner : ρ → κ
  idx : ρ → ℕ
  setIdx : ℕ → ρ → ρ
  owner_setIdx : ∀ n r, owner (setIdx n r) = owner r
  idx_setIdx : ∀ n r, idx (setIdx n r) = n

namespace Numbering

variable {ρ κ : Type} [DecidableEq ρ] [DecidableEq κ] (N : Numbering ρ κ) {rows sorted : List ρ} {k k' : κ} {r s : ρ}

/-- The rows of a list. -/
def listed (k : κ) (rows : List ρ) : List ρ :=
  rows.filter fun r ↦ N.owner r = k

/-- The numbers of a list count from 1. -/
def Numbered (k : κ) (rows : List ρ) : Prop :=
  ((N.listed k rows).map N.idx).Perm (List.range' 1 (N.listed k rows).length)

/-- The numbers of a list follow a key. -/
def Ordered {τ : Type} [LE τ] (key : ρ → τ) (k : κ) (rows : List ρ) : Prop :=
  ∀ r ∈ N.listed k rows, ∀ s ∈ N.listed k rows, N.idx r < N.idx s → key r ≤ key s

/-- A row gets its place in a list as its number. -/
def renumberRow (sorted : List ρ) (r : ρ) : ρ :=
  if r ∈ sorted then N.setIdx (sorted.idxOf r + 1) r else r

/-- The rows of a list are numbered in the order in which they stand there. -/
def renumber (sorted rows : List ρ) : List ρ := rows.map (N.renumberRow sorted)

section Basics

omit [DecidableEq ρ]

theorem mem_listed : r ∈ N.listed k rows ↔ r ∈ rows ∧ N.owner r = k := by
  rw [listed, List.mem_filter, decide_eq_true_iff]

theorem listed_append (k : κ) (rows rows' : List ρ) : N.listed k (rows ++ rows') = N.listed k rows ++ N.listed k rows' :=
  List.filter_append ..

theorem listed_filter (k : κ) (p : ρ → Bool) (rows : List ρ) :
    N.listed k (rows.filter p) = (N.listed k rows).filter p := by
  rw [listed, listed, List.filter_comm]

theorem numbered_nil_of (h : N.listed k rows = []) : N.Numbered k rows := by
  rw [Numbered, h]
  exact List.Perm.refl _

/-- The numbers of a list are between 1 and its length, and each is the number of one row. -/
theorem Numbered.mem_iff {N : Numbering ρ κ} (h : N.Numbered k rows) (i : ℕ) :
    (∃ r ∈ N.listed k rows, N.idx r = i) ↔ 1 ≤ i ∧ i ≤ (N.listed k rows).length := by
  have hmem : i ∈ (N.listed k rows).map N.idx ↔ 1 ≤ i ∧ i ≤ (N.listed k rows).length := by
    rw [List.Perm.mem_iff h, List.mem_range'_1]
    omega
  rw [← hmem, List.mem_map]

theorem Numbered.idx_injective {N : Numbering ρ κ} (h : N.Numbered k rows) (hr : r ∈ N.listed k rows)
    (hs : s ∈ N.listed k rows) (heq : N.idx r = N.idx s) : r = s := by
  have hnodup : ((N.listed k rows).map N.idx).Nodup := h.nodup_iff.mpr List.nodup_range'
  exact List.inj_on_of_nodup_map hnodup hr hs heq

theorem countP_range'_le (n i : ℕ) (h : i ≤ n) : (List.range' 1 n).countP (· ≤ i) = i := by
  induction n with
  | zero => simpa using (Nat.le_zero.mp h).symm
  | succ n ih =>
    rw [List.range'_1_concat, List.countP_append, List.countP_singleton]
    by_cases hi : i ≤ n
    · rw [ih hi, if_neg (by simp only [decide_eq_true_eq]; omega), Nat.add_zero]
    · have hall : (List.range' 1 n).countP (· ≤ i) = (List.range' 1 n).length := by
        rw [List.countP_eq_length]
        intro j hj
        rw [List.mem_range'_1] at hj
        simp only [decide_eq_true_eq]
        omega
      rw [hall, List.length_range', if_pos (by simp only [decide_eq_true_eq]; omega)]
      omega

/-- The number of a row is the count of rows up to it. -/
theorem Numbered.countP_idx_le {N : Numbering ρ κ} (h : N.Numbered k rows) (hr : r ∈ N.listed k rows) :
    (N.listed k rows).countP (fun s ↦ N.idx s ≤ N.idx r) = N.idx r := by
  have hmap : (N.listed k rows).countP (fun s ↦ N.idx s ≤ N.idx r) =
      ((N.listed k rows).map N.idx).countP (· ≤ N.idx r) := by
    rw [List.countP_map]
    rfl
  rw [hmap, h.countP_eq, countP_range'_le _ _ ((h.mem_iff _).mp ⟨r, hr, rfl⟩).2]

end Basics

/-! ### A new row -/

section Append

omit [DecidableEq ρ]

/-- A row is put behind the last one of its list. -/
theorem Numbered.append {N : Numbering ρ κ} (h : N.Numbered k rows)
    (hr : N.owner r = k → N.idx r = (N.listed k rows).length + 1) : N.Numbered k (rows ++ [r]) := by
  rw [Numbered, listed_append]
  by_cases hk : N.owner r = k
  · have hone : N.listed k [r] = [r] := List.filter_cons_of_pos (by simpa using hk)
    rw [hone, List.map_append, List.length_append, List.length_singleton, List.range'_1_concat, List.map_singleton,
      hr hk, Nat.add_comm 1]
    exact h.append_right _
  · have hnone : N.listed k [r] = [] := List.filter_cons_of_neg (by simpa using hk)
    rw [hnone, List.append_nil]
    exact h

theorem Ordered.append {τ : Type} [Preorder τ] {key : ρ → τ} {N : Numbering ρ κ} (h : N.Ordered key k rows)
    (hlast : ∀ s ∈ N.listed k rows, key s ≤ key r ∧ N.idx s ≤ N.idx r) : N.Ordered key k (rows ++ [r]) := by
  intro x hx y hy hlt
  rw [listed_append, List.mem_append] at hx hy
  have hself (z : ρ) (hz : z ∈ N.listed k [r]) : z = r := List.mem_singleton.mp ((N.mem_listed.mp hz).1)
  rcases hx with hx | hx <;> rcases hy with hy | hy
  · exact h x hx y hy hlt
  · rw [hself y hy]
    exact (hlast x hx).1
  · rw [hself x hx] at hlt
    exact absurd (hlast y hy).2 (by omega)
  · rw [hself x hx, hself y hy]

end Append

/-! ### Numbering anew -/

section Renumber

variable {N}

theorem map_idxOf_of_nodup (h : sorted.Nodup) : sorted.map sorted.idxOf = List.range sorted.length := by
  refine List.ext_getElem (by rw [List.length_map, List.length_range]) fun i hi _ ↦ ?_
  rw [List.length_map] at hi
  rw [List.getElem_map, List.getElem_range, h.idxOf_getElem i hi]

omit [DecidableEq κ] in
theorem owner_renumberRow (sorted : List ρ) (r : ρ) : N.owner (N.renumberRow sorted r) = N.owner r := by
  rw [renumberRow]
  split_ifs
  · exact N.owner_setIdx _ _
  · rfl

theorem listed_renumber (k : κ) (sorted rows : List ρ) :
    N.listed k (N.renumber sorted rows) = (N.listed k rows).map (N.renumberRow sorted) := by
  rw [listed, renumber, List.filter_map]
  congr 2
  funext r
  rw [Function.comp_apply, owner_renumberRow]

/-- Other lists stay as they are. -/
theorem listed_renumber_of_ne (hsorted : ∀ r ∈ sorted, N.owner r = k) (hk : k' ≠ k) (rows : List ρ) :
    N.listed k' (N.renumber sorted rows) = N.listed k' rows := by
  rw [listed_renumber]
  refine (List.map_congr_left fun r hr ↦ ?_).trans (List.map_id _)
  rw [renumberRow, if_neg, id]
  intro hmem
  exact hk (((N.mem_listed.mp hr).2).symm.trans (hsorted r hmem))

/-- The numbers of a list that is numbered anew. -/
theorem map_idx_renumber (hsorted : sorted.Perm (N.listed k rows)) :
    (N.listed k (N.renumber sorted rows)).map N.idx = (N.listed k rows).map fun r ↦ sorted.idxOf r + 1 := by
  rw [listed_renumber, List.map_map]
  refine List.map_congr_left fun r hr ↦ ?_
  rw [Function.comp_apply, renumberRow, if_pos (hsorted.mem_iff.mpr hr), N.idx_setIdx]

theorem numbered_renumber (hnodup : rows.Nodup) (hsorted : sorted.Perm (N.listed k rows)) :
    N.Numbered k (N.renumber sorted rows) := by
  have hlen : (N.listed k (N.renumber sorted rows)).length = sorted.length := by
    rw [listed_renumber, List.length_map, hsorted.length_eq]
  have hrange : sorted.map (fun r ↦ sorted.idxOf r + 1) = List.range' 1 sorted.length := by
    have hplaces := map_idxOf_of_nodup (hsorted.nodup_iff.mpr (hnodup.filter _))
    rw [List.range'_eq_map_range, ← hplaces, List.map_map]
    exact List.map_congr_left fun r _ ↦ Nat.add_comm _ _
  rw [Numbered, map_idx_renumber hsorted, hlen, ← hrange]
  exact (hsorted.map _).symm

/-- All lists are numbered if they were, up to the one that is numbered anew. -/
theorem numbered_renumber_all (hnodup : rows.Nodup) (hsorted : sorted.Perm (N.listed k rows))
    (hrest : ∀ j, j ≠ k → N.Numbered j rows) (j : κ) : N.Numbered j (N.renumber sorted rows) := by
  by_cases hj : j = k
  · rw [hj]
    exact numbered_renumber hnodup hsorted
  · rw [Numbered, listed_renumber_of_ne (fun r hr ↦ (N.mem_listed.mp (hsorted.mem_iff.mp hr)).2) hj]
    exact hrest j hj

section Keys

variable {τ : Type} [LinearOrder τ] {key : ρ → τ}

omit [DecidableEq κ] [LinearOrder τ] in
theorem key_renumberRow (hkey : ∀ n r, key (N.setIdx n r) = key r) (sorted : List ρ) (r : ρ) :
    key (N.renumberRow sorted r) = key r := by
  rw [renumberRow]
  split_ifs
  · exact hkey _ _
  · rfl

theorem ordered_renumber (hkey : ∀ n r, key (N.setIdx n r) = key r) (hsorted : sorted.Perm (N.listed k rows))
    (hpairwise : sorted.Pairwise fun r s ↦ key r ≤ key s) : N.Ordered key k (N.renumber sorted rows) := by
  intro x hx y hy hlt
  rw [listed_renumber, List.mem_map] at hx hy
  obtain ⟨r, hr, rfl⟩ := hx
  obtain ⟨s, hs, rfl⟩ := hy
  rw [key_renumberRow hkey, key_renumberRow hkey]
  have hrmem := hsorted.mem_iff.mpr hr
  have hsmem := hsorted.mem_iff.mpr hs
  rw [renumberRow, if_pos hrmem, N.idx_setIdx, renumberRow, if_pos hsmem, N.idx_setIdx] at hlt
  have hplaces := List.pairwise_iff_getElem.mp hpairwise (sorted.idxOf r) (sorted.idxOf s)
    (List.idxOf_lt_length_of_mem hrmem) (List.idxOf_lt_length_of_mem hsmem) (by omega)
  rwa [List.getElem_idxOf, List.getElem_idxOf] at hplaces

theorem ordered_renumber_all (hkey : ∀ n r, key (N.setIdx n r) = key r) (hsorted : sorted.Perm (N.listed k rows))
    (hpairwise : sorted.Pairwise fun r s ↦ key r ≤ key s) (hrest : ∀ j, j ≠ k → N.Ordered key j rows) (j : κ) :
    N.Ordered key j (N.renumber sorted rows) := by
  by_cases hj : j = k
  · rw [hj]
    exact ordered_renumber hkey hsorted hpairwise
  · rw [Ordered, listed_renumber_of_ne (fun r hr ↦ (N.mem_listed.mp (hsorted.mem_iff.mp hr)).2) hj]
    exact hrest j hj

omit [DecidableEq ρ] in
/-- Where the keys differ, the number of a row is the rank of its key. -/
theorem Numbered.countP_key_le (h : N.Numbered k rows) (hordered : N.Ordered key k rows)
    (hinj : ∀ r ∈ N.listed k rows, ∀ s ∈ N.listed k rows, key r = key s → r = s) (hr : r ∈ N.listed k rows) :
    (N.listed k rows).countP (fun s ↦ key s ≤ key r) = N.idx r := by
  rw [← h.countP_idx_le hr]
  refine List.countP_congr fun s hs ↦ ?_
  rw [decide_eq_true_iff, decide_eq_true_iff]
  constructor
  · intro hle
    by_contra hlt
    have heq := le_antisymm hle (hordered r hr s hs (by omega))
    rw [hinj s hs r hr heq] at hlt
    exact hlt le_rfl
  · intro hle
    rcases Nat.lt_or_ge (N.idx s) (N.idx r) with hlt | hge
    · exact hordered s hs r hr hlt
    · rw [h.idx_injective hs hr (by omega)]

end Keys

end Renumber

/-! ### Deleting -/

section Delete

variable {N} {τ : Type} [LinearOrder τ] {key : ρ → τ} {p : ρ → Bool}

omit [DecidableEq ρ] in
/-- Deleting rows keeps the order of the rest. -/
theorem Ordered.filter (h : N.Ordered key k rows) (p : ρ → Bool) : N.Ordered key k (rows.filter p) := by
  intro r hr s hs
  rw [listed_filter, List.mem_filter] at hr hs
  exact h r hr.1 s hs.1

/-- A row that is left moves up by the number of deleted rows before it. -/
theorem idx_renumber_filter (hnodup : rows.Nodup) (h : N.Numbered k rows) (hordered : N.Ordered key k rows)
    (hinj : ∀ r ∈ N.listed k rows, ∀ s ∈ N.listed k rows, key r = key s → r = s)
    (hkey : ∀ n r, key (N.setIdx n r) = key r) (hsorted : sorted.Perm (N.listed k (rows.filter p)))
    (hpairwise : sorted.Pairwise fun r s ↦ key r ≤ key s) (hr : r ∈ N.listed k rows) (hp : p r = true) :
    N.idx (N.renumberRow sorted r) + (N.listed k rows).countP (fun s ↦ !p s && decide (N.idx s < N.idx r)) =
      N.idx r := by
  have hleft : r ∈ N.listed k (rows.filter p) := by
    rw [listed_filter]
    exact List.mem_filter.mpr ⟨hr, hp⟩
  let rows' := N.renumber sorted (rows.filter p)
  have hnew : N.renumberRow sorted r ∈ N.listed k rows' := by
    rw [listed_renumber]
    exact List.mem_map_of_mem hleft
  have hrank : (N.listed k rows').countP (fun s ↦ key s ≤ key (N.renumberRow sorted r)) =
      N.idx (N.renumberRow sorted r) := by
    refine (numbered_renumber (hnodup.filter p) hsorted).countP_key_le (ordered_renumber hkey hsorted hpairwise) ?_ hnew
    intro x hx y hy heq
    rw [listed_renumber, List.mem_map] at hx hy
    obtain ⟨x, hx, rfl⟩ := hx
    obtain ⟨y, hy, rfl⟩ := hy
    rw [key_renumberRow hkey, key_renumberRow hkey] at heq
    rw [listed_filter, List.mem_filter] at hx hy
    rw [hinj x hx.1 y hy.1 heq]
  have hcount : (N.listed k rows').countP (fun s ↦ key s ≤ key (N.renumberRow sorted r)) =
      (N.listed k rows).countP (fun s ↦ p s && decide (key s ≤ key r)) := by
    rw [listed_renumber, List.countP_map, listed_filter, List.countP_filter]
    refine List.countP_congr fun s _ ↦ ?_
    rw [Function.comp_apply, key_renumberRow hkey, key_renumberRow hkey, Bool.and_comm]
  have hbefore : (N.listed k rows).countP (fun s ↦ !p s && decide (N.idx s < N.idx r)) =
      (N.listed k rows).countP (fun s ↦ !p s && decide (key s ≤ key r)) := by
    refine List.countP_congr fun s hs ↦ ?_
    simp only [Bool.and_eq_true, Bool.not_eq_true', decide_eq_true_eq]
    refine and_congr_right fun hout ↦ ⟨fun hlt ↦ hordered s hs r hr hlt, fun hle ↦ ?_⟩
    have hne : s ≠ r := by
      rintro rfl
      rw [hp] at hout
      cases hout
    by_contra hge
    have hlt : N.idx r < N.idx s := by
      have hidx : N.idx s ≠ N.idx r := fun heq ↦ hne (h.idx_injective hs hr heq)
      omega
    exact hne (hinj s hs r hr (le_antisymm hle (hordered r hr s hs hlt)))
  have hsplit := List.countP_eq_countP_filter_add (N.listed k rows) (fun s ↦ decide (key s ≤ key r)) p
  rw [List.countP_filter, List.countP_filter, h.countP_key_le hordered hinj hr] at hsplit
  rw [← hrank, hcount, hbefore, hsplit]
  simp only [Bool.and_comm]

omit [DecidableEq ρ] in
/-- Rows of a list are deleted and the rest keep their numbers. Then a row is put behind them: the numbers are those of
a list exactly when the deleted rows were the last ones. -/
theorem numbered_append_filter_iff (h : N.Numbered k rows) {new : ρ} (howner : N.owner new = k)
    (hidx : N.idx new = (N.listed k (rows.filter p)).length + 1) :
    N.Numbered k (rows.filter p ++ [new]) ↔
      ∀ r ∈ N.listed k rows, p r = true ↔ N.idx r ≤ (N.listed k (rows.filter p)).length := by
  set m := (N.listed k (rows.filter p)).length with hm
  have hone : N.listed k [new] = [new] := List.filter_cons_of_pos (by simpa using howner)
  have hperm : N.Numbered k (rows.filter p ++ [new]) ↔
      ((N.listed k (rows.filter p)).map N.idx).Perm (List.range' 1 m) := by
    rw [Numbered, listed_append, hone, List.map_append, List.map_singleton, List.length_append, List.length_singleton,
      ← hm, List.range'_1_concat, hidx, Nat.add_comm 1]
    exact List.perm_append_right_iff _
  rw [hperm]
  constructor
  · intro hnumbered r hr
    constructor
    · intro hp
      have hmem : N.idx r ∈ (N.listed k (rows.filter p)).map N.idx := by
        rw [listed_filter]
        exact List.mem_map_of_mem (List.mem_filter.mpr ⟨hr, hp⟩)
      rw [hnumbered.mem_iff, List.mem_range'_1] at hmem
      omega
    · intro hle
      have hmem : N.idx r ∈ (N.listed k (rows.filter p)).map N.idx := by
        rw [hnumbered.mem_iff, List.mem_range'_1]
        have hpos := ((h.mem_iff _).mp ⟨r, hr, rfl⟩).1
        omega
      obtain ⟨s, hs, heq⟩ := List.mem_map.mp hmem
      rw [listed_filter, List.mem_filter] at hs
      rw [← h.idx_injective hs.1 hr heq]
      exact hs.2
  · intro hlast
    have hnodup : ((N.listed k (rows.filter p)).map N.idx).Nodup := by
      rw [listed_filter]
      exact (h.nodup_iff.mpr List.nodup_range').sublist (List.filter_sublist.map _)
    have hsubset : (N.listed k (rows.filter p)).map N.idx ⊆ List.range' 1 m := by
      intro i hi
      obtain ⟨r, hr, rfl⟩ := List.mem_map.mp hi
      rw [listed_filter, List.mem_filter] at hr
      have hle := (hlast r hr.1).mp hr.2
      have hpos := ((h.mem_iff _).mp ⟨r, hr.1, rfl⟩).1
      rw [List.mem_range'_1]
      omega
    refine (List.subperm_of_subset hnodup hsubset).perm_of_length_le ?_
    rw [List.length_range', List.length_map]

end Delete

end Numbering

end BlitzedServices.Lib
