import Mathlib

/-!
# Joins and groups

The rows of a SELECT as a list. A LEFT JOIN pairs each row with the rows of another table that match it, and with
NULL when there are none. GROUP BY takes one row for all that have the same key, with the rows of its group beside
it, and MAX leaves out what is NULL. An INSERT ... SELECT gives each column that is listed the value at its place.
-/

set_option autoImplicit false
set_option relaxedAutoImplicit false

namespace BlitzedServices.Lib.Joins

universe u v

variable {α : Type u} {β : Type v}

/-! ### LEFT JOIN -/

/-- The rows of `l LEFT JOIN r ON on`. -/
def leftJoin (on : α → β → Bool) (l : List α) (r : List β) : List (α × Option β) :=
  l.flatMap fun a ↦
    let found := r.filter (on a)
    if found.isEmpty then [(a, none)] else found.map fun b ↦ (a, some b)

section LeftJoin

variable {on : α → β → Bool} {l : List α} {r : List β} {a : α} {b : β}

theorem some_mem_leftJoin : (a, some b) ∈ leftJoin on l r ↔ a ∈ l ∧ b ∈ r ∧ on a b = true := by
  rw [leftJoin, List.mem_flatMap]
  constructor
  · rintro ⟨a', ha', hmem⟩
    dsimp only at hmem
    split_ifs at hmem
    · simp at hmem
    · obtain ⟨b', hb', heq⟩ := List.mem_map.mp hmem
      obtain ⟨rfl, hb⟩ := Prod.mk.inj heq
      obtain rfl := Option.some.inj hb
      exact ⟨ha', List.mem_filter.mp hb'⟩
  · rintro ⟨ha, hb⟩
    have hfound : b ∈ r.filter (on a) := List.mem_filter.mpr hb
    refine ⟨a, ha, ?_⟩
    dsimp only
    rw [if_neg fun h ↦ List.ne_nil_of_mem hfound (List.isEmpty_iff.mp h)]
    exact List.mem_map_of_mem hfound

/-- Each row on the left has a row in the join, and no other row has one. -/
theorem exists_mem_leftJoin : (∃ o, (a, o) ∈ leftJoin on l r) ↔ a ∈ l := by
  constructor
  · rintro ⟨o, h⟩
    obtain ⟨a', ha', hmem⟩ := List.mem_flatMap.mp h
    dsimp only at hmem
    split_ifs at hmem
    · obtain ⟨rfl, -⟩ := Prod.mk.inj (List.mem_singleton.mp hmem)
      exact ha'
    · obtain ⟨b', -, heq⟩ := List.mem_map.mp hmem
      obtain ⟨rfl, -⟩ := Prod.mk.inj heq
      exact ha'
  · intro ha
    cases hfound : r.filter (on a) with
    | nil =>
      refine ⟨none, List.mem_flatMap.mpr ⟨a, ha, ?_⟩⟩
      simp [hfound]
    | cons b rest =>
      have hb : b ∈ r.filter (on a) := by simp [hfound]
      exact ⟨some b, some_mem_leftJoin.mpr ⟨ha, List.mem_filter.mp hb⟩⟩

end LeftJoin

/-! ### GROUP BY -/

/-- A row for each group with the rows of the group. -/
def groupBy (same : α → α → Bool) (l : List α) : List (α × List α) :=
  (l.pwFilter fun a b ↦ same a b = false).map fun k ↦ (k, l.filter (same k))

section GroupBy

variable {same : α → α → Bool} {l : List α} {a : α}

/-- Of a list without two of a kind a filter for the kind leaves one at most. -/
theorem length_filter_same_le (h : Equivalence fun a b ↦ same a b = true)
    (hpair : l.Pairwise fun a b ↦ same a b = false) : (l.filter (same a)).length ≤ 1 := by
  have hfilter : (l.filter (same a)).Pairwise fun a b ↦ same a b = false := hpair.filter _
  have hall : ∀ b ∈ l.filter (same a), same a b = true := fun b hb ↦ (List.mem_filter.mp hb).2
  match hl : l.filter (same a) with
  | [] => exact Nat.zero_le 1
  | [b] => exact le_rfl
  | b :: c :: rest =>
    rw [hl] at hfilter hall
    have hdiffer : same b c = false := List.rel_of_pairwise_cons hfilter List.mem_cons_self
    have hb : same a b = true := hall b List.mem_cons_self
    have hc : same a c = true := hall c (List.mem_cons_of_mem b List.mem_cons_self)
    have hsame : same b c = true := h.trans (h.symm hb) hc
    exact absurd (hdiffer.symm.trans hsame) Bool.false_ne_true

theorem mem_of_mem_groupBy {g : α × List α} (hg : g ∈ groupBy same l) :
    g.1 ∈ l ∧ g.2 = l.filter (same g.1) := by
  obtain ⟨k, hk, rfl⟩ := List.mem_map.mp hg
  exact ⟨List.pwFilter_subset l hk, rfl⟩

/-- Each row of the list belongs to one group. -/
theorem filter_groupBy (h : Equivalence fun a b ↦ same a b = true) (ha : a ∈ l) :
    ∃ k ∈ l, same a k = true ∧ (groupBy same l).filter (fun g ↦ same a g.1) = [(k, l.filter (same k))] := by
  have hexists : ∃ k ∈ l.pwFilter fun a b ↦ same a b = false, same a k = true := by
    by_contra hnone
    have hall : ∀ b ∈ l.pwFilter fun a b ↦ same a b = false, same a b = false := fun b hb ↦
      Bool.eq_false_iff.mpr fun hsame ↦ hnone ⟨b, hb, hsame⟩
    have hself : same a a = false := by
      refine (List.forall_mem_pwFilter (fun {x y z} hxz ↦ ?_) a l).mp hall a ha
      by_contra hboth
      rw [not_or, Bool.not_eq_false, Bool.not_eq_false] at hboth
      exact absurd (hxz.symm.trans (h.trans hboth.1 hboth.2)) Bool.false_ne_true
    exact absurd (hself.symm.trans (h.refl a)) Bool.false_ne_true
  obtain ⟨k, hk, hsame⟩ := hexists
  have hmem : k ∈ (l.pwFilter fun a b ↦ same a b = false).filter (same a) := List.mem_filter.mpr ⟨hk, hsame⟩
  have hone : (l.pwFilter fun a b ↦ same a b = false).filter (same a) = [k] := by
    have hle := length_filter_same_le (a := a) h (List.pairwise_pwFilter l)
    obtain ⟨k', hk'⟩ := List.length_eq_one_iff.mp (le_antisymm hle (List.length_pos_of_mem hmem))
    rw [hk'] at hmem ⊢
    rw [List.mem_singleton.mp hmem]
  refine ⟨k, List.pwFilter_subset l hk, hsame, ?_⟩
  rw [groupBy, List.filter_map]
  exact congrArg (List.map fun k ↦ (k, l.filter (same k))) hone

end GroupBy

/-! ### MAX -/

/-- `MAX` of a column that can be NULL, over a group. -/
def maxOf (column : α → Option ℕ) (group : List α) : Option ℕ :=
  (group.filterMap column).max?

/-- The maximum depends only on which values there are. -/
theorem maxOf_eq {column : α → Option ℕ} {group : List α} {values : List ℕ}
    (h : ∀ n, (∃ a ∈ group, column a = some n) ↔ n ∈ values) : maxOf column group = values.max? := by
  ext n
  simp only [maxOf, List.max?_eq_some_iff, List.mem_filterMap, h]

/-! ### INSERT ... SELECT -/

variable {κ ν : Type v}

/-- The values of the new rows by their columns. The statement is an error if the columns and the values are not
equally many, however many rows there are. -/
def insertSelect (columns : List κ) (select : List (α → ν)) (rows : List α) : Option (List (List (κ × ν))) :=
  if columns.length = select.length then some (rows.map fun row ↦ columns.zip (select.map (· row))) else none

variable {columns : List κ} {select : List (α → ν)} {rows : List α}

theorem insertSelect_of_length (h : columns.length = select.length) :
    insertSelect columns select rows = some (rows.map fun row ↦ columns.zip (select.map (· row))) :=
  if_pos h

theorem insertSelect_eq_none (h : columns.length ≠ select.length) : insertSelect columns select rows = none :=
  if_neg h

end BlitzedServices.Lib.Joins
