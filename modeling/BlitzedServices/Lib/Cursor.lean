import BlitzedServices.Lib.HashTable

/-!
# Walks over a hash table

A cursor walks over the buckets of a table: `firstNode` fetches the first node and `nextNode` the next one,
until there is none. `firstNode` starts with the first bucket again but keeps the node the cursor stands on,
so `Chained.returnsAll_iff` has a walk meet every node once exactly if the one before it came to its end.

`Op` are the changes of a table and the calls on its cursor; a history of them keeps the chains.
-/

set_option autoImplicit false
set_option relaxedAutoImplicit false

namespace BlitzedServices.Lib

variable {α : Type}

/-! ### Walks over the table -/

/-- The node a walk stands on, and the bucket it goes to next. -/
structure Cursor where
  current : Option ℕ
  nextIndex : ℕ
  deriving DecidableEq

/-- `while (next_index < m && current == NULL) current = heads[next_index++]` with so many buckets left. -/
def scan (heads : ℕ → Option ℕ) : ℕ → Cursor → Cursor
  | 0, c => c
  | left + 1, c =>
    if c.current = none then scan heads left ⟨heads c.nextIndex, c.nextIndex + 1⟩ else c

namespace HashTable

/-- The first node of a walk: the buckets are searched from the first one on, but `current` is left as
it was. -/
def firstNode (m : ℕ) (t : HashTable α) (c : Cursor) : Cursor :=
  scan t.heads m ⟨c.current, 0⟩

/-- The next node of a walk, where `none` is a read through a pointer to a freed node. -/
def nextNode (m : ℕ) (t : HashTable α) (c : Cursor) : Option Cursor :=
  (match c.current with
    | none => some none
    | some a => (t.heap a).map Node.next).map fun current ↦
      if current = none ∧ c.nextIndex < m then scan t.heads (m - c.nextIndex) ⟨current, c.nextIndex⟩
      else ⟨current, c.nextIndex⟩

end HashTable

/-- The nodes from the cursor on, until there is none. -/
def walkOn (next : Cursor → Option Cursor) : ℕ → Cursor → Option (List ℕ × Cursor)
  | 0, _ => none
  | fuel + 1, c =>
    match c.current with
    | none => some ([], c)
    | some a => (next c).bind fun c' ↦ (walkOn next fuel c').map fun r ↦ (a :: r.1, r.2)

/-- A walk from the first node returns every node of the table once, and nothing else. -/
def ReturnsAll (t : HashTable α) (first : Cursor → Cursor) (next : Cursor → Option Cursor) (c : Cursor) :
    Prop :=
  ∃ fuel l last, walkOn next fuel (first c) = some (l, last) ∧ l.Nodup ∧ ∀ a, a ∈ l ↔ (t.val a).isSome

section Walks

variable {hash : α → ℕ} {t : HashTable α} {xs : ℕ → List (ℕ × α)} {m : ℕ}

theorem scan_some (heads : ℕ → Option ℕ) (left a i : ℕ) :
    scan heads left ⟨some a, i⟩ = ⟨some a, i⟩ := by
  cases left with
  | zero => rfl
  | succ left => rw [scan, if_neg (Option.some_ne_none a)]

/-- The next node is the one that follows in the chain, or the first one of the next buckets. -/
theorem nextNode_some {a i : ℕ} {node : Node α} (hnode : t.heap a = some node) {left : ℕ}
    (hleft : i + left = m) :
    t.nextNode m ⟨some a, i⟩ = some (scan t.heads left ⟨node.next, i⟩) := by
  obtain rfl : left = m - i := by omega
  rw [HashTable.nextNode]
  dsimp only
  rw [hnode, Option.map_some, Option.map_some]
  cases hnext : node.next with
  | some b => rw [scan_some, if_neg fun h ↦ Option.some_ne_none b h.1]
  | none =>
    by_cases him : i < m
    · rw [if_pos ⟨rfl, him⟩]
    · rw [if_neg fun h ↦ him h.2, show m - i = 0 by omega, scan]

/-- From a cursor on the walk meets exactly these nodes, and ends with no node and no bucket left. -/
def Visits (m : ℕ) (t : HashTable α) (c : Cursor) (l : List ℕ) : Prop :=
  ∀ fuel, l.length < fuel → walkOn (t.nextNode m) fuel c = some (l, ⟨none, m⟩)

/-- A chain is visited before the buckets behind it. -/
theorem visits_chain {q : Option ℕ} {ys : List (ℕ × α)} (hys : Segment id t.heap q ys none) {i left : ℕ}
    (hleft : i + left = m) {l : List ℕ} (hrest : Visits m t (scan t.heads left ⟨none, i⟩) l) :
    Visits m t (scan t.heads left ⟨first ys none, i⟩) (ys.map Prod.fst ++ l) := by
  induction ys generalizing q with
  | nil => exact hrest
  | cons y ys ih =>
    intro fuel hfuel
    cases fuel with
    | zero => exact absurd hfuel (Nat.not_lt_zero _)
    | succ fuel =>
      rw [first, scan_some, walkOn]
      dsimp only
      rw [nextNode_some hys.1 hleft, Option.bind_some, ih hys.2 fuel (Nat.lt_of_succ_lt_succ hfuel)]
      rfl

/-- The buckets from an index on are visited one after the other. -/
theorem Chained.visits_scan (h : Chained hash t xs) {i left : ℕ} (hleft : i + left = m) :
    Visits m t (scan t.heads left ⟨none, i⟩) (((List.range' i left).flatMap xs).map Prod.fst) := by
  induction left generalizing i with
  | zero =>
    intro fuel hfuel
    cases fuel with
    | zero => exact absurd hfuel (Nat.not_lt_zero _)
    | succ fuel =>
      obtain rfl : i = m := by omega
      rfl
  | succ left ih =>
    have hnext : i + 1 + left = m := by omega
    have hrest := visits_chain (h.linked i).segment hnext (ih hnext)
    rw [scan, if_pos rfl, show t.heads i = first (xs i) none from (h.linked i).head]
    rw [List.range'_succ, List.flatMap_cons, List.map_append]
    exact hrest

/-- A walk whose predecessor came to its end visits the nodes of the table, bucket by bucket. -/
theorem Chained.visits_firstNode (h : Chained hash t xs) (m i : ℕ) :
    Visits m t (t.firstNode m ⟨none, i⟩) ((t.toList m).map Prod.fst) := by
  have hvisits := h.visits_scan (Nat.zero_add m)
  rw [← List.range_eq_range', ← h.toList_eq] at hvisits
  exact hvisits

theorem walkOn_succ {next : Cursor → Option Cursor} {c : Cursor} {fuel : ℕ} {r : List ℕ × Cursor}
    (h : walkOn next fuel c = some r) : walkOn next (fuel + 1) c = some r := by
  induction fuel generalizing c r with
  | zero => cases h
  | succ fuel ih =>
    rw [walkOn] at h ⊢
    cases hcurrent : c.current with
    | none => simpa only [hcurrent] using h
    | some a =>
      simp only [hcurrent, Option.bind_eq_some_iff, Option.map_eq_some_iff] at h ⊢
      obtain ⟨c', hnext, r', hrest, rfl⟩ := h
      exact ⟨c', hnext, r', ih hrest, rfl⟩

theorem walkOn_of_le {next : Cursor → Option Cursor} {c : Cursor} {fuel fuel' : ℕ} {r : List ℕ × Cursor}
    (h : walkOn next fuel c = some r) (hle : fuel ≤ fuel') : walkOn next fuel' c = some r := by
  induction fuel', hle using Nat.le_induction with
  | base => exact h
  | succ fuel' _ ih => exact walkOn_succ ih

/-- However much fuel a walk took, it met the nodes it visits. -/
theorem Visits.eq {c : Cursor} {l : List ℕ} (h : Visits m t c l) {fuel : ℕ} {r : List ℕ × Cursor}
    (hr : walkOn (t.nextNode m) fuel c = some r) : r = (l, ⟨none, m⟩) := by
  have hlong := walkOn_of_le hr (Nat.le_add_right fuel (l.length + 1))
  rw [h _ (by omega)] at hlong
  exact (Option.some.inj hlong).symm

/-- A fresh walk meets every node exactly once iff the walk before it came to its end. -/
theorem Chained.returnsAll_iff (h : Chained hash t xs) (hm : ∀ v, hash v < m) (c : Cursor) :
    ReturnsAll t (t.firstNode m) (t.nextNode m) c ↔ c.current = none := by
  constructor
  · rintro ⟨fuel, l, last, hwalk, hnodup, hmem⟩
    by_contra hcurrent
    obtain ⟨a, ha⟩ := Option.ne_none_iff_exists'.mp hcurrent
    obtain ⟨current, i⟩ := c
    obtain rfl : current = some a := ha
    rw [HashTable.firstNode, scan_some] at hwalk
    -- the walk starts on the node that was left, which must be one of the table
    have hhead : a ∈ l := by
      cases fuel with
      | zero => cases hwalk
      | succ fuel =>
        rw [walkOn] at hwalk
        simp only [Option.bind_eq_some_iff, Option.map_eq_some_iff] at hwalk
        obtain ⟨c', -, r, -, hr⟩ := hwalk
        obtain ⟨rfl, -⟩ := Prod.mk.inj hr
        exact List.mem_cons_self ..
    obtain ⟨v, hv⟩ := Option.isSome_iff_exists.mp ((hmem a).mp hhead)
    obtain ⟨pre, post, hbucket⟩ := h.exists_bucket hv
    have hsegment := (h.linked (hash v)).segment
    rw [hbucket, segment_append] at hsegment
    have hvisits := visits_chain hsegment.2 (Nat.zero_add m) (h.visits_scan (Nat.zero_add m))
    rw [first, scan_some] at hvisits
    -- and it comes to that node again in its bucket
    obtain rfl : l = _ := congrArg Prod.fst (hvisits.eq hwalk)
    rw [List.map_cons, List.cons_append, List.nodup_cons] at hnodup
    refine hnodup.1 (List.mem_append_right _ ?_)
    rw [← List.range_eq_range', ← h.toList_eq]
    exact List.mem_map.mpr ⟨(a, v), (h.mem_toList hm).mpr hv, rfl⟩
  · intro hcurrent
    obtain ⟨current, i⟩ := c
    obtain rfl : current = none := hcurrent
    refine ⟨((t.toList m).map Prod.fst).length + 1, _, _, h.visits_firstNode m i _ (Nat.lt_succ_self _),
      h.nodup_toList m, fun a ↦ ?_⟩
    rw [List.mem_map, Option.isSome_iff_exists]
    constructor
    · rintro ⟨x, hx, rfl⟩
      exact ⟨x.2, (h.mem_toList hm).mp hx⟩
    · rintro ⟨v, hv⟩
      exact ⟨(a, v), (h.mem_toList hm).mpr hv, rfl⟩

end Walks

/-! ### Histories -/

/-- A table and the cursor over it. -/
structure Walked (α : Type) where
  table : HashTable α
  cursor : Cursor

/-- An empty table no walk has been over. -/
def Walked.initial : Walked α := ⟨.empty, ⟨none, 0⟩⟩

/-- What can be done to a table and its cursor. A node keeps its address when its value is changed. -/
inductive Op (α : Type) where
  | add (a : ℕ) (v : α)
  | change (a : ℕ) (v : α)
  | remove (a : ℕ)
  | first
  | next

/-- One operation, where `none` is a node allocated twice or an access to a freed one. -/
def Walked.apply (hash : α → ℕ) (m : ℕ) (s : Walked α) : Op α → Option (Walked α)
  | .add a v =>
    match s.table.heap a with
    | none => some { s with table := s.table.push (hash v) a v }
    | some _ => none
  | .change a v =>
    (s.table.val a).map fun w ↦ { s with table := (s.table.unlink (hash w) a).push (hash v) a v }
  | .remove a => (s.table.val a).map fun w ↦ { s with table := s.table.unlink (hash w) a }
  | .first => some { s with cursor := s.table.firstNode m s.cursor }
  | .next => (s.table.nextNode m s.cursor).map fun cursor ↦ { s with cursor }

section Histories

variable {hash : α → ℕ} {m : ℕ} {s s' : Walked α} {op : Op α}

/-- An operation keeps the chains. -/
theorem chained_apply (h : ∃ xs, Chained hash s.table xs) (happly : s.apply hash m op = some s') :
    ∃ xs, Chained hash s'.table xs := by
  obtain ⟨xs, hxs⟩ := h
  cases op with
  | add a v =>
    rw [Walked.apply] at happly
    cases hheap : s.table.heap a with
    | some node => simp only [hheap] at happly; cases happly
    | none =>
      simp only [hheap] at happly
      obtain rfl := Option.some.inj happly
      exact ⟨_, hxs.push hheap v⟩
  | change a v =>
    obtain ⟨w, hw, rfl⟩ := Option.map_eq_some_iff.mp happly
    obtain ⟨pre, post, hbucket⟩ := hxs.exists_bucket hw
    exact ⟨_, (hxs.unlink hbucket).push (heap_unlink _ _ a) v⟩
  | remove a =>
    obtain ⟨w, hw, rfl⟩ := Option.map_eq_some_iff.mp happly
    obtain ⟨pre, post, hbucket⟩ := hxs.exists_bucket hw
    exact ⟨_, hxs.unlink hbucket⟩
  | first =>
    obtain rfl := Option.some.inj happly
    exact ⟨xs, hxs⟩
  | next =>
    obtain ⟨cursor, -, rfl⟩ := Option.map_eq_some_iff.mp happly
    exact ⟨xs, hxs⟩

/-- Every history keeps the chains. -/
theorem chained_history (h : ∃ xs, Chained hash s.table xs) {ops : List (Op α)}
    (hrun : ops.foldlM (Walked.apply hash m) s = some s') : ∃ xs, Chained hash s'.table xs := by
  induction ops generalizing s with
  | nil =>
    obtain rfl := Option.some.inj hrun
    exact h
  | cons op ops ih =>
    rw [List.foldlM_cons, Option.bind_eq_bind, Option.bind_eq_some_iff] at hrun
    obtain ⟨s₁, hfirst, hrest⟩ := hrun
    exact ih (chained_apply h hfirst) hrest

end Histories

end BlitzedServices.Lib
