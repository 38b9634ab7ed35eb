import BlitzedServices.Lib.Cursor

/-!
# Loops over the nodes of a hash table

A loop that takes a cursor from node to node and does something to each of them. It may take the node it
stands on out of the table when it has advanced before (`thenBody`), and change it in any case (`bodyThen`).
`Chained.walkAll_eq` has such a loop do its body once for every node that was in the table when it
started, in the order of the buckets.
-/

set_option autoImplicit false
set_option relaxedAutoImplicit false

namespace BlitzedServices.Lib

variable {α σ : Type}

/-- The loop, as long as the cursor stands on a node. -/
def walkLoop (step : ℕ → Cursor → σ → Option (Cursor × σ)) : ℕ → Cursor → σ → Option (Cursor × σ)
  | 0, _, _ => none
  | fuel + 1, c, s =>
    match c.current with
    | none => some (c, s)
    | some a => (step a c s).bind fun r ↦ walkLoop step fuel r.1 r.2

/-- The cursor advances, and then the node it stood on is treated. -/
def thenBody (m : ℕ) (table : σ → HashTable α) (body : ℕ → σ → Option σ) (a : ℕ) (c : Cursor) (s : σ) :
    Option (Cursor × σ) :=
  ((table s).nextNode m c).bind fun c' ↦ (body a s).map fun s' ↦ (c', s')

/-- The node is treated, and then the cursor advances. -/
def bodyThen (m : ℕ) (table : σ → HashTable α) (body : ℕ → σ → Option σ) (a : ℕ) (c : Cursor) (s : σ) :
    Option (Cursor × σ) :=
  (body a s).bind fun s' ↦ ((table s').nextNode m c).map fun c' ↦ (c', s')

/-- The loop from the first node on. It meets no more nodes than there are. -/
def walkAll (m : ℕ) (table : σ → HashTable α) (step : ℕ → Cursor → σ → Option (Cursor × σ)) (c : Cursor)
    (s : σ) : Option (Cursor × σ) :=
  walkLoop step (((table s).toList m).length + 1) ((table s).firstNode m c) s

/-- The body keeps an invariant, and leaves the chains as they are but for the node it treats. -/
def TreatsNode (hash : α → ℕ) (table : σ → HashTable α) (inv : σ → Prop) (body : ℕ → σ → Option σ) : Prop :=
  ∀ (s s' : σ) (xs : ℕ → List (ℕ × α)) (pre post : List (ℕ × α)) (a : ℕ) (v : α), inv s →
    Chained hash (table s) xs → xs (hash v) = pre ++ (a, v) :: post → body a s = some s' →
      inv s' ∧ ∃ kept, Chained hash (table s') (Function.update xs (hash v) (pre ++ kept ++ post))

/-- The body keeps an invariant, and the node it treats in its bucket. -/
def KeepsNode (hash : α → ℕ) (table : σ → HashTable α) (inv : σ → Prop) (body : ℕ → σ → Option σ) : Prop :=
  ∀ (s s' : σ) (xs : ℕ → List (ℕ × α)) (pre post : List (ℕ × α)) (a : ℕ) (v : α), inv s →
    Chained hash (table s) xs → xs (hash v) = pre ++ (a, v) :: post → body a s = some s' →
      inv s' ∧ ∃ v', Chained hash (table s') (Function.update xs (hash v) (pre ++ (a, v') :: post))

section Loops

variable {hash : α → ℕ} {table : σ → HashTable α} {inv : σ → Prop} {m : ℕ} {body : ℕ → σ → Option σ}
  {step : ℕ → Cursor → σ → Option (Cursor × σ)}

theorem KeepsNode.treatsNode (h : KeepsNode hash table inv body) : TreatsNode hash table inv body := by
  intro s s' xs pre post a v hinv hxs hbucket hbody
  rcases h s s' xs pre post a v hinv hxs hbucket hbody with ⟨hinv', v', hys⟩
  refine ⟨hinv', [(a, v')], ?_⟩
  rwa [List.append_assoc, List.singleton_append]

theorem scan_congr {heads heads' : ℕ → Option ℕ} {i : ℕ} (hsame : ∀ j, i ≤ j → heads' j = heads j)
    (left : ℕ) (current : Option ℕ) : scan heads' left ⟨current, i⟩ = scan heads left ⟨current, i⟩ := by
  induction left generalizing i current with
  | zero => rfl
  | succ left ih =>
    rw [scan, scan]
    dsimp only
    split_ifs
    · rw [hsame i le_rfl]
      exact ih (fun j hj ↦ hsame j (by omega)) (heads i)
    · rfl

/-- What a step does on a node of a chain: it treats it, and goes on to what follows in the chain or in the
buckets behind it. -/
def StepsOn (hash : α → ℕ) (table : σ → HashTable α) (inv : σ → Prop) (m : ℕ) (body : ℕ → σ → Option σ)
    (step : ℕ → Cursor → σ → Option (Cursor × σ)) : Prop :=
  ∀ (s : σ) (xs : ℕ → List (ℕ × α)) (pre post : List (ℕ × α)) (a : ℕ) (v : α) (left : ℕ), inv s →
    Chained hash (table s) xs → xs (hash v) = pre ++ (a, v) :: post → hash v + 1 + left = m →
      step a ⟨some a, hash v + 1⟩ s =
        (body a s).map fun s' ↦ (scan (table s').heads left ⟨first post none, hash v + 1⟩, s')

/-- The heads of the buckets behind one in which something is changed. -/
theorem Chained.heads_eq {t t' : HashTable α} {xs : ℕ → List (ℕ × α)} {i : ℕ} {ys : List (ℕ × α)}
    (h : Chained hash t xs) (h' : Chained hash t' (Function.update xs i ys)) {j : ℕ} (hj : i + 1 ≤ j) :
    t'.heads j = t.heads j := by
  have hne : j ≠ i := by omega
  have hhead := (h'.linked j).head
  rw [Function.update_of_ne hne] at hhead
  exact hhead.trans (h.linked j).head.symm

theorem TreatsNode.stepsOn_thenBody (h : TreatsNode hash table inv body) :
    StepsOn hash table inv m body (thenBody m table body) := by
  intro s xs pre post a v left hinv hxs hbucket hleft
  have hlinked := hxs.linked (hash v)
  rw [hbucket] at hlinked
  rw [thenBody, nextNode_some hlinked.lookup hleft, Option.bind_some]
  cases hbody : body a s with
  | none => rfl
  | some s' =>
    rcases h s s' xs pre post a v hinv hxs hbucket hbody with ⟨-, kept, hys⟩
    rw [Option.map_some, Option.map_some, scan_congr (fun j hj ↦ hxs.heads_eq hys hj)]

theorem KeepsNode.stepsOn_bodyThen (h : KeepsNode hash table inv body) :
    StepsOn hash table inv m body (bodyThen m table body) := by
  intro s xs pre post a v left hinv hxs hbucket hleft
  rw [bodyThen]
  cases hbody : body a s with
  | none => rfl
  | some s' =>
    rcases h s s' xs pre post a v hinv hxs hbucket hbody with ⟨-, v', hys⟩
    have hlinked := hys.linked (hash v)
    rw [Function.update_self] at hlinked
    rw [Option.bind_some, nextNode_some hlinked.lookup hleft]
    rfl

/-- The loop from a cursor on treats these nodes and comes to the end. -/
def Treats (m : ℕ) (body : ℕ → σ → Option σ)
    (step : ℕ → Cursor → σ → Option (Cursor × σ)) (c : Cursor) (s : σ) (l : List ℕ) : Prop :=
  ∀ fuel, l.length < fuel →
    walkLoop step fuel c s = (l.foldlM (fun s a ↦ body a s) s).map fun s' ↦ (⟨none, m⟩, s')

/-- A chain is treated before the buckets behind it. The induction is on what is left of the chain. -/
theorem StepsOn.treats_chain (hstep : StepsOn hash table inv m body step) (hbody : TreatsNode hash table inv body)
    {i left : ℕ} (hleft : i + 1 + left = m) {l : List ℕ} {ys : ℕ → List (ℕ × α)}
    (hrest : ∀ (s : σ) (xs : ℕ → List (ℕ × α)), inv s → Chained hash (table s) xs →
      (∀ j, i + 1 ≤ j → xs j = ys j) → Treats m body step (scan (table s).heads left ⟨none, i + 1⟩) s l)
    (post : List (ℕ × α)) (s : σ) (xs : ℕ → List (ℕ × α)) (pre : List (ℕ × α)) (hinv : inv s)
    (hxs : Chained hash (table s) xs)
    (hbucket : xs i = pre ++ post) (hsame : ∀ j, i + 1 ≤ j → xs j = ys j) :
    Treats m body step (scan (table s).heads left ⟨first post none, i + 1⟩) s (post.map Prod.fst ++ l) := by
  induction post generalizing s xs pre with
  | nil => exact hrest s xs hinv hxs hsame
  | cons x post ih =>
    rcases x with ⟨a, v⟩
    intro fuel hfuel
    obtain rfl : hash v = i := hxs.hashed i (a, v) (hbucket ▸ List.mem_append_right _ List.mem_cons_self)
    cases fuel with
    | zero => exact absurd hfuel (Nat.not_lt_zero _)
    | succ fuel =>
      rw [first, scan_some, walkLoop]
      dsimp only
      rw [hstep s xs pre post a v left hinv hxs hbucket hleft, List.map_cons, List.cons_append, List.foldlM_cons]
      cases hresult : body a s with
      | none => rfl
      | some s' =>
        rcases hbody s s' xs pre post a v hinv hxs hbucket hresult with ⟨hinv', kept, hxs'⟩
        have hbucket' := Function.update_self (hash v) (pre ++ kept ++ post) xs
        have hsame' : ∀ j, hash v + 1 ≤ j →
            Function.update xs (hash v) (pre ++ kept ++ post) j = ys j := by
          intro j hj
          rw [Function.update_of_ne (by omega)]
          exact hsame j hj
        exact ih s' _ _ hinv' hxs' hbucket' hsame' fuel (Nat.lt_of_succ_lt_succ hfuel)

/-- The buckets from an index on are treated one after the other. -/
theorem StepsOn.treats_scan (hstep : StepsOn hash table inv m body step) (hbody : TreatsNode hash table inv body)
    {i left : ℕ} (hleft : i + left = m) (ys : ℕ → List (ℕ × α)) (s : σ) (xs : ℕ → List (ℕ × α))
    (hinv : inv s) (hxs : Chained hash (table s) xs) (hsame : ∀ j, i ≤ j → xs j = ys j) :
    Treats m body step (scan (table s).heads left ⟨none, i⟩) s
      (((List.range' i left).flatMap ys).map Prod.fst) := by
  induction left generalizing i s xs with
  | zero =>
    intro fuel hfuel
    cases fuel with
    | zero => exact absurd hfuel (Nat.not_lt_zero _)
    | succ fuel =>
      obtain rfl : i = m := by omega
      rfl
  | succ left ih =>
    have hnext : i + 1 + left = m := by omega
    rw [scan, if_pos rfl, show (table s).heads i = first (xs i) none from (hxs.linked i).head]
    rw [List.range'_succ, List.flatMap_cons, List.map_append, ← hsame i le_rfl]
    refine hstep.treats_chain hbody hnext (fun s' xs' hinv' hxs' hsame' ↦ ?_) (xs i) s xs []
      hinv hxs rfl fun j hj ↦ hsame j (by omega)
    exact ih hnext s' xs' hinv' hxs' hsame'

/-- A loop that starts when the one before it has come to its end treats every node there is. -/
theorem Chained.walkAll_eq {s : σ} {xs : ℕ → List (ℕ × α)} (h : Chained hash (table s) xs)
    (hinv : inv s) (hstep : StepsOn hash table inv m body step) (hbody : TreatsNode hash table inv body)
    {c : Cursor} (hc : c.current = none) :
    walkAll m table step c s =
      ((((table s).toList m).map Prod.fst).foldlM (fun s a ↦ body a s) s).map fun s' ↦ (⟨none, m⟩, s') := by
  have htreats := hstep.treats_scan hbody (Nat.zero_add m) xs s xs hinv h fun _ _ ↦ rfl
  rw [← List.range_eq_range', ← h.toList_eq] at htreats
  have hfirst : (table s).firstNode m c = scan (table s).heads m ⟨none, 0⟩ := by
    rw [HashTable.firstNode, hc]
  rw [walkAll, hfirst]
  refine htreats _ ?_
  rw [List.length_map]
  exact Nat.lt_succ_self _

end Loops

end BlitzedServices.Lib
