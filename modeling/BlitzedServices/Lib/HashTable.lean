import BlitzedServices.Lib.LinkedList

/-!
# Hash tables with chains

A table of buckets, each the head of a doubly linked list; the nodes of all buckets lie on one heap.
`Chained` says that every bucket is such a list, that every node hangs in the bucket of its value, and that
no allocated node is outside the table. Pushing a node to its bucket, unlinking one and changing a value
within its bucket keep it.
-/

set_option autoImplicit false
set_option relaxedAutoImplicit false

namespace BlitzedServices.Lib

/-- The allocated nodes, the pointers to the first one of each bucket, and how many nodes have been
allocated. -/
structure HashTable (α : Type) where
  heap : ℕ → Option (Node α)
  heads : ℕ → Option ℕ
  nodes : ℕ

variable {α : Type}

namespace HashTable

/-- No nodes. -/
def empty : HashTable α := ⟨fun _ ↦ none, fun _ ↦ none, 0⟩

/-- The list in a bucket. -/
def bucket (t : HashTable α) (i : ℕ) : LinkedList α := ⟨t.heap, t.heads i, t.nodes⟩

/-- What becomes of the table when the list in a bucket is changed. -/
def setBucket (t : HashTable α) (i : ℕ) (l : LinkedList α) : HashTable α :=
  ⟨l.heap, Function.update t.heads i l.head, l.nodes⟩

/-- A new first node in a bucket. -/
def push (i a : ℕ) (v : α) (t : HashTable α) : HashTable α :=
  t.setBucket i ((t.bucket i).push a v)

/-- A node is taken out of a bucket and freed. -/
def unlink (i a : ℕ) (t : HashTable α) : HashTable α :=
  t.setBucket i ((t.bucket i).unlink a)

/-- The value of a node is changed. -/
def modifyVal (f : α → α) (a : ℕ) (t : HashTable α) : HashTable α :=
  { t with heap := Lib.modifyVal f a t.heap }

/-- The value of a node. -/
def val (t : HashTable α) (a : ℕ) : Option α := (t.bucket 0).val a

/-- The nodes of the first buckets. -/
def toList (m : ℕ) (t : HashTable α) : List (ℕ × α) :=
  (List.range m).flatMap fun i ↦ (t.bucket i).toList

end HashTable

/-! ### Values -/

section Values

variable (t : HashTable α) (i a : ℕ)

theorem val_push (v : α) : (t.push i a v).val = Function.update t.val a (some v) :=
  (t.bucket i).val_push a v

theorem val_unlink : (t.unlink i a).val = Function.update t.val a none :=
  (t.bucket i).val_unlink a

theorem val_modifyVal (f : α → α) : (t.modifyVal f a).val = Function.update t.val a ((t.val a).map f) :=
  (t.bucket 0).val_modifyVal a f

/-- The second of two values that are written to a node stays. -/
theorem modifyVal_modifyVal (v w : α) :
    (t.modifyVal (fun _ ↦ v) a).modifyVal (fun _ ↦ w) a = t.modifyVal (fun _ ↦ w) a := by
  have hheap : Lib.modifyVal (fun _ ↦ w) a (Lib.modifyVal (fun _ ↦ v) a t.heap) =
      Lib.modifyVal (fun _ ↦ w) a t.heap := by
    show Function.update (Function.update _ _ _) a _ = Function.update _ _ _
    rw [Function.update_idem, Lib.modifyVal, modify_self, Option.map_map]
    rfl
  exact congrArg (fun heap ↦ { t with heap := heap }) hheap

/-- The value that a node has is written to it. -/
theorem modifyVal_of_val {v : α} (h : t.val a = some v) : t.modifyVal (fun _ ↦ v) a = t := by
  rcases Option.map_eq_some_iff.mp h with ⟨node, hnode, rfl⟩
  have hheap : Lib.modifyVal (fun _ ↦ node.val) a t.heap = t.heap := by
    rw [Lib.modifyVal, modify, show t.heap a = some node from hnode, Option.map_some]
    exact (congrArg _ hnode.symm).trans (Function.update_eq_self a t.heap)
  exact congrArg (fun heap ↦ { t with heap := heap }) hheap

/-- The node is free once it has been taken out. -/
theorem heap_unlink : (t.unlink i a).heap a = none :=
  (t.bucket i).heap_unlink a

end Values

/-! ### Chains -/

/-- The buckets are the given lists, with every node in the bucket of its value. -/
structure Chained (hash : α → ℕ) (t : HashTable α) (xs : ℕ → List (ℕ × α)) : Prop where
  linked : ∀ i, Linked id (t.bucket i) (xs i)
  hashed : ∀ i, ∀ x ∈ xs i, hash x.2 = i
  covers : ∀ a v, t.val a = some v → (a, v) ∈ xs (hash v)

theorem Linked.frame {back : Option ℕ → Option ℕ} {l l' : LinkedList α} {xs : List (ℕ × α)}
    (h : Linked back l xs) (hhead : l'.head = l.head) (hnodes : l.nodes ≤ l'.nodes)
    (hsame : ∀ a ∈ xs.map Prod.fst, l'.heap a = l.heap a) : Linked back l' xs :=
  ⟨hhead.trans h.head, h.segment.frame hsame, h.nodup, h.length_le.trans hnodes⟩

theorem Linked.lookup_mem {back : Option ℕ → Option ℕ} {l : LinkedList α} {xs : List (ℕ × α)} {a : ℕ} {v : α}
    (h : Linked back l xs) (hmem : (a, v) ∈ xs) : (l.heap a).map Node.val = some v := by
  obtain ⟨pre, post, rfl⟩ := List.append_of_mem hmem
  rw [h.lookup, Option.map_some]

section Chains

variable {hash : α → ℕ} {t : HashTable α} {xs : ℕ → List (ℕ × α)} {i j a : ℕ} {v : α}

theorem chained_empty (hash : α → ℕ) : Chained hash (HashTable.empty : HashTable α) fun _ ↦ [] where
  linked := fun _ ↦ linked_empty
  hashed := fun _ _ hx ↦ absurd hx List.not_mem_nil
  covers := fun _ _ hv ↦ nomatch hv

theorem Chained.val_eq (h : Chained hash t xs) (hmem : (a, v) ∈ xs i) : t.val a = some v :=
  (h.linked i).lookup_mem hmem

theorem Chained.mem_iff (h : Chained hash t xs) : (a, v) ∈ xs i ↔ t.val a = some v ∧ hash v = i := by
  constructor
  · exact fun hmem ↦ ⟨h.val_eq hmem, h.hashed i _ hmem⟩
  · rintro ⟨hval, rfl⟩
    exact h.covers a v hval

/-- No node hangs in two buckets. -/
theorem Chained.bucket_unique (h : Chained hash t xs) (hi : a ∈ (xs i).map Prod.fst)
    (hj : a ∈ (xs j).map Prod.fst) : i = j := by
  obtain ⟨⟨_, v⟩, hv, rfl⟩ := List.mem_map.mp hi
  obtain ⟨⟨b, w⟩, hw, hba⟩ := List.mem_map.mp hj
  obtain rfl : b = _ := hba
  have hval := (h.val_eq hv).symm.trans (h.val_eq hw)
  have hhash := congrArg (Option.map hash) hval
  rw [Option.map_some, Option.map_some, h.hashed i _ hv, h.hashed j _ hw] at hhash
  exact Option.some.inj hhash

/-- A new node that is pushed to its bucket. -/
theorem Chained.push (h : Chained hash t xs) (ha : t.heap a = none) (v : α) :
    Chained hash (t.push (hash v) a v) (Function.update xs (hash v) ((a, v) :: xs (hash v))) where
  linked := by
    intro j
    by_cases hj : j = hash v
    · rw [hj, Function.update_self]
      refine ((h.linked (hash v)).push ha v).frame ?_ le_rfl fun _ _ ↦ rfl
      exact Function.update_self (f := t.heads) ..
    · rw [Function.update_of_ne hj]
      refine (h.linked j).frame (Function.update_of_ne hj _ _) (Nat.le_succ _) fun b hb ↦ ?_
      have hba : b ≠ a := ne_of_mem_of_not_mem hb ((h.linked j).not_mem ha)
      have hhead : t.heads (hash v) ≠ some b := by
        rw [show t.heads (hash v) = first (xs (hash v)) none from (h.linked (hash v)).head]
        exact first_ne (fun hmem ↦ hj (h.bucket_unique hb hmem)) (Option.some_ne_none b).symm
      exact (Function.update_of_ne hba _ _).trans (modify_of_ne _ hhead)
  hashed := by
    intro j x hx
    by_cases hj : j = hash v
    · rw [hj, Function.update_self] at hx
      rcases List.mem_cons.mp hx with rfl | hx
      · exact hj.symm
      · exact (h.hashed _ x hx).trans hj.symm
    · rw [Function.update_of_ne hj] at hx
      exact h.hashed j x hx
  covers := by
    intro b w hw
    rw [val_push] at hw
    by_cases hb : b = a
    · rw [hb, Function.update_self] at hw
      obtain rfl := Option.some.inj hw
      rw [hb, Function.update_self]
      exact List.mem_cons_self ..
    · rw [Function.update_of_ne hb] at hw
      have hmem := h.covers b w hw
      by_cases hj : hash w = hash v
      · rw [hj, Function.update_self]
        exact List.mem_cons_of_mem _ (hj ▸ hmem)
      · rw [Function.update_of_ne hj]
        exact hmem

/-- A node that is taken out of its bucket. -/
theorem Chained.unlink (h : Chained hash t xs) {pre post : List (ℕ × α)}
    (hbucket : xs (hash v) = pre ++ (a, v) :: post) :
    Chained hash (t.unlink (hash v) a) (Function.update xs (hash v) (pre ++ post)) where
  linked := by
    have hlinked := h.linked (hash v)
    rw [hbucket] at hlinked
    intro j
    by_cases hj : j = hash v
    · rw [hj, Function.update_self]
      refine hlinked.unlink.frame ?_ le_rfl fun _ _ ↦ rfl
      exact Function.update_self (f := t.heads) ..
    · rw [Function.update_of_ne hj]
      have hnode := hlinked.lookup
      have hheap : (t.unlink (hash v) a).heap = ((t.bucket (hash v)).unlink a).heap := rfl
      rw [unlink_eq hnode] at hheap
      refine (h.linked j).frame (Function.update_of_ne hj _ _) ?_ fun b hb ↦ ?_
      · show t.nodes ≤ ((t.bucket (hash v)).unlink a).nodes
        rw [unlink_eq hnode]
        rfl
      · have hother : b ∉ (pre ++ (a, v) :: post).map Prod.fst := fun hmem ↦
          hj (h.bucket_unique hb (hbucket ▸ hmem))
        rw [List.map_append, List.map_cons, List.mem_append, List.mem_cons, not_or, not_or] at hother
        obtain ⟨hpre, hba, hpost⟩ := hother
        show (t.unlink (hash v) a).heap b = t.heap b
        rw [hheap]
        refine (Function.update_of_ne hba _ _).trans ((modify_of_ne _ ?_).trans (modify_of_ne _ ?_))
        · exact last_ne hpre (Option.some_ne_none b).symm
        · exact first_ne hpost (Option.some_ne_none b).symm
  hashed := by
    intro j x hx
    by_cases hj : j = hash v
    · rw [hj, Function.update_self] at hx
      refine (h.hashed _ x ?_).trans hj.symm
      rw [hbucket]
      exact List.mem_append.mpr ((List.mem_append.mp hx).imp_right (List.mem_cons_of_mem _))
    · rw [Function.update_of_ne hj] at hx
      exact h.hashed j x hx
  covers := by
    intro b w hw
    rw [val_unlink] at hw
    by_cases hb : b = a
    · rw [hb, Function.update_self] at hw
      cases hw
    · rw [Function.update_of_ne hb] at hw
      have hmem := h.covers b w hw
      by_cases hj : hash w = hash v
      · rw [hj, hbucket] at hmem
        rw [hj, Function.update_self]
        rcases List.mem_append.mp hmem with hpre | hpost
        · exact List.mem_append_left _ hpre
        · rcases List.mem_cons.mp hpost with heq | hpost
          · exact absurd (congrArg Prod.fst heq) hb
          · exact List.mem_append_right _ hpost
      · rw [Function.update_of_ne hj]
        exact hmem

theorem map_mapVal_of_notMem {f : α → α} {l : List (ℕ × α)} (hl : a ∉ l.map Prod.fst) : l.map (mapVal f a) = l := by
  refine (List.map_congr_left fun x hx ↦ if_neg ?_).trans (List.map_id l)
  exact ne_of_mem_of_not_mem (List.mem_map_of_mem hx) hl

/-- A change of a value that keeps its bucket. -/
theorem Chained.modifyVal (h : Chained hash t xs) {f : α → α} (hf : ∀ v, hash (f v) = hash v) (a : ℕ) :
    Chained hash (t.modifyVal f a) fun i ↦ (xs i).map (mapVal f a) where
  linked := fun i ↦ (h.linked i).modifyVal f a
  hashed := by
    intro i x hx
    obtain ⟨y, hy, rfl⟩ := List.mem_map.mp hx
    rw [mapVal]
    split_ifs
    · exact (hf y.2).trans (h.hashed i y hy)
    · exact h.hashed i y hy
  covers := by
    intro b w hw
    rw [val_modifyVal] at hw
    by_cases hb : b = a
    · rw [hb, Function.update_self, Option.map_eq_some_iff] at hw
      obtain ⟨v, hv, rfl⟩ := hw
      refine List.mem_map.mpr ⟨(a, v), ?_, ?_⟩
      · rw [hf]
        exact h.covers a v hv
      · rw [mapVal, if_pos rfl, hb]
    · rw [Function.update_of_ne hb] at hw
      exact List.mem_map.mpr ⟨(b, w), h.covers b w hw, if_neg hb⟩

/-- Another value for one node, which stays in its bucket. -/
theorem Chained.setVal (h : Chained hash t xs) {pre post : List (ℕ × α)} {w : α} (hw : hash w = hash v)
    (hbucket : xs (hash v) = pre ++ (a, v) :: post) :
    Chained hash (t.modifyVal (fun _ ↦ w) a) (Function.update xs (hash v) (pre ++ (a, w) :: post)) := by
  let f (u : α) : α := if hash u = hash v then w else u
  have hf (u : α) : hash (f u) = hash u := by
    show hash (if hash u = hash v then w else u) = hash u
    split_ifs with hu
    · exact hw.trans hu.symm
    · rfl
  have hv : f v = w := if_pos rfl
  have hnode := h.linked (hash v)
  rw [hbucket] at hnode
  have htable : t.modifyVal (fun _ ↦ w) a = t.modifyVal f a := by
    have hheap : (t.heap a).map (fun n ↦ { n with val := w }) = (t.heap a).map fun n ↦ { n with val := f n.val } := by
      rw [show t.heap a = some _ from hnode.lookup, Option.map_some, Option.map_some, hv]
    exact congrArg (fun node ↦ { t with heap := Function.update t.heap a node }) hheap
  have hlists : (fun i ↦ (xs i).map (mapVal f a)) = Function.update xs (hash v) (pre ++ (a, w) :: post) := by
    ext1 i
    by_cases hi : i = hash v
    · have hnodup := hnode.nodup
      rw [List.map_append, List.map_cons, List.nodup_middle, List.nodup_cons, List.mem_append, not_or] at hnodup
      rw [hi, Function.update_self, hbucket, List.map_append, List.map_cons, map_mapVal_of_notMem hnodup.1.1,
        map_mapVal_of_notMem hnodup.1.2, mapVal, if_pos rfl]
      exact congrArg (fun u ↦ pre ++ (a, u) :: post) hv
    · rw [Function.update_of_ne hi]
      refine map_mapVal_of_notMem fun hmem ↦ hi (h.bucket_unique hmem ?_)
      rw [hbucket, List.map_append, List.map_cons]
      exact List.mem_append_right _ List.mem_cons_self
  rw [htable, ← hlists]
  exact h.modifyVal hf a

end Chains

/-! ### All nodes -/

section All

variable {hash : α → ℕ} {t : HashTable α} {xs ys : ℕ → List (ℕ × α)} {m i a : ℕ} {v : α}

theorem Chained.toList_eq (h : Chained hash t xs) (m : ℕ) : t.toList m = (List.range m).flatMap xs := by
  rw [HashTable.toList]
  exact List.flatMap_congr fun i _ ↦ (h.linked i).toList_eq

/-- A table has the nodes of its heap. -/
theorem Chained.mem_toList (h : Chained hash t xs) (hm : ∀ v, hash v < m) :
    (a, v) ∈ t.toList m ↔ t.val a = some v := by
  rw [h.toList_eq, List.mem_flatMap]
  constructor
  · rintro ⟨i, -, hi⟩
    exact h.val_eq hi
  · exact fun hv ↦ ⟨hash v, List.mem_range.mpr (hm v), h.covers a v hv⟩

theorem Chained.nodup_toList (h : Chained hash t xs) (m : ℕ) : ((t.toList m).map Prod.fst).Nodup := by
  rw [h.toList_eq, List.map_flatMap, List.nodup_flatMap]
  constructor
  · exact fun i _ ↦ (h.linked i).nodup
  · refine List.nodup_range.imp fun hij a hi hj ↦ ?_
    exact hij (h.bucket_unique hi hj)

/-- One bucket has one node more. -/
theorem flatMap_insert (hi : i < m) (pre : List (ℕ × α)) {post : List (ℕ × α)} {x : ℕ × α} (hxs : xs i = pre ++ x :: post)
    (hys : ys i = pre ++ post) (hothers : ∀ j, j ≠ i → xs j = ys j) :
    ((List.range m).flatMap xs).Perm (x :: (List.range m).flatMap ys) := by
  obtain ⟨before, after, hrange⟩ := List.append_of_mem (List.mem_range.mpr hi)
  have hnodup : (before ++ i :: after).Nodup := hrange ▸ List.nodup_range
  rw [List.nodup_middle, List.nodup_cons, List.mem_append, not_or] at hnodup
  have hbefore : before.flatMap xs = before.flatMap ys :=
    List.flatMap_congr fun j hj ↦ hothers j (ne_of_mem_of_not_mem hj hnodup.1.1)
  have hafter : after.flatMap xs = after.flatMap ys :=
    List.flatMap_congr fun j hj ↦ hothers j (ne_of_mem_of_not_mem hj hnodup.1.2)
  rw [hrange, List.flatMap_append, List.flatMap_append, List.flatMap_cons, List.flatMap_cons, hxs, hys,
    hbefore, hafter]
  have hmiddle : before.flatMap ys ++ (pre ++ x :: post ++ after.flatMap ys) =
      (before.flatMap ys ++ pre) ++ x :: (post ++ after.flatMap ys) := by simp
  have hrest : before.flatMap ys ++ (pre ++ post ++ after.flatMap ys) =
      (before.flatMap ys ++ pre) ++ (post ++ after.flatMap ys) := by simp
  rw [hmiddle, hrest]
  exact List.perm_middle

theorem Chained.toList_push (h : Chained hash t xs) (hm : ∀ v, hash v < m) (ha : t.heap a = none) (v : α) :
    ((t.push (hash v) a v).toList m).Perm ((a, v) :: t.toList m) := by
  rw [(h.push ha v).toList_eq, h.toList_eq]
  refine flatMap_insert (hm v) [] (Function.update_self ..) rfl fun j hj ↦ ?_
  exact Function.update_of_ne hj _ _

theorem Chained.toList_unlink (h : Chained hash t xs) (hm : ∀ v, hash v < m) {pre post : List (ℕ × α)}
    (hbucket : xs (hash v) = pre ++ (a, v) :: post) :
    (t.toList m).Perm ((a, v) :: (t.unlink (hash v) a).toList m) := by
  rw [(h.unlink hbucket).toList_eq, h.toList_eq]
  exact flatMap_insert (hm v) pre hbucket (Function.update_self ..) fun j hj ↦ (Function.update_of_ne hj _ _).symm

theorem Chained.toList_modifyVal (h : Chained hash t xs) {f : α → α} (hf : ∀ v, hash (f v) = hash v)
    (m a : ℕ) : (t.modifyVal f a).toList m = (t.toList m).map (mapVal f a) := by
  rw [(h.modifyVal hf a).toList_eq, h.toList_eq, List.map_flatMap]

/-- One node is changed, the others stay. -/
theorem Chained.toList_modifyVal_perm (h : Chained hash t xs) (hm : ∀ v, hash v < m) {f : α → α}
    (hf : ∀ v, hash (f v) = hash v) (hv : t.val a = some v) :
    ∃ rest, (t.toList m).Perm ((a, v) :: rest) ∧ ((t.modifyVal f a).toList m).Perm ((a, f v) :: rest) := by
  obtain ⟨pre, post, hlist⟩ := List.append_of_mem ((h.mem_toList hm).mpr hv)
  have hnodup := h.nodup_toList m
  rw [hlist, List.map_append, List.map_cons, List.nodup_middle, List.nodup_cons, List.mem_append,
    not_or] at hnodup
  refine ⟨pre ++ post, ?_, ?_⟩
  · rw [hlist]
    exact List.perm_middle
  · rw [h.toList_modifyVal hf, hlist, List.map_append, List.map_cons, map_mapVal_of_notMem hnodup.1.1,
      map_mapVal_of_notMem hnodup.1.2, mapVal, if_pos rfl]
    exact List.perm_middle

/-- A node of the table stands in the bucket of its value. -/
theorem Chained.exists_bucket (h : Chained hash t xs) (hv : t.val a = some v) :
    ∃ pre post, xs (hash v) = pre ++ (a, v) :: post :=
  List.append_of_mem (h.covers a v hv)

end All

end BlitzedServices.Lib
