import Mathlib

/-!
# Linked lists on a heap

Nodes with pointers to the next and the previous one. `Linked` says that the nodes reached from the head
are those of a list, each with the back pointer that `back` makes of its predecessor: `id` for a doubly
linked list, and nothing for one whose back pointers are never set. Pushing and unlinking are described by
what they do to that list.
-/

set_option autoImplicit false
set_option relaxedAutoImplicit false

namespace BlitzedServices.Lib

/-- A node. -/
structure Node (α : Type) where
  next : Option ℕ
  prev : Option ℕ
  val : α

/-- The allocated nodes, the pointer to the first one, and how many have been allocated. The number bounds
walks along the list. -/
structure LinkedList (α : Type) where
  heap : ℕ → Option (Node α)
  head : Option ℕ
  nodes : ℕ

variable {α : Type}

/-! ### Pointers -/

/-- No nodes. -/
def LinkedList.empty : LinkedList α := ⟨fun _ ↦ none, none, 0⟩

/-- A write through a pointer. -/
def modify (f : Node α → Node α) (p : Option ℕ) (heap : ℕ → Option (Node α)) : ℕ → Option (Node α) :=
  match p with
  | none => heap
  | some a => Function.update heap a ((heap a).map f)

/-- `if (p) p->prev = q`. -/
def setPrev (p q : Option ℕ) (heap : ℕ → Option (Node α)) : ℕ → Option (Node α) :=
  modify (fun n ↦ { n with prev := q }) p heap

/-- `if (p) p->next = q`. -/
def setNext (p q : Option ℕ) (heap : ℕ → Option (Node α)) : ℕ → Option (Node α) :=
  modify (fun n ↦ { n with next := q }) p heap

/-- The value of a node is changed. -/
def modifyVal (f : α → α) (a : ℕ) (heap : ℕ → Option (Node α)) : ℕ → Option (Node α) :=
  modify (fun n ↦ { n with val := f n.val }) (some a) heap

namespace LinkedList

/-- The value of a node of the list is changed. -/
def modifyVal (f : α → α) (a : ℕ) (l : LinkedList α) : LinkedList α :=
  { l with heap := Lib.modifyVal f a l.heap }

/-- The value of a node. -/
def val (l : LinkedList α) (a : ℕ) : Option α := (l.heap a).map Node.val

/-- A new first node. -/
def push (a : ℕ) (v : α) (l : LinkedList α) : LinkedList α where
  heap := Function.update (setPrev l.head (some a) l.heap) a (some ⟨l.head, none, v⟩)
  head := some a
  nodes := l.nodes + 1

/-- A new first node to which no pointer leads back. -/
def pushForward (a : ℕ) (v : α) (l : LinkedList α) : LinkedList α where
  heap := Function.update l.heap a (some ⟨l.head, none, v⟩)
  head := some a
  nodes := l.nodes + 1

/-- A node is taken out, at the head if its back pointer is not set, and freed. -/
def unlink (a : ℕ) (l : LinkedList α) : LinkedList α :=
  match l.heap a with
  | none => l
  | some node =>
    { l with
      heap := Function.update (setNext node.prev node.next (setPrev node.next node.prev l.heap)) a none
      head := if node.prev.isSome then l.head else node.next }

@[simp] theorem unlink_nodes (a : ℕ) (l : LinkedList α) : (l.unlink a).nodes = l.nodes := by
  rw [unlink]
  cases l.heap a with
  | none => rfl
  | some node => rfl

end LinkedList

/-! ### Segments -/

/-- The pointer to the first of some nodes, or what follows them. -/
def first : List (ℕ × α) → Option ℕ → Option ℕ
  | [], r => r
  | (a, _) :: _, _ => some a

/-- The pointer to the last of some nodes, or what precedes them. -/
def last : Option ℕ → List (ℕ × α) → Option ℕ
  | q, [] => q
  | _, (a, _) :: l => last (some a) l

/-- Nodes linked one to the next, between two pointers. -/
def Segment (back : Option ℕ → Option ℕ) (heap : ℕ → Option (Node α)) :
    Option ℕ → List (ℕ × α) → Option ℕ → Prop
  | _, [], _ => True
  | q, (a, v) :: l, r => heap a = some ⟨first l r, back q, v⟩ ∧ Segment back heap (some a) l r

section Segments

variable {back : Option ℕ → Option ℕ} {heap heap' : ℕ → Option (Node α)} {q r : Option ℕ}
  {l xs ys : List (ℕ × α)}

theorem first_append : first (xs ++ ys) r = first xs (first ys r) := by
  cases xs with
  | nil => rfl
  | cons x xs => rfl

theorem segment_append : Segment back heap q (xs ++ ys) r ↔
    Segment back heap q xs (first ys r) ∧ Segment back heap (last q xs) ys r := by
  induction xs generalizing q with
  | nil => exact (and_iff_right trivial).symm
  | cons x xs ih =>
    rw [List.cons_append, Segment, Segment, ih, first_append, and_assoc]
    rfl

theorem Segment.frame (h : Segment back heap q l r)
    (hsame : ∀ a ∈ l.map Prod.fst, heap' a = heap a) : Segment back heap' q l r := by
  induction l generalizing q with
  | nil => trivial
  | cons x l ih =>
    refine ⟨(hsame x.1 List.mem_cons_self).trans h.1, ih h.2 fun a ha ↦ ?_⟩
    exact hsame a (List.mem_cons_of_mem _ ha)

theorem Segment.isSome (h : Segment back heap q l r) {a : ℕ} (ha : a ∈ l.map Prod.fst) :
    (heap a).isSome := by
  induction l generalizing q with
  | nil => cases ha
  | cons x l ih =>
    rcases List.mem_cons.mp ha with rfl | ha
    · rw [h.1]
      rfl
    · exact ih h.2 ha

theorem modify_of_ne (f : Node α → Node α) {p : Option ℕ} {a : ℕ} (h : p ≠ some a) :
    modify f p heap a = heap a := by
  cases p with
  | none => rfl
  | some b => exact Function.update_of_ne (fun hab ↦ h (congrArg some hab.symm)) _ _

theorem modify_self (f : Node α → Node α) (a : ℕ) :
    modify f (some a) heap a = (heap a).map f :=
  Function.update_self a _ heap

theorem first_ne {a : ℕ} (ha : a ∉ l.map Prod.fst) (hr : r ≠ some a) : first l r ≠ some a := by
  cases l with
  | nil => exact hr
  | cons x l => exact fun h ↦ ha (List.mem_cons.mpr (.inl (Option.some.inj h).symm))

theorem last_ne {a : ℕ} (ha : a ∉ l.map Prod.fst) (hq : q ≠ some a) : last q l ≠ some a := by
  induction l generalizing q with
  | nil => exact hq
  | cons x l ih =>
    rw [List.map_cons, List.mem_cons, not_or] at ha
    exact ih ha.2 fun h ↦ ha.1 (Option.some.inj h).symm

theorem last_isSome (a : ℕ) (l : List (ℕ × α)) : (last (some a) l).isSome := by
  induction l generalizing a with
  | nil => rfl
  | cons x l ih => exact ih x.1

/-- The predecessor of a segment can be changed in its first node. -/
theorem Segment.setPrev (h : Segment back heap q l none) (hnodup : (l.map Prod.fst).Nodup)
    (q' : Option ℕ) : Segment back (setPrev (first l none) (back q') heap) q' l none := by
  cases l with
  | nil => trivial
  | cons x l =>
    rw [List.map_cons, List.nodup_cons] at hnodup
    constructor
    · rw [first, Lib.setPrev, modify_self, h.1]
      rfl
    · refine h.2.frame fun a ha ↦ modify_of_ne _ fun hax ↦ ?_
      obtain rfl := Option.some.inj hax
      exact hnodup.1 ha

/-- The successor of a segment can be changed in its last node. -/
theorem Segment.setNext (h : Segment back heap q l r) (hnodup : (l.map Prod.fst).Nodup)
    (r' : Option ℕ) : Segment back (setNext (last q l) r' heap) q l r' := by
  induction l generalizing q with
  | nil => trivial
  | cons x l ih =>
    rw [List.map_cons, List.nodup_cons] at hnodup
    refine ⟨?_, ih h.2 hnodup.2⟩
    cases l with
    | nil =>
      rw [last, last, Lib.setNext, modify_self, h.1]
      rfl
    | cons y l =>
      have hlast : last (some y.1) l ≠ some x.1 := by
        rw [List.map_cons, List.mem_cons, not_or] at hnodup
        exact last_ne hnodup.1.2 fun hyx ↦ hnodup.1.1 (Option.some.inj hyx).symm
      exact (modify_of_ne _ hlast).trans h.1

end Segments

/-! ### Lists -/

/-- The nodes from the head are those of a list. -/
structure Linked (back : Option ℕ → Option ℕ) (l : LinkedList α) (xs : List (ℕ × α)) : Prop where
  head : l.head = first xs none
  segment : Segment back l.heap none xs none
  nodup : (xs.map Prod.fst).Nodup
  length_le : xs.length ≤ l.nodes

section Lists

variable {back : Option ℕ → Option ℕ} {l : LinkedList α} {xs ys : List (ℕ × α)} {a : ℕ} {v : α}

theorem linked_empty : Linked back (LinkedList.empty : LinkedList α) [] :=
  ⟨rfl, trivial, List.nodup_nil, le_rfl⟩

theorem Linked.lookup (h : Linked back l (xs ++ (a, v) :: ys)) :
    l.heap a = some ⟨first ys none, back (last none xs), v⟩ :=
  (segment_append.mp h.segment).2.1

theorem Linked.not_mem (h : Linked back l xs) (ha : l.heap a = none) : a ∉ xs.map Prod.fst := by
  intro hmem
  have hsome := h.segment.isSome hmem
  rw [ha] at hsome
  cases hsome

theorem Linked.push (h : Linked id l xs) (ha : l.heap a = none) (v : α) :
    Linked id (l.push a v) ((a, v) :: xs) := by
  have hnot := h.not_mem ha
  have hframe : ∀ b ∈ xs.map Prod.fst, (l.push a v).heap b = setPrev l.head (some a) l.heap b :=
    fun b hb ↦ Function.update_of_ne (ne_of_mem_of_not_mem hb hnot) _ _
  refine ⟨rfl, ⟨?_, ?_⟩, List.nodup_cons.mpr ⟨hnot, h.nodup⟩, Nat.succ_le_succ h.length_le⟩
  · exact (Function.update_self a _ _).trans (by rw [h.head]; rfl)
  · rw [h.head] at hframe
    exact (h.segment.setPrev h.nodup (some a)).frame hframe

theorem Linked.pushForward (h : Linked (fun _ ↦ none) l xs) (ha : l.heap a = none) (v : α) :
    Linked (fun _ ↦ none) (l.pushForward a v) ((a, v) :: xs) := by
  have hnot := h.not_mem ha
  have hframe : ∀ b ∈ xs.map Prod.fst, (l.pushForward a v).heap b = l.heap b :=
    fun b hb ↦ Function.update_of_ne (ne_of_mem_of_not_mem hb hnot) _ _
  refine ⟨rfl, ⟨?_, ?_⟩, List.nodup_cons.mpr ⟨hnot, h.nodup⟩, Nat.succ_le_succ h.length_le⟩
  · exact (Function.update_self a _ _).trans (by rw [h.head])
  · refine Segment.frame ?_ hframe
    cases xs with
    | nil => trivial
    | cons x xs => exact h.segment

theorem unlink_eq {node : Node α} (h : l.heap a = some node) :
    l.unlink a =
      { l with
        heap := Function.update
          (setNext node.prev node.next (setPrev node.next node.prev l.heap)) a none
        head := if node.prev.isSome then l.head else node.next } := by
  rw [LinkedList.unlink, h]

/-- The addresses around a node. -/
theorem Linked.nodup_middle (h : Linked back l (xs ++ (a, v) :: ys)) :
    (a ∉ xs.map Prod.fst ∧ a ∉ ys.map Prod.fst) ∧
      ((xs ++ ys).map Prod.fst).Nodup := by
  have hnodup := h.nodup
  rw [List.map_append, List.map_cons, List.nodup_middle, List.nodup_cons, List.mem_append,
    not_or, ← List.map_append] at hnodup
  exact hnodup

/-- A doubly linked list loses the node. -/
theorem Linked.unlink (h : Linked id l (xs ++ (a, v) :: ys)) : Linked id (l.unlink a) (xs ++ ys) := by
  obtain ⟨⟨hxs, hys⟩, hnodup⟩ := h.nodup_middle
  obtain ⟨hbefore, -, hafter⟩ := segment_append.mp h.segment
  have hparts := hnodup
  rw [List.map_append, List.nodup_append] at hparts
  obtain ⟨hnodupx, hnodupy, hdisjoint⟩ := hparts
  rw [unlink_eq h.lookup]
  constructor
  · show (if (last none xs).isSome then l.head else first ys none) = first (xs ++ ys) none
    rw [h.head]
    cases xs with
    | nil => rfl
    | cons x xs => exact if_pos (last_isSome x.1 xs)
  · rw [segment_append]
    constructor
    · have hprev : Segment id (setPrev (first ys none) (last none xs) l.heap) none xs (some a) :=
        hbefore.frame fun b hb ↦ modify_of_ne _
          (first_ne (fun hby ↦ hdisjoint b hb b hby rfl) (Option.some_ne_none b).symm)
      refine (hprev.setNext hnodupx (first ys none)).frame fun b hb ↦ ?_
      exact Function.update_of_ne (ne_of_mem_of_not_mem hb hxs) _ _
    · refine Segment.frame (hafter.setPrev hnodupy (last none xs)) fun b hb ↦ ?_
      refine (Function.update_of_ne (ne_of_mem_of_not_mem hb hys) _ _).trans (modify_of_ne _ ?_)
      exact last_ne (fun hbx ↦ hdisjoint b hbx b hb rfl) (Option.some_ne_none b).symm
  · exact hnodup
  · refine le_trans ?_ h.length_le
    rw [List.length_append, List.length_append, List.length_cons]
    omega

/-- A list whose back pointers are not set loses all nodes up to the one that is taken out. -/
theorem Linked.unlinkForward (h : Linked (fun _ ↦ none) l (xs ++ (a, v) :: ys)) :
    Linked (fun _ ↦ none) (l.unlink a) ys := by
  obtain ⟨⟨-, hys⟩, hnodup⟩ := h.nodup_middle
  obtain ⟨-, -, hafter⟩ := segment_append.mp h.segment
  rw [List.map_append, List.nodup_append] at hnodup
  rw [unlink_eq h.lookup]
  refine ⟨rfl, ?_, hnodup.2.1, ?_⟩
  · refine Segment.frame (hafter.setPrev hnodup.2.1 none) fun b hb ↦ ?_
    exact Function.update_of_ne (ne_of_mem_of_not_mem hb hys) _ _
  · refine le_trans ?_ h.length_le
    rw [List.length_append, List.length_cons]
    omega

end Lists

/-! ### Values -/

/-- A value is changed in the list of the nodes. -/
def mapVal (f : α → α) (a : ℕ) (x : ℕ × α) : ℕ × α :=
  if x.1 = a then (x.1, f x.2) else x

@[simp] theorem mapVal_fst (f : α → α) (a : ℕ) (x : ℕ × α) : (mapVal f a x).1 = x.1 := by
  rw [mapVal]
  split_ifs <;> rfl

theorem map_fst_mapVal (f : α → α) (a : ℕ) (l : List (ℕ × α)) :
    (l.map (mapVal f a)).map Prod.fst = l.map Prod.fst := by
  rw [List.map_map]
  exact List.map_congr_left fun x _ ↦ mapVal_fst f a x

theorem first_map_mapVal (f : α → α) (a : ℕ) (l : List (ℕ × α)) (r : Option ℕ) :
    first (l.map (mapVal f a)) r = first l r := by
  cases l with
  | nil => rfl
  | cons x l => exact congrArg some (mapVal_fst f a x)

theorem Segment.modifyVal {back : Option ℕ → Option ℕ} {heap : ℕ → Option (Node α)} {q r : Option ℕ}
    {l : List (ℕ × α)} (h : Segment back heap q l r) (f : α → α) (a : ℕ) :
    Segment back (modifyVal f a heap) q (l.map (mapVal f a)) r := by
  induction l generalizing q with
  | nil => trivial
  | cons x l ih =>
    have htail := ih h.2
    by_cases hxa : x.1 = a
    · rw [List.map_cons, mapVal, if_pos hxa]
      refine ⟨?_, htail⟩
      rw [first_map_mapVal, Lib.modifyVal, hxa, modify_self, ← hxa, h.1]
      rfl
    · rw [List.map_cons, mapVal, if_neg hxa]
      refine ⟨?_, htail⟩
      rw [first_map_mapVal, Lib.modifyVal, modify_of_ne _ fun hax ↦ hxa (Option.some.inj hax).symm]
      exact h.1

theorem Linked.modifyVal {back : Option ℕ → Option ℕ} {l : LinkedList α} {xs : List (ℕ × α)}
    (h : Linked back l xs) (f : α → α) (a : ℕ) : Linked back (l.modifyVal f a) (xs.map (mapVal f a)) := by
  refine ⟨h.head.trans (first_map_mapVal f a xs none).symm, h.segment.modifyVal f a, ?_, ?_⟩
  · rw [map_fst_mapVal]
    exact h.nodup
  · rw [List.length_map]
    exact h.length_le

section Vals

variable {heap : ℕ → Option (Node α)} {f : Node α → Node α} (l : LinkedList α) (a : ℕ)

theorem modify_map_val (hf : ∀ n, (f n).val = n.val) (p : Option ℕ) (b : ℕ) :
    (modify f p heap b).map Node.val = (heap b).map Node.val := by
  by_cases hp : p = some b
  · rw [hp, modify_self, Option.map_map]
    exact congrArg (fun g ↦ (heap b).map g) (funext hf)
  · rw [modify_of_ne f hp]

theorem setPrev_map_val (p q : Option ℕ) (heap : ℕ → Option (Node α)) (b : ℕ) :
    (setPrev p q heap b).map Node.val = (heap b).map Node.val :=
  modify_map_val (f := fun n ↦ { n with prev := q }) (fun _ ↦ rfl) p b

theorem setNext_map_val (p q : Option ℕ) (heap : ℕ → Option (Node α)) (b : ℕ) :
    (setNext p q heap b).map Node.val = (heap b).map Node.val :=
  modify_map_val (f := fun n ↦ { n with next := q }) (fun _ ↦ rfl) p b

theorem LinkedList.val_push (v : α) : (l.push a v).val = Function.update l.val a (some v) := by
  ext1 b
  by_cases hb : b = a
  · rw [hb, Function.update_self, LinkedList.val, LinkedList.push]
    dsimp only
    rw [Function.update_self]
    rfl
  · rw [Function.update_of_ne hb, LinkedList.val, LinkedList.push]
    dsimp only
    rw [Function.update_of_ne hb, setPrev_map_val]
    rfl

theorem LinkedList.val_unlink : (l.unlink a).val = Function.update l.val a none := by
  ext1 b
  cases hnode : l.heap a with
  | none =>
    have hval : l.val a = none := congrArg (Option.map Node.val) hnode
    rw [LinkedList.unlink, hnode, ← hval, Function.update_eq_self]
  | some node =>
    rw [LinkedList.val, unlink_eq hnode]
    dsimp only
    by_cases hb : b = a
    · rw [hb, Function.update_self, Function.update_self, Option.map_none]
    · rw [Function.update_of_ne hb, Function.update_of_ne hb, setNext_map_val, setPrev_map_val]
      rfl

theorem LinkedList.heap_unlink : (l.unlink a).heap a = none := by
  rw [← Option.map_eq_none_iff (f := Node.val)]
  exact (congrFun (l.val_unlink a) a).trans (Function.update_self ..)

theorem LinkedList.val_modifyVal (f : α → α) :
    (l.modifyVal f a).val = Function.update l.val a ((l.val a).map f) := by
  ext1 b
  show (Lib.modifyVal f a l.heap b).map Node.val = _
  by_cases hb : b = a
  · rw [hb, Lib.modifyVal, modify_self, Function.update_self, LinkedList.val, Option.map_map, Option.map_map]
    rfl
  · rw [Lib.modifyVal, modify_of_ne _ fun h ↦ hb (Option.some.inj h).symm, Function.update_of_ne hb]
    rfl

end Vals

/-! ### Walks -/

/-- `for (ptr = p; ptr; ptr = ptr->next) if (ptr == a) break`: whether the walk stops at the node, or
nothing if it does not come to an end. -/
def reaches (heap : ℕ → Option (Node α)) (a : ℕ) : ℕ → Option ℕ → Option Bool
  | 0, _ => none
  | _ + 1, none => some false
  | fuel + 1, some b =>
    if b = a then some true
    else (heap b).bind fun node ↦ reaches heap a fuel node.next

theorem reaches_segment {back : Option ℕ → Option ℕ} {heap : ℕ → Option (Node α)} {q : Option ℕ}
    {xs : List (ℕ × α)} (h : Segment back heap q xs none) (a : ℕ) {fuel : ℕ}
    (hfuel : xs.length < fuel) :
    reaches heap a fuel (first xs none) = some (decide (a ∈ xs.map Prod.fst)) := by
  induction xs generalizing q fuel with
  | nil =>
    cases fuel with
    | zero => exact absurd hfuel (Nat.not_lt_zero _)
    | succ fuel => rfl
  | cons x xs ih =>
    cases fuel with
    | zero => exact absurd hfuel (Nat.not_lt_zero _)
    | succ fuel =>
      rw [first, reaches, h.1, Option.bind_some, ih h.2 (Nat.lt_of_succ_lt_succ hfuel)]
      split_ifs with hxa
      · have hmem : a ∈ (x :: xs).map Prod.fst := List.mem_cons.mpr (.inl hxa.symm)
        rw [decide_eq_true hmem]
      · refine congrArg some (decide_eq_decide.mpr ?_)
        rw [List.map_cons, List.mem_cons]
        exact (or_iff_right fun hax ↦ hxa hax.symm).symm

/-- The nodes that a walk meets. -/
def walk (heap : ℕ → Option (Node α)) : ℕ → Option ℕ → List (ℕ × α)
  | 0, _ => []
  | _ + 1, none => []
  | fuel + 1, some a =>
    match heap a with
    | none => []
    | some node => (a, node.val) :: walk heap fuel node.next

/-- The nodes from the head. -/
def LinkedList.toList (l : LinkedList α) : List (ℕ × α) := walk l.heap l.nodes l.head

theorem walk_segment {back : Option ℕ → Option ℕ} {heap : ℕ → Option (Node α)} {q : Option ℕ}
    {xs : List (ℕ × α)} (h : Segment back heap q xs none) {fuel : ℕ} (hfuel : xs.length ≤ fuel) :
    walk heap fuel (first xs none) = xs := by
  induction xs generalizing q fuel with
  | nil => cases fuel <;> rfl
  | cons x xs ih =>
    cases fuel with
    | zero => exact absurd hfuel (Nat.not_succ_le_zero _)
    | succ fuel =>
      rw [first, walk, h.1]
      exact congrArg (x :: ·) (ih h.2 (Nat.le_of_succ_le_succ hfuel))

theorem Linked.toList_eq {back : Option ℕ → Option ℕ} {l : LinkedList α} {xs : List (ℕ × α)}
    (h : Linked back l xs) : l.toList = xs := by
  rw [LinkedList.toList, h.head]
  exact walk_segment h.segment h.length_le

/-! ### What is left after the last match -/

section Suffix

variable {β γ : Type} {p q : β → Bool} {x : β}

theorem rtakeWhile_append_cons (pre post : List β) (hx : ¬ p x = true) :
    (pre ++ x :: post).rtakeWhile p = post.rtakeWhile p := by
  induction post using List.reverseRecOn with
  | nil => rw [List.rtakeWhile_concat_neg _ _ _ hx, List.rtakeWhile_nil]
  | append_singleton post y ih =>
    rw [← List.cons_append, ← List.append_assoc]
    by_cases hy : p y = true
    · rw [List.rtakeWhile_concat_pos _ _ _ hy, List.rtakeWhile_concat_pos _ _ _ hy, ih]
    · rw [List.rtakeWhile_concat_neg _ _ _ hy, List.rtakeWhile_concat_neg _ _ _ hy]

theorem rtakeWhile_map (f : γ → β) (l : List γ) :
    (l.map f).rtakeWhile p = (l.rtakeWhile fun x ↦ p (f x)).map f := by
  rw [List.rtakeWhile, ← List.map_reverse, List.takeWhile_map, ← List.map_reverse]
  rfl

theorem rtakeWhile_rtakeWhile (p q : β → Bool) (l : List β) :
    (l.rtakeWhile q).rtakeWhile p = l.rtakeWhile fun x ↦ p x && q x := by
  rw [List.rtakeWhile, List.rtakeWhile, List.reverse_reverse, List.takeWhile_takeWhile]
  simp only [Bool.decide_and, Bool.decide_eq_true]
  rfl

/-- The end of a list has as many elements as are kept iff nothing before it is kept. -/
theorem length_rtakeWhile_eq_iff {l : List β} (hpq : ∀ x ∈ l, p x = true → q x = true) :
    (l.rtakeWhile p).length = (l.filter q).length ↔ ∀ x ∈ l.rdropWhile p, ¬ q x = true := by
  have hkept : (l.rtakeWhile p).filter q = l.rtakeWhile p :=
    List.filter_eq_self.mpr fun x hx ↦
      hpq x ((List.rtakeWhile_suffix p l).subset hx) (List.mem_rtakeWhile_imp hx)
  have hsplit : l.filter q = (l.rdropWhile p).filter q ++ l.rtakeWhile p := by
    conv_lhs => rw [← List.rdropWhile_append_rtakeWhile (p := p) (l := l)]
    rw [List.filter_append, hkept]
  rw [hsplit, List.length_append, Nat.right_eq_add, List.length_eq_zero_iff, List.filter_eq_nil_iff]

end Suffix

end BlitzedServices.Lib
