import Mathlib

/-!
# Circular lists through a head

Cells on a heap, each with a pointer to the next one. An `Arc` is a list of cells linked one to the next,
and a ring (`IsRing`) is an arc from a head back to itself. Code walks along the pointers until some cell
makes it stop (`walkUntil`); such a walk can run into memory that is not allocated, or not end. The number
of steps is bounded by a fuel, and more fuel than there are cells makes no difference
(`walkUntil_spin_of_spin`).

In a ring whose keys ascend, the walk to the first key that is not smaller finds the place of a key
(`IsRing.search`), and a cell linked in there keeps the order (`IsRing.link`, `Ascending.insert`).
-/

set_option autoImplicit false
set_option relaxedAutoImplicit false

namespace BlitzedServices.Lib

/-! ### Cells -/

/-- A cell of memory. -/
structure Cell (α : Type) where
  next : ℕ
  val : α

/-- What keeps code from returning: an assertion that fails, a pointer to memory that is not allocated, a
loop that does not end. -/
inductive Stuck where
  | assertion
  | fault
  | spin
  deriving DecidableEq

variable {α : Type}

/-- A read through a pointer. -/
def load (heap : ℕ → Option (Cell α)) (a : ℕ) : Except Stuck (Cell α) :=
  match heap a with
  | some c => .ok c
  | none => .error .fault

theorem load_eq {heap : ℕ → Option (Cell α)} {a : ℕ} {c : Cell α} (h : heap a = some c) :
    load heap a = .ok c := by
  rw [load, h]

/-- `new->next = prev->next; prev->next = new`, where `c` is what is stored at `prev`. -/
def linkAfter (prev : ℕ) (c : Cell α) (new : ℕ) (v : α) (heap : ℕ → Option (Cell α)) :
    ℕ → Option (Cell α) :=
  Function.update (Function.update heap new (some ⟨c.next, v⟩)) prev (some ⟨new, c.val⟩)

/-- Follow the pointers until `stop`: the cell before and the cell where the walk ends. -/
def walkUntil (heap : ℕ → Option (Cell α)) (stop : ℕ → Cell α → Bool) :
    ℕ → ℕ → ℕ → Except Stuck (ℕ × ℕ)
  | 0, _, _ => .error .spin
  | fuel + 1, prev, a =>
    match heap a with
    | none => .error .fault
    | some c => if stop a c then .ok (prev, a) else walkUntil heap stop fuel a c.next

/-! ### Arcs -/

/-- The first of some cells, or what follows them. -/
def arcStart : List (ℕ × α) → ℕ → ℕ
  | [], r => r
  | (a, _) :: _, _ => a

/-- The last of some cells, or what precedes them. -/
def arcEnd : ℕ → List (ℕ × α) → ℕ
  | q, [] => q
  | _, (a, _) :: l => arcEnd a l

/-- Cells linked one to the next, the last one to `r`. -/
def Arc (heap : ℕ → Option (Cell α)) : List (ℕ × α) → ℕ → Prop
  | [], _ => True
  | (a, v) :: l, r => heap a = some ⟨arcStart l r, v⟩ ∧ Arc heap l r

section Arcs

variable {heap heap' : ℕ → Option (Cell α)} {l l' xs ys zs : List (ℕ × α)} {r a p new : ℕ} {v pv : α}

theorem arcStart_append : arcStart (xs ++ ys) r = arcStart xs (arcStart ys r) := by
  cases xs with
  | nil => rfl
  | cons x xs => rfl

theorem arc_append : Arc heap (xs ++ ys) r ↔ Arc heap xs (arcStart ys r) ∧ Arc heap ys r := by
  induction xs with
  | nil => exact (and_iff_right trivial).symm
  | cons x xs ih => rw [List.cons_append, Arc, Arc, ih, arcStart_append, and_assoc]

/-- A list with a cell before it ends in a cell. -/
theorem exists_arcEnd (a : ℕ) (v : α) (xs : List (ℕ × α)) :
    ∃ zs pv, (a, v) :: xs = zs ++ [(arcEnd a xs, pv)] := by
  induction xs generalizing a v with
  | nil => exact ⟨[], v, rfl⟩
  | cons x xs ih =>
    obtain ⟨zs, pv, h⟩ := ih x.1 x.2
    exact ⟨(a, v) :: zs, pv, congrArg ((a, v) :: ·) h⟩

theorem Arc.lookup (h : Arc heap (xs ++ (a, v) :: ys) r) : heap a = some ⟨arcStart ys r, v⟩ :=
  (arc_append.mp h).2.1

theorem Arc.lookup_mem (h : Arc heap l r) {x : ℕ × α} (hx : x ∈ l) :
    ∃ c, heap x.1 = some c ∧ c.val = x.2 := by
  obtain ⟨xs, ys, rfl⟩ := List.append_of_mem hx
  exact ⟨_, h.lookup, rfl⟩

theorem Arc.frame (h : Arc heap l r) (hsame : ∀ b ∈ l.map Prod.fst, heap' b = heap b) :
    Arc heap' l r := by
  induction l with
  | nil => trivial
  | cons x l ih =>
    refine ⟨(hsame x.1 List.mem_cons_self).trans h.1, ih h.2 fun b hb ↦ ?_⟩
    exact hsame b (List.mem_cons_of_mem _ hb)

/-- The addresses around a cell. -/
theorem nodup_middle (h : ((xs ++ (a, v) :: ys).map Prod.fst).Nodup) :
    a ∉ xs.map Prod.fst ∧ a ∉ ys.map Prod.fst := by
  rw [List.map_append, List.map_cons, List.nodup_middle, List.nodup_cons, List.mem_append,
    not_or] at h
  exact h.1

theorem linkAfter_of_ne {c : Cell α} {b : ℕ} (hp : b ≠ p) (hnew : b ≠ new) :
    linkAfter p c new v heap b = heap b := by
  rw [linkAfter, Function.update_of_ne hp, Function.update_of_ne hnew]

/-- A new cell after one of an arc. -/
theorem Arc.link (h : Arc heap (zs ++ (p, pv) :: ys) r)
    (hnodup : ((zs ++ (p, pv) :: ys).map Prod.fst).Nodup) (hnew : heap new = none) :
    Arc (linkAfter p ⟨arcStart ys r, pv⟩ new v heap) (zs ++ (p, pv) :: (new, v) :: ys) r := by
  obtain ⟨hzs, hys⟩ := nodup_middle hnodup
  have hfresh : ∀ b c, heap b = some c → b ≠ new := by
    rintro b c hb rfl
    rw [hnew] at hb
    cases hb
  have hsame : ∀ ws r', Arc heap ws r' → p ∉ ws.map Prod.fst →
      Arc (linkAfter p ⟨arcStart ys r, pv⟩ new v heap) ws r' := by
    intro ws r' hws hp
    refine hws.frame fun b hb ↦ linkAfter_of_ne (ne_of_mem_of_not_mem hb hp) ?_
    obtain ⟨x, hx, rfl⟩ := List.mem_map.mp hb
    obtain ⟨c, hc, -⟩ := hws.lookup_mem hx
    exact hfresh x.1 c hc
  obtain ⟨hbefore, hcell, hafter⟩ := arc_append.mp h
  refine arc_append.mpr ⟨hsame _ _ hbefore hzs, ?_, ?_, hsame _ _ hafter hys⟩
  · exact Function.update_self p _ _
  · exact (Function.update_of_ne (hfresh p _ hcell).symm _ _).trans (Function.update_self new _ _)

/-- The value of a cell of an arc is changed. -/
theorem Arc.setVal (h : Arc heap (xs ++ (a, v) :: ys) r)
    (hnodup : ((xs ++ (a, v) :: ys).map Prod.fst).Nodup) (w : α) :
    Arc (Function.update heap a (some ⟨arcStart ys r, w⟩)) (xs ++ (a, w) :: ys) r := by
  obtain ⟨hxs, hys⟩ := nodup_middle hnodup
  obtain ⟨hbefore, -, hafter⟩ := arc_append.mp h
  refine arc_append.mpr ⟨hbefore.frame fun b hb ↦ ?_, Function.update_self a _ _,
    hafter.frame fun b hb ↦ ?_⟩
  · exact Function.update_of_ne (ne_of_mem_of_not_mem hb hxs) _ _
  · exact Function.update_of_ne (ne_of_mem_of_not_mem hb hys) _ _

/-- Two arcs from the same cell to a cell outside both are the same. -/
theorem Arc.unique (h : Arc heap l r) (h' : Arc heap l' r) (hstart : arcStart l r = arcStart l' r)
    (hr : r ∉ l.map Prod.fst) (hr' : r ∉ l'.map Prod.fst) : l = l' := by
  induction l generalizing l' with
  | nil =>
    cases l' with
    | nil => rfl
    | cons y l' => exact absurd (List.mem_cons.mpr (.inl hstart)) hr'
  | cons x l ih =>
    cases l' with
    | nil => exact absurd (List.mem_cons.mpr (.inl hstart.symm)) hr
    | cons y l' =>
      obtain ⟨a, v⟩ := x
      obtain ⟨b, w⟩ := y
      obtain rfl : a = b := hstart
      have hcell := h.1.symm.trans h'.1
      simp only [Option.some.injEq, Cell.mk.injEq] at hcell
      rw [hcell.2, ih h.2 h'.2 hcell.1 (fun hm ↦ hr (List.mem_cons_of_mem _ hm))
        fun hm ↦ hr' (List.mem_cons_of_mem _ hm)]

/-- What is reached on the way along an arc to an allocated cell is allocated. -/
theorem Arc.reached {b : ℕ} (h : Arc heap l r) (hr : heap r ≠ none) (h' : Arc heap xs b)
    (hstart : arcStart l r = arcStart xs b) (hxs : r ∉ xs.map Prod.fst) : heap b ≠ none := by
  induction xs generalizing l with
  | nil =>
    obtain rfl : arcStart l r = b := hstart
    cases l with
    | nil => exact hr
    | cons x l => exact fun hnone ↦ Option.some_ne_none _ (h.1.symm.trans hnone)
  | cons y xs ih =>
    cases l with
    | nil => exact absurd (List.mem_cons.mpr (.inl hstart)) hxs
    | cons x l =>
      obtain ⟨a, v⟩ := x
      obtain ⟨a', w⟩ := y
      obtain rfl : a = a' := hstart
      have hcell := h.1.symm.trans h'.1
      simp only [Option.some.injEq, Cell.mk.injEq] at hcell
      exact ih h.2 h'.2 hcell.1 fun hm ↦ hxs (List.mem_cons_of_mem _ hm)

end Arcs

/-! ### Walks -/

section Walks

variable {heap : ℕ → Option (Cell α)} {stop : ℕ → Cell α → Bool} {l : List (ℕ × α)} {r : ℕ}

/-- A walk along an arc whose cells do not stop it. -/
theorem walkUntil_arc (h : Arc heap l r)
    (hgo : ∀ a ∈ l.map Prod.fst, ∀ c, heap a = some c → stop a c = false) {c : Cell α}
    (hr : heap r = some c) (hstop : stop r c = true) {fuel : ℕ} (hfuel : l.length < fuel)
    (prev : ℕ) : walkUntil heap stop fuel prev (arcStart l r) = .ok (arcEnd prev l, r) := by
  induction l generalizing fuel prev with
  | nil =>
    obtain ⟨fuel, rfl⟩ := Nat.exists_eq_add_of_lt hfuel
    show walkUntil heap stop (0 + fuel + 1) prev r = _
    simp only [walkUntil, hr, hstop, if_true]
    rfl
  | cons x l ih =>
    obtain ⟨fuel, rfl⟩ : ∃ f, fuel = f + 1 := Nat.exists_eq_succ_of_ne_zero (by omega)
    have hfalse := hgo x.1 List.mem_cons_self _ h.1
    show walkUntil heap stop (fuel + 1) prev x.1 = _
    simp only [walkUntil, h.1, hfalse, Bool.false_eq_true, if_false]
    exact ih h.2 (fun a ha ↦ hgo a (List.mem_cons_of_mem _ ha))
      (by rw [List.length_cons] at hfuel; omega) x.1

/-- A walk inside a set of cells that do not stop it does not end. -/
theorem walkUntil_spin {s : Set ℕ}
    (hs : ∀ a ∈ s, ∃ c, heap a = some c ∧ stop a c = false ∧ c.next ∈ s) {a : ℕ} (ha : a ∈ s)
    (fuel prev : ℕ) : walkUntil heap stop fuel prev a = .error .spin := by
  induction fuel generalizing prev a with
  | zero => rfl
  | succ fuel ih =>
    obtain ⟨c, hc, hgo, hnext⟩ := hs a ha
    simp only [walkUntil, hc, hgo, Bool.false_eq_true, if_false]
    exact ih hnext a

/-- The cells of a walk that runs out of fuel. -/
theorem exists_of_walkUntil_spin {fuel prev a : ℕ}
    (h : walkUntil heap stop fuel prev a = .error .spin) {i : ℕ} (hi : i < fuel) :
    ∃ c, heap ((fun b ↦ (heap b).elim b Cell.next)^[i] a) = some c ∧
      stop ((fun b ↦ (heap b).elim b Cell.next)^[i] a) c = false ∧
      c.next = (fun b ↦ (heap b).elim b Cell.next)^[i + 1] a := by
  induction i generalizing fuel prev a with
  | zero =>
    obtain ⟨fuel, rfl⟩ := Nat.exists_eq_add_of_lt hi
    cases hc : heap a with
    | none => simp [walkUntil, hc] at h
    | some c =>
      refine ⟨c, hc, ?_, by simp [hc]⟩
      by_contra hstop
      have htrue : stop a c = true := Bool.eq_true_of_not_eq_false hstop
      simp [walkUntil, hc, htrue] at h
  | succ i ih =>
    obtain ⟨fuel, rfl⟩ : ∃ f, fuel = f + 1 := Nat.exists_eq_succ_of_ne_zero (by omega)
    cases hc : heap a with
    | none => simp [walkUntil, hc] at h
    | some c =>
      cases hstop : stop a c with
      | true => simp [walkUntil, hc, hstop] at h
      | false =>
        simp only [walkUntil, hc, hstop, Bool.false_eq_true, if_false] at h
        simpa [hc] using ih h (Nat.lt_of_succ_lt_succ hi)

/-- A walk that takes more steps than there are cells has come to some cell twice, and does not end. -/
theorem walkUntil_spin_of_spin {n prev a : ℕ} (hbound : ∀ b, n ≤ b → heap b = none)
    (h : walkUntil heap stop (n + 1) prev a = .error .spin) (fuel prev' : ℕ) :
    walkUntil heap stop fuel prev' a = .error .spin := by
  let visited : ℕ → ℕ := fun i ↦ (fun b ↦ (heap b).elim b Cell.next)^[i] a
  have hcell : ∀ i < n + 1, ∃ c, heap (visited i) = some c ∧ stop (visited i) c = false ∧
      c.next = visited (i + 1) := fun i hi ↦ exists_of_walkUntil_spin h hi
  have hmaps : ∀ i ∈ Finset.range (n + 1), visited i ∈ Finset.range n := by
    intro i hi
    obtain ⟨c, hc, -⟩ := hcell i (Finset.mem_range.mp hi)
    by_contra hout
    rw [hbound _ (not_lt.mp fun hlt ↦ hout (Finset.mem_range.mpr hlt))] at hc
    cases hc
  obtain ⟨i, j, hij, hj, htwice⟩ : ∃ i j, i < j ∧ j < n + 1 ∧ visited i = visited j := by
    obtain ⟨i, hi, j, hj, hne, heq⟩ :=
      Finset.exists_ne_map_eq_of_card_lt_of_maps_to (by simp) hmaps
    rcases lt_or_gt_of_ne hne with hlt | hlt
    · exact ⟨i, j, hlt, Finset.mem_range.mp hj, heq⟩
    · exact ⟨j, i, hlt, Finset.mem_range.mp hi, heq.symm⟩
  refine walkUntil_spin (s := {b | ∃ k < j, visited k = b}) ?_ ⟨0, by omega, rfl⟩ fuel prev'
  rintro b ⟨k, hk, rfl⟩
  obtain ⟨c, hc, hgo, hnext⟩ := hcell k (by omega)
  refine ⟨c, hc, hgo, ?_⟩
  rcases Nat.lt_or_ge (k + 1) j with hlt | hge
  · exact ⟨k + 1, hlt, hnext.symm⟩
  · obtain rfl : j = k + 1 := by omega
    exact ⟨i, hij, htwice.trans hnext.symm⟩

end Walks

/-! ### Rings -/

/-- The cells reached from the head are those of a list, the last one linked back to the head. -/
structure IsRing (heap : ℕ → Option (Cell α)) (head : ℕ) (h : α) (l : List (ℕ × α)) : Prop where
  arc : Arc heap ((head, h) :: l) head
  nodup : (((head, h) :: l).map Prod.fst).Nodup

/-- The keys ascend along a list of cells. -/
def Ascending {κ : Type} [LT κ] (key : α → κ) (l : List (ℕ × α)) : Prop :=
  (l.map fun x ↦ key x.2).Pairwise (· < ·)

section Rings

variable {heap heap' : ℕ → Option (Cell α)} {head a new : ℕ} {h v : α} {l xs ys : List (ℕ × α)}

theorem IsRing.lookup_head (hring : IsRing heap head h l) :
    heap head = some ⟨arcStart l head, h⟩ :=
  hring.arc.1

theorem IsRing.not_mem (hring : IsRing heap head h l) : head ∉ l.map Prod.fst :=
  (List.nodup_cons.mp hring.nodup).1

theorem IsRing.lookup_mem (hring : IsRing heap head h l) {x : ℕ × α} (hx : x ∈ l) :
    ∃ c, heap x.1 = some c ∧ c.val = x.2 :=
  hring.arc.2.lookup_mem hx

theorem IsRing.frame (hring : IsRing heap head h l) (hhead : heap' head = heap head)
    (hsame : ∀ b ∈ l.map Prod.fst, heap' b = heap b) : IsRing heap' head h l where
  arc := ⟨hhead.trans hring.arc.1, hring.arc.2.frame hsame⟩
  nodup := hring.nodup

/-- A heap has one ring from a head. -/
theorem IsRing.unique {h' : α} {l' : List (ℕ × α)} (hring : IsRing heap head h l)
    (hring' : IsRing heap head h' l') : l = l' := by
  have hhead := hring.lookup_head.symm.trans hring'.lookup_head
  simp only [Option.some.injEq, Cell.mk.injEq] at hhead
  exact hring.arc.2.unique hring'.arc.2 hhead.1 hring.not_mem hring'.not_mem

/-- A ring has no cell that points to memory which is not allocated. -/
theorem IsRing.reached {b : ℕ} {h' : α} (hring : IsRing heap head h l)
    (harc : Arc heap ((head, h') :: xs) b) (hxs : head ∉ xs.map Prod.fst) : heap b ≠ none := by
  have hhead := hring.lookup_head.symm.trans harc.1
  simp only [Option.some.injEq, Cell.mk.injEq] at hhead
  refine hring.arc.2.reached ?_ harc.2 hhead.1 hxs
  rw [hring.lookup_head]
  exact Option.some_ne_none _

/-- The cell after one of a ring is one of the ring, and another one if there are two. -/
theorem IsRing.next (hring : IsRing heap head h l) (ha : a ∈ ((head, h) :: l).map Prod.fst) :
    ∃ c, heap a = some c ∧ (∃ x ∈ (head, h) :: l, x.1 = a ∧ x.2 = c.val) ∧
      c.next ∈ ((head, h) :: l).map Prod.fst ∧ (c.next = a ↔ l = []) := by
  obtain ⟨x, hx, rfl⟩ := List.mem_map.mp ha
  obtain ⟨zs, ws, hsplit⟩ := List.append_of_mem hx
  have harc := hring.arc
  have hnodup := hring.nodup
  rw [hsplit] at harc hnodup
  refine ⟨_, harc.lookup, ⟨x, hx, rfl, rfl⟩, ?_, ?_⟩
  · rw [hsplit]
    cases ws with
    | nil =>
      rw [← hsplit]
      exact List.mem_cons_self
    | cons w ws => simp [arcStart]
  · obtain ⟨hzs, hws⟩ := nodup_middle hnodup
    cases ws with
    | cons w ws =>
      refine iff_of_false (fun heq ↦ hws (List.mem_cons.mpr (.inl heq.symm))) fun hnil ↦ ?_
      have hlength := congrArg List.length hsplit
      simp only [hnil, List.length_append, List.length_cons, List.length_nil] at hlength
      omega
    | nil =>
      cases zs with
      | nil =>
        simp only [List.nil_append, List.cons.injEq] at hsplit
        exact iff_of_true (congrArg Prod.fst hsplit.1) hsplit.2
      | cons z zs =>
        simp only [List.cons_append, List.cons.injEq] at hsplit
        refine iff_of_false (fun heq ↦ hzs ?_) fun hnil ↦ ?_
        · rw [← hsplit.1]
          exact List.mem_cons.mpr (.inl heq.symm)
        · rw [hnil] at hsplit
          simp at hsplit

/-- A ring of `n` cells is as long as that, if they are the only ones there. -/
theorem IsRing.length_lt (hring : IsRing heap head h l) {n : ℕ}
    (hbound : ∀ b, n ≤ b → heap b = none) : l.length < n := by
  have hsub : ∀ b ∈ ((head, h) :: l).map Prod.fst, b ∈ List.range n := by
    intro b hb
    obtain ⟨x, hx, rfl⟩ := List.mem_map.mp hb
    obtain ⟨c, hc, -⟩ := hring.arc.lookup_mem hx
    rw [List.mem_range]
    by_contra hle
    rw [hbound x.1 (not_lt.mp hle)] at hc
    cases hc
  have hlength := (List.subperm_of_subset hring.nodup hsub).length_le
  rw [List.length_map, List.length_cons, List.length_range] at hlength
  exact hlength

/-- A new cell is linked into a ring. -/
theorem IsRing.link (hring : IsRing heap head h (xs ++ ys)) (hnew : heap new = none) (v : α) :
    ∃ c, heap (arcEnd head xs) = some c ∧
      IsRing (linkAfter (arcEnd head xs) c new v heap) head h (xs ++ (new, v) :: ys) := by
  obtain ⟨zs, pv, hzs⟩ := exists_arcEnd head h xs
  have hsplit : ∀ ws, (head, h) :: (xs ++ ws) = zs ++ (arcEnd head xs, pv) :: ws := by
    intro ws
    rw [← List.cons_append, hzs, List.append_assoc, List.singleton_append]
  have harc := hring.arc
  have hnodup := hring.nodup
  rw [hsplit ys] at harc hnodup
  refine ⟨_, harc.lookup, ?_, ?_⟩
  · rw [hsplit]
    exact harc.link hnodup hnew
  · rw [hsplit, List.map_append, List.map_cons, List.map_cons]
    rw [List.map_append, List.map_cons] at hnodup
    have hfresh : new ∉ zs.map Prod.fst ++ arcEnd head xs :: ys.map Prod.fst := by
      intro hmem
      rw [← List.map_cons (f := Prod.fst) (a := (arcEnd head xs, pv)), ← List.map_append] at hmem
      obtain ⟨x, hx, rfl⟩ := List.mem_map.mp hmem
      obtain ⟨c, hc, -⟩ := harc.lookup_mem hx
      rw [hnew] at hc
      cases hc
    have hperm : (zs.map Prod.fst ++ arcEnd head xs :: new :: ys.map Prod.fst).Perm
        (new :: (zs.map Prod.fst ++ arcEnd head xs :: ys.map Prod.fst)) := by
      rw [← List.singleton_append, ← List.append_assoc]
      refine List.perm_middle.trans ?_
      rw [List.append_assoc, List.singleton_append]
    exact hperm.nodup_iff.mpr (List.nodup_cons.mpr ⟨hfresh, hnodup⟩)

/-- The value of a cell of a ring is changed. -/
theorem IsRing.setVal (hring : IsRing heap head h (xs ++ (a, v) :: ys)) (w : α) :
    ∃ c, heap a = some c ∧
      IsRing (Function.update heap a (some ⟨c.next, w⟩)) head h (xs ++ (a, w) :: ys) := by
  have harc := hring.arc
  have hnodup := hring.nodup
  rw [← List.cons_append] at harc hnodup
  refine ⟨_, harc.lookup, ?_, ?_⟩
  · rw [← List.cons_append]
    exact harc.setVal hnodup w
  · have hnodup' := hring.nodup
    simp only [List.map_cons, List.map_append] at hnodup' ⊢
    exact hnodup'

end Rings

/-! ### Rings in the order of their keys -/

section Ordered

variable {heap : ℕ → Option (Cell α)} {κ : Type} [LinearOrder κ] {key : α → κ} {head : ℕ} {h : α}
  {l xs ys : List (ℕ × α)} {k : κ}

/-- A list in the order of its keys is cut at any key. -/
theorem Ascending.split (hl : Ascending key l) (k : κ) :
    ∃ xs ys, l = xs ++ ys ∧ (∀ x ∈ xs, key x.2 < k) ∧ ∀ y ∈ ys, k ≤ key y.2 := by
  induction l with
  | nil => exact ⟨[], [], rfl, by simp, by simp⟩
  | cons x l ih =>
    rw [Ascending, List.map_cons, List.pairwise_cons] at hl
    rcases lt_or_ge (key x.2) k with hlt | hge
    · obtain ⟨xs, ys, rfl, hxs, hys⟩ := ih hl.2
      exact ⟨x :: xs, ys, rfl, List.forall_mem_cons.mpr ⟨hlt, hxs⟩, hys⟩
    · refine ⟨[], x :: l, rfl, by simp, List.forall_mem_cons.mpr ⟨hge, fun y hy ↦ ?_⟩⟩
      exact hge.trans (hl.1 _ (List.mem_map_of_mem hy)).le

theorem Ascending.insert {v : α} (hl : Ascending key (xs ++ ys)) (hxs : ∀ x ∈ xs, key x.2 < key v)
    (hys : ∀ y ∈ ys, key v < key y.2) (new : ℕ) : Ascending key (xs ++ (new, v) :: ys) := by
  rw [Ascending, List.map_append, List.pairwise_append] at hl ⊢
  refine ⟨hl.1, ?_, ?_⟩
  · rw [List.map_cons, List.pairwise_cons]
    refine ⟨fun b hb ↦ ?_, hl.2.1⟩
    obtain ⟨y, hy, rfl⟩ := List.mem_map.mp hb
    exact hys y hy
  · intro b hb c hc
    rw [List.map_cons, List.mem_cons] at hc
    rcases hc with rfl | hc
    · obtain ⟨x, hx, rfl⟩ := List.mem_map.mp hb
      exact hxs x hx
    · exact hl.2.2 b hb c hc

/-- The walk to the head or the first key that is not smaller. -/
theorem IsRing.search (hring : IsRing heap head h (xs ++ ys)) (hxs : ∀ x ∈ xs, key x.2 < k)
    (hys : ∀ y ∈ ys, k ≤ key y.2) {fuel : ℕ} (hfuel : xs.length < fuel) :
    walkUntil heap (fun a c ↦ a = head || k ≤ key c.val) fuel head (arcStart (xs ++ ys) head) =
      .ok (arcEnd head xs, arcStart ys head) := by
  have harc := hring.arc.2
  have hnot := hring.not_mem
  rw [List.map_append, List.mem_append, not_or] at hnot
  obtain ⟨hbefore, hafter⟩ := arc_append.mp harc
  obtain ⟨c, hc, hstop⟩ : ∃ c, heap (arcStart ys head) = some c ∧
      ((arcStart ys head = head || k ≤ key c.val) : Bool) = true := by
    cases ys with
    | nil => exact ⟨_, hring.lookup_head, by simp [arcStart]⟩
    | cons y ys => exact ⟨_, hafter.1, by simp [hys y List.mem_cons_self]⟩
  rw [arcStart_append]
  refine walkUntil_arc hbefore (fun a ha c hc ↦ ?_) hc hstop hfuel head
  obtain ⟨x, hx, rfl⟩ := List.mem_map.mp ha
  obtain ⟨c', hc', hval⟩ := hbefore.lookup_mem hx
  obtain rfl := Option.some.inj (hc.symm.trans hc')
  have hne : x.1 ≠ head := ne_of_mem_of_not_mem ha hnot.1
  simp [hne, hval, hxs x hx]

end Ordered

end BlitzedServices.Lib
