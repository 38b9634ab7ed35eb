import Mathlib

/-!
# Forests of parent, child and sibling pointers

Nodes with a pointer to their parent, to their first child and to their next sibling. In a `Forest` the
sibling pointers from the first child of a node are a chain of exactly the nodes whose parent it is, and a rank
that falls towards the roots rules out cycles. `Below` lists what hangs under a chain, children before their
parents; `Forest.exists_below` shows that under a node it lists its descendants, each once. `Forest.addRoot`,
`Forest.addLeaf` and `Forest.remove` say which writes keep a forest.
-/

set_option autoImplicit false
set_option relaxedAutoImplicit false

namespace BlitzedServices.Lib

/-- The pointers of a node. -/
structure TreeNode where
  parent : Option ℕ
  child : Option ℕ
  sibling : Option ℕ

/-- One node is the parent of another. -/
def ParentOf (val : ℕ → Option TreeNode) (c a : ℕ) : Prop :=
  ∃ w, val c = some w ∧ w.parent = some a

/-- The sibling pointers lead from a pointer through the given nodes to the end. -/
def Chain (val : ℕ → Option TreeNode) : Option ℕ → List ℕ → Prop
  | p, [] => p = none
  | p, c :: cs => p = some c ∧ ∃ w, val c = some w ∧ Chain val w.sibling cs

/-- Parents and children agree, and every node ranks above its parent. -/
structure Forest (val : ℕ → Option TreeNode) (rank : ℕ → ℕ) : Prop where
  rank_lt : ∀ c a, ParentOf val c a → rank a < rank c
  parent_isSome : ∀ c a, ParentOf val c a → (val a).isSome
  children : ∀ a v, val a = some v → ∃ cs, Chain val v.child cs ∧ ∀ c, c ∈ cs ↔ ParentOf val c a
  roots : ∀ a v, val a = some v → v.parent = none → v.sibling = none

/-- What hangs under a chain, in the order in which it is freed. -/
inductive Below (val : ℕ → Option TreeNode) : Option ℕ → List ℕ → Prop where
  | nil : Below val none []
  | cons {a : ℕ} {v : TreeNode} {inner rest : List ℕ} (hv : val a = some v)
      (hinner : Below val v.child inner) (hrest : Below val v.sibling rest) :
      Below val (some a) (inner ++ a :: rest)

variable {val val' : ℕ → Option TreeNode} {rank : ℕ → ℕ} {p : Option ℕ} {a b c d h : ℕ} {v : TreeNode}

/-! ### Chains -/

section Chains

variable {cs ds : List ℕ}

theorem Chain.congr (hchain : Chain val p cs)
    (hsame : ∀ c ∈ cs, ∀ w, val c = some w → ∃ w', val' c = some w' ∧ w'.sibling = w.sibling) :
    Chain val' p cs := by
  induction cs generalizing p with
  | nil => exact hchain
  | cons c cs ih =>
    obtain ⟨hp, w, hw, htail⟩ := hchain
    obtain ⟨w', hw', hsibling⟩ := hsame c (List.mem_cons_self ..) w hw
    refine ⟨hp, w', hw', ?_⟩
    rw [hsibling]
    exact ih htail fun d hd ↦ hsame d (List.mem_cons_of_mem _ hd)

theorem Chain.unique (hcs : Chain val p cs) (hds : Chain val p ds) : cs = ds := by
  induction cs generalizing p ds with
  | nil =>
    cases ds with
    | nil => rfl
    | cons d ds =>
      obtain ⟨hp, -⟩ := hds
      rw [hcs] at hp
      cases hp
  | cons c cs ih =>
    obtain ⟨hp, w, hw, hrest⟩ := hcs
    cases ds with
    | nil =>
      rw [hds] at hp
      cases hp
    | cons d ds =>
      obtain ⟨hp', w', hw', hrest'⟩ := hds
      obtain rfl := Option.some.inj (hp.symm.trans hp')
      obtain rfl := Option.some.inj (hw.symm.trans hw')
      rw [ih hrest hrest']

theorem chain_append_cons :
    Chain val p (cs ++ c :: ds) → ∃ w, val c = some w ∧ Chain val (some c) (c :: ds) ∧ Chain val w.sibling ds := by
  induction cs generalizing p with
  | nil =>
    rintro ⟨-, w, hw, hrest⟩
    exact ⟨w, hw, ⟨rfl, w, hw, hrest⟩, hrest⟩
  | cons d cs ih =>
    rintro ⟨-, w, -, hrest⟩
    exact ih hrest

/-- A chain that ends does not come back to a node. -/
theorem Chain.nodup (hchain : Chain val p cs) : cs.Nodup := by
  induction cs generalizing p with
  | nil => exact List.nodup_nil
  | cons c cs ih =>
    obtain ⟨-, w, hw, hrest⟩ := hchain
    refine List.nodup_cons.mpr ⟨fun hmem ↦ ?_, ih hrest⟩
    obtain ⟨pre, post, hsplit⟩ := List.append_of_mem hmem
    have hagain := hrest
    rw [hsplit] at hagain
    obtain ⟨-, -, hshort, -⟩ := chain_append_cons hagain
    have hlong : Chain val (some c) (c :: cs) := ⟨rfl, w, hw, hrest⟩
    have hlength := congrArg List.length (hlong.unique hshort)
    rw [hsplit] at hlength
    simp at hlength
    omega

/-- The last node of a chain gets a sibling. -/
theorem Chain.append (hchain : Chain val p (cs ++ [c]))
    (hsame : ∀ d ∈ cs, ∀ w, val d = some w → ∃ w', val' d = some w' ∧ w'.sibling = w.sibling)
    (hlast : ∃ w', val' c = some w' ∧ w'.sibling = some a)
    (hnew : ∃ w', val' a = some w' ∧ w'.sibling = none) : Chain val' p (cs ++ [c, a]) := by
  induction cs generalizing p with
  | nil =>
    obtain ⟨hp, -⟩ := hchain
    obtain ⟨w', hw', hsibling⟩ := hlast
    obtain ⟨u, hu, hnone⟩ := hnew
    exact ⟨hp, w', hw', hsibling, u, hu, hnone⟩
  | cons d cs ih =>
    obtain ⟨hp, w, hw, hrest⟩ := hchain
    obtain ⟨w', hw', hsibling⟩ := hsame d (List.mem_cons_self ..) w hw
    refine ⟨hp, w', hw', ?_⟩
    rw [hsibling]
    exact ih hrest fun e he ↦ hsame e (List.mem_cons_of_mem _ he)

/-- The sibling pointer before a node is led past it. -/
theorem Chain.bypass (hchain : Chain val p (cs ++ c :: a :: ds)) (hv : val a = some v)
    (hsame : ∀ d ∈ cs ++ ds, ∀ w, val d = some w → ∃ w', val' d = some w' ∧ w'.sibling = w.sibling)
    (hbefore : ∃ w', val' c = some w' ∧ w'.sibling = v.sibling) : Chain val' p (cs ++ c :: ds) := by
  induction cs generalizing p with
  | nil =>
    obtain ⟨hp, w, -, -, u, hu, hrest⟩ := hchain
    obtain ⟨w', hw', hsibling⟩ := hbefore
    obtain rfl := Option.some.inj (hv.symm.trans hu)
    refine ⟨hp, w', hw', ?_⟩
    rw [hsibling]
    exact hrest.congr hsame
  | cons d cs ih =>
    obtain ⟨hp, w, hw, hrest⟩ := hchain
    obtain ⟨w', hw', hsibling⟩ := hsame d (List.mem_cons_self ..) w hw
    refine ⟨hp, w', hw', ?_⟩
    rw [hsibling]
    exact ih hrest fun e he ↦ hsame e (List.mem_cons_of_mem _ he)

end Chains

/-! ### Descendants -/

theorem ParentOf.unique (ha : ParentOf val c a) (hb : ParentOf val c b) : a = b := by
  obtain ⟨w, hw, hwa⟩ := ha
  obtain ⟨w', hw', hwb⟩ := hb
  obtain rfl := Option.some.inj (hw.symm.trans hw')
  exact Option.some.inj (hwa.symm.trans hwb)

section Descendants

open Relation

theorem Forest.rank_lt_of_transGen (hf : Forest val rank) (hba : TransGen (ParentOf val) b a) :
    rank a < rank b := by
  induction hba with
  | single h => exact hf.rank_lt _ _ h
  | tail _ h ih => exact (hf.rank_lt _ _ h).trans ih

/-- No node is behind itself. -/
theorem Forest.acyclic (hf : Forest val rank) (a : ℕ) : ¬ TransGen (ParentOf val) a a :=
  fun h ↦ lt_irrefl _ (hf.rank_lt_of_transGen h)

/-- Nothing hangs under two children of a node. -/
theorem Forest.siblings_disjoint (hf : Forest val rank) (hc : ParentOf val c a) (hd : ParentOf val d a)
    (hbc : ReflTransGen (ParentOf val) b c) (hbd : ReflTransGen (ParentOf val) b d) : c = d := by
  have hunder {c d : ℕ} (hc : ParentOf val c a) (hd : ParentOf val d a)
      (hcd : ReflTransGen (ParentOf val) c d) : c = d := by
    rcases ReflTransGen.cases_head hcd with rfl | ⟨e, hce, hed⟩
    · rfl
    · obtain rfl := hc.unique hce
      exact absurd (TransGen.tail' hed hd) (hf.acyclic a)
  have hright : Relator.RightUnique (ParentOf val) := fun _ _ _ h h' ↦ h.unique h'
  rcases hbc.total_of_right_unique hright hbd with hcd | hdc
  · exact hunder hc hd hcd
  · exact (hunder hd hc hdc).symm

theorem Below.congr {l : List ℕ} (hbelow : Below val p l) (hsame : ∀ b ∈ l, val' b = val b) :
    Below val' p l := by
  induction hbelow with
  | nil => exact .nil
  | cons hv _ _ ihinner ihrest =>
    refine .cons ((hsame _ (List.mem_append_right _ (List.mem_cons_self ..))).trans hv) ?_ ?_
    · exact ihinner fun b hb ↦ hsame b (List.mem_append_left _ hb)
    · exact ihrest fun b hb ↦ hsame b (List.mem_append_right _ (List.mem_cons_of_mem _ hb))

/-- Under a chain of children hang they and their descendants, each once. -/
theorem Forest.exists_below_chain (hf : Forest val rank) {cs : List ℕ} (hchain : Chain val p cs)
    (hcs : ∀ c ∈ cs, ParentOf val c a)
    (ih : ∀ c ∈ cs, ∀ w, val c = some w →
      ∃ l, Below val w.child l ∧ l.Nodup ∧ ∀ b, b ∈ l ↔ TransGen (ParentOf val) b c) :
    ∃ l, Below val p l ∧ l.Nodup ∧ ∀ b, b ∈ l ↔ ∃ c ∈ cs, ReflTransGen (ParentOf val) b c := by
  have hnodup := hchain.nodup
  induction cs generalizing p with
  | nil =>
    obtain rfl : p = none := hchain
    exact ⟨[], .nil, List.nodup_nil, by simp⟩
  | cons c cs ihcs =>
    obtain ⟨rfl, w, hw, hrest⟩ := hchain
    obtain ⟨hc, hothers⟩ := List.forall_mem_cons.mp hcs
    obtain ⟨hnot, hnodup⟩ := List.nodup_cons.mp hnodup
    obtain ⟨inner, hinner, hinnerNodup, hmemInner⟩ := ih c (List.mem_cons_self ..) w hw
    obtain ⟨rest, hbelow, hrestNodup, hmemRest⟩ :=
      ihcs hrest hothers (fun d hd ↦ ih d (List.mem_cons_of_mem _ hd)) hnodup
    have hapart {b : ℕ} (hbc : ReflTransGen (ParentOf val) b c) : b ∉ rest := by
      rw [hmemRest]
      rintro ⟨d, hd, hbd⟩
      exact hnot (hf.siblings_disjoint hc (hothers d hd) hbc hbd ▸ hd)
    refine ⟨inner ++ c :: rest, .cons hw hinner hbelow, ?_, fun b ↦ ?_⟩
    · rw [List.nodup_middle, List.nodup_cons, List.mem_append, not_or, List.nodup_append]
      refine ⟨⟨fun hmem ↦ hf.acyclic c ((hmemInner c).mp hmem), hapart .refl⟩, hinnerNodup, hrestNodup, ?_⟩
      rintro b hb _ hb' rfl
      exact hapart ((hmemInner b).mp hb).to_reflTransGen hb'
    · rw [List.mem_append, List.mem_cons, hmemInner, hmemRest, List.exists_mem_cons_iff,
        reflTransGen_iff_eq_or_transGen]
      rw [← or_assoc, or_comm (a := TransGen (ParentOf val) b c), eq_comm (a := c)]

/-- Under a node hang its descendants, each once. -/
theorem Forest.exists_below (hf : Forest val rank) {n : ℕ} (hrank : ∀ a, (val a).isSome → rank a < n)
    (hv : val a = some v) :
    ∃ l, Below val v.child l ∧ l.Nodup ∧ ∀ b, b ∈ l ↔ TransGen (ParentOf val) b a := by
  induction hk : n - rank a using Nat.strong_induction_on generalizing a v with
  | _ k ih =>
    obtain ⟨cs, hchain, hmem⟩ := hf.children a v hv
    have hbelow (c : ℕ) (hc : c ∈ cs) (w : TreeNode) (hw : val c = some w) :
        ∃ l, Below val w.child l ∧ l.Nodup ∧ ∀ b, b ∈ l ↔ TransGen (ParentOf val) b c := by
      have hlt := hf.rank_lt c a ((hmem c).mp hc)
      have hbound := hrank c (by rw [hw]; rfl)
      exact ih (n - rank c) (by omega) hw rfl
    obtain ⟨l, hl, hnodup, hmeml⟩ := hf.exists_below_chain hchain (fun c hc ↦ (hmem c).mp hc) hbelow
    refine ⟨l, hl, hnodup, fun b ↦ (hmeml b).trans ?_⟩
    rw [TransGen.tail'_iff]
    exact exists_congr fun c ↦ by rw [hmem, and_comm]

end Descendants

/-! ### Writes -/

section Writes

open Relation

/-- What a write to the children of `h` leaves of a node. -/
structure Keeps (h b : ℕ) (w w' : TreeNode) : Prop where
  parent : w'.parent = w.parent
  child : b ≠ h → w'.child = w.child
  sibling : w.parent ≠ some h → w'.sibling = w.sibling

theorem Keeps.refl (h b : ℕ) (w : TreeNode) : Keeps h b w w := ⟨rfl, fun _ ↦ rfl, fun _ ↦ rfl⟩

/-- A new node without pointers. -/
theorem Forest.addRoot (hf : Forest val rank) (ha : val a = none) (n : ℕ) :
    Forest (Function.update val a (some ⟨none, none, none⟩)) (Function.update rank a n) := by
  have hval {b : ℕ} (hb : b ≠ a) : Function.update val a (some ⟨none, none, none⟩) b = val b :=
    Function.update_of_ne hb _ _
  have hne {b : ℕ} (hb : (val b).isSome) : b ≠ a := by
    rintro rfl
    rw [ha] at hb
    cases hb
  have hparent (c e : ℕ) :
      ParentOf (Function.update val a (some ⟨none, none, none⟩)) c e ↔ ParentOf val c e := by
    by_cases hc : c = a
    · subst hc
      refine iff_of_false ?_ ?_
      · rintro ⟨w, hw, hwe⟩
        rw [Function.update_self] at hw
        obtain rfl := Option.some.inj hw
        cases hwe
      · rintro ⟨w, hw, -⟩
        rw [ha] at hw
        cases hw
    · rw [ParentOf, ParentOf, hval hc]
  constructor
  · intro c e h
    rw [hparent] at h
    obtain ⟨w, hw, -⟩ := id h
    rw [Function.update_of_ne (hne (hf.parent_isSome c e h)),
      Function.update_of_ne (hne (by rw [hw]; rfl))]
    exact hf.rank_lt c e h
  · intro c e h
    have hsome := hf.parent_isSome c e ((hparent c e).mp h)
    rwa [hval (hne hsome)]
  · intro e v he
    by_cases hea : e = a
    · rw [hea, Function.update_self] at he
      obtain rfl := Option.some.inj he
      refine ⟨[], rfl, fun c ↦ iff_of_false List.not_mem_nil fun hc ↦ ?_⟩
      have hsome := hf.parent_isSome c e ((hparent c e).mp hc)
      rw [hea, ha] at hsome
      cases hsome
    · rw [hval hea] at he
      obtain ⟨cs, hchain, hmem⟩ := hf.children e v he
      refine ⟨cs, hchain.congr fun c _ w hw ↦ ⟨w, ?_, rfl⟩, fun c ↦ (hmem c).trans (hparent c e).symm⟩
      rw [hval (hne (by rw [hw]; rfl)), hw]
  · intro e v he hroot
    by_cases hea : e = a
    · rw [hea, Function.update_self] at he
      obtain rfl := Option.some.inj he
      rfl
    · rw [hval hea] at he
      exact hf.roots e v he hroot

/-- A new node at the end of the children of `h`. -/
theorem Forest.addLeaf (hf : Forest val rank) {n : ℕ} (hrank : ∀ b, (val b).isSome → rank b < n)
    (ha : val a = none) (hh : (val h).isSome) (hnew : val' a = some ⟨some h, none, none⟩)
    (hnone : ∀ b, b ≠ a → val b = none → val' b = none)
    (hkept : ∀ b w, val b = some w → ∃ w', val' b = some w' ∧ Keeps h b w w')
    (hchain : ∀ w', val' h = some w' →
      ∃ cs, Chain val' w'.child cs ∧ ∀ c, c ∈ cs ↔ ParentOf val c h ∨ c = a) :
    Forest val' (Function.update rank a n) := by
  have hne {b : ℕ} (hb : (val b).isSome) : b ≠ a := by
    rintro rfl
    rw [ha] at hb
    cases hb
  have hback {b : ℕ} {w' : TreeNode} (hb : b ≠ a) (hw' : val' b = some w') :
      ∃ w, val b = some w ∧ Keeps h b w w' := by
    cases hw : val b with
    | none =>
      rw [hnone b hb hw] at hw'
      cases hw'
    | some w =>
      obtain ⟨u, hu, hkeeps⟩ := hkept b w hw
      obtain rfl := Option.some.inj (hu.symm.trans hw')
      exact ⟨w, rfl, hkeeps⟩
  have hparent (c e : ℕ) : ParentOf val' c e ↔ ParentOf val c e ∨ (c = a ∧ e = h) := by
    constructor
    · rintro ⟨w', hw', hwe⟩
      by_cases hca : c = a
      · rw [hca, hnew] at hw'
        obtain rfl := Option.some.inj hw'
        exact .inr ⟨hca, (Option.some.inj hwe).symm⟩
      · obtain ⟨w, hw, hkeeps⟩ := hback hca hw'
        exact .inl ⟨w, hw, hkeeps.parent.symm.trans hwe⟩
    · rintro (⟨w, hw, hwe⟩ | ⟨rfl, rfl⟩)
      · obtain ⟨w', hw', hkeeps⟩ := hkept c w hw
        exact ⟨w', hw', hkeeps.parent.trans hwe⟩
      · exact ⟨_, hnew, rfl⟩
  constructor
  · intro c e hce
    rcases (hparent c e).mp hce with h | ⟨rfl, rfl⟩
    · obtain ⟨w, hw, -⟩ := id h
      rw [Function.update_of_ne (hne (hf.parent_isSome c e h)),
        Function.update_of_ne (hne (by rw [hw]; rfl))]
      exact hf.rank_lt c e h
    · rw [Function.update_self, Function.update_of_ne (hne hh)]
      exact hrank e hh
  · intro c e hce
    have hsome : (val e).isSome := by
      rcases (hparent c e).mp hce with h | ⟨-, rfl⟩
      · exact hf.parent_isSome c e h
      · exact hh
    obtain ⟨w, hw⟩ := Option.isSome_iff_exists.mp hsome
    obtain ⟨w', hw', -⟩ := hkept e w hw
    rw [hw']
    rfl
  · intro e v he
    by_cases hea : e = a
    · rw [hea, hnew] at he
      obtain rfl := Option.some.inj he
      refine ⟨[], rfl, fun c ↦ iff_of_false List.not_mem_nil fun hc ↦ ?_⟩
      rcases (hparent c e).mp hc with h | ⟨-, heh⟩
      · exact hne (hf.parent_isSome c e h) hea
      · exact hne hh (heh.symm.trans hea)
    · obtain ⟨w, hw, hkeeps⟩ := hback hea he
      by_cases heh : e = h
      · rw [heh] at he ⊢
        obtain ⟨cs, hcs, hmem⟩ := hchain v he
        refine ⟨cs, hcs, fun c ↦ (hmem c).trans ?_⟩
        rw [hparent, and_iff_left rfl]
      · obtain ⟨cs, hcs, hmem⟩ := hf.children e w hw
        refine ⟨cs, ?_, fun c ↦ (hmem c).trans ?_⟩
        · rw [hkeeps.child heh]
          refine hcs.congr fun c hc u hu ↦ ?_
          obtain ⟨u', hu', hkeepsc⟩ := hkept c u hu
          refine ⟨u', hu', hkeepsc.sibling fun huh ↦ heh ?_⟩
          exact ((hmem c).mp hc).unique ⟨u, hu, huh⟩
        · rw [hparent, or_iff_left fun hca ↦ heh hca.2]
  · intro e v he hroot
    by_cases hea : e = a
    · rw [hea, hnew] at he
      obtain rfl := Option.some.inj he
      cases hroot
    · obtain ⟨w, hw, hkeeps⟩ := hback hea he
      have hwroot : w.parent = none := hkeeps.parent.symm.trans hroot
      rw [hkeeps.sibling (by rw [hwroot]; exact (Option.some_ne_none h).symm)]
      exact hf.roots e w hw hwroot

/-- A child of `h` goes with everything behind it. -/
theorem Forest.remove (hf : Forest val rank) (ha : ParentOf val a h)
    (hgone : ∀ b, ReflTransGen (ParentOf val) b a → val' b = none)
    (hnone : ∀ b, val b = none → val' b = none)
    (hkept : ∀ b w, ¬ ReflTransGen (ParentOf val) b a → val b = some w →
      ∃ w', val' b = some w' ∧ Keeps h b w w')
    (hchain : ∀ w', val' h = some w' →
      ∃ cs, Chain val' w'.child cs ∧ ∀ c, c ∈ cs ↔ ParentOf val c h ∧ c ≠ a) : Forest val' rank := by
  have hback {b : ℕ} {w' : TreeNode} (hw' : val' b = some w') :
      ¬ ReflTransGen (ParentOf val) b a ∧ ∃ w, val b = some w ∧ Keeps h b w w' := by
    have hnot : ¬ ReflTransGen (ParentOf val) b a := by
      intro hb
      rw [hgone b hb] at hw'
      cases hw'
    refine ⟨hnot, ?_⟩
    cases hw : val b with
    | none =>
      rw [hnone b hw] at hw'
      cases hw'
    | some w =>
      obtain ⟨u, hu, hkeeps⟩ := hkept b w hnot hw
      obtain rfl := Option.some.inj (hu.symm.trans hw')
      exact ⟨w, rfl, hkeeps⟩
  have hparent (c e : ℕ) :
      ParentOf val' c e ↔ ParentOf val c e ∧ ¬ ReflTransGen (ParentOf val) c a := by
    constructor
    · rintro ⟨w', hw', hwe⟩
      obtain ⟨hnot, w, hw, hkeeps⟩ := hback hw'
      exact ⟨⟨w, hw, hkeeps.parent.symm.trans hwe⟩, hnot⟩
    · rintro ⟨⟨w, hw, hwe⟩, hnot⟩
      obtain ⟨w', hw', hkeeps⟩ := hkept c w hnot hw
      exact ⟨w', hw', hkeeps.parent.trans hwe⟩
  constructor
  · exact fun c e hce ↦ hf.rank_lt c e ((hparent c e).mp hce).1
  · intro c e hce
    obtain ⟨hce, hnot⟩ := (hparent c e).mp hce
    obtain ⟨w, hw⟩ := Option.isSome_iff_exists.mp (hf.parent_isSome c e hce)
    obtain ⟨w', hw', -⟩ := hkept e w (fun he ↦ hnot (.head hce he)) hw
    rw [hw']
    rfl
  · intro e v he
    obtain ⟨hnot, w, hw, hkeeps⟩ := hback he
    by_cases heh : e = h
    · rw [heh] at he ⊢
      obtain ⟨cs, hcs, hmem⟩ := hchain v he
      refine ⟨cs, hcs, fun c ↦ (hmem c).trans ?_⟩
      rw [hparent]
      refine and_congr_right fun hc ↦ not_congr ⟨fun hca ↦ hca ▸ .refl, fun hca ↦ ?_⟩
      exact hf.siblings_disjoint hc ha .refl hca
    · obtain ⟨cs, hcs, hmem⟩ := hf.children e w hw
      have hstays (c : ℕ) (hc : ParentOf val c e) : ¬ ReflTransGen (ParentOf val) c a := by
        intro hca
        rcases ReflTransGen.cases_head hca with rfl | ⟨f, hcf, hfa⟩
        · exact heh (hc.unique ha)
        · obtain rfl := hc.unique hcf
          exact hnot hfa
      refine ⟨cs, ?_, fun c ↦ (hmem c).trans ?_⟩
      · rw [hkeeps.child heh]
        refine hcs.congr fun c hc u hu ↦ ?_
        have hce := (hmem c).mp hc
        obtain ⟨u', hu', hkeepsc⟩ := hkept c u (hstays c hce) hu
        exact ⟨u', hu', hkeepsc.sibling fun huh ↦ heh (hce.unique ⟨u, hu, huh⟩)⟩
      · rw [hparent]
        exact (and_iff_left_of_imp (hstays c)).symm
  · intro e v he hroot
    obtain ⟨-, w, hw, hkeeps⟩ := hback he
    have hwroot : w.parent = none := hkeeps.parent.symm.trans hroot
    rw [hkeeps.sibling (by rw [hwroot]; exact (Option.some_ne_none h).symm)]
    exact hf.roots e w hw hwroot

/-- A new node whose parent or last sibling is led to it. -/
theorem Forest.addLeafAt (hf : Forest val rank) {n x : ℕ} {w w' : TreeNode}
    (hrank : ∀ b, (val b).isSome → rank b < n) (ha : val a = none) (hh : (val h).isSome) (hx : val x = some w)
    (hkeeps : Keeps h x w w') (hchain : ∀ v, Function.update val x (some w') h = some v →
      ∃ cs, Chain (Function.update (Function.update val a (some ⟨some h, none, none⟩)) x (some w')) v.child cs ∧
        ∀ c, c ∈ cs ↔ ParentOf val c h ∨ c = a) :
    Forest (Function.update (Function.update val a (some ⟨some h, none, none⟩)) x (some w'))
      (Function.update rank a n) := by
  have hne {b : ℕ} (hb : (val b).isSome) : b ≠ a := by
    rintro rfl
    rw [ha] at hb
    cases hb
  have hxa : x ≠ a := hne (by rw [hx]; rfl)
  refine hf.addLeaf hrank ha hh ?_ (fun b hba hb ↦ ?_) (fun b u hu ↦ ?_) fun v hv ↦ hchain v ?_
  · rw [Function.update_of_ne hxa.symm, Function.update_self]
  · have hbx : b ≠ x := by
      rintro rfl
      rw [hx] at hb
      cases hb
    rw [Function.update_of_ne hbx, Function.update_of_ne hba, hb]
  · by_cases hbx : b = x
    · subst hbx
      obtain rfl := Option.some.inj (hx.symm.trans hu)
      exact ⟨w', Function.update_self .., hkeeps⟩
    · rw [Function.update_of_ne hbx, Function.update_of_ne (hne (by rw [hu]; rfl)), hu]
      exact ⟨u, rfl, .refl h b u⟩
  · rw [← hv, Function.update_apply, Function.update_apply, Function.update_of_ne (hne hh)]

/-- A node goes with everything behind it, and its parent or the sibling before it is led past it. -/
theorem Forest.removeAt (hf : Forest val rank) {x : ℕ} {w w' : TreeNode} (ha : ParentOf val a h)
    (hgone : ∀ b, ReflTransGen (ParentOf val) b a → val' b = none)
    (hx : val x = some w) (hx' : val' x = some w') (hkeeps : Keeps h x w w')
    (hsame : ∀ b, ¬ ReflTransGen (ParentOf val) b a → b ≠ x → val' b = val b)
    (hchain : ∀ v, val' h = some v →
      ∃ cs, Chain val' v.child cs ∧ ∀ c, c ∈ cs ↔ ParentOf val c h ∧ c ≠ a) : Forest val' rank := by
  refine hf.remove ha hgone (fun b hb ↦ ?_) (fun b u hnot hu ↦ ?_) hchain
  · by_cases hba : ReflTransGen (ParentOf val) b a
    · exact hgone b hba
    · rw [hsame b hba ?_, hb]
      rintro rfl
      rw [hx] at hb
      cases hb
  · by_cases hbx : b = x
    · subst hbx
      obtain rfl := Option.some.inj (hx.symm.trans hu)
      exact ⟨w', hx', hkeeps⟩
    · exact ⟨u, (hsame b hnot hbx).trans hu, .refl h b u⟩

end Writes

end BlitzedServices.Lib
