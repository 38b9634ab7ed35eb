import BlitzedServices.Lib.LinkedList

/-!
# The timeout queue

Timeouts are kept in a doubly linked list. `check_timeouts` walks along it and calls the routines of those
that are due, which may add and delete timeouts meanwhile. `checkTimeouts_spec` says which ones run and
what the list holds afterwards.
-/

set_option autoImplicit false
set_option relaxedAutoImplicit false

namespace BlitzedServices.Timeouts

open Lib

variable {Code Data σ : Type}

/-! ### Timeouts -/

/-- A timeout. No function reads the serial number of its allocation. -/
structure Timeout (Code Data : Type) where
  settime : ℤ
  timeout : ℤ
  repeats : Bool
  code : Code
  data : Data
  serial : ℕ

/-- What happens to a timeout. -/
inductive Event (Code Data : Type) where
  | ran (timeout : Timeout Code Data)
  | added (timeout : Timeout Code Data)
  | deleted (timeout : Timeout Code Data)

/-- The timeouts, the rest of the program, and a log that no function reads. -/
structure State (Code Data σ : Type) where
  timeouts : LinkedList (Timeout Code Data)
  rest : σ
  log : List (Event Code Data)

/-- `add_timeout`. The memory is at `a`, and the caller sets the data. -/
def addTimeout (a : ℕ) (now delay : ℤ) (code : Code) (repeats : Bool) (data : Data)
    (s : State Code Data σ) : State Code Data σ :=
  let t : Timeout Code Data := ⟨now, now + delay, repeats, code, data, s.timeouts.nodes⟩
  { s with timeouts := s.timeouts.push a t, log := s.log ++ [.added t] }

/-- `del_timeout`. Nothing comes of a walk that does not end. -/
def delTimeout (a : ℕ) (s : State Code Data σ) : Option (State Code Data σ) := do
  let found ← reaches s.timeouts.heap a (s.timeouts.nodes + 1) s.timeouts.head
  if found then
    let node ← s.timeouts.heap a
    some { s with timeouts := s.timeouts.unlink a, log := s.log ++ [.deleted node.val] }
  else
    some s

/-- The loop of `check_timeouts`. Nothing comes of a pointer to freed memory or of a walk that does not
end. -/
def checkLoop (code : Code → ℕ → State Code Data σ → Option (State Code Data σ)) (t : ℤ) :
    ℕ → Option ℕ → State Code Data σ → Option (State Code Data σ)
  | 0, _, _ => none
  | _ + 1, none, s => some s
  | fuel + 1, some a, s => do
    let node ← s.timeouts.heap a
    if t < node.val.timeout then
      checkLoop code t fuel node.next s
    else
      let s ← code node.val.code a { s with log := s.log ++ [.ran node.val] }
      let node ← s.timeouts.heap a
      if node.val.repeats then
        checkLoop code t fuel node.next s
      else
        checkLoop code t fuel node.next { s with timeouts := s.timeouts.unlink a }

/-- `check_timeouts` at a time. -/
def checkTimeouts (code : Code → ℕ → State Code Data σ → Option (State Code Data σ)) (t : ℤ)
    (s : State Code Data σ) : Option (State Code Data σ) :=
  checkLoop code t (s.timeouts.nodes + 1) s.timeouts.head s

/-! ### Routines -/

/-- What a routine may do: add timeouts, at addresses that are free, delete others than its own, and
change the rest of the program. -/
inductive Edits (self : ℕ) : State Code Data σ → State Code Data σ → Prop where
  | done (s : State Code Data σ) : Edits self s s
  | rest {s s' : State Code Data σ} (r : σ) (h : Edits self { s with rest := r } s') :
      Edits self s s'
  | add {s s' : State Code Data σ} {a : ℕ} (ha : s.timeouts.heap a = none) (now delay : ℤ)
      (code : Code) (repeats : Bool) (data : Data)
      (h : Edits self (addTimeout a now delay code repeats data s) s') : Edits self s s'
  | del {s s₁ s' : State Code Data σ} {a : ℕ} (ha : a ≠ self) (hdel : delTimeout a s = some s₁)
      (h : Edits self s₁ s') : Edits self s s'

/-- The list is well formed and holds these timeouts at these addresses. -/
structure Listed (s : State Code Data σ) (xs : List (ℕ × Timeout Code Data)) : Prop where
  linked : Linked id s.timeouts xs
  serial_lt : ∀ x ∈ xs, x.2.serial < s.timeouts.nodes
  nodup : (xs.map fun x ↦ x.2.serial).Nodup

/-- Routines that are called for timeouts of the list only edit it. They may rely on what all of them keep
true of the rest of the program. -/
def EditsOnly (I : σ → Prop) (code : Code → ℕ → State Code Data σ → Option (State Code Data σ)) :
    Prop :=
  ∀ s a v xs ys, Listed s (xs ++ (a, v) :: ys) → I s.rest →
    ∃ s', code v.code a s = some s' ∧ Edits a s s' ∧ I s'.rest

/-- The timeouts of some nodes. -/
def vals (xs : List (ℕ × Timeout Code Data)) : List (Timeout Code Data) := xs.map Prod.snd

@[simp] theorem vals_nil : vals ([] : List (ℕ × Timeout Code Data)) = [] := rfl

@[simp] theorem vals_cons (a : ℕ) (v : Timeout Code Data) (xs : List (ℕ × Timeout Code Data)) :
    vals ((a, v) :: xs) = v :: vals xs := rfl

@[simp] theorem vals_append (xs ys : List (ℕ × Timeout Code Data)) :
    vals (xs ++ ys) = vals xs ++ vals ys := List.map_append

section Edited

variable {s s' s₁ : State Code Data σ} {a b : ℕ} {v w : Timeout Code Data}
  {xs ys xs' ys' xs₁ ys₁ zs : List (ℕ × Timeout Code Data)} {ev ev₁ : List (Event Code Data)}

theorem Listed.vals_nodup (h : Listed s xs) : (vals xs).Nodup := by
  have hnodup := h.nodup
  rw [← Function.comp_def (fun t : Timeout Code Data ↦ t.serial), ← List.map_map] at hnodup
  exact hnodup.of_map _

theorem Listed.sublist (h : Listed s zs) (hlinked : Linked id s'.timeouts xs)
    (hnodes : s'.timeouts.nodes = s.timeouts.nodes) (hsub : xs.Sublist zs) : Listed s' xs := by
  refine ⟨hlinked, fun x hx ↦ ?_, h.nodup.sublist (hsub.map _)⟩
  rw [hnodes]
  exact h.serial_lt x (hsub.subset hx)

theorem unlink_nodes (a : ℕ) (l : LinkedList (Timeout Code Data)) :
    (l.unlink a).nodes = l.nodes := by
  rw [LinkedList.unlink]
  split <;> rfl

theorem Listed.unlink (h : Listed s (xs ++ (a, v) :: ys)) :
    Listed { s with timeouts := s.timeouts.unlink a } (xs ++ ys) :=
  h.sublist h.linked.unlink (unlink_nodes a s.timeouts)
    ((List.Sublist.refl xs).append (List.sublist_cons_self _ _))

theorem Listed.addTimeout (h : Listed s xs) (ha : s.timeouts.heap a = none) (now delay : ℤ)
    (code : Code) (repeats : Bool) (data : Data) :
    Listed (addTimeout a now delay code repeats data s)
      ((a, ⟨now, now + delay, repeats, code, data, s.timeouts.nodes⟩) :: xs) := by
  refine ⟨h.linked.push ha _, fun x hx ↦ ?_, List.nodup_cons.mpr ⟨fun hmem ↦ ?_, h.nodup⟩⟩
  · rcases List.mem_cons.mp hx with rfl | hx
    · exact Nat.lt_succ_self _
    · exact Nat.lt_succ_of_lt (h.serial_lt x hx)
  · obtain ⟨x, hx, hserial⟩ := List.mem_map.mp hmem
    exact absurd hserial (h.serial_lt x hx).ne

theorem reaches_listed (h : Listed s zs) (a : ℕ) :
    reaches s.timeouts.heap a (s.timeouts.nodes + 1) s.timeouts.head =
      some (decide (a ∈ zs.map Prod.fst)) := by
  rw [h.linked.head]
  exact reaches_segment h.linked.segment a (Nat.lt_succ_of_le h.linked.length_le)

/-- A timeout of the list is deleted. -/
theorem delTimeout_mem (h : Listed s (xs ++ (a, v) :: ys)) :
    delTimeout a s =
      some { s with timeouts := s.timeouts.unlink a, log := s.log ++ [.deleted v] } := by
  have hmem : a ∈ (xs ++ (a, v) :: ys).map Prod.fst := by simp
  rw [delTimeout, reaches_listed h, decide_eq_true hmem]
  simp only [bind, Option.bind_some, if_true, h.linked.lookup]

/-- For any other pointer nothing is done. -/
theorem delTimeout_listed (h : Listed s zs) (a : ℕ) :
    a ∉ zs.map Prod.fst ∧ delTimeout a s = some s ∨
      ∃ xs v ys, zs = xs ++ (a, v) :: ys ∧ delTimeout a s = some
        { s with timeouts := s.timeouts.unlink a, log := s.log ++ [.deleted v] } := by
  by_cases hmem : a ∈ zs.map Prod.fst
  · right
    obtain ⟨⟨b, v⟩, hx, rfl⟩ := List.mem_map.mp hmem
    obtain ⟨xs, ys, rfl⟩ := List.append_of_mem hx
    exact ⟨xs, v, ys, rfl, delTimeout_mem h⟩
  · left
    refine ⟨hmem, ?_⟩
    rw [delTimeout, reaches_listed h, decide_eq_false hmem]
    rfl

/-- What a routine has done to the timeouts before and after its own. -/
structure Edited (v : Timeout Code Data) (s : State Code Data σ)
    (xs ys : List (ℕ × Timeout Code Data)) (s' : State Code Data σ)
    (xs' ys' : List (ℕ × Timeout Code Data)) (ev : List (Event Code Data)) : Prop where
  log : s'.log = s.log ++ ev
  nodes_le : s.timeouts.nodes ≤ s'.timeouts.nodes
  ran : ∀ w, .ran w ∉ ev
  added : ∀ w, .added w ∈ ev → s.timeouts.nodes ≤ w.serial ∧ w.serial < s'.timeouts.nodes
  deleted : ∀ w, .deleted w ∈ ev → w.serial < s'.timeouts.nodes
  kept : .deleted v ∉ ev
  before : ∀ w, w ∈ vals xs' ↔ (w ∈ vals xs ∨ .added w ∈ ev) ∧ .deleted w ∉ ev
  sublist : (vals ys').Sublist (vals ys)
  after : ∀ w ∈ vals ys, w ∈ vals ys' ↔ .deleted w ∉ ev

theorem Edited.refl (hlog : s'.log = s.log) (hnodes : s'.timeouts.nodes = s.timeouts.nodes) :
    Edited v s xs ys s' xs ys [] where
  log := hlog.trans (List.append_nil _).symm
  nodes_le := hnodes.ge
  ran := fun _ ↦ List.not_mem_nil
  added := fun _ h ↦ absurd h List.not_mem_nil
  deleted := fun _ h ↦ absurd h List.not_mem_nil
  kept := List.not_mem_nil
  before := fun _ ↦ ⟨fun h ↦ ⟨.inl h, List.not_mem_nil⟩,
    fun h ↦ h.1.resolve_right List.not_mem_nil⟩
  sublist := .refl _
  after := fun _ h ↦ iff_of_true h List.not_mem_nil

theorem Edited.trans (h : Edited v s xs ys s₁ xs₁ ys₁ ev)
    (h' : Edited v s₁ xs₁ ys₁ s' xs' ys' ev₁) : Edited v s xs ys s' xs' ys' (ev ++ ev₁) where
  log := by rw [h'.log, h.log, List.append_assoc]
  nodes_le := h.nodes_le.trans h'.nodes_le
  ran := fun w hw ↦ (List.mem_append.mp hw).elim (h.ran w) (h'.ran w)
  added := fun w hw ↦ by
    rcases List.mem_append.mp hw with hw | hw
    · exact ⟨(h.added w hw).1, (h.added w hw).2.trans_le h'.nodes_le⟩
    · exact ⟨h.nodes_le.trans (h'.added w hw).1, (h'.added w hw).2⟩
  deleted := fun w hw ↦ by
    rcases List.mem_append.mp hw with hw | hw
    · exact (h.deleted w hw).trans_le h'.nodes_le
    · exact h'.deleted w hw
  kept := fun hv ↦ (List.mem_append.mp hv).elim h.kept h'.kept
  before := fun w ↦ by
    have hfresh : .added w ∈ ev₁ → .deleted w ∉ ev := fun hadded hdeleted ↦
      absurd (h'.added w hadded).1 (Nat.not_le.mpr (h.deleted w hdeleted))
    rw [h'.before, h.before, List.mem_append, List.mem_append]
    tauto
  sublist := h'.sublist.trans h.sublist
  after := fun w hw ↦ by
    have hafter := h.after w hw
    rw [List.mem_append, not_or]
    constructor
    · intro hmem
      have hmem₁ := h'.sublist.subset hmem
      exact ⟨hafter.mp hmem₁, (h'.after w hmem₁).mp hmem⟩
    · rintro ⟨hnot, hnot₁⟩
      exact (h'.after w (hafter.mpr hnot)).mpr hnot₁

theorem edited_addTimeout (now delay : ℤ) (code : Code) (repeats : Bool) (data : Data) :
    let t : Timeout Code Data := ⟨now, now + delay, repeats, code, data, s.timeouts.nodes⟩
    Edited v s xs ys (addTimeout b now delay code repeats data s) ((b, t) :: xs) ys [.added t] where
  log := rfl
  nodes_le := Nat.le_succ _
  ran := fun w hw ↦ by cases List.mem_singleton.mp hw
  added := fun w hw ↦ by
    obtain rfl := Event.added.inj (List.mem_singleton.mp hw)
    exact ⟨le_rfl, Nat.lt_succ_self _⟩
  deleted := fun w hw ↦ by cases List.mem_singleton.mp hw
  kept := fun hv ↦ by cases List.mem_singleton.mp hv
  before := fun w ↦ by simp [or_comm]
  sublist := .refl _
  after := fun w hw ↦ iff_of_true hw (by simp)

/-- A timeout other than the routine's own is deleted. -/
theorem edited_unlink (hw : w.serial < s.timeouts.nodes) (hv : v ≠ w)
    (hbefore : ∀ u, u ∈ vals xs' ↔ u ∈ vals xs ∧ u ≠ w) (hsub : (vals ys').Sublist (vals ys))
    (hafter : ∀ u ∈ vals ys, u ∈ vals ys' ↔ u ≠ w) :
    Edited v s xs ys { s with timeouts := s.timeouts.unlink b, log := s.log ++ [.deleted w] }
      xs' ys' [.deleted w] where
  log := rfl
  nodes_le := (unlink_nodes b s.timeouts).ge
  ran := fun u hu ↦ by cases List.mem_singleton.mp hu
  added := fun u hu ↦ by cases List.mem_singleton.mp hu
  deleted := fun u hu ↦ by
    obtain rfl := Event.deleted.inj (List.mem_singleton.mp hu)
    exact (unlink_nodes b s.timeouts).symm ▸ hw
  kept := fun hmem ↦ hv (Event.deleted.inj (List.mem_singleton.mp hmem))
  before := fun u ↦ by simpa using hbefore u
  sublist := hsub
  after := fun u hu ↦ by simpa using hafter u hu

/-- What is not the routine's own stands before or after it. -/
theorem edited_deleted (hzs : Listed s zs) (hdel : zs = xs ++ (b, w) :: ys)
    (hself : zs = xs₁ ++ (a, v) :: ys₁) (hne : b ≠ a) :
    ∃ xs' ys', xs ++ ys = xs' ++ (a, v) :: ys' ∧
      Edited v s xs₁ ys₁ { s with timeouts := s.timeouts.unlink b, log := s.log ++ [.deleted w] }
        xs' ys' [.deleted w] := by
  have hnodup := hzs.vals_nodup
  have hlt : w.serial < s.timeouts.nodes := hzs.serial_lt (b, w) (by simp [hdel])
  rcases List.append_eq_append_iff.mp (hdel.symm.trans hself) with
    ⟨mid, hxs, hys⟩ | ⟨mid, hxs, hys⟩
  · cases mid with
    | nil => exact absurd (congrArg Prod.fst (List.cons.inj hys).1) hne
    | cons m mid =>
      rw [List.cons_append, List.cons.injEq] at hys
      obtain ⟨rfl, rfl⟩ := hys
      subst hxs hself
      refine ⟨xs ++ mid, ys₁, (List.append_assoc ..).symm, edited_unlink hlt ?_ ?_ (.refl _) ?_⟩
      all_goals
        simp only [vals_append, vals_cons] at hnodup ⊢
        grind
  · cases mid with
    | nil => exact absurd (congrArg Prod.fst (List.cons.inj hys).1).symm hne
    | cons m mid =>
      rw [List.cons_append, List.cons.injEq] at hys
      obtain ⟨rfl, rfl⟩ := hys
      subst hxs hself
      refine ⟨xs₁, mid ++ ys, by rw [List.append_assoc, List.cons_append],
        edited_unlink hlt ?_ ?_ ?_ ?_⟩
      · simp only [vals_append, vals_cons] at hnodup
        grind
      · simp only [vals_append, vals_cons] at hnodup
        grind
      · rw [vals_append, vals_append, vals_cons]
        exact (List.Sublist.refl _).append (List.sublist_cons_self _ _)
      · simp only [vals_append, vals_cons] at hnodup ⊢
        grind

/-- What a routine does to the list around its own timeout. -/
theorem edited (h : Edits a s s') {xs ys : List (ℕ × Timeout Code Data)}
    (hlisted : Listed s (xs ++ (a, v) :: ys)) :
    ∃ xs' ys' ev, Listed s' (xs' ++ (a, v) :: ys') ∧ Edited v s xs ys s' xs' ys' ev := by
  induction h generalizing xs ys with
  | done s => exact ⟨xs, ys, [], hlisted, .refl rfl rfl⟩
  | @rest s s' r h ih =>
    obtain ⟨xs', ys', ev, hlisted', hedited⟩ :=
      ih ⟨hlisted.linked, hlisted.serial_lt, hlisted.nodup⟩
    have hsame : Edited v s xs ys { s with rest := r } xs ys [] := .refl rfl rfl
    exact ⟨xs', ys', [] ++ ev, hlisted', hsame.trans hedited⟩
  | add ha now delay code repeats data h ih =>
    have hadded : Listed (addTimeout _ now delay code repeats data _) (_ :: xs ++ (a, v) :: ys) :=
      hlisted.addTimeout ha now delay code repeats data
    obtain ⟨xs', ys', ev, hlisted', hedited⟩ := ih hadded
    exact ⟨xs', ys', _ ++ ev, hlisted',
      (edited_addTimeout now delay code repeats data).trans hedited⟩
  | del ha hdel h ih =>
    rcases delTimeout_listed hlisted _ with ⟨-, hsame⟩ | ⟨xs₀, w, ys₀, hsplit, hdeleted⟩
    · obtain rfl := Option.some.inj (hsame.symm.trans hdel)
      exact ih hlisted
    · obtain rfl := Option.some.inj (hdeleted.symm.trans hdel)
      obtain ⟨xs₁, ys₁, hleft, hone⟩ := edited_deleted hlisted hsplit rfl ha
      have hunlink := (hsplit ▸ hlisted).unlink
      rw [hleft] at hunlink
      obtain ⟨xs', ys', ev, hlisted', hedited⟩ := ih ⟨hunlink.linked, hunlink.serial_lt, hunlink.nodup⟩
      exact ⟨xs', ys', _ ++ ev, hlisted', hone.trans hedited⟩

end Edited

/-! ### The walk -/

/-- How the walk at a time passes over a list: each routine that runs takes what it deletes out of what
is still to come. -/
inductive Pass (t : ℤ) : List (Timeout Code Data) → List (Event Code Data) → Prop where
  | done : Pass t [] []
  | wait {v : Timeout Code Data} {vs : List (Timeout Code Data)} {ev : List (Event Code Data)}
      (hdue : t < v.timeout) (h : Pass t vs ev) : Pass t (v :: vs) ev
  | run {v : Timeout Code Data} {vs vs' : List (Timeout Code Data)} {ev ev' : List (Event Code Data)}
      (hdue : v.timeout ≤ t) (hran : ∀ w, .ran w ∉ ev) (hsub : vs'.Sublist vs)
      (hdeleted : ∀ w ∈ vs, w ∈ vs' ↔ .deleted w ∉ ev) (h : Pass t vs' ev') :
      Pass t (v :: vs) (.ran v :: (ev ++ ev'))

section Loop

variable {code : Code → ℕ → State Code Data σ → Option (State Code Data σ)} {I : σ → Prop} {t : ℤ}
  {s s' : State Code Data σ} {xs ys xs' : List (ℕ × Timeout Code Data)}
  {ev : List (Event Code Data)}

/-- The state after the walk. -/
structure Walked (t : ℤ) (s : State Code Data σ) (xs ys : List (ℕ × Timeout Code Data))
    (s' : State Code Data σ) (xs' : List (ℕ × Timeout Code Data)) (ev : List (Event Code Data)) :
    Prop where
  listed : Listed s' xs'
  log : s'.log = s.log ++ ev
  pass : Pass t (vals ys) ev
  added : ∀ w, .added w ∈ ev → s.timeouts.nodes ≤ w.serial
  mem : ∀ w, w ∈ vals xs' ↔
    (w ∈ vals xs ∨ w ∈ vals ys ∧ (t < w.timeout ∨ w.repeats = true) ∨ .added w ∈ ev) ∧
      .deleted w ∉ ev

/-- A routine has run, and its timeout stays in the list if it repeats. -/
theorem walked_run {s₁ s₂ : State Code Data σ} {xs₁ xs₂ ys₁ : List (ℕ × Timeout Code Data)} {a : ℕ}
    {v : Timeout Code Data} {ev₁ : List (Event Code Data)} (hdue : ¬ t < v.timeout)
    (hedited : Edited v { s with log := s.log ++ [.ran v] } xs ys s₁ xs₁ ys₁ ev₁)
    (hwalked : Walked t s₂ xs₂ ys₁ s' xs' ev) (hlog : s₂.log = s₁.log)
    (hnodes : s₂.timeouts.nodes = s₁.timeouts.nodes)
    (hpassed : ∀ w, w ∈ vals xs₂ ↔ w ∈ vals xs₁ ∨ w = v ∧ v.repeats = true) :
    Walked t s xs ((a, v) :: ys) s' xs' (.ran v :: (ev₁ ++ ev)) where
  listed := hwalked.listed
  log := by
    rw [hwalked.log, hlog, hedited.log, List.append_assoc, List.append_assoc]
    rfl
  pass := .run (not_lt.mp hdue) hedited.ran hedited.sublist hedited.after hwalked.pass
  added := fun w hw ↦ by
    rcases List.mem_append.mp ((List.mem_cons.mp hw).resolve_left (by simp)) with hw | hw
    · exact (hedited.added w hw).1
    · exact hedited.nodes_le.trans (hnodes ▸ hwalked.added w hw)
  mem := fun w ↦ by
    have hfresh : .added w ∈ ev → .deleted w ∉ ev₁ := fun hadded hdeleted ↦
      absurd (hnodes ▸ hwalked.added w hadded) (Nat.not_le.mpr (hedited.deleted w hdeleted))
    have hkept := hedited.kept
    have hbefore := hedited.before w
    have hafter := hedited.after w
    have hsub : w ∈ vals ys₁ → w ∈ vals ys := fun hw ↦ hedited.sublist.subset hw
    rw [hwalked.mem, hpassed]
    simp only [vals_cons, List.mem_cons, List.mem_append, reduceCtorEq, false_or]
    grind

/-- The walk has a part of the list before it. -/
theorem checkLoop_walked (hcode : EditsOnly I code) {fuel : ℕ} (hlisted : Listed s (xs ++ ys))
    (hrest : I s.rest) (hfuel : ys.length < fuel) :
    ∃ s' xs' ev, checkLoop code t fuel (first ys none) s = some s' ∧ I s'.rest ∧
      Walked t s xs ys s' xs' ev := by
  induction fuel generalizing s xs ys with
  | zero => exact absurd hfuel (Nat.not_lt_zero _)
  | succ fuel ih =>
    cases ys with
    | nil =>
      rw [List.append_nil] at hlisted
      exact ⟨s, xs, [], rfl, hrest, hlisted, (List.append_nil _).symm, .done,
        fun _ h ↦ absurd h List.not_mem_nil, fun w ↦ by simp⟩
    | cons y ys =>
      obtain ⟨a, v⟩ := y
      have hnext : ys.length < fuel := Nat.lt_of_succ_lt_succ hfuel
      rw [first, checkLoop, hlisted.linked.lookup]
      simp only [bind, Option.bind_some]
      by_cases hdue : t < v.timeout
      · rw [if_pos hdue]
        have hshift : Listed s ((xs ++ [(a, v)]) ++ ys) := by
          rwa [List.append_assoc, List.singleton_append]
        obtain ⟨s', xs', ev, hloop, hrest', hwalked⟩ := ih hshift hrest hnext
        refine ⟨s', xs', ev, hloop, hrest', hwalked.listed, hwalked.log, .wait hdue hwalked.pass,
          hwalked.added, fun w ↦ ?_⟩
        rw [hwalked.mem]
        simp only [vals_append, vals_cons, vals_nil, List.mem_append, List.mem_cons]
        grind
      · rw [if_neg hdue]
        have hran : Listed { s with log := s.log ++ [.ran v] } (xs ++ (a, v) :: ys) :=
          ⟨hlisted.linked, hlisted.serial_lt, hlisted.nodup⟩
        obtain ⟨s₁, hs₁, hedits, hrest₁⟩ := hcode _ a v xs ys hran hrest
        obtain ⟨xs₁, ys₁, ev₁, hlisted₁, hedited⟩ := edited hedits hran
        rw [hs₁]
        simp only [Option.bind_some, hlisted₁.linked.lookup]
        have hnext₁ : ys₁.length < fuel := by
          have hle := hedited.sublist.length_le
          rw [vals, vals, List.length_map, List.length_map] at hle
          exact hle.trans_lt hnext
        by_cases hrepeats : v.repeats = true
        · rw [if_pos hrepeats]
          have hshift : Listed s₁ ((xs₁ ++ [(a, v)]) ++ ys₁) := by
            rwa [List.append_assoc, List.singleton_append]
          obtain ⟨s', xs', ev, hloop, hrest', hwalked⟩ := ih hshift hrest₁ hnext₁
          refine ⟨s', xs', _, hloop, hrest', walked_run hdue hedited hwalked rfl rfl fun w ↦ ?_⟩
          simp [hrepeats]
        · rw [if_neg hrepeats]
          obtain ⟨s', xs', ev, hloop, hrest', hwalked⟩ := ih hlisted₁.unlink hrest₁ hnext₁
          refine ⟨s', xs', _, hloop, hrest',
            walked_run hdue hedited hwalked rfl (unlink_nodes a s₁.timeouts) fun w ↦ ?_⟩
          simp [hrepeats]

end Loop

/-! ### What runs -/

/-- The event happens exactly once. -/
def Once (e : Event Code Data) (ev : List (Event Code Data)) : Prop :=
  ∃ p q, ev = p ++ e :: q ∧ e ∉ p ∧ e ∉ q

/-- A timeout is deleted before it or one behind it runs, and so before the walk gets to it. -/
def DeletedBefore (v : Timeout Code Data) (behind : List (Timeout Code Data))
    (ev : List (Event Code Data)) : Prop :=
  ∃ p q, ev = p ++ .deleted v :: q ∧ .ran v ∉ p ∧ ∀ w ∈ behind, .ran w ∉ p

section Passes

variable {t : ℤ} {v : Timeout Code Data} {vs vs' pre post : List (Timeout Code Data)}
  {ev : List (Event Code Data)}

/-- Only what the walk passes over runs. -/
theorem Pass.not_ran (h : Pass t vs ev) (hv : v ∉ vs) : .ran v ∉ ev := by
  induction h with
  | done => exact List.not_mem_nil
  | wait hdue h ih => exact ih fun hmem ↦ hv (List.mem_cons_of_mem _ hmem)
  | run hdue hran hsub hdeleted h ih =>
    rw [List.mem_cons, not_or] at hv
    rw [List.mem_cons, List.mem_append, not_or, not_or]
    refine ⟨fun heq ↦ hv.1 (Event.ran.inj heq), hran v, ih fun hmem ↦ hv.2 (hsub.subset hmem)⟩

/-- What is left of a list around a member that is left. -/
theorem sublist_middle (hsub : vs'.Sublist (pre ++ v :: post)) (hnodup : (pre ++ v :: post).Nodup)
    (hv : v ∈ vs') :
    ∃ pre' post', vs' = pre' ++ v :: post' ∧ pre'.Sublist pre ∧ post'.Sublist post := by
  obtain ⟨l₁, l₂, rfl, hpre, hpost⟩ := List.sublist_append_iff.mp hsub
  rw [List.nodup_append, List.nodup_cons] at hnodup
  rcases List.mem_append.mp hv with hmem | hmem
  · exact absurd rfl (hnodup.2.2 v (hpre.subset hmem) v List.mem_cons_self)
  · cases hpost with
    | cons _ hpost => exact absurd (hpost.subset hmem) hnodup.2.1.1
    | cons_cons _ hpost => exact ⟨l₁, _, rfl, hpre, hpost⟩

/-- A timeout that is due runs once unless it is deleted before. -/
theorem Pass.once (h : Pass t (pre ++ v :: post) ev) (hnodup : (pre ++ v :: post).Nodup)
    (hdue : v.timeout ≤ t) (hnot : ¬ DeletedBefore v post ev) : Once (.ran v) ev := by
  generalize hvs : pre ++ v :: post = vs at h hnodup
  induction h generalizing pre post with
  | done => exact absurd hvs (by simp)
  | wait hwait h ih =>
    cases pre with
    | nil =>
      obtain rfl := (List.cons.inj hvs).1
      exact absurd hwait (not_lt.mpr hdue)
    | cons u pre =>
      obtain rfl := (List.cons.inj hvs).2
      exact ih hnot rfl (List.nodup_cons.mp hnodup).2
  | @run u vs vs' ev ev' hran' hran hsub hdeleted h ih =>
    rw [List.nodup_cons] at hnodup
    cases pre with
    | nil =>
      obtain ⟨rfl, rfl⟩ := List.cons.inj hvs
      refine ⟨[], _, rfl, List.not_mem_nil, ?_⟩
      rw [List.mem_append, not_or]
      exact ⟨hran v, h.not_ran fun hmem ↦ hnodup.1 (hsub.subset hmem)⟩
    | cons u' pre =>
      rw [List.cons_append, List.cons.injEq] at hvs
      obtain ⟨rfl, rfl⟩ := hvs
      have hmem : v ∈ pre ++ v :: post := List.mem_append_right _ List.mem_cons_self
      have hne : ∀ w ∈ pre ++ v :: post, w ≠ u' := fun w hw ↦ ne_of_mem_of_not_mem hw hnodup.1
      have hkept : .deleted v ∉ ev := by
        intro hdel
        obtain ⟨p, q, rfl⟩ := List.append_of_mem hdel
        refine hnot ⟨.ran u' :: p, q ++ ev', by simp, ?_, fun w hw ↦ ?_⟩
        · have hp := fun hp ↦ hran v (List.mem_append_left _ hp)
          simpa [hne v hmem] using hp
        · have hp := fun hp ↦ hran w (List.mem_append_left _ hp)
          simpa [hne w (by simp [hw])] using hp
      have hv' : v ∈ vs' := (hdeleted v hmem).mpr hkept
      obtain ⟨pre', post', rfl, hpre, -⟩ := sublist_middle hsub hnodup.2 hv'
      have hlater : ¬ DeletedBefore v post' ev' := by
        rintro ⟨p, q, rfl, hvp, hp⟩
        refine hnot ⟨.ran u' :: (ev ++ p), q, by simp, ?_, fun w hw ↦ ?_⟩
        · simpa [hne v hmem, hran v] using hvp
        · have hwp : .ran w ∉ p := by
            by_cases hw' : w ∈ post'
            · exact hp w hw'
            · -- it was deleted with this routine, so that it does not run
              have hnodup' := hnodup.2
              rw [List.nodup_append, List.nodup_cons] at hnodup'
              have hgone : w ∉ pre' ++ v :: post' := by
                rw [List.mem_append, List.mem_cons, not_or, not_or]
                refine ⟨fun hmem' ↦ ?_, ne_of_mem_of_not_mem hw hnodup'.2.1.1, hw'⟩
                exact hnodup'.2.2 w (hpre.subset hmem') w (List.mem_cons_of_mem _ hw) rfl
              exact fun hmem' ↦ h.not_ran hgone (List.mem_append_left _ hmem')
          simpa [hne w (by simp [hw]), hran w] using hwp
      obtain ⟨p, q, hev, hp, hq⟩ := ih hlater rfl (hnodup.2.sublist hsub)
      refine ⟨.ran u' :: (ev ++ p), q, by simp [hev], ?_, hq⟩
      simpa [hne v hmem, hran v] using hp

/-- One that is not due, or is deleted before, does not run. -/
theorem Pass.never (h : Pass t (pre ++ v :: post) ev) (hnodup : (pre ++ v :: post).Nodup)
    (hnot : t < v.timeout ∨ DeletedBefore v post ev) : .ran v ∉ ev := by
  generalize hvs : pre ++ v :: post = vs at h hnodup
  induction h generalizing pre post with
  | done => exact List.not_mem_nil
  | wait hwait h ih =>
    cases pre with
    | nil =>
      obtain ⟨rfl, rfl⟩ := List.cons.inj hvs
      exact h.not_ran (List.nodup_cons.mp hnodup).1
    | cons u pre =>
      obtain rfl := (List.cons.inj hvs).2
      exact ih hnot rfl (List.nodup_cons.mp hnodup).2
  | @run u vs vs' ev ev' hran' hran hsub hdeleted h ih =>
    rw [List.nodup_cons] at hnodup
    cases pre with
    | nil =>
      obtain ⟨rfl, rfl⟩ := List.cons.inj hvs
      rcases hnot with hwait | ⟨p, q, hev, hvp, -⟩
      · exact absurd hwait (not_lt.mpr hran')
      · cases p with
        | nil => cases (List.cons.inj hev).1
        | cons e p => exact absurd ((List.cons.inj hev).1 ▸ List.mem_cons_self) hvp
    | cons u' pre =>
      rw [List.cons_append, List.cons.injEq] at hvs
      obtain ⟨rfl, rfl⟩ := hvs
      have hmem : v ∈ pre ++ v :: post := List.mem_append_right _ List.mem_cons_self
      have hne : v ≠ u' := ne_of_mem_of_not_mem hmem hnodup.1
      rw [List.mem_cons, List.mem_append, not_or, not_or]
      refine ⟨fun heq ↦ hne (Event.ran.inj heq), hran v, ?_⟩
      by_cases hv' : v ∈ vs'
      · obtain ⟨pre', post', rfl, -, hpost⟩ := sublist_middle hsub hnodup.2 hv'
        refine ih (hnot.imp_right ?_) rfl (hnodup.2.sublist hsub)
        rintro ⟨p, q, hev, hvp, hp⟩
        -- the deletion is none of this routine's
        have hkept := (hdeleted v hmem).mp hv'
        cases p with
        | nil => cases (List.cons.inj hev).1
        | cons e p =>
          rw [List.cons_append, List.cons.injEq] at hev
          rcases List.append_eq_append_iff.mp hev.2 with ⟨mid, hp', hev'⟩ | ⟨mid, hev', hq⟩
          · refine ⟨mid, q, hev', fun hmid ↦ hvp ?_, fun w hw hmid ↦ hp w (hpost.subset hw) ?_⟩
            · exact List.mem_cons_of_mem _ (hp' ▸ List.mem_append_right _ hmid)
            · exact List.mem_cons_of_mem _ (hp' ▸ List.mem_append_right _ hmid)
          · cases mid with
            | nil => exact ⟨[], q, hq.symm, List.not_mem_nil, fun _ _ ↦ List.not_mem_nil⟩
            | cons e' mid =>
              obtain ⟨rfl, -⟩ := List.cons.inj hq
              exact absurd (hev' ▸ List.mem_append_right _ List.mem_cons_self) hkept
      · exact h.not_ran hv'

end Passes

/-! ### The call -/

/-- The list is well formed and holds these timeouts, in this order. -/
def Queued (s : State Code Data σ) (vs : List (Timeout Code Data)) : Prop :=
  ∃ xs, Listed s xs ∧ vals xs = vs

/-- What a call at a time does to a list of timeouts. Each one that is due runs exactly once if it is not
deleted before the walk gets to it, and nothing else runs. Afterwards the list is well formed and holds the
timeouts that are not yet due, those that repeat, and the new ones, except for what has been deleted. -/
structure Checked (t : ℤ) (s : State Code Data σ) (vs : List (Timeout Code Data))
    (s' : State Code Data σ) (vs' : List (Timeout Code Data)) (ev : List (Event Code Data)) :
    Prop where
  log : s'.log = s.log ++ ev
  queued : Queued s' vs'
  once : ∀ pre v post, vs = pre ++ v :: post → v.timeout ≤ t → ¬ DeletedBefore v post ev →
    Once (.ran v) ev
  never : ∀ pre v post, vs = pre ++ v :: post → t < v.timeout ∨ DeletedBefore v post ev →
    .ran v ∉ ev
  others : ∀ v, v ∉ vs → .ran v ∉ ev
  added : ∀ v, .added v ∈ ev → v ∉ vs
  mem : ∀ v, v ∈ vs' ↔ (v ∈ vs ∧ (t < v.timeout ∨ v.repeats = true) ∨ .added v ∈ ev) ∧
    .deleted v ∉ ev

/-- For every list of timeouts, and routines that may add timeouts and delete others than their own, a
call returns and does this. -/
theorem checkTimeouts_checked {I : σ → Prop}
    {code : Code → ℕ → State Code Data σ → Option (State Code Data σ)} (hcode : EditsOnly I code)
    (t : ℤ) {s : State Code Data σ} {vs : List (Timeout Code Data)} (hqueued : Queued s vs)
    (hrest : I s.rest) :
    ∃ s' vs' ev, checkTimeouts code t s = some s' ∧ Checked t s vs s' vs' ev := by
  obtain ⟨xs, hlisted, rfl⟩ := hqueued
  have hwhole : Listed s ([] ++ xs) := hlisted
  obtain ⟨s', xs', ev, hloop, -, hwalked⟩ := checkLoop_walked (t := t) hcode hwhole hrest
    (Nat.lt_succ_of_le hlisted.linked.length_le)
  rw [← hlisted.linked.head] at hloop
  have hnodup := hlisted.vals_nodup
  have hpass := hwalked.pass
  refine ⟨s', vals xs', ev, hloop, hwalked.log, ⟨xs', hwalked.listed, rfl⟩, ?_, ?_,
    fun v hv ↦ hpass.not_ran hv, fun v hadded hv ↦ ?_, fun v ↦ ?_⟩
  · intro pre v post hvs hdue hnot
    rw [hvs] at hpass hnodup
    exact hpass.once hnodup hdue hnot
  · intro pre v post hvs hnot
    rw [hvs] at hpass hnodup
    exact hpass.never hnodup hnot
  · obtain ⟨x, hx, rfl⟩ := List.mem_map.mp hv
    exact absurd (hwalked.added _ hadded) (Nat.not_le.mpr (hlisted.serial_lt x hx))
  · rw [hwalked.mem, vals_nil, or_iff_right List.not_mem_nil]

/-- A routine that adds a timeout, where memory is free at 7, and deletes the one at 1 if that is not its
own. -/
def rearm (_ : Unit) (a : ℕ) (s : State Unit Unit Unit) : Option (State Unit Unit Unit) :=
  let s := if (s.timeouts.heap 7).isNone then addTimeout 7 10 0 () false () s else s
  if a = 1 then some s else delTimeout 1 s

theorem editsOnly_rearm : EditsOnly (fun _ : Unit ↦ True) rearm := by
  intro s a v xs ys hlisted _
  have hdelete {s' : State Unit Unit Unit} {zs : List (ℕ × Timeout Unit Unit)} (h : Listed s' zs) :
      ∃ s₁, (if a = 1 then some s' else delTimeout 1 s') = some s₁ ∧ Edits a s' s₁ := by
    split_ifs with hself
    · exact ⟨s', rfl, .done s'⟩
    · have hne : 1 ≠ a := fun h ↦ hself h.symm
      rcases delTimeout_listed h 1 with ⟨-, hdel⟩ | ⟨_, _, _, _, hdel⟩
      · exact ⟨s', hdel, .done s'⟩
      · exact ⟨_, hdel, .del hne hdel (.done _)⟩
  by_cases hfree : (s.timeouts.heap 7).isNone
  · have hnone := Option.isNone_iff_eq_none.mp hfree
    obtain ⟨s₁, hs₁, hedits⟩ := hdelete (hlisted.addTimeout hnone 10 0 () false ())
    exact ⟨s₁, by rw [rearm, if_pos hfree, hs₁], .add hnone 10 0 () false () hedits, trivial⟩
  · obtain ⟨s₁, hs₁, hedits⟩ := hdelete hlisted
    exact ⟨s₁, by rw [rearm, if_neg hfree, hs₁], hedits, trivial⟩

/-- Two timeouts, at 1 and 0. -/
def twoTimeouts : State Unit Unit Unit :=
  addTimeout 0 0 0 () false () (addTimeout 1 0 0 () false () ⟨.empty, (), []⟩)

theorem checkTimeouts_checked_rearm :
    ∃ s' vs' ev, checkTimeouts rearm 10 twoTimeouts = some s' ∧
      Checked 10 twoTimeouts [⟨0, 0, false, (), (), 1⟩, ⟨0, 0, false, (), (), 0⟩] s' vs' ev := by
  have hempty : Listed (⟨.empty, (), []⟩ : State Unit Unit Unit) [] :=
    ⟨linked_empty, fun _ h ↦ absurd h List.not_mem_nil, List.nodup_nil⟩
  have hone := hempty.addTimeout (a := 1) rfl 0 0 () false ()
  have htwo := hone.addTimeout (a := 0) rfl 0 0 () false ()
  exact checkTimeouts_checked editsOnly_rearm 10 ⟨_, htwo, rfl⟩ trivial

end BlitzedServices.Timeouts
