import BlitzedServices.Lib.Runs
import BlitzedServices.Timeout.CheckTimeouts

/-!
# The collide and release timeouts

NickServ keeps a list of its own timeouts beside the queue. New entries are pushed at its head without a
back pointer from the old one, so that an entry is always taken out as if it were the head, and all newer
entries get lost with it. `tracked_iff` says for which runs the two lists agree.
-/

set_option autoImplicit false
set_option relaxedAutoImplicit false

namespace BlitzedServices.NickServ.NsTimeouts

open Lib Timeouts

/-! ### The private list -/

def TO_COLLIDE : ℤ := 0

def TO_RELEASE : ℤ := 1

/-- The routines of the timeouts. -/
inductive Routine where
  | timeoutCollide
  | timeoutRelease
  deriving DecidableEq

/-- The type of the timeouts with a routine. -/
def Routine.type : Routine → ℤ
  | .timeoutCollide => TO_COLLIDE
  | .timeoutRelease => TO_RELEASE

/-- An entry of `my_timeouts`. -/
structure MyTimeout where
  nickId : ℕ
  timeout : ℕ
  type : ℤ
  deriving DecidableEq

/-- The queue and the private list. -/
abbrev State := Timeouts.State Routine ℕ (LinkedList MyTimeout)

/-- Whether an entry is for a nick and of a type. -/
def MyTimeout.isFor (nickId : ℕ) (type : ℤ) (t : MyTimeout) : Bool :=
  decide (t.nickId = nickId ∧ t.type = type)

/-- The loop of `rem_ns_timeout`. -/
def remLoop (nickId : ℕ) (type : ℤ) : ℕ → Option ℕ → LinkedList MyTimeout →
    Option (LinkedList MyTimeout)
  | 0, _, _ => none
  | _ + 1, none, l => some l
  | fuel + 1, some a, l => do
    let node ← l.heap a
    if node.val.isFor nickId type then
      remLoop nickId type fuel node.next (l.unlink a)
    else
      remLoop nickId type fuel node.next l

/-- `rem_ns_timeout`. -/
def remNsTimeout (nickId : ℕ) (type : ℤ) (s : State) : Option State := do
  let mine ← remLoop nickId type (s.rest.nodes + 1) s.rest.head s.rest
  some { s with rest := mine }

/-- What `timeout_collide` and `timeout_release` do to the lists. `collide` and `release` leave them alone
when they are called from a timeout. -/
def timeoutFired (type : ℤ) (a : ℕ) (s : State) : Option State := do
  let node ← s.timeouts.heap a
  remNsTimeout node.val.data type s

def timeoutCollide : ℕ → State → Option State := timeoutFired TO_COLLIDE

def timeoutRelease : ℕ → State → Option State := timeoutFired TO_RELEASE

/-- The routine of a timeout is called. -/
def fire : Routine → ℕ → State → Option State
  | .timeoutCollide => timeoutCollide
  | .timeoutRelease => timeoutRelease

/-- `add_ns_timeout`. The memory for the timeout is at `a`, and that for the entry at `b`. -/
def addNsTimeout (a b nickId : ℕ) (type now delay : ℤ) (s : State) : State :=
  let add (routine : Routine) : State :=
    let s := addTimeout a now delay routine false nickId s
    { s with rest := s.rest.pushForward b ⟨nickId, a, type⟩ }
  if type = TO_COLLIDE then add .timeoutCollide
  else if type = TO_RELEASE then add .timeoutRelease
  else s

/-- The loop of `del_ns_timeout`. -/
def delLoop (nickId : ℕ) (type : ℤ) : ℕ → Option ℕ → State → Option State
  | 0, _, _ => none
  | _ + 1, none, s => some s
  | fuel + 1, some a, s => do
    let node ← s.rest.heap a
    if node.val.isFor nickId type then
      let s := { s with rest := s.rest.unlink a }
      -- its data is read to be freed
      let _ ← s.timeouts.heap node.val.timeout
      let s ← delTimeout node.val.timeout s
      delLoop nickId type fuel node.next s
    else
      delLoop nickId type fuel node.next s

/-- `del_ns_timeout`. -/
def delNsTimeout (nickId : ℕ) (type : ℤ) (s : State) : Option State :=
  delLoop nickId type (s.rest.nodes + 1) s.rest.head s

/-! ### Runs -/

/-- The calls, and the timeouts that are due at a time firing. -/
inductive Call where
  | add (a b nickId : ℕ) (type now delay : ℤ)
  | del (nickId : ℕ) (type : ℤ)
  | rem (nickId : ℕ) (type : ℤ)
  | check (t : ℤ)

/-- What a call does, if it returns. -/
def call (s : State) : Call → Option State
  | .add a b nickId type now delay => some (addNsTimeout a b nickId type now delay s)
  | .del nickId type => delNsTimeout nickId type s
  | .rem nickId type => remNsTimeout nickId type s
  | .check t => checkTimeouts fire t s

/-- The state after a call. -/
def step (s : State) (c : Call) : State := (call s c).getD s

/-- No timeouts. -/
def empty : State := ⟨.empty, .empty, []⟩

/-- The state after a run. -/
def run (calls : List Call) : State := calls.foldl step empty

/-- Memory is free when it is allocated. -/
def Free (s : State) : Call → Prop
  | .add a b _ _ _ _ => s.timeouts.heap a = none ∧ s.rest.heap b = none
  | _ => True

/-- The timeouts in the queue, with their addresses. -/
def pending (s : State) : List (ℕ × Timeout Routine ℕ) := s.timeouts.toList

/-- The entries of the private list. -/
def mine (s : State) : List MyTimeout := s.rest.toList.map Prod.snd

/-- The entry of a timeout. -/
def entry (x : ℕ × Timeout Routine ℕ) : MyTimeout := ⟨x.2.data, x.1, x.2.code.type⟩

/-- The private list has exactly one entry for each timeout in the queue, and no others. -/
def Tracked (s : State) : Prop := (mine s).Perm ((pending s).map entry)

/-- Exactly the timeouts of a type for a nick are gone. -/
def DeletesExactly (nickId : ℕ) (type : ℤ) (s s' : State) : Prop :=
  ∀ x, x ∈ pending s' ↔ x ∈ pending s ∧ (entry x).isFor nickId type = false

/-- Whether a call takes the entry of a timeout out of the private list by itself. A timeout that fires
takes out the entries for its nick and type. -/
def takesOut (s : State) (x : ℕ × Timeout Routine ℕ) : Call → Bool
  | .add _ _ _ _ _ _ => false
  | .del nickId type => (entry x).isFor nickId type
  | .rem nickId type => (entry x).isFor nickId type
  | .check t => (pending s).any fun y ↦
      decide (y.2.timeout ≤ t) && (entry x).isFor y.2.data y.2.code.type

/-- Whether a call takes a timeout out of the queue. -/
def ends (x : ℕ × Timeout Routine ℕ) : Call → Bool
  | .add _ _ _ _ _ _ => false
  | .del nickId type => (entry x).isFor nickId type
  | .rem _ _ => false
  | .check t => decide (x.2.timeout ≤ t)

/-- Every timeout from the newest to the last whose entry is taken out goes from the queue. -/
def Keeps (s : State) (c : Call) : Prop :=
  ∀ x ∈ (pending s).rdropWhile fun x ↦ !takesOut s x c, ends x c = true

/-! ### The lists -/

/-- The queue holds timeouts that do not repeat, and the private list some of their entries, in the same
order. -/
structure Coupled (s : State) (xs : List (ℕ × Timeout Routine ℕ)) (ms : List (ℕ × MyTimeout)) :
    Prop where
  listed : Listed s xs
  linked : Linked (fun _ ↦ none) s.rest ms
  repeats : ∀ x ∈ xs, x.2.repeats = false
  sublist : (ms.map Prod.snd).Sublist (xs.map entry)

section Coupled

variable {s : State} {xs ys : List (ℕ × Timeout Routine ℕ)} {ms pre post : List (ℕ × MyTimeout)}
  {nickId : ℕ} {type : ℤ}

theorem Coupled.pending_eq (h : Coupled s xs ms) : pending s = xs := h.listed.linked.toList_eq

theorem Coupled.mine_eq (h : Coupled s xs ms) : mine s = ms.map Prod.snd :=
  congrArg (List.map Prod.snd) h.linked.toList_eq

theorem entries_nodup (h : Listed s xs) : (xs.map entry).Nodup := by
  refine List.Nodup.of_map MyTimeout.timeout ?_
  rw [List.map_map]
  exact h.linked.nodup

/-- Where the private list has one entry for each timeout, it has the entries of the queue. -/
theorem Coupled.tracked_iff_length (h : Coupled s xs ms) : Tracked s ↔ ms.length = xs.length := by
  rw [Tracked, h.mine_eq, h.pending_eq]
  constructor
  · intro hperm
    have hlength := hperm.length_eq
    rwa [List.length_map, List.length_map] at hlength
  · intro hlength
    rw [h.sublist.eq_of_length (by rw [List.length_map, List.length_map, hlength])]

/-- A sublist of distinct elements without one of them. -/
theorem sublist_erase {α : Type} [DecidableEq α] {l l₁ l₂ : List α} {m : α}
    (h : l.Sublist (l₁ ++ m :: l₂)) (hnodup : (l₁ ++ m :: l₂).Nodup) :
    (l.erase m).Sublist (l₁ ++ l₂) := by
  have hm : m ∉ l₁ := fun hmem ↦
    (List.nodup_append.mp hnodup).2.2 m hmem m List.mem_cons_self rfl
  have herase := h.erase m
  rwa [List.erase_append_right _ hm, List.erase_cons_head] at herase

/-- The loop of `rem_ns_timeout` leaves what comes after the last match. -/
theorem remLoop_eq (nickId : ℕ) (type : ℤ) {l : LinkedList MyTimeout} {fuel : ℕ}
    (h : Linked (fun _ ↦ none) l (pre ++ post))
    (hpre : ∀ m ∈ pre, (!m.2.isFor nickId type) = true) (hfuel : post.length < fuel) :
    ∃ l', remLoop nickId type fuel (first post none) l = some l' ∧
      Linked (fun _ ↦ none) l' ((pre ++ post).rtakeWhile fun m ↦ !m.2.isFor nickId type) := by
  induction fuel generalizing l pre post with
  | zero => exact absurd hfuel (Nat.not_lt_zero _)
  | succ fuel ih =>
    cases post with
    | nil =>
      rw [List.append_nil] at h ⊢
      refine ⟨l, rfl, ?_⟩
      rwa [List.rtakeWhile_eq_self_iff.mpr hpre]
    | cons m post =>
      have hnext : post.length < fuel := Nat.lt_of_succ_lt_succ hfuel
      rw [first, remLoop, h.lookup]
      simp only [bind, Option.bind_some]
      by_cases hmatch : m.2.isFor nickId type = true
      · rw [if_pos hmatch, rtakeWhile_append_cons _ _ (by simp [hmatch])]
        have hrest : Linked (fun _ ↦ none) (l.unlink m.1) ([] ++ post) := h.unlinkForward
        exact ih hrest (fun _ hm ↦ absurd hm List.not_mem_nil) hnext
      · rw [if_neg hmatch]
        have hshift : Linked (fun _ ↦ none) l ((pre ++ [m]) ++ post) := by
          rwa [List.append_assoc, List.singleton_append]
        have hall : ∀ m' ∈ pre ++ [m], (!m'.2.isFor nickId type) = true :=
          List.forall_mem_append.mpr ⟨hpre, List.forall_mem_singleton.mpr (by simp [hmatch])⟩
        obtain ⟨l', hl', hlinked⟩ := ih hshift hall hnext
        rw [List.append_assoc, List.singleton_append] at hlinked
        exact ⟨l', hl', hlinked⟩

/-- The entries after the last one for a nick and of a type are left. -/
theorem remNsTimeout_eq (h : Linked (fun _ ↦ none) s.rest ms) (nickId : ℕ) (type : ℤ) :
    ∃ l', remNsTimeout nickId type s = some { s with rest := l' } ∧
      Linked (fun _ ↦ none) l' (ms.rtakeWhile fun m ↦ !m.2.isFor nickId type) := by
  have hwhole : Linked (fun _ ↦ none) s.rest ([] ++ ms) := h
  obtain ⟨l', hl', hlinked⟩ := remLoop_eq nickId type hwhole
    (fun _ hm ↦ absurd hm List.not_mem_nil) (Nat.lt_succ_of_le h.length_le)
  refine ⟨l', ?_, hlinked⟩
  rw [remNsTimeout, h.head, hl']
  rfl

/-- The loop of `del_ns_timeout` leaves what comes after the last match, and the timeouts without a match
that was found. -/
theorem delLoop_eq {fuel : ℕ} (h : Coupled s xs (pre ++ post))
    (hpre : ∀ m ∈ pre, (!m.2.isFor nickId type) = true) (hfuel : post.length < fuel) :
    ∃ s', delLoop nickId type fuel (first post none) s = some s' ∧
      Coupled s' (xs.filter fun x ↦
        !((entry x).isFor nickId type && decide (entry x ∈ post.map Prod.snd)))
        ((pre ++ post).rtakeWhile fun m ↦ !m.2.isFor nickId type) := by
  induction fuel generalizing s xs pre post with
  | zero => exact absurd hfuel (Nat.not_lt_zero _)
  | succ fuel ih =>
    cases post with
    | nil =>
      refine ⟨s, rfl, ?_⟩
      rw [List.append_nil] at h ⊢
      rw [List.rtakeWhile_eq_self_iff.mpr hpre, List.filter_eq_self.mpr (by simp)]
      exact h
    | cons m post =>
      have hnext : post.length < fuel := Nat.lt_of_succ_lt_succ hfuel
      rw [first, delLoop, h.linked.lookup]
      simp only [bind, Option.bind_some]
      by_cases hmatch : m.2.isFor nickId type = true
      · rw [if_pos hmatch, rtakeWhile_append_cons _ _ (by simp [hmatch])]
        have hpost : (m.2 :: post.map Prod.snd).Sublist (xs.map entry) :=
          (List.sublist_append_right (pre.map Prod.snd) _).trans
            (by simpa only [List.map_append, List.map_cons] using h.sublist)
        obtain ⟨⟨a, v⟩, hx, hentry⟩ := List.mem_map.mp (hpost.subset List.mem_cons_self)
        obtain ⟨l₁, l₂, rfl⟩ := List.append_of_mem hx
        have hlisted : Listed { s with rest := s.rest.unlink m.1 } (l₁ ++ (a, v) :: l₂) :=
          ⟨h.listed.linked, h.listed.serial_lt, h.listed.nodup⟩
        have haddr : m.2.timeout = a := by rw [← hentry]; rfl
        have hnodup := entries_nodup h.listed
        rw [haddr, hlisted.linked.lookup, delTimeout_mem hlisted]
        simp only [Option.bind_some]
        have hunlink := hlisted.unlink
        have hcoupled : Coupled
            { s with
              timeouts := s.timeouts.unlink a
              rest := s.rest.unlink m.1
              log := s.log ++ [.deleted v] } (l₁ ++ l₂) ([] ++ post) := by
          refine ⟨⟨hunlink.linked, hunlink.serial_lt, hunlink.nodup⟩, h.linked.unlinkForward,
            fun x hx ↦ h.repeats x ?_, ?_⟩
          · exact ((List.Sublist.refl l₁).append (List.sublist_cons_self _ _)).subset hx
          · rw [List.map_append, List.map_cons, hentry] at hpost hnodup
            have herase := sublist_erase hpost hnodup
            rwa [List.erase_cons_head, ← List.map_append] at herase
        obtain ⟨s', hs', hfinal⟩ := ih hcoupled (fun _ hm ↦ absurd hm List.not_mem_nil) hnext
        refine ⟨s', hs', ?_⟩
        have hfilter : (l₁ ++ (a, v) :: l₂).filter (fun x ↦ !((entry x).isFor nickId type &&
            decide (entry x ∈ (m :: post).map Prod.snd))) =
            (l₁ ++ l₂).filter fun x ↦
              !((entry x).isFor nickId type && decide (entry x ∈ post.map Prod.snd)) := by
          rw [List.filter_append, List.filter_cons_of_neg (by simp [hentry, hmatch]),
            ← List.filter_append]
          refine List.filter_congr fun y hy ↦ ?_
          rw [List.map_append, List.map_cons, List.nodup_middle, List.nodup_cons,
            ← List.map_append, hentry] at hnodup
          have hne : entry y ≠ m.2 := ne_of_mem_of_not_mem (List.mem_map_of_mem hy) hnodup.1
          simp only [List.map_cons, List.mem_cons, hne, false_or]
        rw [hfilter]
        exact hfinal
      · rw [if_neg hmatch]
        have hshift : Coupled s xs ((pre ++ [m]) ++ post) := by
          rwa [List.append_assoc, List.singleton_append]
        have hall : ∀ m' ∈ pre ++ [m], (!m'.2.isFor nickId type) = true :=
          List.forall_mem_append.mpr ⟨hpre, List.forall_mem_singleton.mpr (by simp [hmatch])⟩
        obtain ⟨s', hs', hcoupled⟩ := ih hshift hall hnext
        refine ⟨s', hs', ?_⟩
        rw [List.append_assoc, List.singleton_append] at hcoupled
        have hfilter : (fun x ↦ !((entry x).isFor nickId type &&
            decide (entry x ∈ (m :: post).map Prod.snd))) =
            fun x ↦ !((entry x).isFor nickId type && decide (entry x ∈ post.map Prod.snd)) := by
          funext x
          by_cases hx : entry x = m.2
          · rw [hx, Bool.eq_false_iff.mpr hmatch]
            rfl
          · simp only [List.map_cons, List.mem_cons, hx, false_or]
        rw [hfilter]
        exact hcoupled

theorem delNsTimeout_eq (h : Coupled s xs ms) (nickId : ℕ) (type : ℤ) :
    ∃ s', delNsTimeout nickId type s = some s' ∧
      Coupled s' (xs.filter fun x ↦
        !((entry x).isFor nickId type && decide (entry x ∈ ms.map Prod.snd)))
        (ms.rtakeWhile fun m ↦ !m.2.isFor nickId type) := by
  have hwhole : Coupled s xs ([] ++ ms) := h
  rw [delNsTimeout, h.linked.head]
  exact delLoop_eq hwhole (fun _ hm ↦ absurd hm List.not_mem_nil)
    (Nat.lt_succ_of_le h.linked.length_le)

theorem fire_eq (routine : Routine) : fire routine = timeoutFired routine.type := by
  cases routine <;> rfl

/-- The walk takes out what each timeout that fires takes out. -/
theorem checkLoop_eq {fuel : ℕ} {t : ℤ} (h : Coupled s (xs ++ ys) ms) (hfuel : ys.length < fuel) :
    ∃ s', checkLoop fire t fuel (first ys none) s = some s' ∧
      Coupled s' (xs ++ ys.filter fun x ↦ !decide (x.2.timeout ≤ t))
        (ms.rtakeWhile fun m ↦ !ys.any fun y ↦
          decide (y.2.timeout ≤ t) && m.2.isFor y.2.data y.2.code.type) := by
  induction fuel generalizing s xs ys ms with
  | zero => exact absurd hfuel (Nat.not_lt_zero _)
  | succ fuel ih =>
    cases ys with
    | nil =>
      refine ⟨s, rfl, ?_⟩
      simp only [List.any_nil, Bool.not_false]
      rwa [List.rtakeWhile_eq_self_iff.mpr fun _ _ ↦ rfl]
    | cons y ys =>
      obtain ⟨a, v⟩ := y
      have hnext : ys.length < fuel := Nat.lt_of_succ_lt_succ hfuel
      rw [first, checkLoop, h.listed.linked.lookup]
      simp only [bind, Option.bind_some]
      by_cases hdue : t < v.timeout
      · have hlate : ¬ v.timeout ≤ t := not_le.mpr hdue
        have hshift : Coupled s ((xs ++ [(a, v)]) ++ ys) ms := by
          rwa [List.append_assoc, List.singleton_append]
        obtain ⟨s', hs', hcoupled⟩ := ih hshift hnext
        refine ⟨s', by rw [if_pos hdue, hs'], ?_⟩
        rw [List.filter_cons_of_pos (by simp [hlate])]
        simpa [hlate] using hcoupled
      · have hlate : v.timeout ≤ t := not_lt.mp hdue
        obtain ⟨l', hrem, hlinked⟩ := remNsTimeout_eq
          (s := { s with log := s.log ++ [.ran v] }) h.linked v.data v.code.type
        have hfire : fire v.code a { s with log := s.log ++ [.ran v] } =
            some { s with rest := l', log := s.log ++ [.ran v] } := by
          rw [fire_eq, timeoutFired, h.listed.linked.lookup]
          exact hrem
        have hrepeats : ¬ v.repeats = true := by
          rw [h.repeats (a, v) (by simp)]
          exact Bool.false_ne_true
        rw [if_neg hdue, hfire]
        simp only [Option.bind_some, h.listed.linked.lookup, if_neg hrepeats]
        have hunlink := h.listed.unlink
        have hcoupled : Coupled
            { s with
              timeouts := s.timeouts.unlink a
              rest := l'
              log := s.log ++ [.ran v] } (xs ++ ys)
            (ms.rtakeWhile fun m ↦ !m.2.isFor v.data v.code.type) := by
          refine ⟨⟨hunlink.linked, hunlink.serial_lt, hunlink.nodup⟩, hlinked,
            fun x hx ↦ h.repeats x ?_, ?_⟩
          · exact ((List.Sublist.refl xs).append (List.sublist_cons_self _ _)).subset hx
          · have hsuffix := (List.rtakeWhile_suffix (fun m ↦ !m.2.isFor v.data v.code.type) ms)
            have hsub := (hsuffix.sublist.map Prod.snd).trans h.sublist
            have hnodup := entries_nodup h.listed
            rw [List.map_append, List.map_cons] at hsub hnodup
            have herase := sublist_erase hsub hnodup
            rwa [List.erase_of_not_mem, ← List.map_append] at herase
            -- its own entry is for its nick and type
            intro hmem
            obtain ⟨m, hm, hentry⟩ := List.mem_map.mp hmem
            have hkept := List.mem_rtakeWhile_imp hm
            rw [hentry, Bool.not_eq_true', MyTimeout.isFor, entry, decide_eq_false_iff_not] at hkept
            exact hkept ⟨rfl, rfl⟩
        obtain ⟨s', hs', hfinal⟩ := ih hcoupled hnext
        refine ⟨s', hs', ?_⟩
        rw [List.filter_cons_of_neg (by simp [hlate])]
        rw [rtakeWhile_rtakeWhile] at hfinal
        simpa [hlate, Bool.and_comm] using hfinal

theorem checkTimeouts_eq (h : Coupled s xs ms) (t : ℤ) :
    ∃ s', checkTimeouts fire t s = some s' ∧
      Coupled s' (xs.filter fun x ↦ !decide (x.2.timeout ≤ t))
        (ms.rtakeWhile fun m ↦ !xs.any fun y ↦
          decide (y.2.timeout ≤ t) && m.2.isFor y.2.data y.2.code.type) := by
  have hwhole : Coupled s ([] ++ xs) ms := h
  rw [checkTimeouts, h.listed.linked.head]
  exact checkLoop_eq hwhole (Nat.lt_succ_of_le h.listed.linked.length_le)

theorem coupled_push {a b : ℕ} (h : Coupled s xs ms) (ha : s.timeouts.heap a = none)
    (hb : s.rest.heap b = none) (nickId : ℕ) (now delay : ℤ) (routine : Routine) :
    let s' := addTimeout a now delay routine false nickId s
    Coupled { s' with rest := s'.rest.pushForward b ⟨nickId, a, routine.type⟩ }
      ((a, ⟨now, now + delay, false, routine, nickId, s.timeouts.nodes⟩) :: xs)
      ((b, ⟨nickId, a, routine.type⟩) :: ms) := by
  have hadded := h.listed.addTimeout ha now delay routine false nickId
  exact ⟨⟨hadded.linked, hadded.serial_lt, hadded.nodup⟩, h.linked.pushForward hb _,
    List.forall_mem_cons.mpr ⟨rfl, h.repeats⟩, h.sublist.cons_cons _⟩

/-- Nothing is done for an unknown type. -/
theorem addNsTimeout_eq {a b : ℕ} (h : Coupled s xs ms) (ha : s.timeouts.heap a = none)
    (hb : s.rest.heap b = none) (nickId : ℕ) (type now delay : ℤ) :
    ∃ xs' ms', Coupled (addNsTimeout a b nickId type now delay s) xs' ms' ∧
      (ms.length = xs.length → ms'.length = xs'.length) := by
  rw [addNsTimeout]
  split_ifs with hcollide hrelease
  · subst hcollide
    exact ⟨_, _, coupled_push h ha hb nickId now delay .timeoutCollide, congrArg (· + 1)⟩
  · subst hrelease
    exact ⟨_, _, coupled_push h ha hb nickId now delay .timeoutRelease, congrArg (· + 1)⟩
  · exact ⟨xs, ms, h, id⟩

/-- Where the private list has the entries of the queue, as many of them are left as timeouts iff only
such entries are lost. -/
theorem length_eq_iff (hmine : ms.map Prod.snd = xs.map entry) {p : MyTimeout → Bool}
    {q : ℕ × Timeout Routine ℕ → Bool} (hpq : ∀ x ∈ xs, q x = true → p (entry x) = true) :
    (ms.rtakeWhile fun m ↦ !p m.2).length = (xs.filter fun x ↦ !q x).length ↔
      ∀ x ∈ xs.rdropWhile fun x ↦ !p (entry x), q x = true := by
  have hlength : (ms.rtakeWhile fun m ↦ !p m.2).length =
      (xs.rtakeWhile fun x ↦ !p (entry x)).length := by
    rw [← List.length_map Prod.snd, ← rtakeWhile_map (p := fun m ↦ !p m) Prod.snd, hmine,
      rtakeWhile_map, List.length_map]
  rw [hlength, length_rtakeWhile_eq_iff]
  · simp only [Bool.not_eq_true', Bool.not_eq_false]
  · intro x hx hp
    rw [Bool.not_eq_true', Bool.eq_false_iff] at hp ⊢
    exact fun hq ↦ hp (hpq x hx hq)

/-- Every call returns, and keeps an entry for each timeout exactly under the condition. -/
theorem coupled_call (h : Coupled s xs ms) {c : Call} (hfree : Free s c) :
    ∃ s' xs' ms', call s c = some s' ∧ Coupled s' xs' ms' ∧
      (ms.length = xs.length → (ms'.length = xs'.length ↔ Keeps s c)) := by
  have hmine (hlength : ms.length = xs.length) : ms.map Prod.snd = xs.map entry :=
    h.sublist.eq_of_length (by rw [List.length_map, List.length_map, hlength])
  rw [Keeps, h.pending_eq]
  cases c with
  | add a b nickId type now delay =>
    obtain ⟨xs', ms', hcoupled, hlength⟩ := addNsTimeout_eq h hfree.1 hfree.2 nickId type now delay
    have hnone : xs.rdropWhile (fun x ↦ !takesOut s x (.add a b nickId type now delay)) = [] :=
      List.rdropWhile_eq_nil_iff.mpr fun _ _ ↦ rfl
    rw [hnone]
    exact ⟨_, xs', ms', rfl, hcoupled, fun hequal ↦ iff_of_true (hlength hequal)
      fun _ hx ↦ absurd hx List.not_mem_nil⟩
  | del nickId type =>
    obtain ⟨s', hcall, hcoupled⟩ := delNsTimeout_eq h nickId type
    refine ⟨s', _, _, hcall, hcoupled, fun hequal ↦ ?_⟩
    have hfilter : (xs.filter fun x ↦
        !((entry x).isFor nickId type && decide (entry x ∈ ms.map Prod.snd))) =
        xs.filter fun x ↦ !(entry x).isFor nickId type :=
      List.filter_congr fun x hx ↦ by
        rw [hmine hequal, decide_eq_true (List.mem_map_of_mem hx), Bool.and_true]
    rw [hfilter]
    exact length_eq_iff (hmine hequal) (p := fun m ↦ m.isFor nickId type) fun _ _ ↦ id
  | rem nickId type =>
    obtain ⟨l', hcall, hlinked⟩ := remNsTimeout_eq h.linked nickId type
    refine ⟨_, xs, _, hcall, ⟨⟨h.listed.linked, h.listed.serial_lt, h.listed.nodup⟩, hlinked,
      h.repeats, ?_⟩, fun hequal ↦ ?_⟩
    · exact ((List.rtakeWhile_suffix _ ms).sublist.map Prod.snd).trans h.sublist
    · have hiff := length_eq_iff (hmine hequal) (p := fun m ↦ m.isFor nickId type)
        (q := fun _ ↦ false) fun _ _ hfalse ↦ absurd hfalse Bool.false_ne_true
      have hall : (xs.filter fun _ ↦ !false) = xs := List.filter_eq_self.mpr fun _ _ ↦ rfl
      rwa [hall] at hiff
  | check t =>
    obtain ⟨s', hcall, hcoupled⟩ := checkTimeouts_eq h t
    refine ⟨s', _, _, hcall, hcoupled, fun hequal ↦ ?_⟩
    have hiff := length_eq_iff (hmine hequal) (q := fun x ↦ decide (x.2.timeout ≤ t))
      (p := fun m ↦ xs.any fun y ↦ decide (y.2.timeout ≤ t) && m.isFor y.2.data y.2.code.type)
      fun x hx hdue ↦ List.any_eq_true.mpr ⟨x, hx, by simp [hdue, MyTimeout.isFor, entry]⟩
    rw [hiff]
    simp only [takesOut, h.pending_eq, ends]

end Coupled

/-! ### The lists agree -/

/-- The lists are as the calls leave them. -/
def Intact (s : State) : Prop := ∃ xs ms, Coupled s xs ms

theorem intact_empty : Intact empty :=
  ⟨[], [], ⟨linked_empty, fun _ h ↦ absurd h List.not_mem_nil, List.nodup_nil⟩, linked_empty,
    fun _ h ↦ absurd h List.not_mem_nil, .refl _⟩

theorem intact_step {s : State} {c : Call} (h : Intact s) (hfree : Free s c) : Intact (step s c) := by
  obtain ⟨xs, ms, hcoupled⟩ := h
  obtain ⟨s', xs', ms', hcall, hcoupled', -⟩ := coupled_call hcoupled hfree
  rw [step, hcall]
  exact ⟨xs', ms', hcoupled'⟩

theorem tracked_step {s : State} {c : Call} (h : Intact s) (htracked : Tracked s)
    (hfree : Free s c) : Tracked (step s c) ↔ Keeps s c := by
  obtain ⟨xs, ms, hcoupled⟩ := h
  obtain ⟨s', xs', ms', hcall, hcoupled', hiff⟩ := coupled_call hcoupled hfree
  rw [step, hcall, Option.getD_some, hcoupled'.tracked_iff_length]
  exact hiff (hcoupled.tracked_iff_length.mp htracked)

theorem deletesExactly_step {s : State} (h : Intact s) (htracked : Tracked s) (nickId : ℕ)
    (type : ℤ) : DeletesExactly nickId type s (step s (.del nickId type)) := by
  obtain ⟨xs, ms, hcoupled⟩ := h
  have hmine := hcoupled.sublist.eq_of_length (by
    rw [List.length_map, List.length_map, hcoupled.tracked_iff_length.mp htracked])
  obtain ⟨s', hcall, hcoupled'⟩ := delNsTimeout_eq hcoupled nickId type
  intro x
  rw [step, call, hcall, Option.getD_some, hcoupled'.pending_eq, hcoupled.pending_eq,
    List.mem_filter, hmine]
  refine and_congr_right fun hx ↦ ?_
  rw [decide_eq_true (List.mem_map_of_mem hx), Bool.and_true, Bool.not_eq_true']

/-- For every run of calls and firing timeouts, the private list has exactly one entry for each timeout in
the queue in every state, and each `del_ns_timeout` deletes exactly the timeouts of its type for its nick,
iff at each step every timeout from the newest to the last whose entry is taken out goes from the queue. -/
theorem tracked_iff {calls : List Call} (hfree : Along step Free empty calls) :
    ((∀ l, l <+: calls → Tracked (run l)) ∧
      ∀ l nickId type, l ++ [.del nickId type] <+: calls →
        DeletesExactly nickId type (run l) (run (l ++ [.del nickId type]))) ↔
      Along step Keeps empty calls := by
  have hintact {l : List Call} (hl : l <+: calls) : Intact (run l) := by
    obtain ⟨rest, rfl⟩ := hl
    exact Along.invariant (fun _ _ h hfree ↦ intact_step h hfree) intact_empty
      ((along_append empty l rest).mp hfree).1
  have htracked : (∀ l, l <+: calls → Intact (run l) ∧ Tracked (run l)) ↔
      Along step Keeps empty calls := by
    refine hfree.iff_prefixes (p := fun s ↦ Intact s ∧ Tracked s) (fun s c h hfree ↦ ?_)
      ⟨intact_empty, .refl _⟩
    rw [and_iff_right (intact_step h.1 hfree)]
    exact tracked_step h.1 h.2 hfree
  rw [← htracked]
  constructor
  · intro h l hl
    exact ⟨hintact hl, h.1 l hl⟩
  · intro h
    refine ⟨fun l hl ↦ (h l hl).2, fun l nickId type hl ↦ ?_⟩
    have hbefore := h l ((List.prefix_append l _).trans hl)
    have hrun : run (l ++ [.del nickId type]) = step (run l) (.del nickId type) := by
      rw [run, List.foldl_append]
      rfl
    rw [hrun]
    exact deletesExactly_step hbefore.1 hbefore.2 nickId type

/-- A timeout is set and deleted. -/
theorem tracked_iff_deleted :
    ((∀ l, l <+: [.add 0 0 1 TO_COLLIDE 0 60, .del 1 TO_COLLIDE] → Tracked (run l)) ∧
      ∀ l nickId type, l ++ [.del nickId type] <+:
          [.add 0 0 1 TO_COLLIDE 0 60, .del 1 TO_COLLIDE] →
        DeletesExactly nickId type (run l) (run (l ++ [.del nickId type]))) ↔
      Along step Keeps empty [.add 0 0 1 TO_COLLIDE 0 60, .del 1 TO_COLLIDE] :=
  tracked_iff ⟨⟨rfl, rfl⟩, trivial, trivial⟩

/-- The timeout of a second nick is not tracked after that of the first is deleted, and then it is not
deleted either. -/
theorem not_tracked_second :
    let calls : List Call := [.add 0 0 1 TO_COLLIDE 0 60, .add 1 1 2 TO_COLLIDE 10 60,
      .del 1 TO_COLLIDE]
    Along step Free empty (calls ++ [.del 2 TO_COLLIDE]) ∧ ¬ Tracked (run calls) ∧
      ¬ DeletesExactly 2 TO_COLLIDE (run calls) (run (calls ++ [.del 2 TO_COLLIDE])) := by
  refine ⟨⟨⟨rfl, rfl⟩, ⟨rfl, rfl⟩, trivial, trivial, trivial⟩, fun h ↦ ?_, fun h ↦ ?_⟩
  · have hlength := h.length_eq
    cases hlength
  · have hgone := (h (1, ⟨10, 70, false, .timeoutCollide, 2, 1⟩)).mp (List.mem_singleton.mpr rfl)
    exact absurd hgone.2 (by decide)

end BlitzedServices.NickServ.NsTimeouts
