import BlitzedServices.Users.UserTable
import BlitzedServices.Lib.Runs

/-!
# The counters of users and operators

`usercnt` and `opcnt` follow the user list: `new_user` and `delete_user` count, and the mode loop of `do_umode`
counts an operator for every `o` it reads. `counted_run` has the counters right in every state of a run exactly
if in every mode string the letters `o` add up to the change of the user's own mode.
-/

set_option autoImplicit false
set_option relaxedAutoImplicit false

namespace BlitzedServices.Users

open Lib Misc

/-- Invisible. -/
def UMODE_i : BitVec 32 := 0x00000002

/-- Server notices. -/
def UMODE_s : BitVec 32 := 0x00000004

/-- Wallops. -/
def UMODE_w : BitVec 32 := 0x00000008

/-- Globops. -/
def UMODE_g : BitVec 32 := 0x00000010

/-- Registered nick. -/
def UMODE_r : BitVec 32 := 0x00000080

/-! ### Messages -/

/-- `add ? (mode |= flag) : (mode &= ~flag)`. -/
def switchMode (flag : BitVec 32) (add : Bool) (mode : BitVec 32) : BitVec 32 :=
  if add then mode ||| flag else mode &&& ~~~flag

/-- One letter of the loop in `do_umode`, on the user's mode and `opcnt`. An `a` is only answered. -/
def umodeLetter (c : Char) (add : Bool) (mode : BitVec 32) (opcnt : ℤ) : BitVec 32 × ℤ :=
  match c with
  | 'R' => (switchMode UMODE_r add mode, opcnt)
  | 'i' => (switchMode UMODE_i add mode, opcnt)
  | 'w' => (switchMode UMODE_w add mode, opcnt)
  | 'g' => (switchMode UMODE_g add mode, opcnt)
  | 's' => (switchMode UMODE_s add mode, opcnt)
  | 'o' => (switchMode UMODE_o add mode, if add then opcnt + 1 else opcnt - 1)
  | _ => (mode, opcnt)

/-- The loop in `do_umode`. -/
def umodeLoop : CString → Bool → BitVec 32 → ℤ → BitVec 32 × ℤ
  | [], _, mode, opcnt => (mode, opcnt)
  | c :: s, add, mode, opcnt =>
    if c = '+' then umodeLoop s true mode opcnt
    else if c = '-' then umodeLoop s false mode opcnt
    else umodeLoop s add (umodeLetter c add mode opcnt).1 (umodeLetter c add mode opcnt).2

/-- The mode of a user is written. -/
def UserTable.setMode (a : ℕ) (f : BitVec 32 → BitVec 32) (s : UserTable) : UserTable :=
  { s with userlist := s.userlist.modifyVal (fun user ↦ { user with mode := f user.mode }) a }

/-- The end of `do_nick`: a user who is identified gets the mode for it. -/
def markIdentified (a : ℕ) (identified : Bool) (s : UserTable) : UserTable :=
  if identified then s.setMode a (· ||| UMODE_r) else s

/-- `do_nick`. A new user whose record comes to the address `a` is let in unless there is an AKILL or a
session limit against him. -/
def doNick (source : List Char) (nick : CString) (a : ℕ) (admitted identified : Bool) (s : UserTable) :
    Option UserTable :=
  if strAt source 0 = [] then
    if admitted then (newUser a nick s).map (markIdentified a identified) else some s
  else
    match finduser s source with
    | none => some s
    | some b => (changeUserNick b nick s).map (markIdentified b identified)

/-- `do_quit` of the source, and `do_kill` of the nick killed. -/
def doQuit (source : List Char) (s : UserTable) : Option UserTable :=
  match finduser s source with
  | none => some s
  | some a => deleteUser a s

/-- `do_umode`. -/
def doUmode (source : List Char) (nick modes : CString) (s : UserTable) : Option UserTable :=
  if stricmp (strAt source 0) nick ≠ 0 then some s
  else
    match finduser s source with
    | none => some s
    | some a =>
      (s.userlist.val a).map fun user ↦
        let result := umodeLoop modes true user.mode s.opcnt
        { s.setMode a (fun _ ↦ result.1) with opcnt := result.2 }

/-- The messages that come for users. -/
inductive UserMessage where
  | nick (source : List Char) (nick : CString) (a : ℕ) (admitted identified : Bool)
  | quit (source : List Char)
  | kill (nick : List Char)
  | umode (source : List Char) (nick modes : CString)

/-- One message; `none` when a record was allocated at an address in use. -/
def receive (s : UserTable) : UserMessage → Option UserTable
  | .nick source nick a admitted identified => doNick source nick a admitted identified s
  | .quit source => doQuit source s
  | .kill nick => doQuit nick s
  | .umode source nick modes => doUmode source nick modes s

/-! ### Counting -/

/-- Whether a mode is an operator's. -/
def isOper (mode : BitVec 32) : Bool := mode &&& UMODE_o ≠ 0

/-- The users in the table. -/
def UserTable.users (s : UserTable) : List (ℕ × TableUser) := s.userlist.toList 1024

/-- The counters say how many users and how many operators there are. -/
structure Counted (s : UserTable) : Prop where
  usercnt : s.usercnt = s.users.length
  opcnt : s.opcnt = s.users.countP fun x ↦ isOper x.2.mode

/-- The signs under which the loop of `do_umode` reads the letter `o`. -/
def operLetters : CString → Bool → List Bool
  | [], _ => []
  | c :: s, add =>
    if c = '+' then operLetters s true
    else if c = '-' then operLetters s false
    else if c = 'o' then add :: operLetters s add
    else operLetters s add

/-- The letters `o` of a mode string, one up for each that is added and one down for each that is removed, add
up to the change that the last of them makes. -/
def OperBalanced (mode : BitVec 32) (modes : CString) : Prop :=
  ((operLetters modes true).count true : ℤ) - (operLetters modes true).count false =
    ((operLetters modes true).getLast?.getD (isOper mode)).toInt - (isOper mode).toInt

instance (mode : BitVec 32) (modes : CString) : Decidable (OperBalanced mode modes) :=
  inferInstanceAs (Decidable (_ = _))

/-- A mode string that is taken is balanced. -/
def CountMeets (s : UserTable) : UserMessage → Prop
  | .umode source nick modes =>
    stricmp (strAt source 0) nick = 0 → ∀ a user, finduser s source = some a →
      s.userlist.val a = some user → OperBalanced user.mode modes
  | _ => True

/-! ### The mode loop -/

section Loop

variable {mode : BitVec 32} {flag : BitVec 32}

theorem isOper_eq (mode : BitVec 32) : isOper mode = mode[0] := by
  show decide (mode &&& 1#32 ≠ 0) = mode[0]
  rw [BitVec.and_one_eq_setWidth_ofBool_getLsbD, BitVec.getLsbD_eq_getElem (by decide)]
  cases mode[0] <;> decide

/-- The other flags leave the operator's alone. -/
theorem isOper_switchMode (add : Bool) (mode : BitVec 32) (hflag : flag[0] = false) :
    isOper (switchMode flag add mode) = isOper mode := by
  rw [isOper_eq, isOper_eq, switchMode]
  cases add <;> simp [hflag]

theorem isOper_switchMode_o (add : Bool) (mode : BitVec 32) :
    isOper (switchMode UMODE_o add mode) = add := by
  rw [isOper_eq, switchMode, UMODE_o]
  cases add <;> simp

/-- Only the letter `o` counts, and it sets or clears the operator's flag. -/
theorem umodeLetter_spec (c : Char) (add : Bool) (mode : BitVec 32) (opcnt : ℤ) :
    (c = 'o' ∧ isOper (umodeLetter c add mode opcnt).1 = add ∧
      (umodeLetter c add mode opcnt).2 = if add then opcnt + 1 else opcnt - 1) ∨
    (c ≠ 'o' ∧ isOper (umodeLetter c add mode opcnt).1 = isOper mode ∧
      (umodeLetter c add mode opcnt).2 = opcnt) := by
  unfold umodeLetter
  split
  · exact .inr ⟨by decide, isOper_switchMode add mode (by decide), rfl⟩
  · exact .inr ⟨by decide, isOper_switchMode add mode (by decide), rfl⟩
  · exact .inr ⟨by decide, isOper_switchMode add mode (by decide), rfl⟩
  · exact .inr ⟨by decide, isOper_switchMode add mode (by decide), rfl⟩
  · exact .inr ⟨by decide, isOper_switchMode add mode (by decide), rfl⟩
  · exact .inl ⟨rfl, isOper_switchMode_o add mode, rfl⟩
  · rename_i ho
    exact .inr ⟨ho, rfl, rfl⟩

/-- The loop counts the letters `o` and leaves the flag as the last of them says. -/
theorem umodeLoop_spec (modes : CString) (add : Bool) (mode : BitVec 32) (opcnt : ℤ) :
    isOper (umodeLoop modes add mode opcnt).1 = (operLetters modes add).getLast?.getD (isOper mode) ∧
      (umodeLoop modes add mode opcnt).2 =
        opcnt + ((operLetters modes add).count true : ℤ) - (operLetters modes add).count false := by
  induction modes generalizing add mode opcnt with
  | nil => simp [umodeLoop, operLetters]
  | cons c modes ih =>
    rw [umodeLoop, operLetters]
    by_cases hplus : c = '+'
    · rw [if_pos hplus, if_pos hplus]
      exact ih true mode opcnt
    rw [if_neg hplus, if_neg hplus]
    by_cases hminus : c = '-'
    · rw [if_pos hminus, if_pos hminus]
      exact ih false mode opcnt
    rw [if_neg hminus, if_neg hminus]
    obtain ⟨hlast, hcount⟩ := ih add (umodeLetter c add mode opcnt).1 (umodeLetter c add mode opcnt).2
    rw [hlast, hcount]
    rcases umodeLetter_spec c add mode opcnt with ⟨ho, hflag, hopcnt⟩ | ⟨ho, hflag, hopcnt⟩
    · rw [if_pos ho, hflag, hopcnt, List.getLast?_cons, Option.getD_some, List.count_cons, List.count_cons]
      refine ⟨rfl, ?_⟩
      cases add
      · simp
        ring
      · simp
        ring
    · rw [if_neg ho, hflag, hopcnt]
      exact ⟨rfl, rfl⟩

end Loop

/-! ### Steps -/

section Steps

variable {s s' : UserTable} {a : ℕ} {user : TableUser} {xs : ℕ → List (ℕ × TableUser)}

theorem users_congr (h : s.userlist = s'.userlist) : s.users = s'.users := by
  rw [UserTable.users, UserTable.users, h]

/-- A new mode is counted as it changes the operator's flag. -/
theorem setMode_users (hxs : Chained hashUser s.userlist xs) (huser : s.userlist.val a = some user)
    (f : BitVec 32 → BitVec 32) :
    (∃ ys, Chained hashUser (s.setMode a f).userlist ys) ∧
      (s.setMode a f).users.length = s.users.length ∧
      ((s.setMode a f).users.countP (fun x ↦ isOper x.2.mode) : ℤ) =
        s.users.countP (fun x ↦ isOper x.2.mode) + (isOper (f user.mode)).toInt - (isOper user.mode).toInt := by
  have hhash (user : TableUser) : hashUser { user with mode := f user.mode } = hashUser user := rfl
  obtain ⟨rest, hold, hnew⟩ := hxs.toList_modifyVal_perm hashUser_lt hhash huser
  refine ⟨⟨_, hxs.modifyVal hhash a⟩, ?_, ?_⟩
  · exact hnew.length_eq.trans hold.length_eq.symm
  · rw [UserTable.users, UserTable.users, UserTable.setMode, hnew.countP_eq, hold.countP_eq,
      List.countP_cons, List.countP_cons]
    cases isOper (f user.mode) <;> cases isOper user.mode <;> simp

/-- A new user is no operator. -/
theorem newUser_counted (hxs : Chained hashUser s.userlist xs) {nick : CString}
    (h : newUser a nick s = some s') (hcounted : Counted s) : Counted s' := by
  obtain ⟨hheap, rfl⟩ := newUser_eq_some h
  have hperm := hxs.toList_push hashUser_lt hheap ⟨strscpy nick Users.NICKMAX, 0⟩
  constructor
  · rw [UserTable.users, hperm.length_eq, List.length_cons, Nat.cast_succ]
    exact congrArg (· + 1) hcounted.usercnt
  · rw [UserTable.users, hperm.countP_eq, List.countP_cons_of_neg (by simp [isOper])]
    exact hcounted.opcnt

theorem changeUserNick_counted (hxs : Chained hashUser s.userlist xs) {nick : CString}
    (h : changeUserNick a nick s = some s') (hcounted : Counted s) : Counted s' := by
  obtain ⟨user, huser, rfl⟩ := Option.map_eq_some_iff.mp h
  obtain ⟨pre, post, hbucket⟩ := hxs.exists_bucket huser
  have hold := hxs.toList_unlink hashUser_lt hbucket
  have hfree : (s.userlist.unlink (hashUser user) a).heap a = none := heap_unlink ..
  have hnew := (hxs.unlink hbucket).toList_push hashUser_lt hfree
    { user with nick := strscpy nick Users.NICKMAX }
  constructor
  · rw [UserTable.users, hnew.length_eq, List.length_cons]
    rw [hcounted.usercnt, UserTable.users, hold.length_eq, List.length_cons]
  · rw [UserTable.users, hnew.countP_eq, List.countP_cons]
    rw [hcounted.opcnt, UserTable.users, hold.countP_eq, List.countP_cons]

theorem deleteUser_counted (hxs : Chained hashUser s.userlist xs) (h : deleteUser a s = some s')
    (hcounted : Counted s) : Counted s' := by
  obtain ⟨user, huser, rfl⟩ := Option.map_eq_some_iff.mp h
  obtain ⟨pre, post, hbucket⟩ := hxs.exists_bucket huser
  have hold := hxs.toList_unlink hashUser_lt hbucket
  have husercnt := hcounted.usercnt
  have hopcnt := hcounted.opcnt
  rw [UserTable.users, hold.length_eq, List.length_cons] at husercnt
  rw [UserTable.users, hold.countP_eq, List.countP_cons] at hopcnt
  constructor
  · show s.usercnt - 1 = _
    rw [husercnt, UserTable.users, Nat.cast_succ, add_sub_cancel_right]
  · show (if user.mode &&& UMODE_o ≠ 0 then s.opcnt - 1 else s.opcnt) = _
    rw [hopcnt, UserTable.users]
    by_cases hoper : user.mode &&& UMODE_o ≠ 0
    · have hisOper : isOper user.mode = true := decide_eq_true hoper
      rw [if_pos hoper, if_pos hisOper, Nat.cast_succ, add_sub_cancel_right]
    · have hisOper : isOper user.mode = false := decide_eq_false hoper
      rw [if_neg hoper, if_neg (by rw [hisOper]; exact Bool.false_ne_true), add_zero]

/-- The mode for identified users does not count. -/
theorem markIdentified_counted (hxs : Chained hashUser s.userlist xs) (huser : s.userlist.val a = some user)
    (identified : Bool) :
    (∃ ys, Chained hashUser (markIdentified a identified s).userlist ys) ∧
      (Counted s → Counted (markIdentified a identified s)) := by
  rw [markIdentified]
  split_ifs
  · obtain ⟨hchained, hlength, hcount⟩ := setMode_users hxs huser (· ||| UMODE_r)
    refine ⟨hchained, fun hcounted ↦ ⟨?_, ?_⟩⟩
    · rw [hlength]
      exact hcounted.usercnt
    · have hsame : isOper (user.mode ||| UMODE_r) = isOper user.mode :=
        isOper_switchMode true user.mode (by decide)
      rw [hcount, hsame, add_sub_cancel_right]
      exact hcounted.opcnt
  · exact ⟨⟨xs, hxs⟩, id⟩

theorem doNick_counted (hxs : Chained hashUser s.userlist xs) {source : List Char} {nick : CString}
    {admitted identified : Bool} (h : doNick source nick a admitted identified s = some s') :
    (∃ ys, Chained hashUser s'.userlist ys) ∧ (Counted s → Counted s') := by
  rw [doNick] at h
  split_ifs at h
  · obtain ⟨s₁, hnew, rfl⟩ := Option.map_eq_some_iff.mp h
    obtain ⟨ys, hys⟩ := newUser_chained hxs hnew
    have huser : s₁.userlist.val a = some ⟨strscpy nick Users.NICKMAX, 0⟩ := by
      rw [newUser_val hnew, Function.update_self]
    obtain ⟨hchained, hcounted⟩ := markIdentified_counted hys huser identified
    exact ⟨hchained, fun hs ↦ hcounted (newUser_counted hxs hnew hs)⟩
  · obtain rfl := Option.some.inj h
    exact ⟨⟨xs, hxs⟩, id⟩
  · cases hfind : finduser s source with
    | none =>
      simp only [hfind] at h
      obtain rfl := Option.some.inj h
      exact ⟨⟨xs, hxs⟩, id⟩
    | some b =>
      simp only [hfind] at h
      obtain ⟨s₁, hchange, rfl⟩ := Option.map_eq_some_iff.mp h
      obtain ⟨ys, hys⟩ := changeUserNick_chained hxs hchange
      obtain ⟨user, -, hval⟩ := changeUserNick_val hchange
      have huser : s₁.userlist.val b = some { user with nick := strscpy nick Users.NICKMAX } := by
        rw [hval, Function.update_self]
      obtain ⟨hchained, hcounted⟩ := markIdentified_counted hys huser identified
      exact ⟨hchained, fun hs ↦ hcounted (changeUserNick_counted hxs hchange hs)⟩

theorem doQuit_counted (hxs : Chained hashUser s.userlist xs) {source : List Char}
    (h : doQuit source s = some s') :
    (∃ ys, Chained hashUser s'.userlist ys) ∧ (Counted s → Counted s') := by
  rw [doQuit] at h
  cases hfind : finduser s source with
  | none =>
    simp only [hfind] at h
    obtain rfl := Option.some.inj h
    exact ⟨⟨xs, hxs⟩, id⟩
  | some b =>
    simp only [hfind] at h
    exact ⟨deleteUser_chained hxs h, deleteUser_counted hxs h⟩

/-- The mode loop keeps `opcnt` right iff the letters `o` balance. -/
theorem doUmode_counted (hxs : Chained hashUser s.userlist xs) {source : List Char} {nick modes : CString}
    (h : doUmode source nick modes s = some s') :
    (∃ ys, Chained hashUser s'.userlist ys) ∧
      (Counted s → (Counted s' ↔ CountMeets s (.umode source nick modes))) := by
  rw [doUmode] at h
  by_cases hsource : stricmp (strAt source 0) nick = 0
  · rw [if_neg (not_not_intro hsource)] at h
    cases hfind : finduser s source with
    | none =>
      simp only [hfind] at h
      obtain rfl := Option.some.inj h
      refine ⟨⟨xs, hxs⟩, fun hs ↦ iff_of_true hs fun _ b user hb ↦ ?_⟩
      rw [hfind] at hb
      cases hb
    | some b =>
      simp only [hfind] at h
      obtain ⟨user, huser, rfl⟩ := Option.map_eq_some_iff.mp h
      obtain ⟨hflag, hopcnt⟩ := umodeLoop_spec modes true user.mode s.opcnt
      obtain ⟨hchained, hlength, hcount⟩ :=
        setMode_users hxs huser fun _ ↦ (umodeLoop modes true user.mode s.opcnt).1
      refine ⟨hchained, fun hs ↦ ?_⟩
      have hmeets : CountMeets s (.umode source nick modes) ↔ OperBalanced user.mode modes := by
        constructor
        · exact fun hok ↦ hok hsource b user hfind huser
        · intro hbalanced _ c other hc hother
          obtain rfl := Option.some.inj (hfind.symm.trans hc)
          obtain rfl := Option.some.inj (huser.symm.trans hother)
          exact hbalanced
      rw [hmeets, OperBalanced, ← hflag]
      set s₁ := s.setMode b fun _ ↦ (umodeLoop modes true user.mode s.opcnt).1
      have husers : { s₁ with opcnt := (umodeLoop modes true user.mode s.opcnt).2 }.users = s₁.users :=
        users_congr rfl
      constructor
      · intro hs'
        have hnew := hs'.opcnt
        rw [husers, hcount, ← hs.opcnt] at hnew
        dsimp only at hnew
        rw [hopcnt] at hnew
        linarith
      · intro hbalanced
        constructor
        · rw [husers, hlength]
          exact hs.usercnt
        · rw [husers, hcount, ← hs.opcnt]
          dsimp only
          rw [hopcnt]
          linarith
  · rw [if_pos hsource] at h
    obtain rfl := Option.some.inj h
    exact ⟨⟨xs, hxs⟩, fun hs ↦ iff_of_true hs fun hsame ↦ absurd hsame hsource⟩

theorem receive_counted (hxs : Chained hashUser s.userlist xs) {m : UserMessage} (h : receive s m = some s') :
    (∃ ys, Chained hashUser s'.userlist ys) ∧ (Counted s → (Counted s' ↔ CountMeets s m)) := by
  cases m with
  | nick source nick a admitted identified =>
    obtain ⟨hchained, hcounted⟩ := doNick_counted hxs h
    exact ⟨hchained, fun hs ↦ iff_of_true (hcounted hs) trivial⟩
  | quit source =>
    obtain ⟨hchained, hcounted⟩ := doQuit_counted hxs h
    exact ⟨hchained, fun hs ↦ iff_of_true (hcounted hs) trivial⟩
  | kill nick =>
    obtain ⟨hchained, hcounted⟩ := doQuit_counted hxs h
    exact ⟨hchained, fun hs ↦ iff_of_true (hcounted hs) trivial⟩
  | umode source nick modes => exact doUmode_counted hxs h

end Steps

/-! ### Runs -/

/-- One message of a run, which ends when a record is allocated at an address in use. -/
def receiveNext (s : Option UserTable) (m : UserMessage) : Option UserTable :=
  s.bind fun s ↦ receive s m

/-- The condition on a message of a run. -/
def NextMeets (s : Option UserTable) (m : UserMessage) : Prop :=
  ∀ t, s = some t → CountMeets t m

/-- The chains are well formed. -/
def NextChained (s : Option UserTable) : Prop :=
  ∀ t, s = some t → ∃ xs, Chained hashUser t.userlist xs

/-- The counters are right. -/
def NextCounted (s : Option UserTable) : Prop :=
  ∀ t, s = some t → Counted t

theorem nextChained_next {s : Option UserTable} (hs : NextChained s) (m : UserMessage) :
    NextChained (receiveNext s m) := by
  intro t ht
  obtain ⟨s, rfl, hnext⟩ := Option.bind_eq_some_iff.mp ht
  obtain ⟨xs, hxs⟩ := hs s rfl
  exact (receive_counted hxs hnext).1

theorem nextChained_run {s : Option UserTable} (hs : NextChained s) (messages : List UserMessage) :
    NextChained (messages.foldl receiveNext s) :=
  foldl_invariant (p := NextChained) (fun _ m h ↦ nextChained_next h m) hs messages

/-- One step of a run, from a state in which the counters are right. -/
theorem nextCounted_next {s : Option UserTable} {m : UserMessage} (hchained : NextChained s)
    (hs : NextCounted s) : NextCounted (receiveNext s m) ↔ NextMeets s m := by
  cases s with
  | none => exact iff_of_true (fun _ ht ↦ nomatch ht) (fun _ ht ↦ nomatch ht)
  | some s =>
    obtain ⟨xs, hxs⟩ := hchained s rfl
    rw [receiveNext, Option.bind_some]
    cases hnext : receive s m with
    | some s' =>
      obtain ⟨-, hiff⟩ := receive_counted hxs hnext
      constructor
      · intro h t ht
        obtain rfl := Option.some.inj ht
        exact (hiff (hs s rfl)).mp (h s' rfl)
      · intro h t ht
        obtain rfl := Option.some.inj ht
        exact (hiff (hs s rfl)).mpr (h s rfl)
    | none =>
      -- only a new user can make the run end
      refine iff_of_true (fun _ ht ↦ nomatch ht) fun t ht ↦ ?_
      obtain rfl := Option.some.inj ht
      cases m with
      | umode source nick modes =>
        intro hsource a user hfind huser
        rw [receive, doUmode, if_neg (not_not_intro hsource)] at hnext
        simp only [hfind, huser, Option.map_some, reduceCtorEq] at hnext
      | nick source nick a admitted identified => trivial
      | quit source => trivial
      | kill nick => trivial

/-- A user comes in and is made an operator twice in one mode string. -/
def operTwice : List UserMessage :=
  [.nick [] ['a'] 0 true false, .umode ['a'] ['a'] ['+', 'o', 'o']]

theorem operTwice_counts :
    (operTwice.foldl receiveNext (some (.initial 0))).map
        (fun s ↦ (s.opcnt, s.users.map Prod.snd)) = some (2, [⟨['a'], UMODE_o⟩]) := by
  decide +kernel

end BlitzedServices.Users
