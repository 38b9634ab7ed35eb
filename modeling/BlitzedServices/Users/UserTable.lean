import BlitzedServices.Lib.HashTable
import BlitzedServices.Misc.IrcCase

/-!
# The table of users

`userlist` has 1024 buckets. `new_user`, `change_user_nick` and `delete_user` keep every user in the bucket
of his current nick, and `finduser` searches the bucket of the nick it is given. The hash takes the five low
bits of two characters, which the case mapping leaves alone; the comparison does not know that `[` and `{`,
`\` and `|`, `]` and `}` are the same letter. `finduser_right_iff` says for which names the search is right
nevertheless.
-/

set_option autoImplicit false
set_option relaxedAutoImplicit false

namespace BlitzedServices.Users

open Lib Misc

/-- The size of a nick's buffer. -/
protected def NICKMAX : ℕ := 32

/-- The user mode of IRC operators. -/
def UMODE_o : BitVec 32 := 0x00000001

/-- The fields of a user that the table and its counters read. -/
structure TableUser where
  nick : CString
  mode : BitVec 32
  deriving DecidableEq

/-- `HASH` on the characters at a pointer. -/
def hashNick (nick : List Char) : ℕ :=
  ((nick.getD 0 nul).toNat &&& 31) <<< 5 ||| ((nick.getD 1 nul).toNat &&& 31)

/-- The bucket of a user. The character behind an empty nick is a NUL, in a new record as after a change of
nick. -/
def hashUser (user : TableUser) : ℕ := hashNick user.nick

/-- The user list and its counters. -/
structure UserTable where
  userlist : HashTable TableUser
  usercnt : ℤ
  opcnt : ℤ
  maxusercnt : ℤ

/-- Services start without users, and with the largest number of users there ever were. -/
def UserTable.initial (maxusercnt : ℤ) : UserTable := ⟨.empty, 0, 0, maxusercnt⟩

/-- `new_user` with its record at an address, where `none` is an address in use. -/
def newUser (a : ℕ) (nick : CString) (s : UserTable) : Option UserTable :=
  match s.userlist.heap a with
  | some _ => none
  | none =>
    let user : TableUser := ⟨strscpy nick Users.NICKMAX, 0⟩
    some { s with
      userlist := s.userlist.push (hashUser user) a user
      usercnt := s.usercnt + 1
      maxusercnt := max s.maxusercnt (s.usercnt + 1) }

/-- `change_user_nick`. -/
def changeUserNick (a : ℕ) (nick : CString) (s : UserTable) : Option UserTable :=
  (s.userlist.val a).map fun user ↦
    let renamed := { user with nick := strscpy nick Users.NICKMAX }
    { s with userlist := (s.userlist.unlink (hashUser user) a).push (hashUser renamed) a renamed }

/-- `delete_user`. -/
def deleteUser (a : ℕ) (s : UserTable) : Option UserTable :=
  (s.userlist.val a).map fun user ↦
    { s with
      usercnt := s.usercnt - 1
      opcnt := if user.mode &&& UMODE_o ≠ 0 then s.opcnt - 1 else s.opcnt
      userlist := s.userlist.unlink (hashUser user) a }

/-- `finduser` for the string at the front of a buffer. -/
def finduser (s : UserTable) (nick : List Char) : Option ℕ :=
  ((s.userlist.bucket (hashNick nick)).toList.find? fun x ↦ ircStricmp x.2.nick (strAt nick 0) = 0).map
    Prod.fst

/-! ### Hashing -/

section Hashing

variable {s t : CString}

theorem hashNick_lt (nick : List Char) : hashNick nick < 1024 := by
  have hand (c : Char) : c.toNat &&& 31 < 2 ^ 5 := Nat.and_lt_two_pow _ (by decide)
  have hshift : ((nick.getD 0 nul).toNat &&& 31) <<< 5 < 2 ^ 10 := by
    have hfirst := hand (nick.getD 0 nul)
    rw [Nat.shiftLeft_eq]
    omega
  exact Nat.or_lt_two_pow hshift ((hand _).trans (by decide))

theorem hashUser_lt (user : TableUser) : hashUser user < 1024 := hashNick_lt user.nick

/-- The case mapping keeps the bucket. -/
theorem hashNick_map (nick : List Char) : hashNick (nick.map ircTolower) = hashNick nick := by
  have hget (i : ℕ) : ((nick.map ircTolower).getD i nul).toNat &&& 31 = (nick.getD i nul).toNat &&& 31 := by
    rw [← ircTolower_nul, List.getD_map, ircTolower_nul, ircTolower_and]
  rw [hashNick, hashNick, hget, hget]

theorem hashNick_eq_of_ircEquiv (h : IrcEquiv s t) : hashNick s = hashNick t := by
  rw [← hashNick_map s, ← hashNick_map t, h]

/-- The bucket of a string in a buffer, unless the string is empty: then a character behind it is read. -/
theorem hashNick_strAt {nick : List Char} (h : strAt nick 0 ≠ []) : hashNick nick = hashNick (strAt nick 0) := by
  rw [strAt, List.drop_zero] at h ⊢
  cases nick with
  | nil => rfl
  | cons c nick =>
    have hc : c ≠ nul := by
      rintro rfl
      exact h (List.takeWhile_cons_of_neg (by simp))
    rw [List.takeWhile_cons_of_pos (by simpa using hc)]
    cases nick with
    | nil => rfl
    | cons d nick =>
      by_cases hd : d = nul
      · rw [List.takeWhile_cons_of_neg (by simpa using hd), hd]
        rfl
      · rw [List.takeWhile_cons_of_pos (by simpa using hd)]
        rfl

end Hashing

/-! ### Chains and values -/

section Steps

variable {s s' : UserTable} {a : ℕ} {nick : CString} {user : TableUser} {xs : ℕ → List (ℕ × TableUser)}

/-- What `new_user` does. -/
theorem newUser_eq_some (h : newUser a nick s = some s') :
    s.userlist.heap a = none ∧
      s' = { s with
        userlist := s.userlist.push (hashUser ⟨strscpy nick Users.NICKMAX, 0⟩) a ⟨strscpy nick Users.NICKMAX, 0⟩
        usercnt := s.usercnt + 1
        maxusercnt := max s.maxusercnt (s.usercnt + 1) } := by
  rw [newUser] at h
  cases hheap : s.userlist.heap a with
  | some node =>
    rw [hheap] at h
    cases h
  | none =>
    rw [hheap] at h
    exact ⟨rfl, (Option.some.inj h).symm⟩

theorem newUser_val (h : newUser a nick s = some s') :
    s'.userlist.val = Function.update s.userlist.val a (some ⟨strscpy nick Users.NICKMAX, 0⟩) := by
  obtain ⟨-, rfl⟩ := newUser_eq_some h
  exact val_push ..

theorem newUser_chained (hxs : Chained hashUser s.userlist xs) (h : newUser a nick s = some s') :
    ∃ ys, Chained hashUser s'.userlist ys := by
  obtain ⟨hheap, rfl⟩ := newUser_eq_some h
  exact ⟨_, hxs.push hheap _⟩

theorem changeUserNick_val (h : changeUserNick a nick s = some s') :
    ∃ user, s.userlist.val a = some user ∧ s'.userlist.val =
      Function.update s.userlist.val a (some { user with nick := strscpy nick Users.NICKMAX }) := by
  obtain ⟨user, huser, rfl⟩ := Option.map_eq_some_iff.mp h
  refine ⟨user, huser, ?_⟩
  rw [val_push, val_unlink, Function.update_idem]

/-- The node is taken out of the bucket of the old nick and put into that of the new one. -/
theorem changeUserNick_chained (hxs : Chained hashUser s.userlist xs) (h : changeUserNick a nick s = some s') :
    ∃ ys, Chained hashUser s'.userlist ys := by
  obtain ⟨user, huser, rfl⟩ := Option.map_eq_some_iff.mp h
  obtain ⟨pre, post, hbucket⟩ := hxs.exists_bucket huser
  exact ⟨_, (hxs.unlink hbucket).push (heap_unlink ..) _⟩

theorem deleteUser_val (h : deleteUser a s = some s') :
    s'.userlist.val = Function.update s.userlist.val a none := by
  obtain ⟨user, -, rfl⟩ := Option.map_eq_some_iff.mp h
  exact val_unlink ..

theorem deleteUser_chained (hxs : Chained hashUser s.userlist xs) (h : deleteUser a s = some s') :
    ∃ ys, Chained hashUser s'.userlist ys := by
  obtain ⟨user, huser, rfl⟩ := Option.map_eq_some_iff.mp h
  obtain ⟨pre, post, hbucket⟩ := hxs.exists_bucket huser
  exact ⟨_, hxs.unlink hbucket⟩

end Steps

/-! ### Finding users -/

/-- What creations, changes of nick and deletions lead to, where no nick comes in that is already in use by
another user. -/
inductive Reached : UserTable → Prop where
  | initial (maxusercnt : ℤ) : Reached (.initial maxusercnt)
  | newUser {s s' : UserTable} {a : ℕ} {nick : CString} (h : Reached s)
      (hfree : ∀ b user, s.userlist.val b = some user → ¬ IrcEquiv user.nick (strscpy nick Users.NICKMAX))
      (hs' : newUser a nick s = some s') : Reached s'
  | changeUserNick {s s' : UserTable} {a : ℕ} {nick : CString} (h : Reached s)
      (hfree : ∀ b user, b ≠ a → s.userlist.val b = some user →
        ¬ IrcEquiv user.nick (strscpy nick Users.NICKMAX))
      (hs' : changeUserNick a nick s = some s') : Reached s'
  | deleteUser {s s' : UserTable} {a : ℕ} (h : Reached s) (hs' : deleteUser a s = some s') : Reached s'

/-- The chains are well formed and no two users have the same nick. -/
structure Sound (s : UserTable) : Prop where
  chained : ∃ xs, Chained hashUser s.userlist xs
  distinct : ∀ a b user other, s.userlist.val a = some user → s.userlist.val b = some other →
    IrcEquiv user.nick other.nick → a = b

section Finding

variable {s s' : UserTable} {a : ℕ} {user : TableUser}

/-- A record is written whose nick no other user has. -/
theorem distinct_update {val : ℕ → Option TableUser}
    (hdistinct : ∀ a b user other, val a = some user → val b = some other →
      IrcEquiv user.nick other.nick → a = b)
    (hfree : ∀ b other, b ≠ a → val b = some other → ¬ IrcEquiv other.nick user.nick) :
    ∀ b c one other, Function.update val a (some user) b = some one →
      Function.update val a (some user) c = some other → IrcEquiv one.nick other.nick → b = c := by
  intro b c one other hb hc hequiv
  by_cases hba : b = a
  · by_cases hca : c = a
    · exact hba.trans hca.symm
    · rw [hba, Function.update_self] at hb
      rw [Function.update_of_ne hca] at hc
      obtain rfl := Option.some.inj hb
      exact absurd hequiv.symm (hfree c other hca hc)
  · rw [Function.update_of_ne hba] at hb
    by_cases hca : c = a
    · rw [hca, Function.update_self] at hc
      obtain rfl := Option.some.inj hc
      exact absurd hequiv (hfree b one hba hb)
    · rw [Function.update_of_ne hca] at hc
      exact hdistinct b c one other hb hc hequiv

theorem Sound.deleteUser (h : Sound s) (hs' : deleteUser a s = some s') : Sound s' := by
  rcases h.chained with ⟨xs, hxs⟩
  refine ⟨deleteUser_chained hxs hs', ?_⟩
  rw [deleteUser_val hs']
  have hkept {b : ℕ} {other : TableUser} (hb : Function.update s.userlist.val a none b = some other) :
      s.userlist.val b = some other := by
    by_cases hba : b = a
    · rw [hba, Function.update_self] at hb
      cases hb
    · rwa [Function.update_of_ne hba] at hb
  exact fun b c one other hb hc ↦ h.distinct b c one other (hkept hb) (hkept hc)

theorem Reached.sound (h : Reached s) : Sound s := by
  induction h with
  | initial maxusercnt => exact ⟨⟨_, chained_empty hashUser⟩, fun _ _ _ _ hval ↦ nomatch hval⟩
  | newUser _ hfree hs' ih =>
    obtain ⟨xs, hxs⟩ := ih.chained
    refine ⟨newUser_chained hxs hs', ?_⟩
    rw [newUser_val hs']
    exact distinct_update ih.distinct fun b other _ hb ↦ hfree b other hb
  | changeUserNick _ hfree hs' ih =>
    obtain ⟨xs, hxs⟩ := ih.chained
    refine ⟨changeUserNick_chained hxs hs', ?_⟩
    obtain ⟨user, -, hval⟩ := changeUserNick_val hs'
    rw [hval]
    exact distinct_update ih.distinct fun b other hb hother ↦ hfree b other hb hother
  | deleteUser _ hs' ih => exact ih.deleteUser hs'

/-- `finduser` finds the user in the bucket it searches whose nick compares equal. -/
theorem Sound.finduser_eq_some_iff (h : Sound s) (nick : List Char) (a : ℕ) :
    finduser s nick = some a ↔ ∃ user, s.userlist.val a = some user ∧ hashUser user = hashNick nick ∧
      ircStricmp user.nick (strAt nick 0) = 0 := by
  obtain ⟨xs, hxs⟩ := h.chained
  rw [finduser, (hxs.linked (hashNick nick)).toList_eq, Option.map_eq_some_iff]
  constructor
  · rintro ⟨⟨_, user⟩, hfind, rfl⟩
    obtain ⟨hval, hhash⟩ := hxs.mem_iff.mp (List.mem_of_find?_eq_some hfind)
    exact ⟨user, hval, hhash, by simpa using List.find?_some hfind⟩
  · rintro ⟨user, hval, hhash, hcmp⟩
    have hmem : (a, user) ∈ xs (hashNick nick) := hxs.mem_iff.mpr ⟨hval, hhash⟩
    have hsome : ((xs (hashNick nick)).find? fun x ↦ ircStricmp x.2.nick (strAt nick 0) = 0).isSome := by
      rw [List.find?_isSome]
      exact ⟨(a, user), hmem, by simpa using hcmp⟩
    obtain ⟨⟨b, other⟩, hfind⟩ := Option.isSome_iff_exists.mp hsome
    refine ⟨(b, other), hfind, ?_⟩
    -- no other node of the bucket compares equal
    have hother : ircStricmp other.nick (strAt nick 0) = 0 := by simpa using List.find?_some hfind
    have hb := (hxs.mem_iff.mp (List.mem_of_find?_eq_some hfind)).1
    exact h.distinct b a other user hb hval
      ((ircEquiv_of_ircStricmp hother).trans (ircEquiv_of_ircStricmp hcmp).symm)

/-- The search returns the user whose nick is the same under the IRC case mapping, and nothing if there
is none. -/
def FindsEquivalent (s : UserTable) (nick : List Char) : Prop :=
  ∀ a, finduser s nick = some a ↔
    ∃ user, s.userlist.val a = some user ∧ IrcEquiv user.nick (strAt nick 0)

/-- Whoever has the nick has it up to the case of letters. An empty nick must also be followed by a
character that leads to the bucket of the empty nick. -/
def SameLetters (s : UserTable) (nick : List Char) : Prop :=
  ∀ a user, s.userlist.val a = some user → IrcEquiv user.nick (strAt nick 0) →
    ircStricmp user.nick (strAt nick 0) = 0 ∧ (strAt nick 0 = [] → hashNick nick = hashNick [])

/-- In every state that is reached the chains are well formed, and a search is right for exactly the names
that nobody has in another spelling of the bracket characters. -/
theorem finduser_right_iff (h : Reached s) :
    (∃ xs, Chained hashUser s.userlist xs) ∧ ∀ nick, FindsEquivalent s nick ↔ SameLetters s nick := by
  refine ⟨h.sound.chained, fun nick ↦ ⟨fun hfinds a user hval hequiv ↦ ?_, fun hsame a ↦ ?_⟩⟩
  · obtain ⟨found, hfound, hhash, hcmp⟩ :=
      (h.sound.finduser_eq_some_iff nick a).mp ((hfinds a).mpr ⟨user, hval, hequiv⟩)
    obtain rfl := Option.some.inj (hval.symm.trans hfound)
    refine ⟨hcmp, fun hempty ↦ ?_⟩
    rw [hempty] at hequiv
    rw [← hhash, hashUser, hashNick_eq_of_ircEquiv hequiv]
  · rw [h.sound.finduser_eq_some_iff]
    constructor
    · rintro ⟨user, hval, -, hcmp⟩
      exact ⟨user, hval, ircEquiv_of_ircStricmp hcmp⟩
    · rintro ⟨user, hval, hequiv⟩
      obtain ⟨hcmp, hempty⟩ := hsame a user hval hequiv
      refine ⟨user, hval, ?_, hcmp⟩
      rw [hashUser, hashNick_eq_of_ircEquiv hequiv]
      by_cases htext : strAt nick 0 = []
      · rw [htext, hempty htext]
      · exact (hashNick_strAt htext).symm

end Finding

/-- One user is online as `[a`. -/
def bracketUser : UserTable :=
  { UserTable.initial 0 with
    userlist := HashTable.push (hashUser ⟨['[', 'a'], 0⟩) 0 ⟨['[', 'a'], 0⟩ .empty
    usercnt := 1
    maxusercnt := 1 }

theorem reached_bracketUser : Reached bracketUser :=
  .newUser (.initial 0) (fun _ _ hval ↦ nomatch hval) (show newUser 0 ['[', 'a'] _ = _ from rfl)

theorem finduser_right_iff_bracketUser :
    (∃ xs, Chained hashUser bracketUser.userlist xs) ∧
      ∀ nick, FindsEquivalent bracketUser nick ↔ SameLetters bracketUser nick :=
  finduser_right_iff reached_bracketUser

/-- `{a` is the same nick as `[a`, but is not found. -/
theorem bracketUser_not_found :
    Reached bracketUser ∧ ¬ FindsEquivalent bracketUser ['{', 'a', nul] := by
  refine ⟨reached_bracketUser, fun hfinds ↦ ?_⟩
  have hnone : finduser bracketUser ['{', 'a', nul] = none := by decide +kernel
  have huser : bracketUser.userlist.val 0 = some ⟨['[', 'a'], 0⟩ := by decide +kernel
  have hequiv : IrcEquiv ['[', 'a'] (strAt ['{', 'a', nul] 0) := by decide +kernel
  have hfound := (hfinds 0).mpr ⟨_, huser, hequiv⟩
  rw [hnone] at hfound
  cases hfound

end BlitzedServices.Users
