import BlitzedServices.Akill.AddAkill
import BlitzedServices.Users.KillUser

/-!
# KILLCLONES

`do_killclones` kills the users who match `*!*@host`, where the host is that of the user it is given, adds an
akill on the host, and then names the oper who sent the command, whose record it may just have freed.
`doKillclones_clears_iff` says when the command does what it is meant to: when the oper is on another host,
the host as a mask matches no other host, and there is room for the akill.
-/

set_option autoImplicit false
set_option relaxedAutoImplicit false

namespace BlitzedServices.OperServ

open Lib Misc Users Akill
open Mysql (sameName)

/-- What the command answers, and the WALLOPS after the kills. -/
inductive KillclonesReply where
  | OPER_KILLCLONES_SYNTAX
  | OPER_KILLCLONES_UNKNOWN_NICK (clonenick : CString)
  | wallops (nick clonemask : CString) (count : ℕ) (akillmask : CString)

/-- What `match_usermask` reads of a record. -/
def maskUser (s : Online) (a : ℕ) (user : TableUser) : NickServ.User where
  uid := a
  nick := user.nick
  username := s.username a
  host := s.host a
  realId := 0
  nickId := 0
  mySignon := 0
  servicesStamp := 0
  oper := false
  lastnickreg := 0

/-- The reason of the `n`-th kill. -/
def killreason (n : ℕ) : CString :=
  "Cloning [".toList ++ decimal n ++ "]".toList

/-- `do_killclones` for the oper with the record `u`, where `none` is an access to a freed record. -/
def doKillclones (serverName : CString) (now : ℤ) (u : ℕ) (line : CString) (s : Online)
    (akills : List AkillRow) : Option (List KillclonesReply × Online × List AkillRow) :=
  match (nextWord line).1 with
  | none => some ([.OPER_KILLCLONES_SYNTAX], s, akills)
  | some clonenick =>
    match finduser s.table clonenick with
    | none => some ([.OPER_KILLCLONES_UNKNOWN_NICK clonenick], s, akills)
    | some cloneuser =>
      let clonemask := "*!*@".toList ++ s.host cloneuser
      -- `strlower` changes the host in the record
      let s := { s with host := Function.update s.host cloneuser (strlower (s.host cloneuser)) }
      let akillmask := "*@".toList ++ s.host cloneuser
      (killWhere (fun s a user ↦ matchUsermask clonemask (maskUser s a user)) (killAs serverName none killreason)
        s).bind fun (s, count) ↦
        (s.table.userlist.val u).map fun user ↦
          ([.wallops user.nick clonemask count akillmask], s,
            (addAkill akillmask "Temporary KILLCLONES akill.".toList user.nick now (now + 60 * 60 * 6) akills).2)

/-! ### What the command is for -/

/-- Exactly the users on a host are killed, each once. -/
def ClearsHost (s : Online) (host : CString) (s' : Online) : Prop :=
  ∃ l, Killed s l s' ∧
    ∀ a user, (a, user) ∈ l ↔ s.table.userlist.val a = some user ∧ stricmp (s.host a) host = 0

/-- One akill is on the mask, and no other is added. -/
def AkillsOnce (mask : CString) (before after : List AkillRow) : Prop :=
  ∃ r ∈ after, sameName r.mask mask = true ∧ (after = before ∨ after = before ++ [r])

/-- The users on the target's host are killed, the host gets its akill, and no freed record is used. -/
def KillsClones (s : Online) (akills : List AkillRow) (target : ℕ)
    (r : Option (List KillclonesReply × Online × List AkillRow)) : Prop :=
  ∃ replies s' akills', r = some (replies, s', akills') ∧ ClearsHost s (s.host target) s' ∧
    AkillsOnce ("*@".toList ++ s.host target) akills akills'

/-! ### The mask of the clones -/

section Mask

variable {host : CString} {s : Online}

theorem matchWild_star (str : CString) : matchWild ['*'] str = true :=
  doMatchWild_star_nil

/-- The clones are the users whose host matches the target's host as a mask. -/
theorem matchUsermask_clonemask (host : CString) (s : Online) (a : ℕ) (user : TableUser) :
    matchUsermask ("*!*@".toList ++ host) (maskUser s a user) =
      some (host ≠ [] && matchWildNocase host (s.host a)) := by
  have hstrtok : strtok ['!'] ("*!*@".toList ++ host) = some (['*'], "*@".toList ++ host) := by
    simp [strtok]
  rw [matchUsermask, if_pos (by simp), hstrtok]
  dsimp only
  by_cases hhost : host = []
  · subst hhost
    rfl
  · have hnil : ['*'] ≠ [] := List.cons_ne_nil '*' []
    have hparts : userhostParts ("*@".toList ++ host) = some (['*'], host) :=
      userhostParts_at hnil (by simp) hhost
    rw [hparts]
    simp [maskUser, matchWildNocase_eq, matchWild_star, strlower, hhost]

/-- A mask without wild characters matches what is equal to it. -/
theorem doMatchWild_plain {pattern : CString} (h : ∀ c ∈ pattern, isWild c = false) (str : CString) :
    doMatchWild true pattern str = true ↔ str = pattern := by
  induction pattern generalizing str with
  | nil => exact doMatchWild_nil
  | cons c pattern ih =>
    rw [doMatchWild_literal (h c List.mem_cons_self)]
    constructor
    · rintro ⟨a, t, rfl, hsame, hrest⟩
      rw [(ih (fun d hd ↦ h d (List.mem_cons_of_mem _ hd)) t).mp hrest]
      simpa [sameChar] using hsame
    · rintro rfl
      exact ⟨c, pattern, rfl, by simp [sameChar], (ih (fun d hd ↦ h d (List.mem_cons_of_mem _ hd)) _).mpr rfl⟩

/-- The host of the target is read as a mask. -/
def clone (s : Online) (host : CString) (a : ℕ) (_ : TableUser) : Bool :=
  host ≠ [] && matchWildNocase host (s.host a)

theorem clone_iff (hhost : host ≠ []) (hplain : ∀ c ∈ host, isWild c = false) (a : ℕ) (user : TableUser) :
    clone s host a user = true ↔ stricmp (s.host a) host = 0 := by
  have hlower : ∀ c ∈ strlower host, isWild c = false := by
    intro c hc
    rcases List.mem_map.mp hc with ⟨d, hd, rfl⟩
    by_contra hwild
    rw [Bool.not_eq_false] at hwild
    have hsame : d = d.toLower := (toLower_eq_iff hwild).mp rfl
    have hd := hplain d hd
    rw [hsame, hwild] at hd
    cases hd
  rw [clone, decide_eq_true hhost, Bool.true_and, matchWildNocase_eq, matchWild, doMatchWild_plain hlower,
    stricmp_eq_zero_iff]
  rfl

end Mask

/-! ### The akill -/

/-- The mask has its akill afterwards, unless the list is full and did not have it. -/
theorem akillsOnce_addAkill {mask mask' : CString} (hmask : strlower mask' = strlower mask)
    (reason who : CString) (now expiry : ℤ) (akills : List AkillRow) :
    AkillsOnce mask akills (addAkill mask' reason who now expiry akills).2 ↔
      akills.length < maxAkills ∨ ∃ r ∈ akills, sameName r.mask mask = true := by
  have hsame (r : AkillRow) : sameName r.mask (strlower mask') = true ↔ sameName r.mask mask = true := by
    rw [sameName_iff_strlower, sameName_iff_strlower, strlower_strlower, hmask]
  have hkept : AkillsOnce mask akills akills ↔ ∃ r ∈ akills, sameName r.mask mask = true := by
    constructor
    · rintro ⟨r, hr, hmask, -⟩
      exact ⟨r, hr, hmask⟩
    · rintro ⟨r, hr, hmask⟩
      exact ⟨r, hr, hmask, .inl rfl⟩
  dsimp only [addAkill]
  split_ifs with hfull hany
  · rw [hkept, or_iff_right (not_lt.mpr hfull)]
  · rcases List.any_eq_true.mp hany with ⟨r, hr, hequal⟩
    have hpresent : ∃ r ∈ akills, sameName r.mask mask = true := ⟨r, hr, (hsame r).mp hequal⟩
    rw [hkept]
    exact iff_of_true hpresent (.inr hpresent)
  · refine iff_of_true ⟨_, List.mem_append_right _ List.mem_cons_self, ?_, .inr rfl⟩ (.inl (not_le.mp hfull))
    rw [sameName_iff_strlower, strlower_strlower, hmask]

/-! ### When the clones are killed -/

section Clones

variable {s : Online} {u target : ℕ} {caller : TableUser} {line clonenick : CString}

/-- What the command does once it has found its target. -/
theorem doKillclones_eq (serverName : CString) (now : ℤ) (akills : List AkillRow) (hrest : s.Resting)
    (hword : (nextWord line).1 = some clonenick) (htarget : finduser s.table clonenick = some target) :
    ∃ s', Killed s (s.those (clone s (s.host target))) s' ∧
      doKillclones serverName now u line s akills = (s'.table.userlist.val u).map fun user ↦
        ([.wallops user.nick ("*!*@".toList ++ s.host target)
            (s.those (clone s (s.host target))).length ("*@".toList ++ strlower (s.host target))], s',
          (addAkill ("*@".toList ++ strlower (s.host target)) "Temporary KILLCLONES akill.".toList user.nick now
            (now + 60 * 60 * 6) akills).2) := by
  let s₁ : Online := { s with host := Function.update s.host target (strlower (s.host target)) }
  have hlower (a : ℕ) : strlower (s₁.host a) = strlower (s.host a) := by
    show strlower (Function.update s.host target (strlower (s.host target)) a) = _
    rw [Function.update_apply]
    split_ifs with ha
    · rw [strlower_strlower, ha]
    · rfl
  have hhit : ∀ s' : Online, s'.host = s₁.host → s'.username = s₁.username → ∀ a user,
      matchUsermask ("*!*@".toList ++ s.host target) (maskUser s' a user) =
        some (clone s (s.host target) a user) := by
    intro s' hhost _ a user
    rw [matchUsermask_clonemask, clone, hhost, matchWildNocase_eq, matchWildNocase_eq, hlower]
  have hrest₁ : s₁.Resting := ⟨hrest.nicked, hrest.ended⟩
  rcases hrest₁.killWhere_eq serverName none killreason hhit with ⟨s', hwalk, -, hkilled, -⟩
  refine ⟨s', ⟨hkilled.nodup, hkilled.online, hkilled.val, hkilled.sent⟩, ?_⟩
  unfold doKillclones
  simp only [hword, htarget]
  rw [hwalk]
  simp only [Option.bind_some, Function.update_self]
  rfl

/-- For every user table and every target that is online: the clones are killed, their host gets an akill
and no freed record is used if and only if the oper is on another host, the users who match the host as a
mask are those who have it, and the akill is there or has room. -/
theorem doKillclones_clears_iff (serverName : CString) (now : ℤ) (akills : List AkillRow) (hrest : s.Resting)
    (hcaller : s.table.userlist.val u = some caller) (hword : (nextWord line).1 = some clonenick)
    (htarget : finduser s.table clonenick = some target) :
    KillsClones s akills target (doKillclones serverName now u line s akills) ↔
      stricmp (s.host u) (s.host target) ≠ 0 ∧
      (∀ a user, s.table.userlist.val a = some user →
        (clone s (s.host target) a user = true ↔ stricmp (s.host a) (s.host target) = 0)) ∧
      (akills.length < maxAkills ∨ ∃ r ∈ akills, sameName r.mask ("*@".toList ++ s.host target) = true) := by
  rcases doKillclones_eq (u := u) serverName now akills hrest hword htarget with ⟨s', hkilled, heq⟩
  have hlower : strlower ("*@".toList ++ strlower (s.host target)) = strlower ("*@".toList ++ s.host target) := by
    rw [strlower, List.map_append, ← strlower, ← strlower, strlower_strlower]
    exact (List.map_append (f := Char.toLower)).symm
  rw [heq]
  constructor
  · rintro ⟨replies, s'', akills', hsome, ⟨l, hclears, hclones⟩, hakill⟩
    rcases Option.map_eq_some_iff.mp hsome with ⟨user, huser, hpair⟩
    obtain ⟨-, hpair⟩ := Prod.mk.inj hpair
    obtain ⟨rfl, rfl⟩ := Prod.mk.inj hpair
    have hsame (a : ℕ) (other : TableUser) (hval : s.table.userlist.val a = some other) :
        clone s (s.host target) a other = true ↔ stricmp (s.host a) (s.host target) = 0 := by
      have hboth : (a, other) ∈ s.those (clone s (s.host target)) ↔ (a, other) ∈ l := by
        rw [hkilled.mem_iff, hclears.mem_iff]
      rw [hrest.mem_those, hclones, and_iff_right hval, and_iff_right hval] at hboth
      exact hboth
    refine ⟨fun hequal ↦ ?_, hsame, (akillsOnce_addAkill hlower ..).mp hakill⟩
    have hclone := hrest.mem_those.mpr ⟨hcaller, (hsame u caller hcaller).mpr hequal⟩
    have hdead := (hkilled.mem_iff.mp hclone).2
    rw [huser] at hdead
    cases hdead
  · rintro ⟨hother, hsame, hroom⟩
    cases halive : s'.table.userlist.val u with
    | none =>
      have hclone := (hrest.mem_those.mp (hkilled.mem_iff.mpr ⟨hcaller, halive⟩)).2
      exact absurd ((hsame u caller hcaller).mp hclone) hother
    | some user =>
      refine ⟨_, s', _, rfl, ⟨_, hkilled, fun a user ↦ ?_⟩, (akillsOnce_addAkill hlower ..).mpr hroom⟩
      rw [hrest.mem_those]
      exact and_congr_right (hsame a user)

end Clones

/-- A second user beside `[a`. -/
def twoUsers : UserTable :=
  { bracketUser with
    userlist := HashTable.push (hashUser ⟨['b', 'c'], 0⟩) 1 ⟨['b', 'c'], 0⟩ bracketUser.userlist
    usercnt := 2
    maxusercnt := 2 }

theorem val_twoUsers {b : ℕ} {user : TableUser} (h : twoUsers.userlist.val b = some user) :
    (b = 1 ∧ user = ⟨['b', 'c'], 0⟩) ∨ b = 0 ∧ user = ⟨['[', 'a'], 0⟩ := by
  rw [show twoUsers.userlist.val = Function.update bracketUser.userlist.val 1 (some ⟨['b', 'c'], 0⟩) from
    val_push .., Function.update_apply] at h
  split_ifs at h with hb
  · exact .inl ⟨hb, (Option.some.inj h).symm⟩
  · exact .inr (val_bracketUser h)

theorem resting_twoUsers : (onHosts twoUsers).Resting where
  nicked := by
    have hreached : Reached twoUsers := by
      refine .newUser reached_bracketUser (fun b user h ↦ ?_)
        (show newUser 1 ['b', 'c'] bracketUser = some twoUsers from rfl)
      rw [(val_bracketUser h).2]
      decide
    refine ⟨hreached.sound, fun b user h ↦ ?_⟩
    rcases val_twoUsers h with ⟨-, rfl⟩ | ⟨-, rfl⟩
    · decide
    · decide
  ended := rfl

/-- `[a` kills the clones of `bc`, who is on another host. -/
theorem doKillclones_clears_twoUsers : KillsClones (onHosts twoUsers) [] 1
    (doKillclones "services.example".toList 1000 0 "bc".toList (onHosts twoUsers) []) := by
  have hcaller : (onHosts twoUsers).table.userlist.val 0 = some ⟨['[', 'a'], 0⟩ := by decide +kernel
  have hword : (nextWord "bc".toList).1 = some "bc".toList := by decide +kernel
  have htarget : finduser (onHosts twoUsers).table "bc".toList = some 1 := by decide +kernel
  refine (doKillclones_clears_iff _ _ _ resting_twoUsers hcaller hword htarget).mpr
    ⟨by decide +kernel, fun a user _ ↦ ?_, .inl (by decide)⟩
  have hhost : (onHosts twoUsers).host 1 = "b.example".toList := rfl
  rw [hhost]
  exact clone_iff (by decide) (by simp [isWild]) a user

/-- `[a` kills the clones of `[a`, and his own record is used after that. -/
theorem not_doKillclones_clears : ¬ ∀ (s : Online) (akills : List AkillRow) (u target : ℕ)
    (line clonenick : CString), s.Resting → (s.table.userlist.val u).isSome → (nextWord line).1 = some clonenick →
    finduser s.table clonenick = some target →
      KillsClones s akills target (doKillclones "services.example".toList 1000 u line s akills) := by
  intro h
  rcases h (onHosts bracketUser) [] 0 0 "[a".toList "[a".toList resting_bracketUser (by decide +kernel)
    (by decide +kernel) (by decide +kernel) with ⟨replies, s', akills', hsome, -, -⟩
  have hnone : (doKillclones "services.example".toList 1000 0 "[a".toList (onHosts bracketUser) []).isNone := by
    decide +kernel
  rw [hsome] at hnone
  cases hnone

end BlitzedServices.OperServ
