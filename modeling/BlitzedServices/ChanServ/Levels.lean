import BlitzedServices.ChanServ.AccessAgreement
import BlitzedServices.ChanServ.Sync

/-!
# Levels of the access categories

`check_access` compares the level of a user with that of a category. `checkAccess_iff` is its rule for a
user who is not the founder, and `respectsLevels_iff` says when a higher level is never worse: SECUREOPS,
which keeps users who are not on the access list from being operators, makes one exception.

LEVELS SET reads the level of a category from a text into a `short`.
-/

set_option autoImplicit false
set_option relaxedAutoImplicit false

namespace BlitzedServices.ChanServ

open Lib Mysql

/-- A category that takes something away. -/
def Negative (what : ℕ) : Prop :=
  what = CA_AUTODEOP ∨ what = CA_NOJOIN

instance (what : ℕ) : Decidable (Negative what) := inferInstanceAs (Decidable (_ ∨ _))

/-- AUTODEOP on a channel with SECUREOPS hits everybody who is at level 0. -/
def DeoppedBySecureops (db : Database) (channelId what : ℕ) (level : ℤ) : Prop :=
  what = CA_AUTODEOP ∧ level = 0 ∧ getChanFlags db channelId &&& CI_SECUREOPS ≠ 0#32

instance (db : Database) (channelId what : ℕ) (level : ℤ) :
    Decidable (DeoppedBySecureops db channelId what level) :=
  inferInstanceAs (Decidable (_ ∧ _))

/-- The level reaches that of the category, from the side that the category asks for. -/
def Reaches (what : ℕ) (level whatLevel : ℤ) : Prop :=
  if Negative what then level ≤ whatLevel else whatLevel ≤ level

theorem getChanFlags_getAccess (u : AccessUser) (now : ℕ) (db : Database) (channelId c : ℕ) :
    getChanFlags (getAccess u now db channelId).2 c = getChanFlags db c := by
  obtain ⟨stamp, hstamp⟩ := getAccess_stamps u now db channelId
  rw [hstamp]
  rfl

/-- `check_access` for a user who is not the founder. -/
theorem checkAccess_iff {u : AccessUser} {now : ℕ} {db : Database} {channelId : ℕ} (what : ℕ)
    (hfounder : (getAccess u now db channelId).1 ≠ ACCESS_FOUNDER) :
    (checkAccess u now db channelId what).1 = true ↔
      DeoppedBySecureops db channelId what (getAccess u now db channelId).1 ∨
        getChanLevel db channelId what ≠ ACCESS_INVALID ∧
          Reaches what (getAccess u now db channelId).1 (getChanLevel db channelId what) := by
  have hlevel := getChanLevel_getAccess u now db channelId what
  have hflags := getChanFlags_getAccess u now db channelId channelId
  rw [checkAccess]
  simp only [if_neg hfounder, hlevel, hflags]
  show (if DeoppedBySecureops db channelId what (getAccess u now db channelId).1 then _ else _ :
    Bool × Database).1 = true ↔ _
  by_cases hsecureops : DeoppedBySecureops db channelId what (getAccess u now db channelId).1
  · rw [if_pos hsecureops]
    exact iff_of_true rfl (.inl hsecureops)
  · rw [if_neg hsecureops, or_iff_right hsecureops]
    by_cases hinvalid : getChanLevel db channelId what = ACCESS_INVALID
    · rw [if_pos hinvalid]
      exact iff_of_false Bool.false_ne_true fun h ↦ h.1 hinvalid
    · rw [if_neg hinvalid, and_iff_right hinvalid, Reaches]
      by_cases hnegative : Negative what
      · have hor : what = CA_AUTODEOP ∨ what = CA_NOJOIN := hnegative
        rw [if_pos hor, if_pos hnegative, decide_eq_true_eq]
      · have hor : ¬ (what = CA_AUTODEOP ∨ what = CA_NOJOIN) := hnegative
        rw [if_neg hor, if_neg hnegative, decide_eq_true_eq]

/-! ### Higher levels -/

/-- The user with the higher level is granted what the other is, and nothing is taken from him that is
not taken from the other. -/
def RespectsLevels (db : Database) (now channelId what : ℕ) (higher lower : AccessUser) : Prop :=
  if Negative what then
    (checkAccess lower now db channelId what).1 = false → (checkAccess higher now db channelId what).1 = false
  else (checkAccess lower now db channelId what).1 = true → (checkAccess higher now db channelId what).1 = true

/-- A higher level is never worse, but on a channel with SECUREOPS AUTODEOP hits a user of level 0 even
where it does not hit one of a lower level. -/
theorem respectsLevels_iff {db : Database} {now channelId : ℕ} (what : ℕ) {higher lower : AccessUser}
    (hhigher : (getAccess higher now db channelId).1 ≠ ACCESS_FOUNDER)
    (hlower : (getAccess lower now db channelId).1 ≠ ACCESS_FOUNDER)
    (hlt : (getAccess lower now db channelId).1 < (getAccess higher now db channelId).1) :
    RespectsLevels db now channelId what higher lower ↔
      ¬ (DeoppedBySecureops db channelId what (getAccess higher now db channelId).1 ∧
        (getChanLevel db channelId what = ACCESS_INVALID ∨
          getChanLevel db channelId what < (getAccess lower now db channelId).1)) := by
  have hcheckHigher := checkAccess_iff what hhigher
  have hcheckLower := checkAccess_iff what hlower
  set x := (getAccess higher now db channelId).1
  set y := (getAccess lower now db channelId).1
  set level := getChanLevel db channelId what
  rw [RespectsLevels]
  by_cases hnegative : Negative what
  · have hx : Reaches what x level ↔ x ≤ level := by rw [Reaches, if_pos hnegative]
    have hy : Reaches what y level ↔ y ≤ level := by rw [Reaches, if_pos hnegative]
    rw [if_pos hnegative, ← Bool.not_eq_true, ← Bool.not_eq_true, hcheckHigher, hcheckLower, hx, hy]
    by_cases hsecureops : DeoppedBySecureops db channelId what x
    · have hzero : ¬ DeoppedBySecureops db channelId what y := by
        intro h
        exact absurd (h.2.1.trans hsecureops.2.1.symm) hlt.ne
      constructor
      · rintro h ⟨-, hnone⟩
        refine h ?_ (.inl hsecureops)
        rintro (hy | ⟨hvalid, hle⟩)
        · exact hzero hy
        · exact hnone.elim hvalid (not_lt.mpr hle)
      · intro h hnot
        by_cases hinvalid : level = ACCESS_INVALID
        · exact absurd ⟨hsecureops, .inl hinvalid⟩ h
        · have hle : y ≤ level := not_lt.mp fun hlt' ↦ h ⟨hsecureops, .inr hlt'⟩
          exact absurd (.inr ⟨hinvalid, hle⟩) hnot
    · refine iff_of_true (fun hnot hx' ↦ hnot ?_) fun h ↦ hsecureops h.1
      rcases hx' with hx' | ⟨hvalid, hle⟩
      · exact absurd hx' hsecureops
      · exact .inr ⟨hvalid, hlt.le.trans hle⟩
  · have hnone (z : ℤ) : ¬ DeoppedBySecureops db channelId what z := fun h ↦ hnegative (.inl h.1)
    have hx : Reaches what x level ↔ level ≤ x := by rw [Reaches, if_neg hnegative]
    have hy : Reaches what y level ↔ level ≤ y := by rw [Reaches, if_neg hnegative]
    rw [if_neg hnegative, hcheckHigher, hcheckLower, hx, hy]
    refine iff_of_true ?_ fun h ↦ hnone x h.1
    rintro (h | ⟨hvalid, hle⟩)
    · exact absurd h (hnone y)
    · exact .inr ⟨hvalid, hle.trans hlt.le⟩

/-- Channel `#` with SECUREOPS, on which AUTODEOP hits level -5 and below; nick `b` has level -1. -/
def secureopsChannel : Database :=
  { exampleAccess with
    channel := [⟨1, ['#'], 3, 0, CI_SECUREOPS⟩]
    chanaccess := [⟨1, 1, 1, -1, 2, 100, 100, 0, 0, ['c'], ['c']⟩]
    chanlevel := [⟨1, CA_AUTODEOP, -5⟩] }

/-- A user who is identified for his nick. -/
def identifiedAs (nick : CString) (nickId : ℕ) : AccessUser :=
  { nick, nickId, realId := nickId, status := NS_IDENTIFIED, founderChans := [], isServicesAdmin := false }

theorem respectsLevels_iff_invite :
    RespectsLevels secureopsChannel 200 1 CA_INVITE (identifiedAs ['a'] 1) (identifiedAs ['b'] 2) :=
  (respectsLevels_iff CA_INVITE (by decide) (by decide) (by decide)).mpr (by decide)

/-- `a`, who is not on the access list, loses his status, and `b` with his negative level does not. -/
theorem not_respectsLevels :
    (getAccess (identifiedAs ['a'] 1) 200 secureopsChannel 1).1 = 0 ∧
      (getAccess (identifiedAs ['b'] 2) 200 secureopsChannel 1).1 = -1 ∧
      ¬ RespectsLevels secureopsChannel 200 1 CA_AUTODEOP (identifiedAs ['a'] 1) (identifiedAs ['b'] 2) := by
  unfold RespectsLevels
  decide

/-! ### LEVELS -/

/-- `levelinfo`. -/
def levelinfo : List (ℕ × CString) :=
  [(CA_AUTOOP, "AUTOOP".toList), (CA_AUTOVOICE, "AUTOVOICE".toList),
    (CA_AUTODEOP, "AUTODEOP".toList), (CA_NOJOIN, "NOJOIN".toList), (CA_INVITE, "INVITE".toList),
    (CA_AKICK, "AKICK".toList), (CA_SET, "SET".toList), (CA_CLEAR, "CLEAR".toList),
    (CA_UNBAN, "UNBAN".toList), (CA_OPDEOP, "OPDEOP".toList), (CA_ACCESS_LIST, "ACC-LIST".toList),
    (CA_ACCESS_CHANGE, "ACC-CHANGE".toList), (CA_MEMO_READ, "MEMO-READ".toList),
    (CA_LEVEL_LIST, "LEV-LIST".toList), (CA_LEVEL_CHANGE, "LEV-CHANGE".toList), (CA_SYNC, "SYNC".toList),
    (CA_MEMO_SEND, "MEMO-SEND".toList), (CA_AKICK_LIST, "AKICK-LIST".toList)]

/-- What LEVELS replies. -/
inductive LevelsReply where
  | CHAN_LEVELS_SYNTAX
  | CHAN_X_NOT_REGISTERED (chan : CString)
  | CHAN_X_FORBIDDEN (chan : CString)
  | ACCESS_DENIED
  | CHAN_LEVELS_RANGE (lo hi : ℤ)
  | CHAN_LEVELS_CHANGED (name chan : CString) (level : ℤ)
  | CHAN_LEVELS_DISABLED (name chan : CString)
  | CHAN_LEVELS_UNKNOWN (what : CString)
  | CHAN_LEVELS_LIST (levels : List (CString × ℤ))
  | CHAN_LEVELS_RESET (chan : CString)
  deriving DecidableEq

/-- What LEVELS tells the operators of a channel with VERBOSE. -/
inductive LevelsOpnotice where
  | changed (name : CString) (oldlevel : Option ℤ) (level : ℤ)
  | disabled (name : CString) (oldlevel : ℤ)
  | reset
  deriving DecidableEq

/-- What a request of LEVELS leads to. -/
structure LevelsResult where
  reply : LevelsReply
  opnotice : Option LevelsOpnotice
  db : Database

/-- `set_chan_level`. The channel and the category are the key of the table. -/
def setChanLevel (db : Database) (channelId what : ℕ) (level : ℤ) : Database :=
  { db with
    chanlevel := (db.chanlevel.filter fun r ↦ ¬ (r.channelId = channelId ∧ r.what = what)) ++
      [⟨channelId, what, level⟩] }

/-- `reset_levels`. -/
def resetLevels (db : Database) (channelId : ℕ) : Database :=
  { db with chanlevel := db.chanlevel.filter fun r ↦ r.channelId ≠ channelId }

/-- `atoi`, stored in a `short`. -/
def readShort (s : CString) : ℤ :=
  ((atoi s).setWidth 16).toInt

/-- The entry of `levelinfo` that a name stands for. -/
def findLevel (what : CString) : Option (ℕ × CString) :=
  levelinfo.find? fun info ↦ stricmp info.2 what = 0

/-- SET, after the check for access. -/
def doLevelsSet (db : Database) (channelId : ℕ) (chan what s : CString) : LevelsResult :=
  let level := readShort s
  if level ≤ ACCESS_INVALID ∨ ACCESS_FOUNDER ≤ level then
    ⟨.CHAN_LEVELS_RANGE (ACCESS_INVALID + 1) (ACCESS_FOUNDER - 1), none, db⟩
  else
    match findLevel what with
    | some (ca, name) =>
      let oldlevel := getChanLevel db channelId ca
      let opnotice :=
        if getChanFlags db channelId &&& CI_VERBOSE ≠ 0#32 ∧ oldlevel ≠ level then
          some (.changed name (if oldlevel = ACCESS_INVALID then none else some oldlevel) level)
        else none
      ⟨.CHAN_LEVELS_CHANGED name chan level, opnotice, setChanLevel db channelId ca level⟩
    | none => ⟨.CHAN_LEVELS_UNKNOWN what, none, db⟩

/-- DISABLE, after the check for access. -/
def doLevelsDisable (db : Database) (channelId : ℕ) (chan what : CString) : LevelsResult :=
  match findLevel what with
  | some (ca, name) =>
    let oldlevel := getChanLevel db channelId ca
    let opnotice :=
      if getChanFlags db channelId &&& CI_VERBOSE ≠ 0#32 ∧ oldlevel ≠ ACCESS_INVALID then
        some (.disabled name oldlevel)
      else none
    ⟨.CHAN_LEVELS_DISABLED name chan, opnotice, setChanLevel db channelId ca ACCESS_INVALID⟩
  | none => ⟨.CHAN_LEVELS_UNKNOWN what, none, db⟩

/-- RESET, after the check for access. -/
def doLevelsReset (db : Database) (channelId : ℕ) (chan : CString) : LevelsResult :=
  ⟨.CHAN_LEVELS_RESET chan,
    if getChanFlags db channelId &&& CI_VERBOSE ≠ 0#32 then some .reset else none,
    resetLevels db channelId⟩

/-- The number of words does not suit the command. -/
def badLevelsWords (cmd : CString) (what s : Option CString) : Bool :=
  if stricmp cmd "SET".toList = 0 then s.isNone
  else if stricmp (cmd.take 3) "DIS".toList = 0 then what.isNone || s.isSome
  else what.isSome

/-- A branch of LEVELS for which a user needs access to a category. -/
def withAccess (u : AccessUser) (now : ℕ) (db : Database) (channelId category : ℕ)
    (next : Database → LevelsResult) : LevelsResult :=
  let checked := checkAccess u now db channelId category
  if checked.1 = false ∧ u.isServicesAdmin = false then ⟨.ACCESS_DENIED, none, checked.2⟩
  else next checked.2

/-- `do_levels` with the rest of the line. -/
def doLevels (u : AccessUser) (now : ℕ) (db : Database) (rest : CString) : LevelsResult :=
  match strtokWords rest with
  | chan :: cmd :: words =>
    if badLevelsWords cmd words[0]? words[1]? then ⟨.CHAN_LEVELS_SYNTAX, none, db⟩
    else
      let channelId := mysqlFindchan db chan
      if channelId = 0 then ⟨.CHAN_X_NOT_REGISTERED chan, none, db⟩
      else if getChanFlags db channelId &&& CI_VERBOTEN ≠ 0#32 then ⟨.CHAN_X_FORBIDDEN chan, none, db⟩
      else if stricmp cmd "SET".toList = 0 then
        withAccess u now db channelId CA_LEVEL_CHANGE fun db ↦
          doLevelsSet db channelId chan (words[0]?.getD []) (words[1]?.getD [])
      else if stricmp cmd "DIS".toList = 0 ∨ stricmp cmd "DISABLE".toList = 0 then
        withAccess u now db channelId CA_LEVEL_CHANGE fun db ↦
          doLevelsDisable db channelId chan (words[0]?.getD [])
      else if stricmp cmd "LIST".toList = 0 then
        withAccess u now db channelId CA_LEVEL_LIST fun db ↦
          ⟨.CHAN_LEVELS_LIST (levelinfo.map fun info ↦ (info.2, getChanLevel db channelId info.1)), none, db⟩
      else if stricmp cmd "RESET".toList = 0 then
        withAccess u now db channelId CA_LEVEL_CHANGE fun db ↦ doLevelsReset db channelId chan
      else ⟨.CHAN_LEVELS_SYNTAX, none, db⟩
  | _ => ⟨.CHAN_LEVELS_SYNTAX, none, db⟩

/-! ### The level that LEVELS SET sets -/

/-- The number that a text of digits, with or without a sign, denotes. -/
def denotedInt : CString → Option ℤ
  | '-' :: digits => if digits ≠ [] ∧ digits.all Char.isDigit then some (-digitsValue digits) else none
  | '+' :: digits => if digits ≠ [] ∧ digits.all Char.isDigit then some (digitsValue digits) else none
  | digits => if digits ≠ [] ∧ digits.all Char.isDigit then some (digitsValue digits) else none

/-- LEVELS SET has set a level. -/
def LevelsResult.isSet (result : LevelsResult) : Bool :=
  match result.reply with
  | .CHAN_LEVELS_CHANGED _ _ _ => true
  | _ => false

/-- LEVELS SET does for a name and a text what they say: only a number in the range is set, the category
is granted from that level on, and nothing else changes. -/
structure SetFaithful (db : Database) (channelId : ℕ) (name text : CString) (result : LevelsResult) :
    Prop where
  failed : result.isSet = false → result.db.chanlevel = db.chanlevel
  set : result.isSet = true → ∃ n, denotedInt text = some n ∧ ACCESS_INVALID < n ∧ n < ACCESS_FOUNDER ∧
    ∃ info, findLevel name = some info ∧
      (∀ v t, (getAccess v t result.db channelId).1 ≠ ACCESS_FOUNDER →
        ((checkAccess v t result.db channelId info.1).1 = true ↔
          Reaches info.1 (getAccess v t result.db channelId).1 n)) ∧
      ∀ what, what ≠ info.1 → getChanLevel result.db channelId what = getChanLevel db channelId what

theorem getChanLevel_setChanLevel_self (db : Database) (channelId what : ℕ) (level : ℤ) :
    getChanLevel (setChanLevel db channelId what level) channelId what = level := by
  have hnone : (db.chanlevel.filter fun r ↦ ¬ (r.channelId = channelId ∧ r.what = what)).find?
      (fun r ↦ r.channelId = channelId ∧ r.what = what) = none := by
    rw [List.find?_eq_none]
    intro r hr
    simpa only [decide_not, Bool.not_eq_true', Bool.not_eq_true] using (List.mem_filter.mp hr).2
  rw [getChanLevel, setChanLevel, List.find?_append, hnone]
  simp

theorem getChanLevel_setChanLevel_of_ne {db : Database} {channelId what c w : ℕ} (level : ℤ)
    (h : ¬ (c = channelId ∧ w = what)) :
    getChanLevel (setChanLevel db channelId what level) c w = getChanLevel db c w := by
  have hfind : (setChanLevel db channelId what level).chanlevel.find?
      (fun r ↦ r.channelId = c ∧ r.what = w) =
        db.chanlevel.find? fun r ↦ r.channelId = c ∧ r.what = w := by
    have hlast : ¬ (channelId = c ∧ what = w) := fun heq ↦ h ⟨heq.1.symm, heq.2.symm⟩
    rw [setChanLevel, List.find?_append, List.find?_filter]
    simp only [List.find?_cons, List.find?_nil, decide_eq_false hlast, Option.or_none]
    refine congrArg (fun p ↦ db.chanlevel.find? p) (funext fun r ↦ ?_)
    by_cases hr : r.channelId = c ∧ r.what = w
    · rw [hr.1, hr.2]
      simp [h]
    · simp [hr]
  rw [getChanLevel, getChanLevel, hfind]

/-- The text of a number is read as the number, if that fits. -/
theorem readShort_of_denotedInt {text : CString} {n : ℤ} (h : denotedInt text = some n)
    (hlo : -2 ^ 15 ≤ n) (hhi : n < 2 ^ 15) : readShort text = n := by
  have hvalue : signedValue text = n := by
    have hspace : isspace '-' = false ∧ isspace '+' = false := by decide
    unfold denotedInt at h
    split at h
    · split_ifs at h
      cases h
      simp [signedValue, hspace.1]
    · split_ifs at h
      cases h
      simp [signedValue, hspace.2]
    · split_ifs at h with hdigits
      cases h
      rcases hdigits with ⟨hne, hall⟩
      cases text with
      | nil => exact absurd rfl hne
      | cons c s =>
        rw [List.all_cons, Bool.and_eq_true] at hall
        exact signedValue_of_isDigit hall.1
  rw [readShort, atoi, strtol, hvalue, Int.min_eq_right (by omega), Int.max_eq_right (by omega),
    BitVec.toInt_setWidth, BitVec.toNat_ofInt, Int.bmod_def]
  split_ifs <;> omega

/-- What SET does after the check for access. -/
theorem doLevelsSet_cases (db : Database) (channelId : ℕ) (chan name text : CString) :
    (doLevelsSet db channelId chan name text).isSet = false ∧
        (doLevelsSet db channelId chan name text).db = db ∨
      (doLevelsSet db channelId chan name text).isSet = true ∧
        ACCESS_INVALID < readShort text ∧ readShort text < ACCESS_FOUNDER ∧
        ∃ info, findLevel name = some info ∧
          (doLevelsSet db channelId chan name text).db =
            setChanLevel db channelId info.1 (readShort text) := by
  by_cases hrange : readShort text ≤ ACCESS_INVALID ∨ ACCESS_FOUNDER ≤ readShort text
  · refine .inl ?_
    simp only [doLevelsSet, if_pos hrange]
    exact ⟨rfl, trivial⟩
  · rcases not_or.mp hrange with ⟨hlo, hhi⟩
    cases hfind : findLevel name with
    | none =>
      refine .inl ?_
      simp only [doLevelsSet, if_neg hrange, hfind]
      exact ⟨rfl, trivial⟩
    | some info =>
      refine .inr ?_
      simp only [doLevelsSet, if_neg hrange, hfind]
      exact ⟨rfl, not_le.mp hlo, not_le.mp hhi, info, rfl, rfl⟩

section DoLevels

variable (u : AccessUser) (now : ℕ) (db : Database) {rest chan cmd name text : CString}
  {words : List CString}

/-- A request of SET is refused, or SET is done after a look at the user's level. -/
theorem doLevels_set_cases (hwords : strtokWords rest = chan :: cmd :: name :: text :: words)
    (hset : stricmp cmd "SET".toList = 0) :
    (doLevels u now db rest).isSet = false ∧
        ((doLevels u now db rest).db = db ∨
          (doLevels u now db rest).db = (getAccess u now db (mysqlFindchan db chan)).2) ∨
      doLevels u now db rest =
        doLevelsSet (getAccess u now db (mysqlFindchan db chan)).2 (mysqlFindchan db chan) chan name text := by
  have hgood : badLevelsWords cmd (some name) (some text) = false := by
    rw [badLevelsWords, if_pos hset]
    rfl
  simp only [doLevels, hwords, List.getElem?_cons_zero, List.getElem?_cons_succ, hgood,
    Option.getD_some, if_neg Bool.false_ne_true, if_pos hset]
  by_cases hzero : mysqlFindchan db chan = 0
  · rw [if_pos hzero]
    exact .inl ⟨rfl, .inl rfl⟩
  rw [if_neg hzero]
  by_cases hforbidden : getChanFlags db (mysqlFindchan db chan) &&& CI_VERBOTEN ≠ 0#32
  · rw [if_pos hforbidden]
    exact .inl ⟨rfl, .inl rfl⟩
  rw [if_neg hforbidden, withAccess, checkAccess_snd]
  by_cases hdenied : (checkAccess u now db (mysqlFindchan db chan) CA_LEVEL_CHANGE).1 = false ∧
      u.isServicesAdmin = false
  · simp only [if_pos hdenied]
    exact .inl ⟨rfl, .inr trivial⟩
  · simp only [if_neg hdenied]
    exact .inr trivial

/-- LEVELS SET either fails, and changes nothing but the time of last use of the user's own entry, or it
sets the level of the named category and of no other. A text of a number that fits into a `short` is then
within the range, and the category is granted from that number on, but for the users that SECUREOPS
deops. -/
theorem doLevels_set (hwords : strtokWords rest = chan :: cmd :: name :: text :: words)
    (hset : stricmp cmd "SET".toList = 0) :
    let result := doLevels u now db rest
    let channelId := mysqlFindchan db chan
    (result.isSet = false → result.db = db ∨ result.db = (getAccess u now db channelId).2) ∧
      (result.isSet = true → ∃ info, findLevel name = some info ∧
        (∀ c what, ¬ (c = channelId ∧ what = info.1) →
          getChanLevel result.db c what = getChanLevel db c what) ∧
        ∀ n, denotedInt text = some n → -2 ^ 15 ≤ n → n < 2 ^ 15 →
          ACCESS_INVALID < n ∧ n < ACCESS_FOUNDER ∧
            ∀ v t, (getAccess v t result.db channelId).1 ≠ ACCESS_FOUNDER →
              ((checkAccess v t result.db channelId info.1).1 = true ↔
                DeoppedBySecureops db channelId info.1 (getAccess v t result.db channelId).1 ∨
                  Reaches info.1 (getAccess v t result.db channelId).1 n)) := by
  intro result channelId
  rcases doLevels_set_cases u now db hwords hset with ⟨hfailed, hdb⟩ | hresult
  · exact ⟨fun _ ↦ hdb, fun h ↦ absurd (hfailed.symm.trans h) Bool.false_ne_true⟩
  obtain ⟨stamp, hstamp⟩ := getAccess_stamps u now db channelId
  rcases doLevelsSet_cases (getAccess u now db channelId).2 channelId chan name text with
    ⟨hfailed, hdb⟩ | ⟨hdone, hlo, hhi, info, hfind, hdb⟩
  · rw [← hresult] at hfailed hdb
    exact ⟨fun _ ↦ .inr hdb, fun h ↦ absurd (hfailed.symm.trans h) Bool.false_ne_true⟩
  · rw [← hresult] at hdone hdb
    refine ⟨fun h ↦ absurd (h.symm.trans hdone) Bool.false_ne_true, fun _ ↦ ⟨info, hfind, ?_, ?_⟩⟩
    · intro c what hne
      show getChanLevel (doLevels u now db rest).db c what = _
      rw [hdb, getChanLevel_setChanLevel_of_ne _ hne, hstamp]
      rfl
    · intro n hdenoted hn hn'
      have hread : readShort text = n := readShort_of_denotedInt hdenoted hn hn'
      have hlevel : getChanLevel result.db channelId info.1 = n := by
        show getChanLevel (doLevels u now db rest).db channelId info.1 = n
        rw [hdb, getChanLevel_setChanLevel_self, hread]
      have hflags : getChanFlags result.db channelId = getChanFlags db channelId := by
        show getChanFlags (doLevels u now db rest).db channelId = _
        rw [hdb, hstamp]
        rfl
      rw [hread] at hlo hhi
      refine ⟨hlo, hhi, fun v t hfounder ↦ ?_⟩
      rw [checkAccess_iff info.1 hfounder, hlevel, and_iff_right hlo.ne', DeoppedBySecureops, hflags]
      exact Iff.rfl

end DoLevels

/-- A services admin. -/
def levelsAdmin : AccessUser :=
  { identifiedAs ['b'] 2 with isServicesAdmin := true }

theorem doLevels_set_invite :
    (doLevels levelsAdmin 200 exampleAccess "# SET INVITE 7".toList).isSet = true ∧
      ∀ v t, (getAccess v t (doLevels levelsAdmin 200 exampleAccess "# SET INVITE 7".toList).db 1).1 ≠
          ACCESS_FOUNDER →
        ((checkAccess v t (doLevels levelsAdmin 200 exampleAccess "# SET INVITE 7".toList).db 1 CA_INVITE).1 =
            true ↔
          DeoppedBySecureops exampleAccess 1 CA_INVITE
              (getAccess v t (doLevels levelsAdmin 200 exampleAccess "# SET INVITE 7".toList).db 1).1 ∨
            Reaches CA_INVITE
              (getAccess v t (doLevels levelsAdmin 200 exampleAccess "# SET INVITE 7".toList).db 1).1 7) := by
  have hwords : strtokWords "# SET INVITE 7".toList =
      ['#'] :: "SET".toList :: "INVITE".toList :: ['7'] :: [] := by decide
  have hdone : (doLevels levelsAdmin 200 exampleAccess "# SET INVITE 7".toList).isSet = true := by
    decide +kernel
  have hfind : findLevel "INVITE".toList = some (CA_INVITE, "INVITE".toList) := by decide
  have hchannel : mysqlFindchan exampleAccess ['#'] = 1 := by decide
  rcases (doLevels_set levelsAdmin 200 exampleAccess hwords (by decide)).2 hdone with
    ⟨info, hinfo, -, hgrants⟩
  rw [hfind] at hinfo
  cases hinfo
  rw [hchannel] at hgrants
  exact ⟨hdone, (hgrants 7 (by decide) (by decide) (by decide)).2.2⟩

/-- 65541 is set as 5, and on a channel with SECUREOPS AUTODEOP hits level 0 although -1 was set. -/
theorem not_setFaithful :
    ¬ SetFaithful exampleAccess 1 "INVITE".toList "65541".toList
        (doLevels levelsAdmin 200 exampleAccess "# SET INVITE 65541".toList) ∧
      ¬ SetFaithful secureopsChannel 1 "AUTODEOP".toList "-1".toList
        (doLevels levelsAdmin 200 secureopsChannel "# SET AUTODEOP -1".toList) := by
  constructor
  · intro h
    rcases h.set (by decide +kernel) with ⟨n, hdenoted, -, hlt, -⟩
    have hn : denotedInt "65541".toList = some 65541 := by decide +kernel
    rw [hn] at hdenoted
    cases hdenoted
    exact absurd hlt (by decide)
  · intro h
    rcases h.set (by decide +kernel) with ⟨n, hdenoted, -, -, info, hinfo, hgrants, -⟩
    have hn : denotedInt "-1".toList = some (-1) := by decide +kernel
    have hfind : findLevel "AUTODEOP".toList = some (CA_AUTODEOP, "AUTODEOP".toList) := by decide
    rw [hn] at hdenoted
    rw [hfind] at hinfo
    cases hdenoted
    cases hinfo
    have hreaches := (hgrants (identifiedAs ['a'] 1) 200 (by decide +kernel)).mp (by decide +kernel)
    rw [Reaches, if_pos (by decide)] at hreaches
    exact absurd hreaches (by decide +kernel)

end BlitzedServices.ChanServ
