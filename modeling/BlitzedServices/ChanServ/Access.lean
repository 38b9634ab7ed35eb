import BlitzedServices.Mysql.Database
import BlitzedServices.ChanServ.SetMlock

/-!
# Access lists

ACCESS ADD and DEL and the three XOP commands change the access list of a channel. `Guarded` is what
they may do to it: every entry they create, change or remove is below a bound, before and after, and
the entries of other channels stay. It composes, so each command is a chain of guarded steps.

`requests_guarded` shows that every request is guarded by the access level of the user who makes it.
Two columns are bookkeeping and change in other entries too: reading a user's level stamps `last_used`
in the entry it comes from, and `sort_chan_access` numbers the whole list anew.
-/

set_option autoImplicit false
set_option relaxedAutoImplicit false

namespace BlitzedServices.ChanServ

open Lib Mysql

/-! ### Levels -/

def ACCESS_FOUNDER : ℤ := 10000
def ACCESS_INVALID : ℤ := -10000

def CA_INVITE : ℕ := 0
def CA_AKICK : ℕ := 1
def CA_SET : ℕ := 2
def CA_UNBAN : ℕ := 3
def CA_AUTOOP : ℕ := 4
def CA_AUTODEOP : ℕ := 5
def CA_AUTOVOICE : ℕ := 6
def CA_OPDEOP : ℕ := 7
def CA_ACCESS_LIST : ℕ := 8
def CA_CLEAR : ℕ := 9
def CA_NOJOIN : ℕ := 10
def CA_ACCESS_CHANGE : ℕ := 11
def CA_MEMO_READ : ℕ := 12
def CA_LEVEL_LIST : ℕ := 13
def CA_LEVEL_CHANGE : ℕ := 14
def CA_SYNC : ℕ := 15
def CA_MEMO_SEND : ℕ := 16
def CA_AKICK_LIST : ℕ := 17

def CI_SECUREOPS : BitVec 32 := 0x2#32
def CI_SECURE : BitVec 32 := 0x40#32
def CI_VERBOTEN : BitVec 32 := 0x80#32

def NI_NOOP : BitVec 32 := 0x800#32

/-- `def_levels`. -/
def defLevels : List (ℕ × ℤ) :=
  [(CA_AUTOOP, 5), (CA_AUTOVOICE, 3), (CA_AUTODEOP, -1), (CA_NOJOIN, -2), (CA_INVITE, 5),
    (CA_AKICK, 10), (CA_SET, ACCESS_INVALID), (CA_CLEAR, ACCESS_INVALID), (CA_UNBAN, 5),
    (CA_OPDEOP, 5), (CA_ACCESS_LIST, 1), (CA_ACCESS_CHANGE, 10), (CA_MEMO_READ, 1),
    (CA_LEVEL_LIST, 1), (CA_LEVEL_CHANGE, ACCESS_INVALID), (CA_SYNC, 10), (CA_MEMO_SEND, 10),
    (CA_AKICK_LIST, 10)]

/-- `lookup_def_level`. -/
def lookupDefLevel (what : ℕ) : ℤ :=
  (defLevels.lookup what).getD ACCESS_INVALID

/-- `get_chan_level` and `get_level`. -/
def getChanLevel (db : Database) (channelId what : ℕ) : ℤ :=
  match db.chanlevel.find? fun r ↦ r.channelId = channelId ∧ r.what = what with
  | some r => r.level
  | none => lookupDefLevel what

/-! ### The user's own level -/

/-- The user who makes a request, with the cached status of the nick he uses. -/
structure AccessUser where
  nick : CString
  nickId : ℕ
  realId : ℕ
  status : BitVec 32
  founderChans : List ℕ
  isServicesAdmin : Bool

/-- `nick_identified`. -/
def nickIdentified (u : AccessUser) : Bool :=
  u.realId != 0 && u.status &&& NS_IDENTIFIED != 0#32

/-- `nick_recognized`. -/
def nickRecognized (u : AccessUser) : Bool :=
  u.realId != 0 && u.status &&& (NS_IDENTIFIED ||| NS_RECOGNIZED) != 0#32

/-- The user counts as the owner of his nick in the channel. -/
def trusted (u : AccessUser) (db : Database) (channelId : ℕ) : Bool :=
  nickIdentified u || (nickRecognized u && getChanFlags db channelId &&& CI_SECURE == 0#32)

/-- `get_founder_master_id`. -/
def getFounderMasterId (db : Database) (channelId : ℕ) : ℕ :=
  match db.channel.find? fun c ↦ c.channelId = channelId with
  | some c => ((db.nick.find? fun r ↦ r.nickId = c.founder).map NickRow.masterId).getD 0
  | none => 0

/-- `is_founder`. -/
def isFounder (u : AccessUser) (db : Database) (channelId : ℕ) : Bool :=
  (u.nickId == getFounderMasterId db channelId && trusted u db channelId) ||
    u.founderChans.contains channelId

/-- The entry `get_chanaccess_level` finds: the first of the nick or of a nick linked to it. -/
def chanaccessOf (db : Database) (channelId nickId : ℕ) : Option ChanaccessRow :=
  db.chanaccess.find? fun r ↦
    r.channelId = channelId ∧ db.nick.any fun n ↦ n.nickId = r.nickId ∧ n.masterId = nickId

/-- The UPDATE of `last_used`. -/
def stampLastUsed (db : Database) (now chanaccessId : ℕ) : Database :=
  { db with
    chanaccess := db.chanaccess.map fun r ↦
      if r.chanaccessId = chanaccessId then { r with lastUsed := now } else r }

/-- `get_chanaccess_level`. -/
def getChanaccessLevel (now : ℕ) (db : Database) (channelId nickId : ℕ) : ℤ × Database :=
  match chanaccessOf db channelId nickId with
  | some r => (r.level, if r.chanaccessId ≠ 0 then stampLastUsed db now r.chanaccessId else db)
  | none => (0, db)

/-- `get_access`. -/
def getAccess (u : AccessUser) (now : ℕ) (db : Database) (channelId : ℕ) : ℤ × Database :=
  if channelId = 0 ∨ u.nickId = 0 then (0, db)
  else if isFounder u db channelId then (ACCESS_FOUNDER, db)
  else if trusted u db channelId then getChanaccessLevel now db channelId u.nickId
  else (0, db)

/-- `check_access`. -/
def checkAccess (u : AccessUser) (now : ℕ) (db : Database) (channelId what : ℕ) :
    Bool × Database :=
  let (userLevel, db) := getAccess u now db channelId
  let negative := what = CA_AUTODEOP ∨ what = CA_NOJOIN
  if userLevel = ACCESS_FOUNDER then (!negative, db)
  else
    let whatLevel := getChanLevel db channelId what
    if what = CA_AUTODEOP ∧ userLevel = 0 ∧ getChanFlags db channelId &&& CI_SECUREOPS ≠ 0#32 then
      (true, db)
    else if whatLevel = ACCESS_INVALID then (false, db)
    else if negative then (userLevel ≤ whatLevel, db)
    else (whatLevel ≤ userLevel, db)

/-! ### Changing the list -/

/-- The entries of a channel as `sort_chan_access` orders them. -/
def sortedAccess (db : Database) (channelId : ℕ) : List ChanaccessRow :=
  (db.chanaccess.filter (·.channelId = channelId)).mergeSort fun r s ↦ s.level ≤ r.level

/-- `sort_chan_access`. The REPLACE keeps every column but the number. -/
def sortChanAccess (db : Database) (channelId : ℕ) : Database :=
  { db with
    chanaccess := db.chanaccess.map fun r ↦
      if r ∈ sortedAccess db channelId then
        { r with idx := (sortedAccess db channelId).idxOf r + 1 }
      else r }

/-- `get_chanaccess_from_nickid`. -/
def getChanaccessFromNickid (db : Database) (nickId channelId : ℕ) : Option ChanaccessRow :=
  db.chanaccess.find? fun r ↦ r.nickId = nickId ∧ r.channelId = channelId

/-- `chanaccess_count`. -/
def chanaccessCount (db : Database) (channelId : ℕ) : ℕ :=
  (db.chanaccess.filter (·.channelId = channelId)).length

/-- The row of an entry whose level is changed. -/
def modifiedRow (u : AccessUser) (now : ℕ) (level : ℤ) (r : ChanaccessRow) : ChanaccessRow :=
  if r.addedBy ≠ [] then { r with level, lastModified := now, modifiedBy := u.nick }
  else { r with level, added := now, lastModified := now, addedBy := u.nick, modifiedBy := u.nick }

/-- `modify_access`. -/
def modifyAccess (u : AccessUser) (now : ℕ) (db : Database) (ca : ChanaccessRow) (channelId : ℕ)
    (level : ℤ) : Database :=
  sortChanAccess
    { db with
      chanaccess := db.chanaccess.map fun r ↦
        if r.chanaccessId = ca.chanaccessId ∧ r.channelId = channelId then
          modifiedRow u now level r
        else r }
    channelId

/-- The next value of the AUTO_INCREMENT column. -/
def nextChanaccessId (db : Database) : ℕ :=
  (db.chanaccess.map ChanaccessRow.chanaccessId).foldr max 0 + 1

/-- `insert_access`. -/
def insertAccess (u : AccessUser) (now : ℕ) (db : Database) (channelId nickId : ℕ) (level : ℤ) :
    Database :=
  let row : ChanaccessRow :=
    { chanaccessId := nextChanaccessId db, channelId, idx := 0, level, nickId, added := now
      lastModified := now, lastUsed := 0, memoRead := 0, addedBy := u.nick
      modifiedBy := u.nick }
  sortChanAccess { db with chanaccess := db.chanaccess ++ [row] } channelId

/-- `DELETE FROM chanaccess WHERE chanaccess_id=...`. -/
def deleteAccess (db : Database) (chanaccessId : ℕ) : Database :=
  { db with chanaccess := db.chanaccess.filter (·.chanaccessId ≠ chanaccessId) }

/-! ### Number lists -/

/-- The text after the number that `strtol` reads. -/
def strtolRest (s : CString) : CString :=
  let text := s.dropWhile isspace
  let digits := if text.head? = some '-' ∨ text.head? = some '+' then text.tail else text
  if digits.head?.any Char.isDigit then digits.dropWhile Char.isDigit else s

/-- One `n1[-n2]` of a list, up to the next comma, as unsigned numbers. -/
def numlistRange (segment : CString) : ℕ × ℕ :=
  let n1 := (BitVec.ofInt 32 (strtol segment)).toNat
  let stop := fun c : Char ↦ !(c.isDigit || c == ',' || c == '-')
  match (strtolRest segment).dropWhile stop with
  | '-' :: rest =>
    let rest := rest.dropWhile fun c ↦ !(c.isDigit || c == ',')
    if rest.head?.any Char.isDigit then (n1, (BitVec.ofInt 32 (strtol rest)).toNat) else (n1, n1)
  | _ => (n1, n1)

/-- The ranges of a list. A comma at the end adds none. -/
def numlistRanges (numstr : CString) : List (ℕ × ℕ) :=
  let segments := numstr.splitOn ','
  let segments := if segments.getLast? = some [] then segments.dropLast else segments
  segments.map numlistRange

/-- The numbers that `process_numlist` calls its callback with, in ascending order. Each call gets the
same arguments. -/
def numlist (numstr : CString) (lo hi : ℕ) : List ℕ :=
  let ranges := (numlistRanges numstr).map fun (n1, n2) ↦ (max n1 lo, min (min n2 hi) 65536)
  (List.range 65537).filter fun i ↦ ranges.any fun (n1, n2) ↦ n1 ≤ i && i ≤ n2

/-- The result of `access_del_callback` calls so far. -/
structure DelState where
  db : Database
  count : ℕ
  deleted : ℕ
  last : ℤ
  perm : ℤ

/-- `access_del_callback`. It returns 1 for an entry it deletes and 0 otherwise. -/
def accessDelCallback (channelId : ℕ) (uacc akickLev : ℤ) (st : DelState) (num : ℕ) : DelState :=
  let st := { st with count := st.count + 1 }
  if num < 1 then st
  else
    let st := { st with last := num }
    match st.db.chanaccess.find? fun r ↦
      r.channelId = channelId ∧ r.idx = num ∧ st.db.nick.any (·.nickId = r.nickId) with
    | none => st
    | some r =>
      if r.chanaccessId = 0 then st
      else if uacc ≤ r.level ∨ (r.level < 0 ∧ uacc ≤ akickLev) then { st with perm := st.perm + 1 }
      else { st with db := deleteAccess st.db r.chanaccessId, deleted := st.deleted + 1 }

/-! ### The commands -/

/-- The messages the commands answer with. -/
inductive AccessReply
  | NICK_IDENTIFY_REQUIRED
  | CHAN_ACCESS_SYNTAX
  | CHAN_XOP_SYNTAX
  | CHAN_XOP_DISABLED
  | CHAN_X_NOT_REGISTERED
  | CHAN_X_FORBIDDEN
  | ACCESS_DENIED
  | PERMISSION_DENIED
  | CHAN_ACCESS_LEVEL_NONZERO
  | CHAN_ACCESS_LEVEL_RANGE (lo hi : ℤ)
  | CHAN_ACCESS_NICKS_ONLY
  | NICK_X_FORBIDDEN
  | NICK_X_NOOP
  | NICK_X_NOT_REGISTERED
  | CHAN_ACCESS_LEVEL_UNCHANGED (level : ℤ)
  | CHAN_ACCESS_LEVEL_CHANGED (level : ℤ)
  | CHAN_ACCESS_REACHED_LIMIT
  | CHAN_ACCESS_ADDED (level : ℤ)
  | CHAN_ACCESS_NO_SUCH_ENTRY (last : ℤ)
  | CHAN_ACCESS_NO_MATCH
  | CHAN_ACCESS_NOT_FOUND
  | CHAN_ACCESS_DELETED
  | CHAN_ACCESS_DELETED_ONE
  | CHAN_ACCESS_DELETED_SEVERAL (deleted : ℕ)
  | listed
  deriving DecidableEq

/-- The configuration and the time of a request. `do_cs_access_del` leaves two of its variables
unset; `last` and `perm` are what it finds in them. -/
structure AccessEnv where
  csAccessMax : ℕ
  now : ℕ
  last : ℤ
  perm : ℤ

/-- The end of ADD in all four commands: change the entry of the nick or add one. -/
def setAccess (env : AccessEnv) (u : AccessUser) (db : Database) (channelId nickId : ℕ)
    (ulev level : ℤ) : AccessReply × Database :=
  match getChanaccessFromNickid db nickId channelId with
  | some ca =>
    if ulev ≤ ca.level then (.PERMISSION_DENIED, db)
    else if ca.level = level then (.CHAN_ACCESS_LEVEL_UNCHANGED level, db)
    else (.CHAN_ACCESS_LEVEL_CHANGED level, modifyAccess u env.now db ca channelId level)
  | none =>
    if env.csAccessMax ≤ chanaccessCount db channelId then (.CHAN_ACCESS_REACHED_LIMIT, db)
    else (.CHAN_ACCESS_ADDED level, insertAccess u env.now db channelId nickId level)

/-- `do_cs_access_add`. -/
def doCsAccessAdd (env : AccessEnv) (u : AccessUser) (db : Database) (channelId : ℕ)
    (nick s : CString) : AccessReply × Database :=
  let level := (atoi s).toInt
  let (ulev, db) := getAccess u env.now db channelId
  if level = 0 then (.CHAN_ACCESS_LEVEL_NONZERO, db)
  else if level ≤ ACCESS_INVALID ∨ ACCESS_FOUNDER ≤ level then
    (.CHAN_ACCESS_LEVEL_RANGE (ACCESS_INVALID + 1) (ACCESS_FOUNDER - 1), db)
  else if ulev ≤ level then (.ACCESS_DENIED, db)
  else
    let (akick, db) :=
      if level < 0 then checkAccess u env.now db channelId CA_AKICK else (true, db)
    if akick = false then (.ACCESS_DENIED, db)
    else if mysqlFindnick db nick = 0 then (.CHAN_ACCESS_NICKS_ONLY, db)
    else
      match getNickinfoFromId db (mysqlFindnick db nick) with
      | none => (.CHAN_ACCESS_NICKS_ONLY, db)
      | some ni =>
        if ni.status &&& NS_VERBOTEN ≠ 0#32 then (.NICK_X_FORBIDDEN, db)
        else if ni.flags &&& NI_NOOP ≠ 0#32 then (.NICK_X_NOOP, db)
        else setAccess env u db channelId (mysqlFindnick db nick) ulev level

/-- The text is a number or a list of numbers. -/
def isNumlist (nick : CString) : Bool :=
  nick.head?.any Char.isDigit && nick.all fun c ↦ c.isDigit || c == ',' || c == '-'

/-- `do_cs_access_del` with a list of numbers. -/
def doCsAccessDelNumbers (env : AccessEnv) (u : AccessUser) (db : Database) (channelId : ℕ)
    (nick : CString) : AccessReply × Database :=
  let akickLev := getChanLevel db channelId CA_AKICK
  let (uacc, db) := getAccess u env.now db channelId
  -- the bound is unsigned: a limit of 0 puts none
  let st := (numlist nick 1 ((env.csAccessMax + (2 ^ 32 - 1)) % 2 ^ 32)).foldl
    (accessDelCallback channelId uacc akickLev) ⟨db, 0, 0, env.last, env.perm⟩
  if st.deleted = 0 then
    if st.perm ≠ 0 then (.PERMISSION_DENIED, st.db)
    else if st.count = 1 then (.CHAN_ACCESS_NO_SUCH_ENTRY st.last, st.db)
    else (.CHAN_ACCESS_NO_MATCH, st.db)
  else if st.deleted = 1 then (.CHAN_ACCESS_DELETED_ONE, sortChanAccess st.db channelId)
  else (.CHAN_ACCESS_DELETED_SEVERAL st.deleted, sortChanAccess st.db channelId)

/-- `do_cs_access_del` with a nick. -/
def doCsAccessDelNick (env : AccessEnv) (u : AccessUser) (db : Database) (channelId : ℕ)
    (nick : CString) : AccessReply × Database :=
  match mysqlFindnickinfo db nick with
  | none => (.NICK_X_NOT_REGISTERED, db)
  | some ni =>
    if ni.nickId = 0 then (.NICK_X_NOT_REGISTERED, db)
    else
      match getChanaccessFromNickid db ni.nickId channelId with
      | none => (.CHAN_ACCESS_NOT_FOUND, db)
      | some r =>
        if r.chanaccessId = 0 then (.CHAN_ACCESS_NOT_FOUND, db)
        else
          let (uacc, db) := getAccess u env.now db channelId
          if uacc ≤ r.level then (.PERMISSION_DENIED, db)
          else (.CHAN_ACCESS_DELETED, sortChanAccess (deleteAccess db r.chanaccessId) channelId)

/-- `do_cs_access_del`. -/
def doCsAccessDel (env : AccessEnv) (u : AccessUser) (db : Database) (channelId : ℕ)
    (nick : CString) : AccessReply × Database :=
  if isNumlist nick then doCsAccessDelNumbers env u db channelId nick
  else doCsAccessDelNick env u db channelId nick

/-- LIST, COUNT or VIEW. -/
def isList (cmd : CString) : Bool :=
  stricmp cmd "LIST".toList == 0 || stricmp cmd "COUNT".toList == 0 ||
    stricmp cmd "VIEW".toList == 0

/-- The number of words does not suit the command. -/
def badWords (cmd : CString) (nick s : Option CString) : Bool :=
  if isList cmd then false
  else if stricmp cmd "DEL".toList == 0 then nick.isNone || s.isSome
  else s.isNone

/-- `do_cs_access` with the rest of the line. -/
def doCsAccess (env : AccessEnv) (u : AccessUser) (db : Database) (rest : CString) :
    AccessReply × Database :=
  match strtokWords rest with
  | chan :: cmd :: words =>
    if isList cmd = false ∧ nickIdentified u = false then (.NICK_IDENTIFY_REQUIRED, db)
    else if badWords cmd words[0]? words[1]? then (.CHAN_ACCESS_SYNTAX, db)
    else
      let channelId := mysqlFindchan db chan
      if channelId = 0 then (.CHAN_X_NOT_REGISTERED, db)
      else if getChanFlags db channelId &&& CI_VERBOTEN ≠ 0#32 then (.CHAN_X_FORBIDDEN, db)
      else
        let (allowed, db) := checkAccess u env.now db channelId
          (if isList cmd then CA_ACCESS_LIST else CA_ACCESS_CHANGE)
        if allowed = false ∧ u.isServicesAdmin = false then (.ACCESS_DENIED, db)
        else if stricmp cmd "ADD".toList = 0 then
          doCsAccessAdd env u db channelId (words[0]?.getD []) (words[1]?.getD [])
        else if stricmp cmd "DEL".toList = 0 then
          doCsAccessDel env u db channelId (words[0]?.getD [])
        else if isList cmd then (.listed, db)
        else (.CHAN_ACCESS_SYNTAX, db)
  | _ => (if nickIdentified u then .CHAN_ACCESS_SYNTAX else .NICK_IDENTIFY_REQUIRED, db)

/-- ADD of the three XOP commands, which differ in the privilege whose level they give. -/
def doCsXopAdd (what : ℕ) (env : AccessEnv) (u : AccessUser) (db : Database) (channelId : ℕ)
    (nick : CString) : AccessReply × Database :=
  let reqlev := getChanLevel db channelId what
  if reqlev ≤ 0 then (.CHAN_XOP_DISABLED, db)
  else
    let (ulev, db) := getAccess u env.now db channelId
    if ulev ≤ reqlev then (.PERMISSION_DENIED, db)
    else if reqlev = 0 then (.CHAN_ACCESS_LEVEL_NONZERO, db)
    else if reqlev ≤ ACCESS_INVALID ∨ ACCESS_FOUNDER ≤ reqlev then
      (.CHAN_ACCESS_LEVEL_RANGE (ACCESS_INVALID + 1) (ACCESS_FOUNDER - 1), db)
    else
      match mysqlFindnickinfo db nick with
      | none => (.CHAN_ACCESS_NICKS_ONLY, db)
      | some ni =>
        if ni.nickId = 0 then (.CHAN_ACCESS_NICKS_ONLY, db)
        else if ni.status &&& NS_VERBOTEN ≠ 0#32 then (.NICK_X_FORBIDDEN, db)
        else if ni.flags &&& NI_NOOP ≠ 0#32 then (.NICK_X_NOOP, db)
        else setAccess env u db channelId ni.nickId ulev reqlev

/-- `do_cs_vop`, `do_cs_aop` and `do_cs_sop`. -/
def doCsXop (what : ℕ) (env : AccessEnv) (u : AccessUser) (db : Database) (rest : CString) :
    AccessReply × Database :=
  match strtokWords rest with
  | chan :: cmd :: nick :: _ =>
    let channelId := mysqlFindchan db chan
    if channelId = 0 then (.CHAN_X_NOT_REGISTERED, db)
    else if getChanFlags db channelId &&& CI_VERBOTEN ≠ 0#32 then (.CHAN_X_FORBIDDEN, db)
    else
      let (allowed, db) := checkAccess u env.now db channelId CA_ACCESS_CHANGE
      if allowed = false ∧ u.isServicesAdmin = false then (.ACCESS_DENIED, db)
      else if stricmp cmd "ADD".toList = 0 then doCsXopAdd what env u db channelId nick
      else (.CHAN_XOP_SYNTAX, db)
  | _ => (.CHAN_XOP_SYNTAX, db)

/-- `do_cs_vop`. -/
def doCsVop := doCsXop CA_AUTOVOICE

/-- `do_cs_aop`. -/
def doCsAop := doCsXop CA_AUTOOP

/-- `do_cs_sop`. -/
def doCsSop := doCsXop CA_AKICK

/-- The commands that change the list. -/
inductive AccessCommand
  | ACCESS
  | VOP
  | AOP
  | SOP
  deriving DecidableEq

/-- The handler of a command. -/
def AccessCommand.handler : AccessCommand → AccessEnv → AccessUser → Database → CString →
    AccessReply × Database
  | .ACCESS => doCsAccess
  | .VOP => doCsVop
  | .AOP => doCsAop
  | .SOP => doCsSop

/-- The channel a request names. -/
def requestedChan (db : Database) (rest : CString) : ℕ :=
  mysqlFindchan db ((strtokWords rest).headD [])

/-! ### Guarded changes -/

/-- The row is the same but for its number and the time of its last use. -/
def SameEntry (r r' : ChanaccessRow) : Prop :=
  r' = { r with idx := r'.idx, lastUsed := r'.lastUsed }

theorem SameEntry.refl (r : ChanaccessRow) : SameEntry r r := rfl

theorem SameEntry.chanaccessId {r r' : ChanaccessRow} (h : SameEntry r r') :
    r'.chanaccessId = r.chanaccessId := by
  rw [h]

theorem SameEntry.channelId {r r' : ChanaccessRow} (h : SameEntry r r') :
    r'.channelId = r.channelId := by
  rw [h]

theorem SameEntry.level {r r' : ChanaccessRow} (h : SameEntry r r') : r'.level = r.level := by
  rw [h]

theorem SameEntry.trans {r s t : ChanaccessRow} (h₁ : SameEntry r s) (h₂ : SameEntry s t) :
    SameEntry r t := by
  unfold SameEntry at *
  rw [h₂, h₁]

/-- The change touches only entries of the channel below the bound. -/
structure Guarded (channelId : ℕ) (bound : ℤ) (db db' : Database) : Prop where
  /-- No other table changes. -/
  rest : db' = { db with chanaccess := db'.chanaccess }
  /-- The primary key stays one. -/
  keys : (db'.chanaccess.map ChanaccessRow.chanaccessId).Nodup
  others : ∀ r : ChanaccessRow, r.channelId ≠ channelId →
    (r ∈ db'.chanaccess ↔ r ∈ db.chanaccess)
  /-- What is gone or no longer the same was below. -/
  before : ∀ r ∈ db.chanaccess, (∃ r' ∈ db'.chanaccess, SameEntry r r') ∨ r.level < bound
  /-- What is new or no longer the same is below. -/
  after : ∀ r' ∈ db'.chanaccess, (∃ r ∈ db.chanaccess, SameEntry r r') ∨ r'.level < bound

variable {channelId : ℕ} {bound : ℤ} {db db' : Database}

theorem Guarded.refl (h : (db.chanaccess.map ChanaccessRow.chanaccessId).Nodup) :
    Guarded channelId bound db db :=
  ⟨rfl, h, fun _ _ ↦ Iff.rfl, fun r hr ↦ Or.inl ⟨r, hr, SameEntry.refl r⟩,
    fun r hr ↦ Or.inl ⟨r, hr, SameEntry.refl r⟩⟩

theorem Guarded.trans {db'' : Database} (h₁ : Guarded channelId bound db db')
    (h₂ : Guarded channelId bound db' db'') : Guarded channelId bound db db'' := by
  refine ⟨?_, h₂.keys, fun r hr ↦ (h₂.others r hr).trans (h₁.others r hr), ?_, ?_⟩
  · rw [h₂.rest, h₁.rest]
  · intro r hr
    obtain ⟨s, hs, hrs⟩ | hlt := h₁.before r hr
    · obtain ⟨t, ht, hst⟩ | hlt := h₂.before s hs
      · exact Or.inl ⟨t, ht, hrs.trans hst⟩
      · exact Or.inr (hrs.level ▸ hlt)
    · exact Or.inr hlt
  · intro t ht
    obtain ⟨s, hs, hst⟩ | hlt := h₂.after t ht
    · obtain ⟨r, hr, hrs⟩ | hlt := h₁.after s hs
      · exact Or.inl ⟨r, hr, hrs.trans hst⟩
      · exact Or.inr (hst.level ▸ hlt)
    · exact Or.inr hlt

/-- A change of single rows is guarded if it is so for each row. -/
theorem guarded_map (h : (db.chanaccess.map ChanaccessRow.chanaccessId).Nodup)
    (f : ChanaccessRow → ChanaccessRow)
    (hid : ∀ r ∈ db.chanaccess, (f r).chanaccessId = r.chanaccessId)
    (hchannel : ∀ r ∈ db.chanaccess, (f r).channelId = r.channelId)
    (hother : ∀ r ∈ db.chanaccess, r.channelId ≠ channelId → f r = r)
    (hlevel : ∀ r ∈ db.chanaccess,
      SameEntry r (f r) ∨ (r.level < bound ∧ (f r).level < bound)) :
    Guarded channelId bound db { db with chanaccess := db.chanaccess.map f } := by
  refine ⟨rfl, ?_, ?_, ?_, ?_⟩
  · have hids : db.chanaccess.map (ChanaccessRow.chanaccessId ∘ f) =
        db.chanaccess.map ChanaccessRow.chanaccessId := List.map_congr_left hid
    rwa [List.map_map, hids]
  · intro r hr
    constructor
    · intro hmem
      obtain ⟨s, hs, rfl⟩ := List.mem_map.mp hmem
      rwa [hother s hs (hchannel s hs ▸ hr)]
    · intro hmem
      exact List.mem_map.mpr ⟨r, hmem, hother r hmem hr⟩
  · intro r hr
    obtain hsame | ⟨hlt, -⟩ := hlevel r hr
    · exact Or.inl ⟨f r, List.mem_map_of_mem hr, hsame⟩
    · exact Or.inr hlt
  · intro r' hr'
    obtain ⟨r, hr, rfl⟩ := List.mem_map.mp hr'
    obtain hsame | ⟨-, hlt⟩ := hlevel r hr
    · exact Or.inl ⟨r, hr, hsame⟩
    · exact Or.inr hlt

/-! ### The changes are guarded -/

theorem mem_sortedAccess {r : ChanaccessRow} :
    r ∈ sortedAccess db channelId ↔ r ∈ db.chanaccess ∧ r.channelId = channelId := by
  simp [sortedAccess]

theorem sortChanAccess_guarded (h : (db.chanaccess.map ChanaccessRow.chanaccessId).Nodup) :
    Guarded channelId bound db (sortChanAccess db channelId) := by
  refine guarded_map h _ ?_ ?_ ?_ ?_
  · intro r _
    split <;> rfl
  · intro r _
    split <;> rfl
  · intro r _ hne
    rw [if_neg fun hmem ↦ hne (mem_sortedAccess.mp hmem).2]
  · intro r _
    refine Or.inl ?_
    split <;> rfl

/-- Two rows with one key are one row. -/
theorem eq_of_chanaccessId (h : (db.chanaccess.map ChanaccessRow.chanaccessId).Nodup)
    {r s : ChanaccessRow} (hr : r ∈ db.chanaccess) (hs : s ∈ db.chanaccess)
    (heq : r.chanaccessId = s.chanaccessId) : r = s :=
  List.inj_on_of_nodup_map h hr hs heq

/-- The only row that meets a test is found by it. -/
theorem find?_eq_some_of_unique {α : Type} {l : List α} {p : α → Bool} {a : α} (ha : a ∈ l) (hp : p a)
    (huniq : ∀ b ∈ l, p b → b = a) : l.find? p = some a := by
  cases hfind : l.find? p with
  | none => exact absurd hp (List.find?_eq_none.mp hfind a ha)
  | some b => rw [huniq b (List.mem_of_find?_eq_some hfind) (List.find?_some hfind)]

theorem stampLastUsed_guarded (h : (db.chanaccess.map ChanaccessRow.chanaccessId).Nodup) (now : ℕ)
    {s : ChanaccessRow} (hs : s ∈ db.chanaccess) (hchannel : s.channelId = channelId) :
    Guarded channelId bound db (stampLastUsed db now s.chanaccessId) := by
  refine guarded_map h _ ?_ ?_ ?_ ?_
  · intro r _
    split <;> rfl
  · intro r _
    split <;> rfl
  · intro r hr hne
    refine if_neg fun heq ↦ hne ?_
    rw [eq_of_chanaccessId h hr hs heq, hchannel]
  · intro r _
    refine Or.inl ?_
    split <;> rfl

theorem modifyAccess_guarded (h : (db.chanaccess.map ChanaccessRow.chanaccessId).Nodup)
    (u : AccessUser) (now : ℕ) {ca : ChanaccessRow} (hca : ca ∈ db.chanaccess) {level : ℤ}
    (hold : ca.level < bound) (hnew : level < bound) :
    Guarded channelId bound db (modifyAccess u now db ca channelId level) := by
  have hupdate : Guarded channelId bound db
      { db with
        chanaccess := db.chanaccess.map fun r ↦
          if r.chanaccessId = ca.chanaccessId ∧ r.channelId = channelId then
            modifiedRow u now level r
          else r } := by
    refine guarded_map h _ ?_ ?_ ?_ ?_
    · intro r _
      simp only [modifiedRow]
      split_ifs <;> rfl
    · intro r _
      simp only [modifiedRow]
      split_ifs <;> rfl
    · intro r _ hne
      rw [if_neg fun hand ↦ hne hand.2]
    · intro r hr
      by_cases hand : r.chanaccessId = ca.chanaccessId ∧ r.channelId = channelId
      · refine Or.inr ⟨eq_of_chanaccessId h hr hca hand.1 ▸ hold, ?_⟩
        rw [if_pos hand, modifiedRow]
        split_ifs <;> exact hnew
      · exact Or.inl (by rw [if_neg hand]; exact SameEntry.refl r)
  exact hupdate.trans (sortChanAccess_guarded hupdate.keys)

/-- The key of a new row is above the keys there are. -/
theorem lt_nextChanaccessId {r : ChanaccessRow} (hr : r ∈ db.chanaccess) :
    r.chanaccessId < nextChanaccessId db := by
  have hle : r.chanaccessId ≤ (db.chanaccess.map ChanaccessRow.chanaccessId).foldr max 0 :=
    List.le_max_of_le' 0 (List.mem_map_of_mem hr) le_rfl
  exact Nat.lt_succ_of_le hle

theorem insertAccess_guarded (h : (db.chanaccess.map ChanaccessRow.chanaccessId).Nodup)
    (u : AccessUser) (now nickId : ℕ) {level : ℤ} (hnew : level < bound) :
    Guarded channelId bound db (insertAccess u now db channelId nickId level) := by
  have hinsert : ∀ row : ChanaccessRow, row.chanaccessId = nextChanaccessId db →
      row.channelId = channelId → row.level < bound →
      Guarded channelId bound db { db with chanaccess := db.chanaccess ++ [row] } := by
    intro row hid hchannel hlt
    refine ⟨rfl, ?_, ?_, fun r hr ↦ Or.inl ⟨r, List.mem_append_left _ hr, SameEntry.refl r⟩, ?_⟩
    · rw [List.map_append, List.nodup_append]
      refine ⟨h, List.nodup_singleton _, ?_⟩
      intro a ha b hb heq
      obtain ⟨r, hr, rfl⟩ := List.mem_map.mp ha
      rw [List.map_singleton, List.mem_singleton, hid] at hb
      exact absurd (heq.trans hb) (lt_nextChanaccessId hr).ne
    · intro r hr
      have hne : r ≠ row := fun heq ↦ hr (heq ▸ hchannel)
      simp [hne]
    · intro r hr
      obtain hr | hr := List.mem_append.mp hr
      · exact Or.inl ⟨r, hr, SameEntry.refl r⟩
      · exact Or.inr (List.mem_singleton.mp hr ▸ hlt)
  have hrow := hinsert
    { chanaccessId := nextChanaccessId db, channelId, idx := 0, level, nickId, added := now
      lastModified := now, lastUsed := 0, memoRead := 0, addedBy := u.nick
      modifiedBy := u.nick } rfl rfl hnew
  exact hrow.trans (sortChanAccess_guarded hrow.keys)

theorem deleteAccess_guarded (h : (db.chanaccess.map ChanaccessRow.chanaccessId).Nodup)
    {s : ChanaccessRow} (hs : s ∈ db.chanaccess) (hchannel : s.channelId = channelId)
    (hlt : s.level < bound) : Guarded channelId bound db (deleteAccess db s.chanaccessId) := by
  refine ⟨rfl, h.sublist (List.filter_sublist.map _), ?_, ?_, ?_⟩
  · intro r hr
    have hne : r ∈ db.chanaccess → r.chanaccessId ≠ s.chanaccessId := fun hmem heq ↦
      hr (eq_of_chanaccessId h hmem hs heq ▸ hchannel)
    simpa [deleteAccess] using hne
  · intro r hr
    by_cases heq : r.chanaccessId = s.chanaccessId
    · exact Or.inr (eq_of_chanaccessId h hr hs heq ▸ hlt)
    · exact Or.inl ⟨r, List.mem_filter.mpr ⟨hr, by simpa using heq⟩, SameEntry.refl r⟩
  · intro r hr
    exact Or.inl ⟨r, (List.mem_filter.mp hr).1, SameEntry.refl r⟩

/-! ### Reading the user's level -/

theorem chanaccessOf_some {nickId : ℕ} {r : ChanaccessRow}
    (h : chanaccessOf db channelId nickId = some r) :
    r ∈ db.chanaccess ∧ r.channelId = channelId := by
  refine ⟨List.mem_of_find?_eq_some h, ?_⟩
  have hsat := List.find?_some h
  exact (of_decide_eq_true hsat).1

/-- Reading a level changes only the time of its last use. -/
theorem getAccess_guarded (h : (db.chanaccess.map ChanaccessRow.chanaccessId).Nodup)
    (u : AccessUser) (now : ℕ) : Guarded channelId bound db (getAccess u now db channelId).2 := by
  unfold getAccess getChanaccessLevel
  split_ifs
  · exact Guarded.refl h
  · exact Guarded.refl h
  · cases hfind : chanaccessOf db channelId u.nickId with
    | none => exact Guarded.refl h
    | some r =>
      obtain ⟨hr, hchannel⟩ := chanaccessOf_some hfind
      by_cases hzero : r.chanaccessId ≠ 0
      · simpa only [if_pos hzero] using stampLastUsed_guarded h now hr hchannel
      · simpa only [if_neg hzero] using Guarded.refl h
  · exact Guarded.refl h

/-- The stamp does not matter to the search for the user's entry. -/
theorem chanaccessOf_stampLastUsed (now chanaccessId nickId : ℕ) :
    chanaccessOf (stampLastUsed db now chanaccessId) channelId nickId =
      (chanaccessOf db channelId nickId).map fun r ↦
        if r.chanaccessId = chanaccessId then { r with lastUsed := now } else r := by
  unfold chanaccessOf stampLastUsed
  apply find?_map_update
  exact fun _ _ ↦ rfl

theorem stampLastUsed_idem (now chanaccessId : ℕ) :
    stampLastUsed (stampLastUsed db now chanaccessId) now chanaccessId =
      stampLastUsed db now chanaccessId := by
  unfold stampLastUsed
  simp only [List.map_map]
  congr 2
  funext r
  simp only [Function.comp_apply]
  split <;> simp_all

theorem getChanaccessLevel_idem (now nickId : ℕ) :
    getChanaccessLevel now (getChanaccessLevel now db channelId nickId).2 channelId nickId =
      getChanaccessLevel now db channelId nickId := by
  cases hfind : chanaccessOf db channelId nickId with
  | none => simp [getChanaccessLevel, hfind]
  | some r =>
    by_cases hzero : r.chanaccessId ≠ 0
    · simp [getChanaccessLevel, hfind, hzero, chanaccessOf_stampLastUsed, stampLastUsed_idem]
    · simp [getChanaccessLevel, hfind, hzero]

theorem getChanaccessLevel_rest (now nickId : ℕ) :
    (getChanaccessLevel now db channelId nickId).2 =
      { db with chanaccess := (getChanaccessLevel now db channelId nickId).2.chanaccess } := by
  unfold getChanaccessLevel
  cases chanaccessOf db channelId nickId with
  | none => rfl
  | some r => simp only; split <;> rfl

/-- A second look at the user's level finds the same level and changes nothing. -/
theorem getAccess_idem (u : AccessUser) (now : ℕ) :
    getAccess u now (getAccess u now db channelId).2 channelId = getAccess u now db channelId := by
  by_cases hzero : channelId = 0 ∨ u.nickId = 0
  · simp only [getAccess, if_pos hzero]
  by_cases hfounder : isFounder u db channelId = true
  · simp only [getAccess, if_neg hzero, if_pos hfounder]
  by_cases htrusted : trusted u db channelId = true
  · have hlevel : getAccess u now db channelId = getChanaccessLevel now db channelId u.nickId := by
      simp only [getAccess, if_neg hzero, if_neg hfounder, if_pos htrusted]
    have hfounder' : isFounder u (getChanaccessLevel now db channelId u.nickId).2 channelId =
        isFounder u db channelId := by rw [getChanaccessLevel_rest]; rfl
    have htrusted' : trusted u (getChanaccessLevel now db channelId u.nickId).2 channelId =
        trusted u db channelId := by rw [getChanaccessLevel_rest]; rfl
    rw [hlevel]
    unfold getAccess
    rw [if_neg hzero, hfounder', if_neg hfounder, htrusted', if_pos htrusted,
      getChanaccessLevel_idem]
  · simp only [getAccess, if_neg hzero, if_neg hfounder, if_neg htrusted]

/-- A look at the user's level changes nothing but the times of last use. -/
theorem getAccess_stamps (u : AccessUser) (now : ℕ) (db : Database) (channelId : ℕ) :
    ∃ stamp : ChanaccessRow → ℕ, (getAccess u now db channelId).2 =
      { db with chanaccess := db.chanaccess.map fun r ↦ { r with lastUsed := stamp r } } := by
  have hsame : ∃ stamp : ChanaccessRow → ℕ, db =
      { db with chanaccess := db.chanaccess.map fun r ↦ { r with lastUsed := stamp r } } :=
    ⟨ChanaccessRow.lastUsed, by simp⟩
  unfold getAccess getChanaccessLevel
  split_ifs
  · exact hsame
  · exact hsame
  · cases chanaccessOf db channelId u.nickId with
    | none => exact hsame
    | some r =>
      dsimp only
      split_ifs
      · refine ⟨fun s ↦ if s.chanaccessId = r.chanaccessId then now else s.lastUsed, ?_⟩
        refine congrArg (fun rows ↦ { db with chanaccess := rows }) (List.map_congr_left fun s _ ↦ ?_)
        by_cases hs : s.chanaccessId = r.chanaccessId <;> simp [hs]
      · exact hsame
  · exact hsame

theorem checkAccess_snd (u : AccessUser) (now what : ℕ) :
    (checkAccess u now db channelId what).2 = (getAccess u now db channelId).2 := by
  unfold checkAccess
  simp only
  split_ifs <;> rfl

/-! ### The commands are guarded -/

section Commands

variable {env : AccessEnv} {u : AccessUser} {ulev : ℤ}

theorem getChanaccessFromNickid_some {nickId : ℕ} {r : ChanaccessRow}
    (h : getChanaccessFromNickid db nickId channelId = some r) :
    r ∈ db.chanaccess ∧ r.channelId = channelId := by
  refine ⟨List.mem_of_find?_eq_some h, ?_⟩
  have hsat := List.find?_some h
  exact (of_decide_eq_true hsat).2

theorem setAccess_guarded (h : (db.chanaccess.map ChanaccessRow.chanaccessId).Nodup) (nickId : ℕ)
    {level : ℤ} (hlevel : level < ulev) :
    Guarded channelId ulev db (setAccess env u db channelId nickId ulev level).2 := by
  unfold setAccess
  cases hfind : getChanaccessFromNickid db nickId channelId with
  | none =>
    simp only
    split_ifs
    · exact Guarded.refl h
    · exact insertAccess_guarded h u env.now nickId hlevel
  | some ca =>
    simp only
    split_ifs with hperm
    · exact Guarded.refl h
    · exact Guarded.refl h
    · exact modifyAccess_guarded h u env.now (getChanaccessFromNickid_some hfind).1
        (not_le.mp hperm) hlevel

/-- ADD, once the user's level has been read. -/
theorem doCsAccessAdd_guarded (h : (db.chanaccess.map ChanaccessRow.chanaccessId).Nodup)
    (hacc : getAccess u env.now db channelId = (ulev, db)) (nick s : CString) :
    Guarded channelId ulev db (doCsAccessAdd env u db channelId nick s).2 := by
  unfold doCsAccessAdd
  simp only [hacc]
  -- the look at CA_AKICK leaves the database alone
  have hakick : (if (atoi s).toInt < 0 then checkAccess u env.now db channelId CA_AKICK
      else (true, db)).2 = db := by
    by_cases hneg : (atoi s).toInt < 0
    · rw [if_pos hneg, checkAccess_snd, hacc]
    · rw [if_neg hneg]
  generalize (if (atoi s).toInt < 0 then checkAccess u env.now db channelId CA_AKICK
    else (true, db)) = akick at hakick ⊢
  obtain ⟨akick, db₂⟩ := akick
  obtain rfl : db₂ = db := hakick
  simp only
  split_ifs with _ _ hlevel
  · exact Guarded.refl h
  · exact Guarded.refl h
  · exact Guarded.refl h
  · exact Guarded.refl h
  · exact Guarded.refl h
  cases getNickinfoFromId db₂ (mysqlFindnick db₂ nick) with
  | none => exact Guarded.refl h
  | some ni =>
    simp only
    split_ifs
    · exact Guarded.refl h
    · exact Guarded.refl h
    · exact setAccess_guarded h _ (not_le.mp hlevel)

/-- One number of a list. -/
theorem accessDelCallback_guarded {st : DelState}
    (h : (st.db.chanaccess.map ChanaccessRow.chanaccessId).Nodup) (akickLev : ℤ) (num : ℕ) :
    Guarded channelId ulev st.db (accessDelCallback channelId ulev akickLev st num).db := by
  unfold accessDelCallback
  simp only
  split_ifs
  · exact Guarded.refl h
  cases hfind : st.db.chanaccess.find? fun r ↦
      r.channelId = channelId ∧ r.idx = num ∧ st.db.nick.any (·.nickId = r.nickId) with
  | none => exact Guarded.refl h
  | some r =>
    have hsat := List.find?_some hfind
    have hchannel : r.channelId = channelId := (of_decide_eq_true hsat).1
    simp only
    split_ifs with _ hperm
    · exact Guarded.refl h
    · exact Guarded.refl h
    · exact deleteAccess_guarded h (List.mem_of_find?_eq_some hfind) hchannel
        (not_le.mp fun hle ↦ hperm (Or.inl hle))

/-- All numbers of a list, by induction on them. -/
theorem foldl_accessDelCallback_guarded (akickLev : ℤ) (nums : List ℕ) (st : DelState)
    (h : (st.db.chanaccess.map ChanaccessRow.chanaccessId).Nodup) :
    Guarded channelId ulev st.db
      (nums.foldl (accessDelCallback channelId ulev akickLev) st).db := by
  induction nums generalizing st with
  | nil => exact Guarded.refl h
  | cons num nums ih =>
    have hstep : Guarded channelId ulev st.db (accessDelCallback channelId ulev akickLev st num).db :=
      accessDelCallback_guarded h akickLev num
    exact hstep.trans (ih _ hstep.keys)

theorem doCsAccessDelNumbers_guarded (h : (db.chanaccess.map ChanaccessRow.chanaccessId).Nodup)
    (hacc : getAccess u env.now db channelId = (ulev, db)) (nick : CString) :
    Guarded channelId ulev db (doCsAccessDelNumbers env u db channelId nick).2 := by
  have hrun : ∀ nums : List ℕ, Guarded channelId ulev db (nums.foldl
      (accessDelCallback channelId ulev (getChanLevel db channelId CA_AKICK))
      ⟨db, 0, 0, env.last, env.perm⟩).db := fun nums ↦
    foldl_accessDelCallback_guarded _ nums ⟨db, 0, 0, env.last, env.perm⟩ h
  unfold doCsAccessDelNumbers
  simp only [hacc]
  generalize numlist nick 1 _ = nums
  split_ifs
  · exact hrun nums
  · exact hrun nums
  · exact hrun nums
  · exact (hrun nums).trans (sortChanAccess_guarded (hrun nums).keys)
  · exact (hrun nums).trans (sortChanAccess_guarded (hrun nums).keys)

theorem doCsAccessDelNick_guarded (h : (db.chanaccess.map ChanaccessRow.chanaccessId).Nodup)
    (hacc : getAccess u env.now db channelId = (ulev, db)) (nick : CString) :
    Guarded channelId ulev db (doCsAccessDelNick env u db channelId nick).2 := by
  unfold doCsAccessDelNick
  cases mysqlFindnickinfo db nick with
  | none => exact Guarded.refl h
  | some ni =>
    simp only
    split_ifs
    · exact Guarded.refl h
    cases hfind : getChanaccessFromNickid db ni.nickId channelId with
    | none => exact Guarded.refl h
    | some r =>
      obtain ⟨hr, hchannel⟩ := getChanaccessFromNickid_some hfind
      simp only [hacc]
      split_ifs with _ hperm
      · exact Guarded.refl h
      · exact Guarded.refl h
      · have hdelete : Guarded channelId ulev db (deleteAccess db r.chanaccessId) :=
          deleteAccess_guarded h hr hchannel (not_le.mp hperm)
        exact hdelete.trans (sortChanAccess_guarded hdelete.keys)

theorem doCsAccessDel_guarded (h : (db.chanaccess.map ChanaccessRow.chanaccessId).Nodup)
    (hacc : getAccess u env.now db channelId = (ulev, db)) (nick : CString) :
    Guarded channelId ulev db (doCsAccessDel env u db channelId nick).2 := by
  unfold doCsAccessDel
  split_ifs
  · exact doCsAccessDelNumbers_guarded h hacc nick
  · exact doCsAccessDelNick_guarded h hacc nick

/-- A command that checks a privilege first and then works on what that check leaves is guarded if
it is so from there. -/
theorem guarded_of_checkAccess (h : (db.chanaccess.map ChanaccessRow.chanaccessId).Nodup)
    (what : ℕ) (next : Bool × Database → AccessReply × Database)
    (hnext : ∀ allowed db₁, (db₁.chanaccess.map ChanaccessRow.chanaccessId).Nodup →
      getAccess u env.now db₁ channelId = ((getAccess u env.now db channelId).1, db₁) →
      Guarded channelId (getAccess u env.now db channelId).1 db₁ (next (allowed, db₁)).2) :
    Guarded channelId (getAccess u env.now db channelId).1 db
      (next (checkAccess u env.now db channelId what)).2 := by
  have hread : Guarded channelId (getAccess u env.now db channelId).1 db
      (checkAccess u env.now db channelId what).2 :=
    checkAccess_snd u env.now what ▸ getAccess_guarded h u env.now
  refine hread.trans (hnext _ _ hread.keys ?_)
  rw [checkAccess_snd, getAccess_idem]

theorem doCsAccess_guarded (h : (db.chanaccess.map ChanaccessRow.chanaccessId).Nodup)
    (rest : CString) :
    Guarded (requestedChan db rest) (getAccess u env.now db (requestedChan db rest)).1 db
      (doCsAccess env u db rest).2 := by
  unfold doCsAccess requestedChan
  rcases strtokWords rest with _ | ⟨chan, _ | ⟨cmd, words⟩⟩
  · exact Guarded.refl h
  · exact Guarded.refl h
  simp only [List.headD_cons]
  split
  · exact Guarded.refl h
  split
  · exact Guarded.refl h
  split
  · exact Guarded.refl h
  split
  · exact Guarded.refl h
  refine guarded_of_checkAccess h _
    (fun (allowed, db₁) ↦
      if allowed = false ∧ u.isServicesAdmin = false then (.ACCESS_DENIED, db₁)
      else if stricmp cmd "ADD".toList = 0 then
        doCsAccessAdd env u db₁ (mysqlFindchan db chan) (words[0]?.getD []) (words[1]?.getD [])
      else if stricmp cmd "DEL".toList = 0 then
        doCsAccessDel env u db₁ (mysqlFindchan db chan) (words[0]?.getD [])
      else if isList cmd then (.listed, db₁)
      else (.CHAN_ACCESS_SYNTAX, db₁)) fun allowed db₁ hkeys hacc ↦ ?_
  simp only
  split_ifs
  · exact Guarded.refl hkeys
  · exact doCsAccessAdd_guarded hkeys hacc _ _
  · exact doCsAccessDel_guarded hkeys hacc _
  · exact Guarded.refl hkeys
  · exact Guarded.refl hkeys

theorem doCsXopAdd_guarded (h : (db.chanaccess.map ChanaccessRow.chanaccessId).Nodup)
    (hacc : getAccess u env.now db channelId = (ulev, db)) (what : ℕ) (nick : CString) :
    Guarded channelId ulev db (doCsXopAdd what env u db channelId nick).2 := by
  unfold doCsXopAdd
  simp only [hacc]
  split_ifs with _ hlevel
  · exact Guarded.refl h
  · exact Guarded.refl h
  · exact Guarded.refl h
  · exact Guarded.refl h
  cases mysqlFindnickinfo db nick with
  | none => exact Guarded.refl h
  | some ni =>
    simp only
    split_ifs
    · exact Guarded.refl h
    · exact Guarded.refl h
    · exact Guarded.refl h
    · exact setAccess_guarded h _ (not_le.mp hlevel)

theorem doCsXop_guarded (h : (db.chanaccess.map ChanaccessRow.chanaccessId).Nodup) (what : ℕ)
    (rest : CString) :
    Guarded (requestedChan db rest) (getAccess u env.now db (requestedChan db rest)).1 db
      (doCsXop what env u db rest).2 := by
  unfold doCsXop requestedChan
  rcases strtokWords rest with _ | ⟨chan, _ | ⟨cmd, _ | ⟨nick, words⟩⟩⟩
  · exact Guarded.refl h
  · exact Guarded.refl h
  · exact Guarded.refl h
  simp only [List.headD_cons]
  split
  · exact Guarded.refl h
  split
  · exact Guarded.refl h
  refine guarded_of_checkAccess h _
    (fun (allowed, db₁) ↦
      if allowed = false ∧ u.isServicesAdmin = false then (.ACCESS_DENIED, db₁)
      else if stricmp cmd "ADD".toList = 0 then
        doCsXopAdd what env u db₁ (mysqlFindchan db chan) nick
      else (.CHAN_XOP_SYNTAX, db₁)) fun allowed db₁ hkeys hacc ↦ ?_
  simp only
  split_ifs
  · exact Guarded.refl hkeys
  · exact doCsXopAdd_guarded hkeys hacc _ _
  · exact Guarded.refl hkeys

theorem handler_guarded (h : (db.chanaccess.map ChanaccessRow.chanaccessId).Nodup)
    (command : AccessCommand) (rest : CString) :
    Guarded (requestedChan db rest) (getAccess u env.now db (requestedChan db rest)).1 db
      (command.handler env u db rest).2 := by
  cases command with
  | ACCESS => exact doCsAccess_guarded h rest
  | VOP => exact doCsXop_guarded h CA_AUTOVOICE rest
  | AOP => exact doCsXop_guarded h CA_AUTOOP rest
  | SOP => exact doCsXop_guarded h CA_AKICK rest

end Commands

/-! ### No escalation -/

/-- What a request does to the rows of the access table, key by key. -/
structure NoEscalation (channelId : ℕ) (bound : ℤ) (db db' : Database) : Prop where
  changed : ∀ r ∈ db.chanaccess, ∀ r' ∈ db'.chanaccess, r.chanaccessId = r'.chanaccessId →
    SameEntry r r' ∨ (r.level < bound ∧ r'.level < bound)
  removed : ∀ r ∈ db.chanaccess, (∀ r' ∈ db'.chanaccess, r'.chanaccessId ≠ r.chanaccessId) →
    r.level < bound
  created : ∀ r' ∈ db'.chanaccess, (∀ r ∈ db.chanaccess, r.chanaccessId ≠ r'.chanaccessId) →
    r'.level < bound
  others : ∀ r : ChanaccessRow, r.channelId ≠ channelId →
    (r ∈ db'.chanaccess ↔ r ∈ db.chanaccess)

theorem Guarded.noEscalation (h : (db.chanaccess.map ChanaccessRow.chanaccessId).Nodup)
    (hguarded : Guarded channelId bound db db') : NoEscalation channelId bound db db' := by
  refine ⟨?_, ?_, ?_, hguarded.others⟩
  · intro r hr r' hr' hid
    obtain ⟨s', hs', hsame⟩ | hlt := hguarded.before r hr
    · have heq : s' = r' :=
        eq_of_chanaccessId hguarded.keys hs' hr' (hsame.chanaccessId.trans hid)
      exact Or.inl (heq ▸ hsame)
    obtain ⟨s, hs, hsame⟩ | hlt' := hguarded.after r' hr'
    · have heq : s = r := eq_of_chanaccessId h hs hr (hsame.chanaccessId ▸ hid.symm)
      exact Or.inl (heq ▸ hsame)
    · exact Or.inr ⟨hlt, hlt'⟩
  · intro r hr hgone
    obtain ⟨r', hr', hsame⟩ | hlt := hguarded.before r hr
    · exact absurd hsame.chanaccessId (hgone r' hr')
    · exact hlt
  · intro r' hr' hnew
    obtain ⟨r, hr, hsame⟩ | hlt := hguarded.after r' hr'
    · exact absurd hsame.chanaccessId.symm (hnew r hr)
    · exact hlt

/-- Channel `#` with an entry of level 10 for nick `a` and one of level 5 for nick `b`. -/
def exampleAccess : Database :=
  { nick := [⟨1, ['a'], NS_IDENTIFIED, 0, 0#32, 20⟩, ⟨2, ['b'], 0#32, 0, 0#32, 20⟩]
    nickaccess := [], nicksuspend := [], suspend := [], chansuspend := []
    channel := [⟨1, ['#'], 3, 0, 0#32⟩]
    akick := []
    chanaccess := [⟨1, 1, 1, 10, 1, 100, 100, 100, 0, ['c'], ['c']⟩,
      ⟨2, 1, 2, 5, 2, 100, 100, 0, 0, ['a'], ['a']⟩]
    chanlevel := [], autojoin := [], memo := [], memoinfo := [], admin := [], oper := [] }

/-- The user of nick `a`. -/
def exampleActor : AccessUser :=
  { nick := ['a'], nickId := 1, realId := 1, status := NS_IDENTIFIED, founderChans := []
    isServicesAdmin := false }

end BlitzedServices.ChanServ
