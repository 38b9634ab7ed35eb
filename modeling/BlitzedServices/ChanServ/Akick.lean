import BlitzedServices.ChanServ.Access
import BlitzedServices.ChanServ.RemoveNick
import BlitzedServices.ChanServ.Sync
import BlitzedServices.Lib.NumberedList
import BlitzedServices.Lib.Strtok
import BlitzedServices.Misc.MatchWild
import BlitzedServices.Mysql.NumberQueries
import BlitzedServices.Users.SplitUsermask

/-!
# AutoKick lists

AKICK ADD and DEL change the list of a channel, and so do dropping a channel and dropping a nick. An entry is for a nick
or for a mask. ADD gives it the number behind the last one, and DEL numbers the list anew.

A command is `none` where services exit, because MySQL refuses a statement.
-/

set_option autoImplicit false
set_option relaxedAutoImplicit false

namespace BlitzedServices.ChanServ

open Lib Misc Mysql
open NumberQueries (Frame akickSelect akickIdx unsignedRanges clausesLength)
open Users (splitUsermask)

/-! ### The table -/

/-- The other columns of table `akick`. -/
structure AkickColumns where
  reason : Option CString
  who : CString
  added : ℕ
  lastUsed : ℕ
  lastMatched : CString

/-- The database, the other columns by the id of an entry, and the AUTO_INCREMENT value of the table. -/
structure AkickState where
  db : Database
  columns : ℕ → AkickColumns
  nextId : ℕ

/-- The entries of a channel. -/
def listedAkicks (db : Database) (channelId : ℕ) : List AkickRow :=
  db.akick.filter fun r ↦ r.channelId = channelId

/-- `chanakick_count`. -/
def chanakickCount (db : Database) (channelId : ℕ) : ℕ := (listedAkicks db channelId).length

/-- The entries of a channel in the order of their times. -/
def akicksByTime (st : AkickState) (channelId : ℕ) : List AkickRow :=
  (listedAkicks st.db channelId).mergeSort fun r s ↦ (st.columns r.akickId).added ≤ (st.columns s.akickId).added

/-- `renumber_akicks`. The REPLACE keeps every column but the number. -/
def renumberAkicks (st : AkickState) (channelId : ℕ) : AkickState :=
  { st with
    db := { st.db with
      akick := st.db.akick.map fun r ↦
        if r ∈ akicksByTime st channelId then { r with idx := (akicksByTime st channelId).idxOf r + 1 } else r } }

/-- Two values of the column `mask`: NULL is equal to nothing. -/
def sameMask : Option CString → Option CString → Bool
  | some a, some b => sameName a b
  | _, _ => false

/-- A mask as the column takes it. -/
def maskColumn (mask : Option CString) : Option CString := mask.map (List.take 255)

/-- The INSERT of an entry; `none` is a second entry for the unique key of a channel and a mask. -/
def insertAkick (st : AkickState) (channelId idx : ℕ) (mask : Option CString) (nickId : ℕ) (columns : AkickColumns) :
    Option AkickState :=
  if st.db.akick.any fun r ↦ decide (r.channelId = channelId) && sameMask r.mask (maskColumn mask) then none
  else
    some
      { db := { st.db with akick := st.db.akick ++ [⟨st.nextId, channelId, idx, maskColumn mask, nickId⟩] }
        columns := Function.update st.columns st.nextId columns
        nextId := st.nextId + 1 }

/-- `DELETE FROM akick WHERE channel_id=... && ...` and the number of rows. -/
def deleteAkicks (st : AkickState) (channelId : ℕ) (p : AkickRow → Bool) : AkickState × ℕ :=
  ({ st with db := { st.db with akick := st.db.akick.filter fun r ↦ !(decide (r.channelId = channelId) && p r) } },
    (st.db.akick.filter fun r ↦ decide (r.channelId = channelId) && p r).length)

/-! ### The command -/

/-- The limit in the configuration and the time of a request. -/
structure AkickEnv where
  csAutokickMax : BitVec 32
  now : ℕ

/-- The messages the command answers with. -/
inductive AkickReply
  | CHAN_AKICK_SYNTAX
  | NICK_IDENTIFY_REQUIRED
  | CHAN_X_NOT_REGISTERED
  | CHAN_X_FORBIDDEN
  | CHAN_IDENTIFY_REQUIRED
  | ACCESS_DENIED
  | NICK_X_FORBIDDEN
  | CHAN_AKICK_ALREADY_EXISTS
  | CHAN_AKICK_REACHED_LIMIT
  | CHAN_AKICK_ADDED
  | CHAN_AKICK_NO_MATCH
  | CHAN_AKICK_DELETED_ONE
  | CHAN_AKICK_DELETED_SEVERAL (rows : ℕ)
  | CHAN_AKICK_LIST_EMPTY
  | CHAN_AKICK_COUNT (count : ℕ)
  | listed (rows : List AkickRow)
  | enforce
  deriving DecidableEq

/-- What ADD puts on the list: a registered nick, or the mask that is typed. -/
def akickTarget (db : Database) (mask : CString) : ℕ × Option CString :=
  match mysqlFindnickinfo db mask with
  | some ni => if ni.nickId ≠ 0 then (ni.nickId, none) else (0, some (splitUsermask mask).join)
  | none => (0, some (splitUsermask mask).join)

/-- The nick that is typed is forbidden. -/
def akickForbidden (db : Database) (mask : CString) : Bool :=
  (mysqlFindnickinfo db mask).any fun ni ↦ ni.nickId ≠ 0 ∧ ni.status &&& NS_VERBOTEN ≠ 0#32

/-- The SELECT for an entry that is there already. -/
def akickExists (db : Database) (channelId nickId : ℕ) (mask : Option CString) : Bool :=
  db.akick.any fun r ↦
    decide (r.channelId = channelId ∧ r.nickId = nickId) && (decide (nickId ≠ 0) || sameMask r.mask mask)

/-- AKICK ADD. -/
def doAkickAdd (env : AkickEnv) (u : AccessUser) (st : AkickState) (channelId : ℕ) (mask : CString)
    (reason : Option CString) : Option (AkickReply × AkickState) :=
  if akickForbidden st.db mask then some (.NICK_X_FORBIDDEN, st)
  else
    let target := akickTarget st.db mask
    if akickExists st.db channelId target.1 target.2 then some (.CHAN_AKICK_ALREADY_EXISTS, st)
    else if env.csAutokickMax.toNat ≤ chanakickCount st.db channelId then some (.CHAN_AKICK_REACHED_LIMIT, st)
    else
      (insertAkick st channelId (chanakickCount st.db channelId + 1) target.2 target.1
        ⟨reason, u.nick.take 32, env.now, 0, []⟩).map fun st ↦ (.CHAN_AKICK_ADDED, st)

instance (cmd : NumberQueries.Command) (numstr : CString) : Decidable (cmd.Fits numstr) :=
  inferInstanceAs (Decidable (cmd.accepts numstr = true →
    (∃ range ∈ unsignedRanges numstr, min range.1 cmd.hi ≤ range.2) ∧
      ∀ f ∈ cmd.frames, (SqlText.render f.pieces).length + clausesLength f.column (queryRanges numstr cmd.hi) +
        f.tail.length ≤ 4095))

/-- The entries that DEL deletes: those with the numbers typed, those of the nick typed, or that for the mask. -/
def akickChosen (env : AkickEnv) (db : Database) (mask : CString) (r : AkickRow) : Bool :=
  if isNumlist mask then inRanges (queryRanges mask env.csAutokickMax.toNat) r.idx
  else if mysqlFindnick db mask = 0 then sameMask r.mask (some mask)
  else r.nickId = mysqlFindnick db mask

/-- AKICK DEL. -/
def doAkickDel (env : AkickEnv) (st : AkickState) (channelId : ℕ) (verbose : Bool) (mask : CString) :
    Option (AkickReply × AkickState) :=
  if ¬ (NumberQueries.Command.akickDel (BitVec.ofNat 32 channelId) verbose env.csAutokickMax).Fits mask then none
  else
    let (st, rows) := deleteAkicks st channelId (akickChosen env st.db mask)
    if rows = 0 then some (.CHAN_AKICK_NO_MATCH, st)
    else if rows = 1 then some (.CHAN_AKICK_DELETED_ONE, renumberAkicks st channelId)
    else some (.CHAN_AKICK_DELETED_SEVERAL rows, renumberAkicks st channelId)

/-- The entries that LIST and VIEW show. -/
def akickShown (env : AkickEnv) (db : Database) (mask : Option CString) (r : AkickRow) : Bool :=
  match mask with
  | none => true
  | some mask =>
    if isNumlist mask then inRanges (queryRanges mask env.csAutokickMax.toNat) r.idx
    else if r.nickId ≠ 0 then ircMatch mask ((getNickFromId db r.nickId).getD []) none
    else ircMatch mask (r.mask.getD []) none

/-- The SELECT of VIEW. -/
def akickView (channelId : BitVec 32) : Frame where
  pieces := [.sql "SELECT akick.idx, akick.mask, nick.nick, IF(nick.flags & ".toList,
    .sql (decimal NumberQueries.NI_HIDE_MASK), .sql ", NULL, nick.last_usermask) as umask, ".toList,
    .sql "akick.reason, akick.who, akick.added, akick.last_used, ".toList,
    .sql "akick.last_matched FROM akick LEFT JOIN nick ON (akick.nick_id=nick.nick_id) WHERE channel_id=".toList,
    .sql (decimal channelId.toNat), .sql " && (".toList]
  column := akickIdx
  tail := ") ORDER BY akick.idx ASC".toList

/-- A statement with a list of numbers is one, and fits. -/
def fits (f : Frame) (numstr : CString) (hi : ℕ) : Bool :=
  ((unsignedRanges numstr).any fun range ↦ min range.1 hi ≤ range.2) &&
    decide ((SqlText.render f.pieces).length + clausesLength f.column (queryRanges numstr hi) + f.tail.length ≤ 4095)

/-- AKICK LIST and VIEW. -/
def doAkickList (env : AkickEnv) (db : Database) (channelId : ℕ) (select : BitVec 32 → Frame) (mask : Option CString) :
    Option AkickReply :=
  if chanakickCount db channelId = 0 then some .CHAN_AKICK_LIST_EMPTY
  else if mask.any fun mask ↦
      isNumlist mask && !fits (select (BitVec.ofNat 32 channelId)) mask env.csAutokickMax.toNat then none
  else
    match ((listedAkicks db channelId).filter (akickShown env db mask)).mergeSort fun r s ↦ r.idx ≤ s.idx with
    | [] => some .CHAN_AKICK_NO_MATCH
    | rows => some (.listed rows)

/-- The words of the line: the channel, the command, the mask and the rest. -/
def akickWords (line : CString) : Option (CString × CString × Option CString × Option CString) :=
  match strtokCall [' '] line with
  | (some chan, line) =>
    match strtokCall [' '] line with
    | (some cmd, line) =>
      let (mask, line) := strtokCall [' '] line
      some (chan, cmd, mask, (strtokCall [] line).1)
    | (none, _) => none
  | (none, _) => none

/-- `do_akick` for a user who has the access. -/
def runAkick (env : AkickEnv) (u : AccessUser) (st : AkickState) (channelId : ℕ) (cmd : CString)
    (mask reason : Option CString) : Option (AkickReply × AkickState) :=
  if stricmp cmd "ADD".toList = 0 then doAkickAdd env u st channelId (mask.getD []) reason
  else if stricmp cmd "DEL".toList = 0 then
    doAkickDel env st channelId (getChanFlags st.db channelId &&& CI_VERBOSE ≠ 0#32) (mask.getD [])
  else if stricmp cmd "LIST".toList = 0 then
    (doAkickList env st.db channelId akickSelect mask).map fun reply ↦ (reply, st)
  else if stricmp cmd "VIEW".toList = 0 then
    (doAkickList env st.db channelId akickView mask).map fun reply ↦ (reply, st)
  else if stricmp cmd "ENFORCE".toList = 0 then some (.enforce, st)
  else if stricmp cmd "COUNT".toList = 0 then some (.CHAN_AKICK_COUNT (chanakickCount st.db channelId), st)
  else some (.CHAN_AKICK_SYNTAX, st)

/-- The user could get access by identifying for the channel. -/
def founderOf (u : AccessUser) (db : Database) (channelId : ℕ) : Bool :=
  (db.channel.find? fun c ↦ c.channelId = channelId).any fun c ↦
    decide (c.founder ≠ 0) && decide (mysqlGetlink db c.founder = u.nickId)

/-- `do_akick`. -/
def doAkick (env : AkickEnv) (u : AccessUser) (st : AkickState) (line : CString) : Option (AkickReply × AkickState) :=
  match akickWords line with
  | none => some (.CHAN_AKICK_SYNTAX, st)
  | some (chan, cmd, mask, reason) =>
    let adds := stricmp cmd "ADD".toList == 0
    let dels := stricmp cmd "DEL".toList == 0
    let level := if stricmp cmd "LIST".toList = 0 ∨ stricmp cmd "VIEW".toList = 0 then CA_AKICK_LIST else CA_AKICK
    if nickIdentified u = false ∧ (adds || dels || stricmp cmd "ENFORCE".toList == 0) then
      some (.NICK_IDENTIFY_REQUIRED, st)
    else if mask = none ∧ (adds || dels) then some (.CHAN_AKICK_SYNTAX, st)
    else
      let channelId := mysqlFindchan st.db chan
      if channelId = 0 then some (.CHAN_X_NOT_REGISTERED, st)
      else if getChanFlags st.db channelId &&& CI_VERBOTEN ≠ 0#32 then some (.CHAN_X_FORBIDDEN, st)
      else
        let (allowed, db) := checkAccess u env.now st.db channelId level
        let st := { st with db }
        if allowed = false ∧ u.isServicesAdmin = false then
          if founderOf u db channelId then some (.CHAN_IDENTIFY_REQUIRED, st) else some (.ACCESS_DENIED, st)
        else runAkick env u st channelId cmd mask reason

/-! ### Runs -/

/-- What changes the table: a command, a match on a channel, a channel and a nick that are dropped, and what the rest of
services does to the other tables. -/
inductive AkickMessage where
  | akick (now : ℕ) (u : AccessUser) (line : CString)
  | used (akickId now : ℕ) (lastMatched : CString)
  | delchan (channelId : ℕ)
  | removeNick (nickId : ℕ)
  | write (db : Database)

/-- `update_akick_last_used`. -/
def updateAkickLastUsed (st : AkickState) (akickId now : ℕ) (lastMatched : CString) : AkickState :=
  { st with
    columns := Function.update st.columns akickId { st.columns akickId with lastUsed := now, lastMatched } }

/-- One message. -/
def AkickState.receive (csAutokickMax : BitVec 32) (st : AkickState) : AkickMessage → Option AkickState
  | .akick now u line => (doAkick ⟨csAutokickMax, now⟩ u st line).map Prod.snd
  | .used akickId now lastMatched => some (updateAkickLastUsed st akickId now lastMatched)
  | .delchan channelId => some { st with db := mysqlDelchan st.db channelId }
  | .removeNick nickId => some { st with db := csMysqlRemoveNick st.db nickId }
  | .write db => some { st with db := { db with akick := st.db.akick } }

end BlitzedServices.ChanServ
