import BlitzedServices.Lib.Joins
import BlitzedServices.MemoServ.Routing

/-!
# Memos to many nicks

GLOBALSEND, OPERSEND and CSOPSEND store a memo for every nick that has settings for memos and is no link, for those
that are flagged as IRC operators, or for the services operators. The new memos are made in table
`private_tmp_memo`, as the statement that looks up the last numbers of the owners cannot write to `memo`, and are
copied from there.

The statement of OPERSEND lists seven columns and selects eight values. The server refuses it before it looks at
any row, and the services end. `broadcast_delivers` says what the other two store, and `broadcastRight_iff` in
which states a command does what it is for. -/

set_option autoImplicit false
set_option relaxedAutoImplicit false

namespace BlitzedServices.MemoServ

open Lib Lib.Joins Mysql NickServ ChanServ

def MF_GLOBALSEND : BitVec 32 := 0x2#32
def MF_OPERSEND : BitVec 32 := 0x4#32
def MF_CSOPSEND : BitVec 32 := 0x8#32

/-! ### Rows -/

/-- A row of `memo` or of `private_tmp_memo`. The server counts the ids. -/
structure Memo where
  owner : CString
  idx : ℕ
  flags : BitVec 32
  time : ℕ
  sender : CString
  text : CString
  rot13 : Bool
  deriving DecidableEq

inductive MemoColumn where
  | memo_id
  | owner
  | idx
  | flags
  | time
  | sender
  | text
  | rot13
  deriving DecidableEq

/-- A value in a SELECT. -/
inductive SqlValue where
  | null
  | number (n : ℕ)
  | text (s : CString)

/-- A value for a column of numbers. -/
def SqlValue.toNat : SqlValue → ℕ
  | .null => 0
  | .number n => n
  | .text s => (atoi s).toInt.toNat

/-- A value for a column of texts. -/
def SqlValue.toText : SqlValue → CString
  | .null => []
  | .number n => decimal n
  | .text s => s

/-- A number as an `int unsigned` column takes it. -/
def intColumn (n : ℕ) : ℕ :=
  min n 4294967295

/-- A sender as the column takes it. -/
def senderColumn (sender : CString) : CString :=
  sender.take 32

/-- A column gets a value. The id is always NULL, for which the server counts. -/
def Memo.set (m : Memo) : MemoColumn × SqlValue → Memo
  | (.memo_id, _) => m
  | (.owner, v) => { m with owner := ownerColumn v.toText }
  | (.idx, v) => { m with idx := intColumn v.toNat }
  | (.flags, v) => { m with flags := BitVec.ofNat 32 v.toNat }
  | (.time, v) => { m with time := v.toNat }
  | (.sender, v) => { m with sender := senderColumn v.toText }
  | (.text, v) => { m with text := v.toText }
  | (.rot13, v) => { m with rot13 := v.toText == ['Y'] }

/-- A new row: the columns that are not listed have their defaults. -/
def Memo.ofValues (values : List (MemoColumn × SqlValue)) : Memo :=
  values.foldl Memo.set ⟨[], 0, 0#32, 0, ['0'], [], false⟩

/-- A row of table `memo`. -/
def memoAt (columns : ℕ → MemoColumns) (r : MemoRow) : Memo :=
  let c := columns r.memoId
  ⟨r.owner, c.idx, c.flags, c.time, c.sender, r.text, c.rot13⟩

/-- A row is added to table `memo`. -/
def addMemo (m : Memo) (st : MemoState) : MemoState where
  world := { st.world with
    db := { st.world.db with memo := st.world.db.memo ++ [⟨nextMemoId st, m.owner, m.text⟩] } }
  columns := Function.update st.columns (nextMemoId st) ⟨m.idx, m.flags, m.time, m.sender, m.rot13⟩

/-- Rows are added to table `memo`. -/
def addMemos (memos : List Memo) (st : MemoState) : MemoState :=
  memos.foldl (fun st m ↦ addMemo m st) st

/-! ### The statements -/

/-- What the caller is told by the three commands. -/
inductive BroadcastText where
  | MEMO_GLOBALSEND_SERVADMIN_SYNTAX
  | MEMO_OPERSEND_SERVADMIN_SYNTAX
  | MEMO_CSOPSEND_SERVADMIN_SYNTAX
  | MEMO_SERVADMIN_GLOBALSENT
  | MEMO_SERVADMIN_OPERSENT
  | MEMO_SERVADMIN_CSOPSENT
  deriving DecidableEq

/-- One of the commands: the columns of its first INSERT, the tables before the LEFT JOIN and the condition, the
condition of the SELECT for the notices, its flag and its texts. -/
structure Broadcast (α : Type) where
  columns : List MemoColumn
  tables : Database → List α
  nick : α → NickRow
  memoinfo : α → MemoinfoRow
  targets : α → Bool
  notified : α → Bool
  flag : BitVec 32
  syntaxText : BroadcastText
  sentText : BroadcastText

section Statements

variable {α : Type} (cmd : Broadcast α) (columns : ℕ → MemoColumns) (db : Database)

/-- The rows of `tables LEFT JOIN memo ON memo.owner=memoinfo.owner`. -/
def Broadcast.joined : List (α × Option MemoRow) :=
  leftJoin (fun x r ↦ sameName r.owner (cmd.memoinfo x).owner) (cmd.tables db) db.memo

/-- The rows for the new memos, `GROUP BY memoinfo.owner`. -/
def Broadcast.groups : List ((α × Option MemoRow) × List (α × Option MemoRow)) :=
  groupBy (fun x y ↦ sameName (cmd.memoinfo x.1).owner (cmd.memoinfo y.1).owner)
    ((cmd.joined db).filter fun x ↦ cmd.targets x.1)

/-- `MAX(memo.idx)`. -/
def maxIdx (group : List (α × Option MemoRow)) : Option ℕ :=
  maxOf (fun x ↦ x.2.map fun r ↦ (columns r.memoId).idx) group

/-- `NULL, memoinfo.owner, IFNULL(MAX(memo.idx)+1, 1), %d, %d, '%s', '%s', '%c'`. -/
def Broadcast.newValues (now : ℕ) (sender text : CString) (rot13 : Bool) :
    List ((α × Option MemoRow) × List (α × Option MemoRow) → SqlValue) :=
  [fun _ ↦ .null,
    fun g ↦ .text (cmd.memoinfo g.1.1).owner,
    fun g ↦ .number ((maxIdx columns g.2).elim 1 (· + 1)),
    fun _ ↦ .number (MF_UNREAD ||| cmd.flag).toNat,
    fun _ ↦ .number now,
    fun _ ↦ .text sender,
    fun _ ↦ .text text,
    fun _ ↦ .text [if rot13 then 'Y' else 'N']]

/-- The first INSERT: the rows of `private_tmp_memo`. -/
def Broadcast.insertTmp (now : ℕ) (sender text : CString) (rot13 : Bool) : Option (List Memo) :=
  (insertSelect cmd.columns (cmd.newValues columns now sender text rot13) (cmd.groups db)).map
    (List.map Memo.ofValues)

/-- `(memo_id, owner, idx, flags, time, sender, text, rot13)`. -/
def memoColumns : List MemoColumn :=
  [.memo_id, .owner, .idx, .flags, .time, .sender, .text, .rot13]

/-- `NULL, owner, idx, flags, time, sender, text, rot13`. -/
def copyValues : List (Memo → SqlValue) :=
  [fun _ ↦ .null, fun m ↦ .text m.owner, fun m ↦ .number m.idx, fun m ↦ .number m.flags.toNat,
    fun m ↦ .number m.time, fun m ↦ .text m.sender, fun m ↦ .text m.text,
    fun m ↦ .text [if m.rot13 then 'Y' else 'N']]

/-- The second INSERT: the new rows of `memo`. -/
def copyMemos (privateTmpMemo : List Memo) : Option (List Memo) :=
  (insertSelect memoColumns copyValues privateTmpMemo).map (List.map Memo.ofValues)

/-- The SELECT for the notices, `GROUP BY memo.owner`: an id, the greatest number and a nick. -/
def Broadcast.selectNotices : List (ℕ × ℕ × CString) :=
  let owner (x : α × Option MemoRow) : CString := (x.2.map MemoRow.owner).getD []
  let rows := (cmd.joined db).filter fun x ↦
    x.2.isSome && sameName (cmd.nick x.1).nick (owner x) && cmd.notified x.1
  (groupBy (fun x y ↦ sameName (owner x) (owner y)) rows).map fun g ↦
    ((cmd.nick g.1.1).nickId, (maxIdx columns g.2).getD 0, (cmd.nick g.1.1).nick)

end Statements

/-! ### The commands -/

/-- What a command replies. -/
inductive BroadcastReply where
  | syntaxError (command : CString) (text : BroadcastText)
  | NICK_IDENTIFY_REQUIRED
  | sent (text : BroadcastText)
  | crashed
  deriving DecidableEq

/-- The tables with `private_tmp_memo`. -/
structure BroadcastState where
  memos : MemoState
  privateTmpMemo : List Memo

/-- Only the world is another one. -/
def BroadcastState.withWorld (st : BroadcastState) (world : World) : BroadcastState :=
  { st with memos := { st.memos with world } }

/-- The reply, the state that is left, `lastmemosend` and the notices by the ids of the users. -/
structure Broadcasted where
  reply : BroadcastReply
  state : BroadcastState
  lastmemosend : ℕ
  notices : List (ℕ × MemoNotice)

/-- The users who are told of a memo, one row of the SELECT after the other. -/
def notifyRows (mconf : MemoConfig) (sGlobalNoticer : CString) (now : ℕ) (rows : List (ℕ × ℕ × CString))
    (w : World) : World × List (ℕ × MemoNotice) :=
  rows.foldl
    (fun told row ↦
      let users :=
        if mconf.msNotifyAll then told.1.users.filter (·.realId = row.1) else (finduser told.1 row.2.2).toList
      (users.foldl (fun w r ↦ noticeLang now r w) told.1,
        told.2 ++ users.map fun r ↦ (r.uid, .MEMO_NEW_MEMO_ARRIVED sGlobalNoticer row.2.1)))
    (w, [])

/-- The common body of `do_globalsend`, `do_opersend` and `do_csopsend`. The texts are escaped in the statements,
so the server has them as they are. A statement that it refuses ends the services. -/
def broadcast {α : Type} (cmd : Broadcast α) (mconf : MemoConfig) (sGlobalNoticer : CString) (env : Env)
    (u : NickServ.User) (lastmemosend : ℕ) (text : Option CString) (st : BroadcastState) : Broadcasted :=
  let now := env.now
  let w := st.memos.world
  match text with
  | none =>
    ⟨.syntaxError "GLOBALSEND".toList cmd.syntaxText, st.withWorld (NickServ.syntaxError env u w),
      lastmemosend, []⟩
  | some text =>
    let recognized := NickServ.nickRecognized now u w
    let w := freshenIdentified now u w
    if ¬ recognized then ⟨.NICK_IDENTIFY_REQUIRED, st.withWorld (noticeLang now u w), lastmemosend, []⟩
    else if ¬ w.alive then ⟨.crashed, st.withWorld w, lastmemosend, []⟩
    else
      let text := if mconf.msRot13 then rot13 text else text
      match cmd.insertTmp st.memos.columns w.db now sGlobalNoticer text mconf.msRot13 with
      | none => ⟨.crashed, ⟨{ st.memos with world := w.die }, []⟩, now, []⟩
      | some tmp =>
        match copyMemos tmp with
        | none => ⟨.crashed, ⟨{ st.memos with world := w.die }, tmp⟩, now, []⟩
        | some memos =>
          let memos := addMemos memos { st.memos with world := w }
          let rows := cmd.selectNotices memos.columns memos.world.db
          let told := notifyRows mconf sGlobalNoticer now rows memos.world
          ⟨.sent cmd.sentText, ⟨{ memos with world := noticeLang now u told.1 }, tmp⟩, now, told.2⟩

/-- `FROM nick, memoinfo`, to all. -/
def globalsend : Broadcast (NickRow × MemoinfoRow) where
  columns := [.memo_id, .owner, .idx, .flags, .time, .sender, .text, .rot13]
  tables db := db.nick.product db.memoinfo
  nick := Prod.fst
  memoinfo := Prod.snd
  targets x := sameName x.1.nick x.2.owner && x.1.linkId == 0
  notified x := x.1.flags &&& NI_MEMO_RECEIVE != 0#32 && x.1.linkId == 0
  flag := MF_GLOBALSEND
  syntaxText := .MEMO_GLOBALSEND_SERVADMIN_SYNTAX
  sentText := .MEMO_SERVADMIN_GLOBALSENT

/-- `FROM nick, memoinfo`, to those with the flag of IRC operators. The columns of the first INSERT lack `rot13`.
-/
def opersend : Broadcast (NickRow × MemoinfoRow) where
  columns := [.memo_id, .owner, .idx, .flags, .time, .sender, .text]
  tables db := db.nick.product db.memoinfo
  nick := Prod.fst
  memoinfo := Prod.snd
  targets x := sameName x.1.nick x.2.owner && x.1.linkId == 0 && x.1.flags &&& NI_IRCOP != 0#32
  notified x := x.1.flags &&& (NI_MEMO_RECEIVE ||| NI_IRCOP) != 0#32 && x.1.linkId == 0
  flag := MF_OPERSEND
  syntaxText := .MEMO_OPERSEND_SERVADMIN_SYNTAX
  sentText := .MEMO_SERVADMIN_OPERSENT

/-- `FROM nick, memoinfo, oper`, to the services operators. -/
def csopsend : Broadcast (NickRow × MemoinfoRow × StaffRow) where
  columns := [.memo_id, .owner, .idx, .flags, .time, .sender, .text, .rot13]
  tables db := db.nick.product (db.memoinfo.product db.oper)
  nick := Prod.fst
  memoinfo x := x.2.1
  targets x := sameName x.1.nick x.2.1.owner && x.1.nickId == x.2.2.nickId && x.1.linkId == 0
  notified x := x.1.nickId == x.2.2.nickId && x.1.flags &&& NI_MEMO_RECEIVE != 0#32 && x.1.linkId == 0
  flag := MF_CSOPSEND
  syntaxText := .MEMO_CSOPSEND_SERVADMIN_SYNTAX
  sentText := .MEMO_SERVADMIN_CSOPSENT

/-- `do_globalsend`. -/
def doGlobalsend := broadcast globalsend

/-- `do_opersend`. -/
def doOpersend := broadcast opersend

/-- `do_csopsend`. -/
def doCsopsend := broadcast csopsend

/-! ### What the commands are for -/

/-- The three commands. -/
inductive BroadcastCommand where
  | GLOBALSEND
  | OPERSEND
  | CSOPSEND
  deriving DecidableEq

def BroadcastCommand.flag : BroadcastCommand → BitVec 32
  | .GLOBALSEND => MF_GLOBALSEND
  | .OPERSEND => MF_OPERSEND
  | .CSOPSEND => MF_CSOPSEND

/-- The nicks that a command is for: they are no link and have settings for memos. -/
def Targeted (cmd : BroadcastCommand) (db : Database) (n : NickRow) : Prop :=
  n ∈ db.nick ∧ n.linkId = 0 ∧ (∃ m ∈ db.memoinfo, sameName n.nick m.owner = true) ∧
    match cmd with
    | .GLOBALSEND => True
    | .OPERSEND => n.flags &&& NI_IRCOP ≠ 0#32
    | .CSOPSEND => ∃ o ∈ db.oper, n.nickId = o.nickId

/-- The greatest number among the memos of an owner. -/
def highestIdx (st : MemoState) (owner : CString) : Option ℕ :=
  ((memosOf st.world.db owner).map fun r ↦ (st.columns r.memoId).idx).max?

/-- The number of the owner's next memo. -/
def nextIdx (st : MemoState) (owner : CString) : ℕ :=
  (highestIdx st owner).elim 1 (· + 1)

/-- The memo for a nick: unread, with a flag, the sender, the text, the mark and the owner's next number. -/
def contentFor (st : MemoState) (flag : BitVec 32) (now : ℕ) (sender text : CString) (rot13 : Bool) (n : NickRow)
    (owner : CString) : Memo where
  owner := owner
  idx := nextIdx st n.nick
  flags := MF_UNREAD ||| flag
  time := now
  sender := sender
  text := text
  rot13 := rot13

/-- There is one new memo for each of some nicks, with a content that depends on the nick, and nothing else is
changed. -/
structure Delivered (targeted : NickRow → Prop) (content : NickRow → CString → Memo) (st st' : MemoState)
    (new : List MemoRow) : Prop where
  world : CacheOnly { st.world with db := { st.world.db with memo := st.world.db.memo ++ new } } st'.world
  kept : ∀ r ∈ st.world.db.memo, memoAt st'.columns r = memoAt st.columns r
  one : ∀ n, targeted n → ∃ r, new.filter (fun r ↦ sameName r.owner n.nick) = [r] ∧
    memoAt st'.columns r = content n r.owner
  only : ∀ r ∈ new, ∃ n, targeted n ∧ sameName r.owner n.nick = true

/-- A call of one of the commands. -/
structure BroadcastCall where
  command : BroadcastCommand
  mconf : MemoConfig
  sGlobalNoticer : CString
  env : Env
  u : NickServ.User
  lastmemosend : ℕ
  text : Option CString

/-- What the call does. -/
def BroadcastCall.run (call : BroadcastCall) : BroadcastState → Broadcasted :=
  match call.command with
  | .GLOBALSEND => doGlobalsend call.mconf call.sGlobalNoticer call.env call.u call.lastmemosend call.text
  | .OPERSEND => doOpersend call.mconf call.sGlobalNoticer call.env call.u call.lastmemosend call.text
  | .CSOPSEND => doCsopsend call.mconf call.sGlobalNoticer call.env call.u call.lastmemosend call.text

/-- The memo that a call promises to a nick. -/
def BroadcastCall.content (call : BroadcastCall) (text : CString) (st : MemoState) : NickRow → CString → Memo :=
  contentFor st call.command.flag call.env.now call.sGlobalNoticer
    (if call.mconf.msRot13 then rot13 text else text) call.mconf.msRot13

/-- A call is accepted when it has a text and the caller is recognized. -/
def BroadcastCall.accepted (call : BroadcastCall) (st : MemoState) : Option CString :=
  if NickServ.nickRecognized call.env.now call.u st.world then call.text else none

/-- What is promised of a call: if it is accepted, each nick that it is for gets the memo and nothing else is
changed, and otherwise nothing is changed. -/
def BroadcastRight (call : BroadcastCall) (st : BroadcastState) : Prop :=
  match call.accepted st.memos with
  | some text => ∃ new, Delivered (Targeted call.command st.memos.world.db) (call.content text st.memos) st.memos
      (call.run st).state.memos new
  | none => CacheOnly st.memos.world (call.run st).state.memos.world ∧
      (call.run st).state.memos.columns = st.memos.columns

/-! ### Rows that are added -/

/-- Rows have been added to table `memo`. -/
structure Added (memos : List Memo) (st st' : MemoState) (new : List MemoRow) : Prop where
  world : st'.world = { st.world with db := { st.world.db with memo := st.world.db.memo ++ new } }
  kept : ∀ r ∈ st.world.db.memo, memoAt st'.columns r = memoAt st.columns r
  memos : new.map (memoAt st'.columns) = memos

/-- The row that is added has an id that no other row has. -/
theorem added_addMemo (m : Memo) (st : MemoState) :
    Added [m] st (addMemo m st) [⟨nextMemoId st, m.owner, m.text⟩] := by
  constructor
  · rfl
  · intro r hr
    simp only [memoAt, addMemo, Function.update_of_ne (lt_nextMemoId hr).ne]
  · simp only [memoAt, addMemo, List.map_cons, List.map_nil, Function.update_self]

theorem Added.append {memos memos' : List Memo} {st st' st'' : MemoState} {new new' : List MemoRow}
    (h : Added memos st st' new) (h' : Added memos' st' st'' new') :
    Added (memos ++ memos') st st'' (new ++ new') := by
  have hmemo : st'.world.db.memo = st.world.db.memo ++ new := by rw [h.world]
  constructor
  · rw [h'.world, h.world, ← List.append_assoc]
  · intro r hr
    rw [h'.kept r (hmemo ▸ List.mem_append_left new hr)]
    exact h.kept r hr
  · rw [List.map_append, h'.memos, ← h.memos]
    congr 1
    exact List.map_congr_left fun r hr ↦ h'.kept r (hmemo ▸ List.mem_append_right _ hr)

theorem added_addMemos (memos : List Memo) (st : MemoState) : ∃ new, Added memos st (addMemos memos st) new := by
  induction memos generalizing st with
  | nil =>
    refine ⟨[], ?_, fun _ _ ↦ rfl, rfl⟩
    show st.world = { st.world with db := { st.world.db with memo := st.world.db.memo ++ [] } }
    rw [List.append_nil]
  | cons m memos ih =>
    obtain ⟨new, hnew⟩ := ih (addMemo m st)
    exact ⟨_, (added_addMemo m st).append hnew⟩

/-! ### The values that are stored -/

/-- A row as the columns take it. -/
def Memo.stored (m : Memo) : Memo :=
  { m with owner := ownerColumn m.owner, idx := intColumn m.idx, sender := senderColumn m.sender }

theorem ownerColumn_ownerColumn (owner : CString) : ownerColumn (ownerColumn owner) = ownerColumn owner := by
  rw [ownerColumn, ownerColumn, List.take_take, min_self]

theorem Memo.stored_stored (m : Memo) : m.stored.stored = m.stored := by
  simp only [Memo.stored, ownerColumn_ownerColumn, intColumn, senderColumn, List.take_take, min_self, min_assoc]

/-- The mark is read back. -/
theorem mark_eq (rot13 : Bool) : ([if rot13 then 'Y' else 'N'] == ['Y']) = rot13 := by
  cases rot13 <;> rfl

/-- What is copied is stored as it is. -/
theorem copyMemos_eq (privateTmpMemo : List Memo) :
    copyMemos privateTmpMemo = some (privateTmpMemo.map Memo.stored) := by
  rw [copyMemos, insertSelect_of_length (by rfl), Option.map_some, List.map_map]
  refine congrArg some (List.map_congr_left fun m _ ↦ ?_)
  show ({ m.stored with
    flags := BitVec.ofNat 32 m.flags.toNat
    rot13 := [if m.rot13 then 'Y' else 'N'] == ['Y'] } : Memo) = m.stored
  rw [BitVec.ofNat_toNat, BitVec.setWidth_eq, mark_eq]
  rfl

section Statements

variable {α : Type} {cmd : Broadcast α} {db : Database} {columns : ℕ → MemoColumns} {now : ℕ}
  {sender text : CString} {rot13 : Bool}

/-- The memo for a group of rows. -/
def Broadcast.newMemo (cmd : Broadcast α) (columns : ℕ → MemoColumns) (now : ℕ) (sender text : CString)
    (rot13 : Bool) (g : (α × Option MemoRow) × List (α × Option MemoRow)) : Memo where
  owner := (cmd.memoinfo g.1.1).owner
  idx := (maxIdx columns g.2).elim 1 (· + 1)
  flags := MF_UNREAD ||| cmd.flag
  time := now
  sender := sender
  text := text
  rot13 := rot13

/-- With a column for each value the new rows are those of the groups. -/
theorem insertTmp_eq (h : cmd.columns = memoColumns) :
    cmd.insertTmp columns db now sender text rot13 =
      some ((cmd.groups db).map fun g ↦ (cmd.newMemo columns now sender text rot13 g).stored) := by
  rw [Broadcast.insertTmp, h, insertSelect_of_length (by rfl), Option.map_some, List.map_map]
  refine congrArg some (List.map_congr_left fun g _ ↦ ?_)
  show ({ (cmd.newMemo columns now sender text rot13 g).stored with
    flags := BitVec.ofNat 32 (MF_UNREAD ||| cmd.flag).toNat
    rot13 := [if rot13 then 'Y' else 'N'] == ['Y'] } : Memo) = _
  rw [BitVec.ofNat_toNat, BitVec.setWidth_eq, mark_eq]
  rfl

/-- The statement of OPERSEND is refused, whatever is in the tables. -/
theorem insertTmp_opersend : opersend.insertTmp columns db now sender text rot13 = none := by
  have hlength : opersend.columns.length ≠ (opersend.newValues columns now sender text rot13).length :=
    show 7 ≠ 8 by decide
  rw [Broadcast.insertTmp, insertSelect_eq_none hlength]
  rfl

end Statements

/-! ### The groups -/

/-- The rows that a condition lets through are those of the nicks that are targeted, with their settings. -/
structure Broadcast.Selects {α : Type} (cmd : Broadcast α) (targeted : NickRow → Prop) (db : Database) : Prop where
  sound : ∀ x ∈ cmd.tables db, cmd.targets x = true → targeted (cmd.nick x) ∧ cmd.memoinfo x ∈ db.memoinfo ∧
    sameName (cmd.nick x).nick (cmd.memoinfo x).owner = true
  complete : ∀ n, targeted n → ∃ x ∈ cmd.tables db, cmd.targets x = true ∧ cmd.nick x = n

theorem selects_globalsend (db : Database) : globalsend.Selects (Targeted .GLOBALSEND db) db := by
  constructor
  · rintro ⟨n, m⟩ hx htargets
    obtain ⟨hn, hm⟩ := List.pair_mem_product.mp hx
    simp only [globalsend, Bool.and_eq_true, beq_iff_eq] at htargets
    exact ⟨⟨hn, htargets.2, ⟨m, hm, htargets.1⟩, trivial⟩, hm, htargets.1⟩
  · rintro n ⟨hn, hlink, ⟨m, hm, hname⟩, -⟩
    refine ⟨(n, m), List.pair_mem_product.mpr ⟨hn, hm⟩, ?_, rfl⟩
    simp only [globalsend, Bool.and_eq_true, beq_iff_eq]
    exact ⟨hname, hlink⟩

theorem selects_csopsend (db : Database) : csopsend.Selects (Targeted .CSOPSEND db) db := by
  constructor
  · rintro ⟨n, m, o⟩ hx htargets
    obtain ⟨hn, hmo⟩ := List.pair_mem_product.mp hx
    obtain ⟨hm, ho⟩ := List.pair_mem_product.mp hmo
    simp only [csopsend, Bool.and_eq_true, beq_iff_eq] at htargets
    exact ⟨⟨hn, htargets.2, ⟨m, hm, htargets.1.1⟩, o, ho, htargets.1.2⟩, hm, htargets.1.1⟩
  · rintro n ⟨hn, hlink, ⟨m, hm, hname⟩, o, ho, hoper⟩
    refine ⟨(n, m, o), List.pair_mem_product.mpr ⟨hn, List.pair_mem_product.mpr ⟨hm, ho⟩⟩, ?_, rfl⟩
    simp only [csopsend, Bool.and_eq_true, beq_iff_eq]
    exact ⟨⟨hname, hoper⟩, hlink⟩

/-- The memos of an owner, in any case of the letters. -/
theorem highestIdx_congr {st : MemoState} {a b : CString} (h : sameName a b = true) :
    highestIdx st a = highestIdx st b := by
  simp only [highestIdx, memosOf, sameName_congr h]

section Groups

variable {α : Type} {cmd : Broadcast α} {targeted : NickRow → Prop} {st : MemoState}

theorem equivalence_owner (cmd : Broadcast α) : Equivalence fun x y : α × Option MemoRow ↦
    sameName (cmd.memoinfo x.1).owner (cmd.memoinfo y.1).owner = true where
  refl x := sameName_self _
  symm h := by rwa [sameName_comm]
  trans h h' := by rwa [← sameName_congr h']

/-- The rows of a group have the memos of the owner, each of them as often as the owner is in the tables before. -/
theorem maxIdx_group {k : α × Option MemoRow}
    (hk : k ∈ (cmd.joined st.world.db).filter fun x ↦ cmd.targets x.1) :
    maxIdx st.columns (((cmd.joined st.world.db).filter fun x ↦ cmd.targets x.1).filter fun y ↦
      sameName (cmd.memoinfo k.1).owner (cmd.memoinfo y.1).owner) = highestIdx st (cmd.memoinfo k.1).owner := by
  obtain ⟨hjoined, htargets⟩ := List.mem_filter.mp hk
  refine maxOf_eq fun n ↦ ?_
  constructor
  · rintro ⟨⟨y, r⟩, hy, hidx⟩
    obtain ⟨hy, hsame⟩ := List.mem_filter.mp hy
    obtain ⟨r, rfl, rfl⟩ := Option.map_eq_some_iff.mp hidx
    obtain ⟨-, hr, hown⟩ := some_mem_leftJoin.mp (List.mem_filter.mp hy).1
    refine List.mem_map.mpr ⟨r, List.mem_filter.mpr ⟨hr, ?_⟩, rfl⟩
    rwa [sameName_congr hsame]
  · intro hn
    obtain ⟨r, hr, rfl⟩ := List.mem_map.mp hn
    obtain ⟨hr, hown⟩ := List.mem_filter.mp hr
    have hx : k.1 ∈ cmd.tables st.world.db := exists_mem_leftJoin.mp ⟨k.2, hjoined⟩
    have hrow : (k.1, some r) ∈ cmd.joined st.world.db := some_mem_leftJoin.mpr ⟨hx, hr, hown⟩
    refine ⟨(k.1, some r), List.mem_filter.mpr ⟨List.mem_filter.mpr ⟨hrow, htargets⟩, ?_⟩, rfl⟩
    exact sameName_self _

/-- A nick that is targeted has one group. -/
theorem filter_groups (h : cmd.Selects targeted st.world.db) {n : NickRow} (hn : targeted n) :
    ∃ g, ((cmd.groups st.world.db).filter fun g ↦ sameName (cmd.memoinfo g.1.1).owner n.nick) = [g] ∧
      maxIdx st.columns g.2 = highestIdx st n.nick := by
  obtain ⟨x, hx, htargets, rfl⟩ := h.complete n hn
  obtain ⟨-, -, hname⟩ := h.sound x hx htargets
  obtain ⟨o, ho⟩ : ∃ o, (x, o) ∈ cmd.joined st.world.db := exists_mem_leftJoin.mpr hx
  have hmem : (x, o) ∈ (cmd.joined st.world.db).filter fun x ↦ cmd.targets x.1 :=
    List.mem_filter.mpr ⟨ho, htargets⟩
  obtain ⟨k, hk, hsame, hone⟩ := filter_groupBy (equivalence_owner cmd) hmem
  have hfilter : (cmd.groups st.world.db).filter (fun g ↦ sameName (cmd.memoinfo g.1.1).owner (cmd.nick x).nick) =
      (cmd.groups st.world.db).filter fun g ↦ sameName (cmd.memoinfo x).owner (cmd.memoinfo g.1.1).owner :=
    List.filter_congr fun g _ ↦ by rw [sameName_congr hname, sameName_comm]
  have hnick : sameName (cmd.memoinfo k.1).owner (cmd.nick x).nick = true := by
    rw [sameName_congr hname, sameName_comm]
    exact hsame
  exact ⟨_, hfilter.trans hone, (maxIdx_group hk).trans (highestIdx_congr hnick)⟩

/-- A group is that of a nick that is targeted. -/
theorem targeted_of_mem_groups (h : cmd.Selects targeted st.world.db)
    {g : (α × Option MemoRow) × List (α × Option MemoRow)} (hg : g ∈ cmd.groups st.world.db) :
    ∃ n, targeted n ∧ cmd.memoinfo g.1.1 ∈ st.world.db.memoinfo ∧
      sameName (cmd.memoinfo g.1.1).owner n.nick = true := by
  obtain ⟨hmem, htargets⟩ := List.mem_filter.mp (mem_of_mem_groupBy hg).1
  have hx : g.1.1 ∈ cmd.tables st.world.db := exists_mem_leftJoin.mp ⟨g.1.2, hmem⟩
  obtain ⟨htargeted, hmemoinfo, hname⟩ := h.sound _ hx htargets
  exact ⟨_, htargeted, hmemoinfo, by rwa [sameName_comm]⟩

end Groups

/-! ### What is delivered -/

theorem ownerColumn_of_length {owner : CString} (h : owner.length ≤ 32) : ownerColumn owner = owner :=
  List.take_of_length_le (h.trans (by decide))

/-- Nothing but the cache is changed, before rows are written or after. -/
theorem cacheOnly_withDb {w w' : World} (h : CacheOnly w w') (db : Database) :
    CacheOnly { w with db } { w' with db } :=
  ⟨congrArg (fun w : World ↦ { w with db }) h.same, h.alive⟩

theorem cacheOnly_notifyRows (mconf : MemoConfig) (sGlobalNoticer : CString) (now : ℕ)
    (rows : List (ℕ × ℕ × CString)) (w : World) :
    CacheOnly w (notifyRows mconf sGlobalNoticer now rows w).1 := by
  rw [notifyRows]
  generalize ([] : List (ℕ × MemoNotice)) = notices
  induction rows generalizing w notices with
  | nil => exact .refl w
  | cons row rows ih => exact (cacheOnly_foldl_noticeLang now _ w).trans (ih _ _)

section Delivered

variable {α : Type} {cmd : Broadcast α} {targeted : NickRow → Prop} {st st' : MemoState} {new : List MemoRow}
  {now : ℕ} {sender text : CString} {rot13 : Bool}

/-- The rows of the groups are what is to be delivered, as the columns take it. -/
theorem delivered_of_added (h : cmd.Selects targeted st.world.db)
    (hshort : ∀ m ∈ st.world.db.memoinfo, m.owner.length ≤ 32)
    (hadded : Added ((cmd.groups st.world.db).map fun g ↦
      (cmd.newMemo st.columns now sender text rot13 g).stored) st st' new) :
    Delivered targeted (fun n owner ↦ (contentFor st cmd.flag now sender text rot13 n owner).stored)
      st st' new := by
  have howner : ∀ g ∈ cmd.groups st.world.db,
      (cmd.newMemo st.columns now sender text rot13 g).stored.owner = (cmd.memoinfo g.1.1).owner := by
    intro g hg
    obtain ⟨-, -, hmemoinfo, -⟩ := targeted_of_mem_groups h hg
    exact ownerColumn_of_length (hshort _ hmemoinfo)
  constructor
  · rw [hadded.world]
    exact .refl _
  · exact hadded.kept
  · intro n hn
    obtain ⟨g, hg, hmax⟩ := filter_groups h hn
    have hfilter : (new.filter fun r ↦ sameName r.owner n.nick).map (memoAt st'.columns) =
        [(cmd.newMemo st.columns now sender text rot13 g).stored] := by
      calc (new.filter fun r ↦ sameName r.owner n.nick).map (memoAt st'.columns)
        _ = (new.map (memoAt st'.columns)).filter fun m ↦ sameName m.owner n.nick := by
            rw [List.filter_map]
            rfl
        _ = ((cmd.groups st.world.db).filter fun g ↦
              sameName (cmd.newMemo st.columns now sender text rot13 g).stored.owner n.nick).map
              fun g ↦ (cmd.newMemo st.columns now sender text rot13 g).stored := by
            rw [hadded.memos, List.filter_map]
            rfl
        _ = [(cmd.newMemo st.columns now sender text rot13 g).stored] := by
            rw [List.filter_congr fun g hg ↦ by rw [howner g hg], hg]
            rfl
    obtain ⟨r, hr, hmemo⟩ := List.map_eq_singleton_iff.mp hfilter
    refine ⟨r, hr, ?_⟩
    have hrow : r.owner = ownerColumn (cmd.memoinfo g.1.1).owner := congrArg Memo.owner hmemo
    rw [hmemo, hrow]
    simp only [Memo.stored, contentFor, Broadcast.newMemo, ownerColumn_ownerColumn, nextIdx, hmax]
  · intro r hr
    have hmem : memoAt st'.columns r ∈ new.map (memoAt st'.columns) := List.mem_map_of_mem hr
    rw [hadded.memos] at hmem
    obtain ⟨g, hg, hmemo⟩ := List.mem_map.mp hmem
    obtain ⟨n, hn, -, hname⟩ := targeted_of_mem_groups h hg
    refine ⟨n, hn, ?_⟩
    have hrow : r.owner = (cmd.memoinfo g.1.1).owner := (congrArg Memo.owner hmemo).symm.trans (howner g hg)
    rwa [hrow]

/-- The looks at the cache before and after do not matter. -/
theorem Delivered.cache {content : NickRow → CString → Memo} {w w' : World}
    (h : Delivered targeted content ⟨w, st.columns⟩ st' new) (hw : CacheOnly st.world w)
    (hw' : CacheOnly st'.world w') : Delivered targeted content st ⟨w', st'.columns⟩ new := by
  have hdb : w.db = st.world.db := hw.db
  constructor
  · refine ((cacheOnly_withDb hw _).trans ?_).trans hw'
    rw [← hdb]
    exact h.world
  · rw [← hdb]
    exact h.kept
  · exact h.one
  · exact h.only

theorem contentFor_congr {w : World} (h : w.db = st.world.db) (flag : BitVec 32) :
    contentFor ⟨w, st.columns⟩ flag now sender text rot13 = contentFor st flag now sender text rot13 := by
  funext n owner
  simp only [contentFor, nextIdx, highestIdx, h]

end Delivered

section Run

variable {α : Type} {cmd : Broadcast α} {targeted : NickRow → Prop} {mconf : MemoConfig} {sGlobalNoticer : CString}
  {env : Env} {u : NickServ.User} {lastmemosend : ℕ} {text : CString} {st : BroadcastState}

/-- A command whose first INSERT has a column for each value delivers the memos, as the columns take them. -/
theorem broadcast_delivers (hcolumns : cmd.columns = memoColumns) (h : cmd.Selects targeted st.memos.world.db)
    (hshort : ∀ m ∈ st.memos.world.db.memoinfo, m.owner.length ≤ 32)
    (hrecognized : NickServ.nickRecognized env.now u st.memos.world = true)
    (halive : (freshenIdentified env.now u st.memos.world).alive = true) :
    ∃ new, Delivered targeted
      (fun n owner ↦ (contentFor st.memos cmd.flag env.now sGlobalNoticer
        (if mconf.msRot13 then rot13 text else text) mconf.msRot13 n owner).stored)
      st.memos (broadcast cmd mconf sGlobalNoticer env u lastmemosend (some text) st).state.memos new := by
  have hcache : CacheOnly st.memos.world (freshenIdentified env.now u st.memos.world) :=
    (CacheOnly.refl _).freshenIdentified env.now u
  rw [broadcast]
  dsimp only
  rw [if_neg (not_not_intro hrecognized), if_neg (not_not_intro halive), insertTmp_eq hcolumns]
  dsimp only
  rw [copyMemos_eq, List.map_map]
  dsimp only
  generalize freshenIdentified env.now u st.memos.world = w at hcache ⊢
  generalize (if mconf.msRot13 then rot13 text else text) = text
  have hstored : (Memo.stored ∘ fun g ↦
      (cmd.newMemo st.memos.columns env.now sGlobalNoticer text mconf.msRot13 g).stored) =
      fun g ↦ (cmd.newMemo st.memos.columns env.now sGlobalNoticer text mconf.msRot13 g).stored :=
    funext fun g ↦ Memo.stored_stored _
  rw [hstored]
  have hdb : w.db = st.memos.world.db := hcache.db
  obtain ⟨new, hadded⟩ := added_addMemos ((cmd.groups w.db).map fun g ↦
    (cmd.newMemo st.memos.columns env.now sGlobalNoticer text mconf.msRot13 g).stored) ⟨w, st.memos.columns⟩
  rw [← hdb] at h hshort
  have hdelivered : Delivered targeted
      (fun n owner ↦ (contentFor ⟨w, st.memos.columns⟩ cmd.flag env.now sGlobalNoticer text mconf.msRot13 n
        owner).stored)
      ⟨w, st.memos.columns⟩ (addMemos _ ⟨w, st.memos.columns⟩) new := delivered_of_added h hshort hadded
  rw [contentFor_congr hdb] at hdelivered
  refine ⟨new, hdelivered.cache hcache ?_⟩
  exact (cacheOnly_notifyRows mconf sGlobalNoticer env.now _ _).trans ((CacheOnly.refl _).noticeLang env.now u)

/-- Without rows for `private_tmp_memo` nothing is changed. -/
theorem broadcast_unchanged
    (hrecognized : NickServ.nickRecognized env.now u st.memos.world = true)
    (h : (freshenIdentified env.now u st.memos.world).alive = true →
      cmd.insertTmp st.memos.columns (freshenIdentified env.now u st.memos.world).db env.now sGlobalNoticer
        (if mconf.msRot13 then rot13 text else text) mconf.msRot13 = none) :
    let sent := broadcast cmd mconf sGlobalNoticer env u lastmemosend (some text) st
    CacheOnly st.memos.world sent.state.memos.world ∧ sent.state.memos.columns = st.memos.columns := by
  have hcache : CacheOnly st.memos.world (freshenIdentified env.now u st.memos.world) :=
    (CacheOnly.refl _).freshenIdentified env.now u
  rw [broadcast]
  dsimp only
  rw [if_neg (not_not_intro hrecognized)]
  by_cases halive : (freshenIdentified env.now u st.memos.world).alive = true
  · rw [if_neg (not_not_intro halive), h halive]
    exact ⟨hcache.die, rfl⟩
  · rw [if_pos halive]
    exact ⟨hcache, rfl⟩

end Run

/-! ### When a call is right -/

section Right

variable {targeted : NickRow → Prop} {st st' : MemoState} {new : List MemoRow} {flag : BitVec 32} {now : ℕ}
  {sender text : CString} {rot13 : Bool}

/-- A state that is left as it is has what was to be delivered when there was nothing to be delivered. -/
theorem delivered_iff_of_unchanged {content : NickRow → CString → Memo} (hworld : CacheOnly st.world st'.world)
    (hcolumns : st'.columns = st.columns) :
    (∃ new, Delivered targeted content st st' new) ↔ ∀ n, ¬ targeted n := by
  constructor
  · rintro ⟨new, h⟩ n hn
    obtain ⟨r, hr, -⟩ := h.one n hn
    have hmemo : st.world.db.memo = st.world.db.memo ++ new :=
      congrArg Database.memo (hworld.db.symm.trans h.world.db)
    rw [List.self_eq_append_right.mp hmemo] at hr
    cases hr
  · intro hnone
    refine ⟨[], ?_, ?_, fun n hn ↦ absurd hn (hnone n), fun r hr ↦ by cases hr⟩
    · rw [List.append_nil]
      exact hworld
    · rw [hcolumns]
      exact fun _ _ ↦ rfl

/-- What the columns took is what was promised when the sender and the numbers fit. -/
theorem delivered_iff_of_stored
    (h : Delivered targeted (fun n owner ↦ (contentFor st flag now sender text rot13 n owner).stored) st st' new) :
    (∃ new, Delivered targeted (contentFor st flag now sender text rot13) st st' new) ↔
      ∀ n, targeted n → sender.length ≤ 32 ∧ nextIdx st n.nick ≤ 4294967295 := by
  constructor
  · rintro ⟨new', h'⟩ n hn
    obtain ⟨r, hr, hstored⟩ := h.one n hn
    obtain ⟨r', hr', hcontent⟩ := h'.one n hn
    have hmemo : st.world.db.memo ++ new = st.world.db.memo ++ new' :=
      congrArg Database.memo (h.world.db.symm.trans h'.world.db)
    obtain rfl := List.append_cancel_left hmemo
    obtain rfl := List.singleton_injective (hr.symm.trans hr')
    have hsame := hcontent.symm.trans hstored
    have hsender : sender = sender.take 32 := congrArg Memo.sender hsame
    have hidx : nextIdx st n.nick = min (nextIdx st n.nick) 4294967295 := congrArg Memo.idx hsame
    exact ⟨List.take_eq_self_iff _ |>.mp hsender.symm, hidx ▸ min_le_right _ _⟩
  · intro hfits
    refine ⟨new, h.world, h.kept, fun n hn ↦ ?_, h.only⟩
    obtain ⟨r, hr, hstored⟩ := h.one n hn
    obtain ⟨hsender, hidx⟩ := hfits n hn
    have howner : r.owner = ownerColumn r.owner := congrArg Memo.owner hstored
    refine ⟨r, hr, hstored.trans ?_⟩
    simp only [Memo.stored, contentFor, ← howner, intColumn, min_eq_left hidx, senderColumn,
      List.take_of_length_le hsender]

end Right

/-- The condition on a call: it is refused, or it is for nobody, or the services survive the look at the caller's
status, the command is not OPERSEND, and the sender and the numbers fit their columns. -/
def BroadcastMeets (call : BroadcastCall) (st : MemoState) : Prop :=
  call.accepted st = none ∨ (∀ n, ¬ Targeted call.command st.world.db n) ∨
    ((freshenIdentified call.env.now call.u st.world).alive = true ∧ call.command ≠ .OPERSEND ∧
      call.sGlobalNoticer.length ≤ 32 ∧
      ∀ n, Targeted call.command st.world.db n → nextIdx st n.nick ≤ 4294967295)

section Call

variable {call : BroadcastCall} {st : BroadcastState} {text : CString}

theorem accepted_eq_some : call.accepted st.memos = some text ↔
    NickServ.nickRecognized call.env.now call.u st.memos.world = true ∧ call.text = some text := by
  rw [BroadcastCall.accepted]
  split_ifs with hrecognized
  · exact ⟨fun h ↦ ⟨hrecognized, h⟩, And.right⟩
  · exact iff_of_false (fun h ↦ by cases h) fun h ↦ hrecognized h.1

/-- A call that is refused changes nothing. -/
theorem run_of_refused (h : call.accepted st.memos = none) :
    CacheOnly st.memos.world (call.run st).state.memos.world ∧
      (call.run st).state.memos.columns = st.memos.columns := by
  have hbroadcast : ∀ {α : Type} (cmd : Broadcast α),
      let sent := broadcast cmd call.mconf call.sGlobalNoticer call.env call.u call.lastmemosend call.text st
      CacheOnly st.memos.world sent.state.memos.world ∧ sent.state.memos.columns = st.memos.columns := by
    intro α cmd
    cases htext : call.text with
    | none => exact ⟨(CacheOnly.refl _).syntaxError call.env call.u, rfl⟩
    | some text =>
      have hnot : ¬ NickServ.nickRecognized call.env.now call.u st.memos.world = true := fun hrecognized ↦ by
        rw [accepted_eq_some.mpr ⟨hrecognized, htext⟩] at h
        cases h
      rw [broadcast]
      dsimp only
      rw [if_pos hnot]
      exact ⟨((CacheOnly.refl _).freshenIdentified _ _).noticeLang _ _, rfl⟩
  rw [BroadcastCall.run]
  cases call.command with
  | GLOBALSEND => exact hbroadcast globalsend
  | OPERSEND => exact hbroadcast opersend
  | CSOPSEND => exact hbroadcast csopsend

/-- OPERSEND, or services that do not survive the look at the caller's status, change nothing. -/
theorem run_unchanged (h : call.accepted st.memos = some text)
    (hfails : (freshenIdentified call.env.now call.u st.memos.world).alive = true → call.command = .OPERSEND) :
    CacheOnly st.memos.world (call.run st).state.memos.world ∧
      (call.run st).state.memos.columns = st.memos.columns := by
  obtain ⟨hrecognized, htext⟩ := accepted_eq_some.mp h
  rw [BroadcastCall.run, htext]
  cases hcommand : call.command with
  | GLOBALSEND =>
    exact broadcast_unchanged hrecognized fun halive ↦ by
      rw [hfails halive] at hcommand
      cases hcommand
  | OPERSEND => exact broadcast_unchanged hrecognized fun _ ↦ insertTmp_opersend
  | CSOPSEND =>
    exact broadcast_unchanged hrecognized fun halive ↦ by
      rw [hfails halive] at hcommand
      cases hcommand

/-- The other two deliver the memos, as the columns take them. -/
theorem run_delivers (hshort : ∀ m ∈ st.memos.world.db.memoinfo, m.owner.length ≤ 32)
    (h : call.accepted st.memos = some text)
    (halive : (freshenIdentified call.env.now call.u st.memos.world).alive = true)
    (hcommand : call.command ≠ .OPERSEND) :
    ∃ new, Delivered (Targeted call.command st.memos.world.db)
      (fun n owner ↦ (call.content text st.memos n owner).stored) st.memos (call.run st).state.memos new := by
  obtain ⟨hrecognized, htext⟩ := accepted_eq_some.mp h
  rw [BroadcastCall.content, BroadcastCall.run, htext]
  cases hc : call.command with
  | GLOBALSEND => exact broadcast_delivers rfl (selects_globalsend _) hshort hrecognized halive
  | OPERSEND => exact absurd hc hcommand
  | CSOPSEND => exact broadcast_delivers rfl (selects_csopsend _) hshort hrecognized halive

end Call

/-- For every state of the tables, every text and every caller: GLOBALSEND, OPERSEND and CSOPSEND do what they are
for exactly when the condition is met. The owners in `memoinfo` are of at most 32 characters. -/
theorem broadcastRight_iff (call : BroadcastCall) (st : BroadcastState)
    (hshort : ∀ m ∈ st.memos.world.db.memoinfo, m.owner.length ≤ 32) :
    BroadcastRight call st ↔ BroadcastMeets call st.memos := by
  cases haccepted : call.accepted st.memos with
  | none =>
    refine iff_of_true ?_ (.inl haccepted)
    rw [BroadcastRight, haccepted]
    exact run_of_refused haccepted
  | some text =>
    rw [BroadcastRight, BroadcastMeets, haccepted]
    dsimp only
    by_cases hruns : (freshenIdentified call.env.now call.u st.memos.world).alive = true ∧ call.command ≠ .OPERSEND
    · obtain ⟨new, hnew⟩ := run_delivers hshort haccepted hruns.1 hruns.2
      rw [BroadcastCall.content, delivered_iff_of_stored hnew]
      constructor
      · intro hfits
        by_cases hnobody : ∃ n, Targeted call.command st.memos.world.db n
        · obtain ⟨n, hn⟩ := hnobody
          exact .inr (.inr ⟨hruns.1, hruns.2, (hfits n hn).1, fun n hn ↦ (hfits n hn).2⟩)
        · exact .inr (.inl fun n hn ↦ hnobody ⟨n, hn⟩)
      · rintro (hrefused | hnobody | ⟨-, -, hsender, hidx⟩)
        · cases hrefused
        · exact fun n hn ↦ absurd hn (hnobody n)
        · exact fun n hn ↦ ⟨hsender, hidx n hn⟩
    · obtain ⟨hworld, hcolumns⟩ := run_unchanged haccepted fun halive ↦ not_not.mp fun hcommand ↦
        hruns ⟨halive, hcommand⟩
      rw [delivered_iff_of_unchanged hworld hcolumns]
      constructor
      · exact fun hnobody ↦ .inr (.inl hnobody)
      · rintro (hrefused | hnobody | ⟨halive, hcommand, -⟩)
        · cases hrefused
        · exact hnobody
        · exact absurd ⟨halive, hcommand⟩ hruns

/-- The nick `a` of an IRC operator has a memo with number 7. -/
def oneIrcop : BroadcastState where
  memos.world := { World.empty with
    db := { World.empty.db with
      nick := [⟨1, ['a'], NS_IDENTIFIED, 0, NI_IRCOP, 10⟩]
      memo := [⟨1, ['A'], "hi".toList⟩]
      memoinfo := [⟨1, ['a'], 20⟩] } }
  memos.columns := fun _ ↦ ⟨7, 0#32, 0, ['b'], false⟩
  privateTmpMemo := []

/-- The user of `a` sends a memo. -/
def sendAll (command : BroadcastCommand) : BroadcastCall where
  command := command
  mconf := ⟨0, true, false⟩
  sGlobalNoticer := "Global".toList
  env := trusting 5
  u := userOf "a" 1
  lastmemosend := 0
  text := some "hello".toList

theorem broadcastRight_globalsend : BroadcastRight (sendAll .GLOBALSEND) oneIrcop := by
  refine (broadcastRight_iff (sendAll .GLOBALSEND) oneIrcop (by decide)).mpr (.inr (.inr ?_))
  refine ⟨by decide +kernel, by decide, by decide, ?_⟩
  rintro n ⟨hn, -⟩
  obtain rfl := List.mem_singleton.mp hn
  decide +kernel

/-- The IRC operator gets no memo by OPERSEND. -/
theorem not_broadcastRight :
    ¬ ∀ (call : BroadcastCall) (st : BroadcastState), (∀ m ∈ st.memos.world.db.memoinfo, m.owner.length ≤ 32) →
      BroadcastRight call st := by
  intro h
  have hright : BroadcastRight (sendAll .OPERSEND) oneIrcop := h _ _ (by decide)
  have haccepted : (sendAll .OPERSEND).accepted oneIrcop.memos = some "hello".toList := by decide +kernel
  obtain ⟨hworld, hcolumns⟩ := run_unchanged haccepted fun _ ↦ rfl
  rw [BroadcastRight, haccepted] at hright
  refine (delivered_iff_of_unchanged hworld hcolumns).mp hright ⟨1, ['a'], NS_IDENTIFIED, 0, NI_IRCOP, 10⟩ ?_
  exact ⟨List.mem_singleton.mpr rfl, rfl, ⟨⟨1, ['a'], 20⟩, List.mem_singleton.mpr rfl, rfl⟩,
    show NI_IRCOP &&& NI_IRCOP ≠ 0#32 by decide⟩

end BlitzedServices.MemoServ
