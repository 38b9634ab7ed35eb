import BlitzedServices.ChanServ.AccessAgreement
import BlitzedServices.MemoServ.ListMemos
import BlitzedServices.Misc.IrcCase
import BlitzedServices.NickServ.CaseChange

/-!
# The memos of a link group

SEND stores a memo for a nick under the name of its master. LIST, READ and DEL take the memos of the nick that
the user is using, linked or not, so a memo that was sent to a linked nick is not among them.

`doSend_routed_iff` says so for every state of the tables: the memo is among those of a user of the nick exactly
if the nick is its own master. No memo of a nick of another group or of a channel is among them either way.
-/

set_option autoImplicit false
set_option relaxedAutoImplicit false

namespace BlitzedServices.MemoServ

open Lib Misc Mysql NickServ ChanServ

def NI_MEMO_RECEIVE : BitVec 32 := 0x20#32

/-! ### The table of memos -/

/-- The services and the other columns of table `memo`, by the id of a memo. -/
structure MemoState where
  world : World
  columns : ℕ → MemoColumns

/-- An owner as the column takes it. -/
def ownerColumn (owner : CString) : CString :=
  owner.take 64

/-- The memos of an owner in the order of their times. -/
def memosByTime (st : MemoState) (owner : CString) : List MemoRow :=
  (memosOf st.world.db owner).insertionSort fun r s ↦ (st.columns r.memoId).time ≤ (st.columns s.memoId).time

/-- `renumber_memos`: the memos of the owner are replaced, with numbers that count from 1. -/
def renumberMemos (owner : CString) (st : MemoState) : MemoState :=
  let memos := memosByTime st owner
  { world := st.world.act fun w ↦
      { w with
        db := { w.db with
          memo := (w.db.memo.filter fun r ↦ !sameName r.owner owner) ++
            memos.map fun r ↦ { r with owner := ownerColumn owner } } }
    columns := fun memoId ↦
      match memos.findIdx? fun r ↦ r.memoId = memoId with
      | some i => { st.columns memoId with idx := i + 1 }
      | none => st.columns memoId }

/-- The id of the next memo. -/
def nextMemoId (st : MemoState) : ℕ :=
  freshId (st.world.db.memo.map MemoRow.memoId)

/-- The INSERT of a memo. -/
def insertMemo (now : ℕ) (owner sender text : CString) (rot13 : Bool) (st : MemoState) : MemoState where
  world := st.world.act fun w ↦
    { w with db := { w.db with memo := w.db.memo ++ [⟨nextMemoId st, ownerColumn owner, text⟩] } }
  columns := Function.update st.columns (nextMemoId st) ⟨0, MF_UNREAD, now, sender, rot13⟩

/-- `get_memo_idx`. -/
def getMemoIdx (memoId : ℕ) (st : MemoState) : ℕ :=
  if st.world.db.memo.any (·.memoId = memoId) then (st.columns memoId).idx else 0

/-! ### SEND -/

/-- `rot13`. -/
def rot13 (str : CString) : CString :=
  str.map fun c ↦
    let base := if c.isUpper then 'A' else 'a'
    if c.isAlpha then Char.ofNat ((c.toNat - base.toNat + 13) % 26 + base.toNat) else c

/-- The settings. -/
structure MemoConfig where
  msSendDelay : ℕ
  msRot13 : Bool
  msNotifyAll : Bool

/-- A user with the channels that he has identified for. -/
structure Member where
  user : NickServ.User
  founderChans : List ℕ

/-- A channel that is in use. -/
structure UsedChannel where
  name : CString
  channelId : ℕ
  users : List Member

/-- What `do_send` replies. -/
inductive SendReply where
  | SYNTAX_ERROR
  | NICK_IDENTIFY_REQUIRED
  | CHAN_X_FORBIDDEN (name : CString)
  | NICK_X_FORBIDDEN (name : CString)
  | CHAN_X_NOT_REGISTERED (name : CString)
  | NICK_X_NOT_REGISTERED (name : CString)
  | MEMO_SEND_PLEASE_WAIT (delay : ℕ)
  | MEMO_X_GETS_NO_MEMOS (name : CString)
  | MEMO_X_HAS_TOO_MANY_MEMOS (name : CString)
  | ACCESS_DENIED
  | MEMO_SENT (name : CString)
  | crashed
  deriving DecidableEq

/-- What others are told. -/
inductive MemoNotice where
  | MEMO_NEW_MEMO_ARRIVED (source : CString) (number : ℕ)
  | MEMO_NEW_CHAN_MEMO_ARRIVED (source chan : CString) (number : ℕ)

/-- The reply of SEND, the state it leaves, `lastmemosend` and the notices by the ids of the users. -/
structure Sent where
  reply : SendReply
  state : MemoState
  lastmemosend : ℕ
  notices : List (ℕ × MemoNotice)

/-- The users who are told of a memo for a nick. -/
def notifiedUsers (mconf : MemoConfig) (name : CString) (w : World) : List NickServ.User :=
  let nickId := mysqlGetlink w.db (mysqlFindnick w.db name)
  if getNickFlags w nickId &&& NI_MEMO_RECEIVE = 0#32 then []
  else if mconf.msNotifyAll then w.users.filter (·.realId = nickId)
  else (finduser w name).toList

/-- A user on a channel that a memo was sent to is told when he may read it. -/
def notifyMember (now : ℕ) (u : NickServ.User) (channelId : ℕ) (notice : MemoNotice) (member : Member)
    (told : World × List (ℕ × MemoNotice)) : World × List (ℕ × MemoNotice) :=
  let w := told.1
  let recognized := NickServ.nickRecognized now member.user w
  let w := freshenIdentified now member.user w
  if ¬ recognized ∨ member.user.uid = u.uid then (w, told.2)
  else
    let asking := accessUser now member.user member.founderChans w
    let access := (checkAccess asking now w.db channelId CA_MEMO_READ).1
    let w := afterCheckAccess now member.user member.founderChans channelId CA_MEMO_READ w
    if ¬ access then (w, told.2)
    else (noticeLang now member.user w, told.2 ++ [(member.user.uid, notice)])

/-- `send_memo`. -/
def sendMemo (mconf : MemoConfig) (chanlist : List UsedChannel) (now : ℕ) (u : NickServ.User) (name text : CString)
    (st : MemoState) : MemoState × List (ℕ × MemoNotice) :=
  let memoId := nextMemoId st
  let text := if mconf.msRot13 then rot13 text else text
  let st := renumberMemos name (insertMemo now name u.nick text mconf.msRot13 st)
  let number := getMemoIdx memoId st
  let w := noticeLang now u st.world
  if ¬ name.contains '#' then
    let users := notifiedUsers mconf name w
    ({ st with world := users.foldl (fun w r ↦ noticeLang now r w) w },
      users.map fun r ↦ (r.uid, .MEMO_NEW_MEMO_ARRIVED u.nick number))
  else
    match chanlist.find? fun c ↦ ircStricmp c.name name = 0 with
    | none => ({ st with world := w }, [])
    | some c =>
      let notice := .MEMO_NEW_CHAN_MEMO_ARRIVED u.nick c.name number
      let told := c.users.foldl (fun told member ↦ notifyMember now u c.channelId notice member told) (w, [])
      ({ st with world := told.1 }, told.2)

/-- The name that SEND goes on with: that of the master, for a nick that is registered. A master without a row
gives a null pointer. -/
def sendName (db : Database) (name : CString) : Option CString :=
  if name.contains '#' then some name
  else
    let nickId := mysqlGetlink db (mysqlFindnick db name)
    if nickId = 0 then some name else getNickFromId db nickId

/-- The refusal of an owner without settings. -/
def refuseOwner (mi : MemoInfo) (name : CString) : SendReply :=
  if mi.isverboten then if mi.ischan then .CHAN_X_FORBIDDEN name else .NICK_X_FORBIDDEN name
  else if mi.ischan then .CHAN_X_NOT_REGISTERED name
  else .NICK_X_NOT_REGISTERED name

/-- `do_send`. -/
def doSend (mconf : MemoConfig) (chanlist : List UsedChannel) (conf : Config) (env : Env) (u : NickServ.User)
    (founderChans : List ℕ) (lastmemosend : ℕ) (name text : Option CString) (st : MemoState) : Sent :=
  let now := env.now
  let admin := isServicesAdmin conf env u st.world
  let w := freshenAdmin env u st.world
  match name, text with
  | some name, some text =>
    let recognized := NickServ.nickRecognized now u w
    let w := freshenIdentified now u w
    if ¬ recognized then ⟨.NICK_IDENTIFY_REQUIRED, { st with world := noticeLang now u w }, lastmemosend, []⟩
    else
      match sendName w.db name with
      | none => ⟨.crashed, { st with world := w.die }, lastmemosend, []⟩
      | some name =>
        let mi := getMemoinfoFromOwner now name w
        let w := freshenMemoinfo now name w
        if mi.memoinfoId = 0 then
          ⟨refuseOwner mi name, { st with world := noticeLang now u w }, lastmemosend, []⟩
        else if 0 < mconf.msSendDelay ∧ now < lastmemosend + mconf.msSendDelay ∧ ¬ admin then
          ⟨.MEMO_SEND_PLEASE_WAIT mconf.msSendDelay, { st with world := noticeLang now u w }, now, []⟩
        else if mi.max = 0 ∧ ¬ admin then
          ⟨.MEMO_X_GETS_NO_MEMOS name, { st with world := noticeLang now u w }, lastmemosend, []⟩
        else if 0 < mi.max ∧ mi.max ≤ countMemos w.db name ∧ ¬ admin then
          ⟨.MEMO_X_HAS_TOO_MANY_MEMOS name, { st with world := noticeLang now u w }, lastmemosend, []⟩
        else
          let channelId := mysqlFindchan w.db name
          let asks := mi.ischan ∧ channelId ≠ 0
          let access := (checkAccess (accessUser now u founderChans w) now w.db channelId CA_MEMO_SEND).1
          let w := if asks then afterCheckAccess now u founderChans channelId CA_MEMO_SEND w else w
          if asks ∧ ¬ access then ⟨.ACCESS_DENIED, { st with world := noticeLang now u w }, lastmemosend, []⟩
          else
            let sent := sendMemo mconf chanlist now u name text { st with world := w }
            ⟨.MEMO_SENT name, sent.1, now, sent.2⟩
  | _, _ => ⟨.SYNTAX_ERROR, { st with world := NickServ.syntaxError env u w }, lastmemosend, []⟩

/-- A SEND with a name and a text. -/
structure SendCall where
  mconf : MemoConfig
  chanlist : List UsedChannel
  conf : Config
  env : Env
  u : NickServ.User
  founderChans : List ℕ
  lastmemosend : ℕ
  name : CString
  text : CString

/-- What the SEND does. -/
def SendCall.run (call : SendCall) (st : MemoState) : Sent :=
  doSend call.mconf call.chanlist call.conf call.env call.u call.founderChans call.lastmemosend (some call.name)
    (some call.text) st

/-! ### LIST, READ and DEL -/

/-- Which memos of an owner a command is for. -/
inductive Choice where
  | all
  | new
  | last
  | numbers (numstr : CString)

/-- LIST, READ or DEL: the access it needs to a channel, its parameter, and its query for a list of numbers around
the owner. -/
structure MemoCommand where
  access : ℕ
  choice : Option CString → Option Choice
  select : CString
  order : CString

/-- The parameter is a word of the command. -/
def isWord (param : CString) (word : String) : Bool :=
  stricmp param word.toList == 0

/-- `do_list`. -/
def listCommand : MemoCommand where
  access := CA_MEMO_READ
  choice
    | none => some .all
    | some param =>
      if param.head?.any Char.isDigit then some (.numbers param)
      else if isWord param "NEW" then some .new
      else none
  select := "SELECT idx, flags, time, sender, text FROM memo WHERE owner='".toList
  order := ") ORDER BY idx ASC".toList

/-- `do_read`. -/
def readCommand : MemoCommand where
  access := CA_MEMO_READ
  choice
    | none => none
    | some numstr =>
      if isWord numstr "NEW" then some .new
      else if isWord numstr "ALL" then some .all
      else if isWord numstr "LAST" then some .last
      else if (atoi numstr).toInt ≤ 0 then none
      else some (.numbers numstr)
  select := "SELECT memo_id, idx, flags, time, sender, text, rot13 FROM memo WHERE owner='".toList
  order := ") ORDER BY idx ASC".toList

/-- `do_del`. A channel's memos are deleted by those who may send to it. -/
def delCommand : MemoCommand where
  access := CA_MEMO_SEND
  choice
    | none => none
    | some numstr =>
      if numstr.head?.any Char.isDigit then some (.numbers numstr)
      else if isWord numstr "ALL" then some .all
      else none
  select := "DELETE FROM memo WHERE owner='".toList
  order := ")".toList

/-- The three commands. -/
def memoCommands : List MemoCommand :=
  [listCommand, readCommand, delCommand]

/-- The query for a list of numbers. -/
def MemoCommand.query (cmd : MemoCommand) (numstr owner : CString) (max : ℕ) : CString :=
  let base := cmd.select ++ SqlText.escape owner ++ "' && (".toList
  mysqlBuildQuery numstr (base.take 1023) "idx".toList max ++ cmd.order

/-- The server does not accept the query for a list of numbers. -/
def MemoCommand.rejected (cmd : MemoCommand) (choice : Choice) (owner : CString) (max : ℕ) : Bool :=
  match choice with
  | .numbers numstr => (queryRanges numstr max).isEmpty ∨ 4095 < (cmd.query numstr owner max).length
  | _ => false

/-- The memos of an owner that are chosen. -/
def chosenMemos (columns : ℕ → MemoColumns) (max : ℕ) (memos : List MemoRow) : Choice → List MemoRow
  | .all => memos
  | .new => memos.filter fun r ↦ (columns r.memoId).flags &&& MF_UNREAD ≠ 0#32
  | .last => (memos.insertionSort fun r s ↦ (columns r.memoId).idx ≤ (columns s.memoId).idx).getLast?.toList
  | .numbers numstr => memos.filter fun r ↦ inRanges (queryRanges numstr max) (columns r.memoId).idx

/-- The owner whose memos a command takes, if it does not refuse: the channel that is named, else the nick of the
user. -/
def memoOwner (access now : ℕ) (u : NickServ.User) (founderChans : List ℕ) (chan : Option CString) (w : World) :
    Option CString × World :=
  match chan with
  | some chan =>
    match w.db.channel.find? fun c ↦ c.channelId = mysqlFindchan w.db chan with
    | none => (none, noticeLang now u w)
    | some ci =>
      if ci.flags &&& CI_VERBOTEN ≠ 0#32 then (none, noticeLang now u w)
      else
        let allowed := (checkAccess (accessUser now u founderChans w) now w.db ci.channelId access).1
        let w := afterCheckAccess now u founderChans ci.channelId access w
        if allowed then (some chan, w) else (none, noticeLang now u w)
  | none =>
    let identified := NickServ.nickIdentified now u w
    let w := freshenIdentified now u w
    if ¬ identified then (none, noticeLang now u w)
    else
      match getNickFromId w.db u.realId with
      | some owner => (some owner, w)
      | none => (none, w.act World.die)

/-- The memos that a command works on. A query that the server does not accept ends the services. -/
def MemoCommand.memos (cmd : MemoCommand) (now : ℕ) (u : NickServ.User) (founderChans : List ℕ)
    (chan param : Option CString) (st : MemoState) : List MemoRow :=
  match memoOwner cmd.access now u founderChans chan st.world with
  | (none, _) => []
  | (some owner, w) =>
    let mi := getMemoinfoFromOwner now owner w
    let w := freshenMemoinfo now owner w
    match cmd.choice param with
    | none => []
    | some choice =>
      let max := listMax mi (countMemos w.db owner)
      if ¬ w.alive ∨ cmd.rejected choice owner max then []
      else chosenMemos st.columns max (memosOf w.db owner) choice

/-! ### Where SEND stores a memo -/

/-- A memo is in the table, and it is the owner's. -/
structure StoredFor (owner : CString) (memoId : ℕ) (db : Database) : Prop where
  row : ∃ r ∈ db.memo, r.memoId = memoId
  owner : ∀ r ∈ db.memo, r.memoId = memoId → r.owner = owner

section Stored

variable {st : MemoState} {owner sender text : CString} {now : ℕ} {enciphered : Bool}

theorem le_foldl_max {n : ℕ} (ids : List ℕ) {m : ℕ} (h : n ∈ ids ∨ n ≤ m) : n ≤ ids.foldl max m := by
  induction ids generalizing m with
  | nil => exact h.resolve_left List.not_mem_nil
  | cons id ids ih =>
    refine ih ?_
    rcases h with h | h
    · rcases List.mem_cons.mp h with rfl | h
      · exact .inr (le_max_right m n)
      · exact .inl h
    · exact .inr (h.trans (le_max_left m id))

theorem lt_nextMemoId {r : MemoRow} (hr : r ∈ st.world.db.memo) : r.memoId < nextMemoId st :=
  Nat.lt_succ_of_le (le_foldl_max _ (.inl (List.mem_map_of_mem hr)))

theorem alive_insertMemo :
    (insertMemo now owner sender text enciphered st).world.alive = st.world.alive :=
  World.act_cases (p := fun w ↦ w.alive = st.world.alive) rfl fun _ ↦ rfl

theorem alive_renumberMemos : (renumberMemos owner st).world.alive = st.world.alive :=
  World.act_cases (p := fun w ↦ w.alive = st.world.alive) rfl fun _ ↦ rfl

theorem db_insertMemo :
    ∃ memo, (insertMemo now owner sender text enciphered st).world.db = { st.world.db with memo } :=
  World.act_cases (p := fun w ↦ ∃ memo, w.db = { st.world.db with memo }) ⟨_, rfl⟩ fun _ ↦ ⟨_, rfl⟩

theorem db_renumberMemos : ∃ memo, (renumberMemos owner st).world.db = { st.world.db with memo } :=
  World.act_cases (p := fun w ↦ ∃ memo, w.db = { st.world.db with memo }) ⟨_, rfl⟩ fun _ ↦ ⟨_, rfl⟩

/-- Renumbering only changes the numbers. -/
theorem flags_renumberMemos (memoId : ℕ) :
    ((renumberMemos owner st).columns memoId).flags = (st.columns memoId).flags := by
  rw [renumberMemos]
  dsimp only
  cases (memosByTime st owner).findIdx? fun r ↦ r.memoId = memoId <;> rfl

/-- Renumbering writes the owner's memos anew and leaves those of others. -/
theorem mem_renumberMemos (halive : st.world.alive = true) {r : MemoRow} :
    r ∈ (renumberMemos owner st).world.db.memo ↔
      (r ∈ st.world.db.memo ∧ sameName r.owner owner = false) ∨
        ∃ s ∈ memosOf st.world.db owner, { s with owner := ownerColumn owner } = r := by
  rw [renumberMemos, World.act, if_pos halive]
  simp only [List.mem_append, List.mem_filter, List.mem_map, memosByTime, List.mem_insertionSort,
    Bool.not_eq_true']

/-- A new memo is the owner's after the renumbering, which finds it under the name that was stored. -/
theorem storedFor_renumberMemos (halive : st.world.alive = true) (hshort : ownerColumn owner = owner) :
    StoredFor owner (nextMemoId st)
      (renumberMemos owner (insertMemo now owner sender text enciphered st)).world.db := by
  have hmemo : (insertMemo now owner sender text enciphered st).world.db.memo =
      st.world.db.memo ++ [⟨nextMemoId st, ownerColumn owner, text⟩] := by
    rw [insertMemo, World.act, if_pos halive]
  have halive' : (insertMemo now owner sender text enciphered st).world.alive = true :=
    alive_insertMemo.trans halive
  constructor
  · refine ⟨⟨nextMemoId st, ownerColumn owner, text⟩, (mem_renumberMemos halive').mpr (.inr ?_), rfl⟩
    refine ⟨⟨nextMemoId st, ownerColumn owner, text⟩, List.mem_filter.mpr ⟨?_, ?_⟩, rfl⟩
    · rw [hmemo]
      exact List.mem_append_right _ (List.mem_singleton.mpr rfl)
    · rw [hshort]
      exact sameName_self owner
  · intro r hr hid
    rcases (mem_renumberMemos halive').mp hr with ⟨hr, hother⟩ | ⟨s, -, rfl⟩
    · rw [hmemo, List.mem_append, List.mem_singleton] at hr
      rcases hr with hr | rfl
      · exact absurd hid (lt_nextMemoId hr).ne
      · rw [hshort, sameName_self] at hother
        cases hother
    · exact hshort

end Stored

section Send

variable {mconf : MemoConfig} {chanlist : List UsedChannel} {conf : Config} {env : Env} {u : NickServ.User}
  {founderChans : List ℕ} {lastmemosend now : ℕ} {name text target : CString} {st : MemoState}

theorem cacheOnly_foldl_noticeLang (now : ℕ) (users : List NickServ.User) (w : World) :
    CacheOnly w (users.foldl (fun w r ↦ noticeLang now r w) w) := by
  induction users generalizing w with
  | nil => exact .refl w
  | cons r users ih => exact ((CacheOnly.refl w).noticeLang now r).trans (ih _)

/-- The notices about a memo for a nick only use the cache. -/
theorem cacheOnly_sendMemo (hplain : name.contains '#' = false) (u : NickServ.User) (text : CString) :
    CacheOnly (renumberMemos name (insertMemo now name u.nick (if mconf.msRot13 then rot13 text else text)
      mconf.msRot13 st)).world (sendMemo mconf chanlist now u name text st).1.world := by
  rw [sendMemo]
  simp only [hplain, Bool.false_eq_true, not_false_eq_true, if_true]
  exact ((CacheOnly.refl _).noticeLang now u).trans (cacheOnly_foldl_noticeLang now _ _)

/-- A memo for a nick is stored under the name that `send_memo` is given. -/
theorem storedFor_sendMemo (hplain : name.contains '#' = false) (hshort : ownerColumn name = name)
    (halive : (sendMemo mconf chanlist now u name text st).1.world.alive = true) :
    StoredFor name (nextMemoId st) (sendMemo mconf chanlist now u name text st).1.world.db ∧
      ∃ memo, (sendMemo mconf chanlist now u name text st).1.world.db = { st.world.db with memo } := by
  have hcache : CacheOnly (renumberMemos name (insertMemo now name u.nick (if mconf.msRot13 then rot13 text
      else text) mconf.msRot13 st)).world (sendMemo mconf chanlist now u name text st).1.world :=
    cacheOnly_sendMemo hplain u text
  have hbefore : st.world.alive = true := by
    rw [← alive_insertMemo, ← alive_renumberMemos]
    exact hcache.alive halive
  obtain ⟨inserted, hinserted⟩ : ∃ memo, (insertMemo now name u.nick (if mconf.msRot13 then rot13 text else text)
      mconf.msRot13 st).world.db = { st.world.db with memo } := db_insertMemo
  obtain ⟨memo, hmemo⟩ : ∃ memo, (renumberMemos name (insertMemo now name u.nick (if mconf.msRot13 then rot13 text
      else text) mconf.msRot13 st)).world.db = { (insertMemo now name u.nick (if mconf.msRot13 then rot13 text
      else text) mconf.msRot13 st).world.db with memo } := db_renumberMemos
  rw [hcache.db]
  refine ⟨storedFor_renumberMemos hbefore hshort, memo, ?_⟩
  rw [hmemo, hinserted]

/-- A new memo is unread. -/
theorem flags_sendMemo (hplain : name.contains '#' = false) :
    ((sendMemo mconf chanlist now u name text st).1.columns (nextMemoId st)).flags = MF_UNREAD := by
  rw [sendMemo]
  simp only [hplain, Bool.false_eq_true, not_false_eq_true, if_true]
  rw [flags_renumberMemos, insertMemo]
  dsimp only
  rw [Function.update_self]

theorem refuseOwner_ne (mi : MemoInfo) (name target : CString) : refuseOwner mi name ≠ .MEMO_SENT target := by
  rw [refuseOwner]
  split_ifs <;> exact SendReply.noConfusion

theorem ischan_getMemoinfoFromOwner (now : ℕ) (w : World) (hplain : target.contains '#' = false) :
    (getMemoinfoFromOwner now target w).ischan = false := by
  have hhead : target.head? ≠ some '#' := by
    intro hhead
    rw [List.head?_eq_some_iff] at hhead
    obtain ⟨rest, rfl⟩ := hhead
    rw [List.contains_cons, beq_self_eq_true, Bool.true_or] at hplain
    cases hplain
  have hselect : (selectMemoinfo w.db target false).ischan = false := by
    rw [selectMemoinfo]
    cases w.db.memoinfo.find? fun r ↦ sameName r.owner target <;> rfl
  rw [getMemoinfoFromOwner, if_neg hhead]
  dsimp only
  split_ifs
  · rfl
  · rfl
  · exact hselect

/-- A memo that is accepted goes to the name that SEND makes of the one it is given. -/
theorem doSend_sent
    (hsent : (doSend mconf chanlist conf env u founderChans lastmemosend (some name) (some text) st).reply =
      .MEMO_SENT target) :
    sendName st.world.db name = some target ∧ (target.contains '#' = false → ∃ w, CacheOnly st.world w ∧
      (doSend mconf chanlist conf env u founderChans lastmemosend (some name) (some text) st).state =
        (sendMemo mconf chanlist env.now u target text { st with world := w }).1) := by
  have hcache : CacheOnly st.world (freshenIdentified env.now u (freshenAdmin env u st.world)) :=
    ((CacheOnly.refl st.world).freshenAdmin env u).freshenIdentified env.now u
  rw [doSend] at hsent ⊢
  dsimp only at hsent ⊢
  generalize freshenIdentified env.now u (freshenAdmin env u st.world) = w at hcache hsent ⊢
  rw [hcache.db] at hsent ⊢
  by_cases hrecognized : ¬ NickServ.nickRecognized env.now u (freshenAdmin env u st.world) = true
  · rw [if_pos hrecognized] at hsent
    cases hsent
  rw [if_neg hrecognized] at hsent ⊢
  cases hname : sendName st.world.db name with
  | none =>
    rw [hname] at hsent
    cases hsent
  | some owner =>
    rw [hname] at hsent
    dsimp only at hsent ⊢
    have hinfo : CacheOnly st.world (freshenMemoinfo env.now owner w) := by
      rw [freshenMemoinfo]
      exact .ite hcache (hcache.freshenStatus env.now _)
    split_ifs at hsent with hnone hwait hmax hfull hdenied hasks
    · exact absurd hsent (refuseOwner_ne _ _ _)
    · rw [SendReply.MEMO_SENT.injEq] at hsent
      subst hsent
      refine ⟨rfl, fun hplain ↦ ?_⟩
      rw [ischan_getMemoinfoFromOwner env.now w hplain] at hasks
      exact absurd hasks.1 Bool.false_ne_true
    · rw [SendReply.MEMO_SENT.injEq] at hsent
      subst hsent
      rw [if_neg hnone, if_neg hwait, if_neg hmax, if_neg hfull, if_neg hdenied, if_neg hasks]
      exact ⟨rfl, fun _ ↦ ⟨freshenMemoinfo env.now owner w, hinfo, rfl⟩⟩

end Send

/-! ### What LIST, READ and DEL find -/

section Commands

variable {cmd : MemoCommand} {v : NickServ.User} {founderChans : List ℕ} {now : ℕ} {owner : CString}
  {param : Option CString} {w : World} {st : MemoState}

theorem memoOwner_nick (access : ℕ) (hrow : getNickFromId w.db v.realId = some owner)
    (hid : NickServ.nickIdentified now v w = true) :
    memoOwner access now v founderChans none w = (some owner, freshenIdentified now v w) := by
  have hdb : (freshenIdentified now v w).db = w.db := ((CacheOnly.refl w).freshenIdentified now v).db
  rw [memoOwner, if_neg (not_not.mpr hid), hdb, hrow]

theorem world_ask {s : Session Message} (h : Closed s) (f : World → World) :
    (s.ask .store f).world = s.world.act f := by
  rw [Session.ask, World.act]
  split_ifs with halive hopen
  · rw [h.isOpen] at hopen
    cases hopen.2
  · rfl
  · rfl

/-- LIST as it is modelled with its calls to the server finds the same owner. -/
theorem ownerOfList_eq {s : Session Message} (h : Closed s) (clock : ℕ → ℕ) (chan : Option CString) :
    (ownerOfList clock v founderChans chan s).1 =
      (memoOwner CA_MEMO_READ (clock s.lookedUp) v founderChans chan s.world).1 := by
  have hid : (s.ask .store id).world = s.world := (world_ask h id).trans (ite_self s.world)
  cases chan with
  | some chan =>
    rw [ownerOfList, memoOwner]
    dsimp only
    rw [hid]
    cases s.world.db.channel.find? fun c ↦ c.channelId = mysqlFindchan s.world.db chan with
    | none => rfl
    | some ci =>
      dsimp only
      split_ifs <;> rfl
  | none =>
    have hdb : (s.ask .store (freshenIdentified (clock s.lookedUp) v)).world.db =
        (freshenIdentified (clock s.lookedUp) v s.world).db := by
      rw [world_ask h, ((CacheOnly.refl _).freshenIdentified _ _).db]
      exact ((CacheOnly.refl s.world).act fun _ ↦ (CacheOnly.refl s.world).freshenIdentified _ _).db
    rw [ownerOfList, memoOwner]
    by_cases hidentified : NickServ.nickIdentified (clock s.lookedUp) v s.world = true
    · rw [if_pos hidentified, if_neg (not_not.mpr hidentified), hdb]
      cases getNickFromId (freshenIdentified (clock s.lookedUp) v s.world).db v.realId <;> rfl
    · rw [if_neg hidentified, if_pos hidentified]

theorem mem_of_mem_chosenMemos {columns : ℕ → MemoColumns} {max : ℕ} {memos : List MemoRow} {choice : Choice}
    {r : MemoRow} (hr : r ∈ chosenMemos columns max memos choice) : r ∈ memos := by
  cases choice with
  | all => exact hr
  | new => exact List.mem_of_mem_filter hr
  | last => exact (List.mem_insertionSort _).mp (List.mem_of_getLast? (Option.mem_toList.mp hr))
  | numbers numstr => exact List.mem_of_mem_filter hr

theorem cacheOnly_freshenMemoinfo (now : ℕ) (owner : CString) (w : World) :
    CacheOnly w (freshenMemoinfo now owner w) := by
  rw [freshenMemoinfo]
  exact .ite (.refl w) ((CacheOnly.refl w).freshenStatus now _)

/-- Without a channel, the commands only work on memos of the nick that the user is using. -/
theorem owner_of_mem_memos {r : MemoRow} (hr : r ∈ cmd.memos now v founderChans none param st) :
    ∃ owner, getNickFromId st.world.db v.realId = some owner ∧ r ∈ memosOf st.world.db owner := by
  have hdb : (freshenIdentified now v st.world).db = st.world.db :=
    ((CacheOnly.refl _).freshenIdentified now v).db
  by_cases hid : NickServ.nickIdentified now v st.world = true
  · cases hrow : getNickFromId st.world.db v.realId with
    | none =>
      rw [MemoCommand.memos, memoOwner] at hr
      dsimp only at hr
      rw [if_neg (not_not.mpr hid), hdb, hrow] at hr
      cases hr
    | some owner =>
      refine ⟨owner, rfl, ?_⟩
      rw [MemoCommand.memos, memoOwner_nick cmd.access hrow hid] at hr
      dsimp only at hr
      cases hchoice : cmd.choice param with
      | none =>
        rw [hchoice] at hr
        cases hr
      | some choice =>
        rw [hchoice] at hr
        dsimp only at hr
        split_ifs at hr
        · cases hr
        · rw [(cacheOnly_freshenMemoinfo now owner _).db, hdb] at hr
          exact mem_of_mem_chosenMemos hr
  · rw [MemoCommand.memos, memoOwner] at hr
    dsimp only at hr
    rw [if_pos hid] at hr
    cases hr

/-- The lookup of a name finds the row that has it. -/
theorem mysqlFindnick_eq_of_mem {db : Database} (h : NickKeys db) {n : NickRow} (hn : n ∈ db.nick) {name : CString}
    (hname : sameName name n.nick = true) : mysqlFindnick db name = n.nickId := by
  have hsame : sameName n.nick name = true := by rwa [sameName_comm]
  refine (mysqlFindnick_of_findnickinfo h (find?_eq_some_of_unique hn hsame fun r hr hrname ↦ ?_)).1
  exact h.names r hr n hn (sameName_of_same hrname hsame)

/-- The lookup of the status of a nick that has a row goes well. -/
theorem alive_freshenStatus_of_row {id : ℕ} (halive : w.alive = true) (hid : id ≠ 0)
    (hrow : (rowStatus w id).isSome = true) : (freshenStatus now id w).alive = true :=
  (alive_freshenStatus_iff halive hid).mpr fun _ _ _ ↦ hrow

/-- An identified user of a nick finds its memos: all of them, or those that are not read. -/
theorem memos_eq_of_nick {n : NickRow} (h : NickKeys st.world.db) (hn : n ∈ st.world.db.nick)
    (hv : v.realId = n.nickId) (hid : NickServ.nickIdentified now v st.world = true)
    (halive : st.world.alive = true) {choice : Choice} (hchoice : cmd.choice param = some choice)
    (hlist : ∀ numstr, choice ≠ .numbers numstr) :
    cmd.memos now v founderChans none param st =
      chosenMemos st.columns
        (listMax (getMemoinfoFromOwner now n.nick (freshenIdentified now v st.world))
          (countMemos st.world.db n.nick)) (memosOf st.world.db n.nick) choice := by
  have hcache : CacheOnly st.world (freshenIdentified now v st.world) :=
    (CacheOnly.refl _).freshenIdentified now v
  have hinfo := cacheOnly_freshenMemoinfo now n.nick (freshenIdentified now v st.world)
  have hrow (w : World) (hw : w.db = st.world.db) : (rowStatus w n.nickId).isSome = true := by
    rw [isSome_rowStatus, hw]
    exact List.mem_map_of_mem hn
  have hnick : mysqlFindnick st.world.db n.nick = n.nickId := (mysqlFindnick_eq_of_mem h hn (sameName_self _))
  have hzero : n.nickId ≠ 0 := h.ids.nick_ne_zero n hn
  have halive' : (freshenIdentified now v st.world).alive = true := by
    rw [freshenIdentified, hv, if_pos hzero]
    exact alive_freshenStatus_of_row halive hzero (hrow _ rfl)
  have hlast : (freshenMemoinfo now n.nick (freshenIdentified now v st.world)).alive = true := by
    rw [freshenMemoinfo, hcache.db, hnick]
    split_ifs
    · exact halive'
    · exact alive_freshenStatus_of_row halive' hzero (hrow _ hcache.db)
  have hname : getNickFromId st.world.db v.realId = some n.nick := by
    rw [hv]
    exact getNickFromId_eq h.ids hn
  have haccepted (max : ℕ) : cmd.rejected choice n.nick max = false := by
    cases choice with
    | numbers numstr => exact absurd rfl (hlist numstr)
    | _ => rfl
  rw [MemoCommand.memos, memoOwner_nick cmd.access hname hid]
  dsimp only
  rw [hchoice, hinfo.db, hcache.db, hlast]
  simp only [haccepted, not_true_eq_false, Bool.false_eq_true, or_self, if_false]

end Commands

/-! ### From SEND to LIST, READ and DEL -/

/-- The names of nicks are a key, and none could be that of a channel. -/
structure NickTable (db : Database) : Prop where
  keys : NickKeys db
  plain : ∀ r ∈ db.nick, r.nick.contains '#' = false
  short : ∀ r ∈ db.nick, r.nick.length ≤ 32

/-- What holds of a user of a nick after a memo was sent to the nick: LIST, READ and DEL work on that memo, and on
no memo of a channel or of a nick of another group. -/
structure Routed (now : ℕ) (v : NickServ.User) (founderChans : List ℕ) (n : NickRow) (memoId : ℕ)
    (st : MemoState) : Prop where
  sent : ∀ cmd ∈ memoCommands, ∀ param, cmd.choice param = some .all ∨ cmd.choice param = some .new →
    ∃ r ∈ cmd.memos now v founderChans none param st, r.memoId = memoId
  others : ∀ cmd ∈ memoCommands, ∀ param, ∀ r ∈ cmd.memos now v founderChans none param st,
    r.owner.head? ≠ some '#' ∧ ∀ m ∈ st.world.db.nick,
      mysqlGetlink st.world.db m.nickId ≠ mysqlGetlink st.world.db n.nickId → sameName r.owner m.nick = false

section Routing

variable {call : SendCall} {v : NickServ.User} {founderChans : List ℕ} {later : ℕ} {name target : CString}
  {n : NickRow} {st : MemoState}

theorem toLower_eq_hash {c : Char} (h : c.toLower = '#') : c = '#' := by
  have hnat : c.toLower.toNat = 35 := congrArg Char.toNat h
  rw [toNat_toLower] at hnat
  split_ifs at hnat
  · omega
  · exact Char.toNat_inj.mp hnat

/-- Names with letters of another case have as few `#`. -/
theorem plain_of_sameName {a b : CString} (h : sameName a b = true) (hb : b.contains '#' = false) :
    a.contains '#' = false := by
  rw [List.contains_eq_mem, decide_eq_false_iff_not] at hb ⊢
  intro ha
  have hlower : '#' ∈ foldName b := by
    rw [← sameName_iff.mp h]
    exact List.mem_map.mpr ⟨'#', ha, rfl⟩
  obtain ⟨c, hc, hhash⟩ := List.mem_map.mp hlower
  exact hb (toLower_eq_hash hhash ▸ hc)

/-- No memo of another group or of a channel, in any state. -/
theorem others_of_table (h : NickTable st.world.db) (hn : n ∈ st.world.db.nick) (hv : v.realId = n.nickId)
    {cmd : MemoCommand} {param : Option CString} {r : MemoRow}
    (hr : r ∈ cmd.memos later v founderChans none param st) :
    r.owner.head? ≠ some '#' ∧ ∀ m ∈ st.world.db.nick,
      mysqlGetlink st.world.db m.nickId ≠ mysqlGetlink st.world.db n.nickId → sameName r.owner m.nick = false := by
  obtain ⟨owner, howner, hmem⟩ := owner_of_mem_memos hr
  rw [hv, getNickFromId_eq h.keys.ids hn, Option.some.injEq] at howner
  subst howner
  have hsame : sameName r.owner n.nick = true := (List.mem_filter.mp hmem).2
  constructor
  · intro hhead
    have hplain := plain_of_sameName hsame (h.plain n hn)
    rw [List.head?_eq_some_iff] at hhead
    obtain ⟨rest, hrest⟩ := hhead
    rw [hrest, List.contains_cons, beq_self_eq_true, Bool.true_or] at hplain
    cases hplain
  · intro m hm hgroup
    rw [← Bool.not_eq_true]
    intro hother
    rw [sameName_comm] at hsame hother
    rw [h.keys.names m hm n hn (sameName_of_same hother hsame)] at hgroup
    exact hgroup rfl

/-- A memo for a nick goes to the row of its master. -/
theorem target_eq (h : NickTable st.world.db) (hn : n ∈ st.world.db.nick) (hname : sameName name n.nick = true)
    (htarget : sendName st.world.db name = some target) :
    ∃ m ∈ st.world.db.nick, m.nickId = mysqlGetlink st.world.db n.nickId ∧ m.nick = target := by
  have hzero : mysqlGetlink st.world.db n.nickId ≠ 0 := by
    rw [mysqlGetlink]
    cases st.world.db.nick.find? fun r ↦ r.nickId = n.nickId with
    | none => exact h.keys.ids.nick_ne_zero n hn
    | some r =>
      dsimp only
      split_ifs with hlink
      · exact hlink
      · exact h.keys.ids.nick_ne_zero n hn
  rw [sendName, plain_of_sameName hname (h.plain n hn), mysqlFindnick_eq_of_mem h.keys hn hname] at htarget
  dsimp only at htarget
  rw [if_neg Bool.false_ne_true, if_neg hzero, getNickFromId, Option.map_eq_some_iff] at htarget
  obtain ⟨m, hm, hnick⟩ := htarget
  have hid := List.find?_some hm
  exact ⟨m, List.mem_of_find?_eq_some hm, of_decide_eq_true hid, hnick⟩

/-- The memo that is sent is among those of the nick exactly when it is its own master. -/
theorem routed_iff (h : NickTable st.world.db) (hn : n ∈ st.world.db.nick)
    (hname : sameName call.name n.nick = true) (hsent : (call.run st).reply = .MEMO_SENT target)
    (halive : (call.run st).state.world.alive = true) (hv : v.realId = n.nickId)
    (hid : NickServ.nickIdentified later v (call.run st).state.world = true) :
    Routed later v founderChans n (nextMemoId st) (call.run st).state ↔
      mysqlGetlink st.world.db n.nickId = n.nickId := by
  rw [SendCall.run] at hsent halive hid ⊢
  obtain ⟨htarget, hstates⟩ := doSend_sent hsent
  obtain ⟨m, hm, hmaster, rfl⟩ := target_eq h hn hname htarget
  have hplain : m.nick.contains '#' = false := h.plain m hm
  have hshort : ownerColumn m.nick = m.nick := List.take_of_length_le ((h.short m hm).trans (by omega))
  obtain ⟨w, hcache, hstate⟩ := hstates hplain
  rw [hstate] at halive hid ⊢
  have hnext : nextMemoId { st with world := w } = nextMemoId st := by
    rw [nextMemoId, nextMemoId, hcache.db]
  have hunread : ((sendMemo call.mconf call.chanlist call.env.now call.u m.nick call.text
      { st with world := w }).1.columns
      (nextMemoId { st with world := w })).flags = MF_UNREAD := flags_sendMemo hplain
  obtain ⟨hstored, memo, hdb⟩ := storedFor_sendMemo hplain hshort halive
  rw [hnext] at hstored hunread
  rw [hcache.db] at hdb
  generalize (sendMemo call.mconf call.chanlist call.env.now call.u m.nick call.text
    { st with world := w }).1 = st' at *
  have htable : NickTable st'.world.db := by
    rw [hdb]
    exact ⟨⟨⟨h.keys.ids.nick, h.keys.ids.nick_ne_zero, h.keys.ids.channel⟩, h.keys.names⟩, h.plain, h.short⟩
  have hn' : n ∈ st'.world.db.nick := by
    rw [hdb]
    exact hn
  constructor
  · intro hrouted
    obtain ⟨r, hr, hrid⟩ := hrouted.sent listCommand (List.mem_cons_self ..) none (.inl rfl)
    obtain ⟨owner, howner, hmem⟩ := owner_of_mem_memos hr
    rw [hv, getNickFromId_eq htable.keys.ids hn', Option.some.injEq] at howner
    subst howner
    obtain ⟨hmemo, hsame⟩ := List.mem_filter.mp hmem
    rw [hstored.owner r hmemo hrid] at hsame
    rw [← hmaster, h.keys.names m hm n hn hsame]
  · intro hown
    have hself : m = n := List.inj_on_of_nodup_map h.keys.ids.nick hm hn (hmaster.trans hown)
    subst hself
    refine ⟨fun cmd _ param hchoice ↦ ?_, fun cmd _ param r hr ↦ others_of_table htable hn' hv hr⟩
    obtain ⟨r, hr, hrid⟩ := hstored.row
    have hmem : r ∈ memosOf st'.world.db m.nick := by
      refine List.mem_filter.mpr ⟨hr, ?_⟩
      rw [hstored.owner r hr hrid]
      exact sameName_self m.nick
    refine ⟨r, ?_, hrid⟩
    rcases hchoice with hchoice | hchoice
    · rw [memos_eq_of_nick htable.keys hn' hv hid halive hchoice fun _ ↦ Choice.noConfusion]
      exact hmem
    · rw [memos_eq_of_nick htable.keys hn' hv hid halive hchoice fun _ ↦ Choice.noConfusion]
      refine List.mem_filter.mpr ⟨hmem, decide_eq_true ?_⟩
      rw [hrid, hunread]
      decide

/-- For every state of the tables and every memo that SEND accepts for a nick: the memo is among those that LIST,
READ and DEL work on for an identified user of the nick, and they work on none of other groups and of channels,
exactly when the nick is its own master. -/
theorem doSend_routed_iff (call : SendCall) (st : MemoState) (h : NickTable st.world.db) (n : NickRow)
    (hn : n ∈ st.world.db.nick) (hname : sameName call.name n.nick = true) (target : CString)
    (hsent : (call.run st).reply = .MEMO_SENT target) (halive : (call.run st).state.world.alive = true)
    (v : NickServ.User) (founderChans : List ℕ) (hv : v.realId = n.nickId) (later : ℕ)
    (hid : NickServ.nickIdentified later v (call.run st).state.world = true) :
    Routed later v founderChans n (nextMemoId st) (call.run st).state ↔
      mysqlGetlink st.world.db n.nickId = n.nickId :=
  routed_iff h hn hname hsent halive hv hid

end Routing

/-- `a` is linked to `b`. -/
def linkedPair : MemoState where
  world := run openConfig World.empty (newNick 1 "a" ++ newNick 2 "b" ++
    [(trusting 3, .command "a".toList (.link (some "b".toList) (some "pass".toList)))])
  columns := fun _ ↦ ⟨0, 0#32, 0, [], false⟩

/-- The user of `a`, and that of `b`. -/
def userOf (nick : String) (id : ℕ) : NickServ.User :=
  ⟨id - 1, nick.toList, "user".toList, "host".toList, id, id, id, 0, false, id⟩

/-- The user of `b` sends a memo. -/
def sendTo (name : String) : SendCall where
  mconf := ⟨0, false, false⟩
  chanlist := []
  conf := openConfig
  env := trusting 4
  u := userOf "b" 2
  founderChans := []
  lastmemosend := 0
  name := name.toList
  text := "hello".toList

theorem nickTable_linkedPair : NickTable linkedPair.world.db :=
  ⟨⟨⟨by decide +kernel, by decide +kernel, by decide +kernel⟩, by decide +kernel⟩, by decide +kernel,
    by decide +kernel⟩

/-- The master reads what is sent to him. -/
theorem doSend_routed_iff_master :
    Routed 5 (userOf "b" 2) [] ⟨2, "b".toList, 49152#32, 0, 0#32, 10⟩ (nextMemoId linkedPair)
      ((sendTo "b").run linkedPair).state :=
  (doSend_routed_iff (sendTo "b") linkedPair nickTable_linkedPair _ (by decide +kernel) (by decide +kernel)
    "b".toList (by decide +kernel) (by decide +kernel) (userOf "b" 2) [] rfl 5 (by decide +kernel)).mpr
    (by decide +kernel)

/-- What is sent to the nick that is linked is not seen there. -/
theorem sentToLinked_not_routed :
    ¬ ∀ (call : SendCall) (st : MemoState) (n : NickRow) (target : CString) (v : NickServ.User) (later : ℕ),
      NickTable st.world.db → n ∈ st.world.db.nick → n.status &&& NS_VERBOTEN = 0#32 →
      sameName call.name n.nick = true → (call.run st).reply = .MEMO_SENT target →
      (call.run st).state.world.alive = true → v.realId = n.nickId →
      NickServ.nickIdentified later v (call.run st).state.world = true →
      Routed later v [] n (nextMemoId st) (call.run st).state := by
  intro h
  have hn : (⟨1, "a".toList, 49152#32, 2, 0#32, 10⟩ : NickRow) ∈ linkedPair.world.db.nick := by decide +kernel
  have hname : sameName (sendTo "a").name "a".toList = true := rfl
  have hsent : ((sendTo "a").run linkedPair).reply = .MEMO_SENT "b".toList := by decide +kernel
  have halive : ((sendTo "a").run linkedPair).state.world.alive = true := by decide +kernel
  have hid : NickServ.nickIdentified 5 (userOf "a" 1) ((sendTo "a").run linkedPair).state.world = true := by
    decide +kernel
  have hrouted := h (sendTo "a") linkedPair _ "b".toList (userOf "a" 1) 5 nickTable_linkedPair hn (by decide) hname
    hsent halive rfl hid
  have hmaster := (routed_iff nickTable_linkedPair hn hname hsent halive rfl hid).mp hrouted
  revert hmaster
  decide +kernel

end BlitzedServices.MemoServ
