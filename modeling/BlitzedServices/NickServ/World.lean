import BlitzedServices.NickServ.DelNick

/-!
# Nicks, users and the cache of nick statuses

The state that NickServ and the handlers of user messages share: the tables, the cache of status and
language in front of table `nick`, the users who are online, the pending timeouts and the codes that
were mailed.

The process can die, in an assertion, a failed query or a null pointer. What it stored stays, and
nothing changes any more: every change goes through `World.act`.
-/

set_option autoImplicit false
set_option relaxedAutoImplicit false

namespace BlitzedServices.NickServ

open Lib Mysql

/-! ### The state -/

def NICKMAX : ℕ := 32

def NS_NO_EXPIRE : BitVec 32 := 0x4#32
def NS_GUESTED : BitVec 32 := 0x100#32
def NS_KILL_HELD : BitVec 32 := 0x1000#32
def NS_ON_ACCESS : BitVec 32 := 0x2000#32
def NS_TEMPORARY : BitVec 32 := 0xFF00#32

def NI_ENFORCE : BitVec 32 := 0x1#32
def NI_SECURE : BitVec 32 := 0x2#32
def NI_ENFORCEQUICK : BitVec 32 := 0x400#32
def NI_IRCOP : BitVec 32 := 0x1000#32
def NI_MARKED : BitVec 32 := 0x2000#32
def NI_NOSENDPASS : BitVec 32 := 0x4000#32
def NI_SUSPENDED : BitVec 32 := 0x10000000#32

/-- The columns of table `nick` that only the handlers below use. -/
structure NickColumns where
  email : CString
  language : ℕ
  idStamp : ℕ
  lastUsermask : CString
  lastSendpassTime : ℕ
  deriving DecidableEq

/-- An entry of the nick cache. -/
structure Nickcache where
  nickId : ℕ
  status : BitVec 32
  statusTimestamp : ℕ
  language : ℕ
  languageTimestamp : ℕ
  deriving DecidableEq

/-- A user who is online. `uid` is the address of the record. -/
structure User where
  uid : ℕ
  nick : CString
  username : CString
  host : CString
  realId : ℕ
  nickId : ℕ
  mySignon : ℕ
  servicesStamp : ℕ
  oper : Bool
  lastnickreg : ℕ
  deriving DecidableEq

/-- The two kinds of timeouts. -/
inductive TimeoutType where
  | collide
  | release
  deriving DecidableEq

/-- A pending timeout. It is `listed` as long as the private list of NickServ has it. -/
structure NsTimeout where
  nickId : ℕ
  type : TimeoutType
  settime : ℕ
  timeout : ℕ
  listed : Bool
  deriving DecidableEq

/-- The commands that are confirmed with a mailed code. -/
inductive AuthCommand where
  | NICK_REG
  | NICK_DROP
  | NICK_SENDPASS
  deriving DecidableEq

/-- Table `auth`. -/
structure AuthRow where
  authId : ℕ
  code : CString
  name : CString
  command : AuthCommand
  params : CString
  createTime : ℕ
  deriving DecidableEq

/-- The state of the services. `nextNickId` and `nextAuthId` are the AUTO_INCREMENT values of the two
tables. -/
structure World where
  alive : Bool
  db : Database
  columns : ℕ → NickColumns
  nextNickId : ℕ
  auth : List AuthRow
  nextAuthId : ℕ
  nickcache : List Nickcache
  users : List User
  nextUid : ℕ
  timeouts : List NsTimeout

/-- A change that a dead process does not make. -/
def World.act (w : World) (f : World → World) : World :=
  if w.alive then f w else w

/-- The process dies. -/
def World.die (w : World) : World :=
  { w with alive := false }

theorem World.act_cases {p : World → Prop} {w : World} {f : World → World} (h : p w)
    (hf : w.alive = true → p (f w)) : p (w.act f) := by
  rw [World.act]
  split_ifs with halive
  · exact hf halive
  · exact h

/-! ### The nick cache -/

/-- `nickcache_find`. -/
def nickcacheFind (w : World) (nickId : ℕ) : Option Nickcache :=
  w.nickcache.find? fun nc ↦ nc.nickId = nickId

/-- What the SELECT of status and language makes of a nick. -/
def selectCached (now : ℕ) (nickId : ℕ) (w : World) : Option Nickcache :=
  (getNickinfoFromId w.db nickId).map fun r ↦
    ⟨nickId, r.status, now, (w.columns nickId).language, now⟩

/-- `nickcache_insert`: nothing for a nick that does not exist. -/
def nickcacheInsert (now nickId : ℕ) (w : World) : World :=
  match selectCached now nickId w with
  | some nc => { w with nickcache := nc :: w.nickcache }
  | none => w

/-- Change the entry of a nick. -/
def nickcacheModify (f : Nickcache → Nickcache) (nickId : ℕ) (w : World) : World :=
  { w with nickcache := w.nickcache.map fun nc ↦ if nc.nickId = nickId then f nc else nc }

/-- The number of hash chains. -/
def M : ℕ := 151

/-- `nickcache_del`. It unlinks the entry after the one it looks for and frees the one before, so
the memory is not sound any more when there is one. When there is none, the walk ends at an entry with
a larger id or in an empty chain, and does not end otherwise. -/
def nickcacheDel (nickId : ℕ) (w : World) : World :=
  let chain := w.nickcache.filter fun nc ↦ nc.nickId % M = nickId % M
  if chain.any fun nc ↦ nc.nickId = nickId then w.die
  else if chain.isEmpty ∨ chain.any fun nc ↦ nickId < nc.nickId then w
  else w.die

/-- `nickcache_update`. -/
def nickcacheUpdate (now nickId : ℕ) (w : World) : World :=
  let w := if (nickcacheFind w nickId).isSome then w else nickcacheInsert now nickId w
  match selectCached now nickId w with
  | some nc => nickcacheModify (fun _ ↦ nc) nickId w
  | none => nickcacheDel nickId w

/-- The common part of `nickcache_get_status` and `nickcache_get_language`: the entry is inserted, and
read anew when its stamp is an hour old. -/
def nickcacheFreshen (stamp : Nickcache → ℕ) (now nickId : ℕ) (w : World) : World :=
  w.act fun w ↦
    if nickId = 0 then w.die
    else match nickcacheFind w nickId with
      | none => nickcacheInsert now nickId w
      | some nc => if 60 * 60 ≤ now - stamp nc then nickcacheUpdate now nickId w else w

/-- The common part of the functions that write to the cache: the entry is inserted and changed. -/
def nickcacheWrite (f : Nickcache → Nickcache) (now nickId : ℕ) (w : World) : World :=
  w.act fun w ↦
    if nickId = 0 then w.die
    else
      nickcacheModify f nickId
        (if (nickcacheFind w nickId).isSome then w else nickcacheInsert now nickId w)

/-- `nickcache_set_language`. -/
def nickcacheSetLanguage (now nickId language : ℕ) (w : World) : World :=
  nickcacheWrite (fun nc ↦ { nc with language := language, languageTimestamp := now }) now nickId w

/-- `nickcache_set_status`, `nickcache_add_status` and `nickcache_remove_status`. -/
def nickcacheChangeStatus (f : BitVec 32 → BitVec 32) (now nickId : ℕ) (w : World) : World :=
  nickcacheWrite (fun nc ↦ { nc with status := f nc.status, statusTimestamp := now }) now nickId w

/-- The effect of `get_nick_status` on the cache. -/
def freshenStatus (now nickId : ℕ) (w : World) : World :=
  nickcacheFreshen Nickcache.statusTimestamp now nickId w

/-- `get_nick_status`: the status that is found after `freshenStatus`. -/
def getNickStatus (now nickId : ℕ) (w : World) : BitVec 32 :=
  ((nickcacheFind (freshenStatus now nickId w) nickId).map Nickcache.status).getD 0#32

/-- The effect of `nickcache_get_language` on the cache. -/
def freshenLanguage (now nickId : ℕ) (w : World) : World :=
  nickcacheFreshen Nickcache.languageTimestamp now nickId w

/-! ### Changes to a nick's row -/

/-- An UPDATE of one nick. -/
def updateNick (f : NickRow → NickRow) (nickId : ℕ) (w : World) : World :=
  w.act fun w ↦
    { w with
      db := { w.db with nick := w.db.nick.map fun r ↦ if r.nickId = nickId then f r else r } }

/-- An UPDATE of the other columns of one nick. -/
def updateColumns (f : NickColumns → NickColumns) (nickId : ℕ) (w : World) : World :=
  w.act fun w ↦ { w with columns := Function.update w.columns nickId (f (w.columns nickId)) }

/-- `UPDATE nick SET status=...`. -/
def updateStatus (f : BitVec 32 → BitVec 32) (nickId : ℕ) (w : World) : World :=
  updateNick (fun r ↦ { r with status := f r.status }) nickId w

/-- The helpers that write a status to the row and to the cache. -/
def changeNickStatus (f : BitVec 32 → BitVec 32) (now nickId : ℕ) (w : World) : World :=
  nickcacheChangeStatus f now nickId (updateStatus f nickId w)

/-- `set_nick_status`. -/
def setNickStatus (status : BitVec 32) (now nickId : ℕ) (w : World) : World :=
  changeNickStatus (fun _ ↦ status) now nickId w

/-- `add_nick_status`. -/
def addNickStatus (status : BitVec 32) (now nickId : ℕ) (w : World) : World :=
  changeNickStatus (· ||| status) now nickId w

/-- `remove_nick_status`. -/
def removeNickStatus (status : BitVec 32) (now nickId : ℕ) (w : World) : World :=
  changeNickStatus (· &&& ~~~status) now nickId w

/-- `get_nick_flags`. -/
def getNickFlags (w : World) (nickId : ℕ) : BitVec 32 :=
  ((w.db.nick.filter fun r ↦ r.nickId = nickId).getLast?.map NickRow.flags).getD 0#32

/-- `mysql_delnick`. A nick without a row has no name, which `ns_mysql_remove_memos` passes on as a
null pointer. -/
def delnick (nickId : ℕ) (w : World) : World :=
  w.act fun w ↦
    { w with
      db := mysqlDelnick w.db nickId
      alive := (getNickFromId w.db nickId).isSome }

/-! ### Users and timeouts -/

/-- `finduser`. -/
def finduser (w : World) (nick : CString) : Option User :=
  w.users.find? fun u ↦ sameName u.nick nick

/-- Change the record of one user. -/
def modifyUser (f : User → User) (uid : ℕ) (w : World) : World :=
  w.act fun w ↦ { w with users := w.users.map fun u ↦ if u.uid = uid then f u else u }

/-- `add_ns_timeout`. -/
def addNsTimeout (nickId : ℕ) (type : TimeoutType) (delay now : ℕ) (w : World) : World :=
  w.act fun w ↦ { w with timeouts := ⟨nickId, type, now, now + delay, true⟩ :: w.timeouts }

/-- The private list has a timeout for the nick and of the type. -/
def NsTimeout.isListed (nickId : ℕ) (type : TimeoutType) (t : NsTimeout) : Bool :=
  t.listed ∧ t.nickId = nickId ∧ t.type = type

/-- The private list has lost a timeout. -/
def NsTimeout.unlist (t : NsTimeout) : NsTimeout :=
  { t with listed := false }

/-- `del_ns_timeout`. An entry is taken out of the private list as if it were its head, so the list loses
all newer entries too. -/
def delNsTimeout (nickId : ℕ) (type : TimeoutType) (w : World) : World :=
  w.act fun w ↦
    let p := NsTimeout.isListed nickId type
    { w with
      timeouts := ((w.timeouts.rdropWhile fun t ↦ !p t).filter fun t ↦ !p t).map NsTimeout.unlist ++
        w.timeouts.rtakeWhile fun t ↦ !p t }

/-- A timeout fires: `rem_ns_timeout` takes all like it off the private list, and the newer ones. -/
def fireNsTimeout (t : NsTimeout) (w : World) : World :=
  w.act fun w ↦
    let p := NsTimeout.isListed t.nickId t.type
    { w with
      timeouts := ((w.timeouts.rdropWhile fun t ↦ !p t).map NsTimeout.unlist ++
        w.timeouts.rtakeWhile fun t ↦ !p t).eraseIdx (w.timeouts.idxOf t) }

/-- `notice_lang` looks up the language of the user. -/
def noticeLang (now : ℕ) (u : User) (w : World) : World :=
  if u.nickId ≠ 0 then freshenLanguage now u.nickId w else w

/-- A lookup of a status or a language. -/
inductive Lookup where
  | status (nickId : ℕ)
  | language (nickId : ℕ)

/-- Lookups by code that only reads: notices about memos and news, autojoins. -/
def lookups (now : ℕ) (l : List Lookup) (w : World) : World :=
  l.foldl
    (fun w l ↦
      match l with
      | .status nickId => freshenStatus now nickId w
      | .language nickId => freshenLanguage now nickId w)
    w

/-- `nick_identified`: the status of the nick that the user is using. -/
def nickIdentified (now : ℕ) (u : User) (w : World) : Bool :=
  u.realId ≠ 0 ∧ getNickStatus now u.realId w &&& NS_IDENTIFIED ≠ 0#32

/-- The effect of `nick_identified` on the cache. -/
def freshenIdentified (now : ℕ) (u : User) (w : World) : World :=
  if u.realId ≠ 0 then freshenStatus now u.realId w else w

end BlitzedServices.NickServ
