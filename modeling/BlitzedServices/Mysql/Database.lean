import BlitzedServices.Lib.CString

/-!
# The database

One list of rows for each table that names a nick or a channel, with the columns the services compare
or change. Lookups by a primary key take the first row; `Keys` says that there is no other.
-/

set_option autoImplicit false
set_option relaxedAutoImplicit false

namespace BlitzedServices.Mysql

open Lib

/-! ### Tables -/

def NS_VERBOTEN : BitVec 32 := 0x2#32

/-- The user gave the password of the nick. -/
def NS_IDENTIFIED : BitVec 32 := 0x8000#32

/-- The user is recognised for the nick. -/
def NS_RECOGNIZED : BitVec 32 := 0x4000#32

/-- Table `nick`. -/
structure NickRow where
  nickId : ℕ
  nick : CString
  status : BitVec 32
  linkId : ℕ
  flags : BitVec 32
  channelmax : ℕ
  deriving DecidableEq

/-- The master of a nick: `IF(link_id, link_id, nick_id)`. -/
def NickRow.masterId (r : NickRow) : ℕ :=
  if r.linkId ≠ 0 then r.linkId else r.nickId

/-- Table `nickaccess`. -/
structure NickaccessRow where
  nickaccessId : ℕ
  nickId : ℕ
  idx : ℕ
  userhost : CString
  deriving DecidableEq

/-- Table `nicksuspend`. -/
structure NicksuspendRow where
  nicksuspendId : ℕ
  nickId : ℕ
  suspendId : ℕ
  deriving DecidableEq

/-- Table `suspend`. -/
structure SuspendRow where
  suspendId : ℕ
  who : CString
  reason : CString
  deriving DecidableEq

/-- Table `chansuspend`. -/
structure ChansuspendRow where
  chansuspendId : ℕ
  chanId : ℕ
  suspendId : ℕ
  deriving DecidableEq

/-- Table `channel`. -/
structure ChannelRow where
  channelId : ℕ
  name : CString
  founder : ℕ
  successor : ℕ
  flags : BitVec 32
  deriving DecidableEq

/-- Table `akick`. A row for a mask has `nickId` 0. -/
structure AkickRow where
  akickId : ℕ
  channelId : ℕ
  idx : ℕ
  mask : Option CString
  nickId : ℕ
  deriving DecidableEq

/-- Table `chanaccess`. -/
structure ChanaccessRow where
  chanaccessId : ℕ
  channelId : ℕ
  idx : ℕ
  level : ℤ
  nickId : ℕ
  added : ℕ
  lastModified : ℕ
  lastUsed : ℕ
  memoRead : ℕ
  addedBy : CString
  modifiedBy : CString
  deriving DecidableEq

/-- Table `chanlevel`. -/
structure ChanlevelRow where
  channelId : ℕ
  what : ℕ
  level : ℤ
  deriving DecidableEq

/-- Table `autojoin`. -/
structure AutojoinRow where
  autojoinId : ℕ
  nickId : ℕ
  idx : ℕ
  channelId : ℕ
  deriving DecidableEq

/-- Table `memo`. The owner is the name of a nick or of a channel. -/
structure MemoRow where
  memoId : ℕ
  owner : CString
  text : CString
  deriving DecidableEq

/-- Table `memoinfo`. -/
structure MemoinfoRow where
  memoinfoId : ℕ
  owner : CString
  max : ℤ
  deriving DecidableEq

/-- Tables `admin` and `oper`. -/
structure StaffRow where
  id : ℕ
  nickId : ℕ
  deriving DecidableEq

/-- The tables. -/
structure Database where
  nick : List NickRow
  nickaccess : List NickaccessRow
  nicksuspend : List NicksuspendRow
  suspend : List SuspendRow
  chansuspend : List ChansuspendRow
  channel : List ChannelRow
  akick : List AkickRow
  chanaccess : List ChanaccessRow
  chanlevel : List ChanlevelRow
  autojoin : List AutojoinRow
  memo : List MemoRow
  memoinfo : List MemoinfoRow
  admin : List StaffRow
  oper : List StaffRow

/-- The primary keys of `nick` and `channel`; the first counts from 1. -/
structure Keys (db : Database) : Prop where
  nick : (db.nick.map NickRow.nickId).Nodup
  nick_ne_zero : ∀ r ∈ db.nick, r.nickId ≠ 0
  channel : (db.channel.map ChannelRow.channelId).Nodup

/-! ### Lookups -/

/-- Names in a `varchar` column compare without regard to case. -/
def sameName (a b : CString) : Bool :=
  stricmp a b == 0

/-- `get_nick_from_id`. -/
def getNickFromId (db : Database) (nickId : ℕ) : Option CString :=
  (db.nick.find? fun r ↦ r.nickId = nickId).map NickRow.nick

/-- `mysql_findnick`: 0 for a nick that is not registered. -/
def mysqlFindnick (db : Database) (nick : CString) : ℕ :=
  ((db.nick.filter fun r ↦ sameName r.nick nick).getLast?.map NickRow.nickId).getD 0

/-- `mysql_findnickinfo`. -/
def mysqlFindnickinfo (db : Database) (nick : CString) : Option NickRow :=
  db.nick.find? fun r ↦ sameName r.nick nick

/-- `get_nickinfo_from_id`. -/
def getNickinfoFromId (db : Database) (nickId : ℕ) : Option NickRow :=
  db.nick.find? fun r ↦ r.nickId = nickId

/-- `mysql_findchan`: 0 for a channel that is not registered. -/
def mysqlFindchan (db : Database) (chan : CString) : ℕ :=
  ((db.channel.find? fun c ↦ sameName c.name chan).map ChannelRow.channelId).getD 0

/-- A name of a registered channel is that of a row. -/
theorem exists_row_of_mysqlFindchan_ne_zero {db : Database} {chan : CString} (h : mysqlFindchan db chan ≠ 0) :
    ∃ c ∈ db.channel, c.channelId = mysqlFindchan db chan := by
  rw [mysqlFindchan] at h ⊢
  cases hrow : db.channel.find? fun c ↦ sameName c.name chan with
  | none => exact absurd (by rw [hrow]; rfl) h
  | some c => exact ⟨c, List.mem_of_find?_eq_some hrow, rfl⟩

/-- `get_chan_flags`. -/
def getChanFlags (db : Database) (channelId : ℕ) : BitVec 32 :=
  ((db.channel.filter fun c ↦ c.channelId = channelId).getLast?.map ChannelRow.flags).getD 0#32

/-- `get_channame_from_id`. -/
def getChannameFromId (db : Database) (channelId : ℕ) : Option CString :=
  (db.channel.find? fun c ↦ c.channelId = channelId).map ChannelRow.name

/-- `mysql_getlink`: the master of a nick, which is itself when it is not linked. -/
def mysqlGetlink (db : Database) (nickId : ℕ) : ℕ :=
  match db.nick.find? fun r ↦ r.nickId = nickId with
  | some r => if r.linkId ≠ 0 then r.linkId else nickId
  | none => nickId

/-- The lookup by a primary key finds the row. -/
theorem find?_eq_some_of_nodup {α : Type} {key : α → ℕ} {l : List α}
    (h : (l.map key).Nodup) {a : α} (ha : a ∈ l) : l.find? (fun b ↦ key b = key a) = some a := by
  induction l with
  | nil => cases ha
  | cons b l ih =>
    rw [List.map_cons, List.nodup_cons] at h
    obtain rfl | ha := List.mem_cons.mp ha
    · simp
    · have hne : key b ≠ key a := fun heq ↦ h.1 (heq ▸ List.mem_map_of_mem ha)
      rw [List.find?_cons_of_neg (by simpa using hne)]
      exact ih h.2 ha

/-- A lookup after an UPDATE that does not change what the lookup is for. -/
theorem find?_map_update {α : Type} {p : α → Bool} {c : α → Prop} [DecidablePred c] {f : α → α}
    (hf : ∀ a, c a → p (f a) = p a) (l : List α) :
    (l.map fun a ↦ if c a then f a else a).find? p = (l.find? p).map fun a ↦ if c a then f a else a := by
  rw [List.find?_map]
  congr 2
  ext a
  rw [Function.comp_apply]
  split_ifs with hc
  · exact hf a hc
  · rfl

theorem getChannameFromId_eq {db : Database} (h : Keys db) {c : ChannelRow}
    (hc : c ∈ db.channel) : getChannameFromId db c.channelId = some c.name := by
  rw [getChannameFromId, find?_eq_some_of_nodup h.channel hc, Option.map_some]

theorem getNickFromId_eq {db : Database} (h : Keys db) {r : NickRow} (hr : r ∈ db.nick) :
    getNickFromId db r.nickId = some r.nick := by
  rw [getNickFromId, find?_eq_some_of_nodup h.nick hr, Option.map_some]

end BlitzedServices.Mysql
