import BlitzedServices.ChanServ.Access
import BlitzedServices.NickServ.Commands

/-!
# Memos and their owners

The memos of a nick or of a channel are the rows of table `memo` with its name as owner. SEND resolves the
name it is given, `do_list`, `do_read` and `do_del` take the name of the nick that the user is using or of
the channel he asks for.
-/

set_option autoImplicit false
set_option relaxedAutoImplicit false

namespace BlitzedServices.MemoServ

open Lib Mysql NickServ ChanServ

def MF_UNREAD : BitVec 32 := 0x1#32

/-- The other columns of table `memo`, by the id of the memo. -/
structure MemoColumns where
  idx : ℕ
  flags : BitVec 32
  time : ℕ
  sender : CString
  rot13 : Bool

/-- The memos of an owner. -/
def memosOf (db : Database) (owner : CString) : List MemoRow :=
  db.memo.filter fun r ↦ sameName r.owner owner

/-- `count_memos`. -/
def countMemos (db : Database) (owner : CString) : ℕ :=
  (memosOf db owner).length

/-- What `get_memoinfo_from_owner` finds. `memoinfoId` is 0 for an owner who is forbidden or not registered
or has no row. -/
structure MemoInfo where
  memoinfoId : ℕ
  max : ℤ
  ischan : Bool
  isverboten : Bool

/-- The row of table `memoinfo`. -/
def selectMemoinfo (db : Database) (owner : CString) (ischan : Bool) : MemoInfo :=
  match db.memoinfo.find? fun r ↦ sameName r.owner owner with
  | some r => ⟨r.memoinfoId, r.max, ischan, false⟩
  | none => ⟨0, 0, ischan, false⟩

/-- `get_memoinfo_from_owner`. -/
def getMemoinfoFromOwner (now : ℕ) (owner : CString) (w : World) : MemoInfo :=
  if owner.head? = some '#' then
    let channelId := mysqlFindchan w.db owner
    if channelId = 0 then ⟨0, 0, true, false⟩
    else if getChanFlags w.db channelId &&& CI_VERBOTEN ≠ 0#32 then ⟨0, 0, true, true⟩
    else selectMemoinfo w.db owner true
  else
    let nickId := mysqlFindnick w.db owner
    if nickId = 0 then ⟨0, 0, false, false⟩
    else if getNickStatus now nickId w &&& NS_VERBOTEN ≠ 0#32 then ⟨0, 0, false, true⟩
    else selectMemoinfo w.db owner false

/-- The effect of `get_memoinfo_from_owner` on the cache. -/
def freshenMemoinfo (now : ℕ) (owner : CString) (w : World) : World :=
  if owner.head? = some '#' ∨ mysqlFindnick w.db owner = 0 then w
  else freshenStatus now (mysqlFindnick w.db owner) w

end BlitzedServices.MemoServ
