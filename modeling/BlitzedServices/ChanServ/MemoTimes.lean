import BlitzedServices.ChanServ.Access

/-!
# When the memos of a channel were last read

READ of a channel memo stores its time with `update_memo_time`, and whoever joins the channel is told by
`check_chan_memos` how many memos have come since the time stored for him. A founder's time is a column of the
channel, that of others a column of their entry in the access list.

`update_memo_time` finds the entry through the links of nicks, `check_chan_memos` only with the id of the user's
master nick. `checkChanMemos_updateMemoTime_iff` says when the time that was stored is the one that is read.
-/

set_option autoImplicit false
set_option relaxedAutoImplicit false

namespace BlitzedServices.ChanServ

open Lib Mysql

/-! ### The columns -/

/-- What a column of 32 unsigned bits keeps of a number: numbers out of its range become the nearest in it. -/
def storeTime (t : ℤ) : ℕ :=
  (min (max t 0) (2 ^ 32 - 1)).toNat

/-- `atoi` of a time in a row. -/
def readTime (n : ℕ) : ℤ :=
  (atoi (decimal n)).toInt

/-- Table `memo`, as far as new memos are counted. -/
structure ChanMemo where
  owner : CString
  time : ℕ

/-- The tables, with the column `founder_memo_read` of `channel` by its id and the table `memo`. -/
structure MemoTables where
  db : Database
  founderMemoRead : ℕ → ℕ
  memo : List ChanMemo

/-- `get_founder_memo_read`. -/
def getFounderMemoRead (st : MemoTables) (channelId : ℕ) : ℤ :=
  if st.db.channel.any (·.channelId = channelId) then readTime (st.founderMemoRead channelId) else 0

/-- `get_access_memo_read`. -/
def getAccessMemoRead (st : MemoTables) (u : AccessUser) (channelId : ℕ) : ℤ :=
  if u.nickId = 0 then 0
  else
    match getChanaccessFromNickid st.db u.nickId channelId with
    | some r => readTime r.memoRead
    | none => 0

/-- `new_chan_memos`. -/
def newChanMemos (st : MemoTables) (channelId : ℕ) (lastRead : ℤ) : ℕ :=
  ((st.db.channel.filter (·.channelId = channelId)).map fun c ↦
    st.memo.countP fun m ↦ sameName m.owner c.name ∧ lastRead < m.time).sum

/-- What `check_chan_memos` finds: the user is told of the new memos if there are any. -/
structure MemoCheck where
  lastReadTime : ℤ
  newMemos : ℕ
  deriving DecidableEq

/-- `check_chan_memos`. Nothing is looked up for a user who may not read memos. -/
def checkChanMemos (u : AccessUser) (now channelId : ℕ) (st : MemoTables) : Option MemoCheck :=
  if channelId = 0 then none
  else
    let (accessLevel, db) := getAccess u now st.db channelId
    let st := { st with db }
    if accessLevel ≤ 0 then none
    else if accessLevel < getChanLevel st.db channelId CA_MEMO_READ then none
    else
      let lastReadTime :=
        if accessLevel = ACCESS_FOUNDER then getFounderMemoRead st channelId
        else getAccessMemoRead st u channelId
      some ⟨lastReadTime, newChanMemos st channelId lastReadTime⟩

/-- The UPDATE of `memo_read`. -/
def stampMemoRead (db : Database) (t : ℤ) (chanaccessId : ℕ) : Database :=
  { db with
    chanaccess := db.chanaccess.map fun r ↦
      if r.chanaccessId = chanaccessId then { r with memoRead := storeTime t } else r }

/-- `update_memo_time`. `get_chanaccess_id` makes the same search as `get_chanaccess_level`. -/
def updateMemoTime (u : AccessUser) (chan : CString) (t : ℤ) (st : MemoTables) : MemoTables :=
  let channelId := mysqlFindchan st.db chan
  if channelId = 0 then st
  else if isFounder u st.db channelId then
    { st with founderMemoRead := Function.update st.founderMemoRead channelId (storeTime t) }
  else
    match chanaccessOf st.db channelId u.nickId with
    | some r => if r.chanaccessId ≠ 0 then { st with db := stampMemoRead st.db t r.chanaccessId } else st
    | none => st

/-! ### Times in a column -/

theorem readTime_eq {n : ℕ} (h : n < 2 ^ 32) : readTime n = (BitVec.ofNat 32 n).toInt := by
  have hn : (BitVec.ofNat 32 n).toNat = n := by
    rw [BitVec.toNat_ofNat, Nat.mod_eq_of_lt h]
  rw [readTime, ← hn, atoi_decimal_toNat, hn]

theorem storeTime_lt (t : ℤ) : storeTime t < 2 ^ 32 := by
  rw [storeTime]
  omega

/-- The times that are read back as they were stored. -/
theorem readTime_storeTime_iff (t : ℤ) : readTime (storeTime t) = t ↔ 0 ≤ t ∧ t < 2 ^ 31 := by
  have hlt := storeTime_lt t
  rw [readTime_eq hlt, BitVec.toInt_ofNat']
  rw [storeTime] at hlt ⊢
  rw [Int.bmod_def]
  omega

/-! ### What a check finds -/

section Check

variable {u : AccessUser} {now channelId : ℕ} {st : MemoTables} {chan : CString} {t : ℤ}

/-- A look at the user's level does not matter to the times. -/
theorem getAccessMemoRead_getAccess (u : AccessUser) (now channelId : ℕ) (st : MemoTables) :
    getAccessMemoRead { st with db := (getAccess u now st.db channelId).2 } u channelId =
      getAccessMemoRead st u channelId := by
  obtain ⟨stamp, hstamp⟩ := getAccess_stamps u now st.db channelId
  have hentry : getChanaccessFromNickid (getAccess u now st.db channelId).2 u.nickId channelId =
      (getChanaccessFromNickid st.db u.nickId channelId).map fun r ↦ { r with lastUsed := stamp r } := by
    rw [hstamp, getChanaccessFromNickid, List.find?_map]
    rfl
  simp only [getAccessMemoRead, hentry]
  cases getChanaccessFromNickid st.db u.nickId channelId <;> rfl

/-- The user may read the memos of the channel. -/
structure MayReadMemos (u : AccessUser) (now channelId : ℕ) (db : Database) : Prop where
  positive : 0 < (getAccess u now db channelId).1
  level : getChanLevel db channelId CA_MEMO_READ ≤ (getAccess u now db channelId).1

theorem MayReadMemos.ids (h : MayReadMemos u now channelId st.db) : channelId ≠ 0 ∧ u.nickId ≠ 0 := by
  have hpos := h.positive
  rw [← not_or]
  intro hzero
  rw [getAccess, if_pos hzero] at hpos
  exact lt_irrefl 0 hpos

/-- The time that the check uses. -/
theorem checkChanMemos_eq (h : MayReadMemos u now channelId st.db) {x : ℤ}
    (hx : x = if (getAccess u now st.db channelId).1 = ACCESS_FOUNDER then getFounderMemoRead st channelId
      else getAccessMemoRead st u channelId) :
    checkChanMemos u now channelId st = some ⟨x, newChanMemos st channelId x⟩ := by
  have hlevel := getAccessMemoRead_getAccess u now channelId st
  obtain ⟨stamp, hstamp⟩ := getAccess_stamps u now st.db channelId
  have hmemoRead : getChanLevel (getAccess u now st.db channelId).2 channelId CA_MEMO_READ =
      getChanLevel st.db channelId CA_MEMO_READ := by
    rw [hstamp]
    rfl
  have hfounder : getFounderMemoRead { st with db := (getAccess u now st.db channelId).2 } channelId =
      getFounderMemoRead st channelId := by
    rw [hstamp]
    rfl
  have hnew (y : ℤ) : newChanMemos { st with db := (getAccess u now st.db channelId).2 } channelId y =
      newChanMemos st channelId y := by
    rw [hstamp]
    rfl
  simp only [checkChanMemos, if_neg h.ids.1, if_neg (not_le.mpr h.positive), hmemoRead, if_neg (not_lt.mpr h.level),
    hfounder, hlevel, hnew, ← hx]

/-! ### What an update changes -/

/-- The entry of the user's link group is the one of the master nick itself. -/
def OwnEntry (u : AccessUser) (db : Database) (channelId : ℕ) : Prop :=
  ∃ r, chanaccessOf db channelId u.nickId = some r ∧ r.nickId = u.nickId

/-- The keys of `chanaccess`, and the levels that ADD allows. -/
structure EntryKeys (db : Database) : Prop where
  chanaccessId : (db.chanaccess.map ChanaccessRow.chanaccessId).Nodup
  ne_zero : ∀ r ∈ db.chanaccess, r.chanaccessId ≠ 0
  nick : ∀ r ∈ db.chanaccess, ∀ s ∈ db.chanaccess, r.channelId = s.channelId → r.nickId = s.nickId → r = s
  level : ∀ r ∈ db.chanaccess, r.level < ACCESS_FOUNDER

/-- The commands that change a list leave no level of a founder in it. -/
theorem level_lt_founder_handler (env : AccessEnv) (u : AccessUser) {db : Database} (hkeys : EntryKeys db)
    (command : AccessCommand) (rest : CString) :
    ∀ r ∈ (command.handler env u db rest).2.chanaccess, r.level < ACCESS_FOUNDER := by
  have hbound : (getAccess u env.now db (requestedChan db rest)).1 ≤ ACCESS_FOUNDER := by
    have hzero : 0 ≤ ACCESS_FOUNDER := by decide
    unfold getAccess getChanaccessLevel
    split_ifs
    · exact hzero
    · exact le_rfl
    · cases hfind : chanaccessOf db (requestedChan db rest) u.nickId with
      | none => exact hzero
      | some r => exact (hkeys.level r (chanaccessOf_some hfind).1).le
    · exact hzero
  intro r hr
  rcases (handler_guarded hkeys.chanaccessId command rest).after r hr with ⟨s, hs, hsame⟩ | hlt
  · exact hsame.level ▸ hkeys.level s hs
  · exact hlt.trans_le hbound

/-- A user with access who is no founder has it from an entry. -/
theorem exists_entry (h : MayReadMemos u now channelId st.db) (hfounder : ¬ isFounder u st.db channelId = true) :
    ∃ r, chanaccessOf st.db channelId u.nickId = some r ∧ (getAccess u now st.db channelId).1 = r.level := by
  have hpos := h.positive
  rw [getAccess, if_neg (not_or.mpr h.ids), if_neg hfounder] at hpos ⊢
  split_ifs at hpos ⊢
  · rw [getChanaccessLevel] at hpos ⊢
    cases hfind : chanaccessOf st.db channelId u.nickId with
    | none =>
      rw [hfind] at hpos
      exact absurd hpos (lt_irrefl 0)
    | some r => exact ⟨r, rfl, rfl⟩
  · exact absurd hpos (lt_irrefl 0)

theorem chanaccessOf_stampMemoRead (db : Database) (t : ℤ) (chanaccessId channelId nickId : ℕ) :
    chanaccessOf (stampMemoRead db t chanaccessId) channelId nickId =
      (chanaccessOf db channelId nickId).map fun r ↦
        if r.chanaccessId = chanaccessId then { r with memoRead := storeTime t } else r := by
  unfold chanaccessOf stampMemoRead
  apply find?_map_update
  exact fun _ _ ↦ rfl

/-- The update does not change the user's level. -/
theorem mayReadMemos_stampMemoRead (h : MayReadMemos u now channelId st.db) (t : ℤ) (chanaccessId : ℕ) :
    MayReadMemos u now channelId (stampMemoRead st.db t chanaccessId) ∧
      (getAccess u now (stampMemoRead st.db t chanaccessId) channelId).1 =
        (getAccess u now st.db channelId).1 := by
  have hlevel : (getAccess u now (stampMemoRead st.db t chanaccessId) channelId).1 =
      (getAccess u now st.db channelId).1 := by
    have hfounder : isFounder u (stampMemoRead st.db t chanaccessId) channelId = isFounder u st.db channelId := rfl
    have htrusted : trusted u (stampMemoRead st.db t chanaccessId) channelId = trusted u st.db channelId := rfl
    rw [getAccess, getAccess, hfounder, htrusted]
    split_ifs
    · rfl
    · rfl
    · rw [getChanaccessLevel, getChanaccessLevel, chanaccessOf_stampMemoRead]
      cases chanaccessOf st.db channelId u.nickId with
      | none => rfl
      | some r =>
        dsimp only [Option.map_some]
        split <;> rfl
    · rfl
  have hmemoRead : getChanLevel (stampMemoRead st.db t chanaccessId) channelId CA_MEMO_READ =
      getChanLevel st.db channelId CA_MEMO_READ := rfl
  exact ⟨⟨hlevel ▸ h.positive, by rw [hmemoRead, hlevel]; exact h.level⟩, hlevel⟩

/-- The time that is read for an entry after the time of one was stored. -/
theorem getAccessMemoRead_stampMemoRead (hkeys : EntryKeys st.db) (hnick : u.nickId ≠ 0) {r : ChanaccessRow}
    (hr : r ∈ st.db.chanaccess) (hchannel : r.channelId = channelId) (t : ℤ) :
    getAccessMemoRead { st with db := stampMemoRead st.db t r.chanaccessId } u channelId =
      if r.nickId = u.nickId then readTime (storeTime t) else getAccessMemoRead st u channelId := by
  have hentry : getChanaccessFromNickid (stampMemoRead st.db t r.chanaccessId) u.nickId channelId =
      (getChanaccessFromNickid st.db u.nickId channelId).map fun s ↦
        if s.chanaccessId = r.chanaccessId then { s with memoRead := storeTime t } else s := by
    unfold getChanaccessFromNickid stampMemoRead
    apply find?_map_update
    exact fun _ _ ↦ rfl
  simp only [getAccessMemoRead, if_neg hnick, hentry]
  by_cases hown : r.nickId = u.nickId
  · have hfind : getChanaccessFromNickid st.db u.nickId channelId = some r := by
      refine find?_eq_some_of_unique hr (by simp [hown, hchannel]) fun s hs hmeets ↦ ?_
      have hmeets := of_decide_eq_true hmeets
      exact hkeys.nick s hs r hr (hmeets.2.trans hchannel.symm) (hmeets.1.trans hown.symm)
    rw [hfind, if_pos hown, Option.map_some, if_pos rfl]
  · rw [if_neg hown]
    cases hfind : getChanaccessFromNickid st.db u.nickId channelId with
    | none => rfl
    | some s =>
      have hne : s.chanaccessId ≠ r.chanaccessId := by
        intro heq
        have hsat := List.find?_some hfind
        have hsr := eq_of_chanaccessId hkeys.chanaccessId (getChanaccessFromNickid_some hfind).1 hr heq
        exact hown (hsr ▸ (of_decide_eq_true hsat).1)
      rw [Option.map_some, if_neg hne]

/-! ### The time that was stored is the time that is read -/

/-- The user is a founder or has the entry of his master nick, and the time is one that `atoi` reads; or he has the
entry of another nick, and the time that the check finds for the master nick is that one already. -/
def MemoTimeMeets (u : AccessUser) (channelId : ℕ) (t : ℤ) (st : MemoTables) : Prop :=
  ((isFounder u st.db channelId = true ∨ OwnEntry u st.db channelId) ∧ 0 ≤ t ∧ t < 2 ^ 31) ∨
    (¬ isFounder u st.db channelId = true ∧ ¬ OwnEntry u st.db channelId ∧
      ((getChanaccessFromNickid st.db u.nickId channelId).map fun r ↦ readTime r.memoRead).getD 0 = t)

theorem check_eq_some_iff {x : ℤ} : (some ⟨x, newChanMemos st channelId x⟩ : Option MemoCheck) =
    some ⟨t, newChanMemos st channelId t⟩ ↔ x = t := by
  constructor
  · exact fun h ↦ congrArg MemoCheck.lastReadTime (Option.some.inj h)
  · rintro rfl
    rfl

/-- The update for a founder. -/
theorem checkChanMemos_founder_iff (h : MayReadMemos u now channelId st.db)
    (hchan : mysqlFindchan st.db chan = channelId) (hfounder : isFounder u st.db channelId = true) :
    checkChanMemos u now channelId (updateMemoTime u chan t st) = some ⟨t, newChanMemos st channelId t⟩ ↔
      0 ≤ t ∧ t < 2 ^ 31 := by
  have hlevel : (getAccess u now st.db channelId).1 = ACCESS_FOUNDER := by
    rw [getAccess, if_neg (not_or.mpr h.ids), if_pos hfounder]
  have hupdate : updateMemoTime u chan t st =
      { st with founderMemoRead := Function.update st.founderMemoRead channelId (storeTime t) } := by
    simp only [updateMemoTime, hchan, if_neg h.ids.1, if_pos hfounder]
  have hrow : st.db.channel.any (·.channelId = channelId) := by
    obtain ⟨c, hc, hid⟩ := exists_row_of_mysqlFindchan_ne_zero (hchan ▸ h.ids.1)
    exact List.any_eq_true.mpr ⟨c, hc, by simpa using hid.trans hchan⟩
  have htime : getFounderMemoRead (updateMemoTime u chan t st) channelId = readTime (storeTime t) := by
    rw [hupdate, getFounderMemoRead, if_pos hrow]
    exact congrArg readTime (Function.update_self ..)
  have hread : MayReadMemos u now channelId (updateMemoTime u chan t st).db := by
    rw [hupdate]
    exact h
  have hnew (y : ℤ) : newChanMemos (updateMemoTime u chan t st) channelId y = newChanMemos st channelId y := by
    rw [hupdate]
    rfl
  rw [checkChanMemos_eq hread (x := readTime (storeTime t)), hnew, check_eq_some_iff, readTime_storeTime_iff]
  rw [← htime, hupdate, if_pos hlevel]

/-- The update for a user with an entry. -/
theorem checkChanMemos_entry_iff (hkeys : EntryKeys st.db) (h : MayReadMemos u now channelId st.db)
    (hchan : mysqlFindchan st.db chan = channelId) (hfounder : ¬ isFounder u st.db channelId = true)
    {r : ChanaccessRow} (hentry : chanaccessOf st.db channelId u.nickId = some r) :
    checkChanMemos u now channelId (updateMemoTime u chan t st) = some ⟨t, newChanMemos st channelId t⟩ ↔
      (if r.nickId = u.nickId then readTime (storeTime t) else getAccessMemoRead st u channelId) = t := by
  obtain ⟨hr, hchannel⟩ := chanaccessOf_some hentry
  obtain ⟨r', hentry', hlevel⟩ := exists_entry h hfounder
  rw [Option.some.inj (hentry'.symm.trans hentry)] at hlevel
  have hupdate : updateMemoTime u chan t st = { st with db := stampMemoRead st.db t r.chanaccessId } := by
    simp only [updateMemoTime, hchan, if_neg h.ids.1, if_neg hfounder, hentry, hkeys.ne_zero r hr, ne_eq,
      not_false_eq_true, if_true]
  obtain ⟨hread, hsame⟩ := mayReadMemos_stampMemoRead h t r.chanaccessId
  have hnotFounder : (getAccess u now (stampMemoRead st.db t r.chanaccessId) channelId).1 ≠ ACCESS_FOUNDER := by
    rw [hsame, hlevel]
    exact (hkeys.level r hr).ne
  have htime := getAccessMemoRead_stampMemoRead hkeys h.ids.2 hr hchannel t
  have hcheck : checkChanMemos u now channelId { st with db := stampMemoRead st.db t r.chanaccessId } =
      some ⟨_, newChanMemos st channelId _⟩ :=
    checkChanMemos_eq hread (htime.symm.trans (if_neg hnotFounder).symm)
  rw [hupdate, hcheck, check_eq_some_iff]

/-- After the time of a memo was stored, the check uses that time, and tells of the later memos, exactly when the
user and the time meet this. -/
theorem checkChanMemos_updateMemoTime_iff (hkeys : EntryKeys st.db) (h : MayReadMemos u now channelId st.db)
    (hchan : mysqlFindchan st.db chan = channelId) :
    checkChanMemos u now channelId (updateMemoTime u chan t st) = some ⟨t, newChanMemos st channelId t⟩ ↔
      MemoTimeMeets u channelId t st := by
  by_cases hfounder : isFounder u st.db channelId = true
  · rw [checkChanMemos_founder_iff h hchan hfounder, MemoTimeMeets]
    simp [hfounder]
  · obtain ⟨r, hentry, -⟩ := exists_entry h hfounder
    rw [checkChanMemos_entry_iff hkeys h hchan hfounder hentry]
    have hown : OwnEntry u st.db channelId ↔ r.nickId = u.nickId := by
      rw [OwnEntry, hentry]
      simp
    have hbefore : getAccessMemoRead st u channelId =
        ((getChanaccessFromNickid st.db u.nickId channelId).map fun r ↦ readTime r.memoRead).getD 0 := by
      rw [getAccessMemoRead, if_neg h.ids.2]
      cases getChanaccessFromNickid st.db u.nickId channelId <;> rfl
    rw [MemoTimeMeets, hown, hbefore]
    by_cases hsame : r.nickId = u.nickId
    · rw [if_pos hsame, readTime_storeTime_iff]
      simp [hfounder, hsame]
    · rw [if_neg hsame]
      simp [hfounder, hsame]

/-- Channel `#` with one memo and an entry for nick `a`. The user of that nick has read the memo. -/
def memoTables (db : Database) : MemoTables :=
  ⟨db, fun _ ↦ 0, [⟨['#'], 400⟩]⟩

theorem entryKeys_exampleAccess : EntryKeys exampleAccess where
  chanaccessId := by decide
  ne_zero := by decide
  nick := by decide
  level := by decide

theorem checkChanMemos_updateMemoTime_example :
    checkChanMemos exampleActor 500 1 (updateMemoTime exampleActor ['#'] 400 (memoTables exampleAccess)) =
        some ⟨400, newChanMemos (memoTables exampleAccess) 1 400⟩ ↔
      MemoTimeMeets exampleActor 1 400 (memoTables exampleAccess) :=
  checkChanMemos_updateMemoTime_iff entryKeys_exampleAccess ⟨by decide, by decide⟩ (by decide)

/-- Nick `b` is linked to `a`, and only `b` has an entry. -/
def linkedAccess : Database :=
  { exampleAccess with
    nick := [⟨1, ['a'], NS_IDENTIFIED, 0, 0#32, 20⟩, ⟨2, ['b'], 0#32, 1, 0#32, 20⟩]
    chanaccess := [⟨2, 1, 1, 5, 2, 100, 100, 0, 0, ['a'], ['a']⟩] }

theorem entryKeys_linkedAccess : EntryKeys linkedAccess where
  chanaccessId := by decide
  ne_zero := by decide
  nick := by decide
  level := by decide

/-- The memo that was read is announced again: the check looks for an entry of `a`. -/
theorem checkChanMemos_announces_again :
    ¬ ∀ u now channelId chan t st, EntryKeys st.db → MayReadMemos u now channelId st.db →
      mysqlFindchan st.db chan = channelId →
      checkChanMemos u now channelId (updateMemoTime u chan t st) = some ⟨t, newChanMemos st channelId t⟩ := by
  intro h
  have hcheck := h exampleActor 500 1 ['#'] 400 (memoTables linkedAccess) entryKeys_linkedAccess
    ⟨by decide, by decide⟩ (by decide)
  have hagain : checkChanMemos exampleActor 500 1 (updateMemoTime exampleActor ['#'] 400 (memoTables linkedAccess)) =
      some ⟨0, 1⟩ := by
    decide +kernel
  rw [hagain] at hcheck
  exact absurd (congrArg MemoCheck.lastReadTime (Option.some.inj hcheck)) (by decide)

end Check

end BlitzedServices.ChanServ
