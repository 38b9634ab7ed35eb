import BlitzedServices.ChanServ.RemoveNick

/-!
# Deleting a nick

`mysqlDelnick` runs the helpers that take a nick out of every table. `DelnickSpec` says what a deletion
should be: no row refers to the nick any more (`Unreferenced`), and the rows of other nicks and channels
stay (`Untouched`), apart from succession, the nick's own channels and links to it.

`mysqlDelnick_iff` gives the database states where it is. `del_nicksuspend` takes the identifier of a
suspension and is handed that of a nick; the loop over the channels with successors can stop early;
and no helper deletes the autojoins of the nick.
-/

set_option autoImplicit false
set_option relaxedAutoImplicit false

namespace BlitzedServices.NickServ

open Lib Mysql ChanServ

/-! ### The helpers -/

/-- `del_nicksuspend`. -/
def delNicksuspend (db : Database) (nicksuspendId : ℕ) : Database :=
  if nicksuspendId ≠ 0 then
    let found := db.nicksuspend.filter fun r ↦ r.nicksuspendId = nicksuspendId
    let suspendId := (found.getLast?.map NicksuspendRow.suspendId).getD 0
    { db with
      suspend :=
        if suspendId ≠ 0 then db.suspend.filter (·.suspendId ≠ suspendId) else db.suspend
      nicksuspend := db.nicksuspend.filter (·.nicksuspendId ≠ nicksuspendId) }
  else db

/-- `os_mysql_remove_nick`. -/
def osMysqlRemoveNick (db : Database) (nickId : ℕ) : Database :=
  { db with
    admin := db.admin.filter (·.nickId ≠ nickId)
    oper := db.oper.filter (·.nickId ≠ nickId) }

/-- `mysql_remove_links`. -/
def mysqlRemoveLinks (db : Database) (nickId : ℕ) : Database :=
  { db with nick := db.nick.map fun r ↦ if r.linkId = nickId then { r with linkId := 0 } else r }

/-- `ns_mysql_remove_access`. -/
def nsMysqlRemoveAccess (db : Database) (nickId : ℕ) : Database :=
  { db with nickaccess := db.nickaccess.filter (·.nickId ≠ nickId) }

/-- `ns_mysql_remove_memos`. -/
def nsMysqlRemoveMemos (db : Database) (nickId : ℕ) : Database :=
  let owner := getNickFromId db nickId
  { db with
    memoinfo := db.memoinfo.filter fun r ↦ !ownedBy owner r.owner
    memo := db.memo.filter fun r ↦ !ownedBy owner r.owner }

/-- `mysql_delete_nick`. -/
def mysqlDeleteNick (db : Database) (nickId : ℕ) : Database :=
  { db with nick := db.nick.filter (·.nickId ≠ nickId) }

/-- `mysql_delnick`. -/
def mysqlDelnick (db : Database) (nickId : ℕ) : Database :=
  let db := delNicksuspend db nickId
  let db := csMysqlRemoveNick db nickId
  let db := osMysqlRemoveNick db nickId
  let db := mysqlRemoveLinks db nickId
  let db := nsMysqlRemoveAccess db nickId
  let db := nsMysqlRemoveMemos db nickId
  mysqlDeleteNick db nickId

/-! ### What a deletion should do -/

/-- No row refers to the nick, by its identifier or by its name. -/
structure Unreferenced (nickId : ℕ) (name : CString) (db : Database) : Prop where
  nick : ∀ r ∈ db.nick, r.nickId ≠ nickId ∧ r.linkId ≠ nickId
  nickaccess : ∀ r ∈ db.nickaccess, r.nickId ≠ nickId
  nicksuspend : ∀ r ∈ db.nicksuspend, r.nickId ≠ nickId
  channel : ∀ c ∈ db.channel, c.founder ≠ nickId ∧ c.successor ≠ nickId
  akick : ∀ r ∈ db.akick, r.nickId ≠ nickId
  chanaccess : ∀ r ∈ db.chanaccess, r.nickId ≠ nickId
  autojoin : ∀ r ∈ db.autojoin, r.nickId ≠ nickId
  memo : ∀ r ∈ db.memo, sameName r.owner name = false
  memoinfo : ∀ r ∈ db.memoinfo, sameName r.owner name = false
  admin : ∀ r ∈ db.admin, r.nickId ≠ nickId
  oper : ∀ r ∈ db.oper, r.nickId ≠ nickId

/-- A channel of the nick that a deletion took away. -/
def OwnDeleted (nickId : ℕ) (db db' : Database) (c : ChannelRow) : Prop :=
  c ∈ db.channel ∧ c.founder = nickId ∧ ∀ d ∈ db'.channel, d.channelId ≠ c.channelId

/-- The identifier is that of such a channel. -/
def OwnDeletedId (nickId : ℕ) (db db' : Database) (channelId : ℕ) : Prop :=
  ∃ c, OwnDeleted nickId db db' c ∧ c.channelId = channelId

/-- The rows of other nicks and channels stay. Links to the nick and its successorships are reset, its
own channels pass to their successors or are deleted with all their rows, and the autojoins of
whoever had one of these are numbered anew. -/
structure Untouched (nickId : ℕ) (name : CString) (db db' : Database) : Prop where
  nick : ∀ r ∈ db.nick, r.nickId ≠ nickId →
    (if r.linkId = nickId then { r with linkId := 0 } else r) ∈ db'.nick
  nickaccess : ∀ r ∈ db.nickaccess, r.nickId ≠ nickId → r ∈ db'.nickaccess
  nicksuspend : ∀ r ∈ db.nicksuspend, r.nickId ≠ nickId → r ∈ db'.nicksuspend
  suspend : ∀ s ∈ db.suspend,
    (∀ r ∈ db.nicksuspend, r.nickId = nickId → r.suspendId ≠ s.suspendId) →
    (∀ r ∈ db.chansuspend, OwnDeletedId nickId db db' r.chanId → r.suspendId ≠ s.suspendId) →
    s ∈ db'.suspend
  chansuspend : ∀ r ∈ db.chansuspend, ¬ OwnDeletedId nickId db db' r.chanId → r ∈ db'.chansuspend
  channel : ∀ c ∈ db.channel, c.founder ≠ nickId →
    (if c.successor = nickId then { c with successor := 0 } else c) ∈ db'.channel
  ownChannel : ∀ c ∈ db.channel, c.founder = nickId → ¬ OwnDeleted nickId db db' c →
    { c with founder := c.successor, successor := 0 } ∈ db'.channel
  akick : ∀ r ∈ db.akick, r.nickId ≠ nickId → ¬ OwnDeletedId nickId db db' r.channelId →
    r ∈ db'.akick
  chanaccess : ∀ r ∈ db.chanaccess, r.nickId ≠ nickId →
    ¬ OwnDeletedId nickId db db' r.channelId → r ∈ db'.chanaccess
  chanlevel : ∀ r ∈ db.chanlevel, ¬ OwnDeletedId nickId db db' r.channelId → r ∈ db'.chanlevel
  autojoin : ∀ r ∈ db.autojoin, r.nickId ≠ nickId → ¬ OwnDeletedId nickId db db' r.channelId →
    ∃ idx, { r with idx } ∈ db'.autojoin
  autojoin_same : ∀ r ∈ db.autojoin, r.nickId ≠ nickId →
    (∀ s ∈ db.autojoin, s.nickId = r.nickId → ¬ OwnDeletedId nickId db db' s.channelId) →
    r ∈ db'.autojoin
  memo : ∀ r ∈ db.memo, sameName r.owner name = false →
    (∀ c, OwnDeleted nickId db db' c → sameName r.owner c.name = false) → r ∈ db'.memo
  memoinfo : ∀ r ∈ db.memoinfo, sameName r.owner name = false →
    (∀ c, OwnDeleted nickId db db' c → sameName r.owner c.name = false) → r ∈ db'.memoinfo
  admin : ∀ r ∈ db.admin, r.nickId ≠ nickId → r ∈ db'.admin
  oper : ∀ r ∈ db.oper, r.nickId ≠ nickId → r ∈ db'.oper

/-- The deletion of a nick is complete and local. -/
def DelnickSpec (nickId : ℕ) (name : CString) (db db' : Database) : Prop :=
  Unreferenced nickId name db' ∧ Untouched nickId name db db'

/-- The states in which `mysql_delnick` does what it should: a suspension has the identifier of the
nick exactly when it is the nick's, the loop over the channels with successors reaches all of them, and
the nick's autojoins are on channels that are deleted. -/
structure Meets (db : Database) (nickId : ℕ) : Prop where
  nicksuspend : ∀ r ∈ db.nicksuspend, r.nicksuspendId = nickId ↔ r.nickId = nickId
  succession : AllAtLimit db (succeeded db nickId).dropLast
  autojoin : ∀ r ∈ db.autojoin, r.nickId = nickId →
    ∃ c, Dropped db nickId c ∧ c.channelId = r.channelId

/-! ### The result of a deletion -/

/-- What the last five helpers and the end of `cs_mysql_remove_nick` make of the state after the
channels were passed on. -/
def removeRows (nickId : ℕ) (name : CString) (db : Database) : Database :=
  { db with
    nick := (db.nick.map fun r ↦
      if r.linkId = nickId then { r with linkId := 0 } else r).filter (·.nickId ≠ nickId)
    nickaccess := db.nickaccess.filter (·.nickId ≠ nickId)
    channel := db.channel.map fun c ↦
      if c.successor = nickId then { c with successor := 0 } else c
    akick := db.akick.filter (·.nickId ≠ nickId)
    chanaccess := db.chanaccess.filter (·.nickId ≠ nickId)
    memo := db.memo.filter fun r ↦ !sameName r.owner name
    memoinfo := db.memoinfo.filter fun r ↦ !sameName r.owner name
    admin := db.admin.filter (·.nickId ≠ nickId)
    oper := db.oper.filter (·.nickId ≠ nickId) }

theorem nick_delNicksuspend (db : Database) (nicksuspendId : ℕ) :
    (delNicksuspend db nicksuspendId).nick = db.nick := by
  rw [delNicksuspend]
  split_ifs <;> rfl

theorem channel_delNicksuspend (db : Database) (nicksuspendId : ℕ) :
    (delNicksuspend db nicksuspendId).channel = db.channel := by
  rw [delNicksuspend]
  split_ifs <;> rfl

theorem keys_delNicksuspend {db : Database} (h : Keys db) (nicksuspendId : ℕ) :
    Keys (delNicksuspend db nicksuspendId) where
  nick := by
    rw [nick_delNicksuspend]
    exact h.nick
  nick_ne_zero := by
    rw [nick_delNicksuspend]
    exact h.nick_ne_zero
  channel := by
    rw [channel_delNicksuspend]
    exact h.channel

theorem getNickFromId_mysqlRemoveLinks (db : Database) (nickId id : ℕ) :
    getNickFromId (mysqlRemoveLinks db nickId) id = getNickFromId db id := by
  have hkey (r : NickRow) :
      (if r.linkId = nickId then { r with linkId := 0 } else r).nickId = r.nickId := by
    split_ifs <;> rfl
  have hname (r : NickRow) :
      (if r.linkId = nickId then { r with linkId := 0 } else r).nick = r.nick := by
    split_ifs <;> rfl
  simp only [getNickFromId, mysqlRemoveLinks, List.find?_map, Function.comp_def, hkey,
    Option.map_map, hname]

theorem nsMysqlRemoveMemos_eq {db : Database} {nickId : ℕ} {name : CString}
    (h : getNickFromId db nickId = some name) :
    nsMysqlRemoveMemos db nickId = { db with
      memoinfo := db.memoinfo.filter fun r ↦ !sameName r.owner name
      memo := db.memo.filter fun r ↦ !sameName r.owner name } := by
  simp only [nsMysqlRemoveMemos, h]
  rfl

/-- The helpers after the channels were passed on, for a nick with a name. -/
theorem removeRows_eq {db : Database} {nickId : ℕ} {name : CString}
    (hname : getNickFromId db nickId = some name) :
    mysqlDeleteNick (nsMysqlRemoveMemos (nsMysqlRemoveAccess (mysqlRemoveLinks
      (osMysqlRemoveNick { db with
        chanaccess := db.chanaccess.filter (·.nickId ≠ nickId)
        akick := db.akick.filter (·.nickId ≠ nickId)
        channel := db.channel.map fun c ↦
          if c.successor = nickId then { c with successor := 0 } else c } nickId)
      nickId) nickId) nickId) nickId = removeRows nickId name db := by
  have hlinks := getNickFromId_mysqlRemoveLinks db nickId nickId
  rw [hname] at hlinks
  rw [nsMysqlRemoveMemos_eq]
  · rfl
  · exact hlinks

theorem mysqlDelnick_eq {db : Database} (hkeys : Keys db) {r : NickRow} (hr : r ∈ db.nick) :
    mysqlDelnick db r.nickId =
      removeRows r.nickId r.nick (passChannels (delNicksuspend db r.nickId) r.nickId) := by
  obtain ⟨done, moved, rest, db₁, hpassed, hpass⟩ :=
    exists_passChannels (keys_delNicksuspend hkeys r.nickId) r.nickId
  have hnick : (passChannels (delNicksuspend db r.nickId) r.nickId).nick = db.nick := by
    rw [hpass, hpassed.dropsOnly.nick, nick_delNicksuspend]
  rw [mysqlDelnick]
  simp only [csMysqlRemoveNick]
  generalize passChannels (delNicksuspend db r.nickId) r.nickId = db' at hnick ⊢
  refine removeRows_eq ?_
  rw [← getNickFromId_eq hkeys hr, getNickFromId, hnick, getNickFromId]

section Result

variable {nickId : ℕ} {name : CString} {db db₀ db₁ : Database} {done rest : List ChannelRow}
  {moved : Option ChannelRow}

theorem nicksuspend_delNicksuspend (hn : nickId ≠ 0) :
    (delNicksuspend db nickId).nicksuspend =
      db.nicksuspend.filter (·.nicksuspendId ≠ nickId) := by
  rw [delNicksuspend, if_pos hn]

/-- The suspension that is deleted is one with the identifier of the nick. -/
theorem mem_suspend_delNicksuspend {s : SuspendRow} (hs : s ∈ db.suspend)
    (hfree : ∀ r ∈ db.nicksuspend, r.nicksuspendId = nickId → r.suspendId ≠ s.suspendId) :
    s ∈ (delNicksuspend db nickId).suspend := by
  rw [delNicksuspend]
  split_ifs with hn
  · dsimp only
    split_ifs with hzero
    · refine List.mem_filter.mpr ⟨hs, ?_⟩
      cases hlast : (db.nicksuspend.filter fun r ↦ r.nicksuspendId = nickId).getLast? with
      | none => simp [hlast] at hzero
      | some r =>
        have hr := List.mem_of_getLast? hlast
        rw [List.mem_filter, decide_eq_true_eq] at hr
        simpa using (hfree r hr.1 hr.2).symm
    · exact hs
  · exact hs

theorem unreferenced_removeRows_iff (hn : nickId ≠ 0) :
    Unreferenced nickId name (removeRows nickId name db) ↔
      (∀ r ∈ db.nicksuspend, r.nickId ≠ nickId) ∧ (∀ c ∈ db.channel, c.founder ≠ nickId) ∧
        ∀ r ∈ db.autojoin, r.nickId ≠ nickId := by
  refine ⟨fun h ↦ ⟨h.nicksuspend, fun c hc ↦ ?_, h.autojoin⟩, fun ⟨hsuspend, hfounder, hautojoin⟩ ↦
    ⟨fun r hr ↦ ?_, fun r hr ↦ ?_, hsuspend, fun c hc ↦ ?_, fun r hr ↦ ?_, fun r hr ↦ ?_,
      hautojoin, fun r hr ↦ ?_, fun r hr ↦ ?_, fun r hr ↦ ?_, fun r hr ↦ ?_⟩⟩
  · have hmem := (h.channel _ (List.mem_map_of_mem hc)).1
    split_ifs at hmem
    · exact hmem
    · exact hmem
  · obtain ⟨hmap, hne⟩ := List.mem_filter.mp hr
    obtain ⟨r₀, -, rfl⟩ := List.mem_map.mp hmap
    refine ⟨by simpa using hne, ?_⟩
    split_ifs with hlink
    · exact hn.symm
    · exact hlink
  · simpa using (List.mem_filter.mp hr).2
  · obtain ⟨c₀, hc₀, rfl⟩ := List.mem_map.mp hc
    split_ifs with hsuccessor
    · exact ⟨hfounder c₀ hc₀, hn.symm⟩
    · exact ⟨hfounder c₀ hc₀, hsuccessor⟩
  · simpa using (List.mem_filter.mp hr).2
  · simpa using (List.mem_filter.mp hr).2
  · simpa using (List.mem_filter.mp hr).2
  · simpa using (List.mem_filter.mp hr).2
  · simpa using (List.mem_filter.mp hr).2
  · simpa using (List.mem_filter.mp hr).2

theorem channelId_removeRows (c : ChannelRow) :
    (if c.successor = nickId then { c with successor := 0 } else c).channelId = c.channelId := by
  split_ifs <;> rfl

/-- The nick's channels that the whole deletion takes away are those the loops deleted. -/
theorem ownDeleted_iff (hkeys : Keys db) (h : Passed nickId db db₁ done moved rest)
    {c : ChannelRow} :
    OwnDeleted nickId db (removeRows nickId name (delchans db₁ (unsucceeded db₁ nickId))) c ↔
      c ∈ db.channel ∧ c.channelId ∈ droppedIds nickId db₁ done := by
  have hids : (∀ d ∈ (removeRows nickId name (delchans db₁ (unsucceeded db₁ nickId))).channel,
      d.channelId ≠ c.channelId) ↔
      ∀ d ∈ (delchans db₁ (unsucceeded db₁ nickId)).channel, d.channelId ≠ c.channelId := by
    refine List.forall_mem_map.trans (forall₂_congr fun d _ ↦ ?_)
    rw [channelId_removeRows]
  rw [OwnDeleted, hids]
  constructor
  · rintro ⟨hc, -, hgone⟩
    exact ⟨hc, (h.gone_iff hkeys hc).mp hgone⟩
  · rintro ⟨hc, hid⟩
    obtain ⟨c', hc', heq, hfounder⟩ := h.founder_of_mem_droppedIds hid
    rw [eq_of_channelId_eq hkeys hc' hc heq] at hfounder
    exact ⟨hc, hfounder, (h.gone_iff hkeys hc).mpr hid⟩

theorem ownDeletedId_iff (hkeys : Keys db) (h : Passed nickId db db₁ done moved rest) {id : ℕ} :
    OwnDeletedId nickId db (removeRows nickId name (delchans db₁ (unsucceeded db₁ nickId))) id ↔
      id ∈ droppedIds nickId db₁ done := by
  constructor
  · rintro ⟨c, hc, rfl⟩
    exact ((ownDeleted_iff hkeys h).mp hc).2
  · intro hid
    obtain ⟨c, hc, rfl, -⟩ := h.founder_of_mem_droppedIds hid
    exact ⟨c, (ownDeleted_iff hkeys h).mpr ⟨hc, hid⟩, rfl⟩

/-- A channel that stays has a row, which the last UPDATE changes in its successor only. -/
theorem mem_channel_removeRows {c : ChannelRow} (hc : c ∈ db.channel) :
    (if c.successor = nickId then { c with successor := 0 } else c) ∈
      (removeRows nickId name db).channel :=
  List.mem_map_of_mem hc

theorem untouched_removeRows (hkeys : Keys db) (hn : nickId ≠ 0)
    (hsuspend : ∀ r ∈ db.nicksuspend, r.nicksuspendId = nickId ↔ r.nickId = nickId)
    (h : Passed nickId (delNicksuspend db nickId) db₁ done moved []) :
    Untouched nickId name db
      (removeRows nickId name (delchans db₁ (unsucceeded db₁ nickId))) := by
  have hkeys₀ := keys_delNicksuspend hkeys nickId
  have hdrops := h.dropsOnly
  have hchannel := channel_delNicksuspend db nickId
  have hdel : delNicksuspend db nickId = { db with
      suspend := (delNicksuspend db nickId).suspend
      nicksuspend := db.nicksuspend.filter (·.nicksuspendId ≠ nickId) } := by
    rw [delNicksuspend, if_pos hn]
  have hown (c : ChannelRow) : OwnDeleted nickId db
      (removeRows nickId name (delchans db₁ (unsucceeded db₁ nickId))) c ↔
      c ∈ db.channel ∧ c.channelId ∈ droppedIds nickId db₁ done := by
    rw [← hchannel, ← ownDeleted_iff hkeys₀ h, OwnDeleted, OwnDeleted, hchannel]
  have hownId (id : ℕ) : OwnDeletedId nickId db
      (removeRows nickId name (delchans db₁ (unsucceeded db₁ nickId))) id ↔
      id ∈ droppedIds nickId db₁ done := by
    rw [← @ownDeletedId_iff nickId name _ _ _ _ _ hkeys₀ h, OwnDeletedId, OwnDeletedId]
    simp only [OwnDeleted, hchannel]
  refine ⟨fun r hr hne ↦ ?_, fun r hr hne ↦ ?_, fun r hr hne ↦ ?_, fun s hs hfree hchan ↦ ?_,
    fun r hr hid ↦ ?_, fun c hc hne ↦ ?_, fun c hc hfounder hkept ↦ ?_, fun r hr hne hid ↦ ?_,
    fun r hr hne hid ↦ ?_, fun r hr hid ↦ ?_, fun r hr hne hid ↦ ?_, fun r hr hne hother ↦ ?_,
    fun r hr hname hfree ↦ ?_, fun r hr hname hfree ↦ ?_, fun r hr hne ↦ ?_, fun r hr hne ↦ ?_⟩
  · refine List.mem_filter.mpr ⟨List.mem_map.mpr ⟨r, ?_, rfl⟩, ?_⟩
    · rwa [hdrops.nick, nick_delNicksuspend]
    · split_ifs <;> simpa using hne
  · refine List.mem_filter.mpr ⟨?_, by simpa using hne⟩
    rwa [hdrops.nickaccess, hdel]
  · have hmem : r ∈ (delNicksuspend db nickId).nicksuspend := by
      rw [nicksuspend_delNicksuspend hn, List.mem_filter, decide_eq_true_eq]
      exact ⟨hr, fun hid ↦ hne ((hsuspend r hr).mp hid)⟩
    rwa [← hdrops.nicksuspend] at hmem
  · refine hdrops.suspend s (mem_suspend_delNicksuspend hs fun r hr hid ↦ ?_) fun r hr hid ↦ ?_
    · exact hfree r hr ((hsuspend r hr).mp hid)
    · rw [hdel] at hr
      exact hchan r hr ((hownId _).mpr hid)
  · exact hdrops.chansuspend r (by rwa [hdel]) ((hownId _).not.mp hid)
  · refine mem_channel_removeRows (h.mem_final_iff.mpr ⟨?_, fun hown ↦ hne hown.1⟩)
    have hdone : c ∉ done := fun hdone ↦ hne (mem_succeeded.mp (h.mem_done hdone)).2.1
    have hmem := h.mem_channel hkeys₀ (hchannel.symm ▸ hc) hdone
    rwa [h.passOn_of_founder_ne hne] at hmem
  · have hid : c.channelId ∉ droppedIds nickId db₁ done := fun hid ↦
      hkept ((hown c).mpr ⟨hc, hid⟩)
    have hc₀ : c ∈ (delNicksuspend db nickId).channel := hchannel.symm ▸ hc
    have hdone : c ∉ done := fun hdone ↦
      hid (List.mem_append_left _ (List.mem_map_of_mem hdone))
    have hmem := h.mem_channel hkeys₀ hc₀ hdone
    have hfinal : passOn moved c ∈ (delchans db₁ (unsucceeded db₁ nickId)).channel := by
      refine h.mem_final_iff.mpr ⟨hmem, fun hown ↦ hid ?_⟩
      rw [← channelId_passOn moved c]
      exact mem_droppedIds_of_unsucceeded hmem hown.1 hown.2
    -- The nick keeps no channel, so this one changed hands.
    have hfounder' := (h.founder_iff hkeys₀).mpr rfl _ hfinal
    have hmoved : moved = some c := by
      by_contra hmoved
      rw [passOn, if_neg hmoved] at hfounder'
      exact hfounder' hfounder
    rw [passOn, if_pos hmoved] at hfinal
    have hrow := @mem_channel_removeRows nickId name _ _ hfinal
    rwa [if_neg hn.symm] at hrow
  · refine List.mem_filter.mpr ⟨?_, by simpa using hne⟩
    rw [hdrops.akick, List.mem_filter, decide_eq_true_eq, hdel]
    exact ⟨hr, (hownId _).not.mp hid⟩
  · refine List.mem_filter.mpr ⟨?_, by simpa using hne⟩
    rw [hdrops.chanaccess, List.mem_filter, decide_eq_true_eq, hdel]
    exact ⟨hr, (hownId _).not.mp hid⟩
  · have hmem : r ∈ (delchans db₁ (unsucceeded db₁ nickId)).chanlevel := by
      rw [hdrops.chanlevel, List.mem_filter, decide_eq_true_eq, hdel]
      exact ⟨hr, (hownId _).not.mp hid⟩
    exact hmem
  · exact hdrops.autojoin r (by rwa [hdel]) ((hownId _).not.mp hid)
  · refine hdrops.autojoin_same r (by rwa [hdel]) ((hownId _).not.mp (hother r hr rfl))
      fun s hs hid heq ↦ ?_
    rw [hdel] at hs
    exact hother s hs heq ((hownId _).mpr hid)
  · refine List.mem_filter.mpr ⟨hdrops.memo r (by rwa [hdel]) fun c hc hid ↦ ?_, by simpa using hname⟩
    exact hfree c ((hown c).mpr ⟨hchannel ▸ hc, hid⟩)
  · refine List.mem_filter.mpr
      ⟨hdrops.memoinfo r (by rwa [hdel]) fun c hc hid ↦ ?_, by simpa using hname⟩
    exact hfree c ((hown c).mpr ⟨hchannel ▸ hc, hid⟩)
  · refine List.mem_filter.mpr ⟨?_, by simpa using hne⟩
    rwa [hdrops.admin, hdel]
  · refine List.mem_filter.mpr ⟨?_, by simpa using hne⟩
    rwa [hdrops.oper, hdel]

end Result

/-- The deletion of a registered nick is complete and local exactly when suspensions and nicks agree
in their identifiers there, every successor but the last is at his limit, and the nick's autojoins
are on channels that go with it. -/
theorem mysqlDelnick_iff {db : Database} (hkeys : Keys db) {r : NickRow} (hr : r ∈ db.nick) :
    DelnickSpec r.nickId r.nick db (mysqlDelnick db r.nickId) ↔ Meets db r.nickId := by
  have hn := hkeys.nick_ne_zero r hr
  have hkeys₀ := keys_delNicksuspend hkeys r.nickId
  have hchannel := channel_delNicksuspend db r.nickId
  have hnick := nick_delNicksuspend db r.nickId
  obtain ⟨done, moved, rest, db₁, hpassed, hpass⟩ := exists_passChannels hkeys₀ r.nickId
  have hdrops := hpassed.dropsOnly
  have hsucceeded : succeeded (delNicksuspend db r.nickId) r.nickId = succeeded db r.nickId := by
    rw [succeeded, hchannel, succeeded]
  have hrest := hpassed.rest_iff
  rw [hsucceeded, allAtLimit_congr hnick hchannel] at hrest
  have hdropped (c : ChannelRow) :
      Dropped (delNicksuspend db r.nickId) r.nickId c ↔ Dropped db r.nickId c := by
    rw [Dropped, Dropped, hsucceeded, hchannel, allAtLimit_congr hnick hchannel]
  have hautojoin : (delNicksuspend db r.nickId).autojoin = db.autojoin := by
    rw [delNicksuspend, if_pos hn]
  have hnicksuspend := hdrops.nicksuspend
  rw [nicksuspend_delNicksuspend hn] at hnicksuspend
  rw [mysqlDelnick_eq hkeys hr, hpass, DelnickSpec, unreferenced_removeRows_iff hn,
    hpassed.founder_iff hkeys₀, hnicksuspend]
  constructor
  · rintro ⟨⟨hsuspend, hnone, hjoin⟩, huntouched⟩
    refine ⟨fun s hs ↦ ⟨fun hid ↦ ?_, fun hid ↦ ?_⟩, hrest.mp hnone, fun s hs hid ↦ ?_⟩
    · by_contra hne
      have hmem : s ∈ (delchans db₁ (unsucceeded db₁ r.nickId)).nicksuspend :=
        huntouched.nicksuspend s hs hne
      rw [hnicksuspend, List.mem_filter, decide_eq_true_eq] at hmem
      exact hmem.2 hid
    · by_contra hne
      refine hsuspend s ?_ hid
      rw [List.mem_filter, decide_eq_true_eq]
      exact ⟨hs, hne⟩
    · by_contra hno
      have hid' : s.channelId ∉ droppedIds r.nickId db₁ done := by
        intro hmem
        obtain ⟨c, hc, heq, -⟩ := hpassed.founder_of_mem_droppedIds hmem
        subst hnone
        rw [← heq, hpassed.mem_droppedIds_iff hkeys₀ hc, hdropped] at hmem
        exact hno ⟨c, hmem, heq⟩
      obtain ⟨idx, hidx⟩ := hdrops.autojoin s (by rwa [hautojoin]) hid'
      exact hjoin { s with idx } hidx hid
  · intro hmeets
    have hnone := hrest.mpr hmeets.succession
    subst hnone
    refine ⟨⟨fun s hs ↦ ?_, rfl, fun s hs hid ↦ ?_⟩,
      untouched_removeRows hkeys hn hmeets.nicksuspend hpassed⟩
    · rw [List.mem_filter, decide_eq_true_eq] at hs
      exact fun hid ↦ hs.2 ((hmeets.nicksuspend s hs.1).mpr hid)
    · obtain ⟨hgone, idx, hidx⟩ := hdrops.autojoin_old s hs
      rw [hautojoin] at hidx
      obtain ⟨c, hc, heq⟩ := hmeets.autojoin { s with idx } hidx hid
      have hc₀ : c ∈ (delNicksuspend db r.nickId).channel := hchannel.symm ▸ hc.1
      refine hgone ?_
      rw [← show c.channelId = s.channelId from heq, hpassed.mem_droppedIds_iff hkeys₀ hc₀, hdropped]
      exact hc

/-- Two nicks, of which the second is suspended, and a channel that passes from the first to the
second. -/
def twoNicks (nicksuspendId : ℕ) : Database where
  nick := [⟨1, "alice".toList, 0#32, 0, 0#32, 5⟩, ⟨2, "bob".toList, 0#32, 1, 0#32, 5⟩]
  nickaccess := [⟨1, 1, 1, "alice@*".toList⟩]
  nicksuspend := [⟨nicksuspendId, 2, 9⟩]
  suspend := [⟨9, "oper".toList, "flooding".toList⟩]
  chansuspend := []
  channel := [⟨4, "#lean".toList, 1, 2, 0#32⟩]
  akick := []
  chanaccess := []
  chanlevel := []
  autojoin := []
  memo := []
  memoinfo := [⟨1, "alice".toList, 20⟩, ⟨2, "bob".toList, 20⟩]
  admin := []
  oper := []

theorem keys_twoNicks (nicksuspendId : ℕ) : Keys (twoNicks nicksuspendId) where
  nick := by simp [twoNicks]
  nick_ne_zero := by simp [twoNicks]
  channel := by simp [twoNicks]

/-- The suspension of the second nick has an identifier of its own. -/
theorem mysqlDelnick_iff_twoNicks :
    DelnickSpec 1 "alice".toList (twoNicks 7) (mysqlDelnick (twoNicks 7) 1) ↔
      Meets (twoNicks 7) 1 :=
  mysqlDelnick_iff (keys_twoNicks 7) (List.mem_cons_self ..)

/-- Deleting the first nick takes away the suspension of the second, whose identifier is 1. -/
theorem mysqlDelnick_not_local :
    ¬ ∀ db, Keys db → ∀ r ∈ db.nick,
      DelnickSpec r.nickId r.nick db (mysqlDelnick db r.nickId) := by
  intro h
  have hspec := h (twoNicks 1) (keys_twoNicks 1) ⟨1, "alice".toList, 0#32, 0, 0#32, 5⟩
    (List.mem_cons_self ..)
  have hmem : (⟨1, 2, 9⟩ : NicksuspendRow) ∈ (mysqlDelnick (twoNicks 1) 1).nicksuspend :=
    hspec.2.nicksuspend ⟨1, 2, 9⟩ (List.mem_cons_self ..) (by decide)
  have hnone : (mysqlDelnick (twoNicks 1) 1).nicksuspend = [] := by decide
  rw [hnone] at hmem
  cases hmem

end BlitzedServices.NickServ
