import BlitzedServices.Mysql.Database

/-!
# Removing a nick from the channels

`csMysqlRemoveNick` passes the channels of a deleted nick to their successors and deletes those that
have none, or whose successor may not own more. `DropsOnly` says what a series of channel deletions
leaves alone; it composes, so one lemma about `mysqlDelchan` covers both loops.

The first loop stops early: the UPDATE that transfers a channel writes its count of rows into the
variable that bounds the loop. `succeedLoop_cases` gives the exact run.
-/

set_option autoImplicit false
set_option relaxedAutoImplicit false

namespace BlitzedServices.ChanServ

open Lib Mysql

/-! ### The limit of channels -/

def MAX_CHANNELCOUNT : ℕ := 65535

/-- `get_channelmax`. -/
def getChannelmax (db : Database) (nickId : ℕ) : ℕ :=
  match db.nick.find? fun r ↦ r.nickId = nickId with
  | some r => r.channelmax
  | none => 0

/-- `count_chans_reged_by`: the channels of a master nick and of the nicks linked to it. -/
def countChansRegedBy (db : Database) (nickId : ℕ) : ℕ :=
  let ids := (db.nick.filter fun r ↦ r.linkId = nickId).map NickRow.nickId
  (db.channel.filter fun c ↦ c.founder = nickId ∨ c.founder ∈ ids).length

/-- `check_chan_limit`: -1 below the limit, 0 at it and 1 over it. -/
def checkChanLimit (db : Database) (nickId : ℕ) : ℤ :=
  let master := mysqlGetlink db nickId
  let limit := if getChannelmax db master = 0 then MAX_CHANNELCOUNT else getChannelmax db master
  let count := countChansRegedBy db master
  if count < limit then -1 else if count = limit then 0 else 1

/-! ### Deleting a channel -/

/-- The rows that `renumber_autojoins` numbers, in the order of the channels' names. -/
def listedAutojoins (db : Database) (nickId : ℕ) : List AutojoinRow :=
  let name := fun r : AutojoinRow ↦ (getChannameFromId db r.channelId).getD []
  (db.autojoin.filter fun r ↦ r.nickId = nickId ∧ db.channel.any (·.channelId = r.channelId)).mergeSort
    fun r s ↦ stricmp (name r) (name s) ≤ 0

/-- `renumber_autojoins`. The REPLACE keeps a row's key, so it changes the number only. -/
def renumberAutojoins (db : Database) (nickId : ℕ) : Database :=
  { db with
    autojoin := db.autojoin.map fun r ↦
      if r ∈ listedAutojoins db nickId then
        { r with idx := (listedAutojoins db nickId).idxOf r + 1 }
      else r }

/-- A memo or its settings belong to the channel of that name, if it has one. -/
def ownedBy (name : Option CString) (owner : CString) : Bool :=
  name.any (sameName owner)

/-- The DELETE statements of `mysql_delchan`. -/
def deleteChannelRows (db : Database) (channelId : ℕ) : Database :=
  { db with
    channel := db.channel.filter (·.channelId ≠ channelId)
    akick := db.akick.filter (·.channelId ≠ channelId)
    chanaccess := db.chanaccess.filter (·.channelId ≠ channelId)
    chanlevel := db.chanlevel.filter (·.channelId ≠ channelId)
    suspend := db.suspend.filter fun s ↦
      !db.chansuspend.any fun r ↦ r.chanId = channelId ∧ r.suspendId = s.suspendId
    chansuspend := db.chansuspend.filter fun r ↦
      !(r.chanId = channelId ∧ db.suspend.any fun s ↦ s.suspendId = r.suspendId)
    memo := db.memo.filter fun r ↦ !ownedBy (getChannameFromId db channelId) r.owner
    memoinfo := db.memoinfo.filter fun r ↦ !ownedBy (getChannameFromId db channelId) r.owner
    autojoin := db.autojoin.filter (·.channelId ≠ channelId) }

/-- `mysql_delchan`. -/
def mysqlDelchan (db : Database) (channelId : ℕ) : Database :=
  let ids := (db.autojoin.filter (·.channelId = channelId)).map AutojoinRow.nickId
  ids.foldl renumberAutojoins (deleteChannelRows db channelId)

/-! ### `cs_mysql_remove_nick` -/

/-- The UPDATE that passes a channel to its successor, and the number of rows it changed. -/
def transferFoundership (db : Database) (nickId channelId successorId : ℕ) : Database × ℕ :=
  let hit := fun c : ChannelRow ↦
    c.channelId = channelId ∧ c.founder = nickId ∧ c.successor = successorId
  ({ db with
      channel := db.channel.map fun c ↦
        if hit c then { c with founder := successorId, successor := 0 } else c },
    (db.channel.filter hit).length)

/-- The loop over the channels with a successor. The UPDATE overwrites `rows`. -/
def succeedLoop (nickId : ℕ) : ℕ → ℕ → List ChannelRow → Database → Database
  | _, _, [], db => db
  | i, rows, c :: chans, db =>
    if i < rows then
      if checkChanLimit db c.successor ≠ -1 then
        succeedLoop nickId (i + 1) rows chans (mysqlDelchan db c.channelId)
      else
        let (db, rows) := transferFoundership db nickId c.channelId c.successor
        succeedLoop nickId (i + 1) rows chans db
    else db

/-- The channels of a nick that have a successor. -/
def succeeded (db : Database) (nickId : ℕ) : List ChannelRow :=
  db.channel.filter fun c ↦ c.founder = nickId ∧ c.successor ≠ 0

/-- The channels of a nick that have none. -/
def unsucceeded (db : Database) (nickId : ℕ) : List ChannelRow :=
  db.channel.filter fun c ↦ c.founder = nickId ∧ c.successor = 0

/-- Deleting several channels. -/
def delchans (db : Database) (chans : List ChannelRow) : Database :=
  chans.foldl (fun db c ↦ mysqlDelchan db c.channelId) db

/-- The two loops. -/
def passChannels (db : Database) (nickId : ℕ) : Database :=
  let chans := succeeded db nickId
  let db := succeedLoop nickId 0 chans.length chans db
  delchans db (unsucceeded db nickId)

/-- `cs_mysql_remove_nick`. -/
def csMysqlRemoveNick (db : Database) (nickId : ℕ) : Database :=
  let db := passChannels db nickId
  { db with
    chanaccess := db.chanaccess.filter (·.nickId ≠ nickId)
    akick := db.akick.filter (·.nickId ≠ nickId)
    channel := db.channel.map fun c ↦
      if c.successor = nickId then { c with successor := 0 } else c }

/-! ### What deleting channels leaves alone -/

/-- Only rows of the channels `ids` are gone; the autojoins of nicks that had one of these may be
numbered anew. -/
structure DropsOnly (ids : List ℕ) (db db' : Database) : Prop where
  nick : db'.nick = db.nick
  nickaccess : db'.nickaccess = db.nickaccess
  nicksuspend : db'.nicksuspend = db.nicksuspend
  admin : db'.admin = db.admin
  oper : db'.oper = db.oper
  akick : db'.akick = db.akick.filter (·.channelId ∉ ids)
  chanaccess : db'.chanaccess = db.chanaccess.filter (·.channelId ∉ ids)
  chanlevel : db'.chanlevel = db.chanlevel.filter (·.channelId ∉ ids)
  names : ∀ c ∈ db'.channel, ∃ c₀ ∈ db.channel, c₀.channelId = c.channelId ∧ c₀.name = c.name
  suspend : ∀ s ∈ db.suspend,
    (∀ r ∈ db.chansuspend, r.chanId ∈ ids → r.suspendId ≠ s.suspendId) → s ∈ db'.suspend
  chansuspend_subset : db'.chansuspend ⊆ db.chansuspend
  chansuspend : ∀ r ∈ db.chansuspend, r.chanId ∉ ids → r ∈ db'.chansuspend
  memo : ∀ r ∈ db.memo,
    (∀ c ∈ db.channel, c.channelId ∈ ids → sameName r.owner c.name = false) → r ∈ db'.memo
  memoinfo : ∀ r ∈ db.memoinfo,
    (∀ c ∈ db.channel, c.channelId ∈ ids → sameName r.owner c.name = false) → r ∈ db'.memoinfo
  autojoin : ∀ r ∈ db.autojoin, r.channelId ∉ ids → ∃ idx, { r with idx } ∈ db'.autojoin
  autojoin_same : ∀ r ∈ db.autojoin, r.channelId ∉ ids →
    (∀ s ∈ db.autojoin, s.channelId ∈ ids → s.nickId ≠ r.nickId) → r ∈ db'.autojoin
  autojoin_old : ∀ r ∈ db'.autojoin, r.channelId ∉ ids ∧ ∃ idx, { r with idx } ∈ db.autojoin

theorem DropsOnly.refl (db : Database) : DropsOnly [] db db where
  nick := rfl
  nickaccess := rfl
  nicksuspend := rfl
  admin := rfl
  oper := rfl
  akick := by simp
  chanaccess := by simp
  chanlevel := by simp
  names c hc := ⟨c, hc, rfl, rfl⟩
  suspend _ hs _ := hs
  chansuspend_subset := List.Subset.refl _
  chansuspend _ hr _ := hr
  memo _ hr _ := hr
  memoinfo _ hr _ := hr
  autojoin r hr _ := ⟨r.idx, hr⟩
  autojoin_same _ hr _ _ := hr
  autojoin_old r hr := ⟨List.not_mem_nil, r.idx, hr⟩

theorem DropsOnly.trans {ids₁ ids₂ : List ℕ} {db db₁ db₂ : Database}
    (h₁ : DropsOnly ids₁ db db₁) (h₂ : DropsOnly ids₂ db₁ db₂) :
    DropsOnly (ids₁ ++ ids₂) db db₂ where
  nick := h₂.nick.trans h₁.nick
  nickaccess := h₂.nickaccess.trans h₁.nickaccess
  nicksuspend := h₂.nicksuspend.trans h₁.nicksuspend
  admin := h₂.admin.trans h₁.admin
  oper := h₂.oper.trans h₁.oper
  akick := by
    rw [h₂.akick, h₁.akick, List.filter_filter]
    exact List.filter_congr fun r _ ↦ by simp [Bool.and_comm]
  chanaccess := by
    rw [h₂.chanaccess, h₁.chanaccess, List.filter_filter]
    exact List.filter_congr fun r _ ↦ by simp [Bool.and_comm]
  chanlevel := by
    rw [h₂.chanlevel, h₁.chanlevel, List.filter_filter]
    exact List.filter_congr fun r _ ↦ by simp [Bool.and_comm]
  names c hc := by
    obtain ⟨c₁, hc₁, hid₁, hname₁⟩ := h₂.names c hc
    obtain ⟨c₀, hc₀, hid₀, hname₀⟩ := h₁.names c₁ hc₁
    exact ⟨c₀, hc₀, hid₀.trans hid₁, hname₀.trans hname₁⟩
  suspend s hs hfree := by
    refine h₂.suspend s (h₁.suspend s hs fun r hr hid ↦ ?_) fun r hr hid ↦ ?_
    · exact hfree r hr (List.mem_append_left _ hid)
    · exact hfree r (h₁.chansuspend_subset hr) (List.mem_append_right _ hid)
  chansuspend_subset := fun _ hr ↦ h₁.chansuspend_subset (h₂.chansuspend_subset hr)
  chansuspend r hr hid := by
    rw [List.mem_append, not_or] at hid
    exact h₂.chansuspend r (h₁.chansuspend r hr hid.1) hid.2
  memo r hr hfree := by
    refine h₂.memo r (h₁.memo r hr fun c hc hid ↦ ?_) fun c hc hid ↦ ?_
    · exact hfree c hc (List.mem_append_left _ hid)
    · obtain ⟨c₀, hc₀, hid₀, hname₀⟩ := h₁.names c hc
      rw [← hname₀]
      exact hfree c₀ hc₀ (List.mem_append_right _ (hid₀ ▸ hid))
  memoinfo r hr hfree := by
    refine h₂.memoinfo r (h₁.memoinfo r hr fun c hc hid ↦ ?_) fun c hc hid ↦ ?_
    · exact hfree c hc (List.mem_append_left _ hid)
    · obtain ⟨c₀, hc₀, hid₀, hname₀⟩ := h₁.names c hc
      rw [← hname₀]
      exact hfree c₀ hc₀ (List.mem_append_right _ (hid₀ ▸ hid))
  autojoin r hr hid := by
    rw [List.mem_append, not_or] at hid
    obtain ⟨idx, hidx⟩ := h₁.autojoin r hr hid.1
    exact h₂.autojoin { r with idx } hidx hid.2
  autojoin_same r hr hid hother := by
    rw [List.mem_append, not_or] at hid
    refine h₂.autojoin_same r (h₁.autojoin_same r hr hid.1 fun s hs hsid ↦ ?_) hid.2
      fun s hs hsid ↦ ?_
    · exact hother s hs (List.mem_append_left _ hsid)
    · obtain ⟨-, idx, hidx⟩ := h₁.autojoin_old s hs
      exact hother { s with idx } hidx (List.mem_append_right _ hsid)
  autojoin_old r hr := by
    obtain ⟨hid₂, idx₂, hidx₂⟩ := h₂.autojoin_old r hr
    obtain ⟨hid₁, idx₁, hidx₁⟩ := h₁.autojoin_old _ hidx₂
    refine ⟨?_, idx₁, hidx₁⟩
    rw [List.mem_append, not_or]
    exact ⟨hid₁, hid₂⟩

/-- Only autojoins of the nicks `ids` are numbered anew. -/
structure Renumbers (ids : List ℕ) (db db' : Database) : Prop where
  rest : db' = { db with autojoin := db'.autojoin }
  new : ∀ r ∈ db.autojoin, ∃ idx, { r with idx } ∈ db'.autojoin
  same : ∀ r ∈ db.autojoin, r.nickId ∉ ids → r ∈ db'.autojoin
  old : ∀ r ∈ db'.autojoin, ∃ idx, { r with idx } ∈ db.autojoin

theorem nickId_of_mem_listedAutojoins {db : Database} {nickId : ℕ} {r : AutojoinRow}
    (h : r ∈ listedAutojoins db nickId) : r.nickId = nickId := by
  rw [listedAutojoins, List.mem_mergeSort, List.mem_filter, decide_eq_true_eq] at h
  exact h.2.1

theorem renumbers_renumberAutojoins (db : Database) (nickId : ℕ) :
    Renumbers [nickId] db (renumberAutojoins db nickId) where
  rest := rfl
  new r hr := by
    by_cases hlisted : r ∈ listedAutojoins db nickId
    · exact ⟨_, List.mem_map.mpr ⟨r, hr, if_pos hlisted⟩⟩
    · exact ⟨r.idx, List.mem_map.mpr ⟨r, hr, if_neg hlisted⟩⟩
  same r hr hid := by
    refine List.mem_map.mpr ⟨r, hr, if_neg fun hlisted ↦ ?_⟩
    exact hid (List.mem_singleton.mpr (nickId_of_mem_listedAutojoins hlisted))
  old r hr := by
    obtain ⟨r₀, hr₀, heq⟩ := List.mem_map.mp hr
    refine ⟨r₀.idx, ?_⟩
    rw [← heq]
    split_ifs
    · exact hr₀
    · exact hr₀

theorem renumbers_foldl (ids : List ℕ) (db : Database) :
    Renumbers ids db (ids.foldl renumberAutojoins db) := by
  induction ids generalizing db with
  | nil => exact ⟨rfl, fun r hr ↦ ⟨r.idx, hr⟩, fun _ hr _ ↦ hr, fun r hr ↦ ⟨r.idx, hr⟩⟩
  | cons id ids ih =>
    have h₁ := renumbers_renumberAutojoins db id
    have h₂ := ih (renumberAutojoins db id)
    refine ⟨?_, fun r hr ↦ ?_, fun r hr hid ↦ ?_, fun r hr ↦ ?_⟩
    · rw [List.foldl_cons, h₂.rest, h₁.rest]
    · obtain ⟨idx, hidx⟩ := h₁.new r hr
      exact h₂.new { r with idx } hidx
    · rw [List.mem_cons, not_or] at hid
      exact h₂.same r (h₁.same r hr (by simpa using hid.1)) hid.2
    · obtain ⟨idx, hidx⟩ := h₂.old r hr
      exact h₁.old { r with idx } hidx

theorem filter_notMem_singleton {α : Type} (key : α → ℕ) (id : ℕ) (l : List α) :
    l.filter (fun a ↦ key a ∉ [id]) = l.filter (fun a ↦ key a ≠ id) :=
  List.filter_congr fun a _ ↦ by simp

theorem dropsOnly_mysqlDelchan {db : Database} (hkeys : Keys db) {c : ChannelRow}
    (hc : c ∈ db.channel) : DropsOnly [c.channelId] db (mysqlDelchan db c.channelId) := by
  have hname := getChannameFromId_eq hkeys hc
  have hrenumber := renumbers_foldl
    ((db.autojoin.filter (·.channelId = c.channelId)).map AutojoinRow.nickId)
    (deleteChannelRows db c.channelId)
  have hrest : mysqlDelchan db c.channelId =
    { deleteChannelRows db c.channelId with
      autojoin := (mysqlDelchan db c.channelId).autojoin } := hrenumber.rest
  have hother {r : AutojoinRow} (hid : r.channelId ∉ [c.channelId]) (hr : r ∈ db.autojoin) :
      r ∈ (deleteChannelRows db c.channelId).autojoin :=
    List.mem_filter.mpr ⟨hr, by simpa using hid⟩
  refine ⟨by rw [hrest]; rfl, by rw [hrest]; rfl, by rw [hrest]; rfl, by rw [hrest]; rfl,
    by rw [hrest]; rfl, ?_, ?_, ?_, fun d hd ↦ ?_, fun s hs hfree ↦ ?_, fun r hr ↦ ?_,
    fun r hr hid ↦ ?_, fun r hr hfree ↦ ?_, fun r hr hfree ↦ ?_, fun r hr hid ↦ ?_,
    fun r hr hid hfree ↦ ?_, fun r hr ↦ ?_⟩
  · rw [hrest, filter_notMem_singleton]
    rfl
  · rw [hrest, filter_notMem_singleton]
    rfl
  · rw [hrest, filter_notMem_singleton]
    rfl
  · rw [hrest] at hd
    exact ⟨d, (List.mem_filter.mp hd).1, rfl, rfl⟩
  · rw [hrest]
    refine List.mem_filter.mpr ⟨hs, ?_⟩
    simpa using fun r hr hid ↦ hfree r hr (List.mem_singleton.mpr hid)
  · rw [hrest] at hr
    exact (List.mem_filter.mp hr).1
  · rw [hrest]
    refine List.mem_filter.mpr ⟨hr, ?_⟩
    simp [List.mem_singleton.not.mp hid]
  · rw [hrest]
    refine List.mem_filter.mpr ⟨hr, ?_⟩
    rw [hname]
    simpa [ownedBy] using hfree c hc (List.mem_singleton_self _)
  · rw [hrest]
    refine List.mem_filter.mpr ⟨hr, ?_⟩
    rw [hname]
    simpa [ownedBy] using hfree c hc (List.mem_singleton_self _)
  · exact hrenumber.new r (hother hid hr)
  · refine hrenumber.same r (hother hid hr) fun hmem ↦ ?_
    obtain ⟨s, hs, heq⟩ := List.mem_map.mp hmem
    rw [List.mem_filter, decide_eq_true_eq] at hs
    exact hfree s hs.1 (List.mem_singleton.mpr hs.2) heq
  · obtain ⟨idx, hidx⟩ := hrenumber.old r hr
    obtain ⟨hmem, hne⟩ := List.mem_filter.mp hidx
    exact ⟨by simpa using hne, idx, hmem⟩

theorem channel_mysqlDelchan (db : Database) (channelId : ℕ) :
    (mysqlDelchan db channelId).channel = db.channel.filter (·.channelId ≠ channelId) := by
  have hrest := (renumbers_foldl
    ((db.autojoin.filter (·.channelId = channelId)).map AutojoinRow.nickId)
    (deleteChannelRows db channelId)).rest
  rw [mysqlDelchan, hrest]
  rfl

theorem nick_mysqlDelchan (db : Database) (channelId : ℕ) :
    (mysqlDelchan db channelId).nick = db.nick := by
  have hrest := (renumbers_foldl
    ((db.autojoin.filter (·.channelId = channelId)).map AutojoinRow.nickId)
    (deleteChannelRows db channelId)).rest
  rw [mysqlDelchan, hrest]
  rfl

theorem keys_mysqlDelchan {db : Database} (h : Keys db) (channelId : ℕ) :
    Keys (mysqlDelchan db channelId) where
  nick := by
    rw [nick_mysqlDelchan]
    exact h.nick
  nick_ne_zero := by
    rw [nick_mysqlDelchan]
    exact h.nick_ne_zero
  channel := by
    rw [channel_mysqlDelchan]
    exact h.channel.sublist (List.filter_sublist.map _)

/-- The identifiers of channels. -/
def channelIds (chans : List ChannelRow) : List ℕ :=
  chans.map ChannelRow.channelId

theorem keys_delchans {db : Database} (h : Keys db) (chans : List ChannelRow) :
    Keys (delchans db chans) := by
  induction chans generalizing db with
  | nil => exact h
  | cons c chans ih => exact ih (keys_mysqlDelchan h c.channelId)

theorem channel_delchans (db : Database) (chans : List ChannelRow) :
    (delchans db chans).channel = db.channel.filter (·.channelId ∉ channelIds chans) := by
  induction chans generalizing db with
  | nil => simp [delchans, channelIds]
  | cons c chans ih =>
    have hcons : delchans db (c :: chans) = delchans (mysqlDelchan db c.channelId) chans := rfl
    rw [hcons, ih, channel_mysqlDelchan, List.filter_filter]
    exact List.filter_congr fun d _ ↦ by simp [channelIds, Bool.and_comm]

/-- Deleting different channels drops their rows only. -/
theorem dropsOnly_delchans {db : Database} (hkeys : Keys db) {chans : List ChannelRow}
    (hmem : ∀ c ∈ chans, c ∈ db.channel) (hnodup : (channelIds chans).Nodup) :
    DropsOnly (channelIds chans) db (delchans db chans) := by
  induction chans generalizing db with
  | nil => exact .refl db
  | cons c chans ih =>
    rw [channelIds, List.map_cons, List.nodup_cons] at hnodup
    have hc := dropsOnly_mysqlDelchan hkeys (hmem c (List.mem_cons_self ..))
    refine hc.trans (ih (keys_mysqlDelchan hkeys _) (fun d hd ↦ ?_) hnodup.2)
    rw [channel_mysqlDelchan, List.mem_filter, decide_eq_true_eq]
    refine ⟨hmem d (List.mem_cons_of_mem _ hd), fun heq ↦ hnodup.1 ?_⟩
    rw [← heq]
    exact List.mem_map_of_mem hd

theorem checkChanLimit_congr {db db' : Database} (hnick : db'.nick = db.nick)
    (hchannel : db'.channel = db.channel) (nickId : ℕ) :
    checkChanLimit db' nickId = checkChanLimit db nickId := by
  have hlink : mysqlGetlink db' nickId = mysqlGetlink db nickId := by
    rw [mysqlGetlink, mysqlGetlink, hnick]
  have hmax (id : ℕ) : getChannelmax db' id = getChannelmax db id := by
    rw [getChannelmax, getChannelmax, hnick]
  have hcount (id : ℕ) : countChansRegedBy db' id = countChansRegedBy db id := by
    rw [countChansRegedBy, countChansRegedBy, hnick, hchannel]
  rw [checkChanLimit, checkChanLimit, hlink, hmax, hcount]

/-! ### The run of the first loop -/

/-- Each successor is at his limit when the channels before his are gone. -/
def AllAtLimit (db : Database) : List ChannelRow → Prop
  | [] => True
  | c :: chans => checkChanLimit db c.successor ≠ -1 ∧
      AllAtLimit (mysqlDelchan db c.channelId) chans

theorem allAtLimit_append (db : Database) (chans rest : List ChannelRow) :
    AllAtLimit db (chans ++ rest) ↔
      AllAtLimit db chans ∧ AllAtLimit (delchans db chans) rest := by
  induction chans generalizing db with
  | nil => simp [AllAtLimit, delchans]
  | cons c chans ih =>
    rw [List.cons_append, AllAtLimit, AllAtLimit, ih, and_assoc]
    rfl

theorem allAtLimit_congr {db db' : Database} (hnick : db'.nick = db.nick)
    (hchannel : db'.channel = db.channel) (chans : List ChannelRow) :
    AllAtLimit db' chans ↔ AllAtLimit db chans := by
  induction chans generalizing db db' with
  | nil => rfl
  | cons c chans ih =>
    rw [AllAtLimit, AllAtLimit, checkChanLimit_congr hnick hchannel]
    refine and_congr_right fun _ ↦ ih ?_ ?_
    · rw [nick_mysqlDelchan, nick_mysqlDelchan, hnick]
    · rw [channel_mysqlDelchan, channel_mysqlDelchan, hchannel]

theorem length_filter_le_one {α : Type} {key : α → ℕ} {l : List α} (h : (l.map key).Nodup)
    {p : α → Bool} {id : ℕ} (hp : ∀ a, p a = true → key a = id) : (l.filter p).length ≤ 1 := by
  have hids : ((l.filter p).map key).Nodup := h.sublist (List.filter_sublist.map _)
  have hreplicate : (l.filter p).map key = List.replicate ((l.filter p).map key).length id := by
    refine List.eq_replicate_of_mem fun k hk ↦ ?_
    obtain ⟨a, ha, rfl⟩ := List.mem_map.mp hk
    exact hp a (List.mem_filter.mp ha).2
  rw [hreplicate, List.nodup_replicate, List.length_map] at hids
  exact hids

theorem transferFoundership_rows {db : Database} (hkeys : Keys db)
    (nickId channelId successorId : ℕ) :
    (transferFoundership db nickId channelId successorId).2 ≤ 1 :=
  length_filter_le_one hkeys.channel fun _ hc ↦ (of_decide_eq_true hc).1

theorem succeedLoop_of_rows_le {nickId i rows : ℕ} (h : rows ≤ i) (chans : List ChannelRow)
    (db : Database) : succeedLoop nickId i rows chans db = db := by
  cases chans with
  | nil => rfl
  | cons c chans => rw [succeedLoop, if_neg (by omega)]

/-- The loop deletes channels until a successor is below his limit, transfers that channel and
ends. -/
theorem succeedLoop_cases {nickId i rows : ℕ} {chans : List ChannelRow} {db : Database}
    (hkeys : Keys db) (hrows : rows = i + chans.length) :
    (AllAtLimit db chans ∧ succeedLoop nickId i rows chans db = delchans db chans) ∨
      ∃ done c rest, chans = done ++ c :: rest ∧ AllAtLimit db done ∧
        checkChanLimit (delchans db done) c.successor = -1 ∧
        succeedLoop nickId i rows chans db =
          (transferFoundership (delchans db done) nickId c.channelId c.successor).1 := by
  induction chans generalizing i db with
  | nil => exact .inl ⟨trivial, rfl⟩
  | cons c chans ih =>
    rw [List.length_cons] at hrows
    rw [succeedLoop, if_pos (by omega)]
    by_cases hlimit : checkChanLimit db c.successor = -1
    · rw [if_neg (by simpa using hlimit)]
      refine .inr ⟨[], c, chans, rfl, trivial, hlimit, ?_⟩
      have hone := transferFoundership_rows hkeys nickId c.channelId c.successor
      exact succeedLoop_of_rows_le (hone.trans (Nat.le_add_left 1 i)) chans _
    · rw [if_pos hlimit]
      obtain ⟨hall, hloop⟩ | ⟨done, d, rest, hsplit, hall, hd, hloop⟩ :=
        @ih (i + 1) _ (keys_mysqlDelchan hkeys c.channelId) (by omega)
      · exact .inl ⟨⟨hlimit, hall⟩, hloop⟩
      · exact .inr ⟨c :: done, d, rest, by rw [hsplit, List.cons_append], ⟨hlimit, hall⟩, hd, hloop⟩

/-- The row of a channel after the channel `moved` went to its successor. -/
def passOn (moved : Option ChannelRow) (c : ChannelRow) : ChannelRow :=
  if moved = some c then { c with founder := c.successor, successor := 0 } else c

/-- The state after the first loop: the channels `done` are deleted, `moved` went to its successor and
`rest` was not reached. -/
structure Passed (nickId : ℕ) (db db' : Database) (done : List ChannelRow)
    (moved : Option ChannelRow) (rest : List ChannelRow) : Prop where
  split : succeeded db nickId = done ++ (moved.toList ++ rest)
  drops : DropsOnly (channelIds done) db db'
  keys : Keys db'
  channel : db'.channel = (db.channel.filter (·.channelId ∉ channelIds done)).map (passOn moved)
  limit : AllAtLimit db done
  stop : ∀ c ∈ moved, checkChanLimit (delchans db done) c.successor = -1
  reached : moved = none → rest = []

theorem eq_of_channelId_eq {db : Database} (h : Keys db) {c d : ChannelRow} (hc : c ∈ db.channel)
    (hd : d ∈ db.channel) (heq : c.channelId = d.channelId) : c = d :=
  List.inj_on_of_nodup_map h.channel hc hd heq

theorem mem_succeeded {db : Database} {nickId : ℕ} {c : ChannelRow} :
    c ∈ succeeded db nickId ↔ c ∈ db.channel ∧ c.founder = nickId ∧ c.successor ≠ 0 := by
  rw [succeeded, List.mem_filter, decide_eq_true_eq]

theorem mem_unsucceeded {db : Database} {nickId : ℕ} {c : ChannelRow} :
    c ∈ unsucceeded db nickId ↔ c ∈ db.channel ∧ c.founder = nickId ∧ c.successor = 0 := by
  rw [unsucceeded, List.mem_filter, decide_eq_true_eq]

/-- Moving one channel changes founder and successor of its row only. -/
theorem dropsOnly_transferFoundership (db : Database) (nickId channelId successorId : ℕ) :
    DropsOnly [] db (transferFoundership db nickId channelId successorId).1 := by
  have hrefl := DropsOnly.refl db
  refine { hrefl with names := fun c hc ↦ ?_ }
  obtain ⟨c₀, hc₀, heq⟩ := List.mem_map.mp hc
  refine ⟨c₀, hc₀, ?_⟩
  rw [← heq]
  split_ifs
  · exact ⟨rfl, rfl⟩
  · exact ⟨rfl, rfl⟩

theorem channel_transferFoundership {db : Database} (hkeys : Keys db) {c : ChannelRow}
    (hc : c ∈ db.channel) :
    (transferFoundership db c.founder c.channelId c.successor).1.channel =
      db.channel.map (passOn (some c)) := by
  refine List.map_congr_left fun d hd ↦ ?_
  by_cases hdc : d = c
  · simp [hdc, passOn]
  · have hid : ¬ d.channelId = c.channelId := fun h ↦ hdc (eq_of_channelId_eq hkeys hd hc h)
    simp [hid, passOn, Ne.symm hdc]

theorem channelId_passOn (moved : Option ChannelRow) (c : ChannelRow) :
    (passOn moved c).channelId = c.channelId := by
  rw [passOn]
  split_ifs <;> rfl

theorem keys_map_passOn {db db' : Database} (h : Keys db) (hnick : db'.nick = db.nick)
    {moved : Option ChannelRow} (hchannel : db'.channel = db.channel.map (passOn moved)) :
    Keys db' where
  nick := hnick ▸ h.nick
  nick_ne_zero := hnick ▸ h.nick_ne_zero
  channel := by
    have hids : (db.channel.map (passOn moved)).map ChannelRow.channelId =
        db.channel.map ChannelRow.channelId := by
      rw [List.map_map]
      exact List.map_congr_left fun c _ ↦ channelId_passOn moved c
    rw [hchannel, hids]
    exact h.channel

theorem exists_passed {db : Database} (hkeys : Keys db) (nickId : ℕ) :
    ∃ done moved rest, Passed nickId db
      (succeedLoop nickId 0 (succeeded db nickId).length (succeeded db nickId) db)
      done moved rest := by
  have hnodup : (channelIds (succeeded db nickId)).Nodup :=
    hkeys.channel.sublist (List.filter_sublist.map _)
  have hmem : ∀ c ∈ succeeded db nickId, c ∈ db.channel := fun c hc ↦ (mem_succeeded.mp hc).1
  obtain ⟨hall, hloop⟩ | ⟨done, c, rest, hsplit, hall, hlimit, hloop⟩ :=
    @succeedLoop_cases nickId 0 _ (succeeded db nickId) db hkeys (Nat.zero_add _).symm
  · refine ⟨succeeded db nickId, none, [], ?_⟩
    rw [hloop]
    refine ⟨by simp, dropsOnly_delchans hkeys hmem hnodup, keys_delchans hkeys _, ?_, hall,
      fun c hc ↦ (Option.not_mem_none c hc).elim, fun _ ↦ rfl⟩
    have hpass : passOn none = id := funext fun c ↦ if_neg (Option.some_ne_none c).symm
    rw [channel_delchans, hpass, List.map_id]
  · refine ⟨done, some c, rest, ?_⟩
    have hc : c ∈ succeeded db nickId := by simp [hsplit]
    have hdone : ∀ d ∈ done, d ∈ succeeded db nickId := fun d hd ↦ by simp [hsplit, hd]
    rw [hsplit, channelIds, List.map_append, List.map_cons, List.nodup_append] at hnodup
    have hfounder := (mem_succeeded.mp hc).2.1
    have hc' : c ∈ (delchans db done).channel := by
      rw [channel_delchans, List.mem_filter, decide_eq_true_eq]
      exact ⟨hmem c hc, fun h ↦ hnodup.2.2 _ h _ (List.mem_cons_self ..) rfl⟩
    have hchannel := channel_transferFoundership (keys_delchans hkeys done) hc'
    have hdrops := dropsOnly_transferFoundership (delchans db done) nickId c.channelId c.successor
    have hall' := dropsOnly_delchans hkeys (fun d hd ↦ hmem d (hdone d hd)) hnodup.1
    rw [hfounder] at hchannel
    rw [hloop]
    refine ⟨by simp [hsplit], ?_, keys_map_passOn (keys_delchans hkeys done) hdrops.nick hchannel,
      ?_, hall, ?_, fun h ↦ (Option.some_ne_none c h).elim⟩
    · have htrans := hall'.trans hdrops
      rwa [List.append_nil] at htrans
    · rw [hchannel, channel_delchans]
    · intro d hd
      rw [Option.mem_some_iff.mp hd] at hlimit
      exact hlimit

theorem exists_passChannels {db : Database} (hkeys : Keys db) (nickId : ℕ) :
    ∃ done moved rest db₁, Passed nickId db db₁ done moved rest ∧
      passChannels db nickId = delchans db₁ (unsucceeded db₁ nickId) := by
  obtain ⟨done, moved, rest, hpassed⟩ := exists_passed hkeys nickId
  exact ⟨done, moved, rest, _, hpassed, rfl⟩

/-- The channels of a nick that are deleted with it when the first loop reaches all of them: those
without a successor, or with the nick itself, and those whose successor is at his limit. -/
def Dropped (db : Database) (nickId : ℕ) (c : ChannelRow) : Prop :=
  c ∈ db.channel ∧ c.founder = nickId ∧
    (c.successor = 0 ∨ c.successor = nickId ∨ c ∈ (succeeded db nickId).dropLast ∨
      AllAtLimit db (succeeded db nickId))

section Passed

variable {nickId : ℕ} {db db₁ : Database} {done rest : List ChannelRow}
  {moved : Option ChannelRow}

theorem Passed.mem_done (h : Passed nickId db db₁ done moved rest) {c : ChannelRow}
    (hc : c ∈ done) : c ∈ succeeded db nickId := by
  rw [h.split]
  exact List.mem_append_left _ hc

theorem Passed.mem_moved (h : Passed nickId db db₁ done moved rest) {c : ChannelRow}
    (hc : moved = some c) : c ∈ succeeded db nickId := by
  rw [h.split, hc]
  simp

/-- Only a channel of the nick changes hands. -/
theorem Passed.passOn_of_founder_ne (h : Passed nickId db db₁ done moved rest) {c : ChannelRow}
    (hc : c.founder ≠ nickId) : passOn moved c = c :=
  if_neg fun hmoved ↦ hc (mem_succeeded.mp (h.mem_moved hmoved)).2.1

theorem Passed.founder_of_mem_done (hkeys : Keys db) (h : Passed nickId db db₁ done moved rest)
    {c : ChannelRow} (hc : c ∈ db.channel) (hid : c.channelId ∈ channelIds done) : c ∈ done := by
  obtain ⟨d, hd, heq⟩ := List.mem_map.mp hid
  have hdc := eq_of_channelId_eq hkeys (mem_succeeded.mp (h.mem_done hd)).1 hc heq
  rwa [← hdc]

theorem Passed.mem_channel (hkeys : Keys db) (h : Passed nickId db db₁ done moved rest)
    {c : ChannelRow} (hc : c ∈ db.channel) (hdone : c ∉ done) :
    passOn moved c ∈ db₁.channel := by
  rw [h.channel]
  refine List.mem_map_of_mem ?_
  rw [List.mem_filter, decide_eq_true_eq]
  exact ⟨hc, fun hid ↦ hdone (h.founder_of_mem_done hkeys hc hid)⟩

theorem Passed.exists_of_mem_channel (h : Passed nickId db db₁ done moved rest)
    {d : ChannelRow} (hd : d ∈ db₁.channel) : ∃ c ∈ db.channel, c ∉ done ∧ passOn moved c = d := by
  rw [h.channel] at hd
  obtain ⟨c, hc, heq⟩ := List.mem_map.mp hd
  rw [List.mem_filter, decide_eq_true_eq] at hc
  exact ⟨c, hc.1, fun hdone ↦ hc.2 (List.mem_map_of_mem hdone), heq⟩

/-- The identifiers of all channels that are deleted. -/
def droppedIds (nickId : ℕ) (db₁ : Database) (done : List ChannelRow) : List ℕ :=
  channelIds done ++ channelIds (unsucceeded db₁ nickId)

theorem Passed.dropsOnly (h : Passed nickId db db₁ done moved rest) :
    DropsOnly (droppedIds nickId db₁ done) db (delchans db₁ (unsucceeded db₁ nickId)) := by
  have hnodup : (channelIds (unsucceeded db₁ nickId)).Nodup :=
    h.keys.channel.sublist (List.filter_sublist.map _)
  exact h.drops.trans (dropsOnly_delchans h.keys (fun c hc ↦ (mem_unsucceeded.mp hc).1) hnodup)

theorem Passed.mem_final_iff (h : Passed nickId db db₁ done moved rest) {d : ChannelRow} :
    d ∈ (delchans db₁ (unsucceeded db₁ nickId)).channel ↔
      d ∈ db₁.channel ∧ ¬ (d.founder = nickId ∧ d.successor = 0) := by
  rw [channel_delchans, List.mem_filter, decide_eq_true_eq]
  refine and_congr_right fun hd ↦ not_congr ⟨fun hid ↦ ?_, fun hown ↦ ?_⟩
  · obtain ⟨c, hc, heq⟩ := List.mem_map.mp hid
    have hc' := mem_unsucceeded.mp hc
    rw [← eq_of_channelId_eq h.keys hc'.1 hd heq]
    exact hc'.2
  · exact List.mem_map_of_mem (mem_unsucceeded.mpr ⟨hd, hown⟩)

/-- The nick keeps no channel exactly when the first loop reached all of them. -/
theorem Passed.founder_iff (hkeys : Keys db)
    (h : Passed nickId db db₁ done moved rest) :
    (∀ d ∈ (delchans db₁ (unsucceeded db₁ nickId)).channel, d.founder ≠ nickId) ↔ rest = [] := by
  have hids : (succeeded db nickId).Nodup :=
    (List.Nodup.of_map _ hkeys.channel).sublist List.filter_sublist
  rw [h.split, List.nodup_append] at hids
  refine ⟨fun hfounder ↦ ?_, fun hrest d hd hfounder ↦ ?_⟩
  · by_contra hrest
    obtain ⟨c, rest, rfl⟩ := List.exists_cons_of_ne_nil hrest
    have hc : c ∈ succeeded db nickId := by simp [h.split]
    have hmoved : moved ≠ some c := by
      rintro rfl
      simpa using hids.2.1
    have hdone : c ∉ done := fun hdone ↦ hids.2.2 c hdone c (by simp) rfl
    obtain ⟨hc, hcf, hcs⟩ := mem_succeeded.mp hc
    have hmem := h.mem_channel hkeys hc hdone
    rw [passOn, if_neg hmoved] at hmem
    exact hfounder c (h.mem_final_iff.mpr ⟨hmem, fun hown ↦ hcs hown.2⟩) hcf
  · obtain ⟨hd₁, hown⟩ := h.mem_final_iff.mp hd
    obtain ⟨c, hc, hdone, rfl⟩ := h.exists_of_mem_channel hd₁
    rw [passOn] at hfounder hown
    by_cases hmoved : moved = some c
    · rw [if_pos hmoved] at hown hfounder
      exact hown ⟨hfounder, rfl⟩
    · rw [if_neg hmoved] at hown hfounder
      have hsucc : c ∈ succeeded db nickId :=
        mem_succeeded.mpr ⟨hc, hfounder, fun hzero ↦ hown ⟨hfounder, hzero⟩⟩
      rw [h.split, hrest, List.append_nil, List.mem_append, Option.mem_toList] at hsucc
      exact hsucc.elim hdone hmoved

/-- It reached all of them exactly when every successor but the last is at his limit. -/
theorem Passed.rest_iff (h : Passed nickId db db₁ done moved rest) :
    rest = [] ↔ AllAtLimit db (succeeded db nickId).dropLast := by
  rw [h.split]
  cases hmoved : moved with
  | none =>
    have hrest := h.reached hmoved
    have hlimit := h.limit
    rw [hrest]
    refine iff_of_true rfl ?_
    simp only [Option.toList_none, List.append_nil]
    obtain hdone | ⟨front, c, hdone⟩ := List.eq_nil_or_concat done
    · rw [hdone]
      trivial
    · rw [hdone, List.concat_eq_append, allAtLimit_append] at hlimit
      rw [hdone, List.concat_eq_append, List.dropLast_concat]
      exact hlimit.1
  | some c =>
    have hstop := h.stop c hmoved
    cases hrest : rest with
    | nil =>
      refine iff_of_true rfl ?_
      simpa using h.limit
    | cons d rest =>
      refine iff_of_false (List.cons_ne_nil d rest) fun hall ↦ ?_
      have hsplit : (done ++ ((some c).toList ++ d :: rest)).dropLast =
          done ++ c :: (d :: rest).dropLast := by
        simp [List.dropLast_append_of_ne_nil]
      rw [hsplit, allAtLimit_append] at hall
      exact hall.2.1 hstop

/-- A deleted channel is one of the nick's. -/
theorem Passed.founder_of_mem_droppedIds (h : Passed nickId db db₁ done moved rest) {id : ℕ}
    (hid : id ∈ droppedIds nickId db₁ done) :
    ∃ c ∈ db.channel, c.channelId = id ∧ c.founder = nickId := by
  rcases List.mem_append.mp hid with hid | hid
  · obtain ⟨c, hc, heq⟩ := List.mem_map.mp hid
    obtain ⟨hmem, hfounder, -⟩ := mem_succeeded.mp (h.mem_done hc)
    exact ⟨c, hmem, heq, hfounder⟩
  · obtain ⟨d, hd, heq⟩ := List.mem_map.mp hid
    obtain ⟨hd₁, hfounder, -⟩ := mem_unsucceeded.mp hd
    obtain ⟨c, hc, -, rfl⟩ := h.exists_of_mem_channel hd₁
    refine ⟨c, hc, (channelId_passOn moved c).symm.trans heq, ?_⟩
    by_cases hmoved : moved = some c
    · exact (mem_succeeded.mp (h.mem_moved hmoved)).2.1
    · rwa [passOn, if_neg hmoved] at hfounder

theorem mem_droppedIds_of_unsucceeded {d : ChannelRow} (hd : d ∈ db₁.channel)
    (hfounder : d.founder = nickId) (hsuccessor : d.successor = 0) :
    d.channelId ∈ droppedIds nickId db₁ done :=
  List.mem_append_right _ (List.mem_map_of_mem (mem_unsucceeded.mpr ⟨hd, hfounder, hsuccessor⟩))

/-- The channels that are gone are those deleted. -/
theorem Passed.gone_iff (hkeys : Keys db) (h : Passed nickId db db₁ done moved rest)
    {c : ChannelRow} (hc : c ∈ db.channel) :
    (∀ d ∈ (delchans db₁ (unsucceeded db₁ nickId)).channel, d.channelId ≠ c.channelId) ↔
      c.channelId ∈ droppedIds nickId db₁ done := by
  refine ⟨fun hgone ↦ ?_, fun hid d hd heq ↦ ?_⟩
  · by_contra hid
    have hdone : c ∉ done := fun hdone ↦
      hid (List.mem_append_left _ (List.mem_map_of_mem hdone))
    have hmem := h.mem_channel hkeys hc hdone
    refine hgone _ (h.mem_final_iff.mpr ⟨hmem, fun hown ↦ hid ?_⟩) (channelId_passOn moved c)
    rw [← channelId_passOn moved c]
    exact mem_droppedIds_of_unsucceeded hmem hown.1 hown.2
  · obtain ⟨hd₁, hown⟩ := h.mem_final_iff.mp hd
    rcases List.mem_append.mp hid with hid | hid
    · obtain ⟨c', hc', hdone, rfl⟩ := h.exists_of_mem_channel hd₁
      rw [channelId_passOn] at heq
      rw [eq_of_channelId_eq hkeys hc' hc heq] at hdone
      exact hdone (h.founder_of_mem_done hkeys hc hid)
    · obtain ⟨u, hu, hid⟩ := List.mem_map.mp hid
      obtain ⟨hu₁, hfounder, hsuccessor⟩ := mem_unsucceeded.mp hu
      rw [eq_of_channelId_eq h.keys hu₁ hd₁ (hid.trans heq.symm)] at hfounder hsuccessor
      exact hown ⟨hfounder, hsuccessor⟩

/-- When the first loop reached all channels, the deleted ones are those that `Dropped` names. -/
theorem Passed.mem_droppedIds_iff (hkeys : Keys db)
    (h : Passed nickId db db₁ done moved []) {c : ChannelRow} (hc : c ∈ db.channel) :
    c.channelId ∈ droppedIds nickId db₁ done ↔ Dropped db nickId c := by
  have hsplit := h.split
  rw [List.append_nil] at hsplit
  -- The moved channel is the last one, and then not all successors are at their limits.
  have hlast : done = (succeeded db nickId).dropLast ∨
      moved = none ∧ AllAtLimit db (succeeded db nickId) := by
    cases hmoved : moved with
    | none =>
      rw [hmoved, Option.toList_none, List.append_nil] at hsplit
      exact .inr ⟨rfl, hsplit ▸ h.limit⟩
    | some d => exact .inl (by rw [hsplit, hmoved, Option.toList_some, List.dropLast_concat])
  constructor
  · intro hid
    rcases List.mem_append.mp hid with hid | hid
    · have hdone := h.founder_of_mem_done hkeys hc hid
      refine ⟨hc, (mem_succeeded.mp (h.mem_done hdone)).2.1, .inr (.inr ?_)⟩
      rcases hlast with hlast | hall
      · exact .inl (hlast ▸ hdone)
      · exact .inr hall.2
    · obtain ⟨d, hd, heq⟩ := List.mem_map.mp hid
      obtain ⟨hd₁, hfounder, hsuccessor⟩ := mem_unsucceeded.mp hd
      obtain ⟨c', hc', -, rfl⟩ := h.exists_of_mem_channel hd₁
      rw [channelId_passOn] at heq
      obtain rfl := eq_of_channelId_eq hkeys hc' hc heq
      by_cases hmoved : moved = some c'
      · rw [passOn, if_pos hmoved] at hfounder
        exact ⟨hc, (mem_succeeded.mp (h.mem_moved hmoved)).2.1, .inr (.inl hfounder)⟩
      · rw [passOn, if_neg hmoved] at hfounder hsuccessor
        exact ⟨hc, hfounder, .inl hsuccessor⟩
  · rintro ⟨-, hfounder, hcase⟩
    by_cases hzero : c.successor = 0
    · have hdone : c ∉ done := fun hdone ↦ (mem_succeeded.mp (h.mem_done hdone)).2.2 hzero
      have hmoved : moved ≠ some c := fun hmoved ↦
        (mem_succeeded.mp (h.mem_moved hmoved)).2.2 hzero
      have hmem := h.mem_channel hkeys hc hdone
      rw [passOn, if_neg hmoved] at hmem
      exact mem_droppedIds_of_unsucceeded hmem hfounder hzero
    · have hsucc : c ∈ done ++ moved.toList := by
        rw [← hsplit]
        exact mem_succeeded.mpr ⟨hc, hfounder, hzero⟩
      rw [List.mem_append, Option.mem_toList] at hsucc
      rcases hsucc with hdone | hmoved
      · exact List.mem_append_left _ (List.mem_map_of_mem hdone)
      · have hdone : c ∉ done := by
          have hids : (succeeded db nickId).Nodup :=
            (List.Nodup.of_map _ hkeys.channel).sublist List.filter_sublist
          rw [hsplit, List.nodup_append] at hids
          exact fun hdone ↦ hids.2.2 c hdone c (by simp [hmoved]) rfl
        rw [hmoved, Option.toList_some] at hsplit
        have hself : c.successor = nickId := by
          obtain hzero' | hself | hfront | hall := hcase
          · exact absurd hzero' hzero
          · exact hself
          · rw [hsplit, List.dropLast_concat] at hfront
            exact absurd hfront hdone
          · rw [hsplit, allAtLimit_append] at hall
            exact absurd (h.stop c hmoved) hall.2.1
        have hmem := h.mem_channel hkeys hc hdone
        have hid := @mem_droppedIds_of_unsucceeded nickId db₁ done _ hmem
        rw [passOn, if_pos hmoved] at hid
        exact hid hself rfl

end Passed

end BlitzedServices.ChanServ
