import BlitzedServices.ChanServ.RemoveNick

/-!
# Channel succession

What should become of the channels of a nick that goes away: each has a turn, in the order of the
table, and goes to its successor if he can take it then. `SuccessionSpec` says what should hold
afterwards, and `csMysqlRemoveNick_iff` gives the states in which `csMysqlRemoveNick` brings it
about: the turn after a channel was transferred never comes.
-/

set_option autoImplicit false
set_option relaxedAutoImplicit false

namespace BlitzedServices.ChanServ

open Lib Mysql

/-! ### Turns -/

/-- The successor of a channel can take it: he is a registered nick below his limit. -/
def CanSucceed (db : Database) (c : ChannelRow) : Prop :=
  (∃ r ∈ db.nick, r.nickId = c.successor) ∧ checkChanLimit db c.successor = -1

instance (db : Database) (c : ChannelRow) : Decidable (CanSucceed db c) :=
  inferInstanceAs (Decidable ((∃ r ∈ db.nick, r.nickId = c.successor) ∧
    checkChanLimit db c.successor = -1))

/-- What should happen at the turn of a channel. -/
def succeedTurn (nickId : ℕ) (db : Database) (c : ChannelRow) : Database :=
  if CanSucceed db c then (transferFoundership db nickId c.channelId c.successor).1
  else mysqlDelchan db c.channelId

/-- The channels with the states at their turns. -/
def turns (nickId : ℕ) : List ChannelRow → Database → List (ChannelRow × Database)
  | [], _ => []
  | c :: chans, db => (c, db) :: turns nickId chans (succeedTurn nickId db c)

/-- At its turn the channel has a successor who can take it. -/
def Succeeds (db : Database) (nickId : ℕ) (c : ChannelRow) : Prop :=
  ∃ db₀, (c, db₀) ∈ turns nickId (succeeded db nickId) db ∧ CanSucceed db₀ c

/-- The nick is gone from the channels: each of its own went to a successor who could take it or is
deleted, and no list names the nick. -/
structure SuccessionSpec (nickId : ℕ) (db db' : Database) : Prop where
  channel : ∀ c ∈ db'.channel, c.founder ≠ nickId ∧ c.successor ≠ nickId
  passed : ∀ c ∈ db.channel, c.founder = nickId → Succeeds db nickId c →
    { c with founder := c.successor, successor := 0 } ∈ db'.channel
  deleted : ∀ c ∈ db.channel, c.founder = nickId → ¬ Succeeds db nickId c →
    ∀ d ∈ db'.channel, d.channelId ≠ c.channelId
  akick : ∀ r ∈ db'.akick, r.nickId ≠ nickId
  chanaccess : ∀ r ∈ db'.chanaccess, r.nickId ≠ nickId

/-- The states in which the loop does every turn: the successor of each channel but the last is at
his limit, and that of the last, if he is below it, is another registered nick. -/
structure TurnsReached (db : Database) (nickId : ℕ) : Prop where
  front : AllAtLimit db (succeeded db nickId).dropLast
  last : ∀ c ∈ (succeeded db nickId).getLast?,
    checkChanLimit (delchans db (succeeded db nickId).dropLast) c.successor = -1 →
      c.successor ≠ nickId ∧ ∃ r ∈ db.nick, r.nickId = c.successor

theorem turns_append (nickId : ℕ) (chans rest : List ChannelRow) (db : Database) :
    turns nickId (chans ++ rest) db =
      turns nickId chans db ++ turns nickId rest (chans.foldl (succeedTurn nickId) db) := by
  induction chans generalizing db with
  | nil => rfl
  | cons c chans ih => simp only [List.cons_append, turns, List.foldl_cons, ih]

/-- As long as the successors are at their limits, every turn deletes its channel. -/
theorem foldl_succeedTurn {nickId : ℕ} {chans : List ChannelRow} {db : Database}
    (h : AllAtLimit db chans) : chans.foldl (succeedTurn nickId) db = delchans db chans := by
  induction chans generalizing db with
  | nil => rfl
  | cons c chans ih =>
    have hturn : succeedTurn nickId db c = mysqlDelchan db c.channelId :=
      if_neg fun hcan ↦ h.1 hcan.2
    rw [List.foldl_cons, hturn]
    exact ih h.2

theorem not_canSucceed_of_mem_turns {nickId : ℕ} {chans : List ChannelRow} {db db₀ : Database}
    (h : AllAtLimit db chans) {c : ChannelRow} (hc : (c, db₀) ∈ turns nickId chans db) :
    ¬ CanSucceed db₀ c := by
  induction chans generalizing db with
  | nil => cases hc
  | cons d chans ih =>
    have hturn : succeedTurn nickId db d = mysqlDelchan db d.channelId :=
      if_neg fun hcan ↦ h.1 hcan.2
    obtain heq | hc := List.mem_cons.mp hc
    · rw [Prod.mk.injEq] at heq
      rw [heq.1, heq.2]
      exact fun hcan ↦ h.1 hcan.2
    · rw [hturn] at hc
      exact ih h.2 hc

theorem nick_delchans (db : Database) (chans : List ChannelRow) :
    (delchans db chans).nick = db.nick := by
  induction chans generalizing db with
  | nil => rfl
  | cons c chans ih => exact (ih _).trans (nick_mysqlDelchan db c.channelId)

section Passed

variable {nickId : ℕ} {db db₁ : Database} {done rest : List ChannelRow}
  {moved : Option ChannelRow}

theorem Passed.not_mem_done (hkeys : Keys db) (h : Passed nickId db db₁ done moved rest)
    {c : ChannelRow} (hmoved : moved = some c) : c ∉ done := by
  have hids : (succeeded db nickId).Nodup :=
    (List.Nodup.of_map _ hkeys.channel).sublist List.filter_sublist
  rw [h.split, List.nodup_append] at hids
  exact fun hdone ↦ hids.2.2 c hdone c (by simp [hmoved]) rfl

/-- When the loop reached all channels, only the one that it moved can have had its turn. -/
theorem Passed.succeeds_iff (h : Passed nickId db db₁ done moved [])
    {c : ChannelRow} :
    Succeeds db nickId c ↔ moved = some c ∧ ∃ r ∈ db.nick, r.nickId = c.successor := by
  rw [Succeeds, h.split, List.append_nil, turns_append, foldl_succeedTurn h.limit]
  constructor
  · rintro ⟨db₀, hturn, hcan⟩
    rcases List.mem_append.mp hturn with hturn | hturn
    · exact absurd hcan (not_canSucceed_of_mem_turns h.limit hturn)
    · cases moved with
      | none => cases hturn
      | some d =>
        rw [Option.toList_some, turns, turns, List.mem_singleton, Prod.mk.injEq] at hturn
        obtain ⟨rfl, rfl⟩ := hturn
        refine ⟨rfl, ?_⟩
        have hnick := hcan.1
        rwa [nick_delchans] at hnick
  · rintro ⟨rfl, hnick⟩
    refine ⟨delchans db done, List.mem_append_right _ (List.mem_cons_self ..), ?_, ?_⟩
    · rwa [nick_delchans]
    · exact h.stop c rfl

/-- Reaching all channels, and moving the last one to another registered nick only. -/
theorem Passed.turnsReached_iff (h : Passed nickId db db₁ done moved rest) :
    TurnsReached db nickId ↔ rest = [] ∧
      ∀ c ∈ moved, c.successor ≠ nickId ∧ ∃ r ∈ db.nick, r.nickId = c.successor := by
  constructor
  · intro hreached
    have hrest := h.rest_iff.mpr hreached.front
    have hsplit := h.split
    refine ⟨hrest, fun c hc ↦ ?_⟩
    rw [hrest, Option.mem_def.mp hc, List.append_nil, Option.toList_some] at hsplit
    refine hreached.last c ?_ ?_
    · rw [hsplit, List.getLast?_concat]
      rfl
    · rw [hsplit, List.dropLast_concat]
      exact h.stop c hc
  · rintro ⟨rfl, hlast⟩
    refine ⟨h.rest_iff.mp rfl, fun c hc hlimit ↦ ?_⟩
    have hsplit := h.split
    rw [List.append_nil] at hsplit
    cases hmoved : moved with
    | some d =>
      rw [hsplit, hmoved, Option.toList_some, List.getLast?_concat, Option.mem_some_iff] at hc
      exact hc ▸ hlast d hmoved
    | none =>
      -- All channels are deleted, so the last successor was at his limit too.
      rw [hmoved, Option.toList_none, List.append_nil] at hsplit
      obtain ⟨front, hfront⟩ := List.getLast?_eq_some_iff.mp (Option.mem_def.mp hc)
      have hall := h.limit
      rw [← hsplit, hfront, allAtLimit_append] at hall
      rw [hfront, List.dropLast_concat] at hlimit
      exact absurd hlimit hall.2.1

end Passed

/-! ### The channels after the removal -/

theorem mem_channel_csMysqlRemoveNick {db : Database} {nickId : ℕ} {d : ChannelRow} :
    d ∈ (csMysqlRemoveNick db nickId).channel ↔ ∃ c ∈ (passChannels db nickId).channel,
      (if c.successor = nickId then { c with successor := 0 } else c) = d :=
  List.mem_map

/-- The last UPDATE leaves the identifiers and founders. -/
theorem forall_channel_csMysqlRemoveNick {db : Database} {nickId : ℕ} {p : ℕ → ℕ → Prop} :
    (∀ d ∈ (csMysqlRemoveNick db nickId).channel, p d.channelId d.founder) ↔
      ∀ c ∈ (passChannels db nickId).channel, p c.channelId c.founder := by
  have hrow (c : ChannelRow) :
      (if c.successor = nickId then { c with successor := 0 } else c).channelId = c.channelId ∧
      (if c.successor = nickId then { c with successor := 0 } else c).founder = c.founder := by
    split_ifs
    · exact ⟨rfl, rfl⟩
    · exact ⟨rfl, rfl⟩
  constructor
  · intro h c hc
    have hp := h _ (mem_channel_csMysqlRemoveNick.mpr ⟨c, hc, rfl⟩)
    rwa [(hrow c).1, (hrow c).2] at hp
  · intro h d hd
    obtain ⟨c, hc, rfl⟩ := mem_channel_csMysqlRemoveNick.mp hd
    rw [(hrow c).1, (hrow c).2]
    exact h c hc

theorem successor_csMysqlRemoveNick {db : Database} {nickId : ℕ} (hn : nickId ≠ 0)
    {d : ChannelRow} (hd : d ∈ (csMysqlRemoveNick db nickId).channel) : d.successor ≠ nickId := by
  obtain ⟨c, -, rfl⟩ := mem_channel_csMysqlRemoveNick.mp hd
  split_ifs with hc
  · exact hn.symm
  · exact hc

/-- The removal of a registered nick does what it should exactly when every turn is reached. -/
theorem csMysqlRemoveNick_iff {db : Database} (hkeys : Keys db) {r : NickRow} (hr : r ∈ db.nick) :
    SuccessionSpec r.nickId db (csMysqlRemoveNick db r.nickId) ↔ TurnsReached db r.nickId := by
  have hn := hkeys.nick_ne_zero r hr
  obtain ⟨done, moved, rest, db₁, h, hpass⟩ := exists_passChannels hkeys r.nickId
  have hfounder := @forall_channel_csMysqlRemoveNick db r.nickId fun _ founder ↦ founder ≠ r.nickId
  have hgone (c : ChannelRow) :=
    @forall_channel_csMysqlRemoveNick db r.nickId fun channelId _ ↦ channelId ≠ c.channelId
  simp only [hpass] at hfounder hgone
  rw [h.turnsReached_iff]
  constructor
  · intro hspec
    obtain rfl := (h.founder_iff hkeys).mp (hfounder.mp fun d hd ↦ (hspec.channel d hd).1)
    refine ⟨rfl, fun c hmem ↦ ?_⟩
    have hmoved : moved = some c := hmem
    obtain ⟨hc, hcf, -⟩ := mem_succeeded.mp (h.mem_moved hmoved)
    have hsucceeds := @Passed.succeeds_iff _ _ _ _ _ h c
    constructor
    · intro hself
      have hrow := hspec.passed c hc hcf (hsucceeds.mpr ⟨hmoved, r, hr, hself.symm⟩)
      exact (hspec.channel _ hrow).1 hself
    · by_contra hnone
      have hdeleted := hspec.deleted c hc hcf fun hs ↦ hnone (hsucceeds.mp hs).2
      have hid := (h.gone_iff hkeys hc).mp ((hgone c).mp hdeleted)
      rcases List.mem_append.mp hid with hid | hid
      · exact h.not_mem_done hkeys hmoved (h.founder_of_mem_done hkeys hc hid)
      -- The moved channel has the successor as its founder, who is not the nick.
      · obtain ⟨u, hu, hid⟩ := List.mem_map.mp hid
        obtain ⟨hu₁, huf, -⟩ := mem_unsucceeded.mp hu
        obtain ⟨c', hc', -, rfl⟩ := h.exists_of_mem_channel hu₁
        rw [channelId_passOn] at hid
        rw [eq_of_channelId_eq hkeys hc' hc hid, passOn, if_pos hmoved] at huf
        exact hnone ⟨r, hr, huf.symm⟩
  · rintro ⟨rfl, hlast⟩
    refine ⟨fun d hd ↦ ⟨?_, successor_csMysqlRemoveNick hn hd⟩, fun c hc hcf hs ↦ ?_,
      fun c hc hcf hs ↦ ?_, fun s hs ↦ ?_, fun s hs ↦ ?_⟩
    · exact hfounder.mpr ((h.founder_iff hkeys).mpr rfl) d hd
    · have hmoved := (h.succeeds_iff.mp hs).1
      have hmem := h.mem_channel hkeys hc (h.not_mem_done hkeys hmoved)
      rw [passOn, if_pos hmoved] at hmem
      have hfinal := h.mem_final_iff.mpr ⟨hmem, fun hown ↦ (hlast c hmoved).1 hown.1⟩
      rw [← hpass] at hfinal
      exact mem_channel_csMysqlRemoveNick.mpr ⟨_, hfinal, if_neg hn.symm⟩
    · rw [hgone, h.gone_iff hkeys hc]
      have hmoved : moved ≠ some c := fun hmoved ↦
        hs (h.succeeds_iff.mpr ⟨hmoved, (hlast c hmoved).2⟩)
      by_cases hdone : c ∈ done
      · exact List.mem_append_left _ (List.mem_map_of_mem hdone)
      · have hzero : c.successor = 0 := by
          by_contra hzero
          have hmem := mem_succeeded.mpr ⟨hc, hcf, hzero⟩
          rw [h.split, List.append_nil, List.mem_append, Option.mem_toList] at hmem
          exact hmem.elim hdone hmoved
        have hmem := h.mem_channel hkeys hc hdone
        rw [passOn, if_neg hmoved] at hmem
        exact mem_droppedIds_of_unsucceeded hmem hcf hzero
    · simpa using (List.mem_filter.mp hs).2
    · simpa using (List.mem_filter.mp hs).2

/-- Two nicks and channels that the first hands on to the second. -/
def heirlooms (names : List CString) : Database where
  nick := [⟨1, ['a'], 0#32, 0, 0#32, 5⟩, ⟨2, ['b'], 0#32, 0, 0#32, 5⟩]
  nickaccess := []
  nicksuspend := []
  suspend := []
  chansuspend := []
  channel := names.zipIdx.map fun p ↦ ⟨p.2, p.1, 1, 2, 0#32⟩
  akick := []
  chanaccess := []
  chanlevel := []
  autojoin := []
  memo := []
  memoinfo := []
  admin := []
  oper := []

theorem keys_heirlooms (names : List CString) : Keys (heirlooms names) where
  nick := by simp [heirlooms]
  nick_ne_zero := by simp [heirlooms]
  channel := by
    have hids : (heirlooms names).channel.map ChannelRow.channelId = List.range' 0 names.length := by
      simp [heirlooms, Function.comp_def]
    rw [hids]
    exact List.nodup_range' ..

/-- One channel only: its turn comes. -/
theorem csMysqlRemoveNick_iff_heirlooms :
    SuccessionSpec 1 (heirlooms [['#']]) (csMysqlRemoveNick (heirlooms [['#']]) 1) ↔
      TurnsReached (heirlooms [['#']]) 1 :=
  csMysqlRemoveNick_iff (keys_heirlooms _) (List.mem_cons_self ..)

/-- Of two channels the second keeps its founder. -/
theorem csMysqlRemoveNick_keeps_founder :
    ¬ ∀ db, Keys db → ∀ r ∈ db.nick,
      SuccessionSpec r.nickId db (csMysqlRemoveNick db r.nickId) := by
  intro h
  have hspec := h (heirlooms [['#', 'a'], ['#', 'b']]) (keys_heirlooms _)
    ⟨1, ['a'], 0#32, 0, 0#32, 5⟩ (List.mem_cons_self ..)
  have hrow : (⟨1, ['#', 'b'], 1, 2, 0#32⟩ : ChannelRow) ∈
      (csMysqlRemoveNick (heirlooms [['#', 'a'], ['#', 'b']]) 1).channel := by decide
  exact (hspec.channel _ hrow).1 rfl

end BlitzedServices.ChanServ
