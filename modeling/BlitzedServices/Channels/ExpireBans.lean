import BlitzedServices.Channels.Autolimit
import BlitzedServices.Channels.BanArray
import BlitzedServices.Channels.Iteration
import BlitzedServices.Lib.CursorLoop

/-!
# Bans that expire

`chan_update_events` goes through all channels. For a registered channel with a ban time it copies the masks of the
bans that are too old and then removes them one by one, by a line for the servers and by `do_cmode`, which searches
the channel by its name and the ban by its mask.

`chanUpdateEvents_expires` says which lines with bans are sent in one pass, and which bans are left in each channel
whose bans are in the order they were set: there the first ban with a mask is the oldest one.
-/

set_option autoImplicit false
set_option relaxedAutoImplicit false

namespace BlitzedServices.Channels

open Lib Misc ChanServ
open OperServ (checkModes_plain cmodeLoop_minus_b)

/-! ### The functions -/

/-- A channel with what the pass reads. -/
structure EventChannel where
  c : BanChannel
  auto : Autolimit
  bantime : BitVec 32

/-- The bucket of a channel. -/
def hashEvent (chan : EventChannel) : ℕ := hashName chan.c.chan.name

/-- The channels, the place of `firstchan` and `nextchan` among them, the `lastmodes` of `do_cmode`, the column
`last_limit_time` by channel, and what was sent, each with the name of its channel. -/
structure EventState where
  chanlist : HashTable EventChannel
  cursor : Cursor
  lastmodes : CString
  lastLimitTime : ℕ → ℤ
  sent : List (CString × Sent)

/-- `findchan`. -/
def findchan (chanlist : HashTable EventChannel) (chan : CString) : Option ℕ :=
  ((chanlist.bucket (hashName chan)).toList.find? fun x ↦ ircStricmp x.2.c.chan.name chan = 0).map Prod.fst

/-- The record of a channel is written. -/
def EventState.put (a : ℕ) (chan : EventChannel) (s : EventState) : EventState :=
  { s with chanlist := s.chanlist.modifyVal (fun _ ↦ chan) a }

/-- The first half of the pass: the limit may be due. -/
def updateLimit (now : ℤ) (a : ℕ) (s : EventState) : Option EventState :=
  (s.chanlist.val a).map fun chan ↦
    if 0#32 < chan.auto.limitOffset ∧
        chan.auto.limitPeriod * 60#32 ≤ BitVec.ofInt 32 (now - chan.auto.lastLimitTime) then
      let checked := checkAutolimit now true ⟨chan.c.chan, chan.auto⟩
      { s.put a { chan with c := ⟨checked.chan.chan, chan.c.array⟩, auto := checked.chan.auto } with
        lastLimitTime :=
          match checked.lastLimitTime with
          | none => s.lastLimitTime
          | some time => Function.update s.lastLimitTime chan.c.chan.channelId time
        sent := s.sent ++ checked.lines.map fun line ↦ (chan.c.chan.name, .mode line) }
    else s

/-- The masks of the bans that were set before a time. -/
def copyExpired (heap : ℕ → Option Ban) (threshold : ℤ) : List ℕ → Option (List CString)
  | [] => some []
  | b :: bs =>
    (heap b).bind fun ban ↦
      (copyExpired heap threshold bs).map fun masks ↦ if ban.time < threshold then ban.mask :: masks else masks

/-- A line that removes a ban, and `do_cmode` on the channel of this name. The mode lock and the rest of what
`do_cmode` reads are given by channel. -/
def sendUnban (contexts : ℕ → ModeContext) (name mask : CString) (s : EventState) : Option EventState :=
  let s := { s with sent := s.sent ++ [(name, .mode ⟨['-', 'b'], [mask]⟩)] }
  match findchan s.chanlist name with
  | none => some s
  | some a =>
    (s.chanlist.val a).bind fun chan ↦
      (doCmodeUnban (contexts chan.c.chan.channelId) s.lastmodes chan.c mask).map fun (c, lastmodes, sent) ↦
        { s.put a { chan with c } with lastmodes, sent := s.sent ++ sent.map fun line ↦ (name, line) }

/-- The second half of the pass: the bans that are too old. -/
def removeExpired (contexts : ℕ → ModeContext) (now : ℤ) (a : ℕ) (s : EventState) : Option EventState :=
  (s.chanlist.val a).bind fun chan ↦
    if chan.bantime = 0#32 then some s
    else
      let threshold := now - (chan.bantime * 60#32).toNat
      (copyExpired chan.c.array.heap threshold chan.c.array.newbans).bind fun masks ↦
        masks.foldlM (fun s mask ↦ sendUnban contexts chan.c.chan.name mask s) s

/-- What the pass does to a channel. -/
def channelEvents (contexts : ℕ → ModeContext) (now : ℤ) (a : ℕ) (s : EventState) : Option EventState :=
  (s.chanlist.val a).bind fun chan ↦
    if chan.c.chan.channelId = 0 then some s
    else (updateLimit now a s).bind (removeExpired contexts now a)

/-- `chan_update_events`. -/
def chanUpdateEvents (contexts : ℕ → ModeContext) (now : ℤ) (s : EventState) : Option EventState :=
  (walkAll 1024 EventState.chanlist (bodyThen 1024 EventState.chanlist (channelEvents contexts now)) s.cursor s).map
    fun r ↦ { r.2 with cursor := r.1 }

/-! ### The ban time -/

/-- What SET CLEARBANS answers. -/
inductive ClearbansReply
  | CHAN_SET_CLEARBANS_SYNTAX
  | CHAN_SET_CLEARBANS_OFF
  | CHAN_SET_CLEARBANS_CHANGED (bantime : BitVec 32)

/-- The bounds on the ban time. -/
def clampBantime (bantime : BitVec 32) : ClearbansReply :=
  if bantime ≤ 0#32 then .CHAN_SET_CLEARBANS_OFF
  else .CHAN_SET_CLEARBANS_CHANGED (if 1440#32 < bantime then 1440#32 else bantime)

/-- How `do_set_clearbans` reads its argument. -/
def readClearbans : Option CString → ClearbansReply
  | none => .CHAN_SET_CLEARBANS_SYNTAX
  | some param =>
    clampBantime
      (if stricmp param "ON".toList = 0 then 60#32
      else if stricmp param "OFF".toList = 0 then 0#32
      else atoi param)

/-- `do_set_clearbans` for a channel, if it is in use, and the column of its row. -/
def doSetClearbans (param : Option CString) (row : BitVec 32) (chan : Option EventChannel) :
    ClearbansReply × BitVec 32 × Option EventChannel :=
  let reply := readClearbans param
  (reply,
    match reply with
    | .CHAN_SET_CLEARBANS_SYNTAX => (row, chan)
    | .CHAN_SET_CLEARBANS_OFF => (0#32, chan.map fun chan ↦ { chan with bantime := 0#32 })
    | .CHAN_SET_CLEARBANS_CHANGED bantime => (bantime, chan.map fun chan ↦ { chan with bantime }))

/-- A ban time of a day at most. -/
def UpToADay (bantime : BitVec 32) : Prop := bantime.toNat ≤ 1440

/-- What `mysql_init_channel` reads from the column. -/
def readBantime (row : BitVec 32) : BitVec 32 := atoi (decimal row.toNat)

/-- SET CLEARBANS stores no more than a day, and that is what a new channel record gets. -/
theorem doSetClearbans_upToADay (param : Option CString) {row : BitVec 32} {chan : Option EventChannel}
    (hrow : UpToADay row) (hchan : ∀ c ∈ chan, UpToADay c.bantime) :
    let after := (doSetClearbans param row chan).2
    UpToADay after.1 ∧ UpToADay (readBantime after.1) ∧ ∀ c ∈ after.2, UpToADay c.bantime := by
  have hread (row : BitVec 32) (h : UpToADay row) : UpToADay (readBantime row) := by
    rw [readBantime, atoi_decimal_toNat]
    exact h
  have hset (bantime : BitVec 32) (h : UpToADay bantime) :
      ∀ c ∈ chan.map fun chan ↦ { chan with bantime }, UpToADay c.bantime := by
    intro c hc
    rcases Option.map_eq_some_iff.mp hc with ⟨c₁, -, rfl⟩
    exact h
  have hzero : UpToADay 0#32 := Nat.zero_le _
  rw [doSetClearbans]
  cases hreply : readClearbans param with
  | CHAN_SET_CLEARBANS_SYNTAX => exact ⟨hrow, hread row hrow, hchan⟩
  | CHAN_SET_CLEARBANS_OFF => exact ⟨hzero, hread _ hzero, hset _ hzero⟩
  | CHAN_SET_CLEARBANS_CHANGED bantime =>
    have hbantime : UpToADay bantime := by
      cases param with
      | none => cases hreply
      | some param =>
        rw [readClearbans, clampBantime, ite_eq_iff] at hreply
        rcases hreply with ⟨-, hoff⟩ | ⟨-, hon⟩
        · cases hoff
        · obtain rfl := ClearbansReply.CHAN_SET_CLEARBANS_CHANGED.inj hon
          rw [UpToADay, toNat_clamp]
          exact Nat.min_le_left _ _
    exact ⟨hbantime, hread _ hbantime, hset _ hbantime⟩

/-! ### What is promised -/

/-- The bans of a channel. -/
def BanChannel.bans (c : BanChannel) : List Ban :=
  c.array.newbans.filterMap c.array.heap

/-- The bans are in the order they were set. -/
def InOrder (bans : List Ban) : Prop :=
  bans.Pairwise fun x y ↦ x.time ≤ y.time

/-- The channel has a ban time, and the ban was set before it. -/
def EventChannel.old (now : ℤ) (chan : EventChannel) (ban : Ban) : Bool :=
  chan.bantime ≠ 0#32 ∧ ban.time < now - 60 * chan.bantime.toNat

/-- The bans that are to be removed are the old ones of a registered channel. -/
def EventChannel.expired (now : ℤ) (chan : EventChannel) (ban : Ban) : Bool :=
  chan.c.chan.channelId ≠ 0 ∧ chan.old now ban

/-- The lines that remove these bans, one for each. -/
def EventChannel.unbanLines (now : ℤ) (chan : EventChannel) : List (CString × ModeLine) :=
  (chan.c.bans.filter (chan.expired now)).map fun ban ↦ (chan.c.chan.name, ⟨['-', 'b'], [ban.mask]⟩)

/-- The lines with changes of bans. -/
def banLines (sent : List (CString × Sent)) : List (CString × ModeLine) :=
  sent.filterMap fun
    | (_, .wallops _ _) => none
    | (name, .mode line) => if 'b' ∈ line.letters then some (name, line) else none

/-- The table is well formed. A channel is created only when `findchan` does not find its name. -/
structure EventState.Sound (s : EventState) : Prop where
  chained : ∃ xs, Chained hashEvent s.chanlist xs
  distinct : ∀ a b chan other, s.chanlist.val a = some chan → s.chanlist.val b = some other →
    ircStricmp chan.c.chan.name other.c.chan.name = 0 → a = b
  bans : ∀ a chan, s.chanlist.val a = some chan → ∃ bans, chan.c.Lists bans
  bantime : ∀ a chan, s.chanlist.val a = some chan → UpToADay chan.bantime

/-- What is promised of one channel: if its bans are in order, the others are left, with their times. -/
def Expires (now : ℤ) (chan chan' : EventChannel) : Prop :=
  InOrder chan.c.bans → chan'.c.bans = chan.c.bans.filter fun ban ↦ !chan.expired now ban

/-- No loop over the channels is under way. -/
structure EventState.Resting (s : EventState) : Prop where
  sound : s.Sound
  ended : s.cursor.current = none

/-! ### One ban -/

/-- Whether a ban has the mask. -/
def hasMask (mask : CString) (x : ℕ × Ban) : Bool := x.2.mask = mask

/-- For each mask the first ban that has it is taken out. -/
def removeMasks (masks : List CString) (bans : List (ℕ × Ban)) : List (ℕ × Ban) :=
  masks.foldl (fun bans mask ↦ bans.eraseP (hasMask mask)) bans

section Unban

variable {c : BanChannel} {bans : List (ℕ × Ban)} {mask : CString} {heap : ℕ → Option Ban}

/-- The search finds nothing when no ban has the mask. -/
theorem findMask_of_forall (hheap : ∀ y ∈ bans, heap y.1 = some y.2) (hmask : ∀ y ∈ bans, y.2.mask ≠ mask) :
    findMask heap mask (bans.map Prod.fst) = some (bans.map Prod.fst, []) := by
  induction bans with
  | nil => rfl
  | cons y bans ih =>
    have hrest := ih (fun z hz ↦ hheap z (List.mem_cons_of_mem _ hz)) fun z hz ↦ hmask z (List.mem_cons_of_mem _ hz)
    rw [List.map_cons, findMask, hheap y List.mem_cons_self, Option.bind_some,
      if_neg (hmask y List.mem_cons_self), hrest]
    rfl

/-- `-b` takes out the first ban with the mask, if there is one. -/
theorem BanArray.remove_eraseP {a : BanArray} (h : HoldsBans a bans) (mask : CString) :
    ∃ a', a.remove mask = some a' ∧ HoldsBans a' (bans.eraseP (hasMask mask)) := by
  by_cases hex : ∃ x ∈ bans, hasMask mask x = true
  · rcases hex with ⟨x, hx, hxmask⟩
    rcases List.exists_of_eraseP hx hxmask with ⟨y, pre, post, hpre, hy, hsplit, herase⟩
    rw [herase]
    rw [hsplit] at h
    have hother : ∀ z ∈ pre, z.2.mask ≠ mask := fun z hz ↦ by simpa [hasMask] using hpre z hz
    rcases BanArray.remove_holds h hother (by simpa [hasMask] using hy) with ⟨a', hremove, hholds, -⟩
    exact ⟨a', hremove, hholds⟩
  · have hnone : ∀ y ∈ bans, ¬hasMask mask y = true := fun y hy hmask ↦ hex ⟨y, hy, hmask⟩
    have hmask : ∀ y ∈ bans, y.2.mask ≠ mask := fun y hy ↦ by simpa [hasMask] using hnone y hy
    refine ⟨a, ?_, by rwa [List.eraseP_of_forall_not hnone]⟩
    rw [BanArray.remove, h.newbans, findMask_of_forall h.heap hmask]
    rfl

theorem countServerMode_name (env : CmodeEnv) (now : ℤ) (source modestr lastmodes : CString) (chan : Channel) :
    (countServerMode env now source modestr lastmodes chan).1.name = chan.name := by
  rw [countServerMode]
  split_ifs <;> rfl

theorem countCall_name (now : ℤ) (c : Channel) : (countCall now c).name = c.name := by
  rw [countCall]
  split_ifs <;> rfl

/-- `do_cmode` takes out the first ban with the mask, keeps the name of the channel, and sends no line with a `b`.
-/
theorem doCmodeUnban_lists (context : ModeContext) (lastmodes : CString) (h : c.Lists bans) (mask : CString) :
    ∃ c' lastmodes' sent, doCmodeUnban context lastmodes c mask = some (c', lastmodes', sent) ∧
      c'.Lists (bans.eraseP (hasMask mask)) ∧ c'.chan.name = c.chan.name ∧
      ∀ line ∈ modeLines sent, 'b' ∉ line.letters := by
  rcases BanArray.remove_eraseP h.1 mask with ⟨array, hremove, hholds⟩
  refine ⟨_, _, _, by rw [doCmodeUnban, hremove]; rfl, ⟨hholds, ?_⟩, ?_, ?_⟩
  · show (doCmode context.env context.now context.row s_ChanServ lastmodes c.chan ['-', 'b'] [mask]).1.newbans = _
    have hbeq : (fun m ↦ mask == m) ∘ (fun x : ℕ × Ban ↦ x.2.mask) = hasMask mask := by
      ext x
      rw [Function.comp_apply, hasMask, Bool.beq_eq_decide_eq]
      exact decide_eq_decide.mpr eq_comm
    rw [newbans_unban, h.2, List.erase_eq_eraseP, List.eraseP_map]
    exact congrArg (fun p ↦ (bans.eraseP p).map fun x ↦ x.2.mask) hbeq
  · show (doCmode context.env context.now context.row s_ChanServ lastmodes c.chan ['-', 'b'] [mask]).1.name = _
    rw [doCmode, cmodeLoop_minus_b]
    dsimp only
    rw [checkModes_keeps Channel.name countCall_name fun _ _ _ _ ↦ rfl]
    exact countServerMode_name ..
  · intro line hline hb
    rw [doCmode] at hline
    exact checkModes_plain hline 'b' hb (.inl rfl)

/-- The copy has the masks of the bans that were set before the time. -/
theorem copyExpired_eq (hheap : ∀ y ∈ bans, heap y.1 = some y.2) (threshold : ℤ) :
    copyExpired heap threshold (bans.map Prod.fst) =
      some ((bans.filter fun x ↦ x.2.time < threshold).map fun x ↦ x.2.mask) := by
  induction bans with
  | nil => rfl
  | cons y bans ih =>
    rw [List.map_cons, copyExpired, hheap y List.mem_cons_self, Option.bind_some,
      ih fun z hz ↦ hheap z (List.mem_cons_of_mem _ hz), Option.map_some]
    by_cases hy : y.2.time < threshold
    · rw [if_pos hy, List.filter_cons, if_pos (decide_eq_true hy), List.map_cons]
    · rw [if_neg hy, List.filter_cons_of_neg (by simpa using hy)]

/-- When the bans that meet a condition come first, the first ban with the mask of one of them is always the one
that is to go. The induction is on the list, whose head goes or is the first one that stays. -/
theorem removeMasks_filter {p : ℕ × Ban → Bool} (h : bans.Pairwise fun x y ↦ p y → p x) :
    removeMasks ((bans.filter p).map fun x ↦ x.2.mask) bans = bans.filter fun x ↦ !p x := by
  induction bans with
  | nil => rfl
  | cons x bans ih =>
    rw [List.pairwise_cons] at h
    cases hx : p x with
    | true =>
      have hmask : hasMask x.2.mask x = true := by simp [hasMask]
      rw [List.filter_cons_of_pos hx, List.map_cons, removeMasks, List.foldl_cons,
        List.eraseP_cons_of_pos hmask, List.filter_cons_of_neg (by simp [hx])]
      exact ih h.2
    | false =>
      have hall : ∀ y ∈ x :: bans, p y = false := by
        intro y hy
        rcases List.mem_cons.mp hy with rfl | hy
        · exact hx
        · by_contra hpy
          exact Bool.noConfusion (hx.symm.trans (h.1 y hy (Bool.not_eq_false _ ▸ hpy)))
      rw [List.filter_eq_nil_iff.mpr fun y hy ↦ by simp [hall y hy],
        List.filter_eq_self.mpr fun y hy ↦ by simp [hall y hy]]
      rfl

theorem HoldsBans.bans_eq (h : HoldsBans c.array bans) : c.bans = bans.map Prod.snd := by
  rw [BanChannel.bans, h.newbans, List.filterMap_map]
  have hsome : bans.filterMap (c.array.heap ∘ Prod.fst) = bans.filterMap (some ∘ Prod.snd) :=
    List.filterMap_congr h.heap
  rw [hsome, List.filterMap_eq_map]

end Unban

/-! ### Lines -/

section Lines

theorem banLines_append (sent more : List (CString × Sent)) :
    banLines (sent ++ more) = banLines sent ++ banLines more :=
  List.filterMap_append

/-- Lines without a `b` change no bans. -/
theorem banLines_plain (name : CString) {sent : List Sent} (h : ∀ line ∈ modeLines sent, 'b' ∉ line.letters) :
    banLines (sent.map fun line ↦ (name, line)) = [] := by
  rw [banLines, List.filterMap_map, List.filterMap_eq_nil_iff]
  intro line hline
  cases line with
  | wallops server chanserv => rfl
  | mode line => exact if_neg (h line (List.mem_filterMap.mpr ⟨_, hline, rfl⟩))

end Lines

/-! ### One channel -/

/-- One channel of the table was changed: it has these bans now, and these lines with bans were sent. -/
structure Changes (a : ℕ) (s : EventState) (chan : EventChannel) (s' : EventState) (chan' : EventChannel)
    (bans : List (ℕ × Ban)) (lines : List (CString × ModeLine)) : Prop where
  chanlist : s'.chanlist = s.chanlist.modifyVal (fun _ ↦ chan') a
  name : chan'.c.chan.name = chan.c.chan.name
  bantime : chan'.bantime = chan.bantime
  lists : chan'.c.Lists bans
  lines : banLines s'.sent = banLines s.sent ++ lines

section Changes

variable {a : ℕ} {s s' s'' : EventState} {chan chan' chan'' : EventChannel} {bans bans' : List (ℕ × Ban)}
  {lines lines' : List (CString × ModeLine)}

theorem Changes.refl (hchan : s.chanlist.val a = some chan) (hlists : chan.c.Lists bans) :
    Changes a s chan s chan bans [] where
  chanlist := (modifyVal_of_val s.chanlist a hchan).symm
  name := rfl
  bantime := rfl
  lists := hlists
  lines := (List.append_nil _).symm

theorem Changes.trans (h : Changes a s chan s' chan' bans lines) (h' : Changes a s' chan' s'' chan'' bans' lines') :
    Changes a s chan s'' chan'' bans' (lines ++ lines') where
  chanlist := by rw [h'.chanlist, h.chanlist, modifyVal_modifyVal]
  name := h'.name.trans h.name
  bantime := h'.bantime.trans h.bantime
  lists := h'.lists
  lines := by rw [h'.lines, h.lines, List.append_assoc]

theorem Changes.val (h : Changes a s chan s' chan' bans lines) (hchan : s.chanlist.val a = some chan) :
    s'.chanlist.val = Function.update s.chanlist.val a (some chan') := by
  rw [h.chanlist, val_modifyVal, hchan, Option.map_some]

theorem Changes.chained (h : Changes a s chan s' chan' bans lines) {xs : ℕ → List (ℕ × EventChannel)}
    {pre post : List (ℕ × EventChannel)} (hxs : Chained hashEvent s.chanlist xs)
    (hbucket : xs (hashEvent chan) = pre ++ (a, chan) :: post) :
    Chained hashEvent s'.chanlist (Function.update xs (hashEvent chan) (pre ++ (a, chan') :: post)) := by
  rw [h.chanlist]
  exact hxs.setVal (congrArg hashName h.name) hbucket

/-- The table stays well formed. -/
theorem Changes.sound (h : Changes a s chan s' chan' bans lines) (hsound : s.Sound)
    (hchan : s.chanlist.val a = some chan) : s'.Sound := by
  have hkept {b : ℕ} {other : EventChannel} (hb : s'.chanlist.val b = some other) :
      ∃ old, s.chanlist.val b = some old ∧ other.c.chan.name = old.c.chan.name ∧ other.bantime = old.bantime ∧
        ∃ bans, other.c.Lists bans := by
    rw [h.val hchan, Function.update_apply] at hb
    split_ifs at hb with hba
    · obtain rfl := Option.some.inj hb
      exact ⟨chan, hba ▸ hchan, h.name, h.bantime, _, h.lists⟩
    · exact ⟨other, hb, rfl, rfl, hsound.bans b other hb⟩
  constructor
  · rcases hsound.chained with ⟨xs, hxs⟩
    rcases hxs.exists_bucket hchan with ⟨pre, post, hbucket⟩
    exact ⟨_, h.chained hxs hbucket⟩
  · intro b c one other hb hc hcmp
    rcases hkept hb with ⟨old, hold, hname, -⟩
    rcases hkept hc with ⟨old', hold', hname', -⟩
    rw [hname, hname'] at hcmp
    exact hsound.distinct b c old old' hold hold' hcmp
  · intro b other hb
    rcases hkept hb with ⟨-, -, -, -, hbans⟩
    exact hbans
  · intro b other hb
    rcases hkept hb with ⟨old, hold, -, hbantime, -⟩
    rw [hbantime]
    exact hsound.bantime b old hold

/-- A channel is found by its own name. -/
theorem EventState.Sound.findchan_self (h : s.Sound) (hchan : s.chanlist.val a = some chan) :
    findchan s.chanlist chan.c.chan.name = some a := by
  rcases h.chained with ⟨xs, hxs⟩
  have hself : ircStricmp chan.c.chan.name chan.c.chan.name = 0 := (ircStricmp_eq_zero_iff _ _).mpr rfl
  have hmem : (a, chan) ∈ xs (hashName chan.c.chan.name) := hxs.mem_iff.mpr ⟨hchan, rfl⟩
  rw [findchan, (hxs.linked _).toList_eq]
  cases hfind : (xs (hashName chan.c.chan.name)).find? fun x ↦ ircStricmp x.2.c.chan.name chan.c.chan.name = 0 with
  | none =>
    have hne := List.find?_eq_none.mp hfind (a, chan) hmem
    exact absurd (decide_eq_true hself) hne
  | some x =>
    have hcmp : ircStricmp x.2.c.chan.name chan.c.chan.name = 0 := by simpa using List.find?_some hfind
    have hx := (hxs.mem_iff.mp (List.mem_of_find?_eq_some hfind)).1
    exact congrArg some (h.distinct x.1 a x.2 chan hx hchan hcmp)

/-- One ban is removed from the channel, by one line. -/
theorem sendUnban_changes (contexts : ℕ → ModeContext) (h : s.Sound) (hchan : s.chanlist.val a = some chan)
    (hlists : chan.c.Lists bans) (mask : CString) :
    ∃ s' chan', sendUnban contexts chan.c.chan.name mask s = some s' ∧
      Changes a s chan s' chan' (bans.eraseP (hasMask mask)) [(chan.c.chan.name, ⟨['-', 'b'], [mask]⟩)] := by
  rcases doCmodeUnban_lists (contexts chan.c.chan.channelId) s.lastmodes hlists mask with
    ⟨c, lastmodes, sent, hunban, hlists', hname, hplain⟩
  have hfind := h.findchan_self hchan
  rw [sendUnban]
  dsimp only
  rw [hfind]
  dsimp only
  rw [hchan, Option.bind_some, hunban, Option.map_some]
  refine ⟨_, { chan with c }, rfl, ?_⟩
  constructor
  · rfl
  · exact hname
  · rfl
  · exact hlists'
  · show banLines ((s.sent ++ [_]) ++ sent.map _) = _
    rw [banLines_append, banLines_append, banLines_plain _ hplain, List.append_nil]
    rfl

/-- The bans are removed one by one. -/
theorem foldlM_sendUnban (contexts : ℕ → ModeContext) (masks : List CString) (h : s.Sound)
    (hchan : s.chanlist.val a = some chan) (hlists : chan.c.Lists bans) :
    ∃ s' chan', masks.foldlM (fun s mask ↦ sendUnban contexts chan.c.chan.name mask s) s = some s' ∧
      Changes a s chan s' chan' (removeMasks masks bans)
        (masks.map fun mask ↦ (chan.c.chan.name, ⟨['-', 'b'], [mask]⟩)) := by
  induction masks generalizing s chan bans with
  | nil => exact ⟨s, chan, rfl, .refl hchan hlists⟩
  | cons mask masks ih =>
    rcases sendUnban_changes contexts h hchan hlists mask with ⟨s₁, chan₁, hsend, hchanges⟩
    have hchan₁ : s₁.chanlist.val a = some chan₁ := by
      rw [hchanges.val hchan, Function.update_self]
    rcases ih (hchanges.sound h hchan) hchan₁ hchanges.lists with ⟨s', chan', hfold, hchanges'⟩
    rw [hchanges.name] at hfold hchanges'
    refine ⟨s', chan', ?_, hchanges.trans hchanges'⟩
    rw [List.foldlM_cons, hsend]
    exact hfold

/-- Which bans are old does not change with the rest of the channel. -/
theorem Changes.old_eq (h : Changes a s chan s' chan' bans lines) (now : ℤ) : chan'.old now = chan.old now := by
  ext ban
  rw [EventChannel.old, EventChannel.old, h.bantime]

/-- The second half removes the masks of the old bans. -/
theorem removeExpired_changes (contexts : ℕ → ModeContext) (now : ℤ) (h : s.Sound)
    (hchan : s.chanlist.val a = some chan) (hlists : chan.c.Lists bans) :
    let masks := (bans.filter fun x ↦ chan.old now x.2).map fun x ↦ x.2.mask
    ∃ s' chan', removeExpired contexts now a s = some s' ∧ Changes a s chan s' chan' (removeMasks masks bans)
      (masks.map fun mask ↦ (chan.c.chan.name, ⟨['-', 'b'], [mask]⟩)) := by
  intro masks
  rw [removeExpired, hchan, Option.bind_some]
  by_cases hzero : chan.bantime = 0#32
  · have hnone : masks = [] := by
      have hold : ∀ x ∈ bans, ¬chan.old now x.2 = true := fun x _ ↦ by simp [EventChannel.old, hzero]
      exact congrArg _ (List.filter_eq_nil_iff.mpr hold)
    rw [if_pos hzero, hnone]
    exact ⟨s, chan, rfl, .refl hchan hlists⟩
  · have hthreshold : ((chan.bantime * 60#32).toNat : ℤ) = 60 * chan.bantime.toNat := by
      have hday : chan.bantime.toNat ≤ 1440 := h.bantime a chan hchan
      have hsixty : (60#32).toNat = 60 := rfl
      rw [BitVec.toNat_mul, hsixty]
      omega
    have hold : (fun x : ℕ × Ban ↦ decide (x.2.time < now - 60 * (chan.bantime.toNat : ℤ))) =
        fun x ↦ chan.old now x.2 := by
      ext x
      rw [EventChannel.old]
      exact decide_eq_decide.mpr (and_iff_right hzero).symm
    rw [if_neg hzero, hthreshold, hlists.1.newbans]
    dsimp only
    rw [copyExpired_eq hlists.1.heap, Option.bind_some, hold]
    exact foldlM_sendUnban contexts masks h hchan hlists

theorem checkAutolimit_frame (now : ℤ) (allowRaise : Bool) (c : LimitChannel) :
    (∃ limit, (checkAutolimit now allowRaise c).chan.chan = { c.chan with limit := limit }) ∧
      ∀ line ∈ (checkAutolimit now allowRaise c).lines, 'b' ∉ line.letters := by
  rw [checkAutolimit]
  split_ifs
  · exact ⟨⟨c.chan.limit, rfl⟩, fun _ h ↦ absurd h List.not_mem_nil⟩
  · exact ⟨⟨c.chan.limit, rfl⟩, fun _ h ↦ absurd h List.not_mem_nil⟩
  · refine ⟨⟨c.setLimit.chan.limit, rfl⟩, fun line hline ↦ ?_⟩
    rw [List.mem_singleton.mp (show line ∈ [_] from hline)]
    show 'b' ∉ ['+', 'l']
    decide
  · exact ⟨⟨c.chan.limit, rfl⟩, fun _ h ↦ absurd h List.not_mem_nil⟩

/-- The first half changes no bans. -/
theorem updateLimit_changes (now : ℤ) (hchan : s.chanlist.val a = some chan) (hlists : chan.c.Lists bans) :
    ∃ s' chan', updateLimit now a s = some s' ∧ Changes a s chan s' chan' bans [] := by
  rw [updateLimit, hchan, Option.map_some]
  split_ifs
  · let checked := checkAutolimit now true ⟨chan.c.chan, chan.auto⟩
    rcases checkAutolimit_frame now true ⟨chan.c.chan, chan.auto⟩ with ⟨⟨limit, hlimit⟩, hplain⟩
    refine ⟨_, { chan with c := ⟨checked.chan.chan, chan.c.array⟩, auto := checked.chan.auto }, rfl, ?_⟩
    constructor
    · rfl
    · show checked.chan.chan.name = _
      rw [hlimit]
    · rfl
    · refine ⟨hlists.1, ?_⟩
      show checked.chan.chan.newbans = _
      rw [hlimit]
      exact hlists.2
    · have hsent : ∀ line ∈ modeLines ((checkAutolimit now true ⟨chan.c.chan, chan.auto⟩).lines.map .mode),
          'b' ∉ line.letters := by
        intro line hline
        rw [modeLines, List.filterMap_map] at hline
        rcases List.mem_filterMap.mp hline with ⟨line', hmem, heq⟩
        obtain rfl := Option.some.inj heq
        exact hplain line' hmem
      have hnone := banLines_plain chan.c.chan.name hsent
      rw [List.map_map] at hnone
      exact (banLines_append _ _).trans (congrArg (banLines s.sent ++ ·) hnone)
  · exact ⟨s, chan, rfl, .refl hchan hlists⟩

/-- The pass over one channel sends a line for every ban that has expired and for no other, and takes out the first
ban with its mask. -/
theorem channelEvents_changes (contexts : ℕ → ModeContext) (now : ℤ) (h : s.Sound)
    (hchan : s.chanlist.val a = some chan) (hlists : chan.c.Lists bans) :
    ∃ s' chan', channelEvents contexts now a s = some s' ∧
      Changes a s chan s' chan'
        (removeMasks ((bans.filter fun x ↦ chan.expired now x.2).map fun x ↦ x.2.mask) bans)
        (chan.unbanLines now) := by
  have hlines : chan.unbanLines now = ((bans.filter fun x ↦ chan.expired now x.2).map fun x ↦ x.2.mask).map
      fun mask ↦ (chan.c.chan.name, ⟨['-', 'b'], [mask]⟩) := by
    rw [EventChannel.unbanLines, hlists.1.bans_eq, List.filter_map, List.map_map, List.map_map]
    rfl
  rw [channelEvents, hchan, Option.bind_some, hlines]
  by_cases hzero : chan.c.chan.channelId = 0
  · have hnone : ∀ x ∈ bans, ¬chan.expired now x.2 = true := fun x _ ↦ by simp [EventChannel.expired, hzero]
    rw [if_pos hzero, List.filter_eq_nil_iff.mpr hnone]
    exact ⟨s, chan, rfl, .refl hchan hlists⟩
  · have hexpired : (fun x : ℕ × Ban ↦ chan.expired now x.2) = fun x ↦ chan.old now x.2 := by
      ext x
      simp [EventChannel.expired, hzero]
    rcases updateLimit_changes now hchan hlists with ⟨s₁, chan₁, hlimit, hchanges⟩
    have hchan₁ : s₁.chanlist.val a = some chan₁ := by
      rw [hchanges.val hchan, Function.update_self]
    rcases removeExpired_changes contexts now (hchanges.sound h hchan) hchan₁ hchanges.lists with
      ⟨s', chan', hremove, hchanges'⟩
    rw [hchanges.old_eq, hchanges.name] at hchanges'
    refine ⟨s', chan', ?_, ?_⟩
    · rw [if_neg hzero, hlimit]
      exact hremove
    · rw [hexpired]
      exact hchanges.trans hchanges'

/-- Bans in order: those that have expired come first. -/
theorem Changes.expires {now : ℤ} (hlists : chan.c.Lists bans)
    (h : Changes a s chan s' chan'
      (removeMasks ((bans.filter fun x ↦ chan.expired now x.2).map fun x ↦ x.2.mask) bans) lines) :
    Expires now chan chan' := by
  intro horder
  rw [InOrder, hlists.1.bans_eq, List.pairwise_map] at horder
  have hfirst : bans.Pairwise fun x y ↦ chan.expired now y.2 → chan.expired now x.2 := by
    refine horder.imp fun hle hexpired ↦ ?_
    simp only [EventChannel.expired, EventChannel.old, decide_eq_true_eq] at hexpired ⊢
    exact ⟨hexpired.1, hexpired.2.1, hle.trans_lt hexpired.2.2⟩
  rw [h.lists.1.bans_eq, removeMasks_filter hfirst, hlists.1.bans_eq, List.filter_map]
  rfl

end Changes

/-! ### All channels -/

section Pass

variable {s : EventState}

theorem hashEvent_lt (chan : EventChannel) : hashEvent chan < 1024 :=
  hashChannel_lt ⟨chan.c.chan.name, chan.c.chan.channelId⟩

theorem keepsNode_channelEvents (contexts : ℕ → ModeContext) (now : ℤ) :
    KeepsNode hashEvent EventState.chanlist EventState.Sound (channelEvents contexts now) := by
  intro s s' xs pre post a chan hsound hxs hbucket hbody
  have hchan : s.chanlist.val a = some chan :=
    hxs.val_eq (hbucket ▸ List.mem_append_right _ List.mem_cons_self)
  rcases hsound.bans a chan hchan with ⟨bans, hlists⟩
  rcases channelEvents_changes contexts now hsound hchan hlists with ⟨s₁, chan', hevents, hchanges⟩
  obtain rfl : s₁ = s' := Option.some.inj (hevents.symm.trans hbody)
  exact ⟨hchanges.sound hsound hchan, chan', hchanges.chained hxs hbucket⟩

/-- The pass over some of the channels. The induction is on the channels that are still to come. -/
theorem foldlM_channelEvents (contexts : ℕ → ModeContext) (now : ℤ) (l : List (ℕ × EventChannel)) (h : s.Sound)
    (hnodup : (l.map Prod.fst).Nodup) (hval : ∀ x ∈ l, s.chanlist.val x.1 = some x.2) :
    ∃ s', (l.map Prod.fst).foldlM (fun s a ↦ channelEvents contexts now a s) s = some s' ∧ s'.Sound ∧
      banLines s'.sent = banLines s.sent ++ l.flatMap (fun x ↦ x.2.unbanLines now) ∧
      (∀ a, a ∉ l.map Prod.fst → s'.chanlist.val a = s.chanlist.val a) ∧
      ∀ x ∈ l, ∃ chan', s'.chanlist.val x.1 = some chan' ∧ Expires now x.2 chan' := by
  induction l generalizing s with
  | nil => exact ⟨s, rfl, h, (List.append_nil _).symm, fun _ _ ↦ rfl, fun x hx ↦ absurd hx List.not_mem_nil⟩
  | cons x l ih =>
    rcases x with ⟨a, chan⟩
    rw [List.map_cons, List.nodup_cons] at hnodup
    have hchan := hval (a, chan) List.mem_cons_self
    rcases h.bans a chan hchan with ⟨bans, hlists⟩
    rcases channelEvents_changes contexts now h hchan hlists with ⟨s₁, chan₁, hevents, hchanges⟩
    have hval₁ : ∀ x ∈ l, s₁.chanlist.val x.1 = some x.2 := by
      intro x hx
      have hne : x.1 ≠ a := ne_of_mem_of_not_mem (List.mem_map_of_mem hx) hnodup.1
      rw [hchanges.val hchan, Function.update_of_ne hne]
      exact hval x (List.mem_cons_of_mem _ hx)
    rcases ih (hchanges.sound h hchan) hnodup.2 hval₁ with ⟨s', hfold, hsound, hlines, hothers, hall⟩
    refine ⟨s', ?_, hsound, ?_, fun b hb ↦ ?_, fun x hx ↦ ?_⟩
    · rw [List.map_cons, List.foldlM_cons, hevents]
      exact hfold
    · rw [hlines, hchanges.lines, List.flatMap_cons, List.append_assoc]
    · rw [List.map_cons, List.mem_cons, not_or] at hb
      rw [hothers b hb.2, hchanges.val hchan, Function.update_of_ne hb.1]
    · rcases List.mem_cons.mp hx with rfl | hx
      · refine ⟨chan₁, ?_, hchanges.expires hlists⟩
        rw [hothers a hnodup.1, hchanges.val hchan, Function.update_self]
      · exact hall x hx

/-- In one pass the lines with bans that are sent are one `-b` for each ban that has expired, channel by channel
and in the order of the bans; every channel whose bans are in order is left with the others, in the same order and
with their times. -/
theorem chanUpdateEvents_expires (contexts : ℕ → ModeContext) (now : ℤ) (h : s.Resting) :
    ∃ s', chanUpdateEvents contexts now s = some s' ∧ s'.Resting ∧
      banLines s'.sent = banLines s.sent ++ (s.chanlist.toList 1024).flatMap (fun x ↦ x.2.unbanLines now) ∧
      ∀ a chan, s.chanlist.val a = some chan → (a, chan) ∈ s.chanlist.toList 1024 ∧
        ∃ chan', s'.chanlist.val a = some chan' ∧ Expires now chan chan' := by
  rcases h.sound.chained with ⟨xs, hxs⟩
  have hkeeps := keepsNode_channelEvents contexts now
  have hwalk := hxs.walkAll_eq h.sound hkeeps.stepsOn_bodyThen hkeeps.treatsNode (m := 1024) h.ended
  have hval : ∀ x ∈ s.chanlist.toList 1024, s.chanlist.val x.1 = some x.2 := by
    intro x hx
    exact (hxs.mem_toList hashEvent_lt).mp hx
  rcases foldlM_channelEvents contexts now _ h.sound (hxs.nodup_toList 1024) hval with
    ⟨s', hfold, hsound, hlines, -, hall⟩
  refine ⟨{ s' with cursor := ⟨none, 1024⟩ }, ?_, ⟨?_, rfl⟩, hlines, fun a chan hchan ↦ ?_⟩
  · rw [chanUpdateEvents, hwalk, hfold]
    rfl
  · exact ⟨hsound.chained, hsound.distinct, hsound.bans, hsound.bantime⟩
  · have hmem := (hxs.mem_toList hashEvent_lt).mpr hchan
    exact ⟨hmem, hall (a, chan) hmem⟩

end Pass

/-- A channel with a ban time of an hour and two bans on `m`, of which one has expired at noon. -/
def twoBans : EventChannel where
  c :=
    { chan := { bareChannel 0 0 none 0 with newbans := [['m'], ['m']] }
      array := ⟨fun b ↦ if b = 0 then some ⟨['m'], 0⟩ else if b = 1 then some ⟨['m'], 43000⟩ else none, [0, 1]⟩ }
  auto := ⟨0, 0, 0, 0⟩
  bantime := 60

/-- It is the only channel there is. -/
def onlyTwoBans : EventState where
  chanlist := HashTable.push (hashEvent twoBans) 0 twoBans .empty
  cursor := ⟨none, 0⟩
  lastmodes := []
  lastLimitTime := fun _ ↦ 0
  sent := []

theorem val_onlyTwoBans {a : ℕ} {chan : EventChannel} (h : onlyTwoBans.chanlist.val a = some chan) :
    a = 0 ∧ chan = twoBans := by
  rw [show onlyTwoBans.chanlist.val = Function.update (fun _ ↦ none) 0 (some twoBans) from val_push ..,
    Function.update_apply] at h
  split_ifs at h with ha
  exact ⟨ha, (Option.some.inj h).symm⟩

theorem resting_onlyTwoBans : onlyTwoBans.Resting := by
  refine ⟨⟨⟨_, (chained_empty hashEvent).push rfl twoBans⟩, ?_, ?_, ?_⟩, rfl⟩
  · intro a b chan other ha hb _
    rw [(val_onlyTwoBans ha).1, (val_onlyTwoBans hb).1]
  · intro a chan ha
    rw [(val_onlyTwoBans ha).2]
    refine ⟨[(0, ⟨['m'], 0⟩), (1, ⟨['m'], 43000⟩)], ⟨rfl, ?_, by decide⟩, rfl⟩
    simp [twoBans]
  · intro a chan ha
    rw [(val_onlyTwoBans ha).2, UpToADay]
    decide

theorem chanUpdateEvents_expires_onlyTwoBans :
    ∃ s', chanUpdateEvents (fun _ ↦ bareContext) 43200 onlyTwoBans = some s' ∧ s'.Resting ∧
      banLines s'.sent = banLines onlyTwoBans.sent ++
        (onlyTwoBans.chanlist.toList 1024).flatMap (fun x ↦ x.2.unbanLines 43200) ∧
      ∀ a chan, onlyTwoBans.chanlist.val a = some chan → (a, chan) ∈ onlyTwoBans.chanlist.toList 1024 ∧
        ∃ chan', s'.chanlist.val a = some chan' ∧ Expires 43200 chan chan' :=
  chanUpdateEvents_expires (fun _ ↦ bareContext) 43200 resting_onlyTwoBans

end BlitzedServices.Channels
