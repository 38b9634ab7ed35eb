import BlitzedServices.ChanServ.CheckModes

/-!
# Automatic limits

`check_autolimit` keeps the limit of a channel a little above the number of its users: it is lowered whenever it is
too high, and raised when it is too low by more than a tolerance and the caller allows it. SET AUTOLIMIT reads the
offset, the tolerance and the time between two checks.

The number of users and the offset are compared with the limit by the sign of a 32-bit difference.
`checkAutolimit_promised_iff` says when the limit is what the rule says: when the difference fits, and in a few cases
where a wrong sign makes no difference.
-/

set_option autoImplicit false
set_option relaxedAutoImplicit false

namespace BlitzedServices.Channels

open Lib ChanServ

/-! ### The functions -/

/-- The settings of a channel for the automatic limit, and when it was last updated. -/
structure Autolimit where
  lastLimitTime : ℤ
  limitOffset : BitVec 32
  limitTolerance : BitVec 32
  limitPeriod : BitVec 32
  deriving DecidableEq

/-- A channel in use, with these settings. -/
structure LimitChannel where
  chan : Channel
  auto : Autolimit

/-- `usercnt`. -/
def LimitChannel.usercnt (c : LimitChannel) : BitVec 32 :=
  BitVec.ofNat 32 c.chan.users.length

/-- `delta`. -/
def LimitChannel.delta (c : LimitChannel) : BitVec 32 :=
  c.usercnt + c.auto.limitOffset - c.chan.limit

/-- Whether the limit is changed. -/
def LimitChannel.isOff (c : LimitChannel) (allowRaise : Bool) : Bool :=
  c.delta.toInt < 0 ∨ (c.auto.limitTolerance < c.delta ∧ allowRaise)

/-- The channel with the new limit. -/
def LimitChannel.setLimit (c : LimitChannel) : LimitChannel :=
  { c with chan := { c.chan with limit := c.usercnt + c.auto.limitOffset } }

/-- What a check does: the channel, the lines that are sent, and the time that is stored in the row of the channel. -/
structure LimitCheck where
  chan : LimitChannel
  lines : List ModeLine
  lastLimitTime : Option ℤ

/-- `check_autolimit`. -/
def checkAutolimit (now : ℤ) (allowRaise : Bool) (c : LimitChannel) : LimitCheck :=
  if c.chan.channelId = 0 ∨ c.auto.limitOffset = 0#32 then ⟨c, [], none⟩
  else if now - c.auto.lastLimitTime ≤ 10 then ⟨c, [], none⟩
  else
    let changed := if c.isOff allowRaise then c.setLimit else c
    { chan := { changed with auto := { changed.auto with lastLimitTime := now } }
      lines := if c.isOff allowRaise then [⟨['+', 'l'], [decimal changed.chan.limit.toInt]⟩] else []
      lastLimitTime := some now }

/-- What SET AUTOLIMIT makes of its argument. -/
inductive AutolimitReply
  | CHAN_SET_AUTOLIMIT_SYNTAX
  | CHAN_SET_AUTOLIMIT_DISABLED
  | CHAN_SET_AUTOLIMIT_CHANGED (limitOffset limitTolerance limitPeriod : BitVec 32) (badTolerance : Bool)
  deriving DecidableEq

/-- The bounds on what was typed: the offset, the tolerance and the period. -/
def clampAutolimit (limitOffset limitTolerance limitPeriod : BitVec 32) : AutolimitReply :=
  let limitOffset := if 500#32 < limitOffset then 500#32 else limitOffset
  let limitTolerance := if 500#32 < limitTolerance then 500#32 else limitTolerance
  let badTolerance := decide (limitOffset ≤ limitTolerance)
  let limitTolerance := if limitOffset ≤ limitTolerance then limitOffset - 1 else limitTolerance
  let limitPeriod := if 60#32 < limitPeriod then 60#32 else limitPeriod
  let limitPeriod := if limitPeriod ≤ 0#32 then 1#32 else limitPeriod
  .CHAN_SET_AUTOLIMIT_CHANGED limitOffset limitTolerance limitPeriod badTolerance

/-- How `do_set_autolimit` reads its argument. -/
def readAutolimit (param : CString) : AutolimitReply :=
  if stricmp param "ON".toList = 0 then .CHAN_SET_AUTOLIMIT_CHANGED 5 2 2 false
  else if stricmp param "OFF".toList = 0 then .CHAN_SET_AUTOLIMIT_DISABLED
  else
    match strtok [':'] param with
    | none => .CHAN_SET_AUTOLIMIT_SYNTAX
    | some (limitOffset, rest) =>
      if atoi limitOffset = 0#32 then .CHAN_SET_AUTOLIMIT_DISABLED
      else
        match strtok [':'] rest with
        | none => .CHAN_SET_AUTOLIMIT_SYNTAX
        | some (limitTolerance, rest) =>
          match strtok [] rest with
          | none => .CHAN_SET_AUTOLIMIT_SYNTAX
          | some (limitPeriod, _) => clampAutolimit (atoi limitOffset) (atoi limitTolerance) (atoi limitPeriod)

/-- The settings as they are stored. -/
def Autolimit.store (auto : Autolimit) (limitOffset limitTolerance limitPeriod : BitVec 32) : Autolimit :=
  { auto with limitOffset, limitTolerance, limitPeriod }

/-- `set_chan_autolimit` on the row of the channel. -/
def setChanAutolimit (row : Autolimit) (limitOffset limitTolerance limitPeriod : BitVec 32) : Autolimit :=
  { row.store limitOffset limitTolerance limitPeriod with lastLimitTime := 0 }

/-- What SET AUTOLIMIT leaves: the row of the channel, its record if it is in use, and the lines that are sent. -/
structure AutolimitState where
  row : Autolimit
  chan : Option LimitChannel
  lines : List ModeLine

/-- `do_set_autolimit`. -/
def doSetAutolimit (now : ℤ) (param : CString) (row : Autolimit) (chan : Option LimitChannel) :
    AutolimitReply × AutolimitState :=
  let reply := readAutolimit param
  (reply,
    match reply with
    | .CHAN_SET_AUTOLIMIT_SYNTAX => ⟨row, chan, []⟩
    | .CHAN_SET_AUTOLIMIT_DISABLED =>
      ⟨setChanAutolimit row 0 0 0, chan.map fun c ↦ { c with auto := c.auto.store 0 0 0 },
        if chan.isSome then [⟨['-', 'l'], []⟩] else []⟩
    | .CHAN_SET_AUTOLIMIT_CHANGED o t p _ =>
      let row := setChanAutolimit row o t p
      match chan with
      | none => ⟨row, none, []⟩
      | some c =>
        let checked := checkAutolimit now true { c with auto := c.auto.store o t p }
        ⟨{ row with lastLimitTime := checked.lastLimitTime.getD row.lastLimitTime }, some checked.chan,
          checked.lines⟩)

/-! ### The rule -/

/-- The limit of the rule, with `n` users, the offset `o`, the tolerance `t` and the limit `l`. -/
def ruleLimit (n o t l : ℕ) (allowRaise : Bool) : ℕ :=
  if n + o < l then n + o
  else if t < n + o - l ∧ allowRaise then n + o
  else l

/-- What is promised of a check: for a registered channel with an automatic limit and more than ten seconds after
the last update, the limit of the rule; nothing is changed otherwise. -/
def Promised (now : ℤ) (allowRaise : Bool) (c : LimitChannel) (checked : LimitCheck) : Prop :=
  if c.chan.channelId ≠ 0 ∧ c.auto.limitOffset ≠ 0#32 ∧ 10 < now - c.auto.lastLimitTime then
    checked.chan.chan.limit.toNat = ruleLimit c.chan.users.length c.auto.limitOffset.toNat c.auto.limitTolerance.toNat
      c.chan.limit.toNat allowRaise
  else checked = ⟨c, [], none⟩

/-- The sign of the 32-bit difference `d = n + o - l` is right, or is wrong where it does not matter: a limit above
`n + o + 2 ^ 31` is taken for one that is too low and may be raised, and one that is too low by `2 ^ 31` or more is
lowered where it is to be raised. A sum of `2 ^ 32` or more is no limit; then nothing may be changed. -/
def SignRight (n o t l : ℕ) (allowRaise : Bool) : Prop :=
  let d : ℤ := n + o - l
  n + o < 2 ^ 32 ∧ (-2 ^ 31 ≤ d ∧ d < 2 ^ 31 ∨ d < -2 ^ 31 ∧ t < d + 2 ^ 32 ∧ allowRaise ∨
      2 ^ 31 ≤ d ∧ t < d ∧ allowRaise) ∨
    2 ^ 32 ≤ n + o ∧ (allowRaise = false ∧ d % 2 ^ 32 < 2 ^ 31 ∨ d ≤ t ∧ d < 2 ^ 31)

/-- The check is not due, or the sign is right. -/
def LimitMeets (now : ℤ) (allowRaise : Bool) (c : LimitChannel) : Prop :=
  c.chan.channelId ≠ 0 → c.auto.limitOffset ≠ 0#32 → 10 < now - c.auto.lastLimitTime →
    SignRight c.chan.users.length c.auto.limitOffset.toNat c.auto.limitTolerance.toNat c.chan.limit.toNat allowRaise

/-- The settings are all zero, or in their ranges. -/
def Autolimit.InRange (auto : Autolimit) : Prop :=
  auto.limitOffset = 0#32 ∧ auto.limitTolerance = 0#32 ∧ auto.limitPeriod = 0#32 ∨
    1 ≤ auto.limitOffset.toNat ∧ auto.limitOffset.toNat ≤ 500 ∧
      auto.limitTolerance.toNat < auto.limitOffset.toNat ∧ 1 ≤ auto.limitPeriod.toNat ∧ auto.limitPeriod.toNat ≤ 60

/-! ### Differences of 32 bits -/

section Difference

variable (c : LimitChannel) (allowRaise : Bool)

theorem toNat_delta : (c.delta.toNat : ℤ) =
    ((c.chan.users.length : ℤ) + c.auto.limitOffset.toNat - c.chan.limit.toNat) % 2 ^ 32 := by
  have hlimit := c.chan.limit.isLt
  rw [LimitChannel.delta, LimitChannel.usercnt, BitVec.toNat_sub, BitVec.toNat_add, BitVec.toNat_ofNat]
  omega

/-- The limit is changed if the difference is in the upper half, or above the tolerance when it may be raised. -/
theorem isOff_iff : c.isOff allowRaise ↔
    2 ^ 31 ≤ c.delta.toNat ∨ c.auto.limitTolerance.toNat < c.delta.toNat ∧ allowRaise := by
  have hlt := c.delta.isLt
  rw [LimitChannel.isOff, decide_eq_true_iff, BitVec.toInt_eq_toNat_cond, BitVec.lt_def]
  refine or_congr_left ?_
  split_ifs <;> omega

theorem toNat_setLimit : c.setLimit.chan.limit.toNat =
    (c.chan.users.length + c.auto.limitOffset.toNat) % 2 ^ 32 := by
  show (c.usercnt + c.auto.limitOffset).toNat = _
  rw [LimitChannel.usercnt, BitVec.toNat_add, BitVec.toNat_ofNat]
  omega

end Difference

/-- The sign decides rightly exactly when it is right, and the sum is stored if it fits. -/
theorem ruleLimit_eq_iff {n o t l : ℕ} (allowRaise off : Bool) (ht : t < 2 ^ 32) (hl : l < 2 ^ 32)
    (hoff : off ↔ 2 ^ 31 ≤ ((n : ℤ) + o - l) % 2 ^ 32 ∨ (t : ℤ) < ((n : ℤ) + o - l) % 2 ^ 32 ∧ allowRaise) :
    (if off then (n + o) % 2 ^ 32 else l) = ruleLimit n o t l allowRaise ↔ SignRight n o t l allowRaise := by
  rw [ruleLimit, SignRight]
  cases allowRaise with
  | false =>
    simp only [Bool.false_eq_true, and_false, or_false, if_false, true_and] at hoff ⊢
    cases off with
    | false =>
      have hlow : ((n : ℤ) + o - l) % 2 ^ 32 < 2 ^ 31 := not_le.mp (hoff.not.mp Bool.false_ne_true)
      rw [if_neg Bool.false_ne_true]
      split_ifs <;> omega
    | true =>
      have hhigh := hoff.mp rfl
      rw [if_pos rfl]
      split_ifs <;> omega
  | true =>
    simp only [and_true, Bool.true_eq_false, false_and, false_or] at hoff ⊢
    cases off with
    | false =>
      have hlow := hoff.not.mp Bool.false_ne_true
      rw [if_neg Bool.false_ne_true]
      split_ifs <;> omega
    | true =>
      have hhigh := hoff.mp rfl
      rw [if_pos rfl]
      split_ifs <;> omega

/-! ### A check -/

/-- A check leaves the limit of the rule, or nothing is changed where no check is due, exactly under the condition. -/
theorem checkAutolimit_promised (now : ℤ) (allowRaise : Bool) (c : LimitChannel) :
    Promised now allowRaise c (checkAutolimit now allowRaise c) ↔ LimitMeets now allowRaise c := by
  rw [Promised, LimitMeets, checkAutolimit]
  by_cases hguard : c.chan.channelId = 0 ∨ c.auto.limitOffset = 0#32
  · have hnot : ¬(c.chan.channelId ≠ 0 ∧ c.auto.limitOffset ≠ 0#32 ∧ 10 < now - c.auto.lastLimitTime) :=
      fun h ↦ hguard.elim h.1 h.2.1
    rw [if_neg hnot, if_pos hguard]
    exact iff_of_true rfl fun hid hoffset ↦ absurd hguard (not_or.mpr ⟨hid, hoffset⟩)
  · rcases not_or.mp hguard with ⟨hid, hoffset⟩
    rw [if_neg hguard]
    by_cases hearly : now - c.auto.lastLimitTime ≤ 10
    · rw [if_neg fun h ↦ absurd h.2.2 (not_lt.mpr hearly), if_pos hearly]
      exact iff_of_true rfl fun _ _ hdue ↦ absurd hdue (not_lt.mpr hearly)
    · have hdue := not_le.mp hearly
      have hdelta := toNat_delta c
      have hoff := isOff_iff c allowRaise
      rw [← Int.ofNat_le, ← Int.ofNat_lt, hdelta] at hoff
      have hrule := ruleLimit_eq_iff allowRaise _ c.auto.limitTolerance.isLt c.chan.limit.isLt hoff
      have hlimit : (if c.isOff allowRaise then c.setLimit else c).chan.limit.toNat =
          if c.isOff allowRaise then (c.chan.users.length + c.auto.limitOffset.toNat) % 2 ^ 32
          else c.chan.limit.toNat := by
        split_ifs
        · exact toNat_setLimit c
        · rfl
      rw [if_pos ⟨hid, hoffset, hdue⟩, if_neg hearly]
      dsimp only
      rw [hlimit, hrule]
      exact ⟨fun h _ _ _ ↦ h, fun h ↦ h hid hoffset hdue⟩

/-! ### SET AUTOLIMIT -/

theorem toNat_clamp (bound n : BitVec 32) : (if bound < n then bound else n).toNat = min bound.toNat n.toNat := by
  by_cases h : bound < n
  · rw [if_pos h]
    have hlt := BitVec.lt_def.mp h
    omega
  · rw [if_neg h]
    have hle := mt BitVec.lt_def.mpr h
    omega

/-- A tolerance that is not below the offset is put below it. -/
theorem toNat_tolerance_lt {o : BitVec 32} (ho : 0 < o.toNat) (t : BitVec 32) :
    (if o ≤ t then o - 1 else t).toNat < o.toNat := by
  by_cases h : o ≤ t
  · have hone : (1 : BitVec 32).toNat = 1 := rfl
    rw [if_pos h, BitVec.toNat_sub_of_le (BitVec.le_def.mpr (by omega))]
    omega
  · rw [if_neg h]
    exact not_le.mp (mt BitVec.le_def.mpr h)

/-- A period of zero is put to one. -/
theorem toNat_period (p : BitVec 32) : (if p ≤ 0#32 then 1#32 else p).toNat = max 1 p.toNat := by
  have hone : (1#32).toNat = 1 := rfl
  have hzero : (0#32).toNat = 0 := rfl
  by_cases h : p ≤ 0#32
  · have hle := BitVec.le_def.mp h
    rw [if_pos h]
    omega
  · have hlt := mt BitVec.le_def.mpr h
    rw [if_neg h]
    omega

/-- Whatever was typed, the bounds are kept. -/
theorem clampAutolimit_inRange (auto : Autolimit) {o t p o' t' p' : BitVec 32} {bad : Bool} (ho : o ≠ 0#32)
    (h : clampAutolimit o t p = .CHAN_SET_AUTOLIMIT_CHANGED o' t' p' bad) : (auto.store o' t' p').InRange := by
  have hpos : 0 < o.toNat := by
    rw [Nat.pos_iff_ne_zero]
    exact fun hzero ↦ ho (BitVec.eq_of_toNat_eq hzero)
  have hoffset := toNat_clamp 500#32 o
  have hperiod := toNat_clamp 60#32 p
  rw [show (500#32).toNat = 500 from rfl] at hoffset
  rw [show (60#32).toNat = 60 from rfl] at hperiod
  rw [clampAutolimit, AutolimitReply.CHAN_SET_AUTOLIMIT_CHANGED.injEq] at h
  rcases h with ⟨rfl, rfl, rfl, -⟩
  refine .inr ⟨?_, ?_, toNat_tolerance_lt (by omega) _, ?_, ?_⟩
  · show 1 ≤ (if 500#32 < o then 500#32 else o).toNat
    omega
  · show (if 500#32 < o then 500#32 else o).toNat ≤ 500
    omega
  · show 1 ≤ (if _ ≤ 0#32 then 1#32 else _).toNat
    rw [toNat_period]
    omega
  · show (if _ ≤ 0#32 then 1#32 else _).toNat ≤ 60
    rw [toNat_period]
    omega

/-- What is read is refused, disables the limit, or is in range. -/
theorem readAutolimit_inRange (auto : Autolimit) {param : CString} {o t p : BitVec 32} {bad : Bool}
    (h : readAutolimit param = .CHAN_SET_AUTOLIMIT_CHANGED o t p bad) : (auto.store o t p).InRange := by
  rw [readAutolimit] at h
  split_ifs at h
  · cases h
    exact .inr (show 1 ≤ 5 ∧ 5 ≤ 500 ∧ 2 < 5 ∧ 1 ≤ 2 ∧ 2 ≤ 60 by decide)
  · split at h
    · cases h
    · split_ifs at h with hzero
      split at h
      · cases h
      · split at h
        · cases h
        · exact clampAutolimit_inRange auto hzero h

theorem checkAutolimit_inRange {now : ℤ} {allowRaise : Bool} {c : LimitChannel} (h : c.auto.InRange) :
    (checkAutolimit now allowRaise c).chan.auto.InRange := by
  rw [checkAutolimit]
  split_ifs <;> exact h

/-- A check sets the limit as the rule says exactly under the condition on the sign; and a SET AUTOLIMIT that is not
refused leaves settings that are zero or in their ranges, in the row of the channel and in its record. -/
theorem checkAutolimit_promised_iff (now : ℤ) (allowRaise : Bool) (c : LimitChannel) (param : CString)
    (row : Autolimit) (chan : Option LimitChannel) :
    (Promised now allowRaise c (checkAutolimit now allowRaise c) ↔ LimitMeets now allowRaise c) ∧
      ((doSetAutolimit now param row chan).1 ≠ .CHAN_SET_AUTOLIMIT_SYNTAX →
        (doSetAutolimit now param row chan).2.row.InRange ∧
          ∀ c' ∈ (doSetAutolimit now param row chan).2.chan, c'.auto.InRange) := by
  refine ⟨checkAutolimit_promised now allowRaise c, fun haccepted ↦ ?_⟩
  rw [doSetAutolimit] at haccepted ⊢
  cases hreply : readAutolimit param with
  | CHAN_SET_AUTOLIMIT_SYNTAX => exact absurd hreply haccepted
  | CHAN_SET_AUTOLIMIT_DISABLED =>
    refine ⟨.inl ⟨rfl, rfl, rfl⟩, fun c' hc' ↦ ?_⟩
    rcases Option.map_eq_some_iff.mp hc' with ⟨c₁, -, rfl⟩
    exact .inl ⟨rfl, rfl, rfl⟩
  | CHAN_SET_AUTOLIMIT_CHANGED o t p bad =>
    have hrange (auto : Autolimit) := readAutolimit_inRange auto hreply
    cases chan with
    | none => exact ⟨hrange row, fun c' hc' ↦ absurd hc' (by simp)⟩
    | some c₁ =>
      refine ⟨hrange row, fun c' hc' ↦ ?_⟩
      rcases Option.some.inj hc' with rfl
      exact checkAutolimit_inRange (hrange c₁.auto)

/-- A channel with one user and the highest limit there is. -/
def highLimit : LimitChannel where
  chan := { bareChannel 0 (BitVec.allOnes 32) none 0 with users := [0] }
  auto := ⟨0, 5, 2, 2⟩

/-- When a user has left, the limit is not lowered; the arguments of SET AUTOLIMIT do not matter. -/
theorem not_checkAutolimit_promised : ¬Promised 100 false highLimit (checkAutolimit 100 false highLimit) := by
  rw [checkAutolimit_promised]
  intro h
  have hsign := h (by decide) (by decide) (by decide)
  simp [SignRight, highLimit, bareChannel] at hsign

end BlitzedServices.Channels
