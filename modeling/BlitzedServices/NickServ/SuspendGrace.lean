import BlitzedServices.NickServ.World
import BlitzedServices.Lib.Runs

/-!
# The grace of an unsuspended nick

`unsuspend` may put the time of the last visit forward, so that the owner has NSSuspendGrace seconds left
before `expire_nicks` deletes the nick. With NSExtraGrace an old nick may stay away for three times NSExpire,
a product in an `int`; `survives_iff` says that the grace is kept iff it fits.

Times are what `%d` prints and an unsigned column holds, until 2038.
-/

set_option autoImplicit false
set_option relaxedAutoImplicit false

namespace BlitzedServices.NickServ.SuspendGrace

open Lib Mysql

/-- The directives. -/
structure Config where
  nsExpire : ℕ
  nsSuspendGrace : ℕ
  nsExtraGrace : Bool
  optNoexpire : Bool
  nsExpire_int : nsExpire < 2 ^ 31

/-- The columns of table `nick` that count for expiry. -/
structure AgedNick where
  nickId : ℕ
  linkId : ℕ
  timeRegistered : BitVec 32
  lastSeen : BitVec 32
  status : BitVec 32
  flags : BitVec 32

/-- `NSExpire * 3`. -/
def tripled (conf : Config) : ℤ :=
  (BitVec.ofNat 32 (conf.nsExpire * 3)).toInt

/-- `(int)(NSExpire * 1.5)`. A `double` that is too large becomes the least `int`. -/
def halfMore (conf : Config) : ℤ :=
  if conf.nsExpire * 3 / 2 < 2 ^ 31 then (conf.nsExpire * 3 / 2 : ℕ) else -2 ^ 31

/-- The difference of a time and a column, which is unsigned. -/
def age (now : ℕ) (column : BitVec 32) : ℤ :=
  ((now : ℤ) - column.toNat) % 2 ^ 64

/-- A number in an `int unsigned` column. -/
def store (x : ℤ) : BitVec 32 :=
  BitVec.ofNat 32 (min (2 ^ 32 - 1) x.toNat)

/-- The UPDATE of the nicks that are in use. -/
def seen (now : ℕ) (table : List AgedNick) : List AgedNick :=
  table.map fun r ↦
    if r.status &&& (NS_IDENTIFIED ||| NS_RECOGNIZED) ≠ 0#32 then { r with lastSeen := store now } else r

/-- Neither status nor flags keep the nick from expiring. -/
def expirable (r : AgedNick) : Bool :=
  r.status &&& (NS_VERBOTEN ||| NS_NO_EXPIRE) = 0#32 ∧ r.flags &&& (NI_SUSPENDED ||| NI_IRCOP) = 0#32

/-- `mysql_delnick`, as far as table `nick` goes. -/
def mysqlDelnick (table : List AgedNick) (nickId : ℕ) : List AgedNick :=
  (table.map fun r ↦ if r.linkId = nickId then { r with linkId := 0 } else r).filter fun r ↦
    r.nickId ≠ nickId

/-- The loop over the result of a SELECT. -/
def expireSelected (selected : AgedNick → Bool) (table : List AgedNick) : List AgedNick :=
  ((table.filter selected).map AgedNick.nickId).foldl mysqlDelnick table

/-- `expire_nicks`. -/
def expireNicks (conf : Config) (now : ℕ) (table : List AgedNick) : List AgedNick :=
  let table := seen now table
  if conf.nsExpire = 0 ∨ conf.optNoexpire then table
  else if conf.nsExtraGrace then
    let table := expireSelected (fun r ↦ halfMore conf ≤ age now r.timeRegistered ∧
      tripled conf ≤ age now r.lastSeen ∧ expirable r) table
    expireSelected (fun r ↦ age now r.timeRegistered < halfMore conf ∧
      (conf.nsExpire : ℤ) ≤ age now r.lastSeen ∧ expirable r) table
  else expireSelected (fun r ↦ (conf.nsExpire : ℤ) ≤ age now r.lastSeen ∧ expirable r) table

/-- `unsuspend`. -/
def unsuspend (conf : Config) (now nickId : ℕ) (table : List AgedNick) : List AgedNick :=
  let table := table.map fun r ↦
    if r.nickId = nickId then { r with flags := r.flags &&& ~~~NI_SUSPENDED } else r
  if conf.nsExpire ≠ 0 ∧ conf.nsSuspendGrace ≠ 0 then
    table.map fun r ↦
      if r.nickId = nickId ∧ (conf.nsExpire : ℤ) - conf.nsSuspendGrace ≤ age now r.lastSeen then
        { r with lastSeen := store ((now : ℤ) - conf.nsExpire + conf.nsSuspendGrace) }
      else r
  else table

/-! ### Runs -/

/-- The table, and the time of the last look at the clock. -/
structure State where
  clock : ℕ
  table : List AgedNick

/-- What may happen to the table: nicks expire, or anything else changes it. -/
inductive Event where
  | expire (now : ℕ)
  | change (table : List AgedNick)

/-- What an event does. -/
def step (conf : Config) (s : State) : Event → State
  | .expire now => ⟨now, expireNicks conf now s.table⟩
  | .change table => ⟨s.clock, table⟩

/-- The clock does not go back and the grace is not over, and other events are about other nicks. -/
def Within (conf : Config) (t nickId : ℕ) (s : State) : Event → Prop
  | .expire now => s.clock ≤ now ∧ now < t + conf.nsSuspendGrace ∧ now < 2 ^ 31
  | .change table => table.filter (fun r ↦ r.nickId = nickId) = s.table.filter fun r ↦ r.nickId = nickId

/-- The table has a row of the nick. -/
def Registered (nickId : ℕ) (table : List AgedNick) : Prop :=
  ∃ r ∈ table, r.nickId = nickId

/-- A nick that is unsuspended stays registered as long as the grace goes on, whatever happens to other
nicks. -/
def Survives (conf : Config) : Prop :=
  ∀ t nickId table, t < 2 ^ 31 → Registered nickId table →
    ∀ events, Along (step conf) (Within conf t nickId) ⟨t, unsuspend conf t nickId table⟩ events →
      Registered nickId (events.foldl (step conf) ⟨t, unsuspend conf t nickId table⟩).table

/-! ### The rows of one nick -/

/-- The nick is registered, and a condition holds of the time of its last visit. -/
def Kept (nickId : ℕ) (p : ℕ → Prop) (table : List AgedNick) : Prop :=
  Registered nickId table ∧ ∀ r ∈ table, r.nickId = nickId → p r.lastSeen.toNat

section Kept

variable {conf : Config} {nickId now t : ℕ} {p q : ℕ → Prop} {table : List AgedNick}

theorem Kept.map (h : Kept nickId p table) {f : AgedNick → AgedNick}
    (hid : ∀ r, (f r).nickId = r.nickId)
    (hok : ∀ r ∈ table, r.nickId = nickId → p r.lastSeen.toNat → q (f r).lastSeen.toNat) :
    Kept nickId q (table.map f) := by
  rcases h with ⟨⟨r, hr, hrid⟩, hrows⟩
  refine ⟨⟨f r, List.mem_map_of_mem hr, (hid r).trans hrid⟩, List.forall_mem_map.mpr fun r' hr' hid' ↦ ?_⟩
  rw [hid] at hid'
  exact hok r' hr' hid' (hrows r' hr' hid')

theorem Kept.mysqlDelnick (h : Kept nickId p table) {other : ℕ} (hne : other ≠ nickId) :
    Kept nickId p (mysqlDelnick table other) := by
  have hmap : Kept nickId p (table.map fun r ↦ if r.linkId = other then { r with linkId := 0 } else r) :=
    h.map (fun r ↦ by split_ifs <;> rfl) fun r _ _ hr ↦ by split_ifs <;> exact hr
  rcases hmap with ⟨⟨r, hr, hrid⟩, hrows⟩
  refine ⟨⟨r, List.mem_filter.mpr ⟨hr, decide_eq_true ?_⟩, hrid⟩, fun r' hr' ↦ ?_⟩
  · rw [hrid]
    exact hne.symm
  · exact hrows r' (List.mem_of_mem_filter hr')

/-- Nothing happens to a nick that is not selected. -/
theorem Kept.expireSelected (h : Kept nickId p table) {selected : AgedNick → Bool}
    (hnot : ∀ r ∈ table, r.nickId = nickId → p r.lastSeen.toNat → selected r = false) :
    Kept nickId p (expireSelected selected table) := by
  have hothers : ∀ id ∈ (table.filter selected).map AgedNick.nickId, id ≠ nickId := by
    intro id hid
    rcases List.mem_map.mp hid with ⟨r, hr, rfl⟩
    rcases List.mem_filter.mp hr with ⟨hr, hselected⟩
    intro hrid
    rw [hnot r hr hrid (h.2 r hr hrid)] at hselected
    exact Bool.false_ne_true hselected
  exact (along_of_forall hothers table).invariant (fun s id hs hne ↦ hs.mysqlDelnick hne) h

theorem toNat_store {x : ℤ} (hx : x < 2 ^ 32) : ((store x).toNat : ℤ) = max 0 x := by
  rw [store, BitVec.toNat_ofNat]
  omega

theorem age_eq {column : BitVec 32} (h : column.toNat ≤ now) (hnow : now < 2 ^ 31) :
    age now column = now - column.toNat := by
  rw [age]
  omega

/-- `unsuspend` leaves a time of the last visit that is not too old. -/
theorem kept_unsuspend (h : Registered nickId table) (ht : t < 2 ^ 31)
    (hgrace : conf.nsSuspendGrace ≤ conf.nsExpire) :
    Kept nickId (fun lastSeen ↦ conf.nsExpire ≠ 0 → conf.nsSuspendGrace ≠ 0 →
        t + conf.nsSuspendGrace ≤ lastSeen + conf.nsExpire ∧ lastSeen ≤ t)
      (unsuspend conf t nickId table) := by
  have hkept : Kept nickId (fun _ ↦ True) table := ⟨h, fun _ _ _ ↦ trivial⟩
  have hflags := hkept.map (q := fun _ ↦ True)
    (f := fun r ↦ if r.nickId = nickId then { r with flags := r.flags &&& ~~~NI_SUSPENDED } else r)
    (fun r ↦ by split_ifs <;> rfl) fun _ _ _ _ ↦ trivial
  rw [unsuspend]
  by_cases hset : conf.nsExpire ≠ 0 ∧ conf.nsSuspendGrace ≠ 0
  · simp only [if_pos hset]
    refine hflags.map (fun r ↦ by split_ifs <;> rfl) fun r _ hid _ _ _ ↦ ?_
    by_cases hold : (conf.nsExpire : ℤ) - conf.nsSuspendGrace ≤ age t r.lastSeen
    · rw [if_pos ⟨hid, hold⟩]
      have hstore := toNat_store (x := (t : ℤ) - conf.nsExpire + conf.nsSuspendGrace) (by omega)
      show _ ≤ (store _).toNat + _ ∧ (store _).toNat ≤ _
      omega
    · rw [if_neg fun h ↦ hold h.2]
      have hlt := r.lastSeen.isLt
      have hint := conf.nsExpire_int
      rw [age] at hold
      omega
  · simp only [if_neg hset]
    exact ⟨hflags.1, fun r _ _ hexpire hgrace ↦ absurd ⟨hexpire, hgrace⟩ hset⟩

/-- `expire_nicks` leaves a nick alone that was seen less than NSExpire seconds ago. -/
theorem Kept.expireNicks {c : ℕ} (h : Kept nickId (fun lastSeen ↦ conf.nsExpire ≠ 0 →
      t + conf.nsSuspendGrace ≤ lastSeen + conf.nsExpire ∧ lastSeen ≤ c) table)
    (hgrace : conf.nsSuspendGrace ≤ conf.nsExpire) (ht : t ≤ c) (hc : c ≤ now)
    (hnow : now < t + conf.nsSuspendGrace) (hint : now < 2 ^ 31)
    (hfits : conf.optNoexpire = true ∨ (conf.nsExtraGrace = true → conf.nsExpire * 3 < 2 ^ 31)) :
    Kept nickId (fun lastSeen ↦ conf.nsExpire ≠ 0 →
      t + conf.nsSuspendGrace ≤ lastSeen + conf.nsExpire ∧ lastSeen ≤ now)
      (expireNicks conf now table) := by
  have hseen : Kept nickId (fun lastSeen ↦ conf.nsExpire ≠ 0 →
      t + conf.nsSuspendGrace ≤ lastSeen + conf.nsExpire ∧ lastSeen ≤ now) (seen now table) := by
    refine h.map (fun r ↦ by split_ifs <;> rfl) fun r _ _ hr hexpire ↦ ?_
    have hbounds := hr hexpire
    have hstore := toNat_store (x := (now : ℤ)) (by omega)
    split_ifs
    · show _ ≤ (store _).toNat + _ ∧ (store _).toNat ≤ _
      omega
    · omega
  rw [SuspendGrace.expireNicks]
  by_cases hnone : conf.nsExpire = 0 ∨ conf.optNoexpire = true
  · simp only [if_pos hnone]
    exact hseen
  have hexpire : conf.nsExpire ≠ 0 := fun hzero ↦ hnone (.inl hzero)
  -- The nick is younger than any bound that is at least NSExpire.
  have hyoung (bound : ℤ) (hbound : (conf.nsExpire : ℤ) ≤ bound) (r : AgedNick)
      (hr : conf.nsExpire ≠ 0 →
        t + conf.nsSuspendGrace ≤ r.lastSeen.toNat + conf.nsExpire ∧ r.lastSeen.toNat ≤ now) :
      ¬ bound ≤ age now r.lastSeen := by
    have hbounds := hr hexpire
    rw [age_eq hbounds.2 hint]
    omega
  simp only [if_neg hnone]
  by_cases hextra : conf.nsExtraGrace = true
  · have htripled : tripled conf = (conf.nsExpire * 3 : ℕ) := by
      have hlt := hfits.resolve_left (fun hnoexpire ↦ hnone (.inr hnoexpire)) hextra
      rw [tripled, BitVec.toInt_eq_toNat_cond, BitVec.toNat_ofNat]
      split_ifs <;> omega
    rw [if_pos hextra]
    refine (hseen.expireSelected fun r _ _ hr ↦ ?_).expireSelected fun r _ _ hr ↦ ?_
    · exact decide_eq_false fun hselected ↦
        hyoung (tripled conf) (by rw [htripled]; omega) r hr hselected.2.1
    · exact decide_eq_false fun hselected ↦ hyoung _ le_rfl r hr hselected.2.1
  · rw [if_neg hextra]
    exact hseen.expireSelected fun r _ _ hr ↦ decide_eq_false fun hselected ↦
      hyoung _ le_rfl r hr hselected.1

end Kept

/-! ### The grace -/

/-- Without an overflow the nick survives. -/
theorem survives_of_fits {conf : Config} (hgrace : conf.nsSuspendGrace ≤ conf.nsExpire)
    (hfits : conf.optNoexpire = true ∨ conf.nsSuspendGrace = 0 ∨
      (conf.nsExtraGrace = true → conf.nsExpire * 3 < 2 ^ 31)) : Survives conf := by
  intro t nickId table ht hregistered events hwithin
  have hstart := kept_unsuspend hregistered ht hgrace
  refine (hwithin.invariant (p := fun s : State ↦ t ≤ s.clock ∧
    Kept nickId (fun lastSeen ↦ conf.nsExpire ≠ 0 → conf.nsSuspendGrace ≠ 0 →
      t + conf.nsSuspendGrace ≤ lastSeen + conf.nsExpire ∧ lastSeen ≤ s.clock) s.table)
    (fun s event hs hevent ↦ ?_) ⟨le_rfl, hstart⟩).2.1
  rcases hs with ⟨hclock, hkept⟩
  cases event with
  | expire now =>
    rcases hevent with ⟨hle, hlt, hint⟩
    have hpos : conf.nsSuspendGrace ≠ 0 := by omega
    refine ⟨hclock.trans hle, ?_⟩
    have hnext := Kept.expireNicks (c := s.clock)
      ⟨hkept.1, fun r hr hid hexpire ↦ hkept.2 r hr hid hexpire hpos⟩ hgrace hclock hle hlt hint
      (hfits.imp_right fun h ↦ h.resolve_left hpos)
    exact ⟨hnext.1, fun r hr hid hexpire _ ↦ hnext.2 r hr hid hexpire⟩
  | change table' =>
    have hmem (r : AgedNick) (hid : r.nickId = nickId) : r ∈ table' ↔ r ∈ s.table := by
      have hiff : r ∈ table'.filter (fun r ↦ r.nickId = nickId) ↔
          r ∈ s.table.filter fun r ↦ r.nickId = nickId := by rw [hevent]
      simpa [List.mem_filter, hid] using hiff
    rcases hkept with ⟨⟨r, hr, hid⟩, hrows⟩
    exact ⟨hclock, ⟨r, (hmem r hid).mpr hr, hid⟩, fun r' hr' hid' ↦ hrows r' ((hmem r' hid').mp hr') hid'⟩

/-- A nick that was registered and seen in 1970. -/
def oldNick : AgedNick := ⟨1, 0, 0#32, 0#32, 0#32, NI_SUSPENDED⟩

theorem expireSelected_singleton {selected : AgedNick → Bool} {r : AgedNick} (h : selected r = true) :
    expireSelected selected [r] = [] := by
  rw [expireSelected, List.filter_cons_of_pos h, List.filter_nil]
  show mysqlDelnick [r] r.nickId = []
  rw [mysqlDelnick, List.map_singleton, List.filter_cons_of_neg, List.filter_nil]
  split_ifs <;> simp

/-- With an overflow the nick is deleted in the last second of the grace. -/
theorem expireNicks_unsuspend_overflow {conf : Config} (hgrace : conf.nsSuspendGrace ≤ conf.nsExpire)
    (hpos : conf.nsSuspendGrace ≠ 0) (hexpires : conf.optNoexpire = false)
    (hextra : conf.nsExtraGrace = true) (hlarge : 2 ^ 31 ≤ conf.nsExpire * 3) :
    expireNicks conf (2 ^ 31 - 1)
      (unsuspend conf (2 ^ 31 - conf.nsSuspendGrace) 1 [oldNick]) = [] := by
  have hint := conf.nsExpire_int
  have hset : conf.nsExpire ≠ 0 ∧ conf.nsSuspendGrace ≠ 0 := ⟨by omega, hpos⟩
  have hnone : ¬ (conf.nsExpire = 0 ∨ conf.optNoexpire = true) := by simp [hset.1, hexpires]
  have hold : (conf.nsExpire : ℤ) - conf.nsSuspendGrace ≤
      age (2 ^ 31 - conf.nsSuspendGrace) 0#32 := by
    rw [age_eq (Nat.zero_le _) (by omega)]
    show _ ≤ _ - ((0 : ℕ) : ℤ)
    omega
  set lastSeen := store (((2 ^ 31 - conf.nsSuspendGrace : ℕ) : ℤ) - conf.nsExpire + conf.nsSuspendGrace)
    with hlastSeen
  have hstore : (lastSeen.toNat : ℤ) = 2 ^ 31 - conf.nsExpire := by
    rw [hlastSeen, toNat_store (by omega)]
    omega
  have hunsuspend : unsuspend conf (2 ^ 31 - conf.nsSuspendGrace) 1 [oldNick] =
      [⟨1, 0, 0#32, lastSeen, 0#32, 0#32⟩] := by
    simp only [unsuspend, if_pos hset, List.map_singleton]
    rw [if_pos ⟨rfl, hold⟩]
    rfl
  have hseen : seen (2 ^ 31 - 1) [⟨1, 0, 0#32, lastSeen, 0#32, 0#32⟩] =
      [⟨1, 0, 0#32, lastSeen, 0#32, 0#32⟩] := by simp [seen]
  have hregistered : halfMore conf ≤ age (2 ^ 31 - 1) 0#32 := by
    rw [age_eq (Nat.zero_le _) (by omega), halfMore]
    show _ ≤ _ - ((0 : ℕ) : ℤ)
    split_ifs <;> omega
  have hlate : tripled conf ≤ age (2 ^ 31 - 1) lastSeen := by
    have hwraps : conf.nsExpire * 3 / 2 ^ 32 = 0 ∨ conf.nsExpire * 3 / 2 ^ 32 = 1 := by omega
    rw [age_eq (by omega) (by omega), tripled, BitVec.toInt_eq_toNat_cond, BitVec.toNat_ofNat]
    rcases hwraps with hwraps | hwraps <;> split_ifs <;> omega
  have hexpirable : expirable ⟨1, 0, 0#32, lastSeen, 0#32, 0#32⟩ = true := by simp [expirable]
  rw [hunsuspend, expireNicks]
  simp only [if_neg hnone, if_pos hextra, hseen]
  rw [expireSelected_singleton (decide_eq_true ⟨hregistered, hlate, hexpirable⟩)]
  rfl

/-- The grace is kept iff nicks do not expire, or there is no grace, or three times NSExpire fits into an
`int` where NSExtraGrace asks for it. -/
theorem survives_iff (conf : Config) (hgrace : conf.nsSuspendGrace ≤ conf.nsExpire) :
    Survives conf ↔ conf.optNoexpire = true ∨ conf.nsSuspendGrace = 0 ∨
      (conf.nsExtraGrace = true → conf.nsExpire * 3 < 2 ^ 31) := by
  refine ⟨fun h ↦ ?_, survives_of_fits hgrace⟩
  by_contra hnot
  rcases not_or.mp hnot with ⟨hexpires, hnot⟩
  rcases not_or.mp hnot with ⟨hpos, hoverflow⟩
  rw [Classical.not_imp] at hoverflow
  rcases hoverflow with ⟨hextra, hlarge⟩
  have hint := conf.nsExpire_int
  have hwithin : Within conf (2 ^ 31 - conf.nsSuspendGrace) 1
      ⟨2 ^ 31 - conf.nsSuspendGrace, unsuspend conf (2 ^ 31 - conf.nsSuspendGrace) 1 [oldNick]⟩
      (.expire (2 ^ 31 - 1)) := by
    refine ⟨Nat.sub_le_sub_left (Nat.one_le_iff_ne_zero.mpr hpos) _, ?_, by decide⟩
    omega
  rcases h (2 ^ 31 - conf.nsSuspendGrace) 1 [oldNick] (by omega) ⟨oldNick, List.mem_singleton_self _, rfl⟩
    [.expire (2 ^ 31 - 1)] ⟨hwithin, trivial⟩ with ⟨r, hr, -⟩
  have hdeleted := expireNicks_unsuspend_overflow hgrace hpos (Bool.eq_false_iff.mpr hexpires) hextra
    (not_lt.mp hlarge)
  rw [List.foldl_cons, List.foldl_nil, step, hdeleted] at hr
  exact List.not_mem_nil hr

/-- The directives of `example.conf`, with NSExtraGrace. -/
def exampleConfig : Config := ⟨2592000, 432000, true, false, by decide⟩

theorem survives_iff_example : Survives exampleConfig :=
  (survives_iff exampleConfig (by decide)).mpr (.inr (.inr fun _ ↦ by decide))

/-- NSExpire 9000d. -/
def longConfig : Config := ⟨777600000, 432000, true, false, by decide⟩

/-- A nick whose time of registration was set to 1970, unsuspended in 2009 by a user who was just there, is
deleted at once. -/
theorem not_survives_long : ¬ Survives longConfig := by
  intro h
  rcases h 1250000000 1 [⟨1, 0, 86400#32, 1250000000#32, 0#32, NI_SUSPENDED⟩] (by decide)
    ⟨_, List.mem_singleton_self _, rfl⟩ [.expire 1250000000]
    ⟨⟨le_rfl, by decide, by decide⟩, trivial⟩ with ⟨r, hr, -⟩
  have hdeleted : expireNicks longConfig 1250000000
      (unsuspend longConfig 1250000000 1
        [⟨1, 0, 86400#32, 1250000000#32, 0#32, NI_SUSPENDED⟩]) = [] := by
    have hlength : (expireNicks longConfig 1250000000
        (unsuspend longConfig 1250000000 1
          [⟨1, 0, 86400#32, 1250000000#32, 0#32, NI_SUSPENDED⟩])).length = 0 := by decide +kernel
    exact List.length_eq_zero_iff.mp hlength
  rw [List.foldl_cons, List.foldl_nil, step, hdeleted] at hr
  exact List.not_mem_nil hr

end BlitzedServices.NickServ.SuspendGrace
