import BlitzedServices.ChanServ.Access

/-!
# Two ways to ask for one change of an access list

ACCESS DEL takes the number of an entry or its nick, and VOP, AOP and SOP ADD are "meant as a quick alias to ACCESS
ADD". Each way has its own code. This module compares what they leave of the tables.

A number goes through `process_numlist`, with a maximum of its own, to `access_del_callback`, which also asks for
the AKICK level when the entry is negative; the branch for a nick does neither. `doCsAccess_del_agree_iff` says when
the two agree. VOP, AOP and SOP do not ask for identification; `doCsXop_agree_iff` says when they agree with ACCESS.
-/

set_option autoImplicit false
set_option relaxedAutoImplicit false

namespace BlitzedServices.ChanServ

open Lib Mysql

/-! ### The keys of the table -/

/-- The keys of `chanaccess`, and the numbers of a channel's entries, which `sort_chan_access` makes distinct. -/
structure AccessKeys (db : Database) : Prop where
  chanaccessId : (db.chanaccess.map ChanaccessRow.chanaccessId).Nodup
  ne_zero : ∀ r ∈ db.chanaccess, r.chanaccessId ≠ 0
  nick : ∀ r ∈ db.chanaccess, ∀ s ∈ db.chanaccess, r.channelId = s.channelId → r.nickId = s.nickId → r = s
  idx : ∀ r ∈ db.chanaccess, ∀ s ∈ db.chanaccess, r.channelId = s.channelId → r.idx = s.idx → r = s

/-- `sort_chan_access` gives the entries of its channel distinct numbers. -/
theorem idx_sortChanAccess (db : Database) (channelId : ℕ) :
    ∀ r ∈ (sortChanAccess db channelId).chanaccess, ∀ s ∈ (sortChanAccess db channelId).chanaccess,
      r.channelId = channelId → s.channelId = channelId → r.idx = s.idx → r = s := by
  have hnumbered : ∀ r ∈ (sortChanAccess db channelId).chanaccess, r.channelId = channelId →
      ∃ r₀ ∈ sortedAccess db channelId, r = { r₀ with idx := (sortedAccess db channelId).idxOf r₀ + 1 } := by
    intro r hr hchannel
    obtain ⟨r₀, hr₀, rfl⟩ := List.mem_map.mp hr
    by_cases hmem : r₀ ∈ sortedAccess db channelId
    · exact ⟨r₀, hmem, if_pos hmem⟩
    · rw [if_neg hmem] at hchannel
      exact absurd (mem_sortedAccess.mpr ⟨hr₀, hchannel⟩) hmem
  intro r hr s hs hrc hsc hidx
  obtain ⟨r₀, hr₀, rfl⟩ := hnumbered r hr hrc
  obtain ⟨s₀, hs₀, rfl⟩ := hnumbered s hs hsc
  have hpos : (sortedAccess db channelId).idxOf r₀ = (sortedAccess db channelId).idxOf s₀ :=
    Nat.succ_injective hidx
  rw [List.idxOf_inj hr₀ |>.mp hpos]

/-! ### What a request removes -/

/-- No row of the entry is left. -/
def Removed (r : ChanaccessRow) (db : Database) : Prop :=
  ∀ s ∈ db.chanaccess, s.chanaccessId ≠ r.chanaccessId

/-- Every other entry stays, but for its number and the time of its last use. -/
def KeepsOthers (r : ChanaccessRow) (db db' : Database) : Prop :=
  ∀ s ∈ db.chanaccess, s.chanaccessId ≠ r.chanaccessId → ∃ s' ∈ db'.chanaccess, SameEntry s s'

/-- A change that keeps every entry, this one too. -/
def KeepsAll (db db' : Database) : Prop :=
  ∀ s ∈ db.chanaccess, ∃ s' ∈ db'.chanaccess, SameEntry s s'

section Removal

variable {r : ChanaccessRow} {db db₁ : Database}

theorem KeepsAll.keepsOthers (h : KeepsAll db db₁) : KeepsOthers r db db₁ :=
  fun s hs _ ↦ h s hs

theorem KeepsAll.not_removed (h : KeepsAll db db₁) (hr : r ∈ db.chanaccess) : ¬ Removed r db₁ := by
  intro hgone
  obtain ⟨r', hr', hsame⟩ := h r hr
  exact hgone r' hr' hsame.chanaccessId

/-- A change of single rows that keeps each entry. -/
theorem keepsAll_map {f : ChanaccessRow → ChanaccessRow} (hf : ∀ s ∈ db.chanaccess, SameEntry s (f s)) :
    KeepsAll db { db with chanaccess := db.chanaccess.map f } :=
  fun s hs ↦ ⟨f s, List.mem_map_of_mem hs, hf s hs⟩

theorem keepsAll_sortChanAccess (db : Database) (channelId : ℕ) : KeepsAll db (sortChanAccess db channelId) := by
  refine keepsAll_map fun s _ ↦ ?_
  split <;> rfl

/-- Deleting the entry from a table that has all entries removes it and no other. -/
theorem removed_sortChanAccess_deleteAccess (h : KeepsAll db db₁) (channelId : ℕ) :
    Removed r (sortChanAccess (deleteAccess db₁ r.chanaccessId) channelId) ∧
      KeepsOthers r db (sortChanAccess (deleteAccess db₁ r.chanaccessId) channelId) := by
  constructor
  · intro s hs
    obtain ⟨s₀, hs₀, rfl⟩ := List.mem_map.mp hs
    have hid : s₀.chanaccessId ≠ r.chanaccessId := by
      simpa [deleteAccess] using (List.mem_filter.mp hs₀).2
    split <;> exact hid
  · intro s hs hne
    obtain ⟨s₁, hs₁, hsame⟩ := h s hs
    have hmem : s₁ ∈ (deleteAccess db₁ r.chanaccessId).chanaccess :=
      List.mem_filter.mpr ⟨hs₁, by simpa [hsame.chanaccessId] using hne⟩
    obtain ⟨s₂, hs₂, hsame₂⟩ := keepsAll_sortChanAccess _ channelId s₁ hmem
    exact ⟨s₂, hs₂, hsame.trans hsame₂⟩

end Removal

/-! ### A list of one number -/

/-- `strtol` stops behind the digits a text starts with. -/
theorem strtolRest_of_isDigit {c : Char} {s : CString} (hc : c.isDigit) :
    strtolRest (c :: s) = (c :: s).dropWhile Char.isDigit := by
  have hspace : isspace c = false := by
    by_contra h
    simp only [isspace, Bool.not_eq_false, Bool.or_eq_true, beq_iff_eq, or_assoc] at h
    rcases h with rfl | rfl | rfl | rfl | rfl | rfl <;> exact absurd hc (by decide)
  have hsign : ¬ (c = '-' ∨ c = '+') := by
    rintro (rfl | rfl) <;> exact absurd hc (by decide)
  simp [strtolRest, hspace, hsign, hc]

/-- `strtol` reads a text of digits to its end. -/
theorem strtolRest_digits {s : CString} (hne : s ≠ []) (hdigit : ∀ c ∈ s, c.isDigit) : strtolRest s = [] := by
  cases s with
  | nil => exact absurd rfl hne
  | cons c s =>
    rw [strtolRest_of_isDigit (hdigit c (List.mem_cons_self ..))]
    exact List.dropWhile_eq_nil_iff.mpr hdigit

theorem isDigit_of_mem_decimal {n : ℕ} : decimal n ≠ [] ∧ ∀ c ∈ decimal n, c.isDigit := by
  have htext : decimal n = Nat.toDigits 10 n := by
    simp [decimal]
  rw [htext]
  exact ⟨Nat.toDigits_ne_nil, fun c hc ↦ Nat.isDigit_of_mem_toDigits (by decide) (by decide) hc⟩

/-- A number alone is one range. -/
theorem numlistRanges_decimal (i : BitVec 32) : numlistRanges (decimal i.toNat) = [(i.toNat, i.toNat)] := by
  obtain ⟨hne, hdigit⟩ := isDigit_of_mem_decimal (n := i.toNat)
  have hsplit : (decimal i.toNat).splitOn ',' = [decimal i.toNat] :=
    List.splitOn_eq_singleton fun hcomma ↦ absurd (hdigit _ hcomma) (by decide)
  have hvalue : (BitVec.ofInt 32 (strtol (decimal i.toNat))).toNat = i.toNat :=
    congrArg BitVec.toNat (atoi_decimal_toNat i)
  simp [numlistRanges, hsplit, hne, numlistRange, strtolRest_digits hne hdigit, hvalue]

theorem numlist_decimal (hi : ℕ) (i : BitVec 32) :
    numlist (decimal i.toNat) 1 hi = if 1 ≤ i.toNat ∧ i.toNat ≤ hi ∧ i.toNat ≤ 65536 then [i.toNat] else [] := by
  simp only [numlist, numlistRanges_decimal, List.map_cons, List.map_nil, List.any_cons, List.any_nil, Bool.or_false]
  split_ifs with hreached
  · have hself : ∀ k, (decide (max i.toNat 1 ≤ k) && decide (k ≤ min (min i.toNat hi) 65536)) = (k == i.toNat) := by
      intro k
      rw [Bool.eq_iff_iff]
      simp only [Bool.and_eq_true, decide_eq_true_eq, beq_iff_eq]
      omega
    simp only [hself]
    rw [List.filter_beq, List.count_eq_one_of_mem List.nodup_range (List.mem_range.mpr (by omega))]
    rfl
  · rw [List.filter_eq_nil_iff]
    intro k _
    simp only [Bool.and_eq_true, decide_eq_true_eq]
    omega

/-- The numbers that ACCESS DEL reaches. The maximum is unsigned, so a limit of 0 puts none. -/
def NumberReached (env : AccessEnv) (i : ℕ) : Prop :=
  1 ≤ i ∧ i ≤ (env.csAccessMax + (2 ^ 32 - 1)) % 2 ^ 32 ∧ i ≤ 65536

instance (env : AccessEnv) (i : ℕ) : Decidable (NumberReached env i) :=
  inferInstanceAs (Decidable (_ ∧ _))

/-! ### The rows after a look at the user's level -/

theorem keepsAll_getAccess (u : AccessUser) (now : ℕ) (db : Database) (channelId : ℕ) :
    KeepsAll db (getAccess u now db channelId).2 := by
  obtain ⟨stamp, hstamp⟩ := getAccess_stamps u now db channelId
  rw [hstamp]
  exact keepsAll_map fun s _ ↦ rfl

theorem nick_getAccess (u : AccessUser) (now : ℕ) (db : Database) (channelId : ℕ) :
    (getAccess u now db channelId).2.nick = db.nick := by
  obtain ⟨stamp, hstamp⟩ := getAccess_stamps u now db channelId
  rw [hstamp]

theorem getChanLevel_getAccess (u : AccessUser) (now : ℕ) (db : Database) (channelId what : ℕ) :
    getChanLevel (getAccess u now db channelId).2 channelId what = getChanLevel db channelId what := by
  obtain ⟨stamp, hstamp⟩ := getAccess_stamps u now db channelId
  rw [hstamp]
  rfl

theorem exists_stamped {db : Database} {r : ChanaccessRow} (hr : r ∈ db.chanaccess) (u : AccessUser)
    (now channelId : ℕ) : ∃ t, { r with lastUsed := t } ∈ (getAccess u now db channelId).2.chanaccess := by
  obtain ⟨stamp, hstamp⟩ := getAccess_stamps u now db channelId
  rw [hstamp]
  exact ⟨stamp r, List.mem_map.mpr ⟨r, hr, rfl⟩⟩

/-- The keys are still keys. -/
theorem AccessKeys.getAccess {db : Database} (h : AccessKeys db) (u : AccessUser) (now channelId : ℕ) :
    AccessKeys (getAccess u now db channelId).2 := by
  obtain ⟨stamp, hstamp⟩ := getAccess_stamps u now db channelId
  rw [hstamp]
  constructor
  · simpa [Function.comp_def] using h.chanaccessId
  · simpa using h.ne_zero
  · intro r hr s hs hchannel hnick
    obtain ⟨r₀, hr₀, rfl⟩ := List.mem_map.mp hr
    obtain ⟨s₀, hs₀, rfl⟩ := List.mem_map.mp hs
    rw [h.nick r₀ hr₀ s₀ hs₀ hchannel hnick]
  · intro r hr s hs hchannel hidx
    obtain ⟨r₀, hr₀, rfl⟩ := List.mem_map.mp hr
    obtain ⟨s₀, hs₀, rfl⟩ := List.mem_map.mp hs
    rw [h.idx r₀ hr₀ s₀ hs₀ hchannel hidx]

/-! ### ACCESS DEL -/

section Del

variable {env : AccessEnv} {u : AccessUser} {db : Database} {uacc : ℤ} {r : ChanaccessRow}

/-- The callback refuses an entry that is not below the user, and a negative one if he may not AKICK. -/
def MayDelByNumber (uacc akickLev : ℤ) (r : ChanaccessRow) : Prop :=
  r.level < uacc ∧ (r.level < 0 → akickLev < uacc)

instance (uacc akickLev : ℤ) (r : ChanaccessRow) : Decidable (MayDelByNumber uacc akickLev r) :=
  inferInstanceAs (Decidable (_ ∧ _))

theorem accessDelCallback_entry (uacc : ℤ) (hkeys : AccessKeys db) (hr : r ∈ db.chanaccess)
    (hnick : db.nick.any (·.nickId = r.nickId)) (akickLev last perm : ℤ) (hpos : 1 ≤ r.idx) :
    let st := accessDelCallback r.channelId uacc akickLev ⟨db, 0, 0, last, perm⟩ r.idx
    if MayDelByNumber uacc akickLev r then st.db = deleteAccess db r.chanaccessId ∧ st.deleted = 1
    else st.db = db ∧ st.deleted = 0 := by
  have hfind : (db.chanaccess.find? fun s ↦
      s.channelId = r.channelId ∧ s.idx = r.idx ∧ db.nick.any (·.nickId = s.nickId)) = some r := by
    refine find?_eq_some_of_unique hr (by simpa using hnick) fun s hs hmeets ↦ ?_
    have hmeets := of_decide_eq_true hmeets
    exact hkeys.idx s hs r hr hmeets.1 hmeets.2.1
  have hzero := hkeys.ne_zero r hr
  simp only [accessDelCallback, hfind, if_neg (by omega : ¬ r.idx < 1), if_neg hzero]
  by_cases hmay : MayDelByNumber uacc akickLev r
  · have hnot : ¬ (uacc ≤ r.level ∨ (r.level < 0 ∧ uacc ≤ akickLev)) := by
      unfold MayDelByNumber at hmay
      omega
    simp [hmay, hnot]
  · have hrefused : uacc ≤ r.level ∨ (r.level < 0 ∧ uacc ≤ akickLev) := by
      unfold MayDelByNumber at hmay
      omega
    simp [hmay, hrefused]

/-- DEL with the number of an entry. -/
theorem doCsAccessDelNumbers_entry (hkeys : AccessKeys db) (hr : r ∈ db.chanaccess)
    (hnick : db.nick.any (·.nickId = r.nickId)) (hacc : getAccess u env.now db r.channelId = (uacc, db))
    {i : BitVec 32} (hidx : r.idx = i.toNat) :
    (doCsAccessDelNumbers env u db r.channelId (decimal i.toNat)).2 =
      if NumberReached env r.idx ∧ MayDelByNumber uacc (getChanLevel db r.channelId CA_AKICK) r then
        sortChanAccess (deleteAccess db r.chanaccessId) r.channelId
      else db := by
  unfold doCsAccessDelNumbers
  simp only [hacc, numlist_decimal]
  by_cases hreached : NumberReached env r.idx
  · have hone : (if 1 ≤ i.toNat ∧ i.toNat ≤ (env.csAccessMax + (2 ^ 32 - 1)) % 2 ^ 32 ∧ i.toNat ≤ 65536
        then [i.toNat] else []) = [r.idx] := by
      rw [hidx] at hreached ⊢
      exact if_pos hreached
    have hentry := accessDelCallback_entry uacc hkeys hr hnick (getChanLevel db r.channelId CA_AKICK)
      env.last env.perm hreached.1
    rw [hone, List.foldl_cons, List.foldl_nil]
    by_cases hmay : MayDelByNumber uacc (getChanLevel db r.channelId CA_AKICK) r
    · simp only [if_pos hmay] at hentry
      simp [hreached, hmay, hentry]
    · simp only [if_neg hmay] at hentry
      simp only [hreached, hmay, and_false, if_false, hentry, if_true]
      split_ifs <;> rfl
  · have hnone : (if 1 ≤ i.toNat ∧ i.toNat ≤ (env.csAccessMax + (2 ^ 32 - 1)) % 2 ^ 32 ∧ i.toNat ≤ 65536
        then [i.toNat] else []) = [] := by
      rw [hidx] at hreached
      exact if_neg hreached
    rw [hnone, List.foldl_nil]
    simp only [hreached, false_and, if_false, if_true]
    split_ifs <;> rfl

/-- DEL with the nick of an entry. -/
theorem doCsAccessDelNick_entry (hkeys : AccessKeys db) (hr : r ∈ db.chanaccess)
    (hacc : getAccess u env.now db r.channelId = (uacc, db)) {nick : CString} {ni : NickRow}
    (hname : mysqlFindnickinfo db nick = some ni) (hni : ni.nickId = r.nickId) (hne : ni.nickId ≠ 0) :
    (doCsAccessDelNick env u db r.channelId nick).2 =
      if r.level < uacc then sortChanAccess (deleteAccess db r.chanaccessId) r.channelId else db := by
  have hfind : getChanaccessFromNickid db ni.nickId r.channelId = some r := by
    refine find?_eq_some_of_unique hr (by simp [hni]) fun s hs hmeets ↦ ?_
    have hmeets := of_decide_eq_true hmeets
    exact hkeys.nick s hs r hr hmeets.2 (hmeets.1.trans hni)
  unfold doCsAccessDelNick
  simp only [hname, if_neg hne, hfind, if_neg (hkeys.ne_zero r hr), hacc]
  by_cases hlevel : r.level < uacc
  · rw [if_pos hlevel, if_neg (not_le.mpr hlevel)]
  · rw [if_neg hlevel, if_pos (not_lt.mp hlevel)]

/-- The tests before DEL and ADD that all four commands make: the user may change the list of a registered channel. -/
structure MayChange (env : AccessEnv) (u : AccessUser) (db : Database) (channelId : ℕ) : Prop where
  registered : channelId ≠ 0
  not_forbidden : getChanFlags db channelId &&& CI_VERBOTEN = 0#32
  access : (checkAccess u env.now db channelId CA_ACCESS_CHANGE).1 = true ∨ u.isServicesAdmin = true

/-- A test of the privilege that is passed, by level or as a services admin. -/
theorem mayChange_of_not_denied {channelId : ℕ} (hfound : channelId ≠ 0)
    (hforbidden : ¬ getChanFlags db channelId &&& CI_VERBOTEN ≠ 0#32)
    (hdenied : ¬ ((checkAccess u env.now db channelId CA_ACCESS_CHANGE).1 = false ∧ u.isServicesAdmin = false)) :
    MayChange env u db channelId := by
  refine ⟨hfound, not_not.mp hforbidden, ?_⟩
  by_contra h
  rw [not_or, Bool.not_eq_true, Bool.not_eq_true] at h
  exact hdenied h

theorem MayChange.not_denied {channelId : ℕ} (h : MayChange env u db channelId) :
    ¬ ((checkAccess u env.now db channelId CA_ACCESS_CHANGE).1 = false ∧ u.isServicesAdmin = false) := by
  rintro ⟨haccess, hadmin⟩
  rcases h.access with h | h
  · exact absurd (h.symm.trans haccess) (by decide)
  · exact absurd (h.symm.trans hadmin) (by decide)

/-- A word that is one command is no other. -/
theorem stricmp_ne_zero {cmd word other : CString} (h : stricmp cmd word = 0)
    (hne : word.map Char.toLower ≠ other.map Char.toLower) : stricmp cmd other ≠ 0 :=
  fun heq ↦ hne (((stricmp_eq_zero_iff _ _).mp h).symm.trans ((stricmp_eq_zero_iff _ _).mp heq))

theorem isList_of_stricmp {cmd word : CString} (h : stricmp cmd word = 0)
    (hne : ∀ list ∈ ["LIST".toList, "COUNT".toList, "VIEW".toList],
      word.map Char.toLower ≠ list.map Char.toLower) : isList cmd = false := by
  have hlist := stricmp_ne_zero h (hne "LIST".toList (by simp))
  have hcount := stricmp_ne_zero h (hne "COUNT".toList (by simp))
  have hview := stricmp_ne_zero h (hne "VIEW".toList (by simp))
  rw [isList, beq_false_of_ne hlist, beq_false_of_ne hcount, beq_false_of_ne hview]
  rfl

/-- ACCESS DEL: the entry point of the deletion, or a refusal. -/
theorem doCsAccess_del (env : AccessEnv) (u : AccessUser) (db : Database) {rest chan cmd what : CString}
    (hwords : strtokWords rest = [chan, cmd, what]) (hcmd : stricmp cmd "DEL".toList = 0) :
    (nickIdentified u = true ∧ MayChange env u db (mysqlFindchan db chan) ∧
      (doCsAccess env u db rest).2 = (doCsAccessDel env u (getAccess u env.now db (mysqlFindchan db chan)).2
        (mysqlFindchan db chan) what).2) ∨
      (¬ (nickIdentified u = true ∧ MayChange env u db (mysqlFindchan db chan)) ∧
        KeepsAll db (doCsAccess env u db rest).2) := by
  have hkept : KeepsAll db db := fun s hs ↦ ⟨s, hs, SameEntry.refl s⟩
  have hadd : stricmp cmd "ADD".toList ≠ 0 := stricmp_ne_zero hcmd (by decide)
  have hlist : isList cmd = false := isList_of_stricmp hcmd (by decide)
  have hbad : badWords cmd (some what) none = false := by
    rw [badWords, hlist, if_neg Bool.false_ne_true, if_pos (beq_iff_eq.mpr hcmd)]
    rfl
  unfold doCsAccess
  simp only [hwords, hlist, List.getElem?_cons_zero, List.getElem?_cons_succ, List.getElem?_nil, hbad,
    true_and, Bool.false_eq_true, if_false, Option.getD_some]
  split_ifs with hid hfound hforbidden hdenied
  · exact Or.inr ⟨fun h ↦ by simp [h.1] at hid, hkept⟩
  · exact Or.inr ⟨fun h ↦ h.2.registered hfound, hkept⟩
  · exact Or.inr ⟨fun h ↦ hforbidden h.2.not_forbidden, hkept⟩
  · exact Or.inr ⟨fun h ↦ h.2.not_denied hdenied, checkAccess_snd u env.now _ ▸ keepsAll_getAccess u env.now db _⟩
  · rw [checkAccess_snd]
    exact Or.inl ⟨by simpa using hid, mayChange_of_not_denied hfound hforbidden hdenied, rfl⟩

theorem isNumlist_decimal (n : ℕ) : isNumlist (decimal n) = true := by
  obtain ⟨hne, hdigit⟩ := isDigit_of_mem_decimal (n := n)
  cases htext : decimal n with
  | nil => exact absurd htext hne
  | cons c s =>
    rw [htext] at hdigit
    have hc := hdigit c (List.mem_cons_self ..)
    have hs : ∀ d ∈ s, d.isDigit := fun d hd ↦ hdigit d (List.mem_cons_of_mem _ hd)
    simp only [isNumlist, List.head?_cons, Option.any_some, hc, Bool.true_and, List.all_cons, Bool.true_or]
    exact List.all_eq_true.mpr fun d hd ↦ by simp [hs d hd]

/-- Two requests remove the entry in the same cases, and neither removes another. -/
structure DelsAgree (r : ChanaccessRow) (db dbNumber dbNick : Database) : Prop where
  removed : Removed r dbNumber ↔ Removed r dbNick
  number : KeepsOthers r db dbNumber
  nick : KeepsOthers r db dbNick

/-- The entry is one that the user may not delete in any way; or DEL reaches its number, and he may AKICK if the
entry is negative. -/
def DelMeets (env : AccessEnv) (u : AccessUser) (db : Database) (r : ChanaccessRow) : Prop :=
  nickIdentified u = true → MayChange env u db r.channelId → r.level < (getAccess u env.now db r.channelId).1 →
    NumberReached env r.idx ∧
      (r.level < 0 → getChanLevel db r.channelId CA_AKICK < (getAccess u env.now db r.channelId).1)

/-- What DEL leaves when it deletes the entry under a condition: the entry is removed if that is met, and no other. -/
theorem removed_iff_of_del {db₁ dbEnd : Database} (hkept : KeepsAll db db₁) (hr : r ∈ db.chanaccess) {met : Prop}
    [Decidable met] {channelId : ℕ}
    (hend : dbEnd = if met then sortChanAccess (deleteAccess db₁ r.chanaccessId) channelId else db₁) :
    (Removed r dbEnd ↔ met) ∧ KeepsOthers r db dbEnd := by
  obtain ⟨hremoved, hothers⟩ := removed_sortChanAccess_deleteAccess (r := r) hkept channelId
  rw [hend]
  by_cases hmet : met
  · rw [if_pos hmet]
    exact ⟨iff_of_true hremoved hmet, hothers⟩
  · rw [if_neg hmet]
    exact ⟨iff_of_false (hkept.not_removed hr) hmet, hkept.keepsOthers⟩

/-- What the user must be to delete the entry in any way. -/
structure MayDel (env : AccessEnv) (u : AccessUser) (db : Database) (r : ChanaccessRow) : Prop where
  identified : nickIdentified u = true
  change : MayChange env u db r.channelId
  below : r.level < (getAccess u env.now db r.channelId).1

variable {chan cmd rest : CString}

/-- DEL with the number of the entry. -/
theorem removed_of_delNumber (env : AccessEnv) (u : AccessUser) (hkeys : AccessKeys db) (hr : r ∈ db.chanaccess)
    {i : BitVec 32} (hwords : strtokWords rest = [chan, cmd, decimal i.toNat]) (hcmd : stricmp cmd "DEL".toList = 0)
    (hchan : mysqlFindchan db chan = r.channelId) (hidx : r.idx = i.toNat)
    (hnick : db.nick.any (·.nickId = r.nickId)) :
    (Removed r (doCsAccess env u db rest).2 ↔ MayDel env u db r ∧ NumberReached env r.idx ∧
        (r.level < 0 → getChanLevel db r.channelId CA_AKICK < (getAccess u env.now db r.channelId).1)) ∧
      KeepsOthers r db (doCsAccess env u db rest).2 := by
  have hcase := doCsAccess_del env u db hwords hcmd
  rw [hchan] at hcase
  rcases hcase with ⟨hid, hmay, hend⟩ | ⟨hrefused, hkept⟩
  · -- The deletion looks at the user's level again, which changes nothing more.
    obtain ⟨t, hr₁⟩ := exists_stamped hr u env.now r.channelId
    have hacc : getAccess u env.now (getAccess u env.now db r.channelId).2 r.channelId =
        ((getAccess u env.now db r.channelId).1, (getAccess u env.now db r.channelId).2) :=
      getAccess_idem u env.now
    rw [← nick_getAccess u env.now db r.channelId] at hnick
    rw [doCsAccessDel, if_pos (isNumlist_decimal _),
      doCsAccessDelNumbers_entry (hkeys.getAccess u env.now r.channelId) hr₁ hnick hacc hidx,
      getChanLevel_getAccess] at hend
    obtain ⟨hremoved, hothers⟩ := removed_iff_of_del (keepsAll_getAccess u env.now db r.channelId) hr hend
    refine ⟨hremoved.trans ?_, hothers⟩
    constructor
    · exact fun ⟨hreached, hlevel, hakick⟩ ↦ ⟨⟨hid, hmay, hlevel⟩, hreached, hakick⟩
    · exact fun ⟨hdel, hreached, hakick⟩ ↦ ⟨hreached, hdel.below, hakick⟩
  · exact ⟨iff_of_false (hkept.not_removed hr) fun h ↦ hrefused ⟨h.1.identified, h.1.change⟩, hkept.keepsOthers⟩

/-- DEL with the nick of the entry. -/
theorem removed_of_delNick (env : AccessEnv) (u : AccessUser) (hkeys : AccessKeys db) (hr : r ∈ db.chanaccess)
    {nick : CString} {ni : NickRow} (hwords : strtokWords rest = [chan, cmd, nick])
    (hcmd : stricmp cmd "DEL".toList = 0) (hchan : mysqlFindchan db chan = r.channelId)
    (hname : mysqlFindnickinfo db nick = some ni) (hni : ni.nickId = r.nickId) (hne : ni.nickId ≠ 0)
    (hword : isNumlist nick = false) :
    (Removed r (doCsAccess env u db rest).2 ↔ MayDel env u db r) ∧ KeepsOthers r db (doCsAccess env u db rest).2 := by
  have hcase := doCsAccess_del env u db hwords hcmd
  rw [hchan] at hcase
  rcases hcase with ⟨hid, hmay, hend⟩ | ⟨hrefused, hkept⟩
  · obtain ⟨t, hr₁⟩ := exists_stamped hr u env.now r.channelId
    have hacc : getAccess u env.now (getAccess u env.now db r.channelId).2 r.channelId =
        ((getAccess u env.now db r.channelId).1, (getAccess u env.now db r.channelId).2) :=
      getAccess_idem u env.now
    have hname₁ : mysqlFindnickinfo (getAccess u env.now db r.channelId).2 nick = some ni := by
      rw [mysqlFindnickinfo, nick_getAccess]
      exact hname
    rw [doCsAccessDel, if_neg (Bool.not_eq_true _ ▸ hword),
      doCsAccessDelNick_entry (hkeys.getAccess u env.now r.channelId) hr₁ hacc hname₁ hni hne] at hend
    obtain ⟨hremoved, hothers⟩ := removed_iff_of_del (keepsAll_getAccess u env.now db r.channelId) hr hend
    exact ⟨hremoved.trans ⟨fun hlevel ↦ ⟨hid, hmay, hlevel⟩, MayDel.below⟩, hothers⟩
  · exact ⟨iff_of_false (hkept.not_removed hr) fun h ↦ hrefused ⟨h.identified, h.change⟩, hkept.keepsOthers⟩

/-- DEL with an entry's number and DEL with its nick agree exactly when the entry meets this. The nick is not read
as a list of numbers: no nick of the network starts with a digit. -/
theorem doCsAccess_del_agree_iff (hkeys : AccessKeys db) (hr : r ∈ db.chanaccess) {nick : CString}
    {i : BitVec 32} {ni : NickRow} {restNumber restNick : CString}
    (hnumber : strtokWords restNumber = [chan, cmd, decimal i.toNat])
    (hnick : strtokWords restNick = [chan, cmd, nick]) (hcmd : stricmp cmd "DEL".toList = 0)
    (hchan : mysqlFindchan db chan = r.channelId) (hidx : r.idx = i.toNat)
    (hname : mysqlFindnickinfo db nick = some ni) (hni : ni.nickId = r.nickId) (hne : ni.nickId ≠ 0)
    (hword : isNumlist nick = false) :
    DelsAgree r db (doCsAccess env u db restNumber).2 (doCsAccess env u db restNick).2 ↔ DelMeets env u db r := by
  have hany : db.nick.any (·.nickId = r.nickId) :=
    List.any_eq_true.mpr ⟨ni, List.mem_of_find?_eq_some hname, by simpa using hni⟩
  obtain ⟨hremoved, hothers⟩ := removed_of_delNumber env u hkeys hr hnumber hcmd hchan hidx hany
  obtain ⟨hremoved', hothers'⟩ := removed_of_delNick env u hkeys hr hnick hcmd hchan hname hni hne hword
  have hagree : DelsAgree r db (doCsAccess env u db restNumber).2 (doCsAccess env u db restNick).2 ↔
      (Removed r (doCsAccess env u db restNumber).2 ↔ Removed r (doCsAccess env u db restNick).2) :=
    ⟨DelsAgree.removed, fun h ↦ ⟨h, hothers, hothers'⟩⟩
  rw [hagree, hremoved, hremoved']
  constructor
  · exact fun hiff hid hmay hlevel ↦ (hiff.mpr ⟨hid, hmay, hlevel⟩).2
  · exact fun hmeets ↦ ⟨And.left, fun hdel ↦ ⟨hdel, hmeets hdel.identified hdel.change hdel.below⟩⟩

theorem accessKeys_exampleAccess : AccessKeys exampleAccess where
  chanaccessId := by decide
  ne_zero := by decide
  nick := by decide
  idx := by decide

/-- The entry of nick `b`, number 2 of `#`. -/
def exampleEntry : ChanaccessRow :=
  ⟨2, 1, 2, 5, 2, 100, 100, 0, 0, ['a'], ['a']⟩

/-- With room for 100 entries its number is reached. -/
theorem doCsAccess_del_agree_iff_example :
    DelsAgree exampleEntry exampleAccess
        (doCsAccess ⟨100, 200, 0, 0⟩ exampleActor exampleAccess "# DEL 2".toList).2
        (doCsAccess ⟨100, 200, 0, 0⟩ exampleActor exampleAccess "# DEL b".toList).2 ↔
      DelMeets ⟨100, 200, 0, 0⟩ exampleActor exampleAccess exampleEntry :=
  doCsAccess_del_agree_iff accessKeys_exampleAccess (by decide)
    (by decide +kernel : strtokWords "# DEL 2".toList = [['#'], "DEL".toList, decimal (2#32).toNat])
    (by decide +kernel : strtokWords "# DEL b".toList = [['#'], "DEL".toList, ['b']])
    (by decide) (by decide) (by decide)
    (by decide : mysqlFindnickinfo exampleAccess ['b'] = some ⟨2, ['b'], 0#32, 0, 0#32, 20⟩)
    (by decide) (by decide) (by decide)

/-- With room for 2 entries number 2 is past the maximum, and DEL with the nick deletes the entry. -/
theorem doCsAccess_del_differ :
    ¬ ∀ env u db r, AccessKeys db → r ∈ db.chanaccess → ∀ chan cmd nick (i : BitVec 32) ni restNumber restNick,
      strtokWords restNumber = [chan, cmd, decimal i.toNat] → strtokWords restNick = [chan, cmd, nick] →
      stricmp cmd "DEL".toList = 0 → mysqlFindchan db chan = r.channelId → r.idx = i.toNat →
      mysqlFindnickinfo db nick = some ni → ni.nickId = r.nickId → ni.nickId ≠ 0 → isNumlist nick = false →
      DelsAgree r db (doCsAccess env u db restNumber).2 (doCsAccess env u db restNick).2 := by
  intro h
  have hagree := h ⟨2, 200, 0, 0⟩ exampleActor exampleAccess exampleEntry accessKeys_exampleAccess (by decide)
    ['#'] "DEL".toList ['b'] 2#32 ⟨2, ['b'], 0#32, 0, 0#32, 20⟩ "# DEL 2".toList "# DEL b".toList
    (by decide +kernel) (by decide +kernel) (by decide) (by decide) (by decide) (by decide) (by decide) (by decide)
    (by decide)
  have hnick := (removed_of_delNick ⟨2, 200, 0, 0⟩ exampleActor accessKeys_exampleAccess
    (by decide : exampleEntry ∈ exampleAccess.chanaccess)
    (by decide +kernel : strtokWords "# DEL b".toList = [['#'], "DEL".toList, ['b']]) (by decide) (by decide)
    (by decide : mysqlFindnickinfo exampleAccess ['b'] = some ⟨2, ['b'], 0#32, 0, 0#32, 20⟩) (by decide) (by decide)
    (by decide)).1.mpr ⟨by decide, ⟨by decide, by decide, by decide⟩, by decide⟩
  have hnumber := (removed_of_delNumber ⟨2, 200, 0, 0⟩ exampleActor accessKeys_exampleAccess
    (by decide : exampleEntry ∈ exampleAccess.chanaccess)
    (by decide +kernel : strtokWords "# DEL 2".toList = [['#'], "DEL".toList, decimal (2#32).toNat]) (by decide)
    (by decide) (by decide) (by decide)).1.mp (hagree.removed.mpr hnick)
  exact absurd hnumber.2.1 (by decide)

end Del

/-! ### VOP, AOP and SOP ADD -/

section Add

variable {env : AccessEnv} {u : AccessUser} {db : Database} {channelId what : ℕ} {nick s : CString}

/-- The replies of an ADD that has changed or added an entry. -/
def AccessReply.Succeeds : AccessReply → Prop
  | .CHAN_ACCESS_LEVEL_CHANGED _ => True
  | .CHAN_ACCESS_ADDED _ => True
  | _ => False

/-- The names of nicks are a key. -/
structure NickKeys (db : Database) : Prop where
  ids : Keys db
  names : ∀ r ∈ db.nick, ∀ s ∈ db.nick, sameName r.nick s.nick → r = s

theorem sameName_of_same {a b c : CString} (ha : sameName a c) (hb : sameName b c) : sameName a b := by
  rw [sameName, beq_iff_eq, stricmp_eq_zero_iff] at *
  exact ha.trans hb.symm

/-- The two ways to look up a nick find the same row. -/
theorem mysqlFindnick_of_findnickinfo (h : NickKeys db) {ni : NickRow} (hname : mysqlFindnickinfo db nick = some ni) :
    mysqlFindnick db nick = ni.nickId ∧ getNickinfoFromId db ni.nickId = some ni := by
  have hmem : ni ∈ db.nick := List.mem_of_find?_eq_some hname
  have hsame : sameName ni.nick nick := List.find?_some (p := fun r : NickRow ↦ sameName r.nick nick) hname
  have honly : ∀ r ∈ db.nick.filter fun r ↦ sameName r.nick nick, r = ni := by
    intro r hr
    obtain ⟨hr, hrname⟩ := List.mem_filter.mp hr
    exact h.names r hr ni hmem (sameName_of_same hrname hsame)
  constructor
  · have hne : (db.nick.filter fun r ↦ sameName r.nick nick) ≠ [] :=
      List.ne_nil_of_mem (List.mem_filter.mpr ⟨hmem, hsame⟩)
    rw [mysqlFindnick, List.getLast?_eq_some_getLast hne, honly _ (List.getLast_mem hne)]
    rfl
  · refine find?_eq_some_of_unique hmem (by simp) fun r hr hid ↦ ?_
    exact List.inj_on_of_nodup_map h.ids.nick hr hmem (of_decide_eq_true hid)

theorem mysqlFindnick_eq_zero (hname : mysqlFindnickinfo db nick = none) : mysqlFindnick db nick = 0 := by
  have hnil : (db.nick.filter fun r ↦ sameName r.nick nick) = [] := by
    rw [List.filter_eq_nil_iff]
    exact fun r hr ↦ List.find?_eq_none.mp hname r hr
  rw [mysqlFindnick, hnil]
  rfl

/-- Two answers are one, or both are refusals that leave the tables as they were. -/
def SameOutcome (db : Database) (a b : AccessReply × Database) : Prop :=
  a = b ∨ (¬ a.1.Succeeds ∧ ¬ b.1.Succeeds ∧ a.2 = db ∧ b.2 = db)

/-- Once the user's level has been read, ADD at the level of a privilege is the same in all commands. -/
theorem doCsXopAdd_sameOutcome (hkeys : NickKeys db) {ulev : ℤ}
    (hacc : getAccess u env.now db channelId = (ulev, db)) (hpos : 0 < getChanLevel db channelId what)
    (hlevel : (atoi s).toInt = getChanLevel db channelId what) :
    SameOutcome db (doCsXopAdd what env u db channelId nick) (doCsAccessAdd env u db channelId nick s) := by
  unfold doCsXopAdd doCsAccessAdd
  simp only [hacc, hlevel, if_neg (not_le.mpr hpos), if_neg hpos.ne', if_neg (not_lt.mpr hpos.le),
    if_neg (Bool.true_eq_false ▸ not_false)]
  by_cases hulev : ulev ≤ getChanLevel db channelId what
  · rw [if_pos hulev]
    refine Or.inr ?_
    split_ifs <;> exact ⟨not_false, not_false, rfl, rfl⟩
  by_cases hrange : getChanLevel db channelId what ≤ ACCESS_INVALID ∨
      ACCESS_FOUNDER ≤ getChanLevel db channelId what
  · rw [if_neg hulev, if_pos hrange, if_pos hrange]
    exact Or.inl rfl
  rw [if_neg hulev, if_neg hrange, if_neg hrange, if_neg hulev]
  cases hname : mysqlFindnickinfo db nick with
  | none =>
    rw [mysqlFindnick_eq_zero hname, if_pos rfl]
    exact Or.inl rfl
  | some ni =>
    obtain ⟨hfind, hrow⟩ := mysqlFindnick_of_findnickinfo hkeys hname
    have hne : ni.nickId ≠ 0 := hkeys.ids.nick_ne_zero ni (List.mem_of_find?_eq_some hname)
    rw [hfind, hrow]
    simp only [if_neg hne]
    exact Or.inl rfl

/-- A nick can be given the level: it is registered, allows it, and has an entry below the user and of another level,
or no entry and there is room for one. -/
def MayTarget (env : AccessEnv) (db : Database) (channelId : ℕ) (uacc level : ℤ) (nick : CString) : Prop :=
  ∃ ni, mysqlFindnickinfo db nick = some ni ∧ ni.nickId ≠ 0 ∧ ni.status &&& NS_VERBOTEN = 0#32 ∧
    ni.flags &&& NI_NOOP = 0#32 ∧
    (∀ ca, getChanaccessFromNickid db ni.nickId channelId = some ca → ca.level < uacc ∧ ca.level ≠ level) ∧
    (getChanaccessFromNickid db ni.nickId channelId = none → chanaccessCount db channelId < env.csAccessMax)

/-- What ADD asks for in all four commands. -/
structure MayAdd (env : AccessEnv) (u : AccessUser) (db : Database) (channelId : ℕ) (level : ℤ) (nick : CString) :
    Prop where
  change : MayChange env u db channelId
  below : level < (getAccess u env.now db channelId).1
  range : level < ACCESS_FOUNDER
  target : MayTarget env db channelId (getAccess u env.now db channelId).1 level nick

theorem setAccess_succeeds_iff {nickId : ℕ} {ulev level : ℤ} :
    (setAccess env u db channelId nickId ulev level).1.Succeeds ↔
      (∀ ca, getChanaccessFromNickid db nickId channelId = some ca → ca.level < ulev ∧ ca.level ≠ level) ∧
        (getChanaccessFromNickid db nickId channelId = none → chanaccessCount db channelId < env.csAccessMax) := by
  unfold setAccess
  cases getChanaccessFromNickid db nickId channelId with
  | none =>
    dsimp only
    split_ifs with hfull
    · exact iff_of_false not_false fun h ↦ absurd (h.2 rfl) (not_lt.mpr hfull)
    · exact iff_of_true trivial ⟨nofun, fun _ ↦ not_le.mp hfull⟩
  | some ca =>
    dsimp only
    split_ifs with hperm hsame
    · exact iff_of_false not_false fun h ↦ absurd (h.1 ca rfl).1 (not_lt.mpr hperm)
    · exact iff_of_false not_false fun h ↦ (h.1 ca rfl).2 hsame
    · refine iff_of_true trivial ⟨fun ca' hca ↦ ?_, nofun⟩
      rw [← Option.some.inj hca]
      exact ⟨not_le.mp hperm, hsame⟩

/-- ADD at the level of a privilege succeeds when the level and the nick are such. -/
theorem doCsXopAdd_succeeds_iff {ulev : ℤ} (hacc : getAccess u env.now db channelId = (ulev, db))
    (hpos : 0 < getChanLevel db channelId what) :
    (doCsXopAdd what env u db channelId nick).1.Succeeds ↔ getChanLevel db channelId what < ulev ∧
      getChanLevel db channelId what < ACCESS_FOUNDER ∧
        MayTarget env db channelId ulev (getChanLevel db channelId what) nick := by
  have hvalid : ¬ getChanLevel db channelId what ≤ ACCESS_INVALID := by
    have : ACCESS_INVALID < 0 := by decide
    omega
  unfold doCsXopAdd MayTarget
  simp only [hacc, if_neg (not_le.mpr hpos), if_neg hpos.ne', hvalid, false_or]
  split_ifs with hulev hrange
  · exact iff_of_false not_false fun h ↦ absurd h.1 (not_lt.mpr hulev)
  · exact iff_of_false not_false fun h ↦ absurd h.2.1 (not_lt.mpr hrange)
  cases hname : mysqlFindnickinfo db nick with
  | none => exact iff_of_false not_false fun ⟨_, _, _, h, _⟩ ↦ nomatch h
  | some ni =>
    dsimp only
    split_ifs with hzero hforbidden hnoop
    · exact iff_of_false not_false fun ⟨_, _, ni', h, hne, _⟩ ↦ hne (Option.some.inj h ▸ hzero)
    · exact iff_of_false not_false fun ⟨_, _, ni', h, _, hok, _⟩ ↦ hforbidden (Option.some.inj h ▸ hok)
    · exact iff_of_false not_false fun ⟨_, _, ni', h, _, _, hok, _⟩ ↦ hnoop (Option.some.inj h ▸ hok)
    · rw [setAccess_succeeds_iff]
      constructor
      · exact fun h ↦ ⟨not_le.mp hulev, not_le.mp hrange, ni, rfl, hzero, not_not.mp hforbidden, not_not.mp hnoop, h⟩
      · rintro ⟨_, _, ni', h, _, _, _, hentry⟩
        rw [Option.some.inj h]
        exact hentry

/-- The look at the user's level does not matter to it. -/
theorem mayTarget_getAccess {uacc level : ℤ} (now c : ℕ) :
    MayTarget env (getAccess u now db c).2 channelId uacc level nick ↔
      MayTarget env db channelId uacc level nick := by
  obtain ⟨stamp, hstamp⟩ := getAccess_stamps u now db c
  have hentry : ∀ nickId, getChanaccessFromNickid (getAccess u now db c).2 nickId channelId =
      (getChanaccessFromNickid db nickId channelId).map fun r ↦ { r with lastUsed := stamp r } := by
    intro nickId
    rw [hstamp, getChanaccessFromNickid, List.find?_map]
    rfl
  have hcount : chanaccessCount (getAccess u now db c).2 channelId = chanaccessCount db channelId := by
    rw [hstamp, chanaccessCount, List.filter_map, List.length_map]
    rfl
  have hname : mysqlFindnickinfo (getAccess u now db c).2 nick = mysqlFindnickinfo db nick := by
    rw [mysqlFindnickinfo, nick_getAccess]
    rfl
  simp only [MayTarget, hentry, hcount, hname, Option.map_eq_none_iff, Option.map_eq_some_iff, forall_exists_index,
    and_imp, forall_apply_eq_imp_iff₂]

variable {rest chan cmd : CString} {ws : List CString}

theorem doCsXop_add (what : ℕ) (env : AccessEnv) (u : AccessUser) (db : Database)
    (hwords : strtokWords rest = chan :: cmd :: nick :: ws) (hcmd : stricmp cmd "ADD".toList = 0) :
    (MayChange env u db (mysqlFindchan db chan) ∧ doCsXop what env u db rest =
      doCsXopAdd what env u (getAccess u env.now db (mysqlFindchan db chan)).2 (mysqlFindchan db chan) nick) ∨
      (¬ MayChange env u db (mysqlFindchan db chan) ∧ ¬ (doCsXop what env u db rest).1.Succeeds) := by
  unfold doCsXop
  simp only [hwords]
  split_ifs with hfound hforbidden hdenied
  · exact Or.inr ⟨fun h ↦ h.registered hfound, not_false⟩
  · exact Or.inr ⟨fun h ↦ hforbidden h.not_forbidden, not_false⟩
  · exact Or.inr ⟨fun h ↦ h.not_denied hdenied, not_false⟩
  · rw [checkAccess_snd]
    exact Or.inl ⟨mayChange_of_not_denied hfound hforbidden hdenied, rfl⟩

theorem doCsAccess_add (env : AccessEnv) (u : AccessUser) (db : Database)
    (hwords : strtokWords rest = chan :: cmd :: nick :: s :: ws) (hcmd : stricmp cmd "ADD".toList = 0) :
    (nickIdentified u = true ∧ MayChange env u db (mysqlFindchan db chan) ∧ doCsAccess env u db rest =
      doCsAccessAdd env u (getAccess u env.now db (mysqlFindchan db chan)).2 (mysqlFindchan db chan) nick s) ∨
      (¬ (nickIdentified u = true ∧ MayChange env u db (mysqlFindchan db chan)) ∧
        ¬ (doCsAccess env u db rest).1.Succeeds) := by
  have hlist : isList cmd = false := isList_of_stricmp hcmd (by decide)
  have hdel : stricmp cmd "DEL".toList ≠ 0 := stricmp_ne_zero hcmd (by decide)
  have hbad : badWords cmd (some nick) (some s) = false := by
    rw [badWords, hlist, if_neg Bool.false_ne_true, if_neg (beq_iff_eq.not.mpr hdel)]
    rfl
  unfold doCsAccess
  simp only [hwords, hlist, List.getElem?_cons_zero, List.getElem?_cons_succ, hbad, true_and, Bool.false_eq_true,
    if_false, Option.getD_some]
  split_ifs with hid hfound hforbidden hdenied
  · exact Or.inr ⟨fun h ↦ by simp [h.1] at hid, not_false⟩
  · exact Or.inr ⟨fun h ↦ h.2.registered hfound, not_false⟩
  · exact Or.inr ⟨fun h ↦ hforbidden h.2.not_forbidden, not_false⟩
  · exact Or.inr ⟨fun h ↦ h.2.not_denied hdenied, not_false⟩
  · rw [checkAccess_snd]
    exact Or.inl ⟨by simpa using hid, mayChange_of_not_denied hfound hforbidden hdenied, rfl⟩

/-- Two answers agree: both succeed or neither, and if they succeed they leave the same tables. -/
structure AddsAgree (a b : AccessReply × Database) : Prop where
  succeeds : a.1.Succeeds ↔ b.1.Succeeds
  tables : a.1.Succeeds → a.2 = b.2

theorem SameOutcome.addsAgree {db : Database} {a b : AccessReply × Database} (h : SameOutcome db a b) :
    AddsAgree a b := by
  rcases h with rfl | ⟨ha, hb, -, -⟩
  · exact ⟨Iff.rfl, fun _ ↦ rfl⟩
  · exact ⟨iff_of_false ha hb, fun h ↦ absurd h ha⟩

theorem doCsXop_succeeds_iff (env : AccessEnv) (u : AccessUser) (hwords : strtokWords rest = chan :: cmd :: nick :: ws)
    (hcmd : stricmp cmd "ADD".toList = 0) (hpos : 0 < getChanLevel db (mysqlFindchan db chan) what) :
    (doCsXop what env u db rest).1.Succeeds ↔
      MayAdd env u db (mysqlFindchan db chan) (getChanLevel db (mysqlFindchan db chan) what) nick := by
  rcases doCsXop_add what env u db hwords hcmd with ⟨hmay, heq⟩ | ⟨hmay, hrefused⟩
  · have hacc : getAccess u env.now (getAccess u env.now db (mysqlFindchan db chan)).2 (mysqlFindchan db chan) =
        ((getAccess u env.now db (mysqlFindchan db chan)).1, (getAccess u env.now db (mysqlFindchan db chan)).2) :=
      getAccess_idem u env.now
    rw [heq, doCsXopAdd_succeeds_iff hacc (by rwa [getChanLevel_getAccess]), getChanLevel_getAccess,
      mayTarget_getAccess]
    exact ⟨fun h ↦ ⟨hmay, h.1, h.2.1, h.2.2⟩, fun h ↦ ⟨h.below, h.range, h.target⟩⟩
  · exact iff_of_false hrefused fun h ↦ hmay h.change

theorem NickKeys.getAccess (h : NickKeys db) (u : AccessUser) (now channelId : ℕ) :
    NickKeys (getAccess u now db channelId).2 := by
  obtain ⟨stamp, hstamp⟩ := getAccess_stamps u now db channelId
  rw [hstamp]
  exact ⟨⟨h.ids.nick, h.ids.nick_ne_zero, h.ids.channel⟩, h.names⟩

/-- VOP, AOP and SOP ADD are ACCESS ADD at the level of their privilege exactly when the user has identified, or ADD
is refused for another reason. -/
theorem doCsXop_agree_iff (hkeys : NickKeys db) {ws' : List CString} {restXop restAccess : CString}
    (hxop : strtokWords restXop = chan :: cmd :: nick :: ws)
    (haccess : strtokWords restAccess = chan :: cmd :: nick :: s :: ws') (hcmd : stricmp cmd "ADD".toList = 0)
    (hpos : 0 < getChanLevel db (mysqlFindchan db chan) what)
    (hlevel : (atoi s).toInt = getChanLevel db (mysqlFindchan db chan) what) :
    AddsAgree (doCsXop what env u db restXop) (doCsAccess env u db restAccess) ↔
      (nickIdentified u = true ∨
        ¬ MayAdd env u db (mysqlFindchan db chan) (getChanLevel db (mysqlFindchan db chan) what) nick) := by
  have hsucceeds := doCsXop_succeeds_iff env u hxop hcmd hpos
  constructor
  · intro hagree
    refine or_iff_not_imp_left.mpr fun hid hmay ↦ ?_
    rcases doCsAccess_add env u db haccess hcmd with ⟨hid', -⟩ | ⟨-, hrefused⟩
    · exact hid hid'
    · exact hrefused (hagree.succeeds.mp (hsucceeds.mpr hmay))
  · intro hmeets
    rcases doCsAccess_add env u db haccess hcmd with ⟨-, hmay, heq⟩ | ⟨hnot, hrefused⟩
    · rcases doCsXop_add what env u db hxop hcmd with ⟨-, heq'⟩ | ⟨hnot, -⟩
      swap
      · exact absurd hmay hnot
      rw [heq, heq']
      have hacc : getAccess u env.now (getAccess u env.now db (mysqlFindchan db chan)).2 (mysqlFindchan db chan) =
          ((getAccess u env.now db (mysqlFindchan db chan)).1,
            (getAccess u env.now db (mysqlFindchan db chan)).2) := getAccess_idem u env.now
      refine (doCsXopAdd_sameOutcome (hkeys.getAccess u env.now _) hacc ?_ ?_).addsAgree
      · rwa [getChanLevel_getAccess]
      · rwa [getChanLevel_getAccess]
    · have hxopRefused : ¬ (doCsXop what env u db restXop).1.Succeeds := by
        intro h
        have hadd := hsucceeds.mp h
        rcases hmeets with hid | hno
        · exact hnot ⟨hid, hadd.change⟩
        · exact hno hadd
      exact ⟨iff_of_false hxopRefused hrefused, fun h ↦ absurd h hxopRefused⟩

theorem nickKeys_exampleAccess : NickKeys exampleAccess where
  ids := ⟨by decide, by decide, by decide⟩
  names := by decide

/-- The level of AUTOVOICE is 3, and the user has identified. -/
theorem doCsXop_agree_iff_example :
    AddsAgree (doCsVop ⟨100, 200, 0, 0⟩ exampleActor exampleAccess "# ADD b".toList)
        (doCsAccess ⟨100, 200, 0, 0⟩ exampleActor exampleAccess "# ADD b 3".toList) ↔
      (nickIdentified exampleActor = true ∨ ¬ MayAdd ⟨100, 200, 0, 0⟩ exampleActor exampleAccess
        (mysqlFindchan exampleAccess ['#']) (getChanLevel exampleAccess (mysqlFindchan exampleAccess ['#']) CA_AUTOVOICE)
        ['b']) :=
  doCsXop_agree_iff nickKeys_exampleAccess
    (by decide +kernel : strtokWords "# ADD b".toList = ['#'] :: "ADD".toList :: ['b'] :: [])
    (by decide +kernel : strtokWords "# ADD b 3".toList = ['#'] :: "ADD".toList :: ['b'] :: ['3'] :: [])
    (by decide) (by decide) (by decide +kernel)

/-- A user whom services recognize by his host only may VOP in a channel that is not SECURE, but not use ACCESS. -/
theorem doCsVop_differs :
    ¬ ∀ env u db, NickKeys db → ∀ chan cmd nick s restXop restAccess,
      strtokWords restXop = [chan, cmd, nick] → strtokWords restAccess = [chan, cmd, nick, s] →
      stricmp cmd "ADD".toList = 0 → 0 < getChanLevel db (mysqlFindchan db chan) CA_AUTOVOICE →
      (atoi s).toInt = getChanLevel db (mysqlFindchan db chan) CA_AUTOVOICE →
      AddsAgree (doCsVop env u db restXop) (doCsAccess env u db restAccess) := by
  intro h
  have hagree := h ⟨100, 200, 0, 0⟩ { exampleActor with status := NS_RECOGNIZED } exampleAccess
    nickKeys_exampleAccess ['#'] "ADD".toList ['b'] ['3'] "# ADD b".toList "# ADD b 3".toList (by decide +kernel)
    (by decide +kernel) (by decide) (by decide) (by decide +kernel)
  have hvop : (doCsVop ⟨100, 200, 0, 0⟩ { exampleActor with status := NS_RECOGNIZED } exampleAccess
      "# ADD b".toList).1 = .CHAN_ACCESS_LEVEL_CHANGED 3 := by
    decide +kernel
  have haccess : (doCsAccess ⟨100, 200, 0, 0⟩ { exampleActor with status := NS_RECOGNIZED } exampleAccess
      "# ADD b 3".toList).1 = .NICK_IDENTIFY_REQUIRED := by
    decide +kernel
  have hsucceeds := hagree.succeeds
  rw [hvop, haccess] at hsucceeds
  exact hsucceeds.mp trivial

end Add

end BlitzedServices.ChanServ
