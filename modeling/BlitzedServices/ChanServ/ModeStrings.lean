import BlitzedServices.Channels.Bans
import BlitzedServices.ChanServ.CheckModes
import BlitzedServices.Lib.Ledger

/-!
# The strings of a channel record

The key of a channel and the masks of its bans are strings on the heap. `cmodeStrings` lists what one
letter of `do_cmode` does to them and `keyStrings` what one call of `check_modes` does; run on the blocks
that hold the strings they keep a block for the key exactly when the record has one, one for each ban, and
never free a block twice (`Held.doCmode`). The copies that `check_modes` makes for itself are freed
by it and are not followed.
-/

set_option autoImplicit false
set_option relaxedAutoImplicit false

namespace BlitzedServices.ChanServ

open Lib Channels

/-! ### The blocks of a record -/

/-- What happens to a string of the record. -/
inductive StringOp
  /-- `free(c->key)`, which may be NULL. -/
  | freeKey
  /-- `c->key = sstrdup(...)`. -/
  | storeKey
  /-- A ban is appended. -/
  | addBan
  /-- The ban with an index is removed. -/
  | dropBan (i : ℕ)

/-- The heap, and the blocks of the key and of the masks. -/
structure ChannelStrings where
  ledger : Ledger
  key : Option ℕ
  bans : List ℕ

/-- One operation. The mask of the last ban is not freed when it is removed. -/
def ChannelStrings.apply (s : ChannelStrings) : StringOp → ChannelStrings
  | .freeKey => { s with ledger := s.key.elim s.ledger s.ledger.free, key := none }
  | .storeKey => { s with ledger := s.ledger.alloc 1, key := some s.ledger.fresh }
  | .addBan => { s with ledger := s.ledger.alloc 1, bans := s.bans ++ [s.ledger.fresh] }
  | .dropBan i =>
    match s.bans[i]? with
    | none => s
    | some block =>
      { s with
        ledger := if i + 1 < s.bans.length then s.ledger.free block else s.ledger
        bans := s.bans.eraseIdx i }

/-- The record's strings are held by blocks of their own, next to those of `argv`. -/
structure Held (s : ChannelStrings) (argv : List ℕ) (c : Channel) : Prop where
  key : s.key.isSome = c.key.isSome
  bans : s.bans.length = c.newbans.length
  owns : s.ledger.Owns (s.key.toList ++ s.bans ++ argv)

/-! ### The operations of the source -/

/-- What one letter does to the strings. -/
def cmodeStrings (st : CmodeState) (modechar : Char) : List StringOp :=
  if st.ac - 1 < 0 then []
  else if modechar = 'k' then
    (if st.chan.key.isSome then [.freeKey] else []) ++ if st.add then [.storeKey] else []
  else if modechar = 'b' then
    if st.add then [.addBan]
    else if st.chan.newbans.contains (st.av.headD []) then [.dropBan (st.chan.newbans.idxOf (st.av.headD []))]
    else []
  else []

/-- The same of all letters of a line. -/
def cmodeLoopStrings (env : CmodeEnv) (source : CString) : CString → CmodeState → List StringOp
  | [], _ => []
  | modechar :: modestr, st =>
    cmodeStrings st modechar ++ cmodeLoopStrings env source modestr (cmodeStep env source st modechar)

/-- What the tests of `mlock_off` do to the key. -/
def clearKeyStrings (row : Option MlockRow) (key : Option CString) : List StringOp :=
  if key.isSome ∧ getMlockOff row &&& CMODE_k ≠ 0#32 then [.freeKey] else []

/-- What `check_modes` does to the key of a channel without one. -/
def newKeyStrings (row : Option MlockRow) : List StringOp :=
  (if (lockedKey row).isSome then [.storeKey] else []) ++ clearKeyStrings row (lockedKey row)

/-- What `check_modes` does to the key: another key than the locked one is freed by the nested `do_cmode`,
whose `check_modes` stores the locked one, and that is freed and stored once more. -/
def keyStrings (row : Option MlockRow) (key : Option CString) : List StringOp :=
  match key, lockedKey row with
  | none, _ => newKeyStrings row
  | some _, none => clearKeyStrings row key
  | some oldkey, some newkey =>
    (if oldkey = newkey then [] else .freeKey :: newKeyStrings row ++ [.freeKey, .storeKey]) ++
      clearKeyStrings row (some newkey)

/-- What `do_cmode` does to the strings. -/
def doCmodeStrings (env : CmodeEnv) (now : ℤ) (row : Option MlockRow) (source lastmodes : CString)
    (chan : Channel) (modestr : CString) (params : List CString) : List StringOp :=
  let counted := (countServerMode env now source modestr lastmodes chan).1
  cmodeLoopStrings env source modestr ⟨counted, true, params.length, params⟩ ++
    keyStrings row (cmodeLoop env source counted modestr params).key

/-! ### What a call leaves -/

section Frames

variable {env : CmodeEnv} {now : ℤ} {row : Option MlockRow} {c : Channel}

/-- The lists of a record. -/
def Channel.lists (c : Channel) : List CString × List UserId × List UserId × List UserId :=
  (c.newbans, c.users, c.chanops, c.voices)

theorem lists_countCall (now : ℤ) (c : Channel) : Channel.lists (countCall now c) = Channel.lists c := by
  rw [countCall]
  split_ifs <;> rfl

theorem lists_lockFlags (row : Option MlockRow) (c : Channel) : Channel.lists (lockFlags row c) = Channel.lists c :=
  rfl

theorem lists_setKey (row : Option MlockRow) (before c : Channel) :
    Channel.lists (setKey row before c) = Channel.lists c :=
  rfl

theorem lists_unlockFlags (row : Option MlockRow) (c : Channel) :
    Channel.lists (unlockFlags row c) = Channel.lists c :=
  rfl

theorem lists_checkModes_of_not_replaced (h : c.key = none ∨ keyToSet row c = none) :
    Channel.lists (checkModes env now row c).1 = Channel.lists c := by
  rw [checkModes_of_not_replaced h]
  dsimp only
  rw [lists_unlockFlags, lists_setKey, lists_lockFlags, lists_countCall]

theorem lists_checkModes : Channel.lists (checkModes env now row c).1 = Channel.lists c := by
  by_cases h : c.key = none ∨ keyToSet row c = none
  · exact lists_checkModes_of_not_replaced h
  · rw [not_or] at h
    obtain ⟨oldkey, hold⟩ := Option.ne_none_iff_exists'.mp h.1
    obtain ⟨newkey, hnew⟩ := Option.ne_none_iff_exists'.mp h.2
    rw [checkModes_of_replaced hold hnew]
    dsimp only
    have hkeyless : (lockFlags row (countCall now c)).withoutKey.key = none := rfl
    rw [lists_unlockFlags, lists_setKey, lists_checkModes_of_not_replaced (.inl hkeyless)]
    show Channel.lists (lockFlags row (countCall now c)) = _
    rw [lists_lockFlags, lists_countCall]

theorem countServerMode_frame (env : CmodeEnv) (now : ℤ) (source modestr lastmodes : CString) (c : Channel) :
    (countServerMode env now source modestr lastmodes c).1.key = c.key ∧
      (countServerMode env now source modestr lastmodes c).1.newbans = c.newbans := by
  rw [countServerMode]
  split_ifs <;> exact ⟨rfl, rfl⟩

end Frames

/-! ### No block is freed twice -/

section Strings

variable {env : CmodeEnv} {source : CString} {s : ChannelStrings} {argv : List ℕ} {c : Channel} {row : Option MlockRow}

theorem owns_apply (h : s.ledger.Owns (s.key.toList ++ s.bans ++ argv)) (op : StringOp) :
    (s.apply op).ledger.Owns ((s.apply op).key.toList ++ (s.apply op).bans ++ argv) := by
  cases op with
  | freeKey =>
    cases hkey : s.key with
    | none =>
      simp only [ChannelStrings.apply, hkey]
      rwa [hkey] at h
    | some block =>
      rw [hkey] at h
      simp only [ChannelStrings.apply, hkey]
      exact h.free
  | storeKey =>
    have hsub : (s.bans ++ argv).Sublist (s.key.toList ++ s.bans ++ argv) := by
      rw [List.append_assoc]
      exact List.sublist_append_right _ _
    exact (h.sublist hsub).alloc 1
  | addBan =>
    refine (h.alloc 1).perm ?_
    show (s.ledger.fresh :: (s.key.toList ++ s.bans ++ argv)).Perm (s.key.toList ++ (s.bans ++ [s.ledger.fresh]) ++ argv)
    rw [← List.append_assoc, List.append_assoc _ [s.ledger.fresh]]
    exact List.perm_middle.symm
  | dropBan i =>
    rw [ChannelStrings.apply]
    cases hblock : s.bans[i]? with
    | none => exact h
    | some block =>
      obtain ⟨hi, rfl⟩ := List.getElem?_eq_some_iff.mp hblock
      have hperm : (s.key.toList ++ s.bans ++ argv).Perm (s.bans[i] :: (s.key.toList ++ s.bans.eraseIdx i ++ argv)) := by
        have hbans : s.bans.Perm (s.bans[i] :: s.bans.eraseIdx i) := (List.getElem_cons_eraseIdx_perm hi).symm
        exact ((hbans.append_left _).trans List.perm_middle).append_right argv
      have howns := h.perm hperm
      show (if _ then s.ledger.free s.bans[i] else s.ledger).Owns (s.key.toList ++ s.bans.eraseIdx i ++ argv)
      split_ifs
      · exact howns.free
      · exact howns.sublist (List.sublist_cons_self ..)

theorem owns_applyAll (h : s.ledger.Owns (s.key.toList ++ s.bans ++ argv)) (ops : List StringOp) :
    (ops.foldl ChannelStrings.apply s).ledger.Owns ((ops.foldl ChannelStrings.apply s).key.toList ++
      (ops.foldl ChannelStrings.apply s).bans ++ argv) := by
  induction ops generalizing s with
  | nil => exact h
  | cons op ops ih => exact ih (owns_apply h op)

theorem setKey_key (st : CmodeState) :
    st.setKey.chan.key = if st.ac - 1 < 0 then st.chan.key
      else if st.add then some (st.av.headD []) else none := by
  rw [CmodeState.setKey, CmodeState.spend]
  dsimp only
  split_ifs <;> rfl

theorem setBan_bans (st : CmodeState) :
    st.setBan.chan.newbans = if st.ac - 1 < 0 then st.chan.newbans
      else if st.add then st.chan.newbans ++ [st.av.headD []]
      else st.chan.newbans.erase (st.av.headD []) := by
  rw [CmodeState.setBan, CmodeState.spend]
  dsimp only
  split_ifs <;> rfl

/-- The other letters leave the key. -/
theorem cmodeStep_key (env : CmodeEnv) (source : CString) (st : CmodeState) {modechar : Char}
    (hk : modechar ≠ 'k') : (cmodeStep env source st modechar).chan.key = st.chan.key := by
  rw [cmodeStep, if_neg hk]
  split_ifs
  · rfl
  · rfl
  · rw [CmodeState.setLimit, CmodeState.spend]
    dsimp only
    split_ifs <;> rfl
  · rw [CmodeState.setBan, CmodeState.spend]
    dsimp only
    split_ifs <;> rfl
  · rw [CmodeState.setOp, CmodeState.spend]
    dsimp only
    repeat' split
    all_goals rfl
  · rw [CmodeState.setVoice, CmodeState.spend]
    dsimp only
    repeat' split
    all_goals rfl
  · split <;> rfl

theorem dropBan_bans {i : ℕ} (h : i < s.bans.length) :
    (s.apply (.dropBan i)).key = s.key ∧ (s.apply (.dropBan i)).bans = s.bans.eraseIdx i := by
  rw [ChannelStrings.apply, List.getElem?_eq_getElem h]
  exact ⟨rfl, rfl⟩

/-- One letter keeps the blocks in step with the record. -/
theorem Held.step {st : CmodeState} (h : Held s argv st.chan) (env : CmodeEnv) (source : CString)
    (modechar : Char) :
    Held ((cmodeStrings st modechar).foldl ChannelStrings.apply s) argv
      (cmodeStep env source st modechar).chan := by
  simp only [cmodeStrings, List.contains_iff_mem]
  by_cases hk : modechar = 'k'
  · subst hk
    have hstep : cmodeStep env source st 'k' = st.setKey := rfl
    rw [hstep]
    refine ⟨?_, ?_, owns_applyAll h.owns _⟩
    · rw [setKey_key]
      have hkey := h.key
      split_ifs <;> simp_all [ChannelStrings.apply]
    · rw [setKey_newbans]
      have hbans := h.bans
      split_ifs <;> simp_all [ChannelStrings.apply]
  by_cases hb : modechar = 'b'
  · subst hb
    have hstep : cmodeStep env source st 'b' = st.setBan := rfl
    refine ⟨?_, ?_, owns_applyAll h.owns _⟩
    · rw [cmodeStep_key env source st hk, ← h.key, if_neg hk, if_pos rfl]
      split_ifs with _ _ hmem
      · rfl
      · rfl
      · exact congrArg Option.isSome (dropBan_bans (h.bans ▸ List.idxOf_lt_length_of_mem hmem)).1
      · rfl
    · rw [hstep, setBan_bans, if_neg hk, if_pos rfl]
      split_ifs with _ _ hmem
      · exact h.bans
      · show (s.bans ++ [s.ledger.fresh]).length = _
        rw [List.length_append, List.length_append, h.bans]
        rfl
      · have hi : st.chan.newbans.idxOf (st.av.headD []) < s.bans.length :=
          h.bans ▸ List.idxOf_lt_length_of_mem hmem
        rw [List.foldl_cons, List.foldl_nil, (dropBan_bans hi).2, List.length_eraseIdx_of_lt hi,
          List.length_erase_of_mem hmem, h.bans]
      · rw [List.erase_of_not_mem hmem]
        exact h.bans
  · rw [if_neg hk, if_neg hb, ite_self, List.foldl_nil]
    refine ⟨?_, ?_, h.owns⟩
    · rw [cmodeStep_key env source st hk, h.key]
    · rw [cmodeStep_newbans hb, h.bans]

theorem cmodeStep_ac_le (env : CmodeEnv) (source : CString) (st : CmodeState) (modechar : Char) :
    (cmodeStep env source st modechar).ac ≤ st.ac := by
  have hspend : st.spend.ac ≤ st.ac := by
    show st.ac - 1 ≤ st.ac
    omega
  rw [cmodeStep]
  split_ifs
  · exact le_refl _
  · exact le_refl _
  · rw [CmodeState.setKey]
    split_ifs <;> exact hspend
  · rw [CmodeState.setLimit]
    dsimp only
    split_ifs
    · exact hspend
    · exact hspend
    · exact le_refl _
  · rw [CmodeState.setBan]
    split_ifs <;> exact hspend
  · rw [(setOp_spends st env source).1.ac]
    exact hspend
  · rw [(setVoice_spends st env).1.ac]
    exact hspend
  · split <;> exact le_refl _

/-- A line without parameters does nothing to the strings. -/
theorem cmodeLoopStrings_eq_nil (env : CmodeEnv) (source modestr : CString) {st : CmodeState} (hac : st.ac ≤ 0) :
    cmodeLoopStrings env source modestr st = [] := by
  induction modestr generalizing st with
  | nil => rfl
  | cons modechar modestr ih =>
    rw [cmodeLoopStrings, cmodeStrings, if_pos (by omega),
      ih ((cmodeStep_ac_le env source st modechar).trans hac), List.append_nil]

/-- The loop keeps the blocks in step with the record. -/
theorem Held.loop {st : CmodeState} (h : Held s argv st.chan) (env : CmodeEnv) (source modestr : CString) :
    Held ((cmodeLoopStrings env source modestr st).foldl ChannelStrings.apply s) argv
      (modestr.foldl (cmodeStep env source) st).chan := by
  induction modestr generalizing s st with
  | nil => exact h
  | cons modechar modestr ih =>
    rw [cmodeLoopStrings, List.foldl_append, List.foldl_cons]
    exact ih (h.step env source modechar)

/-- The operations on the key leave the blocks of the bans. -/
theorem keyStrings_bans (row : Option MlockRow) (key : Option CString) (s : ChannelStrings) :
    ((keyStrings row key).foldl ChannelStrings.apply s).bans = s.bans := by
  have hkeep (ops : List StringOp) (hops : ∀ op ∈ ops, op = .freeKey ∨ op = .storeKey) (s : ChannelStrings) :
      (ops.foldl ChannelStrings.apply s).bans = s.bans := by
    induction ops generalizing s with
    | nil => rfl
    | cons op ops ih =>
      obtain ⟨hop, hops⟩ := List.forall_mem_cons.mp hops
      rw [List.foldl_cons, ih hops]
      rcases hop with rfl | rfl <;> rfl
  refine hkeep _ (fun op hop ↦ ?_) s
  have hclear (key : Option CString) (hop : op ∈ clearKeyStrings row key) : op = .freeKey ∨ op = .storeKey := by
    rw [clearKeyStrings] at hop
    split_ifs at hop
    · exact .inl (List.mem_singleton.mp hop)
    · exact absurd hop List.not_mem_nil
  have hnew (hop : op ∈ newKeyStrings row) : op = .freeKey ∨ op = .storeKey := by
    rcases List.mem_append.mp hop with hop | hop
    · split_ifs at hop
      · exact .inr (List.mem_singleton.mp hop)
      · exact absurd hop List.not_mem_nil
    · exact hclear _ hop
  rw [keyStrings.eq_def] at hop
  split at hop
  · exact hnew hop
  · exact hclear _ hop
  · rcases List.mem_append.mp hop with hop | hop
    · split_ifs at hop
      · exact absurd hop List.not_mem_nil
      · rcases List.mem_append.mp hop with hop | hop
        · rcases List.mem_cons.mp hop with hop | hop
          · exact .inl hop
          · exact hnew hop
        · simpa using hop
    · exact hclear _ hop

theorem clearKeyStrings_eq_nil {key : Option CString} (h : key = none ∨ getMlockOff row &&& CMODE_k = 0#32) :
    clearKeyStrings row key = [] := by
  rw [clearKeyStrings, if_neg]
  rintro ⟨hsome, hoff⟩
  rcases h with rfl | h
  · exact absurd hsome (by decide)
  · exact hoff h

/-- `check_modes` keeps the block of the key in step with the record. -/
theorem keyStrings_isSome (hrow : Consistent row) {key : Option CString} (h : s.key.isSome = key.isSome) :
    ((keyStrings row key).foldl ChannelStrings.apply s).key.isSome = (settledKey row key).isSome := by
  have hoff := hrow.key
  cases hlocked : lockedKey row with
  | none =>
    cases key with
    | none =>
      rw [keyStrings, newKeyStrings, hlocked, clearKeyStrings_eq_nil (.inl rfl), settledKey, hlocked]
      simpa using h
    | some oldkey =>
      simp only [keyStrings, hlocked]
      rw [clearKeyStrings, settledKey, hlocked]
      by_cases hk : getMlockOff row &&& CMODE_k ≠ 0#32
      · rw [if_pos ⟨rfl, hk⟩, if_pos hk]
        rfl
      · rw [if_neg fun hclear ↦ hk hclear.2, if_neg hk]
        exact h
  | some newkey =>
    have hk := hoff (by rw [hlocked]; exact Option.some_ne_none newkey)
    have hsettled : (settledKey row key).isSome = true := by
      rw [settledKey, hlocked]
      rfl
    rw [hsettled]
    cases key with
    | none =>
      rw [keyStrings, newKeyStrings, hlocked, clearKeyStrings_eq_nil (.inr hk)]
      rfl
    | some oldkey =>
      simp only [keyStrings, hlocked]
      rw [clearKeyStrings_eq_nil (.inr hk), List.append_nil]
      split_ifs
      · exact h
      · rw [List.foldl_append]
        rfl

/-- A key that the lock leaves alone is not touched. -/
theorem keyStrings_eq_nil (hrow : Consistent row) {key : CString} (h : settledKey row (some key) = some key) :
    keyStrings row (some key) = [] := by
  rw [settledKey] at h
  cases hlocked : lockedKey row with
  | none =>
    simp only [keyStrings, hlocked]
    refine clearKeyStrings_eq_nil (.inr ?_)
    by_contra hk
    rw [hlocked, if_pos hk] at h
    exact Option.some_ne_none key h.symm
  | some newkey =>
    have hk := hrow.key (by rw [hlocked]; exact Option.some_ne_none newkey)
    rw [hlocked] at h
    obtain rfl : newkey = key := Option.some.inj h
    simp only [keyStrings, hlocked, if_true]
    exact clearKeyStrings_eq_nil (.inr hk)

/-- Any other key is freed. -/
theorem keyStrings_eq_freeKey {key : CString} (h : settledKey row (some key) ≠ some key) :
    ∃ ops, keyStrings row (some key) = .freeKey :: ops := by
  rw [settledKey] at h
  cases hlocked : lockedKey row with
  | none =>
    have hk : getMlockOff row &&& CMODE_k ≠ 0#32 := by
      intro hk
      rw [hlocked, if_neg (not_not.mpr hk)] at h
      exact h rfl
    refine ⟨[], ?_⟩
    simp only [keyStrings, hlocked, clearKeyStrings]
    exact if_pos ⟨rfl, hk⟩
  | some newkey =>
    have hne : key ≠ newkey := by
      rintro rfl
      rw [hlocked] at h
      exact h rfl
    simp only [keyStrings, hlocked, if_neg hne]
    exact ⟨_, rfl⟩

/-- No operation takes a block off the ledger. -/
theorem freed_suffix_applyAll (s : ChannelStrings) (ops : List StringOp) :
    s.ledger.freed <:+ (ops.foldl ChannelStrings.apply s).ledger.freed := by
  induction ops generalizing s with
  | nil => exact List.suffix_refl _
  | cons op ops ih =>
    refine List.IsSuffix.trans ?_ (ih (s.apply op))
    cases op with
    | freeKey =>
      rw [ChannelStrings.apply]
      cases s.key with
      | none => exact List.suffix_refl _
      | some key => exact List.suffix_cons key _
    | storeKey => exact List.suffix_refl _
    | addBan => exact List.suffix_refl _
    | dropBan i =>
      rw [ChannelStrings.apply]
      cases s.bans[i]? with
      | none => exact List.suffix_refl _
      | some ban =>
        show _ <:+ (if _ then s.ledger.free ban else s.ledger).freed
        split_ifs
        · exact List.suffix_cons ban _
        · exact List.suffix_refl _

/-- `do_cmode` keeps the blocks in step with the record. -/
theorem Held.doCmode (hrow : Consistent row) (h : Held s argv c) (env : CmodeEnv) (now : ℤ)
    (source lastmodes modestr : CString) (params : List CString) :
    Held ((doCmodeStrings env now row source lastmodes c modestr params).foldl ChannelStrings.apply s) argv
      (doCmode env now row source lastmodes c modestr params).1 := by
  obtain ⟨hkey, hbans⟩ := countServerMode_frame env now source modestr lastmodes c
  have hcounted : Held s argv (countServerMode env now source modestr lastmodes c).1 :=
    ⟨h.key.trans (congrArg Option.isSome hkey).symm, h.bans.trans (congrArg List.length hbans).symm, h.owns⟩
  rw [doCmodeStrings, List.foldl_append]
  have hloop : Held _ argv (cmodeLoop env source _ modestr params) :=
    @Held.loop s argv ⟨_, true, params.length, params⟩ hcounted env source modestr
  refine ⟨?_, ?_, owns_applyAll hloop.owns _⟩
  · rw [keyStrings_isSome hrow hloop.key]
    exact congrArg Option.isSome (settled_checkModes hrow).key.symm
  · rw [keyStrings_bans, hloop.bans]
    have hlists := @lists_checkModes env now row
      (cmodeLoop env source (countServerMode env now source modestr lastmodes c).1 modestr params)
    exact (congrArg (fun lists ↦ lists.1.length) hlists).symm

end Strings

end BlitzedServices.ChanServ
