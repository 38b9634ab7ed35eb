import BlitzedServices.ChanServ.CheckModes
import BlitzedServices.Lib.Runs

/-!
# The ban list of a channel

`newbans` is to mirror the bans that are set: those whose last change was `+b`. A ban is appended by `do_cmode`
without a look at the list, for the server's messages and for the bans `check_kick` sets itself, and `-b` takes
out one entry. And a `-k` that has its parameter does not move on to the next one, so that a `b` behind it
takes the key for the mask. `bans_mirrored` shows that the list is exact, without duplicates, as long as no
listed mask is banned again and no `b` stands behind such a `-k`.
-/

set_option autoImplicit false
set_option relaxedAutoImplicit false

namespace BlitzedServices.Channels

open Lib ChanServ

/-! ### Changes of bans -/

/-- A change of a ban: whether it is set, and its mask. -/
abbrev BanChange := Bool × CString

/-- The letters that take a parameter, besides `b`. -/
def takesParam (modechar : Char) (add : Bool) : Bool :=
  modechar == 'k' || modechar == 'o' || modechar == 'v' || (modechar == 'l' && add)

/-- The changes of bans that a line of modes makes, each `b` with its own parameter. -/
def banChanges : CString → Bool → List CString → List BanChange
  | [], _, _ => []
  | c :: s, add, params =>
    if c = '+' then banChanges s true params
    else if c = '-' then banChanges s false params
    else if c = 'b' then (params.take 1).map (fun mask ↦ (add, mask)) ++ banChanges s add params.tail
    else if takesParam c add then banChanges s add params.tail
    else banChanges s add params

/-- The last change of a mask. -/
def lastChange (changes : List BanChange) (mask : CString) : Option Bool :=
  (changes.reverse.find? fun change ↦ change.2 = mask).map Prod.fst

/-- The list has the masks whose last change was `+b`, each once. -/
structure Mirrors (bans : List CString) (changes : List BanChange) : Prop where
  nodup : bans.Nodup
  mem_iff : ∀ mask, mask ∈ bans ↔ lastChange changes mask = some true

/-- What `do_cmode` does to the list for one change. -/
def applyChange (bans : List CString) (change : BanChange) : List CString :=
  if change.1 then bans ++ [change.2] else bans.erase change.2

/-- No mask is set that is in the list. -/
def FreshBans : List CString → List BanChange → Prop
  | _, [] => True
  | bans, change :: changes =>
    (change.1 = true → change.2 ∉ bans) ∧ FreshBans (applyChange bans change) changes

/-- No `b` stands behind a `-k` that has its parameter. -/
def UnkeyBehindBans : CString → Bool → List CString → Prop
  | [], _, _ => True
  | c :: s, add, params =>
    if c = '+' then UnkeyBehindBans s true params
    else if c = '-' then UnkeyBehindBans s false params
    else if c = 'k' ∧ add = false ∧ params ≠ [] then 'b' ∉ s
    else if c = 'b' ∨ takesParam c add then UnkeyBehindBans s add params.tail
    else UnkeyBehindBans s add params

/-! ### Messages -/

/-- What else the handling of a message reads: the rest of the program, the time and the lock. -/
structure ModeContext where
  env : CmodeEnv
  now : ℤ
  row : Option MlockRow

/-- A MODE message for the channel, or a ban that `check_kick` sets. -/
inductive BanMessage where
  | mode (context : ModeContext) (source modestr : CString) (params : List CString)
  | kickBan (context : ModeContext) (mask : CString)

/-- The channel and `lastmodes` after a message. `check_kick` calls `do_cmode` in the name of ChanServ. -/
def receiveMode (st : Channel × CString) : BanMessage → Channel × CString
  | .mode context source modestr params =>
    let result := doCmode context.env context.now context.row source st.2 st.1 modestr params
    (result.1, result.2.1)
  | .kickBan context mask =>
    let result := doCmode context.env context.now context.row s_ChanServ st.2 st.1 ['+', 'b'] [mask]
    (result.1, result.2.1)

/-- The changes of bans in a message. -/
def BanMessage.changes : BanMessage → List BanChange
  | .mode _ _ modestr params => banChanges modestr true params
  | .kickBan _ mask => [(true, mask)]

/-- No `b` of the message stands behind a `-k` that has its parameter. -/
def BanMessage.ReadRight : BanMessage → Prop
  | .mode _ _ modestr params => UnkeyBehindBans modestr true params
  | .kickBan _ _ => True

/-- The condition on a message: no `b` behind a `-k`, and no mask set that is in the list. -/
def BanMeets (st : Channel × CString) (message : BanMessage) : Prop :=
  message.ReadRight ∧ FreshBans st.1.newbans message.changes

/-! ### The list and its changes -/

section Changes

variable {bans : List CString} {changes : List BanChange} {change : BanChange}

theorem lastChange_append (changes : List BanChange) (change : BanChange) (mask : CString) :
    lastChange (changes ++ [change]) mask =
      if change.2 = mask then some change.1 else lastChange changes mask := by
  rw [lastChange, List.reverse_append, List.reverse_singleton, List.singleton_append, List.find?_cons]
  by_cases hmask : change.2 = mask
  · simp [hmask]
  · simp [hmask, lastChange]

theorem mirrors_nil : Mirrors [] [] :=
  ⟨List.nodup_nil, fun _ ↦ iff_of_false List.not_mem_nil (Option.some_ne_none true).symm⟩

/-- One change of a mask that is not set again. -/
theorem Mirrors.applyChange (h : Mirrors bans changes) (hfresh : change.1 = true → change.2 ∉ bans) :
    Mirrors (applyChange bans change) (changes ++ [change]) := by
  obtain ⟨add, mask⟩ := change
  cases add with
  | true =>
    have hnot : mask ∉ bans := hfresh rfl
    rw [Channels.applyChange, if_pos rfl]
    refine ⟨List.nodup_append.mpr ⟨h.nodup, List.nodup_singleton _, ?_⟩, fun other ↦ ?_⟩
    · rintro x hx y hy rfl
      obtain rfl : x = mask := List.mem_singleton.mp hy
      exact hnot hx
    · rw [lastChange_append, List.mem_append, List.mem_singleton, h.mem_iff]
      split_ifs with hmask
      · exact iff_of_true (.inr (Eq.symm hmask)) rfl
      · exact or_iff_left fun hother ↦ hmask hother.symm
  | false =>
    rw [Channels.applyChange, if_neg Bool.false_ne_true]
    refine ⟨h.nodup.erase mask, fun other ↦ ?_⟩
    rw [lastChange_append, h.nodup.mem_erase_iff, h.mem_iff]
    split_ifs with hmask
    · exact iff_of_false (fun hother ↦ hother.1 (Eq.symm hmask)) (by simp)
    · exact and_iff_right fun hother ↦ hmask hother.symm

/-- The changes of a message, one after the other. -/
theorem Mirrors.foldl {message : List BanChange} (h : Mirrors bans changes)
    (hfresh : FreshBans bans message) :
    Mirrors (message.foldl Channels.applyChange bans) (changes ++ message) := by
  induction message generalizing bans changes with
  | nil => rwa [List.append_nil]
  | cons change message ih =>
    rw [List.foldl_cons, List.append_cons]
    exact ih (h.applyChange hfresh.1) hfresh.2

end Changes

/-! ### The loop over the mode letters -/

section Letters

variable {env : CmodeEnv} {source : CString} {st st' : CmodeState}

/-- A letter that spends a parameter, if there is one. -/
structure Spends (st st' : CmodeState) : Prop where
  add : st'.add = st.add
  ac : st'.ac = st.ac - 1
  av : st'.av = if st.ac - 1 < 0 then st.av else st.av.tail

theorem setOp_spends (st : CmodeState) (env : CmodeEnv) (source : CString) :
    Spends st (st.setOp env source) ∧ (st.setOp env source).chan.newbans = st.chan.newbans := by
  rw [CmodeState.setOp, CmodeState.spend]
  dsimp only
  by_cases hac : st.ac - 1 < 0
  · rw [if_pos hac]
    exact ⟨⟨rfl, rfl, (if_pos hac).symm⟩, rfl⟩
  · rw [if_neg hac]
    have hspends : st.av.tail = if st.ac - 1 < 0 then st.av else st.av.tail := (if_neg hac).symm
    split
    · split_ifs <;> exact ⟨⟨rfl, rfl, hspends⟩, rfl⟩
    · split_ifs
      · split
        · exact ⟨⟨rfl, rfl, hspends⟩, rfl⟩
        · split_ifs <;> exact ⟨⟨rfl, rfl, hspends⟩, rfl⟩
      · exact ⟨⟨rfl, rfl, hspends⟩, rfl⟩

theorem setVoice_spends (st : CmodeState) (env : CmodeEnv) :
    Spends st (st.setVoice env) ∧ (st.setVoice env).chan.newbans = st.chan.newbans := by
  rw [CmodeState.setVoice, CmodeState.spend]
  dsimp only
  by_cases hac : st.ac - 1 < 0
  · rw [if_pos hac]
    exact ⟨⟨rfl, rfl, (if_pos hac).symm⟩, rfl⟩
  · rw [if_neg hac]
    have hspends : st.av.tail = if st.ac - 1 < 0 then st.av else st.av.tail := (if_neg hac).symm
    split
    · split_ifs <;> exact ⟨⟨rfl, rfl, hspends⟩, rfl⟩
    · split_ifs
      · split <;> exact ⟨⟨rfl, rfl, hspends⟩, rfl⟩
      · exact ⟨⟨rfl, rfl, hspends⟩, rfl⟩

theorem setKey_newbans (st : CmodeState) : st.setKey.chan.newbans = st.chan.newbans := by
  rw [CmodeState.setKey, CmodeState.spend]
  dsimp only
  split_ifs <;> rfl

theorem setKey_spends (hadd : st.add = true) : Spends st st.setKey := by
  rw [CmodeState.setKey, CmodeState.spend]
  dsimp only
  by_cases hac : st.ac - 1 < 0
  · rw [if_pos hac]
    exact ⟨rfl, rfl, (if_pos hac).symm⟩
  · rw [if_neg hac, if_pos hadd]
    exact ⟨rfl, rfl, (if_neg hac).symm⟩

/-- A `k` without a parameter. -/
theorem setKey_spends_missing (hac : st.ac - 1 < 0) : Spends st st.setKey := by
  rw [CmodeState.setKey, CmodeState.spend]
  dsimp only
  rw [if_pos hac]
  exact ⟨rfl, rfl, (if_pos hac).symm⟩

theorem setLimit_newbans (st : CmodeState) : st.setLimit.chan.newbans = st.chan.newbans := by
  rw [CmodeState.setLimit, CmodeState.spend]
  dsimp only
  split_ifs <;> rfl

theorem setLimit_spends (hadd : st.add = true) : Spends st st.setLimit := by
  rw [CmodeState.setLimit, CmodeState.spend, if_pos hadd]
  dsimp only
  by_cases hac : st.ac - 1 < 0
  · rw [if_pos hac]
    exact ⟨rfl, rfl, (if_pos hac).symm⟩
  · rw [if_neg hac]
    exact ⟨rfl, rfl, (if_neg hac).symm⟩

theorem setBan_spends (st : CmodeState) : Spends st st.setBan := by
  rw [CmodeState.setBan, CmodeState.spend]
  dsimp only
  by_cases hac : st.ac - 1 < 0
  · rw [if_pos hac]
    exact ⟨rfl, rfl, (if_pos hac).symm⟩
  · rw [if_neg hac]
    exact ⟨rfl, rfl, (if_neg hac).symm⟩

/-- The loop reads the parameters of the line one by one: those that are left are at hand, and are
counted until none is left. -/
structure Reads (st : CmodeState) (add : Bool) (params : List CString) : Prop where
  add : st.add = add
  av : st.av = params
  ac : st.ac = params.length ∨ (params = [] ∧ st.ac < 0)

theorem Spends.reads {add : Bool} {params : List CString} (h : Spends st st') (hreads : Reads st add params) :
    Reads st' add params.tail := by
  refine ⟨h.add.trans hreads.add, ?_, ?_⟩
  · rw [h.av, hreads.av]
    cases params with
    | nil => exact ite_self _
    | cons p params =>
      rcases hreads.ac with hac | ⟨hnil, -⟩
      · rw [hac, List.length_cons, if_neg (by push_cast; omega)]
      · cases hnil
  · rw [h.ac]
    cases params with
    | nil =>
      right
      refine ⟨rfl, ?_⟩
      rcases hreads.ac with hac | ⟨-, hac⟩
      · rw [hac, List.length_nil]
        decide
      · omega
    | cons p params =>
      left
      rcases hreads.ac with hac | ⟨hnil, -⟩
      · rw [hac, List.length_cons, List.tail_cons]
        push_cast
        ring
      · cases hnil

/-- Letters other than `b` leave the list alone. -/
theorem cmodeStep_newbans {c : Char} (hc : c ≠ 'b') :
    (cmodeStep env source st c).chan.newbans = st.chan.newbans := by
  rw [cmodeStep]
  split_ifs with hplus hminus hk hl ho hv
  · rfl
  · rfl
  · exact setKey_newbans st
  · exact setLimit_newbans st
  · exact (setOp_spends st env source).2
  · exact (setVoice_spends st env).2
  · split <;> rfl

theorem foldl_cmodeStep_newbans {s : CString} (hs : 'b' ∉ s) :
    (s.foldl (cmodeStep env source) st).chan.newbans = st.chan.newbans := by
  induction s generalizing st with
  | nil => rfl
  | cons c s ih =>
    rw [List.mem_cons, not_or] at hs
    rw [List.foldl_cons, ih hs.2, cmodeStep_newbans (Ne.symm hs.1)]

theorem setBan_newbans {add : Bool} {params : List CString} (hreads : Reads st add params) :
    st.setBan.chan.newbans =
      ((params.take 1).map fun mask ↦ (add, mask)).foldl applyChange st.chan.newbans := by
  rw [CmodeState.setBan, CmodeState.spend]
  dsimp only
  cases params with
  | nil =>
    have hac : st.ac - 1 < 0 := by
      rcases hreads.ac with hac | ⟨-, hac⟩
      · rw [hac, List.length_nil]
        decide
      · omega
    rw [if_pos hac]
    rfl
  | cons p params =>
    have hac : ¬ st.ac - 1 < 0 := by
      rcases hreads.ac with hac | ⟨hnil, -⟩
      · rw [hac, List.length_cons]
        push_cast
        omega
      · cases hnil
    rw [if_neg hac, hreads.av, hreads.add]
    rfl

/-- The letters that take a parameter spend one, but for the `-k` that does not move on. -/
theorem cmodeStep_spends {c : Char} {add : Bool} {params : List CString} (hreads : Reads st add params)
    (htakes : takesParam c add = true) (hlost : ¬ (c = 'k' ∧ add = false ∧ params ≠ [])) :
    Spends st (cmodeStep env source st c) := by
  simp only [takesParam, Bool.or_eq_true, Bool.and_eq_true, beq_iff_eq, or_assoc] at htakes
  rcases htakes with rfl | rfl | rfl | ⟨rfl, hadd⟩
  · show Spends st st.setKey
    by_cases hadd : st.add = true
    · exact setKey_spends hadd
    · refine setKey_spends_missing ?_
      have hnil : params = [] := by
        by_contra hne
        exact hlost ⟨rfl, hreads.add ▸ Bool.eq_false_iff.mpr hadd, hne⟩
      rcases hreads.ac with hac | ⟨-, hac⟩
      · rw [hac, hnil, List.length_nil]
        decide
      · omega
  · exact (setOp_spends st env source).1
  · exact (setVoice_spends st env).1
  · exact setLimit_spends (hreads.add.trans hadd)

/-- The other letters leave the parameters alone. -/
theorem cmodeStep_reads {c : Char} {add : Bool} {params : List CString} (hreads : Reads st add params)
    (hplus : c ≠ '+') (hminus : c ≠ '-') (hb : c ≠ 'b') (htakes : ¬ takesParam c add = true) :
    Reads (cmodeStep env source st c) add params := by
  simp only [takesParam, Bool.or_eq_true, Bool.and_eq_true, beq_iff_eq, not_or, not_and] at htakes
  obtain ⟨⟨⟨hk, ho⟩, hv⟩, hl⟩ := htakes
  rw [cmodeStep, if_neg hplus, if_neg hminus, if_neg hk]
  by_cases hlimit : c = 'l'
  · have hadd : ¬ st.add = true := hreads.add ▸ hl hlimit
    rw [if_pos hlimit, CmodeState.setLimit, if_neg hadd]
    exact ⟨hreads.add, hreads.av, hreads.ac⟩
  · rw [if_neg hlimit, if_neg hb, if_neg ho, if_neg hv]
    split
    · exact ⟨hreads.add, hreads.av, hreads.ac⟩
    · exact hreads

theorem banChanges_eq_nil {s : CString} (hs : 'b' ∉ s) {add : Bool} {params : List CString} :
    banChanges s add params = [] := by
  induction s generalizing add params with
  | nil => rfl
  | cons c s ih =>
    rw [List.mem_cons, not_or] at hs
    rw [banChanges, if_neg (Ne.symm hs.1)]
    split_ifs <;> exact ih hs.2

/-- The loop makes the changes of the line. -/
theorem foldl_cmodeStep {s : CString} {add : Bool} {params : List CString} (hreads : Reads st add params)
    (hunkey : UnkeyBehindBans s add params) :
    (s.foldl (cmodeStep env source) st).chan.newbans =
      (banChanges s add params).foldl applyChange st.chan.newbans := by
  induction s generalizing st add params with
  | nil => rfl
  | cons c s ih =>
    rw [UnkeyBehindBans] at hunkey
    rw [List.foldl_cons, banChanges]
    by_cases hplus : c = '+'
    · rw [if_pos hplus] at hunkey ⊢
      rw [cmodeStep, if_pos hplus]
      exact ih ⟨rfl, hreads.av, hreads.ac⟩ hunkey
    rw [if_neg hplus] at hunkey ⊢
    by_cases hminus : c = '-'
    · rw [if_pos hminus] at hunkey ⊢
      rw [cmodeStep, if_neg hplus, if_pos hminus]
      exact ih ⟨rfl, hreads.av, hreads.ac⟩ hunkey
    rw [if_neg hminus] at hunkey ⊢
    by_cases hb : c = 'b'
    · subst hb
      rw [if_neg (by simp), if_pos (.inl rfl)] at hunkey
      rw [if_pos rfl, List.foldl_append, ← setBan_newbans hreads, show cmodeStep env source st 'b' = st.setBan from rfl]
      exact ih ((setBan_spends st).reads hreads) hunkey
    rw [if_neg hb]
    by_cases htakes : takesParam c add = true
    · rw [if_pos htakes]
      by_cases hlost : c = 'k' ∧ add = false ∧ params ≠ []
      · -- the loop goes on with a wrong parameter, but no ban is behind it
        rw [if_pos hlost] at hunkey
        rw [foldl_cmodeStep_newbans hunkey, cmodeStep_newbans hb, banChanges_eq_nil hunkey]
        rfl
      · rw [if_neg hlost, if_pos (.inr htakes)] at hunkey
        rw [ih ((cmodeStep_spends hreads htakes hlost).reads hreads) hunkey, cmodeStep_newbans hb]
    · rw [if_neg htakes]
      rw [if_neg fun hlost ↦ htakes (by rw [hlost.1]; rfl), if_neg (by simp [hb, htakes])] at hunkey
      rw [ih (cmodeStep_reads hreads hplus hminus hb htakes) hunkey, cmodeStep_newbans hb]

end Letters

/-! ### Messages -/

section Messages

variable {env : CmodeEnv} {source modestr lastmodes : CString} {params : List CString} {chan : Channel}

theorem countServerMode_newbans (env : CmodeEnv) (now : ℤ) (source modestr lastmodes : CString)
    (chan : Channel) :
    (countServerMode env now source modestr lastmodes chan).1.newbans = chan.newbans := by
  rw [countServerMode]
  split_ifs <;> rfl

theorem countCall_newbans (now : ℤ) (c : Channel) : (countCall now c).newbans = c.newbans := by
  rw [countCall]
  split_ifs <;> rfl

/-- The mode lock touches nothing but modes, limit, key and the count of its calls. -/
theorem checkModes_keeps {β : Type} (f : Channel → β) (hcount : ∀ now c, f (countCall now c) = f c)
    (hmodes : ∀ (c : Channel) (mode limit : BitVec 32) (key : Option CString),
      f { c with mode := mode, limit := limit, key := key } = f c)
    (env : CmodeEnv) (now : ℤ) (row : Option MlockRow) (c : Channel) :
    f (checkModes env now row c).1 = f c := by
  have hlock (c d : Channel) : f (unlockFlags row (ChanServ.setKey row c d)) = f d :=
    (hmodes _ _ _ _).trans (hmodes _ _ _ _)
  have hdirect {c : Channel} (hkey : c.key = none ∨ keyToSet row c = none) :
      f (checkModes env now row c).1 = f c := by
    rw [checkModes_of_not_replaced hkey]
    exact (hlock _ _).trans ((hmodes _ _ _ _).trans (hcount now c))
  cases hold : c.key with
  | none => exact hdirect (.inl hold)
  | some oldkey =>
    cases hnew : keyToSet row c with
    | none => exact hdirect (.inr hnew)
    | some newkey =>
      rw [checkModes_of_replaced hold hnew]
      dsimp only
      rw [hlock, hdirect (.inl rfl)]
      exact (hmodes _ _ _ _).trans ((hmodes _ _ _ _).trans (hcount now c))

/-- The mode lock does not touch the bans. -/
theorem checkModes_newbans (env : CmodeEnv) (now : ℤ) (row : Option MlockRow) (c : Channel) :
    (checkModes env now row c).1.newbans = c.newbans :=
  checkModes_keeps Channel.newbans countCall_newbans (fun _ _ _ _ ↦ rfl) env now row c

/-- `do_cmode` makes the changes of the line. -/
theorem doCmode_newbans (context : ModeContext) (hunkey : UnkeyBehindBans modestr true params) :
    (doCmode context.env context.now context.row source lastmodes chan modestr params).1.newbans =
      (banChanges modestr true params).foldl applyChange chan.newbans := by
  have hloop (c : Channel) : (cmodeLoop context.env source c modestr params).newbans =
      (banChanges modestr true params).foldl applyChange c.newbans :=
    foldl_cmodeStep ⟨rfl, rfl, .inl rfl⟩ hunkey
  rw [doCmode]
  dsimp only
  rw [checkModes_newbans, hloop, countServerMode_newbans]

theorem receiveMode_newbans (message : BanMessage) (hread : message.ReadRight) (st : Channel × CString) :
    (receiveMode st message).1.newbans = message.changes.foldl applyChange st.1.newbans := by
  cases message with
  | mode context source modestr params => exact doCmode_newbans context hread
  | kickBan context mask => exact doCmode_newbans context (by simp [UnkeyBehindBans, takesParam])

/-- The list stays exact along a run. -/
theorem Mirrors.run {st : Channel × CString} {changes : List BanChange} {messages : List BanMessage}
    (h : Mirrors st.1.newbans changes) (hmeets : Along receiveMode BanMeets st messages) :
    Mirrors (messages.foldl receiveMode st).1.newbans (changes ++ messages.flatMap BanMessage.changes) := by
  induction messages generalizing st changes with
  | nil =>
    rw [List.flatMap_nil, List.append_nil]
    exact h
  | cons message messages ih =>
    rw [List.foldl_cons, List.flatMap_cons, ← List.append_assoc]
    refine ih ?_ hmeets.2
    rw [receiveMode_newbans message hmeets.1.1]
    exact h.foldl hmeets.1.2

/-- In every state of a run from the creation of the channel the list has exactly the masks whose last change
was `+b`, each once, if no message of the run sets a mask that is in the list or has a `b` behind a `-k`. -/
theorem bans_mirrored (hnew : chan.newbans = []) (lastmodes : CString) (messages : List BanMessage)
    (hmeets : Along receiveMode BanMeets (chan, lastmodes) messages) (before : List BanMessage)
    (hbefore : before <+: messages) :
    Mirrors (before.foldl receiveMode (chan, lastmodes)).1.newbans (before.flatMap BanMessage.changes) := by
  obtain ⟨rest, rfl⟩ := hbefore
  have hstart : Mirrors ((chan, lastmodes) : Channel × CString).1.newbans [] := by
    rw [hnew]
    exact mirrors_nil
  exact hstart.run ((along_append _ _ _).mp hmeets).1

end Messages

/-! ### A ban set twice -/

/-- Nobody is online and no modes are locked. -/
def bareContext : ModeContext := ⟨bareEnv, 0, none⟩

/-- The server sets a ban on `m`, and removes it. -/
def banRemoved : List BanMessage :=
  [.mode bareContext ['s'] ['+', 'b'] [['m']], .mode bareContext ['s'] ['-', 'b'] [['m']]]

theorem bans_mirrored_banRemoved :
    Mirrors (banRemoved.foldl receiveMode (bareChannel 0 0 none 0, [])).1.newbans
      (banRemoved.flatMap BanMessage.changes) := by
  have hread : ∀ message ∈ banRemoved, message.ReadRight := by
    simp [banRemoved, BanMessage.ReadRight, UnkeyBehindBans]
  obtain ⟨hset, hunset, -⟩ := List.forall_mem_cons.mp hread |>.imp_right List.forall_mem_cons.mp
  refine bans_mirrored rfl [] banRemoved ⟨⟨hset, ?_⟩, ⟨hunset, ?_⟩, trivial⟩ banRemoved List.prefix_rfl
  · exact ⟨fun _ ↦ List.not_mem_nil, trivial⟩
  · exact ⟨fun h ↦ absurd h (by decide), trivial⟩

/-- Services ban `m` themselves before the server removes the ban. -/
def banTwice : List BanMessage :=
  [.mode bareContext ['s'] ['+', 'b'] [['m']], .kickBan bareContext ['m'],
    .mode bareContext ['s'] ['-', 'b'] [['m']]]

/-- The ban stays in the list. -/
theorem banTwice_not_mirrored :
    ¬ Mirrors (banTwice.foldl receiveMode (bareChannel 0 0 none 0, [])).1.newbans
      (banTwice.flatMap BanMessage.changes) := by
  have hset (st : Channel × CString) :
      (receiveMode st (.mode bareContext ['s'] ['+', 'b'] [['m']])).1.newbans = st.1.newbans ++ [['m']] :=
    receiveMode_newbans _ (by simp [BanMessage.ReadRight, UnkeyBehindBans]) st
  have hkick (st : Channel × CString) :
      (receiveMode st (.kickBan bareContext ['m'])).1.newbans = st.1.newbans ++ [['m']] :=
    receiveMode_newbans (.kickBan bareContext ['m']) trivial st
  have hunset (st : Channel × CString) :
      (receiveMode st (.mode bareContext ['s'] ['-', 'b'] [['m']])).1.newbans = st.1.newbans.erase ['m'] :=
    receiveMode_newbans _ (by simp [BanMessage.ReadRight, UnkeyBehindBans]) st
  have hleft : (banTwice.foldl receiveMode (bareChannel 0 0 none 0, [])).1.newbans = [['m']] := by
    rw [banTwice, List.foldl_cons, List.foldl_cons, List.foldl_cons, List.foldl_nil, hunset, hkick, hset]
    rfl
  intro hmirrors
  rw [hleft] at hmirrors
  have hlast := (hmirrors.mem_iff ['m']).mp (List.mem_singleton_self _)
  exact absurd hlast (by decide)

/-- Behind a `-k` the loop takes the key for the mask. -/
example : (cmodeLoop bareEnv ['s'] (bareChannel 0 0 none 0) ['-', 'k', '+', 'b'] [['k'], ['m']]).newbans =
    [['k']] := rfl

end BlitzedServices.Channels
