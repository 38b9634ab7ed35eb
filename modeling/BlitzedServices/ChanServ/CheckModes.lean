import BlitzedServices.Channels.Cmode

/-!
# Enforcing the mode lock

`checkModes` compares the modes of a channel with the stored mode lock, edits the record and sends
MODE lines. A key that differs from the locked one is first removed with a MODE line of its own and
a nested `do_cmode`, which ends in a second `check_modes` on the channel without a key; then the
outer call sends its line. `serverMode` is what a server does with a line.

`checkModes_enforces` shows that the record obeys the lock afterwards, that a server with the modes
the record had before arrives at the record after the call by applying the lines in order, and that
a second call sends no further line. Two texts are not promised: a locked limit of `2 ^ 31` or more
is printed with `%d` as a negative number, and while both bounce counters stand at three or more
every call repeats the notice to operators.
-/

set_option autoImplicit false
set_option relaxedAutoImplicit false

namespace BlitzedServices.ChanServ

open Lib Channels

/-! ### The stored lock -/

/-- The mode-lock columns of a row of the `channel` table. -/
structure MlockRow where
  mlockOn : BitVec 32
  mlockOff : BitVec 32
  mlockLimit : BitVec 32
  mlockKey : CString

/-- `get_mlock_on`: a channel without a row has no lock. -/
def getMlockOn : Option MlockRow → BitVec 32
  | none => 0#32
  | some row => atoi (decimal row.mlockOn.toInt)

/-- `get_mlock_off`. -/
def getMlockOff : Option MlockRow → BitVec 32
  | none => 0#32
  | some row => atoi (decimal row.mlockOff.toInt)

/-- `get_mlock_limit`, of an unsigned column. -/
def getMlockLimit : Option MlockRow → BitVec 32
  | none => 0#32
  | some row => atoi (decimal row.mlockLimit.toNat)

/-- `get_mlock_key`. -/
def getMlockKey : Option MlockRow → Option CString
  | none => none
  | some row => some row.mlockKey

@[simp] theorem getMlockOn_some (row : MlockRow) : getMlockOn (some row) = row.mlockOn :=
  atoi_decimal_toInt row.mlockOn

@[simp] theorem getMlockOff_some (row : MlockRow) : getMlockOff (some row) = row.mlockOff :=
  atoi_decimal_toInt row.mlockOff

@[simp] theorem getMlockLimit_some (row : MlockRow) : getMlockLimit (some row) = row.mlockLimit :=
  atoi_decimal_toNat row.mlockLimit

/-- The locked key, when there is one: the empty column is no key. -/
def lockedKey (row : Option MlockRow) : Option CString :=
  (getMlockKey row).filter fun key ↦ key ≠ []

/-! ### The edits of `check_modes` -/

/-- One MODE line: the letters after the channel name and the parameters after them. -/
structure ModeLine where
  letters : CString
  params : List CString

/-- What `check_modes` sends. -/
inductive Sent
  /-- The notice to operators about bouncing modes, with both counters. -/
  | wallops (serverModecount chanservModecount : ℤ)
  | mode (line : ModeLine)

/-- The nick of ChanServ. -/
def s_ChanServ : CString := "ChanServ".toList

/-- The test for bouncing modes. -/
def IsBouncing (c : Channel) : Prop :=
  3 ≤ c.serverModecount.toInt ∧ 3 ≤ c.chanservModecount.toInt

instance (c : Channel) : Decidable (IsBouncing c) :=
  inferInstanceAs (Decidable (_ ∧ _))

/-- The notice about bouncing modes. -/
def bounceNotice (c : Channel) : List Sent :=
  if IsBouncing c then [.wallops c.serverModecount.toInt c.chanservModecount.toInt] else []

/-- The count of calls in one second. -/
def countCall (now : ℤ) (c : Channel) : Channel :=
  let c := if c.chanservModetime ≠ now then
    { c with chanservModecount := 0, chanservModetime := now } else c
  { c with chanservModecount := c.chanservModecount + 1 }

/-- The entries of `flagTable` whose flag is set in `modes`. -/
def flagsIn (modes : BitVec 32) : List (Char × BitVec 32) :=
  flagTable.filter fun (_, flag) ↦ modes &&& flag ≠ 0#32

/-- The letters that the ten tests of `modes` append. -/
def flagLetters (modes : BitVec 32) : CString :=
  (flagsIn modes).map Prod.fst

/-- The mode word after the ten tests of `modes`, each setting its flag. -/
def setFlags (modes mode : BitVec 32) : BitVec 32 :=
  (flagsIn modes).foldl (fun mode (_, flag) ↦ mode ||| flag) mode

/-- The mode word after the ten tests of `modes`, each clearing its flag. -/
def clearFlags (modes mode : BitVec 32) : BitVec 32 :=
  (flagsIn modes).foldl (fun mode (_, flag) ↦ mode &&& ~~~flag) mode

/-- The limit to set, when the locked one differs. -/
def limitToSet (row : Option MlockRow) (c : Channel) : Option (BitVec 32) :=
  if getMlockLimit row ≠ 0#32 ∧ getMlockLimit row ≠ c.limit then some (getMlockLimit row) else none

/-- The key to set, when the locked one differs. -/
def keyToSet (row : Option MlockRow) (c : Channel) : Option CString :=
  (lockedKey row).filter fun key ↦ c.key ≠ some key

/-- The key to clear, when `k` is locked off. -/
def keyToClear (row : Option MlockRow) (c : Channel) : Option CString :=
  if getMlockOff row &&& CMODE_k ≠ 0#32 then c.key else none

/-- Whether the limit is to be cleared, when `l` is locked off. -/
def limitToClear (row : Option MlockRow) (c : Channel) : Bool :=
  c.limit ≠ 0#32 ∧ getMlockOff row &&& CMODE_l ≠ 0#32

/-- The edits of the first half, up to the key: the missing flags and the locked limit. -/
def lockFlags (row : Option MlockRow) (c : Channel) : Channel :=
  { c with
    mode := setFlags (~~~c.mode &&& getMlockOn row) c.mode
    limit := (limitToSet row c).getD c.limit }

/-- The edits of the second half: the flags locked off, the key and the limit. -/
def unlockFlags (row : Option MlockRow) (c : Channel) : Channel :=
  { c with
    mode := clearFlags (c.mode &&& getMlockOff row) c.mode
    key := if (keyToClear row c).isSome then none else c.key
    limit := if limitToClear row c then 0#32 else c.limit }

/-- A sign with the letters after it, dropped when there are none. -/
def signed (sign : Char) (letters : CString) : CString :=
  if letters = [] then [] else sign :: letters

/-- The edits that one call announces: the flags, limit and key set, then the flags, key and limit
cleared. -/
structure ModeEdits where
  flagsSet : BitVec 32
  limitSet : Option (BitVec 32)
  keySet : Option CString
  flagsCleared : BitVec 32
  keyCleared : Option CString
  limitCleared : Bool

/-- The letters set. -/
def ModeEdits.lettersSet (edits : ModeEdits) : CString :=
  flagLetters edits.flagsSet ++ (if edits.limitSet.isSome then ['l'] else []) ++
    if edits.keySet.isSome then ['k'] else []

/-- The letters cleared. -/
def ModeEdits.lettersCleared (edits : ModeEdits) : CString :=
  flagLetters edits.flagsCleared ++ (if edits.keyCleared.isSome then ['k'] else []) ++
    if edits.limitCleared then ['l'] else []

/-- `newmodes`. -/
def ModeEdits.newmodes (edits : ModeEdits) : CString :=
  signed '+' edits.lettersSet ++ signed '-' edits.lettersCleared

/-- The parameters of the line: `newlimit` through `%d`, then the key, which is that of the channel
when there is a limit and `newkey` otherwise. -/
def ModeEdits.params (edits : ModeEdits) (key : Option CString) : List CString :=
  match edits.limitSet, edits.keyCleared.orElse fun _ ↦ edits.keySet with
  | some newlimit, some _ => [decimal newlimit.toInt, key.getD []]
  | some newlimit, none => [decimal newlimit.toInt]
  | none, some newkey => [newkey]
  | none, none => []

/-- The line that announces the edits, for a channel with `key` after them. -/
def ModeEdits.send (edits : ModeEdits) (key : Option CString) : List Sent :=
  if edits.newmodes = [] then [] else [.mode ⟨edits.newmodes, edits.params key⟩]

/-- The edits of a call that finds the channel as `before` and has it as `rekeyed` after the key. -/
def modeEdits (row : Option MlockRow) (before rekeyed : Channel) : ModeEdits where
  flagsSet := ~~~before.mode &&& getMlockOn row
  limitSet := limitToSet row before
  keySet := keyToSet row before
  flagsCleared := rekeyed.mode &&& getMlockOff row
  keyCleared := keyToClear row rekeyed
  limitCleared := limitToClear row rekeyed

/-- The channel with the locked key, when `before` had another. -/
def setKey (row : Option MlockRow) (before c : Channel) : Channel :=
  { c with key := (keyToSet row before).orElse fun _ ↦ c.key }

/-- `check_modes` on an existing channel: the record it leaves and what it sends. In the nested
`do_cmode` nothing is counted, since ChanServ is not a server. -/
def checkModes (env : CmodeEnv) (now : ℤ) (row : Option MlockRow) (c : Channel) :
    Channel × List Sent :=
  if c.bouncyModes then (c, [])
  else
    let before := countCall now c
    let locked := lockFlags row before
    let replaced : Channel × List Sent :=
      match _ : locked.key, keyToSet row before with
      | some oldkey, some _ =>
        let nested := checkModes env now row
          (cmodeLoop env s_ChanServ locked ['-', 'k'] [oldkey])
        (nested.1, .mode ⟨['-', 'k'], [oldkey]⟩ :: nested.2)
      | _, _ => (locked, [])
    let rekeyed := setKey row before replaced.1
    let after := unlockFlags row rekeyed
    (after, bounceNotice c ++ replaced.2 ++ (modeEdits row before rekeyed).send after.key)
  termination_by c.key.isSome.toNat
  decreasing_by
    have hsome : c.key = some oldkey := by
      rw [← ‹locked.key = some oldkey›]
      simp only [locked, before, lockFlags, countCall]
      split_ifs <;> rfl
    rw [cmodeLoop_minus_k, hsome]
    exact Nat.zero_lt_one

/-- `do_cmode` on an existing channel: the record, `lastmodes` and what is sent. -/
def doCmode (env : CmodeEnv) (now : ℤ) (row : Option MlockRow) (source lastmodes : CString)
    (chan : Channel) (modestr : CString) (params : List CString) :
    Channel × CString × List Sent :=
  let counted := countServerMode env now source modestr lastmodes chan
  let checked := checkModes env now row (cmodeLoop env source counted.1 modestr params)
  (checked.1, counted.2, checked.2)

/-! ### The server's side -/

/-- The modes a server holds for a channel. -/
@[ext]
structure ServerChannel where
  mode : BitVec 32
  limit : ℕ
  key : Option CString

/-- The modes of a channel record. -/
def serverChannel (c : Channel) : ServerChannel where
  mode := c.mode
  limit := c.limit.toNat
  key := c.key

/-- The variables of a server's loop over a MODE line. -/
structure ServerState where
  chan : ServerChannel
  add : Bool
  params : List CString

/-- The state with another mode word. -/
def ServerState.setMode (st : ServerState) (mode : BitVec 32) : ServerState :=
  { st with chan := { st.chan with mode } }

/-- The limit after `+l` with a parameter: one that is not a positive number is ignored. -/
def serverLimit (limit : ℕ) (param : CString) : ℕ :=
  if 0 < signedValue param then (signedValue param).toNat else limit

/-- One letter of a MODE line at the server. `+k`, `-k` and `+l` each consume a parameter. -/
def serverStep (st : ServerState) (letter : Char) : ServerState :=
  if letter = '+' then { st with add := true }
  else if letter = '-' then { st with add := false }
  else if letter = 'k' then
    match st.params with
    | [] => st
    | key :: params =>
      { st with chan := { st.chan with key := if st.add then some key else none }, params }
  else if letter = 'l' then
    if st.add then
      match st.params with
      | [] => st
      | limit :: params =>
        { st with chan := { st.chan with limit := serverLimit st.chan.limit limit }, params }
    else { st with chan := { st.chan with limit := 0 } }
  else
    match flagOf letter with
    | some flag => st.setMode (if st.add then st.chan.mode ||| flag else st.chan.mode &&& ~~~flag)
    | none => st

/-- A MODE line at the server. -/
def serverMode (chan : ServerChannel) (line : ModeLine) : ServerChannel :=
  (line.letters.foldl serverStep ⟨chan, true, line.params⟩).chan

/-- The MODE lines among what was sent. -/
def modeLines (sent : List Sent) : List ModeLine :=
  sent.filterMap fun
    | .wallops _ _ => none
    | .mode line => some line

/-! ### What the lock asks for -/

/-- A lock without contradictions. -/
structure Consistent (row : Option MlockRow) : Prop where
  on_off : getMlockOn row &&& getMlockOff row = 0#32
  key : lockedKey row ≠ none → getMlockOff row &&& CMODE_k = 0#32
  limit : getMlockLimit row ≠ 0#32 → getMlockOff row &&& CMODE_l = 0#32

/-- A channel that obeys the lock. -/
structure Obeys (row : Option MlockRow) (c : Channel) : Prop where
  on : ∀ letter flag, (letter, flag) ∈ flagTable → getMlockOn row &&& flag ≠ 0#32 →
    c.mode &&& flag ≠ 0#32
  off : ∀ letter flag, (letter, flag) ∈ flagTable → getMlockOff row &&& flag ≠ 0#32 →
    c.mode &&& flag = 0#32
  limit_on : getMlockLimit row ≠ 0#32 → c.limit = getMlockLimit row
  limit_off : getMlockOff row &&& CMODE_l ≠ 0#32 → c.limit = 0#32
  key_on : ∀ key, lockedKey row = some key → c.key = some key
  key_off : getMlockOff row &&& CMODE_k ≠ 0#32 → c.key = none

/-! ### Mode words -/

/-- All flags of the table in one word. -/
def flagMask : BitVec 32 :=
  flagTable.foldr (fun entry mask ↦ entry.2 ||| mask) 0#32

theorem flagTable_twoPow : ∀ entry ∈ flagTable, ∃ i < 32, entry.2 = BitVec.twoPow 32 i := by
  simp only [flagTable, List.mem_cons, List.not_mem_nil, or_false, forall_eq_or_imp, forall_eq]
  exact ⟨⟨0, by decide, rfl⟩, ⟨1, by decide, rfl⟩, ⟨12, by decide, rfl⟩, ⟨2, by decide, rfl⟩,
    ⟨3, by decide, rfl⟩, ⟨4, by decide, rfl⟩, ⟨5, by decide, rfl⟩, ⟨10, by decide, rfl⟩,
    ⟨11, by decide, rfl⟩, ⟨8, by decide, rfl⟩⟩

theorem twoPow_ne_zero {i : ℕ} (hi : i < 32) : BitVec.twoPow 32 i ≠ 0#32 := by
  intro hzero
  have hbit := congrArg (fun flag ↦ flag.getLsbD i) hzero
  simp [hi] at hbit

/-- Testing a flag is testing a bit. -/
theorem exists_test {flag : BitVec 32} (h : ∃ i < 32, flag = BitVec.twoPow 32 i) :
    ∃ i, ∃ _ : i < 32, ∀ word : BitVec 32, word &&& flag ≠ 0#32 ↔ word[i] = true := by
  obtain ⟨i, hi, rfl⟩ := h
  refine ⟨i, hi, fun word ↦ ?_⟩
  rw [BitVec.and_twoPow, BitVec.getLsbD_eq_getElem hi]
  cases word[i] <;> simp [twoPow_ne_zero hi]

/-- A test of one flag picks the flag or nothing. -/
theorem ite_and_flag {modes flag : BitVec 32} (h : ∃ i < 32, flag = BitVec.twoPow 32 i) :
    (if modes &&& flag ≠ 0#32 then flag else 0#32) = modes &&& flag := by
  obtain ⟨i, hi, rfl⟩ := h
  rw [BitVec.and_twoPow]
  by_cases hbit : modes.getLsbD i
  · rw [if_pos hbit, if_pos (twoPow_ne_zero hi)]
  · rw [if_neg hbit, if_neg (by simp)]

/-- Setting the flags picked from a list of flags sets their common part with `modes`. -/
theorem foldl_setFlags {modes : BitVec 32} {entries : List (Char × BitVec 32)} {mode : BitVec 32}
    (h : ∀ entry ∈ entries, ∃ i < 32, entry.2 = BitVec.twoPow 32 i) :
    (entries.filter fun (_, flag) ↦ modes &&& flag ≠ 0#32).foldl
        (fun mode (_, flag) ↦ mode ||| flag) mode =
      mode ||| (modes &&& entries.foldr (fun entry mask ↦ entry.2 ||| mask) 0#32) := by
  induction entries generalizing mode with
  | nil => simp
  | cons entry entries ih =>
    have hentries := fun entry' hmem ↦ h entry' (List.mem_cons_of_mem _ hmem)
    have hflag := @ite_and_flag modes entry.2 (h entry (List.mem_cons_self ..))
    by_cases hset : modes &&& entry.2 ≠ 0#32
    · rw [if_pos hset] at hflag
      rw [List.filter_cons_of_pos (by simpa using hset), List.foldl_cons, ih hentries,
        List.foldr_cons, BitVec.and_or_distrib_left, ← hflag, BitVec.or_assoc]
    · rw [List.filter_cons_of_neg (by simpa using hset), ih hentries, List.foldr_cons,
        BitVec.and_or_distrib_left, not_not.mp hset, BitVec.zero_or]

/-- Clearing the flags picked from a list of flags clears their common part with `modes`. -/
theorem foldl_clearFlags {modes : BitVec 32} {entries : List (Char × BitVec 32)}
    {mode : BitVec 32} (h : ∀ entry ∈ entries, ∃ i < 32, entry.2 = BitVec.twoPow 32 i) :
    (entries.filter fun (_, flag) ↦ modes &&& flag ≠ 0#32).foldl
        (fun mode (_, flag) ↦ mode &&& ~~~flag) mode =
      mode &&& ~~~(modes &&& entries.foldr (fun entry mask ↦ entry.2 ||| mask) 0#32) := by
  induction entries generalizing mode with
  | nil =>
    rw [List.filter_nil, List.foldl_nil, List.foldr_nil, BitVec.and_zero, BitVec.not_zero,
      BitVec.and_allOnes]
  | cons entry entries ih =>
    have hentries := fun entry' hmem ↦ h entry' (List.mem_cons_of_mem _ hmem)
    have hflag := @ite_and_flag modes entry.2 (h entry (List.mem_cons_self ..))
    by_cases hset : modes &&& entry.2 ≠ 0#32
    · rw [if_pos hset] at hflag
      rw [List.filter_cons_of_pos (by simpa using hset), List.foldl_cons, ih hentries,
        List.foldr_cons, BitVec.and_or_distrib_left, ← hflag, BitVec.not_or, BitVec.and_assoc]
    · rw [List.filter_cons_of_neg (by simpa using hset), ih hentries, List.foldr_cons,
        BitVec.and_or_distrib_left, not_not.mp hset, BitVec.zero_or]

theorem setFlags_eq (modes mode : BitVec 32) :
    setFlags modes mode = mode ||| (modes &&& flagMask) :=
  foldl_setFlags flagTable_twoPow

theorem clearFlags_eq (modes mode : BitVec 32) :
    clearFlags modes mode = mode &&& ~~~(modes &&& flagMask) :=
  foldl_clearFlags flagTable_twoPow

theorem and_flagMask_eq_zero_iff (modes : BitVec 32) :
    modes &&& flagMask = 0#32 ↔ ∀ entry ∈ flagTable, modes &&& entry.2 = 0#32 := by
  unfold flagMask
  induction flagTable with
  | nil => simp
  | cons entry entries ih =>
    rw [List.foldr_cons, BitVec.and_or_distrib_left, BitVec.or_eq_zero_iff, ih,
      List.forall_mem_cons]

theorem flagLetters_eq_nil_iff (modes : BitVec 32) :
    flagLetters modes = [] ↔ modes &&& flagMask = 0#32 := by
  rw [and_flagMask_eq_zero_iff, flagLetters, List.map_eq_nil_iff, flagsIn, List.filter_eq_nil_iff]
  simp

/-! ### Lines at the server -/

theorem serverStep_flag {entry : Char × BitVec 32} (h : entry ∈ flagTable) (st : ServerState) :
    serverStep st entry.1 =
      st.setMode (if st.add then st.chan.mode ||| entry.2 else st.chan.mode &&& ~~~entry.2) := by
  have htable : ∀ entry ∈ flagTable, entry.1 ≠ '+' ∧ entry.1 ≠ '-' ∧ entry.1 ≠ 'k' ∧
      entry.1 ≠ 'l' ∧ flagOf entry.1 = some entry.2 := by decide
  obtain ⟨hplus, hminus, hk, hl, hflag⟩ := htable entry h
  simp only [serverStep, if_neg hplus, if_neg hminus, if_neg hk, if_neg hl, hflag]

/-- The letters of some entries set or clear their flags at the server. -/
theorem foldl_entries {entries : List (Char × BitVec 32)} (hentries : ∀ entry ∈ entries, entry ∈ flagTable)
    (st : ServerState) :
    (entries.map Prod.fst).foldl serverStep st =
      st.setMode (if st.add then entries.foldl (fun mode (_, flag) ↦ mode ||| flag) st.chan.mode
        else entries.foldl (fun mode (_, flag) ↦ mode &&& ~~~flag) st.chan.mode) := by
  induction entries generalizing st with
  | nil => simp [ServerState.setMode]
  | cons entry entries ih =>
    obtain ⟨hentry, hentries⟩ := List.forall_mem_cons.mp hentries
    rw [List.map_cons, List.foldl_cons, serverStep_flag hentry, ih hentries]
    cases hadd : st.add <;> simp [hadd, ServerState.setMode]

/-- The letters of some flags set or clear these flags at the server. -/
theorem foldl_flagLetters (modes : BitVec 32) (st : ServerState) :
    (flagLetters modes).foldl serverStep st =
      st.setMode (if st.add then setFlags modes st.chan.mode
        else clearFlags modes st.chan.mode) :=
  foldl_entries (fun _ h ↦ (List.mem_filter.mp h).1) st

theorem foldl_signed_plus (letters : CString) (st : ServerState) (h : st.add = true) :
    (signed '+' letters).foldl serverStep st = letters.foldl serverStep st := by
  by_cases hnil : letters = []
  · rw [signed, if_pos hnil, hnil]
  · rw [signed, if_neg hnil, List.foldl_cons]
    congr 1
    simp [serverStep, ← h]

theorem foldl_signed_minus (letters : CString) (st : ServerState) :
    ((signed '-' letters).foldl serverStep st).chan =
      (letters.foldl serverStep { st with add := false }).chan := by
  by_cases hnil : letters = []
  · rw [signed, if_pos hnil, hnil]
    rfl
  · rw [signed, if_neg hnil, List.foldl_cons]
    simp [serverStep]

/-- The edits applied to a server channel. -/
def ModeEdits.apply (edits : ModeEdits) (chan : ServerChannel) : ServerChannel where
  mode := clearFlags edits.flagsCleared (setFlags edits.flagsSet chan.mode)
  limit := if edits.limitCleared then 0
    else (edits.limitSet.map BitVec.toNat).getD chan.limit
  key := if edits.keyCleared.isSome then none else edits.keySet.orElse fun _ ↦ chan.key

/-- The edits that a server reads from the line: a limit that is printed as a negative number is
ignored. -/
def ModeEdits.read (edits : ModeEdits) : ModeEdits :=
  { edits with limitSet := edits.limitSet.filter fun newlimit ↦ 0 < newlimit.toInt }

/-- What a line needs to be read back: a key that is either set or cleared, and the channel's key
when it is set. -/
structure ModeEdits.Readable (edits : ModeEdits) (key : Option CString) : Prop where
  set_or_cleared : edits.keySet = none ∨ edits.keyCleared = none
  key : ∀ newkey, edits.keySet = some newkey → key = some newkey

/-- The line announces the edits: a server that applies it makes those it reads. -/
theorem ModeEdits.foldl_send {edits : ModeEdits} {key : Option CString}
    (h : edits.Readable key) (chan : ServerChannel) :
    (modeLines (edits.send key)).foldl serverMode chan = edits.read.apply chan := by
  have hline : serverMode chan ⟨edits.newmodes, edits.params key⟩ = edits.read.apply chan := by
    obtain ⟨flagsSet, limitSet, keySet, flagsCleared, keyCleared, limitCleared⟩ := edits
    obtain ⟨hkeys, hkey⟩ := h
    rw [serverMode, ModeEdits.newmodes, List.foldl_append, foldl_signed_minus,
      foldl_signed_plus _ _ rfl]
    simp only [ModeEdits.lettersSet, ModeEdits.lettersCleared, List.foldl_append,
      foldl_flagLetters]
    cases limitSet with
    | none =>
      cases keySet <;> cases keyCleared <;> cases limitCleared <;>
        simp_all [ModeEdits.params, ModeEdits.read, ModeEdits.apply, serverStep, ServerState.setMode]
    | some newlimit =>
      have hlimit : serverLimit chan.limit (decimal newlimit.toInt) =
          (((some newlimit).filter fun newlimit ↦ 0 < newlimit.toInt).map BitVec.toNat).getD chan.limit := by
        rw [serverLimit, signedValue_decimal, Option.filter_some]
        by_cases hpos : 0 < newlimit.toInt
        · rw [if_pos hpos, if_pos (decide_eq_true hpos)]
          show newlimit.toInt.toNat = newlimit.toNat
          rw [BitVec.toInt_eq_toNat_cond] at hpos ⊢
          split_ifs at hpos ⊢ <;> omega
        · rw [if_neg hpos, if_neg (by simpa using hpos)]
          rfl
      cases keySet <;> cases keyCleared <;> cases limitCleared <;>
        simp_all [ModeEdits.params, ModeEdits.read, ModeEdits.apply, serverStep, ServerState.setMode]
  by_cases hnil : edits.newmodes = []
  · rw [← hline, hnil, ModeEdits.send, if_pos hnil]
    rfl
  · rw [← hline, ModeEdits.send, if_neg hnil]
    rfl

/-! ### One call -/

theorem countCall_mode (now : ℤ) (c : Channel) : (countCall now c).mode = c.mode := by
  unfold countCall
  split_ifs <;> rfl

theorem countCall_limit (now : ℤ) (c : Channel) : (countCall now c).limit = c.limit := by
  unfold countCall
  split_ifs <;> rfl

theorem countCall_key (now : ℤ) (c : Channel) : (countCall now c).key = c.key := by
  unfold countCall
  split_ifs <;> rfl

theorem keyToSet_countCall (row : Option MlockRow) (now : ℤ) (c : Channel) :
    keyToSet row (countCall now c) = keyToSet row c := by
  unfold keyToSet
  rw [countCall_key]

/-- A call that does not replace a key sends one line. -/
theorem checkModes_of_not_replaced {env : CmodeEnv} {now : ℤ} {row : Option MlockRow} {c : Channel}
    (h : c.key = none ∨ keyToSet row c = none) :
    checkModes env now row c =
      let before := countCall now c
      let rekeyed := setKey row before (lockFlags row before)
      (unlockFlags row rekeyed,
        bounceNotice c ++ (modeEdits row before rekeyed).send (unlockFlags row rekeyed).key) := by
  rw [checkModes, if_neg (by simp [c.bouncyModes_eq])]
  dsimp only
  split
  · next oldkey newkey hold hnew =>
    rw [keyToSet_countCall] at hnew
    have hkey : c.key = some oldkey := (countCall_key now c).symm.trans hold
    rcases h with h | h
    · rw [hkey] at h
      cases h
    · rw [hnew] at h
      cases h
  · rw [List.append_nil]

/-- A call that replaces a key sends a line of its own for it, then what the nested call sends. -/
theorem checkModes_of_replaced {env : CmodeEnv} {now : ℤ} {row : Option MlockRow} {c : Channel}
    {oldkey newkey : CString} (hold : c.key = some oldkey) (hnew : keyToSet row c = some newkey) :
    checkModes env now row c =
      let before := countCall now c
      let nested := checkModes env now row (lockFlags row before).withoutKey
      let rekeyed := setKey row before nested.1
      (unlockFlags row rekeyed,
        bounceNotice c ++ .mode ⟨['-', 'k'], [oldkey]⟩ :: nested.2 ++
          (modeEdits row before rekeyed).send (unlockFlags row rekeyed).key) := by
  rw [checkModes, if_neg (by simp [c.bouncyModes_eq])]
  dsimp only
  split
  · next oldkey' newkey' hold' _ =>
    have hkey : c.key = some oldkey' := (countCall_key now c).symm.trans hold'
    rw [hold, Option.some.injEq] at hkey
    rw [cmodeLoop_minus_k, hkey]
  · next hnone =>
    exact absurd ((keyToSet_countCall row now c).trans hnew)
      (hnone oldkey newkey ((countCall_key now c).trans hold))

/-! ### The modes a call arrives at -/

/-- The mode word after a call. -/
def settledMode (row : Option MlockRow) (mode : BitVec 32) : BitVec 32 :=
  (mode ||| (getMlockOn row &&& flagMask)) &&& ~~~(getMlockOff row &&& flagMask)

/-- The limit after a call. -/
def settledLimit (row : Option MlockRow) (limit : BitVec 32) : BitVec 32 :=
  if getMlockLimit row ≠ 0#32 then getMlockLimit row
  else if getMlockOff row &&& CMODE_l ≠ 0#32 then 0#32 else limit

/-- The key after a call. -/
def settledKey (row : Option MlockRow) (key : Option CString) : Option CString :=
  (lockedKey row).orElse fun _ ↦ if getMlockOff row &&& CMODE_k ≠ 0#32 then none else key

/-- `c'` has the modes that a call on `c` arrives at. -/
structure Settled (row : Option MlockRow) (c c' : Channel) : Prop where
  mode : c'.mode = settledMode row c.mode
  limit : c'.limit = settledLimit row c.limit
  key : c'.key = settledKey row c.key

theorem settledMode_eq (row : Option MlockRow) (mode : BitVec 32) :
    clearFlags (setFlags (~~~mode &&& getMlockOn row) mode &&& getMlockOff row)
      (setFlags (~~~mode &&& getMlockOn row) mode) = settledMode row mode := by
  simp only [setFlags_eq, clearFlags_eq, settledMode]
  ext i hi
  simp only [BitVec.getElem_and, BitVec.getElem_or, BitVec.getElem_not]
  cases mode[i] <;> cases (getMlockOn row)[i] <;> cases (getMlockOff row)[i] <;>
    cases flagMask[i] <;> rfl

theorem settledMode_idem (row : Option MlockRow) (mode : BitVec 32) :
    clearFlags (settledMode row mode &&& getMlockOff row) (settledMode row mode) =
      settledMode row mode := by
  simp only [clearFlags_eq, settledMode]
  ext i hi
  simp only [BitVec.getElem_and, BitVec.getElem_or, BitVec.getElem_not]
  cases mode[i] <;> cases (getMlockOn row)[i] <;> cases (getMlockOff row)[i] <;>
    cases flagMask[i] <;> rfl

/-- Locking the flags first does not change where the mode word settles. -/
theorem settledMode_setFlags (row : Option MlockRow) (mode : BitVec 32) :
    settledMode row (setFlags (~~~mode &&& getMlockOn row) mode) = settledMode row mode := by
  simp only [setFlags_eq, settledMode]
  ext i hi
  simp only [BitVec.getElem_and, BitVec.getElem_or, BitVec.getElem_not]
  cases mode[i] <;> cases (getMlockOn row)[i] <;> cases (getMlockOff row)[i] <;>
    cases flagMask[i] <;> rfl

/-- The nested and the outer line of a call that replaces a key, applied to the mode word: `locked`
is the word in the record when the nested call starts. -/
theorem settledMode_of_lines {row : Option MlockRow} (hrow : Consistent row)
    {mode locked : BitVec 32} (hlocked : locked = setFlags (~~~mode &&& getMlockOn row) mode) :
    clearFlags (settledMode row mode &&& getMlockOff row)
      (setFlags (~~~mode &&& getMlockOn row)
        (clearFlags (setFlags (~~~locked &&& getMlockOn row) locked &&& getMlockOff row)
          (setFlags (~~~locked &&& getMlockOn row) mode))) =
      settledMode row mode := by
  subst hlocked
  simp only [setFlags_eq, clearFlags_eq, settledMode]
  ext i hi
  have hbit := congrArg (fun word ↦ word[i]) hrow.on_off
  simp only [BitVec.getElem_and, BitVec.getElem_zero] at hbit
  simp only [BitVec.getElem_and, BitVec.getElem_or, BitVec.getElem_not]
  revert hbit
  cases mode[i] <;> cases (getMlockOn row)[i] <;> cases (getMlockOff row)[i] <;>
    cases flagMask[i] <;> simp

/-- The limit a channel has after the locked one is set. -/
theorem settledLimit_limitToSet (row : Option MlockRow) (c : Channel) :
    settledLimit row ((limitToSet row c).getD c.limit) = settledLimit row c.limit := by
  by_cases hlimit : getMlockLimit row = 0#32
  · simp [limitToSet, hlimit]
  · simp [settledLimit, hlimit]

theorem settledLimit_idem {row : Option MlockRow} (hrow : Consistent row) (limit : BitVec 32) :
    (if settledLimit row limit ≠ 0#32 ∧ getMlockOff row &&& CMODE_l ≠ 0#32 then 0#32
      else settledLimit row limit) = settledLimit row limit := by
  have hoff := hrow.limit
  by_cases hlimit : getMlockLimit row = 0#32
  · by_cases hl : getMlockOff row &&& CMODE_l = 0#32
    · simp [hl]
    · simp [settledLimit, hlimit, hl]
  · simp [hoff hlimit]

theorem settledLimit_eq {row : Option MlockRow} (hrow : Consistent row) {c locked : Channel}
    (hlocked : locked.limit = (limitToSet row c).getD c.limit) :
    (unlockFlags row locked).limit = settledLimit row c.limit := by
  have hoff := hrow.limit
  simp only [unlockFlags, limitToClear, hlocked, limitToSet, settledLimit]
  by_cases hlimit : getMlockLimit row = 0#32
  · by_cases hl : getMlockOff row &&& CMODE_l = 0#32
    · simp [hlimit, hl]
    · by_cases hzero : c.limit = 0#32
      · simp [hlimit, hzero]
      · simp [hlimit, hl, hzero]
  · by_cases hsame : getMlockLimit row = c.limit
    · simp [hsame, hoff hlimit]
    · simp [hlimit, hsame, hoff hlimit]

theorem settledKey_eq {row : Option MlockRow} (hrow : Consistent row) {c rekeyed : Channel}
    (hrekeyed : rekeyed.key = (keyToSet row c).orElse fun _ ↦ c.key) :
    (unlockFlags row rekeyed).key = settledKey row c.key := by
  have hoff := hrow.key
  simp only [unlockFlags, keyToClear, hrekeyed, keyToSet, settledKey]
  cases hlocked : lockedKey row with
  | none =>
    by_cases hk : getMlockOff row &&& CMODE_k = 0#32
    · simp [hk]
    · cases hkey : c.key with
      | none => simp
      | some key => simp [hk]
  | some key =>
    have hk := hoff (by simp [hlocked])
    by_cases hsame : c.key = some key
    · simp [hk, hsame, Option.filter]
    · simp [hk, hsame]

theorem limitToSet_countCall (row : Option MlockRow) (now : ℤ) (c : Channel) :
    limitToSet row (countCall now c) = limitToSet row c := by
  unfold limitToSet
  rw [countCall_limit]

/-- A call that does not replace a key settles the modes. -/
theorem settled_of_not_replaced {env : CmodeEnv} {now : ℤ} {row : Option MlockRow} {c : Channel}
    (hrow : Consistent row) (h : c.key = none ∨ keyToSet row c = none) :
    Settled row c (checkModes env now row c).1 := by
  rw [checkModes_of_not_replaced h]
  refine ⟨?_, ?_, ?_⟩
  · exact (settledMode_eq row _).trans (by rw [countCall_mode])
  · refine settledLimit_eq hrow ?_
    simp only [setKey, lockFlags, limitToSet_countCall, countCall_limit]
  · refine settledKey_eq hrow ?_
    simp only [setKey, lockFlags, keyToSet_countCall, countCall_key]

/-- The limits that are printed as they are. -/
def LimitPrinted (row : Option MlockRow) (c : Channel) : Prop :=
  (getMlockLimit row).toNat < 2 ^ 31 ∨ getMlockLimit row = c.limit

/-- The mode word of a server after the line of a call on a channel with `mode`. -/
def sentMode (row : Option MlockRow) (mode atServer : BitVec 32) : BitVec 32 :=
  clearFlags (setFlags (~~~mode &&& getMlockOn row) mode &&& getMlockOff row)
    (setFlags (~~~mode &&& getMlockOn row) atServer)

/-- The limit of a server after the lines of a call on a channel with `limit`. -/
def sentLimit (row : Option MlockRow) (limit : BitVec 32) (atServer : ℕ) : ℕ :=
  if getMlockLimit row ≠ 0#32 then
    if getMlockLimit row ≠ limit then serverLimit atServer (decimal (getMlockLimit row).toInt) else atServer
  else if limit ≠ 0#32 ∧ getMlockOff row &&& CMODE_l ≠ 0#32 then 0 else atServer

/-- The key of a server after the lines of a call on a channel with `key`. -/
def sentKey (row : Option MlockRow) (key atServer : Option CString) : Option CString :=
  if getMlockOff row &&& CMODE_k ≠ 0#32 ∧ key.isSome then none
  else ((lockedKey row).filter fun locked ↦ key ≠ some locked).orElse fun _ ↦ atServer

/-- Any other limit is printed as a negative number, which a server ignores. -/
theorem serverLimit_of_not_printed {locked : BitVec 32} (h : 2 ^ 31 ≤ locked.toNat) (limit : ℕ) :
    serverLimit limit (decimal locked.toInt) = limit := by
  have hlt := locked.isLt
  rw [serverLimit, signedValue_decimal, BitVec.toInt_eq_toNat_cond]
  split_ifs <;> omega

theorem serverLimit_of_printed {locked : BitVec 32} (hne : locked ≠ 0#32) (h : locked.toNat < 2 ^ 31)
    (limit : ℕ) : serverLimit limit (decimal locked.toInt) = locked.toNat := by
  have hpos : locked.toNat ≠ 0 := fun hzero ↦ hne (BitVec.eq_of_toNat_eq hzero)
  rw [serverLimit, signedValue_decimal, BitVec.toInt_eq_toNat_of_lt (by omega), if_pos (by omega), Int.toNat_natCast]

/-- A server that has the limit of the channel gets the new one when that is printed as it is. -/
theorem sentLimit_of_printed {row : Option MlockRow} {c : Channel} (h : LimitPrinted row c) :
    sentLimit row c.limit c.limit.toNat = (settledLimit row c.limit).toNat := by
  rw [sentLimit, settledLimit]
  by_cases hlimit : getMlockLimit row = 0#32
  · rw [if_neg (not_not.mpr hlimit), if_neg (not_not.mpr hlimit)]
    by_cases hl : getMlockOff row &&& CMODE_l ≠ 0#32
    · rw [if_pos hl]
      split_ifs with hzero
      · rfl
      · rw [not_and_or, not_not] at hzero
        rw [hzero.resolve_right (not_not.mpr hl)]
    · rw [if_neg hl, if_neg fun h ↦ hl h.2]
  · rw [if_pos hlimit, if_pos hlimit]
    split_ifs with hsame
    · exact serverLimit_of_printed hlimit (h.resolve_right hsame) _
    · rw [not_not.mp hsame]

/-- A server that has the key of the channel gets the new one. -/
theorem sentKey_self {row : Option MlockRow} (hrow : Consistent row) (key : Option CString) :
    sentKey row key key = settledKey row key := by
  have hoff := hrow.key
  rw [sentKey, settledKey]
  cases hlocked : lockedKey row with
  | none => cases key <;> simp [Option.filter]
  | some locked =>
    have hk := hoff (by simp [hlocked])
    by_cases hsame : key = some locked
    · simp [hk, hsame, Option.filter]
    · simp [hk, hsame]

theorem keyToClear_eq_none {row : Option MlockRow} (hrow : Consistent row) {c : Channel}
    (hset : keyToSet row c ≠ none) (rekeyed : Channel) : keyToClear row rekeyed = none := by
  have hlocked : lockedKey row ≠ none := fun hnone ↦ hset (by rw [keyToSet, hnone]; rfl)
  rw [keyToClear, hrow.key hlocked]
  rfl

theorem modeEdits_readable {row : Option MlockRow} (hrow : Consistent row) {c rekeyed : Channel}
    (hkey : keyToSet row c ≠ none → rekeyed.key = keyToSet row c) :
    (modeEdits row c rekeyed).Readable (unlockFlags row rekeyed).key := by
  constructor
  · by_cases hset : keyToSet row c = none
    · exact Or.inl hset
    · exact Or.inr (keyToClear_eq_none hrow hset rekeyed)
  · intro newkey hset
    have hne : keyToSet row c ≠ none := fun hnone ↦ by
      rw [modeEdits, hnone] at hset
      cases hset
    rw [unlockFlags, keyToClear_eq_none hrow hne]
    exact (hkey hne).trans hset

theorem modeLines_append (sent more : List Sent) :
    modeLines (sent ++ more) = modeLines sent ++ modeLines more := by
  simp [modeLines]

theorem modeLines_bounceNotice (c : Channel) : modeLines (bounceNotice c) = [] := by
  unfold bounceNotice
  split_ifs <;> rfl

/-- The limit that a server reads from the line. -/
theorem limitSet_read (row : Option MlockRow) (c : Channel) (atServer : ℕ) :
    (((limitToSet row c).filter fun newlimit ↦ 0 < newlimit.toInt).map BitVec.toNat).getD atServer =
      if getMlockLimit row ≠ 0#32 ∧ getMlockLimit row ≠ c.limit then
        serverLimit atServer (decimal (getMlockLimit row).toInt) else atServer := by
  rw [limitToSet]
  by_cases hset : getMlockLimit row ≠ 0#32 ∧ getMlockLimit row ≠ c.limit
  · rw [if_pos hset, if_pos hset, serverLimit, signedValue_decimal, Option.filter_some]
    by_cases hpos : 0 < (getMlockLimit row).toInt
    · rw [if_pos (decide_eq_true hpos), if_pos hpos]
      show (getMlockLimit row).toNat = (getMlockLimit row).toInt.toNat
      rw [BitVec.toInt_eq_toNat_cond] at hpos ⊢
      split_ifs at hpos ⊢ <;> omega
    · rw [if_neg (by simpa using hpos), if_neg hpos]
      rfl
  · rw [if_neg hset, if_neg hset]
    rfl

/-- The limit of a server after one line, which may clear it. -/
theorem limit_of_line {row : Option MlockRow} (hrow : Consistent row) {c rekeyed : Channel}
    (hrekeyed : getMlockLimit row = 0#32 → rekeyed.limit = c.limit) (atServer : ℕ) :
    (if limitToClear row rekeyed then 0
      else (((limitToSet row c).filter fun newlimit ↦ 0 < newlimit.toInt).map BitVec.toNat).getD atServer) =
      sentLimit row c.limit atServer := by
  have hoff := hrow.limit
  rw [limitSet_read, sentLimit, limitToClear]
  by_cases hlimit : getMlockLimit row = 0#32
  · simp [hlimit, hrekeyed hlimit]
  · by_cases hsame : getMlockLimit row = c.limit
    · simp [hsame, hoff hlimit]
    · simp [hlimit, hsame, hoff hlimit]

/-- The limit of a server after the nested and the outer line of a call that replaces a key. -/
theorem limit_of_lines {row : Option MlockRow} (hrow : Consistent row) {c keyless rekeyed : Channel}
    (hkeyless : keyless.limit = (limitToSet row c).getD c.limit)
    (hrekeyed : rekeyed.limit = settledLimit row c.limit) (atServer : ℕ) :
    (if limitToClear row rekeyed then 0
      else (((limitToSet row c).filter fun newlimit ↦ 0 < newlimit.toInt).map BitVec.toNat).getD
        (sentLimit row keyless.limit atServer)) = sentLimit row c.limit atServer := by
  have hoff := hrow.limit
  rw [limitSet_read, sentLimit, sentLimit, limitToClear, hkeyless, hrekeyed, settledLimit, limitToSet]
  by_cases hlimit : getMlockLimit row = 0#32
  · by_cases hl : getMlockOff row &&& CMODE_l = 0#32
    · simp [hlimit, hl]
    · simp [hlimit, hl]
  · by_cases hsame : getMlockLimit row = c.limit
    · simp [hsame, hoff hlimit]
    · simp [hlimit, hsame, hoff hlimit]

/-- The line of a call that does not replace a key, at any server. -/
theorem lines_of_not_replaced {env : CmodeEnv} {now : ℤ} {row : Option MlockRow} {c : Channel}
    (hrow : Consistent row) (h : c.key = none ∨ keyToSet row c = none) (chan : ServerChannel) :
    (modeLines (checkModes env now row c).2).foldl serverMode chan =
      ⟨sentMode row c.mode chan.mode, sentLimit row c.limit chan.limit, sentKey row c.key chan.key⟩ := by
  rw [checkModes_of_not_replaced h]
  dsimp only
  generalize hbefore : countCall now c = before
  have hmode : before.mode = c.mode := by rw [← hbefore, countCall_mode]
  have hlimit : before.limit = c.limit := by rw [← hbefore, countCall_limit]
  have hkey : before.key = c.key := by rw [← hbefore, countCall_key]
  have hreadable : (modeEdits row before (setKey row before (lockFlags row before))).Readable
      (unlockFlags row (setKey row before (lockFlags row before))).key := by
    refine modeEdits_readable hrow fun hset ↦ ?_
    obtain ⟨key, hkey⟩ := Option.ne_none_iff_exists'.mp hset
    rw [setKey, hkey]
    rfl
  rw [modeLines_append, modeLines_bounceNotice, List.nil_append, ModeEdits.foldl_send hreadable]
  refine ServerChannel.ext ?_ ?_ ?_
  · rw [← hmode]
    rfl
  · rw [← hlimit]
    refine limit_of_line hrow (fun hzero ↦ ?_) chan.limit
    simp [setKey, lockFlags, limitToSet, hzero]
  · show (if (keyToClear row (setKey row before (lockFlags row before))).isSome then none
      else (keyToSet row before).orElse fun _ ↦ chan.key) = _
    rw [sentKey, keyToSet, hkey, keyToClear, setKey]
    by_cases hset : keyToSet row before = none
    · rw [hset]
      show (if (if _ then before.key else none).isSome then _ else _) = _
      rw [hkey]
      by_cases hk : getMlockOff row &&& CMODE_k ≠ 0#32
      · rw [if_pos hk]
        refine if_congr ?_ rfl rfl
        exact (and_iff_right hk).symm
      · simp only [if_neg hk, Option.isSome_none, Bool.false_eq_true, if_false]
        rw [if_neg fun h ↦ hk h.1]
    · have hlocked : lockedKey row ≠ none := fun hnone ↦ hset (by rw [keyToSet, hnone]; rfl)
      simp [hrow.key hlocked]

/-- A call that replaces a key settles the modes. -/
theorem settled_of_replaced {env : CmodeEnv} {now : ℤ} {row : Option MlockRow} {c : Channel}
    {oldkey newkey : CString} (hrow : Consistent row)
    (hold : c.key = some oldkey) (hnew : keyToSet row c = some newkey) :
    Settled row c (checkModes env now row c).1 := by
  rw [checkModes_of_replaced hold hnew]
  dsimp only
  generalize hbefore : countCall now c = before
  have hmode : before.mode = c.mode := by rw [← hbefore, countCall_mode]
  have hlim : before.limit = c.limit := by rw [← hbefore, countCall_limit]
  have hset : keyToSet row before = some newkey := by rw [← hbefore, keyToSet_countCall, hnew]
  generalize hkeyless : (lockFlags row before).withoutKey = keyless
  have hnested := @settled_of_not_replaced env now row keyless hrow
    (Or.inl (by rw [← hkeyless, Channel.withoutKey]))
  generalize hrekeyed : setKey row before (checkModes env now row keyless).1 = rekeyed
  have hclear := keyToClear_eq_none hrow (hset ▸ Option.some_ne_none _) rekeyed
  refine ⟨?_, ?_, ?_⟩
  · have hrekeyedMode : rekeyed.mode = settledMode row c.mode := by
      rw [← hrekeyed, ← hmode, ← settledMode_setFlags, setKey, hnested.mode, ← hkeyless]
      rfl
    rw [unlockFlags, hrekeyedMode, settledMode_idem]
  · have hrekeyedLimit : rekeyed.limit = settledLimit row c.limit := by
      rw [← hrekeyed, ← hlim, ← settledLimit_limitToSet, setKey, hnested.limit, ← hkeyless]
      rfl
    simp only [unlockFlags, limitToClear, hrekeyedLimit, decide_eq_true_eq]
    exact settledLimit_idem hrow _
  · have hrekeyedKey : rekeyed.key = some newkey := by
      rw [← hrekeyed, setKey, hset]
      rfl
    have hlocked : lockedKey row = some newkey := (Option.filter_eq_some_iff.mp hnew).1
    simp only [unlockFlags, hclear, settledKey, hlocked, hrekeyedKey]
    rfl

/-- The lines of a call that replaces a key, at a server with the flags of the channel: the key is gone
after the first, the second makes the edits of the nested call and the third those of the outer one. -/
theorem lines_of_replaced {env : CmodeEnv} {now : ℤ} {row : Option MlockRow} {c : Channel}
    {oldkey newkey : CString} (hrow : Consistent row) (hold : c.key = some oldkey)
    (hnew : keyToSet row c = some newkey) {chan : ServerChannel} (hchan : chan.mode = c.mode) :
    (modeLines (checkModes env now row c).2).foldl serverMode chan =
      ⟨settledMode row c.mode, sentLimit row c.limit chan.limit, sentKey row c.key chan.key⟩ := by
  rw [checkModes_of_replaced hold hnew]
  dsimp only
  generalize hbefore : countCall now c = before
  have hmode : before.mode = c.mode := by rw [← hbefore, countCall_mode]
  have hlim : before.limit = c.limit := by rw [← hbefore, countCall_limit]
  have hset : keyToSet row before = some newkey := by rw [← hbefore, keyToSet_countCall, hnew]
  generalize hkeyless : (lockFlags row before).withoutKey = keyless
  have hnokey : keyless.key = none := by rw [← hkeyless, Channel.withoutKey]
  have hkeylessMode : keyless.mode = setFlags (~~~c.mode &&& getMlockOn row) c.mode := by
    rw [← hkeyless, ← hmode]
    rfl
  have hkeylessLimit : keyless.limit = (limitToSet row c).getD c.limit := by
    rw [← hkeyless, ← hlim, ← limitToSet_countCall row now, hbefore]
    rfl
  have hnested := @settled_of_not_replaced env now row keyless hrow (Or.inl hnokey)
  generalize hrekeyed : setKey row before (checkModes env now row keyless).1 = rekeyed
  have hclear := keyToClear_eq_none hrow (hset ▸ Option.some_ne_none _) rekeyed
  have hrekeyedMode : rekeyed.mode = settledMode row c.mode := by
    rw [← hrekeyed, ← settledMode_setFlags, setKey, hnested.mode, hkeylessMode]
  have hrekeyedKey : rekeyed.key = some newkey := by
    rw [← hrekeyed, setKey, hset]
    rfl
  have hreadable := @modeEdits_readable row hrow before rekeyed fun _ ↦ hrekeyedKey.trans hset.symm
  have hfirst : serverMode chan ⟨['-', 'k'], [oldkey]⟩ = { chan with key := none } := by
    simp [serverMode, serverStep]
  have hlines (sent more : List Sent) (line : ModeLine) :
      modeLines (bounceNotice c ++ .mode line :: sent ++ more) =
        line :: (modeLines sent ++ modeLines more) := by
    rw [List.append_assoc, modeLines_append, modeLines_bounceNotice]
    simp [modeLines]
  rw [hlines, List.foldl_cons, List.foldl_append, hfirst, lines_of_not_replaced hrow (Or.inl hnokey),
    ModeEdits.foldl_send hreadable]
  refine ServerChannel.ext ?_ ?_ ?_
  · show clearFlags (rekeyed.mode &&& _) (setFlags (~~~before.mode &&& _) (sentMode row keyless.mode chan.mode)) = _
    rw [hrekeyedMode, hmode, hchan]
    exact settledMode_of_lines hrow hkeylessMode
  · have hrekeyedLimit : rekeyed.limit = settledLimit row before.limit := by
      rw [← hrekeyed, setKey]
      show (checkModes env now row keyless).1.limit = _
      rw [hnested.limit, hkeylessLimit, settledLimit_limitToSet, hlim]
    rw [← hlim]
    refine limit_of_lines hrow ?_ hrekeyedLimit chan.limit
    rw [← hkeyless]
    rfl
  · show (if (keyToClear row rekeyed).isSome then none else (keyToSet row before).orElse fun _ ↦ _) = _
    have hk : getMlockOff row &&& CMODE_k = 0#32 :=
      hrow.key fun hnone ↦ absurd hnew (by rw [keyToSet, hnone]; exact Option.some_ne_none newkey ∘ Eq.symm)
    have hsent : (lockedKey row).filter (fun locked ↦ c.key ≠ some locked) = some newkey := hnew
    have hkeep : ¬ (getMlockOff row &&& CMODE_k ≠ 0#32 ∧ c.key.isSome) := fun h ↦ h.1 hk
    have hright : sentKey row c.key chan.key = some newkey := by
      rw [sentKey, if_neg hkeep, hsent]
      rfl
    refine Eq.trans ?_ hright.symm
    rw [hclear, hset]
    rfl

/-- The lines of a call, at a server with the flags of the channel. -/
theorem lines_checkModes {env : CmodeEnv} {now : ℤ} {row : Option MlockRow} {c : Channel}
    (hrow : Consistent row) {chan : ServerChannel} (hchan : chan.mode = c.mode) :
    (modeLines (checkModes env now row c).2).foldl serverMode chan =
      ⟨settledMode row c.mode, sentLimit row c.limit chan.limit, sentKey row c.key chan.key⟩ := by
  by_cases h : c.key = none ∨ keyToSet row c = none
  · rw [lines_of_not_replaced hrow h, hchan]
    congr 1
    exact settledMode_eq row c.mode
  · rw [not_or] at h
    obtain ⟨oldkey, hold⟩ := Option.ne_none_iff_exists'.mp h.1
    obtain ⟨newkey, hnew⟩ := Option.ne_none_iff_exists'.mp h.2
    exact lines_of_replaced hrow hold hnew hchan

/-! ### The lock is enforced -/

theorem settled_checkModes {env : CmodeEnv} {now : ℤ} {row : Option MlockRow} {c : Channel}
    (hrow : Consistent row) : Settled row c (checkModes env now row c).1 := by
  by_cases h : c.key = none ∨ keyToSet row c = none
  · exact settled_of_not_replaced hrow h
  · rw [not_or] at h
    obtain ⟨oldkey, hold⟩ := Option.ne_none_iff_exists'.mp h.1
    obtain ⟨newkey, hnew⟩ := Option.ne_none_iff_exists'.mp h.2
    exact settled_of_replaced hrow hold hnew

/-- The lines take a server from the modes before to those after when the limit is printed as it is. -/
theorem lines_of_printed {env : CmodeEnv} {now : ℤ} {row : Option MlockRow} {c : Channel}
    (hrow : Consistent row) (hlimit : LimitPrinted row c) :
    (modeLines (checkModes env now row c).2).foldl serverMode (serverChannel c) =
      serverChannel (checkModes env now row c).1 := by
  have hsettled := @settled_checkModes env now row c hrow
  rw [lines_checkModes hrow rfl]
  refine ServerChannel.ext hsettled.mode.symm ?_ ((sentKey_self hrow c.key).trans hsettled.key.symm)
  exact (sentLimit_of_printed hlimit).trans (congrArg BitVec.toNat hsettled.limit.symm)

/-- A flag of the table is one bit of the mask, and testing it is testing that bit. -/
theorem exists_bit {entry : Char × BitVec 32} (h : entry ∈ flagTable) :
    ∃ i, ∃ _ : i < 32, flagMask[i] = true ∧
      ∀ word : BitVec 32, word &&& entry.2 ≠ 0#32 ↔ word[i] = true := by
  obtain ⟨i, hi, htest⟩ := exists_test (flagTable_twoPow entry h)
  have hmask : ∀ entry ∈ flagTable, flagMask &&& entry.2 ≠ 0#32 := by decide
  exact ⟨i, hi, (htest _).mp (hmask entry h), htest⟩

theorem obeys_of_settled {row : Option MlockRow} (hrow : Consistent row) {c c' : Channel}
    (h : Settled row c c') : Obeys row c' := by
  refine ⟨?_, ?_, ?_, ?_, ?_, ?_⟩
  · intro letter flag hmem hon
    obtain ⟨i, hi, hmask, htest⟩ := exists_bit hmem
    have hbit := congrArg (fun word ↦ word[i]) hrow.on_off
    rw [htest] at hon ⊢
    simp only [BitVec.getElem_and, BitVec.getElem_zero, hon, Bool.true_and] at hbit
    simp [h.mode, settledMode, hon, hbit, hmask]
  · intro letter flag hmem hoff
    obtain ⟨i, hi, hmask, htest⟩ := exists_bit hmem
    rw [htest] at hoff
    by_contra hne
    have hbit := (htest c'.mode).mp hne
    simp [h.mode, settledMode, hoff, hmask] at hbit
  · intro hlimit
    rw [h.limit, settledLimit, if_pos hlimit]
  · intro hoff
    have hlimit : ¬ getMlockLimit row ≠ 0#32 := fun hne ↦ hoff (hrow.limit hne)
    rw [h.limit, settledLimit, if_neg hlimit, if_pos hoff]
  · intro key hkey
    rw [h.key, settledKey, hkey]
    rfl
  · intro hoff
    have hkey : lockedKey row = none := by
      by_contra hne
      exact hoff (hrow.key hne)
    rw [h.key, settledKey, hkey, if_pos hoff]
    rfl

/-- No flag is missing on a channel that obeys the lock. -/
theorem flagLetters_missing {row : Option MlockRow} {c : Channel} (h : Obeys row c) :
    flagLetters (~~~c.mode &&& getMlockOn row) = [] := by
  rw [flagLetters_eq_nil_iff, and_flagMask_eq_zero_iff]
  intro entry hmem
  obtain ⟨i, hi, -, htest⟩ := exists_bit hmem
  by_contra hne
  have hbit := (htest _).mp hne
  simp only [BitVec.getElem_and, BitVec.getElem_not, Bool.and_eq_true, Bool.not_eq_true'] at hbit
  have hmode := (htest _).mp (h.on entry.1 entry.2 hmem ((htest _).mpr hbit.2))
  rw [hmode] at hbit
  exact absurd hbit.1 (by decide)

/-- No flag is in the way on a channel that obeys the lock. -/
theorem flagLetters_locked_off {row : Option MlockRow} {c : Channel} (h : Obeys row c) :
    flagLetters (c.mode &&& getMlockOff row) = [] := by
  rw [flagLetters_eq_nil_iff, and_flagMask_eq_zero_iff]
  intro entry hmem
  obtain ⟨i, hi, -, htest⟩ := exists_bit hmem
  by_contra hne
  have hbit := (htest _).mp hne
  simp only [BitVec.getElem_and, Bool.and_eq_true] at hbit
  exact (htest _).mpr hbit.1 (h.off entry.1 entry.2 hmem ((htest _).mpr hbit.2))

/-- A call on a channel that obeys the lock sends no line. -/
theorem checkModes_of_obeys {env : CmodeEnv} {now : ℤ} {row : Option MlockRow} {c : Channel}
    (h : Obeys row c) : (checkModes env now row c).2 = bounceNotice c := by
  have hkey : keyToSet row c = none := by
    cases hlocked : lockedKey row with
    | none => rw [keyToSet, hlocked]; rfl
    | some key => simp [keyToSet, hlocked, h.key_on key hlocked, Option.filter]
  have hlimit : limitToSet row c = none :=
    if_neg fun hset ↦ hset.2 (h.limit_on hset.1).symm
  have hmissing := flagLetters_missing h
  have hmode : setFlags (~~~c.mode &&& getMlockOn row) c.mode = c.mode := by
    rw [setFlags_eq, (flagLetters_eq_nil_iff _).mp hmissing, BitVec.or_zero]
  rw [checkModes_of_not_replaced (Or.inr hkey)]
  generalize hbefore : countCall now c = before
  have hbeforeMode : before.mode = c.mode := by rw [← hbefore, countCall_mode]
  have hbeforeLimit : before.limit = c.limit := by rw [← hbefore, countCall_limit]
  have hbeforeKey : before.key = c.key := by rw [← hbefore, countCall_key]
  have hbeforeSet : keyToSet row before = none := by rw [← hbefore, keyToSet_countCall, hkey]
  have hbeforeNew : limitToSet row before = none := by rw [← hbefore, limitToSet_countCall, hlimit]
  dsimp only
  generalize hrekeyed : setKey row before (lockFlags row before) = rekeyed
  have hclear : keyToClear row rekeyed = none := by
    have hsame : rekeyed.key = c.key := by
      rw [← hrekeyed, setKey, hbeforeSet, ← hbeforeKey]
      rfl
    rw [keyToClear, hsame]
    split_ifs with hoff
    · exact h.key_off hoff
    · rfl
  have hkeep : limitToClear row rekeyed = false := by
    have hsame : rekeyed.limit = c.limit := by
      rw [← hrekeyed, setKey, lockFlags, hbeforeNew, ← hbeforeLimit]
      rfl
    rw [limitToClear, hsame]
    exact decide_eq_false fun hoff ↦ hoff.1 (h.limit_off hoff.2)
  have hletters : flagLetters (rekeyed.mode &&& getMlockOff row) = [] := by
    have hsame : rekeyed.mode = c.mode := by
      rw [← hrekeyed, setKey, lockFlags, hbeforeMode, hmode]
    rw [hsame, flagLetters_locked_off h]
  have hnew : (modeEdits row before rekeyed).newmodes = [] := by
    simp [ModeEdits.newmodes, ModeEdits.lettersSet, ModeEdits.lettersCleared, modeEdits, signed,
      hbeforeMode, hmissing, hbeforeNew, hbeforeSet, hletters, hclear, hkeep]
  rw [ModeEdits.send, if_pos hnew, List.append_nil]

/-- The promise taken literally: the record obeys the lock, the lines sent take a server from the
modes before to those after, and a second call sends nothing. -/
def Enforces (env : CmodeEnv) (now : ℤ) (row : Option MlockRow) (c : Channel) : Prop :=
  Obeys row (checkModes env now row c).1 ∧
    (modeLines (checkModes env now row c).2).foldl serverMode (serverChannel c) =
      serverChannel (checkModes env now row c).1 ∧
    ∀ env' now', (checkModes env' now' row (checkModes env now row c).1).2 = []

/-- What `check_modes` does by design: a second call sends no line, and nothing at all unless the
modes count as bouncing. -/
structure EnforcesLock (env : CmodeEnv) (now : ℤ) (row : Option MlockRow) (c : Channel) : Prop where
  obeys : Obeys row (checkModes env now row c).1
  lines : (modeLines (checkModes env now row c).2).foldl serverMode (serverChannel c) =
    serverChannel (checkModes env now row c).1
  quiet : ∀ env' now',
    modeLines (checkModes env' now' row (checkModes env now row c).1).2 = [] ∧
      (¬ IsBouncing (checkModes env now row c).1 →
        (checkModes env' now' row (checkModes env now row c).1).2 = [])

theorem checkModes_enforces (env : CmodeEnv) (now : ℤ) (row : Option MlockRow) (c : Channel)
    (hrow : Consistent row) (hlimit : LimitPrinted row c) : EnforcesLock env now row c := by
  have hobeys := obeys_of_settled hrow (@settled_checkModes env now row c hrow)
  refine ⟨hobeys, lines_of_printed hrow hlimit, fun env' now' ↦ ?_⟩
  rw [checkModes_of_obeys hobeys]
  exact ⟨modeLines_bounceNotice _, fun hquiet ↦ if_neg hquiet⟩

/-- A channel record with the given modes and bounce counters. -/
def bareChannel (mode limit : BitVec 32) (key : Option CString) (count : BitVec 16) : Channel where
  name := "#oftc".toList
  channelId := 1
  mode := mode
  limit := limit
  key := key
  newbans := []
  users := []
  chanops := []
  voices := []
  serverModetime := 0
  chanservModetime := 0
  serverModecount := count
  chanservModecount := count
  bouncyModes := false
  bouncyModes_eq := rfl

/-- An environment without users. -/
def bareEnv : CmodeEnv where
  serverName := "services.oftc.net".toList
  nickOf := fun _ ↦ []
  finduser := fun _ ↦ none
  checkValidOp := fun _ _ ↦ true

/-- A lock of `+nl` and a key with `s` locked off, on a secret channel with another key. -/
theorem checkModes_enforces_replaced :
    EnforcesLock bareEnv 0 (some ⟨CMODE_n, CMODE_s, 25#32, "oftc".toList⟩)
      (bareChannel CMODE_s 0#32 (some "other".toList) 0#16) := by
  refine checkModes_enforces _ _ _ _ ⟨?_, ?_, ?_⟩ (Or.inl ?_)
  · rw [getMlockOn_some, getMlockOff_some]
    decide
  · intro _
    rw [getMlockOff_some]
    decide
  · intro _
    rw [getMlockOff_some]
    decide
  · rw [getMlockLimit_some]
    decide

/-- With both counters at three the notice to operators is sent again by a second call. -/
theorem checkModes_not_quiet :
    ¬ ∀ env now row c, Consistent row → Enforces env now row c := by
  intro h
  obtain ⟨hobeys, -, hquiet⟩ := h bareEnv 0 none (bareChannel 0#32 0#32 none 3#16)
    ⟨by decide, fun _ ↦ by decide, fun _ ↦ by decide⟩
  have hnotice := hquiet bareEnv 0
  have hbouncing : IsBouncing
      (checkModes bareEnv 0 none (bareChannel 0#32 0#32 none 3#16)).1 := by
    rw [checkModes_of_not_replaced (Or.inl rfl)]
    decide
  rw [checkModes_of_obeys hobeys, bounceNotice, if_pos hbouncing] at hnotice
  cases hnotice

end BlitzedServices.ChanServ
