import BlitzedServices.ChanServ.ModeStrings
import BlitzedServices.ChanServ.SyncServer

/-!
# CLEARMODES

`clearmodes` is the body of `do_clearmodes`: with ALL a `-o` and a `-v` for everyone on the lists, then one
line for the modes, of which `do_cmode` gets the letters but not the key, and a `-b` for every ban. Each
`do_cmode` ends in a `check_modes` that puts the mode lock back; after the one for the modes the command frees
the key it found and forgets key and limit.

`doClearmodes_right_iff` says when all of this ends well: when that `check_modes` did not free the key first, and
when there are bans, whose `check_modes` puts the locked key and limit back into the record, or nothing was
there to be put back.
-/

set_option autoImplicit false
set_option relaxedAutoImplicit false

namespace BlitzedServices.OperServ

open Lib Channels ChanServ

/-! ### The command -/

/-- The nick of OperServ. -/
def s_OperServ : CString := "OperServ".toList

/-- The record with its strings, the static buffer of `do_cmode`, and what was sent. -/
structure ClearState where
  chan : Channel
  strings : ChannelStrings
  lastmodes : CString
  sent : List Sent

/-- `n` calls of `sstrdup`. -/
def ClearState.sstrdup (st : ClearState) (n : ℕ) : ClearState :=
  { st with strings := { st.strings with ledger := st.strings.ledger.alloc n } }

/-- The strings of `argv` are freed. -/
def ClearState.free (st : ClearState) (argv : List ℕ) : ClearState :=
  { st with strings := { st.strings with ledger := argv.foldl Ledger.free st.strings.ledger } }

/-- The pointer to the key and the limit are forgotten. -/
def ClearState.forget (st : ClearState) : ClearState :=
  { st with
    chan := { st.chan with key := none, limit := 0#32 }
    strings := { st.strings with key := none } }

/-- A MODE line is sent. -/
def ClearState.send (st : ClearState) (line : ModeLine) : ClearState :=
  { st with sent := st.sent ++ [.mode line] }

section Command

variable (env : CmodeEnv) (now : ℤ) (row : Option MlockRow)

/-- `do_cmode` on the record. -/
def ClearState.cmode (st : ClearState) (source modestr : CString) (params : List CString) : ClearState :=
  let result := doCmode env now row source st.lastmodes st.chan modestr params
  { chan := result.1
    strings := (doCmodeStrings env now row source st.lastmodes st.chan modestr params).foldl
      ChannelStrings.apply st.strings
    lastmodes := result.2.1
    sent := st.sent ++ result.2.2 }

/-- A line with one parameter, for the record as well. -/
def ClearState.mode (st : ClearState) (source letters param : CString) (argv : List ℕ) : ClearState :=
  (((st.send ⟨letters, [param]⟩).cmode env now row source letters [param])).free argv.reverse

/-- One turn of the loops over ops and voices. -/
def clearUser (letter : Char) (st : ClearState) (user : UserId) : ClearState :=
  (st.sstrdup 3).mode env now row s_ChanServ ['-', letter] (env.nickOf user) (st.strings.ledger.news 3)

/-- The ops lose their status, then the voices. The entry that a turn removes is the one it stands on, since
all before it are gone. -/
def clearUsers (st : ClearState) : ClearState :=
  let st := st.chan.chanops.foldl (clearUser env now row 'o') st
  st.chan.voices.foldl (clearUser env now row 'v') st

/-- The modes that are cleared. -/
def clearedModes : CString :=
  ['-', 'c', 'i', 'k', 'l', 'm', 'M', 'n', 'O', 'p', 's', 'R', 't']

/-- The modes are cleared. The last of the strings is the key itself when there is one, and `do_cmode` is told of
two. -/
def clearModes (st : ClearState) : ClearState :=
  let argv := st.strings.key.elim (st.strings.ledger.news 3) fun key ↦ st.strings.ledger.news 2 ++ [key]
  let sent := (st.send ⟨clearedModes, [st.chan.key.getD []]⟩).sstrdup (st.strings.key.elim 3 fun _ ↦ 2)
  ((sent.cmode env now row s_OperServ clearedModes []).free argv).forget

/-- One turn of the loop over the bans, with the copy of its mask. -/
def clearBan (st : ClearState) (ban : CString × ℕ) : ClearState :=
  (st.sstrdup 2).mode env now row s_OperServ ['-', 'b'] ban.1 (st.strings.ledger.news 2 ++ [ban.2])

/-- The bans are removed. -/
def clearBans (st : ClearState) : ClearState :=
  let masks := st.chan.newbans
  (masks.zip (st.strings.ledger.news masks.length)).foldl (clearBan env now row) (st.sstrdup masks.length)

/-- What `do_clearmodes` does to a channel. -/
def clearmodes (all : Bool) (st : ClearState) : ClearState :=
  clearBans env now row (clearModes env now row (if all then clearUsers env now row st else st))

end Command

/-- The answers of `do_clearmodes`. -/
inductive ClearmodesReply
  | OPER_CLEARMODES_SYNTAX
  | CHAN_X_NOT_IN_USE
  | OPER_BOUNCY_MODES_U_LINE
  | OPER_CLEARMODES_ALL_DONE
  | OPER_CLEARMODES_DONE
  deriving DecidableEq

/-- The second word: without one some modes are cleared, with ALL all of them. -/
def clearAll : Option CString → Option Bool
  | none => some false
  | some s => if stricmp s "ALL".toList = 0 then some true else none

/-- `do_clearmodes` with its two words: the answer, and the channel when it was changed. -/
def doClearmodes (env : CmodeEnv) (now : ℤ) (rows : ℕ → Option MlockRow)
    (findchan : CString → Option (Channel × ChannelStrings)) (lastmodes : CString) (chan s : Option CString) :
    ClearmodesReply × Option ClearState :=
  match chan with
  | none => (.OPER_CLEARMODES_SYNTAX, none)
  | some chan =>
    match findchan chan with
    | none => (.CHAN_X_NOT_IN_USE, none)
    | some (c, strings) =>
      if c.bouncyModes then (.OPER_BOUNCY_MODES_U_LINE, none)
      else
        match clearAll s with
        | none => (.OPER_CLEARMODES_SYNTAX, none)
        | some all =>
          (if all then .OPER_CLEARMODES_ALL_DONE else .OPER_CLEARMODES_DONE,
            some (clearmodes env now (rows c.channelId) all ⟨c, strings, lastmodes, []⟩))

/-! ### What the command promises -/

/-- The server has the record's modes, bans and statuses, and only users on the channel have a status. -/
structure Agrees (env : CmodeEnv) (c : Channel) (room : ServerRoom) : Prop where
  chan : room.chan = serverChannel c
  bans : ∀ mask, mask ∈ room.bans ↔ mask ∈ c.newbans
  ops : ∀ nick, nick ∈ room.ops ↔ nick ∈ c.chanops.map env.nickOf
  voices : ∀ nick, nick ∈ room.voices ↔ nick ∈ c.voices.map env.nickOf
  members : ∀ nick, nick ∈ room.ops ∨ nick ∈ room.voices → nick ∈ room.members

/-- Nothing is left on the channel but what the lock asks for. -/
structure Cleared (row : Option MlockRow) (all : Bool) (c : Channel) : Prop where
  bans : c.newbans = []
  flags : ∀ letter flag, (letter, flag) ∈ flagTable → c.mode &&& flag ≠ 0#32 → getMlockOn row &&& flag ≠ 0#32
  key : c.key = none ∨ c.key = lockedKey row
  limit : c.limit = 0#32 ∨ c.limit = getMlockLimit row
  status : all → c.chanops = [] ∧ c.voices = []

/-- The promise: no string is freed twice, the server ends with the record, and both are cleared. -/
structure ClearsRight (env : CmodeEnv) (row : Option MlockRow) (all : Bool) (c : Channel) (st : ClearState) :
    Prop where
  clean : st.strings.ledger.Clean
  agrees : ∀ room, Agrees env c room → Agrees env st.chan ((modeLines st.sent).foldl serverRoom room)
  cleared : Cleared row all st.chan

/-- The key when the modes are cleared: with ALL the first `-o` or `-v` has put the lock back. -/
def keyBefore (row : Option MlockRow) (all : Bool) (c : Channel) : Option CString :=
  if all ∧ (c.chanops ≠ [] ∨ c.voices ≠ []) then settledKey row c.key else c.key

/-- The lock leaves the key alone; and with bans the locked limit is printed as it is, without bans no limit
that is printed as a positive number is locked and a locked key was there. -/
structure ClearMeets (row : Option MlockRow) (all : Bool) (c : Channel) : Prop where
  key : keyBefore row all c = none ∨ settledKey row (keyBefore row all c) = keyBefore row all c
  restored : c.newbans ≠ [] → (getMlockLimit row).toNat < 2 ^ 31
  nothing : c.newbans = [] → (lockedKey row = none ∨ keyBefore row all c ≠ none) ∧
    (getMlockLimit row = 0#32 ∨ 2 ^ 31 ≤ (getMlockLimit row).toNat)

/-! ### What a line does to the record and to the server -/

section Lines

variable {env : CmodeEnv} {now : ℤ} {row : Option MlockRow} {c : Channel} {source : CString}

theorem flagLetters_plain {modes : BitVec 32} {letter : Char} (h : letter ∈ flagLetters modes) :
    ¬ IsEntryLetter letter := by
  have htable : ∀ entry ∈ flagTable, ¬ (entry.1 = 'b' ∨ entry.1 = 'o' ∨ entry.1 = 'v') := by decide
  obtain ⟨entry, hentry, rfl⟩ := List.mem_map.mp h
  exact htable entry (List.mem_of_mem_filter hentry)

/-- The lines of `check_modes` have no bans and statuses. -/
theorem send_plain {edits : ModeEdits} {key : Option CString} {line : ModeLine}
    (h : line ∈ modeLines (edits.send key)) : ∀ letter ∈ line.letters, ¬ IsEntryLetter letter := by
  have hsigned (sign : Char) (hsign : ¬ IsEntryLetter sign) (letters : CString)
      (hletters : ∀ letter ∈ letters, ¬ IsEntryLetter letter) :
      ∀ letter ∈ signed sign letters, ¬ IsEntryLetter letter := by
    rw [signed]
    split_ifs
    · simp
    · exact List.forall_mem_cons.mpr ⟨hsign, hletters⟩
  have hif (letter other : Char) (set : Bool) (hmem : other ∈ if set then [letter] else [])
      (hplain : ¬ IsEntryLetter letter) : ¬ IsEntryLetter other := by
    split_ifs at hmem
    · rw [List.mem_singleton.mp hmem]
      exact hplain
    · exact absurd hmem List.not_mem_nil
  have hl : ¬ IsEntryLetter 'l' := by simp [IsEntryLetter]
  have hk : ¬ IsEntryLetter 'k' := by simp [IsEntryLetter]
  have hnewmodes : ∀ letter ∈ edits.newmodes, ¬ IsEntryLetter letter := by
    intro letter hmem
    rcases List.mem_append.mp hmem with hmem | hmem
    · refine hsigned '+' (by simp [IsEntryLetter]) _ (fun letter hmem ↦ ?_) letter hmem
      rcases List.mem_append.mp hmem with hmem | hmem
      · rcases List.mem_append.mp hmem with hmem | hmem
        · exact flagLetters_plain hmem
        · exact hif 'l' letter _ hmem hl
      · exact hif 'k' letter _ hmem hk
    · refine hsigned '-' (by simp [IsEntryLetter]) _ (fun letter hmem ↦ ?_) letter hmem
      rcases List.mem_append.mp hmem with hmem | hmem
      · rcases List.mem_append.mp hmem with hmem | hmem
        · exact flagLetters_plain hmem
        · exact hif 'k' letter _ hmem hk
      · exact hif 'l' letter _ hmem hl
  rw [ModeEdits.send] at h
  split_ifs at h
  · exact absurd h List.not_mem_nil
  · rw [List.mem_singleton.mp h]
    exact hnewmodes

theorem checkModes_plain_of_not_replaced (hkey : c.key = none ∨ keyToSet row c = none) {line : ModeLine}
    (h : line ∈ modeLines (checkModes env now row c).2) : ∀ letter ∈ line.letters, ¬ IsEntryLetter letter := by
  rw [checkModes_of_not_replaced hkey] at h
  dsimp only at h
  rw [modeLines_append, modeLines_bounceNotice, List.nil_append] at h
  exact send_plain h

theorem checkModes_plain {line : ModeLine} (h : line ∈ modeLines (checkModes env now row c).2) :
    ∀ letter ∈ line.letters, ¬ IsEntryLetter letter := by
  by_cases hkey : c.key = none ∨ keyToSet row c = none
  · exact checkModes_plain_of_not_replaced hkey h
  · rw [not_or] at hkey
    obtain ⟨oldkey, hold⟩ := Option.ne_none_iff_exists'.mp hkey.1
    obtain ⟨newkey, hnew⟩ := Option.ne_none_iff_exists'.mp hkey.2
    rw [checkModes_of_replaced hold hnew] at h
    dsimp only at h
    rw [modeLines_append, modeLines_append, modeLines_bounceNotice, List.nil_append] at h
    rcases List.mem_append.mp h with h | h
    · rcases List.mem_cons.mp h with rfl | h
      · simp [IsEntryLetter]
      · exact checkModes_plain_of_not_replaced (.inl rfl) h
    · exact send_plain h

/-- What a server makes of the lines of a call, when it has the flags of the record. -/
theorem foldl_checkModes (hrow : Consistent row) (env : CmodeEnv) (now : ℤ) {room : ServerRoom}
    (hmode : room.chan.mode = c.mode) :
    (modeLines (checkModes env now row c).2).foldl serverRoom room = { room with
      chan := ⟨settledMode row c.mode, sentLimit row c.limit room.chan.limit, sentKey row c.key room.chan.key⟩ } := by
  rw [foldl_serverRoom_plain fun line hline ↦ checkModes_plain hline, lines_checkModes hrow hmode]

end Lines

/-! ### Turns -/

/-- The list that a letter of the loops clears. -/
def statusList (letter : Char) (c : Channel) : List UserId :=
  if letter = 'o' then c.chanops else c.voices

/-- The record without the first entry of that list. -/
def dropStatus (letter : Char) (c : Channel) : Channel :=
  if letter = 'o' then { c with chanops := c.chanops.tail } else { c with voices := c.voices.tail }

/-- The server that has seen the lines sent so far. -/
def ClearState.room (st : ClearState) (room : ServerRoom) : ServerRoom :=
  (modeLines st.sent).foldl serverRoom room

/-- The services that send the lines. -/
def IsService (source : CString) : Prop :=
  source = s_ChanServ ∨ source = s_OperServ

section Turns

variable {env : CmodeEnv} {now : ℤ} {row : Option MlockRow} {c : Channel} {source : CString} {letter : Char}
  {st : ClearState} {room : ServerRoom} {user : UserId} {rest : List UserId}

theorem listed_head (env : CmodeEnv) (user : UserId) (rest : List UserId) :
    env.listed (env.nickOf user) (user :: rest) = some user := by
  have hsame : stricmp (env.nickOf user) (env.nickOf user) = 0 := (stricmp_eq_zero_iff _ _).mpr rfl
  rw [CmodeEnv.listed, List.find?_cons_of_pos (by simpa using hsame)]

theorem cmodeLoop_status (hletter : letter = 'o' ∨ letter = 'v') (hlist : statusList letter c = user :: rest) :
    cmodeLoop env source c ['-', letter] [env.nickOf user] = dropStatus letter c := by
  rcases hletter with rfl | rfl
  · have hops : c.chanops = user :: rest := hlist
    have hlisted := listed_head env user rest
    simp [cmodeLoop, cmodeStep, CmodeState.setOp, CmodeState.spend, dropStatus, hops, hlisted]
  · have hvoices : c.voices = user :: rest := hlist
    have hlisted := listed_head env user rest
    simp [cmodeLoop, cmodeStep, CmodeState.setVoice, CmodeState.spend, dropStatus, hvoices, hlisted]

theorem cmodeLoop_minus_b (env : CmodeEnv) (source : CString) (c : Channel) (mask : CString) :
    cmodeLoop env source c ['-', 'b'] [mask] = { c with newbans := c.newbans.erase mask } := by
  simp [cmodeLoop, cmodeStep, CmodeState.setBan, CmodeState.spend]

theorem clear_flagMask (mode : BitVec 32) :
    mode &&& ~~~CMODE_c &&& ~~~CMODE_i &&& ~~~CMODE_m &&& ~~~CMODE_M &&& ~~~CMODE_n &&& ~~~CMODE_O &&& ~~~CMODE_p &&&
      ~~~CMODE_s &&& ~~~CMODE_R &&& ~~~CMODE_t = mode &&& ~~~flagMask := by
  simp only [BitVec.and_assoc]
  rfl

theorem cmodeStep_flag {flag : BitVec 32} (h : (letter, flag) ∈ flagTable) (env : CmodeEnv) (source : CString)
    (st : CmodeState) : cmodeStep env source st letter = st.setFlag flag := by
  have htable : ∀ entry ∈ flagTable, (entry.1 ≠ '+' ∧ entry.1 ≠ '-' ∧ entry.1 ≠ 'k' ∧ entry.1 ≠ 'l') ∧
      (entry.1 ≠ 'b' ∧ entry.1 ≠ 'o' ∧ entry.1 ≠ 'v') ∧ flagOf entry.1 = some entry.2 := by decide
  obtain ⟨⟨hplus, hminus, hk, hl⟩, ⟨hb, ho, hv⟩, hflag⟩ := htable _ h
  simp only [cmodeStep, if_neg hplus, if_neg hminus, if_neg hk, if_neg hl, if_neg hb, if_neg ho, if_neg hv, hflag]

/-- Letters that clear flags. -/
theorem foldl_clearFlags_cmode {letters : CString} {flags : List (BitVec 32)}
    (h : List.Forall₂ (fun letter flag ↦ (letter, flag) ∈ flagTable) letters flags) (env : CmodeEnv)
    (source : CString) (c : Channel) (ac : ℤ) (av : List CString) :
    letters.foldl (cmodeStep env source) ⟨c, false, ac, av⟩ =
      ⟨{ c with mode := flags.foldl (fun mode flag ↦ mode &&& ~~~flag) c.mode }, false, ac, av⟩ := by
  induction h generalizing c with
  | nil => rfl
  | cons hflag _ ih =>
    rw [List.foldl_cons, cmodeStep_flag hflag, CmodeState.setFlag]
    exact ih _

theorem cmodeLoop_clearedModes (env : CmodeEnv) (source : CString) (c : Channel) :
    cmodeLoop env source c clearedModes [] = { c with mode := c.mode &&& ~~~flagMask, limit := 0#32 } := by
  have hfirst : List.Forall₂ (fun letter flag ↦ (letter, flag) ∈ flagTable) ['c', 'i'] [CMODE_c, CMODE_i] := by
    simp [flagTable]
  have hsecond : List.Forall₂ (fun letter flag ↦ (letter, flag) ∈ flagTable)
      ['m', 'M', 'n', 'O', 'p', 's', 'R', 't']
      [CMODE_m, CMODE_M, CMODE_n, CMODE_O, CMODE_p, CMODE_s, CMODE_R, CMODE_t] := by
    simp [flagTable]
  have hkl (c : Channel) : ['k', 'l'].foldl (cmodeStep env source) ⟨c, false, 0, []⟩ =
      ⟨{ c with limit := 0#32 }, false, -1, []⟩ := rfl
  have hsplit : clearedModes = '-' :: (['c', 'i'] ++ ['k', 'l'] ++ ['m', 'M', 'n', 'O', 'p', 's', 'R', 't']) := rfl
  have hminus : cmodeStep env source ⟨c, true, ([] : List CString).length, []⟩ '-' = ⟨c, false, 0, []⟩ := rfl
  rw [cmodeLoop, hsplit, List.foldl_cons, hminus, List.foldl_append, List.foldl_append,
    foldl_clearFlags_cmode hfirst, hkl, foldl_clearFlags_cmode hsecond, ← clear_flagMask]
  rfl

theorem serverMode_clearedModes (chan : ServerChannel) (key : CString) :
    serverMode chan ⟨clearedModes, [key]⟩ = ⟨chan.mode &&& ~~~flagMask, 0, none⟩ := by
  rw [← clear_flagMask]
  rfl

/-- Mode changes of services are not counted. -/
theorem countServerMode_of_service (hsource : IsService source) (env : CmodeEnv) (now : ℤ)
    (modestr lastmodes : CString) (c : Channel) :
    countServerMode env now source modestr lastmodes c = (c, lastmodes) := by
  have hdot : ¬ source.contains '.' := by
    rcases hsource with rfl | rfl <;> decide
  rw [countServerMode, if_neg fun h ↦ hdot h.1]

theorem room_send (st : ClearState) (line : ModeLine) (room : ServerRoom) :
    (st.send line).room room = serverRoom (st.room room) line := by
  rw [ClearState.room, ClearState.send, modeLines_append, List.foldl_append]
  rfl

/-- What a `do_cmode` of services leaves. -/
structure AfterCmode (row : Option MlockRow) (changed : Channel) (before : ServerRoom) (c : Channel)
    (room : ServerRoom) : Prop where
  settled : Settled row changed c
  lists : Channel.lists c = Channel.lists changed
  room : room = { before with chan :=
    ⟨c.mode, sentLimit row changed.limit before.chan.limit, sentKey row changed.key before.chan.key⟩ }

theorem cmode_chan (hsource : IsService source) (st : ClearState) (modestr : CString) (params : List CString) :
    (st.cmode env now row source modestr params).chan =
        (checkModes env now row (cmodeLoop env source st.chan modestr params)).1 ∧
      (st.cmode env now row source modestr params).sent =
        st.sent ++ (checkModes env now row (cmodeLoop env source st.chan modestr params)).2 := by
  rw [ClearState.cmode, doCmode, countServerMode_of_service hsource]
  exact ⟨rfl, rfl⟩

theorem cmode_spec (hrow : Consistent row) (hsource : IsService source) {modestr : CString} {params : List CString}
    (hmode : (st.room room).chan.mode = (cmodeLoop env source st.chan modestr params).mode) :
    AfterCmode row (cmodeLoop env source st.chan modestr params) (st.room room)
      (st.cmode env now row source modestr params).chan
      ((st.cmode env now row source modestr params).room room) := by
  obtain ⟨hchan, hsent⟩ := @cmode_chan env now row source hsource st modestr params
  have hsettled := @settled_checkModes env now row (cmodeLoop env source st.chan modestr params) hrow
  rw [hchan]
  refine ⟨hsettled, lists_checkModes, ?_⟩
  rw [ClearState.room, hsent, modeLines_append, List.foldl_append, hsettled.mode]
  exact foldl_checkModes hrow env now hmode

theorem mode_spec (hrow : Consistent row) (hsource : IsService source) (hletter : IsEntryLetter letter)
    {param : CString} {argv : List ℕ}
    (hmode : (st.room room).chan.mode = (cmodeLoop env source st.chan ['-', letter] [param]).mode) :
    AfterCmode row (cmodeLoop env source st.chan ['-', letter] [param]) (setEntry letter false param (st.room room))
      (st.mode env now row source ['-', letter] param argv).chan
      ((st.mode env now row source ['-', letter] param argv).room room) := by
  have hline : serverRoom (st.room room) ⟨['-', letter], [param]⟩ = setEntry letter false param (st.room room) :=
    serverRoom_entry hletter false [param] (st.room room)
  have hsent : (st.send ⟨['-', letter], [param]⟩).room room = setEntry letter false param (st.room room) := by
    rw [room_send, hline]
  have hspec := @cmode_spec env now row source (st.send ⟨['-', letter], [param]⟩) room hrow hsource
    ['-', letter] [param] (by rw [hsent, (setEntry_frame letter false param _).1]; exact hmode)
  rw [hsent] at hspec
  exact hspec

/-- The entries of a record for a letter, as parameters of a line. -/
def recordEntries (env : CmodeEnv) (c : Channel) (letter : Char) : List CString :=
  if letter = 'b' then c.newbans else (statusList letter c).map env.nickOf

/-- The server has the flags of the record, and no entry that the record has not. -/
structure Follows (env : CmodeEnv) (c : Channel) (room : ServerRoom) : Prop where
  mode : room.chan.mode = c.mode
  entries : ∀ letter, IsEntryLetter letter → ∀ x ∈ room.entries letter, x ∈ recordEntries env c letter
  members : ∀ letter, letter = 'o' ∨ letter = 'v' → ∀ x ∈ room.entries letter, x ∈ room.members

theorem entries_setEntry_subset (letter other : Char) (param : CString) (room : ServerRoom) :
    (setEntry letter false param room).entries other ⊆ room.entries other := by
  have hfilter (list : List CString) : setListed false param list ⊆ list := by
    rw [setListed, if_neg Bool.false_ne_true]
    exact List.filter_subset_self list
  rw [setEntry]
  by_cases hb : letter = 'b'
  · rw [if_pos hb, ServerRoom.entries, ServerRoom.entries]
    split_ifs
    · exact hfilter _
    · exact List.Subset.refl _
    · exact List.Subset.refl _
  rw [if_neg hb]
  by_cases hmember : param ∉ room.members
  · rw [if_pos hmember]
    exact List.Subset.refl _
  rw [if_neg hmember]
  by_cases ho : letter = 'o'
  · rw [if_pos ho, ServerRoom.entries, ServerRoom.entries]
    split_ifs
    · exact List.Subset.refl _
    · exact hfilter _
    · exact List.Subset.refl _
  · rw [if_neg ho, ServerRoom.entries, ServerRoom.entries]
    split_ifs
    · exact List.Subset.refl _
    · exact List.Subset.refl _
    · exact hfilter _

/-- A turn that takes the same entry from both keeps the server behind the record. -/
theorem Follows.turn (h : Follows env c room) (hletter : IsEntryLetter letter) {param : CString} {changed c' : Channel}
    {room' : ServerRoom} (hafter : AfterCmode row changed (setEntry letter false param room) c' room')
    (hrecord : ∀ other, IsEntryLetter other → ∀ x ∈ recordEntries env c other, ¬ (letter = other ∧ param = x) →
      x ∈ recordEntries env changed other) : Follows env c' room' := by
  have hlists (other : Char) : recordEntries env c' other = recordEntries env changed other := by
    have hsame := hafter.lists
    simp only [Channel.lists, Prod.mk.injEq] at hsame
    obtain ⟨hbans, -, hops, hvoices⟩ := hsame
    rw [recordEntries, recordEntries, statusList, statusList, hbans, hops, hvoices]
  have hentries (other : Char) : room'.entries other = (setEntry letter false param room).entries other := by
    rw [hafter.room]
    rfl
  have hmember (other : Char) (hother : other = 'o' ∨ other = 'v') (x : CString) (hx : x ∈ room'.entries other) :
      x ∈ room.members :=
    h.members other hother x (entries_setEntry_subset letter other param room (hentries other ▸ hx))
  refine ⟨?_, fun other hother x hx ↦ ?_, fun other hother x hx ↦ ?_⟩
  · rw [hafter.room]
  · rw [hlists]
    have hbefore := entries_setEntry_subset letter other param room (hentries other ▸ hx)
    refine hrecord other hother x (h.entries other hother x hbefore) fun hsame ↦ ?_
    have hafter' := (mem_setEntry hletter hother false (hother.imp_right fun hstatus ↦ hmember other hstatus x hx)).mp
      (hentries other ▸ hx)
    rw [if_pos hsame] at hafter'
    exact absurd hafter' Bool.false_ne_true
  · rw [hafter.room]
    show x ∈ (setEntry letter false param room).members
    rw [(setEntry_frame letter false param room).2]
    exact hmember other hother x hx

theorem settledKey_idem (row : Option MlockRow) (key : Option CString) :
    settledKey row (settledKey row key) = settledKey row key := by
  rw [settledKey, settledKey]
  cases lockedKey row with
  | some locked => rfl
  | none =>
    show (if _ then none else if _ then none else key) = if _ then none else key
    split_ifs <;> rfl

theorem settledMode_settled (row : Option MlockRow) (mode : BitVec 32) :
    settledMode row (settledMode row mode) = settledMode row mode := by
  rw [settledMode, settledMode]
  ext i hi
  simp only [BitVec.getElem_and, BitVec.getElem_or, BitVec.getElem_not]
  cases mode[i] <;> cases (getMlockOn row)[i] <;> cases (getMlockOff row)[i] <;> cases flagMask[i] <;> rfl

theorem dropStatus_modes (letter : Char) (c : Channel) :
    (dropStatus letter c).mode = c.mode ∧ (dropStatus letter c).limit = c.limit ∧ (dropStatus letter c).key = c.key ∧
      (dropStatus letter c).newbans = c.newbans := by
  rw [dropStatus]
  split_ifs <;> exact ⟨rfl, rfl, rfl, rfl⟩

theorem statusList_dropStatus (hletter : letter = 'o' ∨ letter = 'v') {other : Char} (hother : other = 'o' ∨ other = 'v')
    (c : Channel) : statusList other (dropStatus letter c) =
      if other = letter then (statusList letter c).tail else statusList other c := by
  rcases hletter with rfl | rfl <;> rcases hother with rfl | rfl <;> rfl

theorem statusList_of_lists {c' : Channel} (h : Channel.lists c' = Channel.lists c) (letter : Char) :
    statusList letter c' = statusList letter c ∧ c'.newbans = c.newbans := by
  simp only [Channel.lists, Prod.mk.injEq] at h
  obtain ⟨hbans, -, hops, hvoices⟩ := h
  rw [statusList, statusList, hops, hvoices]
  exact ⟨rfl, hbans⟩

/-- The record and the server before a turn and after some: the lists of the other letters are left, the server
stays behind the record and has its key. -/
structure Tracks (env : CmodeEnv) (c : Channel) (room : ServerRoom) : Prop where
  follows : Follows env c room
  key : room.chan.key = c.key

/-- One turn over a status takes the entry it stands on and puts the lock back. -/
theorem clearUser_spec (hrow : Consistent row) (hletter : letter = 'o' ∨ letter = 'v')
    (hlist : statusList letter st.chan = user :: rest) (h : Tracks env st.chan (st.room room)) :
    Tracks env (clearUser env now row letter st user).chan ((clearUser env now row letter st user).room room) ∧
      (clearUser env now row letter st user).chan.key = settledKey row st.chan.key ∧
      Channel.lists (clearUser env now row letter st user).chan = Channel.lists (dropStatus letter st.chan) := by
  obtain ⟨hmode, hlimit, hkey, hbans⟩ := dropStatus_modes letter st.chan
  have hloop := @cmodeLoop_status env st.chan s_ChanServ letter user rest hletter hlist
  have hentry : IsEntryLetter letter := .inr hletter
  have hafter : AfterCmode row (dropStatus letter st.chan) (setEntry letter false (env.nickOf user) (st.room room))
      (clearUser env now row letter st user).chan ((clearUser env now row letter st user).room room) := by
    have hspec := @mode_spec env now row s_ChanServ letter (st.sstrdup 3) room hrow (.inl rfl) hentry
      (env.nickOf user) (st.strings.ledger.news 3)
    rw [show (st.sstrdup 3).chan = st.chan from rfl, hloop, hmode] at hspec
    exact hspec h.follows.mode
  refine ⟨⟨?_, ?_⟩, ?_, hafter.lists⟩
  · refine h.follows.turn hentry hafter fun other hother x hx hkept ↦ ?_
    rcases hother with rfl | hother
    · show x ∈ (dropStatus letter st.chan).newbans
      rw [hbans]
      exact hx
    · have hb : other ≠ 'b' := by
        rcases hother with rfl | rfl <;> decide
      rw [recordEntries, if_neg hb] at hx ⊢
      rw [statusList_dropStatus hletter hother]
      split_ifs with hsame
      · subst hsame
        rw [hlist] at hx ⊢
        refine (List.mem_cons.mp hx).resolve_left fun hhead ↦ ?_
        exact hkept ⟨rfl, hhead.symm⟩
      · exact hx
  · rw [hafter.room, hafter.settled.key, hkey, (setEntry_frame _ _ _ _).1]
    show sentKey row st.chan.key (st.room room).chan.key = _
    rw [h.key, sentKey_self hrow]
  · exact hafter.settled.key.trans (by rw [hkey])

/-- The loop over a status empties its list; the lock is put back if there was a turn. -/
theorem foldl_clearUser (hrow : Consistent row) (hletter : letter = 'o' ∨ letter = 'v') {users : List UserId}
    (hlist : statusList letter st.chan = users) (h : Tracks env st.chan (st.room room)) :
    let st' := users.foldl (clearUser env now row letter) st
    Tracks env st'.chan (st'.room room) ∧ statusList letter st'.chan = [] ∧
      st'.chan.key = (if users = [] then st.chan.key else settledKey row st.chan.key) ∧
      st'.chan.newbans = st.chan.newbans ∧
      ∀ other, other = 'o' ∨ other = 'v' → other ≠ letter → statusList other st'.chan = statusList other st.chan := by
  induction users generalizing st with
  | nil => exact ⟨h, hlist, rfl, rfl, fun _ _ _ ↦ rfl⟩
  | cons user rest ih =>
    obtain ⟨htracks, hkey, hlists⟩ := @clearUser_spec env now row letter st room user rest hrow hletter hlist h
    have hstatus (other : Char) (hother : other = 'o' ∨ other = 'v') :
        statusList other (clearUser env now row letter st user).chan =
          if other = letter then (statusList letter st.chan).tail else statusList other st.chan := by
      rw [(statusList_of_lists hlists other).1, statusList_dropStatus hletter hother]
    have hrest : statusList letter (clearUser env now row letter st user).chan = rest := by
      rw [hstatus letter hletter, if_pos rfl, hlist]
      rfl
    obtain ⟨htracks', hgone, hkey', hbans, hothers⟩ := ih hrest htracks
    refine ⟨htracks', hgone, ?_, ?_, fun other hother hne ↦ ?_⟩
    · rw [if_neg (List.cons_ne_nil user rest), List.foldl_cons, hkey', hkey]
      split_ifs
      · rfl
      · exact settledKey_idem row _
    · rw [List.foldl_cons, hbans, (statusList_of_lists hlists letter).2, (dropStatus_modes letter st.chan).2.2.2]
    · rw [List.foldl_cons, hothers other hother hne, hstatus other hother, if_neg hne]

/-- With ALL both lists are emptied, and the lock is put back if there was somebody on them. -/
theorem clearUsers_spec (hrow : Consistent row) (h : Tracks env st.chan (st.room room)) :
    let st' := clearUsers env now row st
    Tracks env st'.chan (st'.room room) ∧ st'.chan.chanops = [] ∧ st'.chan.voices = [] ∧
      st'.chan.newbans = st.chan.newbans ∧ st'.chan.key = keyBefore row true st.chan := by
  obtain ⟨htracks, hops, hkey, hbans, hothers⟩ := @foldl_clearUser env now row 'o' st room hrow (.inl rfl) _ rfl h
  have hvoices := hothers 'v' (.inr rfl) (by decide)
  obtain ⟨htracks', hvoices', hkey', hbans', hkept⟩ :=
    @foldl_clearUser env now row 'v' _ room hrow (.inr rfl) _ rfl htracks
  refine ⟨htracks', ?_, hvoices', hbans'.trans hbans, ?_⟩
  · exact (hkept 'o' (.inl rfl) (by decide)).trans hops
  · refine hkey'.trans ?_
    rw [hvoices, hkey, keyBefore, show statusList 'o' st.chan = st.chan.chanops from rfl,
      show statusList 'v' st.chan = st.chan.voices from rfl]
    by_cases hnoOps : st.chan.chanops = [] <;> by_cases hnoVoices : st.chan.voices = [] <;>
      simp [hnoOps, hnoVoices, settledKey_idem]

/-- The mode word that is left. -/
def clearedMode (row : Option MlockRow) (mode : BitVec 32) : BitVec 32 :=
  settledMode row (mode &&& ~~~flagMask)

/-- The record and the server after the modes are cleared, `before` and `room` being those that were there. -/
structure AfterModes (row : Option MlockRow) (before : Channel) (room : ServerRoom) (c : Channel)
    (room' : ServerRoom) : Prop where
  mode : c.mode = clearedMode row before.mode
  limit : c.limit = 0#32
  key : c.key = none
  lists : Channel.lists c = Channel.lists before
  room : room' = { room with chan := ⟨c.mode, sentLimit row 0#32 0, sentKey row before.key none⟩ }

theorem clearedModes_plain : ∀ letter ∈ clearedModes, ¬ IsEntryLetter letter := by
  simp [clearedModes, IsEntryLetter]

theorem clearModes_spec (hrow : Consistent row) (hmode : (st.room room).chan.mode = st.chan.mode) :
    AfterModes row st.chan (st.room room) (clearModes env now row st).chan
      ((clearModes env now row st).room room) := by
  have hloop := cmodeLoop_clearedModes env s_OperServ st.chan
  have hline : serverRoom (st.room room) ⟨clearedModes, [st.chan.key.getD []]⟩ =
      { st.room room with chan := ⟨st.chan.mode &&& ~~~flagMask, 0, none⟩ } := by
    rw [serverRoom_plain clearedModes_plain, serverMode_clearedModes, hmode]
  have hspec := @cmode_spec env now row s_OperServ
    ((st.send ⟨clearedModes, [st.chan.key.getD []]⟩).sstrdup (st.strings.key.elim 3 fun _ ↦ 2)) room hrow (.inr rfl)
    clearedModes []
  rw [show ((st.send ⟨clearedModes, [st.chan.key.getD []]⟩).sstrdup _).chan = st.chan from rfl, hloop,
    show ((st.send ⟨clearedModes, [st.chan.key.getD []]⟩).sstrdup _).room room =
      (st.send ⟨clearedModes, [st.chan.key.getD []]⟩).room room from rfl, room_send, hline] at hspec
  obtain ⟨hsettled, hlists, hroom⟩ := hspec rfl
  exact ⟨hsettled.mode, rfl, rfl, hlists, hroom⟩

/-- One turn over the bans. -/
theorem clearBan_spec (hrow : Consistent row) {mask : CString} {copy : ℕ}
    (hmode : (st.room room).chan.mode = st.chan.mode) :
    AfterCmode row { st.chan with newbans := st.chan.newbans.erase mask } (setEntry 'b' false mask (st.room room))
      (clearBan env now row st (mask, copy)).chan ((clearBan env now row st (mask, copy)).room room) := by
  have hspec := @mode_spec env now row s_OperServ 'b' (st.sstrdup 2) room hrow (.inr rfl) (.inl rfl) mask
    (st.strings.ledger.news 2 ++ [copy])
  rw [show (st.sstrdup 2).chan = st.chan from rfl, cmodeLoop_minus_b] at hspec
  exact hspec hmode

theorem settledLimit_locked (row : Option MlockRow) :
    settledLimit row 0#32 = getMlockLimit row ∧ settledLimit row (getMlockLimit row) = getMlockLimit row := by
  rw [settledLimit, settledLimit]
  by_cases hlimit : getMlockLimit row = 0#32
  · simp [hlimit]
  · simp [hlimit]

theorem sentLimit_locked (row : Option MlockRow) (atServer : ℕ) :
    sentLimit row 0#32 (sentLimit row 0#32 atServer) = sentLimit row 0#32 atServer ∧
      sentLimit row (getMlockLimit row) atServer = atServer := by
  rw [sentLimit, sentLimit, sentLimit]
  by_cases hlimit : getMlockLimit row = 0#32
  · simp [hlimit]
  · simp only [hlimit, ne_eq, not_false_eq_true, if_true, not_true, if_false, serverLimit]
    split_ifs <;> simp

theorem sentKey_none (row : Option MlockRow) (key : Option CString) :
    sentKey row none (sentKey row key none) = settledKey row none := by
  rw [sentKey, sentKey, settledKey]
  cases lockedKey row with
  | none => simp [Option.filter]
  | some locked => simp

/-- The lock is back: the record has the locked key and limit, and the server the key. -/
structure Restored (row : Option MlockRow) (c : Channel) (room : ServerRoom) : Prop where
  key : c.key = settledKey row none
  limit : c.limit = getMlockLimit row
  roomKey : room.chan.key = settledKey row none
  roomLimit : room.chan.limit = sentLimit row 0#32 0

/-- One turn over the bans puts the lock back, or leaves it. -/
theorem Restored.of_afterCmode (hrow : Consistent row) {changed c' : Channel} {room' : ServerRoom}
    (h : AfterCmode row changed room c' room')
    (hchanged : Restored row changed room ∨ (changed.key = none ∧ changed.limit = 0#32 ∧
      (∃ key, room.chan.key = sentKey row key none) ∧ room.chan.limit = sentLimit row 0#32 0)) :
    Restored row c' room' := by
  rcases hchanged with ⟨hkey, hlimit, hroomKey, hroomLimit⟩ | ⟨hkey, hlimit, ⟨key, hroomKey⟩, hroomLimit⟩
  · refine ⟨?_, ?_, ?_, ?_⟩
    · rw [h.settled.key, hkey, settledKey_idem]
    · rw [h.settled.limit, hlimit, (settledLimit_locked row).2]
    · rw [h.room]
      show sentKey row changed.key room.chan.key = _
      rw [hkey, hroomKey, sentKey_self hrow, settledKey_idem]
    · rw [h.room]
      show sentLimit row changed.limit room.chan.limit = _
      rw [hlimit, hroomLimit, (sentLimit_locked row _).2]
  · refine ⟨?_, ?_, ?_, ?_⟩
    · rw [h.settled.key, hkey]
    · rw [h.settled.limit, hlimit, (settledLimit_locked row).1]
    · rw [h.room]
      show sentKey row changed.key room.chan.key = _
      rw [hkey, hroomKey, sentKey_none]
    · rw [h.room]
      show sentLimit row changed.limit room.chan.limit = _
      rw [hlimit, hroomLimit, (sentLimit_locked row 0).1]

/-- What the loop over the bans leaves. -/
structure AfterBans (env : CmodeEnv) (c : Channel) (room : ServerRoom) (c' : Channel) (room' : ServerRoom) : Prop where
  follows : Follows env c' room'
  mode : c'.mode = c.mode
  bans : c'.newbans = []
  status : ∀ letter, letter = 'o' ∨ letter = 'v' →
    statusList letter c' = statusList letter c ∧ room'.entries letter = room.entries letter

/-- The loop over the bans, at whose start the modes are settled. -/
theorem foldl_clearBan (hrow : Consistent row) {bans : List (CString × ℕ)}
    (hbans : st.chan.newbans = bans.map Prod.fst) (h : Follows env st.chan (st.room room))
    (hmode : settledMode row st.chan.mode = st.chan.mode)
    (hstart : Restored row st.chan (st.room room) ∨ (st.chan.key = none ∧ st.chan.limit = 0#32 ∧
      (∃ key, (st.room room).chan.key = sentKey row key none) ∧ (st.room room).chan.limit = sentLimit row 0#32 0)) :
    let st' := bans.foldl (clearBan env now row) st
    AfterBans env st.chan (st.room room) st'.chan (st'.room room) ∧
      if bans = [] then st'.chan = st.chan ∧ st'.room room = st.room room
      else Restored row st'.chan (st'.room room) := by
  induction bans generalizing st with
  | nil => exact ⟨⟨h, rfl, hbans, fun _ _ ↦ ⟨rfl, rfl⟩⟩, rfl, rfl⟩
  | cons ban bans ih =>
    have hafter := @clearBan_spec env now row st room hrow ban.1 ban.2 h.mode
    have hsame : (setEntry 'b' false ban.1 (st.room room)).chan = (st.room room).chan :=
      (setEntry_frame 'b' false ban.1 _).1
    have hrestored := Restored.of_afterCmode hrow hafter (by
      rw [hsame]
      exact hstart.imp (fun ⟨hkey, hlimit, hroomKey, hroomLimit⟩ ↦ ⟨hkey, hlimit, hsame ▸ hroomKey, hsame ▸ hroomLimit⟩) id)
    have hfollows : Follows env (clearBan env now row st ban).chan ((clearBan env now row st ban).room room) := by
      refine h.turn (.inl rfl) hafter fun other hother x hx hkept ↦ ?_
      rcases hother with rfl | hother
      · have hne : x ≠ ban.1 := fun heq ↦ hkept ⟨rfl, heq.symm⟩
        exact (List.mem_erase_of_ne hne).mpr hx
      · have hb : other ≠ 'b' := by
          rcases hother with rfl | rfl <;> decide
        rw [recordEntries, if_neg hb] at hx ⊢
        exact hx
    have hmode' : (clearBan env now row st ban).chan.mode = st.chan.mode := hafter.settled.mode.trans hmode
    have herase : (clearBan env now row st ban).chan.newbans = bans.map Prod.fst := by
      rw [(statusList_of_lists hafter.lists 'o').2]
      show st.chan.newbans.erase ban.1 = _
      rw [hbans, List.map_cons, List.erase_cons_head]
    obtain ⟨hloop, hend⟩ := ih herase hfollows (by rw [hmode', hmode]) (.inl hrestored)
    refine ⟨⟨hloop.follows, hloop.mode.trans hmode', hloop.bans, fun letter hletter ↦ ?_⟩, ?_⟩
    · obtain ⟨hstatus, hentries⟩ := hloop.status letter hletter
      refine ⟨hstatus.trans (statusList_of_lists hafter.lists letter).1, hentries.trans ?_⟩
      rw [hafter.room]
      have hne : 'b' ≠ letter := by
        rcases hletter with rfl | rfl <;> decide
      exact entries_setEntry_of_ne (.inl rfl) (.inr hletter) hne false ban.1 _
    · rw [if_neg (List.cons_ne_nil ban bans)]
      by_cases hnil : bans = []
      · rw [if_pos hnil] at hend
        rw [List.foldl_cons, hend.1, hend.2]
        exact hrestored
      · rwa [if_neg hnil] at hend

end Turns

/-! ### The strings -/

section Strings

variable {env : CmodeEnv} {now : ℤ} {row : Option MlockRow} {c : Channel} {source : CString} {letter : Char}
  {st : ClearState} {argv extra : List ℕ} {user : UserId}

theorem held_perm {s : ChannelStrings} (h : Held s argv c) (hperm : argv.Perm extra) : Held s extra c :=
  ⟨h.key, h.bans, h.owns.perm (hperm.append_left _)⟩

theorem held_sstrdup (h : Held st.strings extra st.chan) (n : ℕ) :
    Held (st.sstrdup n).strings (st.strings.ledger.news n ++ extra) (st.sstrdup n).chan := by
  refine ⟨h.key, h.bans, (h.owns.alloc n).perm ?_⟩
  show (st.strings.ledger.news n ++ (st.strings.key.toList ++ st.strings.bans ++ extra)).Perm
    (st.strings.key.toList ++ st.strings.bans ++ (st.strings.ledger.news n ++ extra))
  generalize st.strings.key.toList ++ st.strings.bans = held
  rw [← List.append_assoc, ← List.append_assoc]
  exact List.perm_append_comm.append_right extra

theorem held_free (h : Held st.strings (argv ++ extra) st.chan) :
    Held (st.free argv).strings extra (st.free argv).chan := by
  have hperm : (st.strings.key.toList ++ st.strings.bans ++ (argv ++ extra)).Perm
      (argv ++ (st.strings.key.toList ++ st.strings.bans ++ extra)) := by
    rw [← List.append_assoc, ← List.append_assoc]
    exact List.perm_append_comm.append_right extra
  exact ⟨h.key, h.bans, (h.owns.perm hperm).frees⟩

theorem held_cmode (hrow : Consistent row) (h : Held st.strings extra st.chan) (source modestr : CString)
    (params : List CString) : Held (st.cmode env now row source modestr params).strings extra
      (st.cmode env now row source modestr params).chan :=
  h.doCmode hrow env now source st.lastmodes modestr params

theorem held_forget (h : Held st.strings extra st.chan) : Held st.forget.strings extra st.forget.chan :=
  ⟨rfl, h.bans, h.owns.sublist ((List.sublist_append_right _ _).append_right extra)⟩

theorem held_mode (hrow : Consistent row) (h : Held st.strings (argv ++ extra) st.chan)
    (source letters param : CString) : Held (st.mode env now row source letters param argv).strings extra
      (st.mode env now row source letters param argv).chan := by
  refine held_free ?_
  have hreverse : (argv ++ extra).Perm (argv.reverse ++ extra) := (List.reverse_perm argv).symm.append_right extra
  exact @held_cmode env now row (st.send ⟨letters, [param]⟩) _ hrow (held_perm h hreverse) source letters [param]

theorem held_clearUser (hrow : Consistent row) (h : Held st.strings [] st.chan) (letter : Char) (user : UserId) :
    Held (clearUser env now row letter st user).strings [] (clearUser env now row letter st user).chan :=
  held_mode hrow (held_sstrdup h 3) _ _ _

theorem held_clearUsers (hrow : Consistent row) (h : Held st.strings [] st.chan) :
    Held (clearUsers env now row st).strings [] (clearUsers env now row st).chan := by
  have hloop (letter : Char) (users : List UserId) {st : ClearState} (h : Held st.strings [] st.chan) :
      Held (users.foldl (clearUser env now row letter) st).strings []
        (users.foldl (clearUser env now row letter) st).chan := by
    induction users generalizing st with
    | nil => exact h
    | cons user users ih => exact ih (held_clearUser hrow h letter user)
  exact hloop 'v' _ (hloop 'o' _ h)

theorem held_clearBans (hrow : Consistent row) (h : Held st.strings [] st.chan) :
    Held (clearBans env now row st).strings [] (clearBans env now row st).chan := by
  have hloop (bans : List (CString × ℕ)) {st : ClearState} (h : Held st.strings (bans.map Prod.snd) st.chan) :
      Held (bans.foldl (clearBan env now row) st).strings [] (bans.foldl (clearBan env now row) st).chan := by
    induction bans generalizing st with
    | nil => exact h
    | cons ban bans ih =>
      refine ih (held_mode hrow ?_ _ _ _)
      rw [List.append_assoc]
      exact held_sstrdup h 2
  refine hloop _ ?_
  have hnews : (st.strings.ledger.news st.chan.newbans.length).length = st.chan.newbans.length := List.length_range'
  rw [List.map_snd_zip hnews.le]
  have hcopies := held_sstrdup h st.chan.newbans.length
  rwa [List.append_nil] at hcopies

/-- The line for the modes does nothing to the strings but what its `check_modes` does to the key. -/
theorem doCmodeStrings_clearedModes (hsource : IsService source) (env : CmodeEnv) (now : ℤ) (lastmodes : CString)
    (c : Channel) : doCmodeStrings env now row source lastmodes c clearedModes [] = keyStrings row c.key := by
  rw [doCmodeStrings, countServerMode_of_service hsource, cmodeLoop_clearedModes]
  dsimp only
  rw [cmodeLoopStrings_eq_nil _ _ _ (le_refl _), List.nil_append]

theorem newbans_clearModes (env : CmodeEnv) (now : ℤ) (row : Option MlockRow) (st : ClearState) :
    (clearModes env now row st).chan.newbans = st.chan.newbans := by
  have hlists := @lists_checkModes env now row (cmodeLoop env s_OperServ st.chan clearedModes [])
  rw [cmodeLoop_clearedModes] at hlists
  have hcmode (sent : ClearState) (hsent : sent.chan = st.chan) :
      (sent.cmode env now row s_OperServ clearedModes []).chan.newbans = st.chan.newbans := by
    rw [(cmode_chan (.inr rfl) sent clearedModes []).1, hsent, cmodeLoop_clearedModes,
      (statusList_of_lists hlists 'o').2]
  exact hcmode _ rfl

/-- A key that is left alone by the lock is still there when the command frees it. -/
theorem strings_clearModes {block : ℕ} (hblock : st.strings.key = some block)
    (hkept : keyStrings row st.chan.key = []) :
    (clearModes env now row st).strings = {
      ledger := (st.strings.ledger.news 2 ++ [block]).foldl Ledger.free (st.strings.ledger.alloc 2)
      key := none
      bans := st.strings.bans } := by
  have hcmode (sent : ClearState) (hsent : sent.chan = st.chan) :
      (sent.cmode env now row s_OperServ clearedModes []).strings = sent.strings := by
    rw [ClearState.cmode, doCmodeStrings_clearedModes (.inr rfl), hsent, hkept, List.foldl_nil]
  simp only [clearModes, hblock, Option.elim_some, ClearState.free, ClearState.forget]
  rw [hcmode ((st.send ⟨clearedModes, [st.chan.key.getD []]⟩).sstrdup 2) rfl]
  rfl

/-- The key that the lock leaves alone is freed once, and a copy of the empty text in its place. -/
theorem held_clearModes (hrow : Consistent row) (h : Held st.strings [] st.chan)
    (hkey : st.chan.key = none ∨ settledKey row st.chan.key = st.chan.key) :
    Held (clearModes env now row st).strings [] (clearModes env now row st).chan := by
  cases hblock : st.strings.key with
  | none =>
    have hcopies := @held_sstrdup (st.send ⟨clearedModes, [st.chan.key.getD []]⟩) [] h 3
    rw [clearModes, hblock]
    exact held_forget (held_free (held_cmode hrow hcopies s_OperServ clearedModes []))
  | some block =>
    have hsome : st.chan.key.isSome := by rw [← h.key, hblock]; rfl
    obtain ⟨key, hchan⟩ := Option.isSome_iff_exists.mp hsome
    have hsettled : settledKey row (some key) = some key := by
      rw [hchan] at hkey
      exact hkey.resolve_left (Option.some_ne_none key)
    have hstrings := @strings_clearModes env now row st block hblock (by rw [hchan, keyStrings_eq_nil hrow hsettled])
    have howns := h.owns.alloc 2
    rw [hblock] at howns
    have hperm : (st.strings.ledger.news 2 ++ ([block] ++ st.strings.bans ++ [])).Perm
        (st.strings.ledger.news 2 ++ [block] ++ ([] ++ st.strings.bans ++ [])) := by
      simp
    refine ⟨?_, ?_, ?_⟩
    · rw [hstrings]
      rfl
    · rw [hstrings, newbans_clearModes]
      exact h.bans
    · rw [hstrings]
      exact (howns.perm hperm).frees

/-- Any other key is freed twice. -/
theorem not_clean_clearModes (h : Held st.strings [] st.chan) {key : CString} (hkey : st.chan.key = some key)
    (hsettled : settledKey row (some key) ≠ some key) :
    ¬ (clearModes env now row st).strings.ledger.Clean := by
  have hsome : st.strings.key.isSome := by rw [h.key, hkey]; rfl
  obtain ⟨block, hblock⟩ := Option.isSome_iff_exists.mp hsome
  obtain ⟨ops, hops⟩ := keyStrings_eq_freeKey hsettled
  have hcmode (sent : ClearState) (hsent : sent.chan = st.chan) (hkeyed : sent.strings.key = some block) :
      block ∈ (sent.cmode env now row s_OperServ clearedModes []).strings.ledger.freed := by
    rw [ClearState.cmode, doCmodeStrings_clearedModes (.inr rfl), hsent, hkey, hops, List.foldl_cons]
    refine (freed_suffix_applyAll _ ops).subset ?_
    rw [ChannelStrings.apply, hkeyed]
    exact List.mem_cons_self ..
  simp only [clearModes, hblock, Option.elim_some, ClearState.free, ClearState.forget]
  rw [List.foldl_append]
  exact Ledger.not_clean_free ((Ledger.freed_suffix_frees _ _).subset (hcmode _ rfl hblock))

/-- What was freed stays freed to the end. -/
theorem freed_suffix_clearBans (env : CmodeEnv) (now : ℤ) (row : Option MlockRow) (st : ClearState) :
    st.strings.ledger.freed <:+ (clearBans env now row st).strings.ledger.freed := by
  have hmode (st : ClearState) (source letters param : CString) (argv : List ℕ) :
      st.strings.ledger.freed <:+ (st.mode env now row source letters param argv).strings.ledger.freed :=
    (freed_suffix_applyAll st.strings _).trans (Ledger.freed_suffix_frees argv.reverse _)
  have hloop (bans : List (CString × ℕ)) (st : ClearState) :
      st.strings.ledger.freed <:+ (bans.foldl (clearBan env now row) st).strings.ledger.freed := by
    induction bans generalizing st with
    | nil => exact List.suffix_refl _
    | cons ban bans ih => exact (hmode (st.sstrdup 2) _ _ _ _).trans (ih _)
  exact hloop _ (st.sstrdup st.chan.newbans.length)

end Strings

/-! ### The whole command -/

section Whole

variable {env : CmodeEnv} {now : ℤ} {row : Option MlockRow} {c : Channel} {all : Bool} {st : ClearState}
  {room : ServerRoom}

theorem Agrees.tracks (h : Agrees env c room) : Tracks env c room := by
  refine ⟨⟨?_, fun letter hletter x hx ↦ ?_, fun letter hletter x hx ↦ ?_⟩, ?_⟩
  · rw [h.chan]
    rfl
  · rcases hletter with rfl | rfl | rfl
    · exact (h.bans x).mp hx
    · exact (h.ops x).mp hx
    · exact (h.voices x).mp hx
  · rcases hletter with rfl | rfl
    · exact h.members x (.inl hx)
    · exact h.members x (.inr hx)
  · rw [h.chan]
    rfl

/-- The record and the server at the end: the modes are cleared, and either the lock is back or the key and the limit
are what the line for the modes and its `check_modes` left. -/
structure AfterClear (env : CmodeEnv) (row : Option MlockRow) (all : Bool) (c : Channel) (room : ServerRoom)
    (c' : Channel) (room' : ServerRoom) : Prop where
  follows : Follows env c' room'
  mode : ∃ mode, c'.mode = clearedMode row mode
  bans : c'.newbans = []
  status : if all then c'.chanops = [] ∧ c'.voices = []
    else c'.chanops = c.chanops ∧ c'.voices = c.voices ∧ room'.ops = room.ops ∧ room'.voices = room.voices
  modes : if c.newbans = [] then c'.key = none ∧ c'.limit = 0#32 ∧
      room'.chan.key = sentKey row (keyBefore row all c) none ∧ room'.chan.limit = sentLimit row 0#32 0
    else Restored row c' room'

theorem clearmodes_spec (hrow : Consistent row) (env : CmodeEnv) (now : ℤ) (all : Bool) (h : Agrees env st.chan room)
    (hsent : st.sent = []) :
    AfterClear env row all st.chan room (clearmodes env now row all st).chan
      ((clearmodes env now row all st).room room) := by
  have hroom : st.room room = room := by
    rw [ClearState.room, hsent]
    rfl
  obtain ⟨st₁, hst₁⟩ : ∃ st₁, st₁ = if all then clearUsers env now row st else st := ⟨_, rfl⟩
  have hstart : Tracks env st₁.chan (st₁.room room) ∧ st₁.chan.newbans = st.chan.newbans ∧
      st₁.chan.key = keyBefore row all st.chan ∧
      if all then st₁.chan.chanops = [] ∧ st₁.chan.voices = [] else st₁ = st := by
    have htracks : Tracks env st.chan (st.room room) := hroom.symm ▸ h.tracks
    cases all with
    | false =>
      subst hst₁
      exact ⟨htracks, rfl, (if_neg fun hall ↦ Bool.false_ne_true hall.1).symm, rfl⟩
    | true =>
      subst hst₁
      obtain ⟨htracks', hops, hvoices, hbans, hkey⟩ := @clearUsers_spec env now row st room hrow htracks
      exact ⟨htracks', hbans, hkey, hops, hvoices⟩
  obtain ⟨htracks, hbans, hkey, hstatus⟩ := hstart
  obtain ⟨st₂, hst₂⟩ : ∃ st₂, st₂ = clearModes env now row st₁ := ⟨_, rfl⟩
  have hmodes : AfterModes row st₁.chan (st₁.room room) st₂.chan (st₂.room room) := by
    rw [hst₂]
    exact clearModes_spec hrow htracks.follows.mode
  have hlists (letter : Char) := statusList_of_lists hmodes.lists letter
  have hentries (letter : Char) : (st₂.room room).entries letter = (st₁.room room).entries letter := by
    rw [hmodes.room]
    rfl
  have hfollows : Follows env st₂.chan (st₂.room room) := by
    refine ⟨?_, fun letter hletter x hx ↦ ?_, fun letter hletter x hx ↦ ?_⟩
    · rw [hmodes.room]
    · rw [recordEntries, (hlists letter).1, (hlists letter).2]
      exact htracks.follows.entries letter hletter x (hentries letter ▸ hx)
    · rw [hmodes.room]
      exact htracks.follows.members letter hletter x (hentries letter ▸ hx)
  have hnews : (st₂.strings.ledger.news st₂.chan.newbans.length).length = st₂.chan.newbans.length :=
    List.length_range'
  have hmasks : (st₂.chan.newbans.zip (st₂.strings.ledger.news st₂.chan.newbans.length)).map Prod.fst =
      st₂.chan.newbans := List.map_fst_zip hnews.ge
  obtain ⟨hafter, hend⟩ := @foldl_clearBan env now row (st₂.sstrdup st₂.chan.newbans.length) room hrow _ hmasks.symm
    hfollows (by
      show settledMode row st₂.chan.mode = st₂.chan.mode
      rw [hmodes.mode, clearedMode, settledMode_settled])
    (.inr ⟨hmodes.key, hmodes.limit, ⟨st₁.chan.key, by
      show (st₂.room room).chan.key = _
      rw [hmodes.room]⟩, by
      show (st₂.room room).chan.limit = _
      rw [hmodes.room]⟩)
  have hresult : clearmodes env now row all st =
      (st₂.chan.newbans.zip (st₂.strings.ledger.news st₂.chan.newbans.length)).foldl (clearBan env now row)
        (st₂.sstrdup st₂.chan.newbans.length) := by
    rw [clearmodes, ← hst₁, ← hst₂, clearBans]
  rw [hresult]
  refine ⟨hafter.follows, ⟨st₁.chan.mode, hafter.mode.trans hmodes.mode⟩, hafter.bans, ?_, ?_⟩
  · obtain ⟨hops, hopsRoom⟩ := hafter.status 'o' (.inl rfl)
    obtain ⟨hvoices, hvoicesRoom⟩ := hafter.status 'v' (.inr rfl)
    cases all with
    | true =>
      exact ⟨hops.trans ((hlists 'o').1.trans hstatus.1), hvoices.trans ((hlists 'v').1.trans hstatus.2)⟩
    | false =>
      obtain rfl : st₁ = st := hstatus
      refine ⟨hops.trans (hlists 'o').1, hvoices.trans (hlists 'v').1, ?_, ?_⟩
      · exact hopsRoom.trans ((hentries 'o').trans (congrArg ServerRoom.ops hroom))
      · exact hvoicesRoom.trans ((hentries 'v').trans (congrArg ServerRoom.voices hroom))
  · have hnil : st₂.chan.newbans.zip (st₂.strings.ledger.news st₂.chan.newbans.length) = [] ↔ st.chan.newbans = [] := by
      rw [← List.map_eq_nil_iff (f := Prod.fst), hmasks, (hlists 'o').2, hbans]
    by_cases hbansNil : st.chan.newbans = []
    · rw [if_pos (hnil.mpr hbansNil)] at hend
      rw [if_pos hbansNil, hend.1, hend.2]
      refine ⟨hmodes.key, hmodes.limit, ?_, ?_⟩
      · show (st₂.room room).chan.key = _
        rw [hmodes.room, ← hkey]
      · show (st₂.room room).chan.limit = _
        rw [hmodes.room]
    · rw [if_neg (hnil.not.mpr hbansNil)] at hend
      rw [if_neg hbansNil]
      exact hend

/-- The limit the server is left with, against the one of the record with and without bans. -/
theorem sentLimit_eq_iff (row : Option MlockRow) :
    (sentLimit row 0#32 0 = 0 ↔ getMlockLimit row = 0#32 ∨ 2 ^ 31 ≤ (getMlockLimit row).toNat) ∧
      (sentLimit row 0#32 0 = (getMlockLimit row).toNat ↔ (getMlockLimit row).toNat < 2 ^ 31) := by
  rw [sentLimit]
  by_cases hlimit : getMlockLimit row = 0#32
  · simp [hlimit]
  · have hpos : (getMlockLimit row).toNat ≠ 0 := fun hzero ↦ hlimit (BitVec.eq_of_toNat_eq hzero)
    rw [if_pos hlimit, if_pos hlimit]
    by_cases hsmall : (getMlockLimit row).toNat < 2 ^ 31
    · rw [serverLimit_of_printed hlimit hsmall]
      refine ⟨iff_of_false hpos fun h ↦ ?_, iff_of_true rfl hsmall⟩
      exact h.elim hlimit fun hlarge ↦ absurd hlarge (by omega)
    · rw [serverLimit_of_not_printed (by omega)]
      exact ⟨iff_of_true rfl (.inr (by omega)), iff_of_false (Ne.symm hpos) hsmall⟩

/-- The key the server is left with when there are no bans. -/
theorem sentKey_eq_none_iff {key : Option CString} (hkey : key = none ∨ settledKey row key = key) :
    sentKey row key none = none ↔ lockedKey row = none ∨ key ≠ none := by
  cases key with
  | none =>
    rw [sentKey, if_neg fun h ↦ absurd h.2 (by decide)]
    cases lockedKey row <;> simp [Option.filter]
  | some key =>
    have hsettled := hkey.resolve_left (Option.some_ne_none key)
    refine iff_of_true ?_ (.inr (Option.some_ne_none key))
    rw [sentKey]
    split_ifs with hclear
    · rfl
    · rw [settledKey] at hsettled
      cases hlocked : lockedKey row with
      | none => rfl
      | some locked =>
        rw [hlocked] at hsettled
        obtain rfl : locked = key := Option.some.inj hsettled
        simp [Option.filter]

theorem Agrees.exists (env : CmodeEnv) (c : Channel) : ∃ room, Agrees env c room :=
  ⟨⟨serverChannel c, c.chanops.map env.nickOf ++ c.voices.map env.nickOf, c.newbans, c.chanops.map env.nickOf,
      c.voices.map env.nickOf⟩, rfl, fun _ ↦ Iff.rfl, fun _ ↦ Iff.rfl, fun _ ↦ Iff.rfl, fun _ ↦ List.mem_append.mpr⟩

/-- A flag that is left is locked on. -/
theorem locked_of_clearedMode {mode : BitVec 32} {letter : Char} {flag : BitVec 32} (hmem : (letter, flag) ∈ flagTable)
    (hset : clearedMode row mode &&& flag ≠ 0#32) : getMlockOn row &&& flag ≠ 0#32 := by
  obtain ⟨i, hi, hmask, htest⟩ := exists_bit hmem
  rw [htest] at hset ⊢
  simp only [clearedMode, settledMode, BitVec.getElem_and, BitVec.getElem_or, BitVec.getElem_not, hmask,
    Bool.not_true, Bool.and_false, Bool.false_or, Bool.and_true, Bool.and_eq_true] at hset
  exact hset.1

/-- The modes of the server and the record at the end are the same exactly when what was to be put back was. -/
theorem AfterClear.chan_iff {c' : Channel} {room' : ServerRoom} (h : AfterClear env row all c room c' room')
    (hkey : keyBefore row all c = none ∨ settledKey row (keyBefore row all c) = keyBefore row all c) :
    room'.chan = serverChannel c' ↔ (c.newbans ≠ [] → (getMlockLimit row).toNat < 2 ^ 31) ∧
      (c.newbans = [] → (lockedKey row = none ∨ keyBefore row all c ≠ none) ∧
        (getMlockLimit row = 0#32 ∨ 2 ^ 31 ≤ (getMlockLimit row).toNat)) := by
  have hext : room'.chan = serverChannel c' ↔ room'.chan.limit = c'.limit.toNat ∧ room'.chan.key = c'.key :=
    ⟨fun heq ↦ heq ▸ ⟨rfl, rfl⟩, fun heq ↦ ServerChannel.ext h.follows.mode heq.1 heq.2⟩
  have hmodes := h.modes
  rw [hext]
  by_cases hbans : c.newbans = []
  · rw [if_pos hbans] at hmodes
    obtain ⟨hnoKey, hnoLimit, hroomKey, hroomLimit⟩ := hmodes
    rw [hnoKey, hnoLimit, hroomKey, hroomLimit, sentKey_eq_none_iff hkey]
    show sentLimit row 0#32 0 = 0 ∧ _ ↔ _
    rw [(sentLimit_eq_iff row).1, and_comm]
    exact ⟨fun hright ↦ ⟨fun hne ↦ absurd hbans hne, fun _ ↦ hright⟩, fun hright ↦ hright.2 hbans⟩
  · rw [if_neg hbans] at hmodes
    rw [hmodes.key, hmodes.limit, hmodes.roomKey, hmodes.roomLimit, (sentLimit_eq_iff row).2]
    exact ⟨fun hright ↦ ⟨fun _ ↦ hright.1, fun hnil ↦ absurd hnil hbans⟩, fun hright ↦ ⟨hright.1 hbans, rfl⟩⟩

theorem AfterClear.agrees {c' : Channel} {room' : ServerRoom} (h : AfterClear env row all c room c' room')
    (hbefore : Agrees env c room) (hchan : room'.chan = serverChannel c') : Agrees env c' room' := by
  have hstatus := h.status
  refine ⟨hchan, fun mask ↦ ?_, fun nick ↦ ?_, fun nick ↦ ?_, fun nick hnick ↦ ?_⟩
  · rw [h.bans]
    refine iff_of_false (fun hmem ↦ ?_) List.not_mem_nil
    have hentry : mask ∈ c'.newbans := h.follows.entries 'b' (.inl rfl) mask hmem
    rw [h.bans] at hentry
    exact absurd hentry List.not_mem_nil
  · cases all with
    | true =>
      have hnone : c'.chanops = [] := hstatus.1
      rw [hnone]
      refine iff_of_false (fun hmem ↦ ?_) List.not_mem_nil
      have hentry : nick ∈ c'.chanops.map env.nickOf := h.follows.entries 'o' (.inr (.inl rfl)) nick hmem
      rw [hnone] at hentry
      exact absurd hentry List.not_mem_nil
    | false =>
      obtain ⟨hops, -, hroomOps, -⟩ := hstatus
      rw [hops, hroomOps]
      exact hbefore.ops nick
  · cases all with
    | true =>
      have hnone : c'.voices = [] := hstatus.2
      rw [hnone]
      refine iff_of_false (fun hmem ↦ ?_) List.not_mem_nil
      have hentry : nick ∈ c'.voices.map env.nickOf := h.follows.entries 'v' (.inr (.inr rfl)) nick hmem
      rw [hnone] at hentry
      exact absurd hentry List.not_mem_nil
    | false =>
      obtain ⟨-, hvoices, -, hroomVoices⟩ := hstatus
      rw [hvoices, hroomVoices]
      exact hbefore.voices nick
  · rcases hnick with hop | hvoice
    · exact h.follows.members 'o' (.inl rfl) nick hop
    · exact h.follows.members 'v' (.inr rfl) nick hvoice

theorem AfterClear.cleared {c' : Channel} {room' : ServerRoom} (h : AfterClear env row all c room c' room') :
    Cleared row all c' := by
  obtain ⟨mode, hmode⟩ := h.mode
  have hmodes := h.modes
  refine ⟨h.bans, fun letter flag hmem hset ↦ ?_, ?_, ?_, fun hall ↦ ?_⟩
  · exact locked_of_clearedMode hmem (hmode ▸ hset)
  · split_ifs at hmodes
    · exact .inl hmodes.1
    · rw [hmodes.key, settledKey]
      cases lockedKey row with
      | none => exact .inl (ite_self none)
      | some locked => exact .inr rfl
  · split_ifs at hmodes
    · exact .inl hmodes.2.1
    · exact .inr hmodes.limit
  · have hstatus := h.status
    rwa [if_pos hall] at hstatus

theorem keyBefore_clearUsers (hrow : Consistent row) (h : Agrees env st.chan room) (hsent : st.sent = []) :
    (if all then clearUsers env now row st else st).chan.key = keyBefore row all st.chan := by
  cases all with
  | false => exact (if_neg fun hall ↦ Bool.false_ne_true hall.1).symm
  | true =>
    have htracks : Tracks env st.chan (st.room room) := by
      rw [ClearState.room, hsent]
      exact h.tracks
    exact (@clearUsers_spec env now row st room hrow htracks).2.2.2.2

/-- The body of the command does what it promises exactly under the condition. -/
theorem clearmodes_right_iff (hrow : Consistent row) (env : CmodeEnv) (now : ℤ) (all : Bool)
    (hheld : Held st.strings [] st.chan) (hsent : st.sent = []) :
    ClearsRight env row all st.chan (clearmodes env now row all st) ↔ ClearMeets row all st.chan := by
  obtain ⟨room, hroom⟩ := Agrees.exists env st.chan
  have hstart : Held (if all then clearUsers env now row st else st).strings []
      (if all then clearUsers env now row st else st).chan := by
    cases all with
    | false => exact hheld
    | true => exact held_clearUsers hrow hheld
  have hkey := @keyBefore_clearUsers env now row all st room hrow hroom hsent
  constructor
  · intro h
    have hmeets : keyBefore row all st.chan = none ∨
        settledKey row (keyBefore row all st.chan) = keyBefore row all st.chan := by
      by_contra hnot
      obtain ⟨key, hsome⟩ := Option.ne_none_iff_exists'.mp (not_or.mp hnot).1
      have hother := (not_or.mp hnot).2
      rw [hsome] at hother
      refine @not_clean_clearModes env now row _ hstart key (hkey.trans hsome) hother ?_
      exact h.clean.of_suffix (freed_suffix_clearBans env now row _)
    have hafter := clearmodes_spec hrow env now all hroom hsent
    obtain ⟨hrestored, hnothing⟩ := (hafter.chan_iff hmeets).mp (h.agrees room hroom).chan
    exact ⟨hmeets, hrestored, hnothing⟩
  · intro h
    have hclean : Held (clearmodes env now row all st).strings [] (clearmodes env now row all st).chan :=
      held_clearBans hrow (held_clearModes hrow hstart (by rw [hkey]; exact h.key))
    refine ⟨hclean.owns.clean, fun room hroom ↦ ?_, ?_⟩
    · have hafter := clearmodes_spec hrow env now all hroom hsent
      exact hafter.agrees hroom ((hafter.chan_iff h.key).mpr ⟨h.restored, h.nothing⟩)
    · exact (clearmodes_spec hrow env now all hroom hsent).cleared

/-- CLEARMODES keeps its promise exactly when the lock leaves the key alone and the locked key and limit are put
back, or there is nothing to put back. -/
theorem doClearmodes_right_iff (env : CmodeEnv) (now : ℤ) {rows : ℕ → Option MlockRow}
    {findchan : CString → Option (Channel × ChannelStrings)} (lastmodes : CString) {chan : CString} {s : Option CString}
    {strings : ChannelStrings} (hfound : findchan chan = some (c, strings)) (hheld : Held strings [] c)
    (hrow : Consistent (rows c.channelId)) (hall : clearAll s = some all) :
    ∃ reply st, doClearmodes env now rows findchan lastmodes (some chan) s = (reply, some st) ∧
      (ClearsRight env (rows c.channelId) all c st ↔ ClearMeets (rows c.channelId) all c) := by
  refine ⟨if all then .OPER_CLEARMODES_ALL_DONE else .OPER_CLEARMODES_DONE,
    clearmodes env now (rows c.channelId) all ⟨c, strings, lastmodes, []⟩, ?_, ?_⟩
  · simp only [doClearmodes, hfound, hall, c.bouncyModes_eq, Bool.false_eq_true, if_false]
  · exact @clearmodes_right_iff _ ⟨c, strings, lastmodes, []⟩ hrow env now all hheld rfl

/-- A channel with a key that is not locked. -/
theorem doClearmodes_right_iff_unlockedKey :
    ∃ reply st, doClearmodes bareEnv 0 (fun _ ↦ none)
        (fun _ ↦ some (bareChannel CMODE_s 0#32 (some "other".toList) 0#16, ⟨⟨1, []⟩, some 0, []⟩)) [] (some "#oftc".toList)
        none = (reply, some st) ∧
      (ClearsRight bareEnv none false (bareChannel CMODE_s 0#32 (some "other".toList) 0#16) st ↔
        ClearMeets none false (bareChannel CMODE_s 0#32 (some "other".toList) 0#16)) := by
  refine doClearmodes_right_iff bareEnv 0 [] rfl ⟨rfl, rfl, ?_, ?_⟩ ⟨?_, fun _ ↦ ?_, fun _ ↦ ?_⟩ rfl
  · decide
  · decide
  · decide
  · decide
  · decide

/-- A channel with another key than the locked one. -/
theorem clearmodes_not_right :
    ¬ ∀ env now row all st, Consistent row → Held st.strings [] st.chan → st.sent = [] →
      ClearsRight env row all st.chan (clearmodes env now row all st) := by
  intro h
  have hrow : Consistent (some ⟨0#32, 0#32, 0#32, "oftc".toList⟩) := by
    refine ⟨?_, fun _ ↦ ?_, fun _ ↦ ?_⟩ <;> rw [getMlockOff_some] <;> simp
  have hheld : Held ⟨⟨1, []⟩, some 0, []⟩ [] (bareChannel 0#32 0#32 (some "other".toList) 0#16) := by
    refine ⟨rfl, rfl, ?_, ?_⟩ <;> decide
  have hright := h bareEnv 0 _ false ⟨bareChannel 0#32 0#32 (some "other".toList) 0#16, _, [], []⟩ hrow hheld rfl
  have hmeets := ((clearmodes_right_iff hrow bareEnv 0 false hheld rfl).mp hright).key
  exact absurd hmeets (by decide +kernel)

end Whole

end BlitzedServices.OperServ
