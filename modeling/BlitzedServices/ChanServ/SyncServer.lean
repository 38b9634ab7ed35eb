import BlitzedServices.ChanServ.Sync

/-!
# What a server makes of SYNC

`serverRoom` is what a server does with a MODE line, here with its bans and the status of its users as well.
`doSync_right_iff` says when the lines of SYNC name everything as often as they should and leave the server with
what services have in memory: no class of users may end with the one that is forgotten, no batch of masks may
come to 256 characters, a limit has to be positive as an `int`, and the server may have no ban that services do
not know.
-/

set_option autoImplicit false
set_option relaxedAutoImplicit false

namespace BlitzedServices.ChanServ

open Lib Channels Misc

/-! ### The server's side -/

/-- A channel of a server with its users, bans and statuses. -/
structure ServerRoom where
  chan : ServerChannel
  members : List CString
  bans : List CString
  ops : List CString
  voices : List CString

/-- A parameter is put on a list or taken from it. -/
def setListed (add : Bool) (param : CString) (list : List CString) : List CString :=
  if add then list.insert param else list.filter (· ≠ param)

/-- A ban or a status is changed. Only users on the channel have a status. -/
def setEntry (letter : Char) (add : Bool) (param : CString) (room : ServerRoom) : ServerRoom :=
  if letter = 'b' then { room with bans := setListed add param room.bans }
  else if param ∉ room.members then room
  else if letter = 'o' then { room with ops := setListed add param room.ops }
  else { room with voices := setListed add param room.voices }

/-- The variables of a server's loop over a MODE line. -/
structure RoomState where
  room : ServerRoom
  add : Bool
  params : List CString

/-- One letter of a MODE line at the server. -/
def roomStep (st : RoomState) (letter : Char) : RoomState :=
  if letter = 'b' ∨ letter = 'o' ∨ letter = 'v' then
    match st.params with
    | [] => st
    | param :: params => ⟨setEntry letter st.add param st.room, st.add, params⟩
  else
    let s := serverStep ⟨st.room.chan, st.add, st.params⟩ letter
    ⟨{ st.room with chan := s.chan }, s.add, s.params⟩

/-- A MODE line at the server. -/
def serverRoom (room : ServerRoom) (line : ModeLine) : ServerRoom :=
  (line.letters.foldl roomStep ⟨room, true, line.params⟩).room

/-- The list that a letter changes. -/
def ServerRoom.entries (room : ServerRoom) (letter : Char) : List CString :=
  if letter = 'b' then room.bans else if letter = 'o' then room.ops else room.voices

/-- Whether a parameter is on a list after changes with some signs. -/
def After (before : Prop) (signs : List Bool) : Prop :=
  match signs.getLast? with
  | some add => add = true
  | none => before

section Server

variable {letter other : Char} {room : ServerRoom} {param x : CString} {lines : List ModeLine}

theorem after_nil (before : Prop) : After before [] ↔ before := Iff.rfl

theorem after_append (before : Prop) (signs more : List Bool) :
    After before (signs ++ more) ↔ After (After before signs) more := by
  rw [After, After, List.getLast?_append]
  cases more.getLast? with
  | some add => rfl
  | none => rfl

theorem mem_setListed (add : Bool) (param : CString) (list : List CString) :
    x ∈ setListed add param list ↔ if x = param then add = true else x ∈ list := by
  rw [setListed]
  cases add with
  | true =>
    rw [if_pos rfl, List.mem_insert_iff]
    split_ifs with hx
    · exact iff_of_true (.inl hx) rfl
    · exact or_iff_right hx
  | false =>
    rw [if_neg Bool.false_ne_true, List.mem_filter]
    split_ifs with hx
    · simp [hx]
    · simp [hx]

theorem setEntry_frame (letter : Char) (add : Bool) (param : CString) (room : ServerRoom) :
    (setEntry letter add param room).chan = room.chan ∧
      (setEntry letter add param room).members = room.members := by
  rw [setEntry]
  split_ifs <;> exact ⟨rfl, rfl⟩

theorem after_entry (add : Bool) (param : CString) (before : Prop) :
    After before (if param = x then [add] else []) ↔ if x = param then add = true else before := by
  by_cases hx : param = x
  · rw [if_pos hx, if_pos hx.symm]
    rfl
  · rw [if_neg hx, if_neg (Ne.symm hx)]
    rfl

theorem entries_setEntry_of_ne (hletter : IsEntryLetter letter) (hother : IsEntryLetter other)
    (hne : letter ≠ other) (add : Bool) (param : CString) (room : ServerRoom) :
    (setEntry letter add param room).entries other = room.entries other := by
  rw [setEntry]
  rcases hletter with rfl | rfl | rfl <;> rcases hother with rfl | rfl | rfl
  all_goals first
    | exact absurd rfl hne
    | split_ifs <;> simp_all [ServerRoom.entries]

/-- A change of a letter's list. -/
theorem mem_setEntry (hletter : IsEntryLetter letter) (hother : IsEntryLetter other) (add : Bool)
    (hx : other = 'b' ∨ x ∈ room.members) :
    x ∈ (setEntry letter add param room).entries other ↔
      After (x ∈ room.entries other) (if letter = other ∧ param = x then [add] else []) := by
  by_cases hne : letter = other
  · subst hne
    simp only [true_and]
    rw [after_entry, setEntry]
    have hstatus (list : List CString) (hmember : param ∉ room.members) (hx : x ∈ room.members) :
        x ∈ list ↔ if x = param then add = true else x ∈ list := by
      have hxp : x ≠ param := by
        rintro rfl
        exact hmember hx
      rw [if_neg hxp]
    rcases hletter with rfl | rfl | rfl
    · exact mem_setListed add param room.bans
    · have hx := hx.resolve_left (by decide)
      rw [if_neg (by decide)]
      by_cases hmember : param ∉ room.members
      · rw [if_pos hmember]
        exact hstatus _ hmember hx
      · rw [if_neg hmember, if_pos rfl]
        exact mem_setListed add param room.ops
    · have hx := hx.resolve_left (by decide)
      rw [if_neg (by decide)]
      by_cases hmember : param ∉ room.members
      · rw [if_pos hmember]
        exact hstatus _ hmember hx
      · rw [if_neg hmember, if_neg (by decide)]
        exact mem_setListed add param room.voices
  · rw [entries_setEntry_of_ne hletter hother hne, if_neg fun h ↦ hne h.1]
    exact (after_nil _).symm

/-- The parameters of a line with one letter are changed one after the other. -/
theorem foldl_roomStep_replicate (hletter : IsEntryLetter letter) (p : List CString) (add : Bool)
    (room : ServerRoom) :
    (List.replicate p.length letter).foldl roomStep ⟨room, add, p⟩ =
      ⟨p.foldl (fun room param ↦ setEntry letter add param room) room, add, []⟩ := by
  induction p generalizing room with
  | nil => rfl
  | cons param p ih =>
    have hentry : letter = 'b' ∨ letter = 'o' ∨ letter = 'v' := hletter
    rw [List.length_cons, List.replicate_succ, List.foldl_cons, List.foldl_cons, roomStep, if_pos hentry]
    exact ih _

theorem roomStep_sign (add : Bool) (st : RoomState) :
    roomStep st (if add then '+' else '-') = { st with add := add } := by
  cases add <;> rfl

theorem serverRoom_entry (hletter : IsEntryLetter letter) (add : Bool) (p : List CString) (room : ServerRoom) :
    serverRoom room ⟨(if add then '+' else '-') :: List.replicate p.length letter, p⟩ =
      p.foldl (fun room param ↦ setEntry letter add param room) room := by
  rw [serverRoom, List.foldl_cons, roomStep_sign, foldl_roomStep_replicate hletter]

theorem foldl_setEntry (room : ServerRoom) (hletter : IsEntryLetter letter) (hother : IsEntryLetter other)
    (add : Bool) (hx : other = 'b' ∨ x ∈ room.members) (p : List CString) :
    (x ∈ (p.foldl (fun room param ↦ setEntry letter add param room) room).entries other ↔
        After (x ∈ room.entries other) (if letter = other then List.replicate (p.count x) add else [])) ∧
      (p.foldl (fun room param ↦ setEntry letter add param room) room).chan = room.chan ∧
      (p.foldl (fun room param ↦ setEntry letter add param room) room).members = room.members := by
  induction p generalizing room with
  | nil =>
    refine ⟨?_, rfl, rfl⟩
    rw [List.count_nil, List.replicate_zero, ite_self, after_nil]
    rfl
  | cons param p ih =>
    obtain ⟨hchan, hmembers⟩ := setEntry_frame letter add param room
    obtain ⟨hmem, hchan', hmembers'⟩ := ih (setEntry letter add param room) (by rwa [hmembers])
    rw [List.foldl_cons]
    refine ⟨?_, hchan'.trans hchan, hmembers'.trans hmembers⟩
    rw [hmem, mem_setEntry hletter hother add hx, ← after_append]
    refine iff_of_eq (congrArg (After _) ?_)
    rw [List.count_cons]
    by_cases hne : letter = other
    · by_cases hparam : param = x
      · simp [hne, hparam, List.replicate_succ]
      · simp [hne, hparam]
    · simp [hne]

/-- What batches leave: for every parameter the last sign counts. -/
theorem foldl_serverRoom (room : ServerRoom) {letters : List Char} (hlines : LinesOf letters lines)
    (hother : IsEntryLetter other) (hx : other = 'b' ∨ x ∈ room.members) :
    (x ∈ (lines.foldl serverRoom room).entries other ↔
        After (x ∈ room.entries other) (signs other x lines)) ∧
      (lines.foldl serverRoom room).chan = room.chan ∧
      (lines.foldl serverRoom room).members = room.members := by
  induction lines generalizing room with
  | nil => exact ⟨after_nil _, rfl, rfl⟩
  | cons line lines ih =>
    obtain ⟨hline, hrest⟩ := List.forall_mem_cons.mp hlines
    obtain ⟨letter, -, hletter, add, p, rfl⟩ := hline
    obtain ⟨hmem, hchan, hmembers⟩ := foldl_setEntry room hletter hother add hx p
    rw [← serverRoom_entry hletter] at hmem hchan hmembers
    obtain ⟨hmem', hchan', hmembers'⟩ := ih (serverRoom room
      ⟨(if add then '+' else '-') :: List.replicate p.length letter, p⟩) hrest (by rwa [hmembers])
    rw [List.foldl_cons]
    refine ⟨?_, hchan'.trans hchan, hmembers'.trans hmembers⟩
    rw [hmem', hmem, ← after_append]
    refine iff_of_eq (congrArg (After _) ?_)
    rw [signs, signs, List.flatMap_cons, lineSigns_sign hletter]

end Server

/-! ### The modes -/

section Modes

variable {letters : CString} {room : ServerRoom} {c : Channel}

/-- A line without bans and statuses changes the modes only. -/
theorem foldl_roomStep_plain (hletters : ∀ letter ∈ letters, ¬ IsEntryLetter letter) (st : RoomState) :
    letters.foldl roomStep st =
      ⟨{ st.room with chan := (letters.foldl serverStep ⟨st.room.chan, st.add, st.params⟩).chan },
        (letters.foldl serverStep ⟨st.room.chan, st.add, st.params⟩).add,
        (letters.foldl serverStep ⟨st.room.chan, st.add, st.params⟩).params⟩ := by
  induction letters generalizing st with
  | nil => rfl
  | cons letter letters ih =>
    obtain ⟨hletter, hletters⟩ := List.forall_mem_cons.mp hletters
    have hplain : ¬ (letter = 'b' ∨ letter = 'o' ∨ letter = 'v') := hletter
    rw [List.foldl_cons, ih hletters, roomStep, if_neg hplain]
    rfl

theorem serverRoom_plain {line : ModeLine} (hletters : ∀ letter ∈ line.letters, ¬ IsEntryLetter letter)
    (room : ServerRoom) : serverRoom room line = { room with chan := serverMode room.chan line } := by
  rw [serverRoom, foldl_roomStep_plain hletters]
  rfl

theorem lineSigns_plain (other : Char) (param : CString) (hother : other ∉ letters) (add : Bool)
    (params : List CString) : lineSigns other param add letters params = [] := by
  induction letters generalizing add params with
  | nil => rfl
  | cons letter letters ih =>
    obtain ⟨hne, hother⟩ := not_or.mp (List.mem_cons.not.mp hother)
    have hnone : ¬ (letter = other ∧ params.head? = some param) := fun h ↦ hne h.1.symm
    rw [lineSigns, if_neg hnone, List.nil_append, ih hother, ih hother, ih hother, ih hother]
    split_ifs <;> rfl

theorem syncTable_perm : syncTable.Perm flagTable := by decide

theorem syncTable_mem (entry : Char × BitVec 32) (h : entry ∈ syncTable) : entry ∈ flagTable :=
  syncTable_perm.subset h

/-- The letters that are put back. -/
def resetLetters (c : Channel) : CString :=
  (syncTable.filter fun (_, flag) ↦ c.mode &&& flag ≠ 0#32).map Prod.fst

theorem resetLetters_plain {letter : Char} (h : letter ∈ resetLetters c) :
    ¬ IsEntryLetter letter ∧ letter ≠ '+' ∧ letter ≠ '-' ∧ letter ≠ 'k' ∧ letter ≠ 'l' := by
  obtain ⟨entry, hentry, rfl⟩ := List.mem_map.mp h
  have htable : ∀ entry ∈ syncTable, ¬ (entry.1 = 'b' ∨ entry.1 = 'o' ∨ entry.1 = 'v') ∧ entry.1 ≠ '+' ∧
      entry.1 ≠ '-' ∧ entry.1 ≠ 'k' ∧ entry.1 ≠ 'l' := by decide
  exact htable entry (List.mem_of_mem_filter hentry)

theorem mem_resetLines {line : ModeLine} (h : line ∈ resetLines c) :
    line = ⟨'-' :: (syncTable.map Prod.fst ++ ['l', 'k']), [c.key.getD []]⟩ ∨
      line = ⟨'+' :: resetLetters c, []⟩ ∨ (∃ key, line = ⟨['+', 'k'], [key]⟩) ∨
      line = ⟨['+', 'l'], [decimal c.limit.toInt]⟩ := by
  rw [resetLines] at h
  rcases List.mem_append.mp h with h | h
  · rcases List.mem_append.mp h with h | h
    · rcases List.mem_cons.mp h with h | h
      · exact .inl h
      · exact .inr (.inl (List.mem_singleton.mp h))
    · cases hkey : c.key with
      | none =>
        rw [hkey] at h
        exact absurd h List.not_mem_nil
      | some key =>
        rw [hkey] at h
        exact .inr (.inr (.inl ⟨key, List.mem_singleton.mp h⟩))
  · split_ifs at h
    · exact .inr (.inr (.inr (List.mem_singleton.mp h)))
    · exact absurd h List.not_mem_nil

/-- No line of the first part has a ban or a status. -/
theorem resetLines_plain {line : ModeLine} (h : line ∈ resetLines c) :
    ∀ letter ∈ line.letters, ¬ IsEntryLetter letter := by
  rcases mem_resetLines h with rfl | rfl | ⟨key, rfl⟩ | rfl
  · simp [syncTable, IsEntryLetter]
  · exact List.forall_mem_cons.mpr ⟨by simp [IsEntryLetter], fun letter hletter ↦ (resetLetters_plain hletter).1⟩
  · simp [IsEntryLetter]
  · simp [IsEntryLetter]

theorem resetLines_balanced {line : ModeLine} (h : line ∈ resetLines c) : Balanced line := by
  rcases mem_resetLines h with rfl | rfl | ⟨key, rfl⟩ | rfl
  · rfl
  · have hnone (letters : CString) (hletters : ∀ letter ∈ letters, ¬ IsEntryLetter letter ∧ letter ≠ '+' ∧
        letter ≠ '-' ∧ letter ≠ 'k' ∧ letter ≠ 'l') : paramLetters true letters = 0 := by
      induction letters with
      | nil => rfl
      | cons letter letters ih =>
        obtain ⟨⟨hentry, hplus, hminus, hk, hl⟩, hletters⟩ := List.forall_mem_cons.mp hletters
        have htakes : ¬ (letter = 'b' ∨ takesParam letter true) := by
          intro h
          simp only [IsEntryLetter, not_or] at hentry
          simp [takesParam, hentry, hk, hl] at h
        rw [paramLetters, if_neg hplus, if_neg hminus, if_neg htakes, ih hletters]
    exact (hnone _ fun letter hletter ↦ resetLetters_plain hletter).symm
  · rfl
  · rfl

theorem foldl_serverRoom_plain {lines : List ModeLine}
    (hlines : ∀ line ∈ lines, ∀ letter ∈ line.letters, ¬ IsEntryLetter letter) (room : ServerRoom) :
    lines.foldl serverRoom room = { room with chan := lines.foldl serverMode room.chan } := by
  induction lines generalizing room with
  | nil => rfl
  | cons line lines ih =>
    obtain ⟨hline, hlines⟩ := List.forall_mem_cons.mp hlines
    rw [List.foldl_cons, serverRoom_plain hline, ih hlines]
    rfl

theorem serverMode_reset (chan : ServerChannel) (key : CString) :
    serverMode chan ⟨'-' :: (syncTable.map Prod.fst ++ ['l', 'k']), [key]⟩ =
      ⟨chan.mode &&& ~~~flagMask, 0, none⟩ := by
  have hclear : syncTable.foldl (fun mode (_, flag) ↦ mode &&& ~~~flag) chan.mode = chan.mode &&& ~~~flagMask := by
    have hall : flagsIn (BitVec.allOnes 32) = flagTable := by decide
    have hcomm : syncTable.foldl (fun mode (_, flag) ↦ mode &&& ~~~flag) chan.mode =
        clearFlags (BitVec.allOnes 32) chan.mode := by
      rw [clearFlags, hall]
      refine List.Perm.foldl_eq' syncTable_perm (fun x _ y _ mode ↦ ?_) chan.mode
      show mode &&& ~~~x.2 &&& ~~~y.2 = mode &&& ~~~y.2 &&& ~~~x.2
      rw [BitVec.and_assoc, BitVec.and_comm (~~~x.2), ← BitVec.and_assoc]
    rw [hcomm, clearFlags_eq, BitVec.allOnes_and]
  rw [serverMode, List.foldl_cons, List.foldl_append]
  have hminus : serverStep ⟨chan, true, [key]⟩ '-' = ⟨chan, false, [key]⟩ := rfl
  rw [hminus, foldl_entries syncTable_mem, if_neg Bool.false_ne_true, hclear]
  rfl

theorem serverMode_resetLetters (c : Channel) (chan : ServerChannel) :
    serverMode chan ⟨'+' :: resetLetters c, []⟩ = { chan with mode := chan.mode ||| (c.mode &&& flagMask) } := by
  have hset : (syncTable.filter fun (_, flag) ↦ c.mode &&& flag ≠ 0#32).foldl
      (fun mode (_, flag) ↦ mode ||| flag) chan.mode = chan.mode ||| (c.mode &&& flagMask) := by
    rw [← setFlags_eq, setFlags, flagsIn]
    refine List.Perm.foldl_eq' (syncTable_perm.filter _) (fun x _ y _ mode ↦ ?_) chan.mode
    show mode ||| x.2 ||| y.2 = mode ||| y.2 ||| x.2
    rw [BitVec.or_assoc, BitVec.or_comm x.2, ← BitVec.or_assoc]
  have hplus : serverStep ⟨chan, true, []⟩ '+' = ⟨chan, true, []⟩ := rfl
  rw [serverMode, List.foldl_cons, hplus, resetLetters,
    foldl_entries fun entry hentry ↦ syncTable_mem entry (List.mem_of_mem_filter hentry), if_pos rfl, hset]
  rfl

/-- The first part leaves the modes, the key and a limit that is positive as an `int`. -/
theorem foldl_resetLines (c : Channel) (room : ServerRoom) :
    (resetLines c).foldl serverRoom room = { room with
      chan := ⟨room.chan.mode &&& ~~~flagMask ||| (c.mode &&& flagMask),
        if 0 < c.limit.toInt then c.limit.toInt.toNat else 0, c.key⟩ } := by
  have hkey (chan : ServerChannel) (hchan : chan.key = none) :
      (c.key.toList.map fun key ↦ (⟨['+', 'k'], [key]⟩ : ModeLine)).foldl serverMode chan =
        { chan with key := c.key } := by
    cases c.key with
    | none =>
      show chan = { chan with key := none }
      rw [← hchan]
    | some key => rfl
  have hlimit (chan : ServerChannel) (hchan : chan.limit = 0) :
      (if c.limit ≠ 0#32 then [(⟨['+', 'l'], [decimal c.limit.toInt]⟩ : ModeLine)] else []).foldl serverMode chan =
        { chan with limit := if 0 < c.limit.toInt then c.limit.toInt.toNat else 0 } := by
    by_cases hzero : c.limit = 0#32
    · rw [if_neg (not_not.mpr hzero), hzero, List.foldl_nil]
      show chan = { chan with limit := 0 }
      rw [← hchan]
    · have hline : serverMode chan ⟨['+', 'l'], [decimal c.limit.toInt]⟩ =
          { chan with limit := serverLimit chan.limit (decimal c.limit.toInt) } := rfl
      rw [if_pos hzero, List.foldl_cons, List.foldl_nil, hline, serverLimit, signedValue_decimal, hchan]
  have hfirst : ([⟨'-' :: (syncTable.map Prod.fst ++ ['l', 'k']), [c.key.getD []]⟩,
      ⟨'+' :: resetLetters c, []⟩] : List ModeLine).foldl serverMode room.chan =
        ⟨room.chan.mode &&& ~~~flagMask ||| (c.mode &&& flagMask), 0, none⟩ := by
    rw [List.foldl_cons, List.foldl_cons, List.foldl_nil, serverMode_resetLetters, serverMode_reset]
  have hsplit : resetLines c = ([⟨'-' :: (syncTable.map Prod.fst ++ ['l', 'k']), [c.key.getD []]⟩,
      ⟨'+' :: resetLetters c, []⟩] : List ModeLine) ++
        (c.key.toList.map fun key ↦ (⟨['+', 'k'], [key]⟩ : ModeLine)) ++
        if c.limit ≠ 0#32 then [(⟨['+', 'l'], [decimal c.limit.toInt]⟩ : ModeLine)] else [] := by
    rw [resetLines]
    cases c.key <;> rfl
  rw [foldl_serverRoom_plain fun line hline ↦ resetLines_plain hline, hsplit, List.foldl_append,
    List.foldl_append, hfirst, hkey _ rfl, hlimit _ rfl]

end Modes

/-! ### What is sent -/

/-- Signs in batches that take a parameter and then give it again, some times in all. -/
def Resent (n : ℕ) (signs : List Bool) : Prop :=
  ∃ counts : List ℕ, counts.sum = n ∧ signs = counts.flatMap fun k ↦ List.replicate k false ++ List.replicate k true

section Resent

variable {n : ℕ} {l : List Bool} {x : CString}

theorem resent_zero (h : Resent 0 l) : l = [] := by
  obtain ⟨counts, hsum, rfl⟩ := h
  rw [List.flatMap_eq_nil_iff]
  intro k hk
  obtain rfl : k = 0 := List.sum_eq_zero_iff.mp hsum k hk
  rfl

/-- What is sent once is taken and given. -/
theorem resent_one (h : Resent 1 l) : l = [false, true] := by
  obtain ⟨counts, hsum, rfl⟩ := h
  induction counts with
  | nil => cases hsum
  | cons k counts ih =>
    rw [List.sum_cons] at hsum
    rw [List.flatMap_cons]
    rcases Nat.eq_zero_or_pos k with rfl | hk
    · exact ih (by omega)
    · obtain rfl : k = 1 := by omega
      rw [resent_zero ⟨counts, by omega, rfl⟩]
      rfl

theorem resent_last (h : Resent n l) (hn : n ≠ 0) : l.getLast? = some true := by
  obtain ⟨counts, hsum, rfl⟩ := h
  induction counts generalizing n with
  | nil => exact absurd hsum.symm hn
  | cons k counts ih =>
    rw [List.sum_cons] at hsum
    rw [List.flatMap_cons]
    by_cases hrest : counts.sum = 0
    · have hnil := resent_zero ⟨counts, hrest, rfl⟩
      obtain ⟨k, rfl⟩ : ∃ j, k = j + 1 := ⟨k - 1, by omega⟩
      rw [hnil, List.append_nil, List.replicate_succ', List.replicate_succ', ← List.append_assoc,
        List.getLast?_concat]
    · rw [List.getLast?_append, ih hrest rfl]
      rfl

theorem resent_batchSigns (batches : List (List CString)) (x : CString) :
    Resent (batches.flatten.count x) (batchSigns true batches x) := by
  refine ⟨batches.map (List.count x), List.count_flatten.symm, ?_⟩
  rw [List.flatMap_map]
  rfl

theorem batchSigns_false (batches : List (List CString)) (x : CString) :
    batchSigns false batches x = List.replicate (batches.flatten.count x) false := by
  induction batches with
  | nil => rfl
  | cons p batches ih =>
    rw [List.flatten_cons, List.count_append, List.replicate_add, ← ih]
    exact congrArg (· ++ _) (List.append_nil _)

/-- The signs of a user in a class without repetitions. -/
theorem batchSigns_nodup {batches : List (List CString)} (hnodup : batches.flatten.Nodup) (resend : Bool)
    (x : CString) : batchSigns resend batches x =
      if x ∈ batches.flatten then (if resend then [false, true] else [false]) else [] := by
  by_cases hx : x ∈ batches.flatten
  · have hcount := List.count_eq_one_of_mem hnodup hx
    rw [if_pos hx]
    cases resend with
    | true => exact resent_one (hcount ▸ resent_batchSigns batches x)
    | false => rw [batchSigns_false, hcount]; rfl
  · rw [if_neg hx, batchSigns_eq_nil hx]

end Resent

/-- The users of a channel are different users, its ops and voices are among them, and nicks and masks are
parameters. The server has these users on the channel as well. -/
structure Listed (env : CmodeEnv) (c : Channel) (room : ServerRoom) : Prop where
  nodup : c.users.Nodup
  distinct : ∀ u ∈ c.users, ∀ v ∈ c.users, ircStricmp (env.nickOf u) (env.nickOf v) = 0 → u = v
  chanops : ∀ u ∈ c.chanops, u ∈ c.users
  voices : ∀ u ∈ c.voices, u ∈ c.users
  nick : ∀ u ∈ c.users, IsNick (env.nickOf u)
  mask : ∀ mask ∈ c.newbans, IsWord mask
  members : ∀ u ∈ c.users, env.nickOf u ∈ room.members

/-- The nicks of the users of a channel that are on a list, or are not. -/
def statusNicks (env : CmodeEnv) (c : Channel) (list : List UserId) (listed : Bool) : List CString :=
  (c.users.filter fun u ↦ decide (u ∈ list) = listed).map env.nickOf

/-- The signs of a user whose class is sent without those that are forgotten. -/
def statusSigns (env : CmodeEnv) (c : Channel) (list : List UserId) (u : UserId) : List Bool :=
  if env.nickOf u ∈ remembered (statusNicks env c list (u ∈ list)) then
    (if u ∈ list then [false, true] else [false])
  else []

section Sending

variable {env : CmodeEnv} {c : Channel} {room : ServerRoom} {u : UserId} {list : List UserId}

theorem Listed.any_iff (h : Listed env c room) (hlist : ∀ v ∈ list, v ∈ c.users) (hu : u ∈ c.users) :
    (list.any fun v ↦ ircStricmp (env.nickOf v) (env.nickOf u) = 0) = decide (u ∈ list) := by
  rw [Bool.eq_iff_iff, List.any_eq_true, decide_eq_true_iff]
  constructor
  · rintro ⟨v, hv, hsame⟩
    obtain rfl := h.distinct v (hlist v hv) u hu (by simpa using hsame)
    exact hv
  · exact fun hmem ↦ ⟨u, hmem, by simp [ircStricmp_eq_zero_iff]⟩

theorem filter_statusNicks {holds : CString → Bool}
    (hholds : ∀ u ∈ c.users, holds (env.nickOf u) = decide (u ∈ list)) :
    ((c.users.map env.nickOf).filter fun nick ↦ holds nick) = statusNicks env c list true ∧
      ((c.users.map env.nickOf).filter fun nick ↦ !holds nick) = statusNicks env c list false := by
  rw [List.filter_map, List.filter_map, statusNicks, statusNicks]
  constructor
  · refine congrArg (List.map env.nickOf) (List.filter_congr fun u hu ↦ ?_)
    rw [Function.comp_apply, hholds u hu]
    simp
  · refine congrArg (List.map env.nickOf) (List.filter_congr fun u hu ↦ ?_)
    rw [Function.comp_apply, hholds u hu]
    simp

theorem Listed.nodup_nicks (h : Listed env c room) : (c.users.map env.nickOf).Nodup := by
  refine h.nodup.map_on fun u hu v hv hsame ↦ h.distinct u hu v hv ?_
  rw [ircStricmp_eq_zero_iff, hsame]

theorem Listed.nodup_statusNicks (h : Listed env c room) (list : List UserId) (listed : Bool) :
    (statusNicks env c list listed).Nodup :=
  h.nodup_nicks.sublist (List.filter_sublist.map _)

theorem Listed.mem_statusNicks (h : Listed env c room) (hu : u ∈ c.users) (listed : Bool) :
    env.nickOf u ∈ statusNicks env c list listed ↔ decide (u ∈ list) = listed := by
  rw [statusNicks, List.mem_map]
  constructor
  · rintro ⟨v, hv, hsame⟩
    obtain ⟨hvc, hlisted⟩ := List.mem_filter.mp hv
    obtain rfl := h.distinct v hvc u hu (by rw [ircStricmp_eq_zero_iff, hsame])
    simpa using hlisted
  · exact fun hlisted ↦ ⟨u, List.mem_filter.mpr ⟨hu, by simpa using hlisted⟩, rfl⟩

theorem remembered_sublist (users : List CString) : (remembered users).Sublist users := by
  rw [remembered]
  split_ifs
  · exact List.dropLast_sublist users
  · exact List.Sublist.refl users

/-- The signs of a user of the channel. -/
theorem Listed.signs_eq (h : Listed env c room) (hu : u ∈ c.users) {holds : CString → Bool}
    (hholds : ∀ u ∈ c.users, holds (env.nickOf u) = decide (u ∈ list)) {set unset : List (List CString)}
    (hset : set.flatten = remembered ((c.users.map env.nickOf).filter fun nick ↦ holds nick))
    (hunset : unset.flatten = remembered ((c.users.map env.nickOf).filter fun nick ↦ !holds nick)) :
    (if holds (env.nickOf u) then batchSigns true set (env.nickOf u) else batchSigns false unset (env.nickOf u)) =
      statusSigns env c list u := by
  obtain ⟨hfilter, hfilter'⟩ := filter_statusNicks hholds
  rw [hfilter] at hset
  rw [hfilter'] at hunset
  have hnodup : set.flatten.Nodup := hset ▸ (h.nodup_statusNicks list true).sublist (remembered_sublist _)
  have hnodup' : unset.flatten.Nodup := hunset ▸ (h.nodup_statusNicks list false).sublist (remembered_sublist _)
  rw [hholds u hu, statusSigns, batchSigns_nodup hnodup, batchSigns_nodup hnodup', hset, hunset]
  by_cases hlist : u ∈ list
  · simp [hlist]
  · simp [hlist]

theorem signs_resetLines {letter : Char} (hletter : IsEntryLetter letter) (param : CString) (c : Channel) :
    signs letter param (resetLines c) = [] := by
  rw [signs, List.flatMap_eq_nil_iff]
  intro line hline
  exact lineSigns_plain letter param (fun hmem ↦ resetLines_plain hline letter hmem hletter) true _

theorem LinesOf.balanced {letters : List Char} {lines : List ModeLine} (h : LinesOf letters lines) :
    ∀ line ∈ lines, Balanced line := by
  intro line hline
  obtain ⟨letter, -, hletter, add, p, rfl⟩ := h line hline
  rw [Balanced, paramLetters]
  cases add with
  | true => exact (paramLetters_replicate hletter true p.length).symm
  | false => exact (paramLetters_replicate hletter false p.length).symm

/-- What `do_sync` sends: the modes and then batches. -/
theorem Listed.syncLines_spec (h : Listed env c room) :
    (MasksFit [] c.newbans → ∃ entries, syncLines env c = some (resetLines c ++ entries) ∧
      LinesOf ['b', 'o', 'v'] entries ∧
      (∀ mask, Resent (c.newbans.count mask) (signs 'b' mask entries)) ∧
      ∀ u ∈ c.users, signs 'o' (env.nickOf u) entries = statusSigns env c c.chanops u ∧
        signs 'v' (env.nickOf u) entries = statusSigns env c c.voices u) ∧
      (¬ MasksFit [] c.newbans → syncLines env c = none) := by
  obtain ⟨hfit, hover⟩ := syncBans_spec c.newbans h.mask
  rw [syncLines]
  constructor
  · intro hmasksFit
    obtain ⟨batches, hbatches, hbans⟩ := hfit hmasksFit
    have hnicks : ∀ nick ∈ c.users.map env.nickOf, IsNick nick := fun nick hnick ↦ by
      obtain ⟨u, hu, rfl⟩ := List.mem_map.mp hnick
      exact h.nick u hu
    obtain ⟨lines, ops, nonops, voices, nonvoices, hlines, hof, hops, hnonops, hvoices, hnonvoices, hopSigns,
      hvoiceSigns⟩ := syncUsers_spec (isChanop env c) (isVoiced env c) _ hnicks
    have hbanLines : LinesOf ['b'] (batches.flatMap (entryLines 'b' true)) :=
      linesOf_entryLines (.inl rfl) (List.mem_singleton_self 'b') true batches
    rw [hbans, Option.bind_some, hlines, Option.map_some, List.append_assoc]
    refine ⟨_, rfl, (hbanLines.mono (by simp)).append (hof.mono (by simp)), fun mask ↦ ?_, fun u hu ↦ ⟨?_, ?_⟩⟩
    · rw [signs_append, hof.signs_eq_nil (by simp), List.append_nil, signs_entryLines (.inl rfl), if_pos rfl,
        ← hbatches]
      exact resent_batchSigns batches mask
    · rw [signs_append, hbanLines.signs_eq_nil (by simp), List.nil_append, hopSigns]
      exact h.signs_eq hu (fun v hv ↦ h.any_iff h.chanops hv) hops hnonops
    · rw [signs_append, hbanLines.signs_eq_nil (by simp), List.nil_append, hvoiceSigns]
      exact h.signs_eq hu (fun v hv ↦ h.any_iff h.voices hv) hvoices hnonvoices
  · intro hnot
    rw [hover hnot]
    rfl

/-! ### When everything is sent -/

/-- The server has what services have in memory. -/
structure Synced (env : CmodeEnv) (c : Channel) (room : ServerRoom) : Prop where
  mode : room.chan.mode &&& flagMask = c.mode &&& flagMask
  key : room.chan.key = c.key
  limit : room.chan.limit = c.limit.toNat
  bans : ∀ mask, mask ∈ room.bans ↔ mask ∈ c.newbans
  ops : ∀ u ∈ c.users, env.nickOf u ∈ room.ops ↔ u ∈ c.chanops
  voices : ∀ u ∈ c.users, env.nickOf u ∈ room.voices ↔ u ∈ c.voices

/-- Every ban is taken and given again, and so is every status of a user who has it. A status that a user does
not have is only taken. The lines can be read, and bring the server to what services have in memory. -/
structure SyncRight (env : CmodeEnv) (c : Channel) (room : ServerRoom) (lines : List ModeLine) : Prop where
  bans : ∀ mask, Resent (c.newbans.count mask) (signs 'b' mask lines)
  ops : ∀ u ∈ c.users, signs 'o' (env.nickOf u) lines = if u ∈ c.chanops then [false, true] else [false]
  voices : ∀ u ∈ c.users, signs 'v' (env.nickOf u) lines = if u ∈ c.voices then [false, true] else [false]
  balanced : ∀ line ∈ lines, Balanced line
  synced : Synced env c (lines.foldl serverRoom room)

/-- No class of users has its last one forgotten, the masks fit into their buffer, the limit is positive as an
`int`, and the server has no unknown ban. -/
structure SyncMeets (env : CmodeEnv) (c : Channel) (room : ServerRoom) : Prop where
  ops : ∀ listed, ¬ Forgets (statusNicks env c c.chanops listed)
  voices : ∀ listed, ¬ Forgets (statusNicks env c c.voices listed)
  masks : MasksFit [] c.newbans
  limit : 0 ≤ c.limit.toInt
  known : ∀ mask ∈ room.bans, mask ∈ c.newbans

theorem Listed.statusSigns_iff (h : Listed env c room) (list : List UserId) :
    (∀ u ∈ c.users, statusSigns env c list u = if u ∈ list then [false, true] else [false]) ↔
      ∀ listed, ¬ Forgets (statusNicks env c list listed) := by
  constructor
  · intro hright listed hforgets
    have hne : statusNicks env c list listed ≠ [] := List.length_pos_iff.mp hforgets.1
    obtain ⟨u, hu, hlast⟩ := List.mem_map.mp (List.getLast_mem hne)
    obtain ⟨hu, hlisted⟩ := List.mem_filter.mp hu
    have hlisted : decide (u ∈ list) = listed := by simpa using hlisted
    have hnot : env.nickOf u ∉ remembered (statusNicks env c list (u ∈ list)) := by
      rw [hlisted, remembered, if_pos hforgets, hlast]
      have hnodup := h.nodup_statusNicks list listed
      rw [← List.dropLast_append_getLast hne, List.nodup_append] at hnodup
      intro hmem
      exact hnodup.2.2 _ hmem _ (List.mem_singleton_self _) rfl
    have hsigns := hright u hu
    rw [statusSigns, if_neg hnot] at hsigns
    split_ifs at hsigns
  · intro hall u hu
    rw [statusSigns, remembered, if_neg (hall _), if_pos ((h.mem_statusNicks hu _).mpr rfl)]

theorem after_status (before : Prop) (p : Prop) [Decidable p] :
    After before (if p then [false, true] else [false]) ↔ p := by
  by_cases hp : p
  · rw [if_pos hp]
    exact iff_of_true rfl hp
  · rw [if_neg hp]
    exact iff_of_false (fun h ↦ Bool.false_ne_true h) hp

theorem after_resent {n : ℕ} {l : List Bool} (h : Resent n l) (before : Prop) :
    After before l ↔ n ≠ 0 ∨ before := by
  by_cases hn : n = 0
  · subst hn
    rw [resent_zero h, after_nil]
    simp
  · rw [After, resent_last h hn]
    exact iff_of_true rfl (.inl hn)

/-- The lines are right exactly under the condition. -/
theorem Listed.syncRight_iff (h : Listed env c room) :
    (∃ lines, syncLines env c = some lines ∧ SyncRight env c room lines) ↔ SyncMeets env c room := by
  obtain ⟨hfit, hover⟩ := h.syncLines_spec
  by_cases hmasks : MasksFit [] c.newbans
  · obtain ⟨entries, hlines, hof, hbans, hstatus⟩ := hfit hmasks
    have hsigns {letter : Char} (hletter : IsEntryLetter letter) (param : CString) :
        signs letter param (resetLines c ++ entries) = signs letter param entries := by
      rw [signs_append, signs_resetLines hletter, List.nil_append]
    have hreset := foldl_resetLines c room
    have hroom (other : Char) (x : CString) (hother : IsEntryLetter other) (hx : other = 'b' ∨ x ∈ room.members) :
        (x ∈ ((resetLines c ++ entries).foldl serverRoom room).entries other ↔
          After (x ∈ room.entries other) (signs other x entries)) ∧
          ((resetLines c ++ entries).foldl serverRoom room).chan = ((resetLines c).foldl serverRoom room).chan := by
      obtain ⟨hmem, hchan, -⟩ := foldl_serverRoom ((resetLines c).foldl serverRoom room) (x := x) hof hother
        (by rw [hreset]; exact hx)
      rw [List.foldl_append]
      refine ⟨?_, hchan⟩
      rw [hmem, hreset]
      rfl
    have hchan := (hroom 'b' [] (.inl rfl) (.inl rfl)).2
    rw [hreset] at hchan
    have hbanIff (mask : CString) : mask ∈ ((resetLines c ++ entries).foldl serverRoom room).bans ↔
        mask ∈ c.newbans ∨ mask ∈ room.bans := by
      have hmem := (hroom 'b' mask (.inl rfl) (.inl rfl)).1
      rw [after_resent (hbans mask), ne_eq, List.count_eq_zero, not_not] at hmem
      exact hmem
    constructor
    · rintro ⟨lines, hlines', hright⟩
      rw [hlines] at hlines'
      obtain rfl := Option.some.inj hlines'
      refine ⟨?_, ?_, hmasks, ?_, fun mask hmask ↦ ?_⟩
      · rw [← h.statusSigns_iff]
        intro u hu
        rw [← (hstatus u hu).1, ← hsigns (.inr (.inl rfl)), hright.ops u hu]
      · rw [← h.statusSigns_iff]
        intro u hu
        rw [← (hstatus u hu).2, ← hsigns (.inr (.inr rfl)), hright.voices u hu]
      · by_contra hnegative
        have hlimit := hright.synced.limit
        rw [hchan] at hlimit
        have hnot : ¬ 0 < c.limit.toInt := by omega
        dsimp only at hlimit
        rw [if_neg hnot] at hlimit
        have hzero : c.limit = 0#32 := BitVec.eq_of_toNat_eq hlimit.symm
        rw [hzero] at hnegative
        exact hnegative le_rfl
      · exact (hright.synced.bans mask).mp ((hbanIff mask).mpr (.inr hmask))
    · intro hmeets
      have hops := (h.statusSigns_iff c.chanops).mpr hmeets.ops
      have hvoices := (h.statusSigns_iff c.voices).mpr hmeets.voices
      refine ⟨_, hlines, ⟨fun mask ↦ ?_, fun u hu ↦ ?_, fun u hu ↦ ?_, fun line hline ↦ ?_, ?_⟩⟩
      · rw [hsigns (.inl rfl)]
        exact hbans mask
      · rw [hsigns (.inr (.inl rfl)), (hstatus u hu).1, hops u hu]
      · rw [hsigns (.inr (.inr rfl)), (hstatus u hu).2, hvoices u hu]
      · rcases List.mem_append.mp hline with hline | hline
        · exact resetLines_balanced hline
        · exact hof.balanced line hline
      · refine ⟨?_, ?_, ?_, fun mask ↦ ?_, fun u hu ↦ ?_, fun u hu ↦ ?_⟩
        · rw [hchan]
          dsimp only
          simp [BitVec.and_or_distrib_right, BitVec.and_assoc]
        · rw [hchan]
        · rw [hchan]
          dsimp only
          have hnat : c.limit.toInt = c.limit.toNat := by
            have hlimit := hmeets.limit
            rw [BitVec.toInt_eq_toNat_cond] at hlimit ⊢
            split_ifs at hlimit ⊢
            · rfl
            · have hlt := c.limit.isLt
              omega
          rw [hnat]
          split_ifs with hpos
          · rfl
          · omega
        · rw [hbanIff]
          exact or_iff_left_of_imp (hmeets.known mask)
        · have hmem := (hroom 'o' (env.nickOf u) (.inr (.inl rfl)) (.inr (h.members u hu))).1
          rw [(hstatus u hu).1, hops u hu, after_status] at hmem
          exact hmem
        · have hmem := (hroom 'v' (env.nickOf u) (.inr (.inr rfl)) (.inr (h.members u hu))).1
          rw [(hstatus u hu).2, hvoices u hu, after_status] at hmem
          exact hmem
  · refine iff_of_false ?_ fun hmeets ↦ hmasks hmeets.masks
    rintro ⟨lines, hlines, -⟩
    rw [hover hmasks] at hlines
    cases hlines

variable {findchan : CString → Option Channel} {flagsOf : ℕ → Option (BitVec 32)} {checkAccess : ℕ → ℕ → Bool}
  {chan : CString} {flags : BitVec 32}

/-- A request that is not refused sends the lines. -/
theorem doSync_accepted (hfound : findchan chan = some c) (hflags : flagsOf c.channelId = some flags)
    (hallowed : flags &&& CI_VERBOTEN = 0#32) (haccess : checkAccess c.channelId CA_SYNC) :
    doSync env findchan flagsOf checkAccess (some chan) =
      (syncLines env c).map (.synced (flags &&& CI_VERBOSE ≠ 0#32)) := by
  rw [doSync]
  simp only [hfound, hflags, hallowed, haccess, ne_eq, not_true, if_false]

/-- A SYNC that is not refused sends every ban and every status as it should and leaves the server with what
services have in memory iff the condition holds. -/
theorem doSync_right_iff (h : Listed env c room) (hfound : findchan chan = some c)
    (hflags : flagsOf c.channelId = some flags) (hallowed : flags &&& CI_VERBOTEN = 0#32)
    (haccess : checkAccess c.channelId CA_SYNC) :
    (∃ verbose lines, doSync env findchan flagsOf checkAccess (some chan) = some (.synced verbose lines) ∧
      SyncRight env c room lines) ↔ SyncMeets env c room := by
  rw [doSync_accepted hfound hflags hallowed haccess, ← h.syncRight_iff]
  constructor
  · rintro ⟨verbose, lines, hreply, hright⟩
    obtain ⟨lines', hlines, heq⟩ := Option.map_eq_some_iff.mp hreply
    obtain ⟨-, rfl⟩ := SyncReply.synced.inj heq
    exact ⟨lines', hlines, hright⟩
  · rintro ⟨lines, hlines, hright⟩
    exact ⟨_, lines, by rw [hlines, Option.map_some], hright⟩

end Sending

/-! ### Channels -/

/-- The users of a channel have one-letter nicks. -/
def letterEnv : CmodeEnv := { bareEnv with nickOf := fun u ↦ [Char.ofNat (97 + u)] }

/-- A channel with users `0` and `1`, an op and a ban. -/
def smallChannel : Channel :=
  { bareChannel 0 0 none 0 with users := [0, 1], chanops := [0], newbans := [['m']] }

/-- The server has both users without a status. -/
def smallRoom : ServerRoom := ⟨⟨0, 0, none⟩, [['a'], ['b']], [], [], []⟩

theorem doSync_right_iff_smallChannel :
    ∃ verbose lines, doSync letterEnv (fun _ ↦ some smallChannel) (fun _ ↦ some 0#32) (fun _ _ ↦ true)
        (some ['#', 'c']) = some (.synced verbose lines) ∧
      SyncRight letterEnv smallChannel smallRoom lines := by
  have hlisted : Listed letterEnv smallChannel smallRoom := by
    refine ⟨by decide, by decide, by decide, by decide, ?_, ?_, by decide⟩
    · simp [smallChannel, letterEnv, IsNick, IsWord, Users.NICKMAX]
    · simp [smallChannel, IsWord]
  refine (doSync_right_iff hlisted rfl rfl rfl rfl).mpr ⟨by decide, by decide, ?_, by decide, by decide⟩
  simp [smallChannel, MasksFit, joined]

/-- Six ops. -/
def sixOps : Channel :=
  { bareChannel 0 0 none 0 with users := [0, 1, 2, 3, 4, 5], chanops := [0, 1, 2, 3, 4, 5] }

/-- Three masks that come to 256 characters with the spaces between them. -/
def longMasks : Channel :=
  { bareChannel 0 0 none 0 with
    newbans := [List.replicate 84 'm', List.replicate 85 'm', List.replicate 85 'm'] }

/-- The sixth of six ops is not sent, and three masks are written past the end of their buffer. -/
theorem sync_not_complete :
    (Listed letterEnv sixOps ⟨⟨0, 0, none⟩, sixOps.users.map letterEnv.nickOf, [], [], []⟩ ∧
      ¬ ∃ lines, syncLines letterEnv sixOps = some lines ∧
        SyncRight letterEnv sixOps ⟨⟨0, 0, none⟩, sixOps.users.map letterEnv.nickOf, [], [], []⟩ lines) ∧
      syncLines letterEnv longMasks = none := by
  constructor
  · have hlisted : Listed letterEnv sixOps ⟨⟨0, 0, none⟩, sixOps.users.map letterEnv.nickOf, [], [], []⟩ := by
      refine ⟨by decide, by decide, by decide, by decide, ?_, by simp [sixOps, bareChannel], by decide⟩
      simp [sixOps, letterEnv, IsNick, IsWord, Users.NICKMAX]
    refine ⟨hlisted, ?_⟩
    rw [hlisted.syncRight_iff]
    exact fun hmeets ↦ hmeets.ops true (by decide)
  · decide +kernel

end BlitzedServices.ChanServ
