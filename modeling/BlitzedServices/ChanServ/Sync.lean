import BlitzedServices.ChanServ.CheckModes
import BlitzedServices.ChanServ.Access
import BlitzedServices.Channels.Bans
import BlitzedServices.Users.UserTable

/-!
# Sending the modes of a channel again

SYNC resets the modes of a channel at the servers and puts them back, then takes and gives every ban and the
status of every user in batches. A batch is a buffer of mode letters and one of parameters, which are sent when
there is no room for the next entry. `strcat` past the end of a buffer is the outcome `none`.

The count of a batch of users is raised before the batch is sent and not after it, so that the count behind a sent
batch leaves out the user in it: `gatherAll_spec` says what is sent and when the last user is forgotten. Bans are
counted behind their entry; `syncBans_spec` says that all are sent, if they fit.
-/

set_option autoImplicit false
set_option relaxedAutoImplicit false

namespace BlitzedServices.ChanServ

open Lib Channels Misc

def CI_VERBOSE : BitVec 32 := 0x800#32

/-! ### Batches -/

/-- `strcat` into an array. -/
def strcat (size : ℕ) (dst src : CString) : Option CString :=
  if dst.length + src.length < size then some (dst ++ src) else none

/-- The count, the letters and the parameters of a batch. -/
structure Batch where
  count : ℕ
  modebuf : CString
  cmdbuf : CString

/-- The buffers after `memset`. -/
def Batch.empty : Batch := ⟨0, [], []⟩

/-- A letter and its parameter are appended. -/
def Batch.append (letter : Char) (param : CString) (b : Batch) : Option Batch :=
  (strcat 7 b.modebuf [letter]).bind fun modebuf ↦
    (if b.cmdbuf ≠ [] then strcat 256 b.cmdbuf [' '] else some b.cmdbuf).bind fun cmdbuf ↦
      (strcat 256 cmdbuf param).map fun cmdbuf ↦ ⟨b.count, modebuf, cmdbuf⟩

/-- The parameters in a text. -/
def words (s : CString) : List CString := (s.splitOn ' ').filter (· ≠ [])

/-- `MODE %s -%s %s`, and with the other sign. -/
def Batch.line (sign : Char) (b : Batch) : ModeLine := ⟨sign :: b.modebuf, words b.cmdbuf⟩

/-- The lines of a batch: the entries are taken, and given again or not. -/
def Batch.lines (resend : Bool) (b : Batch) : List ModeLine :=
  b.line '-' :: if resend then [b.line '+'] else []

/-- There is no room for the parameter in the buffer. -/
def Batch.IsFull (param : CString) (b : Batch) : Prop := 256 < b.cmdbuf.length + param.length + 1

instance (param : CString) (b : Batch) : Decidable (b.IsFull param) := inferInstanceAs (Decidable (_ < _))

/-- The body of the loop over the bans, and `bcount++`. -/
def syncBan (st : Batch × List ModeLine) (mask : CString) : Option (Batch × List ModeLine) :=
  let st := if st.1.count = 6 ∨ st.1.IsFull mask then (.empty, st.2 ++ st.1.lines true) else st
  (st.1.append 'b' mask).map fun b ↦ ({ b with count := b.count + 1 }, st.2)

/-- The lines for the bans. -/
def syncBans (newbans : List CString) : Option (List ModeLine) :=
  (newbans.foldlM syncBan (.empty, [])).map fun (b, sent) ↦
    if b.count ≠ 0 then sent ++ b.lines true else sent

/-- A user is added to a batch. -/
def Batch.addNick (letter : Char) (resend : Bool) (nick : CString) (b : Batch) (sent : List ModeLine) :
    Option (Batch × List ModeLine) :=
  let st := if b.count + 1 = 6 ∨ b.IsFull nick then (.empty, sent ++ b.lines resend)
    else ({ b with count := b.count + 1 }, sent)
  (st.1.append letter nick).map fun b ↦ (b, st.2)

/-- The batches of the users with and without a status. -/
structure Gathering where
  set : Batch
  unset : Batch

/-- No users yet. -/
def Gathering.empty : Gathering := ⟨.empty, .empty⟩

/-- A user is added to one of the two batches for a letter. -/
def Gathering.add (letter : Char) (holds : Bool) (nick : CString) (g : Gathering) (sent : List ModeLine) :
    Option (Gathering × List ModeLine) :=
  if holds then (g.set.addNick letter true nick sent).map fun (b, sent) ↦ ({ g with set := b }, sent)
  else (g.unset.addNick letter false nick sent).map fun (b, sent) ↦ ({ g with unset := b }, sent)

/-- What is left of two batches. -/
def Gathering.rest (g : Gathering) : List ModeLine :=
  (if g.set.count ≠ 0 then g.set.lines true else []) ++ if g.unset.count ≠ 0 then g.unset.lines false else []

/-- `is_chanop` on the channel. -/
def isChanop (env : CmodeEnv) (c : Channel) (nick : CString) : Bool :=
  c.chanops.any fun u ↦ ircStricmp (env.nickOf u) nick = 0

/-- `is_voiced` on the channel. -/
def isVoiced (env : CmodeEnv) (c : Channel) (nick : CString) : Bool :=
  c.voices.any fun u ↦ ircStricmp (env.nickOf u) nick = 0

/-- The body of the loop over the users. -/
def syncUser (isOp isVoice : CString → Bool) (st : Gathering × Gathering × List ModeLine) (nick : CString) :
    Option (Gathering × Gathering × List ModeLine) :=
  (st.1.add 'o' (isOp nick) nick st.2.2).bind fun (ops, sent) ↦
    (st.2.1.add 'v' (isVoice nick) nick sent).map fun (voices, sent) ↦ (ops, voices, sent)

/-- The lines for the users. -/
def syncUsers (isOp isVoice : CString → Bool) (nicks : List CString) : Option (List ModeLine) :=
  (nicks.foldlM (syncUser isOp isVoice) (.empty, .empty, [])).map fun (ops, voices, sent) ↦
    sent ++ ops.rest ++ voices.rest

/-! ### The whole command -/

/-- The modes without a parameter, in the order of `do_sync`. -/
def syncTable : List (Char × BitVec 32) :=
  [('c', CMODE_c), ('i', CMODE_i), ('m', CMODE_m), ('M', CMODE_M), ('n', CMODE_n), ('O', CMODE_O),
    ('p', CMODE_p), ('R', CMODE_R), ('s', CMODE_s), ('t', CMODE_t)]

/-- The modes are reset and put back. -/
def resetLines (c : Channel) : List ModeLine :=
  [⟨['-', 'c', 'i', 'm', 'M', 'n', 'O', 'p', 'R', 's', 't', 'l', 'k'], [c.key.getD []]⟩,
    ⟨'+' :: (syncTable.filter fun (_, flag) ↦ c.mode &&& flag ≠ 0#32).map Prod.fst, []⟩] ++
    (match c.key with
      | some key => [⟨['+', 'k'], [key]⟩]
      | none => []) ++
    if c.limit ≠ 0#32 then [⟨['+', 'l'], [decimal c.limit.toInt]⟩] else []

/-- The MODE lines of `do_sync`. -/
def syncLines (env : CmodeEnv) (c : Channel) : Option (List ModeLine) :=
  (syncBans c.newbans).bind fun bans ↦
    (syncUsers (isChanop env c) (isVoiced env c) (c.users.map env.nickOf)).map fun users ↦
      resetLines c ++ bans ++ users

/-- The answers of `do_sync`, of which the last has the notice to the ops and the MODE lines. -/
inductive SyncReply
  | CHAN_SYNC_SYNTAX
  | CHAN_X_NOT_IN_USE
  | CHAN_X_NOT_REGISTERED
  | CHAN_X_FORBIDDEN
  | PERMISSION_DENIED
  | synced (verbose : Bool) (lines : List ModeLine)

/-- `do_sync` with the channels in use, the flags of the registered ones and the access of the user. -/
def doSync (env : CmodeEnv) (findchan : CString → Option Channel) (flagsOf : ℕ → Option (BitVec 32))
    (checkAccess : ℕ → ℕ → Bool) (chan : Option CString) : Option SyncReply :=
  match chan with
  | none => some .CHAN_SYNC_SYNTAX
  | some chan =>
    match findchan chan with
    | none => some .CHAN_X_NOT_IN_USE
    | some c =>
      match flagsOf c.channelId with
      | none => some .CHAN_X_NOT_REGISTERED
      | some flags =>
        if flags &&& CI_VERBOTEN ≠ 0#32 then some .CHAN_X_FORBIDDEN
        else if ¬ checkAccess c.channelId CA_SYNC then some .PERMISSION_DENIED
        else (syncLines env c).map (.synced (flags &&& CI_VERBOSE ≠ 0#32))

/-! ### What a line changes -/

/-- The signs with which a line names a parameter behind a letter. -/
def lineSigns (letter : Char) (param : CString) : Bool → CString → List CString → List Bool
  | _, [], _ => []
  | add, c :: letters, params =>
    if c = '+' then lineSigns letter param true letters params
    else if c = '-' then lineSigns letter param false letters params
    else if c = 'b' ∨ takesParam c add then
      (if c = letter ∧ params.head? = some param then [add] else []) ++
        lineSigns letter param add letters params.tail
    else lineSigns letter param add letters params

/-- The signs with which some lines name a parameter behind a letter, one after the other. -/
def signs (letter : Char) (param : CString) (lines : List ModeLine) : List Bool :=
  lines.flatMap fun line ↦ lineSigns letter param true line.letters line.params

/-- How many letters of a line take a parameter. -/
def paramLetters : Bool → CString → ℕ
  | _, [] => 0
  | add, c :: letters =>
    if c = '+' then paramLetters true letters
    else if c = '-' then paramLetters false letters
    else if c = 'b' ∨ takesParam c add then paramLetters add letters + 1
    else paramLetters add letters

/-- A line has as many parameters as letters that take one. -/
def Balanced (line : ModeLine) : Prop := line.params.length = paramLetters true line.letters

/-- A text that is one parameter. -/
def IsWord (s : CString) : Prop := s ≠ [] ∧ ' ' ∉ s

/-- The lines of a batch. -/
def entryLines (letter : Char) (resend : Bool) (p : List CString) : List ModeLine :=
  ⟨'-' :: List.replicate p.length letter, p⟩ ::
    if resend then [⟨'+' :: List.replicate p.length letter, p⟩] else []

/-- The signs with which some batches name a parameter. -/
def batchSigns (resend : Bool) (batches : List (List CString)) (param : CString) : List Bool :=
  batches.flatMap fun p ↦
    List.replicate (p.count param) false ++ if resend then List.replicate (p.count param) true else []

section Lines

variable {letter : Char} {p : List CString} {s t : CString} {b : Batch}

/-- The letters of bans and statuses. -/
def IsEntryLetter (letter : Char) : Prop := letter = 'b' ∨ letter = 'o' ∨ letter = 'v'

theorem IsEntryLetter.spec (h : IsEntryLetter letter) (add : Bool) :
    letter ≠ '+' ∧ letter ≠ '-' ∧ (letter = 'b' ∨ takesParam letter add) := by
  rcases h with rfl | rfl | rfl
  · exact ⟨by decide, by decide, .inl rfl⟩
  · exact ⟨by decide, by decide, .inr rfl⟩
  · exact ⟨by decide, by decide, .inr rfl⟩

theorem lineSigns_replicate (h : IsEntryLetter letter) (other : Char) (param : CString) (add : Bool)
    (p : List CString) :
    lineSigns other param add (List.replicate p.length letter) p =
      if letter = other then List.replicate (p.count param) add else [] := by
  obtain ⟨hplus, hminus, htakes⟩ := h.spec add
  induction p with
  | nil => simp [lineSigns]
  | cons s p ih =>
    rw [List.length_cons, List.replicate_succ, lineSigns, if_neg hplus, if_neg hminus, if_pos htakes,
      List.tail_cons, ih, List.head?_cons, List.count_cons]
    by_cases hletter : letter = other
    · by_cases hs : s = param
      · simp [hletter, hs, List.replicate_succ]
      · simp [hletter, hs]
    · simp [hletter]

theorem paramLetters_replicate (h : IsEntryLetter letter) (add : Bool) (n : ℕ) :
    paramLetters add (List.replicate n letter) = n := by
  obtain ⟨hplus, hminus, htakes⟩ := h.spec add
  induction n with
  | zero => rfl
  | succ n ih => rw [List.replicate_succ, paramLetters, if_neg hplus, if_neg hminus, if_pos htakes, ih]

theorem signs_append (letter : Char) (param : CString) (lines more : List ModeLine) :
    signs letter param (lines ++ more) = signs letter param lines ++ signs letter param more :=
  List.flatMap_append

/-- The lines of a batch name its entries. -/
theorem signs_entryLines (h : IsEntryLetter letter) (other : Char) (param : CString) (resend : Bool)
    (batches : List (List CString)) :
    signs other param (batches.flatMap (entryLines letter resend)) =
      if letter = other then batchSigns resend batches param else [] := by
  have hline (sign : Char) (add : Bool) (p : List CString) (hsign : sign = if add then '+' else '-') :
      lineSigns other param true (sign :: List.replicate p.length letter) p =
        if letter = other then List.replicate (p.count param) add else [] := by
    rw [hsign, lineSigns]
    cases add with
    | true => exact lineSigns_replicate h other param true p
    | false => exact lineSigns_replicate h other param false p
  induction batches with
  | nil => simp [signs, batchSigns]
  | cons p batches ih =>
    rw [List.flatMap_cons, signs_append, ih]
    have hbatch : signs other param (entryLines letter resend p) =
        if letter = other then List.replicate (p.count param) false ++
          if resend then List.replicate (p.count param) true else [] else [] := by
      cases resend with
      | false =>
        simp only [entryLines, signs, List.flatMap_cons, List.flatMap_nil, List.append_nil, Bool.false_eq_true,
          if_false, hline '-' false p rfl]
      | true =>
        simp only [entryLines, signs, List.flatMap_cons, List.flatMap_nil, List.append_nil, if_true,
          hline '-' false p rfl, hline '+' true p rfl]
        split_ifs <;> rfl
    rw [hbatch]
    by_cases hletter : letter = other
    · simp only [hletter, if_true, batchSigns, List.flatMap_cons]
    · simp only [hletter, if_false, List.append_nil]

end Lines

/-! ### Filling a batch -/

section Filling

variable {letter : Char} {p : List CString} {s : CString} {b : Batch} {sent : List ModeLine}

/-- The text with the parameters of a batch. -/
def joined (p : List CString) : CString := [' '].intercalate p

/-- The buffers of a batch have some parameters. -/
structure Holds (letter : Char) (p : List CString) (b : Batch) : Prop where
  modebuf : b.modebuf = List.replicate p.length letter
  cmdbuf : b.cmdbuf = joined p
  isWord : ∀ s ∈ p, IsWord s

theorem holds_empty (letter : Char) : Holds letter [] .empty :=
  ⟨rfl, rfl, List.forall_mem_nil _⟩

theorem joined_concat (p : List CString) (s : CString) :
    joined (p ++ [s]) = joined p ++ (if p ≠ [] then [' '] else []) ++ s := by
  induction p with
  | nil => simp [joined]
  | cons t p ih =>
    rw [if_pos (List.cons_ne_nil t p)]
    cases p with
    | nil => simp [joined]
    | cons u p =>
      rw [if_pos (List.cons_ne_nil u p)] at ih
      have hcons (q : List CString) : joined (t :: u :: q) = t ++ [' '] ++ joined (u :: q) :=
        List.intercalate_cons_cons
      rw [List.cons_append, List.cons_append, hcons, hcons, ← List.cons_append, ih]
      simp only [List.append_assoc]

theorem joined_ne_nil_iff (hp : ∀ s ∈ p, IsWord s) : joined p ≠ [] ↔ p ≠ [] := by
  cases p with
  | nil => exact iff_of_false (fun h ↦ h rfl) (fun h ↦ h rfl)
  | cons s p =>
    refine iff_of_true ?_ (List.cons_ne_nil s p)
    have hs := (hp s (List.mem_cons_self ..)).1
    cases p with
    | nil => simpa [joined] using hs
    | cons t p =>
      rw [joined, List.intercalate_cons_cons]
      simp

theorem words_joined (hp : ∀ s ∈ p, IsWord s) : words (joined p) = p := by
  by_cases hnil : p = []
  · rw [hnil]
    rfl
  · rw [words, joined, List.splitOn_intercalate ' ' (fun s hs ↦ (hp s hs).2) hnil, List.filter_eq_self]
    exact fun s hs ↦ by simpa using (hp s hs).1

theorem Holds.lines (h : Holds letter p b) (resend : Bool) : b.lines resend = entryLines letter resend p := by
  rw [Batch.lines, entryLines, Batch.line, Batch.line, h.modebuf, h.cmdbuf, words_joined h.isWord]

theorem strcat_eq (size : ℕ) (dst src : CString) :
    strcat size dst src = if (dst ++ src).length < size then some (dst ++ src) else none := by
  rw [strcat, List.length_append]

theorem strcat_map (size : ℕ) (dst src : CString) (f : CString → Batch) :
    (strcat size dst src).map f = if (dst ++ src).length < size then some (f (dst ++ src)) else none := by
  rw [strcat_eq]
  split_ifs <;> rfl

/-- A parameter is appended if there is room for it and a NUL. -/
theorem Holds.append (h : Holds letter p b) (hp : p.length < 6) (s : CString) :
    b.append letter s = if (joined (p ++ [s])).length < 256 then
      some ⟨b.count, List.replicate (p ++ [s]).length letter, joined (p ++ [s])⟩ else none := by
  have hmode : strcat 7 b.modebuf [letter] = some (List.replicate (p ++ [s]).length letter) := by
    rw [strcat, h.modebuf, if_pos (by simp; omega), List.length_append, List.length_singleton,
      List.replicate_succ']
  rw [Batch.append, hmode, Option.bind_some, joined_concat]
  have hne : b.cmdbuf ≠ [] ↔ p ≠ [] := by
    rw [h.cmdbuf]
    exact joined_ne_nil_iff h.isWord
  by_cases hnil : p = []
  · rw [if_neg (hne.not.mpr (not_not.mpr hnil)), Option.bind_some, if_neg (not_not.mpr hnil), List.append_nil,
      h.cmdbuf, strcat_map]
  · rw [if_pos (hne.mpr hnil), if_pos hnil, h.cmdbuf]
    by_cases hspace : (joined p ++ [' ']).length < 256
    · rw [strcat_eq, if_pos hspace, Option.bind_some, strcat_map]
    · have hlong : ¬ (joined p ++ [' '] ++ s).length < 256 := by
        rw [List.length_append]
        omega
      rw [strcat_eq, if_neg hspace, if_neg hlong]
      rfl

theorem Holds.of_append (h : Holds letter p b) (hs : IsWord s) (count : ℕ) :
    Holds letter (p ++ [s]) ⟨count, List.replicate (p ++ [s]).length letter, joined (p ++ [s])⟩ := by
  refine ⟨rfl, rfl, fun t ht ↦ ?_⟩
  rcases List.mem_append.mp ht with ht | ht
  · exact h.isWord t ht
  · exact List.mem_singleton.mp ht ▸ hs

end Filling

/-! ### Bans -/

section Bans

/-- Masks behind those of a batch: with up to six in a batch, and none that has no room, no batch comes to 256
characters, which leaves no place for the NUL. -/
def MasksFit : List CString → List CString → Prop
  | _, [] => True
  | p, mask :: masks =>
    let next := if p.length = 6 ∨ 256 < (joined p).length + mask.length + 1 then [mask] else p ++ [mask]
    (joined next).length < 256 ∧ MasksFit next masks

variable {p : List CString} {b : Batch}

/-- One ban. -/
theorem syncBan_eq (sent : List ModeLine) (h : Holds 'b' p b) (hcount : b.count = p.length) (hp : p.length ≤ 6)
    (mask : CString) :
    ∃ (sending : List (List CString)) (next : List CString), syncBan (b, sent) mask = (if (joined next).length < 256 then
        some (⟨next.length, List.replicate next.length 'b', joined next⟩,
          sent ++ sending.flatMap (entryLines 'b' true)) else none) ∧
      next = (if p.length = 6 ∨ 256 < (joined p).length + mask.length + 1 then [mask] else p ++ [mask]) ∧
      sending.flatten ++ next = p ++ [mask] ∧ next.length ≤ 6 := by
  have hfull : b.IsFull mask ↔ 256 < (joined p).length + mask.length + 1 := by rw [Batch.IsFull, h.cmdbuf]
  rw [syncBan]
  dsimp only
  by_cases hflush : p.length = 6 ∨ 256 < (joined p).length + mask.length + 1
  · refine ⟨[p], [mask], ?_, (if_pos hflush).symm, by simp, by simp⟩
    have hsend : b.count = 6 ∨ b.IsFull mask := by rwa [hcount, hfull]
    rw [if_pos hsend, (holds_empty 'b').append (Nat.succ_pos 5), h.lines, List.flatMap_singleton,
      List.nil_append]
    split_ifs <;> rfl
  · refine ⟨[], p ++ [mask], ?_, (if_neg hflush).symm, by simp, ?_⟩
    · have hsend : ¬ (b.count = 6 ∨ b.IsFull mask) := by rwa [hcount, hfull]
      rw [if_neg hsend, h.append (by omega), List.flatMap_nil, List.append_nil, hcount]
      split_ifs
      · rw [List.length_append]
        rfl
      · rfl
    · rw [List.length_append, List.length_singleton]
      omega

theorem foldlM_syncBan (sent : List ModeLine) (h : Holds 'b' p b) (hcount : b.count = p.length) (hp : p.length ≤ 6)
    (masks : List CString) (hmasks : ∀ mask ∈ masks, IsWord mask) :
    (MasksFit p masks → ∃ (batches : List (List CString)) (p' : List CString) (b' : Batch), masks.foldlM syncBan (b, sent) =
        some (b', sent ++ batches.flatMap (entryLines 'b' true)) ∧
      batches.flatten ++ p' = p ++ masks ∧ Holds 'b' p' b' ∧ b'.count = p'.length) ∧
      (¬ MasksFit p masks → masks.foldlM syncBan (b, sent) = none) := by
  induction masks generalizing p b sent with
  | nil =>
    refine ⟨fun _ ↦ ⟨[], p, b, ?_, (List.append_nil p).symm, h, hcount⟩, fun hnot ↦ absurd trivial hnot⟩
    rw [List.flatMap_nil, List.append_nil]
    rfl
  | cons mask masks ih =>
    obtain ⟨hmask, hmasks⟩ := List.forall_mem_cons.mp hmasks
    obtain ⟨sending, next, hstep, hnext, hflatten, hlength⟩ := syncBan_eq sent h hcount hp mask
    rw [MasksFit, ← hnext, List.foldlM_cons, hstep]
    by_cases hroom : (joined next).length < 256
    · have hholds : Holds 'b' next ⟨next.length, List.replicate next.length 'b', joined next⟩ := by
        refine ⟨rfl, rfl, fun s hs ↦ ?_⟩
        have hmem : s ∈ p ++ [mask] := hflatten ▸ List.mem_append_right _ hs
        rcases List.mem_append.mp hmem with hs | hs
        · exact h.isWord s hs
        · exact List.mem_singleton.mp hs ▸ hmask
      obtain ⟨hfit, hover⟩ := ih (sent ++ sending.flatMap (entryLines 'b' true)) hholds rfl hlength hmasks
      rw [if_pos hroom, and_iff_right hroom]
      refine ⟨fun hmasksFit ↦ ?_, hover⟩
      obtain ⟨batches, p', b', hrun, hall, hholds', hcount'⟩ := hfit hmasksFit
      refine ⟨sending ++ batches, p', b', ?_, ?_, hholds', hcount'⟩
      · rw [List.flatMap_append, ← List.append_assoc]
        exact hrun
      · rw [List.flatten_append, List.append_assoc, hall, ← List.append_assoc, hflatten, List.append_assoc]
        rfl
    · rw [if_neg hroom]
      exact ⟨fun hfit ↦ absurd hfit.1 hroom, fun _ ↦ rfl⟩

/-- All bans are sent in batches, unless a batch does not fit into its buffer. -/
theorem syncBans_spec (newbans : List CString) (hmasks : ∀ mask ∈ newbans, IsWord mask) :
    (MasksFit [] newbans → ∃ batches : List (List CString), batches.flatten = newbans ∧
      syncBans newbans = some (batches.flatMap (entryLines 'b' true))) ∧
      (¬ MasksFit [] newbans → syncBans newbans = none) := by
  obtain ⟨hfit, hover⟩ := foldlM_syncBan [] (holds_empty 'b') rfl (Nat.zero_le 6) newbans hmasks
  rw [syncBans]
  constructor
  · intro hmasksFit
    obtain ⟨batches, p, b, hrun, hall, hholds, hcount⟩ := hfit hmasksFit
    rw [hrun, Option.map_some]
    dsimp only
    by_cases hnil : p = []
    · subst hnil
      rw [List.append_nil, List.nil_append] at hall
      have hzero : ¬ b.count ≠ 0 := not_not.mpr hcount
      rw [if_neg hzero]
      exact ⟨batches, hall, rfl⟩
    · have hsome : b.count ≠ 0 := by
        rw [hcount]
        exact List.length_pos_iff.mpr hnil |>.ne'
      refine ⟨batches ++ [p], ?_, ?_⟩
      · rw [List.flatten_append, List.flatten_singleton, hall, List.nil_append]
      · rw [if_pos hsome, hholds.lines, List.flatMap_append, List.flatMap_singleton, List.nil_append]
  · intro hnot
    rw [hover hnot]
    rfl

end Bans

/-! ### Users -/

section Users

variable {letter : Char} {resend : Bool} {done p : List CString} {batches : List (List CString)} {b : Batch}
  {nick : CString} {sent : List ModeLine}

/-- What a nick is. -/
def IsNick (nick : CString) : Prop := IsWord nick ∧ nick.length < Users.NICKMAX

/-- Batches of users: once one has been sent, the count leaves out one user of the next. -/
structure Gathered (letter : Char) (done : List CString) (b : Batch) (batches : List (List CString))
    (p : List CString) : Prop where
  holds : Holds letter p b
  isNick : ∀ s ∈ p, IsNick s
  flatten : batches.flatten ++ p = done
  count : batches = [] ∧ p.length < 6 ∧ b.count = p.length ∨
    6 ≤ done.length ∧ b.count = done.length % 6 ∧ p.length = b.count + 1

theorem gathered_empty (letter : Char) : Gathered letter [] .empty [] [] :=
  ⟨holds_empty letter, List.forall_mem_nil _, rfl, .inl ⟨rfl, Nat.succ_pos 5, rfl⟩⟩

theorem length_joined_le (hp : ∀ s ∈ p, IsNick s) : (joined p).length ≤ 32 * p.length := by
  induction p with
  | nil => exact Nat.zero_le _
  | cons s p ih =>
    obtain ⟨⟨-, hs⟩, hp⟩ := List.forall_mem_cons.mp hp
    have hs : s.length < 32 := hs
    cases p with
    | nil =>
      rw [joined, List.intercalate_singleton, List.length_singleton]
      omega
    | cons t p =>
      have hrest := ih hp
      have hcons : joined (s :: t :: p) = s ++ [' '] ++ joined (t :: p) := List.intercalate_cons_cons
      rw [hcons, List.length_append, List.length_append, List.length_singleton, List.length_cons]
      omega

/-- One user: nothing is lost and nothing is written behind a buffer. -/
theorem Gathered.addNick (h : Gathered letter done b batches p) (resend : Bool) (sent : List ModeLine)
    (hnick : IsNick nick) :
    ∃ (b' : Batch) (sending : List (List CString)) (p' : List CString), b.addNick letter resend nick sent =
        some (b', sent ++ sending.flatMap (entryLines letter resend)) ∧
      Gathered letter (done ++ [nick]) b' (batches ++ sending) p' := by
  have hlength := length_joined_le h.isNick
  have hnickLength : nick.length < 32 := hnick.2
  have hdone : done.length = batches.flatten.length + p.length := by rw [← h.flatten, List.length_append]
  have hp : p.length ≤ 6 := by
    rcases h.count with ⟨-, hp, -⟩ | ⟨-, hcount, hp⟩
    · exact hp.le
    · omega
  have hroom : ¬ b.IsFull nick := by
    rw [Batch.IsFull, h.holds.cmdbuf]
    omega
  rw [Batch.addNick]
  by_cases hflush : b.count + 1 = 6
  · have hfits : (joined ([] ++ [nick])).length < 256 := by
      rw [List.nil_append, joined, List.intercalate_singleton]
      omega
    have hstart : (Batch.empty).append letter nick = _ := (holds_empty letter).append (Nat.succ_pos 5) nick
    rw [if_pos (.inl hflush), hstart, if_pos hfits, h.holds.lines]
    refine ⟨_, [p], [nick], by rw [List.flatMap_singleton]; rfl, ?_⟩
    refine ⟨(holds_empty letter).of_append hnick.1 0, List.forall_mem_singleton.mpr hnick, ?_, .inr ?_⟩
    · rw [List.flatten_append, List.flatten_singleton, h.flatten]
    · show 6 ≤ (done ++ [nick]).length ∧ 0 = (done ++ [nick]).length % 6 ∧ 1 = 0 + 1
      rw [List.length_append, List.length_singleton]
      rcases h.count with ⟨hnone, -, hcount⟩ | ⟨-, hcount, -⟩
      · rw [hnone, List.flatten_nil, List.length_nil] at hdone
        omega
      · omega
  · have hp' : p.length < 6 := by
      rcases h.count with ⟨-, hp, -⟩ | ⟨-, hcount, hp⟩
      · exact hp
      · omega
    have hnicks : ∀ s ∈ p ++ [nick], IsNick s := fun s hs ↦ by
      rcases List.mem_append.mp hs with hs | hs
      · exact h.isNick s hs
      · exact List.mem_singleton.mp hs ▸ hnick
    have hfits : (joined (p ++ [nick])).length < 256 := by
      have hle := length_joined_le hnicks
      rw [List.length_append, List.length_singleton] at hle
      omega
    have hholds : Holds letter p { b with count := b.count + 1 } := ⟨h.holds.modebuf, h.holds.cmdbuf, h.holds.isWord⟩
    rw [if_neg (not_or.mpr ⟨hflush, hroom⟩), hholds.append hp', if_pos hfits]
    refine ⟨_, [], p ++ [nick], by rw [List.flatMap_nil, List.append_nil]; rfl, ?_⟩
    refine ⟨h.holds.of_append hnick.1 _, hnicks, ?_, ?_⟩
    · rw [List.append_nil, ← List.append_assoc, h.flatten]
    · rw [List.append_nil, List.length_append, List.length_append, List.length_singleton]
      rcases h.count with ⟨hnone, -, hcount⟩ | ⟨hmany, hcount, hlast⟩
      · refine .inl ⟨hnone, ?_, ?_⟩
        · omega
        · show b.count + 1 = p.length + 1
          omega
      · refine .inr ⟨by omega, ?_, ?_⟩
        · show b.count + 1 = (done.length + 1) % 6
          omega
        · show p.length + 1 = b.count + 1 + 1
          omega

/-- The last user is left out. -/
def Forgets (users : List CString) : Prop := 0 < users.length ∧ users.length % 6 = 0

instance (users : List CString) : Decidable (Forgets users) := inferInstanceAs (Decidable (_ ∧ _))

/-- The users that are sent. -/
def remembered (users : List CString) : List CString := if Forgets users then users.dropLast else users

/-- What is left of a batch is sent, unless its count is 0. -/
theorem Gathered.rest (h : Gathered letter done b batches p) (resend : Bool) :
    ∃ last : List (List CString), (if b.count ≠ 0 then b.lines resend else []) =
      last.flatMap (entryLines letter resend) ∧ (batches ++ last).flatten = remembered done := by
  by_cases hcount : b.count ≠ 0
  · have hnot : ¬ Forgets done := by
      rintro ⟨hsome, hsix⟩
      rcases h.count with ⟨hnone, hp, -⟩ | ⟨-, hmod, -⟩
      · rw [← h.flatten, hnone, List.flatten_nil, List.nil_append] at hsome hsix
        omega
      · omega
    refine ⟨[p], by rw [if_pos hcount, h.holds.lines, List.flatMap_singleton], ?_⟩
    rw [List.flatten_append, List.flatten_singleton, h.flatten, remembered, if_neg hnot]
  · refine ⟨[], by rw [if_neg hcount, List.flatMap_nil], ?_⟩
    rw [List.append_nil]
    rcases h.count with ⟨hnone, -, hp⟩ | ⟨hmany, hmod, hp⟩
    · have hpnil : p = [] := List.length_eq_zero_iff.mp (hp ▸ not_not.mp hcount)
      have hdone : done = [] := by rw [← h.flatten, hnone, hpnil]; rfl
      rw [hnone, hdone]
      rfl
    · have hforgets : Forgets done := ⟨by omega, by omega⟩
      obtain ⟨s, rfl⟩ : ∃ s, p = [s] := List.length_eq_one_iff.mp (by omega)
      rw [remembered, if_pos hforgets, ← h.flatten, List.dropLast_concat]

/-- Lines with one letter of a list each. -/
def LinesOf (letters : List Char) (lines : List ModeLine) : Prop :=
  ∀ line ∈ lines, ∃ letter ∈ letters, IsEntryLetter letter ∧ ∃ (add : Bool) (p : List CString),
    line = ⟨(if add then '+' else '-') :: List.replicate p.length letter, p⟩

theorem linesOf_entryLines {letters : List Char} (hletter : IsEntryLetter letter) (hmem : letter ∈ letters)
    (resend : Bool) (batches : List (List CString)) :
    LinesOf letters (batches.flatMap (entryLines letter resend)) := by
  intro line hline
  obtain ⟨p, -, hline⟩ := List.mem_flatMap.mp hline
  rw [entryLines] at hline
  rcases List.mem_cons.mp hline with rfl | hline
  · exact ⟨letter, hmem, hletter, false, p, rfl⟩
  · cases resend with
    | false => exact absurd hline List.not_mem_nil
    | true => exact ⟨letter, hmem, hletter, true, p, List.mem_singleton.mp hline⟩

theorem LinesOf.append {letters : List Char} {lines more : List ModeLine} (h : LinesOf letters lines)
    (h' : LinesOf letters more) : LinesOf letters (lines ++ more) := by
  intro line hline
  exact (List.mem_append.mp hline).elim (h line) (h' line)

theorem LinesOf.mono {letters letters' : List Char} {lines : List ModeLine} (h : LinesOf letters lines)
    (hsub : letters ⊆ letters') : LinesOf letters' lines := by
  intro line hline
  obtain ⟨letter, hletter, hrest⟩ := h line hline
  exact ⟨letter, hsub hletter, hrest⟩

theorem lineSigns_sign (h : IsEntryLetter letter) (other : Char) (param : CString) (add : Bool)
    (p : List CString) :
    lineSigns other param true ((if add then '+' else '-') :: List.replicate p.length letter) p =
      if letter = other then List.replicate (p.count param) add else [] := by
  rw [lineSigns]
  cases add with
  | true => exact lineSigns_replicate h other param true p
  | false => exact lineSigns_replicate h other param false p

/-- Such lines do not name a parameter behind another letter. -/
theorem LinesOf.signs_eq_nil {letters : List Char} {lines : List ModeLine} (h : LinesOf letters lines)
    {other : Char} (hother : other ∉ letters) (param : CString) : signs other param lines = [] := by
  rw [signs, List.flatMap_eq_nil_iff]
  intro line hline
  obtain ⟨letter, hmem, hletter, add, p, rfl⟩ := h line hline
  rw [lineSigns_sign hletter, if_neg]
  rintro rfl
  exact hother hmem

theorem batchSigns_append (resend : Bool) (batches more : List (List CString)) (param : CString) :
    batchSigns resend (batches ++ more) param = batchSigns resend batches param ++ batchSigns resend more param :=
  List.flatMap_append

theorem batchSigns_eq_nil {param : CString} (hparam : param ∉ batches.flatten) :
    batchSigns resend batches param = [] := by
  rw [batchSigns, List.flatMap_eq_nil_iff]
  intro p hp
  have hcount : p.count param = 0 :=
    List.count_eq_zero_of_not_mem fun hmem ↦ hparam (List.mem_flatten.mpr ⟨p, hp, hmem⟩)
  rw [hcount]
  cases resend <;> rfl

/-- The batches of the users with and without a status. -/
def Paired (letter : Char) (holds : CString → Bool) (done : List CString) (g : Gathering)
    (sent : List ModeLine) : Prop :=
  ∃ (set unset : List (List CString)) (p q : List CString),
    Gathered letter (done.filter fun nick ↦ holds nick) g.set set p ∧
    Gathered letter (done.filter fun nick ↦ !holds nick) g.unset unset q ∧
    ∀ x, signs letter x sent = if holds x then batchSigns true set x else batchSigns false unset x

theorem paired_empty (letter : Char) (holds : CString → Bool) : Paired letter holds [] .empty [] := by
  refine ⟨[], [], [], [], gathered_empty letter, gathered_empty letter, fun x ↦ ?_⟩
  rw [batchSigns, batchSigns]
  split_ifs <;> rfl

variable {holds : CString → Bool} {g : Gathering}

theorem Paired.append {lines : List ModeLine} (h : Paired letter holds done g sent) {letters : List Char}
    (hlines : LinesOf letters lines) (hletter : letter ∉ letters) : Paired letter holds done g (sent ++ lines) := by
  obtain ⟨set, unset, p, q, hset, hunset, hsigns⟩ := h
  refine ⟨set, unset, p, q, hset, hunset, fun x ↦ ?_⟩
  rw [signs_append, hlines.signs_eq_nil hletter, List.append_nil, hsigns]

/-- One user is added to one of the two batches. -/
theorem Paired.add (h : Paired letter holds done g sent) (hletter : IsEntryLetter letter) (hnick : IsNick nick) :
    ∃ g' lines, g.add letter (holds nick) nick sent = some (g', sent ++ lines) ∧
      Paired letter holds (done ++ [nick]) g' (sent ++ lines) ∧ LinesOf [letter] lines := by
  obtain ⟨set, unset, p, q, hset, hunset, hsigns⟩ := h
  rw [Gathering.add]
  by_cases hholds : holds nick
  · obtain ⟨b', sending, p', hadd, hgathered⟩ := hset.addNick true sent hnick
    have hmem {x : CString} (hx : x ∈ sending.flatten) : holds x := by
      have hall : x ∈ (set ++ sending).flatten ++ p' := by
        rw [List.flatten_append]
        exact List.mem_append_left _ (List.mem_append_right _ hx)
      rw [hgathered.flatten] at hall
      rcases List.mem_append.mp hall with hx | hx
      · exact (List.mem_filter.mp hx).2
      · exact List.mem_singleton.mp hx ▸ hholds
    rw [if_pos hholds, hadd, Option.map_some]
    refine ⟨_, _, rfl, ⟨set ++ sending, unset, p', q, ?_, ?_, fun x ↦ ?_⟩,
      linesOf_entryLines hletter (List.mem_singleton_self letter) true sending⟩
    · rw [List.filter_append, List.filter_singleton, hholds]
      exact hgathered
    · rw [List.filter_append, List.filter_singleton, hholds]
      exact (List.append_nil _).symm ▸ hunset
    · rw [signs_append, hsigns, signs_entryLines hletter, if_pos rfl]
      by_cases hx : holds x
      · rw [if_pos hx, if_pos hx, batchSigns_append]
      · rw [if_neg hx, if_neg hx, batchSigns_eq_nil fun hmemx ↦ hx (hmem hmemx), List.append_nil]
  · obtain ⟨b', sending, q', hadd, hgathered⟩ := hunset.addNick false sent hnick
    have hfalse : holds nick = false := Bool.not_eq_true _ ▸ hholds
    have hmem {x : CString} (hx : x ∈ sending.flatten) : holds x = false := by
      have hall : x ∈ (unset ++ sending).flatten ++ q' := by
        rw [List.flatten_append]
        exact List.mem_append_left _ (List.mem_append_right _ hx)
      rw [hgathered.flatten] at hall
      rcases List.mem_append.mp hall with hx | hx
      · simpa using (List.mem_filter.mp hx).2
      · exact List.mem_singleton.mp hx ▸ hfalse
    rw [if_neg hholds, hadd, Option.map_some]
    refine ⟨_, _, rfl, ⟨set, unset ++ sending, p, q', ?_, ?_, fun x ↦ ?_⟩,
      linesOf_entryLines hletter (List.mem_singleton_self letter) false sending⟩
    · rw [List.filter_append, List.filter_singleton, hfalse]
      exact (List.append_nil _).symm ▸ hset
    · rw [List.filter_append, List.filter_singleton, hfalse]
      exact hgathered
    · rw [signs_append, hsigns, signs_entryLines hletter, if_pos rfl]
      by_cases hx : holds x
      · have hnot : x ∉ sending.flatten := fun hmemx ↦ by
          rw [hmem hmemx] at hx
          cases hx
        rw [if_pos hx, if_pos hx, batchSigns_eq_nil hnot, List.append_nil]
      · rw [if_neg hx, if_neg hx, batchSigns_append]

/-- What all users with and without a status are sent. -/
theorem Paired.rest (h : Paired letter holds done g sent) (hletter : IsEntryLetter letter) :
    ∃ set unset : List (List CString), LinesOf [letter] g.rest ∧
      set.flatten = remembered (done.filter fun nick ↦ holds nick) ∧
      unset.flatten = remembered (done.filter fun nick ↦ !holds nick) ∧
      ∀ x, signs letter x (sent ++ g.rest) =
        if holds x then batchSigns true set x else batchSigns false unset x := by
  obtain ⟨set, unset, p, q, hset, hunset, hsigns⟩ := h
  obtain ⟨last, hlast, hflatten⟩ := hset.rest true
  obtain ⟨last', hlast', hflatten'⟩ := hunset.rest false
  have hrest : g.rest = last.flatMap (entryLines letter true) ++ last'.flatMap (entryLines letter false) := by
    rw [Gathering.rest, hlast, hlast']
  have hsub (users : List CString) : remembered users ⊆ users := by
    rw [remembered]
    split_ifs
    · exact List.dropLast_subset users
    · exact List.Subset.refl users
  have hmem {x : CString} (hx : x ∈ last.flatten) : holds x := by
    have hall : x ∈ (set ++ last).flatten := by
      rw [List.flatten_append]
      exact List.mem_append_right _ hx
    rw [hflatten] at hall
    exact (List.mem_filter.mp (hsub _ hall)).2
  have hmem' {x : CString} (hx : x ∈ last'.flatten) : ¬ holds x := by
    have hall : x ∈ (unset ++ last').flatten := by
      rw [List.flatten_append]
      exact List.mem_append_right _ hx
    rw [hflatten'] at hall
    simpa using (List.mem_filter.mp (hsub _ hall)).2
  refine ⟨set ++ last, unset ++ last', ?_, hflatten, hflatten', fun x ↦ ?_⟩
  · rw [hrest]
    exact (linesOf_entryLines hletter (List.mem_singleton_self letter) true last).append
      (linesOf_entryLines hletter (List.mem_singleton_self letter) false last')
  · rw [hrest, signs_append, signs_append, hsigns, signs_entryLines hletter, signs_entryLines hletter,
      if_pos rfl, if_pos rfl]
    by_cases hx : holds x
    · rw [if_pos hx, if_pos hx, batchSigns_append, batchSigns_eq_nil fun hmemx ↦ hmem' hmemx hx, List.append_nil]
    · rw [if_neg hx, if_neg hx, batchSigns_append, batchSigns_eq_nil fun hmemx ↦ hx (hmem hmemx),
        List.nil_append]

theorem isEntryLetter_o : IsEntryLetter 'o' := .inr (.inl rfl)

theorem isEntryLetter_v : IsEntryLetter 'v' := .inr (.inr rfl)

variable {isOp isVoice : CString → Bool} {ops voices : Gathering}

theorem foldlM_syncUser (hops : Paired 'o' isOp done ops sent) (hvoices : Paired 'v' isVoice done voices sent)
    (hlines : LinesOf ['o', 'v'] sent) (nicks : List CString) (hnicks : ∀ nick ∈ nicks, IsNick nick) :
    ∃ ops' voices' sent', nicks.foldlM (syncUser isOp isVoice) (ops, voices, sent) = some (ops', voices', sent') ∧
      Paired 'o' isOp (done ++ nicks) ops' sent' ∧ Paired 'v' isVoice (done ++ nicks) voices' sent' ∧
      LinesOf ['o', 'v'] sent' := by
  induction nicks generalizing done ops voices sent with
  | nil =>
    rw [List.append_nil]
    exact ⟨ops, voices, sent, rfl, hops, hvoices, hlines⟩
  | cons nick nicks ih =>
    obtain ⟨hnick, hnicks⟩ := List.forall_mem_cons.mp hnicks
    obtain ⟨ops', lines, hadd, hops', hopLines⟩ := hops.add isEntryLetter_o hnick
    have hother := hvoices.append hopLines (by simp)
    obtain ⟨voices', lines', hadd', hvoices', hvoiceLines⟩ := hother.add isEntryLetter_v hnick
    have hstep : syncUser isOp isVoice (ops, voices, sent) nick =
        some (ops', voices', sent ++ lines ++ lines') := by
      rw [syncUser, hadd, Option.bind_some]
      dsimp only
      rw [hadd', Option.map_some]
    obtain ⟨ops'', voices'', sent'', hrun, hops'', hvoices'', hlines''⟩ :=
      ih (hops'.append hvoiceLines (by simp)) hvoices'
        ((hlines.append (hopLines.mono (by simp))).append (hvoiceLines.mono (by simp))) hnicks
    rw [List.append_assoc] at hops'' hvoices''
    refine ⟨ops'', voices'', sent'', ?_, hops'', hvoices'', hlines''⟩
    rw [List.foldlM_cons, hstep]
    exact hrun

/-- Every user is sent with both letters, but the last of a class that is forgotten. -/
theorem syncUsers_spec (isOp isVoice : CString → Bool) (nicks : List CString) (hnicks : ∀ nick ∈ nicks, IsNick nick) :
    ∃ (lines : List ModeLine) (ops nonops voices nonvoices : List (List CString)),
      syncUsers isOp isVoice nicks = some lines ∧ LinesOf ['o', 'v'] lines ∧
      ops.flatten = remembered (nicks.filter fun nick ↦ isOp nick) ∧
      nonops.flatten = remembered (nicks.filter fun nick ↦ !isOp nick) ∧
      voices.flatten = remembered (nicks.filter fun nick ↦ isVoice nick) ∧
      nonvoices.flatten = remembered (nicks.filter fun nick ↦ !isVoice nick) ∧
      (∀ x, signs 'o' x lines = if isOp x then batchSigns true ops x else batchSigns false nonops x) ∧
      ∀ x, signs 'v' x lines = if isVoice x then batchSigns true voices x else batchSigns false nonvoices x := by
  obtain ⟨ops, voices, sent, hrun, hops, hvoices, hlines⟩ := foldlM_syncUser
    (paired_empty 'o' isOp) (paired_empty 'v' isVoice) (List.forall_mem_nil _) nicks hnicks
  rw [List.nil_append] at hops hvoices
  obtain ⟨set, unset, hopLines, hset, hunset, hopSigns⟩ := hops.rest isEntryLetter_o
  obtain ⟨set', unset', hvoiceLines, hset', hunset', hvoiceSigns⟩ :=
    (hvoices.append hopLines (by simp)).rest isEntryLetter_v
  refine ⟨sent ++ ops.rest ++ voices.rest, set, unset, set', unset', ?_, ?_, hset, hunset, hset', hunset',
    fun x ↦ ?_, hvoiceSigns⟩
  · rw [syncUsers, hrun, Option.map_some]
  · exact (hlines.append (hopLines.mono (by simp))).append (hvoiceLines.mono (by simp))
  · rw [signs_append, hvoiceLines.signs_eq_nil (by simp), List.append_nil, hopSigns]

end Users

end BlitzedServices.ChanServ
