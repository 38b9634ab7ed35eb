import BlitzedServices.ChanServ.CheckModes

/-!
# SET MLOCK

`doSetMlock` is the character loop of `do_set_mlock`: a sign that starts undefined, ten flags, a key
and a limit that take their words from the rest of the line, and the update of the four mode-lock
columns. `occurrences` reads the same text declaratively, as the list of mode letters with their
signs and words, and `LockedAs` says that a stored lock is that of the last occurrence of each letter.

The loop stores the number of `+l` as an `unsigned int`, and the key column holds 255 characters.
`doSetMlock_locked_iff` shows that the lock is the one asked for exactly when the last number fits 32
bits and the last key fits the column, and that no run of REGISTER and SET MLOCK locks a mode both
on and off. `remove_mlock_off`, with its `|`, is the step that does.
-/

set_option autoImplicit false
set_option relaxedAutoImplicit false

namespace BlitzedServices.ChanServ

open Lib Channels

/-! ### The command -/

/-- The words that repeated `strtok(NULL, " ")` returns from the rest of a line. -/
def strtokWords (rest : CString) : List CString :=
  (rest.splitOn ' ').filter fun word ↦ word ≠ []

/-- The error replies of `do_set_mlock`. -/
inductive MlockError
  /-- `CHAN_SET_MLOCK_SYNTAX` -/
  | syntaxError
  /-- `CHAN_SET_MLOCK_KEY_REQUIRED` -/
  | keyRequired
  /-- `CHAN_SET_MLOCK_LIMIT_REQUIRED` -/
  | limitRequired
  /-- `CHAN_SET_MLOCK_LIMIT_POSITIVE` -/
  | limitPositive
  deriving DecidableEq

/-- The variables of the loop: the sign, undefined before the first one, the new lock, the words
left and the characters answered with `CHAN_SET_MLOCK_UNKNOWN_CHAR`. -/
structure MlockState where
  add : Option Bool
  newlockOn : BitVec 32
  newlockOff : BitVec 32
  newlockLimit : BitVec 32
  newlockKey : Option CString
  words : List CString
  unknown : List Char

/-- The two assignments of a mode without a parameter. -/
def MlockState.lockFlag (st : MlockState) (add : Bool) (flag : BitVec 32) : MlockState :=
  if add then
    { st with newlockOn := st.newlockOn ||| flag, newlockOff := st.newlockOff &&& ~~~flag }
  else
    { st with newlockOff := st.newlockOff ||| flag, newlockOn := st.newlockOn &&& ~~~flag }

/-- `+k` and `-k`. -/
def MlockState.lockKey (st : MlockState) (add : Bool) : Except MlockError MlockState :=
  if add then
    match st.words with
    | [] => .error .keyRequired
    | word :: words =>
      .ok { st with
        newlockKey := some word
        newlockOff := st.newlockOff &&& ~~~CMODE_k
        words }
  else .ok { st with newlockKey := some [], newlockOff := st.newlockOff ||| CMODE_k }

/-- `+l` and `-l`. The number is stored as an `unsigned int`. -/
def MlockState.lockLimit (st : MlockState) (add : Bool) : Except MlockError MlockState :=
  if add then
    match st.words with
    | [] => .error .limitRequired
    | word :: words =>
      if strtol word ≤ 0 then .error .limitPositive
      else .ok { st with
        newlockLimit := BitVec.ofInt 32 (strtol word)
        newlockOff := st.newlockOff &&& ~~~CMODE_l
        words }
  else .ok { st with newlockLimit := 0#32, newlockOff := st.newlockOff ||| CMODE_l }

/-- `+O` and `-O` from a user who is no oper keep the stored lock of that mode. -/
def MlockState.keepOper (st : MlockState) (row : MlockRow) : MlockState :=
  let st := if getMlockOn (some row) &&& CMODE_O ≠ 0#32 then st.lockFlag true CMODE_O else st
  if getMlockOff (some row) &&& CMODE_O ≠ 0#32 then st.lockFlag false CMODE_O else st

/-- The `switch` of the loop on a character that is not a sign. -/
def mlockLetter (isOper : Bool) (row : MlockRow) (st : MlockState) (add : Bool) (c : Char) :
    Except MlockError MlockState :=
  if c = 'k' then st.lockKey add
  else if c = 'l' then st.lockLimit add
  else if c = 'O' ∧ ¬ isOper then .ok (st.keepOper row)
  else
    match flagOf c with
    | some flag => .ok (st.lockFlag add flag)
    | none => .ok { st with unknown := st.unknown ++ [c] }

/-- One character of the loop. Characters before the first sign are skipped. -/
def mlockStep (isOper : Bool) (row : MlockRow) (st : MlockState) (c : Char) :
    Except MlockError MlockState :=
  if c = '+' then .ok { st with add := some true }
  else if c = '-' then .ok { st with add := some false }
  else
    match st.add with
    | none => .ok st
    | some add => mlockLetter isOper row st add c

/-- The loop of `do_set_mlock`. -/
def mlockLoop (isOper : Bool) (row : MlockRow) : CString → MlockState →
    Except MlockError MlockState
  | [], st => .ok st
  | c :: param, st => (mlockStep isOper row st c).bind (mlockLoop isOper row param)

/-- The test for the text OFF. -/
def isOff (param : CString) : Bool :=
  stricmp param "OFF".toList = 0

/-- The variables at the start of the loop, which OFF skips. -/
def MlockState.start (param : CString) (words : List CString) : MlockState where
  add := if isOff param then some true else none
  newlockOn := 0#32
  newlockOff := 0#32
  newlockLimit := 0#32
  newlockKey := if isOff param then some [] else none
  words := words
  unknown := []

/-- The UPDATE of the mode-lock columns; the key column is a `varchar(255)`. -/
def MlockState.update (st : MlockState) : MlockRow where
  mlockOn := st.newlockOn
  mlockOff := st.newlockOff
  mlockLimit := st.newlockLimit
  mlockKey :=
    if st.newlockKey.isSome ∨ st.newlockOff &&& CMODE_k ≠ 0#32 then
      (st.newlockKey.getD []).take 255
    else []

/-- The letters of a lock in the order of the reply. -/
def lockLetters (flags : BitVec 32) (k l : Bool) : CString :=
  let letter := fun (c : Char) (set : Bool) ↦ if set then [c] else []
  let flag := fun (c : Char) (flag : BitVec 32) ↦ letter c (flags &&& flag ≠ 0#32)
  flag 'i' CMODE_i ++ letter 'k' k ++ letter 'l' l ++ flag 'm' CMODE_m ++ flag 'M' CMODE_M ++
    flag 'n' CMODE_n ++ flag 'p' CMODE_p ++ flag 's' CMODE_s ++ flag 't' CMODE_t ++
    flag 'c' CMODE_c ++ flag 'O' CMODE_O ++ flag 'R' CMODE_R

/-- `modebuf`, the text of the stored lock in the reply. -/
def modebuf (row : MlockRow) : CString :=
  (if row.mlockOn ≠ 0#32 ∨ row.mlockKey ≠ [] ∨ row.mlockLimit ≠ 0#32 then
    '+' :: lockLetters row.mlockOn (row.mlockKey ≠ []) (row.mlockLimit ≠ 0#32) else []) ++
    if row.mlockOff ≠ 0#32 then
      '-' :: lockLetters row.mlockOff (row.mlockOff &&& CMODE_k ≠ 0#32)
        (row.mlockOff &&& CMODE_l ≠ 0#32) else []

/-- The replies of a SET MLOCK that changes the lock: the characters ignored, and `modebuf`. -/
structure MlockReply where
  unknown : List Char
  modebuf : CString

/-- `do_set_mlock` with the rest of the line after `param`: the reply and the row. -/
def doSetMlock (isOper : Bool) (row : MlockRow) (param : Option CString) (rest : CString) :
    Except MlockError MlockReply × MlockRow :=
  match param with
  | none => (.error .syntaxError, row)
  | some param =>
    let text := if isOff param then [] else param
    match mlockLoop isOper row text (.start param (strtokWords rest)) with
    | .error err => (.error err, row)
    | .ok st =>
      if st.add = none then (.error .syntaxError, row)
      else (.ok ⟨st.unknown, modebuf st.update⟩, st.update)

/-! ### The lock a text asks for -/

/-- A mode letter of the text with its sign, and the word it takes from the rest of the line. -/
structure Occurrence where
  letter : Char
  add : Bool
  word : CString

/-- The occurrences that take a word. -/
def Occurrence.TakesWord (o : Occurrence) : Prop :=
  o.add ∧ (o.letter = 'k' ∨ o.letter = 'l')

instance (o : Occurrence) : Decidable o.TakesWord :=
  inferInstanceAs (Decidable (_ ∧ _))

/-- The occurrence of a letter, with the first of the words when it takes one. -/
def occurrence (add : Bool) (words : List CString) (c : Char) : Occurrence where
  letter := c
  add := add
  word := if add ∧ (c = 'k' ∨ c = 'l') then words.headD [] else []

/-- The words left after an occurrence. -/
def wordsAfter (o : Occurrence) (words : List CString) : List CString :=
  if o.TakesWord then words.tail else words

/-- The mode letters of a text after its first sign. -/
def occurrences : Option Bool → List CString → CString → List Occurrence
  | _, _, [] => []
  | add, words, c :: param =>
    if c = '+' then occurrences (some true) words param
    else if c = '-' then occurrences (some false) words param
    else
      match add with
      | none => occurrences none words param
      | some sign =>
        occurrence sign words c :: occurrences (some sign)
          (wordsAfter (occurrence sign words c) words) param

/-- The last occurrence of a letter. -/
def lastOccurrence (letter : Char) (os : List Occurrence) : Option Occurrence :=
  (os.filter fun o ↦ o.letter = letter).getLast?

/-- The last occurrence of a letter has the sign. -/
def EndsWith (letter : Char) (add : Bool) (os : List Occurrence) : Prop :=
  ∃ o, lastOccurrence letter os = some o ∧ o.add = add

/-- The stored lock is that of the last occurrence of each mode the user may lock. -/
structure LockedAs (isOper : Bool) (os : List Occurrence) (row : MlockRow) : Prop where
  on : ∀ letter flag, (letter, flag) ∈ flagTable → (letter = 'O' → isOper) →
    (row.mlockOn &&& flag ≠ 0#32 ↔ EndsWith letter true os)
  off : ∀ letter flag, (letter, flag) ∈ flagTable → (letter = 'O' → isOper) →
    (row.mlockOff &&& flag ≠ 0#32 ↔ EndsWith letter false os)
  key : row.mlockKey =
    ((lastOccurrence 'k' os).map fun o ↦ if o.add then o.word else []).getD []
  key_off : row.mlockOff &&& CMODE_k ≠ 0#32 ↔ EndsWith 'k' false os
  limit : (row.mlockLimit.toNat : ℤ) =
    ((lastOccurrence 'l' os).map fun o ↦ if o.add then signedValue o.word else 0).getD 0
  limit_off : row.mlockOff &&& CMODE_l ≠ 0#32 ↔ EndsWith 'l' false os

/-- A SET MLOCK that succeeds stores the lock asked for, and any other leaves the row. -/
def SetsLock (isOper : Bool) (row : MlockRow) (param : CString) (rest : CString) : Prop :=
  match doSetMlock isOper row (some param) rest with
  | (.ok _, row') => LockedAs isOper (occurrences none (strtokWords rest) param) row'
  | (.error _, row') => row' = row

/-- The words suffice, and the numbers are positive. -/
structure Enough (os : List Occurrence) (words : List CString) : Prop where
  words : os.countP (fun o ↦ o.TakesWord) ≤ words.length
  positive : ∀ o ∈ os, o.letter = 'l' → o.add → 0 < signedValue o.word

/-- The texts that SET MLOCK accepts. -/
def Accepted (param rest : CString) : Prop :=
  (isOff param ∨ '+' ∈ param ∨ '-' ∈ param) ∧
    Enough (occurrences none (strtokWords rest) param) (strtokWords rest)

/-- The last key fits the column and the last number fits 32 bits. -/
structure Fits (os : List Occurrence) : Prop where
  key : ∀ o, lastOccurrence 'k' os = some o → o.add → o.word.length ≤ 255
  limit : ∀ o, lastOccurrence 'l' os = some o → o.add → signedValue o.word < 2 ^ 32

/-! ### What the loop does -/

/-- The modes with a lock state: the flags, the key and the limit. -/
def lockTable : List (Char × BitVec 32) :=
  flagTable ++ [('k', CMODE_k), ('l', CMODE_l)]

theorem lockTable_twoPow : ∀ entry ∈ lockTable, ∃ i < 32, entry.2 = BitVec.twoPow 32 i := by
  simp only [lockTable, List.mem_append, List.mem_cons, List.not_mem_nil, or_false]
  rintro entry (hmem | rfl | rfl)
  · exact flagTable_twoPow entry hmem
  · exact ⟨6, by decide, rfl⟩
  · exact ⟨7, by decide, rfl⟩

/-- Setting a flag sets its own test and leaves the others. -/
theorem or_flag {entry set : Char × BitVec 32} (h : entry ∈ lockTable) (hset : set ∈ lockTable)
    (word : BitVec 32) :
    (word ||| set.2) &&& entry.2 ≠ 0#32 ↔ set.1 = entry.1 ∨ word &&& entry.2 ≠ 0#32 := by
  have htable : ∀ entry ∈ lockTable, ∀ set ∈ lockTable,
      (set.2 &&& entry.2 ≠ 0#32 ↔ set.1 = entry.1) := by decide
  obtain ⟨i, hi, htest⟩ := exists_test (lockTable_twoPow entry h)
  rw [← htable entry h set hset]
  simp only [htest, BitVec.getElem_or, Bool.or_eq_true]
  exact or_comm

/-- Clearing a flag clears its own test and leaves the others. -/
theorem and_not_flag {entry clear : Char × BitVec 32} (h : entry ∈ lockTable)
    (hclear : clear ∈ lockTable) (word : BitVec 32) :
    (word &&& ~~~clear.2) &&& entry.2 ≠ 0#32 ↔ clear.1 ≠ entry.1 ∧ word &&& entry.2 ≠ 0#32 := by
  have htable : ∀ entry ∈ lockTable, ∀ clear ∈ lockTable,
      (clear.2 &&& entry.2 ≠ 0#32 ↔ clear.1 = entry.1) := by decide
  obtain ⟨i, hi, htest⟩ := exists_test (lockTable_twoPow entry h)
  rw [ne_eq clear.1, ← htable entry h clear hclear]
  simp only [htest, BitVec.getElem_and, BitVec.getElem_not, Bool.and_eq_true, Bool.not_eq_true',
    Bool.not_eq_true]
  exact and_comm

/-- What reading the occurrences `os` makes of a value that the last occurrence of a letter
decides. -/
def decided {α : Type*} (letter : Char) (os : List Occurrence) (value : Occurrence → α) (old : α) :
    α :=
  ((lastOccurrence letter os).map value).getD old

theorem decided_nil {α : Type*} (letter : Char) (value : Occurrence → α) (old : α) :
    decided letter [] value old = old :=
  rfl

theorem decided_cons {α : Type*} (letter : Char) (o : Occurrence) (os : List Occurrence)
    (value : Occurrence → α) (old : α) :
    decided letter (o :: os) value old =
      decided letter os value (if o.letter = letter then value o else old) := by
  unfold decided lastOccurrence
  by_cases ho : o.letter = letter
  · rw [List.filter_cons_of_pos (by simpa using ho), List.getLast?_cons, if_pos ho]
    cases ((os.filter fun o ↦ o.letter = letter).getLast?) <;> rfl
  · rw [List.filter_cons_of_neg (by simpa using ho), if_neg ho]

/-- From `st` to `st'` the loop reads the occurrences `os`. -/
structure Reads (isOper : Bool) (os : List Occurrence) (st st' : MlockState) : Prop where
  on : ∀ letter flag, (letter, flag) ∈ flagTable → (letter = 'O' → isOper) →
    (st'.newlockOn &&& flag ≠ 0#32 ↔
      decided letter os (fun o ↦ o.add = true) (st.newlockOn &&& flag ≠ 0#32))
  off : ∀ letter flag, (letter, flag) ∈ lockTable → (letter = 'O' → isOper) →
    (st'.newlockOff &&& flag ≠ 0#32 ↔
      decided letter os (fun o ↦ o.add = false) (st.newlockOff &&& flag ≠ 0#32))
  key : st'.newlockKey =
    decided 'k' os (fun o ↦ some (if o.add then o.word else [])) st.newlockKey
  limit : st'.newlockLimit =
    decided 'l' os (fun o ↦ if o.add then BitVec.ofInt 32 (strtol o.word) else 0#32)
      st.newlockLimit

theorem Reads.refl (isOper : Bool) (st : MlockState) : Reads isOper [] st st :=
  ⟨fun _ _ _ _ ↦ Iff.rfl, fun _ _ _ _ ↦ Iff.rfl, rfl, rfl⟩

/-- One occurrence, then the others. -/
theorem Reads.cons {isOper : Bool} {o : Occurrence} {os : List Occurrence}
    {st st₁ st' : MlockState} (h : Reads isOper [o] st st₁) (h' : Reads isOper os st₁ st') :
    Reads isOper (o :: os) st st' := by
  refine ⟨?_, ?_, ?_, ?_⟩
  · intro letter flag hmem hoper
    rw [h'.on letter flag hmem hoper, decided_cons, ← decided_nil letter (fun o ↦ o.add = true)
      (if o.letter = letter then _ else _), ← decided_cons, ← propext (h.on letter flag hmem hoper)]
  · intro letter flag hmem hoper
    rw [h'.off letter flag hmem hoper, decided_cons, ← decided_nil letter (fun o ↦ o.add = false)
      (if o.letter = letter then _ else _), ← decided_cons, ← propext (h.off letter flag hmem hoper)]
  · rw [h'.key, h.key, decided_cons, decided_nil, decided_cons]
  · rw [h'.limit, h.limit, decided_cons, decided_nil, decided_cons]

theorem decided_singleton {α : Type*} (letter : Char) (o : Occurrence) (value : Occurrence → α)
    (old : α) : decided letter [o] value old = if o.letter = letter then value o else old := by
  rw [decided_cons, decided_nil]

theorem mem_lockTable {entry : Char × BitVec 32} (h : entry ∈ flagTable) : entry ∈ lockTable :=
  List.mem_append_left _ h

theorem flagTable_letter : ∀ entry ∈ flagTable, entry.1 ≠ 'k' ∧ entry.1 ≠ 'l' := by
  decide

theorem lockFlag_newlockOn {entry set : Char × BitVec 32} (h : entry ∈ lockTable)
    (hset : set ∈ lockTable) (st : MlockState) (add : Bool) :
    (st.lockFlag add set.2).newlockOn &&& entry.2 ≠ 0#32 ↔
      if set.1 = entry.1 then add = true else st.newlockOn &&& entry.2 ≠ 0#32 := by
  cases add with
  | true =>
    refine (or_flag h hset st.newlockOn).trans ?_
    by_cases hsame : set.1 = entry.1 <;> simp [hsame]
  | false =>
    refine (and_not_flag h hset st.newlockOn).trans ?_
    by_cases hsame : set.1 = entry.1 <;> simp [hsame]

theorem lockFlag_newlockOff {entry set : Char × BitVec 32} (h : entry ∈ lockTable)
    (hset : set ∈ lockTable) (st : MlockState) (add : Bool) :
    (st.lockFlag add set.2).newlockOff &&& entry.2 ≠ 0#32 ↔
      if set.1 = entry.1 then add = false else st.newlockOff &&& entry.2 ≠ 0#32 := by
  cases add with
  | true =>
    refine (and_not_flag h hset st.newlockOff).trans ?_
    by_cases hsame : set.1 = entry.1 <;> simp [hsame]
  | false =>
    refine (or_flag h hset st.newlockOff).trans ?_
    by_cases hsame : set.1 = entry.1 <;> simp [hsame]

theorem lockFlag_reads (isOper : Bool) {c : Char} {flag : BitVec 32} (h : (c, flag) ∈ flagTable)
    (st : MlockState) (add : Bool) (word : CString) :
    Reads isOper [⟨c, add, word⟩] st (st.lockFlag add flag) := by
  obtain ⟨hk, hl⟩ := flagTable_letter _ h
  refine ⟨?_, ?_, ?_, ?_⟩
  · intro letter flag' hmem _
    rw [decided_singleton]
    exact lockFlag_newlockOn (mem_lockTable hmem) (mem_lockTable h) st add
  · intro letter flag' hmem _
    rw [decided_singleton]
    exact lockFlag_newlockOff hmem (mem_lockTable h) st add
  · rw [decided_singleton, if_neg hk, MlockState.lockFlag]
    split_ifs <;> rfl
  · rw [decided_singleton, if_neg hl, MlockState.lockFlag]
    split_ifs <;> rfl

/-- The bits of `O` are the only ones that the branch for other users touches. -/
theorem keepOper_reads (row : MlockRow) (st : MlockState) (add : Bool) (word : CString) :
    Reads false [⟨'O', add, word⟩] st (st.keepOper row) := by
  have hO : ('O', CMODE_O) ∈ flagTable := by decide
  have hon : ∀ letter flag, (letter, flag) ∈ lockTable → letter ≠ 'O' → ∀ st add,
      ((MlockState.lockFlag st add CMODE_O).newlockOn &&& flag ≠ 0#32 ↔
        st.newlockOn &&& flag ≠ 0#32) := by
    intro letter flag hmem hne st add
    have hflag := lockFlag_newlockOn hmem (mem_lockTable hO) st add
    rwa [if_neg (Ne.symm hne)] at hflag
  have hoff : ∀ letter flag, (letter, flag) ∈ lockTable → letter ≠ 'O' → ∀ st add,
      ((MlockState.lockFlag st add CMODE_O).newlockOff &&& flag ≠ 0#32 ↔
        st.newlockOff &&& flag ≠ 0#32) := by
    intro letter flag hmem hne st add
    have hflag := lockFlag_newlockOff hmem (mem_lockTable hO) st add
    rwa [if_neg (Ne.symm hne)] at hflag
  refine ⟨?_, ?_, ?_, ?_⟩
  · intro letter flag hmem hoper
    have hne : letter ≠ 'O' := fun heq ↦ absurd (hoper heq) (by decide)
    rw [decided_singleton, if_neg (Ne.symm hne), MlockState.keepOper]
    split_ifs <;> simp only [hon letter flag (mem_lockTable hmem) hne]
  · intro letter flag hmem hoper
    have hne : letter ≠ 'O' := fun heq ↦ absurd (hoper heq) (by decide)
    rw [decided_singleton, if_neg (Ne.symm hne), MlockState.keepOper]
    split_ifs <;> simp only [hoff letter flag hmem hne]
  · rw [decided_singleton, if_neg (by simp), MlockState.keepOper]
    split_ifs <;> rfl
  · rw [decided_singleton, if_neg (by simp), MlockState.keepOper]
    split_ifs <;> rfl

/-- The key and the limit: of the two words, only the flag in the second one is touched. -/
theorem reads_of_param (isOper : Bool) {o : Occurrence} {flag : BitVec 32}
    (hflag : (o.letter, flag) ∈ lockTable) (ho : o.letter = 'k' ∨ o.letter = 'l')
    {st st' : MlockState} (hon : st'.newlockOn = st.newlockOn)
    (hoff : st'.newlockOff =
      if o.add then st.newlockOff &&& ~~~flag else st.newlockOff ||| flag)
    (hkey : st'.newlockKey =
      if o.letter = 'k' then some (if o.add then o.word else []) else st.newlockKey)
    (hlimit : st'.newlockLimit = if o.letter = 'l' then
      if o.add then BitVec.ofInt 32 (strtol o.word) else 0#32 else st.newlockLimit) :
    Reads isOper [o] st st' := by
  refine ⟨?_, ?_, ?_, ?_⟩
  · intro letter flag' hmem _
    have hne : o.letter ≠ letter := by
      obtain ⟨hk, hl⟩ := flagTable_letter _ hmem
      rintro rfl
      exact ho.elim hk hl
    rw [decided_singleton, if_neg hne, hon]
  · intro letter flag' hmem _
    rw [decided_singleton, hoff]
    cases hadd : o.add with
    | true =>
      refine (and_not_flag hmem hflag st.newlockOff).trans ?_
      by_cases hsame : o.letter = letter <;> simp [hsame]
    | false =>
      refine (or_flag hmem hflag st.newlockOff).trans ?_
      by_cases hsame : o.letter = letter <;> simp [hsame]
  · rw [decided_singleton, hkey]
  · rw [decided_singleton, hlimit]

theorem lockKey_reads (isOper : Bool) {st st' : MlockState} {add : Bool}
    (h : st.lockKey add = .ok st') :
    Reads isOper [occurrence add st.words 'k'] st st' ∧ st'.add = st.add ∧
      st'.words = wordsAfter (occurrence add st.words 'k') st.words := by
  have hk : ('k', CMODE_k) ∈ lockTable := by decide
  cases add with
  | true =>
    cases hwords : st.words with
    | nil => simp [MlockState.lockKey, hwords] at h
    | cons word words =>
      simp only [MlockState.lockKey, if_true, hwords, Except.ok.injEq] at h
      subst h
      exact ⟨reads_of_param isOper hk (Or.inl rfl) rfl rfl rfl rfl, rfl, rfl⟩
  | false =>
    simp only [MlockState.lockKey, Bool.false_eq_true, if_false, Except.ok.injEq] at h
    subst h
    exact ⟨reads_of_param isOper hk (Or.inl rfl) rfl rfl rfl rfl, rfl, rfl⟩

theorem lockLimit_reads (isOper : Bool) {st st' : MlockState} {add : Bool}
    (h : st.lockLimit add = .ok st') :
    Reads isOper [occurrence add st.words 'l'] st st' ∧ st'.add = st.add ∧
      st'.words = wordsAfter (occurrence add st.words 'l') st.words := by
  have hl : ('l', CMODE_l) ∈ lockTable := by decide
  cases add with
  | true =>
    cases hwords : st.words with
    | nil => simp [MlockState.lockLimit, hwords] at h
    | cons word words =>
      simp only [MlockState.lockLimit, if_true, hwords] at h
      split_ifs at h with hpos
      rw [Except.ok.injEq] at h
      subst h
      exact ⟨reads_of_param isOper hl (Or.inr rfl) rfl rfl rfl rfl, rfl, rfl⟩
  | false =>
    simp only [MlockState.lockLimit, Bool.false_eq_true, if_false, Except.ok.injEq] at h
    subst h
    exact ⟨reads_of_param isOper hl (Or.inr rfl) rfl rfl rfl rfl, rfl, rfl⟩

theorem mem_flagTable_of_flagOf {c : Char} {flag : BitVec 32} (h : flagOf c = some flag) :
    (c, flag) ∈ flagTable := by
  obtain ⟨before, after, happend, -⟩ := List.lookup_eq_some_iff.mp h
  rw [happend]
  exact List.mem_append_right _ (List.mem_cons_self ..)

/-- A character that is no mode letter changes nothing. -/
theorem unknown_reads (isOper : Bool) {o : Occurrence} (hflag : flagOf o.letter = none)
    (hk : o.letter ≠ 'k') (hl : o.letter ≠ 'l') (st : MlockState) (unknown : List Char) :
    Reads isOper [o] st { st with unknown } := by
  have hne : ∀ entry ∈ flagTable, o.letter ≠ entry.1 := by
    intro entry hmem heq
    have htable : ∀ entry ∈ flagTable, flagOf entry.1 = some entry.2 := by decide
    rw [heq, htable entry hmem] at hflag
    cases hflag
  refine ⟨?_, ?_, ?_, ?_⟩
  · intro letter flag hmem _
    rw [decided_singleton, if_neg (hne _ hmem)]
  · intro letter flag hmem _
    have hletter : o.letter ≠ letter := by
      simp only [lockTable, List.mem_append, List.mem_cons, List.not_mem_nil, or_false,
        Prod.mk.injEq] at hmem
      rcases hmem with hmem | ⟨rfl, -⟩ | ⟨rfl, -⟩
      · exact hne _ hmem
      · exact hk
      · exact hl
    rw [decided_singleton, if_neg hletter]
  · rw [decided_singleton, if_neg hk]
  · rw [decided_singleton, if_neg hl]

theorem keepOper_rest (row : MlockRow) (st : MlockState) :
    (st.keepOper row).add = st.add ∧ (st.keepOper row).words = st.words := by
  simp only [MlockState.keepOper, MlockState.lockFlag, if_true, Bool.false_eq_true, if_false]
  split_ifs <;> exact ⟨rfl, rfl⟩

/-- One character of the `switch` reads one occurrence. -/
theorem mlockLetter_reads {isOper : Bool} {row : MlockRow} {st st' : MlockState} {add : Bool}
    {c : Char} (h : mlockLetter isOper row st add c = .ok st') :
    Reads isOper [occurrence add st.words c] st st' ∧ st'.add = st.add ∧
      st'.words = wordsAfter (occurrence add st.words c) st.words := by
  rw [mlockLetter] at h
  by_cases hk : c = 'k'
  · rw [if_pos hk] at h
    subst hk
    exact lockKey_reads isOper h
  by_cases hl : c = 'l'
  · rw [if_neg hk, if_pos hl] at h
    subst hl
    exact lockLimit_reads isOper h
  have hwords : wordsAfter (occurrence add st.words c) st.words = st.words :=
    if_neg fun htakes ↦ htakes.2.elim hk hl
  rw [if_neg hk, if_neg hl] at h
  by_cases hO : c = 'O' ∧ ¬ isOper
  · obtain ⟨rfl, hoper⟩ := hO
    rw [if_pos ⟨rfl, hoper⟩, Except.ok.injEq] at h
    subst h
    rw [Bool.not_eq_true] at hoper
    subst hoper
    exact ⟨keepOper_reads row st add _, (keepOper_rest row st).1,
      (keepOper_rest row st).2.trans hwords.symm⟩
  · rw [if_neg hO] at h
    cases hflag : flagOf c with
    | some flag =>
      rw [hflag, Except.ok.injEq] at h
      subst h
      refine ⟨lockFlag_reads isOper (mem_flagTable_of_flagOf hflag) st add _, ?_, ?_⟩
      · rw [MlockState.lockFlag]
        split_ifs <;> rfl
      · rw [hwords, MlockState.lockFlag]
        split_ifs <;> rfl
    | none =>
      rw [hflag, Except.ok.injEq] at h
      subst h
      exact ⟨unknown_reads isOper hflag hk hl st _, rfl, hwords.symm⟩

/-- The loop reads the occurrences of its text, and ends without a sign when there was none. -/
theorem mlockLoop_reads {isOper : Bool} {row : MlockRow} {param : CString} {st st' : MlockState}
    (h : mlockLoop isOper row param st = .ok st') :
    Reads isOper (occurrences st.add st.words param) st st' ∧
      (st'.add = none ↔ st.add = none ∧ '+' ∉ param ∧ '-' ∉ param) := by
  induction param generalizing st with
  | nil =>
    rw [mlockLoop, Except.ok.injEq] at h
    subst h
    exact ⟨.refl isOper st, by simp⟩
  | cons c param ih =>
    rw [mlockLoop] at h
    by_cases hplus : c = '+'
    · rw [mlockStep, if_pos hplus] at h
      obtain ⟨hreads, hadd⟩ := ih h
      simp only [occurrences, if_pos hplus]
      exact ⟨⟨hreads.on, hreads.off, hreads.key, hreads.limit⟩, hadd.trans (by simp [hplus])⟩
    by_cases hminus : c = '-'
    · rw [mlockStep, if_neg hplus, if_pos hminus] at h
      obtain ⟨hreads, hadd⟩ := ih h
      simp only [occurrences, if_neg hplus, if_pos hminus]
      exact ⟨⟨hreads.on, hreads.off, hreads.key, hreads.limit⟩, hadd.trans (by simp [hminus])⟩
    rw [mlockStep, if_neg hplus, if_neg hminus] at h
    cases hsign : st.add with
    | none =>
      rw [hsign] at h
      obtain ⟨hreads, hadd⟩ := ih h
      rw [hsign] at hreads hadd
      simp only [occurrences, if_neg hplus, if_neg hminus]
      refine ⟨hreads, hadd.trans ?_⟩
      simp [Ne.symm hplus, Ne.symm hminus]
    | some add =>
      simp only [hsign] at h
      cases hstep : mlockLetter isOper row st add c with
      | error err =>
        rw [hstep] at h
        cases h
      | ok st₁ =>
        rw [hstep] at h
        obtain ⟨hfirst, hadd₁, hwords₁⟩ := mlockLetter_reads hstep
        obtain ⟨hreads, hadd⟩ := ih h
        rw [hadd₁, hsign, hwords₁] at hreads
        rw [hadd₁, hsign] at hadd
        simp only [occurrences, if_neg hplus, if_neg hminus]
        exact ⟨hfirst.cons hreads, hadd.trans (by simp)⟩

/-- An occurrence whose word is there and, for a limit, positive. -/
def Occurrence.Takes (o : Occurrence) (words : List CString) : Prop :=
  (o.TakesWord → words ≠ []) ∧ (o.letter = 'l' → o.add → 0 < signedValue o.word)

theorem enough_cons (o : Occurrence) (os : List Occurrence) (words : List CString) :
    Enough (o :: os) words ↔ o.Takes words ∧ Enough os (wordsAfter o words) := by
  have hcount : (o :: os).countP (fun o ↦ o.TakesWord) ≤ words.length ↔
      (o.TakesWord → words ≠ []) ∧
        os.countP (fun o ↦ o.TakesWord) ≤ (wordsAfter o words).length := by
    by_cases htakes : o.TakesWord
    · rw [List.countP_cons_of_pos (by simpa using htakes), wordsAfter, if_pos htakes]
      cases words with
      | nil => simp [htakes]
      | cons word words => simp
    · rw [List.countP_cons_of_neg (by simpa using htakes), wordsAfter, if_neg htakes]
      simp [htakes]
  constructor
  · rintro ⟨hwords, hpositive⟩
    exact ⟨⟨(hcount.mp hwords).1, hpositive o (List.mem_cons_self ..)⟩,
      ⟨(hcount.mp hwords).2, fun o' hmem ↦ hpositive o' (List.mem_cons_of_mem _ hmem)⟩⟩
  · rintro ⟨⟨hword, hlimit⟩, ⟨hwords, hpositive⟩⟩
    refine ⟨hcount.mpr ⟨hword, hwords⟩, fun o' hmem ↦ ?_⟩
    rcases List.mem_cons.mp hmem with rfl | hmem
    · exact hlimit
    · exact hpositive o' hmem

theorem strtol_pos_iff (s : CString) : 0 < strtol s ↔ 0 < signedValue s := by
  unfold strtol
  omega

theorem mlockLetter_ok_iff (isOper : Bool) (row : MlockRow) (st : MlockState) (add : Bool)
    (c : Char) :
    (∃ st', mlockLetter isOper row st add c = .ok st') ↔
      (occurrence add st.words c).Takes st.words := by
  unfold mlockLetter
  by_cases hk : c = 'k'
  · subst hk
    cases add <;> cases hwords : st.words <;>
      simp [MlockState.lockKey, hwords, Occurrence.Takes, Occurrence.TakesWord, occurrence]
  by_cases hl : c = 'l'
  · subst hl
    cases add with
    | false => simp [MlockState.lockLimit, Occurrence.Takes, Occurrence.TakesWord, occurrence]
    | true =>
      cases hwords : st.words with
      | nil => simp [MlockState.lockLimit, hwords, Occurrence.Takes, Occurrence.TakesWord, occurrence]
      | cons word words =>
        have hpos := strtol_pos_iff word
        by_cases h : strtol word ≤ 0
        · simp [MlockState.lockLimit, hwords, Occurrence.Takes, Occurrence.TakesWord, occurrence, h]
          omega
        · simp [MlockState.lockLimit, hwords, Occurrence.Takes, Occurrence.TakesWord, occurrence, h]
          omega
  have htakes : (occurrence add st.words c).Takes st.words :=
    ⟨fun htakes ↦ (htakes.2.elim hk hl).elim, fun h ↦ (hl h).elim⟩
  refine iff_of_true ?_ htakes
  rw [if_neg hk, if_neg hl]
  split_ifs
  · exact ⟨_, rfl⟩
  · cases flagOf c <;> exact ⟨_, rfl⟩

theorem mlockLoop_ok_iff (isOper : Bool) (row : MlockRow) (param : CString) (st : MlockState) :
    (∃ st', mlockLoop isOper row param st = .ok st') ↔
      Enough (occurrences st.add st.words param) st.words := by
  induction param generalizing st with
  | nil => exact iff_of_true ⟨st, rfl⟩ ⟨by simp [occurrences], by simp [occurrences]⟩
  | cons c param ih =>
    by_cases hplus : c = '+'
    · simp only [mlockLoop, mlockStep, if_pos hplus, Except.bind, occurrences]
      exact ih _
    by_cases hminus : c = '-'
    · simp only [mlockLoop, mlockStep, if_neg hplus, if_pos hminus, Except.bind, occurrences]
      exact ih _
    cases hsign : st.add with
    | none =>
      simp only [mlockLoop, mlockStep, if_neg hplus, if_neg hminus, hsign, Except.bind, occurrences]
      rw [ih st, hsign]
    | some add =>
      simp only [mlockLoop, mlockStep, if_neg hplus, if_neg hminus, hsign, occurrences]
      rw [enough_cons, ← mlockLetter_ok_iff isOper row st add c]
      cases hstep : mlockLetter isOper row st add c with
      | error err => simp [Except.bind]
      | ok st₁ =>
        obtain ⟨-, hadd₁, hwords₁⟩ := mlockLetter_reads hstep
        have hrest := ih st₁
        rw [hadd₁, hsign, hwords₁] at hrest
        simp [Except.bind, hrest]

/-! ### The lock that is stored -/

theorem decided_add_iff (letter : Char) (os : List Occurrence) (add : Bool) :
    decided letter os (fun o ↦ o.add = add) False ↔ EndsWith letter add os := by
  unfold decided EndsWith
  cases lastOccurrence letter os <;> simp

theorem lastOccurrence_mem {letter : Char} {os : List Occurrence} {o : Occurrence}
    (h : lastOccurrence letter os = some o) : o ∈ os ∧ o.letter = letter := by
  have hmem := List.mem_of_getLast? h
  simpa using List.mem_filter.mp hmem

/-- The key that is stored is the key asked for exactly when it fits the column. -/
theorem stored_key_iff {isOper : Bool} {os : List Occurrence} {st st' : MlockState}
    (h : Reads isOper os st st') (hst : st.newlockKey.getD [] = []) :
    st'.update.mlockKey =
        ((lastOccurrence 'k' os).map fun o ↦ if o.add then o.word else []).getD [] ↔
      ∀ o, lastOccurrence 'k' os = some o → o.add → o.word.length ≤ 255 := by
  have hkey := h.key
  unfold decided at hkey
  cases hlast : lastOccurrence 'k' os with
  | none =>
    rw [hlast] at hkey
    have hstored : st'.update.mlockKey = [] := by
      simp [MlockState.update, hkey, hst]
    simp [hstored]
  | some o =>
    rw [hlast] at hkey
    have hstored : st'.update.mlockKey = (if o.add then o.word else []).take 255 := by
      simp [MlockState.update, hkey]
    rw [hstored]
    cases hadd : o.add with
    | false => simp [hadd]
    | true => simp [hadd, List.take_eq_self_iff]

/-- The limit that is stored is the number asked for exactly when it fits 32 bits. -/
theorem stored_limit_iff {isOper : Bool} {os : List Occurrence} {st st' : MlockState}
    (h : Reads isOper os st st') (hst : st.newlockLimit = 0#32)
    (hpositive : ∀ o ∈ os, o.letter = 'l' → o.add → 0 < signedValue o.word) :
    (st'.update.mlockLimit.toNat : ℤ) =
        ((lastOccurrence 'l' os).map fun o ↦ if o.add then signedValue o.word else 0).getD 0 ↔
      ∀ o, lastOccurrence 'l' os = some o → o.add → signedValue o.word < 2 ^ 32 := by
  have hlimit := h.limit
  unfold decided at hlimit
  have hstored : st'.update.mlockLimit = st'.newlockLimit := rfl
  cases hlast : lastOccurrence 'l' os with
  | none =>
    rw [hlast] at hlimit
    simp [hstored, hlimit, hst]
  | some o =>
    rw [hlast] at hlimit
    obtain ⟨hmem, hletter⟩ := lastOccurrence_mem hlast
    cases hadd : o.add with
    | false => simp [hstored, hlimit, hadd]
    | true =>
      have hpos := hpositive o hmem hletter hadd
      have hlt := st'.newlockLimit.isLt
      have hvalue : st'.newlockLimit = BitVec.ofInt 32 (strtol o.word) := by
        simp [hlimit, hadd]
      have hnat : (st'.newlockLimit.toNat : ℤ) = strtol o.word % 2 ^ 32 := by
        rw [hvalue, BitVec.toNat_ofInt]
        omega
      have hsmall : signedValue o.word < 2 ^ 32 → strtol o.word = signedValue o.word := by
        unfold strtol
        omega
      simp only [hstored, Option.map_some, Option.getD_some, hadd, if_true, Option.some.injEq,
        forall_eq']
      constructor
      · intro heq _
        omega
      · intro hfits
        rw [hnat, hsmall (hfits trivial)]
        exact Int.emod_eq_of_lt (by omega) (hfits trivial)

/-- What the UPDATE stores after reading `os` is the lock asked for exactly when it fits. -/
theorem lockedAs_update_iff {isOper : Bool} {os : List Occurrence} {st st' : MlockState}
    (h : Reads isOper os st st') (hon : st.newlockOn = 0#32) (hoff : st.newlockOff = 0#32)
    (hlimit : st.newlockLimit = 0#32) (hkey : st.newlockKey.getD [] = [])
    (hpositive : ∀ o ∈ os, o.letter = 'l' → o.add → 0 < signedValue o.word) :
    LockedAs isOper os st'.update ↔ Fits os := by
  have hflag : ∀ letter flag, (letter, flag) ∈ lockTable → (letter = 'O' → isOper) →
      (st'.newlockOff &&& flag ≠ 0#32 ↔ EndsWith letter false os) := by
    intro letter flag hmem hoper
    rw [h.off letter flag hmem hoper, hoff, BitVec.zero_and, ← decided_add_iff]
    simp
  constructor
  · intro hlocked
    exact ⟨(stored_key_iff h hkey).mp hlocked.key,
      (stored_limit_iff h hlimit hpositive).mp hlocked.limit⟩
  · intro hfits
    refine ⟨?_, ?_, (stored_key_iff h hkey).mpr hfits.key, ?_,
      (stored_limit_iff h hlimit hpositive).mpr hfits.limit, ?_⟩
    · intro letter flag hmem hoper
      refine (h.on letter flag hmem hoper).trans ?_
      rw [hon, BitVec.zero_and, ← decided_add_iff]
      simp
    · intro letter flag hmem hoper
      exact hflag letter flag (mem_lockTable hmem) hoper
    · exact hflag 'k' CMODE_k (by decide) (by simp)
    · exact hflag 'l' CMODE_l (by decide) (by simp)

theorem occurrences_of_no_sign {param : CString} (hplus : '+' ∉ param) (hminus : '-' ∉ param)
    (words : List CString) : occurrences none words param = [] := by
  induction param with
  | nil => rfl
  | cons c param ih =>
    rw [List.mem_cons, not_or] at hplus hminus
    simp only [occurrences, if_neg (Ne.symm hplus.1), if_neg (Ne.symm hminus.1)]
    exact ih hplus.2 hminus.2

theorem no_sign_of_off {param : CString} (h : isOff param) : '+' ∉ param ∧ '-' ∉ param := by
  have hmap := (stricmp_eq_zero_iff _ _).mp (of_decide_eq_true h)
  constructor
  · intro hmem
    have hlower : Char.toLower '+' ∈ param.map Char.toLower := List.mem_map_of_mem hmem
    rw [hmap] at hlower
    exact absurd hlower (by decide)
  · intro hmem
    have hlower : Char.toLower '-' ∈ param.map Char.toLower := List.mem_map_of_mem hmem
    rw [hmap] at hlower
    exact absurd hlower (by decide)

/-- A text is refused and leaves the row, or the loop ends with a new lock, which is stored. -/
theorem doSetMlock_cases (isOper : Bool) (row : MlockRow) (param rest : CString) :
    (¬ Accepted param rest ∧ ∃ err, doSetMlock isOper row (some param) rest = (.error err, row)) ∨
      (Accepted param rest ∧ ∃ st,
        mlockLoop isOper row (if isOff param then [] else param) (.start param (strtokWords rest)) = .ok st ∧
          doSetMlock isOper row (some param) rest = (.ok ⟨st.unknown, modebuf st.update⟩, st.update)) := by
  by_cases hOff : isOff param
  · obtain ⟨hplus, hminus⟩ := no_sign_of_off hOff
    have hos := occurrences_of_no_sign hplus hminus (strtokWords rest)
    have hsign : (MlockState.start param (strtokWords rest)).add ≠ none := by
      simp [MlockState.start, hOff]
    refine .inr ⟨⟨.inl hOff, ?_⟩, .start param (strtokWords rest), ?_, ?_⟩
    · rw [hos]
      exact ⟨Nat.zero_le _, by simp⟩
    · rw [if_pos hOff, mlockLoop]
    · simp only [doSetMlock, if_pos hOff, mlockLoop, if_neg hsign]
  · have hstart : (MlockState.start param (strtokWords rest)).add = none := by
      simp [MlockState.start, hOff]
    have hok := mlockLoop_ok_iff isOper row param (.start param (strtokWords rest))
    rw [hstart, show (MlockState.start param (strtokWords rest)).words = strtokWords rest from rfl] at hok
    simp only [doSetMlock, if_neg hOff]
    cases hloop : mlockLoop isOper row param (.start param (strtokWords rest)) with
    | error err =>
      refine .inl ⟨fun haccepted ↦ ?_, err, rfl⟩
      obtain ⟨st, hst⟩ := hok.mpr haccepted.2
      rw [hloop] at hst
      cases hst
    | ok st =>
      have hadd := (mlockLoop_reads hloop).2
      rw [hstart] at hadd
      by_cases hsign : st.add = none
      · obtain ⟨-, hplus, hminus⟩ := hadd.mp hsign
        refine .inl ⟨fun haccepted ↦ ?_, .syntaxError, by simp only [if_pos hsign]⟩
        rcases haccepted.1 with h | h | h
        · exact absurd h hOff
        · exact absurd h hplus
        · exact absurd h hminus
      · refine .inr ⟨⟨?_, hok.mp ⟨st, hloop⟩⟩, st, rfl, by simp only [if_neg hsign]⟩
        by_contra hnot
        rw [not_or, not_or] at hnot
        exact hsign (hadd.mpr ⟨rfl, hnot.2⟩)

theorem setsLock_iff (isOper : Bool) (row : MlockRow) (param rest : CString) :
    SetsLock isOper row param rest ↔
      (Accepted param rest → Fits (occurrences none (strtokWords rest) param)) := by
  have hkey : (MlockState.start param (strtokWords rest)).newlockKey.getD [] = [] := by
    cases hOff : isOff param <;> simp [MlockState.start, hOff]
  rw [SetsLock]
  rcases doSetMlock_cases isOper row param rest with ⟨hrefused, err, herr⟩ | ⟨haccepted, st, hloop, hstored⟩
  · rw [herr]
    exact iff_of_true rfl fun haccepted ↦ absurd haccepted hrefused
  · have hreads : Reads isOper (occurrences none (strtokWords rest) param) (.start param (strtokWords rest)) st := by
      have hreads := (mlockLoop_reads hloop).1
      by_cases hOff : isOff param
      · obtain ⟨hplus, hminus⟩ := no_sign_of_off hOff
        rw [if_pos hOff] at hreads
        rw [occurrences_of_no_sign hplus hminus]
        exact hreads
      · rw [if_neg hOff, show (MlockState.start param (strtokWords rest)).add = none by
          simp [MlockState.start, hOff]] at hreads
        exact hreads
    rw [hstored]
    show LockedAs isOper _ st.update ↔ _
    rw [lockedAs_update_iff hreads rfl rfl rfl hkey haccepted.2.positive]
    exact ⟨fun hfits _ ↦ hfits, fun h ↦ h haccepted⟩

/-! ### Runs over one channel -/

/-- `add_mlock_on`. -/
def addMlockOn (row : MlockRow) (modes : BitVec 32) : MlockRow :=
  { row with mlockOn := row.mlockOn ||| modes }

/-- `remove_mlock_off`, which sets the modes it should clear. -/
def removeMlockOff (row : MlockRow) (modes : BitVec 32) : MlockRow :=
  { row with mlockOff := row.mlockOff ||| modes }

/-- The commands and calls that write the mode lock of a channel. -/
inductive MlockOp
  | register
  | setMlock (isOper : Bool) (param : Option CString) (rest : CString)
  /-- `add_mlock_on` and `remove_mlock_off` for the same modes. -/
  | lockOn (modes : BitVec 32)

/-- One command on the row of the channel, if it is registered. -/
def MlockOp.run (row : Option MlockRow) (op : MlockOp) : Option MlockRow :=
  match row, op with
  | none, .register => some ⟨CMODE_n, 0#32, 0#32, []⟩
  | none, _ => none
  | some row, .register => some row
  | some row, .setMlock isOper param rest => some (doSetMlock isOper row param rest).2
  | some row, .lockOn modes => some (removeMlockOff (addMlockOn row modes) modes)

/-- The condition on a call of the helpers: they are called for no mode. -/
def MlockOp.Meets : MlockOp → Prop
  | .lockOn modes => modes = 0#32
  | _ => True

/-- What the loop keeps about the new lock. -/
structure LockInvariant (st : MlockState) : Prop where
  on_off : st.newlockOn &&& st.newlockOff = 0#32
  on_key : st.newlockOn &&& CMODE_k = 0#32
  on_limit : st.newlockOn &&& CMODE_l = 0#32
  key : st.newlockKey.getD [] ≠ [] → st.newlockOff &&& CMODE_k = 0#32
  limit : st.newlockLimit ≠ 0#32 → st.newlockOff &&& CMODE_l = 0#32

theorem and_eq_zero_iff (word mask : BitVec 32) :
    word &&& mask = 0#32 ↔ ∀ i, ∀ _ : i < 32, word[i] = true → mask[i] = false := by
  constructor
  · intro h i hi hword
    have hbit := congrArg (fun word ↦ word[i]) h
    simpa [hword] using hbit
  · intro h
    ext i hi
    rw [BitVec.getElem_and, BitVec.getElem_zero]
    cases hword : word[i] with
    | false => rfl
    | true => exact h i hi hword

/-- Setting one flag while clearing it in a disjoint word keeps the words disjoint. -/
theorem and_flip_eq_zero {word other : BitVec 32} (h : word &&& other = 0#32) (flag : BitVec 32) :
    (word ||| flag) &&& (other &&& ~~~flag) = 0#32 := by
  rw [and_eq_zero_iff] at h ⊢
  intro i hi hset
  have hdisjoint := h i hi
  simp only [BitVec.getElem_or, BitVec.getElem_and, BitVec.getElem_not] at hset ⊢
  cases hword : word[i] <;> cases hflag : flag[i] <;> simp_all

theorem or_and_eq_zero {word flag mask : BitVec 32} (h : word &&& mask = 0#32)
    (hflag : flag &&& mask = 0#32) : (word ||| flag) &&& mask = 0#32 := by
  rw [BitVec.and_or_distrib_right, h, hflag, BitVec.or_zero]

theorem clear_and_eq_zero {word mask : BitVec 32} (h : word &&& mask = 0#32) (flag : BitVec 32) :
    (word &&& ~~~flag) &&& mask = 0#32 := by
  rw [BitVec.and_assoc, BitVec.and_comm _ mask, ← BitVec.and_assoc, h, BitVec.zero_and]

theorem lockInvariant_lockFlag {st : MlockState} (h : LockInvariant st) {c : Char}
    {flag : BitVec 32} (hflag : (c, flag) ∈ flagTable) (add : Bool) :
    LockInvariant (st.lockFlag add flag) := by
  have htable : ∀ entry ∈ flagTable, entry.2 &&& CMODE_k = 0#32 ∧ entry.2 &&& CMODE_l = 0#32 := by
    decide
  obtain ⟨hk, hl⟩ := htable _ hflag
  cases add with
  | true =>
    exact ⟨and_flip_eq_zero h.on_off flag, or_and_eq_zero h.on_key hk,
      or_and_eq_zero h.on_limit hl, fun hkey ↦ clear_and_eq_zero (h.key hkey) flag,
      fun hlimit ↦ clear_and_eq_zero (h.limit hlimit) flag⟩
  | false =>
    refine ⟨?_, clear_and_eq_zero h.on_key flag, clear_and_eq_zero h.on_limit flag,
      fun hkey ↦ or_and_eq_zero (h.key hkey) hk, fun hlimit ↦ or_and_eq_zero (h.limit hlimit) hl⟩
    have hflip := and_flip_eq_zero ((BitVec.and_comm _ _).trans h.on_off) flag
    exact (BitVec.and_comm _ _).trans hflip

/-- Clearing a flag of the second word. -/
theorem and_clear_eq_zero {word other : BitVec 32} (h : word &&& other = 0#32)
    (flag : BitVec 32) : word &&& (other &&& ~~~flag) = 0#32 := by
  rw [← BitVec.and_assoc, h, BitVec.zero_and]

/-- A cleared flag is not set. -/
theorem clear_and_self (word flag : BitVec 32) : (word &&& ~~~flag) &&& flag = 0#32 := by
  rw [and_eq_zero_iff]
  intro i hi hword
  simp only [BitVec.getElem_and, BitVec.getElem_not, Bool.and_eq_true, Bool.not_eq_true'] at hword
  exact hword.2

theorem lockInvariant_lockKey {st st' : MlockState} (h : LockInvariant st) {add : Bool}
    (hkey : st.lockKey add = .ok st') : LockInvariant st' := by
  cases add with
  | true =>
    cases hwords : st.words with
    | nil => simp [MlockState.lockKey, hwords] at hkey
    | cons word words =>
      simp only [MlockState.lockKey, if_true, hwords, Except.ok.injEq] at hkey
      subst hkey
      exact ⟨and_clear_eq_zero h.on_off _, h.on_key, h.on_limit, fun _ ↦ clear_and_self _ _,
        fun hlimit ↦ clear_and_eq_zero (h.limit hlimit) _⟩
  | false =>
    simp only [MlockState.lockKey, Bool.false_eq_true, if_false, Except.ok.injEq] at hkey
    subst hkey
    refine ⟨?_, h.on_key, h.on_limit, fun hne ↦ absurd rfl hne,
      fun hlimit ↦ or_and_eq_zero (h.limit hlimit) (by decide)⟩
    exact BitVec.and_or_distrib_left.trans (by rw [h.on_off, h.on_key, BitVec.or_zero])

theorem lockInvariant_lockLimit {st st' : MlockState} (h : LockInvariant st) {add : Bool}
    (hlimit : st.lockLimit add = .ok st') : LockInvariant st' := by
  cases add with
  | true =>
    cases hwords : st.words with
    | nil => simp [MlockState.lockLimit, hwords] at hlimit
    | cons word words =>
      simp only [MlockState.lockLimit, if_true, hwords] at hlimit
      split_ifs at hlimit with hpos
      rw [Except.ok.injEq] at hlimit
      subst hlimit
      exact ⟨and_clear_eq_zero h.on_off _, h.on_key, h.on_limit,
        fun hkey ↦ clear_and_eq_zero (h.key hkey) _, fun _ ↦ clear_and_self _ _⟩
  | false =>
    simp only [MlockState.lockLimit, Bool.false_eq_true, if_false, Except.ok.injEq] at hlimit
    subst hlimit
    refine ⟨?_, h.on_key, h.on_limit, fun hkey ↦ or_and_eq_zero (h.key hkey) (by decide),
      fun hne ↦ absurd rfl hne⟩
    exact BitVec.and_or_distrib_left.trans (by rw [h.on_off, h.on_limit, BitVec.or_zero])

theorem lockInvariant_keepOper {st : MlockState} (h : LockInvariant st) (row : MlockRow) :
    LockInvariant (st.keepOper row) := by
  have hO : ('O', CMODE_O) ∈ flagTable := by decide
  simp only [MlockState.keepOper]
  split_ifs
  · exact lockInvariant_lockFlag (lockInvariant_lockFlag h hO true) hO false
  · exact lockInvariant_lockFlag h hO false
  · exact lockInvariant_lockFlag h hO true
  · exact h

/-- One character of the text keeps the invariant. -/
theorem lockInvariant_mlockStep {isOper : Bool} {row : MlockRow} {c : Char} {st st' : MlockState}
    (h : mlockStep isOper row st c = .ok st') (hst : LockInvariant st) : LockInvariant st' := by
  rw [mlockStep] at h
  split_ifs at h
  · cases h
    exact ⟨hst.on_off, hst.on_key, hst.on_limit, hst.key, hst.limit⟩
  · cases h
    exact ⟨hst.on_off, hst.on_key, hst.on_limit, hst.key, hst.limit⟩
  · cases hadd : st.add with
    | none =>
      rw [hadd] at h
      cases h
      exact hst
    | some add =>
      simp only [hadd, mlockLetter] at h
      split_ifs at h
      · exact lockInvariant_lockKey hst h
      · exact lockInvariant_lockLimit hst h
      · cases h
        exact lockInvariant_keepOper hst row
      · cases hflag : flagOf c with
        | some flag =>
          rw [hflag] at h
          cases h
          exact lockInvariant_lockFlag hst (mem_flagTable_of_flagOf hflag) add
        | none =>
          rw [hflag] at h
          cases h
          exact ⟨hst.on_off, hst.on_key, hst.on_limit, hst.key, hst.limit⟩

theorem lockInvariant_mlockLoop {isOper : Bool} {row : MlockRow} {param : CString}
    {st st' : MlockState} (h : mlockLoop isOper row param st = .ok st') (hst : LockInvariant st) :
    LockInvariant st' := by
  induction param generalizing st with
  | nil =>
    rw [mlockLoop, Except.ok.injEq] at h
    exact h ▸ hst
  | cons c param ih =>
    rw [mlockLoop] at h
    cases hstep : mlockStep isOper row st c with
    | error err =>
      rw [hstep] at h
      cases h
    | ok st₁ =>
      rw [hstep] at h
      exact ih h (lockInvariant_mlockStep hstep hst)

theorem consistent_update {st : MlockState} (h : LockInvariant st) :
    Consistent (some st.update) := by
  refine ⟨?_, ?_, ?_⟩
  · rw [getMlockOn_some, getMlockOff_some]
    exact h.on_off
  · intro hlocked
    rw [getMlockOff_some]
    refine h.key fun hnil ↦ hlocked ?_
    have hkey : st.update.mlockKey = [] := by simp [MlockState.update, hnil]
    simp [lockedKey, getMlockKey, hkey, Option.filter]
  · intro hlimit
    rw [getMlockLimit_some] at hlimit
    rw [getMlockOff_some]
    exact h.limit hlimit

theorem consistent_doSetMlock {isOper : Bool} {row : MlockRow} {param : Option CString}
    {rest : CString} (hrow : Consistent (some row)) :
    Consistent (some (doSetMlock isOper row param rest).2) := by
  cases param with
  | none => exact hrow
  | some param =>
    simp only [doSetMlock]
    cases hloop : mlockLoop isOper row (if isOff param then [] else param)
        (.start param (strtokWords rest)) with
    | error err => exact hrow
    | ok st =>
      by_cases hsign : st.add = none
      · simp only [if_pos hsign]
        exact hrow
      · simp only [if_neg hsign]
        exact consistent_update (lockInvariant_mlockLoop hloop ⟨BitVec.zero_and, BitVec.zero_and,
          BitVec.zero_and, fun _ ↦ BitVec.zero_and, fun _ ↦ BitVec.zero_and⟩)

theorem consistent_none : Consistent none :=
  ⟨by decide, fun _ ↦ by decide, fun _ ↦ by decide⟩

/-- The lock of a new channel. -/
theorem consistent_register : Consistent (some ⟨CMODE_n, 0#32, 0#32, []⟩) := by
  refine ⟨?_, ?_, ?_⟩
  · rw [getMlockOn_some, getMlockOff_some]
    exact BitVec.and_zero
  · intro _
    rw [getMlockOff_some]
    exact BitVec.zero_and
  · intro _
    rw [getMlockOff_some]
    exact BitVec.zero_and

/-- One command keeps the lock without contradictions. -/
theorem consistent_run {row : Option MlockRow} {op : MlockOp} (hop : op.Meets)
    (hrow : Consistent row) : Consistent (op.run row) := by
  cases row with
  | none =>
    cases op with
    | register => exact consistent_register
    | setMlock isOper param rest => exact consistent_none
    | lockOn modes => exact consistent_none
  | some row =>
    cases op with
    | register => exact hrow
    | setMlock isOper param rest => exact consistent_doSetMlock hrow
    | lockOn modes =>
      obtain rfl : modes = 0#32 := hop
      have hsame : removeMlockOff (addMlockOn row 0#32) 0#32 = row := by
        simp [removeMlockOff, addMlockOn]
      rw [MlockOp.run, hsame]
      exact hrow

/-- A lock without contradictions stays so along a run. -/
theorem consistent_runs {ops : List MlockOp} {row : Option MlockRow} (hops : ∀ op ∈ ops, op.Meets)
    (hrow : Consistent row) : Consistent (ops.foldl (fun row op ↦ op.run row) row) := by
  induction ops generalizing row with
  | nil => exact hrow
  | cons op ops ih =>
    exact ih (fun op' hmem ↦ hops op' (List.mem_cons_of_mem _ hmem))
      (consistent_run (hops op (List.mem_cons_self ..)) hrow)

/-- SET MLOCK stores the lock asked for exactly when the last key and number fit, and a run that
does not call the helpers leaves no mode locked both on and off. -/
theorem doSetMlock_locked_iff (isOper : Bool) (row : MlockRow) (param rest : CString)
    (ops : List MlockOp) :
    (SetsLock isOper row param rest ↔
      (Accepted param rest → Fits (occurrences none (strtokWords rest) param))) ∧
    ((∀ op ∈ ops, op.Meets) → Consistent (ops.foldl (fun row op ↦ op.run row) none)) :=
  ⟨setsLock_iff isOper row param rest, fun hops ↦ consistent_runs hops consistent_none⟩

/-- A registration, then a lock with a key and `s` locked off. -/
theorem doSetMlock_locked_iff_run :
    Consistent ([MlockOp.register, .setMlock false (some "+k-s".toList) "oftc".toList].foldl
      (fun row op ↦ op.run row) none) := by
  refine (doSetMlock_locked_iff false ⟨0#32, 0#32, 0#32, []⟩ [] [] _).2 fun op hmem ↦ ?_
  rcases List.mem_cons.mp hmem with rfl | hmem
  · trivial
  · rw [List.mem_singleton.mp hmem]
    trivial

/-- A limit of `2 ^ 32` is accepted and stored as no limit, and the helpers lock `n` both ways. -/
theorem doSetMlock_not_locked :
    ¬ SetsLock false ⟨CMODE_n, 0#32, 0#32, []⟩ "+l".toList "4294967296".toList ∧
      ¬ Consistent ([MlockOp.register, .lockOn CMODE_n].foldl (fun row op ↦ op.run row) none) := by
  constructor
  · intro hset
    have hos : occurrences none (strtokWords "4294967296".toList) "+l".toList =
        [⟨'l', true, "4294967296".toList⟩] := by rfl
    have haccepted : Accepted "+l".toList "4294967296".toList := by
      refine ⟨Or.inr (Or.inl (by decide)), ?_⟩
      rw [hos]
      exact ⟨by decide, by decide⟩
    have hfits := (setsLock_iff _ _ _ _).mp hset haccepted
    rw [hos] at hfits
    exact absurd (hfits.limit _ rfl rfl) (by decide)
  · intro hconsistent
    have hboth := hconsistent.on_off
    simp only [List.foldl_cons, List.foldl_nil, MlockOp.run, getMlockOn_some, getMlockOff_some]
      at hboth
    exact absurd hboth (by decide)

end BlitzedServices.ChanServ
