import BlitzedServices.Lib.OffsetTable

/-!
# The compiler of language files

`langcomp` collects the lines of text under every string name of the index and writes the number of strings, a
table of their positions and lengths, and the strings. `langcomp_wellFormed` says what it writes for a well-formed
source file. The source file is the list of its bytes; what goes to stderr is left out.
-/

set_option autoImplicit false
set_option relaxedAutoImplicit false

namespace BlitzedServices.Lang

open Lib

/-- `'\n'`. -/
def newline : UInt8 := 10

/-- `'\t'`. -/
def tab : UInt8 := 9

/-- `'#'`. -/
def hash : UInt8 := 35

/-! ### Reading -/

/-- The loop of `fgets` with room for some bytes, and what is left of the file. -/
def readChunk : ℕ → List UInt8 → List UInt8 × List UInt8
  | 0, f => ([], f)
  | _ + 1, [] => ([], [])
  | room + 1, c :: f =>
    if c = newline then ([c], f) else ((c :: (readChunk room f).1), (readChunk room f).2)

/-- `fgets`, where `none` is the end of the file. -/
def fgets (size : ℕ) (f : List UInt8) : Option (List UInt8 × List UInt8) :=
  if f = [] then none else some (readChunk (size - 1) f)

/-- The string in a buffer. -/
def cString (buf : List UInt8) : List UInt8 := buf.takeWhile (· ≠ 0)

/-- `s = buf + strlen(buf) - 1; if (*s == '\n') *s = 0`. -/
def killNewline (buf : List UInt8) : List UInt8 :=
  if (cString buf).getLast? = some newline then (cString buf).dropLast else cString buf

/-- The lines that `getline` leaves out. -/
def isSkipped (buf : List UInt8) : Bool := buf.head? = some hash || buf.head? = some newline

/-- `getline`. -/
def getline : ℕ → List UInt8 → Option (List UInt8 × List UInt8)
  | 0, _ => none
  | fuel + 1, f =>
    (fgets 1024 f).bind fun (buf, f) ↦ if isSkipped buf then getline fuel f else some (killNewline buf, f)

/-! ### Collecting -/

/-- The strings loaded so far, and the variables of `main`. -/
structure Compiler where
  strings : List (Option (List UInt8))
  curstring : ℤ
  retval : ℕ
  maxerr : ℕ

/-- The values before the first line. -/
def Compiler.initial (numstrings : ℕ) : Compiler := ⟨List.replicate numstrings none, -2, 0, 50⟩

/-- `stringnum`. -/
def stringnum (stringnames : List (List UInt8)) (name : List UInt8) : ℤ :=
  match stringnames.findIdx? (· = name) with
  | some i => i
  | none => -1

/-- A line of text, without its tab. -/
def addText (line : List UInt8) (c : Compiler) : Compiler :=
  if c.curstring = -2 then { c with retval := 1 }
  else if 0 ≤ c.curstring then
    { c with
      strings := c.strings.modify c.curstring.toNat
        (fun string ↦ some (string.getD [] ++ line ++ [newline])) }
  else c

/-- A line with a string name. -/
def startString (stringnames : List (List UInt8)) (line : List UInt8) (c : Compiler) : Compiler :=
  let c := { c with curstring := stringnum stringnames line }
  if c.curstring < 0 then { c with retval := 1, maxerr := c.maxerr - 1 }
  else if ((c.strings.getD c.curstring.toNat none).isSome) then { c with retval := 1, maxerr := c.maxerr - 1 }
  else { c with strings := c.strings.set c.curstring.toNat (some []) }

/-- The body of the loop of `main`. -/
def compileLine (stringnames : List (List UInt8)) (c : Compiler) (line : List UInt8) : Compiler :=
  match line with
  | [] => startString stringnames [] c
  | b :: text => if b = tab then addText text c else startString stringnames (b :: text) c

/-- The loop of `main`. -/
def compileLines (stringnames : List (List UInt8)) : ℕ → List UInt8 → Compiler → Compiler
  | 0, _, c => c
  | fuel + 1, f, c =>
    if c.maxerr = 0 then c
    else
      match getline (f.length + 1) f with
      | none => c
      | some (line, f) => compileLines stringnames fuel f (compileLine stringnames c line)

/-! ### Writing -/

/-- `fputc` of an integer. -/
def fputc (val : BitVec 32) : UInt8 := ⟨val.setWidth 8⟩

/-- `fput32`. -/
def fput32 (val : BitVec 32) : List UInt8 :=
  [fputc (val.sshiftRight 24), fputc (val.sshiftRight 16), fputc (val.sshiftRight 8), fputc val]

/-- The length that is written for a string. -/
def stringLength : Option (List UInt8) → ℕ
  | some string => if string = [] then 0 else string.length - 1
  | none => 0

/-- The table from a position on. -/
def putTable : BitVec 32 → List (Option (List UInt8)) → List UInt8
  | _, [] => []
  | pos, string :: strings =>
    fput32 pos ++ fput32 (BitVec.ofNat 32 (stringLength string)) ++
      putTable (pos + BitVec.ofNat 32 (stringLength string)) strings

/-- A string without its last newline. -/
def putString : Option (List UInt8) → List UInt8
  | some string => string.dropLast
  | none => []

/-- The compiled file. -/
def putStrings (strings : List (Option (List UInt8))) : List UInt8 :=
  fput32 (BitVec.ofNat 32 strings.length) ++ putTable (BitVec.ofNat 32 (strings.length * 8 + 4)) strings ++
    (strings.map putString).flatten

/-- The return value of `langcomp` and the file it writes. -/
def langcomp (stringnames : List (List UInt8)) (source : List UInt8) : ℕ × List UInt8 :=
  let c := compileLines stringnames (source.length + 1) source (.initial stringnames.length)
  (c.retval, putStrings c.strings)

/-! ### Source files -/

/-- The file with some lines. -/
def fileOf (lines : List (List UInt8)) : List UInt8 := [newline].intercalate lines

/-- The lines that are neither comments nor blank. -/
def keptLines (lines : List (List UInt8)) : List (List UInt8) :=
  lines.filter fun line ↦ line ≠ [] ∧ line.head? ≠ some hash

/-- The text in front of the first string name, and every string name with the text behind it. -/
def sections : List (List UInt8) → List (List UInt8) × List (List UInt8 × List (List UInt8))
  | [] => ([], [])
  | line :: lines =>
    if line.head? = some tab then (line.tail :: (sections lines).1, (sections lines).2)
    else ([], (line, (sections lines).1) :: (sections lines).2)

/-- The lines of text of a string. -/
def textLines (lines : List (List UInt8)) (name : List UInt8) : Option (List (List UInt8)) :=
  ((sections (keptLines lines)).2.find? fun x ↦ x.1 = name).map Prod.snd

/-- The text of a string. -/
def sourceText (lines : List (List UInt8)) (name : List UInt8) : Option (List UInt8) :=
  (textLines lines name).map fun text ↦ [newline].intercalate text

/-- Lines of a text file that fit into the buffer of `getline`. -/
def Readable (lines : List (List UInt8)) : Prop :=
  ∀ line ∈ lines, newline ∉ line ∧ 0 ∉ line ∧ line.length < 1024

/-- Every string is defined at most once, by a name of the index, and no text stands in front of the first. -/
structure WellFormed (stringnames lines : List (List UInt8)) : Prop where
  nodup : stringnames.Nodup
  readable : Readable lines
  begins : (sections (keptLines lines)).1 = []
  known : ∀ x ∈ (sections (keptLines lines)).2, x.1 ∈ stringnames
  once : ((sections (keptLines lines)).2.map Prod.fst).Nodup

section Reading

variable {l f : List UInt8} {lines : List (List UInt8)} {room : ℕ}

theorem fileOf_cons_cons (l m : List UInt8) (lines : List (List UInt8)) :
    fileOf (l :: m :: lines) = l ++ newline :: fileOf (m :: lines) := by
  rw [fileOf, List.intercalate_cons_cons, List.append_assoc]
  rfl

theorem readChunk_line (hl : newline ∉ l) (hroom : l.length < room) :
    readChunk room (l ++ newline :: f) = (l ++ [newline], f) := by
  induction l generalizing room with
  | nil =>
    obtain ⟨room, rfl⟩ : ∃ k, room = k + 1 := ⟨room - 1, by simp at hroom; omega⟩
    simp [readChunk]
  | cons c l ih =>
    rw [List.length_cons] at hroom
    obtain ⟨room, rfl⟩ : ∃ k, room = k + 1 := ⟨room - 1, by omega⟩
    obtain ⟨hc, hl⟩ := not_or.mp (List.mem_cons.not.mp hl)
    rw [List.cons_append, readChunk, if_neg (Ne.symm hc), ih hl (by omega)]
    rfl

theorem readChunk_full (hl : newline ∉ l) : readChunk l.length (l ++ f) = (l, f) := by
  induction l with
  | nil => rfl
  | cons c l ih =>
    obtain ⟨hc, hl⟩ := not_or.mp (List.mem_cons.not.mp hl)
    rw [List.length_cons, List.cons_append, readChunk, if_neg (Ne.symm hc), ih hl]

theorem readChunk_end (hl : newline ∉ l) (hroom : l.length ≤ room) : readChunk room l = (l, []) := by
  induction l generalizing room with
  | nil => cases room <;> rfl
  | cons c l ih =>
    rw [List.length_cons] at hroom
    obtain ⟨room, rfl⟩ : ∃ k, room = k + 1 := ⟨room - 1, by omega⟩
    obtain ⟨hc, hl⟩ := not_or.mp (List.mem_cons.not.mp hl)
    rw [readChunk, if_neg (Ne.symm hc), ih hl (by omega)]

theorem cString_of_not_mem (hl : 0 ∉ l) : cString l = l :=
  List.takeWhile_eq_self_iff.mpr fun c hc ↦ by simpa using ne_of_mem_of_not_mem hc hl

theorem killNewline_line (hzero : 0 ∉ l) : killNewline (l ++ [newline]) = l := by
  have hfree : (0 : UInt8) ∉ l ++ [newline] := by
    rw [List.mem_append, not_or]
    exact ⟨hzero, by decide⟩
  rw [killNewline, cString_of_not_mem hfree, if_pos List.getLast?_concat, List.dropLast_concat]

theorem killNewline_chunk (hl : newline ∉ l) (hzero : 0 ∉ l) : killNewline l = l := by
  rw [killNewline, cString_of_not_mem hzero, if_neg fun hlast ↦ hl (List.mem_of_getLast? hlast)]

theorem keptLines_skip (hl : l = [] ∨ l.head? = some hash) (lines : List (List UInt8)) :
    keptLines (l :: lines) = keptLines lines := by
  rw [keptLines, List.filter_cons_of_neg]
  · rfl
  · simpa using or_iff_not_imp_left.mp hl

theorem keptLines_cons (hl : l ≠ []) (hhash : l.head? ≠ some hash) (lines : List (List UInt8)) :
    keptLines (l :: lines) = l :: keptLines lines := by
  rw [keptLines, List.filter_cons_of_pos]
  · rfl
  · simpa using ⟨hl, hhash⟩

theorem keptLines_of_fileOf_eq_nil (hfile : fileOf lines = []) : keptLines lines = [] := by
  cases lines with
  | nil => rfl
  | cons l lines =>
    cases lines with
    | nil =>
      have hl : l = [] := by simpa [fileOf] using hfile
      rw [keptLines_skip (.inl hl)]
      rfl
    | cons m lines =>
      rw [fileOf_cons_cons] at hfile
      exact absurd hfile (by simp)

/-- One call of `fgets` takes the first line, and from a line that fills the buffer leaves its newline. -/
theorem fgets_fileOf (h : Readable lines) (hne : fileOf lines ≠ []) :
    ∃ buf lines', fgets 1024 (fileOf lines) = some (buf, fileOf lines') ∧ Readable lines' ∧
      (fileOf lines').length < (fileOf lines).length ∧
      (isSkipped buf → keptLines lines' = keptLines lines) ∧
      (¬ isSkipped buf → keptLines lines = killNewline buf :: keptLines lines') := by
  cases lines with
  | nil => exact absurd rfl hne
  | cons l lines =>
    obtain ⟨⟨hl, hzero, hshort⟩, hlines⟩ := List.forall_mem_cons.mp h
    rw [fgets, if_neg hne]
    have hkept (lines' : List (List UInt8)) (buf : List UInt8) (hnil : l ≠ []) (hhead : buf.head? = l.head?)
        (hkill : killNewline buf = l) (hsame : keptLines lines' = keptLines lines) :
        (isSkipped buf → keptLines lines' = keptLines (l :: lines)) ∧
          (¬ isSkipped buf → keptLines (l :: lines) = killNewline buf :: keptLines lines') := by
      have hnewline : l.head? ≠ some newline := fun hhead ↦ hl (List.mem_of_head? hhead)
      have hskip : isSkipped buf ↔ l.head? = some hash := by
        rw [isSkipped, hhead]
        simp [hnewline]
      rw [hskip, hsame, hkill]
      constructor
      · intro hcomment
        rw [keptLines_skip (.inr hcomment)]
      · intro hcomment
        rw [keptLines_cons hnil hcomment]
    cases lines with
    | nil =>
      have hfile : fileOf [l] = l := by simp [fileOf]
      have hnil : l ≠ [] := hfile ▸ hne
      rw [hfile, readChunk_end hl (by omega)]
      refine ⟨l, [], rfl, List.forall_mem_nil _, List.length_pos_iff.mpr hnil, ?_⟩
      exact hkept [] l hnil rfl (killNewline_chunk hl hzero) rfl
    | cons m lines =>
      rw [fileOf_cons_cons]
      by_cases hfull : l.length < 1023
      · rw [readChunk_line hl hfull]
        refine ⟨_, m :: lines, rfl, hlines, by simp; omega, ?_⟩
        by_cases hnil : l = []
        · subst hnil
          refine ⟨fun _ ↦ ?_, fun hskip ↦ absurd rfl hskip⟩
          rw [keptLines_skip (.inl rfl)]
        · exact hkept (m :: lines) (l ++ [newline]) hnil (List.head?_append_of_ne_nil l hnil)
            (killNewline_line hzero) rfl
      · have hlength : l.length = 1024 - 1 := by omega
        rw [← hlength, readChunk_full hl]
        refine ⟨l, [] :: m :: lines, by rw [fileOf_cons_cons]; rfl, ?_, ?_, ?_⟩
        · exact List.forall_mem_cons.mpr ⟨⟨List.not_mem_nil, List.not_mem_nil, by decide⟩, hlines⟩
        · rw [fileOf_cons_cons, List.length_append, List.length_append]
          simp
          omega
        · refine hkept ([] :: m :: lines) l ?_ rfl (killNewline_chunk hl hzero) ?_
          · rintro rfl
            simp at hlength
          · rw [keptLines_skip (.inl rfl)]

/-- `getline` returns the lines that are neither comments nor blank. -/
theorem getline_fileOf (h : Readable lines) (fuel : ℕ) (hfuel : (fileOf lines).length < fuel) :
    (keptLines lines = [] → getline fuel (fileOf lines) = none) ∧
      ∀ l rest, keptLines lines = l :: rest → ∃ lines', getline fuel (fileOf lines) = some (l, fileOf lines') ∧
        keptLines lines' = rest ∧ Readable lines' ∧ (fileOf lines').length < (fileOf lines).length := by
  induction fuel generalizing lines with
  | zero => exact absurd hfuel (Nat.not_lt_zero _)
  | succ fuel ih =>
    rw [getline]
    by_cases hne : fileOf lines = []
    · have hkept := keptLines_of_fileOf_eq_nil hne
      rw [hne, fgets, if_pos rfl, hkept]
      exact ⟨fun _ ↦ rfl, fun l rest hlines ↦ absurd hlines (List.cons_ne_nil l rest).symm⟩
    · obtain ⟨buf, lines', hbuf, hreadable, hshorter, hskipped, hkept⟩ := fgets_fileOf h hne
      rw [hbuf, Option.bind_some]
      by_cases hskip : isSkipped buf
      · obtain ⟨hnone, hsome⟩ := ih hreadable (by omega)
        simp only [if_pos hskip]
        rw [← hskipped hskip]
        refine ⟨hnone, fun l rest hlines ↦ ?_⟩
        obtain ⟨lines'', hget, hrest, hreadable', hshorter'⟩ := hsome l rest hlines
        exact ⟨lines'', hget, hrest, hreadable', hshorter'.trans hshorter⟩
      · simp only [if_neg hskip]
        rw [hkept hskip]
        refine ⟨fun hnil ↦ absurd hnil (List.cons_ne_nil _ _), fun l rest hlines ↦ ?_⟩
        obtain ⟨rfl, rfl⟩ := List.cons.inj hlines
        exact ⟨lines', rfl, rfl, hreadable, hshorter⟩

end Reading

/-! ### The strings of a source file -/

section Collecting

variable {stringnames lines : List (List UInt8)} {c : Compiler} {name : List UInt8} {k : ℕ}

/-- The loop takes the kept lines until there are too many errors. -/
theorem compileLines_fileOf (h : Readable lines) (fuel : ℕ) (hfuel : (fileOf lines).length < fuel) :
    compileLines stringnames fuel (fileOf lines) c =
      (keptLines lines).foldl (fun c line ↦ if c.maxerr = 0 then c else compileLine stringnames c line) c := by
  induction fuel generalizing lines c with
  | zero => exact absurd hfuel (Nat.not_lt_zero _)
  | succ fuel ih =>
    obtain ⟨hnone, hsome⟩ := getline_fileOf h ((fileOf lines).length + 1) (Nat.lt_succ_self _)
    rw [compileLines]
    by_cases hmax : c.maxerr = 0
    · rw [if_pos hmax]
      have hstays (kept : List (List UInt8)) :
          kept.foldl (fun c line ↦ if c.maxerr = 0 then c else compileLine stringnames c line) c = c := by
        induction kept with
        | nil => rfl
        | cons line kept ihkept => rw [List.foldl_cons, if_pos hmax, ihkept]
      rw [hstays]
    · rw [if_neg hmax]
      cases hkept : keptLines lines with
      | nil =>
        rw [hnone hkept]
        rfl
      | cons line kept =>
        obtain ⟨lines', hget, rfl, hreadable, hshorter⟩ := hsome line kept hkept
        rw [hget, List.foldl_cons, if_neg hmax]
        exact ih hreadable (by omega)

/-- The text that is collected for some lines. -/
def collected (text : List (List UInt8)) : List UInt8 := text.flatMap (· ++ [newline])

theorem stringnum_getElem (hnodup : stringnames.Nodup) (hk : k < stringnames.length) :
    stringnum stringnames stringnames[k] = k := by
  have hfind : stringnames.findIdx? (· = stringnames[k]) = some k := by
    rw [List.findIdx?_eq_some_iff_getElem]
    refine ⟨hk, by simp, fun j hj ↦ ?_⟩
    have hne : stringnames[j] ≠ stringnames[k] := fun heq ↦ hj.ne (hnodup.getElem_inj_iff.mp heq)
    simpa using hne
  rw [stringnum, hfind]

/-- The lines of text are added to the current string. -/
theorem foldl_text (hcurrent : c.curstring = k) (hmax : c.maxerr ≠ 0) (string : List UInt8)
    (hstring : c.strings[k]? = some (some string)) (text : List (List UInt8)) :
    (text.map (tab :: ·)).foldl (fun c line ↦ if c.maxerr = 0 then c else compileLine stringnames c line) c =
      { c with strings := c.strings.set k (some (string ++ collected text)) } := by
  induction text generalizing c string with
  | nil =>
    obtain ⟨hk, hget⟩ := List.getElem?_eq_some_iff.mp hstring
    have hset : c.strings.set k (some (string ++ collected [])) = c.strings := by
      rw [collected, List.flatMap_nil, List.append_nil, ← hget, List.set_getElem_self]
    rw [hset]
    rfl
  | cons line text ih =>
    have hadd : compileLine stringnames c (tab :: line) =
        { c with strings := c.strings.set k (some (string ++ line ++ [newline])) } := by
      have hnew : c.curstring ≠ -2 := by omega
      have hnat : c.curstring.toNat = k := by omega
      rw [compileLine, if_pos rfl, addText, if_neg hnew, if_pos (by omega), hnat,
        List.modify_eq_set_getElem?, hstring]
      rfl
    rw [List.map_cons, List.foldl_cons, if_neg hmax, hadd]
    obtain ⟨hk, -⟩ := List.getElem?_eq_some_iff.mp hstring
    rw [ih (c := { c with strings := c.strings.set k (some (string ++ line ++ [newline])) }) hcurrent hmax
      (string ++ line ++ [newline]) (List.getElem?_set_self hk)]
    simp only [List.set_set, collected, List.flatMap_cons, List.append_assoc]

/-- A string name and the lines behind it. -/
theorem foldl_section (hnodup : stringnames.Nodup) (hk : k < stringnames.length) (hmax : c.maxerr ≠ 0)
    (hstring : c.strings[k]? = some none) (hname : stringnames[k].head? ≠ some tab)
    (text : List (List UInt8)) :
    (stringnames[k] :: text.map (tab :: ·)).foldl
        (fun c line ↦ if c.maxerr = 0 then c else compileLine stringnames c line) c =
      { c with curstring := k, strings := c.strings.set k (some (collected text)) } := by
  have hstart : compileLine stringnames c stringnames[k] =
      { c with curstring := k, strings := c.strings.set k (some []) } := by
    have hbody : compileLine stringnames c stringnames[k] = startString stringnames stringnames[k] c := by
      cases hline : stringnames[k] with
      | nil => rfl
      | cons b line =>
        rw [hline] at hname
        rw [compileLine, if_neg fun hb ↦ hname (congrArg some hb)]
    rw [hbody, startString]
    dsimp only
    rw [stringnum_getElem hnodup hk, if_neg (by omega), Int.toNat_natCast, List.getD_eq_getElem?_getD, hstring]
    rfl
  rw [List.foldl_cons, if_neg hmax, hstart]
  obtain ⟨hk, -⟩ := List.getElem?_eq_some_iff.mp hstring
  rw [foldl_text (c := { c with curstring := k, strings := c.strings.set k (some []) }) rfl hmax []
    (List.getElem?_set_self hk)]
  simp only [List.set_set, List.nil_append]

/-- The lines in front of the first string name and the sections are the lines. -/
theorem sections_flatten (lines : List (List UInt8)) :
    lines = (sections lines).1.map (tab :: ·) ++
      (sections lines).2.flatMap fun x ↦ x.1 :: x.2.map (tab :: ·) := by
  induction lines with
  | nil => rfl
  | cons line lines ih =>
    rw [sections]
    split_ifs with htext
    · obtain ⟨text, rfl⟩ : ∃ text, line = tab :: text := List.head?_eq_some_iff.mp htext
      rw [List.map_cons, List.cons_append, ← ih]
      rfl
    · rw [List.map_nil, List.nil_append, List.flatMap_cons, List.cons_append, ← ih]

theorem sections_names {x : List UInt8 × List (List UInt8)} (hx : x ∈ (sections lines).2) :
    x.1.head? ≠ some tab := by
  induction lines with
  | nil => exact absurd hx List.not_mem_nil
  | cons line lines ih =>
    rw [sections] at hx
    split_ifs at hx with htext
    · exact ih hx
    · rcases List.mem_cons.mp hx with rfl | hx
      · exact htext
      · exact ih hx

/-- Sections with different names of strings that are not loaded yet fill these strings and no others. -/
theorem foldl_sections (hnodup : stringnames.Nodup) (hmax : c.maxerr ≠ 0)
    (hlength : c.strings.length = stringnames.length) (secs : List (List UInt8 × List (List UInt8)))
    (hsecs : ∀ x ∈ secs, x.1.head? ≠ some tab) (honce : (secs.map Prod.fst).Nodup)
    (hknown : ∀ x ∈ secs, ∃ k, ∃ hk : k < stringnames.length, stringnames[k] = x.1 ∧ c.strings[k]? = some none) :
    ∃ c', (secs.flatMap fun x ↦ x.1 :: x.2.map (tab :: ·)).foldl
        (fun c line ↦ if c.maxerr = 0 then c else compileLine stringnames c line) c = c' ∧
      c'.retval = c.retval ∧ c'.strings.length = stringnames.length ∧
      ∀ k (hk : k < stringnames.length), c'.strings[k]? =
        match secs.find? fun x ↦ x.1 = stringnames[k] with
        | some x => some (some (collected x.2))
        | none => c.strings[k]? := by
  induction secs generalizing c with
  | nil => exact ⟨c, rfl, rfl, hlength, fun _ _ ↦ rfl⟩
  | cons x secs ih =>
    obtain ⟨hx, hsecs⟩ := List.forall_mem_cons.mp hsecs
    obtain ⟨⟨k, hk, hname, hstring⟩, hknown⟩ := List.forall_mem_cons.mp hknown
    obtain ⟨hnot, honce⟩ := List.nodup_cons.mp honce
    have hfirst := foldl_section hnodup hk hmax hstring (by rwa [hname]) x.2
    rw [hname] at hfirst
    obtain ⟨c', hc', hretval, hlength', hstrings⟩ :=
      ih (c := { c with curstring := k, strings := c.strings.set k (some (collected x.2)) }) hmax
        (by rw [List.length_set, hlength]) hsecs honce (fun y hy ↦ by
          obtain ⟨j, hj, hjname, hjstring⟩ := hknown y hy
          refine ⟨j, hj, hjname, ?_⟩
          rw [List.getElem?_set_ne, hjstring]
          rintro rfl
          exact hnot (List.mem_map.mpr ⟨y, hy, hjname.symm.trans hname⟩))
    refine ⟨c', ?_, hretval, hlength', fun j hj ↦ ?_⟩
    · rw [List.flatMap_cons, List.foldl_append, hfirst, hc']
    · rw [hstrings j hj]
      by_cases hjk : j = k
      · subst hjk
        have hother : secs.find? (fun y ↦ y.1 = stringnames[j]) = none := by
          rw [List.find?_eq_none]
          intro y hy
          have hne : y.1 ≠ stringnames[j] := fun heq ↦
            hnot (List.mem_map.mpr ⟨y, hy, heq.trans hname⟩)
          simpa using hne
        rw [hother, List.find?_cons_of_pos (by simpa using hname.symm)]
        exact List.getElem?_set_self (hlength ▸ hk)
      · have hne : x.1 ≠ stringnames[j] := by
          rw [← hname]
          exact fun heq ↦ hjk (hnodup.getElem_inj_iff.mp heq).symm
        rw [List.find?_cons_of_neg (by simpa using hne)]
        cases secs.find? fun y ↦ y.1 = stringnames[j] with
        | some y => rfl
        | none => exact List.getElem?_set_ne (Ne.symm hjk)

theorem wellFormed_find (h : WellFormed stringnames lines) {x : List UInt8 × List (List UInt8)}
    (hx : x ∈ (sections (keptLines lines)).2) :
    ∃ k, ∃ hk : k < stringnames.length, stringnames[k] = x.1 ∧
      (Compiler.initial stringnames.length).strings[k]? = some none := by
  obtain ⟨k, hk, hname⟩ := List.mem_iff_getElem.mp (h.known x hx)
  exact ⟨k, hk, hname, by rw [Compiler.initial, List.getElem?_replicate_of_lt hk]⟩

/-- A well-formed source file is compiled without an error, and every string has its lines of text. -/
theorem langcomp_wellFormed (h : WellFormed stringnames lines) :
    langcomp stringnames (fileOf lines) =
      (0, putStrings (stringnames.map fun name ↦ (textLines lines name).map collected)) := by
  have hlength : (Compiler.initial stringnames.length).strings.length = stringnames.length :=
    List.length_replicate
  obtain ⟨c, hc, hretval, hlength', hstrings⟩ := foldl_sections h.nodup
    (c := Compiler.initial stringnames.length) (Nat.succ_ne_zero 49) hlength (sections (keptLines lines)).2
    (fun x hx ↦ sections_names hx) h.once fun x hx ↦ wellFormed_find h hx
  have hlines : keptLines lines = (sections (keptLines lines)).2.flatMap fun x ↦ x.1 :: x.2.map (tab :: ·) := by
    have hflatten := sections_flatten (keptLines lines)
    rw [h.begins] at hflatten
    exact hflatten
  have hrun : compileLines stringnames ((fileOf lines).length + 1) (fileOf lines)
      (.initial stringnames.length) = c := by
    rw [compileLines_fileOf h.readable _ (Nat.lt_succ_self _)]
    nth_rewrite 1 [hlines]
    exact hc
  have hmap : c.strings = stringnames.map fun name ↦ (textLines lines name).map collected := by
    refine List.ext_getElem? fun k ↦ ?_
    by_cases hk : k < stringnames.length
    · rw [hstrings k hk, List.getElem?_map, List.getElem?_eq_getElem hk, Option.map_some, textLines]
      cases (sections (keptLines lines)).2.find? fun x ↦ x.1 = stringnames[k] with
      | some x => rfl
      | none => exact List.getElem?_replicate_of_lt hk
    · rw [List.getElem?_eq_none (hlength' ▸ not_lt.mp hk),
        List.getElem?_eq_none (by rw [List.length_map]; exact not_lt.mp hk)]
  rw [langcomp, hrun, hretval, hmap]
  rfl

end Collecting

/-! ### The compiled file -/

section Writing

variable {text : List (List UInt8)}

/-- Joined lines are what is collected, without the last newline. -/
theorem collected_dropLast (text : List (List UInt8)) :
    (collected text).dropLast = [newline].intercalate text := by
  induction text with
  | nil => rfl
  | cons line text ih =>
    cases text with
    | nil => simp [collected]
    | cons next text =>
      have hne : collected (next :: text) ≠ [] := by simp [collected]
      have hfirst : collected (line :: next :: text) = line ++ [newline] ++ collected (next :: text) := rfl
      rw [hfirst, List.dropLast_append_of_ne_nil hne, ih, List.intercalate_cons_cons]

@[simp] theorem length_fput32 (val : BitVec 32) : (fput32 val).length = 4 := rfl

theorem stringLength_eq (string : Option (List UInt8)) : stringLength string = (putString string).length := by
  cases string with
  | none => rfl
  | some string =>
    rw [stringLength, putString, List.length_dropLast]
    split_ifs with hnil
    · rw [hnil]
      rfl
    · rfl

theorem putTable_eq (pos : ℕ) (strings : List (Option (List UInt8))) :
    putTable (BitVec.ofNat 32 pos) strings =
      offsetTable (fun n ↦ fput32 (BitVec.ofNat 32 n)) pos (strings.map putString) := by
  induction strings generalizing pos with
  | nil => rfl
  | cons string strings ih =>
    rw [putTable, List.map_cons, offsetTable, stringLength_eq, ← BitVec.ofNat_add, ih]

/-- The compiled file has a count, a table and the strings. -/
theorem putStrings_eq (strings : List (Option (List UInt8))) :
    putStrings strings = packed (fun n ↦ fput32 (BitVec.ofNat 32 n)) 4 (strings.map putString) := by
  have hoffset : strings.length * 8 + 4 = firstOffset 4 strings.length := rfl
  rw [putStrings, packed, hoffset, putTable_eq, List.length_map]

end Writing

end BlitzedServices.Lang
