import BlitzedServices.Lib.Strtok
import BlitzedServices.Lib.TextBuffer

/-!
# The path of a help file

`do_help` makes a path from the words of a topic in a buffer of 256 bytes. Special characters become
underscores. As long as the path is a directory, it goes on to the index in it. Every write is checked
against the buffer, and the file system may give any answer at any time. `doHelp_safe` says that no
write misses the buffer, that the loops end, and what the paths look like that the file system sees.
-/

set_option autoImplicit false
set_option relaxedAutoImplicit false

namespace BlitzedServices.HelpServ

open Lib

/-- The size of `buf`. -/
def BUFSIZE : ℕ := 256

/-- `buf`, with `ptr - buf`. -/
structure PathBuf where
  mem : List Char
  ptr : ℕ
  deriving DecidableEq

/-- `*ptr++ = c`; `none` is a write outside the buffer. -/
def PathBuf.put (b : PathBuf) (c : Char) : Option PathBuf :=
  (poke b.mem b.ptr c).map fun mem ↦ ⟨mem, b.ptr + 1⟩

/-- The path that the file system sees. -/
def PathBuf.path (b : PathBuf) : CString :=
  strAt b.mem 0

/-- Special characters turn into `_`. -/
def pathChar (c : Char) : Char :=
  if c = '.' ∨ c = '/' then '_' else c.toLower

/-- The inner loop, over the characters of a word. -/
def copyPart : CString → PathBuf → Option PathBuf
  | [], b => some b
  | c :: s, b => if b.ptr < BUFSIZE - 1 then (b.put (pathChar c)).bind (copyPart s) else some b

/-- A slash and a word, and the NUL behind it. -/
def addPart (word : CString) (b : PathBuf) : Option PathBuf := do
  let b ← b.put '/'
  let b ← copyPart word b
  let mem ← poke b.mem b.ptr nul
  return ⟨mem, b.ptr⟩

/-- The loop over the words of the topic. -/
def topicLoop (topic : CString) (b : PathBuf) : Option PathBuf :=
  match _htoken : strtok [' '] topic with
  | none => some b
  | some (word, rest) =>
    if b.ptr < BUFSIZE - 1 then (addPart word b).bind fun b ↦ topicLoop rest b else some b
termination_by topic.length
decreasing_by exact length_rest_lt _htoken

/-- One round of the loop over directories. -/
def indexStep (b : PathBuf) : Option PathBuf := do
  let b ← b.put '/'
  let mem ← strscpyAt b.mem b.ptr "index".toList (BUFSIZE - b.ptr)
  return ⟨mem, b.ptr + (strAt mem b.ptr).length⟩

/-- The pointer goes on. -/
theorem ptr_lt_indexStep {b b' : PathBuf} (h : indexStep b = some b') : b.ptr < b'.ptr := by
  simp only [indexStep, PathBuf.put, Option.bind_eq_bind, Option.bind_eq_some_iff, Option.map_eq_some_iff] at h
  obtain ⟨b₁, ⟨mem, -, rfl⟩, mem', -, h⟩ := h
  rw [← Option.some.inj h]
  exact Nat.lt_of_lt_of_le (Nat.lt_succ_self _) (Nat.le_add_right _ _)

/-- The loop over directories. The result lists the buffers as the file system sees them; the last one is
opened. The answer to the `n`th question whether a path is a directory is `isDir n`. -/
def indexLoop (isDir : ℕ → CString → Bool) (n : ℕ) (b : PathBuf) : Option (List PathBuf) :=
  if b.ptr < BUFSIZE - 1 ∧ isDir n b.path then
    match hstep : indexStep b with
    | none => none
    | some b' => (indexLoop isDir (n + 1) b').map (b :: ·)
  else some [b]
termination_by BUFSIZE - 1 - b.ptr
decreasing_by
  have hlt := ptr_lt_indexStep hstep
  omega

/-- The first part of `do_help`: the buffers that the file system sees. -/
def helpPath (helpDir : CString) (topic : Option CString) (isDir : ℕ → CString → Bool) :
    Option (List PathBuf) := do
  let topic := if topic.getD [] = [] then "help".toList else topic.getD []
  let mem ← strscpyAt (List.replicate BUFSIZE nul) 0 helpDir BUFSIZE
  let b ← topicLoop topic ⟨mem, (strAt mem 0).length⟩
  indexLoop isDir 0 b

/-! ### The file -/

/-- `fgets` on what is left of a file. -/
def fgets (size : ℕ) (file : List Char) : Option (CString × List Char) :=
  if file = [] then none
  else
    let line := file.take (size - 1)
    match line.findIdx? (· = '\n') with
    | some n => some (file.take (n + 1), file.drop (n + 1))
    | none => some (line, file.drop (size - 1))

theorem length_fgets_lt {size : ℕ} (hsize : 1 < size) {file rest : List Char} {line : CString}
    (h : fgets size file = some (line, rest)) : rest.length < file.length := by
  rw [fgets] at h
  split_ifs at h with hnil
  have hpos := List.length_pos_iff.mpr hnil
  dsimp only at h
  split at h
  · rw [← (Prod.mk.inj (Option.some.inj h)).2, List.length_drop]
    omega
  · rw [← (Prod.mk.inj (Option.some.inj h)).2, List.length_drop]
    omega

/-- The lines that are sent. A blank line is sent as a space. -/
def fileLines (file : List Char) : List CString :=
  match _hline : fgets BUFSIZE file with
  | none => []
  | some (line, rest) => ((strtok ['\n'] (line.takeWhile (· ≠ nul))).elim [' '] Prod.fst) :: fileLines rest
termination_by file.length
decreasing_by exact length_fgets_lt (by decide) _hline

/-- The reply to a help request: the lines of the file, or that there is no help, in the language of the user
if he is known. -/
inductive HelpReply where
  | lines (lines : List CString)
  | NO_HELP_AVAILABLE (known : Bool) (topic : CString)
  deriving DecidableEq

/-- What is sent when the file was opened, or not. -/
def helpReply (topic : Option CString) (known : Bool) : Option (List Char) → HelpReply
  | some file => .lines (fileLines file)
  | none => .NO_HELP_AVAILABLE known (if topic.getD [] = [] then "help".toList else topic.getD [])

/-- `do_help`. -/
def doHelp (helpDir : CString) (topic : Option CString) (isDir : ℕ → CString → Bool)
    (fopen : CString → Option (List Char)) (known : Bool) : Option HelpReply := do
  let bufs ← helpPath helpDir topic isDir
  let b ← bufs.getLast?
  return helpReply topic known (fopen b.path)

/-! ### Safe paths -/

/-- A part of a path that leads to no other directory. -/
def SafePart (part : CString) : Prop :=
  '.' ∉ part ∧ '/' ∉ part

/-- The parts of a path with a slash before each. -/
def joinParts (parts : List CString) : CString :=
  parts.flatMap fun part ↦ '/' :: part

/-- A path into the help directory: safe parts and then indexes. What reaches the end of the buffer is cut,
and so is the name of the directory. -/
structure SafePath (helpDir path : CString) (parts indexes : List CString) : Prop where
  eq : path = strscpy helpDir BUFSIZE ++ joinParts (parts ++ indexes)
  parts : ∀ part ∈ parts, SafePart part
  index : ∀ i ∈ indexes, i <+: "index".toList
  cut : ∀ i ∈ indexes, i ≠ "index".toList → path.length = BUFSIZE - 1

/-- The buffer has its size, ends in a NUL and holds a safe path. -/
structure SafeBuf (helpDir : CString) (b : PathBuf) : Prop where
  length : b.mem.length = BUFSIZE
  terminated : b.mem[b.ptr]? = some nul
  short : b.path.length < BUFSIZE
  safe : ∃ parts indexes, SafePath helpDir b.path parts indexes

/-! ### The buffer by its text -/

/-- The buffer with a text, and the pointer behind it. -/
def bufOf (text : CString) : PathBuf :=
  ⟨filled BUFSIZE text, text.length⟩

theorem toLower_eq_iff_of_not_isAlpha {c w : Char} (hw : w.isAlpha = false) : c.toLower = w ↔ c = w := by
  by_cases hupper : c.isUpper = true
  · have halpha := Char.isLower_toLower_eq_isAlpha (c := c)
    rw [Char.isAlpha, hupper, Bool.true_or] at halpha
    constructor
    · rintro rfl
      rw [Char.isAlpha, halpha, Bool.or_true] at hw
      cases hw
    · rintro rfl
      rw [Char.isAlpha, hupper, Bool.true_or] at hw
      cases hw
  · rw [Char.toLower_eq_of_not_isUpper hupper]

/-- No character of a topic becomes a dot, a slash or a NUL. -/
theorem pathChar_ne {c w : Char} (hc : c ≠ nul) (hw : w = '.' ∨ w = '/' ∨ w = nul) : pathChar c ≠ w := by
  have halpha : w.isAlpha = false := by
    rcases hw with rfl | rfl | rfl <;> decide
  rw [pathChar]
  split_ifs with hspecial
  · rcases hw with rfl | rfl | rfl <;> decide
  · rw [ne_eq, toLower_eq_iff_of_not_isAlpha halpha]
    rcases hw with rfl | rfl | rfl
    · exact fun h ↦ hspecial (.inl h)
    · exact fun h ↦ hspecial (.inr h)
    · exact hc

section Texts

variable {text : CString}

theorem put_bufOf (h : text.length < BUFSIZE) (c : Char) : (bufOf text).put c = some (bufOf (text ++ [c])) := by
  have hlength : text.length + 1 = (text ++ [c]).length := by simp
  rw [PathBuf.put, bufOf, poke_filled h, Option.map_some, hlength, ← bufOf]

/-- As much of a word is copied as fits. -/
theorem copyPart_bufOf (word : CString) (h : text.length ≤ BUFSIZE - 1) :
    copyPart word (bufOf text) =
      some (bufOf (text ++ (word.map pathChar).take (BUFSIZE - 1 - text.length))) := by
  induction word generalizing text with
  | nil => simp [copyPart]
  | cons c s ih =>
    rw [copyPart]
    by_cases hroom : text.length < BUFSIZE - 1
    · have hlength : (text ++ [pathChar c]).length = text.length + 1 := by simp
      obtain ⟨n, hn⟩ : ∃ n, BUFSIZE - 1 - text.length = n + 1 := ⟨BUFSIZE - 1 - text.length - 1, by omega⟩
      have hn' : BUFSIZE - 1 - (text ++ [pathChar c]).length = n := by omega
      rw [if_pos (show (bufOf text).ptr < BUFSIZE - 1 from hroom), put_bufOf (by omega), Option.bind_some,
        ih (by omega), hn, hn', List.map_cons, List.take_succ_cons, List.append_assoc, List.singleton_append]
    · rw [if_neg (show ¬ (bufOf text).ptr < BUFSIZE - 1 from hroom), show BUFSIZE - 1 - text.length = 0 by omega,
        List.take_zero, List.append_nil]

/-- The characters of a word that get into the path. -/
def copied (word text : CString) : CString :=
  (word.map pathChar).take (BUFSIZE - 1 - (text.length + 1))

theorem addPart_bufOf (word : CString) (h : text.length < BUFSIZE - 1) :
    addPart word (bufOf text) = some (bufOf (text ++ '/' :: copied word text)) ∧
      (text ++ '/' :: copied word text).length ≤ BUFSIZE - 1 := by
  have hlength : (text ++ ['/']).length = text.length + 1 := by simp
  have hjoin : text ++ ['/'] ++ copied word text = text ++ '/' :: copied word text := by simp
  have hle : (text ++ '/' :: copied word text).length ≤ BUFSIZE - 1 := by
    have htake := List.length_take_le (BUFSIZE - 1 - (text.length + 1)) (word.map pathChar)
    rw [List.length_append, List.length_cons, copied]
    omega
  refine ⟨?_, hle⟩
  rw [addPart, put_bufOf (by omega), Option.bind_eq_bind, Option.bind_some, copyPart_bufOf word (by omega),
    hlength, ← copied, hjoin, Option.bind_eq_bind, Option.bind_some, bufOf, poke_filled_nul le_rfl (by
      have hsize : BUFSIZE = 256 := rfl
      omega)]
  rfl

/-- The parts of a topic are safe. -/
theorem safePart_copied {word : CString} (hword : nul ∉ word) (text : CString) :
    SafePart (copied word text) ∧ nul ∉ copied word text := by
  have hne (w : Char) (hw : w = '.' ∨ w = '/' ∨ w = nul) : w ∉ copied word text := by
    intro hmem
    obtain ⟨c, hc, heq⟩ := List.mem_map.mp (List.mem_of_mem_take hmem)
    exact pathChar_ne (fun h ↦ hword (h ▸ hc)) hw heq
  exact ⟨⟨hne _ (.inl rfl), hne _ (.inr (.inl rfl))⟩, hne _ (.inr (.inr rfl))⟩

theorem joinParts_cons (part : CString) (parts : List CString) :
    joinParts (part :: parts) = '/' :: (part ++ joinParts parts) := by
  simp [joinParts]

theorem joinParts_append (parts parts' : List CString) :
    joinParts (parts ++ parts') = joinParts parts ++ joinParts parts' := by
  simp [joinParts]

theorem nul_not_mem_joinParts {parts : List CString} (h : ∀ part ∈ parts, nul ∉ part) :
    nul ∉ joinParts parts := by
  induction parts with
  | nil => exact List.not_mem_nil
  | cons part parts ih =>
    have hslash : nul ≠ '/' := by decide
    rw [joinParts_cons, List.mem_cons, List.mem_append]
    rintro (hmem | hmem | hmem)
    · exact hslash hmem
    · exact h part List.mem_cons_self hmem
    · exact ih (fun part' hpart' ↦ h part' (List.mem_cons_of_mem _ hpart')) hmem

/-- The loop over the words adds safe parts. -/
theorem topicLoop_bufOf (topic : CString) (htopic : nul ∉ topic) (h : text.length ≤ BUFSIZE - 1) :
    ∃ parts, topicLoop topic (bufOf text) = some (bufOf (text ++ joinParts parts)) ∧
      (∀ part ∈ parts, SafePart part ∧ nul ∉ part) ∧ (text ++ joinParts parts).length ≤ BUFSIZE - 1 := by
  induction hn : topic.length using Nat.strong_induction_on generalizing topic text with
  | _ n ih =>
    have hdone : ∃ parts, bufOf text = bufOf (text ++ joinParts parts) ∧
        (∀ part ∈ parts, SafePart part ∧ nul ∉ part) ∧ (text ++ joinParts parts).length ≤ BUFSIZE - 1 :=
      ⟨[], by simp [joinParts], by simp, by simpa [joinParts] using h⟩
    rw [topicLoop]
    split
    · simpa only [Option.some_inj] using hdone
    · rename_i word rest htoken
      by_cases hroom : text.length < BUFSIZE - 1
      · obtain ⟨-, -, hword, hrest, -⟩ := strtok_eq_some htoken
        obtain ⟨hadd, hlength⟩ := addPart_bufOf word hroom
        obtain ⟨parts, hloop, hparts, hle⟩ := ih rest.length (hn ▸ length_rest_lt htoken) rest
          (fun hmem ↦ htopic (hrest hmem)) hlength rfl
        have hjoin : text ++ '/' :: copied word text ++ joinParts parts =
            text ++ joinParts (copied word text :: parts) := by
          rw [joinParts_cons, List.append_assoc, List.cons_append]
        rw [if_pos (show (bufOf text).ptr < BUFSIZE - 1 from hroom), hadd, Option.bind_some, hloop]
        refine ⟨copied word text :: parts, by rw [hjoin], ?_, by rwa [← hjoin]⟩
        intro part hpart
        rcases List.mem_cons.mp hpart with rfl | hpart
        · exact safePart_copied (fun hmem ↦ htopic (hword hmem)) text
        · exact hparts part hpart
      · rw [if_neg (show ¬ (bufOf text).ptr < BUFSIZE - 1 from hroom)]
        simpa only [Option.some_inj] using hdone

/-! ### The loop over directories -/

/-- As much of the name of an index as fits. -/
def indexName (text : CString) : CString :=
  strscpy "index".toList (BUFSIZE - (text.length + 1))

theorem indexStep_bufOf (h : text.length < BUFSIZE - 1) :
    indexStep (bufOf text) = some (bufOf (text ++ '/' :: indexName text)) ∧
      (text ++ '/' :: indexName text).length ≤ BUFSIZE - 1 := by
  have hsize : BUFSIZE = 256 := rfl
  have hlength : (text ++ ['/']).length = text.length + 1 := by simp
  have hjoin : text ++ ['/'] ++ indexName text = text ++ '/' :: indexName text := by simp
  have hnul : nul ∉ indexName text := fun hmem ↦ absurd (List.mem_of_mem_take hmem) (by decide)
  have hle : (text ++ '/' :: indexName text).length ≤ BUFSIZE - 1 := by
    have htake := List.length_take_le (BUFSIZE - (text.length + 1) - 1) "index".toList
    rw [List.length_append, List.length_cons, indexName, strscpy]
    omega
  refine ⟨?_, hle⟩
  have hcopy : strscpyAt (filled BUFSIZE (text ++ ['/'])) (text ++ ['/']).length "index".toList
      (BUFSIZE - (text ++ ['/']).length) = some (filled BUFSIZE (text ++ ['/'] ++ indexName text)) := by
    rw [strscpyAt_filled "index".toList (by omega) (by omega), indexName, hlength]
  have hread : strAt (filled BUFSIZE (text ++ ['/'] ++ indexName text)) (text ++ ['/']).length = indexName text :=
    strAt_filled_append hnul (by rw [hjoin]; omega)
  rw [hjoin] at hcopy hread
  rw [indexStep, put_bufOf (by omega), Option.bind_eq_bind, Option.bind_some]
  simp only [bufOf, hcopy, hread, Option.bind_eq_bind, Option.bind_some, ← List.length_append, hjoin]
  rfl

theorem indexName_prefix (text : CString) : indexName text <+: "index".toList :=
  List.take_prefix _ _

/-- An index whose name is cut fills the buffer. -/
theorem length_of_cut (h : text.length < BUFSIZE - 1) (hcut : indexName text ≠ "index".toList) :
    (text ++ '/' :: indexName text).length = BUFSIZE - 1 := by
  have hshort : BUFSIZE - (text.length + 1) - 1 < "index".toList.length := by
    by_contra hlong
    exact hcut (List.take_of_length_le (not_lt.mp hlong))
  rw [List.length_append, List.length_cons, indexName, strscpy, List.length_take_of_le hshort.le]
  omega

/-- What the file system sees: the path of a directory, and indexes in it. -/
structure Indexed (text path : CString) (indexes : List CString) : Prop where
  eq : path = text ++ joinParts indexes
  short : path.length ≤ BUFSIZE - 1
  index : ∀ i ∈ indexes, i <+: "index".toList
  cut : ∀ i ∈ indexes, i ≠ "index".toList → path.length = BUFSIZE - 1

/-- The loop over directories ends whatever the answers are. -/
theorem indexLoop_bufOf (isDir : ℕ → CString → Bool) (n : ℕ) (h : text.length ≤ BUFSIZE - 1) :
    ∃ paths, indexLoop isDir n (bufOf text) = some (paths.map bufOf) ∧ paths ≠ [] ∧
      ∀ path ∈ paths, ∃ indexes, Indexed text path indexes := by
  induction hm : BUFSIZE - 1 - text.length using Nat.strong_induction_on generalizing n text with
  | _ m ih =>
    have hself : Indexed text text [] := ⟨by simp [joinParts], h, by simp, by simp⟩
    rw [indexLoop]
    split_ifs with hdir
    · have hroom : text.length < BUFSIZE - 1 := hdir.1
      obtain ⟨hstep, hle⟩ := indexStep_bufOf hroom
      have hshorter : BUFSIZE - 1 - (text ++ '/' :: indexName text).length < m := by
        rw [List.length_append, List.length_cons]
        omega
      obtain ⟨paths, hloop, -, hpaths⟩ := ih _ hshorter (n + 1) hle rfl
      refine ⟨text :: paths, ?_, List.cons_ne_nil _ _, fun path hpath ↦ ?_⟩
      · split
        · rename_i hnone
          rw [hstep] at hnone
          cases hnone
        · rename_i b' hsome
          rw [hstep, Option.some_inj] at hsome
          rw [← hsome, hloop, Option.map_some, List.map_cons]
      · rcases List.mem_cons.mp hpath with rfl | hpath
        · exact ⟨[], hself⟩
        · obtain ⟨indexes, hindexed⟩ := hpaths path hpath
          refine ⟨indexName text :: indexes, ?_, hindexed.short, ?_, ?_⟩
          · rw [hindexed.eq, joinParts_cons, List.append_assoc, List.cons_append]
          · intro i hi
            rcases List.mem_cons.mp hi with rfl | hi
            · exact indexName_prefix text
            · exact hindexed.index i hi
          · intro i hi hcut
            rcases List.mem_cons.mp hi with rfl | hi
            · refine le_antisymm hindexed.short ?_
              rw [hindexed.eq, List.length_append, length_of_cut hroom hcut]
              exact Nat.le_add_right _ _
            · exact hindexed.cut i hi hcut
    · exact ⟨[text], rfl, List.cons_ne_nil _ _, fun path hpath ↦ ⟨[], List.mem_singleton.mp hpath ▸ hself⟩⟩

end Texts

/-! ### The file that is opened -/

/-- For every topic and all answers of the file system, no write misses the buffer, the loops end, and every
path that the file system sees, the one that is opened included, is safe. -/
theorem helpPath_safe {helpDir : CString} {topic : Option CString} (hdir : nul ∉ helpDir)
    (htopic : nul ∉ topic.getD []) (isDir : ℕ → CString → Bool) :
    ∃ bufs, helpPath helpDir topic isDir = some bufs ∧ bufs ≠ [] ∧ ∀ b ∈ bufs, SafeBuf helpDir b := by
  have hsize : BUFSIZE = 256 := rfl
  have hcopied : nul ∉ strscpy helpDir BUFSIZE := fun hmem ↦ hdir (List.mem_of_mem_take hmem)
  have hshort : (strscpy helpDir BUFSIZE).length ≤ BUFSIZE - 1 := List.length_take_le _ _
  have hcopy : strscpyAt (List.replicate BUFSIZE nul) 0 helpDir BUFSIZE =
      some (filled BUFSIZE (strscpy helpDir BUFSIZE)) := by
    have hstart : strscpyAt (filled BUFSIZE []) 0 helpDir BUFSIZE = some (filled BUFSIZE (strscpy helpDir BUFSIZE)) :=
      strscpyAt_filled helpDir (by decide) (Nat.zero_add _)
    rwa [filled_nil] at hstart
  have hbuf : (⟨filled BUFSIZE (strscpy helpDir BUFSIZE),
      (strAt (filled BUFSIZE (strscpy helpDir BUFSIZE)) 0).length⟩ : PathBuf) =
        bufOf (strscpy helpDir BUFSIZE) := by
    rw [strAt_filled hcopied (by omega), bufOf]
  have hwords : nul ∉ (if topic.getD [] = [] then "help".toList else topic.getD []) := by
    split_ifs
    · decide
    · exact htopic
  obtain ⟨parts, hloop, hparts, hle⟩ := topicLoop_bufOf _ hwords hshort
  obtain ⟨paths, hindex, hnil, hpaths⟩ := indexLoop_bufOf isDir 0 hle
  refine ⟨paths.map bufOf, ?_, by simpa using hnil, fun b hb ↦ ?_⟩
  · simp only [helpPath, hcopy, hbuf, hloop, hindex, Option.bind_eq_bind, Option.bind_some]
  · obtain ⟨path, hpath, rfl⟩ := List.mem_map.mp hb
    obtain ⟨indexes, hindexed⟩ := hpaths path hpath
    have hplain : nul ∉ path := by
      rw [hindexed.eq, List.append_assoc, ← joinParts_append, List.mem_append, not_or]
      refine ⟨hcopied, nul_not_mem_joinParts fun part hpart ↦ ?_⟩
      rcases List.mem_append.mp hpart with hpart | hpart
      · exact (hparts part hpart).2
      · exact fun hmem ↦ absurd ((hindexed.index part hpart).subset hmem) (by decide)
    have hlt : path.length < BUFSIZE := by
      have hpathle := hindexed.short
      omega
    have hseen : (bufOf path).path = path := strAt_filled hplain hlt
    refine ⟨length_filled hlt.le, getElem?_filled hlt, by rwa [hseen], parts, indexes, ?_⟩
    rw [hseen]
    refine ⟨?_, fun part hpart ↦ (hparts part hpart).1, hindexed.index, hindexed.cut⟩
    rw [hindexed.eq, List.append_assoc, joinParts_append]

/-- `do_help` for all answers of the file system: the buffers that it sees are safe, and the last of them is the
path that is opened. -/
theorem doHelp_safe {helpDir : CString} {topic : Option CString} (hdir : nul ∉ helpDir)
    (htopic : nul ∉ topic.getD []) (isDir : ℕ → CString → Bool) :
    ∃ bufs b, helpPath helpDir topic isDir = some bufs ∧ (∀ b ∈ bufs, SafeBuf helpDir b) ∧
      bufs.getLast? = some b ∧
      ∀ fopen known, doHelp helpDir topic isDir fopen known = some (helpReply topic known (fopen b.path)) := by
  obtain ⟨bufs, hbufs, hnil, hsafe⟩ := helpPath_safe hdir htopic isDir
  have hlast := List.getLast?_eq_some_getLast hnil
  refine ⟨bufs, bufs.getLast hnil, hbufs, hsafe, hlast, fun fopen known ↦ ?_⟩
  rw [doHelp, hbufs, Option.bind_eq_bind, Option.bind_some, hlast, Option.bind_eq_bind, Option.bind_some]
  rfl

theorem doHelp_safe_dots :
    ∃ bufs b, helpPath "help".toList (some "../../etc/passwd".toList) (fun _ _ ↦ true) = some bufs ∧
      (∀ b ∈ bufs, SafeBuf "help".toList b) ∧ bufs.getLast? = some b ∧
      ∀ fopen known, doHelp "help".toList (some "../../etc/passwd".toList) (fun _ _ ↦ true) fopen known =
        some (helpReply (some "../../etc/passwd".toList) known (fopen b.path)) :=
  doHelp_safe (by decide) (by decide) fun _ _ ↦ true

/-- A directory whose name is longer than the buffer is cut: what is opened does not begin with its name. -/
theorem helpPath_long_directory :
    ∃ bufs, helpPath (List.replicate 300 'a') (some "set".toList) (fun _ _ ↦ false) = some bufs ∧ bufs ≠ [] ∧
      ∀ b ∈ bufs, ¬ List.replicate 300 'a' <+: b.path := by
  have hdir : nul ∉ List.replicate 300 'a' := fun hmem ↦ absurd (List.eq_of_mem_replicate hmem) (by decide)
  have htopic : nul ∉ (some "set".toList).getD [] := by decide
  obtain ⟨bufs, hbufs, hnil, hsafe⟩ := helpPath_safe hdir htopic fun _ _ ↦ false
  refine ⟨bufs, hbufs, hnil, fun b hb hprefix ↦ ?_⟩
  have hle := hprefix.length_le
  have hshort := (hsafe b hb).short
  have hsize : BUFSIZE = 256 := rfl
  rw [List.length_replicate] at hle
  omega

end BlitzedServices.HelpServ
