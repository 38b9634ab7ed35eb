import BlitzedServices.Lang.Langcomp

/-!
# Loading a compiled language file

`load_lang` reads the count, and for every string its position and length and then the string itself.
`loadLang_langcomp` is the round trip: what it loads from the file that `langcomp` writes are the texts of the
source file. A string without text is loaded as `NULL`, whether it is left out of the source file or has no lines
of text or only an empty one.
-/

set_option autoImplicit false
set_option relaxedAutoImplicit false

namespace BlitzedServices.Lang

open Lib

/-! ### Reading -/

/-- `a<<24 | b<<16 | c<<8 | d`. -/
def join32 (a b c d : UInt8) : BitVec 32 :=
  a.toBitVec.setWidth 32 <<< 24 ||| b.toBitVec.setWidth 32 <<< 16 ||| c.toBitVec.setWidth 32 <<< 8 |||
    d.toBitVec.setWidth 32

/-- `read_int32` at a place in the file, where `none` is the result -1. -/
def readInt32 (f : List UInt8) (place : ℕ) : Option (BitVec 32) :=
  match f.drop place with
  | a :: b :: c :: d :: _ => some (join32 a b c d)
  | _ => none

/-- The body of the loop of `load_lang`: `none` is a corrupt file, `some none` the pointer `NULL`. A `fseek` to a
negative position leaves the place behind the length. -/
def loadString (f : List UInt8) (i : ℕ) : Option (Option (List UInt8)) :=
  (readInt32 f (i * 8 + 4)).bind fun pos ↦
    (readInt32 f (i * 8 + 4 + 4)).bind fun len ↦
      if len = 0 then some none
      else if 65536 ≤ len.toInt then none
      else if len.toInt < 0 then none
      else
        let place := if pos.toInt < 0 then i * 8 + 4 + 8 else pos.toNat
        let text := (f.drop place).take len.toNat
        if text.length ≠ len.toNat then none else some (some (text ++ [0]))

/-- `load_lang` on the bytes of the file, where `none` is a table that is not loaded. -/
def loadLang (numStrings : ℕ) (f : List UInt8) : Option (List (Option (List UInt8))) :=
  (readInt32 f 0).bind fun num ↦
    let num := if (numStrings : ℤ) < num.toInt then numStrings else num.toInt.toNat
    ((List.range num).mapM (loadString f)).map fun langtexts ↦
      langtexts ++ List.replicate (numStrings - num) none

section Reading

variable {es : List (List UInt8)} {i : ℕ}

theorem join32_fputc (val : BitVec 32) :
    join32 (fputc (val.sshiftRight 24)) (fputc (val.sshiftRight 16)) (fputc (val.sshiftRight 8)) (fputc val) =
      val := by
  refine BitVec.eq_of_getLsbD_eq fun i hi ↦ ?_
  simp only [join32, fputc, BitVec.getLsbD_or, BitVec.getLsbD_shiftLeft, BitVec.getLsbD_setWidth,
    BitVec.getLsbD_sshiftRight]
  by_cases h8 : i < 8
  · simp [h8, hi, show i < 16 by omega, show i < 24 by omega]
  by_cases h16 : i < 16
  · simp [h8, h16, hi, show i < 24 by omega, show i - 8 < 8 by omega, show ¬ 32 ≤ i - 8 by omega,
      show i - 8 < 32 by omega, show 8 + (i - 8) = i by omega]
  by_cases h24 : i < 24
  · simp [h8, h16, h24, hi, show ¬ i - 8 < 8 by omega, show i - 16 < 8 by omega, show ¬ 32 ≤ i - 16 by omega,
      show i - 16 < 32 by omega, show 16 + (i - 16) = i by omega]
  · simp [h8, h16, h24, hi, show ¬ i - 8 < 8 by omega, show ¬ i - 16 < 8 by omega, show i - 24 < 8 by omega,
      show ¬ 32 ≤ i - 24 by omega, show i - 24 < 32 by omega, show 24 + (i - 24) = i by omega]

theorem readInt32_fput32 (rest : List UInt8) {f : List UInt8} {place : ℕ} {val : BitVec 32}
    (hf : f.drop place = fput32 val ++ rest) : readInt32 f place = some val := by
  rw [readInt32, hf]
  exact congrArg some (join32_fputc val)

/-- The numbers of a file that are not too large for an `int`. -/
theorem toInt_ofNat {n : ℕ} (hn : n < 2 ^ 31) : (BitVec.ofNat 32 n).toInt = n := by
  have hnat : (BitVec.ofNat 32 n).toNat = n := by
    rw [BitVec.toNat_ofNat]
    omega
  rw [BitVec.toInt_eq_toNat_of_lt (by omega), hnat]

/-- An entry is loaded with a NUL behind it, and the empty one as `NULL`. -/
theorem loadString_packed (hsize : (packed (fun n ↦ fput32 (BitVec.ofNat 32 n)) 4 es).length < 2 ^ 31)
    (hi : i < es.length) (hshort : es[i].length < 65536) :
    loadString (packed (fun n ↦ fput32 (BitVec.ofNat 32 n)) 4 es) i =
      some (if es[i] = [] then none else some (es[i] ++ [0])) := by
  have hput (n : ℕ) : (fput32 (BitVec.ofNat 32 n)).length = 4 := length_fput32 _
  obtain ⟨rest, hrest⟩ := drop_packed_table hput es hi
  have hpos : readInt32 (packed (fun n ↦ fput32 (BitVec.ofNat 32 n)) 4 es) (i * 8 + 4) =
      some (BitVec.ofNat 32 (entryOffset 4 es i)) := by
    rw [List.append_assoc] at hrest
    exact readInt32_fput32 _ hrest
  have hlen : readInt32 (packed (fun n ↦ fput32 (BitVec.ofNat 32 n)) 4 es) (i * 8 + 4 + 4) =
      some (BitVec.ofNat 32 es[i].length) := by
    refine readInt32_fput32 rest ?_
    have hskip : (packed (fun n ↦ fput32 (BitVec.ofNat 32 n)) 4 es).drop (i * 8 + 4 + 4) =
        ((packed (fun n ↦ fput32 (BitVec.ofNat 32 n)) 4 es).drop (i * (2 * 4) + 4)).drop 4 := by
      rw [List.drop_drop]
    rw [hskip, hrest]
    rfl
  have hoffset := entryOffset_le_length hput es i
  have hint := toInt_ofNat (n := entryOffset 4 es i) (by omega)
  have hnat : (BitVec.ofNat 32 (entryOffset 4 es i)).toNat = entryOffset 4 es i := by
    rw [BitVec.toNat_ofNat]
    omega
  have hlenint := toInt_ofNat (n := es[i].length) (by omega)
  have hlennat : (BitVec.ofNat 32 es[i].length).toNat = es[i].length := by
    rw [BitVec.toNat_ofNat]
    omega
  have hzero : BitVec.ofNat 32 es[i].length = 0 ↔ es[i] = [] := by
    rw [← BitVec.toNat_inj, hlennat, ← List.length_eq_zero_iff]
    rfl
  rw [loadString, hpos, Option.bind_some, hlen, Option.bind_some]
  by_cases hnil : es[i] = []
  · rw [if_pos (hzero.mpr hnil), if_pos hnil]
  · have hlong : ¬ 65536 ≤ (BitVec.ofNat 32 es[i].length).toInt := by omega
    have hpositive : ¬ (BitVec.ofNat 32 es[i].length).toInt < 0 := by omega
    have hplace : ¬ (BitVec.ofNat 32 (entryOffset 4 es i)).toInt < 0 := by omega
    rw [if_neg (hzero.not.mpr hnil), if_neg hlong, if_neg hpositive]
    dsimp only
    rw [if_neg hplace, hnat, hlennat, take_drop_packed hput es hi, if_neg (not_not.mpr rfl), if_neg hnil]

theorem mapM_eq_some_map {l : List ℕ} {f : ℕ → Option (Option (List UInt8))} {g : ℕ → Option (List UInt8)}
    (h : ∀ i ∈ l, f i = some (g i)) : l.mapM f = some (l.map g) := by
  induction l with
  | nil => rfl
  | cons i l ih =>
    obtain ⟨hi, hl⟩ := List.forall_mem_cons.mp h
    rw [List.mapM_cons, hi, ih hl]
    rfl

/-- Every string of a packed file is loaded. -/
theorem loadLang_packed (es : List (List UInt8)) (hsize : (packed (fun n ↦ fput32 (BitVec.ofNat 32 n)) 4 es).length < 2 ^ 31)
    (hshort : ∀ e ∈ es, e.length < 65536) :
    loadLang es.length (packed (fun n ↦ fput32 (BitVec.ofNat 32 n)) 4 es) =
      some (es.map fun e ↦ if e = [] then none else some (e ++ [0])) := by
  have hput (n : ℕ) : (fput32 (BitVec.ofNat 32 n)).length = 4 := length_fput32 _
  have hcount : es.length < 2 ^ 31 := by
    rw [length_packed hput, firstOffset] at hsize
    omega
  have hnum : readInt32 (packed (fun n ↦ fput32 (BitVec.ofNat 32 n)) 4 es) 0 =
      some (BitVec.ofNat 32 es.length) := by
    refine readInt32_fput32 (offsetTable (fun n ↦ fput32 (BitVec.ofNat 32 n)) (firstOffset 4 es.length) es ++
      es.flatten) ?_
    rw [List.drop_zero, packed, List.append_assoc]
  have hall : (List.range es.length).mapM (loadString (packed (fun n ↦ fput32 (BitVec.ofNat 32 n)) 4 es)) =
      some (es.map fun e ↦ if e = [] then none else some (e ++ [0])) := by
    have heach (i : ℕ) (hi : i ∈ List.range es.length) :
        loadString (packed (fun n ↦ fput32 (BitVec.ofNat 32 n)) 4 es) i =
          some (if es.getD i [] = [] then none else some (es.getD i [] ++ [0])) := by
      have hi := List.mem_range.mp hi
      rw [List.getD_eq_getElem _ _ hi]
      exact loadString_packed hsize hi (hshort _ (List.getElem_mem hi))
    rw [mapM_eq_some_map heach]
    refine congrArg some (List.ext_getElem (by simp) fun i hi hi' ↦ ?_)
    rw [List.length_map] at hi'
    rw [List.getElem_map, List.getElem_map, List.getElem_range, List.getD_eq_getElem _ _ hi']
  rw [loadLang, hnum, Option.bind_some, toInt_ofNat hcount, if_neg (lt_irrefl _), Int.toNat_natCast]
  dsimp only
  rw [hall, Option.map_some, Nat.sub_self, List.replicate_zero, List.append_nil]

end Reading

/-! ### The round trip -/

section RoundTrip

variable {stringnames lines : List (List UInt8)}

/-- What a table has for a string: its text with a NUL behind it, or `NULL` if there is no text. -/
def loadedText : Option (List UInt8) → Option (List UInt8)
  | none => none
  | some text => if text = [] then none else some (text ++ [0])

/-- The texts of the strings of an index. -/
def textsOf (stringnames lines : List (List UInt8)) : List (List UInt8) :=
  stringnames.map fun name ↦ (sourceText lines name).getD []

/-- The compiled file can be addressed with an `int`. -/
def Addressable (stringnames lines : List (List UInt8)) : Prop :=
  firstOffset 4 stringnames.length + (textsOf stringnames lines).flatten.length < 2 ^ 31

/-- Strings below 64 KiB can be addressed for any index of up to 32763 names. -/
theorem addressable_of_length_le (hcount : stringnames.length ≤ 32763)
    (hshort : ∀ text ∈ textsOf stringnames lines, text.length < 65536) : Addressable stringnames lines := by
  have hsum : (textsOf stringnames lines).flatten.length ≤ (textsOf stringnames lines).length * 65535 := by
    rw [List.length_flatten]
    refine (List.sum_le_card_nsmul _ 65535 fun n hn ↦ ?_).trans_eq (by rw [List.length_map]; rfl)
    obtain ⟨text, htext, rfl⟩ := List.mem_map.mp hn
    exact Nat.le_of_lt_succ (hshort text htext)
  rw [textsOf, List.length_map] at hsum
  rw [Addressable, firstOffset, textsOf]
  omega

theorem putString_collected (name : List UInt8) :
    putString ((textLines lines name).map collected) = (sourceText lines name).getD [] := by
  rw [sourceText]
  cases textLines lines name with
  | none => rfl
  | some text => exact collected_dropLast text

theorem zero_not_mem_sourceText (hwf : WellFormed stringnames lines) {name text : List UInt8}
    (htext : sourceText lines name = some text) : 0 ∉ text := by
  obtain ⟨texts, htexts, rfl⟩ := Option.map_eq_some_iff.mp htext
  obtain ⟨x, hx, rfl⟩ := Option.map_eq_some_iff.mp htexts
  rw [← collected_dropLast]
  intro hzero
  obtain ⟨line, hline, hmem⟩ := List.mem_flatMap.mp (List.dropLast_subset _ hzero)
  rcases List.mem_append.mp hmem with hmem | hmem
  · have hkept : tab :: line ∈ keptLines lines := by
      rw [sections_flatten (keptLines lines)]
      refine List.mem_append_right _ (List.mem_flatMap.mpr ⟨x, List.mem_of_find?_eq_some hx, ?_⟩)
      exact List.mem_cons_of_mem _ (List.mem_map_of_mem hline)
    exact (hwf.readable _ (List.mem_of_mem_filter hkept)).2.1 (List.mem_cons_of_mem _ hmem)
  · exact absurd (List.mem_singleton.mp hmem) (by decide)

/-- What `langcomp` writes for a well-formed source file, `load_lang` loads as the texts of its strings. -/
theorem loadLang_langcomp (hwf : WellFormed stringnames lines)
    (hshort : ∀ name ∈ stringnames, ∀ text, sourceText lines name = some text → text.length < 65536)
    (hsize : Addressable stringnames lines) :
    loadLang stringnames.length (langcomp stringnames (fileOf lines)).2 =
        some (stringnames.map fun name ↦ loadedText (sourceText lines name)) ∧
      ∀ name ∈ stringnames, ∀ text, sourceText lines name = some text → cString (text ++ [0]) = text := by
  have hput (n : ℕ) : (fput32 (BitVec.ofNat 32 n)).length = 4 := length_fput32 _
  have hentries : (stringnames.map fun name ↦ (textLines lines name).map collected).map putString =
      textsOf stringnames lines := by
    rw [List.map_map, textsOf]
    exact List.map_congr_left fun name _ ↦ putString_collected name
  have hlength : (textsOf stringnames lines).length = stringnames.length := List.length_map _
  have hload := loadLang_packed (textsOf stringnames lines) (by rwa [length_packed hput, hlength]) fun e he ↦ by
    obtain ⟨name, hname, rfl⟩ := List.mem_map.mp he
    cases htext : sourceText lines name with
    | none => exact Nat.succ_pos _
    | some text => exact hshort name hname text htext
  rw [hlength] at hload
  constructor
  · rw [langcomp_wellFormed hwf, putStrings_eq, hentries, hload, textsOf, List.map_map]
    refine congrArg some (List.map_congr_left fun name _ ↦ ?_)
    rw [Function.comp_apply]
    cases sourceText lines name with
    | none => rfl
    | some text => rfl
  · intro name _ text htext
    rw [cString, List.takeWhile_append_of_pos fun c hc ↦ ?_, List.takeWhile_cons_of_neg (by simp), List.append_nil]
    simpa using ne_of_mem_of_not_mem hc (zero_not_mem_sourceText hwf htext)

/-- The string `A` has two lines of text, and `B` is left out. -/
def twoLines : List (List UInt8) := [[35, 32, 65], [65], [9, 98], [], [9, 99], []]

theorem wellFormed_twoLines : WellFormed [[65], [66]] twoLines where
  nodup := by decide
  readable := by
    rw [Readable]
    decide
  begins := by decide
  known := by decide
  once := by decide

theorem loadLang_langcomp_twoLines :
    loadLang 2 (langcomp [[65], [66]] (fileOf twoLines)).2 = some [some [98, 10, 99, 0], none] := by
  have htexts : sourceText twoLines [65] = some [98, 10, 99] ∧ sourceText twoLines [66] = none := by decide
  have hshort : ∀ name ∈ [[65], [66]], ∀ text, sourceText twoLines name = some text → text.length < 65536 := by
    simp [htexts]
  have hsize : Addressable [[65], [66]] twoLines := by
    simp [Addressable, textsOf, htexts, firstOffset]
  have hload := (loadLang_langcomp wellFormed_twoLines hshort hsize).1
  simpa [htexts, loadedText] using hload

/-- A string that is defined without text is loaded as `NULL`. -/
theorem noText_not_loaded :
    ¬ ∀ stringnames lines, WellFormed stringnames lines →
      (∀ name ∈ stringnames, ∀ text, sourceText lines name = some text → text.length < 65536) →
      Addressable stringnames lines →
      loadLang stringnames.length (langcomp stringnames (fileOf lines)).2 =
        some (stringnames.map fun name ↦ (sourceText lines name).map (· ++ [0])) := by
  intro hclaim
  have htext : sourceText [[65], []] [65] = some [] := by decide
  have hwf : WellFormed [[65]] [[65], []] :=
    ⟨by decide, by rw [Readable]; decide, by decide, by decide, by decide⟩
  have hshort : ∀ name ∈ [[65]], ∀ text, sourceText [[65], []] name = some text → text.length < 65536 := by
    simp [htext]
  have hsize : Addressable [[65]] [[65], []] := by
    simp [Addressable, textsOf, htext, firstOffset]
  have hload := hclaim [[65]] [[65], []] hwf hshort hsize
  have hnull : loadLang 1 (langcomp [[65]] (fileOf [[65], []])).2 = some [none] := by decide +kernel
  rw [List.length_singleton, hnull, List.map_singleton, htext] at hload
  simp at hload

end RoundTrip

end BlitzedServices.Lang
