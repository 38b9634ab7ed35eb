import BlitzedServices.Vsnprintf.Scanning

/-!
# The formatter and its buffer

`PrintsPrefix` is what `my_vsnprintf` is for: it stays in the buffer and in `numbuf`, ends what it stores with a
NUL, stores a prefix of the full output and returns its length. For formats that are printed as the standard asks
for, `printsPrefix_iff` says when it holds: the output fits, or it is written in one piece, which is cut.
-/

set_option autoImplicit false
set_option relaxedAutoImplicit false

namespace BlitzedServices.Vsnprintf

open Lib
open Misc (toInt32 intMax)

/-- What is promised of a call with the whole of a buffer: no access outside of it or of `numbuf`, a NUL behind
the characters that are stored, which are the first of the full output, and their number. -/
def PrintsPrefix (mem : List Char) (f : Format) (args : List Arg) : Prop :=
  ∃ full ret out, f.output args = some full ∧ my_vsnprintf mem mem.length f.spell args = some (ret, out) ∧
    ret = out.pos ∧ out.mem[out.pos]? = some nul ∧ out.mem.take out.pos <+: full

/-- The conversions of directives are plain, and there is no `%%`. -/
def PlainParts : List (Directive × CString) → List Arg → Prop
  | [], _ => True
  | (.percent, _) :: _, _ => False
  | (.conversion c, _) :: parts, args =>
    ∃ b args' f, c.bind args = some (b, args') ∧ c.field b = some f ∧ c.Plain b f ∧ PlainParts parts args'

/-- The first characters of a field that are written at once. -/
def Field.first (f : Field) : CString :=
  f.writes.headD []

/-- The characters that are printed for fields and the texts behind them. -/
def printedOf (fields : List (Field × CString)) : CString :=
  fields.flatMap fun p ↦ p.1.printed ++ p.2

/-- All that is printed but the first write is empty, and that is as long as the buffer at least. A text in front
of a directive is not the only write, as it is written again. -/
def SingleWrite (size : ℕ) : CString → List (Field × CString) → Prop
  | text, [] => size ≤ text.length
  | text, (f, text') :: fields =>
    text = [] ∧ (f.printed = [] ∧ SingleWrite size text' fields ∨
      size ≤ f.first.length ∧ text' ++ printedOf fields = [])

/-- Nothing is to stand in front of a sign. -/
def AllLevel (fields : List (Field × CString)) : Prop :=
  ∀ p ∈ fields, p.1.Level

/-- The output fits, or nothing is stored in a buffer that is empty before, or the output is cut at once. Where
something is stored, nothing is to stand in front of a sign. -/
def Fits (mem : List Char) (text : CString) (fields : List (Field × CString)) : Prop :=
  (text ++ outputOf fields ≠ [] ∧ (text ++ outputOf fields).length < mem.length ∧ AllLevel fields) ∨
  (mem.head? = some nul ∧ (text ++ outputOf fields = [] ∨ mem.length = 1)) ∨
  (1 < mem.length ∧ mem.length ≤ (text ++ outputOf fields).length ∧ SingleWrite mem.length text fields ∧
    AllLevel fields)

/-- What the rest of a format does to a buffer. -/
structure Runs (mem : List Char) (start : CString) (fields : List (Field × CString))
    (f : Out → Option Out) : Prop where
  blocked : mem.length = 1 → ∀ out, Holds mem [] out → ∃ out', f out = some out' ∧ Holds mem [] out'
  fits : ∀ text out, Holds mem text out → (text ++ (start ++ printedOf fields)).length < mem.length →
    ∃ out', f out = some out' ∧ Holds mem (text ++ (start ++ printedOf fields)) out'
  faults : ∀ text out, Holds mem text out → text ≠ [] →
    mem.length ≤ (text ++ (start ++ printedOf fields)).length → f out = none
  single : 1 < mem.length → ∀ out, Holds mem [] out → SingleWrite mem.length start fields →
    ∃ out', f out = some out' ∧ Holds mem ((start ++ printedOf fields).take (mem.length - 1)) out'
  multiple : 1 < mem.length → ∀ out, Holds mem [] out → mem.length ≤ (start ++ printedOf fields).length →
    ¬SingleWrite mem.length start fields → f out = none

section Runs

variable {mem : List Char} {start text : CString} {fields : List (Field × CString)} {f : Field}
  {run emitted : Out → Option Out}

theorem printedOf_cons (f : Field) (text : CString) (fields : List (Field × CString)) :
    printedOf ((f, text) :: fields) = f.printed ++ (text ++ printedOf fields) := by
  rw [printedOf, List.flatMap_cons, List.append_assoc]
  rfl

theorem ne_nil_of_mem_writes {w : CString} (h : w ∈ f.writes) : w ≠ [] := by
  have hpad {n : ℕ} {c : Char} (h : w ∈ List.replicate n [c]) : w ≠ [] := by
    rw [List.eq_of_mem_replicate h]
    exact List.cons_ne_nil _ _
  have hchunk {s : CString} (h : w ∈ chunk s) : w ≠ [] := by
    rw [(mem_chunk h).1]
    exact (mem_chunk h).2
  rw [Field.writes, Field.inner] at h
  rcases List.mem_append.mp h with h | h
  · exact hchunk h
  · split_ifs at h
    · rcases List.mem_append.mp h with h | h
      · exact hchunk h
      · exact hpad h
    · rcases List.mem_append.mp h with h | h
      · exact hpad h
      · exact hchunk h

/-- The text behind the last directive. -/
theorem runs_text (hrun : ∀ out, run out = if start = [] then some out else (put mem.length start out).map Prod.snd) :
    Runs mem start [] run := by
  have hall : start ++ printedOf [] = start := List.append_nil start
  by_cases hstart : start = []
  · have hsome : run = some := by
      funext out
      rw [hrun, if_pos hstart]
    subst hstart
    rw [hsome]
    refine ⟨fun _ out h ↦ ⟨out, rfl, h⟩, ?_, ?_, ?_, ?_⟩
    · intro text out h _
      rw [hall, List.append_nil]
      exact ⟨out, rfl, h⟩
    · intro text out h htext hlong
      rw [hall, List.append_nil] at hlong
      exact absurd (h.length_lt htext) (not_lt.mpr hlong)
    · intro hmem out h hsingle
      have hle : mem.length ≤ 0 := hsingle
      omega
    · intro hmem out h hlong
      have hle : mem.length ≤ 0 := hlong
      omega
  · have hput : run = fun out ↦ (put mem.length start out).map Prod.snd := by
      funext out
      rw [hrun, if_neg hstart]
    have hemits : Emits mem (chunk start) fun out ↦ (put mem.length start out).map Prod.snd := emits_put start
    have hflat := flatten_chunk start
    rw [hput]
    refine ⟨hemits.blocked, ?_, ?_, ?_, ?_⟩
    · intro text out h hroom
      rw [hall] at hroom ⊢
      rw [← hflat] at hroom
      have hfits := hemits.fits text out h hroom
      rwa [hflat] at hfits
    · intro text out h htext hlong
      rw [hall, ← hflat] at hlong
      exact hemits.faults text out h htext hlong
    · intro hmem out h hsingle
      rw [hall]
      exact hemits.cut out start [] hmem h (chunk_of_ne hstart) hsingle
    · intro hmem out h hlong hsingle
      rw [hall] at hlong
      exact absurd hlong hsingle

/-- A field in front of the rest. -/
theorem runs_field (hemitted : Emits mem f.writes emitted) (hrun : Runs mem text fields run) :
    Runs mem [] ((f, text) :: fields) fun out ↦ (emitted out).bind run := by
  have hflat : f.writes.flatten = f.printed := rfl
  have hall : [] ++ printedOf ((f, text) :: fields) = f.printed ++ (text ++ printedOf fields) :=
    printedOf_cons f text fields
  refine ⟨?_, ?_, ?_, ?_, ?_⟩
  · intro hmem out h
    obtain ⟨out', hout', hholds⟩ := hemitted.blocked hmem out h
    obtain ⟨out'', hout'', hholds'⟩ := hrun.blocked hmem out' hholds
    exact ⟨out'', by rw [hout', Option.bind_some, hout''], hholds'⟩
  · intro stored out h hroom
    rw [hall, ← List.append_assoc] at hroom ⊢
    have hfirst : (stored ++ f.printed).length < mem.length := by
      rw [List.length_append] at hroom
      omega
    obtain ⟨out', hout', hholds⟩ := hemitted.fits stored out h (by rwa [hflat])
    rw [hflat] at hholds
    obtain ⟨out'', hout'', hholds'⟩ := hrun.fits _ out' hholds hroom
    exact ⟨out'', by rw [hout', Option.bind_some, hout''], hholds'⟩
  · intro stored out h hstored hlong
    rw [hall, ← List.append_assoc] at hlong
    by_cases hfirst : (stored ++ f.printed).length < mem.length
    · obtain ⟨out', hout', hholds⟩ := hemitted.fits stored out h (by rwa [hflat])
      rw [hflat] at hholds
      rw [hout', Option.bind_some]
      exact hrun.faults _ out' hholds (List.append_ne_nil_of_left_ne_nil hstored _) hlong
    · rw [hemitted.faults stored out h hstored (by rw [hflat]; exact not_lt.mp hfirst)]
      rfl
  · intro hmem out h hsingle
    rw [hall]
    rcases hsingle.2 with ⟨hnil, hsingle⟩ | ⟨hlong, hrest⟩
    · obtain ⟨out', hout', hholds⟩ := hemitted.fits [] out h (by rw [hflat, hnil]; simp; omega)
      rw [hflat, hnil, List.append_nil] at hholds
      obtain ⟨out'', hout'', hholds'⟩ := hrun.single hmem out' hholds hsingle
      rw [hnil, List.nil_append]
      exact ⟨out'', by rw [hout', Option.bind_some, hout''], hholds'⟩
    · obtain ⟨w, ws, hws⟩ : ∃ w ws, f.writes = w :: ws := by
        cases hws : f.writes with
        | nil =>
          rw [Field.first, hws] at hlong
          exact absurd hmem (not_lt.mpr (hlong.trans (Nat.zero_le _)))
        | cons w ws => exact ⟨w, ws, rfl⟩
      have hw : mem.length ≤ w.length := by rwa [Field.first, hws] at hlong
      obtain ⟨out', hout', hholds⟩ := hemitted.cut out w ws hmem h hws hw
      have hlength : (w.take (mem.length - 1)).length = mem.length - 1 := by
        rw [List.length_take]
        omega
      obtain ⟨out'', hout'', hholds'⟩ := hrun.fits _ out' hholds (by
        rw [hrest, List.append_nil, hlength]
        omega)
      have hcut : (f.printed ++ (text ++ printedOf fields)).take (mem.length - 1) = w.take (mem.length - 1) := by
        rw [hrest, List.append_nil, ← hflat, hws, List.flatten_cons, List.take_append_of_le_length (by omega)]
      rw [hrest, List.append_nil] at hholds'
      rw [hcut]
      exact ⟨out'', by rw [hout', Option.bind_some, hout''], hholds'⟩
  · intro hmem out h hlong hsingle
    rw [hall] at hlong
    by_cases hnil : f.printed = []
    · obtain ⟨out', hout', hholds⟩ := hemitted.fits [] out h (by rw [hflat, hnil]; simp; omega)
      rw [hflat, hnil, List.append_nil] at hholds
      rw [hout', Option.bind_some]
      rw [hnil, List.nil_append] at hlong
      exact hrun.multiple hmem out' hholds hlong fun h ↦ hsingle ⟨rfl, .inl ⟨hnil, h⟩⟩
    · by_cases hfirst : f.printed.length < mem.length
      · obtain ⟨out', hout', hholds⟩ := hemitted.fits [] out h (by rw [hflat, List.nil_append]; exact hfirst)
        rw [hflat, List.nil_append] at hholds
        rw [hout', Option.bind_some]
        exact hrun.faults _ out' hholds hnil hlong
      · obtain ⟨w, ws, hws⟩ : ∃ w ws, f.writes = w :: ws := by
          apply List.exists_cons_of_ne_nil
          intro hws
          rw [hws] at hflat
          exact hnil hflat.symm
        have hne : w ≠ [] := ne_nil_of_mem_writes (by rw [hws]; exact List.mem_cons_self)
        by_cases hw : w.length < mem.length
        · rw [hemitted.cutLater out w ws h hws hw hne (by rw [hflat]; exact not_lt.mp hfirst)]
          rfl
        · obtain ⟨out', hout', hholds⟩ := hemitted.cut out w ws hmem h hws (not_lt.mp hw)
          have hlength : (w.take (mem.length - 1)).length = mem.length - 1 := by
            rw [List.length_take]
            omega
          have hrest : text ++ printedOf fields ≠ [] := by
            intro hrest
            exact hsingle ⟨rfl, .inr ⟨by rw [Field.first, hws]; exact not_lt.mp hw, hrest⟩⟩
          have hpos := List.length_pos_iff.mpr hrest
          rw [hout', Option.bind_some]
          apply hrun.faults _ out' hholds
          · rw [← List.length_pos_iff, hlength]
            omega
          · rw [List.length_append, hlength]
            omega

/-- A text in front of a directive. If it is cut, it is written again. -/
theorem runs_flush (hstart : start ≠ []) (hint : ((min start.length (mem.length - 1) : ℕ) : ℤ) ≤ intMax)
    {p : Field × CString} (hrun : Runs mem [] (p :: fields) run) :
    Runs mem start (p :: fields) fun out ↦ (put mem.length start out).bind fun r ↦
      if r.1 ≠ start.length then (put mem.length start r.2).map Prod.snd else run r.2 := by
  have hpos := List.length_pos_iff.mpr hstart
  have hwhole {stored : CString} (hroom : (stored ++ start).length < mem.length) :
      toInt32 start.length = start.length := by
    rw [List.length_append] at hroom
    exact toInt32_length (by omega)
  refine ⟨?_, ?_, ?_, ?_, ?_⟩
  · intro hmem out h
    obtain ⟨out', hput, hholds⟩ := put_blocked hmem h start
    obtain ⟨out'', hput', hholds'⟩ := put_blocked hmem hholds start
    refine ⟨out'', ?_, hholds'⟩
    rw [hput, Option.bind_some, if_pos (by dsimp only; omega), hput']
    rfl
  · intro stored out h hroom
    rw [← List.append_assoc] at hroom ⊢
    have hfirst : (stored ++ start).length < mem.length := by
      rw [List.length_append] at hroom
      omega
    obtain ⟨out', hput, hholds⟩ := put_fits h hfirst
    rw [hput, Option.bind_some, hwhole hfirst, if_neg (not_ne_iff.mpr rfl)]
    exact hrun.fits _ out' hholds hroom
  · intro stored out h hstored hlong
    rw [← List.append_assoc] at hlong
    by_cases hfirst : (stored ++ start).length < mem.length
    · obtain ⟨out', hput, hholds⟩ := put_fits h hfirst
      rw [hput, Option.bind_some, hwhole hfirst, if_neg (not_ne_iff.mpr rfl)]
      exact hrun.faults _ out' hholds (List.append_ne_nil_of_left_ne_nil hstored _) hlong
    · rw [put_over h hstored hstart (not_lt.mp hfirst)]
      rfl
  · intro hmem out h hsingle
    exact absurd hsingle.1 hstart
  · intro hmem out h hlong _
    by_cases hfirst : start.length < mem.length
    · obtain ⟨out', hput, hholds⟩ := put_fits (s := start) h hfirst
      rw [hput, Option.bind_some, hwhole (show (([] : CString) ++ start).length < mem.length from hfirst),
        if_neg (not_ne_iff.mpr rfl)]
      rw [List.nil_append] at hholds
      exact hrun.faults _ out' hholds hstart hlong
    · obtain ⟨out', hput, hholds⟩ := put_cut h hmem (not_lt.mp hfirst)
      have hlength : (start.take (mem.length - 1)).length = mem.length - 1 := by
        rw [List.length_take]
        omega
      have hne : start.take (mem.length - 1) ≠ [] := by
        rw [← List.length_pos_iff, hlength]
        omega
      rw [hput, Option.bind_some, Misc.toInt32_eq_self (by omega) (by omega), if_pos (by dsimp only; omega),
        put_over hholds hne hstart (by rw [List.length_append, hlength]; omega)]
      rfl

end Runs

/-! ### Signs and blanks -/

section Levels

variable {fields : List (Field × CString)} {f : Field}

theorem outputOf_cons (f : Field) (text : CString) (fields : List (Field × CString)) :
    outputOf ((f, text) :: fields) = f.output ++ (text ++ outputOf fields) := by
  rw [outputOf, List.flatMap_cons, List.append_assoc]
  rfl

theorem length_printedOf (fields : List (Field × CString)) :
    (printedOf fields).length = (outputOf fields).length := by
  induction fields with
  | nil => rfl
  | cons p fields ih =>
    obtain ⟨f, text⟩ := p
    rw [printedOf_cons, outputOf_cons, List.length_append, List.length_append, List.length_append,
      List.length_append, f.length_printed, ih]

theorem printedOf_eq (h : AllLevel fields) : printedOf fields = outputOf fields := by
  induction fields with
  | nil => rfl
  | cons p fields ih =>
    obtain ⟨f, text⟩ := p
    rw [printedOf_cons, outputOf_cons, Field.printed_eq (h (f, text) List.mem_cons_self),
      ih fun q hq ↦ h q (List.mem_cons_of_mem _ hq)]

/-- What is printed for a field whose sign is at the wrong place begins with another character. -/
theorem printed_of_not_level (hsign : ' ' ∉ f.sign) (h : ¬f.Level) :
    (∃ c s, c ≠ ' ' ∧ f.first = c :: s ∧ f.printed = f.first ++ f.inner.flatten) ∧ ∃ s, f.output = ' ' :: s := by
  obtain ⟨hne, houtput, ws, hwrites⟩ := Field.head_of_not_level h
  obtain ⟨c, s, hc⟩ := List.exists_cons_of_ne_nil hne
  refine ⟨⟨c, s, ?_, ?_, ?_⟩, houtput⟩
  · rintro rfl
    apply hsign
    rw [hc]
    exact List.mem_cons_self
  · rw [Field.first, hwrites, ← hc]
    rfl
  · rw [Field.printed, Field.first, hwrites, List.headD_cons, ← List.flatten_cons, ← hwrites, Field.writes,
      chunk_of_ne hne]
    rfl

theorem allLevel_of_printedOf_eq (hsigns : ∀ p ∈ fields, ' ' ∉ p.1.sign) (h : printedOf fields = outputOf fields) :
    AllLevel fields := by
  induction fields with
  | nil => exact fun p hp ↦ absurd hp List.not_mem_nil
  | cons p fields ih =>
    obtain ⟨f, text⟩ := p
    rw [printedOf_cons, outputOf_cons] at h
    obtain ⟨hfield, hrest⟩ := List.append_inj h f.length_printed
    have hlevel : f.Level := by
      by_contra hnot
      obtain ⟨⟨c, s, hc, hfirst, hprinted⟩, s', houtput⟩ :=
        printed_of_not_level (hsigns (f, text) List.mem_cons_self) hnot
      rw [hprinted, hfirst, houtput] at hfield
      exact hc (List.cons.inj hfield).1
    have hall := ih (fun q hq ↦ hsigns q (List.mem_cons_of_mem _ hq)) (List.append_cancel_left hrest)
    intro q hq
    rcases List.mem_cons.mp hq with rfl | hq
    · exact hlevel
    · exact hall q hq

/-- Everything that is printed is the first of the output only if it is the output. -/
theorem allLevel_of_prefix (hsigns : ∀ p ∈ fields, ' ' ∉ p.1.sign) {text : CString}
    (h : text ++ printedOf fields <+: text ++ outputOf fields) : AllLevel fields := by
  have heq := h.eq_of_length (by rw [List.length_append, List.length_append, length_printedOf])
  exact allLevel_of_printedOf_eq hsigns (List.append_cancel_left heq)

theorem allLevel_of_nil (hsigns : ∀ p ∈ fields, ' ' ∉ p.1.sign) (h : printedOf fields = []) : AllLevel fields := by
  apply allLevel_of_printedOf_eq hsigns
  have hlength := length_printedOf fields
  rw [h] at hlength
  rw [h, List.length_eq_zero_iff.mp hlength.symm]

/-- A single write that is cut is the first of the output only if nothing is to stand in front of a sign. -/
theorem allLevel_of_single {size : ℕ} (hsize : 1 < size) (hsigns : ∀ p ∈ fields, ' ' ∉ p.1.sign) {text : CString}
    (hsingle : SingleWrite size text fields)
    (h : (text ++ printedOf fields).take (size - 1) <+: text ++ outputOf fields) : AllLevel fields := by
  induction fields generalizing text with
  | nil => exact fun p hp ↦ absurd hp List.not_mem_nil
  | cons p fields ih =>
    obtain ⟨f, text'⟩ := p
    have hrestSigns : ∀ q ∈ fields, ' ' ∉ q.1.sign := fun q hq ↦ hsigns q (List.mem_cons_of_mem _ hq)
    obtain ⟨rfl, hsingle⟩ := hsingle
    rw [List.nil_append, List.nil_append, printedOf_cons, outputOf_cons] at h
    have hlevel : f.Level ∧ AllLevel fields := by
      by_cases hnot : f.Level
      · rcases hsingle with ⟨hnil, hsingle⟩ | ⟨-, hrest⟩
        · rw [← Field.printed_eq hnot, hnil, List.nil_append, List.nil_append] at h
          exact ⟨hnot, ih hrestSigns hsingle h⟩
        · exact ⟨hnot, allLevel_of_nil hrestSigns (List.append_eq_nil_iff.mp hrest).2⟩
      · obtain ⟨⟨c, s, hc, hfirst, hprinted⟩, s', houtput⟩ :=
          printed_of_not_level (hsigns (f, text') List.mem_cons_self) hnot
        obtain ⟨n, hn⟩ : ∃ n, size - 1 = n + 1 := ⟨size - 2, by omega⟩
        rw [hprinted, hfirst, houtput, hn, List.cons_append, List.cons_append, List.take_succ_cons,
          List.cons_append, List.cons_prefix_cons] at h
        exact absurd h.1 hc
    intro q hq
    rcases List.mem_cons.mp hq with rfl | hq
    · exact hlevel.1
    · exact hlevel.2 q hq

end Levels

/-! ### A format -/

section Formats

variable {mem : List Char} {args : List Arg} {fields : List (Field × CString)}

theorem pfmt_text {text : CString} (htext : '%' ∉ text) (size : ℕ) (start : CString) (args : List Arg)
    (rest : CString) (out : Out) :
    pfmt size none start args (text ++ rest) out = pfmt size none (start ++ text) args rest out := by
  induction text generalizing start with
  | nil => rw [List.nil_append, List.append_nil]
  | cons a text ih =>
    rw [List.mem_cons, not_or] at htext
    have hstep : pfmt size none start args (a :: (text ++ rest)) out =
        pfmt size none (start ++ [a]) args (text ++ rest) out := by
      rw [pfmt]
      exact if_pos (Ne.symm htext.1)
    rw [List.cons_append, hstep, ih htext.2, List.append_assoc, List.singleton_append]

theorem pfmt_percent (size : ℕ) (start : CString) (args : List Arg) (rest : CString) (out : Out) :
    pfmt size none start args ('%' :: rest) out =
      if start = [] then pfmt size (some .init) ['%'] args rest out
      else (put size start out).bind fun r ↦
        if r.1 ≠ start.length then (put size start r.2).map Prod.snd
        else pfmt size (some .init) ['%'] args rest r.2 := by
  rw [pfmt]
  rfl

/-- What is left of a plain format does what its fields ask for. -/
theorem runs_parts {parts : List (Directive × CString)} (hfields : fieldsOf parts args = some fields)
    (hplain : PlainParts parts args) (hparts : ∀ p ∈ parts, '%' ∉ p.2) (start : CString)
    (hint : ((min (start ++ printedOf fields).length (mem.length - 1) : ℕ) : ℤ) ≤ intMax) :
    Runs mem start fields (pfmt mem.length none start args (parts.flatMap fun p ↦ p.1.spell ++ p.2)) := by
  induction parts generalizing args fields start with
  | nil =>
    obtain rfl := Option.some.inj hfields
    exact runs_text fun out ↦ by rw [List.flatMap_nil, pfmt]
  | cons part parts ih =>
    obtain ⟨directive, text⟩ := part
    cases directive with
    | percent => exact hplain.elim
    | conversion c =>
      obtain ⟨b, args', f, hbind, hfield, hc, hrest⟩ := hplain
      rw [fieldsOf, hbind, Option.bind_some, hfield, Option.bind_some, Option.map_eq_some_iff] at hfields
      obtain ⟨fields, hfields, rfl⟩ := hfields
      rw [printedOf_cons, List.length_append, List.length_append] at hint
      have htext : '%' ∉ text := hparts (.conversion c, text) List.mem_cons_self
      obtain ⟨t, ht, hscan⟩ := pfmt_conversion hbind hfield hc
      have hnext := ih hfields hrest (fun p hp ↦ hparts p (List.mem_cons_of_mem _ hp)) text (by omega)
      have hfirst := runs_field (emit_plain hfield hc ht) hnext
      have hspell : (((.conversion c, text) :: parts).flatMap fun p : Directive × CString ↦ p.1.spell ++ p.2) =
          '%' :: (c.spell ++ (text ++ parts.flatMap fun p ↦ p.1.spell ++ p.2)) := by
        rw [List.flatMap_cons, Directive.spell, List.cons_append, List.cons_append, List.append_assoc]
      have hfirst' : (fun out ↦ pfmt mem.length (some .init) ['%'] args
          (c.spell ++ (text ++ parts.flatMap fun p ↦ p.1.spell ++ p.2)) out) = fun out ↦
            (emit mem.length t (valueOf c.type b.arg) out).bind
              (pfmt mem.length none text args' (parts.flatMap fun p ↦ p.1.spell ++ p.2)) := by
        funext out
        rw [hscan]
        congr 1
        funext out
        rw [pfmt_text htext, List.nil_append]
      rw [← hfirst'] at hfirst
      rw [hspell]
      generalize c.spell ++ (text ++ parts.flatMap fun p ↦ p.1.spell ++ p.2) = rest at hfirst ⊢
      by_cases hstart : start = []
      · subst hstart
        have hrun : pfmt mem.length none [] args ('%' :: rest) = fun out ↦
            pfmt mem.length (some .init) ['%'] args rest out := by
          funext out
          rw [pfmt_percent, if_pos rfl]
        rw [hrun]
        exact hfirst
      · have hrun : pfmt mem.length none start args ('%' :: rest) = fun out ↦
            (put mem.length start out).bind fun r ↦
              if r.1 ≠ start.length then (put mem.length start r.2).map Prod.snd
              else pfmt mem.length (some .init) ['%'] args rest r.2 := by
          funext out
          rw [pfmt_percent, if_neg hstart]
        rw [hrun]
        exact runs_flush hstart (by omega) hfirst

/-- The format is printed as the standard asks for, and an `int` counts what is stored in the buffer. -/
structure Format.Plain (f : Format) (mem : List Char) (args : List Arg) (fields : List (Field × CString)) : Prop where
  parts : PlainParts f.parts args
  length : ((min (f.text ++ outputOf fields).length (mem.length - 1) : ℕ) : ℤ) ≤ intMax

theorem signs_of_plain {parts : List (Directive × CString)} (hfields : fieldsOf parts args = some fields)
    (hplain : PlainParts parts args) : ∀ p ∈ fields, ' ' ∉ p.1.sign := by
  induction parts generalizing args fields with
  | nil =>
    obtain rfl := Option.some.inj hfields
    exact fun p hp ↦ absurd hp List.not_mem_nil
  | cons part parts ih =>
    obtain ⟨directive, text⟩ := part
    cases directive with
    | percent => exact hplain.elim
    | conversion c =>
      obtain ⟨b, args', f, hbind, hfield, hc, hrest⟩ := hplain
      rw [fieldsOf, hbind, Option.bind_some, hfield, Option.bind_some, Option.map_eq_some_iff] at hfields
      obtain ⟨fields, hfields, rfl⟩ := hfields
      intro p hp
      rcases List.mem_cons.mp hp with rfl | hp
      · exact sign_of_noSpace hfield hc.noSpace
      · exact ih hfields hrest p hp

/-- A call keeps the promise if it stores the first of the output and there is a NUL behind that. -/
theorem printsPrefix_of_holds {f : Format} {full stored : CString} {out : Out} (houtput : f.output args = some full)
    (hcall : my_vsnprintf mem mem.length f.spell args = some (out.total, out)) (h : Holds mem stored out)
    (hint : (stored.length : ℤ) ≤ intMax) :
    PrintsPrefix mem f args ↔ (stored ≠ [] ∨ mem.head? = some nul) ∧ stored <+: full := by
  have htake : out.mem.take out.pos = stored := by
    rw [h.pos]
    exact (List.prefix_iff_eq_take.mp h.front).symm
  constructor
  · rintro ⟨full', ret, out', houtput', hcall', -, hnul, hfront⟩
    obtain ⟨-, rfl⟩ := Prod.mk.inj (Option.some.inj (hcall.symm.trans hcall'))
    rw [htake, ← Option.some.inj (houtput.symm.trans houtput')] at hfront
    refine ⟨?_, hfront⟩
    by_cases hstored : stored = []
    · right
      rw [h.empty hstored, h.pos, hstored] at hnul
      rw [List.head?_eq_getElem?]
      exact hnul
    · exact .inl hstored
  · rintro ⟨hend, hfront⟩
    refine ⟨full, out.total, out, houtput, hcall, ?_, ?_, ?_⟩
    · rw [h.total, h.pos]
      exact toInt32_length hint
    · rw [h.pos]
      by_cases hstored : stored = []
      · rw [h.empty hstored, hstored]
        have hhead := hend.resolve_left (not_not_intro hstored)
        rwa [List.head?_eq_getElem?] at hhead
      · exact h.last hstored
    · rwa [htake]

/-- A plain format keeps the promise exactly if its output fits or is cut in its only write, and nothing is to
stand in front of a sign, or if nothing is stored in a buffer that is empty before. -/
theorem printsPrefix_iff {f : Format} (hmem : mem ≠ []) (hfields : fieldsOf f.parts args = some fields)
    (hplain : f.Plain mem args fields) : PrintsPrefix mem f args ↔ Fits mem f.text fields := by
  have hsize := List.length_pos_iff.mpr hmem
  have hlong := hplain.length
  have houtput : f.output args = some (f.text ++ outputOf fields) := by
    rw [Format.output, hfields]
    rfl
  have hlength : (f.text ++ printedOf fields).length = (f.text ++ outputOf fields).length := by
    rw [List.length_append, List.length_append, length_printedOf]
  have hsigns := signs_of_plain hfields hplain.parts
  have hruns : Runs mem f.text fields
      (pfmt mem.length none f.text args (f.parts.flatMap fun p ↦ p.1.spell ++ p.2)) :=
    runs_parts hfields hplain.parts f.hparts f.text (by rwa [hlength])
  have hcall : my_vsnprintf mem mem.length f.spell args =
      (pfmt mem.length none f.text args (f.parts.flatMap fun p ↦ p.1.spell ++ p.2) ⟨mem, 0, 0, []⟩).map
        fun out ↦ (out.total, out) := by
    rw [my_vsnprintf, if_neg (by omega), Format.spell, pfmt_text f.htext, List.nil_append]
  have hstart := Holds.start mem []
  by_cases hone : mem.length = 1
  · obtain ⟨out, hout, hholds⟩ := hruns.blocked hone _ hstart
    rw [hout] at hcall
    rw [printsPrefix_of_holds houtput hcall hholds (by decide), Fits]
    constructor
    · rintro ⟨hne | hnul, -⟩
      · exact absurd rfl hne
      · exact .inr (.inl ⟨hnul, .inr hone⟩)
    · rintro (⟨hne, hlt, -⟩ | ⟨hnul, -⟩ | ⟨hlt, -⟩)
      · have hpos := List.length_pos_iff.mpr hne
        omega
      · exact ⟨.inr hnul, List.nil_prefix⟩
      · omega
  · have hmany : 1 < mem.length := by omega
    by_cases hroom : (f.text ++ outputOf fields).length < mem.length
    · obtain ⟨out, hout, hholds⟩ := hruns.fits [] _ hstart (by rwa [List.nil_append, hlength])
      rw [hout] at hcall
      rw [List.nil_append] at hholds
      rw [printsPrefix_of_holds houtput hcall hholds (by omega), Fits]
      constructor
      · rintro ⟨hend, hfront⟩
        by_cases hnil : f.text ++ outputOf fields = []
        · have hprinted : f.text ++ printedOf fields = [] := by
            rw [← List.length_eq_zero_iff, hlength, hnil]
            rfl
          exact .inr (.inl ⟨hend.resolve_left (not_not_intro hprinted), .inl hnil⟩)
        · exact .inl ⟨hnil, hroom, allLevel_of_prefix hsigns hfront⟩
      · rintro (⟨hne, -, hlevel⟩ | ⟨hnul, hnil | hone'⟩ | ⟨-, hle, -⟩)
        · rw [printedOf_eq hlevel]
          exact ⟨.inl hne, List.prefix_rfl⟩
        · have hprinted : f.text ++ printedOf fields = [] := by
            rw [← List.length_eq_zero_iff, hlength, hnil]
            rfl
          rw [hprinted]
          exact ⟨.inr hnul, List.nil_prefix⟩
        · exact absurd hone' hone
        · omega
    · rw [not_lt] at hroom
      have hne : f.text ++ outputOf fields ≠ [] := by
        rw [← List.length_pos_iff]
        omega
      by_cases hsingle : SingleWrite mem.length f.text fields
      · obtain ⟨out, hout, hholds⟩ := hruns.single hmany _ hstart hsingle
        rw [hout] at hcall
        rw [printsPrefix_of_holds houtput hcall hholds (by rw [List.length_take]; omega), Fits]
        constructor
        · rintro ⟨-, hfront⟩
          exact .inr (.inr ⟨hmany, hroom, hsingle, allLevel_of_single hmany hsigns hsingle hfront⟩)
        · rintro (⟨-, hlt, -⟩ | ⟨-, hnil | hone'⟩ | ⟨-, -, -, hlevel⟩)
          · omega
          · exact absurd hnil hne
          · exact absurd hone' hone
          · refine ⟨.inl ?_, ?_⟩
            · rw [← List.length_pos_iff, List.length_take]
              omega
            · rw [printedOf_eq hlevel]
              exact List.take_prefix _ _
      · rw [hruns.multiple hmany _ hstart (by rwa [hlength]) hsingle] at hcall
        rw [Fits]
        constructor
        · rintro ⟨-, ret, out, -, hcall', -⟩
          rw [hcall] at hcall'
          cases hcall'
        · rintro (⟨-, hlt, -⟩ | ⟨-, hnil | hone'⟩ | ⟨-, -, hsingle', -⟩)
          · omega
          · exact absurd hnil hne
          · exact absurd hone' hone
          · exact absurd hsingle' hsingle

/-- `ab%-5d`. -/
def leftFormat : Format :=
  .ofConversion "ab".toList (.bare ['-'] (.digits ['5']) .normal 'd' (List.forall_mem_singleton.mpr (by decide))
    ⟨List.cons_ne_nil _ _, by decide, List.forall_mem_singleton.mpr rfl⟩ (.inl (by decide))) (by decide)

/-- `ab%-5d` in a buffer with room for it. -/
theorem printsPrefix_left : PrintsPrefix (List.replicate 8 '?') leftFormat [.int (-3)] := by
  have hfields : fieldsOf leftFormat.parts [.int (-3)] = some [(⟨true, false, 5, ['-'], ['3']⟩, [])] := rfl
  have hexact : Exact .normal 'd' (.int (-3)) := by
    rw [Exact, if_pos (.inl rfl)]
    exact fun h ↦ absurd h (by decide)
  have hplain : leftFormat.Plain (List.replicate 8 '?') [.int (-3)] [(⟨true, false, 5, ['-'], ['3']⟩, [])] := by
    refine ⟨⟨_, _, _, rfl, rfl, ⟨by decide, ?_, trivial, fun _ ↦ by decide, hexact, fun _ ↦ List.cons_ne_nil _ _⟩,
      trivial⟩, by decide⟩
    show (5 : ℤ) + 48 ≤ intMax
    decide
  have hlevel : AllLevel [(⟨true, false, 5, ['-'], ['3']⟩, [])] := List.forall_mem_singleton.mpr (.inl rfl)
  exact (printsPrefix_iff (by decide) hfields hplain).mpr (.inl ⟨by decide, by decide, hlevel⟩)

/-- `ab%s`. -/
def stringFormat : Format :=
  .ofConversion "ab".toList (.bare [] .absent .normal 's' (List.forall_mem_nil _) trivial (.inr ⟨rfl, by decide⟩))
    (by decide)

/-- `%5d`. -/
def widthFormat : Format :=
  .ofConversion [] (.bare [] (.digits ['5']) .normal 'd' (List.forall_mem_nil _)
    ⟨List.cons_ne_nil _ _, by decide, List.forall_mem_singleton.mpr rfl⟩ (.inl (by decide))) (by decide)

/-- `%ld`. -/
def longFormat : Format :=
  .ofConversion [] (.bare [] .absent .long 'd' (List.forall_mem_nil _) trivial (.inl (by decide))) (by decide)

/-- The second write goes over the end of the buffer, a sign stands in front of the blanks, and the last digit of
the least `long` is put behind `numbuf`. -/
theorem not_printsPrefix :
    ¬PrintsPrefix (List.replicate 5 '?') stringFormat [.string (some "cdef".toList)] ∧
      ¬PrintsPrefix (List.replicate 20 '?') widthFormat [.int (-3)] ∧
      ¬PrintsPrefix (List.replicate 64 '?') longFormat [.long (BitVec.intMin 64)] := by
  refine ⟨?_, ?_, ?_⟩
  · rintro ⟨full, ret, out, -, hcall, -⟩
    have hnone : my_vsnprintf (List.replicate 5 '?') 5 stringFormat.spell [.string (some "cdef".toList)] = none := by
      rw [← Option.isNone_iff_eq_none]
      decide +kernel
    cases hnone.symm.trans hcall
  · rintro ⟨full, ret, out, hfull, hcall, -, -, hprefix⟩
    have hstored : (my_vsnprintf (List.replicate 20 '?') 20 widthFormat.spell [.int (-3)]).map
        (fun r ↦ r.2.mem.take r.2.pos) = some "-   3".toList := by
      decide +kernel
    have houtput : widthFormat.output [.int (-3)] = some "   -3".toList := rfl
    have hcall' : my_vsnprintf (List.replicate 20 '?') 20 widthFormat.spell [.int (-3)] = some (ret, out) := hcall
    rw [hcall', Option.map_some, Option.some.injEq] at hstored
    rw [hstored, ← Option.some.inj (houtput.symm.trans hfull)] at hprefix
    exact absurd hprefix (by decide)
  · rintro ⟨full, ret, out, -, hcall, -⟩
    have hnone : my_vsnprintf (List.replicate 64 '?') 64 longFormat.spell [.long (BitVec.intMin 64)] = none := by
      rw [← Option.isNone_iff_eq_none]
      decide +kernel
    cases hnone.symm.trans hcall

end Formats

end BlitzedServices.Vsnprintf
