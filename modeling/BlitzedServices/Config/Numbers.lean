import BlitzedServices.Config.Parse

/-!
# Numbers of the configuration

`NumberText` says which texts a parameter of a number stands for, and `LineRight` what a line has to do with
them: a number is stored as typed, and every other text is refused with an error and leaves the setting alone.

`parse` reads a `long` and keeps the low 32 bits of it, and takes an empty text in quotes for 0, so that some
texts that are no numbers are stored. `Meets` says for each type which texts are not among them, and
`lineRight_iff` that a line is right exactly if the texts of its numbers meet it.
-/

set_option autoImplicit false
set_option relaxedAutoImplicit false

namespace BlitzedServices.Config

open Lib

/-- The number fits an `int`. -/
def InInt (n : ℤ) : Prop :=
  -2 ^ 31 ≤ n ∧ n ≤ Misc.intMax

/-- The text is a number of the type. -/
def NumberText (type : ParamType) (text : CString) (n : ℤ) : Prop :=
  match type with
  | .PARAM_INT => IntText text n ∧ InInt n
  | .PARAM_POSINT => IntText text n ∧ InInt n ∧ 0 < n
  | .PARAM_PORT => IntText text n ∧ 1 ≤ n ∧ n ≤ 65535
  | .PARAM_TIME => Misc.Denotes text n ∧ n ≤ Misc.intMax
  | _ => False

/-- The numbers of a line with their texts. -/
def typedNumbers (buf : CString) : List (Param × CString) :=
  match scanLine buf with
  | none => []
  | some (dir, av, _) =>
    match findDirective dir with
    | none => []
    | some d => (assigned d.params av).filter (·.1.type.isNumber)

/-- What is to become of the numbers of a line. -/
structure LineRight (cfg : Settings) (buf : CString) : Prop where
  stores : ∀ q ∈ typedNumbers buf, ∀ n, NumberText q.1.type q.2 n → (parse cfg buf).settings.ints q.1.ptr = n
  refuses : ∀ q ∈ typedNumbers buf, (¬∃ n, NumberText q.1.type q.2 n) →
    (parse cfg buf).settings.ints q.1.ptr = cfg.ints q.1.ptr ∧ (parse cfg buf).retval = false ∧
      ∃ e ∈ (parse cfg buf).errors, e.isNumber = true
  others : ∀ d ∈ directives, ∀ p ∈ d.params, p.type.isNumber = true →
    (∀ q ∈ typedNumbers buf, q.1.ptr ≠ p.ptr) → (parse cfg buf).settings.ints p.ptr = cfg.ints p.ptr

/-- The text is a number of the type or is refused: it is not empty if any integer is taken, it is no number
whose low 32 bits are one of the type, and no time whose sums come back into the range of an `int`. -/
def Meets (type : ParamType) (text : CString) : Prop :=
  match type with
  | .PARAM_INT => text ≠ [] ∧ ∀ n, IntText text n → InInt n
  | .PARAM_POSINT => ∀ n, IntText text n → InInt n ∨ Misc.toInt32 (clampLong n) ≤ 0
  | .PARAM_PORT =>
    ∀ n, IntText text n → InInt n ∨ Misc.toInt32 (clampLong n) < 1 ∨ 65535 < Misc.toInt32 (clampLong n)
  | .PARAM_TIME =>
    (∃ n ≤ Misc.intMax, Misc.Denotes text n) ∨ ¬Misc.Summed (Misc.numbers text).1 (Misc.numbers text).2 ∨
      2 ^ 31 ≤ Misc.total (Misc.numbers text).1 (Misc.numbers text).2 % 2 ^ 32
  | _ => True

/-! ### One text -/

section Text

variable {text : CString} {n val : ℤ}

theorem toInt32_clampLong (h : InInt n) : Misc.toInt32 (clampLong n) = n := by
  rw [InInt, Misc.intMax] at h
  have hclamp : clampLong n = n := by
    rw [clampLong]
    omega
  rw [hclamp, Misc.toInt32, BitVec.toInt_ofInt, Int.bmod_def]
  omega

theorem inInt_toInt32 (n : ℤ) : InInt (Misc.toInt32 n) := by
  rw [InInt, Misc.intMax, Misc.toInt32, BitVec.toInt_ofInt, Int.bmod_def]
  omega

/-- The low 32 bits of a number are the number exactly if it fits. -/
theorem toInt32_clampLong_iff : Misc.toInt32 (clampLong n) = n ↔ InInt n := by
  constructor
  · intro h
    rw [← h]
    exact inInt_toInt32 _
  · exact toInt32_clampLong

theorem strtolAuto_of_intText (h : IntText text n) : strtolAuto text = (clampLong n, []) := by
  rw [strtolAuto, readNumber_of_intText h]

/-- A text that `strtol` reads to its end is a number or empty. -/
theorem intText_or_nil (h : (strtolAuto text).2 = []) : (∃ n, IntText text n) ∨ text = [] := by
  by_cases htext : text = []
  · exact .inr htext
  · exact .inl ⟨_, (readNumber_iff htext).mp (Prod.ext rfl h)⟩

theorem strtolAuto_nil : strtolAuto [] = (0, []) := by
  decide

theorem readValue_int : readValue .PARAM_INT text = some val ↔
    (strtolAuto text).2 = [] ∧ Misc.toInt32 (strtolAuto text).1 = val := by
  rw [readValue, readParam, readInt]
  dsimp only
  split_ifs with hs
  · simp [Except.toOption, hs]
  · rw [not_ne_iff] at hs
    simp [Except.toOption, hs]

theorem readValue_posint : readValue .PARAM_POSINT text = some val ↔
    (strtolAuto text).2 = [] ∧ 0 < val ∧ Misc.toInt32 (strtolAuto text).1 = val := by
  rw [readValue, readParam, readPosint]
  dsimp only
  split_ifs with hs
  · simp only [Except.toOption, reduceCtorEq, false_iff]
    rintro ⟨hnil, hpos, rfl⟩
    rcases hs with hs | hs
    · exact hs hnil
    · omega
  · rw [not_or, not_ne_iff, not_le] at hs
    simp only [Except.toOption, Option.some.injEq, hs.1, true_and]
    constructor
    · rintro rfl
      exact ⟨hs.2, rfl⟩
    · exact fun h ↦ h.2

theorem readValue_port : readValue .PARAM_PORT text = some val ↔
    (strtolAuto text).2 = [] ∧ (1 ≤ val ∧ val ≤ 65535) ∧ Misc.toInt32 (strtolAuto text).1 = val := by
  rw [readValue, readParam, readPort]
  dsimp only
  split_ifs with hs hrange
  · simp [Except.toOption, hs]
  · simp only [Except.toOption, reduceCtorEq, false_iff]
    rintro ⟨-, hval, rfl⟩
    omega
  · rw [not_ne_iff] at hs
    simp only [Except.toOption, Option.some.injEq, hs, true_and]
    constructor
    · rintro rfl
      exact ⟨by omega, rfl⟩
    · exact fun h ↦ h.2

theorem readValue_time : readValue .PARAM_TIME text = some val ↔ 0 ≤ val ∧ Misc.dotime text = val := by
  rw [readValue, readParam, readTime]
  split_ifs with hneg
  · simp only [Except.toOption, reduceCtorEq, false_iff]
    rintro ⟨hval, rfl⟩
    omega
  · simp only [Except.toOption, Option.some.injEq]
    constructor
    · rintro rfl
      exact ⟨by omega, rfl⟩
    · exact fun h ↦ h.2

theorem denotes_nonneg (h : Misc.Denotes text n) : 0 ≤ n := by
  rcases h with ⟨-, ⟨-, rfl⟩ | hpairs⟩
  · exact Int.natCast_nonneg _
  · exact hpairs.nonneg

/-- Every number of a type is read as what it is. -/
theorem readValue_of_numberText {type : ParamType} (h : NumberText type text n) : readValue type text = some n := by
  cases type with
  | PARAM_INT =>
    obtain ⟨htext, hint⟩ := h
    rw [readValue_int, strtolAuto_of_intText htext]
    exact ⟨rfl, toInt32_clampLong hint⟩
  | PARAM_POSINT =>
    obtain ⟨htext, hint, hpos⟩ := h
    rw [readValue_posint, strtolAuto_of_intText htext]
    exact ⟨rfl, hpos, toInt32_clampLong hint⟩
  | PARAM_PORT =>
    obtain ⟨htext, hlow, hhigh⟩ := h
    rw [readValue_port, strtolAuto_of_intText htext]
    refine ⟨rfl, ⟨hlow, hhigh⟩, toInt32_clampLong ⟨by omega, ?_⟩⟩
    rw [Misc.intMax]
    omega
  | PARAM_TIME =>
    obtain ⟨htext, hmax⟩ := h
    rw [readValue_time]
    exact ⟨denotes_nonneg htext, htext.dotime hmax⟩
  | PARAM_STRING => exact h.elim
  | PARAM_SET => exact h.elim
  | PARAM_DEPRECATED => exact h.elim

/-- A text meets its type exactly if what is read from it is what it stands for. -/
theorem meets_iff {type : ParamType} (htype : type.isNumber = true) :
    Meets type text ↔ ∀ val, readValue type text = some val → NumberText type text val := by
  cases type with
  | PARAM_INT =>
    simp only [readValue_int, Meets, NumberText]
    constructor
    · rintro ⟨hne, hint⟩ val ⟨hnil, rfl⟩
      obtain ⟨n, hn⟩ := (intText_or_nil hnil).resolve_right hne
      rw [strtolAuto_of_intText hn, toInt32_clampLong (hint n hn)]
      exact ⟨hn, hint n hn⟩
    · intro h
      constructor
      · rintro rfl
        exact (h 0 ⟨rfl, rfl⟩).1.ne_nil rfl
      · intro n hn
        have hread := strtolAuto_of_intText hn
        obtain ⟨hval, hint⟩ := h _ ⟨by rw [hread], rfl⟩
        rwa [← hval.unique hn]
  | PARAM_POSINT =>
    simp only [readValue_posint, Meets, NumberText]
    constructor
    · rintro h val ⟨hnil, hpos, rfl⟩
      rcases intText_or_nil hnil with ⟨n, hn⟩ | rfl
      · rw [strtolAuto_of_intText hn] at hpos ⊢
        have hint := (h n hn).resolve_right (not_le.mpr hpos)
        rw [toInt32_clampLong hint] at hpos ⊢
        exact ⟨hn, hint, hpos⟩
      · exact absurd hpos (by decide)
    · intro h n hn
      by_cases hpos : Misc.toInt32 (clampLong n) ≤ 0
      · exact .inr hpos
      · have hread := strtolAuto_of_intText hn
        obtain ⟨hval, hint, -⟩ := h _ ⟨by rw [hread], not_le.mp hpos, by rw [hread]⟩
        rw [hval.unique hn] at hint
        exact .inl hint
  | PARAM_PORT =>
    simp only [readValue_port, Meets, NumberText]
    constructor
    · rintro h val ⟨hnil, hrange, rfl⟩
      rcases intText_or_nil hnil with ⟨n, hn⟩ | rfl
      · rw [strtolAuto_of_intText hn] at hrange ⊢
        have hint : InInt n := (h n hn).resolve_right (not_or.mpr ⟨not_lt.mpr hrange.1, not_lt.mpr hrange.2⟩)
        rw [toInt32_clampLong hint] at hrange ⊢
        exact ⟨hn, hrange⟩
      · exact absurd hrange (by decide)
    · intro h n hn
      by_cases hrange : 1 ≤ Misc.toInt32 (clampLong n) ∧ Misc.toInt32 (clampLong n) ≤ 65535
      · have hread := strtolAuto_of_intText hn
        obtain ⟨hval, hlow, hhigh⟩ := h _ ⟨by rw [hread], hrange, by rw [hread]⟩
        left
        apply toInt32_clampLong_iff.mp
        exact hval.unique hn
      · right
        omega
  | PARAM_TIME =>
    simp only [readValue_time, Meets, NumberText]
    constructor
    · rintro h val ⟨hpos, rfl⟩
      rcases h with ⟨n, hmax, hn⟩ | hrefused
      · rw [hn.dotime hmax]
        exact ⟨hn, hmax⟩
      · rcases Misc.dotime_cases text with ⟨hsummed, hvalue⟩ | ⟨-, hvalue⟩
        · rw [hvalue, Misc.toInt32_nonneg_iff] at hpos
          rcases hrefused with hnot | hsum
          · exact absurd hsummed hnot
          · omega
        · omega
    · intro h
      rcases Misc.dotime_cases text with ⟨hsummed, hvalue⟩ | ⟨hnot, -⟩
      · by_cases hpos : 0 ≤ Misc.dotime text
        · obtain ⟨hdenotes, hmax⟩ := h _ ⟨hpos, rfl⟩
          exact .inl ⟨_, hmax, hdenotes⟩
        · rw [hvalue, Misc.toInt32_nonneg_iff, not_lt] at hpos
          exact .inr (.inr hpos)
      · exact .inr (.inl hnot)
  | PARAM_STRING => exact absurd htype (by decide)
  | PARAM_SET => exact absurd htype (by decide)
  | PARAM_DEPRECATED => exact absurd htype (by decide)

end Text

/-! ### The table -/

theorem apart_of_mem {d : Directive} (hd : d ∈ directives) : Apart d.params := by
  have hall : ∀ d ∈ directives, d.params.Pairwise fun p q ↦ ∀ a ∈ p.targets, a ∉ q.targets := by
    decide +kernel
  exact hall d hd

theorem oneNumber_of_mem {d : Directive} (hd : d ∈ directives) :
    (d.params.filter (·.type.isNumber)).length ≤ 1 := by
  have hall : ∀ d ∈ directives, (d.params.filter (·.type.isNumber)).length ≤ 1 := by
    decide +kernel
  exact hall d hd

/-- What the parameters without text write is no number that is typed elsewhere. -/
theorem unreal_of_mem {d d' : Directive} (hd : d ∈ directives) (hd' : d' ∈ directives) {p q : Param}
    (hp : p ∈ d.params) (hq : q ∈ d'.params) (hnumber : p.type.isNumber = true) (hreal : ¬q.type.isReal = true) :
    p.ptr ∉ q.targets := by
  have hall : ∀ p ∈ directives.flatMap Directive.params, p.type.isNumber = true →
      ∀ q ∈ directives.flatMap Directive.params, ¬q.type.isReal = true → p.ptr ∉ q.targets := by
    decide +kernel
  exact hall p (List.mem_flatMap_of_mem hd hp) hnumber q (List.mem_flatMap_of_mem hd' hq) hreal

/-! ### A line -/

section Line

variable {cfg : Settings} {buf : CString}

theorem scanParams_isNumber (room : ℕ) (s : CString) : ∀ e ∈ (scanParams room s).2, ¬e.isNumber = true := by
  induction room generalizing s with
  | zero =>
    cases s with
    | nil => simp [scanParams]
    | cons c s => simp [scanParams, ParseError.isNumber]
  | succ room ih =>
    cases s with
    | nil => simp [scanParams]
    | cons c s =>
      intro e he
      rw [scanParams] at he
      rcases List.mem_append.mp he with he | he
      · have hparam : e = .unterminatedString := by
          unfold scanParam at he
          split at he
          · split at he
            · exact absurd he List.not_mem_nil
            · exact List.mem_singleton.mp he
          · exact absurd he List.not_mem_nil
        rw [hparam]
        decide
      · exact ih _ e he

theorem scanLine_isNumber {dir : CString} {av : List CString} {errors : List ParseError}
    (h : scanLine buf = some (dir, av, errors)) : ∀ e ∈ errors, ¬e.isNumber = true := by
  unfold scanLine at h
  split at h
  · cases h
  · split at h
    · cases h
      simp
    · obtain ⟨-, hscan⟩ := Prod.mk.inj (Option.some.inj h)
      have herrors := congrArg Prod.snd hscan
      dsimp only at herrors
      rw [← herrors]
      exact scanParams_isNumber _ _

/-- What a line is: one without numbers, which changes none, or a run of a directive. -/
theorem parse_cases (cfg : Settings) (buf : CString) :
    (typedNumbers buf = [] ∧ (parse cfg buf).settings = cfg) ∨
    ∃ d ∈ directives, ∃ av errors, (∀ e ∈ errors, ¬e.isNumber = true) ∧
      typedNumbers buf = (assigned d.params av).filter (·.1.type.isNumber) ∧
      parse cfg buf = runParams d.name 0 d.params av ⟨cfg, errors, true⟩ := by
  rw [typedNumbers, parse]
  cases hscan : scanLine buf with
  | none => exact .inl ⟨rfl, rfl⟩
  | some line =>
    obtain ⟨dir, av, errors⟩ := line
    dsimp only
    cases hfind : findDirective dir with
    | none => exact .inl ⟨rfl, rfl⟩
    | some d => exact .inr ⟨d, List.mem_of_find?_eq_some hfind, av, errors, scanLine_isNumber hscan, rfl, rfl⟩

theorem isNumber_of_mem {q : Param × CString} (hq : q ∈ typedNumbers buf) : q.1.type.isNumber = true := by
  unfold typedNumbers at hq
  split at hq
  · exact absurd hq List.not_mem_nil
  · split at hq
    · exact absurd hq List.not_mem_nil
    · exact (List.mem_filter.mp hq).2

/-- What becomes of a number of a line. -/
theorem parse_ints {q : Param × CString} (hq : q ∈ typedNumbers buf) :
    (parse cfg buf).settings.ints q.1.ptr = (readValue q.1.type q.2).getD (cfg.ints q.1.ptr) := by
  rcases parse_cases cfg buf with ⟨hnil, -⟩ | ⟨d, hd, av, errors, -, htyped, hparse⟩
  · rw [hnil] at hq
    exact absurd hq List.not_mem_nil
  · rw [htyped] at hq
    rw [hparse]
    exact runParams_stores (apart_of_mem hd) (List.mem_filter.mp hq).1 (List.mem_filter.mp hq).2

/-- A line has one number at most. -/
theorem typedNumbers_unique {q q' : Param × CString} (hq : q ∈ typedNumbers buf) (hq' : q' ∈ typedNumbers buf) :
    q = q' := by
  rcases parse_cases ⟨fun _ ↦ 0, fun _ ↦ none⟩ buf with ⟨hnil, -⟩ | ⟨d, hd, av, -, -, htyped, -⟩
  · rw [hnil] at hq
    exact absurd hq List.not_mem_nil
  · have hlength : (typedNumbers buf).length ≤ 1 := by
      have hassigned : ((assigned d.params av).map Prod.fst).Sublist d.params := assigned_fst
      have hsub := hassigned.filter (·.type.isNumber)
      have hle := hsub.length_le.trans (oneNumber_of_mem hd)
      rw [List.filter_map, List.length_map] at hle
      rw [htyped]
      exact hle
    rcases Nat.le_one_iff_eq_zero_or_eq_one.mp hlength with hzero | hone
    · rw [List.length_eq_zero_iff.mp hzero] at hq
      exact absurd hq List.not_mem_nil
    · obtain ⟨r, hr⟩ := List.length_eq_one_iff.mp hone
      rw [hr, List.mem_singleton] at hq hq'
      rw [hq, hq']

/-- A line reports an error about a number exactly if it refuses its number. -/
theorem parse_numberError {q : Param × CString} (hq : q ∈ typedNumbers buf) :
    (∃ e ∈ (parse cfg buf).errors, e.isNumber = true) ↔ readValue q.1.type q.2 = none := by
  rcases parse_cases cfg buf with ⟨hnil, -⟩ | ⟨d, hd, av, errors, herrors, htyped, hparse⟩
  · rw [hnil] at hq
    exact absurd hq List.not_mem_nil
  · rw [hparse, runParams_numberError, or_iff_right (by rintro ⟨e, he, hnumber⟩; exact herrors e he hnumber)]
    constructor
    · rintro ⟨q', hq', hnumber, hnone⟩
      have hmem : q' ∈ typedNumbers buf := by
        rw [htyped]
        exact List.mem_filter.mpr ⟨hq', hnumber⟩
      rwa [typedNumbers_unique hq hmem]
    · intro hnone
      rw [htyped] at hq
      exact ⟨q, (List.mem_filter.mp hq).1, (List.mem_filter.mp hq).2, hnone⟩

theorem parse_refuses {q : Param × CString} (hq : q ∈ typedNumbers buf) (hnone : readValue q.1.type q.2 = none) :
    (parse cfg buf).retval = false := by
  rcases parse_cases cfg buf with ⟨hnil, -⟩ | ⟨d, hd, av, errors, -, htyped, hparse⟩
  · rw [hnil] at hq
    exact absurd hq List.not_mem_nil
  · rw [htyped] at hq
    rw [hparse]
    exact runParams_refuses (.inr ⟨q, (List.mem_filter.mp hq).1, (List.mem_filter.mp hq).2, hnone⟩)

/-- Numbers that are not typed stay as they are. -/
theorem parse_others {d : Directive} {p : Param} (hd : d ∈ directives) (hp : p ∈ d.params)
    (hnumber : p.type.isNumber = true) (hother : ∀ q ∈ typedNumbers buf, q.1.ptr ≠ p.ptr) :
    (parse cfg buf).settings.ints p.ptr = cfg.ints p.ptr := by
  rcases parse_cases cfg buf with ⟨-, hsame⟩ | ⟨d', hd', av, errors, -, htyped, hparse⟩
  · rw [hsame]
  · rw [hparse, runParams_frame]
    · exact fun q hq hreal ↦ unreal_of_mem hd hd' hp hq hnumber hreal
    · intro q hq hqnumber
      apply hother
      rw [htyped]
      exact List.mem_filter.mpr ⟨hq, hqnumber⟩

/-- A line is right exactly if the text of its number is a number of the type, or one that is refused. -/
theorem lineRight_iff (cfg : Settings) (buf : CString) :
    LineRight cfg buf ↔ ∀ q ∈ typedNumbers buf, Meets q.1.type q.2 := by
  constructor
  · intro h q hq
    rw [meets_iff (isNumber_of_mem hq)]
    intro val hval
    by_cases hdenotes : ∃ n, NumberText q.1.type q.2 n
    · obtain ⟨n, hn⟩ := hdenotes
      rw [readValue_of_numberText hn] at hval
      rwa [← Option.some.inj hval]
    · obtain ⟨-, -, herror⟩ := h.refuses q hq hdenotes
      rw [parse_numberError hq, hval] at herror
      cases herror
  · intro h
    refine ⟨?_, ?_, ?_⟩
    · intro q hq n hn
      rw [parse_ints hq, readValue_of_numberText hn, Option.getD_some]
    · intro q hq hdenotes
      have hnone : readValue q.1.type q.2 = none := by
        rw [Option.eq_none_iff_forall_ne_some]
        intro val hval
        exact hdenotes ⟨val, (meets_iff (isNumber_of_mem hq)).mp (h q hq) val hval⟩
      refine ⟨?_, parse_refuses hq hnone, (parse_numberError hq).mpr hnone⟩
      rw [parse_ints hq, hnone, Option.getD_none]
    · exact fun d hd p hp hnumber hother ↦ parse_others hd hp hnumber hother

/-- A number above the largest `int` is stored as its low 32 bits, and an empty text as 0. -/
theorem not_lineRight_wide :
    ¬LineRight ⟨fun _ ↦ 0, fun _ ↦ none⟩ "CSListMax 4294967297".toList ∧
      ¬LineRight ⟨fun _ ↦ 5, fun _ ↦ none⟩ "DefSessionLimit \"\"".toList := by
  constructor
  · intro h
    have htyped : typedNumbers "CSListMax 4294967297".toList =
        [(⟨.PARAM_POSINT, 0, .CSListMax⟩, "4294967297".toList)] := rfl
    have hdenotes : ¬∃ n, NumberText .PARAM_POSINT "4294967297".toList n := by
      rintro ⟨n, hn, hint, -⟩
      have hvalue : readNumber "4294967297".toList = (4294967297, []) := by decide +kernel
      rw [readNumber_of_intText hn, Prod.mk.injEq] at hvalue
      rw [hvalue.1] at hint
      exact absurd hint.2 (by decide)
    obtain ⟨hsame, -⟩ := h.refuses _ (by rw [htyped]; exact List.mem_singleton_self _) hdenotes
    have hstored :
        (parse ⟨fun _ ↦ 0, fun _ ↦ none⟩ "CSListMax 4294967297".toList).settings.ints .CSListMax = 1 := by
      decide +kernel
    exact absurd (hstored.symm.trans hsame) (by decide)
  · intro h
    have htyped : typedNumbers "DefSessionLimit \"\"".toList = [(⟨.PARAM_INT, 0, .DefSessionLimit⟩, [])] := rfl
    have hdenotes : ¬∃ n, NumberText .PARAM_INT [] n := by
      rintro ⟨n, hn, -⟩
      exact hn.ne_nil rfl
    obtain ⟨hsame, -⟩ := h.refuses _ (by rw [htyped]; exact List.mem_singleton_self _) hdenotes
    have hstored :
        (parse ⟨fun _ ↦ 5, fun _ ↦ none⟩ "DefSessionLimit \"\"".toList).settings.ints .DefSessionLimit = 0 := by
      decide +kernel
    exact absurd (hstored.symm.trans hsame) (by decide)

end Line

end BlitzedServices.Config
