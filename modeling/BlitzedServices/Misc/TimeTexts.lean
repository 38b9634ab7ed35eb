import BlitzedServices.Misc.Dotime

/-!
# The times that texts stand for

The comment of `dotime` defines a time text: a number of seconds, or pairs of a number and a unit. `Denotes` is
that definition, and `AsDocumented` what the comment promises of an answer: the number of seconds when an `int`
holds it, and the error mark for every other text.

`dotime` itself takes more: a sign and white space before a number, a missing number, a number without unit at
the end. `numbers` is a text as it is read in this way and `total` the seconds in it. The sums are kept in 32
bits, and a negative sum is the error mark too, so that a text is refused by the units in it or by chance:
`Refused` says when.
-/

set_option autoImplicit false
set_option relaxedAutoImplicit false

namespace BlitzedServices.Misc

open Lib

/-! ### The documented texts -/

/-- Pairs of a number and a unit, without separators. -/
inductive Pairs : CString → ℤ → Prop
  | nil : Pairs [] 0
  | cons {digits s : CString} {c : Char} {seconds n : ℤ} (hne : digits ≠ []) (hdigit : ∀ d ∈ digits, d.isDigit)
      (hunit : unitSeconds c = some seconds) (hs : Pairs s n) :
      Pairs (digits ++ c :: s) (digitsValue digits * seconds + n)

/-- The text stands for `n` seconds: a plain number, or pairs of a number and a unit. -/
def Denotes (s : CString) (n : ℤ) : Prop :=
  s ≠ [] ∧ ((∀ d ∈ s, d.isDigit) ∧ n = digitsValue s ∨ Pairs s n)

/-- The largest `int`. -/
def intMax : ℤ :=
  2 ^ 31 - 1

/-- The answer of the comment: the seconds when they fit, the error mark otherwise. -/
def AsDocumented (s : CString) (answer : ℤ) : Prop :=
  (∃ n ≤ intMax, Denotes s n ∧ answer = n) ∨ (¬∃ n ≤ intMax, Denotes s n) ∧ answer = -1

/-! ### What is read -/

/-- The numbers of a text as `strtol` finds them: those with a character behind them, and the last one. -/
def numbers (s : CString) : List (ℤ × Char) × ℤ :=
  match _h : strtolRest s with
  | [] => ([], strtol s)
  | c :: s' => ((strtol s, c) :: (numbers s').1, (numbers s').2)
termination_by s.length
decreasing_by
  all_goals
    have hle := length_strtolRest_le s
    rw [_h, List.length_cons] at hle
    omega

/-- The seconds of numbers with their units. -/
def total (ps : List (ℤ × Char)) (last : ℤ) : ℤ :=
  (ps.map fun p ↦ p.1 * (unitSeconds p.2).getD 0).sum + last

/-- Every character behind a number is a unit, and no sum behind a unit is negative as an `int`. -/
def Summed (ps : List (ℤ × Char)) (last : ℤ) : Prop :=
  (∀ p ∈ ps, (unitSeconds p.2).isSome) ∧ ∀ qs, qs <:+ ps → qs ≠ ps → total qs last % 2 ^ 32 < 2 ^ 31

/-- A character is no unit, or a sum behind a unit is negative as an `int`, or the whole sum is the error mark. -/
def Refused (s : CString) : Prop :=
  ¬Summed (numbers s).1 (numbers s).2 ∨ total (numbers s).1 (numbers s).2 % 2 ^ 32 = 2 ^ 32 - 1

theorem numbers_of_nil {s : CString} (h : strtolRest s = []) : numbers s = ([], strtol s) := by
  rw [numbers]
  split
  · rfl
  · next hcons => exact absurd (hcons.symm.trans h) (by simp)

theorem numbers_of_cons {s s' : CString} {c : Char} (h : strtolRest s = c :: s') :
    numbers s = ((strtol s, c) :: (numbers s').1, (numbers s').2) := by
  rw [numbers]
  split
  · next hnil => exact absurd (hnil.symm.trans h) (by simp)
  · next d t hcons =>
    have heq : d :: t = c :: s' := hcons.symm.trans h
    cases heq
    rfl

@[simp]
theorem total_nil (last : ℤ) : total [] last = last := by
  simp [total]

theorem total_cons (a : ℤ) (c : Char) (ps : List (ℤ × Char)) (last : ℤ) :
    total ((a, c) :: ps) last = a * (unitSeconds c).getD 0 + total ps last := by
  simp only [total, List.map_cons, List.sum_cons]
  ring

/-! ### Sums of 32 bits -/

theorem toInt32_nonneg_iff (n : ℤ) : 0 ≤ toInt32 n ↔ n % 2 ^ 32 < 2 ^ 31 := by
  rw [toInt32, BitVec.toInt_ofInt, Int.bmod_def]
  omega

theorem toInt32_eq_neg_one_iff (n : ℤ) : toInt32 n = -1 ↔ n % 2 ^ 32 = 2 ^ 32 - 1 := by
  rw [toInt32, BitVec.toInt_ofInt, Int.bmod_def]
  omega

theorem toInt32_eq_self {n : ℤ} (hneg : 0 ≤ n) (hmax : n ≤ intMax) : toInt32 n = n := by
  rw [intMax] at hmax
  rw [toInt32, BitVec.toInt_ofInt, Int.bmod_def]
  omega

/-- Sums and products may be cut to 32 bits at any point. -/
theorem toInt32_sum (a k n : ℤ) : toInt32 (toInt32 n + toInt32 (toInt32 a * k)) = toInt32 (a * k + n) := by
  simp only [toInt32, BitVec.toInt_ofInt, Int.bmod_mul_bmod, Int.add_bmod_bmod, Int.bmod_add_bmod]
  rw [add_comm]

/-! ### `dotime` on the numbers of a text -/

theorem summed_nil (last : ℤ) : Summed [] last := by
  constructor
  · intro p hp
    exact absurd hp List.not_mem_nil
  · intro qs hsuffix hne
    exact absurd (List.suffix_nil.mp hsuffix) hne

theorem summed_cons_iff (a : ℤ) (c : Char) (ps : List (ℤ × Char)) (last : ℤ) :
    Summed ((a, c) :: ps) last ↔
      (unitSeconds c).isSome ∧ Summed ps last ∧ total ps last % 2 ^ 32 < 2 ^ 31 := by
  constructor
  · rintro ⟨hunits, hsums⟩
    have hne {qs : List (ℤ × Char)} (hqs : qs <:+ ps) : qs ≠ (a, c) :: ps := by
      rintro rfl
      have hle := hqs.length_le
      rw [List.length_cons] at hle
      omega
    refine ⟨hunits _ (List.mem_cons_self ..), ⟨fun p hp ↦ hunits p (List.mem_cons_of_mem _ hp), ?_⟩, ?_⟩
    · intro qs hqs _
      exact hsums qs (hqs.trans (List.suffix_cons _ _)) (hne hqs)
    · exact hsums ps (List.suffix_cons _ _) (hne List.suffix_rfl)
  · rintro ⟨hunit, ⟨hunits, hsums⟩, htotal⟩
    constructor
    · intro p hp
      rcases List.mem_cons.mp hp with rfl | hp
      · exact hunit
      · exact hunits p hp
    · intro qs hqs hne
      rcases List.suffix_cons_iff.mp hqs with heq | hqs
      · exact absurd heq hne
      · by_cases heq : qs = ps
        · rw [heq]
          exact htotal
        · exact hsums qs hqs heq

/-- The answer is the sum in 32 bits when the text can be summed, and the error mark otherwise. -/
theorem dotime_cases (s : CString) :
    Summed (numbers s).1 (numbers s).2 ∧ dotime s = toInt32 (total (numbers s).1 (numbers s).2) ∨
      ¬Summed (numbers s).1 (numbers s).2 ∧ dotime s = -1 := by
  induction hlen : s.length using Nat.strongRecOn generalizing s with
  | ind len ih =>
    have hle := length_strtolRest_le s
    rw [dotime_eq, dotimeStep]
    cases hrest : strtolRest s with
    | nil =>
      rw [numbers_of_nil hrest]
      exact .inl ⟨summed_nil _, by rw [total_nil]⟩
    | cons c s' =>
      rw [hrest, List.length_cons] at hle
      rw [numbers_of_cons hrest]
      dsimp only
      rw [summed_cons_iff]
      rcases ih s'.length (by omega) s' rfl with ⟨hsummed, hvalue⟩ | ⟨hnot, hvalue⟩
      · rw [hvalue]
        by_cases hneg : total (numbers s').1 (numbers s').2 % 2 ^ 32 < 2 ^ 31
        · have hge := (toInt32_nonneg_iff _).mpr hneg
          rw [if_neg (by omega)]
          cases hunit : unitSeconds c with
          | none => exact .inr ⟨by simp, rfl⟩
          | some seconds =>
            refine .inl ⟨⟨rfl, hsummed, hneg⟩, ?_⟩
            rw [total_cons, hunit, Option.getD_some]
            exact toInt32_sum _ _ _
        · have hlt : toInt32 (total (numbers s').1 (numbers s').2) < 0 :=
            not_le.mp (mt (toInt32_nonneg_iff _).mp hneg)
          rw [if_pos hlt]
          exact .inr ⟨fun h ↦ hneg h.2.2, rfl⟩
      · rw [hvalue, if_pos (by decide)]
        exact .inr ⟨fun h ↦ hnot h.2.1, rfl⟩

theorem dotime_eq_neg_one_iff (s : CString) : dotime s = -1 ↔ Refused s := by
  rw [Refused]
  rcases dotime_cases s with ⟨hsummed, hvalue⟩ | ⟨hnot, hvalue⟩
  · rw [hvalue, toInt32_eq_neg_one_iff]
    simp [hsummed]
  · simp [hvalue, hnot]

/-! ### The documented texts are read as documented -/

theorem digitsValue_append {digits b : CString} (hdigit : ∀ d ∈ digits, d.isDigit)
    (hb : ∀ c ∈ b.head?, c.isDigit = false) : digitsValue (digits ++ b) = digitsValue digits := by
  have hstop : b.takeWhile Char.isDigit = [] := by
    cases b with
    | nil => rfl
    | cons c b => rw [List.takeWhile_cons_of_neg (by simp [hb c rfl])]
  rw [digitsValue, digitsValue, List.takeWhile_append_of_pos hdigit, hstop, List.append_nil,
    List.takeWhile_eq_self_iff.mpr hdigit]

/-- `strtol` reads a front of digits to its end. -/
theorem strtol_digits {digits b : CString} (hne : digits ≠ []) (hdigit : ∀ d ∈ digits, d.isDigit)
    (hb : ∀ c ∈ b.head?, c.isDigit = false) (hmax : (digitsValue digits : ℤ) ≤ intMax) :
    strtol (digits ++ b) = digitsValue digits ∧ strtolRest (digits ++ b) = b := by
  rw [intMax] at hmax
  cases digits with
  | nil => exact absurd rfl hne
  | cons c digits =>
    have hc : c.isDigit := hdigit c (List.mem_cons_self ..)
    constructor
    · rw [strtol, List.cons_append, signedValue_of_isDigit hc, ← List.cons_append, digitsValue_append hdigit hb]
      omega
    · have hspace : isspace c = false := by
        by_contra h
        simp only [isspace, Bool.not_eq_false, Bool.or_eq_true, beq_iff_eq, or_assoc] at h
        rcases h with rfl | rfl | rfl | rfl | rfl | rfl <;> exact absurd hc (by decide)
      have hsign : ¬(c = '-' ∨ c = '+') := by
        rintro (rfl | rfl) <;> exact absurd hc (by decide)
      have hskip : skipSign (c :: digits ++ b) = c :: digits ++ b := by
        simp [skipSign, hspace, hsign]
      have hstop : b.dropWhile Char.isDigit = b := by
        cases b with
        | nil => rfl
        | cons d b => rw [List.dropWhile_cons_of_neg (by simp [hb d rfl])]
      rw [strtolRest, hskip, List.cons_append, List.head?_cons, Option.any_some, if_pos hc, ← List.cons_append,
        List.dropWhile_append_of_pos hdigit, hstop]

theorem isDigit_of_unitSeconds {c : Char} {seconds : ℤ} (h : unitSeconds c = some seconds) :
    c.isDigit = false ∧ 0 < seconds := by
  rw [unitSeconds] at h
  split_ifs at h with hs hm hh hd <;> subst_vars <;> cases h <;> decide

/-- A text of pairs ends with a unit. -/
theorem Pairs.getLast? {s : CString} {n : ℤ} (h : Pairs s n) : ∀ c ∈ s.getLast?, c.isDigit = false := by
  induction h with
  | nil => simp
  | @cons digits s c seconds n hne hdigit hunit hs ih =>
    intro d hd
    cases s with
    | nil =>
      have hcd : c = d := by simpa using hd
      exact hcd ▸ (isDigit_of_unitSeconds hunit).1
    | cons e s =>
      apply ih
      simpa using hd

theorem Pairs.nonneg {s : CString} {n : ℤ} (h : Pairs s n) : 0 ≤ n := by
  induction h with
  | nil => exact le_rfl
  | cons hne hdigit hunit hs ih =>
    have hpos := (isDigit_of_unitSeconds hunit).2
    positivity

theorem Pairs.dotime {s : CString} {n : ℤ} (h : Pairs s n) (hmax : n ≤ intMax) : dotime s = n := by
  induction h with
  | nil => rfl
  | @cons digits s c seconds n hne hdigit hunit hs ih =>
    have hn := hs.nonneg
    rcases isDigit_of_unitSeconds hunit with ⟨hc, hpos⟩
    have hvalue : (0 : ℤ) ≤ digitsValue digits := Int.natCast_nonneg _
    have hle : (digitsValue digits : ℤ) ≤ digitsValue digits * seconds := by nlinarith
    have hread := strtol_digits (b := c :: s) hne hdigit (by simpa using hc) (by omega)
    rw [dotime_eq, dotimeStep, hread.1, hread.2]
    dsimp only
    rw [ih (by omega), if_neg (by omega), hunit]
    dsimp only
    rw [toInt32_eq_self hvalue (by omega), toInt32_eq_self (n := digitsValue digits * seconds) (by omega) (by omega),
      toInt32_eq_self (by omega) (by omega)]
    ring

theorem Denotes.dotime {s : CString} {n : ℤ} (h : Denotes s n) (hmax : n ≤ intMax) : dotime s = n := by
  rcases h with ⟨hne, ⟨hdigit, rfl⟩ | hpairs⟩
  · have hread := strtol_digits (b := []) hne hdigit (by simp) hmax
    rw [List.append_nil] at hread
    rw [dotime_eq, dotimeStep, hread.1, hread.2]
    exact toInt32_eq_self (Int.natCast_nonneg _) hmax
  · exact hpairs.dotime hmax

/-- `dotime` answers as its comment says exactly for the texts that denote a time an `int` holds and for the
texts that it refuses: by a character that is no unit, or because a sum is negative as an `int`. -/
theorem dotime_asDocumented_iff (s : CString) :
    AsDocumented s (dotime s) ↔ (∃ n ≤ intMax, Denotes s n) ∨ Refused s := by
  rw [← dotime_eq_neg_one_iff, AsDocumented]
  constructor
  · rintro (⟨n, hmax, hn, -⟩ | ⟨-, hvalue⟩)
    · exact .inl ⟨n, hmax, hn⟩
    · exact .inr hvalue
  · intro h
    by_cases hdenotes : ∃ n ≤ intMax, Denotes s n
    · rcases hdenotes with ⟨n, hmax, hn⟩
      exact .inl ⟨n, hmax, hn, hn.dotime hmax⟩
    · exact .inr ⟨hdenotes, h.resolve_left hdenotes⟩

/-- A number behind the last unit, and a number that does not fit: both are answered with a time. -/
theorem not_dotime_asDocumented :
    ¬AsDocumented "5m3".toList (dotime "5m3".toList) ∧
      ¬AsDocumented "4294967297".toList (dotime "4294967297".toList) := by
  have hdigits (s : CString) (hlast : ∃ d ∈ s.getLast?, d.isDigit)
      (hplain : (∀ d ∈ s, d.isDigit) → (digitsValue s : ℤ) ≠ dotime s) (hmark : dotime s ≠ -1) :
      ¬AsDocumented s (dotime s) := by
    rintro (⟨n, -, ⟨hne, ⟨hdigit, hn⟩ | hpairs⟩, hvalue⟩ | ⟨-, hvalue⟩)
    · exact hplain hdigit (hn.symm.trans hvalue.symm)
    · rcases hlast with ⟨d, hmem, hd⟩
      exact absurd (hd.symm.trans (hpairs.getLast? d hmem)) (by decide)
    · exact hmark hvalue
  exact ⟨hdigits _ ⟨'3', rfl, rfl⟩ (fun h ↦ absurd (h 'm' (by simp)) (by decide)) (by decide +kernel),
    hdigits _ ⟨'7', rfl, rfl⟩ (fun _ ↦ by decide +kernel) (by decide +kernel)⟩

end BlitzedServices.Misc
