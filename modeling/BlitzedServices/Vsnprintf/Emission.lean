import BlitzedServices.Vsnprintf.Pfmt

/-!
# Printing a conversion

`emit_plain`: what a conversion prints is the field that the standard asks for if the conversion is `Plain`,
that is, if it reaches none of the places where the formatter does something else.
-/

set_option autoImplicit false
set_option relaxedAutoImplicit false

namespace BlitzedServices.Vsnprintf

open Lib
open Misc (toInt32 intMax)

/-! ### Fields -/

/-- What fills a field. -/
def Field.padstr (f : Field) : Char :=
  if f.zero && !f.left then '0' else ' '

/-- The writes of a field behind its sign. -/
def Field.inner (f : Field) : List CString :=
  if f.left then chunk f.body ++ List.replicate f.room [f.padstr]
  else List.replicate f.room [f.padstr] ++ chunk f.body

/-- The writes of a field: the sign is always the first. -/
def Field.writes (f : Field) : List CString :=
  chunk f.sign ++ f.inner

/-- Nothing is to stand in front of the sign. -/
def Field.Level (f : Field) : Prop :=
  f.left = true ∨ f.zero = true ∨ f.sign = [] ∨ f.width ≤ f.sign.length + f.body.length

theorem flatten_replicate_singleton (n : ℕ) (c : Char) : (List.replicate n [c]).flatten = List.replicate n c := by
  induction n with
  | zero => rfl
  | succ n ih => rw [List.replicate_succ, List.flatten_cons, ih, List.replicate_succ, List.singleton_append]

/-- The characters that the writes of a field bring. -/
def Field.printed (f : Field) : CString :=
  f.writes.flatten

/-- The formatter prints as many characters as the field has. -/
theorem Field.length_printed (f : Field) : f.printed.length = f.output.length := by
  rw [Field.printed, Field.writes, Field.inner, Field.output]
  split_ifs
  all_goals simp only [List.flatten_append, flatten_chunk, flatten_replicate_singleton, List.length_append,
    List.length_replicate]
  omega

/-- What is printed for a field are its characters, if nothing is to stand in front of its sign. -/
theorem Field.printed_eq {f : Field} (h : f.Level) : f.printed = f.output := by
  rw [Field.printed, Field.writes, Field.inner, Field.output, List.flatten_append, flatten_chunk, Field.padstr]
  by_cases hleft : f.left = true
  · rw [if_pos hleft, if_pos hleft, List.flatten_append, flatten_chunk, flatten_replicate_singleton, hleft]
    simp
  · rw [if_neg hleft, if_neg hleft, List.flatten_append, flatten_chunk, flatten_replicate_singleton]
    rw [Bool.not_eq_true] at hleft
    rw [hleft]
    by_cases hzero : f.zero = true
    · rw [if_pos hzero, hzero]
      rfl
    · rw [if_neg hzero]
      rw [Bool.not_eq_true] at hzero
      rw [hzero]
      rcases h with h | h | h | h
      · exact absurd (hleft.symm.trans h) (by decide)
      · exact absurd (hzero.symm.trans h) (by decide)
      · rw [h]
        rfl
      · have hroom : f.room = 0 := by
          rw [Field.room]
          omega
        rw [hroom]
        rfl

/-- A sign in front of the blanks is the first difference. -/
theorem Field.head_of_not_level {f : Field} (h : ¬f.Level) :
    f.sign ≠ [] ∧ (∃ s, f.output = ' ' :: s) ∧ ∃ ws, f.writes = f.sign :: ws := by
  rw [Field.Level, not_or, not_or, not_or, Bool.not_eq_true, Bool.not_eq_true, not_le] at h
  obtain ⟨hleft, hzero, hsign, hwidth⟩ := h
  refine ⟨hsign, ?_, f.inner, ?_⟩
  · obtain ⟨n, hn⟩ : ∃ n, f.room = n + 1 := by
      refine ⟨f.room - 1, ?_⟩
      rw [Field.room]
      omega
    rw [Field.output, hleft, hzero, hn]
    exact ⟨_, rfl⟩
  · rw [Field.writes, chunk, if_neg hsign]
    rfl

theorem mem_chunk {s w : CString} (h : w ∈ chunk s) : w = s ∧ s ≠ [] := by
  rw [chunk] at h
  split_ifs at h with hs
  · exact absurd h List.not_mem_nil
  · exact ⟨List.mem_singleton.mp h, hs⟩

section Field

variable {mem : List Char} {f : Field} {t : Token} {pads width : ℤ}

theorem emits_field (hleft : t.left_justify = f.left) (hzero : t.zero_pad = (f.zero && !f.left))
    (hpads : pads.toNat = f.room) (hbody : (f.body.length : ℤ) ≤ intMax) :
    Emits mem f.inner (field mem.length t pads f.body) := by
  have hpad : (if t.zero_pad = true then '0' else ' ') = f.padstr := by
    rw [Field.padstr, hzero]
  unfold field
  dsimp only
  rw [hpad, hleft, hpads, Field.inner]
  split_ifs
  · exact (emits_padding _ _).chunkThen hbody
  · exact (emits_put f.body).padding_bind _ _

/-- The width of a token stands for the width of a field. -/
def WidthIs (width : ℤ) (n : ℕ) : Prop :=
  width = n ∨ width = -1 ∧ n = 0

theorem WidthIs.room {n : ℕ} (h : WidthIs width n) (sign body : ℕ) :
    (width - sign - body).toNat = n - (sign + body) := by
  rcases h with rfl | ⟨rfl, rfl⟩
  · omega
  · omega

end Field

/-! ### Numbers -/

section Numbers

variable {chars : CString} {base : ℕ} {upper : Bool}

/-- The characters are the digits of a base. -/
def DigitsAre (chars : CString) (base : ℕ) (upper : Bool) : Prop :=
  1 < base ∧ ∀ d < base, chars.getD d nul = if upper then (Nat.digitChar d).toUpper else Nat.digitChar d

theorem digitsAre_decimal : DigitsAre x_chars 10 false := by
  constructor
  · decide
  · decide

theorem digitsAre_octal : DigitsAre x_chars 8 false := by
  constructor
  · decide
  · decide

theorem digitsAre_hex (upper : Bool) : DigitsAre (if upper then X_chars else x_chars) 16 upper := by
  cases upper with
  | false => exact ⟨by decide, by decide⟩
  | true => exact ⟨by decide, by decide⟩

/-- The loop puts the digits in front of those that are there, and zeros in front of them. -/
theorem digitLoop_eq (hbase : 1 < base) {precision room : ℕ} (n : ℕ) (digits : CString)
    (hroom : (Nat.digits base n).length ≤ room) (hprecision : precision - digits.length ≤ room) :
    digitLoop chars base precision room n digits =
      some (List.replicate (precision - (digits.length + (Nat.digits base n).length)) (chars.getD 0 nul) ++
        ((Nat.digits base n).reverse.map (chars.getD · nul) ++ digits)) := by
  induction room generalizing n digits with
  | zero =>
    have hnil : Nat.digits base n = [] := List.length_eq_zero_iff.mp (Nat.le_zero.mp hroom)
    have hzero : n = 0 := Nat.digits_eq_nil_iff_eq_zero.mp hnil
    rw [digitLoop, if_neg (by omega), hnil, show precision - (digits.length + List.length []) = 0 by
      rw [List.length_nil]; omega]
    rfl
  | succ room ih =>
    rw [digitLoop]
    by_cases hn : n = 0
    · rw [hn, Nat.digits_zero, List.length_nil, add_zero]
      by_cases hlen : digits.length < precision
      · have hsub : precision - digits.length = precision - (digits.length + 1) + 1 := by omega
        rw [if_pos (.inl hlen), Nat.zero_div, Nat.zero_mod, ih 0 _ (by simp) (by rw [List.length_cons]; omega),
          Nat.digits_zero, hsub, List.replicate_succ']
        simp
      · rw [if_neg (by omega), show precision - digits.length = 0 by omega]
        rfl
    · have hdigits := Nat.digits_def' hbase (Nat.pos_of_ne_zero hn)
      rw [hdigits, List.length_cons] at hroom
      rw [if_pos (.inr hn), ih (n / base) _ (by omega) (by rw [List.length_cons]; omega), hdigits]
      have hlen : (chars.getD (n % base) nul :: digits).length + (Nat.digits base (n / base)).length =
          digits.length + (n % base :: Nat.digits base (n / base)).length := by
        rw [List.length_cons, List.length_cons]
        omega
      rw [hlen]
      simp

theorem numeral_eq (hchars : DigitsAre chars base upper) (precision n : ℕ) :
    List.replicate (precision - (Nat.digits base n).length) (chars.getD 0 nul) ++
      (Nat.digits base n).reverse.map (chars.getD · nul) = numeral base upper precision n := by
  obtain ⟨hbase, hall⟩ := hchars
  have hzero : chars.getD 0 nul = '0' := by
    rw [hall 0 (by omega)]
    cases upper <;> rfl
  have hmap : (Nat.digits base n).reverse.map (chars.getD · nul) =
      (Nat.digits base n).reverse.map fun d ↦ if upper then (Nat.digitChar d).toUpper else Nat.digitChar d := by
    apply List.map_congr_left
    intro d hd
    exact hall d (Nat.digits_lt_base hbase (List.mem_reverse.mp hd))
  rw [numeral, hzero, hmap, List.length_map, List.length_reverse]

theorem length_digits_le (hbase : 1 < base) {n : ℕ} (hn : n < 2 ^ 64) : (Nat.digits base n).length ≤ NUMBUF := by
  apply (Nat.digits_length_le_iff hbase n).mpr
  exact hn.trans_le (Nat.pow_le_pow_left hbase 64)

/-- `numbuf` has room for a number with a precision of at most its size. -/
theorem digitsOf_eq (hchars : DigitsAre chars base upper) (t : Token) (ht : t.precision ≤ NUMBUF) {n : ℕ}
    (hn : n < 2 ^ 64) :
    digitsOf chars base t n = some (numeral base upper (max t.precision 1).toNat n) := by
  have hsize : NUMBUF = 64 := rfl
  rw [digitsOf, digitLoop_eq hchars.1 n [] (length_digits_le hchars.1 hn) (by rw [List.length_nil]; omega),
    List.length_nil, zero_add, List.append_nil, numeral_eq hchars]

theorem length_numeral_le (upper : Bool) (hbase : 1 < base) {precision n : ℕ} (hprecision : precision ≤ NUMBUF)
    (hn : n < 2 ^ 64) :
    (numeral base upper precision n).length ≤ NUMBUF := by
  have hdigits := length_digits_le hbase hn
  rw [numeral, List.length_append, List.length_replicate, List.length_map, List.length_reverse]
  omega

/-- A precision of 0 is one of 1 for what is no zero. -/
theorem numeral_one {n : ℕ} (hn : n ≠ 0) :
    numeral base upper 1 n = numeral base upper 0 n := by
  have hpos : 0 < (Nat.digits base n).length :=
    List.length_pos_iff.mpr (Nat.digits_ne_nil_iff_ne_zero.mpr hn)
  rw [numeral, numeral, List.length_map, List.length_reverse, Nat.zero_sub,
    show 1 - (Nat.digits base n).length = 0 by omega]

/-- A number that prints a digit prints the same with a precision of 1 at least. -/
theorem numeral_max {precision n : ℕ} (h : numeral base upper precision n ≠ []) :
    numeral base upper (max precision 1) n = numeral base upper precision n := by
  cases precision with
  | zero =>
    apply numeral_one
    rintro rfl
    apply h
    rw [numeral, Nat.digits_zero]
    rfl
  | succ precision => rw [Nat.max_eq_left (by omega)]

theorem octalBody_max {alternate : Bool} {precision n : ℕ} (h : octalBody alternate precision n ≠ []) :
    octalBody alternate (max precision 1) n = octalBody alternate precision n := by
  by_cases hnil : numeral 8 false precision n = []
  · have hprecision : precision = 0 ∧ n = 0 := by
      have hlength := congrArg List.length hnil
      rw [numeral, List.length_append, List.length_replicate, List.length_map, List.length_reverse,
        List.length_nil] at hlength
      have hdigits : Nat.digits 8 n = [] := List.length_eq_zero_iff.mp (by omega)
      exact ⟨by omega, Nat.digits_eq_nil_iff_eq_zero.mp hdigits⟩
    obtain ⟨rfl, rfl⟩ := hprecision
    cases alternate with
    | false => exact absurd hnil h
    | true => rfl
  · rw [octalBody, octalBody, numeral_max hnil]

/-- There is room in `numbuf` for a zero in front of an octal number. -/
theorem length_octal_lt {precision n : ℕ} (hn : n < 2 ^ 64)
    (hhead : (numeral 8 false precision n).head? ≠ some '0') :
    (numeral 8 false precision n).length < NUMBUF := by
  have hdigits : (Nat.digits 8 n).length ≤ 22 := by
    apply (Nat.digits_length_le_iff (by decide) n).mpr
    exact hn.trans (by decide)
  have hnone : precision - (Nat.digits 8 n).length = 0 := by
    by_contra hsome
    obtain ⟨k, hk⟩ := Nat.exists_eq_succ_of_ne_zero hsome
    apply hhead
    rw [numeral, List.length_map, List.length_reverse, hk, List.replicate_succ]
    rfl
  have hsize : NUMBUF = 64 := rfl
  rw [numeral, List.length_append, List.length_replicate, List.length_map, List.length_reverse, hnone]
  omega

end Numbers

/-! ### Values -/

/-- An integer argument as a `long`. -/
def longArg : Arg → BitVec 64
  | .int n => n.signExtend 64
  | .long n => n
  | _ => 0

/-- What `_pfmt` takes an argument for. -/
def valueOf (type : Char) (arg : Arg) : Value :=
  match type with
  | 'd' => .signed (longArg arg)
  | 'i' => .signed (longArg arg)
  | 'o' => .octal (longArg arg)
  | 'u' => .unsigned (longArg arg)
  | 'x' => .hex false (longArg arg)
  | 'X' => .hex true (longArg arg)
  | 'c' => .char (longArg arg)
  | 's' =>
    match arg with
    | .string s => .string s
    | _ => .string none
  | 'p' =>
    match arg with
    | .pointer p => .pointer p
    | _ => .pointer 0
  | _ => .count

/-- The formatter takes the argument for what it is: an integer is in the range of its type and no negative
unsigned one, and it is not the least `long`; a string is no longer than an `int` counts. -/
def Exact (argsize : ArgSize) (type : Char) : Arg → Prop
  | .int n =>
    if type = 'd' ∨ type = 'i' then argsize = .short → -2 ^ 15 ≤ n.toInt ∧ n.toInt < 2 ^ 15
    else type ∈ intTypes → n.toNat < 2 ^ 31 ∧ (argsize = .short → n.toNat < 2 ^ 16)
  | .long n => type = 'd' ∨ type = 'i' → n ≠ BitVec.intMin 64
  | .string (some s) => (s.length : ℤ) ≤ intMax
  | _ => True

/-- A width that can be read. -/
def Width.Small (width : Width) (n : ℤ) : Prop :=
  match width with
  | .absent => True
  | .digits _ => n + 48 ≤ intMax
  | .star => -n ≤ intMax

/-- A precision that can be read: it has digits. -/
def Precision.Small : Precision → Prop
  | .absent => True
  | .digits s => s ≠ [] ∧ (Nat.ofDigitChars 10 s 0 : ℤ) + 48 ≤ intMax
  | .star => False

/-- A conversion that is printed as the standard asks for, but for the place of its sign. -/
structure Conversion.Plain (c : Conversion) (b : Bound) (f : Field) : Prop where
  noSpace : ' ' ∉ c.flags
  width : c.width.Small b.width
  precision : c.precision.Small
  short : c.type ∈ intTypes → b.precision.getD 1 ≤ NUMBUF
  exact : Exact c.argsize c.type b.arg
  digit : c.type ∈ intTypes → f.body ≠ []

/-- The token of a conversion. -/
structure Reads (c : Conversion) (b : Bound) (t : Token) : Prop where
  alt_form : t.alt_form = decide ('#' ∈ c.flags)
  left_justify : t.left_justify = decide ('-' ∈ c.flags ∨ b.width < 0)
  always_sign : t.always_sign = decide ('+' ∈ c.flags)
  zero_pad : t.zero_pad = decide ('0' ∈ c.flags)
  width : WidthIs t.width b.width.natAbs
  precision : t.precision = b.precision.elim (-1) fun p ↦ (p : ℤ)

section Values

variable {mem : List Char} {c : Conversion} {b : Bound} {f : Field} {t : Token}

theorem toInt_signExtend (n : BitVec 32) : (n.signExtend 64).toInt = n.toInt :=
  BitVec.toInt_signExtend_of_le (by decide)

theorem toInt_longArg {type : Char} {argsize : ArgSize} {arg : Arg} {n : ℤ} (htype : type = 'd' ∨ type = 'i')
    (harg : signedArg argsize arg = some n) (hexact : Exact argsize type arg) :
    (longArg arg).toInt = n ∧ longArg arg ≠ BitVec.intMin 64 := by
  have hsmall (m : BitVec 32) : m.signExtend 64 ≠ BitVec.intMin 64 := by
    intro heq
    have hvalue := congrArg BitVec.toInt heq
    rw [toInt_signExtend, show (BitVec.intMin 64).toInt = -2 ^ 63 by decide] at hvalue
    have hle := m.le_toInt
    omega
  cases arg with
  | int m =>
    rw [Exact, if_pos htype] at hexact
    cases argsize with
    | normal =>
      obtain rfl := Option.some.inj harg
      exact ⟨toInt_signExtend m, hsmall m⟩
    | short =>
      obtain rfl := Option.some.inj harg
      obtain ⟨hlow, hhigh⟩ := hexact rfl
      refine ⟨?_, hsmall m⟩
      rw [longArg, toInt_signExtend, BitVec.toInt_setWidth]
      rw [BitVec.toInt_eq_toNat_bmod, Int.bmod_def] at hlow hhigh ⊢
      rw [Int.bmod_def]
      omega
    | long => cases harg
    | longLong => cases harg
  | long m =>
    cases argsize with
    | normal => cases harg
    | short => cases harg
    | long =>
      obtain rfl := Option.some.inj harg
      exact ⟨rfl, hexact htype⟩
    | longLong =>
      obtain rfl := Option.some.inj harg
      exact ⟨rfl, hexact htype⟩
  | string s => cases argsize <;> cases harg
  | pointer p => cases argsize <;> cases harg
  | count => cases argsize <;> cases harg

theorem toNat_longArg {type : Char} {argsize : ArgSize} {arg : Arg} {n : ℕ} (htype : ¬(type = 'd' ∨ type = 'i'))
    (hint : type ∈ intTypes) (harg : unsignedArg argsize arg = some n) (hexact : Exact argsize type arg) :
    (longArg arg).toNat = n := by
  cases arg with
  | int m =>
    rw [Exact, if_neg htype] at hexact
    obtain ⟨hsign, hshort⟩ := hexact hint
    have hlong : (longArg (.int m)).toNat = m.toNat := by
      have hmsb : m.msb = false := BitVec.msb_eq_false_iff_two_mul_lt.mpr (by omega)
      rw [longArg, BitVec.toNat_signExtend, hmsb, if_neg (by decide), BitVec.toNat_setWidth, add_zero]
      exact Nat.mod_eq_of_lt (by omega)
    cases argsize with
    | normal =>
      obtain rfl := Option.some.inj harg
      exact hlong
    | short =>
      obtain rfl := Option.some.inj harg
      rw [hlong, BitVec.toNat_setWidth, Nat.mod_eq_of_lt (hshort rfl)]
    | long => cases harg
    | longLong => cases harg
  | long m =>
    cases argsize with
    | normal => cases harg
    | short => cases harg
    | long => exact Option.some.inj harg
    | longLong => exact Option.some.inj harg
  | string s => cases argsize <;> cases harg
  | pointer p => cases argsize <;> cases harg
  | count => cases argsize <;> cases harg

/-! ### Printing a value -/

theorem length_le_intMax {s : CString} (h : s.length ≤ NUMBUF) : (s.length : ℤ) ≤ intMax := by
  have hsize : NUMBUF = 64 := rfl
  rw [intMax]
  omega

/-- The token lays its field out as `f` is. -/
structure Lays (t : Token) (f : Field) : Prop where
  left : t.left_justify = f.left
  zero : t.zero_pad = (f.zero && !f.left)
  width : WidthIs t.width f.width

theorem Lays.emits_field (mem : List Char) (h : Lays t f) (hbody : (f.body.length : ℤ) ≤ intMax) :
    Emits mem f.inner (field mem.length t (t.width - f.sign.length - f.body.length) f.body) :=
  Vsnprintf.emits_field h.left h.zero (h.width.room _ _) hbody

theorem Lays.emits_number (mem : List Char) (h : Lays t f) {chars : CString} {base : ℕ} {upper : Bool}
    (hchars : DigitsAre chars base upper) (ht : t.precision ≤ NUMBUF) {n : ℕ} (hn : n < 2 ^ 64)
    (hbody : f.body = numeral base upper (max t.precision 1).toNat n) :
    Emits mem f.inner fun out ↦ (digitsOf chars base t n).bind fun digits ↦
      field mem.length t (t.width - f.sign.length - digits.length) digits out := by
  have hsize : NUMBUF = 64 := rfl
  have hmax : (max t.precision 1).toNat ≤ NUMBUF := by omega
  have hlength := length_numeral_le upper hchars.1 hmax hn
  rw [digitsOf_eq hchars t ht hn, ← hbody]
  exact h.emits_field mem (length_le_intMax (by rwa [hbody]))

theorem Lays.emits_unsigned (h : Lays t f) (ht : t.precision ≤ NUMBUF) (x : BitVec 64) (hsign : f.sign = [])
    (hbody : f.body = numeral 10 false (max t.precision 1).toNat x.toNat) :
    Emits mem f.writes (emitUnsigned mem.length t x) := by
  have hnumber := h.emits_number mem digitsAre_decimal ht x.isLt hbody
  rw [hsign, List.length_nil, Nat.cast_zero, sub_zero] at hnumber
  rw [Field.writes, hsign]
  exact hnumber

theorem Lays.emits_octal (h : Lays t f) (ht : t.precision ≤ NUMBUF) (x : BitVec 64) (hsign : f.sign = [])
    (hbody : f.body = octalBody t.alt_form (max t.precision 1).toNat x.toNat) :
    Emits mem f.writes (emitOctal mem.length t x) := by
  have hsize : NUMBUF = 64 := rfl
  have hmax : (max t.precision 1).toNat ≤ NUMBUF := by omega
  have hlength := length_numeral_le false digitsAre_octal.1 hmax x.isLt
  have hfield (hle : f.body.length ≤ NUMBUF) :
      Emits mem f.writes (field mem.length t (t.width - f.body.length) f.body) := by
    have hinner := h.emits_field mem (length_le_intMax hle)
    rw [hsign, List.length_nil, Nat.cast_zero, sub_zero] at hinner
    rw [Field.writes, hsign]
    exact hinner
  have hemit : emitOctal mem.length t x = field mem.length t (t.width - f.body.length) f.body := by
    funext out
    rw [emitOctal, digitsOf_eq digitsAre_octal t ht x.isLt, Option.bind_some, hbody, octalBody]
    by_cases hzero : t.alt_form = true ∧ (numeral 8 false (max t.precision 1).toNat x.toNat).head? ≠ some '0'
    · rw [if_pos hzero, if_pos (length_octal_lt x.isLt hzero.2), if_pos hzero, List.length_cons, Nat.cast_succ]
    · rw [if_neg hzero, if_neg hzero]
  rw [hemit]
  apply hfield
  rw [hbody, octalBody]
  by_cases hzero : t.alt_form = true ∧ (numeral 8 false (max t.precision 1).toNat x.toNat).head? ≠ some '0'
  · rw [if_pos hzero, List.length_cons]
    exact length_octal_lt x.isLt hzero.2
  · rw [if_neg hzero]
    exact hlength

theorem Lays.emits_hex (h : Lays t f) (ht : t.precision ≤ NUMBUF) (upper : Bool) (x : BitVec 64)
    (hsign : f.sign = hexSign t.alt_form (if upper then 'X' else 'x') x.toNat)
    (hbody : f.body = numeral 16 upper (max t.precision 1).toNat x.toNat) :
    Emits mem f.writes (emitHex mem.length upper t x) := by
  have hnumber := h.emits_number mem (digitsAre_hex upper) ht x.isLt hbody
  by_cases halt : t.alt_form = true ∧ x.toNat ≠ 0
  · have hprefix : f.sign = (if upper then X_chars else x_chars).drop 16 := by
      rw [hsign, hexSign, if_pos halt]
      cases upper <;> rfl
    have hlength : f.sign.length = 2 := by
      rw [hsign, hexSign, if_pos halt]
      rfl
    have hemit : emitHex mem.length upper t x = putThen mem.length f.sign fun out ↦
        (digitsOf (if upper then X_chars else x_chars) 16 t x.toNat).bind fun digits ↦
          field mem.length t (t.width - f.sign.length - digits.length) digits out := by
      funext out
      rw [emitHex, if_pos halt, hlength, hprefix]
      rfl
    rw [hemit]
    exact hnumber.chunkThen (length_le_intMax (by rw [hlength]; decide))
  · have hnone : f.sign = [] := by
      rw [hsign, hexSign, if_neg halt]
    rw [hnone, List.length_nil, Nat.cast_zero, sub_zero] at hnumber
    have hemit : emitHex mem.length upper t x = fun out ↦
        (digitsOf (if upper then X_chars else x_chars) 16 t x.toNat).bind fun digits ↦
          field mem.length t (t.width - digits.length) digits out := by
      funext out
      rw [emitHex, if_neg halt]
    rw [hemit, Field.writes, hnone]
    exact hnumber

theorem Lays.emits_signed (h : Lays t f) (ht : t.precision ≤ NUMBUF) (x : BitVec 64) (hmin : x ≠ BitVec.intMin 64)
    (hsign : f.sign = if x.toInt < 0 then ['-'] else if t.always_sign then ['+'] else [])
    (hbody : f.body = numeral 10 false (max t.precision 1).toNat x.toInt.natAbs) :
    Emits mem f.writes (emitSigned mem.length t x) := by
  have habs : x.toInt.natAbs < 2 ^ 64 := by
    have hlow := x.le_toInt
    have hhigh := x.toInt_lt
    omega
  have hnumber := h.emits_number mem digitsAre_decimal ht habs hbody
  by_cases hneg : x.toInt < 0
  · rw [if_pos hneg] at hsign
    have hnegated : (-x).toInt = -x.toInt := BitVec.toInt_neg_of_ne_intMin hmin
    have hnat : (-x).toNat = x.toInt.natAbs := by
      have hcast := BitVec.toInt_eq_toNat_cond (-x)
      have hlt := (-x).isLt
      split_ifs at hcast <;> omega
    have hemit : emitSigned mem.length t x = putThen mem.length f.sign fun out ↦
        (digitsOf x_chars 10 t x.toInt.natAbs).bind fun digits ↦
          field mem.length t (t.width - f.sign.length - digits.length) digits out := by
      funext out
      have hpos : ¬(-x).toInt < 0 := by omega
      rw [← hnat, emitSigned, if_pos hneg, hsign]
      simp only [if_neg hpos]
      rfl
    rw [hemit]
    exact hnumber.chunkThen (length_le_intMax (by rw [hsign]; decide))
  · rw [if_neg hneg] at hsign
    have hnat : x.toNat = x.toInt.natAbs := by
      have hcast := BitVec.toInt_eq_toNat_cond x
      split_ifs at hcast <;> omega
    by_cases hplus : t.always_sign = true
    · rw [if_pos hplus] at hsign
      have hemit : emitSigned mem.length t x = putThen mem.length f.sign fun out ↦
          (digitsOf x_chars 10 t x.toInt.natAbs).bind fun digits ↦
            field mem.length t (t.width - f.sign.length - digits.length) digits out := by
        funext out
        rw [← hnat, emitSigned, if_neg hneg, if_pos hplus, hsign]
        rfl
      rw [hemit]
      exact hnumber.chunkThen (length_le_intMax (by rw [hsign]; decide))
    · rw [if_neg hplus] at hsign
      have hemit : emitSigned mem.length t x = fun out ↦
          (digitsOf x_chars 10 t x.toInt.natAbs).bind fun digits ↦
            field mem.length t (t.width - digits.length) digits out := by
        funext out
        rw [← hnat, emitSigned, if_neg hneg, if_neg hplus]
      rw [hsign, List.length_nil, Nat.cast_zero, sub_zero] at hnumber
      rw [hemit, Field.writes, hsign]
      exact hnumber

/-! ### Printing a conversion -/

theorem Reads.precision_max (h : Reads c b t) : (max t.precision 1).toNat = max (b.precision.getD 1) 1 := by
  rw [h.precision]
  cases b.precision with
  | none => rfl
  | some p =>
    show (max (p : ℤ) 1).toNat = max p 1
    omega

/-- The token lays out what the standard does. -/
theorem Reads.lays (h : Reads c b t) (value : Value) {sign body : CString}
    (hf : f = { left := '-' ∈ c.flags ∨ b.width < 0, zero := '0' ∈ c.flags ∧ b.precision = none,
                width := b.width.natAbs, sign := sign, body := body }) : Lays (adjust t value) f := by
  subst hf
  refine ⟨h.left_justify, ?_, h.width⟩
  show (t.zero_pad && !(t.precision != -1 || t.left_justify)) = _
  rw [h.zero_pad, h.left_justify, h.precision]
  cases b.precision with
  | none => simp
  | some p =>
    have hne : ((p : ℤ) != -1) = true := by
      rw [bne_iff_ne]
      omega
    simp [hne]

/-- A precision that `numbuf` has room for is kept. -/
theorem adjust_precision {value : Value} (h : t.precision ≤ NUMBUF) : (adjust t value).precision = t.precision := by
  show (if _ then _ else _) = _
  rw [if_neg]
  rintro ⟨-, hlong⟩
  omega

/-- The field of the flags and the width. -/
def Conversion.inField (c : Conversion) (b : Bound) (sign body : CString) : Field where
  left := '-' ∈ c.flags ∨ b.width < 0
  zero := '0' ∈ c.flags ∧ b.precision = none
  width := b.width.natAbs
  sign := sign
  body := body

theorem Reads.short (ht : Reads c b t) (h : b.precision.getD 1 ≤ NUMBUF) : t.precision ≤ NUMBUF := by
  have hsize : NUMBUF = 64 := rfl
  have hmax := ht.precision_max
  omega

/-- A conversion prints a digit, so that a precision of 1 makes no difference. -/
theorem Conversion.Plain.numeral_max (hplain : c.Plain b f) (hint : c.type ∈ intTypes) {base : ℕ} {upper : Bool}
    {precision n : ℕ} (hbody : f.body = numeral base upper precision n) :
    f.body = numeral base upper (max precision 1) n := by
  have hne := hplain.digit hint
  rw [hbody] at hne ⊢
  exact (Vsnprintf.numeral_max hne).symm

theorem emit_signed (hsigned : c.type = 'd' ∨ c.type = 'i') (hfield : c.field b = some f) (hplain : c.Plain b f)
    (ht : Reads c b t) : Emits mem f.writes (emit mem.length t (valueOf c.type b.arg)) := by
  have hint : c.type ∈ intTypes := by
    rcases hsigned with h | h <;> rw [h] <;> decide
  have hspec : c.field b = (signedArg c.argsize b.arg).map fun n ↦
      c.inField b (signOf c.flags n) (numeral 10 false (b.precision.getD 1) n.natAbs) := by
    unfold Conversion.field
    rcases hsigned with h | h <;> rw [h] <;> rfl
  have hvalue : valueOf c.type b.arg = .signed (longArg b.arg) := by
    rcases hsigned with h | h <;> rw [h] <;> rfl
  rw [hspec, Option.map_eq_some_iff] at hfield
  obtain ⟨n, harg, hf⟩ := hfield
  obtain ⟨hn, hmin⟩ := toInt_longArg hsigned harg hplain.exact
  have hshort := ht.short (hplain.short hint)
  have hprecision : (adjust t (.signed (longArg b.arg))).precision = t.precision := adjust_precision hshort
  rw [hvalue]
  apply (ht.lays (.signed (longArg b.arg)) hf.symm).emits_signed
  · rwa [hprecision]
  · exact hmin
  · rw [hn, ← hf]
    show signOf c.flags n = if n < 0 then ['-'] else if t.always_sign = true then ['+'] else []
    rw [signOf, ht.always_sign, if_neg hplain.noSpace]
    simp only [decide_eq_true_eq]
  · rw [hprecision, ht.precision_max, hn]
    apply hplain.numeral_max hint
    rw [← hf]
    rfl

theorem emit_unsigned (htype : c.type = 'u') (hfield : c.field b = some f) (hplain : c.Plain b f)
    (ht : Reads c b t) : Emits mem f.writes (emit mem.length t (valueOf c.type b.arg)) := by
  have hint : c.type ∈ intTypes := by
    rw [htype]
    decide
  have hspec : c.field b = (unsignedArg c.argsize b.arg).map fun n ↦
      c.inField b [] (numeral 10 false (b.precision.getD 1) n) := by
    unfold Conversion.field
    rw [htype]
    rfl
  have hvalue : valueOf c.type b.arg = .unsigned (longArg b.arg) := by
    rw [htype]
    rfl
  rw [hspec, Option.map_eq_some_iff] at hfield
  obtain ⟨n, harg, hf⟩ := hfield
  have hn := toNat_longArg (by rw [htype]; decide) hint harg hplain.exact
  have hshort := ht.short (hplain.short hint)
  have hprecision : (adjust t (.unsigned (longArg b.arg))).precision = t.precision := adjust_precision hshort
  rw [hvalue]
  apply (ht.lays (.unsigned (longArg b.arg)) hf.symm).emits_unsigned
  · rwa [hprecision]
  · rw [← hf]
    rfl
  · rw [hprecision, ht.precision_max, hn]
    apply hplain.numeral_max hint
    rw [← hf]
    rfl

theorem emit_octal (htype : c.type = 'o') (hfield : c.field b = some f) (hplain : c.Plain b f)
    (ht : Reads c b t) : Emits mem f.writes (emit mem.length t (valueOf c.type b.arg)) := by
  have hint : c.type ∈ intTypes := by
    rw [htype]
    decide
  have hspec : c.field b = (unsignedArg c.argsize b.arg).map fun n ↦
      c.inField b [] (octalBody ('#' ∈ c.flags) (b.precision.getD 1) n) := by
    unfold Conversion.field
    rw [htype]
    rfl
  have hvalue : valueOf c.type b.arg = .octal (longArg b.arg) := by
    rw [htype]
    rfl
  rw [hspec, Option.map_eq_some_iff] at hfield
  obtain ⟨n, harg, hf⟩ := hfield
  have hn := toNat_longArg (by rw [htype]; decide) hint harg hplain.exact
  have hshort := ht.short (hplain.short hint)
  have hprecision : (adjust t (.octal (longArg b.arg))).precision = t.precision := adjust_precision hshort
  rw [hvalue]
  apply (ht.lays (.octal (longArg b.arg)) hf.symm).emits_octal
  · rwa [hprecision]
  · rw [← hf]
    rfl
  · have hbody : f.body = octalBody ('#' ∈ c.flags) (b.precision.getD 1) n := by
      rw [← hf]
      rfl
    have hne := hplain.digit hint
    rw [hbody] at hne
    rw [hprecision, ht.precision_max, hn, hbody]
    show _ = octalBody t.alt_form _ _
    rw [ht.alt_form, octalBody_max hne]

theorem emit_hex (upper : Bool) (htype : c.type = if upper then 'X' else 'x') (hfield : c.field b = some f)
    (hplain : c.Plain b f) (ht : Reads c b t) :
    Emits mem f.writes (emit mem.length t (valueOf c.type b.arg)) := by
  have hint : c.type ∈ intTypes := by
    rw [htype]
    cases upper <;> decide
  have hspec : c.field b = (unsignedArg c.argsize b.arg).map fun n ↦
      c.inField b (hexSign ('#' ∈ c.flags) (if upper then 'X' else 'x') n)
        (numeral 16 upper (b.precision.getD 1) n) := by
    unfold Conversion.field
    rw [htype]
    cases upper <;> rfl
  have hvalue : valueOf c.type b.arg = .hex upper (longArg b.arg) := by
    rw [htype]
    cases upper <;> rfl
  have hsigned : ¬(c.type = 'd' ∨ c.type = 'i') := by
    rw [htype]
    cases upper <;> decide
  rw [hspec, Option.map_eq_some_iff] at hfield
  obtain ⟨n, harg, hf⟩ := hfield
  have hn := toNat_longArg hsigned hint harg hplain.exact
  have hshort := ht.short (hplain.short hint)
  have hprecision : (adjust t (.hex upper (longArg b.arg))).precision = t.precision := adjust_precision hshort
  rw [hvalue]
  apply (ht.lays (.hex upper (longArg b.arg)) hf.symm).emits_hex
  · rwa [hprecision]
  · rw [hn, ← hf]
    show _ = hexSign t.alt_form _ _
    rw [ht.alt_form]
    rfl
  · rw [hprecision, ht.precision_max, hn]
    apply hplain.numeral_max hint
    rw [← hf]
    rfl

/-- A field without a sign. -/
theorem Lays.emits_plain (mem : List Char) (h : Lays t f) (hsign : f.sign = [])
    (hbody : (f.body.length : ℤ) ≤ intMax) :
    Emits mem f.writes (field mem.length t (t.width - f.body.length) f.body) := by
  have hinner := h.emits_field mem hbody
  rw [hsign, List.length_nil, Nat.cast_zero, sub_zero] at hinner
  rw [Field.writes, hsign]
  exact hinner

theorem emit_char (htype : c.type = 'c') (hfield : c.field b = some f) (ht : Reads c b t) :
    Emits mem f.writes (emit mem.length t (valueOf c.type b.arg)) := by
  have hvalue : valueOf c.type b.arg = .char (longArg b.arg) := by
    rw [htype]
    rfl
  unfold Conversion.field at hfield
  rw [htype] at hfield
  cases harg : b.arg with
  | int n =>
    rw [harg] at hfield
    have hf : c.inField b [] [Char.ofNat (n.toNat % 256)] = f := Option.some.inj hfield
    have hbyte : (n.signExtend 64).toNat % 256 = n.toNat % 256 := by
      rw [BitVec.toNat_signExtend, BitVec.toNat_setWidth]
      have hlt := n.isLt
      split_ifs <;> omega
    have hlays := ht.lays (.char (n.signExtend 64)) hf.symm
    have hbody : f.body = [Char.ofNat ((n.signExtend 64).toNat % 256)] := by
      rw [← hf, hbyte]
      rfl
    have hone : (f.body.length : ℤ) ≤ intMax := by
      rw [hbody]
      exact show (1 : ℤ) ≤ intMax by decide
    have hplain := hlays.emits_plain mem (by rw [← hf]; rfl) hone
    rw [hbody] at hplain
    rw [← harg, hvalue, harg]
    exact hplain
  | long n => rw [harg] at hfield; cases hfield
  | string s => rw [harg] at hfield; cases hfield
  | pointer p => rw [harg] at hfield; cases hfield
  | count => rw [harg] at hfield; cases hfield

theorem emit_null (put' : Out → Option Out)
    (hput : put' = fun out ↦ (put mem.length "(null)".toList out).map Prod.snd)
    (hf : f = ⟨false, false, 0, [], "(null)".toList⟩) : Emits mem f.writes put' := by
  have hwrites : f.writes = chunk "(null)".toList := by
    rw [hf]
    rfl
  rw [hwrites, hput]
  exact emits_put _

theorem emit_string (htype : c.type = 's') (hfield : c.field b = some f) (hplain : c.Plain b f)
    (ht : Reads c b t) : Emits mem f.writes (emit mem.length t (valueOf c.type b.arg)) := by
  have hvalue : valueOf c.type b.arg = valueOf 's' b.arg := by rw [htype]
  have hexact := hplain.exact
  unfold Conversion.field at hfield
  rw [htype] at hfield
  cases harg : b.arg with
  | string s =>
    rw [harg] at hfield hvalue hexact
    rw [hvalue]
    cases s with
    | none => exact emit_null _ rfl (Option.some.inj hfield).symm
    | some s =>
      have hf : c.inField b [] (s.take (b.precision.getD s.length)) = f := Option.some.inj hfield
      have hlen : toInt32 s.length = s.length := toInt32_length hexact
      have hbody : f.body = s.take (b.precision.getD s.length) := by
        rw [← hf]
        rfl
      have hlength : (f.body.length : ℤ) ≤ s.length := by
        rw [hbody, List.length_take]
        omega
      have hlays := ht.lays (.string (some s)) hf.symm
      have hplain := hlays.emits_plain mem (by rw [← hf]; rfl) (hlength.trans hexact)
      have hprecision : (if t.precision < 0 ∨ t.precision > s.length then (s.length : ℤ) else t.precision) =
          f.body.length := by
        rw [hbody, List.length_take, ht.precision]
        cases b.precision with
        | none => simp
        | some p =>
          show (if (p : ℤ) < 0 ∨ (p : ℤ) > s.length then (s.length : ℤ) else p) = (min p s.length : ℕ)
          split_ifs <;> omega
      have hemit : emit mem.length t (.string (some s)) =
          field mem.length (adjust t (.string (some s)))
            ((adjust t (.string (some s))).width - f.body.length) f.body := by
        funext out
        show field _ _ (t.width - (if t.precision < 0 ∨ t.precision > toInt32 s.length then toInt32 s.length
          else t.precision)) (if toInt32 s.length > 0 then s.take (if t.precision < 0 ∨ t.precision >
            toInt32 s.length then toInt32 s.length else t.precision).toNat else []) out = _
        rw [hlen, hprecision, Int.toNat_natCast]
        congr 1
        by_cases hempty : s = []
        · rw [hbody, hempty]
          simp
        · have hpos : ((s.length : ℕ) : ℤ) > 0 := by
            have hlength := List.length_pos_iff.mpr hempty
            omega
          rw [if_pos hpos, hbody, List.length_take, List.take_eq_take_iff]
          omega
      show Emits mem f.writes (emit mem.length t (.string (some s)))
      rw [hemit]
      exact hplain
  | int n => rw [harg] at hfield; cases hfield
  | long n => rw [harg] at hfield; cases hfield
  | pointer p => rw [harg] at hfield; cases hfield
  | count => rw [harg] at hfield; cases hfield

theorem emit_pointer (htype : c.type = 'p') (hfield : c.field b = some f) (ht : Reads c b t) :
    Emits mem f.writes (emit mem.length t (valueOf c.type b.arg)) := by
  have hvalue : valueOf c.type b.arg = valueOf 'p' b.arg := by rw [htype]
  unfold Conversion.field at hfield
  rw [htype] at hfield
  cases harg : b.arg with
  | pointer p =>
    rw [harg] at hfield hvalue
    rw [hvalue]
    show Emits mem f.writes (emitPointer mem.length (adjust t (.pointer p)) p)
    unfold emitPointer
    dsimp only at hfield
    by_cases hp : p = 0
    · rw [if_pos hp] at hfield
      simp only [if_pos hp]
      exact emit_null _ rfl (Option.some.inj hfield).symm
    · rw [if_neg hp] at hfield
      simp only [if_neg hp]
      have hf : { c.inField b ['0', 'x'] (numeral 16 false 8 p.toNat) with zero := false } = f :=
        Option.some.inj hfield
      have hne : p.toNat ≠ 0 := by
        intro hzero
        exact hp (BitVec.eq_of_toNat_eq hzero)
      have hlays : Lays { adjust t (.pointer p) with alt_form := true, zero_pad := false, precision := 8 } f := by
        refine ⟨?_, ?_, ?_⟩
        · rw [← hf]
          exact ht.left_justify
        · rw [← hf]
          rfl
        · rw [← hf]
          exact ht.width
      apply hlays.emits_hex
      · show (8 : ℤ) ≤ NUMBUF
        decide
      · rw [← hf]
        show ['0', 'x'] = hexSign true 'x' p.toNat
        rw [hexSign, if_pos ⟨rfl, hne⟩]
      · rw [← hf]
        rfl
  | int n => rw [harg] at hfield; cases hfield
  | long n => rw [harg] at hfield; cases hfield
  | string s => rw [harg] at hfield; cases hfield
  | count => rw [harg] at hfield; cases hfield

theorem emit_count (htype : c.type = 'n') (hfield : c.field b = some f) :
    Emits mem f.writes (emit mem.length t (valueOf c.type b.arg)) := by
  have hvalue : valueOf c.type b.arg = .count := by
    rw [htype]
    rfl
  unfold Conversion.field at hfield
  rw [htype] at hfield
  cases harg : b.arg with
  | count =>
    rw [harg] at hfield
    have hf : (⟨false, false, 0, [], []⟩ : Field) = f := Option.some.inj hfield
    have hwrites : f.writes = [] := by
      rw [← hf]
      rfl
    rw [← harg, hvalue, hwrites]
    apply emits_nil
    intro text out h
    exact ⟨_, rfl, ⟨h.length, h.pos, h.total, h.front, h.empty, h.last⟩⟩
  | int n => rw [harg] at hfield; cases hfield
  | long n => rw [harg] at hfield; cases hfield
  | string s => rw [harg] at hfield; cases hfield
  | pointer p => rw [harg] at hfield; cases hfield

/-- The sign of a field is no blank but for the flag. -/
theorem sign_of_noSpace (hfield : c.field b = some f) (hspace : ' ' ∉ c.flags) : ' ' ∉ f.sign := by
  have hsigned (n : ℤ) : ' ' ∉ signOf c.flags n := by
    rw [signOf, if_neg hspace]
    split_ifs <;> decide
  have hhex (alternate : Bool) (n : ℕ) (x : Char) (hx : x ≠ ' ') : ' ' ∉ hexSign alternate x n := by
    rw [hexSign]
    split_ifs
    · simp [hx.symm]
    · exact List.not_mem_nil
  have hmap {α : Type} {o : Option α} {g : α → Field} (h : o.map g = some f) (hg : ∀ a, ' ' ∉ (g a).sign) :
      ' ' ∉ f.sign := by
    obtain ⟨a, -, rfl⟩ := Option.map_eq_some_iff.mp h
    exact hg a
  unfold Conversion.field at hfield
  dsimp only at hfield
  split at hfield
  · exact hmap hfield fun n ↦ hsigned n
  · exact hmap hfield fun n ↦ hsigned n
  · exact hmap hfield fun n ↦ List.not_mem_nil
  · exact hmap hfield fun n ↦ List.not_mem_nil
  · exact hmap hfield fun n ↦ hhex _ n 'x' (by decide)
  · exact hmap hfield fun n ↦ hhex _ n 'X' (by decide)
  · split at hfield
    · rw [← Option.some.inj hfield]
      exact List.not_mem_nil
    · cases hfield
  · split at hfield
    · rw [← Option.some.inj hfield]
      exact List.not_mem_nil
    · rw [← Option.some.inj hfield]
      exact List.not_mem_nil
    · cases hfield
  · split at hfield
    · split_ifs at hfield
      · rw [← Option.some.inj hfield]
        exact List.not_mem_nil
      · rw [← Option.some.inj hfield]
        show ' ' ∉ ['0', 'x']
        decide
    · cases hfield
  · split at hfield
    · rw [← Option.some.inj hfield]
      exact List.not_mem_nil
    · cases hfield
  · cases hfield

/-- A plain conversion prints the field that the standard asks for. -/
theorem emit_plain (hfield : c.field b = some f) (hplain : c.Plain b f) (ht : Reads c b t) :
    Emits mem f.writes (emit mem.length t (valueOf c.type b.arg)) := by
  rcases c.htype with hint | ⟨-, hother⟩
  · have hlist : intTypes = ['d', 'i', 'o', 'u', 'x', 'X'] := rfl
    rw [hlist] at hint
    simp only [List.mem_cons, List.not_mem_nil, or_false] at hint
    rcases hint with h | h | h | h | h | h
    · exact emit_signed (.inl h) hfield hplain ht
    · exact emit_signed (.inr h) hfield hplain ht
    · exact emit_octal h hfield hplain ht
    · exact emit_unsigned h hfield hplain ht
    · exact emit_hex false h hfield hplain ht
    · exact emit_hex true h hfield hplain ht
  · have hlist : "cspn".toList = ['c', 's', 'p', 'n'] := rfl
    rw [hlist] at hother
    simp only [List.mem_cons, List.not_mem_nil, or_false] at hother
    rcases hother with h | h | h | h
    · exact emit_char h hfield ht
    · exact emit_string h hfield hplain ht
    · exact emit_pointer h hfield ht
    · exact emit_count h hfield

end Values

end BlitzedServices.Vsnprintf
