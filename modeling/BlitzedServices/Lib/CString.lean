import Mathlib

/-!
# C strings and their numbers

Strings are lists of characters without the final NUL. `stricmp` and `strscpy` are the helpers every
command uses, and `strtol`, `strtoul` and `atoi` the conversions of the C library for 64-bit `long`:
white space, an optional sign, then the longest front of digits, saturating at the ends of the
type. `decimal` is the text `%d` and `%u` print, and `signedValue_decimal` reads it back.
-/

set_option autoImplicit false
set_option relaxedAutoImplicit false

namespace BlitzedServices.Lib

/-- A C string without its final NUL. -/
abbrev CString := List Char

/-- `stricmp`: the order of two strings with capital letters read as small ones. -/
def stricmp : CString → CString → ℤ
  | [], [] => 0
  | [], _ :: _ => -1
  | _ :: _, [] => 1
  | c :: s, d :: t =>
    if c.toLower = d.toLower then stricmp s t
    else if c.toLower < d.toLower then -1
    else 1

theorem stricmp_eq_zero_iff (s t : CString) :
    stricmp s t = 0 ↔ s.map Char.toLower = t.map Char.toLower := by
  induction s generalizing t with
  | nil =>
    cases t with
    | nil => simp [stricmp]
    | cons d t => simp [stricmp]
  | cons c s ih =>
    cases t with
    | nil => simp [stricmp]
    | cons d t =>
      by_cases hcd : c.toLower = d.toLower
      · rw [stricmp, if_pos hcd, ih, List.map_cons, List.map_cons, List.cons.injEq]
        exact ⟨fun h ↦ ⟨hcd, h⟩, fun h ↦ h.2⟩
      · rw [stricmp, if_neg hcd, List.map_cons, List.map_cons, List.cons.injEq]
        refine ⟨fun h ↦ ?_, fun h ↦ absurd h.1 hcd⟩
        split_ifs at h
        cases h

/-- `strscpy` into a buffer of `len` bytes. -/
def strscpy (s : CString) (len : ℕ) : CString :=
  s.take (len - 1)

/-- `strtok`: the first token, and what is left behind the delimiter that ends it. -/
def strtok (delims s : CString) : Option (CString × CString) :=
  let s := s.dropWhile (· ∈ delims)
  if s = [] then none else some (s.takeWhile (· ∉ delims), (s.dropWhile (· ∉ delims)).tail)

/-- `strlower`. -/
def strlower (s : CString) : CString :=
  s.map Char.toLower

/-- `isspace` of the C locale. -/
def isspace (c : Char) : Bool :=
  c == ' ' || c == '\t' || c == '\n' || c == '\x0b' || c == '\x0c' || c == '\r'

/-- The value of the longest front of digits. -/
def digitsValue (s : CString) : ℕ :=
  Nat.ofDigitChars 10 (s.takeWhile Char.isDigit) 0

/-- The number a text starts with: white space, a sign, digits. -/
def signedValue (s : CString) : ℤ :=
  let text := s.dropWhile isspace
  if text.head? = some '-' then -digitsValue text.tail
  else if text.head? = some '+' then digitsValue text.tail
  else digitsValue text

/-- `strtol` in base 10 for a 64-bit `long`; `atol` is the same. -/
def strtol (s : CString) : ℤ :=
  max (-2 ^ 63) (min (2 ^ 63 - 1) (signedValue s))

/-- `strtoul` in base 10 for a 64-bit `long`: a minus sign negates modulo `2 ^ 64`. -/
def strtoul (s : CString) : BitVec 64 :=
  if 2 ^ 64 ≤ (signedValue s).natAbs then BitVec.allOnes 64 else BitVec.ofInt 64 (signedValue s)

/-- `atoi`: the low 32 bits of `strtol`. -/
def atoi (s : CString) : BitVec 32 :=
  BitVec.ofInt 32 (strtol s)

/-- The text that `%d` prints for a number. -/
def decimal (n : ℤ) : CString :=
  if n < 0 then '-' :: Nat.toDigits 10 n.natAbs else Nat.toDigits 10 n.natAbs

theorem mem_decimal {n : ℤ} {c : Char} (h : c ∈ decimal n) : c = '-' ∨ c.isDigit = true := by
  have hdigit (h : c ∈ Nat.toDigits 10 n.natAbs) : c.isDigit = true :=
    Nat.isDigit_of_mem_toDigits (by decide) (by decide) h
  rw [decimal] at h
  split_ifs at h
  · exact (List.mem_cons.mp h).imp_right hdigit
  · exact .inr (hdigit h)

theorem digitsValue_toDigits (n : ℕ) : digitsValue (Nat.toDigits 10 n) = n := by
  have hdigits : (Nat.toDigits 10 n).takeWhile Char.isDigit = Nat.toDigits 10 n := by
    rw [List.takeWhile_eq_self_iff]
    exact fun c hc ↦ Nat.isDigit_of_mem_toDigits (by decide) (by decide) hc
  rw [digitsValue, hdigits, Nat.ofDigitChars_ten_toDigits]

/-- A text that starts with a digit has neither white space nor sign. -/
theorem signedValue_of_isDigit {c : Char} {s : CString} (hc : c.isDigit) :
    signedValue (c :: s) = digitsValue (c :: s) := by
  have hspace : isspace c = false := by
    by_contra h
    simp only [isspace, Bool.not_eq_false, Bool.or_eq_true, beq_iff_eq, or_assoc] at h
    rcases h with rfl | rfl | rfl | rfl | rfl | rfl <;> exact absurd hc (by decide)
  have hminus : c ≠ '-' := by
    rintro rfl
    exact absurd hc (by decide)
  have hplus : c ≠ '+' := by
    rintro rfl
    exact absurd hc (by decide)
  simp [signedValue, hspace, hminus, hplus]

theorem signedValue_toDigits (n : ℕ) : signedValue (Nat.toDigits 10 n) = n := by
  cases hdigits : Nat.toDigits 10 n with
  | nil => exact absurd hdigits Nat.toDigits_ne_nil
  | cons c s =>
    have hmem : c ∈ Nat.toDigits 10 n := by
      rw [hdigits]
      exact List.mem_cons_self ..
    have hc : c.isDigit := Nat.isDigit_of_mem_toDigits (by decide) (by decide) hmem
    rw [signedValue_of_isDigit hc, ← hdigits, digitsValue_toDigits]

theorem signedValue_decimal (n : ℤ) : signedValue (decimal n) = n := by
  by_cases hn : n < 0
  · have hsign : signedValue ('-' :: Nat.toDigits 10 n.natAbs) = -n.natAbs := by
      have hspace : isspace '-' = false := by decide
      simp [signedValue, hspace, digitsValue_toDigits]
    rw [decimal, if_pos hn, hsign]
    omega
  · rw [decimal, if_neg hn, signedValue_toDigits]
    omega

/-- `atoi` reads back what `%d` printed for a 32-bit number. -/
theorem atoi_decimal_toInt (n : BitVec 32) : atoi (decimal n.toInt) = n := by
  have hlt := n.toInt_lt
  have hle := n.le_toInt
  rw [atoi, strtol, signedValue_decimal, Int.min_eq_right (by omega), Int.max_eq_right (by omega),
    BitVec.ofInt_toInt]

/-- `atoi` reads back what `%u` printed for a 32-bit number. -/
theorem atoi_decimal_toNat (n : BitVec 32) : atoi (decimal n.toNat) = n := by
  have hlt := n.isLt
  rw [atoi, strtol, signedValue_decimal, Int.min_eq_right (by omega), Int.max_eq_right (by omega)]
  rw [BitVec.ofInt_natCast, BitVec.ofNat_toNat, BitVec.setWidth_eq]

end BlitzedServices.Lib
