import BlitzedServices.Lib.CString

/-!
# Formats

A format is text with conversions in it, and `Conversion.field` is what the C standard prints for a conversion:
the flags, the width, the precision and the size of the argument as they are defined there. What the standard
leaves open is taken from the formatter: a null pointer is `(null)`, another pointer is printed as `%#.8x`, and
`0` fills the field of a character or a string as well.
-/

set_option autoImplicit false
set_option relaxedAutoImplicit false

namespace BlitzedServices.Vsnprintf

open Lib

/-- The arguments of a call. A string may be a null pointer, and what `count` points to is an `int`. -/
inductive Arg where
  | int (n : BitVec 32)
  | long (n : BitVec 64)
  | string (s : Option CString)
  | pointer (p : BitVec 64)
  | count

inductive ArgSize where
  | normal
  | short
  | long
  | longLong
  deriving DecidableEq

/-! ### What is written in a format -/

/-- A width. -/
inductive Width where
  | absent
  | digits (s : CString)
  | star

/-- A precision. There may be no digit behind the point. -/
inductive Precision where
  | absent
  | digits (s : CString)
  | star

/-- The digits of a width do not begin with the flag `0`. -/
def Width.Written : Width → Prop
  | .digits s => s ≠ [] ∧ s.head? ≠ some '0' ∧ ∀ c ∈ s, c.isDigit = true
  | _ => True

def Precision.Written : Precision → Prop
  | .digits s => ∀ c ∈ s, c.isDigit = true
  | _ => True

def flagChars : CString := "#-+ 0".toList

def intTypes : CString := "diouxX".toList

/-- A conversion: only integers have a size. -/
structure Conversion where
  flags : CString
  width : Width
  precision : Precision
  argsize : ArgSize
  type : Char
  hflags : ∀ c ∈ flags, c ∈ flagChars
  hwidth : width.Written
  hprecision : precision.Written
  htype : type ∈ intTypes ∨ argsize = .normal ∧ type ∈ "cspn".toList

/-- What stands in a format between its texts. -/
inductive Directive where
  | percent
  | conversion (c : Conversion)

/-- A format: text, and directives with the text behind them. -/
structure Format where
  text : CString
  parts : List (Directive × CString)
  htext : '%' ∉ text
  hparts : ∀ p ∈ parts, '%' ∉ p.2

def Width.spell : Width → CString
  | .absent => []
  | .digits s => s
  | .star => ['*']

def Precision.spell : Precision → CString
  | .absent => []
  | .digits s => '.' :: s
  | .star => ['.', '*']

def ArgSize.spell : ArgSize → CString
  | .normal => []
  | .short => ['h']
  | .long => ['l']
  | .longLong => ['L']

/-- The characters of a conversion behind `%`. -/
def Conversion.spell (c : Conversion) : CString :=
  c.flags ++ (c.width.spell ++ (c.precision.spell ++ (c.argsize.spell ++ [c.type])))

def Directive.spell : Directive → CString
  | .percent => "%%".toList
  | .conversion c => '%' :: c.spell

/-- A conversion without a precision. -/
def Conversion.bare (flags : CString) (width : Width) (argsize : ArgSize) (type : Char)
    (hflags : ∀ c ∈ flags, c ∈ flagChars) (hwidth : width.Written)
    (htype : type ∈ intTypes ∨ argsize = .normal ∧ type ∈ "cspn".toList) : Conversion where
  flags := flags
  width := width
  precision := .absent
  argsize := argsize
  type := type
  hflags := hflags
  hwidth := hwidth
  hprecision := trivial
  htype := htype

/-- A text and a conversion. -/
def Format.ofConversion (text : CString) (c : Conversion) (htext : '%' ∉ text) : Format where
  text := text
  parts := [(.conversion c, [])]
  htext := htext
  hparts := List.forall_mem_singleton.mpr List.not_mem_nil

/-- The format string. -/
def Format.spell (f : Format) : CString :=
  f.text ++ f.parts.flatMap fun p ↦ p.1.spell ++ p.2

/-! ### What is to be printed -/

/-- A field: a sign or a prefix and a body, in a width. -/
structure Field where
  left : Bool
  zero : Bool
  width : ℕ
  sign : CString
  body : CString

/-- What is left of the width. -/
def Field.room (f : Field) : ℕ :=
  f.width - (f.sign.length + f.body.length)

/-- The characters of a field. Zeros go behind the sign, blanks in front of it. -/
def Field.output (f : Field) : CString :=
  if f.left then f.sign ++ (f.body ++ List.replicate f.room ' ')
  else if f.zero then f.sign ++ (List.replicate f.room '0' ++ f.body)
  else List.replicate f.room ' ' ++ (f.sign ++ f.body)

/-- A number in a base with as many digits as the precision asks for. -/
def numeral (base : ℕ) (upper : Bool) (precision n : ℕ) : CString :=
  let digits := (Nat.digits base n).reverse.map fun d ↦
    if upper then (Nat.digitChar d).toUpper else Nat.digitChar d
  List.replicate (precision - digits.length) '0' ++ digits

/-- An argument as a signed integer of the size. -/
def signedArg : ArgSize → Arg → Option ℤ
  | .normal, .int n => some n.toInt
  | .short, .int n => some (n.setWidth 16).toInt
  | .long, .long n => some n.toInt
  | .longLong, .long n => some n.toInt
  | _, _ => none

/-- An argument as an unsigned integer of the size. -/
def unsignedArg : ArgSize → Arg → Option ℕ
  | .normal, .int n => some n.toNat
  | .short, .int n => some (n.setWidth 16).toNat
  | .long, .long n => some n.toNat
  | .longLong, .long n => some n.toNat
  | _, _ => none

/-- The width, the precision and the argument of a conversion. -/
structure Bound where
  width : ℤ
  precision : Option ℕ
  arg : Arg

/-- The sign of a number. -/
def signOf (flags : CString) (n : ℤ) : CString :=
  if n < 0 then ['-'] else if '+' ∈ flags then ['+'] else if ' ' ∈ flags then [' '] else []

/-- The digits of an octal number: with `#` the first is a zero. -/
def octalBody (alternate : Bool) (precision n : ℕ) : CString :=
  let digits := numeral 8 false precision n
  if alternate ∧ digits.head? ≠ some '0' then '0' :: digits else digits

/-- The prefix of a hexadecimal number. -/
def hexSign (alternate : Bool) (x : Char) (n : ℕ) : CString :=
  if alternate ∧ n ≠ 0 then ['0', x] else []

/-- What a conversion prints. -/
def Conversion.field (c : Conversion) (b : Bound) : Option Field :=
  let precision := b.precision.getD 1
  let alternate : Bool := '#' ∈ c.flags
  let inField (sign body : CString) : Field :=
    { left := '-' ∈ c.flags ∨ b.width < 0
      zero := '0' ∈ c.flags ∧ b.precision = none
      width := b.width.natAbs
      sign := sign
      body := body }
  let null : Field := ⟨false, false, 0, [], "(null)".toList⟩
  match c.type with
  | 'd' => (signedArg c.argsize b.arg).map fun n ↦ inField (signOf c.flags n) (numeral 10 false precision n.natAbs)
  | 'i' => (signedArg c.argsize b.arg).map fun n ↦ inField (signOf c.flags n) (numeral 10 false precision n.natAbs)
  | 'u' => (unsignedArg c.argsize b.arg).map fun n ↦ inField [] (numeral 10 false precision n)
  | 'o' => (unsignedArg c.argsize b.arg).map fun n ↦ inField [] (octalBody alternate precision n)
  | 'x' =>
    (unsignedArg c.argsize b.arg).map fun n ↦ inField (hexSign alternate 'x' n) (numeral 16 false precision n)
  | 'X' =>
    (unsignedArg c.argsize b.arg).map fun n ↦ inField (hexSign alternate 'X' n) (numeral 16 true precision n)
  | 'c' =>
    match b.arg with
    | .int n => some (inField [] [Char.ofNat (n.toNat % 256)])
    | _ => none
  | 's' =>
    match b.arg with
    | .string none => some null
    | .string (some s) => some (inField [] (s.take (b.precision.getD s.length)))
    | _ => none
  | 'p' =>
    match b.arg with
    | .pointer p =>
      if p = 0 then some null
      else some { inField ['0', 'x'] (numeral 16 false 8 p.toNat) with zero := false }
    | _ => none
  | 'n' =>
    match b.arg with
    | .count => some ⟨false, false, 0, [], []⟩
    | _ => none
  | _ => none

/-! ### Arguments -/

/-- The width, and the arguments behind it. -/
def Width.take : Width → List Arg → Option (ℤ × List Arg)
  | .absent, args => some (0, args)
  | .digits s, args => some (Nat.ofDigitChars 10 s 0, args)
  | .star, .int n :: args => some (n.toInt, args)
  | .star, _ => none

/-- The precision, and the arguments behind it. A negative one is none. -/
def Precision.take : Precision → List Arg → Option (Option ℕ × List Arg)
  | .absent, args => some (none, args)
  | .digits s, args => some (some (Nat.ofDigitChars 10 s 0), args)
  | .star, .int n :: args => some (if n.toInt < 0 then none else some n.toInt.natAbs, args)
  | .star, _ => none

/-- What a conversion takes from the arguments. -/
def Conversion.bind (c : Conversion) (args : List Arg) : Option (Bound × List Arg) :=
  (c.width.take args).bind fun w ↦
    (c.precision.take w.2).bind fun p ↦
      match p.2 with
      | arg :: args => some (⟨w.1, p.1, arg⟩, args)
      | [] => none

/-- The fields of directives; nothing if the arguments do not match. -/
def fieldsOf : List (Directive × CString) → List Arg → Option (List (Field × CString))
  | [], _ => some []
  | (.percent, text) :: parts, args =>
    (fieldsOf parts args).map (List.cons (⟨false, false, 0, [], ['%']⟩, text))
  | (.conversion c, text) :: parts, args =>
    (c.bind args).bind fun b ↦ (c.field b.1).bind fun f ↦ (fieldsOf parts b.2).map (List.cons (f, text))

/-- The characters of fields and of the texts behind them. -/
def outputOf (fields : List (Field × CString)) : CString :=
  fields.flatMap fun p ↦ p.1.output ++ p.2

/-- The full output of a format. -/
def Format.output (f : Format) (args : List Arg) : Option CString :=
  (fieldsOf f.parts args).map fun fields ↦ f.text ++ outputOf fields

end BlitzedServices.Vsnprintf
