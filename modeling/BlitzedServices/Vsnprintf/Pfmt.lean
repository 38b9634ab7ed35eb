import BlitzedServices.Vsnprintf.Writefunc
import BlitzedServices.Vsnprintf.Format

/-!
# The formatter

`_pfmt` goes through a format: text is written in bulk, and a token behind `%` is read into a `Token` and printed
with its argument. A number is built from its end in `numbuf`. An access outside of `numbuf` or of the buffer,
an argument of another type and an overflow of a width are faults.
-/

set_option autoImplicit false
set_option relaxedAutoImplicit false

namespace BlitzedServices.Vsnprintf

open Lib
open Misc (toInt32 intMax)

/-- What is read of a token. A width or a precision of -1 was not given. `what` is 0 in the flags, 1 in the width,
2 in the precision, and 4 behind an argument size. -/
structure Token where
  alt_form : Bool
  left_justify : Bool
  always_sign : Bool
  zero_pad : Bool
  width : ℤ
  precision : ℤ
  argsize : ArgSize
  what : ℕ

/-- What is printed for a token. -/
inductive Value where
  | signed (intval : BitVec 64)
  | octal (intval : BitVec 64)
  | unsigned (intval : BitVec 64)
  | hex (upper : Bool) (intval : BitVec 64)
  | char (intval : BitVec 64)
  | string (strval : Option CString)
  | pointer (ptrval : BitVec 64)
  | count

/-- What a character of a token does. -/
inductive Scan where
  | more (t : Token) (args : List Arg)
  | valid (value : Value) (args : List Arg)
  | invalid
  | fault

def Token.init : Token where
  alt_form := false
  left_justify := false
  always_sign := false
  zero_pad := false
  width := -1
  precision := -1
  argsize := .normal
  what := 0

/-! ### Tokens -/

/-- A digit more of a width or a precision, which is added before the value of `'0'` is taken away. -/
def addDigit (n : ℤ) (c : Char) : Option ℤ :=
  let sum := max n 0 * 10 + c.toNat
  if sum ≤ intMax then some (sum - 48) else none

/-- A digit of a width or a precision. -/
def digitStep (t : Token) (args : List Arg) (c : Char) : Scan :=
  if t.what > 2 then .invalid
  else if t.what ≤ 1 then
    match addDigit t.width c with
    | some width => .more { t with width := width, what := 1 } args
    | none => .fault
  else
    match addDigit t.precision c with
    | some precision => .more { t with precision := precision } args
    | none => .fault

/-- The width that an argument gives. -/
def starStep (t : Token) (args : List Arg) : Scan :=
  if t.what ≥ 2 then .invalid
  else
    match args with
    | .int n :: args =>
      if 0 ≤ n.toInt then .more { t with width := n.toInt, what := 1 } args
      else if -n.toInt ≤ intMax then .more { t with width := -n.toInt, left_justify := true, what := 1 } args
      else .fault
    | _ => .fault

/-- A flag, which has to stand before the width. -/
def flagStep (t : Token) (args : List Arg) (t' : Token) : Scan :=
  if t.what ≠ 0 then .invalid else .more t' args

/-- The size of the argument. -/
def sizeStep (t : Token) (args : List Arg) (argsize : ArgSize) : Scan :=
  if t.what > 3 then .invalid else .more { t with argsize := argsize, what := 4 } args

/-- An `int` or a `long`, as a `long`. -/
def intStep (t : Token) (args : List Arg) (value : BitVec 64 → Value) : Scan :=
  match t.argsize, args with
  | .normal, .int n :: args => .valid (value (n.signExtend 64)) args
  | .short, .int n :: args => .valid (value (n.signExtend 64)) args
  | .long, .long n :: args => .valid (value n) args
  | .longLong, .long n :: args => .valid (value n) args
  | _, _ => .fault

/-- A character of a token. -/
def tokenStep (t : Token) (args : List Arg) (c : Char) : Scan :=
  match c with
  | '#' => flagStep t args { t with alt_form := true }
  | '-' => flagStep t args { t with left_justify := true }
  | '+' => flagStep t args { t with always_sign := true }
  | '0' => if t.what = 0 then .more { t with zero_pad := true } args else digitStep t args c
  | '*' => starStep t args
  | '.' => if t.what ≥ 2 then .invalid else .more { t with what := 2 } args
  | 'h' => sizeStep t args .short
  | 'l' => sizeStep t args .long
  | 'L' => sizeStep t args .longLong
  | 'd' => intStep t args .signed
  | 'i' => intStep t args .signed
  | 'o' => intStep t args .octal
  | 'u' => intStep t args .unsigned
  | 'x' => intStep t args (.hex false)
  | 'X' => intStep t args (.hex true)
  | 'c' =>
    match args with
    | .int n :: args => .valid (.char (n.signExtend 64)) args
    | _ => .fault
  | 's' =>
    match args with
    | .string s :: args => .valid (.string s) args
    | _ => .fault
  | 'p' =>
    match args with
    | .pointer p :: args => .valid (.pointer p) args
    | _ => .fault
  | 'n' =>
    match args with
    | .count :: args => .valid .count args
    | _ => .fault
  | c => if c.isDigit then digitStep t args c else .invalid

/-! ### Printing a token -/

/-- The bytes of `numbuf`. -/
def NUMBUF : ℕ := 64

def x_chars : CString := "0123456789abcdef0x".toList

def X_chars : CString := "0123456789ABCDEF0X".toList

/-- The loop that fills `numbuf` from its end. `room` is what is left in front of `numptr`, and `digits` what
stands from `numptr` on. -/
def digitLoop (chars : CString) (base precision : ℕ) : ℕ → ℕ → CString → Option CString
  | 0, uintval, digits => if digits.length < precision ∨ uintval ≠ 0 then none else some digits
  | room + 1, uintval, digits =>
    if digits.length < precision ∨ uintval ≠ 0 then
      digitLoop chars base precision room (uintval / base) (chars.getD (uintval % base) nul :: digits)
    else some digits

/-- The digits of a number in `numbuf`: one at least. -/
def digitsOf (chars : CString) (base : ℕ) (t : Token) (uintval : ℕ) : Option CString :=
  digitLoop chars base (max t.precision 1).toNat NUMBUF uintval []

/-- What is printed in a field, with the number of times it is padded. -/
def field (size : ℕ) (t : Token) (pads : ℤ) (body : CString) (out : Out) : Option Out :=
  let padstr := if t.zero_pad then '0' else ' '
  let fill := padding size padstr pads.toNat
  if t.left_justify then putThen size body fill out
  else (fill out).bind fun out ↦ (put size body out).map Prod.snd

/-- `'x'` and `'X'`. -/
def emitHex (size : ℕ) (upper : Bool) (t : Token) (intval : BitVec 64) (out : Out) : Option Out :=
  let chars := if upper then X_chars else x_chars
  let number (width : ℤ) (out : Out) :=
    (digitsOf chars 16 t intval.toNat).bind fun digits ↦ field size t (width - digits.length) digits out
  if t.alt_form ∧ intval.toNat ≠ 0 then putThen size (chars.drop 16) (number (t.width - 2)) out
  else number t.width out

/-- `'o'`. -/
def emitOctal (size : ℕ) (t : Token) (intval : BitVec 64) (out : Out) : Option Out :=
  (digitsOf x_chars 8 t intval.toNat).bind fun digits ↦
    if t.alt_form ∧ digits.head? ≠ some '0' then
      if digits.length < NUMBUF then field size t (t.width - (digits.length + 1)) ('0' :: digits) out else none
    else field size t (t.width - digits.length) digits out

/-- `'u'`. -/
def emitUnsigned (size : ℕ) (t : Token) (intval : BitVec 64) (out : Out) : Option Out :=
  (digitsOf x_chars 10 t intval.toNat).bind fun digits ↦ field size t (t.width - digits.length) digits out

/-- `'d'` and `'i'`. -/
def emitSigned (size : ℕ) (t : Token) (intval : BitVec 64) (out : Out) : Option Out :=
  let number (width : ℤ) (intval : BitVec 64) (out : Out) :=
    (digitsOf x_chars 10 t intval.toNat).bind fun digits ↦ field size t (width - digits.length) digits out
  if intval.toInt < 0 then
    putThen size ['-'] (fun out ↦
      -- the last digit of 0x800...0 goes to the byte behind `numbuf`
      if (-intval).toInt < 0 then none else number (t.width - 1) (-intval) out) out
  else if t.always_sign then putThen size ['+'] (number (t.width - 1) intval) out
  else number t.width intval out

/-- `'s'`. -/
def emitString (size : ℕ) (t : Token) (strval : Option CString) (out : Out) : Option Out :=
  match strval with
  | none => (put size "(null)".toList out).map Prod.snd
  | some s =>
    let len := toInt32 s.length
    let precision := if t.precision < 0 ∨ t.precision > len then len else t.precision
    field size t (t.width - precision) (if len > 0 then s.take precision.toNat else []) out

/-- `'p'`: what is no null pointer is printed as `%#.8x`. -/
def emitPointer (size : ℕ) (t : Token) (ptrval : BitVec 64) (out : Out) : Option Out :=
  if ptrval = 0 then (put size "(null)".toList out).map Prod.snd
  else emitHex size false { t with alt_form := true, zero_pad := false, precision := 8 } ptrval out

/-- The token is a number. -/
def Value.isNumber : Value → Bool
  | .signed _ | .octal _ | .unsigned _ | .hex _ _ => true
  | _ => false

/-- The token before it is printed. -/
def adjust (t : Token) (value : Value) : Token :=
  { t with
    zero_pad := t.zero_pad && !(t.precision != -1 || t.left_justify)
    precision := if value.isNumber ∧ t.precision > NUMBUF then NUMBUF else t.precision }

/-- A valid token. -/
def emit (size : ℕ) (t : Token) (value : Value) (out : Out) : Option Out :=
  let t := adjust t value
  match value with
  | .signed intval => emitSigned size t intval out
  | .octal intval => emitOctal size t intval out
  | .unsigned intval => emitUnsigned size t intval out
  | .hex upper intval => emitHex size upper t intval out
  | .char intval => field size t (t.width - 1) [Char.ofNat (intval.toNat % 256)] out
  | .string strval => emitString size t strval out
  | .pointer ptrval => emitPointer size t ptrval out
  | .count => some { out with counts := out.counts ++ [out.total] }

/-- `_pfmt`. `token` is the token that is being read, if any, and `start` the text from `startptr` on. -/
def pfmt (size : ℕ) : Option Token → CString → List Arg → CString → Out → Option Out
  | _, start, _, [], out => if start = [] then some out else (put size start out).map Prod.snd
  | token, start, args, c :: format, out =>
    match (token.map fun t ↦ tokenStep t args c).getD .invalid with
    | .more t args => pfmt size (some t) (start ++ [c]) args format out
    | .valid value args =>
      (token.bind fun t ↦ emit size t value out).bind (pfmt size none [] args format)
    | .fault => none
    | .invalid =>
      if c ≠ '%' then pfmt size none (start ++ [c]) args format out
      else if start = [] then pfmt size (some .init) [c] args format out
      else
        (put size start out).bind fun r ↦
          -- the text of a short write is written again behind the loop
          if r.1 ≠ start.length then (put size start r.2).map Prod.snd
          else pfmt size (some .init) [c] args format r.2

/-- `my_vsnprintf` with a buffer: what it returns, and what it did. -/
def my_vsnprintf (mem : List Char) (size : ℕ) (format : CString) (args : List Arg) : Option (ℤ × Out) :=
  if size = 0 then some (0, ⟨mem, 0, 0, []⟩)
  else (pfmt size none [] args format ⟨mem, 0, 0, []⟩).map fun out ↦ (out.total, out)

end BlitzedServices.Vsnprintf
