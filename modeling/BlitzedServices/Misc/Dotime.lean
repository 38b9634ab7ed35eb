import BlitzedServices.Lib.CString

/-!
# Durations

`dotime` reads a sequence of numbers with units. The sums and products are of 32-bit numbers and wrap
around, so that a text may stand for no time at all.
-/

set_option autoImplicit false
set_option relaxedAutoImplicit false

namespace BlitzedServices.Misc

open Lib

/-- The text behind white space and a sign. -/
def skipSign (s : CString) : CString :=
  let text := s.dropWhile isspace
  if text.head? = some '-' ∨ text.head? = some '+' then text.tail else text

/-- The end pointer of `strtol`: behind the digits, or at the start when there are none. -/
def strtolRest (s : CString) : CString :=
  if (skipSign s).head?.any Char.isDigit then (skipSign s).dropWhile Char.isDigit else s

theorem length_strtolRest_le (s : CString) : (strtolRest s).length ≤ s.length := by
  have htext : (s.dropWhile isspace).length ≤ s.length :=
    (List.dropWhile_suffix isspace).length_le
  have hsign : (skipSign s).length ≤ s.length := by
    rw [skipSign]
    split_ifs
    · rw [List.length_tail]
      omega
    · exact htext
  rw [strtolRest]
  split_ifs
  · exact ((List.dropWhile_suffix Char.isDigit).length_le).trans hsign
  · exact le_rfl

/-- The value of a number in an `int`. -/
def toInt32 (n : ℤ) : ℤ :=
  (BitVec.ofInt 32 n).toInt

/-- The number of seconds in a unit. -/
def unitSeconds (c : Char) : Option ℤ :=
  if c = 's' then some 1
  else if c = 'm' then some 60
  else if c = 'h' then some 3600
  else if c = 'd' then some 86400
  else none

/-- The body of `dotime`, with what it calls itself. -/
def dotimeStep (recur : CString → ℤ) (s : CString) : ℤ :=
  let amount := toInt32 (strtol s)
  match strtolRest s with
  | [] => amount
  | c :: s' =>
    let rest := recur s'
    if rest < 0 then -1
    else
      match unitSeconds c with
      | some seconds => toInt32 (rest + toInt32 (amount * seconds))
      | none => -1

/-- The calls of `dotime` in each other. -/
def dotimeCalls : ℕ → CString → ℤ
  | 0, _ => -1
  | fuel + 1, s => dotimeStep (dotimeCalls fuel) s

/-- `dotime`. Each call has a shorter text. -/
def dotime (s : CString) : ℤ :=
  dotimeCalls (s.length + 1) s

/-- Any number of calls above the length of the text is enough. -/
theorem dotimeCalls_congr {m n : ℕ} {s : CString} (hm : s.length < m) (hn : s.length < n) :
    dotimeCalls m s = dotimeCalls n s := by
  induction m generalizing n s with
  | zero => exact absurd hm (Nat.not_lt_zero _)
  | succ m ih =>
    cases n with
    | zero => exact absurd hn (Nat.not_lt_zero _)
    | succ n =>
      rw [dotimeCalls, dotimeCalls, dotimeStep, dotimeStep]
      have hle := length_strtolRest_le s
      cases hrest : strtolRest s with
      | nil => rfl
      | cons c s' =>
        rw [hrest, List.length_cons] at hle
        dsimp only
        rw [ih (n := n) (by omega) (by omega)]

/-- The recursion of `dotime`. -/
theorem dotime_eq (s : CString) : dotime s = dotimeStep dotime s := by
  rw [dotime, dotimeCalls, dotimeStep, dotimeStep]
  have hle := length_strtolRest_le s
  cases hrest : strtolRest s with
  | nil => rfl
  | cons c s' =>
    rw [hrest, List.length_cons] at hle
    dsimp only
    rw [dotimeCalls_congr (n := s'.length + 1) (by omega) (by omega), ← dotime]

example : dotime "1h30m".toList = 5400 := by decide

end BlitzedServices.Misc
