import BlitzedServices.Lib.CString

/-!
# Strings in a buffer

A buffer is the list of its characters. A string in it starts at a position and goes up to the next
NUL; `strpbrk` looks for a character in it. Writing a NUL over a character cuts the string there and
leaves every string that ended before it as it was.
-/

set_option autoImplicit false
set_option relaxedAutoImplicit false

namespace BlitzedServices.Lib

/-- The character that ends a string. -/
def nul : Char := '\x00'

/-- The string at a position. -/
def strAt (mem : List Char) (p : ℕ) : CString :=
  (mem.drop p).takeWhile (· ≠ nul)

/-- `strpbrk` for a single character: where it stands first. -/
def strpbrk (s : CString) (accept : Char) : Option ℕ :=
  s.findIdx? (· = accept)

/-- `while (isspace(*s)) s++`. -/
def skipSpace (mem : List Char) (s : ℕ) : ℕ :=
  s + ((mem.drop s).takeWhile isspace).length

@[simp] theorem isspace_nul : isspace nul = false := by decide

theorem takeWhile_append_nul {s : CString} (hs : nul ∉ s) (post : List Char) :
    (s ++ nul :: post).takeWhile (· ≠ nul) = s := by
  rw [List.takeWhile_append_of_pos fun c hc ↦ by simpa using ne_of_mem_of_not_mem hc hs]
  simp

/-- The string behind a front of the buffer. -/
theorem strAt_length_append {s : CString} (hs : nul ∉ s) (pre post : List Char) :
    strAt (pre ++ (s ++ nul :: post)) pre.length = s := by
  rw [strAt, List.drop_left, takeWhile_append_nul hs]

/-- No white space is skipped in front of something else. -/
theorem skipSpace_of_not_isspace {mem : List Char} {s : ℕ} {c : Char} (hc : mem[s]? = some c)
    (hspace : isspace c = false) : skipSpace mem s = s := by
  obtain ⟨hs, rfl⟩ := List.getElem?_eq_some_iff.mp hc
  rw [skipSpace, List.drop_eq_getElem_cons hs, List.takeWhile_cons_of_neg (by simp [hspace])]
  rfl

theorem strpbrk_eq_none {s : CString} {accept : Char} (hs : accept ∉ s) :
    strpbrk s accept = none := by
  rw [strpbrk, List.findIdx?_eq_none_iff]
  exact fun c hc ↦ by simpa using ne_of_mem_of_not_mem hc hs

/-- The first occurrence stands behind a front without one. -/
theorem strpbrk_append_cons {s : CString} {accept : Char} (hs : accept ∉ s) (t : CString) :
    strpbrk (s ++ accept :: t) accept = some s.length := by
  have hfront : s.findIdx? (· = accept) = none := strpbrk_eq_none hs
  rw [strpbrk, List.findIdx?_append, hfront, List.findIdx?_cons]
  simp

end BlitzedServices.Lib
