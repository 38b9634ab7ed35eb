import Mathlib

/-!
# Texts read field by field

A scanner that reads one field of a text, skips what is left of it to the next separator and begins again
behind that. `scan` is this loop with a bound on its turns, and `fields` the list of the fields: a separator at
the very end adds none. `scan_eq_foldlM` says that a scanner whose reads do not look behind the separator goes
through the fields one after the other, and is done within as many turns as the text is long.
-/

set_option autoImplicit false
set_option relaxedAutoImplicit false

namespace BlitzedServices.Lib.Separated

variable {α β σ : Type}

/-! ### The end of a field -/

/-- The text is at the end of a field: it is empty or starts with the separator. -/
def AtEnd (sep : α) (b : List α) : Prop :=
  ∀ c ∈ b.head?, c = sep

theorem dropWhile_append_atEnd {sep : α} {p : α → Bool} {a b : List α} (hb : AtEnd sep b) (hsep : p sep = false) :
    (a ++ b).dropWhile p = a.dropWhile p ++ b := by
  have hstop : b.dropWhile p = b := by
    cases b with
    | nil => rfl
    | cons c b => rw [List.dropWhile_cons_of_neg (by simp [hb c rfl, hsep])]
  rw [List.dropWhile_append]
  split_ifs with hall
  · rw [hstop, List.isEmpty_iff.mp hall, List.nil_append]
  · rfl

theorem takeWhile_append_atEnd {sep : α} {p : α → Bool} {a b : List α} (hb : AtEnd sep b) (hsep : p sep = false) :
    (a ++ b).takeWhile p = a.takeWhile p := by
  have hstop : b.takeWhile p = [] := by
    cases b with
    | nil => rfl
    | cons c b => rw [List.takeWhile_cons_of_neg (by simp [hb c rfl, hsep])]
  rw [List.takeWhile_append, hstop, List.append_nil]
  split_ifs with hall
  · exact ((List.takeWhile_prefix p).eq_of_length hall).symm
  · rfl

/-! ### Fields -/

variable [DecidableEq α]

/-- The text before the first separator. -/
def field (sep : α) (s : List α) : List α :=
  s.takeWhile (· != sep)

/-- The text behind the first separator. -/
def behind (sep : α) (s : List α) : List α :=
  (s.dropWhile (· != sep)).tail

/-- The fields of a text. A separator at the end adds none. -/
def fields (sep : α) (s : List α) : List (List α) :=
  let items := s.splitOn sep
  if items.getLast? = some [] then items.dropLast else items

/-- The loop: `read` gives what it makes of the first field and where the next one starts. -/
def scan (read : List α → β × List α) (f : σ → β → Option σ) : ℕ → List α → σ → Option σ
  | _, [], st => some st
  | 0, _ :: _, _ => none
  | fuel + 1, c :: s, st =>
    let (item, rest) := read (c :: s)
    (f st item).bind (scan read f fuel rest)

theorem atEnd_dropWhile (sep : α) (s : List α) : AtEnd sep (s.dropWhile (· != sep)) := by
  intro c hc
  have hnot := List.head?_dropWhile_not (· != sep) s
  rw [Option.mem_def.mp hc] at hnot
  simpa using hnot

/-- A text is its first field and the rest from the separator on. -/
theorem exists_field (sep : α) (s : List α) :
    ∃ b, s = field sep s ++ b ∧ AtEnd sep b ∧ behind sep s = b.tail ∧ sep ∉ field sep s := by
  refine ⟨s.dropWhile (· != sep), List.takeWhile_append_dropWhile.symm, atEnd_dropWhile sep s, rfl, ?_⟩
  intro hmem
  simpa using List.mem_takeWhile_imp hmem

/-! ### The loop -/

theorem fields_nil (sep : α) : fields sep [] = [] := by
  simp [fields]

theorem fields_cons (sep c : α) (s : List α) :
    fields sep (c :: s) = field sep (c :: s) :: fields sep (behind sep (c :: s)) := by
  rcases exists_field sep (c :: s) with ⟨b, htext, hend, hbehind, hnot⟩
  rw [hbehind]
  cases b with
  | nil =>
    have hself : field sep (c :: s) = c :: s := by simpa using htext.symm
    rw [hself] at hnot ⊢
    have hne : ([c :: s] : List (List α)).getLast? ≠ some [] := by simp
    rw [List.tail_nil, fields_nil, fields, List.splitOn_eq_singleton hnot, if_neg hne]
  | cons d b =>
    rcases hend d rfl with rfl
    generalize hitem : field d (c :: s) = item at htext hnot ⊢
    have hlast : (item :: b.splitOn d).getLast? = (b.splitOn d).getLast? := by
      rw [List.getLast?_cons]
      cases hrest : (b.splitOn d).getLast? with
      | none => exact absurd (List.getLast?_eq_none_iff.mp hrest) (List.splitOn_ne_nil d b)
      | some x => rfl
    have hdrop : (item :: b.splitOn d).dropLast = item :: (b.splitOn d).dropLast :=
      List.dropLast_cons_of_ne_nil (List.splitOn_ne_nil d b)
    rw [htext, List.tail_cons, fields, List.splitOn_append_cons_self_of_not_mem hnot]
    simp only [hlast, hdrop, fields]
    split_ifs <;> rfl

theorem length_behind_lt (sep c : α) (s : List α) : (behind sep (c :: s)).length < (c :: s).length := by
  have hle := (List.dropWhile_suffix (fun d ↦ d != sep) (l := c :: s)).length_le
  rw [behind, List.length_tail]
  simp only [List.length_cons] at hle ⊢
  omega

/-- The scan goes through the fields in their order. -/
theorem scan_eq_foldlM {sep : α} {read : List α → β × List α} {g : List α → β}
    (hread : ∀ s, read s = (g (field sep s), behind sep s)) (f : σ → β → Option σ) (fuel : ℕ) (s : List α)
    (st : σ) (hfuel : s.length ≤ fuel) :
    scan read f fuel s st = ((fields sep s).map g).foldlM f st := by
  induction fuel generalizing s st with
  | zero =>
    rw [List.eq_nil_of_length_eq_zero (Nat.le_zero.mp hfuel), fields_nil]
    rfl
  | succ fuel ih =>
    cases s with
    | nil =>
      rw [fields_nil]
      rfl
    | cons c s =>
      have hlt := length_behind_lt sep c s
      rw [scan, hread, fields_cons, List.map_cons, List.foldlM_cons]
      show (f st _).bind _ = (f st _).bind _
      congr 1
      funext st'
      exact ih (behind sep (c :: s)) st' (by omega)

end BlitzedServices.Lib.Separated
