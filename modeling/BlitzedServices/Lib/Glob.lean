import BlitzedServices.Lib.CString

/-!
# Globs

What it means for a text to match a pattern: `*` stands for any text, `?` for any one character and
every other character for itself. The lemmas read the first character of a pattern, and
`GlobMatch.length_literal_le` bounds the length of a match by that of the pattern without its stars.
-/

set_option autoImplicit false
set_option relaxedAutoImplicit false

namespace BlitzedServices.Lib

/-- The text matches the pattern. -/
inductive GlobMatch : CString → CString → Prop
  | nil : GlobMatch [] []
  | any (c : Char) {p s : CString} : GlobMatch p s → GlobMatch ('?' :: p) (c :: s)
  | star (t : CString) {p s : CString} : GlobMatch p s → GlobMatch ('*' :: p) (t ++ s)
  | literal {c : Char} {p s : CString} : c ≠ '?' → c ≠ '*' → GlobMatch p s →
      GlobMatch (c :: p) (c :: s)

/-- A character that stands for something other than itself. -/
def isWild (c : Char) : Bool :=
  c == '?' || c == '*'

theorem isWild_iff {c : Char} : isWild c = true ↔ c = '?' ∨ c = '*' := by
  simp [isWild]

theorem isWild_eq_false_iff {c : Char} : isWild c = false ↔ c ≠ '?' ∧ c ≠ '*' := by
  simp [isWild]

theorem globMatch_nil_iff {s : CString} : GlobMatch [] s ↔ s = [] := by
  constructor
  · rintro ⟨⟩
    rfl
  · rintro rfl
    exact .nil

theorem globMatch_any_iff {p s : CString} :
    GlobMatch ('?' :: p) s ↔ ∃ c t, s = c :: t ∧ GlobMatch p t := by
  constructor
  · intro h
    cases h with
    | any c h => exact ⟨c, _, rfl, h⟩
    | literal hany _ _ => exact absurd rfl hany
  · rintro ⟨c, t, rfl, h⟩
    exact .any c h

theorem globMatch_literal_iff {c : Char} (hc : isWild c = false) {p s : CString} :
    GlobMatch (c :: p) s ↔ ∃ t, s = c :: t ∧ GlobMatch p t := by
  obtain ⟨hany, hstar⟩ := isWild_eq_false_iff.mp hc
  constructor
  · intro h
    cases h with
    | any c h => exact absurd rfl hany
    | star t h => exact absurd rfl hstar
    | literal _ _ h => exact ⟨_, rfl, h⟩
  · rintro ⟨t, rfl, h⟩
    exact .literal hany hstar h

theorem globMatch_star_iff {p s : CString} :
    GlobMatch ('*' :: p) s ↔ ∃ t, t <:+ s ∧ GlobMatch p t := by
  constructor
  · intro h
    cases h with
    | star t h => exact ⟨_, List.suffix_append t _, h⟩
    | literal _ hstar _ => exact absurd rfl hstar
  · rintro ⟨t, ⟨u, rfl⟩, h⟩
    exact .star u h

/-- A star also takes what stands before its match. -/
theorem GlobMatch.star_of_suffix {p s t : CString} (h : GlobMatch ('*' :: p) t) (ht : t <:+ s) :
    GlobMatch ('*' :: p) s := by
  obtain ⟨u, hu, hp⟩ := globMatch_star_iff.mp h
  exact globMatch_star_iff.mpr ⟨u, hu.trans ht, hp⟩

/-- A star after question marks takes what stands before their match. -/
theorem GlobMatch.of_suffix {p s t : CString} (n : ℕ)
    (h : GlobMatch (List.replicate n '?' ++ '*' :: p) t) (ht : t <:+ s) :
    GlobMatch (List.replicate n '?' ++ '*' :: p) s := by
  induction n generalizing s t with
  | zero => exact h.star_of_suffix ht
  | succ n ih =>
    rw [List.replicate_succ, List.cons_append] at h ⊢
    obtain ⟨c, t, rfl, hp⟩ := globMatch_any_iff.mp h
    obtain ⟨u, rfl⟩ := ht
    cases u with
    | nil => exact .any c hp
    | cons d u => exact .any d (ih hp ⟨u ++ [c], by simp⟩)

/-- One text that matches: question marks and literals stand, stars are left out. -/
def globLiteral (fill : Char) (p : CString) : CString :=
  (p.filter (· ≠ '*')).map fun c ↦ if c = '?' then fill else c

theorem globMatch_globLiteral (fill : Char) (p : CString) : GlobMatch p (globLiteral fill p) := by
  induction p with
  | nil => exact .nil
  | cons c p ih =>
    by_cases hstar : c = '*'
    · subst hstar
      exact globMatch_star_iff.mpr ⟨_, List.suffix_rfl, ih⟩
    · by_cases hany : c = '?'
      · subst hany
        exact .any fill ih
      · have hcons : globLiteral fill (c :: p) = c :: globLiteral fill p := by
          simp [globLiteral, hstar, hany]
        rw [hcons]
        exact .literal hany hstar ih

/-- No match is shorter than the pattern without its stars. -/
theorem GlobMatch.length_literal_le {p s : CString} (h : GlobMatch p s) (fill : Char) :
    (globLiteral fill p).length ≤ s.length := by
  unfold globLiteral
  rw [List.length_map]
  induction h with
  | nil => simp
  | any c _ ih => simpa using ih
  | star t _ ih => simpa using le_trans ih (Nat.le_add_left _ t.length)
  | literal _ hstar _ ih => simpa [hstar] using ih

theorem isWild_globLiteral {fill : Char} (hfill : isWild fill = false) (p : CString) :
    ∀ c ∈ globLiteral fill p, isWild c = false := by
  intro c hc
  obtain ⟨d, hd, rfl⟩ := List.mem_map.mp hc
  have hstar : d ≠ '*' := by simpa using (List.mem_filter.mp hd).2
  split
  · exact hfill
  · next hany => exact isWild_eq_false_iff.mpr ⟨hany, hstar⟩

/-- Wild characters match as many characters as there are question marks. -/
theorem globMatch_wild {gap p s : CString} (hgap : ∀ c ∈ gap, isWild c = true) (fill : Char)
    (h : GlobMatch p s) :
    GlobMatch (gap ++ p) (List.replicate (gap.count '?') fill ++ s) := by
  induction gap with
  | nil => exact h
  | cons c gap ih =>
    have ih := ih fun d hd ↦ hgap d (List.mem_cons_of_mem _ hd)
    obtain rfl | rfl := isWild_iff.mp (hgap c (List.mem_cons_self ..))
    · rw [List.count_cons_self, List.replicate_succ]
      exact .any fill ih
    · rw [List.count_cons_of_ne (by decide)]
      exact globMatch_star_iff.mpr ⟨_, List.suffix_rfl, ih⟩

/-- With a star among them they match one more. -/
theorem globMatch_wild_succ {gap p s : CString} (hgap : ∀ c ∈ gap, isWild c = true)
    (hstar : '*' ∈ gap) (fill : Char) (h : GlobMatch p s) :
    GlobMatch (gap ++ p) (List.replicate (gap.count '?' + 1) fill ++ s) := by
  induction gap with
  | nil => cases hstar
  | cons c gap ih =>
    have htail : ∀ d ∈ gap, isWild d = true := fun d hd ↦ hgap d (List.mem_cons_of_mem _ hd)
    obtain rfl | rfl := isWild_iff.mp (hgap c (List.mem_cons_self ..))
    · rw [List.count_cons_self, List.replicate_succ]
      have hstar : '*' ∈ gap := (List.mem_cons.mp hstar).resolve_left (by decide)
      exact .any fill (ih htail hstar)
    · rw [List.count_cons_of_ne (by decide), List.replicate_succ]
      exact .star [fill] (globMatch_wild htail fill h)

end BlitzedServices.Lib
