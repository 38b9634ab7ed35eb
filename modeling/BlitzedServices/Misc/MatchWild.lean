import BlitzedServices.Lib.Glob

/-!
# Wildcard matching

`do_match_wild` and its copy in the MySQL library. A `*` looks for the places where the text goes on
as the pattern does, by comparing the next characters; before a `?` that finds only a `?` in the text,
and otherwise the star matches nothing. `matchesAsGlob_iff` gives the patterns for which that makes
no difference to what a glob matches: those where no star is lost in this way, because a question
mark that follows a star directly is followed by another star.
-/

set_option autoImplicit false
set_option relaxedAutoImplicit false

namespace BlitzedServices.Misc

open Lib

/-! ### The matcher -/

/-- The comparison of two characters. -/
def sameChar (docase : Bool) (a b : Char) : Bool :=
  if docase then a == b else a.toLower == b.toLower

/-- The text and the pattern go on with the same character. -/
def startsAlike (docase : Bool) (str pattern : CString) : Bool :=
  match str, pattern with
  | a :: _, b :: _ => sameChar docase a b
  | _, _ => false

/-- `do_match_wild`: one character of the pattern is one round of the loop, and after a star the
suffixes of the text are tried before the loop goes on. -/
def doMatchWild (docase : Bool) : CString → CString → Bool
  | [], str => str.isEmpty
  | c :: pattern, str =>
    if c = '?' then
      match str with
      | [] => false
      | _ :: str => doMatchWild docase pattern str
    else if c = '*' then
      pattern.isEmpty ||
        (str.tails.any fun s ↦ startsAlike docase s pattern && doMatchWild docase pattern s) ||
        doMatchWild docase pattern str
    else
      match str with
      | [] => false
      | a :: str => sameChar docase a c && doMatchWild docase pattern str

/-- `match_wild`. -/
def matchWild (pattern str : CString) : Bool :=
  doMatchWild true pattern str

/-- `match_wild_nocase`. -/
def matchWildNocase (pattern str : CString) : Bool :=
  doMatchWild false pattern str

/-- `do_match_wild` of the MySQL library. -/
def udfDoMatchWild (docase : Bool) : CString → CString → Bool
  | [], str => str.isEmpty
  | c :: pattern, str =>
    if c = '?' then
      match str with
      | [] => false
      | _ :: str => udfDoMatchWild docase pattern str
    else if c = '*' then
      pattern.isEmpty ||
        (str.tails.any fun s ↦ startsAlike docase s pattern && udfDoMatchWild docase pattern s) ||
        udfDoMatchWild docase pattern str
    else
      match str with
      | [] => false
      | a :: str => sameChar docase a c && udfDoMatchWild docase pattern str

/-- `irc_match`: a third argument other than 0 asks for equal case. -/
def ircMatch (pattern str : CString) (third : Option ℤ) : Bool :=
  udfDoMatchWild (third.any (· ≠ 0)) pattern str

/-- The copy computes the same. -/
theorem udfDoMatchWild_eq (docase : Bool) (pattern str : CString) :
    udfDoMatchWild docase pattern str = doMatchWild docase pattern str := by
  induction pattern generalizing str with
  | nil => rfl
  | cons c pattern ih => simp only [udfDoMatchWild, doMatchWild, ih]

/-- A question mark right after a star is not followed by another star. -/
def starLost : CString → Bool
  | [] => false
  | c :: pattern =>
    (c == '*' && pattern.head? == some '?' &&
      (pattern.dropWhile (· == '?')).head? != some '*') || starLost pattern

/-- The matchers agree with the glob relation for a pattern, on every text. -/
structure MatchesAsGlob (pattern : CString) : Prop where
  matchWild : ∀ str, matchWild pattern str = true ↔ GlobMatch pattern str
  matchWildNocase : ∀ str, matchWildNocase pattern str = true ↔
    GlobMatch (pattern.map Char.toLower) (str.map Char.toLower)
  ircMatch : ∀ str third, ircMatch pattern str third =
    if third.any (· ≠ 0) then Misc.matchWild pattern str else Misc.matchWildNocase pattern str

/-! ### One round -/

theorem doMatchWild_nil {docase : Bool} {str : CString} :
    doMatchWild docase [] str = true ↔ str = [] := by
  simp [doMatchWild]

theorem doMatchWild_any {docase : Bool} {pattern str : CString} :
    doMatchWild docase ('?' :: pattern) str = true ↔
      ∃ a t, str = a :: t ∧ doMatchWild docase pattern t = true := by
  cases str with
  | nil => simp [doMatchWild]
  | cons a t => simp [doMatchWild]

theorem doMatchWild_literal {docase : Bool} {c : Char} (hc : isWild c = false)
    {pattern str : CString} :
    doMatchWild docase (c :: pattern) str = true ↔
      ∃ a t, str = a :: t ∧ sameChar docase a c = true ∧ doMatchWild docase pattern t = true := by
  obtain ⟨hany, hstar⟩ := isWild_eq_false_iff.mp hc
  cases str with
  | nil => simp [doMatchWild, hany, hstar]
  | cons a t => simp [doMatchWild, hany, hstar]

theorem doMatchWild_star {docase : Bool} {pattern str : CString} (hpattern : pattern ≠ []) :
    doMatchWild docase ('*' :: pattern) str = true ↔
      (∃ t, t <:+ str ∧ startsAlike docase t pattern = true ∧
        doMatchWild docase pattern t = true) ∨ doMatchWild docase pattern str = true := by
  simp [doMatchWild, hpattern]

theorem doMatchWild_star_nil {docase : Bool} {str : CString} :
    doMatchWild docase ['*'] str = true := by
  simp [doMatchWild]

/-! ### What is found matches -/

theorem globMatch_of_matchWild {pattern str : CString} (h : doMatchWild true pattern str = true) :
    GlobMatch pattern str := by
  induction pattern generalizing str with
  | nil => exact globMatch_nil_iff.mpr (doMatchWild_nil.mp h)
  | cons c pattern ih =>
    by_cases hany : c = '?'
    · subst hany
      obtain ⟨a, t, rfl, h⟩ := doMatchWild_any.mp h
      exact .any a (ih h)
    by_cases hstar : c = '*'
    · subst hstar
      by_cases hnil : pattern = []
      · subst hnil
        exact globMatch_star_iff.mpr ⟨[], List.nil_suffix, .nil⟩
      · obtain ⟨t, ht, -, h⟩ | h := (doMatchWild_star hnil).mp h
        · exact globMatch_star_iff.mpr ⟨t, ht, ih h⟩
        · exact globMatch_star_iff.mpr ⟨str, List.suffix_rfl, ih h⟩
    · have hc := isWild_eq_false_iff.mpr ⟨hany, hstar⟩
      obtain ⟨a, t, rfl, hsame, hp⟩ := (doMatchWild_literal hc).mp h
      obtain rfl : a = c := by simpa [sameChar] using hsame
      exact .literal hany hstar (ih hp)

/-! ### Patterns that lose no star -/

/-- A pattern after a star that begins with a question mark goes on to another star. -/
theorem exists_replicate_star {pattern : CString} (h : starLost ('*' :: pattern) = false)
    (hany : pattern.head? = some '?') :
    ∃ n rest, pattern = List.replicate n '?' ++ '*' :: rest := by
  have hhead : (pattern.dropWhile (· == '?')).head? = some '*' := by
    by_contra hne
    simp [starLost, hany, hne] at h
  refine ⟨(pattern.takeWhile (· == '?')).length, (pattern.dropWhile (· == '?')).tail, ?_⟩
  have htake : pattern.takeWhile (· == '?') =
      List.replicate (pattern.takeWhile (· == '?')).length '?' :=
    List.eq_replicate_iff.mpr ⟨rfl, fun c hc ↦ by simpa using List.mem_takeWhile_imp hc⟩
  rw [← htake, ← List.eq_cons_of_mem_head? hhead, List.takeWhile_append_dropWhile]

theorem matchWild_of_globMatch {pattern str : CString} (hlost : starLost pattern = false)
    (h : GlobMatch pattern str) : doMatchWild true pattern str = true := by
  induction pattern generalizing str with
  | nil => exact doMatchWild_nil.mpr (globMatch_nil_iff.mp h)
  | cons c pattern ih =>
    have htail : starLost pattern = false := (Bool.or_eq_false_iff.mp hlost).2
    by_cases hany : c = '?'
    · subst hany
      obtain ⟨a, t, rfl, hp⟩ := globMatch_any_iff.mp h
      exact doMatchWild_any.mpr ⟨a, t, rfl, ih htail hp⟩
    by_cases hstar : c = '*'
    · subst hstar
      by_cases hnil : pattern = []
      · rw [hnil, doMatchWild_star_nil]
      rw [doMatchWild_star hnil]
      obtain ⟨t, ht, h⟩ := globMatch_star_iff.mp h
      obtain ⟨d, rest, rfl⟩ := List.exists_cons_of_ne_nil hnil
      -- what follows the star decides whether the suffix is found or the star is empty
      by_cases hany : d = '?'
      · subst hany
        obtain ⟨n, rest', hrest⟩ := exists_replicate_star hlost rfl
        rw [hrest] at h ih htail ⊢
        exact Or.inr (ih htail (h.of_suffix n ht))
      by_cases hstar : d = '*'
      · subst hstar
        exact Or.inr (ih htail (h.star_of_suffix ht))
      · have hd := isWild_eq_false_iff.mpr ⟨hany, hstar⟩
        obtain ⟨u, rfl, -⟩ := (globMatch_literal_iff hd).mp h
        exact Or.inl ⟨d :: u, ht, by simp [startsAlike, sameChar], ih htail h⟩
    · have hc := isWild_eq_false_iff.mpr ⟨hany, hstar⟩
      obtain ⟨t, rfl, hp⟩ := (globMatch_literal_iff hc).mp h
      exact (doMatchWild_literal hc).mpr ⟨c, t, rfl, by simp [sameChar], ih htail hp⟩

/-! ### A lost star loses a match -/

/-- On a text without wild characters a star before a wild character matches nothing. -/
theorem doMatchWild_wild_iff {gap pattern str : CString} (hgap : ∀ c ∈ gap, isWild c = true)
    (hlast : gap.getLast? ≠ some '*') (hstr : ∀ c ∈ str, isWild c = false) :
    doMatchWild true (gap ++ pattern) str = true ↔
      gap.count '?' ≤ str.length ∧ doMatchWild true pattern (str.drop (gap.count '?')) = true := by
  induction gap generalizing str with
  | nil => simp
  | cons c gap ih =>
    have htail : ∀ d ∈ gap, isWild d = true := fun d hd ↦ hgap d (List.mem_cons_of_mem _ hd)
    obtain rfl | rfl := isWild_iff.mp (hgap c (List.mem_cons_self ..))
    · have hlast' : gap.getLast? ≠ some '*' := by
        cases gap with
        | nil => simp
        | cons d gap => simpa [List.getLast?_cons_cons] using hlast
      rw [List.cons_append, doMatchWild_any, List.count_cons_self]
      constructor
      · rintro ⟨a, t, rfl, h⟩
        obtain ⟨hle, h⟩ := (ih htail hlast' fun d hd ↦ hstr d (List.mem_cons_of_mem _ hd)).mp h
        exact ⟨by simpa using hle, by simpa using h⟩
      · rintro ⟨hle, h⟩
        cases str with
        | nil => simp at hle
        | cons a t =>
          refine ⟨a, t, rfl, ?_⟩
          refine (ih htail hlast' fun d hd ↦ hstr d (List.mem_cons_of_mem _ hd)).mpr ?_
          exact ⟨by simpa using hle, by simpa using h⟩
    · cases gap with
      | nil => simp at hlast
      | cons d gap =>
        have hlast' : (d :: gap).getLast? ≠ some '*' := by
          simpa [List.getLast?_cons_cons] using hlast
        have hd : isWild d = true := hgap d (by simp)
        rw [List.cons_append, doMatchWild_star (by simp), List.count_cons_of_ne (by decide),
          ← ih htail hlast' hstr, or_iff_right]
        rintro ⟨t, ht, halike, -⟩
        cases t with
        | nil => simp [startsAlike] at halike
        | cons a t =>
          obtain rfl : a = d := by simpa [startsAlike, sameChar] using halike
          have ha := hstr a (ht.subset (List.mem_cons_self ..))
          rw [hd] at ha
          cases ha

/-- A character other than two given ones and the wild ones. -/
theorem exists_fresh (c d : Char) : ∃ x, x ≠ c ∧ x ≠ d ∧ isWild x = false := by
  by_cases ha : 'a' ≠ c ∧ 'a' ≠ d
  · exact ⟨'a', ha.1, ha.2, by decide⟩
  by_cases hb : 'b' ≠ c ∧ 'b' ≠ d
  · exact ⟨'b', hb.1, hb.2, by decide⟩
  refine ⟨'e', ?_, ?_, by decide⟩
  · rintro rfl
    simp only [ne_eq, Char.reduceEq, not_false_eq_true, true_and, not_not] at ha hb
    exact absurd (ha.trans hb.symm) (by decide)
  · rintro rfl
    simp only [ne_eq, Char.reduceEq, not_false_eq_true, and_true, not_not] at ha hb
    exact absurd (ha.trans hb.symm) (by decide)

/-- A text that matches the pattern and of which the matcher accepts no suffix. -/
structure Escapes (pattern str : CString) : Prop where
  globMatch : GlobMatch pattern str
  plain : ∀ c ∈ str, isWild c = false
  refused : ∀ t, t <:+ str → doMatchWild true pattern t = false

/-- A pattern with a lost star: wild characters, one of them a star and the last a question mark, up
to a literal or the end. -/
structure OpensGap (pattern gap rest : CString) : Prop where
  eq : pattern = gap ++ rest
  wild : ∀ c ∈ gap, isWild c = true
  star : '*' ∈ gap
  last : gap.getLast? ≠ some '*'
  rest : ∀ c ∈ rest.head?, isWild c = false

/-- One character too many before the rest is not accepted. -/
theorem OpensGap.refused {pattern gap rest : CString} (h : OpensGap pattern gap rest) {x : Char}
    (hx : isWild x = false) (hne : ∀ d ∈ rest.head?, x ≠ d) :
    doMatchWild true pattern
      (List.replicate (gap.count '?' + 1) x ++ globLiteral x rest) = false := by
  have hplain : ∀ c ∈ List.replicate (gap.count '?' + 1) x ++ globLiteral x rest,
      isWild c = false := by
    intro c hc
    obtain hc | hc := List.mem_append.mp hc
    · rwa [List.eq_of_mem_replicate hc]
    · exact isWild_globLiteral hx rest c hc
  rw [h.eq, Bool.eq_false_iff, ne_eq, doMatchWild_wild_iff h.wild h.last hplain, not_and]
  intro _ hrest
  have hdrop : (List.replicate (gap.count '?' + 1) x ++ globLiteral x rest).drop (gap.count '?') =
      x :: globLiteral x rest := by
    rw [List.replicate_succ', List.append_assoc, List.drop_left' (List.length_replicate ..)]
    rfl
  rw [hdrop] at hrest
  cases rest with
  | nil => cases doMatchWild_nil.mp hrest
  | cons d rest =>
    obtain ⟨a, t, heq, hsame, -⟩ := (doMatchWild_literal (h.rest d rfl)).mp hrest
    rw [List.cons.injEq] at heq
    rw [← heq.1] at hsame
    exact hne d rfl (by simpa [sameChar] using hsame)

/-- After a literal the text that shows a lost star has no accepted suffix either. -/
theorem OpensGap.escapes {pattern gap rest : CString} (h : OpensGap pattern gap rest) {c : Char}
    (hc : isWild c = false) : ∃ str, Escapes (c :: pattern) str := by
  obtain ⟨x, hxc, hxd, hx⟩ := exists_fresh c (rest.head?.getD 'a')
  have hne : ∀ d ∈ rest.head?, x ≠ d := by
    intro d hd
    rw [Option.mem_def.mp hd, Option.getD_some] at hxd
    exact hxd
  obtain ⟨hany, hstar⟩ := isWild_eq_false_iff.mp hc
  have hmatch : GlobMatch pattern (List.replicate (gap.count '?' + 1) x ++ globLiteral x rest) :=
    h.eq ▸ globMatch_wild_succ h.wild h.star x (globMatch_globLiteral x rest)
  have hplain : ∀ d ∈ List.replicate (gap.count '?' + 1) x ++ globLiteral x rest,
      isWild d = false := by
    intro d hd
    obtain hd | hd := List.mem_append.mp hd
    · rwa [List.eq_of_mem_replicate hd]
    · exact isWild_globLiteral hx rest d hd
  refine ⟨c :: (List.replicate (gap.count '?' + 1) x ++ globLiteral x rest),
    .literal hany hstar hmatch, ?_, ?_⟩
  · intro d hd
    obtain rfl | hd := List.mem_cons.mp hd
    · exact hc
    · exact hplain d hd
  · intro t ht
    rw [Bool.eq_false_iff]
    intro haccept
    obtain ⟨a, u, rfl, hsame, hu⟩ := (doMatchWild_literal hc).mp haccept
    obtain rfl : a = c := by simpa [sameChar] using hsame
    obtain heq | ht := List.suffix_cons_iff.mp ht
    · rw [List.cons.injEq] at heq
      rw [heq.2, h.refused hx hne] at hu
      cases hu
    -- a proper suffix that is accepted is as long as the whole text after `c`, and starts with `x`
    · have hu' : ∀ d ∈ u, isWild d = false :=
        fun d hd ↦ hplain d (ht.subset (List.mem_cons_of_mem _ hd))
      rw [h.eq, doMatchWild_wild_iff h.wild h.last hu'] at hu
      have hlength := (globMatch_of_matchWild hu.2).length_literal_le x
      rw [List.length_drop] at hlength
      have heq : a :: u = List.replicate (gap.count '?' + 1) x ++ globLiteral x rest := by
        refine ht.eq_of_length_le ?_
        simp only [List.length_append, List.length_replicate, List.length_cons]
        omega
      rw [List.replicate_succ, List.cons_append, List.cons.injEq] at heq
      exact hxc heq.1.symm

/-- A text without an accepted suffix stays one when the pattern grows at the front. -/
theorem Escapes.cons {pattern str : CString} (h : Escapes pattern str) (c : Char) :
    ∃ str', Escapes (c :: pattern) str' := by
  by_cases hstar : c = '*'
  · subst hstar
    have hnil : pattern ≠ [] := by
      rintro rfl
      have := h.refused str List.suffix_rfl
      rw [globMatch_nil_iff.mp h.globMatch] at this
      cases this
    refine ⟨str, globMatch_star_iff.mpr ⟨str, List.suffix_rfl, h.globMatch⟩, h.plain, ?_⟩
    intro t ht
    rw [Bool.eq_false_iff, ne_eq, doMatchWild_star hnil, not_or]
    refine ⟨?_, by rw [h.refused t ht]; simp⟩
    rintro ⟨u, hu, -, haccept⟩
    rw [h.refused u (hu.trans ht)] at haccept
    cases haccept
  by_cases hany : c = '?'
  · subst hany
    refine ⟨'a' :: str, .any 'a' h.globMatch, ?_, ?_⟩
    · intro d hd
      obtain rfl | hd := List.mem_cons.mp hd
      · decide
      · exact h.plain d hd
    · intro t ht
      rw [Bool.eq_false_iff]
      intro haccept
      obtain ⟨a, u, rfl, hu⟩ := doMatchWild_any.mp haccept
      have hsuffix : u <:+ str := by
        obtain heq | ht := List.suffix_cons_iff.mp ht
        · exact (List.cons.inj heq).2 ▸ List.suffix_rfl
        · exact (List.suffix_cons a u).trans ht
      rw [h.refused u hsuffix] at hu
      cases hu
  · have hc := isWild_eq_false_iff.mpr ⟨hany, hstar⟩
    refine ⟨c :: str, .literal hany hstar h.globMatch, ?_, ?_⟩
    · intro d hd
      obtain rfl | hd := List.mem_cons.mp hd
      · exact hc
      · exact h.plain d hd
    · intro t ht
      rw [Bool.eq_false_iff]
      intro haccept
      obtain ⟨a, u, rfl, -, hu⟩ := (doMatchWild_literal hc).mp haccept
      have hsuffix : u <:+ str := by
        obtain heq | ht := List.suffix_cons_iff.mp ht
        · exact (List.cons.inj heq).2 ▸ List.suffix_rfl
        · exact (List.suffix_cons a u).trans ht
      rw [h.refused u hsuffix] at hu
      cases hu

/-- Either the pattern opens the gap itself or the text that shows the lost star is there. -/
theorem exists_gap_or_escapes {pattern : CString} (h : starLost pattern = true) :
    (∃ gap rest, OpensGap pattern gap rest) ∨ ∃ str, Escapes pattern str := by
  induction pattern with
  | nil => cases h
  | cons c pattern ih =>
    by_cases htail : starLost pattern = true
    · obtain ⟨gap, rest, hgap⟩ | ⟨str, hstr⟩ := ih htail
      · by_cases hc : isWild c = true
        · refine Or.inl ⟨c :: gap, rest, by rw [hgap.eq, List.cons_append], ?_, ?_, ?_, hgap.rest⟩
          · intro d hd
            obtain rfl | hd := List.mem_cons.mp hd
            · exact hc
            · exact hgap.wild d hd
          · exact List.mem_cons_of_mem _ hgap.star
          · rw [List.getLast?_cons, List.getLast?_eq_some_getLast (List.ne_nil_of_mem hgap.star)]
            rw [Option.getD_some, ← List.getLast?_eq_some_getLast]
            exact hgap.last
        · exact Or.inr (hgap.escapes (Bool.not_eq_true _ ▸ hc))
      · exact Or.inr (hstr.cons c)
    -- this star is the lost one
    · simp only [starLost, htail, Bool.or_false, Bool.and_eq_true, beq_iff_eq, bne_iff_ne] at h
      obtain ⟨⟨rfl, hany⟩, hhead⟩ := h
      have htake : pattern.takeWhile (· == '?') ≠ [] := by
        obtain ⟨t, rfl⟩ : ∃ t, pattern = '?' :: t := ⟨_, List.eq_cons_of_mem_head? hany⟩
        simp
      have hmem : ∀ d ∈ pattern.takeWhile (· == '?'), d = '?' :=
        fun d hd ↦ by simpa using List.mem_takeWhile_imp hd
      refine Or.inl ⟨'*' :: pattern.takeWhile (· == '?'), pattern.dropWhile (· == '?'), ?_, ?_,
        List.mem_cons_self .., ?_, ?_⟩
      · rw [List.cons_append, List.takeWhile_append_dropWhile]
      · intro d hd
        obtain rfl | hd := List.mem_cons.mp hd
        · decide
        · rw [hmem d hd]
          decide
      · rw [List.getLast?_cons, List.getLast?_eq_some_getLast htake, Option.getD_some,
          hmem _ (List.getLast_mem htake)]
        decide
      · intro d hd
        refine isWild_eq_false_iff.mpr ⟨?_, ?_⟩
        · rintro rfl
          have hne := List.head?_dropWhile_not (· == '?') pattern
          rw [Option.mem_def.mp hd] at hne
          simp at hne
        · rintro rfl
          exact hhead hd

/-- A lost star loses a match. -/
theorem exists_lost {pattern : CString} (h : starLost pattern = true) :
    ∃ str, GlobMatch pattern str ∧ matchWild pattern str = false := by
  obtain ⟨gap, rest, hgap⟩ | ⟨str, hstr⟩ := exists_gap_or_escapes h
  · obtain ⟨x, hxd, -, hx⟩ := exists_fresh (rest.head?.getD 'a') 'a'
    have hne : ∀ d ∈ rest.head?, x ≠ d := by
      intro d hd
      rw [Option.mem_def.mp hd, Option.getD_some] at hxd
      exact hxd
    refine ⟨List.replicate (gap.count '?' + 1) x ++ globLiteral x rest, ?_, hgap.refused hx hne⟩
    exact hgap.eq ▸ globMatch_wild_succ hgap.wild hgap.star x (globMatch_globLiteral x rest)
  · exact ⟨str, hstr.globMatch, hstr.refused str List.suffix_rfl⟩

/-! ### Without regard to case -/

/-- Lowering reaches no wild character from another one. -/
theorem toLower_eq_iff {c w : Char} (hw : isWild w = true) : c.toLower = w ↔ c = w := by
  have hwild : w.toLower = w ∧ w.isLower = false := by
    rcases isWild_iff.mp hw with rfl | rfl <;> decide
  constructor
  · rintro rfl
    by_cases hupper : c.isUpper = true
    · rw [Char.isLower_toLower_eq_isAlpha, Char.isAlpha, hupper] at hwild
      cases hwild.2
    · rw [Char.toLower_eq_of_not_isUpper hupper]
  · rintro rfl
    exact hwild.1

theorem startsAlike_map {str pattern : CString} :
    startsAlike true (str.map Char.toLower) (pattern.map Char.toLower) =
      startsAlike false str pattern := by
  cases str with
  | nil => rfl
  | cons a t => cases pattern <;> rfl

/-- Without regard to case the matcher does what it does on the lowered pattern and text. -/
theorem doMatchWild_map (pattern str : CString) :
    doMatchWild true (pattern.map Char.toLower) (str.map Char.toLower) =
      doMatchWild false pattern str := by
  induction pattern generalizing str with
  | nil => simp [doMatchWild]
  | cons c pattern ih =>
    have hany : c.toLower = '?' ↔ c = '?' := toLower_eq_iff rfl
    have hstar : c.toLower = '*' ↔ c = '*' := toLower_eq_iff rfl
    have htails : (str.map Char.toLower).tails = str.tails.map (List.map Char.toLower) :=
      List.map_tails Char.toLower
    simp only [List.map_cons, doMatchWild, hany, hstar, htails, List.any_map, Function.comp_def,
      startsAlike_map, ih, List.isEmpty_map]
    cases str with
    | nil => rfl
    | cons a t => simp only [List.map_cons, sameChar, ih]; rfl

/-- A star is lost in a pattern whatever the case of its letters. -/
theorem starLost_map (pattern : CString) :
    starLost (pattern.map Char.toLower) = starLost pattern := by
  induction pattern with
  | nil => rfl
  | cons c pattern ih =>
    have hstar : (c.toLower == '*') = (c == '*') := by
      rw [Bool.eq_iff_iff, beq_iff_eq, beq_iff_eq, toLower_eq_iff rfl]
    have hany : ((· == '?') ∘ Char.toLower) = (· == '?') := by
      ext d
      show (d.toLower == '?') = (d == '?')
      rw [Bool.eq_iff_iff, beq_iff_eq, beq_iff_eq, toLower_eq_iff rfl]
    have hhead (w : Char) (hw : isWild w = true) (p : CString) :
        (p.map Char.toLower).head? = some w ↔ p.head? = some w := by
      cases p with
      | nil => simp
      | cons d p => simp [toLower_eq_iff hw]
    simp only [List.map_cons, starLost, ih, hstar, List.dropWhile_map, hany]
    congr 2
    · congr 1
      rw [Bool.eq_iff_iff, beq_iff_eq, beq_iff_eq, hhead '?' rfl]
    · rw [Bool.eq_iff_iff, bne_iff_ne, bne_iff_ne, ne_eq, ne_eq, hhead '*' rfl]

/-! ### The patterns that are read as globs -/

theorem matchWild_iff {pattern : CString} (hlost : starLost pattern = false) (str : CString) :
    doMatchWild true pattern str = true ↔ GlobMatch pattern str :=
  ⟨globMatch_of_matchWild, matchWild_of_globMatch hlost⟩

/-- The matchers read a pattern as a glob exactly when none of its stars is lost. -/
theorem matchesAsGlob_iff (pattern : CString) :
    MatchesAsGlob pattern ↔ starLost pattern = false := by
  constructor
  · intro h
    rw [Bool.eq_false_iff]
    intro hlost
    obtain ⟨str, hglob, hmatch⟩ := exists_lost hlost
    rw [(h.matchWild str).mpr hglob] at hmatch
    cases hmatch
  · intro hlost
    refine ⟨matchWild_iff hlost, ?_, ?_⟩
    · intro str
      rw [matchWildNocase, ← doMatchWild_map]
      exact matchWild_iff (by rw [starLost_map, hlost]) _
    · intro str third
      rw [ircMatch, udfDoMatchWild_eq]
      cases third.any (· ≠ 0) <;> rfl

/-- A star before a question mark at the end of the pattern is lost: two characters match it as a
glob, the matcher wants one. -/
theorem matchWild_star_any :
    GlobMatch ['*', '?'] ['a', 'b'] ∧ matchWild ['*', '?'] ['a', 'b'] = false :=
  ⟨.star ['a'] (.any 'b' .nil), by decide⟩

end BlitzedServices.Misc
