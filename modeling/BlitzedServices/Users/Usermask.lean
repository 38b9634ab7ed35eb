import BlitzedServices.Lib.Strtok
import BlitzedServices.Misc.MatchWild
import BlitzedServices.NickServ.World

/-!
# User masks

`match_usermask` splits a mask at `!` and `@` and matches the parts with the nick, the username and the
host of a user. Nick and host are compared without regard to case, and the username with regard to it.
`doMatchWild_at` says how the matcher reads a mask as a whole.
-/

set_option autoImplicit false
set_option relaxedAutoImplicit false

namespace BlitzedServices.Users

open Lib Misc
open NickServ (User)

/-- The two parts of a mask around the `@`. -/
def userhostParts (mask : CString) : Option (CString × CString) :=
  (strtok ['@'] mask).bind fun (username, rest) ↦ (strtok [] rest).map fun (host, _) ↦ (username, host)

/-- `match_usermask`. The process dies on a mask of exclamation marks only, whose nick is a null
pointer. -/
def matchUsermask (mask : CString) (user : User) : Option Bool :=
  if '!' ∈ mask then
    match strtok ['!'] mask with
    | none => none
    | some (nick, rest) =>
      match userhostParts rest with
      | none => some false
      | some (username, host) =>
        some (matchWild (strlower nick) (strlower user.nick) && matchWild username user.username &&
          matchWild (strlower host) (strlower user.host))
  else
    match userhostParts mask with
    | none => some false
    | some (username, host) =>
      some (matchWild username user.username && matchWild (strlower host) (strlower user.host))

/-- `count_mask_matches`. -/
def countMaskMatches (mask : CString) (users : List User) : ℕ :=
  users.countP fun u ↦ matchUsermask mask u = some true

/-! ### The parts of a mask -/

theorem strtok_nil {s : CString} (hs : s ≠ []) : strtok [] s = some (s, []) :=
  strtok_whole hs fun _ _ ↦ List.not_mem_nil

theorem strtok_at {username rest : CString} (hnil : username ≠ []) (hat : '@' ∉ username) :
    strtok ['@'] (username ++ '@' :: rest) = some (username, rest) := by
  refine strtok_token hnil (fun a ha ↦ ?_) List.mem_cons_self rest
  rw [List.mem_singleton]
  exact ne_of_mem_of_not_mem ha hat

theorem userhostParts_at {username host : CString} (hnil : username ≠ []) (hat : '@' ∉ username)
    (hhost : host ≠ []) : userhostParts (username ++ '@' :: host) = some (username, host) := by
  simp only [userhostParts, strtok_at hnil hat, Option.bind_some, strtok_nil hhost, Option.map_some]

theorem userhostParts_no_host {username : CString} (hnil : username ≠ []) (hat : '@' ∉ username) :
    userhostParts (username ++ ['@']) = none := by
  rw [userhostParts, strtok_at hnil hat]
  rfl

/-! ### Masks as a whole -/

/-- The literals of a pattern stand in what it matches. -/
theorem mem_of_doMatchWild {pattern str : CString} {c : Char} (hc : isWild c = false)
    (hmem : c ∈ pattern) (h : doMatchWild true pattern str = true) : c ∈ str := by
  have hglob := globMatch_of_matchWild h
  clear h
  induction hglob with
  | nil => exact hmem
  | literal _ _ _ ih =>
    rcases List.mem_cons.mp hmem with rfl | hmem
    · exact List.mem_cons_self
    · exact List.mem_cons_of_mem _ (ih hmem)
  | any a _ ih =>
    rcases List.mem_cons.mp hmem with rfl | hmem
    · cases hc
    · exact List.mem_cons_of_mem _ (ih hmem)
  | star skipped _ ih =>
    rcases List.mem_cons.mp hmem with rfl | hmem
    · cases hc
    · exact List.mem_append_right _ (ih hmem)

/-- A suffix of a text with a separator starts before the separator or behind it. -/
theorem suffix_sep_cases {s t u : CString} {c : Char} (h : u <:+ s ++ c :: t) :
    (∃ s', s' <:+ s ∧ u = s' ++ c :: t) ∨ u <:+ t := by
  induction s with
  | nil =>
    rcases List.suffix_cons_iff.mp h with rfl | hsuffix
    · exact .inl ⟨[], List.nil_suffix, rfl⟩
    · exact .inr hsuffix
  | cons a s ih =>
    rcases List.suffix_cons_iff.mp h with rfl | hsuffix
    · exact .inl ⟨a :: s, List.suffix_rfl, rfl⟩
    · rcases ih hsuffix with ⟨s', hs', rfl⟩ | hsuffix
      · exact .inl ⟨s', hs'.trans (List.suffix_cons a s), rfl⟩
      · exact .inr hsuffix

section Separator

variable {p q s t : CString} {c : Char}

theorem not_doMatchWild_sep (hc : isWild c = false) (ht : c ∉ t) :
    ¬ doMatchWild true (p ++ c :: q) t = true :=
  fun h ↦ ht (mem_of_doMatchWild hc (List.mem_append_right _ List.mem_cons_self) h)

theorem doMatchWild_sep_cons (hc : isWild c = false) (h : doMatchWild true (c :: q) (c :: t) = true) :
    doMatchWild true q t = true := by
  obtain ⟨a, u, heq, -, hmatch⟩ := (doMatchWild_literal hc).mp h
  rwa [(List.cons.inj heq).2]

/-- A star before the separator takes all that comes before it. -/
theorem doMatchWild_star_sep (hc : isWild c = false) (hs : c ∉ s) (ht : c ∉ t)
    (hnil : doMatchWild true (c :: q) (s ++ c :: t) = true → doMatchWild true q t = true) :
    doMatchWild true ('*' :: c :: q) (s ++ c :: t) = true ↔ doMatchWild true q t = true := by
  rw [doMatchWild_star (List.cons_ne_nil c q)]
  constructor
  · rintro (⟨u, hu, halike, hmatch⟩ | hmatch)
    · rcases suffix_sep_cases hu with ⟨s', hs', rfl⟩ | hu
      · cases s' with
        | nil => exact doMatchWild_sep_cons hc hmatch
        | cons a s' =>
          obtain rfl : a = c := by simpa [startsAlike, sameChar] using halike
          exact absurd (hs'.subset List.mem_cons_self) hs
      · exact absurd hmatch (not_doMatchWild_sep (p := []) hc fun h ↦ ht (hu.subset h))
    · exact hnil hmatch
  · intro hmatch
    refine .inl ⟨c :: t, List.suffix_append _ _, by simp [startsAlike, sameChar], ?_⟩
    exact (doMatchWild_literal hc).mpr ⟨c, t, rfl, by simp [sameChar], hmatch⟩

/-- Where the pattern goes on before the separator a star finds the same places. -/
theorem doMatchWild_star_append (hc : isWild c = false) (hp : c ∉ p) (hs : c ∉ s) (ht : c ∉ t)
    (hnil : p ≠ [])
    (ih : ∀ s', c ∉ s' → (doMatchWild true (p ++ c :: q) (s' ++ c :: t) = true ↔
      doMatchWild true p s' = true ∧ doMatchWild true q t = true)) :
    doMatchWild true ('*' :: (p ++ c :: q)) (s ++ c :: t) = true ↔
      doMatchWild true ('*' :: p) s = true ∧ doMatchWild true q t = true := by
  obtain ⟨b, p', rfl⟩ := List.exists_cons_of_ne_nil hnil
  have hb : c ≠ b := fun h ↦ hp (h ▸ List.mem_cons_self)
  rw [doMatchWild_star hnil, doMatchWild_star (List.append_ne_nil_of_left_ne_nil hnil _),
    or_and_right]
  refine or_congr ⟨?_, ?_⟩ (ih s hs)
  · rintro ⟨u, hu, halike, hmatch⟩
    rcases suffix_sep_cases hu with ⟨s', hs', rfl⟩ | hu
    · obtain ⟨hleft, hright⟩ := (ih s' fun h ↦ hs (hs'.subset h)).mp hmatch
      refine ⟨⟨s', hs', ?_, hleft⟩, hright⟩
      cases s' with
      | nil => exact absurd (by simpa [startsAlike, sameChar] using halike) hb
      | cons a s' => exact halike
    · exact absurd hmatch (not_doMatchWild_sep hc fun h ↦ ht (hu.subset h))
  · rintro ⟨⟨s', ⟨skipped, rfl⟩, halike, hleft⟩, hright⟩
    have hs' : c ∉ s' := fun h ↦ hs (List.mem_append_right _ h)
    refine ⟨s' ++ c :: t, ⟨skipped, by rw [List.append_assoc]⟩, ?_, (ih s' hs').mpr ⟨hleft, hright⟩⟩
    cases s' with
    | nil => cases halike
    | cons a s' => exact halike

/-- A separator that is nowhere else splits pattern and text alike. -/
theorem doMatchWild_sep (hc : isWild c = false) (hp : c ∉ p) (hs : c ∉ s) (ht : c ∉ t) :
    doMatchWild true (p ++ c :: q) (s ++ c :: t) = true ↔
      doMatchWild true p s = true ∧ doMatchWild true q t = true := by
  induction p generalizing s with
  | nil =>
    rw [List.nil_append, doMatchWild_literal hc, doMatchWild_nil]
    cases s with
    | nil => simp [sameChar]
    | cons a s =>
      have hne : a ≠ c := fun h ↦ hs (h ▸ List.mem_cons_self)
      simp [sameChar, hne]
  | cons d p ih =>
    have hp' : c ∉ p := fun h ↦ hp (List.mem_cons_of_mem _ h)
    rw [List.cons_append]
    by_cases hany : d = '?'
    · subst hany
      rw [doMatchWild_any, doMatchWild_any]
      cases s with
      | nil => simpa using not_doMatchWild_sep hc ht
      | cons a s =>
        have hs' : c ∉ s := fun h ↦ hs (List.mem_cons_of_mem _ h)
        simpa using ih hp' hs'
    by_cases hstar : d = '*'
    · subst hstar
      by_cases hnil : p = []
      · subst hnil
        rw [doMatchWild_star_nil, List.nil_append, eq_self, true_and]
        refine doMatchWild_star_sep hc hs ht fun h ↦ ((ih hp' hs).mp ?_).2
        exact h
      · exact doMatchWild_star_append hc hp' hs ht hnil fun s' hs' ↦ ih hp' hs'
    · have hd := isWild_eq_false_iff.mpr ⟨hany, hstar⟩
      rw [doMatchWild_literal hd, doMatchWild_literal hd]
      cases s with
      | nil =>
        have hne : c ≠ d := fun h ↦ hp (h ▸ List.mem_cons_self)
        simp [sameChar, hne]
      | cons a s =>
        have hs' : c ∉ s := fun h ↦ hs (List.mem_cons_of_mem _ h)
        rw [List.cons_append]
        constructor
        · rintro ⟨b, u, heq, hsame, hmatch⟩
          obtain ⟨rfl, rfl⟩ := List.cons.inj heq
          obtain ⟨hleft, hright⟩ := (ih hp' hs').mp hmatch
          exact ⟨⟨a, s, rfl, hsame, hleft⟩, hright⟩
        · rintro ⟨⟨b, u, heq, hsame, hleft⟩, hright⟩
          obtain ⟨rfl, rfl⟩ := List.cons.inj heq
          exact ⟨a, s ++ c :: t, rfl, hsame, (ih hp' hs').mpr ⟨hleft, hright⟩⟩

end Separator

end BlitzedServices.Users
