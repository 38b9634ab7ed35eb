import BlitzedServices.Users.Usermask

/-!
# The two ways to match an akill

`do_akill` counts with `match_usermask` whom an akill will hit, and `check_akill` looks for akills with
`IRC_MATCH`, which does not regard case. `masksAgree_iff` says for which mask and which user the two
agree: the case of the letters in the username must not matter, and a mask must not begin with an `@`,
which `match_usermask` skips.
-/

set_option autoImplicit false
set_option relaxedAutoImplicit false

namespace BlitzedServices.Akill

open Lib Misc Users
open NickServ (User)

/-- Table `akill`. -/
structure AkillRow where
  akillId : ℕ
  mask : CString
  reason : CString
  who : CString
  time : ℤ
  expires : ℤ

/-- The text in the buffer of `check_akill`. -/
def akillText (username host : CString) : CString :=
  let buf := strscpy username (512 - 2)
  buf ++ '@' :: strlower (strscpy host (512 - (buf.length + 1)))

/-- `check_akill`: the akill with the largest id that matches. The text is escaped for the query, which
reads it back. -/
def checkAkill (akills : List AkillRow) (username host : CString) : Option AkillRow :=
  (akills.filter fun r ↦ ircMatch r.mask (akillText username host) none).argmax AkillRow.akillId

/-- A user as the IRC server admits him: the names are not empty, have no `@` and come in one line. -/
structure Admitted (u : User) : Prop where
  username_ne : u.username ≠ []
  host_ne : u.host ≠ []
  at_username : '@' ∉ u.username
  at_host : '@' ∉ u.host
  fits : u.username.length + 1 + u.host.length < 512

/-- A mask that `do_akill` takes. -/
structure UserhostMask (mask : CString) : Prop where
  at_mem : '@' ∈ mask
  no_nick : '!' ∉ mask

/-- Where the host matches, the username matches with regard to case if it does without, and it does
not match at all if the mask begins with an `@`. -/
def AgreeOn (mask : CString) (u : User) : Prop :=
  ∀ username host, userhostParts mask = some (username, host) →
    matchWildNocase host u.host = true →
      if mask.head? = some '@' then matchWild username u.username = false
      else matchWildNocase username u.username = true → matchWild username u.username = true

/-! ### The parts of a mask -/

theorem akillText_eq {u : User} (h : Admitted u) :
    akillText u.username u.host = u.username ++ '@' :: strlower u.host := by
  have hfits := h.fits
  have hhost := List.length_pos_iff.mpr h.host_ne
  have husername : strscpy u.username (512 - 2) = u.username :=
    List.take_of_length_le (by omega)
  rw [akillText, husername, strscpy, List.take_of_length_le (by omega)]

theorem toLower_eq_at {c : Char} : c.toLower = '@' ↔ c = '@' := by
  constructor
  · intro h
    by_cases hupper : c.isUpper = true
    · have halpha := Char.isLower_toLower_eq_isAlpha (c := c)
      rw [h, Char.isAlpha, hupper] at halpha
      cases halpha
    · rwa [Char.toLower_eq_of_not_isUpper hupper] at h
  · rintro rfl
    rfl

theorem at_mem_strlower {s : CString} : '@' ∈ strlower s ↔ '@' ∈ s := by
  simp [strlower, toLower_eq_at]

theorem matchWildNocase_eq (pattern str : CString) :
    matchWildNocase pattern str = matchWild (strlower pattern) (strlower str) :=
  (doMatchWild_map pattern str).symm

theorem strlower_strlower (s : CString) : strlower (strlower s) = strlower s := by
  simp [strlower, Function.comp_def, Char.toLower_toLower_eq_toLower]

/-- Letters that match with regard to case match without. -/
theorem matchWildNocase_of_matchWild {pattern str : CString} (h : matchWild pattern str = true) :
    matchWildNocase pattern str = true := by
  have halike (s p : CString) (h : startsAlike true s p = true) : startsAlike false s p = true := by
    cases s with
    | nil => cases h
    | cons a s =>
      cases p with
      | nil => cases h
      | cons b p =>
        obtain rfl : a = b := by simpa [startsAlike, sameChar] using h
        simp [startsAlike, sameChar]
  rw [matchWild] at h
  rw [matchWildNocase]
  induction pattern generalizing str with
  | nil => exact h
  | cons c pattern ih =>
    by_cases hany : c = '?'
    · subst hany
      obtain ⟨a, t, rfl, h⟩ := doMatchWild_any.mp h
      exact doMatchWild_any.mpr ⟨a, t, rfl, ih h⟩
    by_cases hstar : c = '*'
    · subst hstar
      by_cases hnil : pattern = []
      · rw [hnil, doMatchWild_star_nil]
      rw [doMatchWild_star hnil] at h ⊢
      rcases h with ⟨t, ht, hstart, h⟩ | h
      · exact .inl ⟨t, ht, halike t pattern hstart, ih h⟩
      · exact .inr (ih h)
    · have hc := isWild_eq_false_iff.mpr ⟨hany, hstar⟩
      obtain ⟨a, t, rfl, hsame, hrest⟩ := (doMatchWild_literal hc).mp h
      obtain rfl : a = c := by simpa [sameChar] using hsame
      exact (doMatchWild_literal hc).mpr ⟨a, t, rfl, by simp [sameChar], ih hrest⟩

/-! ### What `IRC_MATCH` makes of a mask -/

theorem ircMatch_akillText (mask : CString) {u : User} (h : Admitted u) :
    ircMatch mask (akillText u.username u.host) none =
      doMatchWild true (strlower mask) (strlower u.username ++ '@' :: strlower u.host) := by
  have hlower : strlower (u.username ++ '@' :: strlower u.host) =
      strlower u.username ++ '@' :: strlower u.host := by
    rw [strlower, List.map_append, List.map_cons, ← strlower, ← strlower, strlower_strlower]
    rfl
  rw [ircMatch, udfDoMatchWild_eq, akillText_eq h]
  exact (doMatchWild_map mask _).symm.trans (congrArg (doMatchWild true (strlower mask)) hlower)

/-- The parts of the mask are matched with the parts of the text. -/
theorem ircMatch_parts {username host : CString} (hat : '@' ∉ username) {u : User}
    (h : Admitted u) :
    ircMatch (username ++ '@' :: host) (akillText u.username u.host) none =
      (matchWildNocase username u.username && matchWildNocase host u.host) := by
  have hmask : strlower (username ++ '@' :: host) = strlower username ++ '@' :: strlower host := by
    rw [strlower, List.map_append, List.map_cons, ← strlower, ← strlower]
    rfl
  rw [ircMatch_akillText _ h, hmask, matchWildNocase_eq, matchWildNocase_eq, Bool.eq_iff_iff,
    Bool.and_eq_true]
  refine doMatchWild_sep ?_ ?_ ?_ ?_
  · rfl
  · exact fun hmem ↦ hat (at_mem_strlower.mp hmem)
  · exact fun hmem ↦ h.at_username (at_mem_strlower.mp hmem)
  · exact fun hmem ↦ h.at_host (at_mem_strlower.mp hmem)

/-- No username is empty, as a mask that begins with an `@` would have it. -/
theorem ircMatch_at (rest : CString) {u : User} (h : Admitted u) :
    ircMatch ('@' :: rest) (akillText u.username u.host) none = false := by
  rw [← List.nil_append ('@' :: rest), ircMatch_parts List.not_mem_nil h, matchWildNocase]
  cases hname : u.username with
  | nil => exact absurd hname h.username_ne
  | cons c username => rfl

theorem matchUsermask_eq {mask : CString} (hmask : UserhostMask mask) (u : User) :
    matchUsermask mask u = some (match userhostParts mask with
      | none => false
      | some (username, host) => matchWild username u.username && matchWildNocase host u.host) := by
  rw [matchUsermask, if_neg hmask.no_nick]
  cases userhostParts mask with
  | none => rfl
  | some parts =>
    dsimp only
    rw [matchWildNocase_eq]

/-! ### Where the two agree -/

/-- The two matchers give the same answer. -/
def MasksAgree (mask : CString) (u : User) : Prop :=
  matchUsermask mask u = some (ircMatch mask (akillText u.username u.host) none)

/-- The number of users whom an akill for the mask would hit. -/
def countAkilled (mask : CString) (users : List User) : ℕ :=
  users.countP fun u ↦ (checkAkill [⟨1, mask, [], [], 0, 0⟩] u.username u.host).isSome

theorem isSome_checkAkill (r : AkillRow) (username host : CString) :
    (checkAkill [r] username host).isSome = ircMatch r.mask (akillText username host) none := by
  rw [checkAkill, List.filter_singleton]
  cases ircMatch r.mask (akillText username host) none with
  | false => rfl
  | true => rfl

/-- The rule on the parts of the mask. -/
theorem agreeOn_iff {mask username host : CString} {u : User}
    (hparts : userhostParts mask = some (username, host)) :
    AgreeOn mask u ↔ (matchWildNocase host u.host = true →
      if mask.head? = some '@' then matchWild username u.username = false
      else matchWildNocase username u.username = true → matchWild username u.username = true) := by
  constructor
  · exact fun h ↦ h username host hparts
  · intro h username' host' hparts'
    rw [hparts, Option.some_inj] at hparts'
    obtain ⟨rfl, rfl⟩ := Prod.mk.inj hparts'
    exact h

theorem agreeOn_of_none {mask : CString} {u : User} (hparts : userhostParts mask = none) :
    AgreeOn mask u := by
  intro username host hsome
  rw [hparts] at hsome
  cases hsome

theorem masksAgree_iff {mask : CString} (hmask : UserhostMask mask) {u : User} (h : Admitted u) :
    MasksAgree mask u ↔ AgreeOn mask u := by
  rw [MasksAgree, matchUsermask_eq hmask, Option.some_inj]
  obtain ⟨username, host, rfl, hat⟩ := List.eq_append_cons_of_mem hmask.at_mem
  by_cases hnil : username = []
  · subst hnil
    rw [List.nil_append, ircMatch_at host h]
    cases hparts : userhostParts ('@' :: host) with
    | none => exact iff_of_true rfl (agreeOn_of_none hparts)
    | some parts =>
      rw [agreeOn_iff hparts, List.head?_cons, if_pos rfl]
      dsimp only
      cases matchWildNocase parts.2 u.host with
      | false => simp
      | true => simp
  · have hhead : (username ++ '@' :: host).head? ≠ some '@' := by
      obtain ⟨c, rest, rfl⟩ := List.exists_cons_of_ne_nil hnil
      rw [List.cons_append, List.head?_cons]
      exact fun hc ↦ hat (Option.some.inj hc ▸ List.mem_cons_self)
    rw [ircMatch_parts hat h]
    by_cases hhost : host = []
    · subst hhost
      have hparts := userhostParts_no_host hnil hat
      have hempty : matchWildNocase [] u.host = false := by
        obtain ⟨c, rest, hcons⟩ := List.exists_cons_of_ne_nil h.host_ne
        rw [hcons]
        rfl
      rw [hparts, hempty, Bool.and_false]
      exact iff_of_true rfl (agreeOn_of_none hparts)
    · have hparts := userhostParts_at hnil hat hhost
      rw [hparts, agreeOn_iff hparts, if_neg hhead]
      dsimp only
      cases matchWildNocase host u.host with
      | false => simp
      | true =>
        simp only [Bool.and_true, true_imp_iff]
        rw [Bool.eq_iff_iff]
        exact ⟨fun hiff ↦ hiff.mpr, fun hrule ↦ ⟨matchWildNocase_of_matchWild, hrule⟩⟩

/-- For one mask all disagreements go the same way. -/
theorem masksAgree_le {mask : CString} (hmask : UserhostMask mask) :
    (∀ u, Admitted u → matchUsermask mask u = some true →
      ircMatch mask (akillText u.username u.host) none = true) ∨
    ∀ u, Admitted u → ircMatch mask (akillText u.username u.host) none = true →
      matchUsermask mask u = some true := by
  obtain ⟨username, host, rfl, hat⟩ := List.eq_append_cons_of_mem hmask.at_mem
  by_cases hnil : username = []
  · subst hnil
    refine .inr fun u h hmatch ↦ ?_
    rw [List.nil_append, ircMatch_at host h] at hmatch
    cases hmatch
  · refine .inl fun u h hmatch ↦ ?_
    rw [matchUsermask_eq hmask, Option.some_inj] at hmatch
    rw [ircMatch_parts hat h]
    by_cases hhost : host = []
    · subst hhost
      rw [userhostParts_no_host hnil hat] at hmatch
      cases hmatch
    · rw [userhostParts_at hnil hat hhost] at hmatch
      simp only [Bool.and_eq_true] at hmatch ⊢
      exact ⟨matchWildNocase_of_matchWild hmatch.1, hmatch.2⟩

theorem masksAgree_iff_iff {mask : CString} (hmask : UserhostMask mask) (u : User) :
    MasksAgree mask u ↔ (matchUsermask mask u = some true ↔
      ircMatch mask (akillText u.username u.host) none = true) := by
  rw [MasksAgree, matchUsermask_eq hmask, Option.some_inj, Option.some_inj, ← Bool.eq_iff_iff]

/-- Two predicates of which one implies the other count alike iff they agree. -/
theorem countP_eq_countP_iff {α : Type} {p q : α → Bool} {l : List α}
    (h : ∀ a ∈ l, p a = true → q a = true) :
    l.countP p = l.countP q ↔ ∀ a ∈ l, (p a = true ↔ q a = true) := by
  induction l with
  | nil => simp
  | cons a l ih =>
    have hl : ∀ b ∈ l, p b = true → q b = true := fun b hb ↦ h b (List.mem_cons_of_mem _ hb)
    have hle : l.countP p ≤ l.countP q := List.countP_mono_left hl
    have ha := h a List.mem_cons_self
    rw [List.countP_cons, List.countP_cons, List.forall_mem_cons, ← ih hl]
    cases hp : p a with
    | true =>
      rw [ha hp]
      simp
    | false =>
      cases hq : q a with
      | true => simp; omega
      | false => simp

/-- For every mask and every user, the matchers agree exactly under the condition, and so do the
numbers of users. -/
theorem masks_agree {mask : CString} (hmask : UserhostMask mask) :
    (∀ u, Admitted u → (MasksAgree mask u ↔ AgreeOn mask u)) ∧
    ∀ users, (∀ u ∈ users, Admitted u) →
      (countMaskMatches mask users = countAkilled mask users ↔ ∀ u ∈ users, AgreeOn mask u) := by
  constructor
  · exact fun u h ↦ masksAgree_iff hmask h
  · intro users hall
    have hagree : (∀ u ∈ users, AgreeOn mask u) ↔ ∀ u ∈ users,
        (matchUsermask mask u = some true ↔
          ircMatch mask (akillText u.username u.host) none = true) := by
      refine forall₂_congr fun u hu ↦ ?_
      rw [← masksAgree_iff hmask (hall u hu), masksAgree_iff_iff hmask]
    have hcount : countAkilled mask users =
        users.countP fun u ↦ ircMatch mask (akillText u.username u.host) none := by
      rw [countAkilled]
      simp only [isSome_checkAkill]
    rw [hcount, countMaskMatches, hagree]
    rcases masksAgree_le hmask with hle | hge
    · have hiff := countP_eq_countP_iff (l := users)
        (p := fun u ↦ decide (matchUsermask mask u = some true))
        (q := fun u ↦ ircMatch mask (akillText u.username u.host) none) fun u hu hmatch ↦
          hle u (hall u hu) (of_decide_eq_true hmatch)
      simpa only [decide_eq_true_eq] using hiff
    · have hiff := countP_eq_countP_iff (l := users)
        (p := fun u ↦ ircMatch mask (akillText u.username u.host) none)
        (q := fun u ↦ decide (matchUsermask mask u = some true)) fun u hu hmatch ↦
          decide_eq_true (hge u (hall u hu) hmatch)
      simp only [decide_eq_true_eq] at hiff
      rw [eq_comm, hiff]
      exact forall₂_congr fun u hu ↦ Iff.comm

/-- A user with a capital letter in his username. -/
def shouting : User where
  uid := 0
  nick := "bob".toList
  username := "Bob".toList
  host := "example.org".toList
  realId := 0
  nickId := 0
  mySignon := 0
  servicesStamp := 0
  oper := false
  lastnickreg := 0

theorem masks_agree_star :
    MasksAgree "*@example.org".toList shouting ↔ AgreeOn "*@example.org".toList shouting :=
  (masks_agree ⟨by decide, by decide⟩).1 shouting
    ⟨by decide, by decide, by decide, by decide, by decide⟩

/-- The akill hits a user whom `count_mask_matches` does not count. -/
theorem not_masksAgree_shouting :
    ¬ MasksAgree "bob@example.org".toList shouting ∧
      countMaskMatches "bob@example.org".toList [shouting] ≠
        countAkilled "bob@example.org".toList [shouting] := by
  unfold MasksAgree
  decide

end BlitzedServices.Akill
