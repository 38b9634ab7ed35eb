import BlitzedServices.Users.CreateMask

/-!
# Splitting a mask

`split_usermask` takes a mask apart with `strtok`, which skips what is empty, and for a mask without a
nick it starts again on the buffer that `strtok` has already cut. `splitUsermask_iff` says for which
masks with at most one `!` and one `@` the parts are those that stand around the separators: no part
must be empty in front of one that is not.
-/

set_option autoImplicit false
set_option relaxedAutoImplicit false

namespace BlitzedServices.Users

open Lib Misc
open NickServ (User)

/-- The strings that `split_usermask` returns. -/
structure Usermask where
  nick : CString
  user : CString
  host : CString
  deriving DecidableEq

/-- The mask that AKICK ADD stores. -/
def Usermask.join (m : Usermask) : CString :=
  m.nick ++ '!' :: (m.user ++ '@' :: m.host)

/-- `strtok(_, "@")`, then `strtok(NULL, "")`. -/
def userAndHost (s : CString) : Option CString × Option CString :=
  let (user, rest) := strtokCall ['@'] s
  (user, (strtokCall [] rest).1)

/-- The pointers of `split_usermask` before those that are null are replaced. In the special case the
buffer is read again from its start; it ends where `strtok` cut it behind the nick. -/
def usermaskTokens (mask : CString) : Option CString × Option CString × Option CString :=
  let (nick, rest) := strtokCall ['!'] mask
  let (user, host) := userAndHost rest
  match nick, user with
  | some token, none =>
    if '@' ∈ token then (none, userAndHost (mask.takeWhile (· = '!') ++ token))
    else (nick, user, host)
  | _, _ => (nick, user, host)

/-- `split_usermask`. -/
def splitUsermask (mask : CString) : Usermask :=
  let (nick, user, host) := usermaskTokens mask
  ⟨nick.getD ['*'], user.getD ['*'], host.getD ['*']⟩

/-! ### The mask as it is typed -/

/-- The text before the `!`. Without any separator it is all of the text. -/
def nickText (mask : CString) : CString :=
  if '!' ∈ mask then mask.takeWhile (· ≠ '!')
  else if '@' ∈ mask then []
  else mask

/-- The text from the `!` to the `@`. -/
def userText (mask : CString) : CString :=
  if '!' ∈ mask then (mask.dropWhile (· ≠ '!')).tail.takeWhile (· ≠ '@')
  else if '@' ∈ mask then mask.takeWhile (· ≠ '@')
  else []

/-- The text behind the `@`. -/
def hostText (mask : CString) : CString :=
  (mask.dropWhile (· ≠ '@')).tail

/-- A part that is not there stands for all. -/
def orStar (part : CString) : CString :=
  if part = [] then ['*'] else part

/-- The users a typed mask means: every part that is there matches. -/
def denotes (mask : CString) (u : User) : Bool :=
  (nickText mask = [] || matchWild (strlower (nickText mask)) (strlower u.nick)) &&
    (userText mask = [] || matchWild (userText mask) u.username) &&
      (hostText mask = [] || matchWild (strlower (hostText mask)) (strlower u.host))

/-- At most one `!` and at most one `@`, in this order. -/
structure SinglyMarked (mask : CString) : Prop where
  mark : mask.count '!' ≤ 1
  at_sign : mask.count '@' ≤ 1
  order : '!' ∈ mask → '@' ∉ mask.takeWhile (· ≠ '!')

/-- A mask that `match_usermask` reads: user and host are there, and a nick before a `!`. -/
structure Complete (mask : CString) : Prop where
  nick : '!' ∈ mask → nickText mask ≠ []
  user : userText mask ≠ []
  host : hostText mask ≠ []

/-- The parts are those that were typed, and the mask that is stored matches the same users. -/
structure SplitsAsTyped (mask : CString) : Prop where
  parts : splitUsermask mask = ⟨orStar (nickText mask), orStar (userText mask), orStar (hostText mask)⟩
  denotes : ∀ u, matchUsermask (splitUsermask mask).join u = some (denotes mask u)
  complete : Complete mask → ∀ u, matchUsermask (splitUsermask mask).join u = matchUsermask mask u

/-- No part is empty in front of one that is not, unless that is a star. -/
structure NoGap (mask : CString) : Prop where
  user : userText mask ≠ [] ∨ hostText mask = [] ∨ hostText mask = ['*']
  nick : '!' ∈ mask → nickText mask ≠ [] ∨ ('@' ∉ mask ∧ (userText mask = [] ∨ userText mask = ['*']))

/-! ### The four shapes of a mask -/

/-- A text without separators. -/
def Unmarked (s : CString) : Prop :=
  '!' ∉ s ∧ '@' ∉ s

/-- A mask by its parts. -/
inductive MaskParts : CString → CString → CString → CString → Prop
  | nick {n : CString} : Unmarked n → MaskParts n n [] []
  | nickUser {n u : CString} : Unmarked n → Unmarked u → MaskParts (n ++ '!' :: u) n u []
  | userHost {u h : CString} : Unmarked u → Unmarked h → MaskParts (u ++ '@' :: h) [] u h
  | full {n u h : CString} : Unmarked n → Unmarked u → Unmarked h →
      MaskParts (n ++ '!' :: (u ++ '@' :: h)) n u h

theorem takeWhile_sep {s t : CString} {c : Char} (h : c ∉ s) :
    (s ++ c :: t).takeWhile (· ≠ c) = s := by
  rw [List.takeWhile_append_of_pos fun d hd ↦ by simpa using ne_of_mem_of_not_mem hd h]
  simp

theorem dropWhile_sep {s t : CString} {c : Char} (h : c ∉ s) :
    (s ++ c :: t).dropWhile (· ≠ c) = c :: t := by
  rw [List.dropWhile_append_of_pos fun d hd ↦ by simpa using ne_of_mem_of_not_mem hd h]
  simp

theorem takeWhile_unmarked {s : CString} {c : Char} (h : c ∉ s) : s.takeWhile (· ≠ c) = s := by
  rw [List.takeWhile_eq_self_iff]
  exact fun d hd ↦ by simpa using ne_of_mem_of_not_mem hd h

theorem dropWhile_unmarked {s : CString} {c : Char} (h : c ∉ s) : s.dropWhile (· ≠ c) = [] := by
  rw [List.dropWhile_eq_nil_iff]
  exact fun d hd ↦ by simpa using ne_of_mem_of_not_mem hd h

/-- A separator that occurs once has none on either side. -/
theorem exists_sep {s : CString} {c : Char} (h : s.count c ≤ 1) (hmem : c ∈ s) :
    ∃ front back, s = front ++ c :: back ∧ c ∉ front ∧ c ∉ back := by
  obtain ⟨front, back, rfl, hfront⟩ := List.eq_append_cons_of_mem hmem
  refine ⟨front, back, rfl, hfront, fun hback ↦ ?_⟩
  have hpos := List.count_pos_iff.mpr hback
  rw [List.count_append, List.count_cons_self] at h
  omega

theorem maskParts {mask : CString} (h : SinglyMarked mask) :
    MaskParts mask (nickText mask) (userText mask) (hostText mask) := by
  by_cases hmark : '!' ∈ mask
  · obtain ⟨n, rest, rfl, hn, hrest⟩ := exists_sep h.mark hmark
    have hat : '@' ∉ n := by
      have horder := h.order hmark
      rwa [takeWhile_sep hn] at horder
    rw [nickText, if_pos hmark, takeWhile_sep hn, userText, if_pos hmark, dropWhile_sep hn, List.tail_cons]
    by_cases hhost : '@' ∈ rest
    · have hcount := h.at_sign
      rw [List.count_append, List.count_cons_of_ne (by decide)] at hcount
      obtain ⟨u, host, rfl, hu, hh⟩ := exists_sep (by omega : rest.count '@' ≤ 1) hhost
      have hu' : '!' ∉ u := fun hmem ↦ hrest (List.mem_append_left _ hmem)
      have hh' : '!' ∉ host := fun hmem ↦ hrest (List.mem_append_right _ (List.mem_cons_of_mem _ hmem))
      have hsplit : n ++ '!' :: (u ++ '@' :: host) = (n ++ '!' :: u) ++ '@' :: host := by simp
      have hfront : '@' ∉ n ++ '!' :: u := by simp [hat, hu]
      rw [takeWhile_sep hu, hostText, hsplit, dropWhile_sep hfront, ← hsplit]
      exact .full ⟨hn, hat⟩ ⟨hu', hu⟩ ⟨hh', hh⟩
    · have hnone : '@' ∉ n ++ '!' :: rest := by simp [hat, hhost]
      rw [takeWhile_unmarked hhost, hostText, dropWhile_unmarked hnone]
      exact .nickUser ⟨hn, hat⟩ ⟨hrest, hhost⟩
  · rw [nickText, if_neg hmark, userText, if_neg hmark]
    by_cases hhost : '@' ∈ mask
    · obtain ⟨u, host, rfl, hu, hh⟩ := exists_sep h.at_sign hhost
      rw [if_pos hhost, if_pos hhost, takeWhile_sep hu, hostText, dropWhile_sep hu]
      exact .userHost ⟨fun hmem ↦ hmark (List.mem_append_left _ hmem), hu⟩
        ⟨fun hmem ↦ hmark (List.mem_append_right _ (List.mem_cons_of_mem _ hmem)), hh⟩
    · rw [if_neg hhost, if_neg hhost, hostText, dropWhile_unmarked hhost]
      exact .nick ⟨hmark, hhost⟩

/-! ### The tokens of each shape -/

theorem getD_partPointer (s : CString) : (partPointer s).getD ['*'] = orStar s := by
  rw [partPointer, orStar]
  split_ifs
  · rfl
  · rfl

theorem userAndHost_unmarked {u : CString} (hu : '@' ∉ u) : userAndHost u = (partPointer u, none) := by
  rw [userAndHost, strtokCall_unmarked hu]
  rfl

/-- A user that is not there is replaced by the host. -/
theorem userAndHost_at {h : CString} (hh : '@' ∉ h) : userAndHost ('@' :: h) = (partPointer h, none) := by
  rw [← userAndHost_unmarked hh, userAndHost, userAndHost, strtokCall_skip]

theorem userAndHost_sep {u : CString} (hnil : u ≠ []) (hu : '@' ∉ u) (h : CString) :
    userAndHost (u ++ '@' :: h) = (some u, partPointer h) := by
  rw [userAndHost, strtokCall_sep hnil hu]
  dsimp only
  rw [strtokCall_whole fun a _ ↦ List.not_mem_nil]

section Shapes

variable {n u h : CString}

theorem splitUsermask_nick (hn : Unmarked n) : splitUsermask n = ⟨orStar n, ['*'], ['*']⟩ := by
  have htokens : usermaskTokens n = (partPointer n, none, none) := by
    rw [usermaskTokens, strtokCall_unmarked hn.1]
    dsimp only
    rw [userAndHost_unmarked List.not_mem_nil, partPointer_nil]
    by_cases hnil : n = []
    · rw [hnil]
      rfl
    · rw [partPointer_of_ne hnil]
      exact if_neg hn.2
  rw [splitUsermask, htokens, ← getD_partPointer]
  rfl

theorem splitUsermask_nickUser (hnil : n ≠ []) (hn : Unmarked n) (hu : Unmarked u) :
    splitUsermask (n ++ '!' :: u) = ⟨n, orStar u, ['*']⟩ := by
  have htokens : usermaskTokens (n ++ '!' :: u) = (some n, partPointer u, none) := by
    rw [usermaskTokens, strtokCall_sep hnil hn.1]
    dsimp only
    rw [userAndHost_unmarked hu.2]
    by_cases hunil : u = []
    · rw [hunil]
      exact if_neg hn.2
    · rw [partPointer_of_ne hunil]
  rw [splitUsermask, htokens, ← getD_partPointer]
  rfl

/-- A user behind a `!` at the front is taken for the nick. -/
theorem splitUsermask_mark (hu : Unmarked u) : splitUsermask ('!' :: u) = ⟨orStar u, ['*'], ['*']⟩ := by
  rw [← splitUsermask_nick hu, splitUsermask, splitUsermask]
  have htokens : usermaskTokens ('!' :: u) = usermaskTokens u := by
    rw [usermaskTokens, usermaskTokens, strtokCall_skip, strtokCall_unmarked hu.1]
    dsimp only
    by_cases hnil : u = []
    · rw [hnil]
      rfl
    · rw [partPointer_of_ne hnil, userAndHost_unmarked List.not_mem_nil, partPointer_nil]
      dsimp only
      rw [if_neg hu.2, if_neg hu.2]
  rw [htokens]

/-- The nick of a mask without one is the whole mask, which is read again. -/
theorem usermaskTokens_userHost (hu : Unmarked u) (hh : Unmarked h) :
    usermaskTokens (u ++ '@' :: h) = (none, userAndHost (u ++ '@' :: h)) := by
  have hmark : '!' ∉ u ++ '@' :: h := by simp [hu.1, hh.1]
  have hat : '@' ∈ u ++ '@' :: h := by simp
  have hnil : u ++ '@' :: h ≠ [] := List.append_ne_nil_of_right_ne_nil _ (List.cons_ne_nil _ _)
  have hstart : (u ++ '@' :: h).takeWhile (· = '!') = [] := by
    rw [List.takeWhile_eq_nil_iff]
    intro hlength hhead
    exact hmark (of_decide_eq_true hhead ▸ List.getElem_mem hlength)
  rw [usermaskTokens, strtokCall_unmarked hmark, partPointer_of_ne hnil]
  dsimp only
  rw [userAndHost_unmarked List.not_mem_nil, partPointer_nil]
  dsimp only
  rw [if_pos hat, hstart, List.nil_append]

theorem splitUsermask_userHost (hnil : u ≠ []) (hu : Unmarked u) (hh : Unmarked h) :
    splitUsermask (u ++ '@' :: h) = ⟨['*'], u, orStar h⟩ := by
  rw [splitUsermask, usermaskTokens_userHost hu hh, userAndHost_sep hnil hu.2, ← getD_partPointer]
  rfl

theorem splitUsermask_at (hh : Unmarked h) : splitUsermask ('@' :: h) = ⟨['*'], orStar h, ['*']⟩ := by
  have hnil : Unmarked [] := ⟨List.not_mem_nil, List.not_mem_nil⟩
  rw [splitUsermask, ← List.nil_append ('@' :: h), usermaskTokens_userHost hnil hh, List.nil_append,
    userAndHost_at hh.2, ← getD_partPointer]
  rfl

theorem splitUsermask_full (hnil : n ≠ []) (hn : Unmarked n) (hunil : u ≠ []) (hu : Unmarked u) :
    splitUsermask (n ++ '!' :: (u ++ '@' :: h)) = ⟨n, u, orStar h⟩ := by
  have htokens : usermaskTokens (n ++ '!' :: (u ++ '@' :: h)) = (some n, some u, partPointer h) := by
    rw [usermaskTokens, strtokCall_sep hnil hn.1]
    dsimp only
    rw [userAndHost_sep hunil hu.2]
  rw [splitUsermask, htokens, ← getD_partPointer]
  rfl

theorem splitUsermask_full_at (hnil : n ≠ []) (hn : Unmarked n) (hh : Unmarked h) :
    splitUsermask (n ++ '!' :: '@' :: h) = ⟨n, orStar h, ['*']⟩ := by
  have htokens : usermaskTokens (n ++ '!' :: '@' :: h) = (some n, partPointer h, none) := by
    rw [usermaskTokens, strtokCall_sep hnil hn.1]
    dsimp only
    rw [userAndHost_at hh.2]
    by_cases hhnil : h = []
    · rw [hhnil]
      exact if_neg hn.2
    · rw [partPointer_of_ne hhnil]
  rw [splitUsermask, htokens, ← getD_partPointer]
  rfl

/-- The `!` in front of the user stays in the buffer that is read again. -/
theorem splitUsermask_mark_full (hu : Unmarked u) (hh : Unmarked h) :
    splitUsermask ('!' :: (u ++ '@' :: h)) = ⟨['*'], '!' :: u, orStar h⟩ := by
  have hmark : '!' ∉ u ++ '@' :: h := by simp [hu.1, hh.1]
  have hat : '@' ∈ u ++ '@' :: h := by simp
  have hnil : u ++ '@' :: h ≠ [] := List.append_ne_nil_of_right_ne_nil _ (List.cons_ne_nil _ _)
  have hstart : ('!' :: (u ++ '@' :: h)).takeWhile (· = '!') = ['!'] := by
    rw [List.takeWhile_cons_of_pos (by simp), List.cons.injEq, List.takeWhile_eq_nil_iff]
    refine ⟨rfl, fun hlength hhead ↦ ?_⟩
    exact hmark (of_decide_eq_true hhead ▸ List.getElem_mem hlength)
  have htokens : usermaskTokens ('!' :: (u ++ '@' :: h)) = (none, some ('!' :: u), partPointer h) := by
    rw [usermaskTokens, strtokCall_skip, strtokCall_unmarked hmark, partPointer_of_ne hnil]
    dsimp only
    rw [userAndHost_unmarked List.not_mem_nil, partPointer_nil]
    dsimp only
    rw [if_pos hat, hstart]
    have hfront : '@' ∉ '!' :: u := by simp [hu.2]
    exact congrArg (Prod.mk none) (userAndHost_sep (List.cons_ne_nil _ _) hfront h)
  rw [splitUsermask, htokens, ← getD_partPointer]
  rfl

end Shapes

/-! ### The parts that were typed -/

theorem orStar_of_ne {s : CString} (h : s ≠ []) : orStar s = s :=
  if_neg h

theorem orStar_eq_star {s : CString} : ['*'] = orStar s ↔ s = [] ∨ s = ['*'] := by
  rw [orStar]
  by_cases hs : s = []
  · rw [if_pos hs]
    simp [hs]
  · rw [if_neg hs]
    simp [hs, eq_comm]

theorem parts_iff {mask n u h : CString} (hmask : MaskParts mask n u h) :
    splitUsermask mask = ⟨orStar n, orStar u, orStar h⟩ ↔
      (u ≠ [] ∨ h = [] ∨ h = ['*']) ∧
        ('!' ∈ mask → n ≠ [] ∨ ('@' ∉ mask ∧ (u = [] ∨ u = ['*']))) := by
  cases hmask with
  | nick hn =>
    have hmark : '!' ∉ mask := hn.1
    rw [splitUsermask_nick hn]
    simp [orStar, hmark]
  | nickUser hn hu =>
    have hat : '@' ∉ n ++ '!' :: u := by simp [hn.2, hu.2]
    by_cases hnil : n = []
    · subst hnil
      rw [List.nil_append, splitUsermask_mark hu]
      rw [List.nil_append] at hat
      simp only [Usermask.mk.injEq, orStar_eq_star, hat, not_false_eq_true, true_and, true_or, or_true,
        List.mem_cons_self, true_imp_iff, ne_eq, not_true_eq_false, false_or, and_true]
      constructor
      · exact fun hparts ↦ hparts.2
      · intro hparts
        refine ⟨?_, hparts⟩
        rcases hparts with rfl | rfl
        · rfl
        · rfl
    · rw [splitUsermask_nickUser hnil hn hu, orStar_of_ne hnil]
      simp [orStar, hnil]
  | userHost hu hh =>
    have hmark : '!' ∉ u ++ '@' :: h := by simp [hu.1, hh.1]
    by_cases hnil : u = []
    · subst hnil
      rw [List.nil_append, splitUsermask_at hh]
      rw [List.nil_append] at hmark
      simp only [Usermask.mk.injEq, orStar_eq_star, hmark, false_imp_iff, and_true, ne_eq, not_true_eq_false,
        false_or, true_or, true_and]
      constructor
      · exact fun hparts ↦ hparts.2
      · intro hparts
        refine ⟨?_, hparts⟩
        rcases hparts with rfl | rfl
        · rfl
        · rfl
    · rw [splitUsermask_userHost hnil hu hh, orStar_of_ne hnil]
      simp [orStar, hnil, hmark]
  | full hn hu hh =>
    by_cases hnil : n = []
    · subst hnil
      have hne : '!' :: u ≠ orStar u := by
        rw [orStar]
        split_ifs
        · simp
        · exact List.cons_ne_self '!' u
      rw [List.nil_append, splitUsermask_mark_full hu hh]
      simp [hne]
    · by_cases hunil : u = []
      · subst hunil
        rw [List.nil_append, splitUsermask_full_at hnil hn hh]
        simp only [Usermask.mk.injEq, orStar_eq_star, orStar_of_ne hnil, hnil, ne_eq, not_true_eq_false,
          not_false_eq_true, true_or, false_or, implies_true, and_true, true_and]
        constructor
        · exact fun hparts ↦ hparts.2
        · intro hparts
          refine ⟨?_, hparts⟩
          rcases hparts with rfl | rfl
          · rfl
          · rfl
      · rw [splitUsermask_full hnil hn hunil hu, orStar_of_ne hnil, orStar_of_ne hunil]
        simp [hnil, hunil]

/-! ### What the stored mask matches -/

theorem orStar_ne_nil (s : CString) : orStar s ≠ [] := by
  rw [orStar]
  split_ifs with hs
  · exact List.cons_ne_nil _ _
  · exact hs

theorem not_mem_orStar {s : CString} {c : Char} (h : c ∉ s) (hc : c ≠ '*') : c ∉ orStar s := by
  rw [orStar]
  split_ifs
  · simpa using hc
  · exact h

/-- A part that is not there matches everything. -/
theorem matchWild_orStar (s t : CString) : matchWild (orStar s) t = (s = [] || matchWild s t) := by
  by_cases hs : s = []
  · rw [hs]
    exact doMatchWild_star_nil
  · rw [orStar_of_ne hs]
    simp [hs]

theorem matchWild_strlower_orStar (s t : CString) :
    matchWild (strlower (orStar s)) t = (s = [] || matchWild (strlower s) t) := by
  by_cases hs : s = []
  · rw [hs]
    exact doMatchWild_star_nil
  · rw [orStar_of_ne hs]
    simp [hs]

/-- A mask with all parts is matched part by part. -/
theorem matchUsermask_join {m : Usermask} (hnick : m.nick ≠ []) (hmark : '!' ∉ m.nick)
    (huser : m.user ≠ []) (hat : '@' ∉ m.user) (hhost : m.host ≠ []) (u : User) :
    matchUsermask m.join u = some (matchWild (strlower m.nick) (strlower u.nick) &&
      matchWild m.user u.username && matchWild (strlower m.host) (strlower u.host)) := by
  have hmem : '!' ∈ m.join := List.mem_append_right _ List.mem_cons_self
  have htoken : ∀ a ∈ m.nick, a ∉ ['!'] := fun a ha ↦ by simpa using ne_of_mem_of_not_mem ha hmark
  rw [matchUsermask, if_pos hmem, Usermask.join, strtok_token hnick htoken List.mem_cons_self]
  dsimp only
  rw [userhostParts_at huser hat hhost]

theorem matchUsermask_userHost {user host : CString} (huser : user ≠ []) (hmark : '!' ∉ user ++ '@' :: host)
    (hat : '@' ∉ user) (hhost : host ≠ []) (u : User) :
    matchUsermask (user ++ '@' :: host) u =
      some (matchWild user u.username && matchWild (strlower host) (strlower u.host)) := by
  rw [matchUsermask, if_neg hmark, userhostParts_at huser hat hhost]

theorem MaskParts.unmarked {mask n u h : CString} (hmask : MaskParts mask n u h) :
    Unmarked n ∧ Unmarked u := by
  have hnil : Unmarked [] := ⟨List.not_mem_nil, List.not_mem_nil⟩
  cases hmask with
  | nick hn => exact ⟨hn, hnil⟩
  | nickUser hn hu => exact ⟨hn, hu⟩
  | userHost hu hh => exact ⟨hnil, hu⟩
  | full hn hu hh => exact ⟨hn, hu⟩

/-- A complete mask matches whom it means. -/
theorem matchUsermask_complete {mask n u h : CString} (hmask : MaskParts mask n u h)
    (hnick : '!' ∈ mask → n ≠ []) (huser : u ≠ []) (hhost : h ≠ []) (user : User) :
    matchUsermask mask user = some ((n = [] || matchWild (strlower n) (strlower user.nick)) &&
      (u = [] || matchWild u user.username) && (h = [] || matchWild (strlower h) (strlower user.host))) := by
  cases hmask with
  | nick hn => exact absurd rfl huser
  | nickUser hn hu => exact absurd rfl hhost
  | userHost hu hh =>
    have hmark : '!' ∉ u ++ '@' :: h := by simp [hu.1, hh.1]
    rw [matchUsermask_userHost huser hmark hu.2 hhost]
    simp [huser, hhost]
  | full hn hu hh =>
    have hnil : n ≠ [] := hnick (by simp)
    have hjoin : n ++ '!' :: (u ++ '@' :: h) = (Usermask.mk n u h).join := rfl
    rw [hjoin, matchUsermask_join hnil hn.1 huser hu.2 hhost]
    simp [hnil, huser, hhost]

theorem noGap_iff (mask : CString) : NoGap mask ↔
    (userText mask ≠ [] ∨ hostText mask = [] ∨ hostText mask = ['*']) ∧
      ('!' ∈ mask → nickText mask ≠ [] ∨ ('@' ∉ mask ∧ (userText mask = [] ∨ userText mask = ['*']))) :=
  ⟨fun h ↦ ⟨h.user, h.nick⟩, fun h ↦ ⟨h.1, h.2⟩⟩

/-- A mask is split as it is typed exactly if no empty part comes before another. -/
theorem splitUsermask_iff {mask : CString} (h : SinglyMarked mask) : SplitsAsTyped mask ↔ NoGap mask := by
  have hmask := maskParts h
  rw [noGap_iff, ← parts_iff hmask]
  constructor
  · exact SplitsAsTyped.parts
  · intro hparts
    have hdenotes : ∀ u, matchUsermask (splitUsermask mask).join u = some (denotes mask u) := by
      intro u
      obtain ⟨hn, hu⟩ := hmask.unmarked
      rw [hparts, matchUsermask_join (orStar_ne_nil _) (not_mem_orStar hn.1 (by decide)) (orStar_ne_nil _)
        (not_mem_orStar hu.2 (by decide)) (orStar_ne_nil _), matchWild_strlower_orStar, matchWild_orStar,
        matchWild_strlower_orStar, denotes]
    refine ⟨hparts, hdenotes, fun hcomplete u ↦ ?_⟩
    rw [hdenotes, matchUsermask_complete hmask hcomplete.nick hcomplete.user hcomplete.host, denotes]

theorem splitUsermask_user_host :
    SplitsAsTyped "bob@*.example.org".toList ↔ NoGap "bob@*.example.org".toList :=
  splitUsermask_iff ⟨by decide, by decide, by decide⟩

/-- The host that is typed without a user becomes the user. -/
theorem splitUsermask_at_host :
    SinglyMarked "@example.org".toList ∧
      splitUsermask "@example.org".toList = ⟨['*'], "example.org".toList, ['*']⟩ ∧
      ¬ SplitsAsTyped "@example.org".toList := by
  have hsplit : splitUsermask "@example.org".toList = ⟨['*'], "example.org".toList, ['*']⟩ := by
    decide +kernel
  refine ⟨⟨by decide, by decide, by decide⟩, hsplit, fun h ↦ ?_⟩
  have hparts := h.parts
  rw [hsplit] at hparts
  exact absurd hparts (by decide +kernel)

end BlitzedServices.Users
