import BlitzedServices.NickServ.Commands
import BlitzedServices.Users.Usermask

/-!
# The mask of a user

`create_mask` makes a mask from the username and the host of a user: of an address it keeps the part of
the network, of a name all but the first label. `check_kick` puts `*!` in front of it. The mask always
matches the user; `createMask_hits_iff` says when it also fits the buffer that was allocated for it.
The last octet of a class C address is replaced by a star even if it is empty.
-/

set_option autoImplicit false
set_option relaxedAutoImplicit false

namespace BlitzedServices.Users

open Lib Misc
open NickServ (User)

/-- `*strrchr(s, '.') = 0`. -/
def cutLastDot (s : CString) : CString :=
  (s.reverse.dropWhile (· ≠ '.')).tail.reverse

/-- Digits and dots, with three dots. -/
def isDottedQuad (host : CString) : Bool :=
  host.all (fun c ↦ c.isDigit || c == '.') && host.count '.' == 3

/-- What `create_mask` writes behind the `@`. -/
def maskHost (host : CString) : CString :=
  if isDottedQuad host then
    let s := cutLastDot host
    let s := if (atoi host).toInt < 192 then cutLastDot s else s
    let s := if (atoi host).toInt < 128 then cutLastDot s else s
    s ++ ['.', '*']
  else if 2 ≤ host.count '.' then '*' :: host.dropWhile (· ≠ '.')
  else host

/-- A text and its NUL are written at a position of a buffer of `size` bytes. The result is the position
of the NUL. -/
def writeAt (size pos : ℕ) (text : CString) : Option ℕ :=
  if pos + text.length < size then some (pos + text.length) else none

/-- `create_mask`; `none` is a write past the end of the buffer. -/
def createMask (u : User) : Option CString := do
  let size := u.username.length + u.host.length + 2
  let pos ← writeAt size 0 (u.username ++ ['@'])
  let _ ← writeAt size pos (maskHost u.host)
  return u.username ++ '@' :: maskHost u.host

/-- The characters that separate or stand for others in a mask. -/
def isMaskChar (c : Char) : Bool :=
  c == '!' || c == '@' || isWild c

/-- A user whose names are not empty and have no characters of a mask. -/
structure PlainUser (u : User) : Prop where
  nick_ne : u.nick ≠ []
  username_ne : u.username ≠ []
  host_ne : u.host ≠ []
  plain_nick : u.nick.any isMaskChar = false
  plain_username : u.username.any isMaskChar = false
  plain_host : u.host.any isMaskChar = false
  host_dot : u.host.head? ≠ some '.'

/-- The mask of the user fits its buffer and matches him, alone and with `*!` in front. -/
def HitsTarget (u : User) : Prop :=
  ∃ mask, createMask u = some mask ∧ matchUsermask mask u = some true ∧
    matchUsermask (['*', '!'] ++ mask) u = some true

/-- An address of class C or above whose last octet is empty. -/
def LacksLastOctet (host : CString) : Prop :=
  isDottedQuad host ∧ 192 ≤ (atoi host).toInt ∧ host.getLast? = some '.'

/-! ### Cutting the host -/

/-- The cut is at a dot that no other dot follows. -/
theorem exists_cutLastDot {s : CString} (h : '.' ∈ s) :
    ∃ octet, '.' ∉ octet ∧ s = cutLastDot s ++ '.' :: octet := by
  refine ⟨(s.reverse.takeWhile (· ≠ '.')).reverse, fun hmem ↦ ?_, ?_⟩
  · have hne := List.mem_takeWhile_imp (List.mem_reverse.mp hmem)
    simp at hne
  · have hnil : s.reverse.dropWhile (· ≠ '.') ≠ [] := by
      rw [ne_eq, List.dropWhile_eq_nil_iff]
      exact fun hall ↦ absurd (hall '.' (List.mem_reverse.mpr h)) (by decide)
    have hhead : (s.reverse.dropWhile (· ≠ '.')).head hnil = '.' := by
      simpa using List.head_dropWhile_not (· ≠ '.') hnil
    have hcons := List.cons_head_tail hnil
    rw [hhead] at hcons
    calc s = s.reverse.reverse := (List.reverse_reverse s).symm
      _ = (s.reverse.takeWhile (· ≠ '.') ++ '.' :: (s.reverse.dropWhile (· ≠ '.')).tail).reverse := by
        rw [hcons, List.takeWhile_append_dropWhile]
      _ = cutLastDot s ++ '.' :: (s.reverse.takeWhile (· ≠ '.')).reverse := by
        rw [List.reverse_append, List.reverse_cons, List.append_assoc, cutLastDot]
        rfl

/-- A dotted quad by its octets. -/
theorem exists_octets {host : CString} (h : isDottedQuad host) :
    ∃ a b c d, '.' ∉ a ∧ '.' ∉ b ∧ '.' ∉ c ∧ '.' ∉ d ∧
      host = ((a ++ '.' :: b) ++ '.' :: c) ++ '.' :: d ∧
      cutLastDot host = (a ++ '.' :: b) ++ '.' :: c ∧
      cutLastDot (cutLastDot host) = a ++ '.' :: b ∧
      cutLastDot (cutLastDot (cutLastDot host)) = a := by
  have hcount : host.count '.' = 3 := by
    rw [isDottedQuad, Bool.and_eq_true, beq_iff_eq] at h
    exact h.2
  have hcut (s : CString) (n : ℕ) (hs : s.count '.' = n + 1) :
      ∃ octet, '.' ∉ octet ∧ s = cutLastDot s ++ '.' :: octet ∧ (cutLastDot s).count '.' = n := by
    obtain ⟨octet, hoctet, heq⟩ := exists_cutLastDot (List.count_pos_iff.mp (by omega : 0 < s.count '.'))
    refine ⟨octet, hoctet, heq, ?_⟩
    rw [heq, List.count_append, List.count_cons_self, List.count_eq_zero_of_not_mem hoctet] at hs
    omega
  obtain ⟨d, hd, hhost, hcount₂⟩ := hcut host 2 hcount
  obtain ⟨c, hc, hhost₂, hcount₁⟩ := hcut _ 1 hcount₂
  obtain ⟨b, hb, hhost₁, hcount₀⟩ := hcut _ 0 hcount₁
  have ha := List.count_eq_zero.mp hcount₀
  refine ⟨_, b, c, d, ha, hb, hc, hd, ?_, ?_, hhost₁, rfl⟩
  · rw [← hhost₁, ← hhost₂, ← hhost]
  · rw [← hhost₁, ← hhost₂]

theorem getLast?_eq_dot {s octet : CString} (h : '.' ∉ octet) :
    (s ++ '.' :: octet).getLast? = some '.' ↔ octet = [] := by
  constructor
  · intro hlast
    by_contra hnil
    rw [List.getLast?_append, List.getLast?_cons, List.getLast?_eq_some_getLast hnil] at hlast
    have hdot : octet.getLast hnil = '.' := by simpa using hlast
    exact h (hdot ▸ List.getLast_mem hnil)
  · rintro rfl
    simp

/-- Of an address the mask keeps a front that ends at a dot. It is not too long for the buffer, unless
nothing follows the last dot. -/
theorem maskHost_quad {host : CString} (h : isDottedQuad host) :
    ∃ net rest, host = net ++ '.' :: rest ∧ maskHost host = net ++ ['.', '*'] ∧
      (net.length + 2 ≤ host.length ↔ ¬ LacksLastOctet host) := by
  obtain ⟨a, b, c, d, -, -, -, hd, hhost, hcut₁, hcut₂, hcut₃⟩ := exists_octets h
  have hlast : host.getLast? = some '.' ↔ d = [] := by
    rw [hhost]
    exact getLast?_eq_dot hd
  have hlength : host.length = a.length + b.length + c.length + d.length + 3 := by
    rw [hhost]
    simp only [List.length_append, List.length_cons]
    omega
  rw [maskHost, if_pos h, hcut₁, LacksLastOctet, hlast]
  dsimp only
  by_cases hb : (atoi host).toInt < 192
  · rw [if_pos hb, ← hcut₁, hcut₂]
    have hclass : ¬ 192 ≤ (atoi host).toInt := not_le.mpr hb
    by_cases ha : (atoi host).toInt < 128
    · rw [if_pos ha, ← hcut₂, hcut₃]
      refine ⟨a, b ++ '.' :: (c ++ '.' :: d), ?_, rfl, ?_⟩
      · rw [hhost]
        simp
      · simp only [hclass, false_and, and_false, not_false_eq_true, iff_true]
        omega
    · rw [if_neg ha]
      refine ⟨a ++ '.' :: b, c ++ '.' :: d, ?_, rfl, ?_⟩
      · rw [hhost]
        simp
      · simp only [hclass, false_and, and_false, not_false_eq_true, iff_true, List.length_append,
          List.length_cons]
        omega
  · have ha : ¬ (atoi host).toInt < 128 := fun ha ↦ hb (by omega)
    rw [if_neg hb, if_neg ha]
    refine ⟨_, d, hhost, rfl, ?_⟩
    have hclass : 192 ≤ (atoi host).toInt := not_lt.mp hb
    simp only [h, hclass, true_and, ← List.length_pos_iff, ← ne_eq, List.length_append,
      List.length_cons]
    omega

/-- Of a name with two dots the mask keeps all from the first of them on. -/
theorem exists_label {host : CString} (hdot : host.head? ≠ some '.') (h : 2 ≤ host.count '.') :
    ∃ label rest, label ≠ [] ∧ host = label ++ '.' :: rest ∧
      host.dropWhile (· ≠ '.') = '.' :: rest := by
  obtain ⟨label, rest, rfl, hlabel⟩ :=
    List.eq_append_cons_of_mem (List.count_pos_iff.mp (by omega : 0 < host.count '.'))
  refine ⟨label, rest, ?_, rfl, ?_⟩
  · rintro rfl
    exact hdot rfl
  · rw [List.dropWhile_append_of_pos fun c hc ↦ by simpa using ne_of_mem_of_not_mem hc hlabel]
    simp

theorem maskHost_name {host : CString} (h : ¬ isDottedQuad host) (hcount : 2 ≤ host.count '.') :
    maskHost host = '*' :: host.dropWhile (· ≠ '.') := by
  rw [maskHost, if_neg h, if_pos hcount]

theorem maskHost_short {host : CString} (h : ¬ isDottedQuad host) (hcount : ¬ 2 ≤ host.count '.') :
    maskHost host = host := by
  rw [maskHost, if_neg h, if_neg hcount]

theorem length_maskHost_le {host : CString} (hdot : host.head? ≠ some '.') :
    (maskHost host).length ≤ host.length ↔ ¬ LacksLastOctet host := by
  by_cases h : isDottedQuad host
  · obtain ⟨net, rest, -, hmask, hlength⟩ := maskHost_quad h
    rw [hmask, ← hlength, List.length_append]
    rfl
  · have hlacks : ¬ LacksLastOctet host := fun hlacks ↦ h hlacks.1
    by_cases hcount : 2 ≤ host.count '.'
    · obtain ⟨label, rest, hlabel, hhost, hdrop⟩ := exists_label hdot hcount
      have hpos := List.length_pos_iff.mpr hlabel
      rw [maskHost_name h hcount, hdrop, hhost]
      rw [hhost] at hlacks
      simp only [List.length_cons, List.length_append, hlacks, not_false_eq_true, iff_true]
      omega
    · rw [maskHost_short h hcount]
      exact iff_of_true le_rfl hlacks

theorem maskHost_ne_nil {host : CString} (hne : host ≠ []) : maskHost host ≠ [] := by
  by_cases h : isDottedQuad host
  · obtain ⟨net, rest, -, hmask, -⟩ := maskHost_quad h
    rw [hmask]
    exact List.append_ne_nil_of_right_ne_nil _ (by decide)
  · by_cases hcount : 2 ≤ host.count '.'
    · rw [maskHost_name h hcount]
      exact List.cons_ne_nil _ _
    · rwa [maskHost_short h hcount]

/-- The mask has no character of its own but the star. -/
theorem mem_maskHost {host : CString} {c : Char} (hc : c ∈ maskHost host) : c ∈ host ∨ c = '*' := by
  by_cases h : isDottedQuad host
  · obtain ⟨net, rest, heq, hmask, -⟩ := maskHost_quad h
    rw [hmask, List.mem_append] at hc
    rw [heq]
    simp only [List.mem_cons, List.not_mem_nil, or_false] at hc
    rcases hc with hc | rfl | rfl
    · exact .inl (List.mem_append_left _ hc)
    · exact .inl (List.mem_append_right _ List.mem_cons_self)
    · exact .inr rfl
  · by_cases hcount : 2 ≤ host.count '.'
    · rw [maskHost_name h hcount] at hc
      rcases List.mem_cons.mp hc with rfl | hc
      · exact .inr rfl
      · exact .inl ((List.dropWhile_suffix _).subset hc)
    · rw [maskHost_short h hcount] at hc
      exact .inl hc

/-- The number of labels is one more than the number of dots. -/
theorem length_splitOn_dot (s : CString) : (s.splitOn '.').length = s.count '.' + 1 := by
  induction s with
  | nil => rfl
  | cons c s ih =>
    rw [List.splitOn_cons_eq_if_modifyHead, List.count_cons]
    by_cases hc : c = '.'
    · subst hc
      rw [if_pos (beq_self_eq_true '.'), if_pos (beq_self_eq_true '.'), List.length_cons, ih]
    · rw [if_neg (by simpa using hc), if_neg (by simpa using hc), List.length_modifyHead, ih]

/-- The text that NickServ adds to the access list of a nick is the same. -/
theorem nickServ_createMask_eq (u : User) :
    NickServ.createMask u = u.username ++ '@' :: maskHost u.host := by
  have hlength := length_splitOn_dot u.host
  have hcount : 2 ≤ u.host.count '.' ↔ 3 ≤ (u.host.splitOn '.').length := by omega
  rw [NickServ.createMask]
  dsimp only
  by_cases h : isDottedQuad u.host
  · obtain ⟨a, b, c, d, ha, hb, hc, hd, hhost, hcut₁, hcut₂, hcut₃⟩ := exists_octets h
    have hsplit : u.host.splitOn '.' = [a, b, c, d] := by
      rw [hhost, List.splitOn_append_cons_self, List.splitOn_append_cons_self,
        List.splitOn_append_cons_self, List.splitOn_eq_singleton ha, List.splitOn_eq_singleton hb,
        List.splitOn_eq_singleton hc, List.splitOn_eq_singleton hd]
      rfl
    have hquad := h
    rw [isDottedQuad, Bool.and_eq_true] at hquad
    rw [maskHost, if_pos h, hsplit, if_pos ⟨hquad.1, rfl⟩]
    dsimp only
    by_cases hlow : (atoi u.host).toInt < 128
    · have hmid : (atoi u.host).toInt < 192 := by omega
      rw [if_pos hlow, if_pos hlow, if_pos hmid, hcut₃]
      simp
    · rw [if_neg hlow, if_neg hlow]
      by_cases hmid : (atoi u.host).toInt < 192
      · rw [if_pos hmid, if_pos hmid, hcut₂]
        simp
      · rw [if_neg hmid, if_neg hmid, hcut₁]
        simp
  · have hquad : ¬ (u.host.all (fun c ↦ c.isDigit || c == '.') = true ∧
        (u.host.splitOn '.').length = 4) := by
      rintro ⟨hall, hfour⟩
      refine h ?_
      rw [isDottedQuad, hall, Bool.true_and, beq_iff_eq]
      omega
    rw [maskHost, if_neg h, if_neg hquad]
    by_cases hname : 2 ≤ u.host.count '.'
    · rw [if_pos hname, if_pos (hcount.mp hname)]
    · rw [if_neg hname, if_neg (mt hcount.mpr hname)]

/-! ### What the mask matches -/

/-- A text without wild characters at the front of a pattern matches itself. -/
theorem doMatchWild_append {docase : Bool} {p : CString} (hp : ∀ c ∈ p, isWild c = false)
    (q t : CString) : doMatchWild docase (p ++ q) (p ++ t) = doMatchWild docase q t := by
  induction p with
  | nil => rfl
  | cons c p ih =>
    have hc : isWild c = false := hp c List.mem_cons_self
    rw [← ih fun d hd ↦ hp d (List.mem_cons_of_mem _ hd), Bool.eq_iff_iff, List.cons_append,
      doMatchWild_literal hc]
    constructor
    · rintro ⟨a, u, heq, -, hmatch⟩
      obtain rfl : p ++ t = u := (List.cons.inj heq).2
      exact hmatch
    · exact fun hmatch ↦ ⟨c, p ++ t, rfl, by cases docase <;> simp [sameChar], hmatch⟩

theorem matchWild_self {s : CString} (hs : ∀ c ∈ s, isWild c = false) : matchWild s s = true := by
  have h : doMatchWild true (s ++ []) (s ++ []) = doMatchWild true [] [] := doMatchWild_append hs [] []
  rw [List.append_nil] at h
  rw [matchWild, h]
  rfl

/-- A star at the end matches what is left. -/
theorem matchWild_front {p : CString} (hp : ∀ c ∈ p, isWild c = false) (t : CString) :
    matchWild (p ++ ['*']) (p ++ t) = true := by
  rw [matchWild, doMatchWild_append hp, doMatchWild_star_nil]

/-- A star at the front matches what comes before. -/
theorem matchWild_back {t : CString} (ht : ∀ c ∈ t, isWild c = false) (s : CString) :
    matchWild ('*' :: t) (s ++ t) = true := by
  cases t with
  | nil => exact doMatchWild_star_nil
  | cons c t =>
    rw [matchWild, doMatchWild_star (List.cons_ne_nil c t)]
    exact .inl ⟨c :: t, List.suffix_append _ _, by simp [startsAlike, sameChar], matchWild_self ht⟩

theorem isWild_of_mem_strlower {s : CString} (hs : ∀ c ∈ s, isWild c = false) :
    ∀ c ∈ strlower s, isWild c = false := by
  intro c hc
  obtain ⟨d, hd, rfl⟩ := List.mem_map.mp hc
  rw [Bool.eq_false_iff]
  intro hwild
  have heq := (toLower_eq_iff hwild).mp rfl
  rw [← heq, hs d hd] at hwild
  cases hwild

theorem strlower_append (s t : CString) : strlower (s ++ t) = strlower s ++ strlower t :=
  List.map_append

/-- The host is matched by what the mask has of it. -/
theorem matchWild_maskHost {host : CString} (hhost : ∀ c ∈ host, isWild c = false)
    (hdot : host.head? ≠ some '.') : matchWild (strlower (maskHost host)) (strlower host) = true := by
  have hlower := isWild_of_mem_strlower hhost
  by_cases h : isDottedQuad host
  · obtain ⟨net, rest, heq, hmask, -⟩ := maskHost_quad h
    have hfront : host = (net ++ ['.']) ++ rest := by
      rw [heq]
      simp
    have hmask' : maskHost host = (net ++ ['.']) ++ ['*'] := by
      rw [hmask]
      simp
    rw [hfront, strlower_append] at hlower
    rw [hmask', hfront, strlower_append, strlower_append (net ++ ['.'])]
    exact matchWild_front (fun c hc ↦ hlower c (List.mem_append_left _ hc)) _
  · by_cases hcount : 2 ≤ host.count '.'
    · obtain ⟨label, rest, -, heq, hdrop⟩ := exists_label hdot hcount
      rw [heq, strlower_append] at hlower
      rw [maskHost_name h hcount, hdrop, heq, strlower_append]
      exact matchWild_back (fun c hc ↦ hlower c (List.mem_append_right _ hc)) _
    · rw [maskHost_short h hcount]
      exact matchWild_self hlower

section Plain

variable {u : User}

theorem not_mem_of_plain {s : CString} (hs : s.any isMaskChar = false) {c : Char}
    (hc : isMaskChar c = true) : c ∉ s :=
  fun hmem ↦ List.any_eq_false.mp hs c hmem hc

theorem isWild_of_plain {s : CString} (hs : s.any isMaskChar = false) :
    ∀ c ∈ s, isWild c = false := by
  intro c hc
  have hplain := List.any_eq_false.mp hs c hc
  rw [Bool.not_eq_true, isMaskChar, Bool.or_eq_false_iff] at hplain
  exact hplain.2

/-- The parts of the mask match the parts of the user. -/
theorem matchUsermask_mask (h : PlainUser u) :
    matchUsermask (u.username ++ '@' :: maskHost u.host) u = some true ∧
      matchUsermask (['*', '!'] ++ (u.username ++ '@' :: maskHost u.host)) u = some true := by
  have hparts : userhostParts (u.username ++ '@' :: maskHost u.host) = some (u.username, maskHost u.host) :=
    userhostParts_at h.username_ne (not_mem_of_plain h.plain_username rfl) (maskHost_ne_nil h.host_ne)
  have hhost := matchWild_maskHost (isWild_of_plain h.plain_host) h.host_dot
  have hname := matchWild_self (isWild_of_plain h.plain_username)
  have hnick : strtok ['!'] (['*', '!'] ++ (u.username ++ '@' :: maskHost u.host)) =
      some (['*'], u.username ++ '@' :: maskHost u.host) := by
    have htoken : ∀ a ∈ ['*'], a ∉ ['!'] := by simp
    exact strtok_token (List.cons_ne_nil _ _) htoken List.mem_cons_self _
  constructor
  · have hmark : '!' ∉ u.username ++ '@' :: maskHost u.host := by
      rw [List.mem_append, List.mem_cons, not_or, not_or]
      refine ⟨not_mem_of_plain h.plain_username rfl, by decide, fun hmem ↦ ?_⟩
      rcases mem_maskHost hmem with hmem | hmem
      · exact not_mem_of_plain h.plain_host rfl hmem
      · exact absurd hmem (by decide)
    rw [matchUsermask, if_neg hmark, hparts]
    dsimp only
    rw [hname, hhost]
    rfl
  · have hmark : '!' ∈ ['*', '!'] ++ (u.username ++ '@' :: maskHost u.host) :=
      List.mem_append_left _ (by decide)
    have hstar : matchWild (strlower ['*']) (strlower u.nick) = true := doMatchWild_star_nil
    rw [matchUsermask, if_pos hmark, hnick]
    dsimp only
    rw [hparts]
    dsimp only
    rw [hstar, hname, hhost]
    rfl

theorem createMask_eq (u : User) :
    createMask u = if (maskHost u.host).length ≤ u.host.length then
      some (u.username ++ '@' :: maskHost u.host) else none := by
  have hname : writeAt (u.username.length + u.host.length + 2) 0 (u.username ++ ['@']) =
      some (u.username.length + 1) := by
    rw [writeAt, if_pos (by simp), Nat.zero_add, List.length_append]
    rfl
  have hhost : u.username.length + 1 + (maskHost u.host).length <
      u.username.length + u.host.length + 2 ↔ (maskHost u.host).length ≤ u.host.length := by
    omega
  rw [createMask, hname, Option.bind_eq_bind, Option.bind_some, writeAt]
  by_cases hfits : (maskHost u.host).length ≤ u.host.length
  · rw [if_pos hfits, if_pos (hhost.mpr hfits)]
    rfl
  · rw [if_neg hfits, if_neg (mt hhost.mp hfits)]
    rfl

/-- The mask of a user hits him unless it needs one byte more than the buffer has. -/
theorem createMask_hits_iff (h : PlainUser u) : HitsTarget u ↔ ¬ LacksLastOctet u.host := by
  have hmatch := matchUsermask_mask h
  rw [HitsTarget, createMask_eq, ← length_maskHost_le h.host_dot]
  constructor
  · rintro ⟨mask, hmask, -⟩
    by_contra hlong
    rw [if_neg hlong] at hmask
    cases hmask
  · intro hfits
    exact ⟨_, if_pos hfits, hmatch.1, hmatch.2⟩

end Plain

/-- A user at an address. -/
def userAt (username host : CString) : User where
  uid := 0
  nick := "bob".toList
  username := username
  host := host
  realId := 0
  nickId := 0
  mySignon := 0
  servicesStamp := 0
  oper := false
  lastnickreg := 0

theorem createMask_hits_tilde :
    HitsTarget (userAt "~bob".toList "200.1.1.7".toList) ↔ ¬ LacksLastOctet "200.1.1.7".toList :=
  createMask_hits_iff (u := userAt "~bob".toList "200.1.1.7".toList)
    ⟨by decide, by decide, by decide, by decide, by decide, by decide, by decide⟩

/-- `200.1.1.` becomes `200.1.1.*`. -/
theorem createMask_overrun :
    PlainUser (userAt "bob".toList "200.1.1.".toList) ∧
      createMask (userAt "bob".toList "200.1.1.".toList) = none ∧
      ¬ HitsTarget (userAt "bob".toList "200.1.1.".toList) := by
  have hmask : createMask (userAt "bob".toList "200.1.1.".toList) = none := by decide +kernel
  refine ⟨?_, hmask, ?_⟩
  · exact ⟨by decide, by decide, by decide, by decide, by decide, by decide, by decide⟩
  · rintro ⟨mask, hsome, -⟩
    rw [hmask] at hsome
    cases hsome

end BlitzedServices.Users
