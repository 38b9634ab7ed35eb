import BlitzedServices.Lib.CBuffer

/-!
# Nicks and channel names without regard to case

`irc_toupper` and `irc_tolower` take `[` and `{`, `\` and `|`, `]` and `}` for the two cases of one letter.
`irc_stricmp` compares with `tolower` and so tells them apart: `ircEquiv_of_ircStricmp` is only one direction.
-/

set_option autoImplicit false
set_option relaxedAutoImplicit false

namespace BlitzedServices.Misc

open Lib

/-- `irc_toupper`. -/
def ircToupper (c : Char) : Char :=
  if ('a' ≤ c ∧ c ≤ 'z') ∨ ('{' ≤ c ∧ c ≤ '}') then Char.ofNat (c.toNat - 32) else c

/-- `irc_tolower`. -/
def ircTolower (c : Char) : Char :=
  if ('A' ≤ c ∧ c ≤ 'Z') ∨ ('[' ≤ c ∧ c ≤ ']') then Char.ofNat (c.toNat + 32) else c

/-- `irc_stricmp`. It calls `tolower`, as `stricmp` does. -/
def ircStricmp (s1 s2 : CString) : ℤ :=
  stricmp s1 s2

/-- The two names are the same under the IRC case mapping. -/
def IrcEquiv (s t : CString) : Prop :=
  s.map ircTolower = t.map ircTolower

instance (s t : CString) : Decidable (IrcEquiv s t) := inferInstanceAs (Decidable (_ = _))

/-! ### Code points -/

theorem toNat_ofNat_of_lt {n : ℕ} (h : n < 256) : (Char.ofNat n).toNat = n := by
  rw [Char.toNat_ofNat, if_pos (.inl (by omega))]

theorem toNat_ircTolower (c : Char) :
    (ircTolower c).toNat = if 65 ≤ c.toNat ∧ c.toNat ≤ 93 then c.toNat + 32 else c.toNat := by
  have hle (a b : Char) : a ≤ b ↔ a.toNat ≤ b.toNat := UInt32.le_iff_toNat_le
  have hmap : (('A' ≤ c ∧ c ≤ 'Z') ∨ ('[' ≤ c ∧ c ≤ ']')) ↔ 65 ≤ c.toNat ∧ c.toNat ≤ 93 := by
    rw [hle, hle, hle, hle, show 'A'.toNat = 65 from rfl, show 'Z'.toNat = 90 from rfl,
      show '['.toNat = 91 from rfl, show ']'.toNat = 93 from rfl]
    omega
  rw [ircTolower]
  by_cases hc : 65 ≤ c.toNat ∧ c.toNat ≤ 93
  · rw [if_pos (hmap.mpr hc), if_pos hc, toNat_ofNat_of_lt (by omega)]
  · rw [if_neg fun h ↦ hc (hmap.mp h), if_neg hc]

theorem toNat_ircToupper (c : Char) :
    (ircToupper c).toNat = if 97 ≤ c.toNat ∧ c.toNat ≤ 125 then c.toNat - 32 else c.toNat := by
  have hle (a b : Char) : a ≤ b ↔ a.toNat ≤ b.toNat := UInt32.le_iff_toNat_le
  have hmap : (('a' ≤ c ∧ c ≤ 'z') ∨ ('{' ≤ c ∧ c ≤ '}')) ↔ 97 ≤ c.toNat ∧ c.toNat ≤ 125 := by
    rw [hle, hle, hle, hle, show 'a'.toNat = 97 from rfl, show 'z'.toNat = 122 from rfl,
      show '{'.toNat = 123 from rfl, show '}'.toNat = 125 from rfl]
    omega
  rw [ircToupper]
  by_cases hc : 97 ≤ c.toNat ∧ c.toNat ≤ 125
  · rw [if_pos (hmap.mpr hc), if_pos hc, toNat_ofNat_of_lt (by omega)]
  · rw [if_neg fun h ↦ hc (hmap.mp h), if_neg hc]

theorem toNat_toLower (c : Char) :
    c.toLower.toNat = if 65 ≤ c.toNat ∧ c.toNat ≤ 90 then c.toNat + 32 else c.toNat := by
  have hcapital : (c.val ≥ 'A'.val ∧ c.val ≤ 'Z'.val) ↔ 65 ≤ c.toNat ∧ c.toNat ≤ 90 := by
    rw [ge_iff_le, UInt32.le_iff_toNat_le, UInt32.le_iff_toNat_le]
    rfl
  rw [Char.toLower]
  split_ifs with h h' h'
  · have hsum : (c.val + ('a'.val - 'A'.val)).toNat = (c.toNat + 32) % 2 ^ 32 := UInt32.toNat_add ..
    rw [Nat.mod_eq_of_lt (by omega)] at hsum
    exact hsum
  · exact absurd (hcapital.mp h) h'
  · exact absurd (hcapital.mpr h') h
  · rfl

/-- A change of case keeps the low five bits. -/
theorem ircTolower_and (c : Char) : (ircTolower c).toNat &&& 31 = c.toNat &&& 31 := by
  rw [toNat_ircTolower]
  split_ifs
  · rw [show 31 = 2 ^ 5 - 1 from rfl, Nat.and_two_pow_sub_one_eq_mod, Nat.and_two_pow_sub_one_eq_mod]
    omega
  · rfl

@[simp] theorem ircTolower_nul : ircTolower nul = nul := by decide

/-- Letters of one case are the same letter under the IRC mapping. -/
theorem ircTolower_toLower (c : Char) : ircTolower c.toLower = ircTolower c := by
  rw [← Char.toNat_inj, toNat_ircTolower, toNat_ircTolower, toNat_toLower]
  split_ifs <;> omega

/-- Both functions make the same names equal. -/
theorem ircToupper_eq_iff (c d : Char) : ircToupper c = ircToupper d ↔ ircTolower c = ircTolower d := by
  rw [← Char.toNat_inj, ← Char.toNat_inj, toNat_ircToupper, toNat_ircToupper, toNat_ircTolower,
    toNat_ircTolower]
  split_ifs <;> omega

/-! ### Names -/

theorem ircStricmp_eq_zero_iff (s t : CString) :
    ircStricmp s t = 0 ↔ s.map Char.toLower = t.map Char.toLower :=
  stricmp_eq_zero_iff s t

/-- Names that compare equal are the same under the IRC mapping. -/
theorem ircEquiv_of_ircStricmp {s t : CString} (h : ircStricmp s t = 0) : IrcEquiv s t := by
  have hmap (u : CString) : u.map ircTolower = (u.map Char.toLower).map ircTolower := by
    rw [List.map_map]
    exact List.map_congr_left fun c _ ↦ (ircTolower_toLower c).symm
  rw [IrcEquiv, hmap s, hmap t, (ircStricmp_eq_zero_iff s t).mp h]

theorem IrcEquiv.symm {s t : CString} (h : IrcEquiv s t) : IrcEquiv t s := Eq.symm h

theorem IrcEquiv.trans {s t u : CString} (hst : IrcEquiv s t) (htu : IrcEquiv t u) : IrcEquiv s u :=
  Eq.trans hst htu

/-- Without the bracket characters the two comparisons agree. -/
theorem ircStricmp_of_ircEquiv {s t : CString} (h : IrcEquiv s t)
    (hs : ∀ c ∈ s, ¬ (91 ≤ c.toNat ∧ c.toNat ≤ 93) ∧ ¬ (123 ≤ c.toNat ∧ c.toNat ≤ 125)) :
    ircStricmp s t = 0 := by
  rw [ircStricmp_eq_zero_iff]
  induction s generalizing t with
  | nil =>
    obtain rfl := List.map_eq_nil_iff.mp (Eq.symm h)
    rfl
  | cons c s ih =>
    cases t with
    | nil => cases h
    | cons d t =>
      obtain ⟨hcd, htail⟩ := List.cons.inj h
      obtain ⟨hc, hrest⟩ := List.forall_mem_cons.mp hs
      rw [List.map_cons, List.map_cons, ih htail hrest]
      congr 1
      rw [← Char.toNat_inj, toNat_ircTolower, toNat_ircTolower] at hcd
      rw [← Char.toNat_inj, toNat_toLower, toNat_toLower]
      split_ifs at hcd ⊢ <;> omega

end BlitzedServices.Misc
