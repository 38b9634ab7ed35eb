import BlitzedServices.Vsnprintf.Emission

/-!
# Reading a conversion

`pfmt_conversion`: the characters of a conversion are read into a token that stands for it, and it is printed
with its argument. This needs a width and a precision that the formatter knows how to read.
-/

set_option autoImplicit false
set_option relaxedAutoImplicit false

namespace BlitzedServices.Vsnprintf

open Lib
open Misc (toInt32 intMax)

section Steps

variable {t t' t'' : Token} {args args' args'' : List Arg} {s s' : CString} {a : Char}

/-- The characters turn the token and the arguments into others. -/
def Scans (t : Token) (args : List Arg) (s : CString) (t' : Token) (args' : List Arg) : Prop :=
  ∀ size start rest out, pfmt size (some t) start args (s ++ rest) out =
    pfmt size (some t') (start ++ s) args' rest out

theorem Scans.refl (t : Token) (args : List Arg) : Scans t args [] t args := by
  intro size start rest out
  rw [List.nil_append, List.append_nil]

theorem Scans.trans (h : Scans t args s t' args') (h' : Scans t' args' s' t'' args'') :
    Scans t args (s ++ s') t'' args'' := by
  intro size start rest out
  rw [List.append_assoc, h, h', List.append_assoc]

theorem scans_of_more (h : tokenStep t args a = .more t' args') : Scans t args [a] t' args' := by
  intro size start rest out
  rw [List.singleton_append, pfmt, Option.map_some, Option.getD_some, h]

theorem pfmt_valid {value : Value} (h : tokenStep t args a = .valid value args') (size : ℕ) (start rest : CString)
    (out : Out) : pfmt size (some t) start args (a :: rest) out =
      (emit size t value out).bind (pfmt size none [] args' rest) := by
  rw [pfmt, Option.map_some, Option.getD_some, h]
  rfl

/-! ### Flags -/

/-- A token with flags more. -/
def Token.addFlags (t : Token) (flags : CString) : Token :=
  { t with
    alt_form := t.alt_form || decide ('#' ∈ flags)
    left_justify := t.left_justify || decide ('-' ∈ flags)
    always_sign := t.always_sign || decide ('+' ∈ flags)
    zero_pad := t.zero_pad || decide ('0' ∈ flags) }

theorem tokenStep_flag (hwhat : t.what = 0) (ha : a ∈ flagChars) (hspace : a ≠ ' ') :
    tokenStep t args a = .more (t.addFlags [a]) args := by
  have hlist : flagChars = ['#', '-', '+', ' ', '0'] := rfl
  rw [hlist] at ha
  simp only [List.mem_cons, List.not_mem_nil, or_false] at ha
  rcases ha with rfl | rfl | rfl | rfl | rfl
  · simp [tokenStep, flagStep, hwhat, Token.addFlags]
  · simp [tokenStep, flagStep, hwhat, Token.addFlags]
  · simp [tokenStep, flagStep, hwhat, Token.addFlags]
  · exact absurd rfl hspace
  · simp [tokenStep, hwhat, Token.addFlags]

theorem Token.addFlags_cons (t : Token) (a : Char) (flags : CString) :
    (t.addFlags [a]).addFlags flags = t.addFlags (a :: flags) := by
  simp [Token.addFlags, Bool.or_assoc, Bool.decide_or]

theorem scans_flags {flags : CString} (hflags : ∀ a ∈ flags, a ∈ flagChars) (hspace : ' ' ∉ flags)
    (hwhat : t.what = 0) : Scans t args flags (t.addFlags flags) args := by
  induction flags generalizing t with
  | nil =>
    have hsame : t.addFlags [] = t := by simp [Token.addFlags]
    rw [hsame]
    exact Scans.refl t args
  | cons a flags ih =>
    rw [List.mem_cons, not_or] at hspace
    have hfirst : Scans t args [a] (t.addFlags [a]) args :=
      scans_of_more (tokenStep_flag hwhat (hflags a List.mem_cons_self) (Ne.symm hspace.1))
    have hrest := ih (fun b hb ↦ hflags b (List.mem_cons_of_mem _ hb)) hspace.2 (t := t.addFlags [a]) hwhat
    rw [Token.addFlags_cons] at hrest
    exact hfirst.trans hrest

/-! ### Digits -/

theorem tokenStep_digit (ha : a.isDigit = true) (hzero : a = '0' → t.what ≠ 0) :
    tokenStep t args a = digitStep t args a := by
  unfold tokenStep
  split
  all_goals first
    | exact absurd ha (by decide)
    | exact if_neg (hzero rfl)
    | exact if_pos ha

theorem le_ofDigitChars (s : CString) (n : ℕ) : n ≤ Nat.ofDigitChars 10 s n := by
  induction s generalizing n with
  | nil => exact le_rfl
  | cons a s ih =>
    have hstep := ih (10 * n + (a.toNat - '0'.toNat))
    rw [Nat.ofDigitChars_cons]
    omega

theorem addDigit_eq (ha : a.isDigit = true) {n : ℤ} {m : ℕ} (hn : max n 0 = m)
    (hsmall : (Nat.ofDigitChars 10 [a] m : ℤ) + 48 ≤ intMax) :
    addDigit n a = some (Nat.ofDigitChars 10 [a] m : ℤ) := by
  have hlow : '0'.toNat ≤ a.toNat := by
    rw [Char.isDigit, Bool.and_eq_true, decide_eq_true_eq] at ha
    exact ha.1
  have hzero : '0'.toNat = 48 := rfl
  rw [Nat.ofDigitChars_cons, Nat.ofDigitChars_nil] at hsmall ⊢
  rw [addDigit, hn]
  rw [if_pos (by omega)]
  congr 1
  omega

theorem ofDigitChars_singleton_le (a : Char) (s : CString) (n : ℕ) :
    Nat.ofDigitChars 10 [a] n ≤ Nat.ofDigitChars 10 (a :: s) n := by
  rw [Nat.ofDigitChars_cons, Nat.ofDigitChars_nil, Nat.ofDigitChars_cons]
  exact le_ofDigitChars s _

/-- The digits of a width. The first is no zero, which would be a flag. -/
theorem scans_width_digits (args : List Arg) {n : ℕ} (hs : ∀ a ∈ s, a.isDigit = true) (hne : s ≠ [])
    (hwhat : t.what ≤ 1) (hzero : t.what = 0 → s.head? ≠ some '0') (hn : max t.width 0 = n)
    (hsmall : (Nat.ofDigitChars 10 s n : ℤ) + 48 ≤ intMax) :
    Scans t args s { t with width := (Nat.ofDigitChars 10 s n : ℤ), what := 1 } args := by
  induction s generalizing t n with
  | nil => exact absurd rfl hne
  | cons a s ih =>
    have ha : a.isDigit = true := hs a List.mem_cons_self
    have hle := ofDigitChars_singleton_le a s n
    have hstep : tokenStep t args a =
        .more { t with width := (Nat.ofDigitChars 10 [a] n : ℤ), what := 1 } args := by
      rw [tokenStep_digit ha fun heq hwhat ↦ hzero hwhat (by rw [heq]; rfl), digitStep, if_neg (by omega),
        if_pos hwhat, addDigit_eq ha hn (by omega)]
    by_cases hs' : s = []
    · rw [hs']
      exact scans_of_more hstep
    · have happend : Nat.ofDigitChars 10 (a :: s) n = Nat.ofDigitChars 10 s (Nat.ofDigitChars 10 [a] n) :=
        Nat.ofDigitChars_append (l := [a]) (m := s) n
      rw [happend] at hsmall ⊢
      have hrest := ih (t := { t with width := (Nat.ofDigitChars 10 [a] n : ℤ), what := 1 })
        (fun b hb ↦ hs b (List.mem_cons_of_mem _ hb)) hs' le_rfl (fun h ↦ absurd h one_ne_zero)
        (max_eq_left (Int.natCast_nonneg _)) hsmall
      exact (scans_of_more hstep).trans hrest

/-- The digits of a precision. -/
theorem scans_precision_digits (args : List Arg) {n : ℕ} (hs : ∀ a ∈ s, a.isDigit = true) (hne : s ≠ [])
    (hwhat : t.what = 2) (hn : max t.precision 0 = n) (hsmall : (Nat.ofDigitChars 10 s n : ℤ) + 48 ≤ intMax) :
    Scans t args s { t with precision := (Nat.ofDigitChars 10 s n : ℤ) } args := by
  induction s generalizing t n with
  | nil => exact absurd rfl hne
  | cons a s ih =>
    have ha : a.isDigit = true := hs a List.mem_cons_self
    have hle := ofDigitChars_singleton_le a s n
    have hstep : tokenStep t args a = .more { t with precision := (Nat.ofDigitChars 10 [a] n : ℤ) } args := by
      rw [tokenStep_digit ha fun _ ↦ by omega, digitStep, if_neg (by omega), if_neg (by omega),
        addDigit_eq ha hn (by omega)]
    by_cases hs' : s = []
    · rw [hs']
      exact scans_of_more hstep
    · have happend : Nat.ofDigitChars 10 (a :: s) n = Nat.ofDigitChars 10 s (Nat.ofDigitChars 10 [a] n) :=
        Nat.ofDigitChars_append (l := [a]) (m := s) n
      rw [happend] at hsmall ⊢
      have hrest := ih (t := { t with precision := (Nat.ofDigitChars 10 [a] n : ℤ) })
        (fun b hb ↦ hs b (List.mem_cons_of_mem _ hb)) hs' hwhat (max_eq_left (Int.natCast_nonneg _)) hsmall
      exact (scans_of_more hstep).trans hrest

/-! ### Parts of a conversion -/

/-- A token with a width, which justifies to the left if it is negative. -/
def Token.addWidth (t : Token) (n w : ℤ) (what : ℕ) : Token :=
  { t with left_justify := t.left_justify || decide (n < 0), width := w, what := what }

/-- A token with a precision. -/
def Token.addPrecision (t : Token) (p : Option ℕ) (what : ℕ) : Token :=
  { t with precision := p.elim (-1) fun p ↦ (p : ℤ), what := what }

/-- A token with an argument size. -/
def Token.addSize (t : Token) (argsize : ArgSize) (what : ℕ) : Token :=
  { t with argsize := argsize, what := what }

theorem scans_width {width : Width} {n : ℤ} (hwritten : width.Written) (hsmall : width.Small n)
    (htake : width.take args = some (n, args')) (hwhat : t.what = 0) (hwidth : t.width = -1) :
    ∃ w what, what ≤ 1 ∧ WidthIs w n.natAbs ∧
      Scans t args width.spell (t.addWidth n w what) args' := by
  cases width with
  | absent =>
    obtain ⟨rfl, rfl⟩ := Prod.mk.inj (Option.some.inj htake)
    refine ⟨-1, 0, by decide, .inr ⟨rfl, rfl⟩, ?_⟩
    have hsame : t.addWidth 0 (-1) 0 = t := by
      rw [Token.addWidth, ← hwidth, ← hwhat]
      simp
    rw [hsame]
    exact Scans.refl t args
  | digits s =>
    obtain ⟨rfl, rfl⟩ := Prod.mk.inj (Option.some.inj htake)
    obtain ⟨hne, hhead, hdigits⟩ := hwritten
    refine ⟨_, 1, le_rfl, .inl rfl, ?_⟩
    have hscan := scans_width_digits args hdigits hne (by omega) (fun _ ↦ hhead)
      (show max t.width 0 = (0 : ℕ) by rw [hwidth]; rfl) hsmall
    rw [Token.addWidth, decide_eq_false (not_lt.mpr (Int.natCast_nonneg _)), Bool.or_false, Int.natAbs_natCast]
    exact hscan
  | star =>
    rw [Width.spell]
    cases args with
    | nil => cases htake
    | cons arg args =>
      cases arg with
      | int m =>
        obtain ⟨rfl, rfl⟩ := Prod.mk.inj (Option.some.inj htake)
        refine ⟨m.toInt.natAbs, 1, le_rfl, .inl rfl, ?_⟩
        apply scans_of_more
        show starStep t (.int m :: args) = _
        rw [starStep, if_neg (by omega), Token.addWidth]
        by_cases hneg : 0 ≤ m.toInt
        · rw [if_pos hneg, decide_eq_false (not_lt.mpr hneg), Bool.or_false, Int.natAbs_of_nonneg hneg]
        · have hsmall' : -m.toInt ≤ intMax := hsmall
          rw [if_neg hneg, if_pos hsmall', decide_eq_true (not_le.mp hneg), Bool.or_true,
            Int.ofNat_natAbs_of_nonpos (by omega)]
      | long m => cases htake
      | string m => cases htake
      | pointer m => cases htake
      | count => cases htake

theorem scans_precision {precision : Precision} {p : Option ℕ} (hwritten : precision.Written)
    (hsmall : precision.Small) (htake : precision.take args = some (p, args')) (hwhat : t.what ≤ 1)
    (hprecision : t.precision = -1) :
    ∃ what, what ≤ 2 ∧ Scans t args precision.spell (t.addPrecision p what) args' := by
  cases precision with
  | absent =>
    obtain ⟨rfl, rfl⟩ := Prod.mk.inj (Option.some.inj htake)
    refine ⟨t.what, by omega, ?_⟩
    have hsame : t.addPrecision none t.what = t := by
      rw [Token.addPrecision, Option.elim_none, ← hprecision]
    rw [hsame]
    exact Scans.refl t args
  | digits s =>
    obtain ⟨rfl, rfl⟩ := Prod.mk.inj (Option.some.inj htake)
    refine ⟨2, le_rfl, ?_⟩
    have hpoint : Scans t args ['.'] { t with what := 2 } args := by
      apply scans_of_more
      show (if t.what ≥ 2 then Scan.invalid else .more { t with what := 2 } args) = _
      rw [if_neg (by omega)]
    have hzero : max ({ t with what := 2 } : Token).precision 0 = (0 : ℕ) := by
      show max t.precision 0 = _
      rw [hprecision]
      rfl
    have hscan := scans_precision_digits args hwritten hsmall.1 rfl hzero hsmall.2
    exact hpoint.trans hscan
  | star => exact hsmall.elim

theorem scans_argsize (args : List Arg) (argsize : ArgSize) (hwhat : t.what ≤ 2) (hsize : t.argsize = .normal) :
    ∃ what, Scans t args argsize.spell (t.addSize argsize what) args := by
  have hstep (argsize : ArgSize) : sizeStep t args argsize = .more (t.addSize argsize 4) args := by
    rw [sizeStep, if_neg (by omega)]
    rfl
  cases argsize with
  | normal =>
    refine ⟨t.what, ?_⟩
    have hsame : t.addSize .normal t.what = t := by
      rw [Token.addSize, ← hsize]
    rw [hsame]
    exact Scans.refl t args
  | short => exact ⟨4, scans_of_more (hstep .short)⟩
  | long => exact ⟨4, scans_of_more (hstep .long)⟩
  | longLong => exact ⟨4, scans_of_more (hstep .longLong)⟩

/-- The character that ends a conversion, with an argument of its type. -/
theorem tokenStep_type {c : Conversion} {b : Bound} {f : Field} (hfield : c.field b = some f)
    (hsize : t.argsize = c.argsize) :
    tokenStep t (b.arg :: args) c.type = .valid (valueOf c.type b.arg) args := by
  have hint {value : BitVec 64 → Value}
      (harg : (signedArg c.argsize b.arg).isSome ∨ (unsignedArg c.argsize b.arg).isSome) :
      intStep t (b.arg :: args) value = .valid (value (longArg b.arg)) args := by
    unfold intStep
    rw [hsize]
    cases hsize' : c.argsize <;> cases harg' : b.arg <;>
      first
      | rfl
      | (rw [hsize', harg'] at harg; simp [signedArg, unsignedArg] at harg)
  have hsome {α : Type} {o : Option α} {g : α → Field} (h : o.map g = some f) : o.isSome := by
    rw [← Option.isSome_map (f := g), h]
    rfl
  unfold Conversion.field at hfield
  rcases c.htype with hint' | ⟨-, hother⟩
  · have hlist : intTypes = ['d', 'i', 'o', 'u', 'x', 'X'] := rfl
    rw [hlist] at hint'
    simp only [List.mem_cons, List.not_mem_nil, or_false] at hint'
    rcases hint' with h | h | h | h | h | h
    · rw [h] at hfield ⊢
      exact hint (.inl (hsome hfield))
    · rw [h] at hfield ⊢
      exact hint (.inl (hsome hfield))
    · rw [h] at hfield ⊢
      exact hint (.inr (hsome hfield))
    · rw [h] at hfield ⊢
      exact hint (.inr (hsome hfield))
    · rw [h] at hfield ⊢
      exact hint (.inr (hsome hfield))
    · rw [h] at hfield ⊢
      exact hint (.inr (hsome hfield))
  · have hlist : "cspn".toList = ['c', 's', 'p', 'n'] := rfl
    rw [hlist] at hother
    simp only [List.mem_cons, List.not_mem_nil, or_false] at hother
    rcases hother with h | h | h | h
    · rw [h] at hfield ⊢
      cases harg : b.arg with
      | int n => rfl
      | long n => rw [harg] at hfield; cases hfield
      | string s => rw [harg] at hfield; cases hfield
      | pointer p => rw [harg] at hfield; cases hfield
      | count => rw [harg] at hfield; cases hfield
    · rw [h] at hfield ⊢
      cases harg : b.arg with
      | int n => rw [harg] at hfield; cases hfield
      | long n => rw [harg] at hfield; cases hfield
      | string s => rfl
      | pointer p => rw [harg] at hfield; cases hfield
      | count => rw [harg] at hfield; cases hfield
    · rw [h] at hfield ⊢
      cases harg : b.arg with
      | int n => rw [harg] at hfield; cases hfield
      | long n => rw [harg] at hfield; cases hfield
      | string s => rw [harg] at hfield; cases hfield
      | pointer p => rfl
      | count => rw [harg] at hfield; cases hfield
    · rw [h] at hfield ⊢
      cases harg : b.arg with
      | int n => rw [harg] at hfield; cases hfield
      | long n => rw [harg] at hfield; cases hfield
      | string s => rw [harg] at hfield; cases hfield
      | pointer p => rw [harg] at hfield; cases hfield
      | count => rfl

/-- A plain conversion is read into a token that stands for it. -/
theorem pfmt_conversion {c : Conversion} {b : Bound} {f : Field} (hbind : c.bind args = some (b, args'))
    (hfield : c.field b = some f) (hplain : c.Plain b f) :
    ∃ t, Reads c b t ∧ ∀ size start rest out, pfmt size (some .init) start args (c.spell ++ rest) out =
      (emit size t (valueOf c.type b.arg) out).bind (pfmt size none [] args' rest) := by
  unfold Conversion.bind at hbind
  obtain ⟨⟨n, args₁⟩, hwidth, hbind⟩ := Option.bind_eq_some_iff.mp hbind
  obtain ⟨⟨p, args₂⟩, hprecision, hbind⟩ := Option.bind_eq_some_iff.mp hbind
  dsimp only at hprecision hbind
  cases args₂ with
  | nil => cases hbind
  | cons arg args₂ =>
    obtain ⟨rfl, rfl⟩ := Prod.mk.inj (Option.some.inj hbind)
    have hflags : Scans .init args c.flags (Token.addFlags .init c.flags) args :=
      scans_flags c.hflags hplain.noSpace rfl
    obtain ⟨w, what₁, hwhat₁, hw, hscan₁⟩ :=
      scans_width (t := Token.addFlags .init c.flags) c.hwidth hplain.width hwidth rfl rfl
    obtain ⟨what₂, hwhat₂, hscan₂⟩ := scans_precision (t := (Token.addFlags .init c.flags).addWidth n w what₁)
      c.hprecision hplain.precision hprecision hwhat₁ rfl
    obtain ⟨what₃, hscan₃⟩ := scans_argsize (arg :: args₂) c.argsize
      (t := ((Token.addFlags .init c.flags).addWidth n w what₁).addPrecision p what₂) hwhat₂ rfl
    have hscan := (hflags.trans hscan₁).trans (hscan₂.trans hscan₃)
    refine ⟨(((Token.addFlags .init c.flags).addWidth n w what₁).addPrecision p what₂).addSize c.argsize what₃,
      ?_, fun size start rest out ↦ ?_⟩
    · constructor
      · simp [Token.addSize, Token.addPrecision, Token.addWidth, Token.addFlags, Token.init]
      · simp [Token.addSize, Token.addPrecision, Token.addWidth, Token.addFlags, Token.init, Bool.decide_or]
      · simp [Token.addSize, Token.addPrecision, Token.addWidth, Token.addFlags, Token.init]
      · simp [Token.addSize, Token.addPrecision, Token.addWidth, Token.addFlags, Token.init]
      · exact hw
      · rfl
    · have hspell : c.spell ++ rest = (c.flags ++ c.width.spell) ++ (c.precision.spell ++ c.argsize.spell) ++
          c.type :: rest := by
        simp [Conversion.spell]
      rw [hspell, hscan]
      exact pfmt_valid (tokenStep_type hfield rfl) _ _ _ _

end Steps

end BlitzedServices.Vsnprintf
