import BlitzedServices.Lib.CString

/-!
# Numbers in any base

`strtol` with base 0: white space, a sign, and a number that is decimal, octal behind a `0` or hexadecimal
behind `0x`. The result saturates at the ends of a 64-bit `long`. `IntText` says which texts are numbers from
their first character to the last, and which number each is. `readNumber_iff` says that the end pointer
reaches the end of these texts only, but for the empty one.
-/

set_option autoImplicit false
set_option relaxedAutoImplicit false

namespace BlitzedServices.Lib

/-- The value of a digit; 36 for what is no digit in any base. -/
def digitVal (c : Char) : ℕ :=
  if c.isDigit then c.toNat - 48
  else if c.isLower then c.toNat - 87
  else if c.isUpper then c.toNat - 55
  else 36

/-- The value of digits in a base. -/
def valueOf (base : ℕ) (digits : CString) : ℕ :=
  digits.foldl (fun n c ↦ base * n + digitVal c) 0

/-- The nearest `long`. -/
def clampLong (n : ℤ) : ℤ :=
  max (-2 ^ 63) (min (2 ^ 63 - 1) n)

/-- White space and a sign are read: whether it is a minus, and what is behind it. -/
def readSign (s : CString) : Bool × CString :=
  match s.dropWhile isspace with
  | '-' :: text => (true, text)
  | '+' :: text => (false, text)
  | text => (false, text)

/-- The base that a number shows, and its digits. -/
def readBase (s : CString) : ℕ × CString :=
  match s with
  | '0' :: x :: c :: text => if (x = 'x' ∨ x = 'X') ∧ digitVal c < 16 then (16, c :: text) else (8, s)
  | '0' :: _ => (8, s)
  | _ => (10, s)

/-- The number that `strtol` with base 0 finds, and the text at the end pointer. -/
def readNumber (s : CString) : ℤ × CString :=
  let (minus, text) := readSign s
  let (base, text) := readBase text
  let digits := text.takeWhile (digitVal · < base)
  if digits = [] then (0, s)
  else (if minus then -valueOf base digits else valueOf base digits, text.dropWhile (digitVal · < base))

/-- `strtol` with base 0. -/
def strtolAuto (s : CString) : ℤ × CString :=
  (clampLong (readNumber s).1, (readNumber s).2)

/-- A number without a sign. -/
inductive Numeral : CString → ℕ → Prop
  | decimal {digits : CString} (hne : digits ≠ []) (hhead : digits.head? ≠ some '0')
      (hdigit : ∀ c ∈ digits, digitVal c < 10) : Numeral digits (valueOf 10 digits)
  | octal {digits : CString} (hdigit : ∀ c ∈ digits, digitVal c < 8) : Numeral ('0' :: digits) (valueOf 8 digits)
  | hexadecimal {x : Char} {digits : CString} (hx : x = 'x' ∨ x = 'X') (hne : digits ≠ [])
      (hdigit : ∀ c ∈ digits, digitVal c < 16) : Numeral ('0' :: x :: digits) (valueOf 16 digits)

/-- The text is a number from its first character to the last; there may be white space before it. -/
inductive IntText : CString → ℤ → Prop
  | plain {blanks s : CString} {n : ℕ} (hblanks : ∀ c ∈ blanks, isspace c = true) (hs : Numeral s n) :
      IntText (blanks ++ s) n
  | plus {blanks s : CString} {n : ℕ} (hblanks : ∀ c ∈ blanks, isspace c = true) (hs : Numeral s n) :
      IntText (blanks ++ '+' :: s) n
  | minus {blanks s : CString} {n : ℕ} (hblanks : ∀ c ∈ blanks, isspace c = true) (hs : Numeral s n) :
      IntText (blanks ++ '-' :: s) (-n)

/-! ### Numerals are read -/

theorem digitVal_lt_ten_iff {c : Char} : digitVal c < 10 ↔ c.isDigit = true := by
  rw [digitVal]
  constructor
  · intro h
    split_ifs at h with hdigit hlower hupper
    · exact hdigit
    · have hlow : 'a'.toNat ≤ c.toNat := by
        rw [Char.isLower, Bool.and_eq_true, decide_eq_true_eq] at hlower
        exact hlower.1
      have ha : 'a'.toNat = 97 := rfl
      omega
    · have hlow : 'A'.toNat ≤ c.toNat := by
        rw [Char.isUpper, decide_eq_true_eq] at hupper
        exact hupper.1
      have ha : 'A'.toNat = 65 := rfl
      omega
    · omega
  · intro h
    rw [if_pos h]
    have hhigh : c.toNat ≤ '9'.toNat := by
      rw [Char.isDigit, Bool.and_eq_true, decide_eq_true_eq, decide_eq_true_eq] at h
      exact h.2
    have hnine : '9'.toNat = 57 := rfl
    omega

theorem Numeral.head {s : CString} {n : ℕ} (h : Numeral s n) : ∃ c t, s = c :: t ∧ c.isDigit = true := by
  cases h with
  | decimal hne hhead hdigit =>
    obtain ⟨c, t, rfl⟩ := List.exists_cons_of_ne_nil hne
    exact ⟨c, t, rfl, digitVal_lt_ten_iff.mp (hdigit c List.mem_cons_self)⟩
  | octal hdigit => exact ⟨'0', _, rfl, rfl⟩
  | hexadecimal hx hne hdigit => exact ⟨'0', _, rfl, rfl⟩

theorem isspace_of_isDigit {c : Char} (h : c.isDigit = true) : isspace c = false := by
  by_contra hspace
  simp only [isspace, Bool.not_eq_false, Bool.or_eq_true, beq_iff_eq, or_assoc] at hspace
  rcases hspace with rfl | rfl | rfl | rfl | rfl | rfl <;> exact absurd h (by decide)

/-- The digits of a numeral are those of its base. -/
theorem Numeral.readBase {s : CString} {n : ℕ} (h : Numeral s n) :
    ∃ base digits, readBase s = (base, digits) ∧ digits ≠ [] ∧ (∀ c ∈ digits, digitVal c < base) ∧
      valueOf base digits = n := by
  cases h with
  | decimal hne hhead hdigit =>
    refine ⟨10, s, ?_, hne, hdigit, rfl⟩
    unfold Lib.readBase
    split
    · exact absurd rfl hhead
    · exact absurd rfl hhead
    · rfl
  | @octal digits hdigit =>
    refine ⟨8, '0' :: digits, ?_, List.cons_ne_nil _ _, ?_, ?_⟩
    · unfold Lib.readBase
      split
      · rename_i x c text heq
        rw [if_neg]
        rintro ⟨hx, -⟩
        have hxdigit : digitVal x < 8 := hdigit x (by rw [(List.cons.inj heq).2]; exact List.mem_cons_self)
        rcases hx with rfl | rfl
        · exact absurd hxdigit (by decide)
        · exact absurd hxdigit (by decide)
      · rfl
      · rename_i _ hnot
        exact absurd rfl (hnot digits)
    · intro c hc
      rcases List.mem_cons.mp hc with rfl | hc
      · decide
      · exact hdigit c hc
    · rfl
  | @hexadecimal x digits hx hne hdigit =>
    obtain ⟨c, text, rfl⟩ := List.exists_cons_of_ne_nil hne
    refine ⟨16, c :: text, ?_, hne, hdigit, rfl⟩
    exact if_pos ⟨hx, hdigit c List.mem_cons_self⟩

theorem readNumber_of_readSign {s text : CString} {minus : Bool} {n : ℕ} (h : readSign s = (minus, text))
    (hn : Numeral text n) : readNumber s = (if minus then -(n : ℤ) else n, []) := by
  obtain ⟨base, digits, hbase, hne, hdigit, hvalue⟩ := hn.readBase
  have htake : digits.takeWhile (digitVal · < base) = digits :=
    List.takeWhile_eq_self_iff.mpr fun c hc ↦ decide_eq_true (hdigit c hc)
  have hdrop : digits.dropWhile (digitVal · < base) = [] :=
    List.dropWhile_eq_nil_iff.mpr fun c hc ↦ decide_eq_true (hdigit c hc)
  rw [readNumber, h]
  dsimp only
  rw [hbase]
  dsimp only
  rw [htake, hdrop, if_neg hne, hvalue]

theorem dropWhile_blanks {blanks s : CString} {c : Char} (hblanks : ∀ c ∈ blanks, isspace c = true)
    (hc : isspace c = false) : (blanks ++ c :: s).dropWhile isspace = c :: s := by
  rw [List.dropWhile_append_of_pos hblanks, List.dropWhile_cons_of_neg (by simp [hc])]

theorem readNumber_of_intText {s : CString} {n : ℤ} (h : IntText s n) : readNumber s = (n, []) := by
  cases h with
  | @plain blanks s n hblanks hs =>
    obtain ⟨c, t, rfl, hc⟩ := hs.head
    refine readNumber_of_readSign (show readSign _ = (false, _) from ?_) hs
    rw [readSign, dropWhile_blanks hblanks (isspace_of_isDigit hc)]
    split
    · rename_i heq
      exact absurd ((List.cons.inj heq).1 ▸ hc) (by decide)
    · rename_i heq
      exact absurd ((List.cons.inj heq).1 ▸ hc) (by decide)
    · rfl
  | @plus blanks s n hblanks hs =>
    refine readNumber_of_readSign (show readSign _ = (false, _) from ?_) hs
    rw [readSign, dropWhile_blanks hblanks (by decide)]
    rfl
  | @minus blanks s n hblanks hs =>
    refine readNumber_of_readSign (show readSign _ = (true, _) from ?_) hs
    rw [readSign, dropWhile_blanks hblanks (by decide)]
    rfl

/-! ### What is read is a numeral -/

theorem readBase_cases (text : CString) :
    (text.head? ≠ some '0' ∧ readBase text = (10, text)) ∨
    (∃ digits, text = '0' :: digits ∧ readBase text = (8, text)) ∨
    ∃ x digits, (x = 'x' ∨ x = 'X') ∧ text = '0' :: x :: digits ∧ readBase text = (16, digits) := by
  unfold readBase
  split
  · rename_i x c text'
    by_cases hhex : (x = 'x' ∨ x = 'X') ∧ digitVal c < 16
    · rw [if_pos hhex]
      exact .inr (.inr ⟨x, c :: text', hhex.1, rfl, rfl⟩)
    · rw [if_neg hhex]
      exact .inr (.inl ⟨x :: c :: text', rfl, rfl⟩)
  · rename_i digits _
    exact .inr (.inl ⟨digits, rfl, rfl⟩)
  · rename_i _ hnot
    refine .inl ⟨fun hhead ↦ ?_, rfl⟩
    exact hnot text.tail (List.eq_cons_of_mem_head? hhead)

theorem numeral_of_readBase {text digits : CString} {base : ℕ} (h : readBase text = (base, digits))
    (hne : digits ≠ []) (hdigit : ∀ c ∈ digits, digitVal c < base) : Numeral text (valueOf base digits) := by
  rcases readBase_cases text with ⟨hhead, hbase⟩ | ⟨tail, rfl, hbase⟩ | ⟨x, tail, hx, rfl, hbase⟩
  · obtain ⟨rfl, rfl⟩ := Prod.mk.inj (h.symm.trans hbase)
    exact .decimal hne hhead hdigit
  · obtain ⟨rfl, rfl⟩ := Prod.mk.inj (h.symm.trans hbase)
    have hzero : valueOf 8 ('0' :: tail) = valueOf 8 tail := rfl
    rw [hzero]
    exact .octal fun c hc ↦ hdigit c (List.mem_cons_of_mem _ hc)
  · obtain ⟨rfl, rfl⟩ := Prod.mk.inj (h.symm.trans hbase)
    exact .hexadecimal hx hne hdigit

theorem readSign_cases (s : CString) :
    ∃ blanks text, (∀ c ∈ blanks, isspace c = true) ∧
      (s = blanks ++ text ∧ readSign s = (false, text) ∨ s = blanks ++ '+' :: text ∧ readSign s = (false, text) ∨
        s = blanks ++ '-' :: text ∧ readSign s = (true, text)) := by
  have hsplit : s.takeWhile isspace ++ s.dropWhile isspace = s := List.takeWhile_append_dropWhile
  rw [readSign]
  split
  · rename_i text heq
    refine ⟨s.takeWhile isspace, text, fun c hc ↦ List.mem_takeWhile_imp hc, .inr (.inr ⟨?_, rfl⟩)⟩
    rw [← heq, hsplit]
  · rename_i text heq
    refine ⟨s.takeWhile isspace, text, fun c hc ↦ List.mem_takeWhile_imp hc, .inr (.inl ⟨?_, rfl⟩)⟩
    rw [← heq, hsplit]
  · exact ⟨s.takeWhile isspace, s.dropWhile isspace, fun c hc ↦ List.mem_takeWhile_imp hc, .inl ⟨hsplit.symm, rfl⟩⟩

/-- The whole text is read exactly if it is a number. -/
theorem readNumber_iff {s : CString} (hs : s ≠ []) {n : ℤ} : readNumber s = (n, []) ↔ IntText s n := by
  constructor
  · intro h
    obtain ⟨blanks, text, hblanks, hsign⟩ := readSign_cases s
    have hread : ∀ minus, readSign s = (minus, text) →
        ∃ m : ℕ, Numeral text m ∧ n = if minus then -(m : ℤ) else m := by
      intro minus hminus
      obtain ⟨base, digits, hbase⟩ : ∃ base digits, readBase text = (base, digits) := ⟨_, _, rfl⟩
      rw [readNumber, hminus] at h
      dsimp only at h
      rw [hbase] at h
      dsimp only at h
      by_cases hnil : digits.takeWhile (digitVal · < base) = []
      · rw [if_pos hnil] at h
        exact absurd (Prod.mk.inj h).2 hs
      · rw [if_neg hnil] at h
        obtain ⟨hvalue, hrest⟩ := Prod.mk.inj h
        have hdigit : ∀ c ∈ digits, digitVal c < base := fun c hc ↦
          of_decide_eq_true (List.dropWhile_eq_nil_iff.mp hrest c hc)
        have htake : digits.takeWhile (digitVal · < base) = digits :=
          List.takeWhile_eq_self_iff.mpr fun c hc ↦ decide_eq_true (hdigit c hc)
        rw [htake] at hvalue hnil
        refine ⟨_, numeral_of_readBase hbase hnil hdigit, ?_⟩
        rw [← hvalue]
    rcases hsign with ⟨rfl, hsign⟩ | ⟨rfl, hsign⟩ | ⟨rfl, hsign⟩
    · obtain ⟨m, hm, rfl⟩ := hread _ hsign
      exact .plain hblanks hm
    · obtain ⟨m, hm, rfl⟩ := hread _ hsign
      exact .plus hblanks hm
    · obtain ⟨m, hm, rfl⟩ := hread _ hsign
      exact .minus hblanks hm
  · exact readNumber_of_intText

theorem IntText.ne_nil {s : CString} {n : ℤ} (h : IntText s n) : s ≠ [] := by
  cases h with
  | plain hblanks hs =>
    obtain ⟨c, t, rfl, -⟩ := hs.head
    simp
  | plus hblanks hs => simp
  | minus hblanks hs => simp

/-- A text is one number. -/
theorem IntText.unique {s : CString} {m n : ℤ} (hm : IntText s m) (hn : IntText s n) : m = n :=
  (Prod.mk.inj ((readNumber_of_intText hm).symm.trans (readNumber_of_intText hn))).1

end BlitzedServices.Lib
