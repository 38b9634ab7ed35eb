import BlitzedServices.Lib.SqlText

/-!
# The form of a statement

A part of the grammar of SQL, over the tokens of `SqlText`: conditions made of comparisons, `BETWEEN`, `&&`, `||`
and parentheses, and the DELETE and SELECT statements that have one. `Valid` is said of a text that is such a
statement, and `Condition.holds` is what a condition means.

Each part of a statement leaves its parentheses filled: `Valid.follows` says that no valid text has an empty pair.
-/

set_option autoImplicit false
set_option relaxedAutoImplicit false

namespace BlitzedServices.Lib.SqlSyntax

open SqlText (Token lex)

/-- Text outside of quotes. -/
def syms (s : List Char) : List Token :=
  s.map .sym

@[simp] theorem syms_append (s t : List Char) : syms (s ++ t) = syms s ++ syms t :=
  List.map_append

/-- The characters of a name, which may have that of its table before a dot. -/
def isNameChar (c : Char) : Bool :=
  c.isAlphanum || c == '_' || c == '.'

/-- A name of a column or a table. -/
structure Name where
  text : List Char
  nonempty : text ≠ []
  isNameChar : text.all isNameChar
  length_le : text.length ≤ 64

inductive Operand
  | name (n : Name)
  | number (k : ℕ)
  | literal (value : List Char)

/-- A condition. A comparison is written with or without blanks. -/
inductive Condition
  | equal (blanks : Bool) (a b : Operand)
  | between (a low high : Operand)
  | and (p q : Condition)
  | or (p q : Condition)
  | group (p : Condition)

/-- What is selected. -/
inductive Column
  | name (n : Name)
  | nullIf (flags : Name) (mask : ℕ) (value label : Name)

/-- Where it is selected from. -/
inductive Table
  | name (n : Name)
  | leftJoin (first second : Name) (on : Condition)

inductive Statement
  | delete (table : Name) (where_ : Condition)
  | select (column : Column) (columns : List Column) (table : Table) (where_ : Condition) (order : Option Name)

def Operand.tokens : Operand → List Token
  | .name n => syms n.text
  | .number k => syms (Nat.toDigits 10 k)
  | .literal value => [.lit value]

/-- Text in parentheses. -/
def parens (ts : List Token) : List Token :=
  .sym '(' :: (ts ++ [.sym ')'])

def Condition.tokens : Condition → List Token
  | .equal blanks a b => a.tokens ++ syms (if blanks then " = ".toList else "=".toList) ++ b.tokens
  | .between a low high =>
    a.tokens ++ syms " BETWEEN ".toList ++ low.tokens ++ syms " AND ".toList ++ high.tokens
  | .and p q => p.tokens ++ syms " && ".toList ++ q.tokens
  | .or p q => p.tokens ++ syms " || ".toList ++ q.tokens
  | .group p => parens p.tokens

def Column.tokens : Column → List Token
  | .name n => syms n.text
  | .nullIf flags mask value label =>
    syms "IF".toList ++ parens (syms flags.text ++ syms " & ".toList ++ syms (Nat.toDigits 10 mask) ++
      syms ", NULL, ".toList ++ syms value.text) ++ syms " as ".toList ++ syms label.text

def Table.tokens : Table → List Token
  | .name n => syms n.text
  | .leftJoin first second on =>
    syms first.text ++ syms " LEFT JOIN ".toList ++ syms second.text ++ syms " ON ".toList ++ parens on.tokens

def Statement.tokens : Statement → List Token
  | .delete table where_ => syms "DELETE FROM ".toList ++ syms table.text ++ syms " WHERE ".toList ++ where_.tokens
  | .select column columns table where_ order =>
    syms "SELECT ".toList ++ column.tokens ++ columns.flatMap (fun c ↦ syms ", ".toList ++ c.tokens) ++
      syms " FROM ".toList ++ table.tokens ++ syms " WHERE ".toList ++ where_.tokens ++
      (order.elim [] fun n ↦ syms " ORDER BY ".toList ++ syms n.text ++ syms " ASC".toList)

/-- The text is a statement. -/
def Valid (text : List Char) : Prop :=
  ∃ stmt : Statement, lex text = some stmt.tokens

/-! ### What a condition means -/

/-- The condition holds for the values of its operands. -/
def Condition.holds {V : Type} [LinearOrder V] (value : Operand → V) : Condition → Prop
  | .equal _ a b => value a = value b
  | .between a low high => value low ≤ value a ∧ value a ≤ value high
  | .and p q => p.holds value ∧ q.holds value
  | .or p q => p.holds value ∨ q.holds value
  | .group p => p.holds value

/-- Alternatives one after the other. -/
def orAll (p : Condition) (ps : List Condition) : Condition :=
  ps.foldl .or p

theorem holds_orAll {V : Type} [LinearOrder V] (value : Operand → V) (p : Condition) (ps : List Condition) :
    (orAll p ps).holds value ↔ ∃ q ∈ p :: ps, q.holds value := by
  induction ps generalizing p with
  | nil => simp [orAll]
  | cons q ps ih =>
    show (orAll (.or p q) ps).holds value ↔ _
    rw [ih]
    simp [Condition.holds, or_assoc]

theorem tokens_orAll (p : Condition) (ps : List Condition) :
    (orAll p ps).tokens = p.tokens ++ ps.flatMap fun q ↦ syms " || ".toList ++ q.tokens := by
  induction ps generalizing p with
  | nil => simp [orAll]
  | cons q ps ih =>
    show (orAll (.or p q) ps).tokens = _
    rw [ih, Condition.tokens, List.flatMap_cons]
    simp only [List.append_assoc]

/-! ### No empty parentheses -/

/-- The second token may stand behind the first. -/
def Follows (a b : Token) : Prop :=
  ¬ (a = .sym '(' ∧ b = .sym ')')

/-- A part of a statement that leaves no parentheses empty, wherever it stands. -/
structure Closed (ts : List Token) : Prop where
  chain : ts.IsChain Follows
  head : ts.head? ≠ some (.sym ')')
  last : ts.getLast? ≠ some (.sym '(')

theorem Closed.append {a b : List Token} (ha : Closed a) (hb : Closed b) : Closed (a ++ b) := by
  refine ⟨List.isChain_append.mpr ⟨ha.chain, hb.chain, ?_⟩, ?_, ?_⟩
  · rintro x hx y hy ⟨rfl, rfl⟩
    exact ha.last hx
  · rw [List.head?_append]
    cases hhead : a.head? with
    | none => simpa using hb.head
    | some x => simpa [hhead] using ha.head
  · rw [List.getLast?_append]
    cases hlast : b.getLast? with
    | none => simpa using ha.last
    | some x => simpa [hlast] using hb.last

theorem closed_syms {s : List Char} (hs : s.all fun c ↦ c != '(' && c != ')') : Closed (syms s) := by
  rw [List.all_eq_true] at hs
  induction s with
  | nil => exact ⟨List.isChain_nil, by simp [syms], by simp [syms]⟩
  | cons c s ih =>
    have hc := hs c (List.mem_cons_self ..)
    simp only [Bool.and_eq_true, bne_iff_ne, ne_eq] at hc
    have hone : Closed [Token.sym c] :=
      ⟨List.isChain_singleton _, by simpa using hc.2, by simpa using hc.1⟩
    exact hone.append (ih fun d hd ↦ hs d (List.mem_cons_of_mem _ hd))

theorem closed_lit (value : List Char) : Closed [.lit value] :=
  ⟨List.isChain_singleton _, by simp, by simp⟩

theorem closed_parens {ts : List Token} (h : Closed ts) (hne : ts ≠ []) : Closed (parens ts) := by
  have hopen : ([Token.sym '('] : List Token).IsChain Follows := List.isChain_singleton _
  refine ⟨?_, by simp [parens], ?_⟩
  · rw [parens, ← List.singleton_append, List.isChain_append, List.isChain_append]
    refine ⟨hopen, ⟨h.chain, List.isChain_singleton _, ?_⟩, ?_⟩
    · rintro x hx y - ⟨rfl, -⟩
      exact h.last hx
    · rintro x - y hy ⟨-, rfl⟩
      cases ts with
      | nil => exact hne rfl
      | cons t ts => exact h.head hy
  · rw [parens, ← List.cons_append, List.getLast?_append]
    simp

theorem Name.closed (n : Name) : Closed (syms n.text) := by
  refine closed_syms (List.all_eq_true.mpr fun c hc ↦ ?_)
  have hname := List.all_eq_true.mp n.isNameChar c hc
  simp only [Bool.and_eq_true, bne_iff_ne, ne_eq]
  constructor <;> (rintro rfl; exact absurd hname (by decide))

theorem closed_number (k : ℕ) : Closed (syms (Nat.toDigits 10 k)) := by
  refine closed_syms (List.all_eq_true.mpr fun c hc ↦ ?_)
  have hdigit : c.isDigit := Nat.isDigit_of_mem_toDigits (by decide) (by decide) hc
  simp only [Bool.and_eq_true, bne_iff_ne, ne_eq]
  constructor <;> (rintro rfl; exact absurd hdigit (by decide))

theorem Operand.closed (a : Operand) : Closed a.tokens := by
  cases a with
  | name n => exact n.closed
  | number k => exact closed_number k
  | literal value => exact closed_lit value

theorem Condition.tokens_ne_nil (p : Condition) : p.tokens ≠ [] := by
  cases p with
  | equal blanks a b => cases blanks <;> simp [tokens, syms]
  | between a low high => simp [tokens, syms]
  | and p q => simp [tokens, syms]
  | or p q => simp [tokens, syms]
  | group p => simp [tokens, parens]

theorem Condition.closed (p : Condition) : Closed p.tokens := by
  induction p with
  | equal blanks a b =>
    have hsign : Closed (syms (if blanks then " = ".toList else "=".toList)) := by
      cases blanks <;> exact closed_syms (by decide)
    exact (a.closed.append hsign).append b.closed
  | between a low high =>
    have hbetween : Closed (syms " BETWEEN ".toList) := closed_syms (by decide)
    have hand : Closed (syms " AND ".toList) := closed_syms (by decide)
    exact (((a.closed.append hbetween).append low.closed).append hand).append high.closed
  | and p q hp hq =>
    have hsign : Closed (syms " && ".toList) := closed_syms (by decide)
    exact (hp.append hsign).append hq
  | or p q hp hq =>
    have hsign : Closed (syms " || ".toList) := closed_syms (by decide)
    exact (hp.append hsign).append hq
  | group p hp => exact closed_parens hp p.tokens_ne_nil

theorem Column.closed (c : Column) : Closed c.tokens := by
  cases c with
  | name n => exact n.closed
  | nullIf flags mask value label =>
    have hif : Closed (syms "IF".toList) := closed_syms (by decide)
    have hmask : Closed (syms " & ".toList) := closed_syms (by decide)
    have hnull : Closed (syms ", NULL, ".toList) := closed_syms (by decide)
    have has : Closed (syms " as ".toList) := closed_syms (by decide)
    have hinner := (((flags.closed.append hmask).append (closed_number mask)).append hnull).append value.closed
    exact ((hif.append (closed_parens hinner (by simp [syms]))).append has).append label.closed

theorem Table.closed (t : Table) : Closed t.tokens := by
  cases t with
  | name n => exact n.closed
  | leftJoin first second on =>
    have hjoin : Closed (syms " LEFT JOIN ".toList) := closed_syms (by decide)
    have hon : Closed (syms " ON ".toList) := closed_syms (by decide)
    exact (((first.closed.append hjoin).append second.closed).append hon).append
      (closed_parens on.closed on.tokens_ne_nil)

theorem Statement.closed (stmt : Statement) : Closed stmt.tokens := by
  have hwhere : Closed (syms " WHERE ".toList) := closed_syms (by decide)
  cases stmt with
  | delete table where_ =>
    have hdelete : Closed (syms "DELETE FROM ".toList) := closed_syms (by decide)
    exact ((hdelete.append table.closed).append hwhere).append where_.closed
  | select column columns table where_ order =>
    have hselect : Closed (syms "SELECT ".toList) := closed_syms (by decide)
    have hfrom : Closed (syms " FROM ".toList) := closed_syms (by decide)
    have hcolumns : Closed (columns.flatMap fun c ↦ syms ", ".toList ++ c.tokens) := by
      induction columns with
      | nil => exact closed_syms (s := []) rfl
      | cons c columns ih =>
        have hcomma : Closed (syms ", ".toList) := closed_syms (by decide)
        exact (hcomma.append c.closed).append ih
    have horder : Closed (order.elim [] fun n ↦ syms " ORDER BY ".toList ++ syms n.text ++ syms " ASC".toList) := by
      cases order with
      | none => exact closed_syms (s := []) rfl
      | some n =>
        have hby : Closed (syms " ORDER BY ".toList) := closed_syms (by decide)
        have hasc : Closed (syms " ASC".toList) := closed_syms (by decide)
        exact (hby.append n.closed).append hasc
    exact ((((((hselect.append column.closed).append hcolumns).append hfrom).append table.closed).append
      hwhere).append where_.closed).append horder

/-- A statement has no empty parentheses. -/
theorem Valid.follows {text : List Char} (pre post : List Token)
    (h : lex text = some (pre ++ .sym '(' :: .sym ')' :: post)) : ¬ Valid text := by
  rintro ⟨stmt, hstmt⟩
  have hchain := stmt.closed.chain
  rw [← Option.some.inj (h.symm.trans hstmt), List.isChain_append] at hchain
  exact (List.isChain_cons_cons.mp hchain.2.1).1 ⟨rfl, rfl⟩

end BlitzedServices.Lib.SqlSyntax
