import Mathlib

/-!
# Statements and the texts put into them

`lex` reads the text of an SQL statement as the server does: characters, and string literals with
their values. A statement built from a template is a list of pieces; `render` is its text and
`intended` the tokens it was written for. `Sound` pieces lex to what was intended
(`lex_render`). An escaped text is always read back (`lexFrom_escape`); a text written without
escaping is read back exactly when it is `verbatim` (`lexFrom_raw_iff`), because every
character of a statement adds at most one to the weight of its tokens and a real escape adds none.
-/

set_option autoImplicit false
set_option relaxedAutoImplicit false

namespace BlitzedServices.Lib.SqlText

/-! ### Reading a statement -/

/-- A character outside literals, or a string literal with its value. -/
inductive Token
  | sym (c : Char)
  | lit (value : List Char)
  deriving DecidableEq

/-- Where the reader stands. `closing` has just read the quote that may end a literal or be the
first of a doubled one. -/
inductive Mode
  | plain
  | inside (quote : Char) (value : List Char)
  | escaped (quote : Char) (value : List Char)
  | closing (quote : Char) (value : List Char)

/-- The two characters that start a string literal. -/
def isQuote (c : Char) : Bool :=
  c == '\'' || c == '"'

/-- The wildcards of `LIKE`, before which a backslash is kept. -/
def isWildcard (c : Char) : Bool :=
  c == '%' || c == '_'

/-- What a backslash and the character after it stand for. -/
def unescape (c : Char) : List Char :=
  if isWildcard c then ['\\', c]
  else if c = 'n' then ['\n']
  else if c = 't' then ['\t']
  else if c = 'r' then ['\r']
  else if c = 'b' then ['\x08']
  else if c = '0' then ['\x00']
  else if c = 'Z' then ['\x1a']
  else [c]

/-- The tokens of a text read from a mode; `none` for a literal that is not terminated. -/
def lexFrom : Mode → List Char → Option (List Token)
  | .plain, [] => some []
  | .plain, c :: s =>
    if isQuote c then lexFrom (.inside c []) s
    else (lexFrom .plain s).map (.sym c :: ·)
  | .inside _ _, [] => none
  | .inside q v, c :: s =>
    if c = '\\' then lexFrom (.escaped q v) s
    else if c = q then lexFrom (.closing q v) s
    else lexFrom (.inside q (v ++ [c])) s
  | .escaped _ _, [] => none
  | .escaped q v, c :: s => lexFrom (.inside q (v ++ unescape c)) s
  | .closing _ v, [] => some [.lit v]
  | .closing q v, c :: s =>
    if c = q then lexFrom (.inside q (v ++ [q])) s
    else if isQuote c then (lexFrom (.inside c []) s).map (.lit v :: ·)
    else (lexFrom .plain s).map fun tokens ↦ .lit v :: .sym c :: tokens

/-- The tokens of a statement. Comments and quoted names are not among them: no template has one. -/
def lex (s : List Char) : Option (List Token) :=
  lexFrom .plain s

/-- After a closing quote that is not doubled, reading goes on as outside. -/
theorem lexFrom_closing {q : Char} {s : List Char} (hs : s.head? ≠ some q) (v : List Char) :
    lexFrom (.closing q v) s = (lexFrom .plain s).map (.lit v :: ·) := by
  cases s with
  | nil => rfl
  | cons c s =>
    have hc : c ≠ q := fun h ↦ hs (by rw [h, List.head?_cons])
    rw [lexFrom, lexFrom, if_neg hc]
    by_cases hquote : isQuote c
    · rw [if_pos hquote, if_pos hquote]
    · rw [if_neg hquote, if_neg hquote, Option.map_map]
      rfl

theorem lexFrom_plain_append {pre : List Char} (hpre : ∀ c ∈ pre, isQuote c = false)
    (s : List Char) :
    lexFrom .plain (pre ++ s) = (lexFrom .plain s).map (pre.map .sym ++ ·) := by
  induction pre with
  | nil => simp
  | cons c pre ih =>
    have hc : ¬ isQuote c = true := by
      rw [hpre c (List.mem_cons_self ..)]
      exact Bool.false_ne_true
    rw [List.cons_append, lexFrom, if_neg hc, ih fun d hd ↦ hpre d (List.mem_cons_of_mem _ hd),
      Option.map_map]
    rfl

/-! ### Templates -/

/-- A piece of a template: text of the statement itself, or a literal in single quotes, as it is
written between them and with the value it is meant to have. -/
inductive Piece
  | sql (text : List Char)
  | quoted (written value : List Char)

/-- The text of a piece. -/
def Piece.text : Piece → List Char
  | .sql text => text
  | .quoted written _ => '\'' :: (written ++ ['\''])

/-- The tokens a piece stands for. -/
def Piece.tokens : Piece → List Token
  | .sql text => text.map .sym
  | .quoted _ value => [.lit value]

/-- The text of a statement. -/
def render (ps : List Piece) : List Char :=
  ps.flatMap Piece.text

/-- The tokens a statement is meant to have. -/
def intended (ps : List Piece) : List Token :=
  ps.flatMap Piece.tokens

/-- Written between single quotes, the text is read as the value, whatever follows. -/
def Decodes (written value : List Char) : Prop :=
  ∀ v s, lexFrom (.inside '\'' v) (written ++ s) = lexFrom (.inside '\'' (v ++ value)) s

/-- The pieces can be read one after the other before the text `s`. -/
def Sound (s : List Char) : List Piece → Prop
  | [] => True
  | .sql text :: ps => (∀ c ∈ text, isQuote c = false) ∧ Sound s ps
  | .quoted written value :: ps =>
    Decodes written value ∧ (render ps ++ s).head? ≠ some '\'' ∧ Sound s ps

@[simp] theorem render_nil : render [] = [] := rfl

@[simp] theorem render_cons (p : Piece) (ps : List Piece) :
    render (p :: ps) = p.text ++ render ps := rfl

@[simp] theorem intended_nil : intended [] = [] := rfl

@[simp] theorem intended_cons (p : Piece) (ps : List Piece) :
    intended (p :: ps) = p.tokens ++ intended ps := rfl

theorem lexFrom_quoted (w s : List Char) :
    lexFrom .plain ('\'' :: (w ++ ['\'']) ++ s) = lexFrom (.inside '\'' []) (w ++ '\'' :: s) := by
  have hquote : isQuote '\'' = true := rfl
  rw [List.cons_append, lexFrom, if_pos hquote, List.append_assoc, List.singleton_append]

theorem lexFrom_inside_quote (v s : List Char) :
    lexFrom (.inside '\'' v) ('\'' :: s) = lexFrom (.closing '\'' v) s := by
  have hbackslash : ¬ '\'' = '\\' := by decide
  rw [lexFrom, if_neg hbackslash, if_pos rfl]

/-- A literal that decodes is one token. -/
theorem lexFrom_decodes {w v : List Char} (h : Decodes w v) {s : List Char}
    (hs : s.head? ≠ some '\'') :
    lexFrom (.inside '\'' []) (w ++ '\'' :: s) = (lexFrom .plain s).map (.lit v :: ·) := by
  rw [h, List.nil_append, lexFrom_inside_quote, lexFrom_closing hs]

/-- Sound pieces lex to what they are meant to be, whatever follows. -/
theorem lexFrom_render {s : List Char} {ps : List Piece} (h : Sound s ps) :
    lexFrom .plain (render ps ++ s) = (lexFrom .plain s).map (intended ps ++ ·) := by
  induction ps with
  | nil => simp
  | cons p ps ih =>
    cases p with
    | sql text =>
      rw [render_cons, Piece.text, List.append_assoc, lexFrom_plain_append h.1, ih h.2,
        Option.map_map]
      simp [Function.comp_def, Piece.tokens]
    | quoted w v =>
      rw [render_cons, Piece.text, List.append_assoc, lexFrom_quoted,
        lexFrom_decodes h.1 h.2.1, ih h.2.2, Option.map_map]
      simp [Function.comp_def, Piece.tokens]

/-- A sound statement has the tokens it is meant to have. -/
theorem lex_render {ps : List Piece} (h : Sound [] ps) : lex (render ps) = some (intended ps) := by
  have hlex := lexFrom_render h
  rw [List.append_nil] at hlex
  simpa [lex, lexFrom] using hlex

/-- Behind sound pieces, a statement lexes as intended exactly when its rest does. -/
theorem lex_append_iff {pre post : List Piece} (h : Sound (render post) pre) :
    lex (render (pre ++ post)) = some (intended (pre ++ post)) ↔
      lex (render post) = some (intended post) := by
  have hrender : render (pre ++ post) = render pre ++ render post := List.flatMap_append
  have hintended : intended (pre ++ post) = intended pre ++ intended post := List.flatMap_append
  rw [hrender, hintended, lex, lexFrom_render h, Option.map_eq_some_iff, lex]
  refine ⟨?_, fun hpost ↦ ⟨_, hpost, rfl⟩⟩
  rintro ⟨tokens, htokens, heq⟩
  rw [htokens, List.append_cancel_left heq]

/-- A literal that decodes to some value is as intended exactly when that is the value meant. -/
theorem lex_quoted_iff {w v v' : List Char} (h : Decodes w v') {post : List Piece}
    (hpost : Sound [] post) (hhead : (render post).head? ≠ some '\'') :
    lex (render (.quoted w v :: post)) = some (intended (.quoted w v :: post)) ↔ v' = v := by
  have hrest := lex_render hpost
  rw [lex] at hrest
  rw [lex, render_cons, Piece.text, lexFrom_quoted, lexFrom_decodes h hhead, hrest]
  simp [Piece.tokens]

/-! ### Texts written without escaping -/

/-- A text that reads back as itself: no quote, and backslashes only before wildcards. -/
def verbatim : List Char → Bool
  | [] => true
  | [c] => c != '\'' && c != '\\'
  | c :: d :: s =>
    if c = '\\' then isWildcard d && verbatim s
    else c != '\'' && verbatim (d :: s)

/-- A space separates two texts written raw into one literal. -/
theorem verbatim_append_space (s t : List Char) :
    verbatim (s ++ ' ' :: t) = (verbatim s && verbatim t) := by
  have hspace : verbatim (' ' :: t) = verbatim t := by
    cases t with
    | nil => rfl
    | cons c t => simp [verbatim]
  induction s using verbatim.induct with
  | case1 => simpa [verbatim] using hspace
  | case2 c =>
    by_cases hc : c = '\\'
    · simp [verbatim, hc, isWildcard]
    · have hbne : (c != '\\') = true := bne_iff_ne.mpr hc
      simp [verbatim, hc, hbne, hspace]
  | case3 d s ih =>
    rw [List.cons_append, List.cons_append, verbatim, if_pos rfl, ih, verbatim, if_pos rfl,
      Bool.and_assoc]
  | case4 c d s hc ih =>
    rw [List.cons_append, List.cons_append, verbatim, if_neg hc, ← List.cons_append, ih, verbatim,
      if_neg hc, Bool.and_assoc]

theorem Decodes.nil : Decodes [] [] := by
  intro v s
  rw [List.nil_append, List.append_nil]

theorem Decodes.append {w₁ v₁ w₂ v₂ : List Char} (h₁ : Decodes w₁ v₁) (h₂ : Decodes w₂ v₂) :
    Decodes (w₁ ++ w₂) (v₁ ++ v₂) := by
  intro v s
  rw [List.append_assoc, h₁, h₂, List.append_assoc]

theorem Decodes.single {c : Char} (hq : c ≠ '\'') (hb : c ≠ '\\') : Decodes [c] [c] := by
  intro v s
  rw [List.singleton_append, lexFrom, if_neg hb, if_neg hq]

/-- A text without quotes and backslashes is read as it is. -/
theorem Decodes.of_forall {t : List Char} (h : ∀ c ∈ t, c ≠ '\'' ∧ c ≠ '\\') : Decodes t t := by
  induction t with
  | nil => exact .nil
  | cons c t ih =>
    have hc := h c (List.mem_cons_self ..)
    exact (Decodes.single hc.1 hc.2).append (ih fun d hd ↦ h d (List.mem_cons_of_mem _ hd))

theorem Decodes.backslash (c : Char) : Decodes ['\\', c] (unescape c) := by
  intro v s
  rw [List.cons_append, List.singleton_append, lexFrom, if_pos rfl, lexFrom]

theorem decodes_of_verbatim {t : List Char} (h : verbatim t) : Decodes t t := by
  induction t using verbatim.induct with
  | case1 => exact .nil
  | case2 c =>
    simp only [verbatim, Bool.and_eq_true, bne_iff_ne] at h
    exact .single h.1 h.2
  | case3 d s ih =>
    simp only [verbatim, if_pos, Bool.and_eq_true] at h
    have hd := Decodes.backslash d
    rw [unescape, if_pos h.1] at hd
    exact hd.append (ih h.2)
  | case4 c d s hc ih =>
    simp only [verbatim, if_neg hc, Bool.and_eq_true, bne_iff_ne] at h
    exact (Decodes.single h.1 hc).append (ih h.2)

/-- The characters a token takes in a text without escapes. -/
def Token.weight : Token → ℕ
  | .sym _ => 1
  | .lit value => value.length + 2

/-- The weight of a list of tokens. -/
def weight (tokens : List Token) : ℕ :=
  (tokens.map Token.weight).sum

/-- The weight of what has been read of a literal. -/
def Mode.weight : Mode → ℕ
  | .plain => 0
  | .inside _ v => v.length + 1
  | .escaped _ v => v.length + 2
  | .closing _ v => v.length + 2

@[simp] theorem weight_nil : weight [] = 0 := rfl

@[simp] theorem weight_cons (t : Token) (ts : List Token) :
    weight (t :: ts) = t.weight + weight ts := by
  rw [weight, List.map_cons, List.sum_cons, weight]

@[simp] theorem weight_map_sym (s : List Char) : weight (s.map .sym) = s.length := by
  induction s with
  | nil => rfl
  | cons c s ih =>
    rw [List.map_cons, weight_cons, ih, Token.weight, List.length_cons, Nat.add_comm]

theorem length_unescape (c : Char) : (unescape c).length = if isWildcard c then 2 else 1 := by
  rw [unescape]
  split_ifs <;> rfl

/-- A character adds at most one to the weight of the tokens. -/
theorem weight_le {m : Mode} {s : List Char} {tokens : List Token}
    (h : lexFrom m s = some tokens) : weight tokens ≤ m.weight + s.length := by
  induction s generalizing m tokens with
  | nil =>
    cases m with
    | plain | closing =>
      cases h
      simp [Mode.weight, Token.weight]
    | inside | escaped => cases h
  | cons c s ih =>
    rw [List.length_cons]
    cases m with
    | plain =>
      rw [lexFrom] at h
      split_ifs at h
      · have := ih h
        simp only [Mode.weight, List.length_nil] at this ⊢
        omega
      · obtain ⟨rest, hrest, rfl⟩ := Option.map_eq_some_iff.mp h
        have := ih hrest
        simp only [weight_cons, Token.weight, Mode.weight] at this ⊢
        omega
    | inside q v =>
      rw [lexFrom] at h
      split_ifs at h
      · have := ih h
        simp only [Mode.weight] at this ⊢
        omega
      · have := ih h
        simp only [Mode.weight] at this ⊢
        omega
      · have := ih h
        simp only [Mode.weight, List.length_append, List.length_singleton] at this ⊢
        omega
    | escaped q v =>
      rw [lexFrom] at h
      have := ih h
      have hlength := length_unescape c
      split_ifs at hlength <;>
        simp only [Mode.weight, List.length_append] at this ⊢ <;> omega
    | closing q v =>
      rw [lexFrom] at h
      split_ifs at h
      · have := ih h
        simp only [Mode.weight, List.length_append, List.length_singleton] at this ⊢
        omega
      · obtain ⟨rest, hrest, rfl⟩ := Option.map_eq_some_iff.mp h
        have := ih hrest
        simp only [weight_cons, Token.weight, Mode.weight, List.length_nil] at this ⊢
        omega
      · obtain ⟨rest, hrest, rfl⟩ := Option.map_eq_some_iff.mp h
        have := ih hrest
        simp only [weight_cons, Token.weight, Mode.weight] at this ⊢
        omega

/-- What is left to read must still hold the tokens read from it. -/
theorem length_le_of_lexFrom {m : Mode} {s value : List Char} {tokens : List Token}
    (h : lexFrom m s = some (.lit value :: tokens)) :
    value.length + 2 + weight tokens ≤ m.weight + s.length := by
  have hle := weight_le h
  rwa [weight_cons, Token.weight] at hle

/-- A raw quote ends the literal too early, or is doubled and loses a character. -/
theorem not_lexFrom_quote {v u rest : List Char} {tokens : List Token}
    (hweight : weight tokens = rest.length) :
    lexFrom (.inside '\'' v) ('\'' :: (u ++ '\'' :: rest)) ≠
      some (.lit (v ++ '\'' :: u) :: tokens) := by
  intro h
  rw [lexFrom_inside_quote] at h
  cases hu : u ++ '\'' :: rest with
  | nil => exact List.append_ne_nil_of_right_ne_nil _ (List.cons_ne_nil _ _) hu
  | cons e s =>
    rw [hu] at h
    have hlength := congrArg List.length hu
    simp only [List.length_append, List.length_cons] at hlength
    by_cases he : e = '\''
    · rw [lexFrom, if_pos he] at h
      have hle := length_le_of_lexFrom h
      simp only [Mode.weight, List.length_append, List.length_cons, List.length_nil] at hle
      omega
    · rw [lexFrom_closing (by simpa using he)] at h
      obtain ⟨rest', -, heq⟩ := Option.map_eq_some_iff.mp h
      have hvalue := congrArg List.length (Token.lit.inj (List.cons.inj heq).1)
      simp only [List.length_append, List.length_cons] at hvalue
      omega

/-- A reading of a raw text that loses no weight reads the text as itself. -/
theorem verbatim_of_lexFrom {t rest v : List Char} {tokens : List Token}
    (hweight : weight tokens = rest.length)
    (h : lexFrom (.inside '\'' v) (t ++ '\'' :: rest) = some (.lit (v ++ t) :: tokens)) :
    verbatim t := by
  induction t using verbatim.induct generalizing v with
  | case1 => rfl
  | case2 c =>
    have hquote : c ≠ '\'' := fun hc ↦ not_lexFrom_quote hweight (hc ▸ h)
    have hbackslash : c ≠ '\\' := by
      intro hc
      rw [List.singleton_append, lexFrom, if_pos hc, lexFrom] at h
      have hle := length_le_of_lexFrom h
      have hone : (unescape '\'').length = 1 := rfl
      simp only [Mode.weight, List.length_append, List.length_singleton, hone] at hle
      omega
    simp [verbatim, hquote, hbackslash]
  | case3 d s ih =>
    rw [List.cons_append, List.cons_append, lexFrom, if_pos rfl, lexFrom] at h
    have hd : isWildcard d := by
      by_contra hd
      have hle := length_le_of_lexFrom h
      have hone := length_unescape d
      rw [if_neg hd] at hone
      simp only [Mode.weight, List.length_append, List.length_cons, hone] at hle
      omega
    have hunescape : unescape d = ['\\', d] := by rw [unescape, if_pos hd]
    rw [hunescape] at h
    have hs : verbatim s := @ih (v ++ ['\\', d]) (by simpa using h)
    simp [verbatim, hd, hs]
  | case4 c d s hc ih =>
    have hquote : c ≠ '\'' := fun hq ↦ not_lexFrom_quote hweight (hq ▸ h)
    rw [List.cons_append, lexFrom, if_neg hc, if_neg hquote] at h
    have hs : verbatim (d :: s) := @ih (v ++ [c]) (by simpa using h)
    simp [verbatim, hc, hquote, hs]

/-- Written raw before a text without quotes, a text is read as itself exactly when it is
`verbatim`. -/
theorem lex_raw_iff {t post : List Char} (hpost : ∀ c ∈ post, isQuote c = false) :
    lex (render [.quoted t t, .sql post]) = some (intended [.quoted t t, .sql post]) ↔
      verbatim t := by
  have hhead : post.head? ≠ some '\'' := by
    intro h
    cases post with
    | nil => cases h
    | cons c s =>
      rw [List.head?_cons, Option.some.injEq] at h
      exact absurd (hpost c (List.mem_cons_self ..)) (by rw [h]; decide)
  have hrender : lex (render [.quoted t t, .sql post]) =
      lexFrom (.inside '\'' []) (t ++ '\'' :: post) := by
    rw [lex, render_cons, Piece.text, lexFrom_quoted, render_cons, render_nil, List.append_nil,
      Piece.text]
  rw [hrender]
  refine ⟨fun h ↦ ?_, fun h ↦ ?_⟩
  · exact @verbatim_of_lexFrom t post [] _ (weight_map_sym post)
      (by simpa [Piece.tokens] using h)
  · have hplain := lexFrom_plain_append hpost []
    rw [List.append_nil] at hplain
    rw [lexFrom_decodes (decodes_of_verbatim h) hhead, hplain]
    simp [lexFrom, Piece.tokens]

/-! ### Escaped texts -/

/-- What the documentation of the client library says of a character: NUL, newline, carriage
return, backslash, both quotes and control-Z get a backslash. -/
def escapeChar (c : Char) : List Char :=
  if c = '\x00' then ['\\', '0']
  else if c = '\n' then ['\\', 'n']
  else if c = '\r' then ['\\', 'r']
  else if c = '\\' then ['\\', '\\']
  else if c = '\'' then ['\\', '\'']
  else if c = '"' then ['\\', '"']
  else if c = '\x1a' then ['\\', 'Z']
  else [c]

/-- A text with its special characters escaped. -/
def escape (s : List Char) : List Char :=
  s.flatMap escapeChar

/-- An escaped character is a backslash and the letter for it. -/
theorem escapeChar_cases (c : Char) :
    (escapeChar c = [c] ∧ c ≠ '\'' ∧ c ≠ '\\') ∨
      ∃ d, escapeChar c = ['\\', d] ∧ unescape d = [c] := by
  by_cases hnul : c = '\x00'
  · exact .inr ⟨'0', by rw [hnul]; decide⟩
  by_cases hnewline : c = '\n'
  · exact .inr ⟨'n', by rw [hnewline]; decide⟩
  by_cases hreturn : c = '\r'
  · exact .inr ⟨'r', by rw [hreturn]; decide⟩
  by_cases hbackslash : c = '\\'
  · exact .inr ⟨'\\', by rw [hbackslash]; decide⟩
  by_cases hquote : c = '\''
  · exact .inr ⟨'\'', by rw [hquote]; decide⟩
  by_cases hdouble : c = '"'
  · exact .inr ⟨'"', by rw [hdouble]; decide⟩
  by_cases hcontrol : c = '\x1a'
  · exact .inr ⟨'Z', by rw [hcontrol]; decide⟩
  · refine .inl ⟨?_, hquote, hbackslash⟩
    rw [escapeChar, if_neg hnul, if_neg hnewline, if_neg hreturn, if_neg hbackslash, if_neg hquote,
      if_neg hdouble, if_neg hcontrol]

theorem decodes_escapeChar (c : Char) : Decodes (escapeChar c) [c] := by
  obtain ⟨hc, hquote, hbackslash⟩ | ⟨d, hd, hc⟩ := escapeChar_cases c
  · rw [hc]
    exact .single hquote hbackslash
  · rw [hd, ← hc]
    exact .backslash d

@[simp] theorem escape_nil : escape [] = [] := rfl

@[simp] theorem escape_cons (c : Char) (s : List Char) :
    escape (c :: s) = escapeChar c ++ escape s := rfl

/-- An escaped text is read as the text. -/
theorem decodes_escape (s : List Char) : Decodes (escape s) s := by
  induction s with
  | nil => exact .nil
  | cons c s ih => exact (decodes_escapeChar c).append ih

theorem length_escapeChar_le (c : Char) :
    1 ≤ (escapeChar c).length ∧ (escapeChar c).length ≤ 2 := by
  obtain ⟨hc, -, -⟩ | ⟨d, hd, -⟩ := escapeChar_cases c
  · simp [hc]
  · simp [hd]

theorem length_escape_le (s : List Char) : (escape s).length ≤ 2 * s.length := by
  induction s with
  | nil => exact le_rfl
  | cons c s ih =>
    have hc := (length_escapeChar_le c).2
    rw [escape_cons, List.length_append, List.length_cons]
    omega

theorem length_le_escape (s : List Char) : s.length ≤ (escape s).length := by
  induction s with
  | nil => exact le_rfl
  | cons c s ih =>
    have hc := (length_escapeChar_le c).1
    rw [escape_cons, List.length_append, List.length_cons]
    omega

/-! ### Escaped texts that are cut -/

/-- An escaped text cut to `n` characters: a shorter text escaped, or that and a backslash that lost
its character. -/
theorem take_escape (s : List Char) (n : ℕ) :
    ∃ k, (escape s).take n = escape (s.take k) ∨
      (escape s).take n = escape (s.take k) ++ ['\\'] := by
  induction s generalizing n with
  | nil => exact ⟨0, .inl (by simp)⟩
  | cons c s ih =>
    cases n with
    | zero => exact ⟨0, .inl (by simp)⟩
    | succ n =>
      obtain ⟨hc, -, -⟩ | ⟨d, hd, -⟩ := escapeChar_cases c
      · obtain ⟨k, hk⟩ := ih n
        refine ⟨k + 1, ?_⟩
        rw [escape_cons, List.take_succ_cons, escape_cons, hc]
        simpa using hk
      · cases n with
        | zero => exact ⟨0, .inr (by simp [hd])⟩
        | succ n =>
          obtain ⟨k, hk⟩ := ih n
          refine ⟨k + 1, ?_⟩
          rw [escape_cons, List.take_succ_cons, escape_cons, hd]
          simpa using hk

theorem escape_append (s t : List Char) : escape (s ++ t) = escape s ++ escape t :=
  List.flatMap_append

theorem length_escape_take_le (s : List Char) {k n : ℕ} (h : k ≤ n) :
    (escape (s.take k)).length ≤ (escape (s.take n)).length := by
  have hsplit : s.take n = s.take k ++ (s.take n).drop k := by
    have htake := List.take_append_drop k (s.take n)
    rwa [List.take_take, Nat.min_eq_left h, eq_comm] at htake
  rw [hsplit, escape_append, List.length_append]
  exact Nat.le_add_right _ _

/-- When the escaped form of the first `n` characters fits, cutting and escaping commute. -/
theorem take_escape_of_length_le {s : List Char} {n : ℕ} (h : (escape (s.take n)).length ≤ n) :
    (escape s).take n = escape (s.take n) := by
  by_cases hn : s.length ≤ n
  · rw [List.take_of_length_le hn] at h ⊢
    exact List.take_of_length_le h
  · have hlength := length_le_escape (s.take n)
    rw [List.length_take, Nat.min_eq_left (by omega)] at hlength
    have hsplit : escape s = escape (s.take n) ++ escape (s.drop n) := by
      rw [← escape_append, List.take_append_drop]
    rw [hsplit, List.take_append_of_le_length (by omega), List.take_of_length_le h]

/-- Texts of letters, which a lone backslash before them can only turn into one character. -/
def Letters (s : List Char) : Prop :=
  ∀ c ∈ s, c ≠ '\'' ∧ c ≠ '\\' ∧ isWildcard c = false

theorem Letters.decodes {s : List Char} (h : Letters s) : Decodes s s :=
  .of_forall fun c hc ↦ ⟨(h c hc).1, (h c hc).2.1⟩

/-- A cut escaped text and letters after it: what the reader makes of them, which is too short when
something was cut. -/
theorem decodes_take_escape (s : List Char) {salt : List Char} (hsalt : Letters salt)
    (hne : salt ≠ []) (n : ℕ) :
    ∃ value k, Decodes ((escape s).take n ++ salt) value ∧
      value.length = (s.take k).length + salt.length ∧ (escape (s.take k)).length ≤ n := by
  obtain ⟨k, hk⟩ := take_escape s n
  have hlength : ((escape s).take n).length ≤ n := by
    rw [List.length_take]
    omega
  rcases hk with hk | hk
  · refine ⟨s.take k ++ salt, k, ?_, List.length_append, hk ▸ hlength⟩
    rw [hk]
    exact (decodes_escape _).append hsalt.decodes
  · obtain ⟨c, rest, rfl⟩ := List.exists_cons_of_ne_nil hne
    have hc := (hsalt c (List.mem_cons_self ..)).2.2
    have hrest : Letters rest := fun d hd ↦ hsalt d (List.mem_cons_of_mem _ hd)
    refine ⟨s.take k ++ (unescape c ++ rest), k, ?_, ?_, ?_⟩
    · have hsplit : (escape s).take n ++ c :: rest =
          escape (s.take k) ++ (['\\', c] ++ rest) := by rw [hk]; simp
      rw [hsplit]
      exact (decodes_escape _).append ((Decodes.backslash c).append hrest.decodes)
    · have hone := length_unescape c
      rw [hc] at hone
      simp only [List.length_append, List.length_cons, hone]
      simp only [Bool.false_eq_true, if_false]
      omega
    · rw [hk, List.length_append] at hlength
      omega

/-- Escaped, cut to `n` characters and followed by letters, a text is read as its first `n`
characters exactly when their escaped form was not cut. -/
theorem lex_take_escape_iff (s : List Char) {salt : List Char} (hsalt : Letters salt)
    (hne : salt ≠ []) (n : ℕ) {post : List Piece} (hpost : Sound [] post)
    (hhead : (render post).head? ≠ some '\'') :
    lex (render (.quoted ((escape s).take n ++ salt) (s.take n ++ salt) :: post)) =
        some (intended (.quoted ((escape s).take n ++ salt) (s.take n ++ salt) :: post)) ↔
      (escape (s.take n)).length ≤ n := by
  refine ⟨fun h ↦ ?_, fun h ↦ ?_⟩
  · obtain ⟨value, k, hdecodes, hvalue, hk⟩ := decodes_take_escape s hsalt hne n
    rw [lex_quoted_iff hdecodes hpost hhead] at h
    rw [h, List.length_append, Nat.add_right_cancel_iff, List.length_take,
      List.length_take] at hvalue
    by_cases hkn : n ≤ k
    · exact (length_escape_take_le s hkn).trans hk
    · have hshort : s.length ≤ k := by omega
      rw [List.take_of_length_le (by omega)]
      rwa [List.take_of_length_le hshort] at hk
  · refine lex_render ⟨?_, ?_, hpost⟩
    · rw [take_escape_of_length_le h]
      exact (decodes_escape _).append hsalt.decodes
    · rwa [List.append_nil]

/-- It is read as the whole text exactly when the escaped form of the whole was not cut. -/
theorem decodes_take_escape_iff (s : List Char) {salt : List Char} (hsalt : Letters salt)
    (hne : salt ≠ []) (n : ℕ) :
    ∃ value, Decodes ((escape s).take n ++ salt) value ∧
      (value = s ++ salt ↔ (escape s).length ≤ n) := by
  by_cases hfits : (escape s).length ≤ n
  · refine ⟨s ++ salt, ?_, iff_of_true rfl hfits⟩
    rw [List.take_of_length_le hfits]
    exact (decodes_escape s).append hsalt.decodes
  · obtain ⟨value, k, hdecodes, hlength, hk⟩ := decodes_take_escape s hsalt hne n
    refine ⟨value, hdecodes, iff_of_false (fun hvalue ↦ ?_) hfits⟩
    rw [hvalue, List.length_append, Nat.add_right_cancel_iff, List.length_take] at hlength
    rw [List.take_of_length_le (by omega)] at hk
    exact hfits hk

/-! ### Statements with other values -/

/-- A token without the value of a literal. -/
def Token.form : Token → Token
  | .sym c => .sym c
  | .lit _ => .lit []

/-- The values of the literals. -/
def literals (tokens : List Token) : List (List Char) :=
  tokens.filterMap fun
    | .sym _ => none
    | .lit value => some value

/-- The values in the literals of the template. -/
def values (ps : List Piece) : List (List Char) :=
  ps.filterMap fun
    | .sql _ => none
    | .quoted _ value => some value

theorem literals_intended (ps : List Piece) : literals (intended ps) = values ps := by
  induction ps with
  | nil => rfl
  | cons p ps ih =>
    rw [intended_cons, literals, List.filterMap_append, ← literals, ← literals, ih]
    cases p with
    | sql text =>
      have hnone : literals (text.map .sym) = [] := by
        rw [literals, List.filterMap_map, List.filterMap_eq_nil_iff]
        exact fun _ _ ↦ rfl
      exact congrArg (· ++ values ps) hnone
    | quoted written value => rfl

/-- The values that the server reads, if it reads a statement of the template's form. -/
def valuesRead (text : List Char) (ps : List Piece) : Option (List (List Char)) := do
  let tokens ← lex text
  if tokens.map Token.form = (intended ps).map Token.form then some (literals tokens) else none

theorem valuesRead_eq {text : List Char} {ps ps' : List Piece} (h : lex text = some (intended ps'))
    (hform : (intended ps').map Token.form = (intended ps).map Token.form) :
    valuesRead text ps = some (values ps') := by
  rw [valuesRead, h, ← literals_intended]
  exact if_pos hform

/-- A literal whose text stands for another value is read as that value. -/
theorem valuesRead_replace {pre post : List Piece} {w v value : List Char}
    (hpre : Sound (render (.quoted w value :: post)) pre) (h : Decodes w value)
    (hpost : Sound [] post) (hhead : (render post).head? ≠ some '\'') :
    valuesRead (render (pre ++ .quoted w v :: post)) (pre ++ .quoted w v :: post) =
      some (values (pre ++ .quoted w value :: post)) := by
  have hrender : render (pre ++ .quoted w v :: post) = render (pre ++ .quoted w value :: post) := by
    rw [render, render, List.flatMap_append, List.flatMap_append]
    rfl
  have hrest : lex (render (.quoted w value :: post)) = some (intended (.quoted w value :: post)) :=
    lex_render ⟨h, by rwa [List.append_nil], hpost⟩
  refine valuesRead_eq (hrender ▸ (lex_append_iff hpre).mpr hrest) ?_
  rw [intended, intended, List.flatMap_append, List.flatMap_append, List.map_append,
    List.map_append]
  rfl

end BlitzedServices.Lib.SqlText
