import BlitzedServices.Lib.Sha1

/-!
# The transform of SHA-1

`transform` keeps sixteen words of the schedule in a ring and never moves its five variables: each line of its text
names them in other places. Its functions and rotations are written with fewer operations than the standard's.
`transform_compresses` says that it is the compression of the standard for every context and block.
-/

set_option autoImplicit false
set_option relaxedAutoImplicit false

namespace BlitzedServices.Sha1

open Lib Lib.Sha1

/-! ### The context -/

/-- `SHA1_CONTEXT`. -/
structure Sha1Context where
  h0 : Word
  h1 : Word
  h2 : Word
  h3 : Word
  h4 : Word
  nblocks : BitVec 32
  buf : Vector Byte 64
  count : ℕ

/-- The chaining variables of a context. -/
def Sha1Context.chain (hd : Sha1Context) : Chain := ⟨hd.h0, hd.h1, hd.h2, hd.h3, hd.h4⟩

/-! ### The macros -/

/-- `rol`. -/
def rol (x : Word) (n : ℕ) : Word := x <<< n ||| x >>> (32 - n)

/-- A variable of `transform`. -/
inductive Var where
  | a | b | c | d | e
  deriving DecidableEq

/-- `F1` to `F4`. -/
inductive Fun where
  | F1 | F2 | F3 | F4
  deriving DecidableEq

/-- What the macro computes. -/
def Fun.eval : Fun → Word → Word → Word → Word
  | .F1, x, y, z => z ^^^ (x &&& (y ^^^ z))
  | .F2, x, y, z => x ^^^ y ^^^ z
  | .F3, x, y, z => (x &&& y) ||| (z &&& (x ||| y))
  | .F4, x, y, z => x ^^^ y ^^^ z

def K1 : Word := 0x5A827999
def K2 : Word := 0x6ED9EBA1
def K3 : Word := 0x8F1BBCDC
def K4 : Word := 0xCA62C1D6

/-- The last argument of `R`: a word of the block, or the macro `M`. -/
inductive Arg where
  | x (i : ℕ)
  | M (i : ℕ)
  deriving DecidableEq

/-- A use of the macro `R`. -/
structure R where
  a : Var
  b : Var
  c : Var
  d : Var
  e : Var
  f : Fun
  k : Word
  m : Arg
  deriving DecidableEq

/-- The variables `a` to `e` and the ring `x`. -/
structure Vars where
  a : Word
  b : Word
  c : Word
  d : Word
  e : Word
  x : Vector Word 16

def Vars.get (v : Vars) : Var → Word
  | .a => v.a
  | .b => v.b
  | .c => v.c
  | .d => v.d
  | .e => v.e

def Vars.set (v : Vars) (var : Var) (w : Word) : Vars :=
  match var with
  | .a => { v with a := w }
  | .b => { v with b := w }
  | .c => { v with c := w }
  | .d => { v with d := w }
  | .e => { v with e := w }

/-- `x[i & 0x0f]`. -/
def Vars.at (v : Vars) (i : ℕ) : Word := v.x.get (Fin.ofNat 16 i)

/-- The value of the last argument. `M(i)` writes it into the ring too. -/
def Vars.arg (v : Vars) : Arg → Word × Vars
  | .x i => (v.at i, v)
  | .M i =>
    let tm := v.at i ^^^ v.at (i - 14) ^^^ v.at (i - 8) ^^^ v.at (i - 3)
    (rol tm 1, { v with x := v.x.set (i % 16) (rol tm 1) (Nat.mod_lt i (by decide)) })

/-- `R(a, b, c, d, e, f, k, m)`. -/
def R.run (l : R) (v : Vars) : Vars :=
  let (m, v) := v.arg l.m
  let v := v.set l.e (v.get l.e + (rol (v.get l.a) 5 + l.f.eval (v.get l.b) (v.get l.c) (v.get l.d) + l.k + m))
  v.set l.b (rol (v.get l.b) 30)

/-! ### The code -/

/-- The eighty lines of `transform`. -/
def lines : List R :=
  [
    ⟨.a, .b, .c, .d, .e, .F1, K1, .x 0⟩, ⟨.e, .a, .b, .c, .d, .F1, K1, .x 1⟩,
    ⟨.d, .e, .a, .b, .c, .F1, K1, .x 2⟩, ⟨.c, .d, .e, .a, .b, .F1, K1, .x 3⟩,
    ⟨.b, .c, .d, .e, .a, .F1, K1, .x 4⟩, ⟨.a, .b, .c, .d, .e, .F1, K1, .x 5⟩,
    ⟨.e, .a, .b, .c, .d, .F1, K1, .x 6⟩, ⟨.d, .e, .a, .b, .c, .F1, K1, .x 7⟩,
    ⟨.c, .d, .e, .a, .b, .F1, K1, .x 8⟩, ⟨.b, .c, .d, .e, .a, .F1, K1, .x 9⟩,
    ⟨.a, .b, .c, .d, .e, .F1, K1, .x 10⟩, ⟨.e, .a, .b, .c, .d, .F1, K1, .x 11⟩,
    ⟨.d, .e, .a, .b, .c, .F1, K1, .x 12⟩, ⟨.c, .d, .e, .a, .b, .F1, K1, .x 13⟩,
    ⟨.b, .c, .d, .e, .a, .F1, K1, .x 14⟩, ⟨.a, .b, .c, .d, .e, .F1, K1, .x 15⟩,
    ⟨.e, .a, .b, .c, .d, .F1, K1, .M 16⟩, ⟨.d, .e, .a, .b, .c, .F1, K1, .M 17⟩,
    ⟨.c, .d, .e, .a, .b, .F1, K1, .M 18⟩, ⟨.b, .c, .d, .e, .a, .F1, K1, .M 19⟩,
    ⟨.a, .b, .c, .d, .e, .F2, K2, .M 20⟩, ⟨.e, .a, .b, .c, .d, .F2, K2, .M 21⟩,
    ⟨.d, .e, .a, .b, .c, .F2, K2, .M 22⟩, ⟨.c, .d, .e, .a, .b, .F2, K2, .M 23⟩,
    ⟨.b, .c, .d, .e, .a, .F2, K2, .M 24⟩, ⟨.a, .b, .c, .d, .e, .F2, K2, .M 25⟩,
    ⟨.e, .a, .b, .c, .d, .F2, K2, .M 26⟩, ⟨.d, .e, .a, .b, .c, .F2, K2, .M 27⟩,
    ⟨.c, .d, .e, .a, .b, .F2, K2, .M 28⟩, ⟨.b, .c, .d, .e, .a, .F2, K2, .M 29⟩,
    ⟨.a, .b, .c, .d, .e, .F2, K2, .M 30⟩, ⟨.e, .a, .b, .c, .d, .F2, K2, .M 31⟩,
    ⟨.d, .e, .a, .b, .c, .F2, K2, .M 32⟩, ⟨.c, .d, .e, .a, .b, .F2, K2, .M 33⟩,
    ⟨.b, .c, .d, .e, .a, .F2, K2, .M 34⟩, ⟨.a, .b, .c, .d, .e, .F2, K2, .M 35⟩,
    ⟨.e, .a, .b, .c, .d, .F2, K2, .M 36⟩, ⟨.d, .e, .a, .b, .c, .F2, K2, .M 37⟩,
    ⟨.c, .d, .e, .a, .b, .F2, K2, .M 38⟩, ⟨.b, .c, .d, .e, .a, .F2, K2, .M 39⟩,
    ⟨.a, .b, .c, .d, .e, .F3, K3, .M 40⟩, ⟨.e, .a, .b, .c, .d, .F3, K3, .M 41⟩,
    ⟨.d, .e, .a, .b, .c, .F3, K3, .M 42⟩, ⟨.c, .d, .e, .a, .b, .F3, K3, .M 43⟩,
    ⟨.b, .c, .d, .e, .a, .F3, K3, .M 44⟩, ⟨.a, .b, .c, .d, .e, .F3, K3, .M 45⟩,
    ⟨.e, .a, .b, .c, .d, .F3, K3, .M 46⟩, ⟨.d, .e, .a, .b, .c, .F3, K3, .M 47⟩,
    ⟨.c, .d, .e, .a, .b, .F3, K3, .M 48⟩, ⟨.b, .c, .d, .e, .a, .F3, K3, .M 49⟩,
    ⟨.a, .b, .c, .d, .e, .F3, K3, .M 50⟩, ⟨.e, .a, .b, .c, .d, .F3, K3, .M 51⟩,
    ⟨.d, .e, .a, .b, .c, .F3, K3, .M 52⟩, ⟨.c, .d, .e, .a, .b, .F3, K3, .M 53⟩,
    ⟨.b, .c, .d, .e, .a, .F3, K3, .M 54⟩, ⟨.a, .b, .c, .d, .e, .F3, K3, .M 55⟩,
    ⟨.e, .a, .b, .c, .d, .F3, K3, .M 56⟩, ⟨.d, .e, .a, .b, .c, .F3, K3, .M 57⟩,
    ⟨.c, .d, .e, .a, .b, .F3, K3, .M 58⟩, ⟨.b, .c, .d, .e, .a, .F3, K3, .M 59⟩,
    ⟨.a, .b, .c, .d, .e, .F4, K4, .M 60⟩, ⟨.e, .a, .b, .c, .d, .F4, K4, .M 61⟩,
    ⟨.d, .e, .a, .b, .c, .F4, K4, .M 62⟩, ⟨.c, .d, .e, .a, .b, .F4, K4, .M 63⟩,
    ⟨.b, .c, .d, .e, .a, .F4, K4, .M 64⟩, ⟨.a, .b, .c, .d, .e, .F4, K4, .M 65⟩,
    ⟨.e, .a, .b, .c, .d, .F4, K4, .M 66⟩, ⟨.d, .e, .a, .b, .c, .F4, K4, .M 67⟩,
    ⟨.c, .d, .e, .a, .b, .F4, K4, .M 68⟩, ⟨.b, .c, .d, .e, .a, .F4, K4, .M 69⟩,
    ⟨.a, .b, .c, .d, .e, .F4, K4, .M 70⟩, ⟨.e, .a, .b, .c, .d, .F4, K4, .M 71⟩,
    ⟨.d, .e, .a, .b, .c, .F4, K4, .M 72⟩, ⟨.c, .d, .e, .a, .b, .F4, K4, .M 73⟩,
    ⟨.b, .c, .d, .e, .a, .F4, K4, .M 74⟩, ⟨.a, .b, .c, .d, .e, .F4, K4, .M 75⟩,
    ⟨.e, .a, .b, .c, .d, .F4, K4, .M 76⟩, ⟨.d, .e, .a, .b, .c, .F4, K4, .M 77⟩,
    ⟨.c, .d, .e, .a, .b, .F4, K4, .M 78⟩, ⟨.b, .c, .d, .e, .a, .F4, K4, .M 79⟩
  ]

/-- The word that four bytes in memory are on a little-endian machine. -/
def inMemory (p0 p1 p2 p3 : Byte) : Word := (p3 ++ p2 ++ p1 ++ p0 : BitVec 32)

/-- The loop that copies a block into `x`: the first byte of four goes to `p2[3]`, the last to `p2[0]`. -/
def loadWords (data : List Byte) : Vector Word 16 :=
  Vector.ofFn fun i ↦ inMemory (data.getD (4 * i + 3) 0) (data.getD (4 * i + 2) 0) (data.getD (4 * i + 1) 0)
    (data.getD (4 * i) 0)

/-- `transform`. -/
def transform (hd : Sha1Context) (data : List Byte) : Sha1Context :=
  let v := lines.foldl (fun v l ↦ l.run v) ⟨hd.h0, hd.h1, hd.h2, hd.h3, hd.h4, loadWords data⟩
  { hd with h0 := hd.h0 + v.a, h1 := hd.h1 + v.b, h2 := hd.h2 + v.c, h3 := hd.h3 + v.d, h4 := hd.h4 + v.e }

/-! ### The macros and the functions of the standard -/

theorem rol_eq (x : Word) {n : ℕ} (h : n < 32) : rol x n = x.rotateLeft n := by
  rw [BitVec.rotateLeft_def, Nat.mod_eq_of_lt h, rol]

theorem eval_F1 (x y z : Word) : Fun.F1.eval x y z = ch x y z := by
  ext i hi
  simp only [Fun.eval, ch, BitVec.getElem_xor, BitVec.getElem_and, BitVec.getElem_not]
  cases x[i] <;> cases y[i] <;> cases z[i] <;> rfl

theorem eval_F3 (x y z : Word) : Fun.F3.eval x y z = maj x y z := by
  ext i hi
  simp only [Fun.eval, maj, BitVec.getElem_xor, BitVec.getElem_and, BitVec.getElem_or]
  cases x[i] <;> cases y[i] <;> cases z[i] <;> rfl

/-! ### The places of the variables -/

/-- The variable that stands before another one in the list of a line. -/
def Var.before : Var → Var
  | .a => .e
  | .b => .a
  | .c => .b
  | .d => .c
  | .e => .d

theorem before_injective : Function.Injective Var.before := by
  intro r s h
  cases r <;> cases s <;> first | rfl | cases h

/-- The variable that line `t` has at a place. Each line moves the variables on by one place. -/
def place (t : ℕ) : Var → Var := Var.before^[t]

theorem place_injective (t : ℕ) : Function.Injective (place t) :=
  before_injective.iterate t

theorem place_succ (t : ℕ) (r : Var) : place (t + 1) r = place t r.before :=
  Function.iterate_succ_apply _ _ _

/-- The function and the constant of line `t`. -/
def usedIn (t : ℕ) : Fun × Word :=
  if t < 20 then (.F1, K1) else if t < 40 then (.F2, K2) else if t < 60 then (.F3, K3) else (.F4, K4)

/-- Line `t` as its number gives it. -/
def lineAt (t : ℕ) : R :=
  ⟨place t .a, place t .b, place t .c, place t .d, place t .e, (usedIn t).1, (usedIn t).2,
    if t < 16 then .x t else .M t⟩

/-- No line of the text has a name, a function, a constant or an index out of its turn. -/
theorem lines_eq : lines = (List.range 80).map lineAt := by
  decide +kernel

/-! ### One line is one round -/

@[simp] theorem get_set_self (v : Vars) (r : Var) (w : Word) : (v.set r w).get r = w := by
  cases r <;> rfl

theorem get_set_of_ne (v : Vars) {r s : Var} (w : Word) (h : s ≠ r) : (v.set r w).get s = v.get s := by
  cases r <;> cases s <;> first | rfl | exact absurd rfl h

@[simp] theorem at_set (v : Vars) (r : Var) (w : Word) (i : ℕ) : (v.set r w).at i = v.at i := by
  cases r <;> rfl

/-- The variables in the places that line `t` has for them. -/
def placed (t : ℕ) (v : Vars) : Chain :=
  ⟨v.get (place t .a), v.get (place t .b), v.get (place t .c), v.get (place t .d), v.get (place t .e)⟩

/-- Before line `t` the variables are the five words of the standard, and the ring has its last sixteen words. -/
structure Follows (block : List Byte) (s : Chain) (t : ℕ) (v : Vars) : Prop where
  vars : placed t v = rounds block s t
  ring : ∀ i < max t 16, max t 16 ≤ i + 16 → v.at i = schedule block i

section Line

variable {block : List Byte} {s : Chain} {t : ℕ} {v : Vars}

theorem eval_usedIn (x y z : Word) : (usedIn t).1.eval x y z = roundFunction t x y z := by
  rw [usedIn, roundFunction]
  split_ifs
  · exact eval_F1 x y z
  · rfl
  · exact eval_F3 x y z
  · rfl

theorem usedIn_constant : (usedIn t).2 = roundConstant t := by
  rw [usedIn, roundConstant]
  split_ifs <;> rfl

/-- The last argument is the word of the round, and it is in the ring afterwards. -/
theorem arg_follows (h : Follows block s t v) :
    (v.arg (lineAt t).m).1 = schedule block t ∧ (v.arg (lineAt t).m).2.get = v.get ∧
      ∀ i < max (t + 1) 16, max (t + 1) 16 ≤ i + 16 → (v.arg (lineAt t).m).2.at i = schedule block i := by
  by_cases ht : t < 16
  · have harg : (lineAt t).m = .x t := if_pos ht
    rw [harg]
    refine ⟨h.ring t (by omega) (by omega), rfl, fun i hi hle ↦ h.ring i (by omega) (by omega)⟩
  · have harg : (lineAt t).m = .M t := if_neg ht
    have hat : v.at t = schedule block (t - 16) := by
      rw [← h.ring (t - 16) (by omega) (by omega), Vars.at, Vars.at]
      congr 1
      exact Fin.ext (by simp only [Fin.val_ofNat]; omega)
    have hnew : rol (v.at t ^^^ v.at (t - 14) ^^^ v.at (t - 8) ^^^ v.at (t - 3)) 1 = schedule block t := by
      rw [rol_eq _ (by decide), schedule_ge block (by omega), hat, h.ring (t - 14) (by omega) (by omega),
        h.ring (t - 8) (by omega) (by omega), h.ring (t - 3) (by omega) (by omega)]
      congr 1
      ac_rfl
    rw [harg]
    refine ⟨hnew, rfl, fun i hi hle ↦ ?_⟩
    have hset : (v.arg (.M t)).2.at i = if t % 16 = i % 16 then schedule block t else v.at i := by
      rw [← hnew]
      simp only [Vars.arg, Vars.at, Vector.get_eq_getElem, Fin.val_ofNat, Vector.getElem_set]
    rw [hset]
    split_ifs with hit
    · rw [show t = i by omega]
    · exact h.ring i (by omega) (by omega)

/-- The variables after a line whose names are all different. -/
theorem run_get (l : R) (hbe : l.b ≠ l.e) (r : Var) : (l.run v).get r =
    if r = l.b then rol ((v.arg l.m).2.get l.b) 30
    else if r = l.e then (v.arg l.m).2.get l.e + (rol ((v.arg l.m).2.get l.a) 5 +
      l.f.eval ((v.arg l.m).2.get l.b) ((v.arg l.m).2.get l.c) ((v.arg l.m).2.get l.d) + l.k + (v.arg l.m).1)
    else (v.arg l.m).2.get r := by
  rw [R.run]
  split_ifs with hb he
  · rw [hb, get_set_self, get_set_of_ne _ _ hbe]
  · rw [he, get_set_of_ne _ _ hbe.symm, get_set_self]
  · rw [get_set_of_ne _ _ hb, get_set_of_ne _ _ he]

theorem run_at (l : R) (i : ℕ) : (l.run v).at i = (v.arg l.m).2.at i := by
  rw [R.run, at_set, at_set]

theorem Follows.step (h : Follows block s t v) : Follows block s (t + 1) ((lineAt t).run v) := by
  obtain ⟨hword, hget, hring⟩ := arg_follows h
  have hne {r r' : Var} (hrr : r ≠ r') : place t r ≠ place t r' := fun heq ↦ hrr (place_injective t heq)
  have hrun := run_get (v := v) (lineAt t) (hne (show Var.b ≠ .e by decide))
  refine ⟨?_, fun i hi hle ↦ ?_⟩
  · rw [rounds, ← h.vars]
    simp only [placed, place_succ, Var.before, hrun, hword, hget]
    simp only [lineAt, hne (show Var.e ≠ .b by decide), hne (show Var.a ≠ .b by decide),
      hne (show Var.a ≠ .e by decide), hne (show Var.c ≠ .b by decide), hne (show Var.c ≠ .e by decide),
      hne (show Var.d ≠ .b by decide), hne (show Var.d ≠ .e by decide), ↓reduceIte,
      eval_usedIn, usedIn_constant, rol_eq _ (show 5 < 32 by decide), rol_eq _ (show 30 < 32 by decide)]
    refine Chain.ext ?_ rfl rfl rfl rfl
    simp only [Lib.Sha1.round]
    ac_rfl
  · rw [run_at]
    exact hring i hi hle

end Line

/-! ### All lines are all rounds -/

/-- Before the first line. -/
theorem follows_loadWords (hd : Sha1Context) (data : List Byte) :
    Follows data hd.chain 0 ⟨hd.h0, hd.h1, hd.h2, hd.h3, hd.h4, loadWords data⟩ where
  vars := rfl
  ring i hi hle := by
    have hi : i < 16 := by omega
    rw [schedule_lt data hi, Vars.at, Vector.get_eq_getElem, loadWords, Vector.getElem_ofFn]
    simp only [Fin.val_ofNat, Nat.mod_eq_of_lt hi]
    rfl

theorem Follows.lines {block : List Byte} {s : Chain} {v : Vars} (h : Follows block s 0 v) (n : ℕ) :
    Follows block s n (((List.range n).map lineAt).foldl (fun v l ↦ l.run v) v) := by
  induction n with
  | zero => exact h
  | succ n ih =>
    rw [List.range_succ, List.map_append, List.foldl_append]
    exact ih.step

/-- After eighty lines the variables are back in their places. -/
theorem place_eighty (r : Var) : place 80 r = r := by
  cases r <;> decide +kernel

/-- The variables after the last line, whose values go into the context. -/
theorem transform_vars (hd : Sha1Context) (data : List Byte) : ∃ v : Vars,
    compress hd.chain data = ⟨hd.h0 + v.a, hd.h1 + v.b, hd.h2 + v.c, hd.h3 + v.d, hd.h4 + v.e⟩ ∧
    transform hd data =
      { hd with h0 := hd.h0 + v.a, h1 := hd.h1 + v.b, h2 := hd.h2 + v.c, h3 := hd.h3 + v.d, h4 := hd.h4 + v.e } := by
  have h := ((follows_loadWords hd data).lines 80).vars
  rw [← lines_eq, placed] at h
  simp only [place_eighty] at h
  refine ⟨lines.foldl (fun v l ↦ l.run v) ⟨hd.h0, hd.h1, hd.h2, hd.h3, hd.h4, loadWords data⟩, ?_, by rw [transform]⟩
  rw [compress, ← h]
  generalize lines.foldl (fun v l ↦ l.run v) ⟨hd.h0, hd.h1, hd.h2, hd.h3, hd.h4, loadWords data⟩ = v
  rfl

theorem transform_chain (hd : Sha1Context) (data : List Byte) :
    (transform hd data).chain = compress hd.chain data := by
  obtain ⟨v, hchain, hv⟩ := transform_vars hd data
  rw [hchain, hv]
  rfl

theorem transform_rest (hd : Sha1Context) (data : List Byte) :
    (transform hd data).buf = hd.buf ∧ (transform hd data).count = hd.count ∧
      (transform hd data).nblocks = hd.nblocks := by
  obtain ⟨v, -, hv⟩ := transform_vars hd data
  rw [hv]
  exact ⟨rfl, rfl, rfl⟩

/-- For every context and block, `transform` leaves the five words of the standard's compression in the context and
nothing else is changed. -/
theorem transform_compresses (hd : Sha1Context) (data : List Byte) :
    transform hd data =
      { hd with
        h0 := (compress hd.chain data).a
        h1 := (compress hd.chain data).b
        h2 := (compress hd.chain data).c
        h3 := (compress hd.chain data).d
        h4 := (compress hd.chain data).e } := by
  obtain ⟨v, hchain, hv⟩ := transform_vars hd data
  rw [hchain, hv]

-- Nothing below looks into the eighty lines again.
attribute [irreducible] transform

end BlitzedServices.Sha1
