import BlitzedServices.Lib.BlockHash

/-!
# SHA-1

The hash as the standard states it: a schedule of eighty words for each block of 64 bytes, eighty rounds over five
words, and a message with a one bit, zeros and its number of bits behind it. Nothing here is meant to be fast.
-/

set_option autoImplicit false
set_option relaxedAutoImplicit false

namespace BlitzedServices.Lib.Sha1

abbrev Word := BitVec 32

abbrev Byte := BitVec 8

/-- The five words that a block changes. -/
@[ext] structure Chain where
  a : Word
  b : Word
  c : Word
  d : Word
  e : Word

/-! ### The functions of a round -/

def ch (x y z : Word) : Word := (x &&& y) ^^^ (~~~x &&& z)

def parity (x y z : Word) : Word := x ^^^ y ^^^ z

def maj (x y z : Word) : Word := (x &&& y) ^^^ (x &&& z) ^^^ (y &&& z)

/-- The function of round `t`. -/
def roundFunction (t : ℕ) : Word → Word → Word → Word :=
  if t < 20 then ch else if t < 40 then parity else if t < 60 then maj else parity

/-- The constant of round `t`. -/
def roundConstant (t : ℕ) : Word :=
  if t < 20 then 0x5A827999 else if t < 40 then 0x6ED9EBA1 else if t < 60 then 0x8F1BBCDC else 0xCA62C1D6

/-! ### A block -/

/-- Four bytes as a word, the highest first. -/
def wordOf (b₀ b₁ b₂ b₃ : Byte) : Word := (b₀ ++ b₁ ++ b₂ ++ b₃ : BitVec 32)

/-- The word `i` of a block. -/
def wordAt (block : List Byte) (i : ℕ) : Word :=
  wordOf (block.getD (4 * i) 0) (block.getD (4 * i + 1) 0) (block.getD (4 * i + 2) 0) (block.getD (4 * i + 3) 0)

/-- The word of round `t`. -/
def schedule (block : List Byte) (t : ℕ) : Word :=
  if t < 16 then wordAt block t
  else (schedule block (t - 3) ^^^ schedule block (t - 8) ^^^ schedule block (t - 14) ^^^
    schedule block (t - 16)).rotateLeft 1

/-- Round `t` with its word. -/
def round (t : ℕ) (w : Word) (s : Chain) : Chain :=
  ⟨s.a.rotateLeft 5 + roundFunction t s.b s.c s.d + s.e + roundConstant t + w, s.a, s.b.rotateLeft 30, s.c, s.d⟩

/-- The rounds before `t`. -/
def rounds (block : List Byte) (s : Chain) : ℕ → Chain
  | 0 => s
  | t + 1 => round t (schedule block t) (rounds block s t)

/-- What a block makes of the five words. -/
def compress (s : Chain) (block : List Byte) : Chain :=
  let s' := rounds block s 80
  ⟨s.a + s'.a, s.b + s'.b, s.c + s'.c, s.d + s'.d, s.e + s'.e⟩

/-! ### A message -/

/-- The five words at the start. -/
def initial : Chain := ⟨0x67452301, 0xEFCDAB89, 0x98BADCFE, 0x10325476, 0xC3D2E1F0⟩

/-- The five words as bytes. -/
def bytesOf (s : Chain) : List Byte :=
  [s.a, s.b, s.c, s.d, s.e].flatMap fun w ↦ bigEndian 4 w.toNat

/-- A message with its padding, for the number of bits that is written at its end. -/
def pad (bits : ℕ) (msg : List Byte) : List Byte :=
  msg ++ 0x80 :: List.replicate ((119 - msg.length % 64) % 64) 0 ++ bigEndian 8 bits

/-- The hash of a message that ends with this number of bits. -/
def hashWith (bits : ℕ) (msg : List Byte) : List Byte :=
  bytesOf (feed compress 64 (initial, []) (pad bits msg)).1

/-- SHA-1 of a message. -/
def sha1 (msg : List Byte) : List Byte :=
  hashWith (8 * msg.length) msg

/-! ### Small facts -/

theorem schedule_lt (block : List Byte) {t : ℕ} (h : t < 16) : schedule block t = wordAt block t := by
  rw [schedule, if_pos h]

theorem schedule_ge (block : List Byte) {t : ℕ} (h : 16 ≤ t) : schedule block t =
    (schedule block (t - 3) ^^^ schedule block (t - 8) ^^^ schedule block (t - 14) ^^^
      schedule block (t - 16)).rotateLeft 1 := by
  rw [schedule, if_neg (by omega)]

/-- A block is read in its first 64 bytes only. -/
theorem wordAt_congr {block block' : List Byte} (h : ∀ i < 64, block.getD i 0 = block'.getD i 0) {i : ℕ}
    (hi : i < 16) : wordAt block i = wordAt block' i := by
  rw [wordAt, wordAt, h _ (by omega), h _ (by omega), h _ (by omega), h _ (by omega)]

theorem length_bytesOf (s : Chain) : (bytesOf s).length = 20 := by
  simp [bytesOf]

end BlitzedServices.Lib.Sha1
