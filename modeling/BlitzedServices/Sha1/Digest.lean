import BlitzedServices.Lib.CString
import BlitzedServices.Sha1.Transform

/-!
# Digests

`sha1_write` gathers bytes in the buffer of the context and transforms whole blocks from where they are, so it can be
called with pieces of any lengths. `sha1_final` pads the message in the buffer and writes its length from the number
of blocks, which has 32 bits. `sha1Writes_digest` says what the digest is for every series of pieces, and
`makeShaHash_hex` what text `make_sha_hash` makes of it.
-/

set_option autoImplicit false
set_option relaxedAutoImplicit false

namespace BlitzedServices.Sha1

open Lib Lib.Sha1

/-! ### The code -/

/-- `sha1_init`. The buffer keeps what the memory had. -/
def sha1Init (hd : Sha1Context) : Sha1Context :=
  { hd with
    h0 := 0x67452301
    h1 := 0xefcdab89
    h2 := 0x98badcfe
    h3 := 0x10325476
    h4 := 0xc3d2e1f0
    nblocks := 0
    count := 0 }

/-- A block is transformed and counted. -/
def countBlock (hd : Sha1Context) (data : List Byte) : Sha1Context :=
  { transform hd data with count := 0, nblocks := hd.nblocks + 1 }

/-- `sha1_write(hd, NULL, 0)`: a full buffer is flushed. -/
def flush (hd : Sha1Context) : Sha1Context :=
  if hd.count = 64 then countBlock hd hd.buf.toList else hd

/-- The loop that moves bytes into the buffer while there are some and there is room. -/
def fill : Sha1Context → List Byte → Sha1Context × List Byte
  | hd, [] => (hd, [])
  | hd, byte :: inbuf =>
    if h : hd.count < 64 then
      fill { hd with buf := hd.buf.set hd.count byte h, count := hd.count + 1 } inbuf
    else (hd, byte :: inbuf)

/-- The loop over the whole blocks of the input. -/
def wholeBlocks (hd : Sha1Context) (inbuf : List Byte) : Sha1Context × List Byte :=
  if 64 ≤ inbuf.length then
    wholeBlocks (countBlock hd inbuf) (inbuf.drop 64)
  else (hd, inbuf)
termination_by inbuf.length

/-- The end of `sha1_write`: whole blocks, and what is left goes into the buffer. -/
def writeBlocks (hd : Sha1Context) (inbuf : List Byte) : Sha1Context :=
  let (hd, inbuf) := wholeBlocks hd inbuf
  (fill hd inbuf).1

/-- `sha1_write`. -/
def sha1Write (hd : Sha1Context) (inbuf : List Byte) : Sha1Context :=
  let hd := flush hd
  if hd.count ≠ 0 then
    let (hd, inbuf) := fill hd inbuf
    let hd := flush hd
    if inbuf = [] then hd else writeBlocks hd inbuf
  else writeBlocks hd inbuf

/-- `hd->buf[hd->count++] = byte`. Nothing comes of a write behind the buffer. -/
def put (hd : Sha1Context) (byte : Byte) : Option Sha1Context :=
  if h : hd.count < 64 then some { hd with buf := hd.buf.set hd.count byte h, count := hd.count + 1 } else none

/-- `while (hd->count < n) hd->buf[hd->count++] = 0`. -/
def zeroTo (n : ℕ) (hd : Sha1Context) : Sha1Context :=
  (fill hd (List.replicate (n - hd.count) 0)).1

/-- The four bytes of a word, the highest first. -/
def wordBytes (w : Word) : List Byte :=
  [(w >>> 24).setWidth 8, (w >>> 16).setWidth 8, (w >>> 8).setWidth 8, w.setWidth 8]

/-- Bytes are written into the buffer from index `i` on. -/
def store (buf : Vector Byte 64) (i : ℕ) : List Byte → Vector Byte 64
  | [] => buf
  | byte :: bytes => store (buf.setIfInBounds i byte) (i + 1) bytes

/-- The bytes are stored in the buffer of a context. -/
def Sha1Context.storeAt (hd : Sha1Context) (i : ℕ) (bytes : List Byte) : Sha1Context :=
  { hd with buf := store hd.buf i bytes }

/-- The number of bits, in two words: `msb` and `lsb` of `sha1_final`. -/
def bitCount (nblocks : BitVec 32) (count : ℕ) : Word × Word :=
  let t := nblocks
  let lsb := t <<< 6
  let msb := t >>> 26
  let t := lsb
  let lsb := lsb + BitVec.ofNat 32 count
  let msb := if lsb < t then msb + 1 else msb
  let t := lsb
  let lsb := lsb <<< 3
  let msb := msb <<< 3
  (msb ||| t >>> 29, lsb)

/-- The padding before the number of bits. -/
def padBuffer (hd : Sha1Context) : Option Sha1Context := do
  if hd.count < 56 then
    let hd ← put hd 0x80
    some (zeroTo 56 hd)
  else
    let hd ← put hd 0x80
    let hd := flush (zeroTo 64 hd)
    some (hd.storeAt 0 (List.replicate 56 0))

/-- The end of `sha1_final`: the number of bits, the last block, and the words as bytes. -/
def lastBlock (hd : Sha1Context) (msb lsb : Word) : Sha1Context :=
  let hd := hd.storeAt 56 (wordBytes msb ++ wordBytes lsb)
  let hd := transform hd hd.buf.toList
  hd.storeAt 0 (wordBytes hd.h0 ++ wordBytes hd.h1 ++ wordBytes hd.h2 ++ wordBytes hd.h3 ++ wordBytes hd.h4)

/-- `sha1_final`. -/
def sha1Final (hd : Sha1Context) : Option Sha1Context := do
  let hd := flush hd
  let bits := bitCount hd.nblocks hd.count
  let hd ← padBuffer hd
  some (lastBlock hd bits.1 bits.2)

/-- `sha1_read`: the twenty bytes that the callers read. -/
def sha1Read (hd : Sha1Context) : List Byte := hd.buf.toList.take 20

def bin2hex : List Char :=
  ['0', '1', '2', '3', '4', '5', '6', '7', '8', '9', 'a', 'b', 'c', 'd', 'e', 'f']

/-- The two characters of a byte. Nothing comes of an index behind the table. -/
def hexPair (byte : Byte) : Option CString := do
  let high := byte >>> 4
  let low := byte - high <<< 4
  some [← bin2hex[high.toNat]?, ← bin2hex[low.toNat]?]

/-- `make_sha_hash`, with what the stack holds at first. The password ends before its terminator. -/
def makeShaHash (stack : Sha1Context) (passwd : List Byte) : Option CString := do
  let ctx ← sha1Final (sha1Write (sha1Init stack) passwd)
  let pairs ← (sha1Read ctx).mapM hexPair
  some pairs.flatten

/-! ### Blocks -/

theorem schedule_congr {block block' : List Byte} (h : ∀ i < 64, block.getD i 0 = block'.getD i 0) (t : ℕ) :
    schedule block t = schedule block' t := by
  induction t using Nat.strong_induction_on with
  | _ t ih =>
    by_cases ht : t < 16
    · rw [schedule_lt block ht, schedule_lt block' ht, wordAt_congr h ht]
    · rw [schedule_ge block (by omega), schedule_ge block' (by omega), ih (t - 3) (by omega), ih (t - 8) (by omega),
        ih (t - 14) (by omega), ih (t - 16) (by omega)]

/-- What stands behind a block is not read. -/
theorem compress_take (s : Chain) (xs : List Byte) : compress s (xs.take 64) = compress s xs := by
  have hget : ∀ i < 64, (xs.take 64).getD i 0 = xs.getD i 0 := by
    intro i hi
    rw [List.getD_eq_getElem?_getD, List.getD_eq_getElem?_getD, List.getElem?_take_of_lt hi]
  have hrounds (t : ℕ) : rounds (xs.take 64) s t = rounds xs s t := by
    induction t with
    | zero => rfl
    | succ t ih => rw [rounds, rounds, ih, schedule_congr hget]
  rw [compress, compress, hrounds]

/-! ### The buffer -/

/-- The words of a context, and the bytes that wait in its buffer. -/
def Sha1Context.gathered (hd : Sha1Context) : Chain × List Byte := (hd.chain, hd.buf.toList.take hd.count)

/-- Bytes go into the stream that a context has seen. -/
abbrev feedBytes (p : Chain × List Byte) (bytes : List Byte) : Chain × List Byte := feed compress 64 p bytes

theorem feedBytes_append (p : Chain × List Byte) (xs ys : List Byte) :
    feedBytes p (xs ++ ys) = feedBytes (feedBytes p xs) ys := feed_append p xs ys

theorem take_set_succ {α : Type} {l : List α} {n : ℕ} (x : α) (h : n < l.length) :
    (l.set n x).take (n + 1) = l.take n ++ [x] := by
  rw [List.take_add_one, List.take_set_of_le (Nat.le_refl n), List.getElem?_set_self h]
  rfl

/-- What `fill` does to a context with room: the bytes that fit stand behind those in the buffer. -/
structure Filled (hd : Sha1Context) (inbuf : List Byte) (out : Sha1Context × List Byte) : Prop where
  chain : out.1.chain = hd.chain
  nblocks : out.1.nblocks = hd.nblocks
  count : out.1.count = hd.count + min (64 - hd.count) inbuf.length
  buf : out.1.buf.toList.take out.1.count = hd.buf.toList.take hd.count ++ inbuf.take (64 - hd.count)
  rest : out.2 = inbuf.drop (64 - hd.count)

theorem fill_filled (hd : Sha1Context) (inbuf : List Byte) (h : hd.count ≤ 64) : Filled hd inbuf (fill hd inbuf) := by
  induction inbuf generalizing hd with
  | nil => exact ⟨rfl, rfl, by simp [fill], by simp [fill], by simp [fill]⟩
  | cons byte inbuf ih =>
    rw [fill]
    split_ifs with hlt
    · obtain ⟨hchain, hnblocks, hcount, hbuf, hrest⟩ :=
        ih { hd with buf := hd.buf.set hd.count byte hlt, count := hd.count + 1 } hlt
      have hroom : 64 - hd.count = (64 - (hd.count + 1)) + 1 := by omega
      refine ⟨hchain, hnblocks, ?_, ?_, ?_⟩
      · simp only [List.length_cons] at hcount ⊢
        omega
      · rw [hbuf, hroom, List.take_succ_cons, Vector.toList_set, take_set_succ _ (by simpa using hlt),
          List.append_assoc, List.singleton_append]
      · rw [hrest, hroom, List.drop_succ_cons]
    · have hfull : hd.count = 64 := by omega
      exact ⟨rfl, rfl, by rw [hfull]; simp, by rw [hfull]; simp, by rw [hfull]; simp⟩

theorem length_gathered (hd : Sha1Context) (h : hd.count ≤ 64) : hd.gathered.2.length = hd.count := by
  rw [Sha1Context.gathered, List.length_take, Vector.length_toList]
  omega

theorem gathered_countBlock (hd : Sha1Context) (data : List Byte) :
    (countBlock hd data).gathered = (compress hd.chain data, []) :=
  Prod.ext (transform_chain hd data) (List.take_zero (l := (countBlock hd data).buf.toList))

/-- Bytes with which the buffer is not full are fed. -/
theorem Filled.feed {hd : Sha1Context} {inbuf : List Byte} {out : Sha1Context × List Byte} (h : Filled hd inbuf out)
    (hshort : hd.count + inbuf.length < 64) : out.1.gathered = feedBytes hd.gathered inbuf := by
  have hfit : inbuf.length ≤ 64 - hd.count := by omega
  rw [feedBytes, feed_short (by rw [length_gathered hd (by omega)]; omega), Sha1Context.gathered, h.chain, h.buf,
    List.take_of_length_le hfit]
  rfl

/-- A context whose buffer has just been filled is flushed into what its stream becomes. -/
theorem Filled.flush {hd : Sha1Context} {inbuf : List Byte} {out : Sha1Context × List Byte} (h : Filled hd inbuf out)
    (hcount : hd.count < 64) (hlong : 64 ≤ hd.count + inbuf.length) :
    (flush out.1).gathered = feedBytes hd.gathered (inbuf.take (64 - hd.count)) ∧ (Sha1.flush out.1).count = 0 ∧
      (Sha1.flush out.1).nblocks = hd.nblocks + 1 := by
  have hfull : out.1.count = 64 := by
    rw [h.count]
    omega
  have hlen : (inbuf.take (64 - hd.count)).length = 64 - hd.count := by
    rw [List.length_take]
    omega
  have hbuf : out.1.buf.toList = hd.gathered.2 ++ inbuf.take (64 - hd.count) := by
    have hall : out.1.buf.toList.take 64 = out.1.buf.toList := List.take_of_length_le (by rw [Vector.length_toList])
    have htake := h.buf
    rwa [hfull, hall] at htake
  have hfeed : feedBytes hd.gathered (inbuf.take (64 - hd.count)) =
      (compress hd.chain (hd.gathered.2 ++ inbuf.take (64 - hd.count)), []) :=
    feed_full (List.ne_nil_of_length_pos (by omega)) (by rw [length_gathered hd (by omega)]; omega)
  rw [Sha1.flush, if_pos hfull, gathered_countBlock, hbuf, h.chain, hfeed]
  exact ⟨rfl, rfl, by rw [countBlock, h.nblocks]⟩

/-! ### Writing -/

/-- The loop over whole blocks feeds them all. -/
theorem wholeBlocks_feed (hd : Sha1Context) (inbuf : List Byte) (h : hd.count = 0) :
    (wholeBlocks hd inbuf).1.count = 0 ∧ (wholeBlocks hd inbuf).2.length = inbuf.length % 64 ∧
      (wholeBlocks hd inbuf).1.nblocks = hd.nblocks + BitVec.ofNat 32 (inbuf.length / 64) ∧
      feedBytes (wholeBlocks hd inbuf).1.gathered (wholeBlocks hd inbuf).2 = feedBytes hd.gathered inbuf := by
  by_cases hlen : 64 ≤ inbuf.length
  · have hfirst : (inbuf.take 64).length = 64 := by
      rw [List.length_take]
      omega
    have hstep : (countBlock hd inbuf).gathered = feedBytes hd.gathered (inbuf.take 64) := by
      rw [gathered_countBlock, ← compress_take, feedBytes, ← feed_block (by decide) hfirst, Sha1Context.gathered, h,
        List.take_zero]
    have hdiv : inbuf.length / 64 = 1 + (inbuf.length - 64) / 64 := by omega
    obtain ⟨hcount, hrest, hnblocks, hfeed⟩ := wholeBlocks_feed (countBlock hd inbuf) (inbuf.drop 64) rfl
    rw [wholeBlocks, if_pos hlen]
    refine ⟨hcount, ?_, ?_, ?_⟩
    · rw [hrest, List.length_drop, ← Nat.mod_eq_sub_mod hlen]
    · rw [hnblocks, List.length_drop, hdiv, BitVec.ofNat_add, ← BitVec.add_assoc]
      rfl
    · rw [hfeed, hstep]
      conv_rhs => rw [← List.take_append_drop 64 inbuf, feedBytes_append]
  · rw [wholeBlocks, if_neg hlen]
    have hdiv : inbuf.length / 64 = 0 := by omega
    exact ⟨h, (Nat.mod_eq_of_lt (Nat.lt_of_not_le hlen)).symm, by rw [hdiv]; exact (BitVec.add_zero _).symm, rfl⟩
termination_by inbuf.length

/-- What a write makes of a context that has room. -/
structure Wrote (hd : Sha1Context) (inbuf : List Byte) (hd' : Sha1Context) : Prop where
  gathered : hd'.gathered = feedBytes hd.gathered inbuf
  count : hd'.count = (hd.count + inbuf.length) % 64
  nblocks : hd'.nblocks = hd.nblocks + BitVec.ofNat 32 ((hd.count + inbuf.length) / 64)

theorem writeBlocks_wrote (hd : Sha1Context) (inbuf : List Byte) (h : hd.count = 0) :
    Wrote hd inbuf (writeBlocks hd inbuf) := by
  obtain ⟨hcount, hrest, hnblocks, hfeed⟩ := wholeBlocks_feed hd inbuf h
  have hfill := fill_filled (wholeBlocks hd inbuf).1 (wholeBlocks hd inbuf).2 (by omega)
  refine ⟨?_, ?_, ?_⟩
  · rw [← hfeed]
    exact hfill.feed (by omega)
  · refine hfill.count.trans ?_
    omega
  · refine hfill.nblocks.trans ?_
    rw [hnblocks, h, Nat.zero_add]

theorem writeBlocks_nil (hd : Sha1Context) : writeBlocks hd [] = hd := by
  rw [writeBlocks, wholeBlocks, if_neg (by decide)]
  rfl

/-- The return in the middle of `sha1_write` leaves out what would do nothing. -/
theorem sha1Write_eq (hd : Sha1Context) (inbuf : List Byte) (h : hd.count < 64) : sha1Write hd inbuf =
    if hd.count ≠ 0 then writeBlocks (flush (fill hd inbuf).1) (fill hd inbuf).2 else writeBlocks hd inbuf := by
  have hflush : flush hd = hd := if_neg (by omega)
  have hreturn : (if (fill hd inbuf).2 = [] then flush (fill hd inbuf).1
      else writeBlocks (flush (fill hd inbuf).1) (fill hd inbuf).2) =
      writeBlocks (flush (fill hd inbuf).1) (fill hd inbuf).2 := by
    split_ifs with hnil
    · rw [hnil, writeBlocks_nil]
    · rfl
  rw [sha1Write, hflush, ← hreturn]

theorem sha1Write_wrote (hd : Sha1Context) (inbuf : List Byte) (h : hd.count < 64) :
    Wrote hd inbuf (sha1Write hd inbuf) := by
  have hfill := fill_filled hd inbuf (by omega)
  rw [sha1Write_eq hd inbuf h]
  by_cases hcount : hd.count ≠ 0
  · rw [if_pos hcount]
    by_cases hlong : 64 ≤ hd.count + inbuf.length
    · obtain ⟨hgathered, hzero, hnblocks⟩ := hfill.flush h hlong
      have hrest : (fill hd inbuf).2 = inbuf.drop (64 - hd.count) := hfill.rest
      have hdiv : (hd.count + inbuf.length) / 64 = 1 + (inbuf.length - (64 - hd.count)) / 64 := by omega
      have hwrote := writeBlocks_wrote (flush (fill hd inbuf).1) (fill hd inbuf).2 hzero
      refine ⟨?_, ?_, ?_⟩
      · rw [hwrote.gathered, hgathered, hrest, ← feedBytes_append, List.take_append_drop]
      · rw [hwrote.count, hzero, hrest, List.length_drop]
        omega
      · rw [hwrote.nblocks, hzero, hnblocks, hrest, List.length_drop, hdiv, BitVec.ofNat_add, Nat.zero_add,
          ← BitVec.add_assoc]
        rfl
    · have hcount' : (fill hd inbuf).1.count = hd.count + inbuf.length := by
        rw [hfill.count]
        omega
      have hnil : (fill hd inbuf).2 = [] := by
        rw [hfill.rest, List.drop_eq_nil_of_le (by omega)]
      have hdiv : (hd.count + inbuf.length) / 64 = 0 := by omega
      have hflush : flush (fill hd inbuf).1 = (fill hd inbuf).1 := if_neg (by omega)
      rw [hnil, hflush, writeBlocks_nil]
      refine ⟨hfill.feed (by omega), by omega, ?_⟩
      rw [hfill.nblocks, hdiv]
      exact (BitVec.add_zero _).symm
  · rw [if_neg hcount]
    exact writeBlocks_wrote hd inbuf (by omega)

/-! ### A stream -/

/-- A context has seen the stream `msg` since `sha1_init`. -/
structure Saw (hd : Sha1Context) (msg : List Byte) : Prop where
  gathered : hd.gathered = feedBytes (initial, []) msg
  count : hd.count = msg.length % 64
  nblocks : hd.nblocks = BitVec.ofNat 32 (msg.length / 64)

theorem saw_init (stack : Sha1Context) : Saw (sha1Init stack) [] where
  gathered := Prod.ext rfl (List.take_zero (l := stack.buf.toList))
  count := rfl
  nblocks := rfl

theorem Saw.write {hd : Sha1Context} {msg : List Byte} (h : Saw hd msg) (inbuf : List Byte) :
    Saw (sha1Write hd inbuf) (msg ++ inbuf) := by
  have hcount := h.count
  have hwrote := sha1Write_wrote hd inbuf (by omega)
  have hdiv : (msg.length + inbuf.length) / 64 = msg.length / 64 + (msg.length % 64 + inbuf.length) / 64 := by omega
  refine ⟨?_, ?_, ?_⟩
  · rw [hwrote.gathered, h.gathered, ← feedBytes_append]
  · rw [hwrote.count, hcount, List.length_append]
    omega
  · rw [hwrote.nblocks, h.nblocks, hcount, List.length_append, hdiv, BitVec.ofNat_add]

theorem saw_writes (stack : Sha1Context) (pieces : List (List Byte)) :
    Saw (pieces.foldl sha1Write (sha1Init stack)) pieces.flatten := by
  induction pieces using List.reverseRecOn with
  | nil => exact saw_init stack
  | append_singleton pieces piece ih =>
    rw [List.foldl_append, List.flatten_append, List.flatten_singleton]
    exact ih.write piece

/-! ### The number of bits -/

theorem wordBytes_eq (w : Word) : wordBytes w = bigEndian 4 w.toNat := by
  have hbyte (k : ℕ) : (w >>> k).setWidth 8 = BitVec.ofNat 8 (w.toNat / 2 ^ k) := by
    refine BitVec.eq_of_toNat_eq ?_
    rw [BitVec.toNat_setWidth, BitVec.toNat_ushiftRight, Nat.shiftRight_eq_div_pow, BitVec.toNat_ofNat]
  have hlast : w.setWidth 8 = BitVec.ofNat 8 (w.toNat / 2 ^ 0) := by
    rw [← hbyte 0, BitVec.ushiftRight_zero]
  rw [wordBytes, hbyte, hbyte, hbyte, hlast]
  rfl

/-- Two words one after the other are the bytes of one number. -/
theorem wordBytes_append (msb lsb : Word) :
    wordBytes msb ++ wordBytes lsb = bigEndian 8 (msb.toNat * 2 ^ 32 + lsb.toNat) := by
  have hlt := lsb.isLt
  rw [wordBytes_eq, wordBytes_eq]
  simp only [bigEndian, List.range, List.range.loop, List.map_cons, List.map_nil, List.cons_append, List.nil_append,
    List.cons.injEq, and_true]
  refine ⟨?_, ?_, ?_, ?_, ?_, ?_, ?_, ?_⟩ <;> refine BitVec.eq_of_toNat_eq ?_ <;>
    simp only [BitVec.toNat_ofNat] <;> omega

/-- The two words are the number of bits of the blocks and of the bytes in the buffer. The sum never has a carry: the
low word ends with six zeros before the bytes are added. -/
theorem bitCount_eq (nblocks : BitVec 32) {count : ℕ} (h : count < 64) :
    (bitCount nblocks count).1.toNat * 2 ^ 32 + (bitCount nblocks count).2.toNat =
      8 * (64 * nblocks.toNat + count) := by
  have hlt := nblocks.isLt
  have hlow : (nblocks <<< 6).toNat = nblocks.toNat * 64 % 2 ^ 32 := by
    rw [BitVec.toNat_shiftLeft, Nat.shiftLeft_eq]
  have hsum : (nblocks <<< 6 + BitVec.ofNat 32 count).toNat = nblocks.toNat * 64 % 2 ^ 32 + count := by
    rw [BitVec.toNat_add, hlow, BitVec.toNat_ofNat]
    omega
  have hcarry : ¬nblocks <<< 6 + BitVec.ofNat 32 count < nblocks <<< 6 := by
    rw [BitVec.lt_def, hsum, hlow]
    omega
  have hhigh : (nblocks >>> 26 <<< 3).toNat = 2 ^ 3 * (nblocks.toNat / 2 ^ 26) := by
    rw [BitVec.toNat_shiftLeft, BitVec.toNat_ushiftRight, Nat.shiftLeft_eq, Nat.shiftRight_eq_div_pow]
    omega
  have hover : ((nblocks <<< 6 + BitVec.ofNat 32 count) >>> 29).toNat =
      (nblocks.toNat * 64 % 2 ^ 32 + count) / 2 ^ 29 := by
    rw [BitVec.toNat_ushiftRight, hsum, Nat.shiftRight_eq_div_pow]
  rw [bitCount]
  simp only [if_neg hcarry]
  rw [BitVec.toNat_or, hhigh, hover, ← Nat.two_pow_add_eq_or_of_lt (by omega), BitVec.toNat_shiftLeft, hsum,
    Nat.shiftLeft_eq]
  omega

/-! ### The padding -/

theorem toList_store (buf : Vector Byte 64) (i : ℕ) (bytes : List Byte) (h : i + bytes.length ≤ 64) :
    (store buf i bytes).toList = buf.toList.take i ++ bytes ++ buf.toList.drop (i + bytes.length) := by
  induction bytes generalizing buf i with
  | nil => rw [store, List.append_nil, List.length_nil, Nat.add_zero, List.take_append_drop]
  | cons byte bytes ih =>
    rw [List.length_cons] at h
    have hlen : i < buf.toList.length := by
      rw [Vector.length_toList]
      omega
    have hset : (buf.setIfInBounds i byte).toList = buf.toList.set i byte := by
      rw [Vector.setIfInBounds, Vector.toList, Vector.toList, Array.toList_setIfInBounds]
    rw [store, ih _ _ (by omega), hset, take_set_succ byte hlen, List.drop_set_of_lt (by omega), List.length_cons,
      List.append_assoc, List.append_assoc, List.append_assoc, List.singleton_append, List.cons_append,
      Nat.add_right_comm, Nat.add_assoc]

@[simp] theorem chain_storeAt (hd : Sha1Context) (i : ℕ) (bytes : List Byte) : (hd.storeAt i bytes).chain = hd.chain :=
  rfl

@[simp] theorem buf_storeAt (hd : Sha1Context) (i : ℕ) (bytes : List Byte) :
    (hd.storeAt i bytes).buf = store hd.buf i bytes := rfl

theorem put_eq {hd : Sha1Context} (byte : Byte) (h : hd.count < 64) : ∃ hd', put hd byte = some hd' ∧
    hd'.count = hd.count + 1 ∧ ∀ inbuf, fill hd' inbuf = fill hd (byte :: inbuf) := by
  refine ⟨_, dif_pos h, rfl, fun inbuf ↦ ?_⟩
  rw [fill, dif_pos h]

/-- The padding without the number of bits. -/
def paddingOf (count : ℕ) : List Byte := 0x80 :: List.replicate ((119 - count) % 64) 0

/-- Zeros that are written over the front of an empty buffer are fed. -/
theorem clear_front (hd : Sha1Context) {n : ℕ} (hn : n < 64) (h : hd.count = 0) :
    ((hd.storeAt 0 (List.replicate n 0)).chain, (hd.storeAt 0 (List.replicate n 0)).buf.toList.take n) =
      feedBytes hd.gathered (List.replicate n 0) := by
  have hempty : hd.gathered = (hd.chain, []) := by
    rw [Sha1Context.gathered, h, List.take_zero]
  have hbuf : (store hd.buf 0 (List.replicate n 0)).toList.take n = List.replicate n 0 := by
    rw [toList_store _ _ _ (by rw [List.length_replicate]; omega), List.take_zero, List.nil_append]
    exact List.take_left' List.length_replicate
  rw [hempty, feedBytes, feed_short (by rw [List.length_replicate]; exact (Nat.zero_add n).trans_lt hn), chain_storeAt,
    buf_storeAt, hbuf, List.nil_append]

/-- The first 56 bytes of the buffer, behind the blocks before, are the stream with its padding. -/
theorem padBuffer_eq {hd : Sha1Context} (h : hd.count < 64) : ∃ hd', padBuffer hd = some hd' ∧
    (hd'.chain, hd'.buf.toList.take 56) = feedBytes hd.gathered (paddingOf hd.count) := by
  obtain ⟨hd₁, hput, hcount, hfill⟩ := put_eq 0x80 h
  by_cases hshort : hd.count < 56
  · have hpad : paddingOf hd.count = 0x80 :: List.replicate (56 - hd₁.count) 0 := by
      rw [paddingOf, hcount]
      congr 2
      omega
    have hlen : (paddingOf hd.count).length = 56 - hd.count := by
      rw [hpad, List.length_cons, List.length_replicate, hcount]
      omega
    have hfilled := fill_filled hd (paddingOf hd.count) (by omega)
    refine ⟨zeroTo 56 hd₁, by rw [padBuffer, if_pos hshort, hput]; rfl, ?_⟩
    rw [zeroTo, hfill, ← hpad, ← hfilled.feed (by omega), Sha1Context.gathered, hfilled.count]
    rw [show hd.count + min (64 - hd.count) (paddingOf hd.count).length = 56 by omega]
  · have hzeros : (119 - hd.count) % 64 = (64 - hd₁.count) + 56 := by omega
    have hpad : paddingOf hd.count = (0x80 :: List.replicate (64 - hd₁.count) 0) ++ List.replicate 56 0 := by
      rw [paddingOf, hzeros, List.replicate_add, List.cons_append]
    have hlen : (0x80 :: List.replicate (64 - hd₁.count) (0 : Byte)).length = 64 - hd.count := by
      rw [List.length_cons, List.length_replicate, hcount]
      omega
    have hfilled := fill_filled hd (0x80 :: List.replicate (64 - hd₁.count) 0) (by omega)
    obtain ⟨hgathered, hzero, -⟩ := hfilled.flush h (by omega)
    rw [← hlen, List.take_length] at hgathered
    have hdef : padBuffer hd = some
        ((flush (fill hd (0x80 :: List.replicate (64 - hd₁.count) 0)).1).storeAt 0 (List.replicate 56 0)) := by
      rw [padBuffer, if_neg hshort, hput]
      simp only [Option.bind_eq_bind, Option.bind_some, zeroTo, hfill]
    refine ⟨_, hdef, ?_⟩
    rw [hpad, feedBytes_append, ← hgathered]
    exact clear_front _ (by decide) hzero

/-! ### The digest -/

/-- The words are written over the front of the buffer and read from there. -/
theorem take_store_words (buf : Vector Byte 64) (s : Chain) :
    (store buf 0 (wordBytes s.a ++ wordBytes s.b ++ wordBytes s.c ++ wordBytes s.d ++ wordBytes s.e)).toList.take 20 =
      bytesOf s := by
  rw [toList_store _ _ _ (by simp [wordBytes]), List.take_zero, List.nil_append, List.take_left' (by simp [wordBytes])]
  simp only [wordBytes_eq, bytesOf, List.flatMap_cons, List.flatMap_nil, List.append_assoc, List.append_nil]

/-- The last block is the front of the buffer with the number of bits behind it, and its words are read. -/
theorem sha1Read_lastBlock (hd : Sha1Context) (msb lsb : Word) : sha1Read (lastBlock hd msb lsb) =
    bytesOf (feedBytes (hd.chain, hd.buf.toList.take 56) (wordBytes msb ++ wordBytes lsb)).1 := by
  have hbuf : (store hd.buf 56 (wordBytes msb ++ wordBytes lsb)).toList =
      hd.buf.toList.take 56 ++ (wordBytes msb ++ wordBytes lsb) := by
    rw [toList_store _ _ _ (by simp [wordBytes]), List.drop_of_length_le (by simp [wordBytes]), List.append_nil]
  have hread : sha1Read (lastBlock hd msb lsb) = bytesOf (transform (hd.storeAt 56 (wordBytes msb ++ wordBytes lsb))
      (hd.storeAt 56 (wordBytes msb ++ wordBytes lsb)).buf.toList).chain := by
    rw [← take_store_words]
    rfl
  rw [hread, transform_chain, buf_storeAt, chain_storeAt, hbuf, feedBytes,
    feed_full (by simp [wordBytes]) (by simp [wordBytes])]

/-- `sha1_final` pads the message it has seen. The number of bits comes from the number of blocks modulo `2 ^ 32`. -/
theorem Saw.final {hd : Sha1Context} {msg : List Byte} (h : Saw hd msg) : ∃ hd', sha1Final hd = some hd' ∧
    sha1Read hd' = hashWith (8 * (msg.length % 2 ^ 38)) msg := by
  have hcount := h.count
  have hflush : flush hd = hd := if_neg (by omega)
  have hroom : hd.count < 64 := by omega
  obtain ⟨hd₁, hpad, hfront⟩ := padBuffer_eq hroom
  have hbits : 8 * (64 * hd.nblocks.toNat + hd.count) = 8 * (msg.length % 2 ^ 38) := by
    rw [h.nblocks, hcount, BitVec.toNat_ofNat]
    omega
  refine ⟨lastBlock hd₁ (bitCount hd.nblocks hd.count).1 (bitCount hd.nblocks hd.count).2,
    by rw [sha1Final, hflush, hpad]; rfl, ?_⟩
  rw [sha1Read_lastBlock, hfront, h.gathered, hcount, wordBytes_append, ← hcount, bitCount_eq _ (by omega), hbits,
    hcount, ← feedBytes_append, ← feedBytes_append, hashWith, pad, paddingOf, feedBytes, List.append_assoc]

/-- What is written in pieces is hashed as one message, whatever the memory of the context had. From `2 ^ 38` bytes on
the number of bits is no longer that of the message. -/
theorem sha1Writes_digest (stack : Sha1Context) (pieces : List (List Byte)) :
    ∃ hd, sha1Final (pieces.foldl sha1Write (sha1Init stack)) = some hd ∧
      sha1Read hd = hashWith (8 * (pieces.flatten.length % 2 ^ 38)) pieces.flatten ∧
      (pieces.flatten.length < 2 ^ 38 → sha1Read hd = sha1 pieces.flatten) := by
  obtain ⟨hd, hfinal, hread⟩ := (saw_writes stack pieces).final
  refine ⟨hd, hfinal, hread, fun hlen ↦ ?_⟩
  rw [hread, Nat.mod_eq_of_lt hlen, sha1]

/-! ### The text -/

/-- A byte in lower case hexadecimal. -/
def hexByte (byte : Byte) : CString := [Nat.digitChar (byte.toNat / 16), Nat.digitChar (byte.toNat % 16)]

theorem hexPair_eq : ∀ byte : Byte, hexPair byte = some (hexByte byte) := by decide +kernel

theorem hexByte_injective : ∀ byte byte' : Byte, hexByte byte = hexByte byte' → byte = byte' := by
  have hdigit : ∀ i < 16, ∀ j < 16, Nat.digitChar i = Nat.digitChar j → i = j := by decide
  intro byte byte' h
  have hlt := byte.isLt
  have hlt' := byte'.isLt
  simp only [hexByte, List.cons.injEq, and_true] at h
  have hhigh := hdigit _ (by omega) _ (by omega) h.1
  have hlow := hdigit _ (by omega) _ (by omega) h.2
  exact BitVec.eq_of_toNat_eq (by omega)

theorem flatMap_hexByte_injective {bytes bytes' : List Byte} (h : bytes.flatMap hexByte = bytes'.flatMap hexByte) :
    bytes = bytes' := by
  induction bytes generalizing bytes' with
  | nil => cases bytes' with
    | nil => rfl
    | cons byte' bytes' => simp [hexByte] at h
  | cons byte bytes ih => cases bytes' with
    | nil => simp [hexByte] at h
    | cons byte' bytes' =>
      rw [List.flatMap_cons, List.flatMap_cons] at h
      obtain ⟨hbyte, hbytes⟩ := List.append_inj h rfl
      rw [hexByte_injective _ _ hbyte, ih hbytes]

theorem mapM_hexPair (bytes : List Byte) : bytes.mapM hexPair = some (bytes.map hexByte) := by
  induction bytes with
  | nil => rfl
  | cons byte bytes ih => rw [List.mapM_cons, hexPair_eq, ih]; rfl

theorem makeShaHash_eq (stack : Sha1Context) (passwd : List Byte) : makeShaHash stack passwd =
    some ((hashWith (8 * (passwd.length % 2 ^ 38)) passwd).flatMap hexByte) := by
  obtain ⟨hd, hfinal, hread⟩ := (saw_init stack).write passwd |>.final
  rw [List.nil_append] at hread
  rw [makeShaHash, hfinal]
  simp only [Option.bind_eq_bind, Option.bind_some, mapM_hexPair, hread, List.flatMap_def]

theorem length_flatMap_hexByte (bytes : List Byte) : (bytes.flatMap hexByte).length = 2 * bytes.length := by
  induction bytes with
  | nil => rfl
  | cons byte bytes ih =>
    rw [List.flatMap_cons, List.length_append, ih, List.length_cons, Nat.mul_succ, Nat.add_comm]
    rfl

/-- The text of a hash is SHA-1 of the password in forty lower case hexadecimal digits, whatever the stack held, and two
texts are equal only when the hashes are. -/
theorem makeShaHash_hex (stack stack' : Sha1Context) (passwd passwd' : List Byte) (h : passwd.length < 2 ^ 38)
    (h' : passwd'.length < 2 ^ 38) :
    ∃ text, makeShaHash stack passwd = some text ∧ text = (sha1 passwd).flatMap hexByte ∧ text.length = 40 ∧
      (makeShaHash stack' passwd' = some text ↔ sha1 passwd' = sha1 passwd) := by
  have htext (stack : Sha1Context) {passwd : List Byte} (h : passwd.length < 2 ^ 38) :
      makeShaHash stack passwd = some ((sha1 passwd).flatMap hexByte) := by
    rw [makeShaHash_eq, Nat.mod_eq_of_lt h, sha1]
  refine ⟨_, htext stack h, rfl, ?_, ?_⟩
  · rw [length_flatMap_hexByte, sha1, hashWith, length_bytesOf]
  · rw [htext stack' h', Option.some_inj]
    exact ⟨flatMap_hexByte_injective, fun heq ↦ by rw [heq]⟩

/-- Two short passwords and a stack that holds zeros. -/
theorem makeShaHash_hex_abc :
    ∃ text, makeShaHash ⟨0, 0, 0, 0, 0, 0, Vector.replicate 64 0, 0⟩ [0x61, 0x62, 0x63] = some text ∧
      text = (sha1 [0x61, 0x62, 0x63]).flatMap hexByte ∧ text.length = 40 ∧
      (makeShaHash ⟨0, 0, 0, 0, 0, 0, Vector.replicate 64 0, 0⟩ [0x61, 0x62] = some text ↔
        sha1 [0x61, 0x62] = sha1 [0x61, 0x62, 0x63]) :=
  makeShaHash_hex _ _ [0x61, 0x62, 0x63] [0x61, 0x62] (by decide) (by decide)

example : makeShaHash ⟨0, 0, 0, 0, 0, 0, Vector.replicate 64 0, 0⟩ [0x61, 0x62, 0x63] =
    some "a9993e364706816aba3e25717850c26c9cd0d89d".toList := by decide +kernel

end BlitzedServices.Sha1
