import BlitzedServices.Lib.TextBuffer
import BlitzedServices.Misc.TimeTexts

/-!
# Writes of the formatter

`writefunc` copies what a write brings behind what is there, and cuts it to the size of the buffer. It never
lowers the size, so that every write may bring as much as the first. `Emits` says what a sequence of such writes
does to a buffer: all of it is stored if it fits, and otherwise only a first write that is cut stays inside.
-/

set_option autoImplicit false
set_option relaxedAutoImplicit false

namespace BlitzedServices.Vsnprintf

open Lib
open Misc (toInt32 intMax)

/-- The buffer, where the next character goes, the characters that were written, and what `%n` stored. -/
structure Out where
  mem : List Char
  pos : ℕ
  total : ℤ
  counts : List ℤ

/-- `writefunc`: the number of characters that are stored. A store behind the end of the buffer is a fault. -/
def writefunc (size : ℕ) (buf : CString) (out : Out) : Option (ℤ × Out) :=
  if size = 0 then some (0, out)
  else
    let len := min buf.length (size - 1)
    if len = 0 then some (0, out)
    else if out.pos + len < out.mem.length then
      some (toInt32 len,
        { out with
          mem := out.mem.take out.pos ++ buf.take len ++ nul :: out.mem.drop (out.pos + len + 1)
          pos := out.pos + len })
    else none

/-- A write that is added to the total. -/
def put (size : ℕ) (buf : CString) (out : Out) : Option (ℤ × Out) :=
  (writefunc size buf out).map fun r ↦ (r.1, { r.2 with total := toInt32 (r.2.total + r.1) })

/-- A write, and what follows unless it is short. -/
def putThen (size : ℕ) (buf : CString) (next : Out → Option Out) (out : Out) : Option Out :=
  (put size buf out).bind fun r ↦ if r.1 ≠ buf.length then some r.2 else next r.2

/-- The loop that fills a field: a short write ends it. -/
def padding (size : ℕ) (c : Char) : ℕ → Out → Option Out
  | 0, out => some out
  | n + 1, out => putThen size [c] (padding size c n) out

/-- The text is stored in a buffer that was `mem` before. -/
structure Holds (mem : List Char) (text : CString) (out : Out) : Prop where
  length : out.mem.length = mem.length
  pos : out.pos = text.length
  total : out.total = toInt32 text.length
  front : text <+: out.mem
  empty : text = [] → out.mem = mem
  last : text ≠ [] → out.mem[text.length]? = some nul

/-- The writes of a text: none if it is empty. -/
def chunk (s : CString) : List CString :=
  if s = [] then [] else [s]

/-- What writes do to a buffer. Nothing is stored in one byte; what fits is stored; a write over the end is a
fault, but the first of all is cut, and is the last then. -/
structure Emits (mem : List Char) (ws : List CString) (f : Out → Option Out) : Prop where
  blocked : mem.length = 1 → ∀ out, Holds mem [] out → ∃ out', f out = some out' ∧ Holds mem [] out'
  fits : ∀ text out, Holds mem text out → (text ++ ws.flatten).length < mem.length →
    ∃ out', f out = some out' ∧ Holds mem (text ++ ws.flatten) out'
  faults : ∀ text out, Holds mem text out → text ≠ [] → mem.length ≤ (text ++ ws.flatten).length → f out = none
  cut : ∀ out w ws', 1 < mem.length → Holds mem [] out → ws = w :: ws' → mem.length ≤ w.length →
    ∃ out', f out = some out' ∧ Holds mem (w.take (mem.length - 1)) out'
  cutLater : ∀ out w ws', Holds mem [] out → ws = w :: ws' → w.length < mem.length → w ≠ [] →
    mem.length ≤ ws.flatten.length → f out = none

section Put

variable {mem : List Char} {text s : CString} {out : Out}

theorem toInt32_add (a b : ℤ) : toInt32 (toInt32 a + toInt32 b) = toInt32 (a + b) := by
  simp only [toInt32, BitVec.toInt_ofInt, Int.add_bmod_bmod, Int.bmod_add_bmod]

theorem toInt32_length (h : (s.length : ℤ) ≤ intMax) : toInt32 s.length = s.length :=
  Misc.toInt32_eq_self (Int.natCast_nonneg _) h

theorem Holds.length_lt (h : Holds mem text out) (htext : text ≠ []) : text.length < mem.length := by
  have hlast := h.last htext
  rw [← h.length]
  exact (List.getElem?_eq_some_iff.mp hlast).1

theorem Holds.start (mem : List Char) (counts : List ℤ) : Holds mem [] ⟨mem, 0, 0, counts⟩ :=
  ⟨rfl, rfl, rfl, List.nil_prefix, fun _ ↦ rfl, fun h ↦ absurd rfl h⟩

/-- A write that stores nothing. -/
theorem put_zero (h : Holds mem text out) (hlen : min s.length (mem.length - 1) = 0) :
    ∃ out', put mem.length s out = some (0, out') ∧ Holds mem text out' := by
  have hwrite : writefunc mem.length s out = some (0, out) := by
    rw [writefunc]
    dsimp only
    rw [if_pos hlen, ite_self]
  refine ⟨{ out with total := toInt32 (out.total + 0) }, by rw [put, hwrite]; rfl, ?_⟩
  refine { h with total := ?_ }
  show toInt32 (out.total + 0) = _
  rw [h.total, show (0 : ℤ) = toInt32 0 from rfl, toInt32_add, add_zero]

/-- What `writefunc` stores if there is room for it. -/
theorem put_stores (h : Holds mem text out) {stored : CString} (hstored : s.take (mem.length - 1) = stored)
    (hne : stored ≠ []) (hroom : (text ++ stored).length < mem.length) :
    ∃ out', put mem.length s out = some (toInt32 stored.length, out') ∧ Holds mem (text ++ stored) out' := by
  have hlen : min s.length (mem.length - 1) = stored.length := by
    rw [← hstored, List.length_take, min_comm]
  have hpos : stored.length ≠ 0 := mt List.length_eq_zero_iff.mp hne
  rw [List.length_append] at hroom
  have htake : s.take stored.length = stored := by
    rw [← hlen, ← hstored, List.take_eq_take_iff]
    omega
  have hfront : out.mem.take out.pos = text := by
    rw [h.pos]
    exact (List.prefix_iff_eq_take.mp h.front).symm
  have hwrite : writefunc mem.length s out = some (toInt32 stored.length,
      { out with
        mem := text ++ stored ++ nul :: out.mem.drop (out.pos + stored.length + 1)
        pos := out.pos + stored.length }) := by
    rw [writefunc]
    dsimp only
    rw [if_neg (by omega), hlen, if_neg hpos, if_pos (by rw [h.pos, h.length]; omega), htake, hfront]
  refine ⟨_, by rw [put, hwrite]; rfl, ?_⟩
  have happend : text ++ stored ≠ [] := List.append_ne_nil_of_right_ne_nil _ hne
  refine ⟨?_, ?_, ?_, ?_, fun hnil ↦ absurd hnil happend, fun _ ↦ ?_⟩
  · dsimp only
    rw [List.length_append, List.length_append, List.length_cons, List.length_drop, h.length, h.pos]
    omega
  · dsimp only
    rw [h.pos, List.length_append]
  · dsimp only
    rw [h.total, toInt32_add, List.length_append]
    push_cast
    rfl
  · exact List.prefix_append _ _
  · dsimp only
    rw [List.getElem?_append_right le_rfl, Nat.sub_self]
    rfl

theorem put_fits (h : Holds mem text out) (hroom : (text ++ s).length < mem.length) :
    ∃ out', put mem.length s out = some (toInt32 s.length, out') ∧ Holds mem (text ++ s) out' := by
  by_cases hs : s = []
  · obtain ⟨out', hput, hholds⟩ := put_zero (s := s) h (by rw [hs]; exact Nat.zero_min _)
    refine ⟨out', by rw [hput, hs]; rfl, ?_⟩
    rwa [hs, List.append_nil]
  · rw [List.length_append] at hroom
    exact put_stores h (List.take_of_length_le (by omega)) hs (by rw [List.length_append]; omega)

theorem put_over (h : Holds mem text out) (htext : text ≠ []) (hs : s ≠ [])
    (hroom : mem.length ≤ (text ++ s).length) : put mem.length s out = none := by
  have hlt := h.length_lt htext
  have hpos := List.length_pos_iff.mpr htext
  have hspos := List.length_pos_iff.mpr hs
  rw [List.length_append] at hroom
  rw [put, writefunc]
  dsimp only
  rw [if_neg (by omega), if_neg (by omega), if_neg (by rw [h.pos, h.length]; omega)]
  rfl

/-- A first write that is too long is cut. -/
theorem put_cut (h : Holds mem [] out) (hmem : 1 < mem.length) (hs : mem.length ≤ s.length) :
    ∃ out', put mem.length s out = some (toInt32 ((mem.length - 1 : ℕ) : ℤ), out') ∧
      Holds mem (s.take (mem.length - 1)) out' := by
  have hlength : (s.take (mem.length - 1)).length = mem.length - 1 := by
    rw [List.length_take]
    omega
  have hne : s.take (mem.length - 1) ≠ [] := by
    rw [← List.length_pos_iff]
    omega
  obtain ⟨out', hput, hholds⟩ := put_stores h rfl hne (by rw [List.nil_append]; omega)
  rw [hlength] at hput
  exact ⟨out', hput, hholds⟩

end Put

/-! ### Sequences of writes -/

section Writes

variable {mem : List Char} {ws : List CString} {f : Out → Option Out} {w : CString}

theorem flatten_chunk (s : CString) : (chunk s).flatten = s := by
  by_cases hs : s = []
  · rw [chunk, if_pos hs, hs]
    rfl
  · rw [chunk, if_neg hs, List.flatten_singleton]

theorem chunk_of_ne (hw : w ≠ []) : chunk w = [w] :=
  if_neg hw

theorem emits_nil (hf : ∀ text out, Holds mem text out → ∃ out', f out = some out' ∧ Holds mem text out') :
    Emits mem [] f where
  blocked _ out h := hf [] out h
  fits text out h _ := by
    rw [List.flatten_nil, List.append_nil]
    exact hf text out h
  faults text out h htext hlen := by
    rw [List.flatten_nil, List.append_nil] at hlen
    exact absurd (h.length_lt htext) (not_lt.mpr hlen)
  cut out w ws' _ _ hws := by cases hws
  cutLater out w ws' _ hws := by cases hws

theorem put_blocked {out : Out} (hmem : mem.length = 1) (h : Holds mem [] out) (s : CString) :
    ∃ out', put mem.length s out = some (0, out') ∧ Holds mem [] out' :=
  put_zero h (by omega)

/-- The whole of a write. -/
theorem emits_put (w : CString) : Emits mem (chunk w) fun out ↦ (put mem.length w out).map Prod.snd where
  blocked hmem out h := by
    obtain ⟨out', hput, hholds⟩ := put_blocked hmem h w
    exact ⟨out', by rw [hput]; rfl, hholds⟩
  fits text out h hroom := by
    rw [flatten_chunk] at hroom ⊢
    obtain ⟨out', hput, hholds⟩ := put_fits h hroom
    exact ⟨out', by rw [hput]; rfl, hholds⟩
  faults text out h htext hroom := by
    rw [flatten_chunk] at hroom
    have hw : w ≠ [] := by
      rintro rfl
      rw [List.append_nil] at hroom
      exact absurd (h.length_lt htext) (not_lt.mpr hroom)
    rw [put_over h htext hw hroom]
    rfl
  cut out w' ws' hmem h hws hlong := by
    have hw : w ≠ [] := by
      rintro rfl
      cases hws
    rw [chunk_of_ne hw] at hws
    obtain ⟨rfl, -⟩ := List.cons.inj hws
    obtain ⟨out', hput, hholds⟩ := put_cut h hmem hlong
    exact ⟨out', by rw [hput]; rfl, hholds⟩
  cutLater out w' ws' h hws hshort hne hlong := by
    have hw : w ≠ [] := by
      rintro rfl
      cases hws
    rw [flatten_chunk] at hlong
    rw [chunk_of_ne hw] at hws
    obtain ⟨rfl, -⟩ := List.cons.inj hws
    omega

/-- A write in front of others that a short write leaves out. -/
theorem Emits.putThen (hf : Emits mem ws f) (hw : w ≠ []) (hint : (w.length : ℤ) ≤ intMax) :
    Emits mem (w :: ws) (putThen mem.length w f) where
  blocked hmem out h := by
    obtain ⟨out', hput, hholds⟩ := put_blocked hmem h w
    have hpos := List.length_pos_iff.mpr hw
    refine ⟨out', ?_, hholds⟩
    rw [Vsnprintf.putThen, hput, Option.bind_some, if_pos (by dsimp only; omega)]
  fits text out h hroom := by
    rw [List.flatten_cons, ← List.append_assoc] at hroom ⊢
    have hfirst : (text ++ w).length < mem.length := by
      rw [List.length_append] at hroom
      omega
    obtain ⟨out', hput, hholds⟩ := put_fits h hfirst
    rw [Vsnprintf.putThen, hput, Option.bind_some, toInt32_length hint, if_neg (not_ne_iff.mpr rfl)]
    exact hf.fits _ _ hholds hroom
  faults text out h htext hroom := by
    rw [List.flatten_cons, ← List.append_assoc] at hroom
    by_cases hfirst : (text ++ w).length < mem.length
    · obtain ⟨out', hput, hholds⟩ := put_fits h hfirst
      rw [Vsnprintf.putThen, hput, Option.bind_some, toInt32_length hint, if_neg (not_ne_iff.mpr rfl)]
      exact hf.faults _ _ hholds (List.append_ne_nil_of_left_ne_nil htext _) hroom
    · rw [Vsnprintf.putThen, put_over h htext hw (not_lt.mp hfirst)]
      rfl
  cut out w' ws' hmem h hws hlong := by
    obtain ⟨rfl, rfl⟩ := List.cons.inj hws
    obtain ⟨out', hput, hholds⟩ := put_cut h hmem hlong
    refine ⟨out', ?_, hholds⟩
    rw [Vsnprintf.putThen, hput, Option.bind_some, Misc.toInt32_eq_self (by omega) (by omega),
      if_pos (by dsimp only; omega)]
  cutLater out w' ws' h hws hshort hne hlong := by
    obtain ⟨rfl, rfl⟩ := List.cons.inj hws
    rw [List.flatten_cons] at hlong
    obtain ⟨out', hput, hholds⟩ := put_fits (s := w) h (by rwa [List.nil_append])
    rw [Vsnprintf.putThen, hput, Option.bind_some, toInt32_length hint, if_neg (not_ne_iff.mpr rfl)]
    rw [List.nil_append] at hholds
    exact hf.faults _ _ hholds hw hlong

/-- An empty write brings nothing. -/
theorem Emits.putThen_nil (hf : Emits mem ws f) : Emits mem ws (Vsnprintf.putThen mem.length [] f) := by
  have hskip {text : CString} {out : Out} (h : Holds mem text out) :
      ∃ out', Vsnprintf.putThen mem.length [] f out = f out' ∧ Holds mem text out' := by
    obtain ⟨out', hput, hholds⟩ := put_zero (s := []) h (Nat.zero_min _)
    refine ⟨out', ?_, hholds⟩
    rw [Vsnprintf.putThen, hput]
    rfl
  constructor
  · intro hmem out h
    obtain ⟨out', hf', hholds⟩ := hskip h
    rw [hf']
    exact hf.blocked hmem out' hholds
  · intro text out h hroom
    obtain ⟨out', hf', hholds⟩ := hskip h
    rw [hf']
    exact hf.fits text out' hholds hroom
  · intro text out h htext hroom
    obtain ⟨out', hf', hholds⟩ := hskip h
    rw [hf']
    exact hf.faults text out' hholds htext hroom
  · intro out w ws' hmem h hws hlong
    obtain ⟨out', hf', hholds⟩ := hskip h
    rw [hf']
    exact hf.cut out' w ws' hmem hholds hws hlong
  · intro out w ws' h hws hshort hne hlong
    obtain ⟨out', hf', hholds⟩ := hskip h
    rw [hf']
    exact hf.cutLater out' w ws' hholds hws hshort hne hlong

theorem Emits.chunkThen (hf : Emits mem ws f) (hint : (w.length : ℤ) ≤ intMax) :
    Emits mem (chunk w ++ ws) (Vsnprintf.putThen mem.length w f) := by
  by_cases hw : w = []
  · rw [hw]
    exact hf.putThen_nil
  · rw [chunk_of_ne hw]
    exact hf.putThen hw hint

/-- A loop that fills a field, and what follows in any case. -/
theorem Emits.padding_bind (hf : Emits mem ws f) (c : Char) (n : ℕ) :
    Emits mem (List.replicate n [c] ++ ws) fun out ↦ (padding mem.length c n out).bind f := by
  induction n with
  | zero => exact hf
  | succ n ih =>
    have hstep {text : CString} {out : Out} (h : Holds mem text out) (hroom : (text ++ [c]).length < mem.length) :
        ∃ out', (padding mem.length c (n + 1) out).bind f = (padding mem.length c n out').bind f ∧
          Holds mem (text ++ [c]) out' := by
      obtain ⟨out', hput, hholds⟩ := put_fits h hroom
      refine ⟨out', ?_, hholds⟩
      have hone : toInt32 ([c] : CString).length = ([c] : CString).length := rfl
      rw [padding, Vsnprintf.putThen, hput, Option.bind_some, hone, if_neg (not_ne_iff.mpr rfl)]
    rw [List.replicate_succ, List.cons_append]
    constructor
    · intro hmem out h
      obtain ⟨out', hput, hholds⟩ := put_blocked hmem h [c]
      rw [padding, Vsnprintf.putThen, hput, Option.bind_some, if_pos (by simp), Option.bind_some]
      exact hf.blocked hmem out' hholds
    · intro text out h hroom
      rw [List.flatten_cons, ← List.append_assoc] at hroom ⊢
      obtain ⟨out', hnext, hholds⟩ := hstep h (by rw [List.length_append] at hroom; omega)
      rw [hnext]
      exact ih.fits _ _ hholds hroom
    · intro text out h htext hroom
      rw [List.flatten_cons, ← List.append_assoc] at hroom
      by_cases hfirst : (text ++ [c]).length < mem.length
      · obtain ⟨out', hnext, hholds⟩ := hstep h hfirst
        rw [hnext]
        exact ih.faults _ _ hholds (List.append_ne_nil_of_left_ne_nil htext _) hroom
      · rw [padding, Vsnprintf.putThen, put_over h htext (List.cons_ne_nil _ _) (not_lt.mp hfirst)]
        rfl
    · intro out w ws' hmem h hws hlong
      obtain ⟨rfl, -⟩ := List.cons.inj hws
      exact absurd hmem (not_lt.mpr hlong)
    · intro out w ws' h hws hshort hne hlong
      obtain ⟨rfl, -⟩ := List.cons.inj hws
      obtain ⟨out', hnext, hholds⟩ := hstep h (by rwa [List.nil_append])
      rw [hnext]
      rw [List.nil_append] at hholds
      exact ih.faults _ _ hholds hne hlong

theorem emits_padding (c : Char) (n : ℕ) : Emits mem (List.replicate n [c]) (padding mem.length c n) := by
  have hnone : Emits mem [] some := emits_nil fun text out h ↦ ⟨out, rfl, h⟩
  have hall := hnone.padding_bind c n
  rw [List.append_nil] at hall
  simpa only [Option.bind_fun_some] using hall

end Writes

end BlitzedServices.Vsnprintf
