import BlitzedServices.Lib.CBuffer

/-!
# Writing text to a buffer

A byte is written to a position of a buffer; a write past its end is a fault. `filled` is a buffer with a
text at its front and NULs behind it. Characters that are written one after the other, and `strscpy` at
the end of the text, keep a buffer in this form, so that it is known by its text alone.
-/

set_option autoImplicit false
set_option relaxedAutoImplicit false

namespace BlitzedServices.Lib

/-- A byte is written. -/
def poke (mem : List Char) (p : ℕ) (c : Char) : Option (List Char) :=
  if p < mem.length then some (mem.set p c) else none

/-- The loop of `strscpy` when `len` is left after it was counted down. The NUL of the source is copied like
the other characters, and there is one more behind it. -/
def strscpyLoop : ℕ → CString → ℕ → List Char → Option (List Char)
  | 0, _, d, mem => poke mem d nul
  | _ + 1, [], d, mem => (poke mem d nul).bind fun mem ↦ poke mem (d + 1) nul
  | len + 1, c :: s, d, mem => (poke mem d c).bind (strscpyLoop len s (d + 1))

/-- `strscpy` to a position of a buffer. -/
def strscpyAt (mem : List Char) (d : ℕ) (s : CString) (len : ℕ) : Option (List Char) :=
  if len = 0 then some mem else strscpyLoop (len - 1) s d mem

/-- A buffer of a size with a text at its front. -/
def filled (size : ℕ) (text : CString) : List Char :=
  text ++ List.replicate (size - text.length) nul

theorem length_poke {mem mem' : List Char} {p : ℕ} {c : Char} (h : poke mem p c = some mem') :
    mem'.length = mem.length := by
  rw [poke] at h
  split_ifs at h
  rw [← Option.some.inj h, List.length_set]

section Filled

variable {size : ℕ} {text : CString}

@[simp] theorem filled_nil (size : ℕ) : filled size [] = List.replicate size nul := by
  simp [filled]

theorem length_filled (h : text.length ≤ size) : (filled size text).length = size := by
  rw [filled, List.length_append, List.length_replicate]
  omega

/-- The byte behind the text ends it. -/
theorem getElem?_filled (h : text.length < size) : (filled size text)[text.length]? = some nul := by
  rw [filled, List.getElem?_append_right le_rfl, Nat.sub_self, List.getElem?_replicate, if_pos (by omega)]

theorem strAt_filled (htext : nul ∉ text) (h : text.length < size) : strAt (filled size text) 0 = text := by
  obtain ⟨n, hn⟩ : ∃ n, size - text.length = n + 1 := ⟨size - text.length - 1, by omega⟩
  rw [strAt, List.drop_zero, filled, hn, List.replicate_succ, takeWhile_append_nul htext]

/-- The text from a position on. -/
theorem strAt_filled_append {s : CString} (hs : nul ∉ s) (h : (text ++ s).length < size) :
    strAt (filled size (text ++ s)) text.length = s := by
  obtain ⟨n, hn⟩ : ∃ n, size - (text ++ s).length = n + 1 := ⟨size - (text ++ s).length - 1, by omega⟩
  rw [filled, hn, List.append_assoc, List.replicate_succ, strAt_length_append hs]

/-- A character behind the text makes it longer. -/
theorem poke_filled (h : text.length < size) (c : Char) :
    poke (filled size text) text.length c = some (filled size (text ++ [c])) := by
  obtain ⟨n, hn⟩ : ∃ n, size - text.length = n + 1 := ⟨size - text.length - 1, by omega⟩
  have hn' : size - (text ++ [c]).length = n := by
    rw [List.length_append, List.length_singleton]
    omega
  rw [poke, if_pos (by rwa [length_filled h.le]), filled, filled, hn, hn', List.set_append_right _ _ le_rfl,
    Nat.sub_self, List.replicate_succ, List.set_cons_zero, List.append_assoc, List.singleton_append]

/-- A NUL behind the text changes nothing. -/
theorem poke_filled_nul {p : ℕ} (hp : text.length ≤ p) (h : p < size) :
    poke (filled size text) p nul = some (filled size text) := by
  rw [poke, if_pos (by rwa [length_filled (hp.trans h.le)]), filled, List.set_append_right _ _ hp,
    List.set_replicate_self]

theorem strscpyLoop_filled {len : ℕ} (s : CString) (h : text.length + len + 1 = size) :
    strscpyLoop len s text.length (filled size text) = some (filled size (text ++ s.take len)) := by
  induction len generalizing text s with
  | zero => rw [strscpyLoop, List.take_zero, List.append_nil, poke_filled_nul le_rfl (by omega)]
  | succ len ih =>
    cases s with
    | nil =>
      rw [strscpyLoop, poke_filled_nul le_rfl (by omega), Option.bind_some,
        poke_filled_nul (Nat.le_succ _) (by omega), List.take_nil, List.append_nil]
    | cons c s =>
      have hlength : text.length + 1 = (text ++ [c]).length := by simp
      rw [strscpyLoop, poke_filled (by omega), Option.bind_some, hlength, ih s (by omega), List.take_succ_cons,
        List.append_assoc, List.singleton_append]

/-- What is copied to the end of the text is cut where the buffer ends. -/
theorem strscpyAt_filled {len : ℕ} (s : CString) (hlen : len ≠ 0) (h : text.length + len = size) :
    strscpyAt (filled size text) text.length s len = some (filled size (text ++ strscpy s len)) := by
  rw [strscpyAt, if_neg hlen, strscpy, strscpyLoop_filled s (by omega)]

end Filled

end BlitzedServices.Lib
