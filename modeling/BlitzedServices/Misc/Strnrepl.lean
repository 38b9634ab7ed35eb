import BlitzedServices.Lib.CBuffer
import BlitzedServices.Lib.Substitution

/-!
# Replacing in a buffer

`strnrepl` replaces in place: the tail of the string is moved by the difference of the two lengths and the new
text is written over the old one. The buffer is the list of its `size` bytes, and an access behind them ends the
run with `Outcome.outside`.

The comment promises that the replacements stop when the string would exceed the buffer. The space left is
computed once, the tail is moved with as many bytes as the text had before the old one was taken off, and the
difference of the lengths is unsigned: `WithinBounds` says when none of this matters.
-/

set_option autoImplicit false
set_option relaxedAutoImplicit false

namespace BlitzedServices.Misc

open Lib Lib.Substitution

/-! ### The function -/

/-- How a run ends: with the buffer, at an access outside of it, or not within the turns allowed. -/
inductive Outcome
  | returned (mem : List Char)
  | outside
  | running
  deriving DecidableEq

/-- `memmove` in a buffer, if it stays inside. -/
def memmove (mem : List Char) (dst src n : ℕ) : Option (List Char) :=
  if src + n ≤ mem.length ∧ dst + n ≤ mem.length then
    some (mem.take dst ++ (mem.drop src).take n ++ mem.drop (dst + n))
  else none

/-- `strncpy` of a whole string into a buffer, if it stays inside. -/
def strncpy (mem : List Char) (dst : ℕ) (s : CString) : Option (List Char) :=
  if dst + s.length ≤ mem.length then some (mem.take dst ++ s ++ mem.drop (dst + s.length)) else none

/-- The tail is moved if its place changes, and `new` is written. -/
def putNew (mem : List Char) (ptr left diff : ℕ) (old new : CString) : Option (List Char) :=
  (if diff ≠ 0 then memmove mem (ptr + old.length + diff) (ptr + old.length) (left + 1) else some mem).bind
    fun mem ↦ strncpy mem ptr new

/-- The turns of the loop of `strnrepl`. -/
def strnreplLoop (old new : CString) (avail diff : ℕ) : ℕ → List Char → ℕ → ℕ → Outcome
  | 0, _, _, _ => .running
  | fuel + 1, mem, ptr, left =>
    if left < old.length then .returned mem
    else if (mem.drop ptr).take old.length ≠ old then strnreplLoop old new avail diff fuel mem (ptr + 1) (left - 1)
    else if avail < diff then .returned mem
    else
      match putNew mem ptr left diff old new with
      | none => .outside
      | some mem => strnreplLoop old new avail diff fuel mem (ptr + new.length) (left - old.length)

/-- The difference of two lengths as a `size_t`. -/
def sizeDiff (newlen oldlen : ℕ) : ℕ :=
  (((newlen : ℤ) - oldlen) % 2 ^ 64).toNat

/-- `strnrepl` on a buffer of `size` bytes. Each turn leaves less of the string. -/
def strnrepl (mem : List Char) (old new : CString) : Outcome :=
  let left := (strAt mem 0).length
  strnreplLoop old new (mem.length - (left + 1)) (sizeDiff new.length old.length) (left + 1) mem 0 left

/-! ### One replacement -/

variable {old new front rest : CString} {junk : List Char}

theorem length_memmove {mem mem' : List Char} {dst src n : ℕ} (h : memmove mem dst src n = some mem') :
    mem'.length = mem.length := by
  rw [memmove] at h
  split_ifs at h with hbounds
  cases h
  simp only [List.length_append, List.length_take, List.length_drop]
  omega

theorem length_strncpy {mem mem' : List Char} {dst : ℕ} {s : CString} (h : strncpy mem dst s = some mem') :
    mem'.length = mem.length := by
  rw [strncpy] at h
  split_ifs at h with hbounds
  cases h
  simp only [List.length_append, List.length_take, List.length_drop]
  omega

/-- A front of the buffer before the target stays, and the moved bytes stand at the target. -/
theorem memmove_eq (mem : List Char) (dst src n : ℕ) (hsrc : src + n ≤ mem.length) (hdst : dst + n ≤ mem.length) :
    ∃ mem', memmove mem dst src n = some mem' ∧ (∀ k ≤ dst, mem'.take k = mem.take k) ∧
      mem'.drop dst = (mem.drop src).take n ++ mem.drop (dst + n) := by
  refine ⟨_, if_pos ⟨hsrc, hdst⟩, fun k hk ↦ ?_, ?_⟩
  · rw [List.append_assoc, List.take_append_of_le_length (by rw [List.length_take]; omega), List.take_take,
      Nat.min_eq_left hk]
  · rw [List.append_assoc, List.drop_left' (by rw [List.length_take]; omega)]

/-- A longer text is put in place of the old one if all the bytes that are moved stay inside; the bytes behind the
string are others then. -/
theorem putNew_of_lt (hlt : old.length < new.length)
    (hsize : front.length + new.length + (old ++ rest).length + 1 ≤ (front ++ (old ++ rest ++ nul :: junk)).length) :
    ∃ junk', putNew (front ++ (old ++ rest ++ nul :: junk)) front.length (old ++ rest).length
        (new.length - old.length) old new = some (front ++ new ++ (rest ++ nul :: junk')) := by
  generalize hmem : front ++ (old ++ rest ++ nul :: junk) = mem at hsize
  have hdrop : mem.drop (front.length + old.length) = rest ++ nul :: junk := by
    rw [← hmem, ← List.drop_drop, List.drop_left, List.append_assoc, List.drop_left]
  have hfront : mem.take front.length = front := by
    rw [← hmem, List.take_left]
  have hdst : front.length + old.length + (new.length - old.length) = front.length + new.length := by omega
  rcases memmove_eq mem (front.length + new.length) (front.length + old.length) ((old ++ rest).length + 1)
    (by omega) (by omega) with ⟨mem', hmove, htake, hmoved⟩
  have hlen := length_memmove hmove
  have htail : (rest ++ nul :: junk).take ((old ++ rest).length + 1) = rest ++ nul :: junk.take old.length := by
    rw [List.take_append, List.take_of_length_le (by rw [List.length_append]; omega), List.length_append,
      show old.length + rest.length + 1 - rest.length = old.length + 1 by omega, List.take_succ_cons]
  refine ⟨junk.take old.length ++ mem.drop (front.length + new.length + ((old ++ rest).length + 1)), ?_⟩
  rw [putNew, if_pos (by omega), hdst, hmove, Option.bind_some, strncpy, if_pos (by omega), hmoved,
    htake _ (by omega), hfront, hdrop, htail]
  simp

/-- Bytes behind the buffer would be touched. -/
theorem putNew_eq_none (hlt : old.length < new.length) {mem : List Char} {ptr left : ℕ}
    (hsize : mem.length < ptr + new.length + left + 1) :
    putNew mem ptr left (new.length - old.length) old new = none := by
  rw [putNew, if_pos (by omega), memmove, if_neg (by omega), Option.bind_none]

/-- A text of the same length is written over the old one. -/
theorem putNew_of_length_eq (heq : new.length = old.length) :
    putNew (front ++ (old ++ rest ++ nul :: junk)) front.length (old ++ rest).length 0 old new =
      some (front ++ new ++ (rest ++ nul :: junk)) := by
  rw [putNew, if_neg (by decide), Option.bind_some, strncpy, if_pos]
  · have hdrop : (front ++ (old ++ rest ++ nul :: junk)).drop (front.length + new.length) = rest ++ nul :: junk := by
      rw [heq, ← List.drop_drop, List.drop_left, List.append_assoc, List.drop_left]
    rw [hdrop, List.take_left]
  · simp only [List.length_append, List.length_cons]
    omega

/-! ### The loop -/

variable {avail diff fuel : ℕ}

theorem take_eq_iff_starts (front : CString) (junk : List Char) (hle : old.length ≤ rest.length) :
    ((front ++ (rest ++ nul :: junk)).drop front.length).take old.length = old ↔ old <+: rest := by
  rw [List.drop_left, List.take_append_of_le_length hle, List.prefix_iff_eq_take, eq_comm]

theorem occurrences_of_length_lt (h : rest.length < old.length) : occurrences old rest = 0 := by
  induction rest with
  | nil => exact occurrences_nil
  | cons c rest ih =>
    rw [List.length_cons] at h
    have hnot : ¬old <+: c :: rest := fun hprefix ↦ by
      have hle := hprefix.length_le
      rw [List.length_cons] at hle
      omega
    rw [occurrences_cons_of_elsewhere hnot, ih (by omega)]

/-- The loop is over when less is left than the old text. -/
theorem strnreplLoop_of_lt {mem : List Char} {ptr left : ℕ} (h : left < old.length) :
    strnreplLoop old new avail diff (fuel + 1) mem ptr left = .returned mem := by
  rw [strnreplLoop, if_pos h]

/-- A turn without an occurrence goes on to the next character. -/
theorem strnreplLoop_skip {c : Char} (hle : old.length ≤ (c :: rest).length) (hnot : ¬old <+: c :: rest) :
    strnreplLoop old new avail diff (fuel + 1) (front ++ (c :: rest ++ nul :: junk)) front.length
        (c :: rest).length =
      strnreplLoop old new avail diff fuel (front ++ [c] ++ (rest ++ nul :: junk)) (front ++ [c]).length
        rest.length := by
  have htake := (take_eq_iff_starts front junk hle).not.mpr hnot
  rw [strnreplLoop, if_neg (by omega), if_pos htake]
  simp

/-- A turn at an occurrence that is replaced. -/
theorem strnreplLoop_replace (havail : diff ≤ avail) :
    strnreplLoop old new avail diff (fuel + 1) (front ++ (old ++ rest ++ nul :: junk)) front.length
        (old ++ rest).length =
      match putNew (front ++ (old ++ rest ++ nul :: junk)) front.length (old ++ rest).length diff old new with
      | none => .outside
      | some mem => strnreplLoop old new avail diff fuel mem (front ++ new).length rest.length := by
  have hle : old.length ≤ (old ++ rest).length := by
    rw [List.length_append]
    omega
  have htake := (take_eq_iff_starts front junk hle).mpr (List.prefix_append _ _)
  have hleft : (old ++ rest).length - old.length = rest.length := by
    rw [List.length_append]
    omega
  rw [strnreplLoop, if_neg (by omega), if_neg (by rw [htake]; exact fun h ↦ h rfl), if_neg (by omega), hleft,
    ← List.length_append]

/-- A turn at an occurrence that is not replaced. -/
theorem strnreplLoop_stop (havail : avail < diff) :
    strnreplLoop old new avail diff (fuel + 1) (front ++ (old ++ rest ++ nul :: junk)) front.length
        (old ++ rest).length = .returned (front ++ (old ++ rest ++ nul :: junk)) := by
  have hle : old.length ≤ (old ++ rest).length := by
    rw [List.length_append]
    omega
  have htake := (take_eq_iff_starts front junk hle).mpr (List.prefix_append _ _)
  rw [strnreplLoop, if_neg (by omega), if_neg (by rw [htake]; exact fun h ↦ h rfl), if_pos havail]

/-- The run ends with the string at the start of a buffer of this size. -/
def Ends (size : ℕ) (s : CString) (o : Outcome) : Prop :=
  ∃ junk, o = .returned (s ++ nul :: junk) ∧ (s ++ nul :: junk).length = size

/-- No byte behind the buffer is touched: nothing is replaced, or nothing is moved, or there is room for the new
text behind the string as it is before the last replacement. -/
def Room (size len n : ℕ) (old new : CString) : Prop :=
  n = 0 ∨ new.length = old.length ∨ len + (n - 1) * (new.length - old.length) + new.length + 1 ≤ size

/-- There is room for one replacement more when there is room for it first and for the others behind it. -/
theorem room_succ_iff {size len n : ℕ} :
    Room size len (n + 1) old new ↔ (new.length = old.length ∨ len + new.length + 1 ≤ size) ∧
      Room size (len + (new.length - old.length)) n old new := by
  rw [Room, Room, Nat.add_sub_cancel]
  cases n with
  | zero => omega
  | succ n =>
    rw [Nat.add_sub_cancel, Nat.add_one_mul]
    omega

theorem length_replaced (hle : old.length ≤ new.length) (front rest : CString) :
    (front ++ new ++ rest).length = (front ++ (old ++ rest)).length + (new.length - old.length) := by
  simp only [List.length_append]
  omega

theorem length_putNew {mem mem' : List Char} {ptr left : ℕ} (h : putNew mem ptr left diff old new = some mem') :
    mem'.length = mem.length := by
  rcases Option.bind_eq_some_iff.mp h with ⟨moved, hmoved, hput⟩
  rw [length_strncpy hput]
  split_ifs at hmoved
  · exact length_memmove hmoved
  · cases hmoved
    rfl

/-- With room for it, an occurrence is replaced. -/
theorem exists_putNew {size : ℕ} (hle : old.length ≤ new.length)
    (hsize : (front ++ (old ++ rest ++ nul :: junk)).length = size)
    (hroom : new.length = old.length ∨ (front ++ (old ++ rest)).length + new.length + 1 ≤ size) :
    ∃ junk', putNew (front ++ (old ++ rest ++ nul :: junk)) front.length (old ++ rest).length
        (new.length - old.length) old new = some (front ++ new ++ (rest ++ nul :: junk')) := by
  rcases hle.eq_or_lt with heq | hlt
  · rw [← heq, Nat.sub_self]
    exact ⟨junk, putNew_of_length_eq heq.symm⟩
  · apply putNew_of_lt hlt
    have hsplit : (front ++ (old ++ rest)).length = front.length + (old ++ rest).length := List.length_append
    omega

/-- Replacing with room ends with the documented string. -/
theorem strnreplLoop_within {size : ℕ} (hold : old ≠ []) (hle : old.length ≤ new.length)
    (havail : new.length - old.length ≤ avail) (front rest : CString) :
    ∀ fuel junk, rest.length < fuel → (front ++ (rest ++ nul :: junk)).length = size →
      Room size (front ++ rest).length (occurrences old rest) old new →
      Ends size (replaceWithin size old new front rest)
        (strnreplLoop old new avail (new.length - old.length) fuel (front ++ (rest ++ nul :: junk)) front.length
          rest.length) := by
  have hpos : ([] : CString).length < old.length := List.length_pos_iff.mpr hold
  induction front, rest using occurrence_induction new hold with
  | nil front =>
    intro fuel junk hfuel hsize hroom
    cases fuel with
    | zero => exact absurd hfuel (Nat.not_lt_zero _)
    | succ fuel =>
      rw [strnreplLoop_of_lt hpos, replaceWithin_nil]
      exact ⟨junk, rfl, hsize⟩
  | occurrence front rest ih =>
    intro fuel junk hfuel hsize hroom
    rw [occurrences_append hold, room_succ_iff, ← length_replaced hle] at hroom
    cases fuel with
    | zero => exact absurd hfuel (Nat.not_lt_zero _)
    | succ fuel =>
      rcases exists_putNew hle hsize hroom.1 with ⟨junk', hput⟩
      have hlen := (length_putNew hput).trans hsize
      have hfits : (front ++ new ++ rest).length < size := by
        simp only [List.length_append, List.length_cons] at hlen ⊢
        omega
      rw [strnreplLoop_replace havail, hput, replaceWithin_append hold, if_pos hfits]
      apply ih
      · rw [List.length_append] at hfuel
        rw [List.length_nil] at hpos
        omega
      · exact hlen
      · exact hroom.2
  | skip front c rest hnot ih =>
    intro fuel junk hfuel hsize hroom
    cases fuel with
    | zero => exact absurd hfuel (Nat.not_lt_zero _)
    | succ fuel =>
      by_cases hshort : (c :: rest).length < old.length
      · rw [strnreplLoop_of_lt hshort,
          replaceWithin_of_occurrences_eq_zero hold (occurrences_of_length_lt hshort)]
        exact ⟨junk, by rw [List.append_assoc], by rw [List.append_assoc]; exact hsize⟩
      · rw [strnreplLoop_skip (not_lt.mp hshort) hnot, replaceWithin_cons_of_elsewhere hnot]
        rw [occurrences_cons_of_elsewhere hnot] at hroom
        rw [List.length_cons] at hfuel
        apply ih
        · omega
        · simpa [Nat.add_assoc, Nat.add_comm, Nat.add_left_comm] using hsize
        · simpa [Nat.add_assoc, Nat.add_comm, Nat.add_left_comm] using hroom

/-- Replacing without room ends outside of the buffer. -/
theorem strnreplLoop_outside {size : ℕ} (hold : old ≠ []) (hlt : old.length < new.length)
    (havail : new.length - old.length ≤ avail) (front rest : CString) :
    ∀ fuel junk, rest.length < fuel → (front ++ (rest ++ nul :: junk)).length = size →
      ¬Room size (front ++ rest).length (occurrences old rest) old new →
      strnreplLoop old new avail (new.length - old.length) fuel (front ++ (rest ++ nul :: junk)) front.length
        rest.length = .outside := by
  induction front, rest using occurrence_induction new hold with
  | nil front =>
    intro fuel junk hfuel hsize hroom
    exact absurd (.inl occurrences_nil) hroom
  | occurrence front rest ih =>
    intro fuel junk hfuel hsize hroom
    cases fuel with
    | zero => exact absurd hfuel (Nat.not_lt_zero _)
    | succ fuel =>
      rw [strnreplLoop_replace havail]
      by_cases hfirst : (front ++ (old ++ rest)).length + new.length + 1 ≤ size
      · rcases exists_putNew hlt.le hsize (.inr hfirst) with ⟨junk', hput⟩
        rw [hput]
        apply ih
        · have hpos := List.length_pos_iff.mpr hold
          rw [List.length_append] at hfuel
          omega
        · exact (length_putNew hput).trans hsize
        · intro hrest
          apply hroom
          rw [occurrences_append hold, room_succ_iff, ← length_replaced hlt.le]
          exact ⟨.inr hfirst, hrest⟩
      · rw [putNew_eq_none hlt]
        simp only [List.length_append, List.length_cons] at hsize hfirst ⊢
        omega
  | skip front c rest hnot ih =>
    intro fuel junk hfuel hsize hroom
    cases fuel with
    | zero => exact absurd hfuel (Nat.not_lt_zero _)
    | succ fuel =>
      by_cases hshort : (c :: rest).length < old.length
      · exact absurd (.inl (occurrences_of_length_lt hshort)) hroom
      · rw [strnreplLoop_skip (not_lt.mp hshort) hnot]
        rw [occurrences_cons_of_elsewhere hnot] at hroom
        rw [List.length_cons] at hfuel
        apply ih
        · omega
        · simpa [Nat.add_assoc, Nat.add_comm, Nat.add_left_comm] using hsize
        · simpa [Nat.add_assoc, Nat.add_comm, Nat.add_left_comm] using hroom

/-- Without an occurrence, or when the difference is above the space, the buffer stays as it is. -/
theorem strnreplLoop_stops (hold : old ≠ []) (front rest : CString) :
    ∀ fuel junk, rest.length < fuel → occurrences old rest = 0 ∨ avail < diff →
      strnreplLoop old new avail diff fuel (front ++ (rest ++ nul :: junk)) front.length rest.length =
        .returned (front ++ (rest ++ nul :: junk)) := by
  induction front, rest using occurrence_induction new hold with
  | nil front =>
    intro fuel junk hfuel hstop
    cases fuel with
    | zero => exact absurd hfuel (Nat.not_lt_zero _)
    | succ fuel => exact strnreplLoop_of_lt (List.length_pos_iff.mpr hold)
  | occurrence front rest ih =>
    intro fuel junk hfuel hstop
    cases fuel with
    | zero => exact absurd hfuel (Nat.not_lt_zero _)
    | succ fuel =>
      rw [occurrences_append hold] at hstop
      exact strnreplLoop_stop (hstop.resolve_left (Nat.succ_ne_zero _))
  | skip front c rest hnot ih =>
    intro fuel junk hfuel hstop
    cases fuel with
    | zero => exact absurd hfuel (Nat.not_lt_zero _)
    | succ fuel =>
      by_cases hshort : (c :: rest).length < old.length
      · exact strnreplLoop_of_lt hshort
      · rw [List.length_cons] at hfuel
        rw [occurrences_cons_of_elsewhere hnot] at hstop
        rw [strnreplLoop_skip (not_lt.mp hshort) hnot, ih fuel junk (by omega) hstop]
        simp

/-! ### When the comment is right -/

theorem sizeDiff_of_le {newlen oldlen : ℕ} (hle : oldlen ≤ newlen) (hlt : newlen < 2 ^ 64) :
    sizeDiff newlen oldlen = newlen - oldlen := by
  rw [sizeDiff]
  omega

/-- A shorter text seems to need more space than there can be. -/
theorem lt_sizeDiff_of_lt {newlen oldlen len avail : ℕ} (hlt : newlen < oldlen) (hlen : oldlen ≤ len)
    (havail : len + avail < 2 ^ 64) : avail < sizeDiff newlen oldlen := by
  rw [sizeDiff]
  omega

theorem strnrepl_eq {s : CString} (hs : nul ∉ s) (junk : List Char) :
    strnrepl (s ++ nul :: junk) old new =
      strnreplLoop old new junk.length (sizeDiff new.length old.length) (s.length + 1) ([] ++ (s ++ nul :: junk))
        ([] : CString).length s.length := by
  have hstr : strAt (s ++ nul :: junk) 0 = s := by
    rw [strAt, List.drop_zero, takeWhile_append_nul hs]
  have havail : (s ++ nul :: junk).length - (s.length + 1) = junk.length := by
    rw [List.length_append, List.length_cons]
    omega
  rw [strnrepl, hstr, havail]
  rfl

/-- For a string in a buffer, `strnrepl` leaves the documented string in it, within the buffer and terminated,
exactly when there is no occurrence, or the new text is not shorter and either has no room or leaves room for all
the bytes that are moved. -/
theorem strnrepl_ends_iff {s : CString} {junk : List Char} (hs : nul ∉ s) (hold : old ≠ [])
    (hsize : (s ++ nul :: junk).length < 2 ^ 64) (hnew : new.length < 2 ^ 64) :
    Ends (s ++ nul :: junk).length (replaceWithin (s ++ nul :: junk).length old new [] s)
        (strnrepl (s ++ nul :: junk) old new) ↔
      occurrences old s = 0 ∨ old.length ≤ new.length ∧
        ((s ++ nul :: junk).length < s.length + (new.length - old.length) + 1 ∨
          Room (s ++ nul :: junk).length s.length (occurrences old s) old new) := by
  have hlen : (s ++ nul :: junk).length = s.length + 1 + junk.length := by
    rw [List.length_append, List.length_cons]
    omega
  have hgrows (hle : old.length ≤ new.length) : sizeDiff new.length old.length = new.length - old.length :=
    sizeDiff_of_le hle hnew
  rw [strnrepl_eq hs]
  generalize (s ++ nul :: junk).length = size at hsize hlen ⊢
  have hstays (hstop : occurrences old s = 0 ∨ junk.length < sizeDiff new.length old.length) :
      strnreplLoop old new junk.length (sizeDiff new.length old.length) (s.length + 1) ([] ++ (s ++ nul :: junk))
        ([] : CString).length s.length = .returned (s ++ nul :: junk) :=
    strnreplLoop_stops hold [] s _ junk (Nat.lt_succ_self _) hstop
  have hends : (s ++ nul :: junk).length = size := by
    rw [hlen, List.length_append, List.length_cons]
    omega
  by_cases hzero : occurrences old s = 0
  · refine iff_of_true ?_ (.inl hzero)
    rw [hstays (.inl hzero), replaceWithin_of_occurrences_eq_zero hold hzero]
    exact ⟨junk, rfl, hends⟩
  · have hfound : old.length ≤ s.length := not_lt.mp (mt occurrences_of_length_lt hzero)
    rcases lt_or_ge new.length old.length with hlt | hle
    · have hdiff : junk.length < sizeDiff new.length old.length := lt_sizeDiff_of_lt hlt hfound (by omega)
      refine iff_of_false ?_ ?_
      · -- the string of the comment is shorter than the one that stays
        have hlength := length_replaceWithin_of_lt [] hold hlt
          (show ([] ++ s).length < size by rw [List.nil_append]; omega)
        rw [hstays (.inr hdiff)]
        rintro ⟨junk', hend, -⟩
        have hpos := Nat.mul_pos (Nat.pos_of_ne_zero hzero) (Nat.sub_pos_of_lt hlt)
        rw [List.nil_append] at hlength
        generalize replaceWithin size old new [] s = t at hend hlength
        have hnul : (s ++ nul :: junk)[t.length]? = some nul := by
          rw [Outcome.returned.inj hend, List.getElem?_append_right le_rfl, Nat.sub_self, List.getElem?_cons_zero]
        rw [List.getElem?_append_left (by omega)] at hnul
        exact hs (List.mem_of_getElem? hnul)
      · rintro (h | ⟨h, -⟩)
        · exact hzero h
        · omega
    · by_cases hroom : junk.length < new.length - old.length
      · refine iff_of_true ?_ (.inr ⟨hle, .inl (by omega)⟩)
        rw [hstays (.inr (by rw [hgrows hle]; exact hroom)), replaceWithin_of_no_room hold hle]
        · exact ⟨junk, rfl, hends⟩
        · rw [List.nil_append]
          omega
      · rw [hgrows hle]
        constructor
        · rintro ⟨junk', hend, -⟩
          by_contra hnot
          have hnoroom : ¬Room size s.length (occurrences old s) old new := fun h ↦ hnot (.inr ⟨hle, .inr h⟩)
          have hlt : old.length < new.length := hle.lt_of_ne fun h ↦ hnoroom (.inr (.inl h.symm))
          have hout := strnreplLoop_outside hold hlt (not_lt.mp hroom) [] s _ junk (Nat.lt_succ_self _) hends hnoroom
          exact absurd (hend.symm.trans hout) Outcome.noConfusion
        · rintro (h | ⟨-, h | h⟩)
          · exact absurd h hzero
          · omega
          · exact strnreplLoop_within hold hle (not_lt.mp hroom) [] s _ junk (Nat.lt_succ_self _) hends h

theorem strnrepl_ends_iff_weekday :
    Ends 9 (replaceWithin 9 "%a".toList "Tue".toList [] "%a %d".toList)
        (strnrepl ("%a %d".toList ++ nul :: "...".toList) "%a".toList "Tue".toList) ↔
      occurrences "%a".toList "%a %d".toList = 0 ∨ "%a".toList.length ≤ "Tue".toList.length ∧
        (9 < "%a %d".toList.length + ("Tue".toList.length - "%a".toList.length) + 1 ∨
          Room 9 "%a %d".toList.length (occurrences "%a".toList "%a %d".toList) "%a".toList "Tue".toList) :=
  strnrepl_ends_iff (by decide) (by decide) (by decide) (by decide)

/-- A shorter name of a day is not put in, and the second of two names is written behind the buffer. -/
theorem not_strnrepl_ends :
    ¬Ends 6 (replaceWithin 6 "%a".toList "T".toList [] "%a %d".toList)
        (strnrepl ("%a %d".toList ++ [nul]) "%a".toList "T".toList) ∧
      ¬Ends 8 (replaceWithin 8 "%a".toList "Tue".toList [] "%a %a".toList)
        (strnrepl ("%a %a".toList ++ nul :: "..".toList) "%a".toList "Tue".toList) := by
  constructor
  · rintro ⟨junk, hend, -⟩
    have hstays : strnrepl ("%a %d".toList ++ [nul]) "%a".toList "T".toList = .returned ("%a %d".toList ++ [nul]) := by
      decide +kernel
    have hreplaced : replaceWithin 6 "%a".toList "T".toList [] "%a %d".toList = "T %d".toList := by
      simp [replaceWithin]
    rw [hstays, hreplaced] at hend
    exact absurd hend (by simp)
  · rintro ⟨junk, hend, -⟩
    have hout : strnrepl ("%a %a".toList ++ nul :: "..".toList) "%a".toList "Tue".toList = .outside := by
      decide +kernel
    exact absurd (hend.symm.trans hout) Outcome.noConfusion

end BlitzedServices.Misc
