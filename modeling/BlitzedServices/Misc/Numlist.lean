import BlitzedServices.ChanServ.AccessAgreement
import BlitzedServices.Lib.Separated
import BlitzedServices.Mysql.BuildQuery

/-!
# Number lists

`process_numlist` goes once over a list such as `2,5-8`, marks the numbers in an array of 65537 flags, and calls a
routine for each flag that is set. `mysql_build_query` goes over the same lists with a loop of the same form, but
makes a text of them.

`processNumlist_eq` says that the first loop ends for every text, never leaves the array, and calls the routine
for the numbers of `numlist` in ascending order. `processNumlist_listed_iff` says when these are the numbers that a
list of the documented form names: `strtol` saturates and `unsigned int` keeps 32 bits of it.
-/

set_option autoImplicit false
set_option relaxedAutoImplicit false

namespace BlitzedServices.Numlist

open Lib Lib.Separated Mysql
open ChanServ (strtolRest strtolRest_of_isDigit isDigit_of_mem_decimal numlistRange numlistRanges numlist)

/-! ### One item -/

/-- The characters at which the text after a number is looked at again. -/
def isListChar (c : Char) : Bool :=
  c.isDigit || c == ',' || c == '-'

/-- The same behind a dash. -/
def isEndChar (c : Char) : Bool :=
  c.isDigit || c == ','

/-- The numbers of one item, read with the conversion of the loop, and the text behind its comma. -/
def readItem (read : CString → ℕ) (numstr : CString) : (ℕ × ℕ) × CString :=
  let n1 := read numstr
  let numstr := (strtolRest numstr).dropWhile fun c ↦ !isListChar c
  let (n2, numstr) :=
    match numstr with
    | '-' :: numstr =>
      let numstr := numstr.dropWhile fun c ↦ !isEndChar c
      if numstr.head?.any Char.isDigit then
        (read numstr, (strtolRest numstr).dropWhile fun c ↦ !isListChar c)
      else (n1, numstr)
    | _ => (n1, numstr)
  ((n1, n2), (numstr.dropWhile (· != ',')).tail)

/-- The numbers of an item without its comma. -/
def itemRange (read : CString → ℕ) (item : CString) : ℕ × ℕ :=
  (readItem read item).1

/-- A conversion that does not look behind a comma. -/
def StopsAtComma (read : CString → ℕ) : Prop :=
  ∀ s b, AtEnd ',' b → read (s ++ b) = read s

theorem signedValue_append_atEnd (s : CString) {b : CString} (hb : AtEnd ',' b) :
    signedValue (s ++ b) = signedValue s := by
  have hvalue (t : CString) : digitsValue (t ++ b) = digitsValue t := by
    rw [digitsValue, takeWhile_append_atEnd hb (by decide), digitsValue]
  rw [signedValue, dropWhile_append_atEnd hb (by decide), signedValue]
  cases htext : s.dropWhile isspace with
  | nil =>
    have hsign : b.head? ≠ some '-' ∧ b.head? ≠ some '+' := by
      constructor <;> exact fun h ↦ absurd (hb _ h) (by decide)
    have hzero : digitsValue b = digitsValue [] := by simpa using hvalue []
    simp [hsign.1, hsign.2, hzero]
  | cons c t =>
    have hwhole := hvalue (c :: t)
    simp only [List.cons_append, List.head?_cons, List.tail_cons] at hwhole ⊢
    rw [hvalue t, hwhole]
    rfl

theorem strtolRest_append_atEnd (s : CString) {b : CString} (hb : AtEnd ',' b) :
    strtolRest (s ++ b) = strtolRest s ++ b := by
  have hdigit (t : CString) : ((t ++ b).head?.any Char.isDigit) = (t.head?.any Char.isDigit) := by
    cases t with
    | nil =>
      cases b with
      | nil => rfl
      | cons c b => rw [List.nil_append, List.head?_cons, hb c rfl]; rfl
    | cons c t => rfl
  have htail (t : CString) :
      (if (t ++ b).head?.any Char.isDigit then (t ++ b).dropWhile Char.isDigit else s ++ b) =
        (if t.head?.any Char.isDigit then t.dropWhile Char.isDigit else s) ++ b := by
    rw [hdigit, dropWhile_append_atEnd hb (by decide)]
    split_ifs <;> rfl
  rw [strtolRest, dropWhile_append_atEnd hb (by decide), strtolRest]
  cases htext : s.dropWhile isspace with
  | nil =>
    have hsign : ¬ (b.head? = some '-' ∨ b.head? = some '+') := by
      rintro (h | h) <;> exact absurd (hb _ h) (by decide)
    have hb0 := htail []
    simp only [List.nil_append] at hb0 ⊢
    rw [if_neg hsign, hb0]
    simp
  | cons c t =>
    have hhead : ((c :: t) ++ b).head? = (c :: t).head? := rfl
    simp only [hhead]
    by_cases hsign : (c :: t).head? = some '-' ∨ (c :: t).head? = some '+'
    · simp only [if_pos hsign]
      exact htail t
    · simp only [if_neg hsign]
      exact htail (c :: t)

theorem strtolRest_suffix (s : CString) : strtolRest s <:+ s := by
  have htext := List.dropWhile_suffix isspace (l := s)
  rw [strtolRest]
  split_ifs
  · exact (List.dropWhile_suffix _).trans ((List.tail_suffix _).trans htext)
  · exact List.suffix_rfl
  · exact (List.dropWhile_suffix _).trans htext
  · exact List.suffix_rfl

/-- `strtol` in an `unsigned int`. -/
def readLong (s : CString) : ℕ :=
  (BitVec.ofInt 32 (strtol s)).toNat

theorem stopsAtComma_readLong : StopsAtComma readLong := by
  intro s b hb
  rw [readLong, strtol, signedValue_append_atEnd s hb, readLong, strtol]

theorem stopsAtComma_readUnsigned : StopsAtComma readUnsigned := by
  intro s b hb
  rw [readUnsigned, strtoul, signedValue_append_atEnd s hb, readUnsigned, strtoul]

theorem readItem_append {read : CString → ℕ} (hread : StopsAtComma read) {item b : CString} (hnot : ',' ∉ item)
    (hb : AtEnd ',' b) : readItem read (item ++ b) = (itemRange read item, b.tail) := by
  have hrest (t : CString) (ht : t <:+ item) : ((t ++ b).dropWhile (· != ',')).tail = b.tail := by
    have hall : t.dropWhile (· != ',') = [] := by
      rw [List.dropWhile_eq_nil_iff]
      intro c hc
      simpa using fun h : c = ',' ↦ hnot (ht.subset (h ▸ hc))
    rw [dropWhile_append_atEnd hb (by decide), hall, List.nil_append]
  have hstop (t : CString) : (strtolRest t ++ b).dropWhile (fun c ↦ !isListChar c) =
      (strtolRest t).dropWhile (fun c ↦ !isListChar c) ++ b := dropWhile_append_atEnd hb (by decide)
  have hend (t : CString) : (t ++ b).dropWhile (fun c ↦ !isEndChar c) = t.dropWhile (fun c ↦ !isEndChar c) ++ b :=
    dropWhile_append_atEnd hb (by decide)
  have hskip (t : CString) : (strtolRest t).dropWhile (fun c ↦ !isListChar c) <:+ t :=
    (List.dropWhile_suffix _).trans (strtolRest_suffix t)
  have hitem := hskip item
  rw [itemRange, readItem, readItem, hread item b hb, strtolRest_append_atEnd item hb, hstop]
  cases hafter : (strtolRest item).dropWhile (fun c ↦ !isListChar c) with
  | nil =>
    have hb' := hrest [] (List.nil_suffix)
    cases b with
    | nil => rfl
    | cons c b =>
      rcases hb c rfl with rfl
      rfl
  | cons c t =>
    rw [hafter] at hitem
    by_cases hdash : c = '-'
    · subst hdash
      have hbehind : t.dropWhile (fun c ↦ !isEndChar c) <:+ item :=
        (List.dropWhile_suffix _).trans ((List.suffix_cons '-' t).trans hitem)
      simp only [List.cons_append, hend]
      generalize t.dropWhile (fun c ↦ !isEndChar c) = u at hbehind ⊢
      have hdigit : (u ++ b).head?.any Char.isDigit = u.head?.any Char.isDigit := by
        cases u with
        | nil =>
          cases b with
          | nil => rfl
          | cons c b => rw [List.nil_append, List.head?_cons, hb c rfl]; rfl
        | cons c u => rfl
      rw [hdigit, hread u b hb, strtolRest_append_atEnd u hb, hstop]
      split_ifs
      · rw [hrest _ ((hskip u).trans hbehind)]
      · rw [hrest u hbehind]
    · have hplain := hrest (c :: t) hitem
      simp only [List.cons_append] at hplain ⊢
      simp [hdash, hplain]

/-- A loop over the items reads each of them up to its comma. -/
theorem readItem_eq {read : CString → ℕ} (hread : StopsAtComma read) (numstr : CString) :
    readItem read numstr = (itemRange read (field ',' numstr), behind ',' numstr) := by
  rcases exists_field ',' numstr with ⟨b, htext, hb, hbehind, hnot⟩
  have happend := readItem_append hread hnot hb
  rwa [← htext, ← hbehind] at happend

theorem numlistRange_eq (item : CString) : numlistRange item = itemRange readLong item := by
  simp only [numlistRange, itemRange, readItem, isListChar, isEndChar]
  generalize (strtolRest item).dropWhile (fun c ↦ !(c.isDigit || c == ',' || c == '-')) = after
  cases after with
  | nil => rfl
  | cons c t =>
    by_cases hdash : c = '-'
    · subst hdash
      by_cases hdigit : ((t.dropWhile fun c ↦ !(c.isDigit || c == ',')).head?.any Char.isDigit)
      · simp only [hdigit, if_true, readLong]
      · simp only [hdigit, if_false, readLong, Bool.false_eq_true]
    · simp [hdash, readLong]

theorem queryRange_eq (max : ℕ) (item : CString) :
    queryRange max item = (min (itemRange readUnsigned item).1 max, min (itemRange readUnsigned item).2 max) := by
  simp only [queryRange, itemRange, readItem, isListChar, isEndChar]
  generalize (strtolRest item).dropWhile (fun c ↦ !(c.isDigit || c == ',' || c == '-')) = after
  cases after with
  | nil => rfl
  | cons c t =>
    by_cases hdash : c = '-'
    · subst hdash
      by_cases hdigit : ((t.dropWhile fun c ↦ !(c.isDigit || c == ',')).head?.any Char.isDigit)
      · simp only [hdigit, if_true]
      · simp only [hdigit, if_false, Bool.false_eq_true]
    · simp [hdash]

/-- `numlistItems` are the fields of a list. -/
theorem numlistItems_eq (numstr : CString) : numlistItems numstr = fields ',' numstr :=
  rfl

theorem numlistRanges_eq (numstr : CString) :
    numlistRanges numstr = (numlistItems numstr).map (itemRange readLong) :=
  List.map_congr_left fun item _ ↦ numlistRange_eq item

/-! ### process_numlist -/

/-- The length of `numflag`. -/
def numflagSize : ℕ :=
  65537

/-- The array with the ends between which it is looked through. -/
structure Flags where
  numflag : ℕ → Bool
  imin : ℕ
  imax : ℕ

/-- `numflag[n1] = 1`; `none` outside the array. -/
def setFlag (numflag : ℕ → Bool) (n1 : ℕ) : Option (ℕ → Bool) :=
  if n1 < numflagSize then some (Function.update numflag n1 true) else none

/-- What the loop does with one item. -/
def flagRange (lo hi : ℕ) (st : Flags) (range : ℕ × ℕ) : Option Flags :=
  let n1 := if range.1 < lo then lo else range.1
  let n2 := if hi < range.2 then hi else range.2
  let n2 := if 65536 < n2 then 65536 else n2
  let imin := if n1 < st.imin then n1 else st.imin
  let imax := if st.imax < n2 then n2 else st.imax
  ((List.range' n1 (n2 + 1 - n1)).foldlM setFlag st.numflag).map fun numflag ↦ ⟨numflag, imin, imax⟩

/-- The routine's state, the sum and the number of calls, and the calls themselves with their results. -/
structure Calls (σ : Type) where
  state : σ
  retval : BitVec 32
  numcount : ℕ
  calls : List (ℕ × BitVec 32)

variable {σ : Type}

/-- One call of the routine. -/
def Calls.call (callback : σ → ℕ → BitVec 32 × σ) (r : Calls σ) (i : ℕ) : Calls σ :=
  { r with
    state := (callback r.state i).2
    numcount := r.numcount + 1
    calls := r.calls ++ [(i, (callback r.state i).1)] }

/-- The loop that calls the routine; `none` outside the array. It stops at a negative result. -/
def callFlagged (callback : σ → ℕ → BitVec 32 × σ) (numflag : ℕ → Bool) : List ℕ → Calls σ → Option (Calls σ)
  | [], r => some r
  | i :: rest, r =>
    if numflagSize ≤ i then none
    else if !numflag i then callFlagged callback numflag rest r
    else
      let res := (callback r.state i).1
      let r := r.call callback i
      if res.toInt < 0 then some r
      else callFlagged callback numflag rest { r with retval := r.retval + res }

/-- `process_numlist`; `none` if it does not end or leaves its array. -/
def processNumlist (numstr : CString) (lo hi : ℕ) (callback : σ → ℕ → BitVec 32 × σ) (state : σ) :
    Option (Calls σ) :=
  (scan (readItem readLong) (flagRange lo hi) numstr.length numstr ⟨fun _ ↦ false, 65536, 0⟩).bind fun flags ↦
    callFlagged callback flags.numflag (List.range' flags.imin (flags.imax + 1 - flags.imin)) ⟨state, 0, 0, []⟩

/-! ### The flags -/

/-- The part of a range that is flagged. -/
def clamp (lo hi : ℕ) (range : ℕ × ℕ) : ℕ × ℕ :=
  (max range.1 lo, min (min range.2 hi) 65536)

theorem foldlM_setFlag (k n1 : ℕ) (numflag : ℕ → Bool) (h : n1 + k ≤ numflagSize ∨ k = 0) :
    (List.range' n1 k).foldlM setFlag numflag = some fun i ↦ numflag i || (n1 ≤ i && i < n1 + k) := by
  induction k generalizing n1 numflag with
  | zero =>
    have hsame : (fun i ↦ numflag i || (decide (n1 ≤ i) && decide (i < n1 + 0))) = numflag := by
      ext i
      by_cases hi : n1 ≤ i
      · simp [hi]
      · simp [hi]
    rw [hsame]
    rfl
  | succ k ih =>
    have hlt : n1 < numflagSize := by omega
    rw [List.range'_succ, List.foldlM_cons, setFlag, if_pos hlt]
    show (List.range' (n1 + 1) k).foldlM setFlag _ = _
    rw [ih (n1 + 1) _ (by omega)]
    congr 1
    ext i
    by_cases hi : i = n1
    · subst hi
      simp
    · have hle : n1 + 1 ≤ i ↔ n1 ≤ i := by omega
      have hlt' : i < n1 + 1 + k ↔ i < n1 + (k + 1) := by omega
      simp only [Function.update_of_ne hi, hle, hlt']

/-- What the loop has marked after some ranges. -/
structure Marks (lo hi : ℕ) (ranges : List (ℕ × ℕ)) (st : Flags) : Prop where
  numflag : ∀ i, st.numflag i = inRanges (ranges.map (clamp lo hi)) i
  imin_le : st.imin ≤ 65536
  imax_le : st.imax ≤ 65536
  within : ∀ i, st.numflag i → st.imin ≤ i ∧ i ≤ st.imax

theorem marks_flagRange {lo hi : ℕ} {ranges : List (ℕ × ℕ)} {st : Flags} (h : Marks lo hi ranges st)
    (range : ℕ × ℕ) : ∃ st', flagRange lo hi st range = some st' ∧ Marks lo hi (ranges ++ [range]) st' := by
  have hn1 : (if range.1 < lo then lo else range.1) = (clamp lo hi range).1 := by
    simp only [clamp]
    split_ifs <;> omega
  have hn2 : (if 65536 < (if hi < range.2 then hi else range.2) then 65536
      else (if hi < range.2 then hi else range.2)) = (clamp lo hi range).2 := by
    simp only [clamp]
    split_ifs <;> omega
  have hle : (clamp lo hi range).2 ≤ 65536 := by
    simp only [clamp]
    omega
  simp only [flagRange, hn1, hn2]
  generalize hr : clamp lo hi range = r at hle
  rw [foldlM_setFlag _ _ _ (by simp only [numflagSize]; omega)]
  refine ⟨_, rfl, ?_, ?_, ?_, ?_⟩
  · intro i
    have hsame : (decide (r.1 ≤ i) && decide (i < r.1 + (r.2 + 1 - r.1))) = (decide (r.1 ≤ i) && decide (i ≤ r.2)) := by
      rw [Bool.eq_iff_iff]
      simp only [Bool.and_eq_true, decide_eq_true_eq]
      omega
    simp only [h.numflag, inRanges, List.map_append, List.map_cons, List.map_nil, List.any_append, List.any_cons,
      List.any_nil, Bool.or_false, hr, hsame]
  · have hold := h.imin_le
    show (if r.1 < st.imin then r.1 else st.imin) ≤ 65536
    split_ifs <;> omega
  · have hold := h.imax_le
    show (if st.imax < r.2 then r.2 else st.imax) ≤ 65536
    split_ifs <;> omega
  · intro i hi
    have hbounds : st.numflag i = true ∨ (r.1 ≤ i ∧ i ≤ r.2) := by
      simp only [Bool.or_eq_true, Bool.and_eq_true, decide_eq_true_eq] at hi
      exact hi.imp_right fun h ↦ by omega
    show (if r.1 < st.imin then r.1 else st.imin) ≤ i ∧ i ≤ (if st.imax < r.2 then r.2 else st.imax)
    rcases hbounds with hold | hnew
    · have hwithin := h.within i hold
      split_ifs <;> omega
    · split_ifs <;> omega

theorem marks_foldlM (lo hi : ℕ) (ranges : List (ℕ × ℕ)) :
    ∃ st, ranges.foldlM (flagRange lo hi) ⟨fun _ ↦ false, 65536, 0⟩ = some st ∧ Marks lo hi ranges st := by
  induction ranges using List.reverseRecOn with
  | nil => exact ⟨_, rfl, fun i ↦ rfl, le_rfl, Nat.zero_le _, fun i hi ↦ absurd hi (by simp)⟩
  | append_singleton ranges range ih =>
    rcases ih with ⟨st, hst, hmarks⟩
    rcases marks_flagRange hmarks range with ⟨st', hst', hmarks'⟩
    exact ⟨st', by rw [List.foldlM_append, hst]; simpa using hst', hmarks'⟩

/-! ### The calls -/

variable (callback : σ → ℕ → BitVec 32 × σ)

/-- The loop over numbers that are all flagged. -/
def callAll : List ℕ → Calls σ → Calls σ
  | [], r => r
  | i :: rest, r =>
    let res := (callback r.state i).1
    let r := r.call callback i
    if res.toInt < 0 then r else callAll rest { r with retval := r.retval + res }

theorem callFlagged_eq {numflag : ℕ → Bool} (nums : List ℕ) (hnums : ∀ i ∈ nums, i < numflagSize) (r : Calls σ) :
    callFlagged callback numflag nums r = some (callAll callback (nums.filter numflag) r) := by
  induction nums generalizing r with
  | nil => rfl
  | cons i rest ih =>
    have hi : ¬ numflagSize ≤ i := by
      have hlt := hnums i (List.mem_cons_self ..)
      omega
    have hrest := ih fun j hj ↦ hnums j (List.mem_cons_of_mem _ hj)
    rw [callFlagged, if_neg hi]
    by_cases hflag : numflag i
    · have hkeep : ¬ (!numflag i) = true := by simp [hflag]
      simp only [if_neg hkeep, List.filter_cons_of_pos hflag, callAll, hrest]
      split_ifs <;> rfl
    · have hskip : (!numflag i) = true := by simp [hflag]
      rw [if_pos hskip, List.filter_cons_of_neg hflag, hrest]

/-- The numbers that are flagged, looked through between the two ends. -/
theorem filter_flagged {numstr : CString} {lo hi : ℕ} {st : Flags} (h : Marks lo hi (numlistRanges numstr) st) :
    (List.range' st.imin (st.imax + 1 - st.imin)).filter st.numflag = numlist numstr lo hi := by
  have hsorted : ((List.range' st.imin (st.imax + 1 - st.imin)).filter st.numflag).Pairwise (· < ·) :=
    List.Pairwise.filter _ (List.pairwise_lt_range' ..)
  have hsorted' : (numlist numstr lo hi).Pairwise (· < ·) := List.pairwise_lt_range.filter _
  refine hsorted.eq_of_mem_iff hsorted' fun i ↦ ?_
  have hflag : inRanges ((numlistRanges numstr).map (clamp lo hi)) i = st.numflag i := (h.numflag i).symm
  rw [numlist, List.mem_filter, List.mem_filter, List.mem_range'_1, List.mem_range]
  show _ ∧ _ ↔ i < 65537 ∧ inRanges ((numlistRanges numstr).map (clamp lo hi)) i = true
  rw [hflag]
  have hmax := h.imax_le
  constructor
  · rintro ⟨hrange, hi⟩
    exact ⟨by omega, hi⟩
  · rintro ⟨hlt, hi⟩
    have hwithin := h.within i hi
    exact ⟨by omega, hi⟩

/-- The loops end for every text, stay in the array, and call the routine for the numbers of `numlist`. -/
theorem processNumlist_eq (numstr : CString) (lo hi : ℕ) (state : σ) :
    processNumlist numstr lo hi callback state =
      some (callAll callback (numlist numstr lo hi) ⟨state, 0, 0, []⟩) := by
  have hscan := scan_eq_foldlM (fun s ↦ readItem_eq stopsAtComma_readLong s) (flagRange lo hi) numstr.length numstr
    ⟨fun _ ↦ false, 65536, 0⟩ le_rfl
  rw [← numlistItems_eq, ← numlistRanges_eq] at hscan
  rcases marks_foldlM lo hi (numlistRanges numstr) with ⟨st, hst, hmarks⟩
  have hinside : ∀ i ∈ List.range' st.imin (st.imax + 1 - st.imin), i < numflagSize := by
    intro i hi
    have hmax := hmarks.imax_le
    rw [List.mem_range'_1] at hi
    simp only [numflagSize]
    omega
  rw [processNumlist, hscan, hst]
  show callFlagged _ _ _ _ = _
  rw [callFlagged_eq callback _ hinside, filter_flagged hmarks]

/-- The results along a list of numbers, if the routine is called for all of them. -/
def results : σ → List ℕ → List (BitVec 32)
  | _, [] => []
  | state, i :: rest => (callback state i).1 :: results (callback state i).2 rest

/-- No result along the list is negative. -/
def Nonneg (results : List (BitVec 32)) : Prop :=
  ∀ res ∈ results, 0 ≤ res.toInt

/-- The sum of results. -/
def total (results : List (BitVec 32)) : ℤ :=
  (results.map BitVec.toInt).sum

theorem callAll_of_nonneg (nums : List ℕ) (r : Calls σ) (h : Nonneg (results callback r.state nums)) :
    (callAll callback nums r).calls = r.calls ++ nums.zip (results callback r.state nums) ∧
      (callAll callback nums r).retval = r.retval + (results callback r.state nums).sum := by
  induction nums generalizing r with
  | nil => simp [callAll, results]
  | cons i rest ih =>
    have hi : ¬ (callback r.state i).1.toInt < 0 := not_lt.mpr (h _ (List.mem_cons_self ..))
    have hrest := ih { r.call callback i with retval := r.retval + (callback r.state i).1 } fun res hres ↦
      h res (List.mem_cons_of_mem _ hres)
    simp only [callAll, if_neg hi, results]
    constructor
    · refine hrest.1.trans ?_
      simp [Calls.call]
    · refine hrest.2.trans ?_
      simp [Calls.call, add_assoc]

/-- At the first negative result the calls stop, and the result does not count. -/
theorem callAll_of_neg (nums : List ℕ) (r : Calls σ) (h : ¬ Nonneg (results callback r.state nums)) :
    ∃ before res, (callAll callback nums r).calls.map Prod.snd = r.calls.map Prod.snd ++ before ++ [res] ∧
      res.toInt < 0 ∧ (callAll callback nums r).retval = r.retval + before.sum := by
  induction nums generalizing r with
  | nil => exact absurd (fun res hres ↦ absurd hres (by simp [results])) h
  | cons i rest ih =>
    by_cases hi : (callback r.state i).1.toInt < 0
    · refine ⟨[], (callback r.state i).1, ?_, hi, ?_⟩
      · simp [callAll, if_pos hi, Calls.call]
      · simp [callAll, if_pos hi, Calls.call]
    · have hrest : ¬ Nonneg (results callback (callback r.state i).2 rest) := by
        intro hnonneg
        refine h fun res hres ↦ ?_
        rcases List.mem_cons.mp hres with rfl | hres
        · exact not_lt.mp hi
        · exact hnonneg res hres
      rcases ih { r.call callback i with retval := r.retval + (callback r.state i).1 } hrest with
        ⟨before, res, hcalls, hneg, hretval⟩
      refine ⟨(callback r.state i).1 :: before, res, ?_, hneg, ?_⟩
      · simp only [callAll, if_neg hi]
        refine hcalls.trans ?_
        simp [Calls.call]
      · simp only [callAll, if_neg hi]
        refine hretval.trans ?_
        simp [add_assoc]

theorem sum_eq_ofInt (rs : List (BitVec 32)) : rs.sum = BitVec.ofInt 32 (total rs) := by
  induction rs with
  | nil => rfl
  | cons res rs ih =>
    have htotal : total (res :: rs) = res.toInt + total rs := rfl
    rw [List.sum_cons, ih, htotal, BitVec.ofInt_add, BitVec.ofInt_toInt]

/-- The sum that is returned is that of the results as long as it fits in an `int`. -/
theorem toInt_sum (rs : List (BitVec 32)) : ∃ k : ℤ, rs.sum.toInt = total rs + k * 2 ^ 32 := by
  rw [sum_eq_ofInt, BitVec.toInt_ofInt]
  exact ⟨-((total rs - (total rs).bmod (2 ^ 32)) / 2 ^ 32), by
    have hdvd := Int.dvd_self_sub_bmod (x := total rs) (m := 2 ^ 32)
    omega⟩

/-! ### Lists of the documented form -/

/-- A decimal number as it is written, of any size. -/
structure Number where
  digits : CString
  nonempty : digits ≠ []
  isDigit : ∀ c ∈ digits, c.isDigit

/-- The number that is meant. -/
def Number.value (n : Number) : ℕ :=
  digitsValue n.digits

/-- What `strtol` and an `unsigned int` keep of it. -/
def Number.stored (n : Number) : ℕ :=
  min n.value (2 ^ 63 - 1) % 2 ^ 32

/-- `n1[-n2]`. -/
structure Item where
  first : Number
  last : Option Number

namespace Item

/-- The text of an item. -/
def text (item : Item) : CString :=
  match item.last with
  | none => item.first.digits
  | some last => item.first.digits ++ '-' :: last.digits

/-- The range that is meant. -/
def range (item : Item) : ℕ × ℕ :=
  (item.first.value, (item.last.getD item.first).value)

/-- The range that is kept. -/
def storedRange (item : Item) : ℕ × ℕ :=
  (item.first.stored, (item.last.getD item.first).stored)

end Item

/-- `n1[-n2][,n3[-n4]]...`. -/
def listText (items : List Item) : CString :=
  [','].intercalate (items.map Item.text)

/-- The numbers that a list names, from `lo` to `hi`. -/
def listedNumbers (items : List Item) (lo hi : ℕ) : List ℕ :=
  (List.range (hi + 1)).filter fun i ↦ lo ≤ i && inRanges (items.map Item.range) i

/-- Digits end where the next character is none. -/
theorem dropWhile_digits (n : Number) {t : CString} (ht : ∀ c ∈ t.head?, c.isDigit = false) :
    (n.digits ++ t).dropWhile Char.isDigit = t ∧ (n.digits ++ t).takeWhile Char.isDigit = n.digits := by
  rw [List.dropWhile_append_of_pos n.isDigit, List.takeWhile_append_of_pos n.isDigit]
  cases t with
  | nil => exact ⟨rfl, List.append_nil _⟩
  | cons c t =>
    have hc : ¬ c.isDigit = true := by simp [ht c rfl]
    exact ⟨List.dropWhile_cons_of_neg hc, by rw [List.takeWhile_cons_of_neg hc, List.append_nil]⟩

theorem Number.read (n : Number) {t : CString} (ht : ∀ c ∈ t.head?, c.isDigit = false) :
    signedValue (n.digits ++ t) = n.value ∧ strtolRest (n.digits ++ t) = t := by
  rcases dropWhile_digits n ht with ⟨hdrop, htake⟩
  cases hdigits : n.digits with
  | nil => exact absurd hdigits n.nonempty
  | cons c s =>
    have hc : c.isDigit := n.isDigit c (by rw [hdigits]; exact List.mem_cons_self ..)
    rw [hdigits, List.cons_append] at hdrop htake
    constructor
    · rw [List.cons_append, signedValue_of_isDigit hc, digitsValue, htake, Number.value, digitsValue,
        List.takeWhile_eq_self_iff.mpr n.isDigit, hdigits]
    · rw [List.cons_append, strtolRest_of_isDigit hc, hdrop]

theorem Number.readLong_append (n : Number) {t : CString} (ht : ∀ c ∈ t.head?, c.isDigit = false) :
    readLong (n.digits ++ t) = n.stored := by
  have hmin : max (-2 ^ 63) (min (2 ^ 63 - 1) ((n.value : ℕ) : ℤ)) = ((min n.value (2 ^ 63 - 1) : ℕ) : ℤ) := by
    omega
  rw [readLong, strtol, (n.read ht).1, hmin, BitVec.ofInt_natCast, BitVec.toNat_ofNat, stored]

theorem Item.itemRange_text (item : Item) : itemRange readLong item.text = item.storedRange := by
  rcases item with ⟨first, last⟩
  cases last with
  | none =>
    have hread := first.read (t := []) (by simp)
    have hlong := first.readLong_append (t := []) (by simp)
    rw [List.append_nil] at hread hlong
    simp [itemRange, readItem, text, hread.2, hlong, storedRange]
  | some last =>
    have hdash : ∀ c ∈ ('-' :: last.digits).head?, c.isDigit = false := by
      rintro c ⟨⟩
      decide
    have hlast := last.readLong_append (t := []) (by simp)
    rw [List.append_nil] at hlast
    have hstay : ('-' :: last.digits).dropWhile (fun c ↦ !isListChar c) = '-' :: last.digits :=
      List.dropWhile_cons_of_neg (by decide)
    have hdigit : last.digits.head?.any Char.isDigit ∧
        last.digits.dropWhile (fun c ↦ !isEndChar c) = last.digits := by
      cases hdigits : last.digits with
      | nil => exact absurd hdigits last.nonempty
      | cons c s =>
        have hc : c.isDigit := last.isDigit c (by rw [hdigits]; exact List.mem_cons_self ..)
        exact ⟨hc, List.dropWhile_cons_of_neg (by simp [isEndChar, hc])⟩
    simp only [itemRange, readItem, text, (first.read hdash).2, first.readLong_append hdash, hstay, hdigit.2, hdigit.1,
      if_true, hlast, storedRange, Option.getD_some]

theorem Item.comma_notMem_text (item : Item) : ',' ∉ item.text := by
  have hdigits (n : Number) : ',' ∉ n.digits := fun h ↦ absurd (n.isDigit _ h) (by decide)
  rcases item with ⟨first, last⟩
  cases last with
  | none => exact hdigits first
  | some last => simp [text, hdigits]

theorem Item.text_ne_nil (item : Item) : item.text ≠ [] := by
  rcases item with ⟨first, last⟩
  cases last with
  | none => exact first.nonempty
  | some last => simp [text]

/-- The items of a list of the documented form are what lies between its commas. -/
theorem numlistRanges_listText (items : List Item) : numlistRanges (listText items) = items.map Item.storedRange := by
  rw [numlistRanges_eq]
  have hitems : numlistItems (listText items) = items.map Item.text := by
    cases items with
    | nil => rfl
    | cons item items =>
      have hsplit : (listText (item :: items)).splitOn ',' = (item :: items).map Item.text := by
        refine List.splitOn_intercalate ',' ?_ (by simp)
        intro l hl
        rcases List.mem_map.mp hl with ⟨i, _, rfl⟩
        exact i.comma_notMem_text
      have hlast : ((item :: items).map Item.text).getLast? ≠ some [] := by
        intro h
        rcases List.mem_map.mp (List.mem_of_getLast? h) with ⟨i, _, hi⟩
        exact i.text_ne_nil hi
      rw [numlistItems, hsplit]
      exact if_neg hlast
  rw [hitems, List.map_map]
  exact List.map_congr_left fun item _ ↦ item.itemRange_text

/-! ### The numbers that are called -/

theorem inRanges_iff (ranges : List (ℕ × ℕ)) (i : ℕ) :
    inRanges ranges i ↔ ∃ r ∈ ranges, r.1 ≤ i ∧ i ≤ r.2 := by
  simp [inRanges]

theorem inRanges_clamp (lo hi : ℕ) (ranges : List (ℕ × ℕ)) (i : ℕ) :
    inRanges (ranges.map (clamp lo hi)) i = (decide (lo ≤ i ∧ i ≤ hi ∧ i ≤ 65536) && inRanges ranges i) := by
  rw [Bool.eq_iff_iff, Bool.and_eq_true, decide_eq_true_eq, inRanges_iff, inRanges_iff]
  constructor
  · rintro ⟨_, hr, hle, hle'⟩
    rcases List.mem_map.mp hr with ⟨r, hmem, rfl⟩
    simp only [clamp] at hle hle'
    exact ⟨by omega, r, hmem, by omega, by omega⟩
  · rintro ⟨hbounds, r, hr, hle, hle'⟩
    refine ⟨clamp lo hi r, List.mem_map_of_mem hr, ?_, ?_⟩
    · simp only [clamp]
      omega
    · simp only [clamp]
      omega

theorem mem_numlist (numstr : CString) (lo hi i : ℕ) :
    i ∈ numlist numstr lo hi ↔ lo ≤ i ∧ i ≤ hi ∧ i ≤ 65536 ∧ inRanges (numlistRanges numstr) i := by
  have hclamp := inRanges_clamp lo hi (numlistRanges numstr) i
  rw [numlist, List.mem_filter, List.mem_range]
  show i < 65537 ∧ inRanges ((numlistRanges numstr).map (clamp lo hi)) i = true ↔ _
  rw [hclamp, Bool.and_eq_true, decide_eq_true_eq]
  constructor
  · rintro ⟨-, hbounds, hin⟩
    exact ⟨hbounds.1, hbounds.2.1, hbounds.2.2, hin⟩
  · rintro ⟨hlo, hhi, hsize, hin⟩
    exact ⟨by omega, ⟨hlo, hhi, hsize⟩, hin⟩

theorem mem_listedNumbers (items : List Item) (lo hi i : ℕ) :
    i ∈ listedNumbers items lo hi ↔ lo ≤ i ∧ i ≤ hi ∧ inRanges (items.map Item.range) i := by
  rw [listedNumbers, List.mem_filter, List.mem_range, Bool.and_eq_true, decide_eq_true_eq]
  constructor
  · rintro ⟨hlt, hlo, hin⟩
    exact ⟨hlo, by omega, hin⟩
  · rintro ⟨hlo, hhi, hin⟩
    exact ⟨by omega, hlo, hin⟩

/-- The numbers as they are kept name the same numbers from `lo` to `hi` as those that were typed. -/
def KeptAsTyped (items : List Item) (lo hi : ℕ) : Prop :=
  ∀ i, lo ≤ i → i ≤ hi → (inRanges (items.map Item.storedRange) i ↔ inRanges (items.map Item.range) i)

theorem numlist_listText_iff (items : List Item) (lo hi : ℕ) (hhi : hi ≤ 65536) :
    numlist (listText items) lo hi = listedNumbers items lo hi ↔ KeptAsTyped items lo hi := by
  constructor
  · intro h i hlo hle
    have hmem : i ∈ numlist (listText items) lo hi ↔ i ∈ listedNumbers items lo hi := by rw [h]
    rw [mem_numlist, mem_listedNumbers, numlistRanges_listText] at hmem
    constructor
    · intro hin
      exact (hmem.mp ⟨hlo, hle, by omega, hin⟩).2.2
    · intro hin
      exact (hmem.mpr ⟨hlo, hle, hin⟩).2.2.2
  · intro h
    have hsorted : (numlist (listText items) lo hi).Pairwise (· < ·) := List.pairwise_lt_range.filter _
    have hsorted' : (listedNumbers items lo hi).Pairwise (· < ·) := List.pairwise_lt_range.filter _
    refine hsorted.eq_of_mem_iff hsorted' fun i ↦ ?_
    rw [mem_numlist, mem_listedNumbers, numlistRanges_listText]
    constructor
    · rintro ⟨hlo, hle, -, hin⟩
      exact ⟨hlo, hle, (h i hlo hle).mp hin⟩
    · rintro ⟨hlo, hle, hin⟩
      exact ⟨hlo, hle, by omega, (h i hlo hle).mpr hin⟩

theorem Number.stored_of_lt {n : Number} (h : n.value < 2 ^ 32) : n.stored = n.value := by
  rw [stored, Nat.min_eq_left (by omega), Nat.mod_eq_of_lt h]

/-- Numbers below `2 ^ 32` are kept as they are typed. -/
theorem keptAsTyped_of_lt {items : List Item} (lo hi : ℕ)
    (h : ∀ item ∈ items, item.range.1 < 2 ^ 32 ∧ item.range.2 < 2 ^ 32) : KeptAsTyped items lo hi := by
  have hsame : items.map Item.storedRange = items.map Item.range := by
    refine List.map_congr_left fun item hitem ↦ ?_
    exact Prod.ext (Number.stored_of_lt (h item hitem).1) (Number.stored_of_lt (h item hitem).2)
  intro i _ _
  rw [hsame]

/-- The routine is called once for each number that the list names from `lo` to `hi`, in ascending order, and the sum
of its results is returned. -/
structure CallsListed (items : List Item) (lo hi : ℕ) (r : Calls σ) : Prop where
  calls : r.calls.map Prod.fst = listedNumbers items lo hi
  retval : r.retval.toInt = total (r.calls.map Prod.snd)

/-- When it is so. -/
structure Meets (items : List Item) (lo hi : ℕ) (state : σ) : Prop where
  kept : KeptAsTyped items lo hi
  nonneg : Nonneg (results callback state (listedNumbers items lo hi))
  total_lt : total (results callback state (listedNumbers items lo hi)) < 2 ^ 31

theorem length_results (state : σ) (nums : List ℕ) : (results callback state nums).length = nums.length := by
  induction nums generalizing state with
  | nil => rfl
  | cons i rest ih => rw [results, List.length_cons, List.length_cons, ih]

theorem total_nonneg {rs : List (BitVec 32)} (h : Nonneg rs) : 0 ≤ total rs := by
  refine List.sum_nonneg fun x hx ↦ ?_
  rcases List.mem_map.mp hx with ⟨res, hres, rfl⟩
  exact h res hres

/-- The calls along a list of numbers are as they should be exactly if no result is negative and the sum fits. -/
theorem callAll_iff (nums listed : List ℕ) (state : σ) :
    (((callAll callback nums ⟨state, 0, 0, []⟩).calls.map Prod.fst = listed ∧
        (callAll callback nums ⟨state, 0, 0, []⟩).retval.toInt =
          total ((callAll callback nums ⟨state, 0, 0, []⟩).calls.map Prod.snd)) ↔
      nums = listed ∧ Nonneg (results callback state listed) ∧ total (results callback state listed) < 2 ^ 31) := by
  by_cases hnonneg : Nonneg (results callback state nums)
  · rcases callAll_of_nonneg callback nums ⟨state, 0, 0, []⟩ hnonneg with ⟨hcalls, hretval⟩
    simp only [List.nil_append, zero_add] at hcalls hretval
    rw [hcalls, hretval, List.map_fst_zip (length_results callback state nums).ge,
      List.map_snd_zip (length_results callback state nums).le]
    have hpos := total_nonneg hnonneg
    rcases toInt_sum (results callback state nums) with ⟨k, hk⟩
    have hlt := (results callback state nums).sum.toInt_lt
    have hle := (results callback state nums).sum.le_toInt
    constructor
    · rintro ⟨rfl, hsum⟩
      exact ⟨rfl, hnonneg, by omega⟩
    · rintro ⟨rfl, -, hfits⟩
      exact ⟨rfl, by omega⟩
  · rcases callAll_of_neg callback nums ⟨state, 0, 0, []⟩ hnonneg with ⟨before, res, hcalls, hneg, hretval⟩
    constructor
    · rintro ⟨-, hsum⟩
      have htotal : total (before ++ [res]) = total before + res.toInt := by simp [total]
      rcases toInt_sum before with ⟨k, hk⟩
      have hle := res.le_toInt
      rw [hcalls, hretval, zero_add] at hsum
      simp only [List.map_nil, List.nil_append] at hsum
      omega
    · rintro ⟨rfl, hnonneg', -⟩
      exact absurd hnonneg' hnonneg

/-- The loops of `process_numlist` end for every text and stay in their array; and for a list of the documented form
the calls are those for the numbers it names exactly if these are kept as they were typed, no result is negative
and the sum fits in an `int`. -/
theorem processNumlist_listed_iff (items : List Item) (lo hi : ℕ) (hhi : hi ≤ 65536) (state : σ) :
    ((∃ r, processNumlist (listText items) lo hi callback state = some r ∧ CallsListed items lo hi r) ↔
        Meets callback items lo hi state) ∧
      ∀ (numstr : CString) (lo hi : ℕ), (processNumlist numstr lo hi callback state).isSome := by
  constructor
  · rw [processNumlist_eq]
    have hiff := callAll_iff callback (numlist (listText items) lo hi) (listedNumbers items lo hi) state
    rw [numlist_listText_iff items lo hi hhi] at hiff
    constructor
    · rintro ⟨r, hr, hlisted⟩
      rcases Option.some.inj hr with rfl
      rcases hiff.mp ⟨hlisted.calls, hlisted.retval⟩ with ⟨hkept, hnonneg, htotal⟩
      exact ⟨hkept, hnonneg, htotal⟩
    · rintro ⟨hkept, hnonneg, htotal⟩
      rcases hiff.mpr ⟨hkept, hnonneg, htotal⟩ with ⟨hcalls, hretval⟩
      exact ⟨_, rfl, hcalls, hretval⟩
  · intro numstr lo hi
    rw [processNumlist_eq]
    rfl

/-- A number as `%u` prints it. -/
def Number.ofNat (n : ℕ) : Number :=
  ⟨decimal n, isDigit_of_mem_decimal.1, isDigit_of_mem_decimal.2⟩

/-- `2,4-5,9-7` names 2, 4 and 5. -/
def sampleList : List Item :=
  [⟨.ofNat 2, none⟩, ⟨.ofNat 4, some (.ofNat 5)⟩, ⟨.ofNat 9, some (.ofNat 7)⟩]

theorem processNumlist_listed_sample :
    ∃ r, processNumlist (listText sampleList) 1 10 (fun s i ↦ (1, s + i)) 0 = some r ∧
      CallsListed sampleList 1 10 r := by
  have hresults : results (fun s i ↦ (1, s + i)) 0 (listedNumbers sampleList 1 10) = [1, 1, 1] := by
    decide +kernel
  refine (processNumlist_listed_iff (fun s i ↦ (1, s + i)) sampleList 1 10 (by decide) 0).1.mpr
    ⟨keptAsTyped_of_lt 1 10 (by decide +kernel), ?_, ?_⟩
  · rw [hresults]
    intro res hres
    rw [List.eq_of_mem_replicate (n := 3) hres]
    decide
  · rw [hresults]
    decide

/-- `4294967297` names no number from 1 to 10. -/
def largeList : List Item :=
  [⟨.ofNat 4294967297, none⟩]

/-- The routine is called for 1. -/
theorem processNumlist_large :
    ¬ ∃ r, processNumlist (listText largeList) 1 10 (fun (s : Unit) _ ↦ (0, s)) () = some r ∧
      CallsListed largeList 1 10 r := by
  have hcalled : (processNumlist (listText largeList) 1 10 (fun (s : Unit) _ ↦ (0, s)) ()).map
      (fun r ↦ r.calls.map Prod.fst) = some [1] := by
    decide +kernel
  have hlisted : listedNumbers largeList 1 10 = [] := by
    decide +kernel
  rintro ⟨r, hr, hcalls, -⟩
  rw [hr, Option.map_some, hcalls, hlisted] at hcalled
  exact absurd (Option.some.inj hcalled) (by simp)

end BlitzedServices.Numlist
