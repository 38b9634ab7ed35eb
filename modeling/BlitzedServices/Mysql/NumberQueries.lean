import BlitzedServices.Lib.SqlSyntax
import BlitzedServices.Misc.Numlist
import BlitzedServices.Mysql.Queries

/-!
# Number lists in statements

`mysql_build_query` goes over a list in the style of `process_numlist` and adds a clause for each item to a
statement. `buildQuery_eq` says what its loop writes, and `queryAgrees_iff` for which lists the condition holds of
the same numbers that `process_numlist` calls its routine for: the one cuts a number above the maximum to it, the
other leaves it out.

The commands that take such a list send the statement without looking at it again. `executes_iff` says when it is
one: a list whose items all descend leaves the parentheses empty, and a long one does not fit into the buffer.
-/

set_option autoImplicit false
set_option relaxedAutoImplicit false

namespace BlitzedServices.NumberQueries

open Lib Lib.Separated Mysql Numlist
open ChanServ (isNumlist numlistRanges numlist)
open Lib.SqlSyntax (Name Operand Condition Statement Valid syms orAll)
open Lib.SqlText (isQuote lex lexFrom)

/-! ### mysql_build_query -/

/-- The query so far, and whether the next clause is the first. -/
structure Building where
  query : CString
  first : Bool

/-- What the loop adds for one item. -/
def addClause (escColumn : CString) (hi : ℕ) (st : Building) (range : ℕ × ℕ) : Option Building :=
  let n1 := if hi < range.1 then hi else range.1
  let n2 := if hi < range.2 then hi else range.2
  let separator := if st.first then [] else " || ".toList
  if n1 = n2 then
    let chunk := separator ++ "(".toList ++ escColumn ++ " = ".toList ++ decimal n1 ++ ")".toList
    some ⟨st.query ++ chunk.take 1023, false⟩
  else if n1 < n2 then
    let chunk := separator ++ "(".toList ++ escColumn ++ " BETWEEN ".toList ++ decimal n1 ++ " AND ".toList ++
      decimal n2 ++ ")".toList
    some ⟨st.query ++ chunk.take 1023, false⟩
  else some st

/-- The loop of `mysql_build_query`; `none` if it does not end. -/
def buildQuery (numstr base : CString) (column : Name) (hi : ℕ) : Option CString :=
  (scan (readItem readUnsigned) (addClause (SqlText.escape column.text) hi) numstr.length numstr ⟨base, true⟩).map
    (·.query)

/-- The ranges that the list has with `strtoul`. -/
def unsignedRanges (numstr : CString) : List (ℕ × ℕ) :=
  (numlistItems numstr).map (itemRange readUnsigned)

theorem escape_name (column : Name) : SqlText.escape column.text = column.text := by
  have hall := List.all_eq_true.mp column.isNameChar
  generalize column.text = text at hall ⊢
  induction text with
  | nil => rfl
  | cons c text ih =>
    have hc := hall c (List.mem_cons_self ..)
    have hplain (x : Char) (hx : SqlSyntax.isNameChar x = false) : c ≠ x := by
      rintro rfl
      exact absurd hc (by rw [hx]; decide)
    have hsame : SqlText.escapeChar c = [c] := by
      rw [SqlText.escapeChar, if_neg (hplain _ (by decide)), if_neg (hplain _ (by decide)),
        if_neg (hplain _ (by decide)), if_neg (hplain _ (by decide)), if_neg (hplain _ (by decide)),
        if_neg (hplain _ (by decide)), if_neg (hplain _ (by decide))]
    rw [SqlText.escape_cons, hsame, ih fun d hd ↦ hall d (List.mem_cons_of_mem _ hd), List.singleton_append]

/-- The length of a number in decimal. -/
def digits (n : ℕ) : ℕ :=
  (decimal n).length

/-- The length of a clause. -/
def clauseLength (column : Name) (range : ℕ × ℕ) : ℕ :=
  if range.1 = range.2 then column.text.length + digits range.1 + 5
  else column.text.length + digits range.1 + digits range.2 + 16

theorem length_rangeClause (column : Name) (range : ℕ × ℕ) :
    (rangeClause column.text range).length = clauseLength column range := by
  have hopen : "(".toList.length = 1 := rfl
  have heq : " = ".toList.length = 3 := rfl
  have hclose : ")".toList.length = 1 := rfl
  have hbetween : " BETWEEN ".toList.length = 9 := rfl
  have hand : " AND ".toList.length = 5 := rfl
  rw [rangeClause, clauseLength]
  split_ifs
  · simp only [List.length_append, hopen, heq, hclose, digits]
    omega
  · simp only [List.length_append, hopen, hbetween, hand, hclose, digits]
    omega

/-- A clause fits into its buffer. -/
theorem take_clause (column : Name) {range : ℕ × ℕ} (h : range.1 < 2 ^ 32 ∧ range.2 < 2 ^ 32) {separator : CString}
    (hseparator : separator.length ≤ 4) :
    (separator ++ rangeClause column.text range).take 1023 = separator ++ rangeClause column.text range := by
  have hcolumn := column.length_le
  have h1 : (decimal range.1).length ≤ 11 := length_decimal_le (by omega)
  have h2 : (decimal range.2).length ≤ 11 := length_decimal_le (by omega)
  refine List.take_of_length_le ?_
  rw [List.length_append, length_rangeClause, clauseLength]
  simp only [digits]
  split_ifs <;> omega

theorem readUnsigned_lt (s : CString) : readUnsigned s < 2 ^ 32 :=
  BitVec.isLt _

theorem itemRange_lt (item : CString) :
    (itemRange readUnsigned item).1 < 2 ^ 32 ∧ (itemRange readUnsigned item).2 < 2 ^ 32 := by
  simp only [itemRange, readItem]
  constructor
  · exact readUnsigned_lt _
  · split
    · split_ifs
      · exact readUnsigned_lt _
      · exact readUnsigned_lt _
    · exact readUnsigned_lt _

/-- A range cut to the maximum. -/
def cut (hi : ℕ) (range : ℕ × ℕ) : ℕ × ℕ :=
  (min range.1 hi, min range.2 hi)

/-- The ranges that do not descend, cut to the maximum. -/
def ascending (hi : ℕ) (ranges : List (ℕ × ℕ)) : List (ℕ × ℕ) :=
  (ranges.map (cut hi)).filter fun (n1, n2) ↦ n1 ≤ n2

theorem ascending_concat (hi : ℕ) (ranges : List (ℕ × ℕ)) (range : ℕ × ℕ) :
    ascending hi (ranges ++ [range]) =
      ascending hi ranges ++ if (cut hi range).1 ≤ (cut hi range).2 then [cut hi range] else [] := by
  rw [ascending, List.map_append, List.filter_append, ascending]
  congr 1
  by_cases hle : (cut hi range).1 ≤ (cut hi range).2
  · rw [if_pos hle]
    exact List.filter_cons_of_pos (by simpa using hle)
  · rw [if_neg hle]
    exact List.filter_cons_of_neg (by simpa using hle)

theorem queryRanges_eq (numstr : CString) (hi : ℕ) : queryRanges numstr hi = ascending hi (unsignedRanges numstr) := by
  rw [queryRanges, ascending, unsignedRanges, List.map_map]
  congr 1
  exact List.map_congr_left fun item _ ↦ queryRange_eq hi item

/-- The loop adds the clause of a range, and nothing for one that descends. -/
theorem addClause_eq (column : Name) (hi : ℕ) (st : Building) {range : ℕ × ℕ}
    (h : range.1 < 2 ^ 32 ∧ range.2 < 2 ^ 32) :
    addClause column.text hi st range =
      if (cut hi range).1 ≤ (cut hi range).2 then
        some ⟨st.query ++ (if st.first then [] else " || ".toList) ++ rangeClause column.text (cut hi range), false⟩
      else some st := by
  have hn1 : (if hi < range.1 then hi else range.1) = (cut hi range).1 := by
    simp only [cut]
    split_ifs <;> omega
  have hn2 : (if hi < range.2 then hi else range.2) = (cut hi range).2 := by
    simp only [cut]
    split_ifs <;> omega
  have hlt : (cut hi range).1 < 2 ^ 32 ∧ (cut hi range).2 < 2 ^ 32 := by
    simp only [cut]
    omega
  have hseparator : (if st.first then [] else " || ".toList).length ≤ 4 := by
    cases st.first <;> decide
  have hchunk := take_clause column hlt hseparator
  simp only [addClause, hn1, hn2]
  generalize (if st.first then [] else " || ".toList) = separator at hchunk ⊢
  generalize cut hi range = r at hchunk ⊢
  rw [rangeClause] at hchunk ⊢
  by_cases heq : r.1 = r.2
  · simp only [heq, if_true, le_refl] at hchunk ⊢
    simp only [List.append_assoc] at hchunk ⊢
    rw [hchunk]
  · by_cases hlt' : r.1 < r.2
    · simp only [heq, if_false, hlt', if_true, hlt'.le] at hchunk ⊢
      simp only [List.append_assoc] at hchunk ⊢
      rw [hchunk]
    · have hnot : ¬ r.1 ≤ r.2 := by omega
      simp only [heq, if_false, hlt', hnot]

theorem intercalate_concat (separator x : CString) (xs : List CString) :
    separator.intercalate (xs ++ [x]) =
      separator.intercalate xs ++ (if xs.isEmpty then [] else separator) ++ x := by
  induction xs with
  | nil => simp
  | cons y xs ih =>
    have hne : xs ++ [x] ≠ [] := by simp
    rw [List.cons_append, List.intercalate_cons_of_ne_nil hne, ih]
    cases xs with
    | nil => simp
    | cons z xs => simp [List.intercalate_cons_cons]

/-- What the loop has written after some ranges. -/
theorem foldlM_addClause (base : CString) (column : Name) (hi : ℕ) (ranges : List (ℕ × ℕ))
    (h : ∀ range ∈ ranges, range.1 < 2 ^ 32 ∧ range.2 < 2 ^ 32) :
    ranges.foldlM (addClause column.text hi) ⟨base, true⟩ =
      some ⟨base ++ " || ".toList.intercalate ((ascending hi ranges).map (rangeClause column.text)),
        (ascending hi ranges).isEmpty⟩ := by
  induction ranges using List.reverseRecOn with
  | nil => simp [ascending]
  | append_singleton ranges range ih =>
    have hranges := ih fun r hr ↦ h r (List.mem_append_left _ hr)
    have hrange := h range (List.mem_append_right _ (List.mem_singleton_self _))
    rw [List.foldlM_append, hranges]
    show (addClause column.text hi _ range).bind _ = _
    rw [addClause_eq column hi _ hrange, ascending_concat]
    generalize ascending hi ranges = kept
    by_cases hle : (cut hi range).1 ≤ (cut hi range).2
    · rw [if_pos hle, if_pos hle, List.map_append, List.map_singleton, intercalate_concat]
      cases kept with
      | nil => simp
      | cons r kept => simp
    · rw [if_neg hle, if_neg hle, List.append_nil]
      rfl

/-- The loop ends for every list, and writes a clause for each range that does not descend. -/
theorem buildQuery_eq (numstr base : CString) (column : Name) (hi : ℕ) :
    buildQuery numstr base column hi = some (mysqlBuildQuery numstr base column.text hi) := by
  have hscan := scan_eq_foldlM (fun s ↦ readItem_eq stopsAtComma_readUnsigned s) (addClause column.text hi)
    numstr.length numstr ⟨base, true⟩ le_rfl
  have hlt : ∀ range ∈ (fields ',' numstr).map (itemRange readUnsigned), range.1 < 2 ^ 32 ∧ range.2 < 2 ^ 32 := by
    intro range hrange
    rcases List.mem_map.mp hrange with ⟨item, -, rfl⟩
    exact itemRange_lt item
  rw [buildQuery, escape_name, hscan, foldlM_addClause base column hi _ hlt, Option.map_some, mysqlBuildQuery,
    queryRanges_eq, unsignedRanges, numlistItems_eq]

/-! ### The condition -/

/-- A clause. -/
def clause (column : Name) (range : ℕ × ℕ) : Condition :=
  .group <|
    if range.1 = range.2 then .equal true (.name column) (.number range.1)
    else .between (.name column) (.number range.1) (.number range.2)

/-- The condition that the list makes, if it makes one. -/
def builtCondition (numstr : CString) (column : Name) (hi : ℕ) : Option Condition :=
  match queryRanges numstr hi with
  | [] => none
  | range :: ranges => some (orAll (clause column range) (ranges.map (clause column)))

theorem tokens_clause (column : Name) (range : ℕ × ℕ) :
    syms (rangeClause column.text range) = (clause column range).tokens := by
  have hdecimal (n : ℕ) : decimal n = Nat.toDigits 10 n := by simp [decimal]
  rw [rangeClause, clause]
  split_ifs
  · simp [SqlSyntax.Condition.tokens, SqlSyntax.Operand.tokens, SqlSyntax.parens, hdecimal, syms]
  · simp [SqlSyntax.Condition.tokens, SqlSyntax.Operand.tokens, SqlSyntax.parens, hdecimal, syms]

/-- The text that is added to the statement is that of the condition. -/
theorem tokens_builtCondition (numstr : CString) (column : Name) (hi : ℕ) :
    syms (" || ".toList.intercalate ((queryRanges numstr hi).map (rangeClause column.text))) =
      (builtCondition numstr column hi).elim [] Condition.tokens := by
  rw [builtCondition]
  cases queryRanges numstr hi with
  | nil => rfl
  | cons range ranges =>
    show _ = (orAll _ _).tokens
    rw [SqlSyntax.tokens_orAll]
    induction ranges generalizing range with
    | nil => simpa using tokens_clause column range
    | cons next ranges ih =>
      rw [List.map_cons, List.map_cons, List.intercalate_cons_cons, SqlSyntax.syms_append, SqlSyntax.syms_append,
        ← List.map_cons, ih next, tokens_clause]
      simp

/-- The value of a column in the row of a number. -/
def rowValue (i : ℕ) : Operand → ℕ
  | .number k => k
  | _ => i

/-- The condition holds of a number. -/
def QueryHolds (numstr : CString) (column : Name) (hi i : ℕ) : Prop :=
  ∃ condition ∈ builtCondition numstr column hi, condition.holds (rowValue i)

theorem queryHolds_iff (numstr : CString) (column : Name) (hi i : ℕ) :
    QueryHolds numstr column hi i ↔ inRanges (queryRanges numstr hi) i := by
  have hclause (range : ℕ × ℕ) : (clause column range).holds (rowValue i) ↔ range.1 ≤ i ∧ i ≤ range.2 := by
    rw [clause]
    split_ifs with heq
    · show i = range.1 ↔ _
      omega
    · show range.1 ≤ i ∧ i ≤ range.2 ↔ _
      rfl
  rw [QueryHolds, builtCondition, inRanges_iff]
  cases queryRanges numstr hi with
  | nil => simp
  | cons range ranges =>
    simp [SqlSyntax.holds_orAll, hclause]

/-! ### The same numbers as process_numlist -/

variable {σ : Type}

/-- `process_numlist` calls the routine for a number. -/
def Called (callback : σ → ℕ → BitVec 32 × σ) (state : σ) (numstr : CString) (hi i : ℕ) : Prop :=
  ∃ r, processNumlist numstr 1 hi callback state = some r ∧ i ∈ r.calls.map Prod.fst

/-- A routine that does not stop the loop is called for the numbers of `numlist`. -/
theorem called_iff {callback : σ → ℕ → BitVec 32 × σ} (hcallback : ∀ s i, 0 ≤ (callback s i).1.toInt) (state : σ)
    (numstr : CString) (hi i : ℕ) : Called callback state numstr hi i ↔ i ∈ numlist numstr 1 hi := by
  have hnonneg : ∀ (nums : List ℕ) (s : σ), Nonneg (results callback s nums) := by
    intro nums
    induction nums with
    | nil => exact fun s res hres ↦ absurd hres (by simp [results])
    | cons j nums ih =>
      intro s res hres
      rcases List.mem_cons.mp hres with rfl | hres
      · exact hcallback s j
      · exact ih _ res hres
  have hcalls := (callAll_of_nonneg callback (numlist numstr 1 hi) ⟨state, 0, 0, []⟩ (hnonneg _ _)).1
  rw [List.nil_append] at hcalls
  have hfst : (callAll callback (numlist numstr 1 hi) ⟨state, 0, 0, []⟩).calls.map Prod.fst = numlist numstr 1 hi := by
    rw [hcalls]
    exact List.map_fst_zip (length_results callback state _).ge
  rw [Called, processNumlist_eq]
  constructor
  · rintro ⟨r, hr, hi⟩
    rcases Option.some.inj hr with rfl
    rwa [hfst] at hi
  · intro hi
    exact ⟨_, rfl, hfst.symm ▸ hi⟩

/-- Below the maximum the list names the same numbers with `strtoul` as with `strtol`; and if an item ends at the
maximum or above it, then the list, read with `strtol`, names the maximum. -/
structure ReadAlike (numstr : CString) (hi : ℕ) : Prop where
  below : ∀ i, 1 ≤ i → i < hi → (inRanges (unsignedRanges numstr) i ↔ inRanges (numlistRanges numstr) i)
  top : 1 ≤ hi → ((∃ range ∈ unsignedRanges numstr, hi ≤ range.2) ↔ inRanges (numlistRanges numstr) hi)

theorem inRanges_ascending (hi i : ℕ) (ranges : List (ℕ × ℕ)) (h : i ≤ hi) :
    inRanges (ascending hi ranges) i ↔
      if i < hi then inRanges ranges i = true else ∃ range ∈ ranges, hi ≤ range.2 := by
  have hcut : inRanges (ascending hi ranges) i ↔ ∃ range ∈ ranges, (cut hi range).1 ≤ i ∧ i ≤ (cut hi range).2 := by
    rw [inRanges_iff, ascending]
    constructor
    · rintro ⟨r, hr, hin⟩
      rcases List.mem_map.mp (List.mem_filter.mp hr).1 with ⟨range, hrange, rfl⟩
      exact ⟨range, hrange, hin⟩
    · rintro ⟨range, hrange, hin⟩
      refine ⟨cut hi range, List.mem_filter.mpr ⟨List.mem_map_of_mem hrange, ?_⟩, hin⟩
      simpa using hin.1.trans hin.2
  rw [hcut]
  split_ifs with hlt
  · rw [inRanges_iff]
    refine exists_congr fun range ↦ and_congr_right fun _ ↦ ?_
    simp only [cut]
    omega
  · refine exists_congr fun range ↦ and_congr_right fun _ ↦ ?_
    simp only [cut]
    omega

/-- The condition that `mysql_build_query` makes holds of the numbers that `process_numlist` calls a routine for
exactly if the list reads alike. -/
theorem queryAgrees_iff (numstr : CString) (column : Name) (hi : ℕ) (hhi : hi ≤ 65536)
    (callback : σ → ℕ → BitVec 32 × σ) (hcallback : ∀ s i, 0 ≤ (callback s i).1.toInt) (state : σ) :
    (∀ i, 1 ≤ i → i ≤ hi → (QueryHolds numstr column hi i ↔ Called callback state numstr hi i)) ↔
      ReadAlike numstr hi := by
  have hsides (i : ℕ) (h1 : 1 ≤ i) (hle : i ≤ hi) :
      (QueryHolds numstr column hi i ↔ Called callback state numstr hi i) ↔
        ((if i < hi then inRanges (unsignedRanges numstr) i = true else ∃ range ∈ unsignedRanges numstr, hi ≤ range.2) ↔
          inRanges (numlistRanges numstr) i) := by
    have hcalled : Called callback state numstr hi i ↔ inRanges (numlistRanges numstr) i := by
      rw [called_iff hcallback, mem_numlist]
      constructor
      · exact fun h ↦ h.2.2.2
      · exact fun h ↦ ⟨h1, hle, by omega, h⟩
    rw [queryHolds_iff, queryRanges_eq, inRanges_ascending hi i _ hle, hcalled]
  constructor
  · intro h
    refine ⟨fun i h1 hlt ↦ ?_, fun h1 ↦ ?_⟩
    · have hi := (hsides i h1 hlt.le).mp (h i h1 hlt.le)
      rwa [if_pos hlt] at hi
    · have htop := (hsides hi h1 le_rfl).mp (h hi h1 le_rfl)
      rwa [if_neg (lt_irrefl hi)] at htop
  · intro h i h1 hle
    rw [hsides i h1 hle]
    by_cases hlt : i < hi
    · rw [if_pos hlt]
      exact h.below i h1 hlt
    · have heq : i = hi := by omega
      rw [if_neg hlt, heq]
      exact h.top (by omega)

/-- A list whose numbers read the same with both conversions reads alike if an item that ends at the maximum or above
it comes with one that covers the maximum. -/
theorem readAlike_of_eq {numstr : CString} {hi : ℕ} (hsame : unsignedRanges numstr = numlistRanges numstr)
    (htop : ∀ range ∈ numlistRanges numstr, hi ≤ range.2 → inRanges (numlistRanges numstr) hi) :
    ReadAlike numstr hi := by
  rw [← hsame] at htop
  refine ⟨fun i _ _ ↦ by rw [hsame], fun _ ↦ ⟨?_, ?_⟩⟩
  · rintro ⟨range, hrange, hle⟩
    exact hsame ▸ htop range hrange hle
  · intro hin
    rcases (inRanges_iff _ _).mp hin with ⟨range, hrange, -, hle⟩
    exact ⟨range, hsame ▸ hrange, hle⟩

/-- The two conversions agree on numbers that fit in a `long`. -/
theorem readUnsigned_eq_readLong {s : CString} (h : (signedValue s).natAbs < 2 ^ 63) : readUnsigned s = readLong s := by
  have hlong : strtol s = signedValue s := by
    rw [strtol]
    omega
  have hsmall : ¬ 2 ^ 64 ≤ (signedValue s).natAbs := by omega
  rw [readUnsigned, strtoul, if_neg hsmall, readLong, hlong]
  congr 1
  apply BitVec.eq_of_toNat_eq
  rw [BitVec.toNat_setWidth, BitVec.toNat_ofInt, BitVec.toNat_ofInt]
  omega

/-- The number of a memo. -/
def idx : Name :=
  ⟨"idx".toList, by decide, by decide, by decide⟩

/-- `2,4-5,9-7` up to 10: both take 4. -/
theorem queryAgrees_sample :
    QueryHolds "2,4-5,9-7".toList idx 10 4 ↔ Called (fun (s : Unit) _ ↦ (0, s)) () "2,4-5,9-7".toList 10 4 :=
  (queryAgrees_iff "2,4-5,9-7".toList idx 10 (by decide) (fun (s : Unit) _ ↦ (0, s)) (fun _ _ ↦ le_of_eq rfl) ()).mpr
    (readAlike_of_eq (by decide +kernel) (by decide +kernel)) 4 (by decide) (by decide)

/-- `10` up to 5: the query asks for 5, and `process_numlist` calls its routine for nothing. -/
theorem queryDisagrees :
    ¬ ∀ i, 1 ≤ i → i ≤ 5 →
      (QueryHolds "10".toList idx 5 i ↔ Called (fun (s : Unit) _ ↦ (0, s)) () "10".toList 5 i) := by
  intro h
  have hquery : QueryHolds "10".toList idx 5 5 := by
    rw [queryHolds_iff]
    decide +kernel
  have hcalls : (processNumlist "10".toList 1 5 (fun (s : Unit) _ ↦ (0, s)) ()).map
      (fun r ↦ r.calls.map Prod.fst) = some [] := by
    decide +kernel
  rcases (h 5 (by decide) (by decide)).mp hquery with ⟨r, hr, hmem⟩
  rw [hr, Option.map_some] at hcalls
  rw [Option.some.inj hcalls] at hmem
  exact absurd hmem (by simp)

/-! ### The statements of the commands -/

/-- What a command puts around the clauses: the text before them in pieces, the column, and the text behind. -/
structure Frame where
  pieces : List SqlText.Piece
  column : Name
  tail : CString

/-- The text before the clauses, as `snprintf` leaves it in the buffer of the command. -/
def Frame.base (f : Frame) : CString :=
  (SqlText.render f.pieces).take 1023

/-- The text that is handed to `smysql_bulk_query` or `smysql_query`. -/
def Frame.text (f : Frame) (numstr : CString) (hi : ℕ) : CString :=
  mysqlBuildQuery numstr f.base f.column.text hi ++ f.tail

/-- `akick.idx`. -/
def akickIdx : Name :=
  ⟨"akick.idx".toList, by decide, by decide, by decide⟩

def NI_HIDE_MASK : ℕ := 0x100

/-- The SELECT before AKICK DEL, for a channel that is VERBOSE. -/
def akickSelect (channelId : BitVec 32) : Frame where
  pieces := [.sql "SELECT akick.idx, akick.mask, nick.nick, IF(nick.flags & ".toList, .sql (decimal NI_HIDE_MASK),
    .sql ", NULL, nick.last_usermask) as umask, akick.reason FROM akick LEFT JOIN nick ON ".toList,
    .sql "(akick.nick_id=nick.nick_id) WHERE channel_id=".toList, .sql (decimal channelId.toNat),
    .sql " && (".toList]
  column := akickIdx
  tail := ") ORDER BY akick.idx ASC".toList

/-- AKICK DEL. -/
def akickDelete (channelId : BitVec 32) : Frame where
  pieces := [.sql "DELETE FROM akick WHERE channel_id=".toList, .sql (decimal channelId.toNat), .sql " && (".toList]
  column := akickIdx
  tail := ")".toList

/-- NickServ ACCESS DEL. -/
def accessDelete (nickId : BitVec 32) : Frame where
  pieces := [.sql "DELETE FROM nickaccess WHERE (".toList]
  column := idx
  tail := ") && nick_id=".toList ++ decimal nickId.toNat

/-- A nick or a channel. -/
structure Owner where
  name : CString
  length_le : name.length ≤ 199

/-- MemoServ LIST. -/
def memoSelect (owner : Owner) : Frame where
  pieces := [.sql "SELECT idx, flags, time, sender, text FROM memo WHERE owner=".toList,
    .quoted (SqlText.escape owner.name) owner.name, .sql " && (".toList]
  column := idx
  tail := ") ORDER BY idx ASC".toList

/-- MemoServ READ. -/
def memoRead (owner : Owner) : Frame where
  pieces := [.sql "SELECT memo_id, idx, flags, time, sender, text, rot13 FROM memo WHERE owner=".toList,
    .quoted (SqlText.escape owner.name) owner.name, .sql " && (".toList]
  column := idx
  tail := ") ORDER BY idx ASC".toList

/-- MemoServ DEL. -/
def memoDelete (owner : Owner) : Frame where
  pieces := [.sql "DELETE FROM memo WHERE owner=".toList, .quoted (SqlText.escape owner.name) owner.name,
    .sql " && (".toList]
  column := idx
  tail := ")".toList

/-- The commands, with the maximum where it depends on the state. -/
inductive Command
  | akickDel (channelId : BitVec 32) (verbose : Bool) (csAutokickMax : BitVec 32)
  | accessDel (nickId : BitVec 32)
  | memoList (owner : Owner) (hi : BitVec 32)
  | memoRead (owner : Owner) (hi : BitVec 32)
  | memoDel (owner : Owner) (hi : BitVec 32)

/-- The texts for which a command builds a statement with `mysql_build_query`. -/
def Command.accepts (numstr : CString) : Command → Bool
  | .akickDel .. | .accessDel .. => isNumlist numstr
  | .memoList .. | .memoDel .. => numstr.head?.any Char.isDigit
  | .memoRead .. =>
    stricmp numstr "LAST".toList ≠ 0 ∧ stricmp numstr "NEW".toList ≠ 0 ∧ stricmp numstr "ALL".toList ≠ 0 ∧
      0 < (atoi numstr).toInt

/-- The statements of a command. -/
def Command.frames : Command → List Frame
  | .akickDel channelId verbose _ => (if verbose then [akickSelect channelId] else []) ++ [akickDelete channelId]
  | .accessDel nickId => [accessDelete nickId]
  | .memoList owner _ => [memoSelect owner]
  | .memoRead owner _ => [NumberQueries.memoRead owner]
  | .memoDel owner _ => [memoDelete owner]

/-- The maximum that is handed to `mysql_build_query`. -/
def Command.hi : Command → ℕ
  | .akickDel _ _ csAutokickMax => csAutokickMax.toNat
  | .accessDel _ => 2 ^ 32 - 1
  | .memoList _ hi | .memoRead _ hi | .memoDel _ hi => hi.toNat

/-- The text fits into the buffer of 4096 bytes, and what the server gets is a statement. -/
def Executes (text : CString) : Prop :=
  text.length ≤ 4095 ∧ Valid (text.take 4095)

/-- The length of the clauses. -/
def clausesLength (column : Name) (ranges : List (ℕ × ℕ)) : ℕ :=
  (ranges.map (clauseLength column)).sum + 4 * (ranges.length - 1)

theorem length_intercalate (column : Name) (ranges : List (ℕ × ℕ)) :
    (" || ".toList.intercalate (ranges.map (rangeClause column.text))).length = clausesLength column ranges := by
  have hseparator : " || ".toList.length = 4 := rfl
  induction ranges with
  | nil => rfl
  | cons range ranges ih =>
    cases ranges with
    | nil => simp [clausesLength, length_rangeClause]
    | cons next ranges =>
      rw [List.map_cons, List.map_cons, List.intercalate_cons_cons, List.length_append, List.length_append, hseparator,
        length_rangeClause, ← List.map_cons, ih]
      simp only [clausesLength, List.map_cons, List.sum_cons, List.length_cons]
      omega

/-- A frame that a condition completes to a statement. -/
structure Frame.Frames (f : Frame) : Prop where
  fits : (SqlText.render f.pieces).length ≤ 1023
  sound : ∀ s : CString, s.head? ≠ some '\'' → SqlText.Sound s f.pieces
  opens : (SqlText.intended f.pieces).getLast? = some (.sym '(')
  closes : f.tail.head? = some ')'
  plain : ∀ c ∈ f.tail, isQuote c = false
  statement : ∀ condition : Condition, ∃ stmt : Statement,
    stmt.tokens = SqlText.intended f.pieces ++ condition.tokens ++ syms f.tail

theorem isQuote_name (n : Name) : ∀ c ∈ n.text, isQuote c = false := by
  intro c hc
  have hname := List.all_eq_true.mp n.isNameChar c hc
  by_contra hquote
  simp only [isQuote, Bool.not_eq_false, Bool.or_eq_true, beq_iff_eq] at hquote
  rcases hquote with rfl | rfl <;> exact absurd hname (by decide)

theorem isQuote_rangeClause (column : Name) (range : ℕ × ℕ) :
    ∀ c ∈ rangeClause column.text range, isQuote c = false := by
  have hopen : ∀ c ∈ "(".toList, isQuote c = false := by simp [isQuote]
  have heq : ∀ c ∈ " = ".toList, isQuote c = false := by simp [isQuote]
  have hclose : ∀ c ∈ ")".toList, isQuote c = false := by simp [isQuote]
  have hbetween : ∀ c ∈ " BETWEEN ".toList, isQuote c = false := by simp [isQuote]
  have hand : ∀ c ∈ " AND ".toList, isQuote c = false := by simp [isQuote]
  rw [rangeClause]
  split_ifs
  · simp only [List.forall_mem_append]
    exact ⟨⟨⟨⟨hopen, isQuote_name column⟩, heq⟩, isQuote_decimal _⟩, hclose⟩
  · simp only [List.forall_mem_append]
    exact ⟨⟨⟨⟨⟨⟨hopen, isQuote_name column⟩, hbetween⟩, isQuote_decimal _⟩, hand⟩, isQuote_decimal _⟩, hclose⟩

theorem isQuote_clauses (column : Name) (ranges : List (ℕ × ℕ)) :
    ∀ c ∈ " || ".toList.intercalate (ranges.map (rangeClause column.text)), isQuote c = false := by
  have hor : ∀ c ∈ " || ".toList, isQuote c = false := by simp [isQuote]
  induction ranges with
  | nil => simp
  | cons range ranges ih =>
    cases ranges with
    | nil => simpa using isQuote_rangeClause column range
    | cons next ranges =>
      rw [List.map_cons, List.map_cons, List.intercalate_cons_cons, ← List.map_cons]
      simp only [List.forall_mem_append]
      exact ⟨⟨isQuote_rangeClause column range, hor⟩, ih⟩

section Frames

variable {f : Frame} (h : f.Frames) (numstr : CString) (hi : ℕ)
include h

theorem Frame.Frames.base_eq : f.base = SqlText.render f.pieces :=
  List.take_of_length_le h.fits

/-- The tokens of the text of a command. -/
theorem Frame.Frames.lex_text : lex (f.text numstr hi) =
    some (SqlText.intended f.pieces ++ (builtCondition numstr f.column hi).elim [] Condition.tokens ++ syms f.tail) := by
  have hplain : ∀ c ∈ " || ".toList.intercalate ((queryRanges numstr hi).map (rangeClause f.column.text)) ++ f.tail,
      isQuote c = false := List.forall_mem_append.mpr ⟨isQuote_clauses f.column _, h.plain⟩
  rw [Frame.text, h.base_eq, mysqlBuildQuery, List.append_assoc, ← tokens_builtCondition]
  generalize " || ".toList.intercalate ((queryRanges numstr hi).map (rangeClause f.column.text)) = clauses at hplain ⊢
  have hhead : (clauses ++ f.tail).head? ≠ some '\'' := by
    intro hquote
    exact absurd (hplain _ (List.mem_of_head? hquote)) (by decide)
  have hrest := SqlText.lexFrom_plain_append hplain []
  rw [List.append_nil] at hrest
  rw [lex, SqlText.lexFrom_render (h.sound _ hhead), hrest]
  simp [lexFrom, syms]

theorem Frame.Frames.length_text : (f.text numstr hi).length =
    (SqlText.render f.pieces).length + clausesLength f.column (queryRanges numstr hi) + f.tail.length := by
  rw [Frame.text, h.base_eq, mysqlBuildQuery, List.length_append, List.length_append, length_intercalate]

/-- A command's text executes if there is a clause and the text fits. -/
theorem Frame.Frames.executes_iff : Executes (f.text numstr hi) ↔
    (∃ range ∈ unsignedRanges numstr, min range.1 hi ≤ range.2) ∧
      (SqlText.render f.pieces).length + clausesLength f.column (queryRanges numstr hi) + f.tail.length ≤ 4095 := by
  have hranges : (∃ range ∈ unsignedRanges numstr, min range.1 hi ≤ range.2) ↔ queryRanges numstr hi ≠ [] := by
    rw [queryRanges_eq, ascending, Ne, List.filter_eq_nil_iff]
    simp only [List.mem_map, forall_exists_index, and_imp, forall_apply_eq_imp_iff₂, not_forall, decide_eq_true_eq,
      not_not, exists_prop, cut]
    refine exists_congr fun range ↦ and_congr_right fun _ ↦ ?_
    omega
  have hlex := h.lex_text numstr hi
  rw [hranges, ← h.length_text numstr hi]
  constructor
  · rintro ⟨hfits, hvalid⟩
    refine ⟨fun hnil ↦ ?_, hfits⟩
    rcases List.getLast?_eq_some_iff.mp h.opens with ⟨pre, hpre⟩
    cases htail : f.tail with
    | nil => exact absurd h.closes (by simp [htail])
    | cons c post =>
      have hc : c = ')' := by simpa [htail] using h.closes
      rw [builtCondition, hnil, hpre, htail, hc] at hlex
      rw [List.take_of_length_le hfits] at hvalid
      refine SqlSyntax.Valid.follows pre (syms post) ?_ hvalid
      simpa [syms] using hlex
  · rintro ⟨hne, hfits⟩
    refine ⟨hfits, ?_⟩
    rw [List.take_of_length_le hfits]
    cases hrange : queryRanges numstr hi with
    | nil => exact absurd hrange hne
    | cons range ranges =>
      rcases h.statement (orAll (clause f.column range) (ranges.map (clause f.column))) with ⟨stmt, hstmt⟩
      refine ⟨stmt, ?_⟩
      rw [hlex, builtCondition, hrange, hstmt]
      rfl

end Frames

/-! ### The frames -/

theorem decimal_natCast (n : ℕ) : decimal n = Nat.toDigits 10 n := by
  simp [decimal]

theorem length_render_le {ps : List SqlText.Piece} (bounds : List ℕ)
    (h : List.Forall₂ (fun p n ↦ p.text.length ≤ n) ps bounds) : (SqlText.render ps).length ≤ bounds.sum := by
  induction h with
  | nil => exact le_rfl
  | cons hp _ ih =>
    rw [SqlText.render_cons, List.length_append, List.sum_cons]
    omega

/-- Text without quotes. -/
theorem plain_of_all {s : CString} (h : s.all fun c ↦ !isQuote c) : ∀ c ∈ s, isQuote c = false := by
  intro c hc
  simpa using List.all_eq_true.mp h c hc

/-- The end of a text before the clauses. -/
theorem syms_open : syms " && (".toList = syms " && ".toList ++ [.sym '('] :=
  rfl

theorem opens_of_append {pieces : List SqlText.Piece} (h : ∃ pre, pieces = pre ++ [.sql " && (".toList]) :
    (SqlText.intended pieces).getLast? = some (.sym '(') := by
  rcases h with ⟨pre, rfl⟩
  have happend : SqlText.intended (pre ++ [.sql " && (".toList]) = SqlText.intended pre ++ syms " && (".toList := by
    rw [SqlText.intended, List.flatMap_append]
    rfl
  rw [happend, syms_open, ← List.append_assoc, List.getLast?_concat]

/-- The names of the schema. -/
def channelId : Name := ⟨"channel_id".toList, by decide, by decide, by decide⟩
def nickId : Name := ⟨"nick_id".toList, by decide, by decide, by decide⟩
def owner : Name := ⟨"owner".toList, by decide, by decide, by decide⟩
def akick : Name := ⟨"akick".toList, by decide, by decide, by decide⟩
def nickaccess : Name := ⟨"nickaccess".toList, by decide, by decide, by decide⟩
def memo : Name := ⟨"memo".toList, by decide, by decide, by decide⟩

theorem frames_akickDelete (id : BitVec 32) : (akickDelete id).Frames where
  fits := by
    have hid : (decimal id.toNat).length ≤ 11 := length_uint_le id
    refine (length_render_le [100, 11, 5] ?_).trans (by decide)
    exact .cons (by decide) (.cons hid (.cons (by decide) .nil))
  sound _ _ := ⟨plain_of_all (by decide), isQuote_decimal _, plain_of_all (by decide), trivial⟩
  opens := opens_of_append ⟨[_, _], rfl⟩
  closes := rfl
  plain := by
    show ∀ c ∈ ")".toList, isQuote c = false
    exact plain_of_all (by decide)
  statement condition := by
    have hhead : syms "DELETE FROM akick WHERE channel_id=".toList =
        syms "DELETE FROM ".toList ++ (syms akick.text ++ (syms " WHERE ".toList ++
          (syms channelId.text ++ syms "=".toList))) := rfl
    refine ⟨.delete akick (.and (.equal false (.name channelId) (.number id.toNat)) (.group condition)), ?_⟩
    show _ = syms _ ++ (syms _ ++ (syms _ ++ [])) ++ _ ++ [.sym ')']
    rw [hhead, syms_open]
    simp only [Statement.tokens, Condition.tokens, Operand.tokens, SqlSyntax.parens, decimal_natCast, List.append_assoc,
      List.append_nil, -String.reduceToList, if_false, Bool.false_eq_true, List.cons_append, List.nil_append]

theorem frames_akickSelect (id : BitVec 32) : (akickSelect id).Frames where
  fits := by
    have hid : (decimal id.toNat).length ≤ 11 := length_uint_le id
    refine (length_render_le [100, 11, 100, 100, 11, 5] ?_).trans (by decide)
    exact .cons (by decide) (.cons (by decide) (.cons (by decide) (.cons (by decide) (.cons hid (.cons (by decide) .nil)))))
  sound _ _ := ⟨plain_of_all (by decide), isQuote_decimal _, plain_of_all (by decide), plain_of_all (by decide),
    isQuote_decimal _, plain_of_all (by decide), trivial⟩
  opens := opens_of_append ⟨[_, _, _, _, _], rfl⟩
  closes := rfl
  plain := by
    show ∀ c ∈ ") ORDER BY akick.idx ASC".toList, isQuote c = false
    exact plain_of_all (by decide)
  statement condition := by
    let columns : List SqlSyntax.Column :=
      [.name ⟨"akick.mask".toList, by decide, by decide, by decide⟩,
        .name ⟨"nick.nick".toList, by decide, by decide, by decide⟩,
        .nullIf ⟨"nick.flags".toList, by decide, by decide, by decide⟩ NI_HIDE_MASK
          ⟨"nick.last_usermask".toList, by decide, by decide, by decide⟩
          ⟨"umask".toList, by decide, by decide, by decide⟩,
        .name ⟨"akick.reason".toList, by decide, by decide, by decide⟩]
    let table : SqlSyntax.Table := .leftJoin akick ⟨"nick".toList, by decide, by decide, by decide⟩
      (.equal false (.name ⟨"akick.nick_id".toList, by decide, by decide, by decide⟩)
        (.name ⟨"nick.nick_id".toList, by decide, by decide, by decide⟩))
    have hhead : syms "SELECT akick.idx, akick.mask, nick.nick, IF(nick.flags & ".toList ++ (syms (decimal NI_HIDE_MASK) ++
        (syms ", NULL, nick.last_usermask) as umask, akick.reason FROM akick LEFT JOIN nick ON ".toList ++
          syms "(akick.nick_id=nick.nick_id) WHERE channel_id=".toList)) =
        syms "SELECT ".toList ++ syms akickIdx.text ++ columns.flatMap (fun c ↦ syms ", ".toList ++ c.tokens) ++
          syms " FROM ".toList ++ table.tokens ++ syms " WHERE ".toList ++ syms channelId.text ++ syms "=".toList := by
      decide +kernel
    have htail : syms ") ORDER BY akick.idx ASC".toList =
        .sym ')' :: (syms " ORDER BY ".toList ++ (syms akickIdx.text ++ syms " ASC".toList)) := rfl
    refine ⟨.select (.name akickIdx) columns table
      (.and (.equal false (.name channelId) (.number id.toNat)) (.group condition)) (some akickIdx), ?_⟩
    show _ = syms _ ++ (syms _ ++ (syms _ ++ (syms _ ++ (syms _ ++ (syms _ ++ []))))) ++ _ ++
      syms ") ORDER BY akick.idx ASC".toList
    have hassoc : ∀ a b c d e : List SqlText.Token, a ++ (b ++ (c ++ (d ++ e))) = (a ++ (b ++ (c ++ d))) ++ e := by
      intro a b c d e
      simp only [List.append_assoc]
    rw [htail, syms_open, hassoc, hhead]
    simp only [Statement.tokens, SqlSyntax.Column.tokens, Condition.tokens, Operand.tokens, SqlSyntax.parens,
      decimal_natCast, List.append_assoc, List.append_nil, -String.reduceToList, if_false, Bool.false_eq_true,
      List.cons_append, List.nil_append, Option.elim_some]

theorem frames_accessDelete (id : BitVec 32) : (accessDelete id).Frames where
  fits := by
    refine (length_render_le [100] ?_).trans (by decide)
    exact .cons (by decide) .nil
  sound _ _ := ⟨plain_of_all (by decide), trivial⟩
  opens := by
    show (syms "DELETE FROM nickaccess WHERE (".toList ++ []).getLast? = some (.sym '(')
    rfl
  closes := rfl
  plain := List.forall_mem_append.mpr ⟨plain_of_all (by decide), isQuote_decimal _⟩
  statement condition := by
    have hhead : syms "DELETE FROM nickaccess WHERE (".toList =
        syms "DELETE FROM ".toList ++ (syms nickaccess.text ++ (syms " WHERE ".toList ++ [.sym '('])) := rfl
    have htail : syms ") && nick_id=".toList =
        .sym ')' :: (syms " && ".toList ++ (syms nickId.text ++ syms "=".toList)) := rfl
    refine ⟨.delete nickaccess (.and (.group condition) (.equal false (.name nickId) (.number id.toNat))), ?_⟩
    show _ = syms _ ++ [] ++ _ ++ syms (") && nick_id=".toList ++ decimal id.toNat)
    rw [SqlSyntax.syms_append, hhead, htail]
    simp only [Statement.tokens, Condition.tokens, Operand.tokens, SqlSyntax.parens, decimal_natCast, List.append_assoc,
      List.append_nil, -String.reduceToList, if_false, Bool.false_eq_true, List.cons_append, List.nil_append]

theorem length_owner_le (o : Owner) : (SqlText.Piece.quoted (SqlText.escape o.name) o.name).text.length ≤ 400 := by
  have hname := o.length_le
  have hescape := SqlText.length_escape_le o.name
  rw [SqlText.Piece.text, List.length_cons, List.length_append, List.length_singleton]
  omega

theorem frames_memoDelete (o : Owner) : (memoDelete o).Frames where
  fits := by
    refine (length_render_le [100, 400, 5] ?_).trans (by decide)
    exact .cons (by decide) (.cons (length_owner_le o) (.cons (by decide) .nil))
  sound _ _ := ⟨plain_of_all (by decide), SqlText.decodes_escape _, by simp [SqlText.Piece.text],
    plain_of_all (by decide), trivial⟩
  opens := opens_of_append ⟨[_, _], rfl⟩
  closes := rfl
  plain := by
    show ∀ c ∈ ")".toList, isQuote c = false
    exact plain_of_all (by decide)
  statement condition := by
    have hhead : syms "DELETE FROM memo WHERE owner=".toList =
        syms "DELETE FROM ".toList ++ (syms memo.text ++ (syms " WHERE ".toList ++
          (syms owner.text ++ syms "=".toList))) := rfl
    refine ⟨.delete memo (.and (.equal false (.name owner) (.literal o.name)) (.group condition)), ?_⟩
    show _ = syms _ ++ ([.lit o.name] ++ (syms _ ++ [])) ++ _ ++ [.sym ')']
    rw [hhead, syms_open]
    simp only [Statement.tokens, Condition.tokens, Operand.tokens, SqlSyntax.parens, List.append_assoc,
      List.append_nil, -String.reduceToList, if_false, Bool.false_eq_true, List.cons_append, List.nil_append]

/-- A SELECT of memos, whatever it selects of them. -/
theorem frames_memos (o : Owner) {head : CString} (column : SqlSyntax.Column) (columns : List SqlSyntax.Column)
    (hfits : head.length ≤ 100) (hplain : head.all fun c ↦ !isQuote c)
    (hhead : syms head = syms "SELECT ".toList ++ column.tokens ++
      columns.flatMap (fun c ↦ syms ", ".toList ++ c.tokens) ++ syms " FROM ".toList ++ syms memo.text ++
      syms " WHERE ".toList ++ syms owner.text ++ syms "=".toList) :
    Frame.Frames ⟨[.sql head, .quoted (SqlText.escape o.name) o.name, .sql " && (".toList], idx,
      ") ORDER BY idx ASC".toList⟩ where
  fits := by
    refine (length_render_le [100, 400, 5] ?_).trans (by decide)
    exact .cons hfits (.cons (length_owner_le o) (.cons (by decide) .nil))
  sound _ _ := ⟨plain_of_all hplain, SqlText.decodes_escape _, by simp [SqlText.Piece.text],
    plain_of_all (by decide), trivial⟩
  opens := opens_of_append ⟨[_, _], rfl⟩
  closes := rfl
  plain := by
    show ∀ c ∈ ") ORDER BY idx ASC".toList, isQuote c = false
    exact plain_of_all (by decide)
  statement condition := by
    have htail : syms ") ORDER BY idx ASC".toList =
        .sym ')' :: (syms " ORDER BY ".toList ++ (syms idx.text ++ syms " ASC".toList)) := rfl
    refine ⟨.select column columns (.name memo) (.and (.equal false (.name owner) (.literal o.name)) (.group condition))
      (some idx), ?_⟩
    show _ = syms head ++ ([.lit o.name] ++ (syms _ ++ [])) ++ _ ++ syms ") ORDER BY idx ASC".toList
    rw [hhead, htail, syms_open]
    simp only [Statement.tokens, SqlSyntax.Table.tokens, Condition.tokens, Operand.tokens, SqlSyntax.parens,
      List.append_assoc, List.append_nil, -String.reduceToList, if_false, Bool.false_eq_true, List.cons_append,
      List.nil_append, Option.elim_some]

theorem frames_memoSelect (o : Owner) : (memoSelect o).Frames :=
  frames_memos o (.name idx)
    [.name ⟨"flags".toList, by decide, by decide, by decide⟩, .name ⟨"time".toList, by decide, by decide, by decide⟩,
      .name ⟨"sender".toList, by decide, by decide, by decide⟩, .name ⟨"text".toList, by decide, by decide, by decide⟩]
    (by decide) (by decide) (by decide +kernel)

theorem frames_memoRead (o : Owner) : (memoRead o).Frames :=
  frames_memos o (.name ⟨"memo_id".toList, by decide, by decide, by decide⟩)
    [.name idx, .name ⟨"flags".toList, by decide, by decide, by decide⟩,
      .name ⟨"time".toList, by decide, by decide, by decide⟩, .name ⟨"sender".toList, by decide, by decide, by decide⟩,
      .name ⟨"text".toList, by decide, by decide, by decide⟩, .name ⟨"rot13".toList, by decide, by decide, by decide⟩]
    (by decide) (by decide) (by decide +kernel)

theorem Command.frames_frames (cmd : Command) : ∀ f ∈ cmd.frames, f.Frames := by
  intro f hf
  cases cmd with
  | akickDel id verbose csAutokickMax =>
    rcases List.mem_append.mp hf with hf | hf
    · cases verbose with
      | false => exact absurd hf (by simp)
      | true => exact List.mem_singleton.mp hf ▸ frames_akickSelect id
    · exact List.mem_singleton.mp hf ▸ frames_akickDelete id
  | accessDel id => exact List.mem_singleton.mp hf ▸ frames_accessDelete id
  | memoList o hi => exact List.mem_singleton.mp hf ▸ frames_memoSelect o
  | memoRead o hi => exact List.mem_singleton.mp hf ▸ frames_memoRead o
  | memoDel o hi => exact List.mem_singleton.mp hf ▸ frames_memoDelete o

/-- Every statement that a command builds with `mysql_build_query` executes. -/
def Command.Safe (cmd : Command) (numstr : CString) : Prop :=
  cmd.accepts numstr → ∀ f ∈ cmd.frames, ∀ query, buildQuery numstr f.base f.column cmd.hi = some query →
    Executes (query ++ f.tail)

/-- Some item does not descend, once its first number is cut to the maximum, and the text of each statement fits: what
is written around the clauses, and the clauses with the four characters between two of them. -/
def Command.Fits (cmd : Command) (numstr : CString) : Prop :=
  cmd.accepts numstr → (∃ range ∈ unsignedRanges numstr, min range.1 cmd.hi ≤ range.2) ∧
    ∀ f ∈ cmd.frames, (SqlText.render f.pieces).length + clausesLength f.column (queryRanges numstr cmd.hi) +
      f.tail.length ≤ 4095

theorem safe_iff (cmd : Command) (numstr : CString) : cmd.Safe numstr ↔ cmd.Fits numstr := by
  refine imp_congr_right fun _ ↦ ?_
  have hone (f : Frame) (hf : f ∈ cmd.frames) :
      (∀ query, buildQuery numstr f.base f.column cmd.hi = some query → Executes (query ++ f.tail)) ↔
        (∃ range ∈ unsignedRanges numstr, min range.1 cmd.hi ≤ range.2) ∧
          (SqlText.render f.pieces).length + clausesLength f.column (queryRanges numstr cmd.hi) + f.tail.length ≤
            4095 := by
    rw [← (cmd.frames_frames f hf).executes_iff numstr cmd.hi, buildQuery_eq]
    constructor
    · exact fun h ↦ h _ rfl
    · rintro h query hquery
      rcases Option.some.inj hquery with rfl
      exact h
  constructor
  · intro h
    have hfirst : ∃ f, f ∈ cmd.frames := by
      cases cmd with
      | akickDel id verbose csAutokickMax => exact ⟨akickDelete id, List.mem_append_right _ (List.mem_singleton_self _)⟩
      | accessDel id => exact ⟨_, List.mem_singleton_self _⟩
      | memoList o hi => exact ⟨_, List.mem_singleton_self _⟩
      | memoRead o hi => exact ⟨_, List.mem_singleton_self _⟩
      | memoDel o hi => exact ⟨_, List.mem_singleton_self _⟩
    rcases hfirst with ⟨f, hf⟩
    exact ⟨((hone f hf).mp (h f hf)).1, fun f hf ↦ ((hone f hf).mp (h f hf)).2⟩
  · rintro ⟨hrange, hfits⟩ f hf
    exact (hone f hf).mpr ⟨hrange, hfits f hf⟩

/-- ACCESS DEL `5-2` sends `DELETE FROM nickaccess WHERE () && nick_id=7`. -/
theorem access_unsafe : ¬ (Command.accessDel 7).Safe "5-2".toList := by
  intro h
  have hsent := h (by decide +kernel) (accessDelete 7) (List.mem_singleton_self _) _ (buildQuery_eq ..)
  have hnone : ¬ ∃ range ∈ unsignedRanges "5-2".toList, min range.1 (2 ^ 32 - 1) ≤ range.2 := by
    decide +kernel
  exact hnone (((frames_accessDelete 7).executes_iff "5-2".toList (2 ^ 32 - 1)).mp hsent).1

end BlitzedServices.NumberQueries
