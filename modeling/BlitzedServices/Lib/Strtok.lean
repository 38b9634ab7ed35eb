import BlitzedServices.Lib.CString

/-!
# Tokens

What `strtok` makes of a text that is written as delimiters and tokens: it skips delimiters, a token
ends at the first of them, and the rest of the text is kept for the next call. A text without a
delimiter is one token. `strtokCall` is the call as it stands in the source: a null pointer ends the tokens.
-/

set_option autoImplicit false
set_option relaxedAutoImplicit false

namespace BlitzedServices.Lib

section Tokens

variable {delims token rest s : CString} {c : Char}

@[simp] theorem strtok_empty (delims : CString) : strtok delims [] = none :=
  rfl

/-- A delimiter at the front is skipped. -/
theorem strtok_skip (hc : c ∈ delims) (s : CString) : strtok delims (c :: s) = strtok delims s := by
  have hdrop : (c :: s).dropWhile (· ∈ delims) = s.dropWhile (· ∈ delims) :=
    List.dropWhile_cons_of_pos (decide_eq_true hc)
  rw [strtok, strtok, hdrop]

/-- Nothing is skipped in front of a token. -/
theorem dropWhile_token (hnil : token ≠ []) (htoken : ∀ a ∈ token, a ∉ delims) (rest : CString) :
    (token ++ rest).dropWhile (· ∈ delims) = token ++ rest := by
  obtain ⟨a, tail, rfl⟩ := List.exists_cons_of_ne_nil hnil
  have ha : a ∉ delims := htoken a List.mem_cons_self
  rw [List.cons_append, List.dropWhile_cons_of_neg (by simpa using ha)]

/-- A token ends at a delimiter. -/
theorem strtok_token (hnil : token ≠ []) (htoken : ∀ a ∈ token, a ∉ delims) (hc : c ∈ delims)
    (rest : CString) : strtok delims (token ++ c :: rest) = some (token, rest) := by
  have hplain : ∀ a ∈ token, decide (a ∉ delims) = true := fun a ha ↦ decide_eq_true (htoken a ha)
  have htake : (c :: rest).takeWhile (· ∉ delims) = [] :=
    List.takeWhile_cons_of_neg (by simpa using hc)
  have hdrop : (c :: rest).dropWhile (· ∉ delims) = c :: rest :=
    List.dropWhile_cons_of_neg (by simpa using hc)
  have hne : token ++ c :: rest ≠ [] := List.append_ne_nil_of_left_ne_nil hnil _
  rw [strtok, dropWhile_token hnil htoken, if_neg hne, List.takeWhile_append_of_pos hplain,
    List.dropWhile_append_of_pos hplain, htake, hdrop, List.append_nil, List.tail_cons]

/-- A text without a delimiter is one token. -/
theorem strtok_whole (hnil : token ≠ []) (htoken : ∀ a ∈ token, a ∉ delims) :
    strtok delims token = some (token, []) := by
  have hplain : ∀ a ∈ token, decide (a ∉ delims) = true := fun a ha ↦ decide_eq_true (htoken a ha)
  have hdrop := dropWhile_token hnil htoken []
  rw [List.append_nil] at hdrop
  rw [strtok, hdrop, if_neg hnil, List.takeWhile_eq_self_iff.mpr hplain, List.dropWhile_eq_nil_iff.mpr hplain,
    List.tail_nil]

/-- What `strtok` returns is a token of the text, and the rest is shorter. -/
theorem strtok_eq_some (h : strtok delims s = some (token, rest)) :
    token ≠ [] ∧ (∀ a ∈ token, a ∉ delims) ∧ token ⊆ s ∧ rest ⊆ s ∧ token.length + rest.length ≤ s.length := by
  have hsuffix := @List.dropWhile_suffix _ s (· ∈ delims)
  have hhead (hnil : s.dropWhile (· ∈ delims) ≠ []) : (s.dropWhile (· ∈ delims)).head hnil ∉ delims := by
    simpa using List.head_dropWhile_not (· ∈ delims) hnil
  rw [strtok] at h
  generalize s.dropWhile (· ∈ delims) = t at h hsuffix hhead
  split_ifs at h with hempty
  obtain ⟨rfl, rfl⟩ := Prod.mk.inj (Option.some.inj h)
  have hfront := @List.takeWhile_prefix _ t (· ∉ delims)
  have hrest := @List.dropWhile_suffix _ t (· ∉ delims)
  have hplain : ∀ a ∈ t.takeWhile (· ∉ delims), a ∉ delims := by
    intro a ha
    simpa using List.mem_takeWhile_imp ha
  have hsplit : t.takeWhile (· ∉ delims) ++ t.dropWhile (· ∉ delims) = t := List.takeWhile_append_dropWhile
  refine ⟨?_, hplain, ?_, ?_, ?_⟩
  · obtain ⟨a, tail, rfl⟩ := List.exists_cons_of_ne_nil hempty
    have ha : a ∉ delims := hhead hempty
    simpa using ha
  · exact fun a ha ↦ hsuffix.subset (hfront.subset ha)
  · exact fun a ha ↦ hsuffix.subset (hrest.subset (List.mem_of_mem_tail ha))
  · have hlength := congrArg List.length hsplit
    have hle := hsuffix.length_le
    rw [List.length_append] at hlength
    rw [List.length_tail]
    omega

theorem length_rest_lt (h : strtok delims s = some (token, rest)) : rest.length < s.length := by
  obtain ⟨hnil, -, -, -, hlength⟩ := strtok_eq_some h
  have hpos := List.length_pos_iff.mpr hnil
  omega

end Tokens

/-! ### Calls -/

/-- A call of `strtok`: the token or a null pointer, and the text of the next call. -/
def strtokCall (delims s : CString) : Option CString × CString :=
  match strtok delims s with
  | some (token, rest) => (some token, rest)
  | none => (none, [])

/-- The pointer to a text that `strtok` skips if it is empty. -/
def partPointer (s : CString) : Option CString :=
  if s = [] then none else some s

@[simp] theorem partPointer_nil : partPointer [] = none :=
  rfl

theorem partPointer_of_ne {s : CString} (h : s ≠ []) : partPointer s = some s :=
  if_neg h

theorem strtokCall_whole {delims s : CString} (h : ∀ a ∈ s, a ∉ delims) :
    strtokCall delims s = (partPointer s, []) := by
  by_cases hs : s = []
  · rw [hs]
    rfl
  · rw [strtokCall, strtok_whole hs h, partPointer_of_ne hs]

theorem strtokCall_sep {s t : CString} {c : Char} (hs : s ≠ []) (h : c ∉ s) :
    strtokCall [c] (s ++ c :: t) = (some s, t) := by
  have htoken : ∀ a ∈ s, a ∉ [c] := fun a ha ↦ by simpa using ne_of_mem_of_not_mem ha h
  rw [strtokCall, strtok_token hs htoken List.mem_cons_self]

theorem strtokCall_unmarked {s : CString} {c : Char} (h : c ∉ s) :
    strtokCall [c] s = (partPointer s, []) :=
  strtokCall_whole fun a ha ↦ by simpa using ne_of_mem_of_not_mem ha h

theorem strtokCall_skip {s : CString} {c : Char} : strtokCall [c] (c :: s) = strtokCall [c] s := by
  rw [strtokCall, strtokCall, strtok_skip List.mem_cons_self]

end BlitzedServices.Lib
