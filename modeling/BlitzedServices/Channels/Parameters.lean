import BlitzedServices.Channels.Cmode

/-!
# The parameters of a MODE line

`do_cmode` counts the parameters down with `ac` and walks along them with `av`, each in the branch of a letter.
`Aligned` says of a line that the letters which take a parameter get the parameters in their order, one each.
`aligned_iff` says when it is so: `-k` counts its parameter, but leaves the pointer on it, so that the next letter
gets the key.
-/

set_option autoImplicit false
set_option relaxedAutoImplicit false

namespace BlitzedServices.Channels

open Lib

/-- The letter takes a parameter under the sign. -/
def hasParam (add : Bool) (modechar : Char) : Bool :=
  modechar == 'b' || modechar == 'o' || modechar == 'v' || modechar == 'k' || (modechar == 'l' && add)

/-- The sign behind some letters, and how many of them take a parameter. -/
structure Seen where
  add : Bool
  taking : ℕ

/-- One more letter. -/
def Seen.letter (seen : Seen) (modechar : Char) : Seen :=
  if modechar = '+' then { seen with add := true }
  else if modechar = '-' then { seen with add := false }
  else { seen with taking := seen.taking + (hasParam seen.add modechar).toNat }

/-- What the front of a line comes to. -/
def seenIn (front : CString) : Seen :=
  front.foldl .letter ⟨true, 0⟩

section Line

variable (env : CmodeEnv) (source : CString) (chan : Channel) (params : List CString)

/-- The variables of the loop behind the front of a line. -/
def stateBehind (front : CString) : CmodeState :=
  front.foldl (cmodeStep env source) ⟨chan, true, params.length, params⟩

/-- The letter is handled with this parameter, as it is when it stands alone with it, and the loop moves on to the
parameters behind it. -/
structure Takes (st : CmodeState) (modechar : Char) (param : CString) (rest : List CString) : Prop where
  given : st.av = param :: rest
  chan : (cmodeStep env source st modechar).chan =
    (cmodeStep env source ⟨st.chan, st.add, 1, [param]⟩ modechar).chan
  moved : (cmodeStep env source st modechar).av = rest

/-- The letter is skipped. -/
structure Skips (st : CmodeState) (modechar : Char) : Prop where
  chan : (cmodeStep env source st modechar).chan = st.chan
  moved : (cmodeStep env source st modechar).av = st.av

/-- Each letter that takes a parameter takes the one that is its own, or is skipped when there is none. -/
def Aligned (modestr : CString) : Prop :=
  ∀ front modechar rest, modestr = front ++ modechar :: rest → hasParam (seenIn front).add modechar →
    match params.drop (seenIn front).taking with
    | param :: left => Takes env source (stateBehind env source chan params front) modechar param left
    | [] => Skips env source (stateBehind env source chan params front) modechar

/-- Whenever a letter reads a parameter there is one: the count is not past the end. -/
def InBounds (modestr : CString) : Prop :=
  ∀ front modechar rest, modestr = front ++ modechar :: rest → hasParam (seenIn front).add modechar →
    0 ≤ (stateBehind env source chan params front).spend.ac → (stateBehind env source chan params front).av ≠ []

/-- No `-k` while a parameter is left. -/
def NoMinusKey (modestr : CString) : Prop :=
  ∀ front rest, modestr = front ++ 'k' :: rest → (seenIn front).add = false → params.length ≤ (seenIn front).taking

end Line

/-! ### One letter -/

/-- A branch that takes a parameter: it counts one, does nothing when there is none, and else does what it does
with that parameter alone. `moves` says whether it moves on to the next. -/
structure Consumes (branch : CmodeState → CmodeState) (moves : Bool) (st : CmodeState) : Prop where
  add : (branch st).add = st.add
  ac : (branch st).ac = st.ac - 1
  skipped : st.ac ≤ 0 → (branch st).chan = st.chan ∧ (branch st).av = st.av
  taken : 0 < st.ac → (branch st).chan = (branch ⟨st.chan, st.add, 1, [st.av.headD []]⟩).chan ∧
    (branch st).av = if moves then st.av.tail else st.av

theorem consumes_setKey (st : CmodeState) : Consumes CmodeState.setKey st.add st := by
  rcases st with ⟨chan, add, ac, av⟩
  by_cases hac : ac - 1 < 0
  · have hnone : ¬ 0 < ac := by omega
    constructor <;> simp [CmodeState.setKey, CmodeState.spend, hac, hnone]
  · have hsome : ¬ ac ≤ 0 := by omega
    cases add <;> constructor <;> simp [CmodeState.setKey, CmodeState.spend, hac, hsome]

theorem consumes_setLimit {st : CmodeState} (hadd : st.add = true) : Consumes CmodeState.setLimit true st := by
  rcases st with ⟨chan, add, ac, av⟩
  rcases hadd with rfl
  by_cases hac : ac - 1 < 0
  · have hnone : ¬ 0 < ac := by omega
    constructor <;> simp [CmodeState.setLimit, CmodeState.spend, hac, hnone]
  · have hsome : ¬ ac ≤ 0 := by omega
    constructor <;> simp [CmodeState.setLimit, CmodeState.spend, hac, hsome]

theorem consumes_setBan (st : CmodeState) : Consumes CmodeState.setBan true st := by
  rcases st with ⟨chan, add, ac, av⟩
  by_cases hac : ac - 1 < 0
  · have hnone : ¬ 0 < ac := by omega
    constructor <;> simp [CmodeState.setBan, CmodeState.spend, hac, hnone]
  · have hsome : ¬ ac ≤ 0 := by omega
    constructor <;> simp [CmodeState.setBan, CmodeState.spend, hac, hsome]

theorem consumes_setOp (env : CmodeEnv) (source : CString) (st : CmodeState) :
    Consumes (fun st ↦ st.setOp env source) true st := by
  rcases st with ⟨chan, add, ac, av⟩
  by_cases hac : ac - 1 < 0
  · have hnone : ¬ 0 < ac := by omega
    constructor <;> simp [CmodeState.setOp, CmodeState.spend, hac, hnone]
  · have hsome : ¬ ac ≤ 0 := by omega
    cases hlisted : env.listed (av.headD []) chan.chanops with
    | some user =>
      cases add <;> constructor <;>
        simp [CmodeState.setOp, CmodeState.spend, hac, hsome, hlisted, -List.headD_eq_head?_getD]
    | none =>
      cases hfound : env.finduser (av.headD []) with
      | none =>
        cases add <;> constructor <;>
          simp [CmodeState.setOp, CmodeState.spend, hac, hsome, hlisted, hfound, -List.headD_eq_head?_getD]
      | some user =>
        cases hvalid : env.checkValidOp user (source.contains '.') <;> cases add <;> constructor <;>
          simp [CmodeState.setOp, CmodeState.spend, hac, hsome, hlisted, hfound, hvalid, -List.headD_eq_head?_getD,
            -List.contains_eq_mem]

theorem consumes_setVoice (env : CmodeEnv) (st : CmodeState) : Consumes (fun st ↦ st.setVoice env) true st := by
  rcases st with ⟨chan, add, ac, av⟩
  by_cases hac : ac - 1 < 0
  · have hnone : ¬ 0 < ac := by omega
    constructor <;> simp [CmodeState.setVoice, CmodeState.spend, hac, hnone]
  · have hsome : ¬ ac ≤ 0 := by omega
    cases hlisted : env.listed (av.headD []) chan.voices with
    | some user =>
      cases add <;> constructor <;>
        simp [CmodeState.setVoice, CmodeState.spend, hac, hsome, hlisted, -List.headD_eq_head?_getD]
    | none =>
      cases hfound : env.finduser (av.headD []) with
      | none =>
        cases add <;> constructor <;>
          simp [CmodeState.setVoice, CmodeState.spend, hac, hsome, hlisted, hfound, -List.headD_eq_head?_getD]
      | some user =>
        cases add <;> constructor <;>
          simp [CmodeState.setVoice, CmodeState.spend, hac, hsome, hlisted, hfound, -List.headD_eq_head?_getD]

section Letter

variable (env : CmodeEnv) (source : CString)

/-- A letter that takes a parameter moves on to the next, but for `-k`. -/
theorem consumes_cmodeStep {modechar : Char} {add : Bool} (htakes : hasParam add modechar) {st : CmodeState}
    (hadd : st.add = add) :
    Consumes (fun st ↦ cmodeStep env source st modechar) (modechar != 'k' || add) st := by
  simp only [hasParam, Bool.or_eq_true, Bool.and_eq_true, beq_iff_eq] at htakes
  rcases htakes with (((rfl | rfl) | rfl) | rfl) | ⟨rfl, hl⟩
  · exact consumes_setBan st
  · exact consumes_setOp env source st
  · exact consumes_setVoice env st
  · rcases hadd with rfl
    exact consumes_setKey st
  · exact consumes_setLimit (hadd.trans hl)

theorem setFlag_frame (st : CmodeState) (flag : BitVec 32) :
    (st.setFlag flag).add = st.add ∧ (st.setFlag flag).ac = st.ac ∧ (st.setFlag flag).av = st.av :=
  ⟨rfl, rfl, rfl⟩

/-- Another letter leaves the parameters as they are. -/
theorem cmodeStep_other {modechar : Char} {st : CmodeState} (hother : hasParam st.add modechar = false) :
    (cmodeStep env source st modechar).add =
        (if modechar = '+' then true else if modechar = '-' then false else st.add) ∧
      (cmodeStep env source st modechar).ac = st.ac ∧ (cmodeStep env source st modechar).av = st.av := by
  simp only [hasParam, Bool.or_eq_false_iff, Bool.and_eq_false_iff, beq_eq_false_iff_ne, ne_eq] at hother
  rcases hother with ⟨⟨⟨⟨hb, ho⟩, hv⟩, hk⟩, hl⟩
  by_cases hplus : modechar = '+'
  · simp [cmodeStep, hplus]
  by_cases hminus : modechar = '-'
  · simp [cmodeStep, hminus]
  by_cases hlimit : modechar = 'l'
  · have hadd : st.add = false := by simpa [hlimit] using hl
    subst hlimit
    simp [cmodeStep, CmodeState.setLimit, hadd]
  · rw [cmodeStep, if_neg hplus, if_neg hminus, if_neg hk, if_neg hlimit, if_neg hb, if_neg ho, if_neg hv,
      if_neg hplus, if_neg hminus]
    cases flagOf modechar with
    | none => exact ⟨rfl, rfl, rfl⟩
    | some flag => exact setFlag_frame st flag

end Letter

/-! ### The whole line -/

section Line

variable (env : CmodeEnv) (source : CString) (chan : Channel) (params : List CString)

/-- The pointer is never behind the parameters that are counted as left, and when no `-k` has held it up it is
where the count says. -/
structure Tracks (front : CString) : Prop where
  add : (stateBehind env source chan params front).add = (seenIn front).add
  ac : (stateBehind env source chan params front).ac = params.length - (seenIn front).taking
  left : (stateBehind env source chan params front).ac ≤ (stateBehind env source chan params front).av.length
  av : NoMinusKey params front → (stateBehind env source chan params front).av = params.drop (seenIn front).taking

theorem seenIn_append (front : CString) (modechar : Char) :
    seenIn (front ++ [modechar]) = (seenIn front).letter modechar := by
  rw [seenIn, List.foldl_append]
  rfl

theorem stateBehind_append (front : CString) (modechar : Char) :
    stateBehind env source chan params (front ++ [modechar]) =
      cmodeStep env source (stateBehind env source chan params front) modechar := by
  rw [stateBehind, List.foldl_append]
  rfl

theorem NoMinusKey.of_append {front back : CString} (h : NoMinusKey params (front ++ back)) :
    NoMinusKey params front := by
  rintro before after rfl
  exact h before (after ++ back) (by simp)

theorem letter_of_takes {seen : Seen} {modechar : Char} (htakes : hasParam seen.add modechar) :
    seen.letter modechar = { seen with taking := seen.taking + 1 } := by
  have hplus : modechar ≠ '+' := by
    rintro rfl
    exact absurd htakes (by cases seen.add <;> decide)
  have hminus : modechar ≠ '-' := by
    rintro rfl
    exact absurd htakes (by cases seen.add <;> decide)
  rw [Seen.letter, if_neg hplus, if_neg hminus, htakes]
  rfl

theorem letter_of_not_takes {seen : Seen} {modechar : Char} (hother : hasParam seen.add modechar = false) :
    (seen.letter modechar).add =
        (if modechar = '+' then true else if modechar = '-' then false else seen.add) ∧
      (seen.letter modechar).taking = seen.taking := by
  rw [Seen.letter, hother]
  split_ifs <;> exact ⟨rfl, rfl⟩

theorem tracks (front : CString) : Tracks env source chan params front := by
  induction front using List.reverseRecOn with
  | nil => exact ⟨rfl, by simp [stateBehind, seenIn], le_rfl, fun _ ↦ rfl⟩
  | append_singleton front modechar ih =>
    by_cases htakes : hasParam (seenIn front).add modechar
    · have hconsumes := consumes_cmodeStep env source htakes ih.add
      have hseen := letter_of_takes htakes
      have hac := ih.ac
      have hleft := ih.left
      constructor
      · rw [stateBehind_append, seenIn_append, hseen, hconsumes.add, ih.add]
      · rw [stateBehind_append, seenIn_append, hseen, hconsumes.ac, ih.ac]
        push_cast
        omega
      · rw [stateBehind_append, hconsumes.ac]
        by_cases hsome : 0 < (stateBehind env source chan params front).ac
        · rw [(hconsumes.taken hsome).2]
          split_ifs
          · rw [List.length_tail]
            omega
          · omega
        · rw [(hconsumes.skipped (by omega)).2]
          omega
      · intro hkeys
        have hav := ih.av (hkeys.of_append params)
        rw [stateBehind_append, seenIn_append, hseen]
        show _ = params.drop ((seenIn front).taking + 1)
        by_cases hsome : 0 < (stateBehind env source chan params front).ac
        · have hmoves : (modechar != 'k' || (seenIn front).add) = true := by
            by_contra hstays
            simp only [Bool.or_eq_true, bne_iff_ne, ne_eq, not_or, not_not, Bool.not_eq_true] at hstays
            have hexhausted : params.length ≤ (seenIn front).taking := hkeys front [] (by rw [hstays.1]) hstays.2
            omega
          rw [(hconsumes.taken hsome).2, if_pos hmoves, hav, List.tail_drop]
        · rw [(hconsumes.skipped (by omega)).2, hav, List.drop_eq_nil_of_le (by omega),
            List.drop_eq_nil_of_le (by omega)]
    · rw [Bool.not_eq_true] at htakes
      have hother := cmodeStep_other env source (ih.add ▸ htakes)
      have hseen := letter_of_not_takes htakes
      rw [← stateBehind_append] at hother
      constructor
      · rw [hother.1, seenIn_append, hseen.1, ih.add]
      · rw [hother.2.1, seenIn_append, hseen.2, ih.ac]
      · rw [hother.2.1, hother.2.2]
        exact ih.left
      · intro hkeys
        rw [hother.2.2, seenIn_append, hseen.2, ih.av (hkeys.of_append params)]

/-- The letters take the parameters in order exactly if no `-k` comes while a parameter is left; and no letter
reads past the parameters, whatever the line. -/
theorem aligned_iff (modestr : CString) :
    (Aligned env source chan params modestr ↔ NoMinusKey params modestr) ∧
      InBounds env source chan params modestr := by
  refine ⟨⟨?_, ?_⟩, ?_⟩
  · intro h front rest hline hminus
    by_contra hleft
    have htakes : hasParam (seenIn front).add 'k' = true := by
      rw [hminus]
      decide
    have htracks := tracks env source chan params front
    have hac := htracks.ac
    have hconsumes := consumes_cmodeStep env source htakes htracks.add
    have htaken := (hconsumes.taken (by omega)).2
    have hgiven := h front 'k' rest hline htakes
    cases hdrop : params.drop (seenIn front).taking with
    | nil =>
      have hnil := List.drop_eq_nil_iff.mp hdrop
      omega
    | cons param left =>
      rw [hdrop] at hgiven
      -- The pointer is on the parameter before and after the letter.
      have hsame : param :: left = left := by
        rw [← hgiven.given, ← hgiven.moved, htaken, hminus]
        rfl
      exact absurd (congrArg List.length hsame) (by simp)
  · intro hkeys front modechar rest hline htakes
    have htracks := tracks env source chan params front
    have hfront : NoMinusKey params front := by
      rw [hline] at hkeys
      exact hkeys.of_append params
    have hav := htracks.av hfront
    have hac := htracks.ac
    have hconsumes := consumes_cmodeStep env source htakes htracks.add
    cases hdrop : params.drop (seenIn front).taking with
    | nil =>
      have hnil := List.drop_eq_nil_iff.mp hdrop
      exact ⟨(hconsumes.skipped (by omega)).1, (hconsumes.skipped (by omega)).2⟩
    | cons param left =>
      have hlt : (seenIn front).taking < params.length := by
        by_contra hge
        rw [List.drop_eq_nil_of_le (by omega)] at hdrop
        exact absurd hdrop (by simp)
      have htaken := hconsumes.taken (by omega)
      have hmoves : (modechar != 'k' || (seenIn front).add) = true := by
        by_contra hstays
        simp only [Bool.or_eq_true, bne_iff_ne, ne_eq, not_or, not_not, Bool.not_eq_true] at hstays
        have hexhausted := hkeys front rest (by rw [hline, hstays.1]) hstays.2
        omega
      rw [hav, hdrop, if_pos hmoves] at htaken
      exact ⟨hav.trans hdrop, htaken.1, htaken.2⟩
  · intro front modechar rest hline htakes hac hnil
    have hleft := (tracks env source chan params front).left
    rw [hnil, List.length_nil] at hleft
    have hspend : (stateBehind env source chan params front).spend.ac =
        (stateBehind env source chan params front).ac - 1 := rfl
    omega

end Line

/-- A channel with a key. -/
def keyed : Channel where
  name := "#x".toList
  channelId := 0
  mode := 0
  limit := 0
  key := some "secret".toList
  newbans := []
  users := [1]
  chanops := []
  voices := []
  serverModetime := 0
  chanservModetime := 0
  serverModecount := 0
  chanservModecount := 0
  bouncyModes := false
  bouncyModes_eq := rfl

/-- `alice` is the only user. -/
def aliceOnline : CmodeEnv where
  serverName := "services.example".toList
  nickOf _ := "alice".toList
  finduser nick := if nick = "alice".toList then some 1 else none
  checkValidOp _ _ := true

/-- `-k+o secret alice` looks for a user named `secret`. -/
theorem misaligned :
    ¬ Aligned aliceOnline "irc.example".toList keyed ["secret".toList, "alice".toList] "-k+o".toList := by
  intro h
  have hop := h "-k+".toList 'o' [] rfl (by decide +kernel)
  have hgiven : (stateBehind aliceOnline "irc.example".toList keyed ["secret".toList, "alice".toList]
      "-k+".toList).av = ["alice".toList] := hop.given
  have hstays : (stateBehind aliceOnline "irc.example".toList keyed ["secret".toList, "alice".toList]
      "-k+".toList).av = ["secret".toList, "alice".toList] := rfl
  exact absurd (hgiven.symm.trans hstays) (by simp)

end BlitzedServices.Channels
