import BlitzedServices.Lib.Strtok
import BlitzedServices.Lib.Strtol
import BlitzedServices.Misc.TimeTexts
import BlitzedServices.Config.Directives

/-!
# Configuration lines

`parse` reads one line of the configuration: a directive and its parameters, which may be in double quotes.
A parameter of a number is read by `readParam` and stored. `runParams_stores`, `runParams_numberError` and
`runParams_refuses` say what becomes of the numbers of a line: each of them is stored or refused by itself,
and nothing else is.
-/

set_option autoImplicit false
set_option relaxedAutoImplicit false

namespace BlitzedServices.Config

open Lib

/-- The variables of the configuration. -/
structure Settings where
  ints : Address → ℤ
  strings : Address → Option CString

/-- What `parse` reports. A parameter is counted from 1. -/
inductive ParseError where
  | tooManyParameters
  | unterminatedString
  | deprecated (name : CString)
  | notEnoughParameters (name : CString)
  | expectedInteger (name : CString) (param : ℕ)
  | expectedPositive (name : CString) (param : ℕ)
  | expectedPort (name : CString) (param : ℕ)
  | portRange
  | expectedTime (name : CString) (param : ℕ)
  | unknownType (name : CString) (param : ℕ)
  | unknownDirective (dir : CString)

def MAXPARAMS : ℕ := 8

/-- The text of an error. -/
def ParseError.text : ParseError → CString
  | .tooManyParameters => "Warning: too many parameters (".toList ++ decimal MAXPARAMS ++ " max)".toList
  | .unterminatedString => "Warning: unterminated double-quoted string".toList
  | .deprecated name => "Deprecated directive `".toList ++ name ++ "' used".toList
  | .notEnoughParameters name => "Not enough parameters for `".toList ++ name ++ "'".toList
  | .expectedInteger name param => name ++ ": Expected an integer for parameter ".toList ++ decimal param
  | .expectedPositive name param => name ++ ": Expected a positive integer for parameter ".toList ++ decimal param
  | .expectedPort name param => name ++ ": Expected a port number for parameter ".toList ++ decimal param
  | .portRange => "Port numbers must be in the range 1..65535".toList
  | .expectedTime name param => name ++ ": Expected a time value for parameter ".toList ++ decimal param
  | .unknownType name param => name ++ ": Unknown type for param ".toList ++ decimal param
  | .unknownDirective dir => "Unknown directive `".toList ++ dir ++ "'".toList

/-- The error is about the text of a number. -/
def ParseError.isNumber : ParseError → Bool
  | .expectedInteger .. | .expectedPositive .. | .expectedPort .. | .portRange | .expectedTime .. => true
  | _ => false

/-- The configuration and what `parse` has to say: the errors in their order, and whether it returns 1. -/
structure Parsed where
  settings : Settings
  errors : List ParseError
  retval : Bool

/-! ### Parameters of a line -/

def blanks : CString := " \t\r\n".toList

/-- The characters up to the closing quote, and the text behind it if there is one. A backslash keeps the
character behind it from ending the text, and stays in it. -/
def scanQuoted : CString → CString × Option CString
  | [] => ([], none)
  | '"' :: s => ([], some s)
  | '\\' :: c :: s => ('\\' :: c :: (scanQuoted s).1, (scanQuoted s).2)
  | c :: s => (c :: (scanQuoted s).1, (scanQuoted s).2)

/-- One parameter, the text behind it, and the error. -/
def scanParam (s : CString) : CString × CString × List ParseError :=
  match s with
  | '"' :: s =>
    match scanQuoted s with
    | (text, some s) => (text, s, [])
    | (text, none) => (text, [], [.unterminatedString])
  | s => (s.takeWhile (· ∉ blanks), (s.dropWhile (· ∉ blanks)).tail, [])

/-- The parameters of a line while there is room for them. -/
def scanParams : ℕ → CString → List CString × List ParseError
  | _, [] => ([], [])
  | 0, _ :: _ => ([], [.tooManyParameters])
  | room + 1, c :: s =>
    let (text, rest, errors) := scanParam (c :: s)
    let (av, errors') := scanParams room (rest.dropWhile isspace)
    (text :: av, errors ++ errors')

/-- The directive of a line, its parameters, and the errors. -/
def scanLine (buf : CString) : Option (CString × List CString × List ParseError) :=
  match strtok blanks buf with
  | none => none
  | some (dir, rest) =>
    match strtok [] rest with
    | none => some (dir, [], [])
    | some (s, _) => some (dir, scanParams MAXPARAMS (s.dropWhile isspace))

/-! ### Values -/

section Values

variable (name : CString) (param : ℕ) (text : CString)

/-- `PARAM_INT`. -/
def readInt : Except ParseError ℤ :=
  let (val, s) := strtolAuto text
  if s ≠ [] then .error (.expectedInteger name param) else .ok (Misc.toInt32 val)

/-- `PARAM_POSINT`. -/
def readPosint : Except ParseError ℤ :=
  let (val, s) := strtolAuto text
  if s ≠ [] ∨ Misc.toInt32 val ≤ 0 then .error (.expectedPositive name param) else .ok (Misc.toInt32 val)

/-- `PARAM_PORT`. -/
def readPort : Except ParseError ℤ :=
  let (val, s) := strtolAuto text
  if s ≠ [] then .error (.expectedPort name param)
  else if Misc.toInt32 val < 1 ∨ 65535 < Misc.toInt32 val then .error .portRange
  else .ok (Misc.toInt32 val)

/-- `PARAM_TIME`. -/
def readTime : Except ParseError ℤ :=
  if Misc.dotime text < 0 then .error (.expectedTime name param) else .ok (Misc.dotime text)

/-- The number that a parameter is read as. -/
def readParam (type : ParamType) : Except ParseError ℤ :=
  match type with
  | .PARAM_INT => readInt name param text
  | .PARAM_POSINT => readPosint name param text
  | .PARAM_PORT => readPort name param text
  | .PARAM_TIME => readTime name param text
  | _ => .error (.unknownType name param)

end Values

def Settings.setInt (cfg : Settings) (ptr : Address) (val : ℤ) : Settings :=
  { cfg with ints := Function.update cfg.ints ptr val }

def Settings.setString (cfg : Settings) (ptr : Address) (text : CString) : Settings :=
  { cfg with strings := Function.update cfg.strings ptr (some text) }

/-- `dep_ListOpersOnly`. -/
def dep_ListOpersOnly (cfg : Settings) : Settings :=
  (cfg.setInt .NSListOpersOnly 1).setInt .CSListOpersOnly 1

/-- The call of the function that a deprecated directive points to. -/
def callDeprecated (ptr : Address) (cfg : Settings) : Settings :=
  if ptr = .dep_ListOpersOnly then dep_ListOpersOnly cfg else cfg

/-- The parameter takes a text of the line. -/
def ParamType.isReal (type : ParamType) : Bool :=
  type != .PARAM_SET && type != .PARAM_DEPRECATED

/-- One parameter that takes no text. -/
def runUnreal (name : CString) (p : Param) (st : Parsed) : Parsed :=
  if p.type = .PARAM_SET then { st with settings := st.settings.setInt p.ptr 1 }
  else { st with settings := callDeprecated p.ptr st.settings, errors := st.errors ++ [.deprecated name] }

/-- One parameter with its text. -/
def store (name : CString) (param : ℕ) (p : Param) (text : CString) (st : Parsed) : Parsed :=
  if p.type = .PARAM_STRING then { st with settings := st.settings.setString p.ptr text }
  else
    match readParam name param text p.type with
    | .ok val => { st with settings := st.settings.setInt p.ptr val }
    | .error e => { st with errors := st.errors ++ [e], retval := false }

/-- The parameters of a directive with the texts that are left. `optind` texts are used up. -/
def runParams (name : CString) : ℕ → List Param → List CString → Parsed → Parsed
  | _, [], _, st => st
  | optind, p :: ps, av, st =>
    if p.type.isReal then
      match av with
      | [] =>
        if p.flags &&& PARAM_OPTIONAL ≠ 0 then st
        else { st with errors := st.errors ++ [.notEnoughParameters name], retval := false }
      | text :: av => runParams name (optind + 1) ps av (store name (optind + 1) p text st)
    else runParams name optind ps av (runUnreal name p st)

/-- The directive of a name. -/
def findDirective (dir : CString) : Option Directive :=
  directives.find? fun d ↦ stricmp dir d.name = 0

/-- `parse`. -/
def parse (cfg : Settings) (buf : CString) : Parsed :=
  match scanLine buf with
  | none => ⟨cfg, [], true⟩
  | some (dir, av, errors) =>
    match findDirective dir with
    | none => ⟨cfg, errors ++ [.unknownDirective dir], true⟩
    | some d => runParams d.name 0 d.params av ⟨cfg, errors, true⟩

/-! ### What a line writes -/

/-- The parameter is a number. -/
def ParamType.isNumber (type : ParamType) : Bool :=
  type.isReal && type != .PARAM_STRING

/-- The numbers of the configuration that a parameter may write. -/
def Param.targets (p : Param) : List Address :=
  if p.type.isNumber ∨ p.type = .PARAM_SET then [p.ptr]
  else if p.type = .PARAM_DEPRECATED ∧ p.ptr = .dep_ListOpersOnly then [.NSListOpersOnly, .CSListOpersOnly]
  else []

/-- No number is written by two parameters. -/
def Apart (ps : List Param) : Prop :=
  ps.Pairwise fun p q ↦ ∀ a ∈ p.targets, a ∉ q.targets

/-- The parameters that get a text, with it. -/
def assigned : List Param → List CString → List (Param × CString)
  | [], _ => []
  | p :: ps, av =>
    if p.type.isReal then
      match av with
      | [] => []
      | text :: av => (p, text) :: assigned ps av
    else assigned ps av

/-- The number that a text is read as; nothing if it is refused. -/
def readValue (type : ParamType) (text : CString) : Option ℤ :=
  (readParam [] 0 text type).toOption

section Run

variable {name : CString} {ps : List Param} {av : List CString} {optind : ℕ} {st : Parsed} {a : Address}

theorem readParam_cases (name : CString) (param : ℕ) (text : CString) (type : ParamType) :
    (∃ val, readParam name param text type = .ok val ∧ readValue type text = some val) ∨
      ∃ e, readParam name param text type = .error e ∧ readValue type text = none ∧
        (type.isNumber = true → e.isNumber = true) := by
  cases type with
  | PARAM_INT =>
    rw [readValue, readParam, readParam, readInt, readInt]
    dsimp only
    split_ifs with hs
    · exact .inr ⟨_, rfl, rfl, fun _ ↦ rfl⟩
    · exact .inl ⟨_, rfl, rfl⟩
  | PARAM_POSINT =>
    rw [readValue, readParam, readParam, readPosint, readPosint]
    dsimp only
    split_ifs with hs
    · exact .inr ⟨_, rfl, rfl, fun _ ↦ rfl⟩
    · exact .inl ⟨_, rfl, rfl⟩
  | PARAM_PORT =>
    rw [readValue, readParam, readParam, readPort, readPort]
    dsimp only
    split_ifs with hs hrange
    · exact .inr ⟨_, rfl, rfl, fun _ ↦ rfl⟩
    · exact .inr ⟨_, rfl, rfl, fun _ ↦ rfl⟩
    · exact .inl ⟨_, rfl, rfl⟩
  | PARAM_TIME =>
    rw [readValue, readParam, readParam, readTime, readTime]
    split_ifs with hneg
    · exact .inr ⟨_, rfl, rfl, fun _ ↦ rfl⟩
    · exact .inl ⟨_, rfl, rfl⟩
  | PARAM_STRING => exact .inr ⟨_, rfl, rfl, fun h ↦ absurd h (by decide)⟩
  | PARAM_SET => exact .inr ⟨_, rfl, rfl, fun h ↦ absurd h (by decide)⟩
  | PARAM_DEPRECATED => exact .inr ⟨_, rfl, rfl, fun h ↦ absurd h (by decide)⟩

theorem targets_of_isNumber {p : Param} (h : p.type.isNumber = true) : p.targets = [p.ptr] :=
  if_pos (.inl h)

theorem isReal_of_isNumber {type : ParamType} (h : type.isNumber = true) : type.isReal = true :=
  (Bool.and_eq_true_iff.mp h).1

/-- What `store` does with a number: it is stored or refused. -/
theorem store_number (name : CString) (param : ℕ) {p : Param} (hp : p.type.isNumber = true) (text : CString)
    (st : Parsed) :
    (∃ val, readValue p.type text = some val ∧
      store name param p text st = { st with settings := st.settings.setInt p.ptr val }) ∨
    readValue p.type text = none ∧ ∃ e : ParseError, e.isNumber = true ∧
      store name param p text st = { st with errors := st.errors ++ [e], retval := false } := by
  have hstring : p.type ≠ .PARAM_STRING := by
    intro hstring
    rw [hstring] at hp
    exact absurd hp (by decide)
  rw [store, if_neg hstring]
  rcases readParam_cases name param text p.type with ⟨val, hread, hvalue⟩ | ⟨e, hread, hvalue, he⟩
  · rw [hread]
    exact .inl ⟨val, hvalue, rfl⟩
  · rw [hread]
    exact .inr ⟨hvalue, e, he hp, rfl⟩

theorem store_string (name : CString) (param : ℕ) {p : Param} (hreal : p.type.isReal = true)
    (hp : ¬p.type.isNumber = true) (text : CString) (st : Parsed) :
    store name param p text st = { st with settings := st.settings.setString p.ptr text } := by
  have hstring : p.type = .PARAM_STRING := by
    by_contra hne
    exact hp (Bool.and_eq_true_iff.mpr ⟨hreal, bne_iff_ne.mpr hne⟩)
  exact if_pos hstring

theorem ptr_mem_targets {p : Param} (h : p.type.isNumber = true) : p.ptr ∈ p.targets := by
  rw [targets_of_isNumber h]
  exact List.mem_singleton_self _

/-- What `store` leaves alone. -/
theorem store_ints (name : CString) (param : ℕ) {p : Param} (hreal : p.type.isReal = true)
    (ha : p.type.isNumber = true → p.ptr ≠ a) (text : CString) (st : Parsed) :
    (store name param p text st).settings.ints a = st.settings.ints a := by
  by_cases hp : p.type.isNumber = true
  · rcases store_number name param hp text st with ⟨val, -, h⟩ | ⟨-, e, -, h⟩
    · rw [h]
      exact Function.update_of_ne (ha hp).symm _ _
    · rw [h]
  · rw [store_string name param hreal hp]
    rfl

theorem runUnreal_ints (name : CString) {p : Param} (hreal : ¬p.type.isReal = true) (ha : a ∉ p.targets)
    (st : Parsed) : (runUnreal name p st).settings.ints a = st.settings.ints a := by
  have hnumber : ¬p.type.isNumber = true := mt isReal_of_isNumber hreal
  by_cases hset : p.type = .PARAM_SET
  · rw [Param.targets, if_pos (.inr hset), List.mem_singleton] at ha
    rw [runUnreal, if_pos hset]
    exact Function.update_of_ne ha _ _
  · have hdeprecated : p.type = .PARAM_DEPRECATED := by
      by_contra hne
      exact hreal (Bool.and_eq_true_iff.mpr ⟨bne_iff_ne.mpr hset, bne_iff_ne.mpr hne⟩)
    rw [Param.targets, if_neg (not_or.mpr ⟨hnumber, hset⟩)] at ha
    rw [runUnreal, if_neg hset]
    show (callDeprecated p.ptr st.settings).ints a = _
    rw [callDeprecated]
    split_ifs with hptr
    · rw [if_pos ⟨hdeprecated, hptr⟩, List.mem_cons, List.mem_singleton, not_or] at ha
      show Function.update (Function.update st.settings.ints _ _) _ _ a = _
      rw [Function.update_of_ne ha.2, Function.update_of_ne ha.1]
    · rfl

theorem assigned_unreal {p : Param} (hreal : ¬p.type.isReal = true) : assigned (p :: ps) av = assigned ps av := by
  cases av with
  | nil => rw [assigned, if_neg hreal]
  | cons text av => rw [assigned, if_neg hreal]

theorem assigned_missing {p : Param} (hreal : p.type.isReal = true) : assigned (p :: ps) [] = [] := by
  unfold assigned
  rw [if_pos hreal]

theorem assigned_cons {p : Param} (hreal : p.type.isReal = true) (text : CString) :
    assigned (p :: ps) (text :: av) = (p, text) :: assigned ps av := by
  rw [assigned, if_pos hreal]

theorem runParams_unreal {p : Param} (hreal : ¬p.type.isReal = true) :
    runParams name optind (p :: ps) av st = runParams name optind ps av (runUnreal name p st) := by
  cases av with
  | nil => rw [runParams, if_neg hreal]
  | cons text av => rw [runParams, if_neg hreal]

/-- The text of a parameter is missing. -/
theorem runParams_missing (name : CString) (optind : ℕ) (ps : List Param) (st : Parsed) {p : Param}
    (hreal : p.type.isReal = true) :
    runParams name optind (p :: ps) [] st = st ∨ runParams name optind (p :: ps) [] st =
      { st with errors := st.errors ++ [.notEnoughParameters name], retval := false } := by
  rw [runParams, if_pos hreal]
  split_ifs
  · exact .inl rfl
  · exact .inr rfl

theorem runParams_cons {p : Param} (hreal : p.type.isReal = true) (text : CString) :
    runParams name optind (p :: ps) (text :: av) st =
      runParams name (optind + 1) ps av (store name (optind + 1) p text st) := by
  rw [runParams, if_pos hreal]

theorem assigned_fst : ((assigned ps av).map Prod.fst).Sublist ps := by
  induction ps generalizing av with
  | nil => exact List.Sublist.slnil
  | cons p ps ih =>
    by_cases hreal : p.type.isReal = true
    · cases av with
      | nil =>
        rw [assigned_missing hreal]
        exact List.nil_sublist _
      | cons text av =>
        rw [assigned_cons hreal]
        exact ih.cons_cons p
    · rw [assigned_unreal hreal]
      exact ih.cons p

/-- A number of the configuration that nothing is typed for keeps its value. -/
theorem runParams_frame (hunreal : ∀ p ∈ ps, ¬p.type.isReal = true → a ∉ p.targets)
    (hnumber : ∀ q ∈ assigned ps av, q.1.type.isNumber = true → q.1.ptr ≠ a) :
    (runParams name optind ps av st).settings.ints a = st.settings.ints a := by
  induction ps generalizing optind av st with
  | nil => rfl
  | cons p ps ih =>
    have hunreal' : ∀ p ∈ ps, ¬p.type.isReal = true → a ∉ p.targets :=
      fun q hq ↦ hunreal q (List.mem_cons_of_mem _ hq)
    by_cases hreal : p.type.isReal = true
    · cases av with
      | nil =>
        rcases runParams_missing name optind ps st hreal with h | h
        · rw [h]
        · rw [h]
      | cons text av =>
        rw [assigned_cons hreal] at hnumber
        rw [runParams_cons hreal, ih hunreal' fun q hq ↦ hnumber q (List.mem_cons_of_mem _ hq)]
        exact store_ints name (optind + 1) hreal (hnumber (p, text) List.mem_cons_self) text st
    · rw [assigned_unreal hreal] at hnumber
      rw [runParams_unreal hreal, ih hunreal' hnumber, runUnreal_ints name hreal (hunreal p List.mem_cons_self hreal)]

/-- A number that is typed is stored as it is read, and keeps its value if it is refused. -/
theorem runParams_stores (hapart : Apart ps) {q : Param × CString} (hq : q ∈ assigned ps av)
    (hnumber : q.1.type.isNumber = true) :
    (runParams name optind ps av st).settings.ints q.1.ptr =
      (readValue q.1.type q.2).getD (st.settings.ints q.1.ptr) := by
  induction ps generalizing optind av st with
  | nil => exact absurd hq List.not_mem_nil
  | cons p ps ih =>
    obtain ⟨hhead, htail⟩ := List.pairwise_cons.mp hapart
    have hbehind (hq : q ∈ assigned ps av) : q.1.ptr ∉ p.targets := fun htarget ↦
      hhead q.1 (assigned_fst.subset (List.mem_map_of_mem hq)) _ htarget (ptr_mem_targets hnumber)
    by_cases hreal : p.type.isReal = true
    · cases av with
      | nil =>
        rw [assigned_missing hreal] at hq
        exact absurd hq List.not_mem_nil
      | cons text av =>
        rw [assigned_cons hreal] at hq
        rw [runParams_cons hreal]
        rcases List.mem_cons.mp hq with rfl | hq
        · have hothers : ∀ p' ∈ ps, p.ptr ∉ p'.targets :=
            fun p' hp' ↦ hhead p' hp' _ (ptr_mem_targets hnumber)
          rw [runParams_frame fun p' hp' _ ↦ hothers p' hp']
          · rcases store_number name (optind + 1) hnumber text st with ⟨val, hvalue, h⟩ | ⟨hvalue, e, -, h⟩
            · rw [h, hvalue]
              exact Function.update_self ..
            · rw [h, hvalue]
              rfl
          · intro r hr hrnumber heq
            have hrtarget := hothers r.1 (assigned_fst.subset (List.mem_map_of_mem hr))
            exact hrtarget (heq ▸ ptr_mem_targets hrnumber)
        · have hmem : q.1 ∈ ps := assigned_fst.subset (List.mem_map_of_mem hq)
          have hne (hp : p.type.isNumber = true) : p.ptr ≠ q.1.ptr := fun heq ↦
            hhead q.1 hmem _ (ptr_mem_targets hp) (heq ▸ ptr_mem_targets hnumber)
          rw [ih htail hq, store_ints name (optind + 1) hreal hne]
    · rw [assigned_unreal hreal] at hq
      rw [runParams_unreal hreal, ih htail hq, runUnreal_ints name hreal (hbehind hq)]

/-- The run reports an error about a number exactly if it refuses one. -/
theorem runParams_numberError :
    (∃ e ∈ (runParams name optind ps av st).errors, e.isNumber = true) ↔
      (∃ e ∈ st.errors, e.isNumber = true) ∨
        ∃ q ∈ assigned ps av, q.1.type.isNumber = true ∧ readValue q.1.type q.2 = none := by
  have hsnoc {es : List ParseError} {e : ParseError} (he : ¬e.isNumber = true) :
      (∃ e' ∈ es ++ [e], e'.isNumber = true) ↔ ∃ e' ∈ es, e'.isNumber = true := by
    simp [he]
  induction ps generalizing optind av st with
  | nil => simp [runParams, assigned]
  | cons p ps ih =>
    by_cases hreal : p.type.isReal = true
    · cases av with
      | nil =>
        rw [assigned_missing hreal]
        simp only [List.not_mem_nil, false_and, exists_false, or_false]
        rcases runParams_missing name optind ps st hreal with h | h
        · rw [h]
        · rw [h]
          exact hsnoc (by simp [ParseError.isNumber])
      | cons text av =>
        rw [assigned_cons hreal, runParams_cons hreal, List.exists_mem_cons_iff]
        refine ih.trans ?_
        by_cases hp : p.type.isNumber = true
        · rcases store_number name (optind + 1) hp text st with ⟨val, hvalue, h⟩ | ⟨hvalue, e, he, h⟩
          · rw [h, hvalue]
            simp
          · rw [h, hvalue]
            have herror : ∃ e' ∈ st.errors ++ [e], e'.isNumber = true :=
              ⟨e, List.mem_append_right _ List.mem_cons_self, he⟩
            exact ⟨fun _ ↦ .inr (.inl ⟨hp, rfl⟩), fun _ ↦ .inl herror⟩
        · rw [store_string name (optind + 1) hreal hp]
          simp [hp]
    · rw [assigned_unreal hreal, runParams_unreal hreal]
      refine ih.trans ?_
      rw [runUnreal]
      split_ifs with hset
      · rfl
      · rw [hsnoc (by simp [ParseError.isNumber])]

/-- A run that refuses a number returns 0. -/
theorem runParams_refuses
    (h : st.retval = false ∨ ∃ q ∈ assigned ps av, q.1.type.isNumber = true ∧ readValue q.1.type q.2 = none) :
    (runParams name optind ps av st).retval = false := by
  induction ps generalizing optind av st with
  | nil => exact h.resolve_right (by simp [assigned])
  | cons p ps ih =>
    by_cases hreal : p.type.isReal = true
    · cases av with
      | nil =>
        rw [assigned_missing hreal] at h
        rcases runParams_missing name optind ps st hreal with hrun | hrun
        · rw [hrun]
          exact h.resolve_right (by simp)
        · rw [hrun]
      | cons text av =>
        rw [assigned_cons hreal, List.exists_mem_cons_iff, ← or_assoc] at h
        rw [runParams_cons hreal]
        apply ih
        refine h.imp_left fun h ↦ ?_
        by_cases hp : p.type.isNumber = true
        · rcases store_number name (optind + 1) hp text st with ⟨val, hvalue, hstore⟩ | ⟨-, e, -, hstore⟩
          · rw [hstore]
            exact h.resolve_right fun h ↦ by simp [hvalue] at h
          · rw [hstore]
        · rw [store_string name (optind + 1) hreal hp]
          exact h.resolve_right fun h ↦ hp h.1
    · rw [assigned_unreal hreal] at h
      rw [runParams_unreal hreal]
      apply ih
      refine h.imp_left fun h ↦ ?_
      rw [runUnreal]
      split_ifs
      · exact h
      · exact h

end Run

end BlitzedServices.Config
