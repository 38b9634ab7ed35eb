import BlitzedServices.ChanServ.SetMlock

/-!
# The oper-only mode in SET MLOCK

Only operators may lock `O`. For other users the loop of `do_set_mlock` puts back the stored lock of
that mode, but only where it meets the letter, and the new lock starts from nothing: a text that does
not name `O` drops the lock of an operator.

`doSetMlock_operLock_iff` says exactly when the lock of `O` survives a command of another user.
-/

set_option autoImplicit false
set_option relaxedAutoImplicit false

namespace BlitzedServices.ChanServ

open Lib Channels

/-- Whether `O` is locked on, and whether it is locked off. -/
def operLock (row : MlockRow) : Bool × Bool :=
  (row.mlockOn &&& CMODE_O ≠ 0#32, row.mlockOff &&& CMODE_O ≠ 0#32)

/-- The same of the lock that is being built. -/
def MlockState.operLock (st : MlockState) : Bool × Bool :=
  (st.newlockOn &&& CMODE_O ≠ 0#32, st.newlockOff &&& CMODE_O ≠ 0#32)

/-- What the branch for other users makes of the lock: locked off is put back last. -/
def keptLock (stored new : Bool × Bool) : Bool × Bool :=
  if stored = (false, false) then new else (stored.1 && !stored.2, stored.2)

/-- A text names a mode after its first sign. -/
def Names (letter : Char) (os : List Occurrence) : Prop :=
  ∃ o ∈ os, o.letter = letter

instance (letter : Char) (os : List Occurrence) : Decidable (Names letter os) :=
  inferInstanceAs (Decidable (∃ _ ∈ _, _))

/-- The command is refused, `O` is not locked, or it is locked one way and the text names it. -/
def OperLockSafe (row : MlockRow) : Option CString → CString → Prop
  | none, _ => True
  | some param, rest => Accepted param rest → operLock row = (false, false) ∨
      (operLock row ≠ (true, true) ∧ Names 'O' (occurrences none (strtokWords rest) param))

section OperLock

variable {row : MlockRow} {st st' : MlockState} {param : CString}

theorem keptLock_self (stored new : Bool × Bool) :
    keptLock stored (keptLock stored new) = keptLock stored new := by
  rw [keptLock, keptLock]
  split_ifs <;> rfl

theorem names_cons (letter : Char) (o : Occurrence) (os : List Occurrence) :
    Names letter (o :: os) ↔ o.letter = letter ∨ Names letter os := by
  rw [Names, List.exists_mem_cons_iff]
  rfl

theorem operLock_lockFlag (add : Bool) : (st.lockFlag add CMODE_O).operLock = (add, !add) := by
  have hO : ('O', CMODE_O) ∈ lockTable := by decide
  have hon := lockFlag_newlockOn hO hO st add
  have hoff := lockFlag_newlockOff hO hO st add
  rw [if_pos rfl] at hon hoff
  rw [MlockState.operLock, decide_eq_decide.mpr hon, decide_eq_decide.mpr hoff]
  cases add <;> rfl

theorem operLock_keepOper (row : MlockRow) (st : MlockState) :
    (st.keepOper row).operLock = keptLock (operLock row) st.operLock := by
  rw [MlockState.keepOper, keptLock, operLock, getMlockOn_some, getMlockOff_some]
  by_cases hon : row.mlockOn &&& CMODE_O ≠ 0#32 <;> by_cases hoff : row.mlockOff &&& CMODE_O ≠ 0#32
  · simp only [if_pos hon, if_pos hoff, operLock_lockFlag]
    simp [hon, hoff]
  · simp only [if_pos hon, if_neg hoff, operLock_lockFlag]
    simp [hon, hoff]
  · simp only [if_neg hon, if_pos hoff, operLock_lockFlag]
    simp [hon, hoff]
  · simp [hon, hoff]

/-- The other branches read an occurrence of another letter. -/
theorem operLock_of_reads {o : Occurrence} (h : Reads true [o] st st') (ho : o.letter ≠ 'O') :
    st'.operLock = st.operLock := by
  have hO : ('O', CMODE_O) ∈ flagTable := by decide
  have hon := h.on 'O' CMODE_O hO fun _ ↦ rfl
  have hoff := h.off 'O' CMODE_O (mem_lockTable hO) fun _ ↦ rfl
  rw [decided_singleton, if_neg ho] at hon hoff
  rw [MlockState.operLock, decide_eq_decide.mpr hon, decide_eq_decide.mpr hoff]
  rfl

/-- One letter from a user who is no oper. -/
theorem mlockLetter_operLock {add : Bool} {c : Char} (h : mlockLetter false row st add c = .ok st') :
    st'.operLock = if c = 'O' then keptLock (operLock row) st.operLock else st.operLock := by
  by_cases hc : c = 'O'
  · subst hc
    rw [mlockLetter, if_neg (by decide), if_neg (by decide), if_pos ⟨rfl, Bool.false_ne_true⟩, Except.ok.injEq] at h
    rw [if_pos rfl, ← h, operLock_keepOper]
  · have hoper : mlockLetter true row st add c = .ok st' := by
      rw [← h, mlockLetter, mlockLetter, if_neg fun hO : c = 'O' ∧ _ ↦ hc hO.1,
        if_neg fun hO : c = 'O' ∧ _ ↦ hc hO.1]
    rw [if_neg hc]
    exact operLock_of_reads (mlockLetter_reads hoper).1 hc

/-- The loop puts the stored lock back if its text names `O`. -/
theorem mlockLoop_operLock (h : mlockLoop false row param st = .ok st') :
    st'.operLock = if Names 'O' (occurrences st.add st.words param) then
      keptLock (operLock row) st.operLock else st.operLock := by
  induction param generalizing st with
  | nil =>
    rw [mlockLoop, Except.ok.injEq] at h
    rw [occurrences, if_neg (by simp [Names]), h]
  | cons c param ih =>
    rw [mlockLoop] at h
    by_cases hplus : c = '+'
    · rw [mlockStep, if_pos hplus] at h
      simp only [occurrences, if_pos hplus]
      exact ih h
    by_cases hminus : c = '-'
    · rw [mlockStep, if_neg hplus, if_pos hminus] at h
      simp only [occurrences, if_neg hplus, if_pos hminus]
      exact ih h
    rw [mlockStep, if_neg hplus, if_neg hminus] at h
    simp only [occurrences, if_neg hplus, if_neg hminus]
    cases hsign : st.add with
    | none =>
      rw [hsign] at h
      have hrest := ih h
      rwa [hsign] at hrest
    | some add =>
      simp only [hsign] at h
      cases hstep : mlockLetter false row st add c with
      | error err =>
        rw [hstep] at h
        cases h
      | ok st₁ =>
        rw [hstep] at h
        obtain ⟨-, hadd, hwords⟩ := mlockLetter_reads hstep
        rw [ih h, mlockLetter_operLock hstep, hadd, hsign, hwords]
        simp only [names_cons, show (occurrence add st.words c).letter = c from rfl]
        by_cases hc : c = 'O'
        · simp [hc, keptLock_self]
        · simp [hc]

/-- What an accepted command of a user who is no oper makes of the lock. -/
theorem operLock_doSetMlock {rest : CString} (h : Accepted param rest) :
    operLock (doSetMlock false row (some param) rest).2 =
      if Names 'O' (occurrences none (strtokWords rest) param) then
        keptLock (operLock row) (false, false) else (false, false) := by
  have hstart (words : List CString) : (MlockState.start param words).operLock = (false, false) := by
    simp [MlockState.operLock, MlockState.start]
  rcases doSetMlock_cases false row param rest with ⟨hrefused, -⟩ | ⟨-, st, hloop, hstored⟩
  · exact absurd h hrefused
  · have hloop' := mlockLoop_operLock hloop
    rw [hstart] at hloop'
    rw [hstored, show operLock st.update = st.operLock from rfl, hloop']
    by_cases hOff : isOff param
    · obtain ⟨hplus, hminus⟩ := no_sign_of_off hOff
      rw [if_pos hOff, occurrences_of_no_sign hplus hminus]
      rfl
    · rw [if_neg hOff, show (MlockState.start param (strtokWords rest)).add = none by
        simp [MlockState.start, hOff]]
      rfl

/-- A user who is no oper leaves the lock of `O` as it was exactly when it is safe from his command. -/
theorem doSetMlock_operLock_iff (row : MlockRow) (param : Option CString) (rest : CString) :
    operLock (doSetMlock false row param rest).2 = operLock row ↔ OperLockSafe row param rest := by
  cases param with
  | none => exact iff_of_true rfl trivial
  | some param =>
    by_cases haccepted : Accepted param rest
    · rw [operLock_doSetMlock haccepted]
      refine Iff.trans ?_ (forall_prop_of_true haccepted).symm
      rcases operLock row with ⟨on, off⟩
      by_cases hnames : Names 'O' (occurrences none (strtokWords rest) param)
      · cases on <;> cases off <;> simp [hnames, keptLock]
      · cases on <;> cases off <;> simp [hnames]
    · rcases doSetMlock_cases false row param rest with ⟨-, err, herr⟩ | ⟨h, -⟩
      · rw [herr]
        exact iff_of_true rfl fun h ↦ absurd h haccepted
      · exact absurd h haccepted

/-- An operator has locked `O` on, and another user sets `+n`. -/
theorem doSetMlock_operLock_lost :
    ¬ ∀ row param rest, operLock (doSetMlock false row param rest).2 = operLock row := by
  intro h
  have hlost := h ⟨CMODE_O, 0#32, 0#32, []⟩ (some ['+', 'n']) []
  exact absurd hlost (by decide +kernel)

end OperLock

end BlitzedServices.ChanServ
