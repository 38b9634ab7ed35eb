import Mathlib

/-!
# The connection to the database

`smysql_bulk_query` and `mysql_simple_query` store all rows of a result at once. `smysql_query` leaves them
at the server, where `smysql_fetch_row` gets one after the other; until `mysql_free_result` the result is
open, and the server rejects every statement. `InSync` says that no statement was made in between.
-/

set_option autoImplicit false
set_option relaxedAutoImplicit false

namespace BlitzedServices.Mysql

/-- What is asked of the connection. `store` is a statement whose rows are stored at once, `use` one whose
rows are fetched one by one. -/
inductive Call where
  | store
  | use
  | fetch
  | free
  deriving DecidableEq

def Call.isStatement : Call → Bool
  | store => true
  | use => true
  | fetch => false
  | free => false

/-- Whether a result is open after a call, given whether one was before. -/
def Call.leavesOpen (isOpen : Bool) : Call → Bool
  | store => isOpen
  | use => true
  | fetch => isOpen
  | free => false

/-- A result is open after some calls. -/
def isOpen (calls : List Call) : Bool :=
  calls.foldl Call.leavesOpen false

/-- No statement was made while a result was open. -/
def InSync (calls : List Call) : Prop :=
  ∀ front c back, calls = front ++ c :: back → c.isStatement = true → isOpen front = false

section Calls

variable {calls more : List Call} {c : Call}

@[simp] theorem isOpen_nil : isOpen [] = false := rfl

theorem isOpen_concat : isOpen (calls ++ [c]) = c.leavesOpen (isOpen calls) := by
  rw [isOpen, List.foldl_append]
  rfl

theorem inSync_nil : InSync [] := by
  intro front c back h
  simp at h

/-- What came before was in sync. -/
theorem InSync.of_append (h : InSync (calls ++ more)) : InSync calls := by
  intro front c back hcalls
  refine h front c (back ++ more) ?_
  rw [hcalls, List.append_assoc, List.cons_append]

theorem inSync_concat :
    InSync (calls ++ [c]) ↔ InSync calls ∧ (c.isStatement = true → isOpen calls = false) := by
  constructor
  · exact fun h ↦ ⟨h.of_append, fun hc ↦ h calls c [] rfl hc⟩
  · rintro ⟨hcalls, hc⟩ front d back hsplit hd
    rcases List.eq_nil_or_concat back with rfl | ⟨back, e, rfl⟩
    · obtain ⟨rfl, hlast⟩ := List.append_inj' hsplit rfl
      obtain rfl := List.singleton_injective hlast
      exact hc hd
    · rw [List.concat_eq_append, ← List.cons_append, ← List.append_assoc] at hsplit
      obtain ⟨hfront, -⟩ := List.append_inj' hsplit rfl
      exact hcalls front d back hfront hd

end Calls

end BlitzedServices.Mysql
