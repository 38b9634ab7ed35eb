import BlitzedServices.Akill.ListAkills
import BlitzedServices.MemoServ.ListMemos
import BlitzedServices.NickServ.Run

/-!
# Statements while a result is open

The functions that leave a result open while they go on: LIST of MemoServ with a list of numbers, AKILL LIST,
AKILL VIEW and `mysql_build_query_match_mask`. The first three send notices in between, so they are in sync
only as long as the cache knows the language of the user (`unbuffered_inSync_iff`).
-/

set_option autoImplicit false
set_option relaxedAutoImplicit false

namespace BlitzedServices.Process

open Lib Misc Mysql NickServ
open Akill (AkillRow)
open MemoServ (MemoColumns)

/-! ### The users of `smysql_query` -/

/-- `mysql_build_query_match_mask`, which sends nothing but to the snoop channel. The rows have the id and
the mask. -/
def mysqlBuildQueryMatchMask (mask base idCol : CString) (rows : List (CString × CString))
    (s : Session Unit) : CString × Session Unit :=
  let clauses := (rows.filter fun row ↦ matchWild mask row.2).map fun row ↦
    "(".toList ++ idCol ++ " = ".toList ++ row.1 ++ ")".toList
  (base ++ " || ".toList.intercalate clauses,
    ((rows.foldl (fun s _ ↦ s.ask .fetch id) (s.ask .use id)).ask .fetch id).ask .free id)

/-- A call of one of the functions that use `smysql_query`, with what it reads. -/
inductive UnbufferedUse where
  | doList (columns : ℕ → MemoColumns) (u : NickServ.User) (founderChans : List ℕ) (line : CString)
  | akillList (u : NickServ.User) (noexpire : Bool) (akills : List AkillRow) (line : CString)
  | akillView (t : ℕ → ℤ) (u : NickServ.User) (noexpire : Bool) (akills : List AkillRow) (line : CString)
  | matchMask (mask base idCol : CString) (rows : List (CString × CString))

/-- The services before a call: the world, what was asked of the connection, and how many languages have
been looked up. -/
structure Before where
  world : World
  calls : List Call
  lookedUp : ℕ

/-- The session with which a call begins. -/
def Before.session (μ : Type) (b : Before) : Session μ := ⟨b.world, b.calls, [], b.lookedUp⟩

/-- All that was asked of the connection after a call. -/
def UnbufferedUse.run (clock : ℕ → ℕ) (b : Before) : UnbufferedUse → List Call
  | doList columns u founderChans line =>
    (MemoServ.doList clock columns u founderChans line (b.session _)).calls
  | akillList u noexpire akills line =>
    (Akill.doAkillList clock u noexpire akills line (b.session _)).calls
  | akillView t u noexpire akills line =>
    (Akill.doAkillView t clock u noexpire akills line (b.session _)).calls
  | matchMask mask base idCol rows =>
    (mysqlBuildQueryMatchMask mask base idCol rows (b.session _)).2.calls

/-- The condition: the cache knows the language at every lookup from the SELECT to the last row. -/
def UnbufferedUse.Meets (clock : ℕ → ℕ) (b : Before) : UnbufferedUse → Prop
  | doList columns u founderChans line =>
    MemoServ.ListMeets clock columns u (MemoServ.startList clock u founderChans line (b.session _))
  | akillList u noexpire akills line => Akill.ListMeets 1 clock u noexpire akills line (b.session _)
  | akillView _ u noexpire akills line => Akill.ListMeets 3 clock u noexpire akills line (b.session _)
  | matchMask _ _ _ _ => True

/-! ### When they are in sync -/

section Sync

variable {clock : ℕ → ℕ} {b : Before}

theorem closed_session (hsync : InSync b.calls) (hclosed : isOpen b.calls = false) (μ : Type) :
    Closed (b.session μ) :=
  ⟨hsync, hclosed⟩

/-- Every function that leaves a result open makes no statement until it is freed iff the cache knows the
language at every lookup in between. -/
theorem unbuffered_inSync_iff (hsync : InSync b.calls) (hclosed : isOpen b.calls = false)
    (clock : ℕ → ℕ) (use : UnbufferedUse) : InSync (use.run clock b) ↔ use.Meets clock b := by
  cases use with
  | doList columns u founderChans line =>
    exact MemoServ.doList_inSync_iff (closed_session hsync hclosed _) columns line
  | akillList u noexpire akills line =>
    exact Akill.doAkillList_inSync_iff noexpire akills line (closed_session hsync hclosed _)
  | akillView t u noexpire akills line =>
    exact Akill.doAkillView_inSync_iff noexpire akills line (closed_session hsync hclosed _)
  | matchMask mask base idCol rows =>
    refine iff_of_true ?_ trivial
    have hphase : ∀ e, Phase clock 0 e ((rows.map fun _ ↦ 0).sum + 0)
        fun s : Session Unit ↦ (rows.foldl (fun s _ ↦ s.ask .fetch id) s).ask .fetch id :=
      fun e ↦ (phase_foldl (fun _ ↦ phase_fetch) rows).comp phase_fetch
    refine (inSync_unbuffered_iff (closed_session hsync hclosed _) hphase fun s hs ↦ ?_).mpr
      fun _ i _ ↦ .inl rfl
    exact Closed.ask (foldl_invariant (p := Closed) (fun s _ h ↦ h.ask rfl id) hs rows) rfl id

/-! ### A language that was looked up an hour ago -/

/-- Bob has a memo. His language was looked up at the beginning, and he identified after 1000 seconds. -/
def bobsWorld : World :=
  { World.empty with
    db :=
      { World.empty.db with
        nick := [⟨7, "bob".toList, NS_IDENTIFIED, 0, 0#32, 0⟩]
        memo := [⟨1, "bob".toList, "hello".toList⟩]
        memoinfo := [⟨1, "bob".toList, 20⟩] }
    nickcache := [⟨7, NS_IDENTIFIED, 1000, 0, 0⟩] }

/-- `LIST 1`. -/
def bobsList : UnbufferedUse :=
  .doList (fun _ ↦ ⟨1, MemoServ.MF_UNREAD, 900, "alice".toList, false⟩)
    ⟨0, "bob".toList, "bob".toList, "example.org".toList, 7, 7, 0, 0, false, 0⟩ [] "1".toList

theorem unbuffered_inSync_iff_bob :
    InSync (Before.mk bobsWorld [] 0).calls ∧ isOpen (Before.mk bobsWorld [] 0).calls = false ∧
      (InSync (bobsList.run (fun _ ↦ 3599) ⟨bobsWorld, [], 0⟩) ↔
        bobsList.Meets (fun _ ↦ 3599) ⟨bobsWorld, [], 0⟩) :=
  ⟨inSync_nil, rfl, unbuffered_inSync_iff inSync_nil rfl _ _⟩

/-- An hour after his language was looked up he lists his memo. -/
theorem bobsList_not_inSync : ¬ InSync (bobsList.run (fun _ ↦ 3600) ⟨bobsWorld, [], 0⟩) := by
  have hcalls : bobsList.run (fun _ ↦ 3600) ⟨bobsWorld, [], 0⟩ =
      [.store, .store, .store, .use, .fetch, .store] := by
    decide +kernel
  rw [hcalls]
  intro hsync
  have hopen := hsync [.store, .store, .store, .use, .fetch] .store [] rfl rfl
  exact Bool.noConfusion hopen

end Sync

end BlitzedServices.Process
