import BlitzedServices.Akill.AddAkill
import BlitzedServices.Lib.Runs
import BlitzedServices.MemoServ.Memos
import BlitzedServices.Mysql.BuildQuery
import BlitzedServices.NickServ.Session

/-!
# Memos listed while they are fetched

LIST with a list of numbers gets its memos with `smysql_query`: the rows are fetched one by one, and for
each of them a notice is sent. A notice needs the language of its user, for which the cache asks the database
if it must. The server rejects that statement, because the result is open, and the services end.

`doList_inSync_iff` says when it does not come to this: the user's entry is in the cache at the SELECT and not
an hour old at any lookup until the last row.
-/

set_option autoImplicit false
set_option relaxedAutoImplicit false

namespace BlitzedServices.MemoServ

open Lib Misc Mysql NickServ ChanServ
open Akill (nextWord AkillRow)

/-! ### MemoServ LIST -/

/-- What `do_list` sends. -/
inductive Message where
  | CHAN_X_NOT_REGISTERED (chan : CString)
  | CHAN_X_FORBIDDEN (chan : CString)
  | ACCESS_DENIED
  | NICK_IDENTIFY_REQUIRED
  | SYNTAX_ERROR
  | MORE_INFO
  | MEMO_X_HAS_NO_MEMOS (chan : CString)
  | MEMO_HAVE_NO_MEMOS
  | MEMO_LIST_CHAN_NEW_MEMOS (chan : CString)
  | MEMO_LIST_CHAN_MEMOS (chan : CString)
  | MEMO_LIST_NEW_MEMOS (nick : CString)
  | MEMO_LIST_MEMOS (nick : CString)
  | MEMO_LIST_HEADER
  | MEMO_LIST_FORMAT (unread : Bool) (idx : ℕ) (sender : CString) (time : ℕ)

/-- The user as `check_access` sees him. It does not ask whether he is a services admin. -/
def accessUser (now : ℕ) (u : NickServ.User) (founderChans : List ℕ) (w : World) : AccessUser :=
  ⟨u.nick, u.nickId, u.realId, getNickStatus now u.realId w, founderChans, false⟩

/-- What `check_access` does to the world. The status is not looked up for a user without a nick, nor for
one who has identified for the channel and is not its founder by nick. -/
def afterCheckAccess (now : ℕ) (u : NickServ.User) (founderChans : List ℕ) (channelId what : ℕ) (w : World) :
    World :=
  let db := (checkAccess (accessUser now u founderChans w) now w.db channelId what).2
  let w :=
    if u.nickId = 0 ∨
        (founderChans.contains channelId ∧ u.nickId ≠ getFounderMasterId w.db channelId) then w
    else freshenIdentified now u w
  { w with db }

/-- The syntax of LIST: the channel if one is given, and the word after it. -/
def listWords (line : CString) : Option CString × Option CString :=
  let first := nextWord line
  if first.1.any fun word ↦ word.head? = some '#' then (first.1, (nextWord first.2).1)
  else (none, first.1)

/-- The owner whose memos are listed. There is none for a user who is refused, and for one whose nick has
lost its row. -/
def ownerOfList (clock : ℕ → ℕ) (u : NickServ.User) (founderChans : List ℕ) (chan : Option CString)
    (s : Session Message) : Option CString × Session Message :=
  let now := clock s.lookedUp
  match chan with
  | some chan =>
    let channelId := mysqlFindchan s.world.db chan
    let s := s.ask .store id
    match s.world.db.channel.find? fun c ↦ c.channelId = channelId with
    | none => (none, s.noticeLang clock u (.CHAN_X_NOT_REGISTERED chan))
    | some ci =>
      if ci.flags &&& CI_VERBOTEN ≠ 0#32 then
        (none, s.noticeLang clock u (.CHAN_X_FORBIDDEN chan))
      else
        let access := (checkAccess (accessUser now u founderChans s.world) now s.world.db
          ci.channelId CA_MEMO_READ).1
        let s := s.ask .store (afterCheckAccess now u founderChans ci.channelId CA_MEMO_READ)
        if access then (some chan, s) else (none, s.noticeLang clock u .ACCESS_DENIED)
  | none =>
    let identified := nickIdentified now u s.world
    let s := s.ask .store (freshenIdentified now u)
    if identified then
      match getNickFromId s.world.db u.realId with
      | some owner => (some owner, s)
      | none => (none, s.ask .store World.die)
    else (none, s.noticeLang clock u .NICK_IDENTIFY_REQUIRED)

/-- `syntax_error`. -/
def syntaxError (clock : ℕ → ℕ) (u : NickServ.User) (s : Session Message) : Session Message :=
  ((s.getstring clock u.nickId).noticeLang clock u .SYNTAX_ERROR).noticeLang clock u .MORE_INFO

/-- The memos of a SELECT, with their other columns, in the order of their numbers. -/
def selectMemos (columns : ℕ → MemoColumns) (p : MemoColumns → Bool) (owner : CString)
    (w : World) : List MemoColumns :=
  (((memosOf w.db owner).map fun r ↦ columns r.memoId).filter p).insertionSort fun c d ↦ c.idx ≤ d.idx

/-- The largest number in the query for a list of numbers: `MAX((unsigned int)(mi.max + 1), cnt + 1)`. -/
def listMax (mi : MemoInfo) (cnt : ℕ) : ℕ :=
  max (BitVec.ofInt 32 (mi.max + 1)).toNat (cnt + 1)

/-- The query for a list of numbers. -/
def listQuery (numstr owner : CString) (max : ℕ) : CString :=
  let base := "SELECT idx, flags, time, sender, text FROM memo WHERE owner='".toList ++
    SqlText.escape owner ++ "' && (".toList
  mysqlBuildQuery numstr (base.take 1023) "idx".toList max ++ ") ORDER BY idx ASC".toList

/-- The server does not accept the query: it has no clause, or does not fit into the buffer of
`smysql_query`. -/
def rejected (numstr owner : CString) (max : ℕ) : Bool :=
  (queryRanges numstr max).isEmpty ∨ 4095 < (listQuery numstr owner max).length

/-- The row that LIST sends, and the header before the first one. -/
def listRow (clock : ℕ → ℕ) (u : NickServ.User) (chan : Option CString) (new unbuffered : Bool)
    (s : Session Message) (row : MemoColumns × ℕ) : Session Message :=
  let s := if unbuffered then s.ask .fetch id else s
  let s :=
    if row.2 = 0 then
      let s := s.noticeLang clock u <|
        match chan with
        | some chan => if new then .MEMO_LIST_CHAN_NEW_MEMOS chan else .MEMO_LIST_CHAN_MEMOS chan
        | none => if new then .MEMO_LIST_NEW_MEMOS u.nick else .MEMO_LIST_MEMOS u.nick
      s.noticeLang clock u .MEMO_LIST_HEADER
    else s
  let s := s.getstring clock u.nickId
  s.noticeLang clock u
    (.MEMO_LIST_FORMAT (row.1.flags &&& MF_UNREAD ≠ 0#32) row.1.idx row.1.sender row.1.time)

/-- The loop over the rows. -/
def listRows (clock : ℕ → ℕ) (u : NickServ.User) (chan : Option CString) (new unbuffered : Bool)
    (rows : List MemoColumns) (s : Session Message) : Session Message :=
  rows.zipIdx.foldl (listRow clock u chan new unbuffered) s

/-- The end of LIST with a list of numbers. -/
def listNumbers (clock : ℕ → ℕ) (u : NickServ.User) (chan : Option CString) (rows : List MemoColumns)
    (s : Session Message) : Session Message :=
  (((listRows clock u chan false true rows (s.ask .use id)).ask .fetch id).ask .free id)

/-- `do_list` up to the SELECT of the memos. -/
structure ListStart where
  session : Session Message
  chan : Option CString
  /-- The owner, the word after LIST and the largest number, if the memos are selected. -/
  select : Option (CString × Option CString × ℕ)

def startList (clock : ℕ → ℕ) (u : NickServ.User) (founderChans : List ℕ) (line : CString)
    (s : Session Message) : ListStart :=
  let (chan, param) := listWords line
  match ownerOfList clock u founderChans chan s with
  | (none, s) => ⟨s, chan, none⟩
  | (some owner, s) =>
    let mi := getMemoinfoFromOwner (clock s.lookedUp) owner s.world
    let s := s.ask .store (freshenMemoinfo (clock s.lookedUp) owner)
    if param.any fun p ↦ ¬ p.head?.any Char.isDigit ∧ stricmp p "NEW".toList ≠ 0 then
      ⟨syntaxError clock u s, chan, none⟩
    else
      let cnt := countMemos s.world.db owner
      let s := s.ask .store id
      if cnt = 0 then
        match chan with
        | some chan => ⟨s.noticeLang clock u (.MEMO_X_HAS_NO_MEMOS chan), some chan, none⟩
        | none => ⟨s.noticeLang clock u .MEMO_HAVE_NO_MEMOS, none, none⟩
      else ⟨s, chan, some (owner, param, listMax mi cnt)⟩

/-- `do_list`. -/
def doList (clock : ℕ → ℕ) (columns : ℕ → MemoColumns) (u : NickServ.User) (founderChans : List ℕ)
    (line : CString) (s : Session Message) : Session Message :=
  let start := startList clock u founderChans line s
  let s := start.session
  match start.select with
  | none => s
  | some (owner, some param, max) =>
    if param.head?.any Char.isDigit then
      if rejected param owner max then s.ask .use World.die
      else
        listNumbers clock u start.chan
          (selectMemos columns (fun c ↦ inRanges (queryRanges param max) c.idx) owner s.world) s
    else
      listRows clock u start.chan true false
        (selectMemos columns (fun c ↦ c.flags &&& MF_UNREAD ≠ 0#32) owner s.world)
        (s.ask .store id)
  | some (owner, none, _) =>
    listRows clock u start.chan false false (selectMemos columns (fun _ ↦ true) owner s.world)
      (s.ask .store id)

/-! ### The connection -/

section Connection

variable {clock : ℕ → ℕ} {columns : ℕ → MemoColumns} {u : NickServ.User} {founderChans : List ℕ}
  {line : CString} {chan : Option CString} {new : Bool} {e : Option Nickcache} {s : Session Message}

theorem closed_syntaxError (h : Closed s) : Closed (syntaxError clock u s) :=
  ((h.getstring clock _).noticeLang clock u _).noticeLang clock u _

theorem closed_ownerOfList (h : Closed s) (chan : Option CString) :
    Closed (ownerOfList clock u founderChans chan s).2 := by
  cases chan with
  | some chan =>
    have hfound : Closed (s.ask .store id) := h.ask rfl id
    simp only [ownerOfList]
    cases (s.ask .store id).world.db.channel.find?
        fun c ↦ c.channelId = mysqlFindchan s.world.db chan with
    | none => exact hfound.noticeLang clock u _
    | some ci =>
      simp only
      split_ifs with hverboten haccess
      · exact hfound.noticeLang clock u _
      · exact hfound.ask rfl _
      · exact (hfound.ask rfl _).noticeLang clock u _
  | none =>
    have hstatus : Closed (s.ask .store (freshenIdentified (clock s.lookedUp) u)) := h.ask rfl _
    simp only [ownerOfList]
    split_ifs with hidentified
    · cases getNickFromId
          (s.ask .store (freshenIdentified (clock s.lookedUp) u)).world.db u.realId with
      | some owner => exact hstatus
      | none => exact hstatus.ask rfl _
    · exact hstatus.noticeLang clock u _

theorem closed_startList (h : Closed s) (line : CString) :
    Closed (startList clock u founderChans line s).session := by
  have hclosed : Closed (ownerOfList clock u founderChans (listWords line).1 s).2 :=
    closed_ownerOfList h (listWords line).1
  rw [startList]
  simp only
  cases howner : ownerOfList clock u founderChans (listWords line).1 s with
  | mk owner s' =>
    rw [howner] at hclosed
    cases owner with
    | none => exact hclosed
    | some owner =>
      have hinfo : Closed (s'.ask .store (freshenMemoinfo (clock s'.lookedUp) owner)) :=
        hclosed.ask rfl _
      simp only
      split_ifs with hparam hcount
      · exact closed_syntaxError hinfo
      · cases (listWords line).1 with
        | some chan => exact (hinfo.ask rfl id).noticeLang clock u _
        | none => exact (hinfo.ask rfl id).noticeLang clock u _
      · exact hinfo.ask rfl id

theorem phase_listRow (row : MemoColumns × ℕ) :
    Phase clock u.nickId e (if row.2 = 0 then 4 else 2)
      fun s ↦ listRow clock u chan new true s row := by
  by_cases hfirst : row.2 = 0
  · simp only [listRow, hfirst, if_true]
    exact (((phase_fetch.comp (phase_noticeLang u _)).comp (phase_noticeLang u _)).comp
      phase_getstring).comp (phase_noticeLang u _)
  · simp only [listRow, hfirst, if_true, if_false]
    exact (phase_fetch.comp phase_getstring).comp (phase_noticeLang u _)

theorem closed_listRow (h : Closed s) (unbuffered : Bool) (row : MemoColumns × ℕ) :
    Closed (listRow clock u chan new unbuffered s row) := by
  have hfetch : Closed (if unbuffered = true then s.ask .fetch id else s) := by
    split_ifs with hunbuffered
    · exact h.ask rfl id
    · exact h
  by_cases hfirst : row.2 = 0
  · simp only [listRow, hfirst, if_true]
    exact (((hfetch.noticeLang clock u _).noticeLang clock u _).getstring clock _).noticeLang clock u _
  · simp only [listRow, hfirst, if_false]
    exact (hfetch.getstring clock _).noticeLang clock u _

theorem closed_listRows (h : Closed s) (unbuffered : Bool) (rows : List MemoColumns) :
    Closed (listRows clock u chan new unbuffered rows s) :=
  foldl_invariant (p := Closed) (fun _ row h ↦ closed_listRow h unbuffered row) h rows.zipIdx

/-- The lookups that LIST makes for its rows: two for each and two for the header. -/
def rowLookups (rows : List MemoColumns) : ℕ :=
  if rows = [] then 0 else 2 * rows.length + 2

theorem sum_listRow (rows : List MemoColumns) :
    (rows.zipIdx.map fun row ↦ if row.2 = 0 then 4 else 2).sum = rowLookups rows := by
  have hrest : ∀ (rows : List MemoColumns) n,
      ((rows.zipIdx (n + 1)).map fun row ↦ if row.2 = 0 then 4 else 2).sum = 2 * rows.length := by
    intro rows
    induction rows with
    | nil => exact fun _ ↦ rfl
    | cons row rows ih =>
      intro n
      rw [List.zipIdx_cons, List.map_cons, List.sum_cons, ih, List.length_cons,
        if_neg (Nat.succ_ne_zero n)]
      ring
  cases rows with
  | nil => rfl
  | cons row rows =>
    rw [List.zipIdx_cons, List.map_cons, List.sum_cons, hrest, if_pos rfl, rowLookups,
      if_neg (List.cons_ne_nil row rows), List.length_cons]
    ring

/-- LIST with a list of numbers, from the SELECT on. -/
theorem listNumbers_inSync_iff (h : Closed s) (rows : List MemoColumns) :
    InSync (listNumbers clock u chan rows s).calls ↔
      (s.world.alive = true → ∀ i < rowLookups rows,
        Fresh clock u.nickId (nickcacheFind s.world u.nickId) (s.lookedUp + i)) := by
  rw [← sum_listRow]
  exact inSync_unbuffered_iff h (fun e ↦ (phase_foldl phase_listRow rows.zipIdx).comp phase_fetch)
    fun s hs ↦ (closed_listRows hs true rows).ask rfl id

/-- The condition on LIST: if it comes to a query for a list of numbers, each lookup until the last row finds
the language in the cache. -/
def ListMeets (clock : ℕ → ℕ) (columns : ℕ → MemoColumns) (u : NickServ.User) (start : ListStart) : Prop :=
  ∀ owner param max, start.select = some (owner, some param, max) →
    param.head?.any Char.isDigit = true → rejected param owner max = false →
    start.session.world.alive = true →
    ∀ i < rowLookups (selectMemos columns (fun c ↦ inRanges (queryRanges param max) c.idx) owner
        start.session.world),
      Fresh clock u.nickId (nickcacheFind start.session.world u.nickId) (start.session.lookedUp + i)

theorem doList_inSync_iff (h : Closed s) (columns : ℕ → MemoColumns) (line : CString) :
    InSync (doList clock columns u founderChans line s).calls ↔
      ListMeets clock columns u (startList clock u founderChans line s) := by
  have hclosed : Closed (startList clock u founderChans line s).session := closed_startList h line
  simp only [doList]
  cases hselect : (startList clock u founderChans line s).select with
  | none =>
    refine iff_of_true hclosed.inSync fun owner param max hsome ↦ ?_
    rw [hselect] at hsome
    cases hsome
  | some select =>
    obtain ⟨owner, param, max⟩ := select
    cases param with
    | none =>
      refine iff_of_true (closed_listRows (hclosed.ask rfl id) false _).inSync
        fun owner' param' max' hsome ↦ ?_
      rw [hselect] at hsome
      cases hsome
    | some param =>
      have hmeets : ListMeets clock columns u (startList clock u founderChans line s) ↔
          (param.head?.any Char.isDigit = true → rejected param owner max = false →
            (startList clock u founderChans line s).session.world.alive = true →
            ∀ i < rowLookups (selectMemos columns
                (fun c ↦ inRanges (queryRanges param max) c.idx) owner
                (startList clock u founderChans line s).session.world),
              Fresh clock u.nickId
                (nickcacheFind (startList clock u founderChans line s).session.world u.nickId)
                ((startList clock u founderChans line s).session.lookedUp + i)) := by
        constructor
        · exact fun hmeets ↦ hmeets owner param max hselect
        · intro hmeets owner' param' max' hsome
          rw [hselect] at hsome
          cases hsome
          exact hmeets
      rw [hmeets]
      by_cases hdigit : param.head?.any Char.isDigit = true
      · simp only [hdigit, if_true, forall_const]
        by_cases hrejected : rejected param owner max = true
        · simp only [hrejected, if_true]
          exact iff_of_true (hclosed.inSync_ask _ _) fun hfalse ↦ Bool.noConfusion hfalse
        · simp only [hrejected, Bool.false_eq_true, if_false, forall_const]
          exact listNumbers_inSync_iff hclosed _
      · simp only [hdigit, Bool.false_eq_true, if_false]
        refine iff_of_true (closed_listRows (hclosed.ask rfl id) false _).inSync fun htrue ↦ ?_
        exact htrue.elim

end Connection

end BlitzedServices.MemoServ
