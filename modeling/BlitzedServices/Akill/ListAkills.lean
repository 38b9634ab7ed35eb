import BlitzedServices.Akill.AddAkill
import BlitzedServices.Lib.Runs
import BlitzedServices.NickServ.Session

/-!
# Akills listed while they are fetched

AKILL LIST and AKILL VIEW send a notice for each matching akill, with the result of their SELECT open.
The header that they send before it looks the language up too, so the user's entry is in the cache when the
SELECT is made, unless his nick has no row; but it may get an hour old before the last akill.
-/

set_option autoImplicit false
set_option relaxedAutoImplicit false

namespace BlitzedServices.Akill

open Lib Misc Mysql NickServ

/-- When an akill expires, as `VIEW` tells. -/
inductive Expiry where
  | OPER_AKILL_NO_EXPIRE
  | OPER_AKILL_EXPIRES_SOON
  | expiresIn (seconds : ℤ)

/-- What LIST and VIEW send. -/
inductive ListMessage where
  | OPER_AKILL_LIST_HEADER
  | OPER_AKILL_LIST_FORMAT (mask reason : CString)
  | OPER_AKILL_VIEW_FORMAT (mask : CString) (who : Option CString) (time : ℤ) (expiry : Expiry)
      (reason : CString)

/-- `expire_akills`. -/
def expireAkills (noexpire : Bool) (now : ℤ) (akills : List AkillRow) : List AkillRow :=
  if noexpire then akills else akills.filter fun r ↦ ¬ (r.expires ≠ 0 ∧ r.expires < now)

/-- The words of LIST and VIEW: the mask, in small letters from its `@` on, and the expiry to match, -1 for
any. -/
def listWords (line : CString) : CString × ℤ :=
  match nextWord line with
  | (none, _) => ("*".toList, -1)
  | (some mask, rest) =>
    let noexpire := (nextWord rest).1.any fun word ↦ stricmp word "NOEXPIRE".toList = 0
    (mask.takeWhile (· ≠ '@') ++ strlower (mask.dropWhile (· ≠ '@')), if noexpire then 0 else -1)

/-- The row is shown. -/
def shown (words : CString × ℤ) (r : AkillRow) : Bool :=
  matchWild words.1 r.mask ∧ (words.2 = -1 ∨ r.expires = words.2)

/-- A row of LIST. -/
def listAkill (clock : ℕ → ℕ) (u : NickServ.User) (words : CString × ℤ) (s : Session ListMessage)
    (row : AkillRow × ℕ) : Session ListMessage :=
  let s := s.ask .fetch id
  if shown words row.1 then
    s.noticeLang clock u (.OPER_AKILL_LIST_FORMAT row.1.mask row.1.reason)
  else s

/-- A row of VIEW, with the time at which it is reached. One text is looked up for the expiry, whichever it
is. -/
def viewAkill (t : ℕ → ℤ) (clock : ℕ → ℕ) (u : NickServ.User) (words : CString × ℤ)
    (s : Session ListMessage) (row : AkillRow × ℕ) : Session ListMessage :=
  let s := s.ask .fetch id
  if shown words row.1 then
    let r := row.1
    let s := s.getstring clock u.nickId
    let expiry : Expiry :=
      if r.expires = 0 then .OPER_AKILL_NO_EXPIRE
      else if r.expires ≤ t row.2 then .OPER_AKILL_EXPIRES_SOON
      else .expiresIn (r.expires - t row.2 + 59)
    let s := s.getstring clock u.nickId
    s.noticeLang clock u
      (.OPER_AKILL_VIEW_FORMAT r.mask (if r.who = [] then none else some r.who)
        (if r.time ≠ 0 then r.time else t row.2) expiry r.reason)
  else s

/-- `do_akill` up to the SELECT of LIST and VIEW. -/
def startAkills (clock : ℕ → ℕ) (u : NickServ.User) (s : Session ListMessage) : Session ListMessage :=
  let s := s.ask .store fun w ↦ if u.oper then freshenIdentified (clock s.lookedUp) u w else w
  (s.ask .store id).noticeLang clock u .OPER_AKILL_LIST_HEADER

/-- The rows of the SELECT. -/
def selectAkills (akills : List AkillRow) : List (AkillRow × ℕ) :=
  (akills.insertionSort fun r r' ↦ r.akillId ≤ r'.akillId).zipIdx

/-- `do_akill` for LIST and VIEW, which differ in what they do with a row. -/
def doAkillRows (row : CString × ℤ → Session ListMessage → AkillRow × ℕ → Session ListMessage)
    (clock : ℕ → ℕ) (u : NickServ.User) (noexpire : Bool) (akills : List AkillRow) (line : CString)
    (s : Session ListMessage) : Session ListMessage :=
  let akills := expireAkills noexpire (clock s.lookedUp) akills
  let s := startAkills clock u s
  (((selectAkills akills).foldl (row (listWords line)) (s.ask .use id)).ask .fetch id).ask .free id

/-- `AKILL LIST`. -/
def doAkillList (clock : ℕ → ℕ) (u : NickServ.User) :=
  doAkillRows (listAkill clock u) clock u

/-- `AKILL VIEW`. -/
def doAkillView (t : ℕ → ℤ) (clock : ℕ → ℕ) (u : NickServ.User) :=
  doAkillRows (viewAkill t clock u) clock u

/-! ### The connection -/

section Connection

variable {clock : ℕ → ℕ} {u : NickServ.User} {e : Option Nickcache} {t : ℕ → ℤ} {words : CString × ℤ}
  {s : Session ListMessage}

theorem closed_startAkills (h : Closed s) : Closed (startAkills clock u s) :=
  ((h.ask rfl _).ask rfl _).noticeLang clock u _

theorem phase_listAkill (row : AkillRow × ℕ) :
    Phase clock u.nickId e (if shown words row.1 then 1 else 0)
      fun s ↦ listAkill clock u words s row := by
  by_cases hshown : shown words row.1 = true
  · simp only [listAkill, hshown, if_true]
    exact phase_fetch.comp (phase_noticeLang u _)
  · simp only [listAkill, hshown]
    exact phase_fetch

theorem phase_viewAkill (row : AkillRow × ℕ) :
    Phase clock u.nickId e (if shown words row.1 then 3 else 0)
      fun s ↦ viewAkill t clock u words s row := by
  by_cases hshown : shown words row.1 = true
  · simp only [viewAkill, hshown, if_true]
    exact ((phase_fetch.comp phase_getstring).comp phase_getstring).comp (phase_noticeLang u _)
  · simp only [viewAkill, hshown]
    exact phase_fetch

theorem closed_listAkill (h : Closed s) (row : AkillRow × ℕ) :
    Closed (listAkill clock u words s row) := by
  have hfetch := h.ask (c := .fetch) rfl id
  by_cases hshown : shown words row.1 = true
  · simp only [listAkill, hshown, if_true]
    exact hfetch.noticeLang clock u _
  · simp only [listAkill, hshown]
    exact hfetch

theorem closed_viewAkill (h : Closed s) (row : AkillRow × ℕ) :
    Closed (viewAkill t clock u words s row) := by
  have hfetch := h.ask (c := .fetch) rfl id
  by_cases hshown : shown words row.1 = true
  · simp only [viewAkill, hshown, if_true]
    exact ((hfetch.getstring clock _).getstring clock _).noticeLang clock u _
  · simp only [viewAkill, hshown]
    exact hfetch

/-- Where every row is a phase. -/
theorem doAkillRows_inSync_iff
    {row : CString × ℤ → Session ListMessage → AkillRow × ℕ → Session ListMessage}
    {size : CString × ℤ → AkillRow × ℕ → ℕ}
    (hphase : ∀ words e r, Phase clock u.nickId e (size words r) fun s ↦ row words s r)
    (hclosed : ∀ words s r, Closed s → Closed (row words s r)) (noexpire : Bool)
    (akills : List AkillRow) (line : CString) (hs : Closed s) :
    InSync (doAkillRows row clock u noexpire akills line s).calls ↔
      ((startAkills clock u s).world.alive = true →
        ∀ i < ((selectAkills (expireAkills noexpire (clock s.lookedUp) akills)).map
          (size (listWords line))).sum,
        Fresh clock u.nickId (nickcacheFind (startAkills clock u s).world u.nickId)
          ((startAkills clock u s).lookedUp + i)) := by
  refine inSync_unbuffered_iff (closed_startAkills hs)
    (fun e ↦ (phase_foldl (hphase (listWords line) e) _).comp phase_fetch) fun s hs ↦ ?_
  exact Closed.ask (foldl_invariant (p := Closed) (fun s r h ↦ hclosed _ s r h) hs _) rfl id

/-- The lookups that are made for the rows of the SELECT. -/
theorem sum_selectAkills (words : CString × ℤ) (k : ℕ) (akills : List AkillRow) :
    ((selectAkills akills).map fun row ↦ if shown words row.1 then k else 0).sum =
      k * akills.countP (shown words) := by
  have hsum : ∀ l : List AkillRow,
      (l.map fun r ↦ if shown words r then k else 0).sum = k * l.countP (shown words) := by
    intro l
    induction l with
    | nil => rfl
    | cons r l ih =>
      rw [List.map_cons, List.sum_cons, ih, List.countP_cons]
      split_ifs with hshown
      · ring
      · ring
  have hrows : (selectAkills akills).map (fun row ↦ if shown words row.1 then k else 0) =
      (akills.insertionSort fun r r' ↦ r.akillId ≤ r'.akillId).map
        fun r ↦ if shown words r then k else 0 := by
    rw [selectAkills,
      ← List.zipIdx_map_fst 0 (akills.insertionSort fun r r' ↦ r.akillId ≤ r'.akillId),
      List.map_map, List.zipIdx_map_fst]
    rfl
  rw [hrows, hsum, (List.perm_insertionSort _ akills).countP_eq]

/-- The condition on LIST and VIEW, which look up `k` texts for an akill: after the header, each lookup finds
the language in the cache. -/
def ListMeets (k : ℕ) (clock : ℕ → ℕ) (u : NickServ.User) (noexpire : Bool) (akills : List AkillRow)
    (line : CString) (s : Session ListMessage) : Prop :=
  (startAkills clock u s).world.alive = true →
    ∀ i < k * (expireAkills noexpire (clock s.lookedUp) akills).countP (shown (listWords line)),
      Fresh clock u.nickId (nickcacheFind (startAkills clock u s).world u.nickId)
        ((startAkills clock u s).lookedUp + i)

theorem doAkillList_inSync_iff (noexpire : Bool) (akills : List AkillRow) (line : CString)
    (hs : Closed s) : InSync (doAkillList clock u noexpire akills line s).calls ↔
      ListMeets 1 clock u noexpire akills line s := by
  rw [ListMeets, ← sum_selectAkills]
  exact doAkillRows_inSync_iff (fun _ _ r ↦ phase_listAkill r) (fun _ _ r h ↦ closed_listAkill h r)
    noexpire akills line hs

theorem doAkillView_inSync_iff (noexpire : Bool) (akills : List AkillRow) (line : CString)
    (hs : Closed s) : InSync (doAkillView t clock u noexpire akills line s).calls ↔
      ListMeets 3 clock u noexpire akills line s := by
  rw [ListMeets, ← sum_selectAkills]
  exact doAkillRows_inSync_iff (fun _ _ r ↦ phase_viewAkill r) (fun _ _ r h ↦ closed_viewAkill h r)
    noexpire akills line hs

end Connection

end BlitzedServices.Akill
