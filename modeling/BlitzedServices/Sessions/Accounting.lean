import BlitzedServices.Akill.AddAkill
import BlitzedServices.NickServ.Registry

/-!
# Session accounting

With session limits the services count the users of each host in a table. Connecting clients that match an
akill or exceed the limit of their host are killed and never become users. `accounted_iff` says that the
counts are right in every state of a run iff no host has more users than the column holds.

The limit of a host is to be that of the first exception that it matches, but `add_session` reads it from the last.
`addSession_limit_iff` says when that makes no difference.
-/

set_option autoImplicit false
set_option relaxedAutoImplicit false

namespace BlitzedServices.Sessions

open Lib Lib.SqlText Misc Akill
open Mysql (sameName)
open NickServ (NICKMAX foldName sameName_iff sameName_congr)

/-! ### The state -/

/-- The width of `session.host`. -/
def hostWidth : ℕ := 255

/-- A host as the IRC server admits it. It fits its column, and it is written to queries as it is. -/
structure Host where
  name : CString
  length_le : name.length ≤ hostWidth
  plain : ∀ c ∈ name, c ≠ '\'' ∧ c ≠ '\\'

/-- A query reads the host back. -/
theorem Host.decodes (host : Host) : Decodes host.name host.name :=
  .of_forall host.plain

/-- A user. -/
structure Client where
  nick : CString
  username : CString
  host : Host

/-- Table `session`. -/
structure SessionRow where
  host : CString
  count : ℕ
  killcount : ℕ

/-- Table `exception`. -/
structure ExceptionRow where
  mask : CString
  limit : ℕ

/-- The directives. -/
structure Config where
  defSessionLimit : ℤ
  sessionKillClues : ℕ
  sessionAkillExpiry : ℤ
  autokillExpiry : ℤ

/-- The users and the tables. -/
structure State where
  users : List Client
  sessions : List SessionRow
  exceptions : List ExceptionRow
  akills : List AkillRow

/-! ### The table of sessions -/

/-- The largest value of a `smallint unsigned`, which larger ones become. -/
def smallintMax : ℕ := 65535

/-- `UPDATE session SET count=..., killcount=...`. -/
def setCounts (count killcount : ℕ) (r : SessionRow) : SessionRow :=
  { r with count := min smallintMax count, killcount := min smallintMax killcount }

/-- `UPDATE session SET count=count-1`. Below 0 an unsigned column becomes its largest value. -/
def countDown (r : SessionRow) : SessionRow :=
  { r with count := if r.count = 0 then smallintMax else r.count - 1 }

/-- An UPDATE of the session of a host. -/
def updateSession (f : SessionRow → SessionRow) (host : CString) (sessions : List SessionRow) :
    List SessionRow :=
  sessions.map fun r ↦ if sameName r.host host then f r else r

/-- The limit of a host: that of the last exception, or the default in an `unsigned int`. -/
def sessionLimit (conf : Config) (exceptions : List ExceptionRow) (host : CString) : ℕ :=
  ((exceptions.filter fun r ↦ ircMatch r.mask host none).getLast?.map ExceptionRow.limit).getD
    (BitVec.ofInt 32 conf.defSessionLimit).toNat

/-- `add_session`: whether the client may stay. -/
def addSession (conf : Config) (now : ℤ) (host : CString) (s : State) : Bool × State :=
  match s.sessions.find? fun r ↦ sameName r.host host with
  | none => (true, { s with sessions := s.sessions ++ [⟨host, 1, 0⟩] })
  | some r =>
    let limit := sessionLimit conf s.exceptions r.host
    if limit ≠ 0 ∧ limit ≤ r.count then
      let killcount := r.killcount + 1
      if conf.sessionKillClues ≠ 0 ∧ conf.sessionKillClues < killcount then
        let expiry := if conf.sessionAkillExpiry ≠ 0 then conf.sessionAkillExpiry
          else conf.autokillExpiry
        let akills := (addAkill ("*@".toList ++ host) "Session limit exceeded".toList
          "OperServ".toList now (expiry + now) s.akills).2
        (false, { s with
          akills := akills
          sessions := updateSession (setCounts r.count 0) host s.sessions })
      else
        (false, { s with sessions := updateSession (setCounts r.count killcount) host s.sessions })
    else
      (true, { s with
        sessions := updateSession (setCounts (r.count + 1) r.killcount) host s.sessions })

/-- `del_session`. -/
def delSession (host : CString) (s : State) : State :=
  { s with sessions := updateSession countDown host s.sessions }

/-! ### Messages -/

/-- `finduser`. -/
def findClient (s : State) (nick : CString) : Option Client :=
  s.users.find? fun u ↦ sameName u.nick nick

/-- `do_nick` for a new client. -/
def connect (conf : Config) (now : ℤ) (u : Client) (s : State) : State :=
  if (checkAkill s.akills u.username u.host.name).isSome then s
  else
    match addSession conf now u.host.name s with
    | (false, s) => s
    | (true, s) => { s with users := { u with nick := strscpy u.nick NICKMAX } :: s.users }

/-- `do_nick` for a user. He moves to the front of a list. -/
def changeNick (source nick : CString) (s : State) : State :=
  match findClient s source with
  | none => s
  | some u =>
    { s with
      users := { u with nick := strscpy nick NICKMAX } ::
        s.users.eraseP fun u ↦ sameName u.nick source }

/-- `do_quit` and `do_kill`. -/
def removeClient (nick : CString) (s : State) : State :=
  match findClient s nick with
  | none => s
  | some u =>
    let s := delSession u.host.name s
    { s with users := s.users.eraseP fun u ↦ sameName u.nick nick }

/-- The messages that change users. A kill comes from the server or from the services themselves. -/
inductive Message where
  | connect (now : ℤ) (u : Client)
  | nick (source nick : CString)
  | quit (source : CString)
  | kill (nick : CString)

/-- What a message does. -/
def step (conf : Config) (s : State) : Message → State
  | .connect now u => connect conf now u s
  | .nick source nick => changeNick source nick s
  | .quit source => removeClient source s
  | .kill nick => removeClient nick s

/-- The state after a run. -/
def run (conf : Config) (s : State) (msgs : List Message) : State :=
  msgs.foldl (step conf) s

/-! ### Accounting -/

/-- The count that is stored for a host. -/
def stored (sessions : List SessionRow) (host : CString) : ℕ :=
  ((sessions.find? fun r ↦ sameName r.host host).map SessionRow.count).getD 0

/-- The number of users with a host. -/
def online (users : List Client) (host : CString) : ℕ :=
  users.countP fun u ↦ sameName u.host.name host

/-- The counts are right. -/
def Accounted (s : State) : Prop :=
  ∀ host, stored s.sessions host = online s.users host

/-- No host has more users than its row can count. -/
def Countable (s : State) : Prop :=
  ∀ host, online s.users host ≤ smallintMax

/-- No count is too large for its column. -/
def Fits (sessions : List SessionRow) : Prop :=
  ∀ r ∈ sessions, r.count ≤ smallintMax

section Table

variable {sessions : List SessionRow} {host host' : CString} {f : SessionRow → SessionRow}

theorem stored_congr (h : sameName host host' = true) : stored sessions host = stored sessions host' := by
  simp only [stored, sameName_congr h]

theorem sameName_trans_false {a : CString} (h : sameName a host = true)
    (hne : sameName host host' = false) : sameName a host' = false := by
  rw [Bool.eq_false_iff]
  intro h'
  rw [sameName_iff] at h h'
  exact absurd (sameName_iff.mpr (h.symm.trans h')) (by rw [hne]; exact Bool.false_ne_true)

/-- The row of another host is not changed. -/
theorem stored_update_of_ne (hf : ∀ r, (f r).host = r.host) (hne : sameName host host' = false) :
    stored (updateSession f host sessions) host' = stored sessions host' := by
  induction sessions with
  | nil => rfl
  | cons r rows ih =>
    rw [stored, stored] at ih ⊢
    rw [updateSession, List.map_cons, List.find?_cons, List.find?_cons, ← updateSession]
    by_cases hr : sameName r.host host = true
    · rw [if_pos hr, hf, sameName_trans_false hr hne]
      exact ih
    · rw [if_neg hr]
      cases sameName r.host host' with
      | true => rfl
      | false => exact ih

/-- The row of the host is. -/
theorem stored_update {r : SessionRow} (hf : ∀ r, (f r).host = r.host)
    (hrow : sessions.find? (fun r ↦ sameName r.host host) = some r) :
    stored (updateSession f host sessions) host = (f r).count := by
  rw [stored]
  induction sessions with
  | nil => cases hrow
  | cons a rows ih =>
    rw [updateSession, List.map_cons, List.find?_cons, ← updateSession]
    rw [List.find?_cons] at hrow
    cases ha : sameName a.host host with
    | true =>
      rw [ha] at hrow
      obtain rfl := Option.some.inj hrow
      rw [if_pos rfl, hf, ha]
      rfl
    | false =>
      rw [ha] at hrow
      rw [if_neg Bool.false_ne_true, ha]
      exact ih hrow

theorem stored_insert (hnone : sessions.find? (fun r ↦ sameName r.host host) = none) :
    stored (sessions ++ [⟨host, 1, 0⟩]) host' =
      stored sessions host' + if sameName host host' = true then 1 else 0 := by
  by_cases hsame : sameName host host' = true
  · have hother : sessions.find? (fun r ↦ sameName r.host host') = none := by
      simpa only [sameName_congr hsame] using hnone
    rw [stored, stored, List.find?_append, hother, Option.none_or, List.find?_singleton,
      if_pos hsame, if_pos hsame]
    rfl
  · rw [stored, stored, List.find?_append, List.find?_singleton, if_neg hsame, Option.or_none,
      if_neg hsame]
    rfl

theorem stored_eq {r : SessionRow} (hrow : sessions.find? (fun r ↦ sameName r.host host) = some r) :
    stored sessions host = r.count := by
  rw [stored, hrow]
  rfl

theorem stored_le (h : Fits sessions) (host : CString) : stored sessions host ≤ smallintMax := by
  rw [stored]
  cases hrow : sessions.find? fun r ↦ sameName r.host host with
  | none => exact Nat.zero_le _
  | some r => exact h r (List.mem_of_find?_eq_some hrow)

theorem Fits.update (h : Fits sessions) (hf : ∀ r, r.count ≤ smallintMax → (f r).count ≤ smallintMax) :
    Fits (updateSession f host sessions) := by
  refine List.forall_mem_map.mpr fun r hr ↦ ?_
  split_ifs
  · exact hf r (h r hr)
  · exact h r hr

end Table

/-- The user who is found is one of the list. -/
theorem countP_eraseP {α : Type} {p q : α → Bool} {l : List α} {a : α} (h : l.find? p = some a) :
    (l.eraseP p).countP q + (if q a then 1 else 0) = l.countP q := by
  induction l with
  | nil => cases h
  | cons b l ih =>
    rw [List.find?_cons] at h
    cases hb : p b with
    | true =>
      rw [hb] at h
      obtain rfl := Option.some.inj h
      rw [List.eraseP_cons_of_pos hb, List.countP_cons]
    | false =>
      rw [hb] at h
      have hnot : ¬ p b = true := by
        rw [hb]
        exact Bool.false_ne_true
      rw [List.eraseP_cons_of_neg hnot, List.countP_cons, List.countP_cons, ← ih h]
      omega

/-! ### What a message does to the counts -/

theorem users_addSession (conf : Config) (now : ℤ) (host : CString) (s : State) :
    (addSession conf now host s).2.users = s.users := by
  rw [addSession]
  split
  · rfl
  · dsimp only
    split_ifs <;> rfl

/-- A client who is killed is not counted. -/
theorem stored_addSession_killed (conf : Config) (now : ℤ) (host : CString) {s : State}
    (hfits : Fits s.sessions) (h : (addSession conf now host s).1 = false) (host' : CString) :
    stored (addSession conf now host s).2.sessions host' = stored s.sessions host' := by
  have hupdate {r : SessionRow} {killcount : ℕ}
      (hrow : s.sessions.find? (fun r ↦ sameName r.host host) = some r) :
      stored (updateSession (setCounts r.count killcount) host s.sessions) host' =
        stored s.sessions host' := by
    have hhost : ∀ row, (setCounts r.count killcount row).host = row.host := fun _ ↦ rfl
    by_cases hsame : sameName host host' = true
    · rw [← stored_congr hsame, ← stored_congr hsame, stored_update hhost hrow, stored_eq hrow]
      exact Nat.min_eq_right (hfits r (List.mem_of_find?_eq_some hrow))
    · exact stored_update_of_ne hhost (Bool.not_eq_true _ ▸ hsame)
  rw [addSession] at h ⊢
  cases hrow : s.sessions.find? fun r ↦ sameName r.host host with
  | none =>
    rw [hrow] at h
    cases h
  | some r =>
    rw [hrow] at h
    dsimp only at h ⊢
    by_cases hlimit : sessionLimit conf s.exceptions r.host ≠ 0 ∧
        sessionLimit conf s.exceptions r.host ≤ r.count
    · rw [if_pos hlimit]
      by_cases hclues : conf.sessionKillClues ≠ 0 ∧ conf.sessionKillClues < r.killcount + 1
      · rw [if_pos hclues]
        exact hupdate hrow
      · rw [if_neg hclues]
        exact hupdate hrow
    · rw [if_neg hlimit] at h
      cases h

/-- A client who stays is, if there is room in the column. -/
theorem stored_addSession_stays (conf : Config) (now : ℤ) (host : CString) {s : State}
    (hroom : stored s.sessions host < smallintMax) (h : (addSession conf now host s).1 = true)
    (host' : CString) :
    stored (addSession conf now host s).2.sessions host' =
      stored s.sessions host' + if sameName host host' = true then 1 else 0 := by
  rw [addSession] at h ⊢
  cases hrow : s.sessions.find? fun r ↦ sameName r.host host with
  | none => exact stored_insert hrow
  | some r =>
    rw [hrow] at h
    dsimp only at h ⊢
    have hlimit : ¬ (sessionLimit conf s.exceptions r.host ≠ 0 ∧
        sessionLimit conf s.exceptions r.host ≤ r.count) := by
      intro hlimit
      rw [if_pos hlimit] at h
      split_ifs at h
    rw [if_neg hlimit]
    have hhost : ∀ row, (setCounts (r.count + 1) r.killcount row).host = row.host := fun _ ↦ rfl
    by_cases hsame : sameName host host' = true
    · rw [if_pos hsame, ← stored_congr hsame, ← stored_congr hsame, stored_update hhost hrow]
      rw [stored_eq hrow] at hroom ⊢
      exact Nat.min_eq_right hroom
    · rw [if_neg hsame]
      exact stored_update_of_ne hhost (Bool.not_eq_true _ ▸ hsame)

theorem fits_addSession (conf : Config) (now : ℤ) (host : CString) {s : State}
    (h : Fits s.sessions) : Fits (addSession conf now host s).2.sessions := by
  rw [addSession]
  split
  · refine List.forall_mem_append.mpr ⟨h, List.forall_mem_singleton.mpr ?_⟩
    exact Nat.le_add_left 1 65534
  · have hset (count killcount : ℕ) :
        Fits (updateSession (setCounts count killcount) host s.sessions) :=
      h.update fun _ _ ↦ Nat.min_le_left _ _
    dsimp only
    split_ifs <;> exact hset _ _

theorem stored_countDown {host : CString} {sessions : List SessionRow}
    (hpos : 0 < stored sessions host) (host' : CString) :
    stored (updateSession countDown host sessions) host' +
      (if sameName host host' = true then 1 else 0) = stored sessions host' := by
  have hhost : ∀ row, (countDown row).host = row.host := fun _ ↦ rfl
  by_cases hsame : sameName host host' = true
  · rw [if_pos hsame, ← stored_congr hsame, ← stored_congr hsame]
    cases hrow : sessions.find? fun r ↦ sameName r.host host with
    | none =>
      rw [stored, hrow] at hpos
      exact absurd hpos (Nat.lt_irrefl 0)
    | some r =>
      rw [stored_eq hrow] at hpos ⊢
      rw [stored_update hhost hrow, countDown, if_neg hpos.ne']
      exact Nat.sub_add_cancel hpos
  · rw [if_neg hsame]
    exact stored_update_of_ne hhost (Bool.not_eq_true _ ▸ hsame)

theorem online_changeNick (source nick host : CString) (s : State) :
    online (changeNick source nick s).users host = online s.users host := by
  rw [changeNick]
  cases huser : findClient s source with
  | none => rfl
  | some u =>
    rw [online, online, List.countP_cons]
    exact countP_eraseP (q := fun u ↦ sameName u.host.name host) huser

theorem accounted_changeNick {source nick : CString} {s : State} (h : Accounted s) :
    Accounted (changeNick source nick s) := by
  intro host
  have hsessions : (changeNick source nick s).sessions = s.sessions := by
    rw [changeNick]
    split <;> rfl
  rw [hsessions, online_changeNick]
  exact h host

theorem accounted_removeClient {nick : CString} {s : State} (h : Accounted s) :
    Accounted (removeClient nick s) := by
  rw [removeClient]
  cases huser : findClient s nick with
  | none => exact h
  | some u =>
    have hmem : u ∈ s.users := List.mem_of_find?_eq_some huser
    have hpos : 0 < stored s.sessions u.host.name := by
      rw [h, online, List.countP_pos_iff]
      exact ⟨u, hmem, sameName_iff.mpr rfl⟩
    intro host
    have hdown := stored_countDown hpos host
    have herase := countP_eraseP (q := fun u ↦ sameName u.host.name host) huser
    rw [h host, online] at hdown
    exact Nat.add_right_cancel (hdown.trans herase.symm)

theorem accounted_connect {conf : Config} {now : ℤ} {u : Client} {s : State} (h : Accounted s)
    (hfits : Fits s.sessions) (hcountable : Countable (connect conf now u s)) :
    Accounted (connect conf now u s) := by
  rw [connect] at hcountable ⊢
  split_ifs at hcountable ⊢ with hakill
  · exact h
  · have husers := users_addSession conf now u.host.name s
    have hkilled := stored_addSession_killed conf now u.host.name hfits
    have hstays := stored_addSession_stays conf now u.host.name (s := s)
    generalize addSession conf now u.host.name s = added at hcountable husers hkilled hstays ⊢
    obtain ⟨stays, s'⟩ := added
    dsimp only at husers hkilled hstays
    cases stays with
    | false =>
      intro host
      rw [hkilled rfl, husers]
      exact h host
    | true =>
      have hself : sameName u.host.name u.host.name = true := sameName_iff.mpr rfl
      have hroom : stored s.sessions u.host.name < smallintMax := by
        have hle := hcountable u.host.name
        rw [online, List.countP_cons, husers, if_pos hself, ← online] at hle
        rw [h]
        exact hle
      intro host
      rw [hstays hroom rfl, online, List.countP_cons, husers, h host]
      rfl

/-! ### Runs -/

theorem fits_step {conf : Config} {s : State} (h : Fits s.sessions) (msg : Message) :
    Fits (step conf s msg).sessions := by
  have hremove (nick : CString) : Fits (removeClient nick s).sessions := by
    rw [removeClient]
    split
    · exact h
    · refine h.update fun r hr ↦ ?_
      rw [countDown]
      split_ifs
      · exact le_rfl
      · exact (Nat.sub_le _ _).trans hr
  cases msg with
  | connect now u =>
    rw [step, connect]
    split_ifs
    · exact h
    · have hadd := fits_addSession conf now u.host.name h
      generalize addSession conf now u.host.name s = added at hadd ⊢
      obtain ⟨stays, s'⟩ := added
      cases stays with
      | false => exact hadd
      | true => exact hadd
  | nick source nick =>
    rw [step, changeNick]
    split
    · exact h
    · exact h
  | quit source => exact hremove source
  | kill nick => exact hremove nick

theorem accounted_step {conf : Config} {s : State} (h : Accounted s) (hfits : Fits s.sessions)
    (msg : Message) : Accounted (step conf s msg) ↔ Countable (step conf s msg) := by
  constructor
  · intro haccounted host
    rw [← haccounted host]
    exact stored_le (fits_step hfits msg) host
  · intro hcountable
    cases msg with
    | connect now u => exact accounted_connect h hfits hcountable
    | nick source nick => exact accounted_changeNick h
    | quit source => exact accounted_removeClient h
    | kill nick => exact accounted_removeClient h

/-- No users and no sessions. -/
def State.empty (exceptions : List ExceptionRow) (akills : List AkillRow) : State :=
  ⟨[], [], exceptions, akills⟩

/-- For every run, the counts are right in each state iff no host ever has more users than its row can
count. -/
theorem accounted_iff (conf : Config) (exceptions : List ExceptionRow) (akills : List AkillRow)
    (msgs : List Message) :
    (∀ l, l <+: msgs → Accounted (run conf (.empty exceptions akills) l)) ↔
      ∀ l, l <+: msgs → Countable (run conf (.empty exceptions akills) l) := by
  have hfits (l : List Message) : Fits (run conf (.empty exceptions akills) l).sessions :=
    foldl_invariant (p := fun s : State ↦ Fits s.sessions) (fun _ msg h ↦ fits_step h msg)
      (fun r hr ↦ by cases hr) l
  constructor
  · intro h l hl host
    rw [← h l hl host]
    exact stored_le (hfits l) host
  · intro h l
    induction l using List.reverseRecOn with
    | nil => exact fun _ _ ↦ rfl
    | append_singleton l msg ih =>
      intro hl
      have hstep : run conf (.empty exceptions akills) (l ++ [msg]) =
          step conf (run conf (.empty exceptions akills) l) msg := by
        rw [run, List.foldl_append]
        rfl
      have hcountable := h _ hl
      rw [hstep] at hcountable ⊢
      exact (accounted_step (ih ((List.prefix_append l [msg]).trans hl)) (hfits l) msg).mpr hcountable

/-- A client who connects is a user, where no akill and no limit stops him. -/
theorem users_connect {conf : Config} (now : ℤ) (u : Client) {s : State} (hakills : s.akills = [])
    (hexceptions : s.exceptions = [])
    (hlimit : ∀ r ∈ s.sessions, r.count < (BitVec.ofInt 32 conf.defSessionLimit).toNat) :
    (connect conf now u s).users = { u with nick := strscpy u.nick NICKMAX } :: s.users ∧
      (connect conf now u s).akills = [] ∧ (connect conf now u s).exceptions = [] := by
  rw [connect, hakills, if_neg (by exact Bool.false_ne_true), addSession]
  cases hrow : s.sessions.find? fun r ↦ sameName r.host u.host.name with
  | none => exact ⟨rfl, hakills, hexceptions⟩
  | some r =>
    have hroom : ¬ (sessionLimit conf s.exceptions r.host ≠ 0 ∧
        sessionLimit conf s.exceptions r.host ≤ r.count) := by
      rw [hexceptions]
      exact fun h ↦ absurd (hlimit r (List.mem_of_find?_eq_some hrow)) (Nat.not_lt.mpr h.2)
    dsimp only
    rw [if_neg hroom]
    exact ⟨rfl, hakills, hexceptions⟩

/-- A limit above what the column holds. -/
def crowdedConfig : Config := ⟨100000, 0, 0, 0⟩

/-- One of many users. -/
def visitor : Client :=
  ⟨"a".toList, "a".toList, ⟨['h'], by decide +kernel, List.forall_mem_singleton.mpr (by decide)⟩⟩

theorem online_crowd (n : ℕ) :
    let s := run crowdedConfig (.empty [] []) (List.replicate n (.connect 0 visitor))
    online s.users visitor.host.name = n ∧ s.akills = [] ∧ s.exceptions = [] ∧ Fits s.sessions := by
  induction n with
  | zero => exact ⟨rfl, rfl, rfl, fun r hr ↦ by cases hr⟩
  | succ n ih =>
    obtain ⟨hcount, hakills, hexceptions, hfits⟩ := ih
    rw [run] at hcount hakills hexceptions hfits
    rw [List.replicate_succ', run, List.foldl_append, List.foldl_cons, List.foldl_nil]
    generalize List.foldl _ _ _ = s at hcount hakills hexceptions hfits ⊢
    have hlimit : smallintMax < (BitVec.ofInt 32 crowdedConfig.defSessionLimit).toNat := by
      decide +kernel
    obtain ⟨husers, hakills', hexceptions'⟩ := users_connect 0 visitor hakills hexceptions
      fun r hr ↦ (hfits r hr).trans_lt hlimit
    refine ⟨?_, hakills', hexceptions', fits_step hfits _⟩
    have hself : sameName visitor.host.name visitor.host.name = true := sameName_iff.mpr rfl
    rw [step, online, husers, List.countP_cons, if_pos hself, ← online, hcount]

/-- One user more than the column holds is not counted. -/
theorem not_accounted_crowd :
    ¬ ∀ msgs, Accounted (run crowdedConfig (.empty [] []) msgs) := by
  intro h
  obtain ⟨hcount, -, -, hfits⟩ := online_crowd (smallintMax + 1)
  have hstored := h (List.replicate (smallintMax + 1) (.connect 0 visitor)) visitor.host.name
  have hle := stored_le hfits visitor.host.name
  rw [hstored, hcount] at hle
  exact Nat.not_succ_le_self _ hle

/-! ### The limit in force -/

/-- The limit lets a host with so many users connect once more. -/
def LetsIn (limit count : ℕ) : Prop :=
  limit = 0 ∨ count < limit

instance (limit count : ℕ) : Decidable (LetsIn limit count) := inferInstanceAs (Decidable (_ ∨ _))

/-- The exceptions whose mask the host matches, in the order of the list. -/
def matching (exceptions : List ExceptionRow) (host : CString) : List ExceptionRow :=
  exceptions.filter fun r ↦ ircMatch r.mask host none

/-- The limit in force: that of the first exception that the host matches, or the default, in an
`unsigned int` as `add_session` has it. -/
def limitInForce (conf : Config) (exceptions : List ExceptionRow) (host : CString) : ℕ :=
  ((matching exceptions host).head?.map ExceptionRow.limit).getD
    (BitVec.ofInt 32 conf.defSessionLimit).toNat

/-- A mask matches a host without regard to case. -/
theorem ircMatch_congr {s t : CString} (h : sameName s t = true) (mask : CString) :
    ircMatch mask s none = ircMatch mask t none := by
  have hlower : strlower s = strlower t := (stricmp_eq_zero_iff s t).mp (beq_iff_eq.mp h)
  rw [ircMatch, ircMatch, udfDoMatchWild_eq, udfDoMatchWild_eq]
  exact (doMatchWild_map mask s).symm.trans
    ((congrArg (doMatchWild true (strlower mask)) hlower).trans (doMatchWild_map mask t))

/-- A client whose host has no session stays, and another one stays where the limit that is read lets him
in. -/
theorem addSession_fst (conf : Config) (now : ℤ) (host : CString) (s : State) :
    (addSession conf now host s).1 = true ↔
      ∀ r, s.sessions.find? (fun r ↦ sameName r.host host) = some r →
        LetsIn (sessionLimit conf s.exceptions host) r.count := by
  rw [addSession]
  cases hrow : s.sessions.find? fun r ↦ sameName r.host host with
  | none => exact iff_of_true rfl fun r hr ↦ by cases hr
  | some r =>
    have hlimit : sessionLimit conf s.exceptions r.host = sessionLimit conf s.exceptions host := by
      have hsame := List.find?_some hrow
      simp only [sessionLimit, ircMatch_congr hsame]
    simp only [hlimit, Option.some.injEq, forall_eq']
    by_cases hfull : sessionLimit conf s.exceptions host ≠ 0 ∧ sessionLimit conf s.exceptions host ≤ r.count
    · rw [if_pos hfull]
      refine iff_of_false ?_ ?_
      · split_ifs <;> simp
      · rintro (hzero | hlt)
        · exact hfull.1 hzero
        · exact absurd hfull.2 (not_le.mpr hlt)
    · rw [if_neg hfull]
      refine iff_of_true rfl ?_
      by_cases hzero : sessionLimit conf s.exceptions host = 0
      · exact .inl hzero
      · exact .inr (not_le.mp fun hle ↦ hfull ⟨hzero, hle⟩)

/-- A client stays iff the limit in force lets him in, exactly where the host has no session, or no exception
matches it, or the first and the last exception that do let in the same. -/
theorem addSession_limit_iff (conf : Config) (now : ℤ) (host : CString) (s : State) :
    ((addSession conf now host s).1 = true ↔
        LetsIn (limitInForce conf s.exceptions host) (stored s.sessions host)) ↔
      ∀ r first last, s.sessions.find? (fun r ↦ sameName r.host host) = some r →
        (matching s.exceptions host).head? = some first →
          (matching s.exceptions host).getLast? = some last →
            (LetsIn first.limit r.count ↔ LetsIn last.limit r.count) := by
  rw [addSession_fst]
  cases hrow : s.sessions.find? fun r ↦ sameName r.host host with
  | none =>
    refine iff_of_true (iff_of_true (fun r hr ↦ by cases hr) ?_) (fun r _ _ hr ↦ by cases hr)
    rw [stored, hrow]
    exact (Nat.eq_zero_or_pos _)
  | some r =>
    have hcount : stored s.sessions host = r.count := by rw [stored, hrow]; rfl
    rw [hcount]
    simp only [Option.some.injEq, forall_eq']
    rw [limitInForce, sessionLimit, ← matching]
    cases hmatching : matching s.exceptions host with
    | nil => exact iff_of_true Iff.rfl fun r' first last _ hfirst ↦ by cases hfirst
    | cons first rest =>
      obtain ⟨last, hlast⟩ : ∃ last, (first :: rest).getLast? = some last :=
        ⟨_, List.getLast?_eq_some_getLast (List.cons_ne_nil first rest)⟩
      rw [hlast]
      constructor
      · rintro h r' first' last' rfl hfirst hlast'
        cases hfirst
        cases hlast'
        exact h.symm
      · intro h
        exact (h r first last rfl rfl rfl).symm

/-- Two exceptions for one host, the first with a limit of 2 and the second without one. -/
def overlapping : State :=
  { State.empty [⟨"*.example".toList, 2⟩, ⟨"*".toList, 0⟩] [] with
    sessions := [⟨"a.example".toList, 2, 0⟩] }

/-- The third client from the host stays, since the second exception is used. -/
theorem not_addSession_limit :
    ¬ ((addSession ⟨3, 0, 0, 0⟩ 0 "a.example".toList overlapping).1 = true ↔
      LetsIn (limitInForce ⟨3, 0, 0, 0⟩ overlapping.exceptions "a.example".toList)
        (stored overlapping.sessions "a.example".toList)) := by
  have hstays : (addSession ⟨3, 0, 0, 0⟩ 0 "a.example".toList overlapping).1 = true := by decide +kernel
  have hfull : ¬ LetsIn (limitInForce ⟨3, 0, 0, 0⟩ overlapping.exceptions "a.example".toList)
      (stored overlapping.sessions "a.example".toList) := by decide +kernel
  exact fun h ↦ hfull (h.mp hstays)

end BlitzedServices.Sessions
