import BlitzedServices.Mysql.Connection
import BlitzedServices.NickServ.World

/-!
# Notices and the connection

A notice is sent in the language of its user, which `getstring` looks up in the nick cache, and the cache
asks the database when its entry is missing or an hour old. A `Session` is the world with what was asked of
the connection and with the notices sent. The time of each lookup is given by a clock.

While a result is open (`Reading`) such a lookup is a statement that the server rejects, and the process
ends. A `Phase` is a piece of code that makes some number of lookups and nothing else that matters to the
connection: it stays in sync iff the entry is fresh at each of them.
-/

set_option autoImplicit false
set_option relaxedAutoImplicit false

namespace BlitzedServices.NickServ

open Lib Mysql

/-! ### Sessions -/

/-- The world, what was asked of the connection, the notices with their languages, and how many languages
have been looked up. -/
structure Session (μ : Type) where
  world : World
  calls : List Call
  notices : List (ℕ × μ)
  lookedUp : ℕ

variable {μ : Type}

namespace Session

/-- A call, and what it makes of the world. The server rejects a statement while a result is open, and
`handle_mysql_error` ends the process. -/
def ask (c : Call) (f : World → World) (s : Session μ) : Session μ :=
  if s.world.alive then
    { s with
      world := if c.isStatement ∧ isOpen s.calls then s.world.die else f s.world
      calls := s.calls ++ [c] }
  else s

end Session

/-- `nickcache_get_language` asks the database. -/
def languageQueried (now nickId : ℕ) (w : World) : Bool :=
  match nickcacheFind w nickId with
  | none => true
  | some nc => 60 * 60 ≤ now - nc.languageTimestamp

def DEF_LANGUAGE : ℕ := 0

/-- The language that a lookup returns. -/
def languageOf (nickId : ℕ) (w : World) : ℕ :=
  if nickId = 0 then DEF_LANGUAGE else ((nickcacheFind w nickId).map Nickcache.language).getD 0

namespace Session

/-- `getstring`, and the lookup in `strftime_lang`. -/
def getstring (clock : ℕ → ℕ) (nickId : ℕ) (s : Session μ) : Session μ :=
  let now := clock s.lookedUp
  let s := { s with lookedUp := s.lookedUp + 1 }
  if nickId ≠ 0 ∧ languageQueried now nickId s.world then
    s.ask .store (freshenLanguage now nickId)
  else s

/-- `notice_lang`. -/
def noticeLang (clock : ℕ → ℕ) (u : User) (m : μ) (s : Session μ) : Session μ :=
  let s := s.getstring clock u.nickId
  if s.world.alive then
    { s with notices := s.notices ++ [(languageOf u.nickId s.world, m)] }
  else s

end Session

/-! ### Lookups -/

section Lookups

variable {clock : ℕ → ℕ} {nickId now : ℕ} {w : World} {s : Session μ}

/-- A lookup that asks nothing changes nothing. -/
theorem freshenLanguage_of_not_queried (halive : w.alive = true) (hnick : nickId ≠ 0)
    (h : languageQueried now nickId w = false) : freshenLanguage now nickId w = w := by
  rw [freshenLanguage, nickcacheFreshen, World.act, if_pos halive, if_neg hnick]
  rw [languageQueried] at h
  cases hfind : nickcacheFind w nickId with
  | none => simp [hfind] at h
  | some nc =>
    have hyoung : ¬ 60 * 60 ≤ now - nc.languageTimestamp := by simpa [hfind] using h
    exact if_neg hyoung

/-- With no result open a lookup is what `noticeLang` makes of the world. -/
theorem world_getstring (halive : s.world.alive = true) (hclosed : isOpen s.calls = false) (u : User) :
    (s.getstring clock u.nickId).world = noticeLang (clock s.lookedUp) u s.world := by
  rw [Session.getstring, NickServ.noticeLang]
  by_cases hnick : u.nickId = 0
  · rw [if_neg fun h ↦ h.1 hnick, if_neg fun h ↦ h hnick]
  · rw [if_pos hnick]
    by_cases hquery : languageQueried (clock s.lookedUp) u.nickId s.world = true
    · rw [if_pos ⟨hnick, hquery⟩, Session.ask, if_pos halive]
      exact if_neg (by simp [hclosed])
    · rw [if_neg fun h ↦ hquery h.2]
      exact (freshenLanguage_of_not_queried halive hnick (Bool.eq_false_of_not_eq_true hquery)).symm

end Lookups

/-! ### Closed sessions -/

/-- All is in sync, and no result is open. -/
structure Closed (s : Session μ) : Prop where
  inSync : InSync s.calls
  isOpen : isOpen s.calls = false

section Closed

variable {clock : ℕ → ℕ} {s : Session μ}

/-- Any call but `smysql_query` leaves the session closed. -/
theorem Closed.ask (h : Closed s) {c : Call} (hc : c.leavesOpen false = false) (f : World → World) :
    Closed (s.ask c f) := by
  rw [Session.ask]
  by_cases halive : s.world.alive = true
  · rw [if_pos halive]
    constructor
    · exact inSync_concat.mpr ⟨h.inSync, fun _ ↦ h.isOpen⟩
    · exact isOpen_concat.trans (by rw [h.isOpen, hc])
  · rw [if_neg halive]
    exact h

/-- The first call after a closed session is in sync, whatever it is. -/
theorem Closed.inSync_ask (h : Closed s) (c : Call) (f : World → World) :
    InSync (s.ask c f).calls := by
  rw [Session.ask]
  by_cases halive : s.world.alive = true
  · rw [if_pos halive]
    exact inSync_concat.mpr ⟨h.inSync, fun _ ↦ h.isOpen⟩
  · rw [if_neg halive]
    exact h.inSync

theorem Closed.getstring (h : Closed s) (clock : ℕ → ℕ) (nickId : ℕ) :
    Closed (s.getstring clock nickId) := by
  have hnext : Closed { s with lookedUp := s.lookedUp + 1 } := ⟨h.inSync, h.isOpen⟩
  rw [Session.getstring]
  split_ifs with hquery
  · exact hnext.ask rfl _
  · exact hnext

theorem Closed.noticeLang (h : Closed s) (clock : ℕ → ℕ) (u : User) (m : μ) :
    Closed (s.noticeLang clock u m) := by
  have hget := h.getstring clock u.nickId
  rw [Session.noticeLang]
  split_ifs with halive
  · exact ⟨hget.inSync, hget.isOpen⟩
  · exact hget

end Closed

/-! ### Reading a result -/

/-- A result is open, and the cache has the entry `e` for a nick. -/
structure Reading (nickId : ℕ) (e : Option Nickcache) (n : ℕ) (s : Session μ) : Prop where
  alive : s.world.alive = true
  isOpen : isOpen s.calls = true
  inSync : InSync s.calls
  entry : nickcacheFind s.world nickId = e
  lookedUp : s.lookedUp = n

/-- The `i`th lookup finds the language in the cache, or needs none. -/
def Fresh (clock : ℕ → ℕ) (nickId : ℕ) (e : Option Nickcache) (i : ℕ) : Prop :=
  nickId = 0 ∨ ∃ nc, e = some nc ∧ clock i - nc.languageTimestamp < 60 * 60

/-- Code that makes `k` lookups, and no statement but for them. -/
structure Phase (clock : ℕ → ℕ) (nickId : ℕ) (e : Option Nickcache) (k : ℕ)
    (f : Session μ → Session μ) : Prop where
  grows : ∀ s, s.calls <+: (f s).calls
  keeps : ∀ n s, Reading nickId e n s → (∀ i < k, Fresh clock nickId e (n + i)) →
    Reading nickId e (n + k) (f s)
  breaks : ∀ n s, Reading nickId e n s → (¬ ∀ i < k, Fresh clock nickId e (n + i)) →
    ¬ InSync (f s).calls

section Reading

variable {clock : ℕ → ℕ} {nickId k l n : ℕ} {e : Option Nickcache} {s : Session μ}
  {f g : Session μ → Session μ}

theorem Session.grows_ask (c : Call) (f : World → World) (s : Session μ) :
    s.calls <+: (s.ask c f).calls := by
  rw [ask]
  by_cases halive : s.world.alive = true
  · rw [if_pos halive]
    exact List.prefix_append _ _
  · rw [if_neg halive]

theorem not_inSync_of_grows (hgrows : s.calls <+: (f s).calls) (h : ¬ InSync s.calls) :
    ¬ InSync (f s).calls := by
  obtain ⟨more, hmore⟩ := hgrows
  rw [← hmore]
  exact fun hsync ↦ h hsync.of_append

/-- `smysql_query` opens a result. -/
theorem Closed.ask_use (h : Closed s) (halive : s.world.alive = true) :
    Reading nickId (nickcacheFind s.world nickId) s.lookedUp (s.ask .use id) := by
  rw [Session.ask, if_pos halive]
  constructor
  · rw [if_neg (by simp [h.isOpen])]
    exact halive
  · exact isOpen_concat
  · exact inSync_concat.mpr ⟨h.inSync, fun _ ↦ h.isOpen⟩
  · rw [if_neg (by simp [h.isOpen])]
    rfl
  · rfl

/-- While a result is read, a phase stays in sync iff each of its lookups finds the language. -/
theorem Phase.iff (h : Phase clock nickId e k f) (hs : Reading nickId e n s) :
    InSync (f s).calls ↔ ∀ i < k, Fresh clock nickId e (n + i) := by
  constructor
  · intro hsync
    by_contra hstale
    exact h.breaks n s hs hstale hsync
  · exact fun hfresh ↦ (h.keeps n s hs hfresh).inSync

theorem phase_id : Phase clock nickId e 0 (id : Session μ → Session μ) where
  grows := fun _ ↦ List.prefix_rfl
  keeps := fun _ _ hs _ ↦ hs
  breaks := fun _ _ _ hstale ↦ absurd (fun i hi ↦ absurd hi (Nat.not_lt_zero i)) hstale

/-- One phase after the other. -/
theorem Phase.comp (hf : Phase clock nickId e k f) (hg : Phase clock nickId e l g) :
    Phase clock nickId e (k + l) fun s ↦ g (f s) where
  grows := fun s ↦ (hf.grows s).trans (hg.grows _)
  keeps := by
    intro n s hs hfresh
    rw [← Nat.add_assoc]
    refine hg.keeps _ _ (hf.keeps n s hs fun i hi ↦ hfresh i (by omega)) fun i hi ↦ ?_
    rw [Nat.add_assoc]
    exact hfresh (k + i) (by omega)
  breaks := by
    intro n s hs hstale
    by_cases hfirst : ∀ i < k, Fresh clock nickId e (n + i)
    · refine hg.breaks _ _ (hf.keeps n s hs hfirst) fun hsecond ↦ hstale fun i hi ↦ ?_
      rcases Nat.lt_or_ge i k with hlt | hge
      · exact hfirst i hlt
      · obtain ⟨j, rfl⟩ := Nat.exists_eq_add_of_le hge
        rw [← Nat.add_assoc]
        exact hsecond j (by omega)
    · exact not_inSync_of_grows (hg.grows _) (hf.breaks n s hs hfirst)

/-- The rows of a result are got by a phase: from a closed session all is in sync iff every lookup until
the last row finds its language in the cache. A process that has ended asks nothing. -/
theorem inSync_unbuffered_iff (h : Closed s) (hphase : ∀ e, Phase clock nickId e k f)
    (hclosed : ∀ s, Closed s → Closed (f s)) :
    InSync ((f (s.ask .use id)).ask .free id).calls ↔
      (s.world.alive = true → ∀ i < k,
        Fresh clock nickId (nickcacheFind s.world nickId) (s.lookedUp + i)) := by
  by_cases halive : s.world.alive = true
  · rw [forall_prop_of_true halive, ← (hphase _).iff (h.ask_use halive)]
    constructor
    · intro hsync
      obtain ⟨more, hmore⟩ := Session.grows_ask .free id (f (s.ask .use id))
      rw [← hmore] at hsync
      exact hsync.of_append
    · intro hsync
      rw [Session.ask]
      by_cases hlive : (f (s.ask .use id)).world.alive = true
      · rw [if_pos hlive]
        exact inSync_concat.mpr ⟨hsync, fun hfree ↦ Bool.noConfusion hfree⟩
      · rw [if_neg hlive]
        exact hsync
  · refine iff_of_true ?_ fun hlive ↦ absurd hlive halive
    have hsame : s.ask .use id = s := by rw [Session.ask, if_neg halive]
    rw [hsame]
    exact ((hclosed s h).ask rfl id).inSync

/-- `smysql_fetch_row`. -/
theorem phase_fetch : Phase clock nickId e 0 (Session.ask (μ := μ) .fetch id) where
  grows := Session.grows_ask _ _
  keeps := by
    intro n s hs _
    rw [Session.ask, if_pos hs.alive]
    constructor
    · exact hs.alive
    · exact isOpen_concat.trans hs.isOpen
    · exact inSync_concat.mpr ⟨hs.inSync, fun h ↦ Bool.noConfusion h⟩
    · exact hs.entry
    · exact hs.lookedUp
  breaks := fun _ _ _ hstale ↦ absurd (fun i hi ↦ absurd hi (Nat.not_lt_zero i)) hstale

/-- A lookup. -/
theorem phase_getstring : Phase clock nickId e 1 (Session.getstring (μ := μ) clock nickId) where
  grows := by
    intro s
    rw [Session.getstring]
    split_ifs with hquery
    · exact Session.grows_ask .store _ { s with lookedUp := s.lookedUp + 1 }
    · exact List.prefix_rfl
  keeps := by
    intro n s hs hfresh
    have hquiet : ¬ (nickId ≠ 0 ∧ languageQueried (clock s.lookedUp) nickId s.world = true) := by
      rintro ⟨hnick, hquery⟩
      rcases hfresh 0 one_pos with hzero | ⟨nc, he, hyoung⟩
      · exact hnick hzero
      · rw [languageQueried, hs.entry, he, hs.lookedUp] at hquery
        exact absurd (of_decide_eq_true hquery) (not_le.mpr hyoung)
    rw [Session.getstring]
    dsimp only
    rw [if_neg hquiet]
    exact ⟨hs.alive, hs.isOpen, hs.inSync, hs.entry, congrArg (· + 1) hs.lookedUp⟩
  breaks := by
    intro n s hs hstale
    have hquery : nickId ≠ 0 ∧ languageQueried (clock s.lookedUp) nickId s.world = true := by
      by_contra hnot
      refine hstale fun i hi ↦ ?_
      obtain rfl : i = 0 := by omega
      rw [Fresh]
      by_contra hboth
      obtain ⟨hnick, hnone⟩ := not_or.mp hboth
      refine hnot ⟨hnick, ?_⟩
      rw [languageQueried, hs.entry, hs.lookedUp]
      cases he : e with
      | none => rfl
      | some nc => exact decide_eq_true (not_lt.mp fun hyoung ↦ hnone ⟨nc, he, hyoung⟩)
    rw [Session.getstring]
    dsimp only
    rw [if_pos hquery, Session.ask, if_pos hs.alive]
    intro hsync
    have hopen := (inSync_concat.mp hsync).2 rfl
    exact absurd hs.isOpen (Bool.eq_false_iff.mp hopen)

/-- A notice. -/
theorem phase_noticeLang (u : User) (m : μ) :
    Phase clock u.nickId e 1 (Session.noticeLang clock u m) where
  grows := by
    intro s
    have hget : Phase clock u.nickId e 1 (Session.getstring (μ := μ) clock u.nickId) :=
      phase_getstring
    rw [Session.noticeLang]
    split_ifs with halive
    · exact hget.grows s
    · exact hget.grows s
  keeps := by
    intro n s hs hfresh
    have hget := phase_getstring.keeps n s hs hfresh
    rw [Session.noticeLang, if_pos hget.alive]
    exact ⟨hget.alive, hget.isOpen, hget.inSync, hget.entry, hget.lookedUp⟩
  breaks := by
    intro n s hs hstale
    have hget := phase_getstring.breaks n s hs hstale
    rw [Session.noticeLang]
    split_ifs with halive
    · exact hget
    · exact hget

/-- A loop over rows, each of which is a phase. -/
theorem phase_foldl {ρ : Type} {body : Session μ → ρ → Session μ} {size : ρ → ℕ}
    (hbody : ∀ row, Phase clock nickId e (size row) fun s ↦ body s row) (rows : List ρ) :
    Phase clock nickId e (rows.map size).sum fun s ↦ rows.foldl body s := by
  induction rows with
  | nil => exact phase_id
  | cons row rows ih => exact (hbody row).comp ih

end Reading

end BlitzedServices.NickServ
