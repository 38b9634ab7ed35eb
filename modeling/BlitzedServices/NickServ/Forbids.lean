import BlitzedServices.NickServ.Changes

/-!
# Forbidden nicks

FORBID gives a nick the status `NS_VERBOTEN`, one bit of a word that also has the flags of a session.
`ns_init` is to spare forbidden nicks when it resets the statuses, but it spares those whose status is
`NS_VERBOTEN` and nothing else.

`forbidden_run` says that a forbidden nick stays one, unless it is dropped, and is neither identified nor
linked as long as no process starts while somebody who uses it is about to be given another nick, and
nobody is known as its owner: by its password, by a user mode, or by a change of case under the ids of
another nick.
-/

set_option autoImplicit false
set_option relaxedAutoImplicit false

namespace BlitzedServices.NickServ

open Lib Lib.SqlText Mysql ChanServ

/-! ### What should hold -/

/-- The status of a forbidden nick. -/
def Verboten (status : BitVec 32) : Prop :=
  status &&& NS_VERBOTEN ≠ 0#32

instance (status : BitVec 32) : Decidable (Verboten status) :=
  inferInstanceAs (Decidable (_ ≠ _))

/-- A nick of that name is forbidden. -/
def ForbidsName (w : World) (name : CString) : Prop :=
  ∃ r ∈ w.db.nick, sameName r.nick name = true ∧ Verboten r.status

instance (w : World) (name : CString) : Decidable (ForbidsName w name) :=
  inferInstanceAs (Decidable (∃ r ∈ w.db.nick, _))

/-- The name is taken by a nick that is forbidden, not identified and not linked. -/
structure Forbidden (w : World) (name : CString) : Prop where
  row : ∃ r ∈ w.db.nick, sameName r.nick name = true
  verboten : ∀ r ∈ w.db.nick, sameName r.nick name = true → Verboten r.status ∧
    ∀ nc ∈ w.nickcache, nc.nickId = r.nickId → Verboten nc.status
  unidentified : ∀ r ∈ w.db.nick, sameName r.nick name = true → r.status &&& NS_IDENTIFIED = 0#32 ∧
    ∀ nc ∈ w.nickcache, nc.nickId = r.nickId → nc.status &&& NS_IDENTIFIED = 0#32
  unlinked : ∀ r ∈ w.db.nick, sameName r.nick name = true → r.linkId = 0 ∧
    ∀ r' ∈ w.db.nick, r'.linkId ≠ r.nickId

/-- The message drops the nick of that name. -/
def Drops (conf : Config) (w : World) (name : CString) : Env × Message → Prop
  | (env, .command source (.drop nick authcode code)) => ∃ r ∈ w.db.nick, sameName r.nick name = true ∧
      Deletes conf w (env, .command source (.drop nick authcode code)) r.nickId
  | _ => False

/-- The nick is forbidden. -/
def Forbids (w : World) (nickId : ℕ) : Prop :=
  ∃ r ∈ w.db.nick, r.nickId = nickId ∧ Verboten r.status

instance (w : World) (nickId : ℕ) : Decidable (Forbids w nickId) :=
  inferInstanceAs (Decidable (∃ r ∈ w.db.nick, _))

/-- What a message must meet. The process starts when no forbidden nick has another flag, a user MODE and
an IDENTIFY are not those of the owner of a forbidden nick, and a user who changes the case of his nick has
the ids of a nick that is forbidden iff this one is. -/
def ForbidsMeet (conf : Config) (w : World) : Env × Message → Prop
  | (_, .restart) => ∀ r ∈ w.db.nick, Verboten r.status → r.status = NS_VERBOTEN
  | (env, .mode source nick modes) => ∀ id, Identifies conf w (env, .mode source nick modes) id →
      ¬ Forbids w id
  | (env, .command source (.identify _)) => ∀ u, finduser w source = some u → Forbids w u.realId →
      env.password u.realId = false
  | (_, .nick source nick) => ∀ u, finduser w source = some u → sameName nick source = true →
      (nickIds w.db nick).1 ≠ 0 → (Forbids w (nickIds w.db nick).1 ↔ Forbids w u.nickId) ∧
        ∀ nc ∈ w.nickcache, nc.nickId = u.nickId → Verboten nc.status → Forbids w u.nickId
  | _ => True

/-! ### Statuses -/

/-- The status is that of a nick that is forbidden and not identified, or of one that is not forbidden. -/
structure Agrees (w : World) (nickId : ℕ) (status : BitVec 32) : Prop where
  verboten : Verboten status ↔ Forbids w nickId
  unidentified : Verboten status → status &&& NS_IDENTIFIED = 0#32

section Agreement

variable {conf : Config} {w₀ w : World} {msg : Env × Message} {nickId : ℕ} {status : BitVec 32}

theorem verboten_or {c : BitVec 32} (h : c &&& NS_VERBOTEN = 0#32) (s : BitVec 32) :
    Verboten (s ||| c) ↔ Verboten s := by
  rw [Verboten, Verboten, verboten_add h]

theorem verboten_and_not {c : BitVec 32} (h : c &&& NS_VERBOTEN = 0#32) (s : BitVec 32) :
    Verboten (s &&& ~~~c) ↔ Verboten s := by
  rw [Verboten, Verboten, verboten_remove h]

theorem Agrees.not_forbids (h : Agrees w nickId status) (hident : status &&& NS_IDENTIFIED ≠ 0#32) :
    ¬ Forbids w nickId :=
  fun hforbids ↦ hident (h.unidentified (h.verboten.mpr hforbids))

/-- No change of a status gives a forbidden nick another one, if the message identifies no forbidden nick
and copies no status to one. -/
theorem Agrees.restated {new : BitVec 32} (h : Agrees w nickId status)
    (hident : Identifies conf w₀ msg nickId → ¬ Forbids w nickId)
    (hcopies : ∀ s, Copies conf w₀ msg nickId s → Agrees w nickId s)
    (hnew : Restated conf w₀ msg w nickId status new) : Agrees w nickId new := by
  rcases hnew with rfl | ⟨halive, f, hf, rfl⟩
  · exact h
  · have hidentified : NS_IDENTIFIED &&& NS_VERBOTEN = 0#32 := by decide
    have hidentify (hnot : ¬ Forbids w nickId) : Agrees w nickId (status ||| NS_IDENTIFIED) := by
      have hverboten := (verboten_or hidentified status).trans h.verboten
      exact ⟨hverboten, fun hv ↦ absurd (hverboten.mp hv) hnot⟩
    cases hf with
    | add c hc =>
      rw [BitVec.and_or_distrib_left, BitVec.or_eq_zero_iff] at hc
      refine ⟨(verboten_or hc.1 status).trans h.verboten, fun hv ↦ ?_⟩
      show (status ||| c) &&& NS_IDENTIFIED = 0#32
      rw [BitVec.and_comm, BitVec.and_or_distrib_left, BitVec.and_comm _ c, hc.2, BitVec.or_zero,
        BitVec.and_comm]
      exact h.unidentified ((verboten_or hc.1 status).mp hv)
    | remove c hc =>
      refine ⟨(verboten_and_not hc status).trans h.verboten, fun hv ↦ ?_⟩
      show status &&& ~~~c &&& NS_IDENTIFIED = 0#32
      rw [BitVec.and_assoc, BitVec.and_comm (~~~c), ← BitVec.and_assoc,
        h.unidentified ((verboten_and_not hc status).mp hv), BitVec.zero_and]
    | recover hused =>
      refine hidentify fun ⟨r, hr, hid, hv⟩ ↦ ?_
      rw [mayNotBeUsed, List.any_eq_false] at hused
      exact hused r hr (decide_eq_true ⟨hid, .inl hv⟩)
    | identify hid => exact hidentify (hident hid)
    | copy s hs => exact hcopies s (hs halive)

end Agreement

/-! ### The invariant -/

/-- No forbidden nick is identified or linked, in the cache neither. -/
structure Barred (w : World) : Prop where
  numbered : Numbered w.registry
  row : ∀ r ∈ w.db.nick, Agrees w r.nickId r.status
  unlinked : ∀ r ∈ w.db.nick, Verboten r.status → r.linkId = 0
  link : ∀ r ∈ w.db.nick, r.linkId < w.nextNickId ∧ ¬ Forbids w r.linkId
  length : ∀ r ∈ w.db.nick, r.nick.length ≤ NICKMAX
  entry : ∀ nc ∈ w.nickcache, nc.nickId < w.nextNickId ∧
    (HasRow w nc.nickId → Agrees w nc.nickId nc.status)

/-- The old nicks that are left, and the cache, agree with the state before, and new nicks are not
linked. -/
structure Revised (w w' : World) : Prop where
  numbered : Numbered w'.registry
  next : w.nextNickId ≤ w'.nextNickId
  old : ∀ r' ∈ w'.db.nick, r'.nickId < w.nextNickId →
    HasRow w r'.nickId ∧ Agrees w r'.nickId r'.status
  new : ∀ r' ∈ w'.db.nick, w.nextNickId ≤ r'.nickId →
    Verboten r'.status → r'.status &&& NS_IDENTIFIED = 0#32
  unlinked : ∀ r' ∈ w'.db.nick, Verboten r'.status → r'.linkId = 0
  link : ∀ r' ∈ w'.db.nick, r'.linkId < w.nextNickId ∧ ¬ Forbids w r'.linkId
  length : ∀ r' ∈ w'.db.nick, r'.nick.length ≤ NICKMAX
  entry : ∀ nc ∈ w'.nickcache, nc.nickId < w.nextNickId ∧
    (HasRow w nc.nickId → Agrees w nc.nickId nc.status)

section Invariant

variable {w w' : World} {nickId : ℕ}

theorem Numbered.row_eq (h : Numbered w.registry) {r s : NickRow} (hr : r ∈ w.db.nick)
    (hs : s ∈ w.db.nick) (hid : r.nickId = s.nickId) : r = s := by
  refine List.inj_on_of_nodup_map (f := NickRow.nickId) ?_ hr hs hid
  have hids := h.sound.ids
  rwa [World.registry, List.map_map] at hids

theorem Numbered.row_lt (h : Numbered w.registry) (hrow : HasRow w nickId) : nickId < w.nextNickId := by
  obtain ⟨r, hr, rfl⟩ := hrow
  exact h.sound.lt (nickEntry r) (List.mem_map_of_mem hr)

theorem Numbered.row_pos (h : Numbered w.registry) (hrow : HasRow w nickId) : 0 < nickId := by
  obtain ⟨r, hr, rfl⟩ := hrow
  exact h.sound.pos (nickEntry r) (List.mem_map_of_mem hr)

theorem Forbids.hasRow (h : Forbids w nickId) : HasRow w nickId := by
  obtain ⟨r, hr, hid, -⟩ := h
  exact ⟨r, hr, hid⟩

theorem Numbered.verboten_iff (h : Numbered w.registry) {r : NickRow} (hr : r ∈ w.db.nick) :
    Verboten r.status ↔ Forbids w r.nickId := by
  constructor
  · exact fun hv ↦ ⟨r, hr, rfl, hv⟩
  · rintro ⟨s, hs, hid, hv⟩
    rwa [← h.row_eq hs hr hid]

namespace Revised

theorem forbids_of_lt (h : Revised w w') (hlt : nickId < w.nextNickId) (hforbids : Forbids w' nickId) :
    Forbids w nickId := by
  obtain ⟨r', hr', rfl, hv⟩ := hforbids
  exact (h.old r' hr' hlt).2.verboten.mp hv

theorem stays (h : Revised w w') (hlt : nickId < w.nextNickId) (hrow : HasRow w' nickId)
    (hforbids : Forbids w nickId) : Forbids w' nickId := by
  obtain ⟨r', hr', rfl⟩ := hrow
  exact ⟨r', hr', rfl, (h.old r' hr' hlt).2.verboten.mpr hforbids⟩

theorem agrees (h : Revised w w') {status : BitVec 32} (hlt : nickId < w.nextNickId)
    (hrow : HasRow w' nickId) (hagrees : Agrees w nickId status) : Agrees w' nickId status :=
  ⟨hagrees.verboten.trans ⟨h.stays hlt hrow, h.forbids_of_lt hlt⟩, hagrees.unidentified⟩

theorem barred (h : Revised w w') : Barred w' where
  numbered := h.numbered
  row r' hr' := by
    refine ⟨h.numbered.verboten_iff hr', fun hv ↦ ?_⟩
    rcases lt_or_ge r'.nickId w.nextNickId with hlt | hge
    · exact (h.old r' hr' hlt).2.unidentified hv
    · exact h.new r' hr' hge hv
  unlinked := h.unlinked
  link r' hr' := by
    have hlink := h.link r' hr'
    exact ⟨hlink.1.trans_le h.next, fun hforbids ↦ hlink.2 (h.forbids_of_lt hlink.1 hforbids)⟩
  length := h.length
  entry nc hnc := by
    have hentry := h.entry nc hnc
    refine ⟨hentry.1.trans_le h.next, fun hrow ↦ h.agrees hentry.1 hrow (hentry.2 ?_)⟩
    obtain ⟨r', hr', hid⟩ := hrow
    rw [← hid]
    exact (h.old r' hr' (hid ▸ hentry.1)).1

end Revised

/-- The rows are those that were there, with other flags or with statuses and links that were reset. -/
theorem Barred.revised (h : Barred w) (hnumbered : Numbered w'.registry)
    (hnext : w'.nextNickId = w.nextNickId)
    (hrow : ∀ r' ∈ w'.db.nick, ∃ r ∈ w.db.nick, r.nickId = r'.nickId ∧ r.nick = r'.nick ∧
      Agrees w r.nickId r'.status ∧ (r'.linkId = r.linkId ∨ r'.linkId = 0))
    (hentry : ∀ nc ∈ w'.nickcache, HasStatus w nc.nickId nc.status) : Revised w w' where
  numbered := hnumbered
  next := hnext.ge
  old r' hr' _ := by
    obtain ⟨r, hr, hid, -, hagrees, -⟩ := hrow r' hr'
    rw [← hid]
    exact ⟨⟨r, hr, rfl⟩, hagrees⟩
  new r' hr' hge := by
    obtain ⟨r, hr, hid, -⟩ := hrow r' hr'
    exact absurd (h.numbered.row_lt ⟨r, hr, hid⟩) (not_lt.mpr hge)
  unlinked r' hr' hv := by
    obtain ⟨r, hr, -, -, hagrees, hlink | hlink⟩ := hrow r' hr'
    · rw [hlink]
      exact h.unlinked r hr ((h.numbered.verboten_iff hr).mpr (hagrees.verboten.mp hv))
    · exact hlink
  link r' hr' := by
    obtain ⟨r, hr, -, -, -, hlink | hlink⟩ := hrow r' hr'
    · rw [hlink]
      exact h.link r hr
    · rw [hlink]
      exact ⟨h.numbered.pos, fun hforbids ↦ (h.numbered.row_pos hforbids.hasRow).ne rfl⟩
  length r' hr' := by
    obtain ⟨r, hr, -, hnick, -⟩ := hrow r' hr'
    rw [← hnick]
    exact h.length r hr
  entry nc hnc := by
    rcases hentry nc hnc with ⟨r, hr, hid, hstatus⟩ | ⟨nc₀, hnc₀, hid, hstatus⟩
    · rw [← hid, ← hstatus]
      exact ⟨h.numbered.row_lt ⟨r, hr, rfl⟩, fun _ ↦ h.row r hr⟩
    · rw [← hid, ← hstatus]
      exact h.entry nc₀ hnc₀

end Invariant

/-! ### Actions -/

/-- The message identifies and links no forbidden nick, and copies no status between a forbidden nick and
another one. -/
structure Harmless (conf : Config) (w : World) (msg : Env × Message) : Prop where
  identifies : ∀ id, Identifies conf w msg id → ¬ Forbids w id
  copies : ∀ id status, Copies conf w msg id status → Agrees w id status
  links : ∀ id target, Links conf w msg id target →
    target < w.nextNickId ∧ ¬ Forbids w target ∧ ¬ Forbids w id

/-- What holds while a message is handled. -/
structure Barring (conf : Config) (w₀ : World) (msg : Env × Message) (w : World) : Prop where
  barred : Barred w
  next : w₀.nextNickId ≤ w.nextNickId
  source : ∀ id, Forbids w id → Forbids w₀ id ∨ ∃ row, Inserts conf w₀ msg row
  stays : ∀ id, Forbids w₀ id → HasRow w id → Forbids w id
  fresh : ∀ id, w₀.nextNickId ≤ id → HasRow w id →
    ∃ row, Inserts conf w₀ msg row ∧ (Verboten row.status → Forbids w id)

section Actions

variable {conf : Config} {w₀ w w' : World} {msg : Env × Message}

theorem Inserts.unidentified {row : NickRow} (h : Inserts conf w₀ msg row) (hv : Verboten row.status) :
    row.status &&& NS_IDENTIFIED = 0#32 := by
  obtain ⟨env, msg⟩ := msg
  cases msg with
  | command source cmd =>
    obtain ⟨u, -, hcmd⟩ := h
    cases cmd with
    | register words code =>
      rw [Verboten, hcmd.2.1] at hv
      exact absurd (by decide) hv
    | forbid nick =>
      cases nick with
      | none => exact hcmd.elim
      | some nick =>
        rw [hcmd.2.1]
        decide
    | _ => exact hcmd.elim
  | _ => exact h.elim

theorem Inserts.length {row : NickRow} (h : Inserts conf w₀ msg row) : row.nick.length ≤ NICKMAX := by
  obtain ⟨env, msg⟩ := msg
  cases msg with
  | command source cmd =>
    obtain ⟨u, -, hcmd⟩ := h
    cases cmd with
    | register words code =>
      rw [hcmd.1, strscpy]
      exact (List.length_take_le _ _).trans (Nat.sub_le _ _)
    | forbid nick =>
      cases nick with
      | none => exact hcmd.elim
      | some nick =>
        rw [hcmd.1]
        exact List.length_take_le _ _
    | _ => exact hcmd.elim
  | _ => exact h.elim

/-- A message that identifies, links or copies inserts no nick. -/
theorem Inserts.alone {row : NickRow} (h : Inserts conf w₀ msg row) (id : ℕ) :
    ¬ Identifies conf w₀ msg id ∧ (∀ status, ¬ Copies conf w₀ msg id status) ∧
      ∀ target, ¬ Links conf w₀ msg id target := by
  obtain ⟨env, msg⟩ := msg
  cases msg with
  | command source cmd =>
    obtain ⟨u, -, hcmd⟩ := h
    cases cmd with
    | register words code => exact ⟨fun ⟨_, _, hid⟩ ↦ hid, fun _ hno ↦ hno, fun _ hno ↦ hno⟩
    | forbid nick => exact ⟨fun ⟨_, _, hid⟩ ↦ hid, fun _ hno ↦ hno, fun _ hno ↦ hno⟩
    | _ => exact hcmd.elim
  | _ => exact h.elim

theorem Copies.deletes_none {id : ℕ} {status : BitVec 32} (h : Copies conf w₀ msg id status) (id' : ℕ) :
    ¬ Deletes conf w₀ msg id' := by
  obtain ⟨env, msg⟩ := msg
  cases msg with
  | nick source nick => exact fun hno ↦ hno
  | _ => exact h.elim

theorem hasRow_iff_entry {nickId : ℕ} : HasRow w nickId ↔ ∃ e ∈ w.registry.nicks, e.id = nickId := by
  rw [World.registry, HasRow]
  simp only [List.mem_map, exists_exists_and_eq_and]
  rfl

theorem Barred.hasStatus (h : Barred w) {nickId : ℕ} {status : BitVec 32}
    (hstatus : HasStatus w nickId status) :
    nickId < w.nextNickId ∧ (HasRow w nickId → Agrees w nickId status) := by
  rcases hstatus with ⟨r, hr, rfl, rfl⟩ | ⟨nc, hnc, rfl, rfl⟩
  · exact ⟨h.numbered.row_lt ⟨r, hr, rfl⟩, fun _ ↦ h.row r hr⟩
  · exact h.entry nc hnc

theorem revised_action (haction : Action conf w₀ msg w w') (h : Barred w)
    (hident : ∀ id, Identifies conf w₀ msg id → ¬ Forbids w id)
    (hcopies : ∀ id status, Copies conf w₀ msg id status → Agrees w id status)
    (hlinks : ∀ id target, Links conf w₀ msg id target →
      target < w.nextNickId ∧ ¬ Forbids w target ∧ ¬ Forbids w id) : Revised w w' where
  numbered := numbered_action haction h.numbered
  next := nextNickId_action haction
  old r' hr' hlt := by
    rcases haction.row_cases hr' with ⟨r, hr, hid, -, hstatus, -⟩ | ⟨⟨row, -, rfl⟩, -⟩
    · rw [← hid]
      exact ⟨⟨r, hr, rfl⟩, (h.row r hr).restated (hident _) (hcopies _) hstatus⟩
    · exact absurd hlt (lt_irrefl _)
  new r' hr' hge hv := by
    rcases haction.row_cases hr' with ⟨r, hr, hid, -⟩ | ⟨⟨row, hrow, rfl⟩, -⟩
    · exact absurd (h.numbered.row_lt ⟨r, hr, hid⟩) (not_lt.mpr hge)
    · exact hrow.unidentified hv
  unlinked r' hr' hv := by
    rcases haction.row_cases hr' with ⟨r, hr, -, -, hstatus, hlink⟩ | ⟨⟨row, hrow, rfl⟩, -⟩
    · have hforbids := ((h.row r hr).restated (hident _) (hcopies _) hstatus).verboten.mp hv
      rcases hlink with hlink | hlink | hlink
      · rw [hlink]
        exact h.unlinked r hr ((h.row r hr).verboten.mpr hforbids)
      · exact hlink
      · exact absurd hforbids (hlinks _ _ hlink).2.2
    · exact hrow.linkId
  link r' hr' := by
    have hzero : 0 < w.nextNickId ∧ ¬ Forbids w 0 :=
      ⟨h.numbered.pos, fun hforbids ↦ (h.numbered.row_pos hforbids.hasRow).ne rfl⟩
    rcases haction.row_cases hr' with ⟨r, hr, -, -, -, hlink | hlink | hlink⟩ | ⟨⟨row, hrow, rfl⟩, -⟩
    · rw [hlink]
      exact h.link r hr
    · rw [hlink]
      exact hzero
    · exact ⟨(hlinks _ _ hlink).1, (hlinks _ _ hlink).2.1⟩
    · show row.linkId < w.nextNickId ∧ ¬ Forbids w row.linkId
      rw [hrow.linkId]
      exact hzero
  length r' hr' := by
    rcases haction.row_cases hr' with ⟨r, hr, -, hnick, -⟩ | ⟨⟨row, hrow, rfl⟩, -⟩
    · rw [← hnick]
      exact h.length r hr
    · exact hrow.length
  entry nc hnc := by
    obtain ⟨status, hold, hstatus⟩ := haction.entry_cases hnc
    have hagrees := h.hasStatus hold
    exact ⟨hagrees.1, fun hrow ↦ (hagrees.2 hrow).restated (hident _) (hcopies _) hstatus⟩

namespace Barring

theorem refl (h : Barred w) : Barring conf w msg w where
  barred := h
  next := le_rfl
  source _ := .inl
  stays _ hforbids _ := hforbids
  fresh _ hle hrow := absurd (h.numbered.row_lt hrow) (not_lt.mpr hle)

theorem source_of_alone (h : Barring conf w₀ msg w) {id : ℕ} (hforbids : Forbids w id)
    (hnone : ∀ row, ¬ Inserts conf w₀ msg row) : Forbids w₀ id :=
  (h.source id hforbids).resolve_right fun ⟨row, hrow⟩ ↦ hnone row hrow

theorem revised (h : Barring conf w₀ msg w) (hharmless : Harmless conf w₀ msg)
    (hkept : ∀ id, Forbids w₀ id → ¬ Deletes conf w₀ msg id → HasRow w id)
    (haction : Action conf w₀ msg w w') : Revised w w' := by
  refine revised_action haction h.barred (fun id hident hforbids ↦ ?_) (fun id status hcopies ↦ ?_)
    fun id target hlinks ↦ ?_
  · exact hharmless.identifies id hident
      (h.source_of_alone hforbids fun row hrow ↦ (hrow.alone id).1 hident)
  · have hagrees := hharmless.copies id status hcopies
    refine ⟨⟨fun hv ↦ ?_, fun hforbids ↦ ?_⟩, hagrees.unidentified⟩
    · have hforbids := hagrees.verboten.mp hv
      exact h.stays id hforbids (hkept id hforbids (hcopies.deletes_none id))
    · exact hagrees.verboten.mpr
        (h.source_of_alone hforbids fun row hrow ↦ (hrow.alone id).2.1 status hcopies)
  · have hold := hharmless.links id target hlinks
    have hnone (row : NickRow) (hrow : Inserts conf w₀ msg row) : False :=
      (hrow.alone id).2.2 target hlinks
    exact ⟨hold.1.trans_le h.next, fun hforbids ↦ hold.2.1 (h.source_of_alone hforbids hnone),
      fun hforbids ↦ hold.2.2 (h.source_of_alone hforbids hnone)⟩

theorem action (h : Barring conf w₀ msg w) (h₀ : Barred w₀) (hrevised : Revised w w')
    (haction : Action conf w₀ msg w w') : Barring conf w₀ msg w' where
  barred := hrevised.barred
  next := h.next.trans hrevised.next
  source id hforbids := by
    rcases lt_or_ge id w.nextNickId with hlt | hge
    · exact h.source id (hrevised.forbids_of_lt hlt hforbids)
    · obtain ⟨r', hr', rfl⟩ := hforbids.hasRow
      rcases haction.row_cases hr' with ⟨r, hr, hid, -⟩ | ⟨⟨row, hrow, -⟩, -⟩
      · exact absurd (h.barred.numbered.row_lt ⟨r, hr, hid⟩) (not_lt.mpr hge)
      · exact .inr ⟨row, hrow⟩
  stays id hforbids hrow' := by
    have hlt : id < w.nextNickId := (h₀.numbered.row_lt hforbids.hasRow).trans_le h.next
    rcases hasRow_action haction hrow' with hrow | ⟨hnew, -⟩
    · exact hrevised.stays hlt hrow' (h.stays id hforbids hrow)
    · exact absurd hnew hlt.ne
  fresh id hle hrow' := by
    obtain ⟨r', hr', rfl⟩ := hrow'
    rcases haction.row_cases hr' with ⟨r, hr, hid, -⟩ | ⟨⟨row, hrow, rfl⟩, -⟩
    · have hold : HasRow w r'.nickId := ⟨r, hr, hid⟩
      obtain ⟨row, hrow, hforbids⟩ := h.fresh r'.nickId hle hold
      exact ⟨row, hrow, fun hv ↦ hrevised.stays (h.barred.numbered.row_lt hold) ⟨r', hr', rfl⟩
        (hforbids hv)⟩
    · exact ⟨row, hrow, fun hv ↦ ⟨_, hr', rfl, hv⟩⟩

end Barring

theorem Acts.hasRow (hacts : Acts conf w₀ msg w) {nickId : ℕ} (hrow : HasRow w₀ nickId)
    (hkept : ¬ Deletes conf w₀ msg nickId) : HasRow w nickId := by
  obtain ⟨e, he, rfl⟩ := hasRow_iff_entry.mp hrow
  obtain ⟨e', he', hid, -⟩ := hacts.named he hkept
  exact hasRow_iff_entry.mpr ⟨e', he', hid⟩

theorem barring_acts (h : Barred w₀) (hharmless : Harmless conf w₀ msg) (hacts : Acts conf w₀ msg w) :
    Barring conf w₀ msg w := by
  induction hacts with
  | refl => exact .refl h
  | tail hacts haction ih =>
    refine ih.action h (ih.revised hharmless (fun id hforbids hkept ↦ ?_) haction) haction
    exact Acts.hasRow hacts hforbids.hasRow hkept

/-- A message that copies nothing makes no status that of a forbidden nick. -/
theorem verboten_acts (hacts : Acts conf w₀ msg w) (hcopies : ∀ id status, ¬ Copies conf w₀ msg id status)
    (hinserts : ∀ row, ¬ Inserts conf w₀ msg row) {id : ℕ} {status : BitVec 32}
    (hstatus : HasStatus w id status) (hv : Verboten status) :
    ∃ old, HasStatus w₀ id old ∧ Verboten old := by
  have hrestated {w : World} {id : ℕ} {old new : BitVec 32} (h : Restated conf w₀ msg w id old new)
      (hv : Verboten new) : Verboten old := by
    have hidentified : NS_IDENTIFIED &&& NS_VERBOTEN = 0#32 := by decide
    rcases h with rfl | ⟨halive, f, hf, rfl⟩
    · exact hv
    · cases hf with
      | add c hc =>
        rw [BitVec.and_or_distrib_left, BitVec.or_eq_zero_iff] at hc
        exact (verboten_or hc.1 old).mp hv
      | remove c hc => exact (verboten_and_not hc old).mp hv
      | recover _ => exact (verboten_or hidentified old).mp hv
      | identify _ => exact (verboten_or hidentified old).mp hv
      | copy s hs => exact absurd (hs halive) (hcopies id s)
  refine hacts.invariant (p := fun w ↦ ∀ id status, HasStatus w id status → Verboten status →
    ∃ old, HasStatus w₀ id old ∧ Verboten old) (fun _ status hs hv ↦ ⟨status, hs, hv⟩) ?_ id status
    hstatus hv
  rintro w w' haction ih id status (⟨r', hr', rfl, rfl⟩ | ⟨nc, hnc, rfl, rfl⟩) hv
  · rcases haction.row_cases hr' with ⟨r, hr, hid, -, hstatus, -⟩ | ⟨⟨row, hrow, -⟩, -⟩
    · exact ih _ _ (.inl ⟨r, hr, hid, rfl⟩) (hrestated hstatus hv)
    · exact absurd hrow (hinserts row)
  · obtain ⟨old, hold, hstatus⟩ := haction.entry_cases hnc
    exact ih _ _ hold (hrestated hstatus hv)

end Actions

/-! ### Lookups -/

section Lookups

variable {w w' : World} {now nickId : ℕ} {status : BitVec 32}

theorem Looked.hasStatus (h : Looked w w') (hstatus : HasStatus w' nickId status) :
    HasStatus w nickId status := by
  rcases hstatus with ⟨r, hr, hrow⟩ | ⟨nc, hnc, rfl, rfl⟩
  · exact .inl ⟨r, h.cacheOnly.db ▸ hr, hrow⟩
  · rcases h.entry nc hnc with hold | hrow
    · exact .inr hold
    · exact .inl hrow

/-- What `get_nick_status` finds. -/
theorem getNickStatus_cases (now nickId : ℕ) (w : World) :
    nickcacheFind (freshenStatus now nickId w) nickId = none ∧ getNickStatus now nickId w = 0#32 ∨
      HasStatus w nickId (getNickStatus now nickId w) := by
  rw [getNickStatus]
  cases hfind : nickcacheFind (freshenStatus now nickId w) nickId with
  | none => exact .inl ⟨rfl, rfl⟩
  | some nc =>
    have hid : nc.nickId = nickId := by simpa using List.find?_some hfind
    exact .inr (((Looked.refl w).freshenStatus now nickId).hasStatus
      (.inr ⟨nc, List.mem_of_find?_eq_some hfind, hid, rfl⟩))

theorem isSome_nickcacheFind : (nickcacheFind w nickId).isSome = true ↔ ∃ nc ∈ w.nickcache, nc.nickId = nickId := by
  rw [nickcacheFind, List.find?_isSome]
  simp only [decide_eq_true_eq]

/-- A registered nick has an entry after a lookup. -/
theorem HasRow.cached (h : HasRow w nickId) (halive : (freshenStatus now nickId w).alive = true) :
    nickcacheFind (freshenStatus now nickId w) nickId ≠ none := by
  have hselect : ∃ nc, selectCached now nickId w = some nc ∧ nc.nickId = nickId := by
    obtain ⟨r, hr, hid⟩ := h
    have hfind : (getNickinfoFromId w.db nickId).isSome = true :=
      List.find?_isSome.mpr ⟨r, hr, decide_eq_true hid⟩
    obtain ⟨s, hs⟩ := Option.isSome_iff_exists.mp hfind
    exact ⟨_, by rw [selectCached, hs]; rfl, rfl⟩
  obtain ⟨nc, hselect, hid⟩ := hselect
  rw [Option.ne_none_iff_isSome]
  rw [freshenStatus, nickcacheFreshen, World.act] at halive ⊢
  split_ifs at halive ⊢ with hw hzero
  · cases halive
  · cases hfind : nickcacheFind w nickId with
    | none =>
      dsimp only
      rw [nickcacheInsert, hselect, isSome_nickcacheFind]
      exact ⟨nc, List.mem_cons_self, hid⟩
    | some nc₀ =>
      dsimp only
      split_ifs
      · rw [nickcacheUpdate, hfind, Option.isSome_some, if_pos rfl, hselect, isSome_nickcacheFind]
        have hmem : nc₀ ∈ w.nickcache := List.mem_of_find?_eq_some hfind
        have hid₀ : nc₀.nickId = nickId := by simpa using List.find?_some hfind
        exact ⟨nc, List.mem_map.mpr ⟨nc₀, hmem, if_pos hid₀⟩, hid⟩
      · rw [hfind]
        rfl
  · contradiction

end Lookups

/-! ### Messages -/

section Messages

variable {conf : Config} {w : World} {msg : Env × Message}

/-- The nick of a user who is identified is not forbidden. -/
theorem Barred.not_forbids_identified (h : Barred w) {now : ℕ} {u : User}
    (hident : nickIdentified now u w = true) : ¬ Forbids w u.realId := by
  intro hforbids
  have hflag : getNickStatus now u.realId w &&& NS_IDENTIFIED ≠ 0#32 := (of_decide_eq_true hident).2
  rcases getNickStatus_cases now u.realId w with ⟨-, hzero⟩ | hstatus
  · rw [hzero, BitVec.zero_and] at hflag
    exact hflag rfl
  · exact ((h.hasStatus hstatus).2 hforbids.hasRow).not_forbids hflag hforbids

/-- The target of a LINK is not forbidden. -/
theorem LinkAccepted.not_forbids {env : Env} {u : User} {nick pass : Option CString}
    (hlink : LinkAccepted conf env u nick pass w) (h : Barred w) :
    ¬ Forbids w (mysqlFindnick w.db (nick.getD [])) := by
  intro hforbids
  obtain ⟨-, -, -, -, -, -, hstatus, -, -, -, -, halive⟩ := hlink
  have hlook := (Looked.refl w).freshenIdentified env.now u
  have hrow : HasRow (freshenIdentified env.now u w) (mysqlFindnick w.db (nick.getD [])) := by
    rw [HasRow, hlook.cacheOnly.db]
    exact hforbids.hasRow
  rcases getNickStatus_cases env.now (mysqlFindnick w.db (nick.getD []))
    (freshenIdentified env.now u w) with ⟨hnone, -⟩ | hfound
  · exact hrow.cached halive hnone
  · have hagrees := (h.hasStatus (hlook.hasStatus hfound)).2 hforbids.hasRow
    exact hagrees.verboten.mpr hforbids hstatus

theorem harmless_copies (h : Barred w) {env : Env} {source nick : CString} {id : ℕ} {status : BitVec 32}
    (hmeets : ForbidsMeet conf w (env, .nick source nick))
    (hcopies : Copies conf w (env, .nick source nick) id status) : Agrees w id status := by
  obtain ⟨u, huser, hsame, rfl, hid, rfl, halive⟩ := hcopies
  obtain ⟨hforbids, hentries⟩ := hmeets u huser hsame hid
  -- Leaving the nick is an action of a QUIT as well.
  have hrefl : Acts conf w (env, .quit []) w := .refl w
  have hquit := hrefl.cancelUser (fun _ hno ↦ hno) env u
  have hharmless : Harmless conf w (env, .quit []) :=
    ⟨fun _ hno ↦ False.elim hno, fun _ _ hno ↦ False.elim hno, fun _ _ hno ↦ False.elim hno⟩
  have hbarring := barring_acts h hharmless hquit
  suffices hagrees : Agrees w u.nickId (getNickStatus env.now u.nickId (cancelUser conf env u w)) from
    ⟨hagrees.verboten.trans hforbids.symm, hagrees.unidentified⟩
  by_cases hrow : HasRow w u.nickId
  · have hleft := Acts.hasRow hquit hrow fun hno ↦ hno
    rcases getNickStatus_cases env.now u.nickId (cancelUser conf env u w) with ⟨hnone, -⟩ | hstatus
    · exact absurd hnone (hleft.cached halive)
    · have hagrees := (hbarring.barred.hasStatus hstatus).2 hleft
      refine ⟨hagrees.verboten.trans ⟨fun hv ↦ ?_, fun hv ↦ ?_⟩, hagrees.unidentified⟩
      · exact hbarring.source_of_alone hv fun _ hno ↦ hno
      · exact hbarring.stays _ hv hleft
  · have hnot : ¬ Forbids w u.nickId := fun hv ↦ hrow hv.hasRow
    have hstatus : ¬ Verboten (getNickStatus env.now u.nickId (cancelUser conf env u w)) := by
      intro hv
      rcases getNickStatus_cases env.now u.nickId (cancelUser conf env u w) with ⟨-, hzero⟩ | hstatus
      · rw [hzero] at hv
        exact hv (by decide)
      · obtain ⟨old, ⟨r, hr, hrid, -⟩ | ⟨nc, hnc, hncid, rfl⟩, hold⟩ :=
          verboten_acts hquit (fun _ _ hno ↦ hno) (fun _ hno ↦ hno) hstatus hv
        · exact hrow ⟨r, hr, hrid⟩
        · exact hnot (hentries nc hnc hncid hold)
    exact ⟨iff_of_false hstatus hnot, fun hv ↦ absurd hv hstatus⟩

theorem harmless_of_meets (h : Barred w) (hmeets : ForbidsMeet conf w msg) : Harmless conf w msg := by
  obtain ⟨env, msg⟩ := msg
  constructor
  · intro id hident
    cases msg with
    | mode source nick modes => exact hmeets id hident
    | command source cmd =>
      obtain ⟨u, huser, hcmd⟩ := hident
      cases cmd with
      | identify pass =>
        obtain ⟨rfl, -, -, hpassword⟩ := hcmd
        intro hforbids
        rw [checkNickPassword, hmeets u huser hforbids, Bool.and_false] at hpassword
        cases hpassword
      | link nick pass =>
        obtain ⟨rfl, hlink⟩ := hcmd
        exact hlink.not_forbids h
      | _ => exact hcmd.elim
    | _ => exact hident.elim
  · intro id status hcopies
    cases msg with
    | nick source nick => exact harmless_copies h hmeets hcopies
    | _ => exact hcopies.elim
  · intro id target hlinks
    cases msg with
    | command source cmd =>
      cases cmd with
      | link nick pass =>
        obtain ⟨u, huser, rfl, rfl, hlink⟩ := hlinks
        have hident := hlink.2.2.2.1
        refine ⟨h.numbered.row_lt (hasRow_findnick hlink.2.2.2.2.1), hlink.not_forbids h,
          h.not_forbids_identified hident⟩
      | _ => exact hlinks.elim
    | _ => exact hlinks.elim

/-! ### Other messages -/

/-- Ids, names, statuses and links are the same. -/
theorem Barred.fixed (h : Barred w) {w' : World} (hquiet : Quiet w w')
    (hrow : ∀ r' ∈ w'.db.nick, ∃ r ∈ w.db.nick, fixedColumns r = fixedColumns r')
    (hentry : ∀ nc ∈ w'.nickcache, HasStatus w nc.nickId nc.status) : Revised w w' := by
  refine h.revised (by rw [hquiet.registry]; exact h.numbered)
    (congrArg Registry.nextNickId hquiet.registry :) (fun r' hr' ↦ ?_) hentry
  obtain ⟨r, hr, hfixed⟩ := hrow r' hr'
  obtain ⟨hid, hnick, hstatus, hlink⟩ : r.nickId = r'.nickId ∧ r.nick = r'.nick ∧
      r.status = r'.status ∧ r.linkId = r'.linkId := by simpa [fixedColumns] using hfixed
  exact ⟨r, hr, hid, hnick, hstatus ▸ h.row r hr, .inl hlink.symm⟩

theorem expireNicksuspends_fixed (expired : ℕ → Bool) (w : World) :
    (∀ r' ∈ (expireNicksuspends expired w).db.nick, ∃ r ∈ w.db.nick, fixedColumns r = fixedColumns r') ∧
      (expireNicksuspends expired w).nickcache = w.nickcache := by
  refine List.foldlRecOn _ _ (motive := fun w' : World ↦
    (∀ r' ∈ w'.db.nick, ∃ r ∈ w.db.nick, fixedColumns r = fixedColumns r') ∧
      w'.nickcache = w.nickcache) ⟨fun r hr ↦ ⟨r, hr, rfl⟩, rfl⟩ ?_
  rintro w' ⟨hrow, hcache⟩ s -
  have hunsuspend := SameStatuses.updateNick (f := fun r ↦ { r with flags := r.flags &&& ~~~NI_SUSPENDED })
    s.nickId w' (fun _ ↦ rfl) fun _ ↦ rfl
  dsimp only
  constructor
  · intro r' hr'
    rw [nick_act fun w ↦ nick_delNicksuspend _ _] at hr'
    rcases mem_updateNick hr' with ⟨hold, -⟩ | ⟨-, r, hr, -, rfl⟩
    · exact hrow r' hold
    · exact hrow r hr
  · refine World.act_cases (p := fun w' ↦ w'.nickcache = w.nickcache) ?_ fun _ ↦ ?_
    · exact hunsuspend.nickcache.trans hcache
    · exact hunsuspend.nickcache.trans hcache

theorem doOther_revised (h : Barred w) (env : Env) (db : Database) : Revised w (doOther env db w) := by
  have hlook := (Looked.refl w).lookups env.now env.reads
  refine h.fixed (doOther_quiet env db w) (fun r' hr' ↦ ?_) fun nc hnc ↦ ?_
  · rw [doOther, World.act] at hr'
    split_ifs at hr' with halive hfixed
    · have hmem : fixedColumns r' ∈ db.nick.map fixedColumns := List.mem_map_of_mem hr'
      rw [hfixed, hlook.cacheOnly.db] at hmem
      exact List.mem_map.mp hmem
    · rw [hlook.cacheOnly.db] at hr'
      exact ⟨r', hr', rfl⟩
    · rw [hlook.cacheOnly.db] at hr'
      exact ⟨r', hr', rfl⟩
  · refine hlook.hasStatus (.inr ⟨nc, ?_, rfl, rfl⟩)
    rw [doOther, World.act] at hnc
    split_ifs at hnc
    · exact hnc
    · exact hnc
    · exact hnc

theorem nsInit_revised (h : Barred w)
    (hmeets : ∀ r ∈ w.db.nick, Verboten r.status → r.status = NS_VERBOTEN) : Revised w (nsInit w) := by
  refine h.revised ?_ rfl (fun r' hr' ↦ ?_) fun nc hnc ↦ absurd hnc List.not_mem_nil
  · rw [registry_nsInit]
    exact kept_numbered.users w.registry _ rfl rfl h.numbered
  · obtain ⟨r, hr, rfl⟩ := List.mem_map.mp hr'
    split_ifs with hstatus
    · have hnot : ¬ Forbids w r.nickId := fun hforbids ↦
        hstatus (hmeets r hr ((h.row r hr).verboten.mpr hforbids))
      have hzero : ¬ Verboten 0#32 := by decide
      exact ⟨r, hr, rfl, rfl, ⟨iff_of_false hzero hnot, fun hv ↦ absurd hv hzero⟩, .inl rfl⟩
    · exact ⟨r, hr, rfl, rfl, h.row r hr, .inl rfl⟩

/-- A message that is not handled by actions leaves the nicks, and a forbidden nick stays forbidden. -/
theorem unhandled_revised (h : Barred w) (hmeets : ForbidsMeet conf w msg) (hmsg : ¬ Handled msg.2) :
    Revised w (step conf w msg) ∧ (step conf w msg).registry.nicks = w.registry.nicks := by
  obtain ⟨env, msg⟩ := msg
  cases msg with
  | other db =>
    exact ⟨doOther_revised h env db, congrArg Registry.nicks (doOther_quiet env db w).registry⟩
  | restart =>
    refine ⟨nsInit_revised h hmeets, ?_⟩
    rw [step, registry_nsInit]
  | expireNicksuspends expired =>
    have hquiet := (Quiet.refl w).expireNicksuspends expired
    obtain ⟨hrow, hcache⟩ := expireNicksuspends_fixed expired w
    refine ⟨h.fixed hquiet hrow fun nc hnc ↦ ?_, congrArg Registry.nicks hquiet.registry⟩
    exact .inr ⟨nc, hcache ▸ hnc, rfl, rfl⟩
  | _ => exact absurd trivial hmsg

theorem barred_step (conf : Config) (w : World) (msg : Env × Message) (h : Barred w)
    (hmeets : ForbidsMeet conf w msg) : Barred (step conf w msg) := by
  by_cases hmsg : Handled msg.2
  · exact (barring_acts h (harmless_of_meets h hmeets) (acts_step conf w msg.1 hmsg)).barred
  · exact (unhandled_revised h hmeets hmsg).1.barred

/-! ### Names -/

/-- FORBID leaves a nick or gives its name to a new one. -/
theorem name_doForbid (conf : Config) (h : Barred w) (env : Env) (u : User) (nick : Option CString)
    {e : Entry CString} (he : e ∈ w.registry.nicks) :
    ∃ e' ∈ (doForbid conf env u nick w).registry.nicks,
      e'.name = e.name ∧ (e'.id = e.id ∨ w.nextNickId ≤ e'.id) := by
  rcases doForbid_cases conf env u nick w with
    hquiet | ⟨nick', w₁, w₂, -, -, hquiet, hdel, row, columns, hlink, hnick, hinsert⟩
  · rw [hquiet.registry]
    exact ⟨e, he, rfl, .inl rfl⟩
  · rw [hinsert.registry]
    -- The nick is left if it is not deleted.
    have hleft {f : Entry CString} (hf : f ∈ w₂.registry.nicks) (hid : f.id = e.id)
        (hname : f.name = e.name) : ∃ e' ∈ (insertNick row columns w₂).registry.nicks,
          e'.name = e.name ∧ (e'.id = e.id ∨ w.nextNickId ≤ e'.id) := by
      refine (insertNick_does row columns w₂ hlink rfl).preserves
        (p := fun r ↦ ∃ e' ∈ r.nicks, e'.name = e.name ∧ (e'.id = e.id ∨ w.nextNickId ≤ e'.id))
        ⟨f, hf, hname, .inl hid⟩ ?_
      rintro _ ⟨-, rfl⟩
      exact ⟨f, List.mem_append_left _ hf, hname, .inl hid⟩
    have he₁ : e ∈ w₁.registry.nicks := hquiet.registry ▸ he
    by_cases hid : mysqlFindnick w.db nick' = e.id ∧ w₁.alive = true
    · have hzero : mysqlFindnick w.db nick' ≠ 0 := by
        rw [hid.1]
        exact (h.numbered.sound.pos e he).ne'
      rw [if_pos hzero, hid.1] at hdel
      have hname : foldName row.nick = e.name := by
        have hfind := mysqlFindnick_eq h.numbered.sound nick'
        rw [hfind] at hzero hid
        obtain ⟨f, hf, hfname, hfid⟩ := Entry.exists_of_findId_ne_zero hzero
        obtain rfl := h.numbered.sound.eq_of_id_eq hf he (hfid.trans hid.1)
        obtain ⟨s, hs, rfl⟩ := List.mem_map.mp hf
        have hlength : nick'.length ≤ NICKMAX := by
          have hfold := congrArg List.length hfname
          rw [nickEntry, foldName, foldName, List.length_map, List.length_map] at hfold
          rw [← hfold]
          exact h.length s hs
        rw [hnick, List.take_of_length_le hlength, hfname]
      have halive : w₂.alive = true := by
        obtain ⟨r, hr, hrid⟩ := List.mem_map.mp he₁
        rw [hdel, delnick, World.act, if_pos hid.2]
        show (getNickFromId w₁.db e.id).isSome = true
        rw [getNickFromId, Option.isSome_map, List.find?_isSome]
        exact ⟨r, hr, decide_eq_true (congrArg Entry.id hrid)⟩
      have hremove : w₂.registry = w.registry.remove e.id := by
        rw [hdel] at halive ⊢
        rw [(delnick_does e.id w₁).of_alive halive, hquiet.registry]
      have hfree : w₂.registry.Free (foldName row.nick) := by
        intro f hf hfname
        rw [hremove] at hf
        obtain ⟨g, hg, hne, rfl⟩ := Entry.mem_remove.mp hf
        rw [Entry.name_unlink, hname] at hfname
        exact hne (congrArg Entry.id (h.numbered.sound.eq_of_name_eq hg he hfname))
      rw [registry_insertNick columns hlink halive hfree, hremove]
      exact ⟨_, List.mem_append_right _ (List.mem_singleton_self _), hname, .inr le_rfl⟩
    · by_cases hzero : mysqlFindnick w.db nick' ≠ 0
      · rw [if_pos hzero] at hdel
        rw [hdel] at hleft ⊢
        by_cases halive : w₁.alive = true
        · have hne : e.id ≠ mysqlFindnick w.db nick' := fun heq ↦ hid ⟨heq.symm, halive⟩
          rcases (delnick_does (mysqlFindnick w.db nick') w₁).registry with ⟨-, hremove⟩ | ⟨hsame, -⟩
          · refine hleft ?_ (Entry.id_unlink (mysqlFindnick w.db nick') e) (Entry.name_unlink _ e)
            rw [hremove]
            exact Entry.mem_remove.mpr ⟨e, he₁, hne, rfl⟩
          · exact hleft (hsame ▸ he₁) rfl rfl
        · rw [delnick, World.act, if_neg halive] at hleft ⊢
          exact hleft he₁ rfl rfl
      · rw [if_neg hzero] at hdel
        exact hleft (hdel ▸ he₁) rfl rfl

theorem forbidsName_of_entry (hnum : Numbered w.registry) {name : CString} {e : Entry CString}
    (he : e ∈ w.registry.nicks) (hname : e.name = foldName name) (hforbids : Forbids w e.id) :
    ForbidsName w name := by
  obtain ⟨r, hr, rfl⟩ := List.mem_map.mp he
  exact ⟨r, hr, sameName_iff.mpr hname, (hnum.verboten_iff hr).mpr hforbids⟩

theorem forbidsName_step {name : CString} (h : Barred w) (hmeets : ForbidsMeet conf w msg)
    (hname : ForbidsName w name) (hdrop : ¬ Drops conf w name msg) :
    ForbidsName (step conf w msg) name := by
  have hnext := barred_step conf w msg h hmeets
  obtain ⟨r, hr, hsame, hv⟩ := hname
  have he : nickEntry r ∈ w.registry.nicks := List.mem_map_of_mem hr
  have hforbids : Forbids w r.nickId := ⟨r, hr, rfl, hv⟩
  by_cases hmsg : Handled msg.2
  · have hacts := acts_step conf w msg.1 hmsg
    have hbarring := barring_acts h (harmless_of_meets h hmeets) hacts
    have hkept {e : Entry CString} (he : e ∈ (step conf w msg).registry.nicks) (hid : e.id = r.nickId)
        (hename : e.name = foldName r.nick) : ForbidsName (step conf w msg) name := by
      refine forbidsName_of_entry hnext.numbered he (hename.trans (sameName_iff.mp hsame)) ?_
      rw [hid]
      exact hbarring.stays r.nickId hforbids (hasRow_iff_entry.mpr ⟨e, he, hid⟩)
    by_cases hdeletes : Deletes conf w msg r.nickId
    · obtain ⟨env, msg⟩ := msg
      cases msg with
      | command source cmd =>
        obtain ⟨u, huser, hcmd⟩ := hdeletes
        cases cmd with
        | drop nick authcode code => exact absurd ⟨r, hr, hsame, u, huser, hcmd⟩ hdrop
        | forbid nick =>
          have hstep : step conf w (env, .command source (.forbid nick)) = doForbid conf env u nick w := by
            rw [step, huser]
            rfl
          obtain ⟨e', he', hename, hid⟩ := name_doForbid conf h env u nick he
          rw [← hstep] at he'
          rcases hid with hid | hid
          · exact hkept he' hid hename
          · obtain ⟨row, ⟨u', -, hrow⟩, hverboten⟩ :=
              hbarring.fresh e'.id hid (hasRow_iff_entry.mpr ⟨e', he', rfl⟩)
            refine forbidsName_of_entry hnext.numbered he' (hename.trans (sameName_iff.mp hsame))
              (hverboten ?_)
            cases nick with
            | none => exact hrow.elim
            | some nick =>
              rw [hrow.2.1]
              decide
        | _ => exact hcmd.elim
      | expireNicks grace old =>
        obtain ⟨-, s, hs, hid, hexpire, -⟩ := hdeletes
        obtain rfl := h.numbered.row_eq hs hr hid
        have hflags := (of_decide_eq_true hexpire).2.1
        rw [BitVec.and_or_distrib_left, BitVec.or_eq_zero_iff] at hflags
        exact absurd hflags.1 hv
      | _ => exact hdeletes.elim
    · obtain ⟨e', he', hid, hename⟩ := hacts.named he hdeletes
      exact hkept he' hid hename
  · obtain ⟨hrevised, hnicks⟩ := unhandled_revised h hmeets hmsg
    have he' : nickEntry r ∈ (step conf w msg).registry.nicks := hnicks ▸ he
    refine forbidsName_of_entry hnext.numbered he' (sameName_iff.mp hsame) ?_
    exact hrevised.stays (h.numbered.row_lt hforbids.hasRow) (hasRow_iff_entry.mpr ⟨_, he', rfl⟩) hforbids

theorem Barred.forbidden {name : CString} (h : Barred w) (hname : ForbidsName w name) :
    Forbidden w name := by
  obtain ⟨r, hr, hsame, hv⟩ := hname
  have honly (s : NickRow) (hs : s ∈ w.db.nick) (hsname : sameName s.nick name = true) : s = r := by
    refine h.numbered.row_eq hs hr (congrArg Entry.id (h.numbered.sound.eq_of_name_eq
      (List.mem_map_of_mem hs) (List.mem_map_of_mem hr) ?_))
    exact (sameName_iff.mp hsname).trans (sameName_iff.mp hsame).symm
  have hentry (nc : Nickcache) (hnc : nc ∈ w.nickcache) (hid : nc.nickId = r.nickId) :
      Verboten nc.status ∧ nc.status &&& NS_IDENTIFIED = 0#32 := by
    have hagrees := (h.entry nc hnc).2 ⟨r, hr, hid.symm⟩
    have hverboten := hagrees.verboten.mpr ⟨r, hr, hid.symm, hv⟩
    exact ⟨hverboten, hagrees.unidentified hverboten⟩
  refine ⟨⟨r, hr, hsame⟩, fun s hs hsname ↦ ?_, fun s hs hsname ↦ ?_, fun s hs hsname ↦ ?_⟩
  · obtain rfl := honly s hs hsname
    exact ⟨hv, fun nc hnc hid ↦ (hentry nc hnc hid).1⟩
  · obtain rfl := honly s hs hsname
    exact ⟨(h.row s hs).unidentified hv, fun nc hnc hid ↦ (hentry nc hnc hid).2⟩
  · obtain rfl := honly s hs hsname
    refine ⟨h.unlinked s hs hv, fun r' hr' hlink ↦ (h.link r' hr').2 ?_⟩
    rw [hlink]
    exact ⟨s, hs, rfl, hv⟩

end Messages

/-! ### Runs -/

theorem barred_empty : Barred World.empty where
  numbered := numbered_empty
  row _ hr := absurd hr List.not_mem_nil
  unlinked _ hr := absurd hr List.not_mem_nil
  link _ hr := absurd hr List.not_mem_nil
  length _ hr := absurd hr List.not_mem_nil
  entry _ hnc := absurd hnc List.not_mem_nil

/-- The services admin forbids a nick. -/
def nickForbidden : List (Env × Message) :=
  newNick 1 "root" ++
  [(trusting 2, .mode "root".toList "root".toList "+o".toList),
    (trusting 3, .command "root".toList (.forbid (some "bad".toList)))]

/-- The process starts again, and nicks expire. -/
def restartedExpired : List (Env × Message) :=
  [(trusting 4, .restart), (trusting 5, .expireNicks (fun _ ↦ true) fun _ ↦ true)]

/-- A stranger uses the nick and is told to leave it, and then the process starts again. -/
def strangerRestarted : List (Env × Message) :=
  [(trusting 4, .connect "bad".toList "stranger".toList "elsewhere".toList),
    (trusting 64, .timeout ⟨2, .collide, 4, 64, true⟩),
    (trusting 65, .restart)]

end BlitzedServices.NickServ
