import BlitzedServices.NickServ.Actions

/-!
# What an action changes

`Action.row_cases`, `Action.entry_cases` and `Action.nicks_cases` say where the rows of table `nick`, the
entries of the nick cache and the directory of nicks after an action come from.
-/

set_option autoImplicit false
set_option relaxedAutoImplicit false

namespace BlitzedServices.NickServ

open Lib Lib.SqlText Mysql ChanServ

/-! ### Rows and entries -/

/-- A row or an entry of the cache gives the nick the status. -/
def HasStatus (w : World) (nickId : ℕ) (status : BitVec 32) : Prop :=
  (∃ r ∈ w.db.nick, r.nickId = nickId ∧ r.status = status) ∨
    ∃ nc ∈ w.nickcache, nc.nickId = nickId ∧ nc.status = status

/-- The status is the old one or what a change that the message may make gives. -/
def Restated (conf : Config) (w₀ : World) (msg : Env × Message) (w : World) (nickId : ℕ)
    (old new : BitVec 32) : Prop :=
  new = old ∨ w.alive = true ∧ ∃ f, Restatus conf w₀ msg w nickId f ∧ new = f old

/-- The row is one that was there, or as an action leaves one that was there. -/
def RowFrom (conf : Config) (w₀ : World) (msg : Env × Message) (w : World) (r' : NickRow) : Prop :=
  ∃ r ∈ w.db.nick, r.nickId = r'.nickId ∧ r.nick = r'.nick ∧
    Restated conf w₀ msg w r.nickId r.status r'.status ∧
    (r'.linkId = r.linkId ∨ r'.linkId = 0 ∨ Links conf w₀ msg r.nickId r'.linkId)

/-- The row is that of a new nick. -/
def NewRow (conf : Config) (w₀ : World) (msg : Env × Message) (w : World) (r' : NickRow) : Prop :=
  ∃ row, Inserts conf w₀ msg row ∧ r' = { row with nickId := w.nextNickId }

section Inversion

variable {conf : Config} {w₀ w w' : World} {msg : Env × Message}

theorem nick_act {f : World → World} (hf : ∀ w : World, (f w).db.nick = w.db.nick) (w : World) :
    (w.act f).db.nick = w.db.nick :=
  World.act_cases (p := fun w' ↦ w'.db.nick = w.db.nick) rfl fun _ ↦ hf w

theorem getNickinfoFromId_eq_some {db : Database} {nickId : ℕ} {r : NickRow}
    (h : getNickinfoFromId db nickId = some r) : r ∈ db.nick ∧ r.nickId = nickId :=
  ⟨List.mem_of_find?_eq_some h, by simpa using List.find?_some h⟩

theorem Inserts.linkId {row : NickRow} (h : Inserts conf w₀ msg row) : row.linkId = 0 := by
  obtain ⟨env, msg⟩ := msg
  cases msg with
  | command source cmd =>
    obtain ⟨u, -, hcmd⟩ := h
    cases cmd with
    | register words code => exact hcmd.2.2.1
    | forbid nick =>
      cases nick with
      | none => exact hcmd.elim
      | some nick => exact hcmd.2.2.1
    | _ => exact hcmd.elim
  | _ => exact h.elim

theorem RowFrom.self {r : NickRow} (hr : r ∈ w.db.nick) : RowFrom conf w₀ msg w r :=
  ⟨r, hr, rfl, rfl, .inl rfl, .inl rfl⟩

theorem mem_updateNick {f : NickRow → NickRow} {nickId : ℕ} {r' : NickRow}
    (h : r' ∈ (updateNick f nickId w).db.nick) :
    r' ∈ w.db.nick ∧ (w.alive = true → r'.nickId ≠ nickId) ∨
      w.alive = true ∧ ∃ r ∈ w.db.nick, r.nickId = nickId ∧ r' = f r := by
  rw [updateNick, World.act] at h
  split_ifs at h with halive
  · obtain ⟨r, hr, rfl⟩ := List.mem_map.mp h
    split_ifs with hid
    · exact .inr ⟨halive, r, hr, hid, rfl⟩
    · exact .inl ⟨hr, fun _ ↦ hid⟩
  · exact .inl ⟨h, fun hyes ↦ absurd hyes halive⟩

/-- A row after `delink`. -/
theorem mem_delink {now nickId : ℕ} {r' : NickRow} (h : r' ∈ (delink now nickId w).db.nick) :
    r' ∈ w.db.nick ∨ ∃ ni master, ni ∈ w.db.nick ∧ ni.nickId = nickId ∧ ni.linkId ≠ 0 ∧
      getNickinfoFromId w.db ni.linkId = some master ∧ ∃ r ∈ w.db.nick, r.nickId = nickId ∧
      r' = { r with linkId := 0, flags := master.flags, channelmax := master.channelmax } := by
  have hdie (h : r' ∈ (w.act World.die).db.nick) : r' ∈ w.db.nick :=
    (Aside.act (w := w) fun _ ↦ .die w).nick ▸ h
  rw [delink] at h
  cases hni : getNickinfoFromId w.db nickId with
  | none =>
    rw [hni] at h
    exact .inl (hdie h)
  | some ni =>
    rw [hni] at h
    dsimp only at h
    split_ifs at h with hlink
    · exact .inl h
    · cases hmaster : getNickinfoFromId w.db ni.linkId with
      | none =>
        rw [hmaster] at h
        exact .inl (hdie h)
      | some master =>
        rw [hmaster] at h
        dsimp only at h
        split at h
        · exact .inl (hdie h)
        · obtain ⟨hni', hid⟩ := getNickinfoFromId_eq_some hni
          have hlanguage : r' ∈ (updateNick
              (fun r ↦ { r with flags := master.flags, channelmax := master.channelmax }) nickId
              (updateNick (fun r ↦ { r with linkId := 0 }) nickId w)).db.nick := by
            rw [nick_act (by intros; rfl), nickcacheSetLanguage,
              ((CacheOnly.refl _).nickcacheWrite _ _ _).db, (Aside.updateColumns _ _ _).nick] at h
            exact h
          rcases mem_updateNick hlanguage with ⟨hold, hother⟩ | ⟨halive, r, hr, hrid, rfl⟩
          · rw [updateNick_alive] at hother
            rcases mem_updateNick hold with ⟨hr, -⟩ | ⟨halive, r, hr, hrid, rfl⟩
            · exact .inl hr
            · exact absurd hrid (hother halive)
          · rcases mem_updateNick hr with ⟨hr', hother⟩ | ⟨-, s, hs, hsid, rfl⟩
            · rw [updateNick_alive] at halive
              exact absurd hrid (hother halive)
            · exact .inr ⟨ni, master, hni', hid, hlink, hmaster, s, hs, hsid, rfl⟩

theorem nick_linkNick (nickId targetId : ℕ) (w : World) :
    (linkNick nickId targetId w).db.nick =
      (updateNick (fun r ↦ { r with linkId := targetId }) nickId w).db.nick := by
  refine (nick_act (fun w ↦ ?_) _).trans (nick_act (by exact fun _ ↦ rfl) _)
  split
  · rfl
  · rfl

/-- The rows after an action. -/
theorem Action.row_cases (h : Action conf w₀ msg w w') {r' : NickRow} (hr' : r' ∈ w'.db.nick) :
    RowFrom conf w₀ msg w r' ∨ NewRow conf w₀ msg w r' ∧ w'.nextNickId = w.nextNickId + 1 := by
  have hflags {g : BitVec 32 → BitVec 32} {nickId : ℕ} {w w₁ : World} (hnick : w₁.db.nick = w.db.nick)
      (h : r' ∈ (updateNick (fun r ↦ { r with flags := g r.flags }) nickId w₁).db.nick) :
      RowFrom conf w₀ msg w r' := by
    rcases mem_updateNick h with ⟨hold, -⟩ | ⟨-, r, hr, -, rfl⟩
    · exact .self (hnick ▸ hold)
    · exact ⟨r, hnick ▸ hr, rfl, rfl, .inl rfl, .inl rfl⟩
  cases h with
  | look hlook =>
    rw [hlook.cacheOnly.db] at hr'
    exact .inl (.self hr')
  | aside haside =>
    rw [haside.nick] at hr'
    exact .inl (.self hr')
  | row f nickId w hf =>
    rcases mem_updateNick hr' with ⟨hold, -⟩ | ⟨halive, r, hr, rfl, rfl⟩
    · exact .inl (.self hold)
    · exact .inl ⟨r, hr, rfl, rfl, .inr ⟨halive, f, hf, rfl⟩, .inl rfl⟩
  | entry f now nickId w _ =>
    rw [nickcacheChangeStatus, ((CacheOnly.refl w).nickcacheWrite _ now nickId).db] at hr'
    exact .inl (.self hr')
  | insert row columns w hrow =>
    rw [insertNick, World.act] at hr' ⊢
    split_ifs at hr' ⊢
    · exact .inl (.self hr')
    · rcases List.mem_append.mp hr' with hold | hnew
      · exact .inl (.self hold)
      · exact .inr ⟨⟨row, hrow, List.mem_singleton.mp hnew⟩, rfl⟩
    · exact .inl (.self hr')
  | delete nickId w _ =>
    rw [delnick, World.act] at hr'
    split_ifs at hr'
    · rw [nick_mysqlDelnick] at hr'
      obtain ⟨r, hr, rfl⟩ := List.mem_map.mp (List.mem_of_mem_filter hr')
      split_ifs
      · exact .inl ⟨r, hr, rfl, rfl, .inl rfl, .inr (.inl rfl)⟩
      · exact .inl (.self hr)
    · exact .inl (.self hr')
  | link nickId targetId w hlinks =>
    rw [nick_linkNick] at hr'
    rcases mem_updateNick hr' with ⟨hold, -⟩ | ⟨-, r, hr, rfl, rfl⟩
    · exact .inl (.self hold)
    · exact .inl ⟨r, hr, rfl, rfl, .inl rfl, .inr (.inr hlinks)⟩
  | unlink now nickId w _ =>
    rcases mem_delink hr' with hold | ⟨-, -, -, -, -, -, r, hr, -, rfl⟩
    · exact .inl (.self hold)
    · exact .inl ⟨r, hr, rfl, rfl, .inl rfl, .inr (.inl rfl)⟩
  | suspend nickId reason who w _ _ _ =>
    rw [addNicksuspend, nick_act] at hr'
    · exact .inl (hflags (g := (· ||| NI_SUSPENDED)) rfl hr')
    · intro w
      dsimp only
      split_ifs
      · rfl
      · rfl
  | unsuspend nickId w _ =>
    refine .inl (hflags (g := (· &&& ~~~NI_SUSPENDED)) (nick_act (fun w ↦ ?_) w) hr')
    split
    · exact nick_delNicksuspend _ _
    · rfl
  | addTimeout nickId type delay now w _ _ =>
    rw [addNsTimeout, nick_act] at hr'
    · exact .inl (.self hr')
    · exact fun _ ↦ rfl
  | delTimeout nickId type w =>
    rw [delNsTimeout, nick_act] at hr'
    · exact .inl (.self hr')
    · exact fun _ ↦ rfl
  | fireTimeout t w =>
    rw [fireNsTimeout, nick_act] at hr'
    · exact .inl (.self hr')
    · exact fun _ ↦ rfl

theorem entry_delink {now nickId : ℕ} {nc : Nickcache} (h : nc ∈ (delink now nickId w).nickcache) :
    HasStatus w nc.nickId nc.status := by
  have hold {w' : World} (hcache : w'.nickcache = w.nickcache) (h : nc ∈ w'.nickcache) :
      HasStatus w nc.nickId nc.status := .inr ⟨nc, hcache ▸ h, rfl, rfl⟩
  have hdie : (w.act World.die).nickcache = w.nickcache :=
    World.act_cases (p := fun w' ↦ w'.nickcache = w.nickcache) rfl fun _ ↦ rfl
  rw [delink] at h
  split at h
  · exact hold hdie h
  · next ni _ =>
    split_ifs at h
    · exact hold rfl h
    · split at h
      · exact hold hdie h
      · next master _ =>
        split at h
        · exact hold hdie h
        · have hrows := SameStatuses.trans
            (SameStatuses.updateNick (f := fun r ↦ { r with linkId := 0 }) nickId w
              (fun _ ↦ rfl) fun _ ↦ rfl)
            (.updateNick (f := fun r ↦ { r with flags := master.flags, channelmax := master.channelmax })
              nickId _ (fun _ ↦ rfl) fun _ ↦ rfl)
          dsimp only at h
          generalize updateNick (fun r ↦ { r with flags := master.flags, channelmax := master.channelmax })
            nickId (updateNick (fun r ↦ { r with linkId := 0 }) nickId w) = w₁ at h hrows
          have hcolumns := Aside.updateColumns
            (fun c ↦ { c with language := (w.columns master.nickId).language }) nickId w₁
          generalize updateColumns (fun c ↦ { c with language := (w.columns master.nickId).language })
            nickId w₁ = w₂ at h hcolumns
          have hset : nc ∈ (nickcacheSetLanguage now nickId (w.columns master.nickId).language
              w₂).nickcache := by
            refine World.act_cases (p := fun w' ↦ nc ∈ w'.nickcache → _) id (fun _ ↦ id) h
          rcases ((Looked.refl w₂).setLanguage now nickId _).entry nc hset with
            ⟨nc₀, hnc₀, hid, hstatus⟩ | hrow
          · rw [hcolumns.nickcache, hrows.nickcache] at hnc₀
            exact .inr ⟨nc₀, hnc₀, hid, hstatus⟩
          · rw [hcolumns.nick] at hrow
            exact .inl ((hrows.exists_row (p := fun id s ↦ id = nc.nickId ∧ s = nc.status)).mp hrow)

/-- The entries of the cache after an action. -/
theorem Action.entry_cases (h : Action conf w₀ msg w w') {nc : Nickcache} (hnc : nc ∈ w'.nickcache) :
    ∃ status, HasStatus w nc.nickId status ∧ Restated conf w₀ msg w nc.nickId status nc.status := by
  have hsame {w'' : World} (hcache : w''.nickcache = w.nickcache) (hnc : nc ∈ w''.nickcache) :
      ∃ status, HasStatus w nc.nickId status ∧ Restated conf w₀ msg w nc.nickId status nc.status :=
    ⟨nc.status, .inr ⟨nc, hcache ▸ hnc, rfl, rfl⟩, .inl rfl⟩
  have hlook {w'' : World} (hlook : Looked w w'') (hnc : nc ∈ w''.nickcache) :
      ∃ status, HasStatus w nc.nickId status ∧ Restated conf w₀ msg w nc.nickId status nc.status := by
    rcases hlook.entry nc hnc with ⟨nc₀, hnc₀, hid, hstatus⟩ | ⟨r, hr, hid, hstatus⟩
    · exact ⟨nc.status, .inr ⟨nc₀, hnc₀, hid, hstatus⟩, .inl rfl⟩
    · exact ⟨nc.status, .inl ⟨r, hr, hid, hstatus⟩, .inl rfl⟩
  cases h with
  | look h => exact hlook h hnc
  | aside haside => exact hsame haside.nickcache hnc
  | row f nickId w _ => exact hsame (World.act_cases (p := fun w' ↦ w'.nickcache = w.nickcache) rfl fun _ ↦ rfl) hnc
  | entry f now nickId w hf =>
    by_cases halive : w.alive = true
    · exact entry_nickcacheWrite (p := fun nc ↦ HasStatus w nc.nickId nc.status)
        (q := fun nc ↦ ∃ status, HasStatus w nc.nickId status ∧
          Restated conf w₀ msg w nc.nickId status nc.status)
        (f := fun nc ↦ { nc with status := f nc.status, statusTimestamp := now })
        (fun nc₀ hnc₀ ↦ .inr ⟨nc₀, hnc₀, rfl, rfl⟩) (fun nc₀ hselect ↦ .inl (Looked.selected hselect))
        (fun nc₀ hstatus hid ↦ ⟨nc₀.status, hstatus, .inr ⟨halive, f, hid ▸ hf, rfl⟩⟩)
        (fun nc₀ hstatus ↦ ⟨nc₀.status, hstatus, .inl rfl⟩) nc hnc
    · rw [nickcacheChangeStatus, nickcacheWrite, World.act, if_neg halive] at hnc
      exact hsame rfl hnc
  | insert row columns w _ =>
    refine hsame (World.act_cases (p := fun w' ↦ w'.nickcache = w.nickcache) rfl fun _ ↦ ?_) hnc
    exact ite_ind (p := fun w' ↦ w'.nickcache = w.nickcache) (w := w.die) (fun _ ↦ rfl) fun _ ↦ rfl
  | delete nickId w _ =>
    exact hsame (World.act_cases (p := fun w' ↦ w'.nickcache = w.nickcache) rfl fun _ ↦ rfl) hnc
  | link nickId targetId w _ => exact hsame (SameStatuses.linkNick nickId targetId w).nickcache hnc
  | unlink now nickId w _ => exact ⟨nc.status, entry_delink hnc, .inl rfl⟩
  | suspend nickId reason who w _ _ _ =>
    refine hsame (SameStatuses.trans (.updateNick nickId w ?_ ?_) (.addNicksuspend _ _ _ _)).nickcache hnc
    · exact fun _ ↦ rfl
    · exact fun _ ↦ rfl
  | unsuspend nickId w _ =>
    refine hsame (SameStatuses.trans (.act fun _ ↦ ?_) (.updateNick nickId _ ?_ ?_)).nickcache hnc
    · split
      · exact ⟨by rw [nick_delNicksuspend], rfl, fun _ ↦ rfl, rfl, id⟩
      · exact .refl w
    · exact fun _ ↦ rfl
    · exact fun _ ↦ rfl
  | addTimeout nickId type delay now w _ _ =>
    exact hsame (World.act_cases (p := fun w' ↦ w'.nickcache = w.nickcache) rfl fun _ ↦ rfl) hnc
  | delTimeout nickId type w =>
    exact hsame (World.act_cases (p := fun w' ↦ w'.nickcache = w.nickcache) rfl fun _ ↦ rfl) hnc
  | fireTimeout t w =>
    exact hsame (World.act_cases (p := fun w' ↦ w'.nickcache = w.nickcache) rfl fun _ ↦ rfl) hnc

/-- The directory after an action. -/
theorem Action.nicks_cases (h : Action conf w₀ msg w w') :
    (w'.registry.nicks = w.registry.nicks ∧ w'.nextNickId = w.nextNickId) ∨
    (∃ row, Inserts conf w₀ msg row ∧ w.registry.Free (foldName row.nick) ∧
      w'.registry = w.registry.insert (foldName row.nick)) ∨
    (∃ nickId, Deletes conf w₀ msg nickId ∧ w'.registry = w.registry.remove nickId) ∨
    ∃ nickId linkId, w'.registry = w.registry.relink nickId linkId := by
  have hquiet {w'' : World} (hq : Quiet w w'') :
      w''.registry.nicks = w.registry.nicks ∧ w''.nextNickId = w.nextNickId :=
    ⟨congrArg Registry.nicks hq.registry, (congrArg Registry.nextNickId hq.registry :)⟩
  have hw := Quiet.refl w
  cases h with
  | look hlook => exact .inl (hquiet hlook.cacheOnly.quiet)
  | aside haside =>
    refine .inl ⟨?_, haside.nextNickId⟩
    rw [World.registry, haside.nick]
    rfl
  | row f nickId w _ => exact .inl (hquiet (hw.updateStatus f nickId))
  | entry f now nickId w _ => exact .inl (hquiet (hw.nickcacheChangeStatus f now nickId))
  | insert row columns w hrow =>
    have hlink := hrow.linkId
    rcases (insertNick_does row columns w hlink rfl).registry with ⟨-, hfree, hinsert⟩ | ⟨hsame, -⟩
    · exact .inr (.inl ⟨row, hrow, hfree, hinsert⟩)
    · exact .inl ⟨congrArg Registry.nicks hsame, (congrArg Registry.nextNickId hsame :)⟩
  | delete nickId w hdeletes =>
    rcases (delnick_does nickId w).registry with ⟨-, hremove⟩ | ⟨hsame, -⟩
    · exact .inr (.inr (.inl ⟨nickId, hdeletes, hremove⟩))
    · exact .inl ⟨congrArg Registry.nicks hsame, (congrArg Registry.nextNickId hsame :)⟩
  | link nickId targetId w _ =>
    by_cases halive : w.alive = true
    · exact .inr (.inr (.inr ⟨nickId, targetId, registry_linkNick nickId targetId halive⟩))
    · rw [linkNick_dead (Bool.not_eq_true _ ▸ halive)]
      exact .inl ⟨rfl, rfl⟩
  | unlink now nickId w _ =>
    rcases (delink_does_or now nickId w).registry with ⟨-, hrelink | hsame⟩ | ⟨hsame, -⟩
    · exact .inr (.inr (.inr ⟨nickId, 0, hrelink⟩))
    · exact .inl ⟨congrArg Registry.nicks hsame, (congrArg Registry.nextNickId hsame :)⟩
    · exact .inl ⟨congrArg Registry.nicks hsame, (congrArg Registry.nextNickId hsame :)⟩
  | suspend nickId reason who w _ _ _ =>
    have hflags := hw.updateNick (f := fun r ↦ { r with flags := r.flags ||| NI_SUSPENDED }) nickId
      fun _ ↦ rfl
    exact .inl (hquiet (hflags.act fun _ ↦ .ite ⟨rfl, fun h ↦ by cases h⟩ ⟨rfl, id⟩))
  | unsuspend nickId w _ =>
    refine .inl (hquiet (Quiet.updateNick (hw.act fun _ ↦ ?_) nickId fun _ ↦ rfl))
    split
    · refine ⟨?_, id⟩
      simp only [World.registry, nick_delNicksuspend]
    · exact .refl _
  | addTimeout nickId type delay now w _ _ => exact .inl (hquiet (hw.addNsTimeout _ _ _ _))
  | delTimeout nickId type w => exact .inl (hquiet (hw.delNsTimeout _ _))
  | fireTimeout t w => exact .inl (hquiet (hw.fireNsTimeout _))

theorem numbered_action (haction : Action conf w₀ msg w w') (h : Numbered w.registry) :
    Numbered w'.registry := by
  rcases haction.nicks_cases with ⟨hnicks, hnext⟩ | ⟨row, -, hfree, hinsert⟩ | ⟨nickId, -, hremove⟩ |
    ⟨nickId, linkId, hrelink⟩
  · exact kept_numbered.users _ _ hnicks hnext h
  · rw [hinsert]
    exact kept_numbered.insert _ _ hfree h
  · rw [hremove]
    exact kept_numbered.remove _ _ h
  · rw [hrelink]
    exact ⟨h.sound.relink _ _, h.pos⟩

/-- A nick that the message does not delete keeps its id and its name. -/
theorem named_action (haction : Action conf w₀ msg w w') {e : Entry CString}
    (he : e ∈ w.registry.nicks) (hkept : ¬ Deletes conf w₀ msg e.id) :
    ∃ e' ∈ w'.registry.nicks, e'.id = e.id ∧ e'.name = e.name := by
  rcases haction.nicks_cases with ⟨hnicks, -⟩ | ⟨row, -, -, hinsert⟩ | ⟨nickId, hdeletes, hremove⟩ |
    ⟨nickId, linkId, hrelink⟩
  · rw [hnicks]
    exact ⟨e, he, rfl, rfl⟩
  · rw [hinsert]
    exact ⟨e, List.mem_append_left _ he, rfl, rfl⟩
  · have hne : e.id ≠ nickId := fun heq ↦ hkept (heq ▸ hdeletes)
    rw [hremove]
    exact ⟨_, Entry.mem_remove.mpr ⟨e, he, hne, rfl⟩, Entry.id_unlink nickId e,
      Entry.name_unlink nickId e⟩
  · rw [hrelink]
    exact ⟨_, Entry.mem_relink.mpr ⟨e, he, rfl⟩, Entry.id_relink nickId linkId e,
      Entry.name_relink nickId linkId e⟩

theorem Acts.named (hacts : Acts conf w₀ msg w) {e : Entry CString} (he : e ∈ w₀.registry.nicks)
    (hkept : ¬ Deletes conf w₀ msg e.id) :
    ∃ e' ∈ w.registry.nicks, e'.id = e.id ∧ e'.name = e.name := by
  refine hacts.invariant (p := fun w ↦ ∃ e' ∈ w.registry.nicks, e'.id = e.id ∧ e'.name = e.name)
    ⟨e, he, rfl, rfl⟩ ?_
  rintro w w' haction ⟨e₁, he₁, hid, hname⟩
  obtain ⟨e₂, he₂, hid₂, hname₂⟩ := named_action haction he₁ (hid ▸ hkept)
  exact ⟨e₂, he₂, hid₂.trans hid, hname₂.trans hname⟩

/-- A row that is there after an action was there before, or it is that of the next nick. -/
theorem hasRow_action (haction : Action conf w₀ msg w w') {nickId : ℕ} (hrow : HasRow w' nickId) :
    HasRow w nickId ∨ nickId = w.nextNickId ∧ w'.nextNickId = w.nextNickId + 1 := by
  obtain ⟨r', hr', rfl⟩ := hrow
  rcases haction.row_cases hr' with ⟨r, hr, hid, -⟩ | ⟨⟨row, -, rfl⟩, hnext⟩
  · exact .inl ⟨r, hr, hid⟩
  · exact .inr ⟨rfl, hnext⟩

theorem nextNickId_action (haction : Action conf w₀ msg w w') : w.nextNickId ≤ w'.nextNickId := by
  have hnext {r : Registry} (h : w'.registry = r) : w'.nextNickId = r.nextNickId :=
    (congrArg Registry.nextNickId h :)
  rcases haction.nicks_cases with ⟨-, hsame⟩ | ⟨row, -, -, hinsert⟩ | ⟨nickId, -, hremove⟩ |
    ⟨nickId, linkId, hrelink⟩
  · exact hsame.ge
  · rw [hnext hinsert]
    exact Nat.le_succ _
  · exact (hnext hremove).ge
  · exact (hnext hrelink).ge

end Inversion

end BlitzedServices.NickServ
