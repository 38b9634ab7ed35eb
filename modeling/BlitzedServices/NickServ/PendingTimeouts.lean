import BlitzedServices.NickServ.Actions

/-!
# The nicks of pending timeouts

A collide or release timeout holds the id of a nick and asks for its name when it fires. A nick that is
deleted in between has no name, and neither `mysql_delnick` nor its callers cancel its timeouts.

`registered_run` says that the timeouts of a run refer to registered nicks as long as no nick with a
pending timeout is deleted, and that then no name is missing where one is used.
-/

set_option autoImplicit false
set_option relaxedAutoImplicit false

namespace BlitzedServices.NickServ

open Lib Lib.SqlText Mysql ChanServ

/-! ### Names that are used -/

/-- The names that `collide` passes to `finduser` and to `send_cmd`. -/
def collideNames (nickId : ℕ) (w : World) : List (Option CString) :=
  [getNickFromId w.db nickId, getNickFromId w.db nickId]

/-- The name that `release` passes to `send_cmd`. -/
def releaseNames (nickId : ℕ) (w : World) : List (Option CString) :=
  [getNickFromId w.db nickId]

/-- The names that `timeout_collide` passes to `finduser` and those that `collide` does. -/
def timeoutCollideNames (env : Env) (t : NsTimeout) (w : World) : List (Option CString) :=
  let w := fireNsTimeout t w
  let status := getNickStatus env.now t.nickId w
  let w := freshenStatus env.now t.nickId w
  if status &&& NS_IDENTIFIED ≠ 0#32 then []
  else
    let nick := getNickFromId w.db t.nickId
    nick ::
      match nick.bind (finduser w) with
      | none => []
      | some u => if t.settime < u.mySignon then [] else collideNames t.nickId w

/-- The names that RECOVER passes on. -/
def recoverNames (env : Env) (u : User) (nick pass : Option CString) (w : World) :
    List (Option CString) :=
  match nick with
  | none => []
  | some nick =>
    match finduser w nick with
    | none => []
    | some v =>
      if v.realId ≠ 0 ∧ sameName nick u.nick = false ∧ mayRecover env u v.realId pass w then
        collideNames v.realId w
      else []

/-- The names that RELEASE passes on. -/
def doReleaseNames (env : Env) (u : User) (nick pass : Option CString) (w : World) :
    List (Option CString) :=
  match nick with
  | none => []
  | some nick =>
    let nickId := mysqlFindnick w.db nick
    if nickId ≠ 0 ∧ getNickStatus env.now nickId w &&& NS_KILL_HELD ≠ 0#32 ∧
      mayRecover env u nickId pass w then releaseNames nickId w
    else []

/-- The names that the handler of a message passes to `finduser` and `send_cmd` in `timeout_collide`,
`collide`, `timeout_release` and `release`, null pointers for nicks without a row. -/
def passedNames (w : World) : Env × Message → List (Option CString)
  | (env, .timeout t) =>
    if t ∈ w.timeouts ∧ t.timeout ≤ env.now then
      match t.type with
      | .collide => timeoutCollideNames env t w
      | .release => releaseNames t.nickId (fireNsTimeout t w)
    else []
  | (env, .command source (.recover nick pass)) =>
    match finduser w source with
    | none => []
    | some u => recoverNames env u nick pass w
  | (env, .command source (.release nick pass)) =>
    match finduser w source with
    | none => []
    | some u => doReleaseNames env u nick pass w
  | _ => []

/-! ### What should hold -/

/-- Each pending timeout is that of a registered nick. -/
def Registered (w : World) : Prop :=
  ∀ t ∈ w.timeouts, HasRow w t.nickId

instance (w : World) (nickId : ℕ) : Decidable (HasRow w nickId) :=
  inferInstanceAs (Decidable (∃ r ∈ w.db.nick, _))

instance (w : World) : Decidable (Registered w) :=
  inferInstanceAs (Decidable (∀ t ∈ w.timeouts, _))

/-- What a message must meet: it deletes no nick with a pending timeout, and a user who is recovered
without a password has a registered nick. -/
def TimeoutsMeet (conf : Config) (w : World) (msg : Env × Message) : Prop :=
  (∀ id, Deletes conf w msg id → ∀ t ∈ w.timeouts, t.nickId ≠ id) ∧
  match msg with
  | (env, .command source (.recover (some nick) none)) => ∀ u v, finduser w source = some u →
      finduser w nick = some v → v.realId ≠ 0 → sameName nick u.nick = false →
        mayRecover env u v.realId none w = true → HasRow w v.realId
  | _ => True

/-! ### Nicks and timeouts that stay -/

/-- The same ids of nicks and the same timeouts. -/
structure SameIds (w w' : World) : Prop where
  nick : w'.db.nick.map NickRow.nickId = w.db.nick.map NickRow.nickId
  timeouts : w'.timeouts = w.timeouts

theorem hasRow_iff {w : World} {nickId : ℕ} : HasRow w nickId ↔ nickId ∈ w.db.nick.map NickRow.nickId :=
  List.mem_map.symm

theorem hasRow_iff_isSome {w : World} {nickId : ℕ} :
    HasRow w nickId ↔ (getNickFromId w.db nickId).isSome = true := by
  rw [getNickFromId, Option.isSome_map, List.find?_isSome]
  simp only [decide_eq_true_eq]
  rfl

namespace SameIds

variable {w₀ w : World}

theorem refl (w : World) : SameIds w w := ⟨rfl, rfl⟩

theorem trans {w₁ w₂ w₃ : World} (h₁ : SameIds w₁ w₂) (h₂ : SameIds w₂ w₃) : SameIds w₁ w₃ :=
  ⟨h₂.nick.trans h₁.nick, h₂.timeouts.trans h₁.timeouts⟩

theorem act {f : World → World} (h : SameIds w₀ w) (hf : SameIds w (f w)) : SameIds w₀ (w.act f) :=
  World.act_cases h fun _ ↦ h.trans hf

theorem cacheOnly {w' : World} (h : SameIds w₀ w) (hc : CacheOnly w w') : SameIds w₀ w' :=
  h.trans ⟨by rw [hc.db], (congrArg World.timeouts hc.same :)⟩

theorem aside {w' : World} (h : SameIds w₀ w) (ha : Aside w w') : SameIds w₀ w' :=
  h.trans ⟨by rw [ha.nick], ha.timeouts⟩

theorem updateNick (h : SameIds w₀ w) {f : NickRow → NickRow} (nickId : ℕ)
    (hf : ∀ r, (f r).nickId = r.nickId) : SameIds w₀ (updateNick f nickId w) := by
  refine h.act ⟨?_, rfl⟩
  rw [List.map_map]
  refine List.map_congr_left fun r _ ↦ ?_
  rw [Function.comp_apply]
  split_ifs
  · exact hf r
  · rfl

theorem linkNick (h : SameIds w₀ w) (nickId targetId : ℕ) :
    SameIds w₀ (linkNick nickId targetId w) := by
  have hlink := h.updateNick (f := fun r ↦ { r with linkId := targetId }) nickId fun _ ↦ rfl
  unfold NickServ.linkNick
  refine act (act hlink ⟨rfl, rfl⟩) ?_
  split
  · exact ⟨rfl, rfl⟩
  · exact ⟨rfl, rfl⟩

theorem delink (h : SameIds w₀ w) (now nickId : ℕ) : SameIds w₀ (delink now nickId w) := by
  rw [NickServ.delink]
  split
  · exact h.act ⟨rfl, rfl⟩
  · split_ifs
    · exact h
    · split
      · exact h.act ⟨rfl, rfl⟩
      · split
        · exact h.act ⟨rfl, rfl⟩
        · refine act (cacheOnly (aside (updateNick (h.updateNick nickId ?_) nickId ?_)
            (.updateColumns _ _ _)) ((CacheOnly.refl _).nickcacheWrite _ _ _)) ⟨rfl, rfl⟩
          · exact fun _ ↦ rfl
          · exact fun _ ↦ rfl

theorem delNicksuspend (h : SameIds w₀ w) (nicksuspendId : ℕ) :
    SameIds w₀ { w with db := delNicksuspend w.db nicksuspendId } :=
  h.trans ⟨by rw [nick_delNicksuspend], rfl⟩

theorem expireNicksuspends (h : SameIds w₀ w) (expired : ℕ → Bool) :
    SameIds w₀ (expireNicksuspends expired w) := by
  refine List.foldlRecOn _ _ (motive := SameIds w₀) h fun w hw r _ ↦ ?_
  have hflags : SameIds w₀ (NickServ.unsuspend r.nickId w) := hw.updateNick r.nickId fun _ ↦ rfl
  exact hflags.act ((refl _).delNicksuspend _)

theorem hasRow (h : SameIds w₀ w) {nickId : ℕ} : HasRow w nickId ↔ HasRow w₀ nickId := by
  rw [hasRow_iff, hasRow_iff, h.nick]

end SameIds

theorem mem_delNsTimeout {w : World} {nickId : ℕ} {type : TimeoutType} {t : NsTimeout}
    (h : t ∈ (delNsTimeout nickId type w).timeouts) : ∃ s ∈ w.timeouts, s.nickId = t.nickId := by
  refine World.act_cases (p := fun w' ↦ t ∈ w'.timeouts → ∃ s ∈ w.timeouts, s.nickId = t.nickId)
    (fun ht ↦ ⟨t, ht, rfl⟩) (fun _ ht ↦ ?_) h
  rcases List.mem_append.mp ht with hlost | hleft
  · obtain ⟨s, hs, rfl⟩ := List.mem_map.mp hlost
    exact ⟨s, (List.rdropWhile_prefix _ _).subset (List.mem_of_mem_filter hs), rfl⟩
  · exact ⟨t, (List.rtakeWhile_suffix _ _).subset hleft, rfl⟩

theorem mem_fireNsTimeout {w : World} {t t' : NsTimeout}
    (h : t' ∈ (fireNsTimeout t w).timeouts) : ∃ s ∈ w.timeouts, s.nickId = t'.nickId := by
  refine World.act_cases (p := fun w' ↦ t' ∈ w'.timeouts → ∃ s ∈ w.timeouts, s.nickId = t'.nickId)
    (fun ht ↦ ⟨t', ht, rfl⟩) (fun _ ht ↦ ?_) h
  rcases List.mem_append.mp (List.mem_of_mem_eraseIdx ht) with hlost | hleft
  · obtain ⟨s, hs, rfl⟩ := List.mem_map.mp hlost
    exact ⟨s, (List.rdropWhile_prefix _ _).subset hs, rfl⟩
  · exact ⟨t', (List.rtakeWhile_suffix _ _).subset hleft, rfl⟩

/-! ### Steps -/

/-- The timeouts are those of registered nicks, and the message deletes none of these. -/
def Spared (conf : Config) (w₀ : World) (msg : Env × Message) (w : World) : Prop :=
  ∀ t ∈ w.timeouts, HasRow w t.nickId ∧ ¬ Deletes conf w₀ msg t.nickId

section Steps

variable {conf : Config} {w₀ w w' : World} {msg : Env × Message}

theorem Spared.sameIds (h : Spared conf w₀ msg w) (hs : SameIds w w') : Spared conf w₀ msg w' := by
  rw [Spared, hs.timeouts]
  exact fun t ht ↦ ⟨hs.hasRow.mpr (h t ht).1, (h t ht).2⟩

theorem Spared.fewer (h : Spared conf w₀ msg w) (hnick : w'.db.nick = w.db.nick)
    (htimeouts : ∀ t ∈ w'.timeouts, ∃ s ∈ w.timeouts, s.nickId = t.nickId) :
    Spared conf w₀ msg w' := by
  intro t ht
  obtain ⟨s, hs, hid⟩ := htimeouts t ht
  rw [← hid, HasRow, hnick]
  exact h s hs

theorem spared_action (haction : Action conf w₀ msg w w') (h : Spared conf w₀ msg w) :
    Spared conf w₀ msg w' := by
  have hw := SameIds.refl w
  cases haction with
  | look hlook => exact h.sameIds (hw.cacheOnly hlook.cacheOnly)
  | aside haside => exact h.sameIds (hw.aside haside)
  | row f nickId w _ => exact h.sameIds (hw.updateNick nickId fun _ ↦ rfl)
  | entry f now nickId w _ => exact h.sameIds (hw.cacheOnly ((CacheOnly.refl w).nickcacheWrite _ _ _))
  | insert row columns w _ =>
    refine World.act_cases (p := Spared conf w₀ msg) h fun _ ↦
      ite_ind (p := Spared conf w₀ msg) (w := w.die) (fun _ ↦ h) fun _ t ht ↦ ?_
    obtain ⟨⟨r, hr, hid⟩, hkept⟩ := h t ht
    exact ⟨⟨r, List.mem_append_left _ hr, hid⟩, hkept⟩
  | delete nickId w hdeletes =>
    refine World.act_cases (p := Spared conf w₀ msg) h fun _ t ht ↦ ?_
    obtain ⟨⟨r, hr, hid⟩, hkept⟩ := h t ht
    have hne : r.nickId ≠ nickId := fun heq ↦ hkept (by rw [← hid, heq]; exact hdeletes)
    refine ⟨⟨if r.linkId = nickId then { r with linkId := 0 } else r, ?_, ?_⟩, hkept⟩
    · rw [nick_mysqlDelnick]
      refine List.mem_filter.mpr ⟨List.mem_map_of_mem hr, decide_eq_true ?_⟩
      split_ifs
      · exact hne
      · exact hne
    · split_ifs
      · exact hid
      · exact hid
  | link nickId targetId w _ => exact h.sameIds (hw.linkNick nickId targetId)
  | unlink now nickId w _ => exact h.sameIds (hw.delink now nickId)
  | suspend nickId reason who w _ _ _ =>
    have hflags : SameIds w (updateNick (fun r ↦ { r with flags := r.flags ||| NI_SUSPENDED }) nickId w) :=
      hw.updateNick nickId fun _ ↦ rfl
    rw [addNicksuspend]
    refine h.sameIds (hflags.act ?_)
    dsimp only
    split_ifs
    · exact ⟨rfl, rfl⟩
    · exact ⟨rfl, rfl⟩
  | unsuspend nickId w _ =>
    refine h.sameIds (SameIds.updateNick (hw.act ?_) nickId fun _ ↦ rfl)
    split
    · exact hw.delNicksuspend _
    · exact hw
  | addTimeout nickId type delay now w hrow hspares =>
    refine World.act_cases (p := Spared conf w₀ msg) h fun _ ↦ ?_
    exact List.forall_mem_cons.mpr ⟨⟨hrow, hspares nickId⟩, h⟩
  | delTimeout nickId type w =>
    refine h.fewer ?_ fun t ↦ mem_delNsTimeout
    exact World.act_cases (p := fun w' ↦ w'.db.nick = w.db.nick) rfl fun _ ↦ rfl
  | fireTimeout t w =>
    refine h.fewer ?_ fun t' ↦ mem_fireNsTimeout
    exact World.act_cases (p := fun w' ↦ w'.db.nick = w.db.nick) rfl fun _ ↦ rfl

theorem Registered.sameIds (h : Registered w) (hs : SameIds w w') : Registered w' := by
  rw [Registered, hs.timeouts]
  exact fun t ht ↦ hs.hasRow.mpr (h t ht)

theorem registered_step (conf : Config) (w : World) (msg : Env × Message) (h : Registered w)
    (hmeets : TimeoutsMeet conf w msg) : Registered (step conf w msg) := by
  obtain ⟨env, msg⟩ := msg
  have hw := SameIds.refl w
  by_cases hhandled : Handled msg
  · have hspared : Spared conf w (env, msg) w :=
      fun t ht ↦ ⟨h t ht, fun hdel ↦ hmeets.1 t.nickId hdel t ht rfl⟩
    intro t ht
    exact ((acts_step conf w env hhandled).invariant hspared (fun _ _ ↦ spared_action) t ht).1
  · cases msg with
    | other db =>
      refine h.sameIds (SameIds.act (hw.cacheOnly ((CacheOnly.refl w).lookups _ _)) ?_)
      split_ifs with hfixed
      · refine ⟨?_, rfl⟩
        have hids (db : Database) : db.nick.map NickRow.nickId =
            (db.nick.map fixedColumns).map Prod.fst := by
          rw [List.map_map]
          rfl
        rw [hids, hfixed, ← hids]
      · exact .refl _
    | expireNicksuspends expired => exact h.sameIds (hw.expireNicksuspends expired)
    | restart => exact fun t ht ↦ absurd ht List.not_mem_nil
    | _ => exact absurd trivial hhandled

end Steps

/-! ### Names -/

section Names

variable {w : World} {nickId : ℕ}

theorem HasRow.name_ne_none {w' : World} (h : HasRow w nickId) (hdb : w'.db = w.db) :
    none ≠ getNickFromId w'.db nickId := by
  intro hnone
  rw [hasRow_iff_isSome, ← hdb, ← hnone] at h
  cases h

theorem none_notMem_collideNames {w' : World} (h : HasRow w nickId) (hdb : w'.db = w.db) :
    none ∉ collideNames nickId w' := by
  rw [collideNames, List.mem_pair, or_self]
  exact h.name_ne_none hdb

theorem none_notMem_releaseNames {w' : World} (h : HasRow w nickId) (hdb : w'.db = w.db) :
    none ∉ releaseNames nickId w' := by
  rw [releaseNames, List.mem_singleton]
  exact h.name_ne_none hdb

theorem db_fireNsTimeout (t : NsTimeout) (w : World) : (fireNsTimeout t w).db = w.db :=
  World.act_cases (p := fun w' ↦ w'.db = w.db) rfl fun _ ↦ rfl

theorem none_notMem_timeoutCollideNames (env : Env) {t : NsTimeout} (h : HasRow w t.nickId) :
    none ∉ timeoutCollideNames env t w := by
  have hdb : (freshenStatus env.now t.nickId (fireNsTimeout t w)).db = w.db :=
    ((CacheOnly.refl _).freshenStatus env.now t.nickId).db.trans (db_fireNsTimeout t w)
  unfold timeoutCollideNames
  dsimp only
  generalize freshenStatus env.now t.nickId (fireNsTimeout t w) = w₁ at hdb ⊢
  split_ifs
  · exact List.not_mem_nil
  · refine List.not_mem_cons_of_ne_of_not_mem (h.name_ne_none hdb) ?_
    split
    · exact List.not_mem_nil
    · split_ifs
      · exact List.not_mem_nil
      · exact none_notMem_collideNames h hdb

/-- A nick whose password was given is registered. -/
theorem hasRow_of_password {env : Env} (h : checkNickPassword env w nickId = true) : HasRow w nickId := by
  rw [checkNickPassword, Bool.and_eq_true, getNickinfoFromId, List.find?_isSome] at h
  obtain ⟨r, hr, hid⟩ := h.1
  exact ⟨r, hr, of_decide_eq_true hid⟩

theorem none_notMem_passedNames {conf : Config} {msg : Env × Message} (h : Registered w)
    (hmeets : TimeoutsMeet conf w msg) : none ∉ passedNames w msg := by
  obtain ⟨env, msg⟩ := msg
  cases msg with
  | timeout t =>
    rw [passedNames]
    split_ifs with hdue
    · cases t.type with
      | collide => exact none_notMem_timeoutCollideNames env (h t hdue.1)
      | release => exact none_notMem_releaseNames (h t hdue.1) (db_fireNsTimeout t w)
    · exact List.not_mem_nil
  | command source cmd =>
    cases cmd with
    | recover nick pass =>
      rw [passedNames]
      cases huser : finduser w source with
      | none => exact List.not_mem_nil
      | some u =>
        cases nick with
        | none => exact List.not_mem_nil
        | some nick =>
          dsimp only
          rw [recoverNames]
          cases hother : finduser w nick with
          | none => exact List.not_mem_nil
          | some v =>
            dsimp only
            split_ifs with hmay
            · refine none_notMem_collideNames ?_ rfl
              cases pass with
              | some pass => exact hasRow_of_password hmay.2.2
              | none => exact hmeets.2 u v huser hother hmay.1 hmay.2.1 hmay.2.2
            · exact List.not_mem_nil
    | release nick pass =>
      rw [passedNames]
      cases finduser w source with
      | none => exact List.not_mem_nil
      | some u =>
        cases nick with
        | none => exact List.not_mem_nil
        | some nick =>
          dsimp only
          unfold doReleaseNames
          dsimp only
          split_ifs with hid
          · exact none_notMem_releaseNames (hasRow_findnick hid.1) rfl
          · exact List.not_mem_nil
    | _ => exact List.not_mem_nil
  | _ => exact List.not_mem_nil

end Names

/-! ### Runs -/

/-- In each state of a run whose messages meet the condition, the pending timeouts are those of
registered nicks, and the next message passes on no null pointer for a name. -/
theorem registered_run (conf : Config) (msgs : List (Env × Message))
    (hok : Along (step conf) (TimeoutsMeet conf) World.empty msgs) :
    (∀ l, l <+: msgs → Registered (run conf World.empty l)) ∧
      ∀ l msg, l ++ [msg] <+: msgs → none ∉ passedNames (run conf World.empty l) msg := by
  have hrun {l : List (Env × Message)} (hl : Along (step conf) (TimeoutsMeet conf) World.empty l) :
      Registered (run conf World.empty l) :=
    hl.invariant (registered_step conf) fun t ht ↦ absurd ht List.not_mem_nil
  constructor
  · rintro l ⟨rest, rfl⟩
    exact hrun ((along_append _ _ _).mp hok).1
  · rintro l msg ⟨rest, rfl⟩
    have hprefix := (along_append _ _ _).mp ((along_append _ _ _).mp hok).1
    exact none_notMem_passedNames (hrun hprefix.1) hprefix.2.1

/-- New nicks are enforced. -/
def enforcing : Config :=
  { openConfig with nsDefFlags := NI_ENFORCE }

/-- A stranger takes a registered nick and is told to leave it. -/
def strangerCollided : List (Env × Message) :=
  newNick 1 "a" ++
  [(trusting 2, .quit "a".toList),
    (trusting 3, .connect "a".toList "stranger".toList "elsewhere".toList),
    (trusting 63, .timeout ⟨1, .collide, 3, 63, true⟩)]

theorem registered_run_strangerCollided :
    (∀ l, l <+: strangerCollided → Registered (run enforcing World.empty l)) ∧
      ∀ l msg, l ++ [msg] <+: strangerCollided →
        none ∉ passedNames (run enforcing World.empty l) msg := by
  refine registered_run enforcing strangerCollided ⟨⟨?_, trivial⟩, ⟨?_, trivial⟩, ⟨?_, trivial⟩,
    ⟨?_, trivial⟩, ⟨?_, trivial⟩, trivial⟩
  · exact fun _ hdel ↦ hdel.elim
  · exact fun _ ⟨_, _, hdel⟩ ↦ hdel.elim
  · exact fun _ hdel ↦ hdel.elim
  · exact fun _ hdel ↦ hdel.elim
  · exact fun _ hdel ↦ hdel.elim

/-- The services admin drops the nick while its timeout is pending. -/
def collidedDropped : List (Env × Message) :=
  newNick 1 "root" ++ newNick 2 "a" ++
  [(trusting 3, .mode "root".toList "root".toList "+o".toList),
    (trusting 4, .quit "a".toList),
    (trusting 5, .connect "a".toList "stranger".toList "elsewhere".toList),
    (trusting 6, .command "root".toList (.drop (some "a".toList) none []))]

theorem collidedDropped_not_registered :
    (run enforcing World.empty collidedDropped).alive = true ∧
      ¬ Registered (run enforcing World.empty collidedDropped) ∧
      none ∈ passedNames (run enforcing World.empty collidedDropped)
        (trusting 65, .timeout ⟨2, .collide, 5, 65, true⟩) := by
  decide +kernel

end BlitzedServices.NickServ
