import BlitzedServices.NickServ.Effects

/-!
# One level of linking

A nick may be linked to a registered nick that is not itself linked, and `mysql_getlink` follows one
link only. LINK checks that no nick is linked to the one that the user is using, and asks for this with
the id of his master, `nick_id`. After an UNLINK by somebody else that id is an old one.

`oneLevel_iff` says when a run keeps to one level: every LINK that is accepted comes from a user whose
nick no other is linked to.
-/

set_option autoImplicit false
set_option relaxedAutoImplicit false

namespace BlitzedServices.NickServ

open Lib Lib.SqlText Mysql ChanServ

/-! ### What should hold -/

/-- A linked nick is linked to another registered nick, which is not linked. -/
def OneLevelLinks (db : Database) : Prop :=
  ∀ a ∈ db.nick, a.linkId ≠ 0 →
    ∃ b ∈ db.nick, b.nickId = a.linkId ∧ b.nickId ≠ a.nickId ∧ b.linkId = 0

/-- No nick is linked to that of a user whose LINK is accepted. -/
def LinkMeets (conf : Config) (w : World) (msg : Env × Message) : Prop :=
  match msg with
  | (env, .command source (.link nick pass)) =>
    ∀ u, finduser w source = some u → LinkAccepted conf env u nick pass w →
      nickHasLinks w u.realId = 0
  | _ => True

/-! ### Nicks are numbered -/

/-- The ids and the names of nicks are unique, and the next id is new. -/
structure Numbered (r : Registry) : Prop where
  sound : Entry.Sound r.nicks r.nextNickId
  pos : 0 < r.nextNickId

/-- A property of the directory that is kept by every change but a link. -/
structure Kept (p : Registry → Prop) : Prop where
  insert : ∀ r name, r.Free name → p r → p (r.insert name)
  remove : ∀ r id, p r → p (r.remove id)
  unlink : ∀ r id, p r → p (r.relink id 0)
  users : ∀ r r' : Registry, r'.nicks = r.nicks → r'.nextNickId = r.nextNickId → p r → p r'

theorem kept_numbered : Kept Numbered where
  insert r name hfree h := ⟨h.sound.insert hfree h.pos 0, Nat.succ_pos _⟩
  remove r id h := ⟨h.sound.remove id, h.pos⟩
  unlink r id h := ⟨h.sound.relink id 0, h.pos⟩
  users r r' hnicks hnext h := ⟨by rw [hnicks, hnext]; exact h.sound, by rw [hnext]; exact h.pos⟩

theorem kept_oneLevel : Kept fun r ↦ Numbered r ∧ Entry.OneLevel r.nicks where
  insert r name hfree h := ⟨kept_numbered.insert r name hfree h.1, h.2.insert name⟩
  remove r id h := ⟨kept_numbered.remove r id h.1, h.2.remove id⟩
  unlink r id h := ⟨kept_numbered.unlink r id h.1, h.2.unlink id⟩
  users r r' hnicks hnext h :=
    ⟨kept_numbered.users r r' hnicks hnext h.1, by rw [hnicks]; exact h.2⟩

namespace Kept

variable {p : Registry → Prop} {w w' : World}

theorem quiet (hq : Quiet w w') (h : p w.registry) : p w'.registry := by
  rw [hq.registry]
  exact h

theorem calm (hp : Kept p) (hc : Calm w w') (h : p w.registry) : p w'.registry :=
  hp.users _ _ hc.nicks hc.nextNickId h

/-- The codes and the users do not matter. -/
theorem does (hp : Kept p) {f : Registry → Registry} (hd : Does (fun r r' ↦ r' = f r) w w')
    (h : p w.registry) (hnicks : ∀ r, (f r).nicks = r.nicks := by exact fun _ ↦ rfl)
    (hnext : ∀ r, (f r).nextNickId = r.nextNickId := by exact fun _ ↦ rfl) : p w'.registry :=
  hd.preserves h fun _ hr' ↦ hr' ▸ hp.users _ _ (hnicks _) (hnext _) h

theorem delnick (hp : Kept p) (nickId : ℕ) (h : p w.registry) : p (delnick nickId w).registry :=
  (delnick_does nickId w).preserves h fun _ hr' ↦ hr' ▸ hp.remove _ _ h

theorem register (hp : Kept p) (conf : Config) (env : Env) (u : User) (words : RegisterWords)
    (code : CString) (h : p w.registry) : p (doRegister conf env u words code w).registry := by
  rcases doRegister_cases conf env u words code w with hquiet | ⟨-, _, hpost⟩ | ⟨email, heq⟩
  · exact quiet hquiet h
  · exact hp.does hpost h
  · obtain ⟨w₁, hinsert, hids⟩ := registerNick_does conf env u email w
    rw [heq]
    refine hp.does hids (hinsert.preserves h ?_)
    rintro _ ⟨hfree, rfl⟩
    exact hp.insert _ _ hfree h

theorem dropAuth (hp : Kept p) (env : Env) (u : User) (authcode : Option CString)
    (h : p w.registry) : p (doDropAuth env u authcode w).registry := by
  by_cases hcode : ∀ code, authcode = some code → dropCoded u code w = false
  · exact quiet (doDropAuth_quiet env u hcode) h
  · push Not at hcode
    obtain ⟨code, rfl, hcoded⟩ := hcode
    obtain ⟨w₁, w₂, hids, hremove, hcodes⟩ := doDropAuth_does env u (Bool.ne_false_iff.mp hcoded)
    have hmid := hp.does hids h
    refine hp.does hcodes ?_
    exact hremove.preserves hmid fun _ hr' ↦ hr' ▸ hp.remove _ _ hmid

theorem drop (hp : Kept p) (conf : Config) (env : Env) (u : User) (nick authcode : Option CString)
    (code : CString) (h : p w.registry) : p (doDrop conf env u nick authcode code w).registry := by
  rcases doDrop_cases conf env u nick authcode code w with
    hquiet | ⟨-, -, -, hpost⟩ | ⟨-, -, -, heq⟩ | ⟨nick', -, -, -, w₁, hquiet, heq⟩
  · exact quiet hquiet h
  · exact hp.does hpost h
  · rw [heq]
    exact hp.dropAuth env u authcode h
  · rw [heq]
    obtain ⟨w₂, hremove, hfound, hnone⟩ := dropNick_does env u nick' (mysqlFindnick w.db nick') w₁
    have hmid : p w₂.registry :=
      hremove.preserves (quiet hquiet h) fun _ hr' ↦ hr' ▸ hp.remove _ _ (quiet hquiet h)
    cases huser : finduser w₂ nick' with
    | some u₂ => exact hp.does (hfound u₂ huser) hmid
    | none => exact quiet (hnone huser) hmid

theorem sendpass (hp : Kept p) (conf : Config) (env : Env) (u : User)
    (nick authcode : Option CString) (code : CString) (h : p w.registry) :
    p (doSendpass conf env u nick authcode code w).registry := by
  rcases doSendpass_cases conf env u nick authcode code w with
    hquiet | ⟨_, _, _, -, -, -, -, -, hcodes⟩ | ⟨_, -, -, -, hpost⟩
  · exact quiet hquiet h
  · exact hp.does hcodes h
  · exact hp.does hpost h

theorem unlinkCommand (hp : Kept p) (conf : Config) (env : Env) (u : User)
    (nick pass : Option CString) (h : p w.registry) :
    p (doUnlink conf env u nick pass w).registry := by
  rcases doUnlink_cases conf env u nick pass w with
    hcalm | ⟨nick', ni, -, -, -, -, w₁, hquiet, hdelink⟩ | ⟨ni, -, -, -, w₁, w₂, hquiet, hids, hunlink⟩
  · exact hp.calm hcalm h
  · have hmid := quiet hquiet h
    refine quiet hdelink ((delink_does_or env.now ni.nickId w₁).preserves hmid ?_)
    rintro r' (rfl | rfl)
    · exact hp.unlink _ _ hmid
    · exact hmid
  · have hmid := hp.does hids (quiet hquiet h)
    exact hunlink.preserves hmid fun _ hr' ↦ hr' ▸ hp.unlink _ _ hmid

theorem forbid (hp : Kept p) (conf : Config) (env : Env) (u : User) (nick : Option CString)
    (h : p w.registry) : p (doForbid conf env u nick w).registry := by
  rcases doForbid_cases conf env u nick w with
    hquiet | ⟨nick', w₁, w₂, -, -, hquiet, hdel, row, columns, hlink, -, hinsert⟩
  · exact quiet hquiet h
  · have hmid : p w₂.registry := by
      rw [hdel]
      split_ifs
      · exact hp.delnick _ (quiet hquiet h)
      · exact quiet hquiet h
    refine quiet hinsert ((insertNick_does row columns w₂ hlink rfl).preserves hmid ?_)
    rintro _ ⟨hfree, rfl⟩
    exact hp.insert _ _ hfree hmid

/-- Every command but an accepted LINK. -/
theorem command (hp : Kept p) (conf : Config) (env : Env) (u : User) (cmd : Command)
    (hlink : ∀ nick pass, cmd = .link nick pass → ¬ LinkAccepted conf env u nick pass w)
    (h : p w.registry) : p (doCommand conf env u w cmd).registry := by
  have hw := Calm.refl w
  cases cmd with
  | register words code => exact hp.register conf env u words code h
  | identify pass => exact hp.calm (hw.doIdentify conf env u pass) h
  | drop nick authcode code => exact hp.drop conf env u nick authcode code h
  | sendpass nick authcode code => exact hp.sendpass conf env u nick authcode code h
  | link nick pass => exact hp.calm (doLink_calm (hlink nick pass rfl)) h
  | unlink nick pass => exact hp.unlinkCommand conf env u nick pass h
  | forbid nick => exact hp.forbid conf env u nick h
  | suspend nick reason => exact hp.calm (hw.doSuspend conf env u nick reason) h
  | unsuspend nick => exact hp.calm (hw.doUnsuspend conf env u nick) h
  | set nick opt => exact hp.calm (hw.doSet conf env u nick opt) h
  | recover nick pass => exact hp.calm (hw.doRecover conf env u nick pass) h
  | release nick pass => exact hp.calm (hw.doRelease conf env u nick pass) h
  | ghost nick pass => exact hp.calm (hw.doGhost conf env u nick pass) h

/-- Every message but an accepted LINK. -/
theorem step (hp : Kept p) (conf : Config) (w : World) (msg : Env × Message)
    (hlink : ∀ source nick pass u, msg.2 = .command source (.link nick pass) →
      finduser w source = some u → ¬ LinkAccepted conf msg.1 u nick pass w)
    (h : p w.registry) : p (step conf w msg).registry := by
  obtain ⟨env, msg⟩ := msg
  have hw := Quiet.refl w
  cases msg with
  | connect nick username host =>
    exact hp.does (doNickNew_does conf env nick username host w) h
  | nick source nick =>
    change p (doNickChange conf env source nick w).registry
    cases huser : finduser w source with
    | none =>
      rw [doNickChange, huser]
      exact h
    | some u => exact hp.does (doNickChange_does huser) h
  | quit nick => exact hp.calm ((Calm.refl w).doQuit conf env nick) h
  | mode source nick modes => exact quiet (hw.doUmode env source nick modes) h
  | command source cmd =>
    rw [NickServ.step]
    cases huser : finduser w source with
    | none => exact h
    | some u =>
      refine hp.command conf env u cmd (fun nick pass hcmd ↦ ?_) h
      exact hlink source nick pass u (by rw [hcmd]) huser
  | other db => exact quiet (doOther_quiet env db w) h
  | timeout t => exact quiet (hw.doTimeout env t) h
  | expireNicks grace old =>
    exact expireNicks_induct (p := fun w ↦ p w.registry) (fun nickId w _ h ↦ hp.delnick nickId h) h
  | expireNicksuspends expired => exact quiet (hw.expireNicksuspends expired) h
  | expireAuth => exact hp.does (expireAuth_does env.now w) h
  | restart =>
    rw [NickServ.step, registry_nsInit]
    exact hp.users w.registry _ rfl rfl h

end Kept

/-! ### LINK -/

theorem nickHasLinks_eq_zero {w : World} {nickId : ℕ} :
    nickHasLinks w nickId = 0 ↔ ∀ e ∈ w.registry.nicks, e.link ≠ nickId := by
  rw [nickHasLinks, List.length_eq_zero_iff, List.filter_eq_nil_iff]
  simp only [World.registry, List.forall_mem_map, decide_eq_true_eq]
  rfl

/-- The target of an accepted LINK is another nick, which is not linked. -/
theorem LinkAccepted.exists_target {conf : Config} {env : Env} {u : User}
    {nick pass : Option CString} {w : World} (h : LinkAccepted conf env u nick pass w)
    (hnum : Numbered w.registry) (hlevel : Entry.OneLevel w.registry.nicks) :
    ∃ m ∈ w.registry.nicks, m.id = mysqlFindnick w.db (nick.getD []) ∧ m.id ≠ u.realId ∧
      m.link = 0 := by
  obtain ⟨-, -, -, -, htarget, hself, -, -, hmaster, -⟩ := h
  have hdb := (((CacheOnly.refl w).freshenIdentified env.now u).freshenStatus env.now
    (mysqlFindnick w.db (nick.getD []))).db
  rw [hdb] at hmaster
  have hfind := mysqlFindnick_eq hnum.sound (nick.getD [])
  rw [hfind] at htarget hself hmaster ⊢
  obtain ⟨m, hm, -, hid⟩ := Entry.exists_of_findId_ne_zero htarget
  refine ⟨m, hm, hid, hid ▸ hself, ?_⟩
  by_contra hlink
  have hlinked := hnum.sound.master_eq hm
  rw [if_pos hlink] at hlinked
  rw [← hid, mysqlGetlink_eq] at hmaster
  obtain ⟨b, -, hbid, hbne, -⟩ := hlevel m hm hlink
  exact hbne (hbid.trans (hlinked.symm.trans hmaster))

theorem oneLevel_link {conf : Config} {env : Env} {u : User} {nick pass : Option CString}
    {w : World} (h : LinkAccepted conf env u nick pass w) (hnum : Numbered w.registry)
    (hlevel : Entry.OneLevel w.registry.nicks) :
    Entry.OneLevel (doLink conf env u nick pass w).registry.nicks ↔ nickHasLinks w u.realId = 0 := by
  have hreal : u.realId ≠ 0 := by
    intro hzero
    have hident := h.2.2.2.1
    simp [nickIdentified, hzero] at hident
  rw [doLink_accepted h, nickHasLinks_eq_zero]
  exact hlevel.relink_iff hreal h.2.2.2.2.1 (h.exists_target hnum hlevel)

/-! ### Runs -/

theorem numbered_empty : Numbered World.empty.registry := ⟨Entry.sound_nil, Nat.one_pos⟩

/-- A step is an accepted LINK or keeps all that is kept without links. -/
theorem kept_or_linked (conf : Config) (w : World) (msg : Env × Message) :
    (∀ p, Kept p → p w.registry → p (step conf w msg).registry) ∨
    ∃ env source nick pass u, msg = (env, .command source (.link nick pass)) ∧
      finduser w source = some u ∧ LinkAccepted conf env u nick pass w := by
  by_cases h : ∃ env source nick pass u, msg = (env, .command source (.link nick pass)) ∧
      finduser w source = some u ∧ LinkAccepted conf env u nick pass w
  · exact .inr h
  · refine .inl fun p hp hw ↦ hp.step conf w msg (fun source nick pass u hmsg huser hlink ↦ ?_) hw
    exact h ⟨msg.1, source, nick, pass, u, Prod.ext rfl hmsg, huser, hlink⟩

theorem step_link {conf : Config} {env : Env} {source : CString} {nick pass : Option CString}
    {u : User} {w : World} (huser : finduser w source = some u) :
    step conf w (env, .command source (.link nick pass)) = doLink conf env u nick pass w := by
  rw [step, huser]
  rfl

theorem numbered_step (conf : Config) (w : World) (msg : Env × Message)
    (h : Numbered w.registry) : Numbered (step conf w msg).registry := by
  rcases kept_or_linked conf w msg with hkept | ⟨env, source, nick, pass, u, rfl, huser, hlink⟩
  · exact hkept Numbered kept_numbered h
  · rw [step_link huser, doLink_accepted hlink]
    exact ⟨h.sound.relink _ _, h.pos⟩

theorem oneLevel_step (conf : Config) (w : World) (msg : Env × Message) (h : Numbered w.registry)
    (hlevel : Entry.OneLevel w.registry.nicks) :
    Entry.OneLevel (step conf w msg).registry.nicks ↔ LinkMeets conf w msg := by
  constructor
  · intro hnext
    obtain ⟨env, msg⟩ := msg
    cases msg with
    | command source cmd =>
      cases cmd with
      | link nick pass =>
        intro u huser hlink
        rw [step_link huser] at hnext
        exact (oneLevel_link hlink h hlevel).mp hnext
      | _ => trivial
    | _ => trivial
  · intro hmeets
    rcases kept_or_linked conf w msg with hkept | ⟨env, source, nick, pass, u, rfl, huser, hlink⟩
    · exact (hkept _ kept_oneLevel ⟨h, hlevel⟩).2
    · rw [step_link huser]
      exact (oneLevel_link hlink h hlevel).mpr (hmeets u huser hlink)

theorem oneLevelLinks_iff (w : World) :
    OneLevelLinks w.db ↔ Entry.OneLevel w.registry.nicks := by
  simp only [OneLevelLinks, Entry.OneLevel, World.registry, List.forall_mem_map]
  simp only [List.mem_map, exists_exists_and_eq_and]
  rfl

/-- A run keeps to one level of linking iff every LINK that is accepted comes from a user whose nick
no other is linked to. -/
theorem oneLevel_iff (conf : Config) (msgs : List (Env × Message)) :
    (∀ msgs', msgs' <+: msgs → OneLevelLinks (run conf World.empty msgs').db) ↔
      Along (step conf) (LinkMeets conf) World.empty msgs := by
  rw [← along_iff_prefixes
    (p := fun w : World ↦ Numbered w.registry ∧ Entry.OneLevel w.registry.nicks)
    (fun w msg h ↦ (and_iff_right (numbered_step conf w msg h.1)).trans
      (oneLevel_step conf w msg h.1 h.2)) ⟨numbered_empty, Entry.oneLevel_nil⟩]
  refine forall₂_congr fun msgs' _ ↦ ?_
  rw [oneLevelLinks_iff]
  exact (and_iff_right (foldl_invariant (p := fun w : World ↦ Numbered w.registry)
    (numbered_step conf) numbered_empty msgs')).symm

/-! ### A link to a linked nick -/

/-- Commands are confirmed without codes, and every password is right. -/
def openConfig : Config where
  noSplitRecovery := true
  nsReleaseTimeout := 60
  nsRegNeedAuth := false
  nsRegDelay := 0
  nsGuestNickPrefix := "Guest".toList
  nsDefFlags := 0#32
  csMaxReg := 10
  msMaxMemos := 10
  defLanguage := 0
  nsSecureAdmins := false
  nsDisableLinkCommand := false
  nsExpire := 30
  nsExtraGrace := false
  servicesRoot := "root".toList

/-- A time at which every password is right. -/
def trusting (now : ℕ) : Env where
  now := now
  password := fun _ ↦ true
  badPassKill := false
  reads := []

/-- A user connects and registers his nick. -/
def newNick (now : ℕ) (nick : String) : List (Env × Message) :=
  [(trusting now, .connect nick.toList "user".toList "host".toList),
    (trusting now, .command nick.toList
      (.register ⟨some "pass".toList, some "mail".toList, false, true, true⟩ []))]

/-- `a` is linked to `b` and connects again, somebody else unlinks it, `c` is linked to it, and then it
is linked once more. -/
def staleMaster : List (Env × Message) :=
  newNick 1 "a" ++ newNick 2 "b" ++ newNick 3 "c" ++
  [(trusting 4, .command "a".toList (.link (some "b".toList) (some "pass".toList))),
    (trusting 5, .quit "a".toList),
    (trusting 6, .connect "a".toList "user".toList "host".toList),
    (trusting 7, .command "a".toList (.identify (some "pass".toList))),
    (trusting 8, .command "b".toList (.unlink (some "a".toList) (some "pass".toList))),
    (trusting 9, .command "c".toList (.link (some "a".toList) (some "pass".toList))),
    (trusting 10, .command "a".toList (.link (some "b".toList) (some "pass".toList)))]

instance (db : Database) : Decidable (OneLevelLinks db) :=
  inferInstanceAs (Decidable (∀ a ∈ db.nick, a.linkId ≠ 0 →
    ∃ b ∈ db.nick, b.nickId = a.linkId ∧ b.nickId ≠ a.nickId ∧ b.linkId = 0))

theorem staleMaster_not_oneLevel :
    ¬ OneLevelLinks (run openConfig World.empty staleMaster).db := by
  decide +kernel

end BlitzedServices.NickServ
