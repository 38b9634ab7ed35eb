import BlitzedServices.NickServ.Registry
import BlitzedServices.ChanServ.Succession

/-!
# What changes the registry

`Does` says that an operation made a certain change to the registry, or died before. A few operations
change the directory of nicks or the list of users, and each handler is summed up by the ones that it
uses: REGISTER inserts a nick, LINK and UNLINK set a link, DROP, FORBID and the expiry delete a nick,
and a nick change gives a user other ids.
-/

set_option autoImplicit false
set_option relaxedAutoImplicit false

namespace BlitzedServices.NickServ

open Lib Lib.SqlText Mysql ChanServ

/-- What holds of both results of a test. -/
theorem ite_ind {p : World → Prop} {c : Prop} [Decidable c] {w w' : World} (h : c → p w)
    (h' : ¬ c → p w') : p (if c then w else w') := by
  split_ifs with hc
  · exact h hc
  · exact h' hc

/-! ### Changes -/

namespace Registry

/-- A new nick, which is not linked. -/
def insert (r : Registry) (name : CString) : Registry :=
  { r with nicks := r.nicks ++ [⟨r.nextNickId, name, 0⟩], nextNickId := r.nextNickId + 1 }

/-- The link of one nick is set. -/
def relink (r : Registry) (id link : ℕ) : Registry :=
  { r with nicks := Entry.relink r.nicks id link }

/-- One nick is deleted. -/
def remove (r : Registry) (id : ℕ) : Registry :=
  { r with nicks := Entry.remove r.nicks id }

/-- A new user. -/
def addUser (r : Registry) (v : UserIds) : Registry :=
  { r with users := v :: r.users, nextUid := r.nextUid + 1 }

/-- One user is changed. -/
def modifyUser (r : Registry) (f : UserIds → UserIds) (uid : ℕ) : Registry :=
  { r with users := r.users.map fun v ↦ if v.uid = uid then f v else v }

/-- A new code. -/
def post (r : Registry) (command : AuthCommand) (code name params : CString) (now : ℕ) : Registry :=
  { r with
    auth := r.auth ++ [⟨r.nextAuthId, code, name, command, params, now⟩]
    nextAuthId := r.nextAuthId + 1 }

/-- Some codes are deleted. -/
def withdraw (r : Registry) (p : AuthRow → Bool) : Registry :=
  { r with auth := r.auth.filter fun a ↦ !p a }

/-- No nick has the name. -/
def Free (r : Registry) (name : CString) : Prop :=
  ∀ e ∈ r.nicks, e.name ≠ name

end Registry

/-- The registry of a live process was changed in one of the ways of `R`, or the process is dead and it
was not changed. -/
structure Does (R : Registry → Registry → Prop) (w w' : World) : Prop where
  registry : w.alive = true ∧ R w.registry w'.registry ∨ w'.registry = w.registry ∧ w'.alive = false
  alive : w'.alive = true → w.alive = true

namespace Does

variable {R R' : Registry → Registry → Prop} {w w₁ w' : World}

theorem mono (h : Does R w w') (hR : ∀ r r', R r r' → R' r r') : Does R' w w' :=
  ⟨h.registry.imp_left fun ⟨halive, hchange⟩ ↦ ⟨halive, hR _ _ hchange⟩, h.alive⟩

theorem quiet (h : Does R w w₁) (hq : Quiet w₁ w') : Does R w w' := by
  refine ⟨?_, fun halive ↦ h.alive (hq.alive halive)⟩
  rw [hq.registry]
  refine h.registry.imp_right fun ⟨hsame, hdead⟩ ↦ ⟨hsame, ?_⟩
  by_contra halive
  rw [hq.alive (Bool.not_eq_false _ ▸ halive)] at hdead
  cases hdead

theorem act {f : World → World} (hR : R w.registry (f w).registry) : Does R w (w.act f) := by
  rw [World.act]
  split_ifs with halive
  · exact ⟨.inl ⟨halive, hR⟩, fun _ ↦ halive⟩
  · exact ⟨.inr ⟨rfl, Bool.not_eq_true _ ▸ halive⟩, id⟩

/-- What a change keeps holds after it. -/
theorem preserves {p : Registry → Prop} (h : Does R w w') (hp : p w.registry)
    (hR : ∀ r', R w.registry r' → p r') : p w'.registry := by
  rcases h.registry with ⟨-, hchange⟩ | ⟨hsame, -⟩
  · exact hR _ hchange
  · rw [hsame]
    exact hp

/-- As long as the process lives, the change was made. -/
theorem of_alive (h : Does R w w') (halive : w'.alive = true) : R w.registry w'.registry := by
  rcases h.registry with ⟨-, hchange⟩ | ⟨-, hdead⟩
  · exact hchange
  · rw [hdead] at halive
    cases halive

end Does

theorem Quiet.does {R : Registry → Registry → Prop} {w w₁ w' : World} (h : Quiet w w₁)
    (hd : Does R w₁ w') : Does R w w' := by
  refine ⟨?_, fun halive ↦ h.alive (hd.alive halive)⟩
  rw [← h.registry]
  exact hd.registry.imp_left fun ⟨halive, hchange⟩ ↦ ⟨h.alive halive, hchange⟩

/-! ### The operations that change it -/

theorem nick_succeedLoop (nickId i rows : ℕ) (chans : List ChannelRow) (db : Database) :
    (succeedLoop nickId i rows chans db).nick = db.nick := by
  induction chans generalizing i rows db with
  | nil => rw [succeedLoop]
  | cons c chans ih =>
    rw [succeedLoop]
    split_ifs
    · rw [ih, nick_mysqlDelchan]
    · dsimp only
      rw [ih]
      rfl
    · rfl

theorem nick_csMysqlRemoveNick (db : Database) (nickId : ℕ) :
    (csMysqlRemoveNick db nickId).nick = db.nick := by
  rw [csMysqlRemoveNick]
  simp only [passChannels, nick_delchans, nick_succeedLoop]

theorem nick_mysqlDelnick (db : Database) (nickId : ℕ) :
    (mysqlDelnick db nickId).nick =
      (db.nick.map fun r ↦ if r.linkId = nickId then { r with linkId := 0 } else r).filter
        (·.nickId ≠ nickId) := by
  rw [mysqlDelnick]
  simp only [mysqlDeleteNick, nsMysqlRemoveMemos, nsMysqlRemoveAccess, mysqlRemoveLinks,
    osMysqlRemoveNick, nick_csMysqlRemoveNick, nick_delNicksuspend]

theorem nickEntry_unlink (r : NickRow) (nickId : ℕ) :
    nickEntry (if r.linkId = nickId then { r with linkId := 0 } else r) =
      if (nickEntry r).link = nickId then { nickEntry r with link := 0 } else nickEntry r := by
  by_cases hlink : r.linkId = nickId
  · rw [if_pos hlink, if_pos (show (nickEntry r).link = nickId from hlink)]
    rfl
  · rw [if_neg hlink, if_neg (show (nickEntry r).link ≠ nickId from hlink)]

theorem nickEntry_mysqlDelnick (db : Database) (nickId : ℕ) :
    (mysqlDelnick db nickId).nick.map nickEntry =
      Entry.remove (db.nick.map nickEntry) nickId := by
  rw [nick_mysqlDelnick, Entry.remove, List.map_map, List.filter_map, List.filter_map, List.map_map]
  have hid : (fun r : NickRow ↦ decide (r.nickId ≠ nickId)) ∘
      (fun r ↦ if r.linkId = nickId then { r with linkId := 0 } else r) =
      (fun e : Entry CString ↦ decide (e.id ≠ nickId)) ∘
        ((fun e ↦ if e.link = nickId then { e with link := 0 } else e) ∘ nickEntry) := by
    ext r
    simp only [Function.comp_apply, ← nickEntry_unlink]
    rfl
  rw [hid]
  exact List.map_congr_left fun r _ ↦ nickEntry_unlink r nickId

theorem delnick_does (nickId : ℕ) (w : World) :
    Does (fun r r' ↦ r' = r.remove nickId) w (delnick nickId w) := by
  refine ⟨?_, ?_⟩
  · rw [delnick, World.act]
    split_ifs with halive
    · refine .inl ⟨halive, ?_⟩
      simp only [World.registry, Registry.remove, nickEntry_mysqlDelnick]
    · exact .inr ⟨rfl, Bool.not_eq_true _ ▸ halive⟩
  · exact World.act_cases (p := fun w' ↦ w'.alive = true → w.alive = true) id fun halive _ ↦ halive

theorem modifyUser_does {f : User → User} {g : UserIds → UserIds} (hf : ∀ u, (f u).ids = g u.ids)
    (uid : ℕ) (w : World) : Does (fun r r' ↦ r' = r.modifyUser g uid) w (modifyUser f uid w) := by
  refine Does.act ?_
  have husers : (w.users.map fun u ↦ if u.uid = uid then f u else u).map User.ids =
      (w.users.map User.ids).map fun v ↦ if v.uid = uid then g v else v := by
    rw [List.map_map, List.map_map]
    refine List.map_congr_left fun u _ ↦ ?_
    rw [Function.comp_apply, Function.comp_apply, apply_ite User.ids, hf]
    rfl
  simp only [World.registry, Registry.modifyUser, husers]

/-- Other ids for a user. -/
def UserIds.withIds (realId nickId : ℕ) (v : UserIds) : UserIds :=
  { v with realId := realId, nickId := nickId }

theorem setIds_does (realId nickId uid : ℕ) (w : World) :
    Does (fun r r' ↦ r' = r.modifyUser (UserIds.withIds realId nickId) uid) w
      (modifyUser (fun u ↦ { u with realId := realId, nickId := nickId }) uid w) :=
  modifyUser_does (fun _ ↦ rfl) uid w

theorem addUser_does (u : User) (w : World) :
    Does (fun r r' ↦ r' = r.addUser u.ids) w (addUser u w) :=
  Does.act rfl

theorem insertAuth_does (command : AuthCommand) (code name params : CString) (now : ℕ) (w : World) :
    Does (fun r r' ↦ r' = r.post command code name params now) w
      (insertAuth command code name params now w) :=
  Does.act rfl

/-- The codes that match are deleted. -/
theorem withdraw_does {p : AuthRow → Prop} [DecidablePred p] (w : World) :
    Does (fun r r' ↦ r' = r.withdraw fun a ↦ p a) w
      (w.act fun w ↦ { w with auth := w.auth.filter fun a ↦ ¬ p a }) := by
  refine Does.act ?_
  simp only [World.registry, Registry.withdraw, decide_not]

theorem expireAuth_does (now : ℕ) (w : World) :
    Does (fun r r' ↦ r' = r.withdraw fun a ↦ a.createTime + SECS_24_HRS < now) w
      (expireAuth now w) :=
  withdraw_does w

theorem registry_updateLink (nickId linkId : ℕ) (w : World) :
    World.registry
      { w with
        db := { w.db with
          nick := w.db.nick.map fun r ↦
            if r.nickId = nickId then { r with linkId := linkId } else r } } =
      w.registry.relink nickId linkId := by
  have hnicks : (w.db.nick.map fun r ↦ if r.nickId = nickId then { r with linkId := linkId }
      else r).map nickEntry = Entry.relink (w.db.nick.map nickEntry) nickId linkId := by
    rw [Entry.relink, List.map_map, List.map_map]
    refine List.map_congr_left fun r _ ↦ ?_
    rw [Function.comp_apply, Function.comp_apply, apply_ite nickEntry]
    rfl
  simp only [World.registry, Registry.relink, hnicks]

theorem updateLink_does (nickId linkId : ℕ) (w : World) :
    Does (fun r r' ↦ r' = r.relink nickId linkId) w
      (updateNick (fun r ↦ { r with linkId := linkId }) nickId w) :=
  Does.act (registry_updateLink nickId linkId w)

theorem insertNick_does (row : NickRow) (columns : NickColumns) (w : World) (hlink : row.linkId = 0)
    {name : CString} (hname : foldName row.nick = name) :
    Does (fun r r' ↦ r.Free name ∧ r' = r.insert name) w (insertNick row columns w) := by
  subst hname
  rw [insertNick, World.act]
  split_ifs with halive hname
  · exact ⟨.inr ⟨rfl, rfl⟩, fun h ↦ by cases h⟩
  · refine ⟨.inl ⟨halive, fun e he heq ↦ hname ?_, ?_⟩, fun _ ↦ halive⟩
    · obtain ⟨r, hr, rfl⟩ := List.mem_map.mp he
      exact List.any_eq_true.mpr ⟨r, hr, sameName_iff.mpr heq⟩
    · simp only [World.registry, Registry.insert, List.map_append, List.map_singleton, nickEntry,
        hlink]
  · exact ⟨.inr ⟨rfl, Bool.not_eq_true _ ▸ halive⟩, id⟩

/-- In a live process a free name is inserted. -/
theorem registry_insertNick {row : NickRow} (columns : NickColumns) {w : World}
    (hlink : row.linkId = 0) (halive : w.alive = true)
    (hfree : w.registry.Free (foldName row.nick)) :
    (insertNick row columns w).registry = w.registry.insert (foldName row.nick) := by
  rcases (insertNick_does row columns w hlink rfl).registry with ⟨-, -, hinsert⟩ | ⟨-, hdead⟩
  · exact hinsert
  · rw [insertNick, World.act, if_pos halive] at hdead
    split_ifs at hdead with hname
    · obtain ⟨r, hr, hsame⟩ := List.any_eq_true.mp hname
      exact absurd (sameName_iff.mp hsame) (hfree (nickEntry r) (List.mem_map_of_mem hr))
    · exact absurd halive (by rw [show w.alive = false from hdead]; exact Bool.false_ne_true)

theorem insertNewNick_quiet (row : NickRow) (columns : NickColumns) (memomax : Option ℤ)
    (access : Option CString) (now : ℕ) (w : World) :
    Quiet (insertNick row columns w) (insertNewNick row columns memomax access now w) := by
  have hcache : Quiet (insertNick row columns w)
      (nickcacheSetLanguage now w.nextNickId columns.language
        (nickcacheChangeStatus (fun _ ↦ row.status) now w.nextNickId (insertNick row columns w))) :=
    ((Quiet.refl _).nickcacheChangeStatus _ now _).nickcacheSetLanguage now _ _
  unfold insertNewNick
  dsimp only
  generalize nickcacheSetLanguage now w.nextNickId columns.language
    (nickcacheChangeStatus (fun _ ↦ row.status) now w.nextNickId (insertNick row columns w)) = w₁
    at hcache ⊢
  cases memomax with
  | some max =>
    cases access with
    | some access => exact (hcache.insertMemoinfo _ _).insertNickaccess _ _ _
    | none => exact hcache.insertMemoinfo _ _
  | none =>
    cases access with
    | some access => exact hcache.insertNickaccess _ _ _
    | none => exact hcache

/-! ### REGISTER -/

/-- What `registerNick` does: the nick is inserted, and then the user gets its id. -/
theorem registerNick_does (conf : Config) (env : Env) (u : User) (email : CString) (w : World) :
    ∃ w₁, Does (fun r r' ↦ r.Free (foldName (strscpy u.nick NICKMAX)) ∧
        r' = r.insert (foldName (strscpy u.nick NICKMAX))) w w₁ ∧
      Does (fun r r' ↦ r' = r.modifyUser (UserIds.withIds w.nextNickId w.nextNickId) u.uid) w₁
        (registerNick conf env u email w) := by
  have hnotice := ((Quiet.refl w).noticeLang env.now u).modifyUser
    (f := fun u ↦ { u with lastnickreg := env.now }) u.uid fun _ ↦ rfl
  refine ⟨_, hnotice.does ?_, setIds_does _ _ u.uid _⟩
  refine Does.quiet ?_ (insertNewNick_quiet _ _ _ _ env.now _)
  refine insertNick_does _ _ _ ?_ ?_
  · rfl
  · rfl

/-- A REGISTER leaves the registry as it is, makes a code, or registers the nick. -/
theorem doRegister_cases (conf : Config) (env : Env) (u : User) (words : RegisterWords)
    (code : CString) (w : World) :
    Quiet w (doRegister conf env u words code w) ∨
    (authPending w .NICK_REG u.nick = false ∧
      ∃ params, Does (fun r r' ↦ r' = r.post .NICK_REG code u.nick params env.now) w
        (doRegister conf env u words code w)) ∨
    ∃ email, doRegister conf env u words code w = registerNick conf env u email w := by
  have hw := Quiet.refl w
  let p (w' : World) : Prop := Quiet w w' ∨
    (authPending w .NICK_REG u.nick = false ∧
      ∃ params, Does (fun r r' ↦ r' = r.post .NICK_REG code u.nick params env.now) w w') ∨
    ∃ email, w' = registerNick conf env u email w
  have hauth (authcode : Option CString) : p (doRegisterAuth conf env u authcode w) := by
    unfold doRegisterAuth
    cases authcode with
    | none => exact .inl (hw.syntaxError env u)
    | some authcode =>
      dsimp only
      split
      · exact .inr (.inr ⟨_, rfl⟩)
      · exact .inl (hw.noticeLang env.now u)
  change p (doRegister conf env u words code w)
  unfold doRegister
  refine ite_ind (fun _ ↦ .inl (hw.noticeLang env.now u)) fun _ ↦ ?_
  cases words.pass with
  | none => exact .inl (hw.syntaxError env u)
  | some pass =>
    refine ite_ind (fun _ ↦ hauth words.email) fun _ ↦ ite_ind (fun _ ↦ .inl (hw.syntaxError env u))
      fun _ ↦ ite_ind (fun _ ↦ .inl (hw.noticeLang env.now u)) fun _ ↦ ?_
    cases words.email with
    | none => exact .inl (hw.syntaxError env u)
    | some email =>
      refine ite_ind (fun _ ↦ .inl ((hw.noticeLang env.now u).syntaxError env u)) fun _ ↦
        ite_ind (fun _ ↦ .inl ((hw.freshenStatus env.now u.realId).noticeLang env.now u)) fun _ ↦
        ite_ind (fun _ ↦ .inl (hw.noticeLang env.now u)) fun _ ↦
        ite_ind (fun _ ↦ ite_ind (fun _ ↦ .inl (hw.noticeLang env.now u)) fun hnew ↦ ?_) fun _ ↦ ?_
      · exact .inr (.inl ⟨Bool.not_eq_true _ ▸ hnew, _,
          (insertAuth_does _ _ _ _ env.now w).quiet ((Quiet.refl _).noticeLang env.now u)⟩)
      · exact .inr (.inr ⟨email, rfl⟩)

/-! ### DROP and the expiry -/

/-- The code names a DROP of the user's nick. -/
def dropCoded (u : User) (authcode : CString) (w : World) : Bool :=
  w.auth.any fun r ↦ r.command = .NICK_DROP ∧ sameName r.code authcode ∧ sameName r.name u.nick

/-- What DROP AUTH does with a valid code: the user loses his ids, the nick with his `realId` is deleted,
and then the code. -/
theorem doDropAuth_does (env : Env) (u : User) {authcode : CString} {w : World}
    (h : dropCoded u authcode w = true) :
    ∃ w₁ w₂, Does (fun r r' ↦ r' = r.modifyUser (UserIds.withIds 0 0) u.uid) w w₁ ∧
      Does (fun r r' ↦ r' = r.remove u.realId) w₁ w₂ ∧
      Does (fun r r' ↦ r' = r.withdraw fun a ↦ a.command = .NICK_DROP ∧
          sameName a.code authcode ∧ sameName a.name u.nick) w₂
        (doDropAuth env u (some authcode) w) := by
  refine ⟨_, _, setIds_does 0 0 u.uid w, delnick_does u.realId _, ?_⟩
  unfold doDropAuth
  dsimp only
  rw [dropCoded] at h
  rw [if_pos h]
  exact withdraw_does _

/-- A nick without a row cannot be deleted. -/
theorem delnick_dead {nickId : ℕ} {w : World} (h : ∀ r ∈ w.db.nick, r.nickId ≠ nickId) :
    (delnick nickId w).alive = false := by
  rw [delnick, World.act]
  split_ifs with halive
  · have hnone : w.db.nick.find? (fun r ↦ r.nickId = nickId) = none :=
      List.find?_eq_none.mpr fun r hr ↦ by simpa using h r hr
    rw [getNickFromId, hnone]
    rfl
  · exact Bool.not_eq_true _ ▸ halive

/-- A code for a nick without a row makes the process die. -/
theorem doDropAuth_dead {env : Env} {u : User} {authcode : CString} {w : World}
    (h : dropCoded u authcode w = true) (hrow : ∀ r ∈ w.db.nick, r.nickId ≠ u.realId) :
    (doDropAuth env u (some authcode) w).alive = false := by
  unfold doDropAuth
  dsimp only
  rw [dropCoded] at h
  rw [if_pos h]
  have hdead := delnick_dead
    (w := modifyUser (fun u ↦ { u with realId := 0, nickId := 0 }) u.uid w)
    (by rw [db_modifyUser]; exact hrow)
  rw [World.act, if_neg (by rw [hdead]; exact Bool.false_ne_true)]
  exact hdead

theorem doDropAuth_quiet (env : Env) (u : User) {authcode : Option CString} {w : World}
    (h : ∀ code, authcode = some code → dropCoded u code w = false) :
    Quiet w (doDropAuth env u authcode w) := by
  unfold doDropAuth
  cases authcode with
  | none => exact (Quiet.refl w).syntaxError env u
  | some authcode =>
    have hcode := h authcode rfl
    rw [dropCoded] at hcode
    dsimp only
    rw [if_neg (by rw [hcode]; exact Bool.false_ne_true)]
    exact (Quiet.refl w).noticeLang env.now u

/-- What DROP of another nick does: the nick is deleted, and its user loses his ids. -/
theorem dropNick_does (env : Env) (u : User) (nick : CString) (nickId : ℕ) (w : World) :
    ∃ w₁, Does (fun r r' ↦ r' = r.remove nickId) w w₁ ∧
      (∀ u₂, finduser w₁ nick = some u₂ → Does
        (fun r r' ↦ r' = r.modifyUser (UserIds.withIds 0 0) u₂.uid) w₁ (dropNick env u nick nickId w)) ∧
      (finduser w₁ nick = none → Quiet w₁ (dropNick env u nick nickId w)) := by
  refine ⟨_, (delnick_does nickId w).quiet ((Quiet.refl _).noticeLang env.now u), ?_, ?_⟩
  · intro u₂ hu
    rw [dropNick, hu]
    exact setIds_does 0 0 u₂.uid _
  · intro hnone
    rw [dropNick, hnone]
    exact Quiet.refl _

/-- The checks of a DROP by a services admin all pass. -/
def DropAccepted (conf : Config) (env : Env) (u : User) (nick : CString) (w : World) : Prop :=
  let nickId := mysqlFindnick w.db nick
  isServicesAdmin conf env u w = true ∧ nickId ≠ 0 ∧
    (conf.nsSecureAdmins = true → namesKnown w nickId = true ∧
      (nickIsServicesAdmin conf w nickId = true → isServicesRoot conf env u w = true))

theorem dropAccepted_of_checks {conf : Config} {env : Env} {u : User} {nick : CString} {w w₁ : World}
    (h : CacheOnly w w₁) (hservadmin : ¬ ¬ isServicesAdmin conf env u w = true)
    (hid : mysqlFindnick w.db nick ≠ 0)
    (hknown : ¬ (conf.nsSecureAdmins = true ∧ ¬ namesKnown w₁ (mysqlFindnick w.db nick) = true))
    (hroot : ¬ (conf.nsSecureAdmins = true ∧
      nickIsServicesAdmin conf w₁ (mysqlFindnick w.db nick) = true ∧
      ¬ isServicesRoot conf env u w = true)) : DropAccepted conf env u nick w := by
  refine ⟨not_not.mp hservadmin, hid, fun hsecure ↦ ⟨?_, fun hstaff ↦ ?_⟩⟩
  · have hnames := not_and_not_right.mp hknown hsecure
    rwa [namesKnown, h.db] at hnames
  · by_contra hnot
    rw [nickIsServicesAdmin, h.db, ← nickIsServicesAdmin] at hroot
    exact hroot ⟨hsecure, hstaff, hnot⟩

/-- A DROP leaves the registry as it is, makes a code, is confirmed with one, or comes from a services
admin. -/
theorem doDrop_cases (conf : Config) (env : Env) (u : User) (nick authcode : Option CString)
    (code : CString) (w : World) :
    Quiet w (doDrop conf env u nick authcode code w) ∨
    (nick = none ∧ u.realId ≠ 0 ∧ authPending w .NICK_DROP u.nick = false ∧
      Does (fun r r' ↦ r' = r.post .NICK_DROP code u.nick [] env.now) w
        (doDrop conf env u nick authcode code w)) ∨
    (∃ nick', nick = some nick' ∧ sameName nick' "AUTH".toList = true ∧
      doDrop conf env u nick authcode code w = doDropAuth env u authcode w) ∨
    ∃ nick', nick = some nick' ∧ sameName nick' "AUTH".toList = false ∧
      DropAccepted conf env u nick' w ∧ ∃ w₁, Quiet w w₁ ∧
      doDrop conf env u nick authcode code w =
        dropNick env u nick' (mysqlFindnick w.db nick') w₁ := by
  have hw := Quiet.refl w
  have hadmin := hw.freshenAdmin env u
  cases nick with
  | none =>
    have hidentified := (CacheOnly.refl w).freshenIdentified env.now u
    let p (w' : World) : Prop := Quiet w w' ∨
      (none = (none : Option CString) ∧ u.realId ≠ 0 ∧ authPending w .NICK_DROP u.nick = false ∧
        Does (fun r r' ↦ r' = r.post .NICK_DROP code u.nick [] env.now) w w') ∨
      (∃ nick', none = some nick' ∧ sameName nick' "AUTH".toList = true ∧
        w' = doDropAuth env u authcode w) ∨
      ∃ nick', none = some nick' ∧ sameName nick' "AUTH".toList = false ∧
        DropAccepted conf env u nick' w ∧ ∃ w₁, Quiet w w₁ ∧
        w' = dropNick env u nick' (mysqlFindnick w.db nick') w₁
    change p _
    refine ite_ind (fun _ ↦ .inl (hw.noticeLang env.now u)) fun hreal ↦
      ite_ind (fun _ ↦ .inl (hidentified.noticeLang env.now u).quiet) fun _ ↦
      ite_ind (fun _ ↦ .inl (hidentified.noticeLang env.now u).quiet) fun hnew ↦ ?_
    rw [authPending, hidentified.auth, ← authPending] at hnew
    refine .inr (.inl ⟨rfl, hreal, Bool.not_eq_true _ ▸ hnew, ?_⟩)
    exact hidentified.quiet.does ((insertAuth_does _ _ _ _ env.now _).quiet
      ((Quiet.refl _).noticeLang env.now u))
  | some nick =>
    unfold doDrop
    dsimp only
    by_cases hauth : sameName nick "AUTH".toList = true
    · exact .inr (.inr (.inl ⟨nick, rfl, hauth, if_pos hauth⟩))
    · rw [if_neg hauth]
      let p (w' : World) : Prop := Quiet w w' ∨
        (some nick = none ∧ u.realId ≠ 0 ∧ authPending w .NICK_DROP u.nick = false ∧
          Does (fun r r' ↦ r' = r.post .NICK_DROP code u.nick [] env.now) w w') ∨
        (∃ nick', some nick = some nick' ∧ sameName nick' "AUTH".toList = true ∧
          w' = doDropAuth env u authcode w) ∨
        ∃ nick', some nick = some nick' ∧ sameName nick' "AUTH".toList = false ∧
          DropAccepted conf env u nick' w ∧ ∃ w₁, Quiet w w₁ ∧
          w' = dropNick env u nick' (mysqlFindnick w.db nick') w₁
      change p _
      refine ite_ind (fun _ ↦ .inl (hadmin.syntaxError env u)) fun hservadmin ↦
        ite_ind (fun _ ↦ .inl (hadmin.noticeLang env.now u)) fun hid ↦
        ite_ind (fun _ ↦ .inl (hadmin.act fun _ ↦ (Quiet.refl _).die)) fun hknown ↦
        ite_ind (fun _ ↦ .inl (hadmin.noticeLang env.now u)) fun hroot ↦ ?_
      exact .inr (.inr (.inr ⟨nick, rfl, Bool.not_eq_true _ ▸ hauth,
        dropAccepted_of_checks ((CacheOnly.refl w).freshenAdmin env u) hservadmin hid hknown hroot, _,
        hadmin, rfl⟩))

/-- The nicks that the expiry is about to delete. -/
def Expires (conf : Config) (grace old : ℕ → Bool) (w : World) (id : ℕ) : Prop :=
  conf.nsExpire ≠ 0 ∧ ∃ r ∈ w.db.nick, r.nickId = id ∧ mayExpire r = true ∧
    ((conf.nsExtraGrace = true ∧ grace id = true) ∨ old id = true)

/-- Each row is one that was there, up to its link. -/
def RowsFrom (w w' : World) : Prop :=
  ∀ r' ∈ w'.db.nick, ∃ r ∈ w.db.nick, r.nickId = r'.nickId ∧ mayExpire r = mayExpire r'

theorem RowsFrom.delnick {w w' : World} (h : RowsFrom w w') (nickId : ℕ) :
    RowsFrom w (delnick nickId w') := by
  refine World.act_cases (p := RowsFrom w) h fun _ r' hr' ↦ ?_
  rw [nick_mysqlDelnick] at hr'
  obtain ⟨s, hs, rfl⟩ := List.mem_map.mp (List.mem_of_mem_filter hr')
  obtain ⟨r, hr, hid, hexpire⟩ := h s hs
  refine ⟨r, hr, ?_, ?_⟩
  · rw [hid]
    split_ifs <;> rfl
  · rw [hexpire]
    split_ifs <;> rfl

/-- One of the two loops of the expiry. -/
theorem expireLoop_induct {p : World → Prop} {w w' : World} (old : ℕ → Bool)
    (hdel : ∀ nickId w', (∃ r ∈ w.db.nick, r.nickId = nickId ∧ mayExpire r = true ∧
      old nickId = true) → p w' → p (delnick nickId w'))
    (hrows : RowsFrom w w') (h : p w') :
    p (expireLoop old w') ∧ RowsFrom w (expireLoop old w') := by
  rw [expireLoop]
  refine List.foldlRecOn _ _ (motive := fun w' ↦ p w' ∧ RowsFrom w w') ⟨h, hrows⟩ ?_
  intro w'' hw nickId hmem
  obtain ⟨r', hr', rfl⟩ := List.mem_map.mp hmem
  obtain ⟨hr', hover⟩ := List.mem_filter.mp hr'
  obtain ⟨hover, hexpire⟩ := of_decide_eq_true hover
  obtain ⟨r, hr, hid, heq⟩ := hrows r' hr'
  exact ⟨hdel r'.nickId w'' ⟨r, hr, hid, heq.trans hexpire, hover⟩ hw.1, hw.2.delnick _⟩

/-- The expiry deletes nicks one by one. -/
theorem expireNicks_induct {p : World → Prop} {conf : Config} {grace old : ℕ → Bool} {w : World}
    (hdel : ∀ nickId w', Expires conf grace old w nickId → p w' → p (delnick nickId w'))
    (h : p w) : p (expireNicks conf grace old w) := by
  have hself : RowsFrom w w := fun r hr ↦ ⟨r, hr, rfl, rfl⟩
  refine ite_ind (fun _ ↦ h) fun hexpire ↦ ?_
  have hgrace : p (if conf.nsExtraGrace then expireLoop grace w else w) ∧
      RowsFrom w (if conf.nsExtraGrace then expireLoop grace w else w) := by
    split_ifs with hextra
    · refine expireLoop_induct grace (fun nickId w' hrow ↦ ?_) hself h
      obtain ⟨r, hr, hid, hmay, hover⟩ := hrow
      exact hdel nickId w' ⟨hexpire, r, hr, hid, hmay, .inl ⟨hextra, hover⟩⟩
    · exact ⟨h, hself⟩
  refine (expireLoop_induct old (fun nickId w' hrow ↦ ?_) hgrace.2 hgrace.1).1
  obtain ⟨r, hr, hid, hmay, hover⟩ := hrow
  exact hdel nickId w' ⟨hexpire, r, hr, hid, hmay, .inr hover⟩

/-! ### SENDPASS -/

/-- A SENDPASS leaves the registry as it is, is confirmed with a code, which is deleted, or makes one. -/
theorem doSendpass_cases (conf : Config) (env : Env) (u : User) (nick authcode : Option CString)
    (code : CString) (w : World) :
    Quiet w (doSendpass conf env u nick authcode code w) ∨
    (∃ nick' authcode' row, nick = some nick' ∧ sameName nick' "AUTH".toList = true ∧
      authcode = some authcode' ∧
      w.auth.find? (fun r ↦ r.command = .NICK_SENDPASS ∧ sameName r.code authcode') = some row ∧
      (mysqlFindnickinfo w.db row.name).isSome = true ∧
      Does (fun r r' ↦ r' = r.withdraw fun a ↦ a.command = .NICK_SENDPASS ∧
        sameName a.code authcode') w (doSendpass conf env u nick authcode code w)) ∨
    ∃ name, (nick.any fun nick ↦ sameName nick "AUTH".toList) = false ∧
      sameName name (nick.getD u.nick) = true ∧
      ((finduser w u.nick).any User.oper = true ∨ authPending w .NICK_SENDPASS name = false) ∧
      Does (fun r r' ↦ r' = r.post .NICK_SENDPASS code name [] env.now) w
        (doSendpass conf env u nick authcode code w) := by
  have hw := CacheOnly.refl w
  let p (w' : World) : Prop := Quiet w w' ∨
    (∃ nick' authcode' row, nick = some nick' ∧ sameName nick' "AUTH".toList = true ∧
      authcode = some authcode' ∧
      w.auth.find? (fun r ↦ r.command = .NICK_SENDPASS ∧ sameName r.code authcode') = some row ∧
      (mysqlFindnickinfo w.db row.name).isSome = true ∧
      Does (fun r r' ↦ r' = r.withdraw fun a ↦ a.command = .NICK_SENDPASS ∧
        sameName a.code authcode') w w') ∨
    ∃ name, (nick.any fun nick ↦ sameName nick "AUTH".toList) = false ∧
      sameName name (nick.getD u.nick) = true ∧
      ((finduser w u.nick).any User.oper = true ∨ authPending w .NICK_SENDPASS name = false) ∧
      Does (fun r r' ↦ r' = r.post .NICK_SENDPASS code name [] env.now) w w'
  change p _
  refine ite_ind (fun hauth ↦ ?_) fun hauth ↦ ?_
  · obtain ⟨nick', rfl, hauth⟩ := (Option.any_eq_true ..).mp hauth
    unfold doSendpassAuth
    cases authcode with
    | none => exact .inl (hw.syntaxError env u).quiet
    | some authcode =>
      dsimp only
      cases hrow : w.auth.find? fun r ↦ r.command = .NICK_SENDPASS ∧ sameName r.code authcode with
      | none => exact .inl (hw.noticeLang env.now u).quiet
      | some row =>
        dsimp only
        cases hni : mysqlFindnickinfo w.db row.name with
        | none => exact .inl (hw.noticeLang env.now u).quiet
        | some ni =>
          refine .inr (.inl ⟨nick', authcode, row, rfl, hauth, rfl, hrow, by rw [hni]; rfl, ?_⟩)
          exact (withdraw_does w).quiet ((((Quiet.refl _).freshenLanguage _ _).updateColumns _ _
            ).noticeLang _ _)
  · dsimp only
    cases hni : mysqlFindnickinfo w.db (nick.getD u.nick) with
    | none => exact .inl (hw.noticeLang env.now u).quiet
    | some ni =>
      refine ite_ind (fun _ ↦ .inl (hw.noticeLang env.now u).quiet) fun _ ↦ ?_
      have hadmin : CacheOnly w (if ni.flags &&& NI_MARKED ≠ 0#32 then freshenAdmin env u w else w) :=
        .ite (hw.freshenAdmin env u) hw
      generalize (if ni.flags &&& NI_MARKED ≠ 0#32 then freshenAdmin env u w else w) = w₁ at hadmin ⊢
      refine ite_ind (fun _ ↦ .inl (hadmin.noticeLang env.now u).quiet) fun _ ↦
        ite_ind (fun _ ↦ .inl (hadmin.noticeLang env.now u).quiet) fun _ ↦
        ite_ind (fun _ ↦ .inl (hadmin.noticeLang env.now u).quiet) fun hnew ↦ ?_
      refine .inr (.inr ⟨ni.nick, Bool.not_eq_true _ ▸ hauth, ?_, ?_, hadmin.quiet.does ?_⟩)
      · simpa using List.find?_some hni
      · rw [finduser, hadmin.users, ← finduser, authPending, hadmin.auth, ← authPending] at hnew
        by_contra hnot
        push Not at hnot
        exact hnew ⟨hnot.1, Bool.ne_false_iff.mp hnot.2⟩
      · exact (Quiet.does ((Quiet.refl w₁).freshenLanguage env.now ni.nickId)
          (insertAuth_does _ _ _ _ env.now _)).quiet ((Quiet.refl _).noticeLang env.now u)

/-! ### LINK and UNLINK -/

/-- All the checks of LINK pass, and the process is alive after them. -/
def LinkAccepted (conf : Config) (env : Env) (u : User) (nick pass : Option CString) (w : World) :
    Prop :=
  let targetId := mysqlFindnick w.db (nick.getD [])
  let w₁ := freshenIdentified env.now u w
  let w₂ := freshenStatus env.now targetId w₁
  conf.nsDisableLinkCommand = false ∧ nick.isSome = true ∧ pass.isSome = true ∧
    nickIdentified env.now u w = true ∧ targetId ≠ 0 ∧ targetId ≠ u.realId ∧
    getNickStatus env.now targetId w₁ &&& NS_VERBOTEN = 0#32 ∧ nickHasLinks w₂ u.nickId = 0 ∧
    mysqlGetlink w₂.db targetId = targetId ∧ checkNickPassword env w₂ targetId = true ∧
    checkChanLimit w₂.db targetId < 0 ∧ w₂.alive = true

instance (conf : Config) (env : Env) (u : User) (nick pass : Option CString) (w : World) :
    Decidable (LinkAccepted conf env u nick pass w) :=
  inferInstanceAs (Decidable (_ ∧ _))

theorem linkNick_dead {nickId targetId : ℕ} {w : World} (h : w.alive = false) :
    linkNick nickId targetId w = w := by
  simp [linkNick, updateNick, World.act, h]

theorem registry_linkNick (nickId targetId : ℕ) {w : World} (h : w.alive = true) :
    (linkNick nickId targetId w).registry = w.registry.relink nickId targetId := by
  have hupdate : (updateNick (fun r ↦ { r with linkId := targetId }) nickId w).registry =
      w.registry.relink nickId targetId := by
    rw [updateNick, World.act, if_pos h, registry_updateLink]
  unfold linkNick
  dsimp only
  rw [← hupdate]
  refine Quiet.registry ?_
  generalize updateNick (fun r ↦ { r with linkId := targetId }) nickId w = w₁
  have haccess := (Quiet.refl w₁).act (f := fun w ↦
    { w with db := { w.db with nickaccess := w.db.nickaccess.filter (·.nickId ≠ nickId) } })
    fun _ ↦ ⟨rfl, id⟩
  refine Quiet.act haccess fun _ ↦ ?_
  split
  · exact ⟨rfl, id⟩
  · exact (Quiet.refl _).die

/-- A LINK that is not accepted leaves the nicks as they are. -/
theorem doLink_calm {conf : Config} {env : Env} {u : User} {nick pass : Option CString} {w : World}
    (h : ¬ LinkAccepted conf env u nick pass w) : Calm w (doLink conf env u nick pass w) := by
  have hw := Quiet.refl w
  refine ite_ind (fun _ ↦ (hw.noticeLang env.now u).calm) fun hdisabled ↦ ?_
  cases nick with
  | none => exact (hw.syntaxError env u).calm
  | some nick =>
    cases pass with
    | none => exact (hw.syntaxError env u).calm
    | some pass =>
      have hidentified := hw.freshenIdentified env.now u
      have hstatus := hidentified.freshenStatus env.now (mysqlFindnick w.db nick)
      refine ite_ind (fun _ ↦ (hw.noticeLang env.now u).calm) fun _ ↦
        ite_ind (fun _ ↦ (hidentified.noticeLang env.now u).calm) fun hident ↦
        ite_ind (fun _ ↦ (hidentified.noticeLang env.now u).calm) fun htarget ↦
        ite_ind (fun _ ↦ (hidentified.noticeLang env.now u).calm) fun hself ↦
        ite_ind (fun _ ↦ (hstatus.noticeLang env.now u).calm) fun hverboten ↦
        ite_ind (fun _ ↦ (hstatus.noticeLang env.now u).calm) fun hlinks ↦
        ite_ind (fun _ ↦ (hstatus.noticeLang env.now u).calm) fun hmaster ↦
        ite_ind (fun _ ↦ (hstatus.noticeLang env.now u).calm.badPassword conf env u) fun hpass ↦
        ite_ind (fun _ ↦ (hstatus.noticeLang env.now u).calm) fun hlimit ↦ ?_
      have hdead : (freshenStatus env.now (mysqlFindnick w.db nick)
          (freshenIdentified env.now u w)).alive = false := by
        refine Bool.eq_false_iff.mpr fun halive ↦ h ?_
        exact ⟨Bool.not_eq_true _ ▸ hdisabled, rfl, rfl, not_not.mp hident, htarget, hself,
          not_not.mp hverboten, not_not.mp hlinks, not_not.mp hmaster, not_not.mp hpass,
          not_le.mp hlimit, halive⟩
      rw [linkNick_dead hdead]
      refine ite_ind (fun _ ↦ ?_) fun _ ↦ (hstatus.noticeLang env.now u).calm
      exact ((hstatus.noticeLang env.now u).changeNickStatus _ env.now _).calm

/-- What an accepted LINK does: the link, and a target that nobody uses is identified. -/
theorem doLink_eq {conf : Config} {env : Env} {u : User} {nick pass : Option CString} {w : World}
    (h : LinkAccepted conf env u nick pass w) :
    ∃ w₂, Quiet w w₂ ∧ w₂.alive = true ∧ doLink conf env u nick pass w =
      (let targetId := mysqlFindnick w.db (nick.getD [])
      let target := (getNickFromId w₂.db targetId).getD []
      let w := noticeLang env.now u (linkNick u.realId targetId w₂)
      if (finduser w (escape target)).isNone then addNickStatus NS_IDENTIFIED env.now targetId w
      else w) := by
  obtain ⟨hdisabled, hnick, hpass, hident, htarget, hself, hverboten, hlinks, hmaster, hpassword,
    hlimit, halive⟩ := h
  obtain ⟨nick, rfl⟩ := Option.isSome_iff_exists.mp hnick
  obtain ⟨pass, rfl⟩ := Option.isSome_iff_exists.mp hpass
  have hreal : u.realId ≠ 0 := fun hzero ↦ by simp [nickIdentified, hzero] at hident
  refine ⟨_, ((Quiet.refl w).freshenIdentified env.now u).freshenStatus env.now
    (mysqlFindnick w.db nick), halive, ?_⟩
  simp only [Option.getD_some] at htarget hself hverboten hlinks hmaster hpassword hlimit ⊢
  unfold doLink
  rw [if_neg (by rw [hdisabled]; exact Bool.false_ne_true)]
  dsimp only
  rw [if_neg hreal, if_neg (not_not.mpr hident), if_neg htarget, if_neg hself,
    if_neg (not_not.mpr hverboten), if_neg (not_not.mpr hlinks), if_neg (not_not.mpr hmaster),
    if_neg (not_not.mpr hpassword), if_neg (not_le.mpr hlimit)]

/-- A LINK that is accepted links the nick to the target. -/
theorem doLink_accepted {conf : Config} {env : Env} {u : User} {nick pass : Option CString}
    {w : World} (h : LinkAccepted conf env u nick pass w) :
    (doLink conf env u nick pass w).registry =
      w.registry.relink u.realId (mysqlFindnick w.db (nick.getD [])) := by
  obtain ⟨w₂, hquiet, halive, heq⟩ := doLink_eq h
  have hlink := registry_linkNick u.realId (mysqlFindnick w.db (nick.getD [])) halive
  have hnotice := (Quiet.refl (linkNick u.realId (mysqlFindnick w.db (nick.getD [])) w₂)).noticeLang
    env.now u
  rw [heq, ← hquiet.registry, ← hlink]
  exact ite_ind (p := fun w' ↦ w'.registry =
    (linkNick u.realId (mysqlFindnick w.db (nick.getD [])) w₂).registry)
    (fun _ ↦ (hnotice.changeNickStatus _ env.now _).registry) fun _ ↦ hnotice.registry

theorem delink_does {now nickId : ℕ} {w : World}
    (h : ∀ r, getNickinfoFromId w.db nickId = some r → r.linkId ≠ 0) :
    Does (fun r r' ↦ r' = r.relink nickId 0) w (delink now nickId w) := by
  have hdie : Does (fun r r' ↦ r' = r.relink nickId 0) w (w.act World.die) := by
    rw [World.act]
    split_ifs with halive
    · exact ⟨.inr ⟨rfl, rfl⟩, fun _ ↦ halive⟩
    · exact ⟨.inr ⟨rfl, Bool.not_eq_true _ ▸ halive⟩, id⟩
  rw [delink]
  cases hrow : getNickinfoFromId w.db nickId with
  | none => exact hdie
  | some ni =>
    dsimp only
    rw [if_neg (h ni hrow)]
    cases getNickinfoFromId w.db ni.linkId with
    | none => exact hdie
    | some master =>
      dsimp only
      cases w.db.memoinfo.find? fun r ↦ sameName r.owner master.nick with
      | none => exact hdie
      | some info =>
        refine (updateLink_does nickId 0 w).quiet ?_
        refine Quiet.act (Quiet.nickcacheSetLanguage (Quiet.updateColumns
          ((Quiet.refl _).updateNick nickId ?_) _ nickId) now nickId _) ?_
        · exact fun _ ↦ rfl
        · exact fun _ ↦ ⟨rfl, id⟩

/-- A nick that is not linked is left alone. -/
theorem delink_does_or (now nickId : ℕ) (w : World) :
    Does (fun r r' ↦ r' = r.relink nickId 0 ∨ r' = r) w (delink now nickId w) := by
  by_cases h : ∀ r, getNickinfoFromId w.db nickId = some r → r.linkId ≠ 0
  · exact (delink_does h).mono fun r r' ↦ .inl
  · push Not at h
    obtain ⟨ni, hni, hlink⟩ := h
    have hsame : delink now nickId w = w := by
      rw [delink, hni]
      exact if_pos hlink
    rw [hsame]
    refine ⟨?_, id⟩
    by_cases halive : w.alive = true
    · exact .inl ⟨halive, .inr rfl⟩
    · exact .inr ⟨rfl, Bool.not_eq_true _ ▸ halive⟩

/-- UNLINK of a nick that was named is allowed. -/
def UnlinkAccepted (conf : Config) (env : Env) (u : User) (ni : NickRow) (pass : Option CString)
    (w : World) : Prop :=
  isServicesAdmin conf env u w = true ∨ pass.isSome = true ∧ checkNickPassword env w ni.nickId = true

/-- An UNLINK leaves the nicks as they are, takes the link of a nick that was named, or that of the
user's own nick, whose id he gets. -/
theorem doUnlink_cases (conf : Config) (env : Env) (u : User) (nick pass : Option CString)
    (w : World) :
    Calm w (doUnlink conf env u nick pass w) ∨
    (∃ nick' ni, nick = some nick' ∧ mysqlFindnickinfo w.db nick' = some ni ∧ ni.linkId ≠ 0 ∧
      UnlinkAccepted conf env u ni pass w ∧ ∃ w₁, Quiet w w₁ ∧ Quiet (delink env.now ni.nickId w₁) (doUnlink conf env u nick pass w)) ∨
    ∃ ni, nick = none ∧ getNickinfoFromId w.db u.realId = some ni ∧ ni.linkId ≠ 0 ∧
      ∃ w₁ w₂, Quiet w w₁ ∧
        Does (fun r r' ↦ r' = r.modifyUser (fun v ↦ { v with nickId := u.realId }) u.uid) w₁ w₂ ∧
        Does (fun r r' ↦ r' = r.relink u.realId 0) w₂ (doUnlink conf env u nick pass w) := by
  have hw := CacheOnly.refl w
  cases nick with
  | some nick =>
    have hadmin := hw.freshenAdmin env u
    let p (w' : World) : Prop := Calm w w' ∨
      (∃ nick' ni, some nick = some nick' ∧ mysqlFindnickinfo w.db nick' = some ni ∧
        ni.linkId ≠ 0 ∧ UnlinkAccepted conf env u ni pass w ∧
        ∃ w₁, Quiet w w₁ ∧ Quiet (delink env.now ni.nickId w₁) w') ∨
      ∃ ni, some nick = none ∧ getNickinfoFromId w.db u.realId = some ni ∧ ni.linkId ≠ 0 ∧
        ∃ w₁ w₂, Quiet w w₁ ∧
          Does (fun r r' ↦ r' = r.modifyUser (fun v ↦ { v with nickId := u.realId }) u.uid) w₁ w₂ ∧
          Does (fun r r' ↦ r' = r.relink u.realId 0) w₂ w'
    change p _
    unfold doUnlink
    dsimp only
    rw [hadmin.db]
    cases hni : mysqlFindnickinfo w.db nick with
    | none => exact .inl (hadmin.noticeLang env.now u).quiet.calm
    | some ni =>
      refine ite_ind (fun _ ↦ .inl (hadmin.noticeLang env.now u).quiet.calm) fun hlink ↦
        ite_ind (fun _ ↦ .inl (hadmin.syntaxError env u).quiet.calm) fun hsyntax ↦
        ite_ind (fun _ ↦ .inl ((hadmin.noticeLang env.now u).quiet.calm.badPassword conf env u))
          fun hpass ↦ ?_
      refine .inr (.inl ⟨nick, ni, rfl, hni, hlink, ?_, _, hadmin.quiet,
        (Quiet.refl _).noticeLang env.now u⟩)
      by_cases hservadmin : isServicesAdmin conf env u w = true
      · exact .inl hservadmin
      · rw [checkNickPassword, hadmin.db, ← checkNickPassword] at hpass
        refine .inr ⟨?_, not_and_not_right.mp hpass hservadmin⟩
        exact Option.isSome_iff_ne_none.mpr fun hnone ↦
          hsyntax ⟨hservadmin, Option.isNone_iff_eq_none.mpr hnone⟩
  | none =>
    unfold doUnlink
    dsimp only
    cases hni : getNickinfoFromId w.db u.realId with
    | none => exact .inl (hw.noticeLang env.now u).quiet.calm
    | some ni =>
      have hidentified := hw.freshenIdentified env.now u
      dsimp only
      by_cases hident : nickIdentified env.now u w = true
      · by_cases hlink : ni.linkId = 0
        · rw [if_neg (not_not.mpr hident), if_pos hlink]
          exact .inl (hidentified.noticeLang env.now u).quiet.calm
        · rw [if_neg (not_not.mpr hident), if_neg hlink]
          have hid : ni.nickId = u.realId := by simpa using List.find?_some hni
          rw [hid]
          refine .inr (.inr ⟨ni, rfl, rfl, hlink, _, _, hidentified.quiet, modifyUser_does
            (fun _ ↦ rfl) u.uid _, (delink_does fun r hr ↦ ?_).quiet
            ((Quiet.refl _).noticeLang env.now _)⟩)
          rw [db_modifyUser, hidentified.db, hni, Option.some_inj] at hr
          rwa [← hr]
      · rw [if_pos hident]
        exact .inl (hidentified.noticeLang env.now u).quiet.calm

/-! ### FORBID -/

/-- The checks of FORBID all pass. -/
def ForbidAccepted (conf : Config) (env : Env) (u : User) (nick : CString) (w : World) : Prop :=
  isServicesAdmin conf env u w = true ∧
    (mysqlFindnick w.db nick ≠ 0 → conf.nsSecureAdmins = true →
      isServicesRoot conf env u w = false →
      namesKnown w u.nickId = true ∧ nickIsServicesAdmin conf w u.nickId = false)

theorem forbidAccepted_of_checks {conf : Config} {env : Env} {u : User} {nick : CString}
    {w w₁ : World} (h : CacheOnly w w₁) (hservadmin : ¬ ¬ isServicesAdmin conf env u w = true)
    (hknown : ¬ (mysqlFindnick w.db nick ≠ 0 ∧ conf.nsSecureAdmins = true ∧
      ¬ isServicesRoot conf env u w = true ∧ ¬ namesKnown w₁ u.nickId = true))
    (hstaff : ¬ (mysqlFindnick w.db nick ≠ 0 ∧ conf.nsSecureAdmins = true ∧
      ¬ isServicesRoot conf env u w = true ∧ nickIsServicesAdmin conf w₁ u.nickId = true)) :
    ForbidAccepted conf env u nick w := by
  refine ⟨not_not.mp hservadmin, fun hid hsecure hroot ↦ ?_⟩
  have hnot : ¬ isServicesRoot conf env u w = true := by
    rw [hroot]
    exact Bool.false_ne_true
  rw [namesKnown, h.db, ← namesKnown] at hknown
  rw [nickIsServicesAdmin, h.db, ← nickIsServicesAdmin] at hstaff
  exact ⟨not_not.mp fun hnames ↦ hknown ⟨hid, hsecure, hnot, hnames⟩,
    Bool.not_eq_true _ ▸ fun hadmin ↦ hstaff ⟨hid, hsecure, hnot, hadmin⟩⟩

/-- A FORBID leaves the registry as it is, or it deletes the nick if there is one and inserts it. -/
theorem doForbid_cases (conf : Config) (env : Env) (u : User) (nick : Option CString) (w : World) :
    Quiet w (doForbid conf env u nick w) ∨
    ∃ nick' w₁ w₂, nick = some nick' ∧ ForbidAccepted conf env u nick' w ∧ Quiet w w₁ ∧
      w₂ = (if mysqlFindnick w.db nick' ≠ 0 then delnick (mysqlFindnick w.db nick') w₁ else w₁) ∧
      ∃ row columns, row.linkId = 0 ∧ row.nick = nick'.take NICKMAX ∧
        Quiet (insertNick row columns w₂) (doForbid conf env u nick w) := by
  have hw := CacheOnly.refl w
  have hadmin := hw.freshenAdmin env u
  let p (w' : World) : Prop := Quiet w w' ∨
    ∃ nick' w₁ w₂, nick = some nick' ∧ ForbidAccepted conf env u nick' w ∧ Quiet w w₁ ∧
      w₂ = (if mysqlFindnick w.db nick' ≠ 0 then delnick (mysqlFindnick w.db nick') w₁ else w₁) ∧
      ∃ row columns, row.linkId = 0 ∧ row.nick = nick'.take NICKMAX ∧
        Quiet (insertNick row columns w₂) w'
  change p _
  unfold doForbid
  refine ite_ind (fun _ ↦ .inl (hadmin.noticeLang env.now u).quiet) fun hservadmin ↦ ?_
  cases nick with
  | none => exact .inl (hadmin.syntaxError env u).quiet
  | some nick =>
    dsimp only
    rw [hadmin.db]
    refine ite_ind (fun _ ↦ .inl (hadmin.act fun _ ↦ (CacheOnly.refl _).die).quiet) fun hknown ↦
      ite_ind (fun _ ↦ .inl (hadmin.noticeLang env.now u).quiet) fun hstaff ↦ ?_
    have haccepted := forbidAccepted_of_checks hadmin hservadmin hknown hstaff
    refine .inr ⟨nick, _, _, rfl, haccepted, hadmin.quiet, rfl, _, _, ?_, ?_,
      (insertNewNick_quiet _ _ none none env.now _).noticeLang env.now u⟩
    · rfl
    · rfl

/-- No command brings a dead process to life. -/
theorem alive_doCommand {conf : Config} {env : Env} {u : User} {w : World} {cmd : Command}
    (h : (doCommand conf env u w cmd).alive = true) : w.alive = true := by
  have hw := Calm.refl w
  cases cmd with
  | register words code =>
    rcases doRegister_cases conf env u words code w with hquiet | ⟨-, _, hpost⟩ | ⟨email, heq⟩
    · exact hquiet.alive h
    · exact hpost.alive h
    · obtain ⟨w₁, hinsert, hids⟩ := registerNick_does conf env u email w
      rw [doCommand, heq] at h
      exact hinsert.alive (hids.alive h)
  | identify pass => exact (hw.doIdentify conf env u pass).alive h
  | drop nick authcode code =>
    rw [doCommand] at h
    rcases doDrop_cases conf env u nick authcode code w with
      hquiet | ⟨-, -, -, hpost⟩ | ⟨-, -, -, heq⟩ | ⟨nick', -, -, -, w₁, hquiet, heq⟩
    · exact hquiet.alive h
    · exact hpost.alive h
    · rw [heq] at h
      by_cases hcode : ∀ code, authcode = some code → dropCoded u code w = false
      · exact (doDropAuth_quiet env u hcode).alive h
      · push Not at hcode
        obtain ⟨code, rfl, hcoded⟩ := hcode
        obtain ⟨w₁, w₂, hids, hremove, hcodes⟩ :=
          doDropAuth_does env u (Bool.ne_false_iff.mp hcoded)
        exact hids.alive (hremove.alive (hcodes.alive h))
    · rw [heq] at h
      obtain ⟨w₂, hremove, hfound, hnone⟩ := dropNick_does env u nick' (mysqlFindnick w.db nick') w₁
      cases huser : finduser w₂ nick' with
      | some u₂ => exact hquiet.alive (hremove.alive ((hfound u₂ huser).alive h))
      | none => exact hquiet.alive (hremove.alive ((hnone huser).alive h))
  | sendpass nick authcode code =>
    rcases doSendpass_cases conf env u nick authcode code w with
      hquiet | ⟨_, _, _, -, -, -, -, -, hcodes⟩ | ⟨_, -, -, -, hpost⟩
    · exact hquiet.alive h
    · exact hcodes.alive h
    · exact hpost.alive h
  | link nick pass =>
    by_cases hlink : LinkAccepted conf env u nick pass w
    · obtain ⟨w₂, hquiet, halive, -⟩ := doLink_eq hlink
      exact hquiet.alive halive
    · exact (doLink_calm hlink).alive h
  | unlink nick pass =>
    rcases doUnlink_cases conf env u nick pass w with hcalm |
      ⟨nick', ni, -, -, -, -, w₁, hquiet, hdelink⟩ | ⟨ni, -, -, -, w₁, w₂, hquiet, hids, hunlink⟩
    · exact hcalm.alive h
    · exact hquiet.alive ((delink_does_or env.now ni.nickId w₁).alive (hdelink.alive h))
    · exact hquiet.alive (hids.alive (hunlink.alive h))
  | forbid nick =>
    rcases doForbid_cases conf env u nick w with
      hquiet | ⟨nick', w₁, w₂, -, -, hquiet, rfl, row, columns, hlink, -, hinsert⟩
    · exact hquiet.alive h
    · have hmid := (insertNick_does row columns _ hlink rfl).alive (hinsert.alive h)
      split_ifs at hmid
      · exact hquiet.alive ((delnick_does _ w₁).alive hmid)
      · exact hquiet.alive hmid
  | suspend nick reason => exact (hw.doSuspend conf env u nick reason).alive h
  | unsuspend nick => exact (hw.doUnsuspend conf env u nick).alive h
  | set nick opt => exact (hw.doSet conf env u nick opt).alive h
  | recover nick pass => exact (hw.doRecover conf env u nick pass).alive h
  | release nick pass => exact (hw.doRelease conf env u nick pass).alive h
  | ghost nick pass => exact (hw.doGhost conf env u nick pass).alive h

/-! ### User messages -/

/-- A connect puts the user in the list. -/
theorem doNickNew_does (conf : Config) (env : Env) (nick username host : CString) (w : World) :
    Does (fun r r' ↦ r' = r.addUser (newUser env.now nick username host w).ids) w
      (doNickNew conf env nick username host w) :=
  (addUser_does _ w).quiet (((Quiet.refl _).lookups env.now env.reads).settleUser conf env _ true)

/-- A nick change gives the user the ids of his new nick. -/
theorem doNickChange_does {conf : Config} {env : Env} {source nick : CString} {w : World} {u : User}
    (h : finduser w source = some u) :
    Does (fun r r' ↦ r' = r.modifyUser (fun v ↦
      { v with
        name := foldName (strscpy nick NICKMAX)
        realId := (nickIds w.db nick).1
        nickId := (nickIds w.db nick).2 }) u.uid) w (doNickChange conf env source nick w) := by
  have hcancel : Quiet w (cancelUser conf env u (if !sameName nick source then
      modifyUser (fun u ↦ { u with mySignon := env.now }) u.uid w else w)) := by
    refine Quiet.cancelUser (.ite ((Quiet.refl w).modifyUser u.uid ?_) (.refl w)) conf env u
    exact fun _ ↦ rfl
  rw [doNickChange, h]
  dsimp only
  generalize cancelUser conf env u (if !sameName nick source then
    modifyUser (fun u ↦ { u with mySignon := env.now }) u.uid w else w) = w₁ at hcancel ⊢
  have hids : nickIds w₁.db nick = nickIds w.db nick :=
    nickIds_congr (congrArg Registry.nicks hcancel.registry) nick
  refine Does.quiet ?_ ((Quiet.refl _).settleUser conf env _ _)
  rw [changeUserNick, hids]
  refine Quiet.does ?_ (modifyUser_does (fun _ ↦ rfl) u.uid _)
  exact .ite ((hcancel.freshenStatus _ _).changeNickStatus _ _ _) hcancel

theorem alive_expireNicks {conf : Config} {grace old : ℕ → Bool} {w : World}
    (h : (expireNicks conf grace old w).alive = true) : w.alive = true :=
  expireNicks_induct (p := fun w' ↦ w'.alive = true → w.alive = true)
    (fun nickId w' _ hw' halive ↦ hw' ((delnick_does nickId w').alive halive)) id h

/-! ### Other messages -/

theorem doOther_quiet (env : Env) (db : Database) (w : World) : Quiet w (doOther env db w) := by
  refine Quiet.act ((Quiet.refl w).lookups env.now env.reads) fun _ ↦ ?_
  generalize lookups env.now env.reads w = w₁
  split_ifs with hfixed
  · have hentry : nickEntry = (fun c : ℕ × CString × BitVec 32 × ℕ ↦
        (⟨c.1, foldName c.2.1, c.2.2.2⟩ : Entry CString)) ∘ fixedColumns := rfl
    have hnicks : db.nick.map nickEntry = w₁.db.nick.map nickEntry := by
      rw [hentry, ← List.map_map, ← List.map_map, hfixed]
    refine ⟨?_, id⟩
    simp only [World.registry, hnicks]
  · exact .refl w₁

/-- A start of the process knows no users. -/
theorem registry_nsInit (w : World) : (nsInit w).registry = { w.registry with users := [] } := by
  have hnicks : (w.db.nick.map fun r ↦ if r.status ≠ NS_VERBOTEN then { r with status := 0#32 }
      else r).map nickEntry = w.db.nick.map nickEntry := by
    rw [List.map_map]
    refine List.map_congr_left fun r _ ↦ ?_
    rw [Function.comp_apply]
    split_ifs <;> rfl
  simp only [World.registry, nsInit, hnicks, List.map_nil]

end BlitzedServices.NickServ
