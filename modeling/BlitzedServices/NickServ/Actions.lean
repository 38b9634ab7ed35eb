import BlitzedServices.NickServ.StatusHandlers

/-!
# What the handlers are made of

The handler of a message is a sequence of actions on the tables, the nick cache and the timeouts. An
`Action` says what may happen next, and under which condition on the message: which nick a command may
delete, whom it may identify. `acts_step` says that each message is handled by such actions, so that what
all of them keep is kept by every run.
-/

set_option autoImplicit false
set_option relaxedAutoImplicit false

namespace BlitzedServices.NickServ

open Lib Lib.SqlText Mysql ChanServ

/-! ### What a message may do -/

/-- The nick has a row. -/
def HasRow (w : World) (nickId : ℕ) : Prop :=
  ∃ r ∈ w.db.nick, r.nickId = nickId

/-- The nick that a command deletes. -/
def CommandDeletes (conf : Config) (env : Env) (u : User) (w : World) : Command → ℕ → Prop
  | .drop (some nick) authcode _, id =>
    if sameName nick "AUTH".toList then
      id = u.realId ∧ ∃ code, authcode = some code ∧ dropCoded u code w = true
    else id = mysqlFindnick w.db nick ∧ DropAccepted conf env u nick w
  | .forbid (some nick), id =>
    id = mysqlFindnick w.db nick ∧ id ≠ 0 ∧ ForbidAccepted conf env u nick w
  | _, _ => False

/-- The nicks that a message deletes. -/
def Deletes (conf : Config) (w : World) : Env × Message → ℕ → Prop
  | (env, .command source cmd), id => ∃ u, finduser w source = some u ∧ CommandDeletes conf env u w cmd id
  | (_, .expireNicks grace old), id => Expires conf grace old w id
  | _, _ => False

/-- The row that a command inserts. -/
def CommandInserts (conf : Config) (env : Env) (u : User) (w : World) : Command → NickRow → Prop
  | .register _ _, row => row.nick = strscpy u.nick NICKMAX ∧
      row.status = NS_IDENTIFIED ||| NS_RECOGNIZED ∧ row.linkId = 0 ∧ row.flags = conf.nsDefFlags
  | .forbid (some nick), row => row.nick = nick.take NICKMAX ∧ row.status = NS_VERBOTEN ∧
      row.linkId = 0 ∧ row.flags = 0#32 ∧ ForbidAccepted conf env u nick w
  | _, _ => False

/-- The row that a message inserts. -/
def Inserts (conf : Config) (w : World) : Env × Message → NickRow → Prop
  | (env, .command source cmd), row => ∃ u, finduser w source = some u ∧ CommandInserts conf env u w cmd row
  | _, _ => False

/-- The nick that a command identifies. -/
def CommandIdentifies (conf : Config) (env : Env) (u : User) (w : World) : Command → ℕ → Prop
  | .identify _, id => id = u.realId ∧ id ≠ 0 ∧ getNickFlags w id &&& NI_SUSPENDED = 0#32 ∧
      checkNickPassword env w id = true
  | .link nick pass, id => id = mysqlFindnick w.db (nick.getD []) ∧ LinkAccepted conf env u nick pass w
  | _, _ => False

/-- The nick that a message identifies, other than one whose user is known by his stamp. -/
def Identifies (conf : Config) (w : World) : Env × Message → ℕ → Prop
  | (_, .mode source nick modes), id => ∃ u, finduser w source = some u ∧ sameName source nick = true ∧
      reportsR true modes = true ∧ id = u.realId ∧ id ≠ 0
  | (env, .command source cmd), id => ∃ u, finduser w source = some u ∧ CommandIdentifies conf env u w cmd id
  | _, _ => False

/-- The user changes the case of his nick, which gets the status of its master as it was. -/
def Copies (conf : Config) (w : World) : Env × Message → ℕ → BitVec 32 → Prop
  | (env, .nick source nick), id, status => ∃ u, finduser w source = some u ∧
      sameName nick source = true ∧ id = (nickIds w.db nick).1 ∧ id ≠ 0 ∧
      status = getNickStatus env.now u.nickId (cancelUser conf env u w) ∧
      (freshenStatus env.now u.nickId (cancelUser conf env u w)).alive = true
  | _, _, _ => False

/-- The link that a message makes. -/
def Links (conf : Config) (w : World) : Env × Message → ℕ → ℕ → Prop
  | (env, .command source (.link nick pass)), id, target => ∃ u, finduser w source = some u ∧
      id = u.realId ∧ target = mysqlFindnick w.db (nick.getD []) ∧ LinkAccepted conf env u nick pass w
  | _, _, _ => False

/-- The nick that a command unlinks. -/
def CommandUnlinks (conf : Config) (env : Env) (u : User) (w : World) : Command → ℕ → Prop
  | .unlink (some nick) pass, id => ∃ ni, mysqlFindnickinfo w.db nick = some ni ∧ id = ni.nickId ∧
      ni.linkId ≠ 0 ∧ UnlinkAccepted conf env u ni pass w
  | .unlink none _, id => ∃ ni, getNickinfoFromId w.db u.realId = some ni ∧ id = ni.nickId ∧
      ni.linkId ≠ 0 ∧ nickIdentified env.now u w = true
  | _, _ => False

/-- The nick that a message unlinks. -/
def Unlinks (conf : Config) (w : World) : Env × Message → ℕ → Prop
  | (env, .command source cmd), id => ∃ u, finduser w source = some u ∧ CommandUnlinks conf env u w cmd id
  | _, _ => False

/-- How the status of a nick is changed, in the row or in the cache, by the message in the state `w₀`. The
state has become `w` by then. -/
inductive Restatus (conf : Config) (w₀ : World) (msg : Env × Message) (w : World) (nickId : ℕ) :
    (BitVec 32 → BitVec 32) → Prop where
  | add (c : BitVec 32) (h : c &&& (NS_VERBOTEN ||| NS_IDENTIFIED) = 0#32) :
      Restatus conf w₀ msg w nickId (· ||| c)
  | remove (c : BitVec 32) (h : c &&& NS_VERBOTEN = 0#32) :
      Restatus conf w₀ msg w nickId (· &&& ~~~c)
  | recover (h : mayNotBeUsed w nickId = false) : Restatus conf w₀ msg w nickId (· ||| NS_IDENTIFIED)
  | identify (h : Identifies conf w₀ msg nickId) : Restatus conf w₀ msg w nickId (· ||| NS_IDENTIFIED)
  | copy (status : BitVec 32) (h : w.alive = true → Copies conf w₀ msg nickId status) :
      Restatus conf w₀ msg w nickId fun _ ↦ status

/-- Only the nick cache is changed, and each entry has the status of an old one or that of a row. -/
structure Looked (w w' : World) : Prop where
  cacheOnly : CacheOnly w w'
  entry : ∀ nc ∈ w'.nickcache, (∃ nc₀ ∈ w.nickcache, nc₀.nickId = nc.nickId ∧ nc₀.status = nc.status) ∨
    ∃ r ∈ w.db.nick, r.nickId = nc.nickId ∧ r.status = nc.status

/-- Nicks and their suspensions, the nick cache and the timeouts are left as they are. -/
structure Aside (w w' : World) : Prop where
  nick : w'.db.nick = w.db.nick
  nicksuspend : w'.db.nicksuspend = w.db.nicksuspend
  suspend : w'.db.suspend = w.db.suspend
  chansuspend : w'.db.chansuspend = w.db.chansuspend
  nextNickId : w'.nextNickId = w.nextNickId
  nickcache : w'.nickcache = w.nickcache
  timeouts : w'.timeouts = w.timeouts
  alive : w'.alive = true → w.alive = true

/-- An action of the handler of a message that came in the state `w₀`. -/
inductive Action (conf : Config) (w₀ : World) (msg : Env × Message) : World → World → Prop where
  | look {w w' : World} (h : Looked w w') : Action conf w₀ msg w w'
  | aside {w w' : World} (h : Aside w w') : Action conf w₀ msg w w'
  | row (f : BitVec 32 → BitVec 32) (nickId : ℕ) (w : World) (h : Restatus conf w₀ msg w nickId f) :
      Action conf w₀ msg w (updateStatus f nickId w)
  | entry (f : BitVec 32 → BitVec 32) (now nickId : ℕ) (w : World)
      (h : Restatus conf w₀ msg w nickId f) :
      Action conf w₀ msg w (nickcacheChangeStatus f now nickId w)
  | insert (row : NickRow) (columns : NickColumns) (w : World) (h : Inserts conf w₀ msg row) :
      Action conf w₀ msg w (insertNick row columns w)
  | delete (nickId : ℕ) (w : World) (h : Deletes conf w₀ msg nickId) :
      Action conf w₀ msg w (delnick nickId w)
  | link (nickId targetId : ℕ) (w : World) (h : Links conf w₀ msg nickId targetId) :
      Action conf w₀ msg w (linkNick nickId targetId w)
  | unlink (now nickId : ℕ) (w : World) (h : Unlinks conf w₀ msg nickId) :
      Action conf w₀ msg w (delink now nickId w)
  | suspend (nickId : ℕ) (reason who : CString) (w : World)
      (h : (getNickinfoFromId w.db nickId).any (fun r ↦ r.flags &&& NI_SUSPENDED ≠ 0#32) = false)
      (hid : ∃ r ∈ w.db.nick, nickId = r.masterId)
      (hmsg : ∃ source nick reason, msg.2 = .command source (.suspend nick reason)) :
      Action conf w₀ msg w (addNicksuspend nickId reason who
        (updateNick (fun r ↦ { r with flags := r.flags ||| NI_SUSPENDED }) nickId w))
  | unsuspend (nickId : ℕ) (w : World)
      (hmsg : ∃ source nick, msg.2 = .command source (.unsuspend nick)) :
      Action conf w₀ msg w (unsuspend nickId (w.act fun w ↦
        match w.db.nicksuspend.find? fun r ↦ r.nickId = nickId with
        | some r => { w with db := delNicksuspend w.db r.nicksuspendId }
        | none => w))
  | addTimeout (nickId : ℕ) (type : TimeoutType) (delay now : ℕ) (w : World) (h : HasRow w nickId)
      (hspares : ∀ id, ¬ Deletes conf w₀ msg id) :
      Action conf w₀ msg w (addNsTimeout nickId type delay now w)
  | delTimeout (nickId : ℕ) (type : TimeoutType) (w : World) :
      Action conf w₀ msg w (delNsTimeout nickId type w)
  | fireTimeout (t : NsTimeout) (w : World) : Action conf w₀ msg w (fireNsTimeout t w)

/-- The state is reached by actions of the handler. -/
def Acts (conf : Config) (w₀ : World) (msg : Env × Message) (w : World) : Prop :=
  Relation.ReflTransGen (Action conf w₀ msg) w₀ w

/-- What every action keeps. -/
theorem Acts.invariant {conf : Config} {w₀ w : World} {msg : Env × Message} {p : World → Prop}
    (h : Acts conf w₀ msg w) (hw₀ : p w₀) (hact : ∀ w w', Action conf w₀ msg w w' → p w → p w') :
    p w := by
  induction h with
  | refl => exact hw₀
  | tail _ haction ih => exact hact _ _ haction ih

/-! ### Looking -/

namespace Looked

variable {w₀ w : World}

theorem refl (w : World) : Looked w w := ⟨.refl w, fun nc hnc ↦ .inl ⟨nc, hnc, rfl, rfl⟩⟩

theorem trans {w₁ w₂ w₃ : World} (h₁ : Looked w₁ w₂) (h₂ : Looked w₂ w₃) : Looked w₁ w₃ := by
  refine ⟨h₁.cacheOnly.trans h₂.cacheOnly, fun nc hnc ↦ ?_⟩
  rcases h₂.entry nc hnc with ⟨nc₁, hnc₁, hid, hstatus⟩ | hrow
  · rw [← hid, ← hstatus]
    exact h₁.entry nc₁ hnc₁
  · rw [← h₁.cacheOnly.db]
    exact .inr hrow

theorem ite {c : Prop} [Decidable c] {w₁ w₂ : World} (h₁ : Looked w w₁) (h₂ : Looked w w₂) :
    Looked w (if c then w₁ else w₂) := by
  split_ifs
  · exact h₁
  · exact h₂

theorem selected {now nickId : ℕ} {nc : Nickcache} (h : selectCached now nickId w = some nc) :
    ∃ r ∈ w.db.nick, r.nickId = nc.nickId ∧ r.status = nc.status := by
  obtain ⟨rfl, r, hr, hid, hstatus, -⟩ := selectCached_eq_some h
  exact ⟨r, hr, hid, hstatus⟩

theorem freshen (h : Looked w₀ w) (stamp : Nickcache → ℕ) (now nickId : ℕ) :
    Looked w₀ (nickcacheFreshen stamp now nickId w) := by
  refine h.trans ⟨(CacheOnly.refl w).nickcacheFreshen stamp now nickId, ?_⟩
  exact entry_nickcacheFreshen stamp (fun nc hnc ↦ .inl ⟨nc, hnc, rfl, rfl⟩)
    fun nc hselect ↦ .inr (selected hselect)

theorem freshenStatus (h : Looked w₀ w) (now nickId : ℕ) : Looked w₀ (freshenStatus now nickId w) :=
  h.freshen _ now nickId

theorem update (h : Looked w₀ w) (now nickId : ℕ) : Looked w₀ (w.act (nickcacheUpdate now nickId)) := by
  refine World.act_cases h fun _ ↦ h.trans ⟨(CacheOnly.refl w).nickcacheUpdate now nickId, ?_⟩
  exact entry_nickcacheUpdate (fun nc hnc ↦ .inl ⟨nc, hnc, rfl, rfl⟩)
    fun nc hselect ↦ .inr (selected hselect)

theorem setLanguage (h : Looked w₀ w) (now nickId language : ℕ) :
    Looked w₀ (nickcacheSetLanguage now nickId language w) := by
  refine h.trans ⟨(CacheOnly.refl w).nickcacheWrite _ now nickId, ?_⟩
  exact entry_nickcacheWrite (p := fun nc ↦
      (∃ nc₀ ∈ w.nickcache, nc₀.nickId = nc.nickId ∧ nc₀.status = nc.status) ∨
        ∃ r ∈ w.db.nick, r.nickId = nc.nickId ∧ r.status = nc.status)
    (fun nc hnc ↦ .inl ⟨nc, hnc, rfl, rfl⟩) (fun nc hselect ↦ .inr (selected hselect))
    (fun _ hold _ ↦ hold) fun _ ↦ id

/-- The cache gets the status of the row. -/
theorem reset (h : Looked w₀ w) {status : BitVec 32} {nickId : ℕ} (now : ℕ)
    (hrow : ∃ r ∈ w.db.nick, r.nickId = nickId ∧ r.status = status) :
    Looked w₀ (nickcacheChangeStatus (fun _ ↦ status) now nickId w) := by
  refine h.trans ⟨(CacheOnly.refl w).nickcacheWrite _ now nickId, ?_⟩
  refine entry_nickcacheWrite (p := fun nc ↦
      (∃ nc₀ ∈ w.nickcache, nc₀.nickId = nc.nickId ∧ nc₀.status = nc.status) ∨
        ∃ r ∈ w.db.nick, r.nickId = nc.nickId ∧ r.status = nc.status)
    (fun nc hnc ↦ .inl ⟨nc, hnc, rfl, rfl⟩) (fun nc hselect ↦ .inr (selected hselect)) ?_ fun _ ↦ id
  rintro nc - rfl
  exact .inr hrow

theorem noticeLang (h : Looked w₀ w) (now : ℕ) (u : User) : Looked w₀ (noticeLang now u w) :=
  .ite (h.freshen _ now u.nickId) h

theorem lookups (h : Looked w₀ w) (now : ℕ) (l : List Lookup) : Looked w₀ (lookups now l w) := by
  induction l generalizing w with
  | nil => exact h
  | cons a l ih =>
    refine ih ?_
    cases a with
    | status nickId => exact h.freshen _ now nickId
    | language nickId => exact h.freshen _ now nickId

theorem freshenIdentified (h : Looked w₀ w) (now : ℕ) (u : User) :
    Looked w₀ (freshenIdentified now u w) := .ite (h.freshen _ now u.realId) h

theorem freshenAdmin (h : Looked w₀ w) (env : Env) (u : User) : Looked w₀ (freshenAdmin env u w) :=
  .ite (h.freshenIdentified env.now u) h

theorem syntaxError (h : Looked w₀ w) (env : Env) (u : User) : Looked w₀ (syntaxError env u w) :=
  ((h.noticeLang env.now u).noticeLang env.now u).noticeLang env.now u

theorem checkMemos (h : Looked w₀ w) (env : Env) (u : User) : Looked w₀ (checkMemos env u w) :=
  .ite ((h.freshen _ env.now u.realId).lookups env.now env.reads) h

end Looked

/-! ### What leaves nicks, cache and timeouts alone -/

namespace Aside

variable {w : World}

theorem refl (w : World) : Aside w w := ⟨rfl, rfl, rfl, rfl, rfl, rfl, rfl, id⟩

theorem act {f : World → World} (hf : w.alive = true → Aside w (f w)) : Aside w (w.act f) :=
  World.act_cases (refl w) hf

theorem die (w : World) : Aside w w.die := ⟨rfl, rfl, rfl, rfl, rfl, rfl, rfl, fun h ↦ by cases h⟩

theorem modifyUser (f : User → User) (uid : ℕ) (w : World) : Aside w (modifyUser f uid w) :=
  act fun _ ↦ ⟨rfl, rfl, rfl, rfl, rfl, rfl, rfl, id⟩

theorem addUser (u : User) (w : World) : Aside w (addUser u w) :=
  act fun _ ↦ ⟨rfl, rfl, rfl, rfl, rfl, rfl, rfl, id⟩

theorem updateColumns (f : NickColumns → NickColumns) (nickId : ℕ) (w : World) :
    Aside w (updateColumns f nickId w) := act fun _ ↦ ⟨rfl, rfl, rfl, rfl, rfl, rfl, rfl, id⟩

theorem insertAuth (command : AuthCommand) (code name params : CString) (now : ℕ) (w : World) :
    Aside w (insertAuth command code name params now w) :=
  act fun _ ↦ ⟨rfl, rfl, rfl, rfl, rfl, rfl, rfl, id⟩

theorem withdraw (p : AuthRow → Bool) (w : World) :
    Aside w (w.act fun w ↦ { w with auth := w.auth.filter p }) :=
  act fun _ ↦ ⟨rfl, rfl, rfl, rfl, rfl, rfl, rfl, id⟩

theorem insertMemoinfo (owner : CString) (max : ℤ) (w : World) :
    Aside w (insertMemoinfo owner max w) :=
  act fun _ ↦ ite_ind (p := Aside w) (fun _ ↦ die w) fun _ ↦ ⟨rfl, rfl, rfl, rfl, rfl, rfl, rfl, id⟩

theorem insertNickaccess (nickId idx : ℕ) (userhost : CString) (w : World) :
    Aside w (insertNickaccess nickId idx userhost w) :=
  act fun _ ↦ ite_ind (p := Aside w) (fun _ ↦ die w) fun _ ↦ ⟨rfl, rfl, rfl, rfl, rfl, rfl, rfl, id⟩

end Aside

/-! ### Rows that stay -/

theorem Quiet.hasRow {w w' : World} (h : Quiet w w') {nickId : ℕ} (hrow : HasRow w nickId) :
    HasRow w' nickId := by
  obtain ⟨r, hr, rfl⟩ := hrow
  have hmem : nickEntry r ∈ w'.registry.nicks := by
    rw [h.registry]
    exact List.mem_map_of_mem hr
  obtain ⟨r', hr', hentry⟩ := List.mem_map.mp hmem
  exact ⟨r', hr', congrArg Entry.id hentry⟩

theorem hasRow_findnick {w : World} {nick : CString} (h : mysqlFindnick w.db nick ≠ 0) :
    HasRow w (mysqlFindnick w.db nick) := by
  rw [mysqlFindnick] at h ⊢
  cases hlast : (w.db.nick.filter fun r ↦ sameName r.nick nick).getLast? with
  | none =>
    rw [hlast] at h
    exact absurd rfl h
  | some r => exact ⟨r, (List.mem_filter.mp (List.mem_of_getLast? hlast)).1, rfl⟩

theorem hasRow_of_guested {w : World} {nickId : ℕ} (h : guested w nickId = true) :
    HasRow w nickId := by
  obtain ⟨r, hr, hguested⟩ := List.any_eq_true.mp h
  exact ⟨r, hr, (of_decide_eq_true hguested).1⟩

/-- A change of other flags of the status. -/
theorem mayNotBeUsed_updateStatus {f : BitVec 32 → BitVec 32}
    (hf : ∀ s, f s &&& NS_VERBOTEN = s &&& NS_VERBOTEN) (id nickId : ℕ) (w : World) :
    mayNotBeUsed (updateStatus f nickId w) id = mayNotBeUsed w id := by
  refine World.act_cases (p := fun w' ↦ mayNotBeUsed w' id = mayNotBeUsed w id) rfl fun _ ↦ ?_
  rw [mayNotBeUsed, mayNotBeUsed, List.any_map]
  refine congrArg (List.any w.db.nick) (funext fun r ↦ ?_)
  rw [Function.comp_apply]
  split_ifs
  · rw [hf]
  · rfl

theorem mayNotBeUsed_changeNickStatus {f : BitVec 32 → BitVec 32}
    (hf : ∀ s, f s &&& NS_VERBOTEN = s &&& NS_VERBOTEN) (now id nickId : ℕ) (w : World) :
    mayNotBeUsed (changeNickStatus f now nickId w) id = mayNotBeUsed w id := by
  rw [← mayNotBeUsed_updateStatus hf id nickId w, mayNotBeUsed, mayNotBeUsed, changeNickStatus,
    nickcacheChangeStatus, ((CacheOnly.refl _).nickcacheWrite _ now nickId).db]

theorem verboten_remove {c : BitVec 32} (h : c &&& NS_VERBOTEN = 0#32) (s : BitVec 32) :
    s &&& ~~~c &&& NS_VERBOTEN = s &&& NS_VERBOTEN := by
  have hbit : ∀ a b d : Bool, (b && d) = false → (a && !b && d) = (a && d) := by decide
  ext i hi
  have hci := congrArg (·[i]) h
  simp only [BitVec.getElem_and, BitVec.getElem_not, BitVec.getElem_zero] at hci ⊢
  exact hbit _ _ _ hci

theorem verboten_add {c : BitVec 32} (h : c &&& NS_VERBOTEN = 0#32) (s : BitVec 32) :
    (s ||| c) &&& NS_VERBOTEN = s &&& NS_VERBOTEN := by
  rw [BitVec.and_comm, BitVec.and_or_distrib_left, BitVec.and_comm _ c, h, BitVec.or_zero,
    BitVec.and_comm]

/-! ### Sequences of actions -/

namespace Acts

variable {conf : Config} {w₀ w : World} {msg : Env × Message}

theorem refl (w : World) : Acts conf w msg w := Relation.ReflTransGen.refl

theorem next {w' : World} (h : Acts conf w₀ msg w) (haction : Action conf w₀ msg w w') :
    Acts conf w₀ msg w' := Relation.ReflTransGen.tail h haction

theorem look {w' : World} (h : Acts conf w₀ msg w) (hlook : Looked w w') : Acts conf w₀ msg w' :=
  h.next (.look hlook)

theorem aside {w' : World} (h : Acts conf w₀ msg w) (haside : Aside w w') : Acts conf w₀ msg w' :=
  h.next (.aside haside)

theorem ite {c : Prop} [Decidable c] {w₁ w₂ : World} (h₁ : Acts conf w₀ msg w₁)
    (h₂ : Acts conf w₀ msg w₂) : Acts conf w₀ msg (if c then w₁ else w₂) := by
  split_ifs
  · exact h₁
  · exact h₂

theorem die (h : Acts conf w₀ msg w) : Acts conf w₀ msg (w.act World.die) :=
  h.aside (.act fun _ ↦ .die w)

theorem noticeLang (h : Acts conf w₀ msg w) (now : ℕ) (u : User) :
    Acts conf w₀ msg (noticeLang now u w) := h.look ((Looked.refl w).noticeLang now u)

theorem lookups (h : Acts conf w₀ msg w) (now : ℕ) (l : List Lookup) :
    Acts conf w₀ msg (lookups now l w) := h.look ((Looked.refl w).lookups now l)

theorem freshenStatus (h : Acts conf w₀ msg w) (now nickId : ℕ) :
    Acts conf w₀ msg (freshenStatus now nickId w) := h.look ((Looked.refl w).freshenStatus now nickId)

theorem freshenIdentified (h : Acts conf w₀ msg w) (now : ℕ) (u : User) :
    Acts conf w₀ msg (freshenIdentified now u w) := h.look ((Looked.refl w).freshenIdentified now u)

theorem freshenAdmin (h : Acts conf w₀ msg w) (env : Env) (u : User) :
    Acts conf w₀ msg (freshenAdmin env u w) := h.look ((Looked.refl w).freshenAdmin env u)

theorem syntaxError (h : Acts conf w₀ msg w) (env : Env) (u : User) :
    Acts conf w₀ msg (syntaxError env u w) := h.look ((Looked.refl w).syntaxError env u)

theorem checkMemos (h : Acts conf w₀ msg w) (env : Env) (u : User) :
    Acts conf w₀ msg (checkMemos env u w) := h.look ((Looked.refl w).checkMemos env u)

/-- A change of a status that neither forbids nor identifies. -/
theorem add (h : Acts conf w₀ msg w) {c : BitVec 32}
    (hc : c &&& (NS_VERBOTEN ||| NS_IDENTIFIED) = 0#32) (now nickId : ℕ) :
    Acts conf w₀ msg (addNickStatus c now nickId w) :=
  (h.next (.row _ nickId w (.add c hc))).next (.entry _ now nickId _ (.add c hc))

theorem remove (h : Acts conf w₀ msg w) {c : BitVec 32} (hc : c &&& NS_VERBOTEN = 0#32)
    (now nickId : ℕ) : Acts conf w₀ msg (removeNickStatus c now nickId w) :=
  (h.next (.row _ nickId w (.remove c hc))).next (.entry _ now nickId _ (.remove c hc))

/-! ### User messages -/

theorem checkOnAccess (h : Acts conf w₀ msg w) (env : Env) (u : User) :
    Acts conf w₀ msg (checkOnAccess env u w) :=
  .ite h (.ite (h.add (by decide) env.now u.realId) h)

theorem validateAccess (h : Acts conf w₀ msg w) (hspares : ∀ id, ¬ Deletes conf w₀ msg id) (env : Env)
    (flags : BitVec 32) (u : User) (hrow : HasRow w u.realId) : Acts conf w₀ msg (validateAccess env flags u w).2 := by
  have honAccess : Acts conf w₀ msg (if isOnAccess w u u.nickId then
      addNickStatus NS_ON_ACCESS env.now u.realId w else w) :=
    .ite (h.add (by decide) env.now u.realId) h
  have hquiet : Quiet w (if isOnAccess w u u.nickId then
      addNickStatus NS_ON_ACCESS env.now u.realId w else w) :=
    .ite ((Quiet.refl w).changeNickStatus _ _ _) (.refl w)
  rw [NickServ.validateAccess]
  dsimp only
  generalize (if isOnAccess w u u.nickId then
    addNickStatus NS_ON_ACCESS env.now u.realId w else w) = w₁ at honAccess hquiet ⊢
  split
  · have hrecognized : NS_RECOGNIZED &&& (NS_VERBOTEN ||| NS_IDENTIFIED) = 0#32 := by decide
    exact ((honAccess.next (.row _ u.realId _ (.add _ hrecognized))).aside
      (.updateColumns _ _ _)).next (.entry _ env.now u.realId _ (.add _ hrecognized))
  · split
    · have hnotice := ((hquiet.noticeLang env.now u).noticeLang env.now u).hasRow hrow
      exact ((honAccess.noticeLang _ _).noticeLang _ _).next (.addTimeout _ _ _ _ _ hnotice hspares)
    · exact honAccess.noticeLang _ _

theorem validateUser (h : Acts conf w₀ msg w) (hspares : ∀ id, ¬ Deletes conf w₀ msg id) (env : Env)
    (u : User) (hrow : u.realId ≠ 0 → HasRow w u.realId) : Acts conf w₀ msg (validateUser conf env u w).2 := by
  have htemporary : NS_TEMPORARY &&& NS_VERBOTEN = 0#32 := by decide
  have hremove := h.remove htemporary env.now u.realId
  have hquiet := (Quiet.refl w).changeNickStatus (· &&& ~~~NS_TEMPORARY) env.now u.realId
  rw [NickServ.validateUser]
  dsimp only
  split
  · exact h
  · next hid =>
    split
    · have hnotice := (((Quiet.refl w).noticeLang env.now u).noticeLang env.now u).hasRow (hrow hid)
      exact ((h.noticeLang _ _).noticeLang _ _).next (.addTimeout _ _ _ _ _ hnotice hspares)
    · next hmay =>
      have hused : mayNotBeUsed (removeNickStatus NS_TEMPORARY env.now u.realId w) u.realId = false :=
        (mayNotBeUsed_changeNickStatus (verboten_remove htemporary) _ _ _ w).trans
          (Bool.eq_false_iff.mpr hmay)
      split
      · have hidentified : NS_IDENTIFIED &&& NS_VERBOTEN = 0#32 := by decide
        have hrow' := hremove.next (.row _ u.realId _ (.recover hused))
        refine (hrow'.next (.entry _ env.now u.realId _ (.recover ?_))).lookups _ _
        exact (mayNotBeUsed_updateStatus (verboten_add hidentified) u.realId u.realId _).trans hused
      · exact hremove.validateAccess hspares _ _ _ (hquiet.hasRow (hrow hid))

theorem cancelUser (h : Acts conf w₀ msg w) (hspares : ∀ id, ¬ Deletes conf w₀ msg id) (env : Env)
    (u : User) :
    Acts conf w₀ msg (cancelUser conf env u w) := by
  have htemporary : NS_TEMPORARY &&& NS_VERBOTEN = 0#32 := by decide
  have hstatus : Acts conf w₀ msg (if guested w u.realId then
      addNickStatus NS_KILL_HELD env.now u.realId (addNsTimeout u.realId .release
        conf.nsReleaseTimeout env.now (updateStatus (· &&& ~~~NS_TEMPORARY) u.realId w))
      else removeNickStatus NS_TEMPORARY env.now u.realId w) := by
    refine ite_ind (p := Acts conf w₀ msg) (fun hguested ↦ ?_) fun _ ↦ h.remove htemporary _ _
    have hrow := ((Quiet.refl w).updateStatus (· &&& ~~~NS_TEMPORARY) u.realId).hasRow
      (hasRow_of_guested hguested)
    exact ((h.next (.row _ u.realId w (.remove _ htemporary))).next
      (.addTimeout _ _ _ _ _ hrow hspares)).add (by decide) _ _
  exact .ite (hstatus.next (.delTimeout _ _ _)) h

theorem updateLastSeen (h : Acts conf w₀ msg w) (u : User) {status : BitVec 32}
    (hstatus : Restatus conf w₀ msg w u.realId (· ||| status)) :
    Acts conf w₀ msg (mysqlUpdateLastSeen u status w) := by
  rw [NickServ.mysqlUpdateLastSeen]
  exact (h.next (.row _ u.realId w hstatus)).aside (.updateColumns _ _ _)

theorem settleUser (h : Acts conf w₀ msg w) (hspares : ∀ id, ¬ Deletes conf w₀ msg id) (env : Env)
    (u : User) (niChanged : Bool) (hrow : u.realId ≠ 0 → HasRow w u.realId) :
    Acts conf w₀ msg (settleUser conf env u niChanged w) := by
  have hvalidate : Acts conf w₀ msg (if niChanged then
      (if (NickServ.validateUser conf env u w).1 then
        NickServ.checkMemos env u (NickServ.validateUser conf env u w).2
      else (NickServ.validateUser conf env u w).2)
      else NickServ.checkOnAccess env u w) := by
    have hvalid := h.validateUser hspares env u hrow
    exact .ite (.ite (hvalid.checkMemos env u) hvalid) (h.checkOnAccess env u)
  have hidentified := hvalidate.freshenIdentified env.now u
  exact .ite (hidentified.updateLastSeen u (.add 0#32 BitVec.zero_and)) hidentified

theorem doNickNew (env : Env) (nick username host : CString) :
    Acts conf w (env, .connect nick username host) (doNickNew conf env nick username host w) := by
  have hw : Acts conf w (env, .connect nick username host) w := refl w
  have hadd := hw.aside
    (.addUser (newUser env.now nick username host w) w)
  have hquiet : HasRow w (nickIds w.db nick).1 → HasRow (NickServ.lookups env.now env.reads
      (addUser (newUser env.now nick username host w) w)) (nickIds w.db nick).1 := by
    rintro ⟨r, hr, hid⟩
    refine ((Quiet.refl _).lookups env.now env.reads).hasRow ⟨r, ?_, hid⟩
    rw [(Aside.addUser _ w).nick]
    exact hr
  exact (hadd.lookups env.now env.reads).settleUser (fun _ ↦ id) env _ true fun hid ↦
    hquiet (hasRow_findnick hid)

theorem doNickChange {env : Env} {source nick : CString} {u : User}
    (huser : finduser w source = some u) :
    Acts conf w (env, .nick source nick) (doNickChange conf env source nick w) := by
  let msg := (env, Message.nick source nick)
  rw [NickServ.doNickChange, huser]
  dsimp only
  have hsame : Quiet w (NickServ.cancelUser conf env u (if !sameName nick source then
      modifyUser (fun u ↦ { u with mySignon := env.now }) u.uid w else w)) := by
    refine Quiet.cancelUser (.ite ((Quiet.refl w).modifyUser u.uid ?_) (.refl w)) conf env u
    exact fun _ ↦ rfl
  have hids := nickIds_congr (congrArg Registry.nicks hsame.registry) nick
  have hcancel : Acts conf w msg (NickServ.cancelUser conf env u (if !sameName nick source then
      modifyUser (fun u ↦ { u with mySignon := env.now }) u.uid w else w)) :=
    Acts.cancelUser (.ite ((refl w).aside (.modifyUser _ _ w)) (refl w)) (fun _ ↦ id) env u
  have hold : (!sameName nick source) = false →
      NickServ.cancelUser conf env u (if !sameName nick source then
        modifyUser (fun u ↦ { u with mySignon := env.now }) u.uid w else w) =
      NickServ.cancelUser conf env u w := by
    intro hunchanged
    rw [hunchanged]
    rfl
  generalize NickServ.cancelUser conf env u (if !sameName nick source then
    modifyUser (fun u ↦ { u with mySignon := env.now }) u.uid w else w) = w₁
    at hsame hids hcancel hold ⊢
  rw [changeUserNick, hids]
  have hset : Acts conf w msg (if (nickIds w.db nick).1 ≠ 0 ∧ ¬ (!sameName nick source) = true then
      setNickStatus (getNickStatus env.now u.nickId w₁) env.now (nickIds w.db nick).1
        (NickServ.freshenStatus env.now u.nickId w₁) else w₁) := by
    refine ite_ind (p := Acts conf w msg) (fun hcase ↦ ?_) fun _ ↦ hcancel
    have hunchanged : (!sameName nick source) = false := Bool.not_eq_true _ ▸ hcase.2
    have hcopies (halive : (NickServ.freshenStatus env.now u.nickId w₁).alive = true) :
        Copies conf w msg (nickIds w.db nick).1 (getNickStatus env.now u.nickId w₁) := by
      rw [hold hunchanged] at halive ⊢
      exact ⟨u, huser, by simpa using hunchanged, rfl, hcase.1, rfl, halive⟩
    refine ((hcancel.freshenStatus env.now u.nickId).next (.row _ _ _ (.copy _ hcopies))).next
      (.entry _ env.now _ _ (.copy _ fun halive ↦ hcopies ?_))
    rwa [updateStatus, updateNick_alive] at halive
  have hquiet : Quiet w (if (nickIds w.db nick).1 ≠ 0 ∧ ¬ (!sameName nick source) = true then
      setNickStatus (getNickStatus env.now u.nickId w₁) env.now (nickIds w.db nick).1
        (NickServ.freshenStatus env.now u.nickId w₁) else w₁) :=
    ite_ind (p := Quiet w) (fun _ ↦ (hsame.freshenStatus _ _).changeNickStatus _ _ _) fun _ ↦ hsame
  refine (hset.aside (.modifyUser _ _ _)).settleUser (fun _ ↦ id) env _ _ fun hid ↦ ?_
  obtain ⟨r, hr, hrid⟩ := hquiet.hasRow (hasRow_findnick hid)
  refine ⟨r, ?_, hrid⟩
  rw [(Aside.modifyUser _ _ _).nick]
  exact hr

/-! ### Users who leave -/

theorem doQuit (h : Acts conf w₀ msg w) (hspares : ∀ id, ¬ Deletes conf w₀ msg id) (env : Env)
    (nick : CString) :
    Acts conf w₀ msg (doQuit conf env nick w) := by
  rw [NickServ.doQuit]
  cases finduser w nick with
  | none => exact h
  | some u =>
    dsimp only
    rw [NickServ.deleteUser]
    exact (h.cancelUser hspares env u).aside (.act fun _ ↦ ⟨rfl, rfl, rfl, rfl, rfl, rfl, rfl, id⟩)

theorem badPassword (h : Acts conf w₀ msg w) (hspares : ∀ id, ¬ Deletes conf w₀ msg id) (env : Env)
    (u : User) : Acts conf w₀ msg (badPassword conf env u w) := .ite (h.doQuit hspares env u.nick) h

/-! ### Modes and timeouts -/

/-- The stamp and the mask of the user, with a status that identifies him. -/
theorem identify (h : Acts conf w₀ msg w) (u : User) (hid : Identifies conf w₀ msg u.realId)
    (now : ℕ) : Acts conf w₀ msg
      ((mysqlUpdateLastSeen u NS_IDENTIFIED w).act (nickcacheUpdate now u.realId)) :=
  (h.updateLastSeen u (.identify hid)).look ((Looked.refl _).update now u.realId)

theorem umodeLetter (h : Acts conf w₀ msg w) (env : Env) (u : User) (add : Bool) (c : Char)
    (hid : add = true → c = 'R' → u.realId ≠ 0 → Identifies conf w₀ msg u.realId) :
    Acts conf w₀ msg (umodeLetter env u add c w) := by
  refine ite_ind (p := Acts conf w₀ msg) (fun hR ↦ ite_ind (p := Acts conf w₀ msg) (fun hadd ↦ ?_)
    fun _ ↦ h) fun _ ↦ ite_ind (p := Acts conf w₀ msg) (fun _ ↦ ?_) fun _ ↦ h
  · have hidentify := h.identify u (hid hadd.1 hR hadd.2) env.now
    have hread := hidentify.aside (.act (f := fun w ↦
      { w with alive := (getNickFromId w.db u.realId).isSome })
      fun halive ↦ ⟨rfl, rfl, rfl, rfl, rfl, rfl, rfl, fun _ ↦ halive⟩)
    have hnotice {w₁ : World} (h₁ : Acts conf w₀ msg w₁) : Acts conf w₀ msg
        (NickServ.freshenStatus env.now u.realId (if (w₁.columns u.realId).email.length ≤ 1 then
          NickServ.noticeLang env.now u w₁ else w₁)) :=
      freshenStatus (.ite (h₁.noticeLang env.now u) h₁) env.now u.realId
    exact .ite ((hnotice hread).checkMemos env u) (hnotice hread)
  · have hoper := h.aside (.modifyUser (fun u ↦ { u with oper := add }) u.uid w)
    exact .ite (hoper.lookups env.now env.reads) hoper

theorem umodeLoop (h : Acts conf w₀ msg w) (env : Env) (u : User) (add : Bool) (modes : CString)
    (hid : reportsR add modes = true → u.realId ≠ 0 → Identifies conf w₀ msg u.realId) :
    Acts conf w₀ msg (umodeLoop env u add modes w) := by
  induction modes generalizing add w with
  | nil => exact h
  | cons c modes ih =>
    rw [reportsR] at hid
    rw [NickServ.umodeLoop]
    split_ifs at hid ⊢ with hplus hminus
    · exact ih h true hid
    · exact ih h false hid
    · refine ih (h.umodeLetter env u add c fun hadd hR ↦ hid ?_) add fun hR ↦ hid ?_
      · simp [hadd, hR]
      · rw [hR, Bool.or_true]

theorem doUmode (env : Env) (source nick modes : CString) :
    Acts conf w (env, .mode source nick modes) (doUmode env source nick modes w) := by
  refine ite_ind (p := Acts conf w _) (fun _ ↦ refl w) fun hself ↦ ?_
  cases huser : finduser w source with
  | none => exact refl w
  | some u =>
    exact (refl w).umodeLoop env u true modes fun hR hid ↦
      ⟨u, huser, not_not.mp hself, hR, rfl, hid⟩

theorem collide (h : Acts conf w₀ msg w) (env : Env) (nickId : ℕ) (u : User) :
    Acts conf w₀ msg (collide env nickId u w) :=
  (h.noticeLang env.now u).add (by decide) env.now nickId

theorem release (h : Acts conf w₀ msg w) (env : Env) (nickId : ℕ) :
    Acts conf w₀ msg (release env nickId w) := h.remove (by decide) env.now nickId

theorem timeoutCollide (h : Acts conf w₀ msg w) (env : Env) (t : NsTimeout) :
    Acts conf w₀ msg (timeoutCollide env t w) := by
  have hfire := (h.next (.fireTimeout t w)).freshenStatus env.now t.nickId
  rw [NickServ.timeoutCollide]
  generalize NickServ.freshenStatus env.now t.nickId (fireNsTimeout t w) = w₁ at hfire ⊢
  refine .ite hfire ?_
  cases getNickFromId w₁.db t.nickId with
  | none => exact hfire.die
  | some nick =>
    dsimp only
    cases finduser w₁ nick with
    | none => exact hfire
    | some u => exact .ite hfire (hfire.collide env t.nickId u)

theorem doTimeout (h : Acts conf w₀ msg w) (env : Env) (t : NsTimeout) :
    Acts conf w₀ msg (doTimeout env t w) := by
  refine .ite ?_ h
  cases t.type with
  | collide => exact h.timeoutCollide env t
  | release => exact (h.next (.fireTimeout t w)).release env t.nickId

/-! ### REGISTER and IDENTIFY -/

theorem insertNewNick (h : Acts conf w₀ msg w) {row : NickRow} (hrow : Inserts conf w₀ msg row)
    (columns : NickColumns) (memomax : Option ℤ) (access : Option CString) (now : ℕ) :
    Acts conf w₀ msg (insertNewNick row columns memomax access now w) := by
  have hinsert := h.next (.insert row columns w hrow)
  have hcache : Acts conf w₀ msg (nickcacheChangeStatus (fun _ ↦ row.status) now w.nextNickId
      (insertNick row columns w)) := by
    by_cases halive : (insertNick row columns w).alive = true
    · refine hinsert.look ((Looked.refl _).reset now ⟨{ row with nickId := w.nextNickId }, ?_, rfl, rfl⟩)
      rw [insertNick, World.act] at halive ⊢
      split_ifs at halive ⊢
      · cases halive
      · exact List.mem_append_right _ (List.mem_singleton_self _)
      · contradiction
    · rw [nickcacheChangeStatus, nickcacheWrite, World.act, if_neg halive]
      exact hinsert
  have hlanguage := hcache.look ((Looked.refl _).setLanguage now w.nextNickId columns.language)
  unfold NickServ.insertNewNick
  dsimp only
  generalize nickcacheSetLanguage now w.nextNickId columns.language
    (nickcacheChangeStatus (fun _ ↦ row.status) now w.nextNickId (insertNick row columns w)) = w₁
    at hlanguage ⊢
  cases memomax with
  | some max =>
    cases access with
    | some access => exact (hlanguage.aside (.insertMemoinfo _ _ _)).aside (.insertNickaccess _ _ _ _)
    | none => exact hlanguage.aside (.insertMemoinfo _ _ _)
  | none =>
    cases access with
    | some access => exact hlanguage.aside (.insertNickaccess _ _ _ _)
    | none => exact hlanguage

variable {env : Env} {source : CString} {u : User}

theorem registerNick (h : Acts conf w₀ msg w) (env : Env) (u : User) (email : CString)
    (hrow : ∀ row : NickRow, row.nick = strscpy u.nick NICKMAX ∧
      row.status = NS_IDENTIFIED ||| NS_RECOGNIZED ∧ row.linkId = 0 ∧ row.flags = conf.nsDefFlags →
        Inserts conf w₀ msg row) :
    Acts conf w₀ msg (registerNick conf env u email w) := by
  refine (insertNewNick ((h.noticeLang env.now u).aside (.modifyUser _ _ _)) (hrow _ ?_) _ _ _
    env.now).aside (.modifyUser _ _ _)
  exact ⟨rfl, rfl, rfl, rfl⟩

theorem doRegister (huser : finduser w source = some u) (words : RegisterWords) (code : CString) :
    Acts conf w (env, .command source (.register words code)) (doRegister conf env u words code w) := by
  have hw : Acts conf w (env, .command source (.register words code)) w := refl w
  have hrow (row : NickRow) (h : row.nick = strscpy u.nick NICKMAX ∧
      row.status = NS_IDENTIFIED ||| NS_RECOGNIZED ∧ row.linkId = 0 ∧ row.flags = conf.nsDefFlags) :
      Inserts conf w (env, .command source (.register words code)) row := ⟨u, huser, h⟩
  have hauth (authcode : Option CString) : Acts conf w (env, .command source (.register words code))
      (doRegisterAuth conf env u authcode w) := by
    unfold doRegisterAuth
    cases authcode with
    | none => exact hw.syntaxError env u
    | some authcode =>
      dsimp only
      split
      · exact hw.registerNick env u _ hrow
      · exact hw.noticeLang env.now u
  refine .ite (hw.noticeLang env.now u) ?_
  cases words.pass with
  | none => exact hw.syntaxError env u
  | some pass =>
    refine .ite (hauth words.email) (.ite (hw.syntaxError env u) (.ite (hw.noticeLang env.now u) ?_))
    cases words.email with
    | none => exact hw.syntaxError env u
    | some email =>
      refine .ite ((hw.noticeLang env.now u).syntaxError env u)
        (.ite ((hw.freshenStatus env.now u.realId).noticeLang env.now u)
          (.ite (hw.noticeLang env.now u) (.ite (.ite (hw.noticeLang env.now u) ?_) ?_)))
      · exact (hw.aside (.insertAuth _ _ _ _ _ _)).noticeLang env.now u
      · exact hw.registerNick env u email hrow

theorem doIdentify (huser : finduser w source = some u) (pass : Option CString) :
    Acts conf w (env, .command source (.identify pass)) (doIdentify conf env u pass w) := by
  have hw : Acts conf w (env, .command source (.identify pass)) w := refl w
  have hspares (id : ℕ) : ¬ Deletes conf w (env, .command source (.identify pass)) id :=
    fun ⟨_, _, hdel⟩ ↦ hdel
  refine .ite (hw.syntaxError env u) (ite_ind (p := Acts conf w _) (fun _ ↦ hw) fun hid ↦
    ite_ind (p := Acts conf w _) (fun _ ↦ hw.noticeLang env.now u) fun hsuspended ↦
    ite_ind (p := Acts conf w _) (fun _ ↦ (hw.noticeLang env.now u).badPassword hspares env u) fun hgood ↦ ?_)
  have hidentify := hw.identify u ⟨u, huser, rfl, hid, not_not.mp hsuspended, not_not.mp hgood⟩ env.now
  have hstatus := (hidentify.noticeLang env.now u).freshenStatus env.now u.realId
  exact .ite (hstatus.checkMemos env u) hstatus

/-! ### DROP and SENDPASS -/

theorem doDrop (huser : finduser w source = some u) (nick authcode : Option CString)
    (code : CString) :
    Acts conf w (env, .command source (.drop nick authcode code))
      (doDrop conf env u nick authcode code w) := by
  have hw : Acts conf w (env, .command source (.drop nick authcode code)) w := refl w
  cases nick with
  | none =>
    have hidentified := hw.freshenIdentified env.now u
    refine .ite (hw.noticeLang env.now u) (.ite (hidentified.noticeLang env.now u)
      (.ite (hidentified.noticeLang env.now u) ?_))
    exact (hidentified.aside (.insertAuth _ _ _ _ _ _)).noticeLang env.now u
  | some nick =>
    have hadmin := hw.freshenAdmin env u
    have hcache := (CacheOnly.refl w).freshenAdmin env u
    refine ite_ind (p := Acts conf w _) (fun hword ↦ ?_) fun hword ↦ ite_ind (p := Acts conf w _)
      (fun _ ↦ hadmin.syntaxError env u) fun hservadmin ↦ ite_ind (p := Acts conf w _)
      (fun _ ↦ hadmin.noticeLang env.now u) fun hid ↦ ite_ind (p := Acts conf w _)
      (fun _ ↦ hadmin.die) fun hknown ↦ ite_ind (p := Acts conf w _)
      (fun _ ↦ hadmin.noticeLang env.now u) fun hroot ↦ ?_
    · unfold doDropAuth
      cases authcode with
      | none => exact hw.syntaxError env u
      | some authcode =>
        refine ite_ind (p := Acts conf w _) (fun hcode ↦ ?_) fun _ ↦ hw.noticeLang env.now u
        have hdeletes : Deletes conf w (env, .command source (.drop (some nick) (some authcode) code))
            u.realId := by
          refine ⟨u, huser, ?_⟩
          rw [CommandDeletes, if_pos hword]
          exact ⟨rfl, authcode, rfl, hcode⟩
        exact ((hw.aside (.modifyUser _ _ _)).next (.delete _ _ hdeletes)).aside (.withdraw _ _)
    · have haccepted := dropAccepted_of_checks hcache hservadmin hid hknown hroot
      have hdeletes : Deletes conf w (env, .command source (.drop (some nick) authcode code))
          (mysqlFindnick w.db nick) := by
        refine ⟨u, huser, ?_⟩
        rw [CommandDeletes, if_neg hword]
        exact ⟨rfl, haccepted⟩
      have hdel := (hadmin.next (.delete _ _ hdeletes)).noticeLang env.now u
      rw [dropNick]
      generalize NickServ.noticeLang env.now u (delnick (mysqlFindnick w.db nick)
        (NickServ.freshenAdmin env u w)) = w₁ at hdel ⊢
      cases finduser w₁ nick with
      | none => exact hdel
      | some u₂ => exact hdel.aside (.modifyUser _ _ _)

theorem doSendpass (h : Acts conf w₀ msg w) (env : Env) (u : User) (nick authcode : Option CString)
    (code : CString) : Acts conf w₀ msg (doSendpass conf env u nick authcode code w) := by
  refine .ite ?_ ?_
  · unfold doSendpassAuth
    cases authcode with
    | none => exact h.syntaxError env u
    | some authcode =>
      dsimp only
      split
      · exact h.noticeLang env.now u
      · split
        · exact h.noticeLang env.now u
        · exact (((h.aside (.withdraw _ _)).look ((Looked.refl _).freshen _ _ _)).aside
            (.updateColumns _ _ _)).noticeLang env.now u
  · dsimp only
    split
    · exact h.noticeLang env.now u
    · next ni _ =>
      have hadmin : Acts conf w₀ msg
          (if ni.flags &&& NI_MARKED ≠ 0#32 then NickServ.freshenAdmin env u w else w) :=
        .ite (h.freshenAdmin env u) h
      refine .ite (h.noticeLang env.now u) (.ite (hadmin.noticeLang env.now u)
        (.ite (hadmin.noticeLang env.now u) (.ite (hadmin.noticeLang env.now u) ?_)))
      exact ((hadmin.look ((Looked.refl _).freshen _ _ _)).aside
        (.insertAuth _ _ _ _ _ _)).noticeLang env.now u

/-! ### LINK and UNLINK -/

theorem doLink (huser : finduser w source = some u) (nick pass : Option CString) :
    Acts conf w (env, .command source (.link nick pass)) (doLink conf env u nick pass w) := by
  have hw : Acts conf w (env, .command source (.link nick pass)) w := refl w
  have hspares (id : ℕ) : ¬ Deletes conf w (env, .command source (.link nick pass)) id :=
    fun ⟨_, _, hdel⟩ ↦ hdel
  refine ite_ind (p := Acts conf w _) (fun _ ↦ hw.noticeLang env.now u) fun hdisabled ↦ ?_
  cases nick with
  | none => exact hw.syntaxError env u
  | some nick =>
    cases pass with
    | none => exact hw.syntaxError env u
    | some pass =>
      have hidentified := hw.freshenIdentified env.now u
      have hstatus := hidentified.freshenStatus env.now (mysqlFindnick w.db nick)
      refine .ite (hw.noticeLang env.now u) (ite_ind (p := Acts conf w _)
        (fun _ ↦ hidentified.noticeLang env.now u) fun hknown ↦ ite_ind (p := Acts conf w _)
        (fun _ ↦ hidentified.noticeLang env.now u) fun htarget ↦ ite_ind (p := Acts conf w _)
        (fun _ ↦ hidentified.noticeLang env.now u) fun hother ↦ ite_ind (p := Acts conf w _)
        (fun _ ↦ hstatus.noticeLang env.now u) fun hverboten ↦ ite_ind (p := Acts conf w _)
        (fun _ ↦ hstatus.noticeLang env.now u) fun hlinks ↦ ite_ind (p := Acts conf w _)
        (fun _ ↦ hstatus.noticeLang env.now u) fun hmaster ↦ ite_ind (p := Acts conf w _)
        (fun _ ↦ (hstatus.noticeLang env.now u).badPassword hspares env u) fun hgood ↦
        ite_ind (p := Acts conf w _) (fun _ ↦ hstatus.noticeLang env.now u) fun hlimit ↦ ?_)
      by_cases halive : (NickServ.freshenStatus env.now (mysqlFindnick w.db nick)
          (NickServ.freshenIdentified env.now u w)).alive = true
      · have haccepted : LinkAccepted conf env u (some nick) (some pass) w :=
          ⟨Bool.not_eq_true _ ▸ hdisabled, rfl, rfl, not_not.mp hknown, htarget, hother,
            not_not.mp hverboten, not_not.mp hlinks, not_not.mp hmaster, not_not.mp hgood,
            not_le.mp hlimit, halive⟩
        have hlinked := (hstatus.next (.link u.realId (mysqlFindnick w.db nick) _
          ⟨u, huser, rfl, rfl, haccepted⟩)).noticeLang env.now u
        have hid : Identifies conf w (env, .command source (.link (some nick) (some pass)))
            (mysqlFindnick w.db nick) := ⟨u, huser, rfl, haccepted⟩
        exact .ite ((hlinked.next (.row _ _ _ (.identify hid))).next
          (.entry _ env.now _ _ (.identify hid))) hlinked
      · rw [linkNick_dead (Bool.not_eq_true _ ▸ halive)]
        have hnotice := hstatus.noticeLang env.now u
        have hdead {w₁ : World} (h : Quiet (NickServ.freshenStatus env.now (mysqlFindnick w.db nick)
            (NickServ.freshenIdentified env.now u w)) w₁) : addNickStatus NS_IDENTIFIED env.now
              (mysqlFindnick w.db nick) w₁ = w₁ := by
          have hw₁ : ¬ w₁.alive = true := fun hyes ↦ halive (h.alive hyes)
          simp only [addNickStatus, changeNickStatus, nickcacheChangeStatus, nickcacheWrite,
            updateStatus, updateNick, World.act, if_neg hw₁]
        refine ite_ind (p := Acts conf w _) (fun _ ↦ ?_) fun _ ↦ hnotice
        rw [hdead ((Quiet.refl _).noticeLang env.now u)]
        exact hnotice

theorem doUnlink (huser : finduser w source = some u) (nick pass : Option CString) :
    Acts conf w (env, .command source (.unlink nick pass)) (doUnlink conf env u nick pass w) := by
  have hw : Acts conf w (env, .command source (.unlink nick pass)) w := refl w
  have hspares (id : ℕ) : ¬ Deletes conf w (env, .command source (.unlink nick pass)) id :=
    fun ⟨_, _, hdel⟩ ↦ hdel
  cases nick with
  | some nick =>
    have hadmin := hw.freshenAdmin env u
    have hcache := (CacheOnly.refl w).freshenAdmin env u
    unfold NickServ.doUnlink
    dsimp only
    split
    · exact hadmin.noticeLang env.now u
    · next ni hni =>
      refine ite_ind (p := Acts conf w _) (fun _ ↦ hadmin.noticeLang env.now u) fun hlink ↦
        ite_ind (p := Acts conf w _) (fun _ ↦ hadmin.syntaxError env u) fun hpass ↦
        ite_ind (p := Acts conf w _) (fun _ ↦ (hadmin.noticeLang env.now u).badPassword hspares env u)
        fun hgood ↦ ?_
      rw [hcache.db] at hni
      rw [hcache.checkNickPassword] at hgood
      have hunlinks : Unlinks conf w (env, .command source (.unlink (some nick) pass)) ni.nickId := by
        refine ⟨u, huser, ni, hni, rfl, hlink, ?_⟩
        by_contra hnot
        rw [UnlinkAccepted, not_or, not_and_or] at hnot
        rcases hnot.2 with hnone | hbad
        · exact hpass ⟨hnot.1, by simpa using hnone⟩
        · exact hgood ⟨hnot.1, hbad⟩
      exact (hadmin.next (.unlink env.now _ _ hunlinks)).noticeLang env.now u
  | none =>
    unfold NickServ.doUnlink
    dsimp only
    split
    · exact hw.noticeLang env.now u
    · next ni hni =>
      have hidentified := hw.freshenIdentified env.now u
      refine ite_ind (p := Acts conf w _) (fun _ ↦ hidentified.noticeLang env.now u) fun hknown ↦
        ite_ind (p := Acts conf w _) (fun _ ↦ hidentified.noticeLang env.now u) fun hlink ↦ ?_
      have hunlinks : Unlinks conf w (env, .command source (.unlink none pass)) ni.nickId :=
        ⟨u, huser, ni, hni, rfl, hlink, not_not.mp hknown⟩
      exact ((hidentified.aside (.modifyUser _ _ _)).next
        (.unlink env.now _ _ hunlinks)).noticeLang env.now _

/-! ### FORBID and SUSPEND -/

theorem doForbid (huser : finduser w source = some u) (nick : Option CString) :
    Acts conf w (env, .command source (.forbid nick)) (doForbid conf env u nick w) := by
  have hw : Acts conf w (env, .command source (.forbid nick)) w := refl w
  have hadmin := hw.freshenAdmin env u
  have hcache := (CacheOnly.refl w).freshenAdmin env u
  refine ite_ind (p := Acts conf w _) (fun _ ↦ hadmin.noticeLang env.now u) fun hservadmin ↦ ?_
  cases nick with
  | none => exact hadmin.syntaxError env u
  | some nick =>
    dsimp only
    rw [hcache.db]
    refine ite_ind (p := Acts conf w _) (fun _ ↦ hadmin.die) fun hknown ↦
      ite_ind (p := Acts conf w _) (fun _ ↦ hadmin.noticeLang env.now u) fun hstaff ↦ ?_
    have haccepted := forbidAccepted_of_checks hcache hservadmin hknown hstaff
    have hdel : Acts conf w (env, .command source (.forbid (some nick)))
        (if mysqlFindnick w.db nick ≠ 0 then
          delnick (mysqlFindnick w.db nick) (NickServ.freshenAdmin env u w)
        else NickServ.freshenAdmin env u w) :=
      ite_ind (p := Acts conf w _) (fun hid ↦ hadmin.next (.delete _ _
        ⟨u, huser, rfl, hid, haccepted⟩)) fun _ ↦ hadmin
    refine (hdel.insertNewNick ⟨u, huser, ?_⟩ _ _ _ env.now).noticeLang env.now u
    exact ⟨rfl, rfl, rfl, rfl, haccepted⟩

theorem doSuspend (h : Acts conf w₀ msg w)
    (hmsg : ∃ source nick reason, msg.2 = .command source (.suspend nick reason)) (env : Env) (u : User)
    (nick reason : Option CString) : Acts conf w₀ msg (doSuspend conf env u nick reason w) := by
  have hadmin := h.freshenAdmin env u
  unfold NickServ.doSuspend
  dsimp only
  generalize NickServ.freshenAdmin env u w = w₁ at hadmin ⊢
  refine .ite (hadmin.noticeLang env.now u) ?_
  split
  · split
    · exact hadmin.noticeLang env.now u
    · next ni hni =>
      refine .ite (hadmin.noticeLang env.now u) (ite_ind (p := Acts conf w₀ msg)
        (fun _ ↦ hadmin.noticeLang env.now u) fun hnot ↦ ?_)
      exact (hadmin.next (.suspend _ _ _ _ (Bool.not_eq_true _ ▸ hnot)
        ⟨ni, List.mem_of_find?_eq_some hni, rfl⟩ hmsg)).noticeLang env.now u
  · exact hadmin.syntaxError env u

theorem doUnsuspend (h : Acts conf w₀ msg w)
    (hmsg : ∃ source nick, msg.2 = .command source (.unsuspend nick)) (env : Env) (u : User)
    (nick : Option CString) : Acts conf w₀ msg (doUnsuspend conf env u nick w) := by
  have hadmin := h.freshenAdmin env u
  unfold NickServ.doUnsuspend
  dsimp only
  generalize NickServ.freshenAdmin env u w = w₁ at hadmin ⊢
  refine .ite (hadmin.noticeLang env.now u) ?_
  cases nick with
  | none => exact hadmin.syntaxError env u
  | some nick =>
    have hstatus := hadmin.freshenStatus env.now (mysqlFindnick w₁.db nick)
    refine .ite (hadmin.noticeLang env.now u) (.ite (hstatus.noticeLang env.now u)
      (.ite (hstatus.noticeLang env.now u) ?_))
    exact (hstatus.next (.unsuspend _ _ hmsg)).noticeLang env.now u

/-! ### SET -/

theorem setOption (h : Acts conf w₀ msg w) (env : Env) (u : User) (nickId : ℕ) (opt : SetOption) :
    Acts conf w₀ msg (setOption conf env u nickId opt w) := by
  cases opt with
  | language language =>
    refine Acts.noticeLang ?_ env.now u
    refine Acts.look (Acts.aside h (.act fun _ ↦ ?_)) ((Looked.refl _).setLanguage _ _ _)
    exact ite_ind (p := Aside w) (fun _ ↦ .updateColumns _ _ _) fun _ ↦ .refl w
  | noexpire on =>
    have hadmin := h.freshenAdmin env u
    exact .ite (hadmin.noticeLang env.now u)
      (.ite ((hadmin.add (by decide) env.now nickId).noticeLang env.now u)
        ((hadmin.remove (by decide) env.now nickId).noticeLang env.now u))

theorem doSet (h : Acts conf w₀ msg w) (env : Env) (u : User) (nick : Option CString)
    (opt : SetOption) : Acts conf w₀ msg (doSet conf env u nick opt w) := by
  have hadmin := h.freshenAdmin env u
  unfold NickServ.doSet
  dsimp only
  generalize NickServ.freshenAdmin env u w = w₁ at hadmin ⊢
  generalize (if isServicesAdmin conf env u w = true ∧ nick.isSome = true then
    mysqlFindnick w₁.db (nick.getD []) else u.nickId) = nickId
  have hstatus := hadmin.freshenStatus env.now nickId
  have hidentified := Acts.ite (c := isServicesAdmin conf env u w = true) hstatus
    (hstatus.freshenIdentified env.now u)
  exact .ite (hadmin.noticeLang env.now u) (.ite (hstatus.noticeLang env.now u)
    (.ite (hidentified.noticeLang env.now u) (hidentified.setOption env u nickId opt)))

/-! ### RECOVER, RELEASE and GHOST -/

theorem denyRecover (h : Acts conf w₀ msg w) (hspares : ∀ id, ¬ Deletes conf w₀ msg id) (env : Env)
    (u : User) (pass : Option CString) : Acts conf w₀ msg (denyRecover conf env u pass w) :=
  .ite ((h.noticeLang env.now u).badPassword hspares env u) (h.noticeLang env.now u)

theorem onOtherUser (h : Acts conf w₀ msg w) (hspares : ∀ id, ¬ Deletes conf w₀ msg id) (env : Env)
    (u : User) (nick pass : Option CString) {act : CString → ℕ → World → World} (hact : ∀ nick nickId, Acts conf w₀ msg (act nick nickId w)) :
    Acts conf w₀ msg (onOtherUser conf env u nick pass act w) := by
  unfold NickServ.onOtherUser
  cases nick with
  | none => exact h.syntaxError env u
  | some nick =>
    dsimp only
    cases finduser w nick with
    | none => exact h.noticeLang env.now u
    | some u₂ =>
      exact .ite (h.noticeLang env.now u) (.ite (h.noticeLang env.now u)
        (.ite ((hact nick u₂.realId).noticeLang env.now u) (h.denyRecover hspares env u pass)))

theorem collideNick (h : Acts conf w₀ msg w) (env : Env) (nickId : ℕ) :
    Acts conf w₀ msg (collideNick env nickId w) := by
  have hdel := h.next (.delTimeout nickId .collide w)
  rw [NickServ.collideNick]
  generalize delNsTimeout nickId .collide w = w₁ at hdel ⊢
  cases getNickFromId w₁.db nickId with
  | none => exact hdel.die
  | some nick =>
    dsimp only
    cases finduser w₁ nick with
    | none => exact hdel.add (by decide) env.now nickId
    | some u => exact hdel.collide env nickId u

theorem doRelease (h : Acts conf w₀ msg w) (hspares : ∀ id, ¬ Deletes conf w₀ msg id) (env : Env)
    (u : User) (nick pass : Option CString) :
    Acts conf w₀ msg (doRelease conf env u nick pass w) := by
  unfold NickServ.doRelease
  cases nick with
  | none => exact h.syntaxError env u
  | some nick =>
    have hstatus := h.freshenStatus env.now (mysqlFindnick w.db nick)
    refine .ite (h.noticeLang env.now u) (.ite (hstatus.noticeLang env.now u)
      (.ite ?_ (hstatus.denyRecover hspares env u pass)))
    exact ((hstatus.next (.delTimeout _ _ _)).release env _).noticeLang env.now u

/-! ### Messages -/

theorem doCommand (huser : finduser w source = some u) (cmd : Command) :
    Acts conf w (env, .command source cmd) (doCommand conf env u w cmd) := by
  have hw : Acts conf w (env, .command source cmd) w := refl w
  cases cmd with
  | register words code => exact doRegister huser words code
  | identify pass => exact doIdentify huser pass
  | drop nick authcode code => exact doDrop huser nick authcode code
  | sendpass nick authcode code => exact hw.doSendpass env u nick authcode code
  | link nick pass => exact doLink huser nick pass
  | unlink nick pass => exact doUnlink huser nick pass
  | forbid nick => exact doForbid huser nick
  | suspend nick reason => exact hw.doSuspend ⟨source, nick, reason, rfl⟩ env u nick reason
  | unsuspend nick => exact hw.doUnsuspend ⟨source, nick, rfl⟩ env u nick
  | set nick opt => exact hw.doSet env u nick opt
  | recover nick pass =>
    exact hw.onOtherUser (fun _ ⟨_, _, hdel⟩ ↦ hdel) env u nick pass fun _ nickId ↦
      hw.collideNick env nickId
  | release nick pass => exact hw.doRelease (fun _ ⟨_, _, hdel⟩ ↦ hdel) env u nick pass
  | ghost nick pass =>
    have hspares (id : ℕ) : ¬ Deletes conf w (env, .command source (.ghost nick pass)) id :=
      fun ⟨_, _, hdel⟩ ↦ hdel
    exact hw.onOtherUser hspares env u nick pass fun nick _ ↦ hw.doQuit hspares env nick

theorem expireNicks {conf : Config} {w : World} (env : Env) (grace old : ℕ → Bool) :
    Acts conf w (env, .expireNicks grace old) (expireNicks conf grace old w) :=
  expireNicks_induct (p := Acts conf w (env, .expireNicks grace old))
    (fun nickId _ hexpires h ↦ h.next (.delete nickId _ hexpires)) (refl w)

end Acts

/-- A message is handled by actions, unless it is another command, a start of the process or the expiry of
suspensions. -/
def Handled : Message → Prop
  | .other _ => False
  | .restart => False
  | .expireNicksuspends _ => False
  | _ => True

theorem acts_step (conf : Config) (w : World) (env : Env) {msg : Message} (h : Handled msg) :
    Acts conf w (env, msg) (step conf w (env, msg)) := by
  have hw : Acts conf w (env, msg) w := .refl w
  cases msg with
  | connect nick username host => exact .doNickNew env nick username host
  | nick source nick =>
    cases huser : finduser w source with
    | none =>
      rw [step, NickServ.doNickChange, huser]
      exact hw
    | some u => exact .doNickChange huser
  | quit nick => exact hw.doQuit (fun _ ↦ id) env nick
  | mode source nick modes => exact .doUmode env source nick modes
  | command source cmd =>
    rw [step]
    cases huser : finduser w source with
    | none => exact hw
    | some u => exact .doCommand huser cmd
  | other db => exact h.elim
  | timeout t => exact hw.doTimeout env t
  | expireNicks grace old => exact .expireNicks env grace old
  | expireNicksuspends expired => exact h.elim
  | expireAuth => exact hw.aside (.withdraw _ w)
  | restart => exact h.elim

end BlitzedServices.NickServ
