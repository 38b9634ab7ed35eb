import BlitzedServices.NickServ.Run
import BlitzedServices.Lib.Directory

/-!
# The registry

The part of the state that says which nicks are registered, how they are linked, which ids the users who
are online have, and which codes are pending. Most of what the handlers do leaves it as it is: `Quiet`. The rest is
a change of the directory of nicks or of the list of users.
-/

set_option autoImplicit false
set_option relaxedAutoImplicit false

namespace BlitzedServices.NickServ

open Lib Lib.SqlText Mysql ChanServ

/-! ### The view -/

/-- Names compare without regard to case. -/
def foldName (name : CString) : CString :=
  name.map Char.toLower

theorem sameName_iff {a b : CString} : sameName a b = true ↔ foldName a = foldName b := by
  rw [sameName, beq_iff_eq, stricmp_eq_zero_iff]
  rfl

theorem sameName_comm (a b : CString) : sameName a b = sameName b a := by
  rw [Bool.eq_iff_iff, sameName_iff, sameName_iff, eq_comm]

theorem sameName_self (name : CString) : sameName name name = true :=
  sameName_iff.mpr rfl

theorem sameName_congr {a b : CString} (h : sameName a b = true) (name : CString) :
    sameName name a = sameName name b := by
  rw [Bool.eq_iff_iff, sameName_iff, sameName_iff, sameName_iff.mp h]

/-- The entry of a nick. -/
def nickEntry (r : NickRow) : Entry CString :=
  ⟨r.nickId, foldName r.nick, r.linkId⟩

/-- The ids of a user and the name they are for. -/
structure UserIds where
  uid : ℕ
  name : CString
  realId : ℕ
  nickId : ℕ
  deriving DecidableEq

/-- The ids of a user's record. -/
def User.ids (u : User) : UserIds :=
  ⟨u.uid, foldName u.nick, u.realId, u.nickId⟩

/-- The directory of nicks, the ids of users and the codes. -/
structure Registry where
  nicks : List (Entry CString)
  nextNickId : ℕ
  users : List UserIds
  nextUid : ℕ
  auth : List AuthRow
  nextAuthId : ℕ

/-- The registry of a state. -/
def World.registry (w : World) : Registry where
  nicks := w.db.nick.map nickEntry
  nextNickId := w.nextNickId
  users := w.users.map User.ids
  nextUid := w.nextUid
  auth := w.auth
  nextAuthId := w.nextAuthId

theorem mysqlGetlink_eq (db : Database) (nickId : ℕ) :
    mysqlGetlink db nickId = Entry.master (db.nick.map nickEntry) nickId := by
  rw [mysqlGetlink, Entry.master, List.find?_map]
  have hcomp : ((fun e : Entry CString ↦ decide (e.id = nickId)) ∘ nickEntry) =
      fun r ↦ decide (r.nickId = nickId) := rfl
  rw [hcomp]
  cases db.nick.find? fun r ↦ r.nickId = nickId <;> rfl

/-- Names are looked up among the entries. -/
theorem mysqlFindnick_eq_getLast? (db : Database) (nick : CString) :
    mysqlFindnick db nick =
      ((((db.nick.map nickEntry).filter fun e ↦ e.name = foldName nick).getLast?).map
        Entry.id).getD 0 := by
  have hname : (fun r : NickRow ↦ sameName r.nick nick) =
      (fun e : Entry CString ↦ decide (e.name = foldName nick)) ∘ nickEntry := by
    ext r
    rw [Function.comp_apply, Bool.eq_iff_iff, decide_eq_true_eq]
    exact sameName_iff
  rw [mysqlFindnick, List.filter_map, List.getLast?_map, Option.map_map, hname]
  rfl

theorem mysqlFindnick_eq {db : Database} {next : ℕ}
    (h : Entry.Sound (db.nick.map nickEntry) next) (nick : CString) :
    mysqlFindnick db nick = Entry.findId (db.nick.map nickEntry) (foldName nick) := by
  rw [mysqlFindnick_eq_getLast?]
  generalize db.nick.map nickEntry = l at h
  cases hlast : (l.filter fun e ↦ e.name = foldName nick).getLast? with
  | none =>
    refine ((Entry.findId_eq_zero h.pos).mpr fun e he hname ↦ ?_).symm
    have hmem : e ∈ l.filter fun e ↦ e.name = foldName nick :=
      List.mem_filter.mpr ⟨he, decide_eq_true hname⟩
    rw [List.getLast?_eq_none_iff.mp hlast] at hmem
    cases hmem
  | some e =>
    obtain ⟨he, hname⟩ := List.mem_filter.mp (List.mem_of_getLast? hlast)
    rw [← of_decide_eq_true hname, h.findId_eq he]
    rfl

/-- The ids of a nick only depend on the directory. -/
theorem nickIds_congr {db db' : Database} (h : db'.nick.map nickEntry = db.nick.map nickEntry)
    (nick : CString) : nickIds db' nick = nickIds db nick := by
  simp only [nickIds, mysqlFindnick_eq_getLast?, mysqlGetlink_eq, h]

theorem db_modifyUser (f : User → User) (uid : ℕ) (w : World) : (modifyUser f uid w).db = w.db :=
  World.act_cases (p := fun w' ↦ w'.db = w.db) rfl fun _ ↦ rfl

/-! ### What only uses the nick cache -/

/-- Nothing but the nick cache is changed, and a dead process does not come alive. -/
structure CacheOnly (w w' : World) : Prop where
  same : { w' with nickcache := w.nickcache, alive := w.alive } = w
  alive : w'.alive = true → w.alive = true

namespace CacheOnly

variable {w₀ w : World}

theorem refl (w : World) : CacheOnly w w := ⟨rfl, id⟩

theorem trans {w₁ w₂ w₃ : World} (h₁ : CacheOnly w₁ w₂) (h₂ : CacheOnly w₂ w₃) :
    CacheOnly w₁ w₃ := by
  refine ⟨?_, fun h ↦ h₁.alive (h₂.alive h)⟩
  have hsame := congrArg (fun w ↦ { w with nickcache := w₁.nickcache, alive := w₁.alive }) h₂.same
  exact hsame.trans h₁.same

theorem db (h : CacheOnly w₀ w) : w.db = w₀.db := (congrArg World.db h.same :)

theorem columns (h : CacheOnly w₀ w) : w.columns = w₀.columns := (congrArg World.columns h.same :)

theorem auth (h : CacheOnly w₀ w) : w.auth = w₀.auth := (congrArg World.auth h.same :)

theorem users (h : CacheOnly w₀ w) : w.users = w₀.users := (congrArg World.users h.same :)

theorem nextNickId (h : CacheOnly w₀ w) : w.nextNickId = w₀.nextNickId :=
  (congrArg World.nextNickId h.same :)

theorem act {f : World → World} (h : CacheOnly w₀ w) (hf : w.alive = true → CacheOnly w (f w)) :
    CacheOnly w₀ (w.act f) :=
  World.act_cases h fun halive ↦ h.trans (hf halive)

theorem ite {c : Prop} [Decidable c] {w₁ w₂ : World} (h₁ : CacheOnly w w₁)
    (h₂ : CacheOnly w w₂) : CacheOnly w (if c then w₁ else w₂) := by
  split_ifs
  · exact h₁
  · exact h₂

theorem die (h : CacheOnly w₀ w) : CacheOnly w₀ w.die := ⟨h.same, fun h ↦ by cases h⟩

theorem nickcacheInsert (h : CacheOnly w₀ w) (now nickId : ℕ) :
    CacheOnly w₀ (nickcacheInsert now nickId w) := by
  rw [NickServ.nickcacheInsert]
  cases selectCached now nickId w with
  | none => exact h
  | some nc => exact ⟨h.same, h.alive⟩

theorem nickcacheModify (h : CacheOnly w₀ w) (f : Nickcache → Nickcache) (nickId : ℕ) :
    CacheOnly w₀ (nickcacheModify f nickId w) := ⟨h.same, h.alive⟩

theorem nickcacheDel (h : CacheOnly w₀ w) (nickId : ℕ) : CacheOnly w₀ (nickcacheDel nickId w) := by
  rw [NickServ.nickcacheDel]
  exact .ite h.die (.ite h h.die)

theorem nickcacheUpdate (h : CacheOnly w₀ w) (now nickId : ℕ) :
    CacheOnly w₀ (nickcacheUpdate now nickId w) := by
  have hinsert : CacheOnly w₀
      (if (nickcacheFind w nickId).isSome then w else NickServ.nickcacheInsert now nickId w) :=
    .ite h (h.nickcacheInsert now nickId)
  rw [NickServ.nickcacheUpdate]
  generalize (if (nickcacheFind w nickId).isSome then w
    else NickServ.nickcacheInsert now nickId w) = w' at hinsert ⊢
  cases selectCached now nickId w' with
  | none => exact hinsert.nickcacheDel nickId
  | some nc => exact hinsert.nickcacheModify _ nickId

theorem nickcacheFreshen (h : CacheOnly w₀ w) (stamp : Nickcache → ℕ) (now nickId : ℕ) :
    CacheOnly w₀ (nickcacheFreshen stamp now nickId w) := by
  refine h.act fun _ ↦ .ite (refl w).die ?_
  cases nickcacheFind w nickId with
  | none => exact (refl w).nickcacheInsert now nickId
  | some nc => exact .ite ((refl w).nickcacheUpdate now nickId) (refl w)

theorem nickcacheWrite (h : CacheOnly w₀ w) (f : Nickcache → Nickcache) (now nickId : ℕ) :
    CacheOnly w₀ (nickcacheWrite f now nickId w) := by
  refine h.act fun _ ↦ .ite (refl w).die (nickcacheModify ?_ f nickId)
  exact .ite (refl w) ((refl w).nickcacheInsert now nickId)

theorem freshenStatus (h : CacheOnly w₀ w) (now nickId : ℕ) :
    CacheOnly w₀ (freshenStatus now nickId w) := h.nickcacheFreshen _ now nickId

theorem freshenLanguage (h : CacheOnly w₀ w) (now nickId : ℕ) :
    CacheOnly w₀ (freshenLanguage now nickId w) := h.nickcacheFreshen _ now nickId

theorem noticeLang (h : CacheOnly w₀ w) (now : ℕ) (u : User) : CacheOnly w₀ (noticeLang now u w) :=
  .ite (h.freshenLanguage now u.nickId) h

theorem lookups (h : CacheOnly w₀ w) (now : ℕ) (l : List Lookup) :
    CacheOnly w₀ (lookups now l w) := by
  induction l generalizing w with
  | nil => exact h
  | cons a l ih =>
    refine ih ?_
    cases a with
    | status nickId => exact h.freshenStatus now nickId
    | language nickId => exact h.freshenLanguage now nickId

theorem freshenIdentified (h : CacheOnly w₀ w) (now : ℕ) (u : User) :
    CacheOnly w₀ (freshenIdentified now u w) := .ite (h.freshenStatus now u.realId) h

theorem freshenAdmin (h : CacheOnly w₀ w) (env : Env) (u : User) :
    CacheOnly w₀ (freshenAdmin env u w) := .ite (h.freshenIdentified env.now u) h

theorem syntaxError (h : CacheOnly w₀ w) (env : Env) (u : User) :
    CacheOnly w₀ (syntaxError env u w) :=
  ((h.noticeLang env.now u).noticeLang env.now u).noticeLang env.now u

theorem checkMemos (h : CacheOnly w₀ w) (env : Env) (u : User) :
    CacheOnly w₀ (checkMemos env u w) :=
  .ite ((h.freshenStatus env.now u.realId).lookups env.now env.reads) h

end CacheOnly

/-! ### What leaves the registry as it is -/

/-- The registry is the same, and a dead process does not come alive. -/
structure Quiet (w w' : World) : Prop where
  registry : w'.registry = w.registry
  alive : w'.alive = true → w.alive = true

theorem CacheOnly.quiet {w w' : World} (h : CacheOnly w w') : Quiet w w' :=
  ⟨(congrArg World.registry h.same :), h.alive⟩

namespace Quiet

variable {w₀ w : World}

theorem refl (w : World) : Quiet w w := ⟨rfl, id⟩

theorem trans {w₁ w₂ w₃ : World} (h₁ : Quiet w₁ w₂) (h₂ : Quiet w₂ w₃) : Quiet w₁ w₃ :=
  ⟨h₂.registry.trans h₁.registry, fun h ↦ h₁.alive (h₂.alive h)⟩

theorem act {f : World → World} (h : Quiet w₀ w) (hf : w.alive = true → Quiet w (f w)) :
    Quiet w₀ (w.act f) :=
  World.act_cases h fun halive ↦ h.trans (hf halive)

theorem ite {c : Prop} [Decidable c] {w₁ w₂ : World} (h₁ : Quiet w w₁) (h₂ : Quiet w w₂) :
    Quiet w (if c then w₁ else w₂) := by
  split_ifs
  · exact h₁
  · exact h₂

theorem die (h : Quiet w₀ w) : Quiet w₀ w.die := ⟨h.registry, fun h ↦ by cases h⟩

theorem nickcacheUpdate (h : Quiet w₀ w) (now nickId : ℕ) :
    Quiet w₀ (nickcacheUpdate now nickId w) :=
  h.trans ((CacheOnly.refl w).nickcacheUpdate now nickId).quiet

theorem freshenStatus (h : Quiet w₀ w) (now nickId : ℕ) :
    Quiet w₀ (freshenStatus now nickId w) := h.trans ((CacheOnly.refl w).freshenStatus now nickId).quiet

theorem freshenLanguage (h : Quiet w₀ w) (now nickId : ℕ) :
    Quiet w₀ (freshenLanguage now nickId w) :=
  h.trans ((CacheOnly.refl w).freshenLanguage now nickId).quiet

theorem nickcacheSetLanguage (h : Quiet w₀ w) (now nickId language : ℕ) :
    Quiet w₀ (nickcacheSetLanguage now nickId language w) :=
  h.trans ((CacheOnly.refl w).nickcacheWrite _ now nickId).quiet

theorem nickcacheChangeStatus (h : Quiet w₀ w) (f : BitVec 32 → BitVec 32) (now nickId : ℕ) :
    Quiet w₀ (nickcacheChangeStatus f now nickId w) :=
  h.trans ((CacheOnly.refl w).nickcacheWrite _ now nickId).quiet

/-- An UPDATE of other columns than name and link. -/
theorem updateNick (h : Quiet w₀ w) {f : NickRow → NickRow} (nickId : ℕ)
    (hf : ∀ r, nickEntry (f r) = nickEntry r) : Quiet w₀ (updateNick f nickId w) := by
  refine h.act fun _ ↦ ⟨?_, id⟩
  have hnicks : (w.db.nick.map fun r ↦ if r.nickId = nickId then f r else r).map nickEntry =
      w.db.nick.map nickEntry := by
    rw [List.map_map]
    refine List.map_congr_left fun r _ ↦ ?_
    rw [Function.comp_apply]
    split_ifs
    · exact hf r
    · rfl
  simp only [World.registry, hnicks]

theorem updateColumns (h : Quiet w₀ w) (f : NickColumns → NickColumns) (nickId : ℕ) :
    Quiet w₀ (updateColumns f nickId w) := h.act fun _ ↦ ⟨rfl, id⟩

theorem updateStatus (h : Quiet w₀ w) (f : BitVec 32 → BitVec 32) (nickId : ℕ) :
    Quiet w₀ (updateStatus f nickId w) := h.updateNick nickId fun _ ↦ rfl

theorem changeNickStatus (h : Quiet w₀ w) (f : BitVec 32 → BitVec 32) (now nickId : ℕ) :
    Quiet w₀ (changeNickStatus f now nickId w) :=
  (h.updateStatus f nickId).nickcacheChangeStatus f now nickId

theorem modifyUser (h : Quiet w₀ w) {f : User → User} (uid : ℕ)
    (hf : ∀ u, (f u).ids = u.ids) : Quiet w₀ (modifyUser f uid w) := by
  refine h.act fun _ ↦ ⟨?_, id⟩
  have husers : (w.users.map fun u ↦ if u.uid = uid then f u else u).map User.ids =
      w.users.map User.ids := by
    rw [List.map_map]
    refine List.map_congr_left fun u _ ↦ ?_
    rw [Function.comp_apply]
    split_ifs
    · exact hf u
    · rfl
  simp only [World.registry, husers]

theorem addNsTimeout (h : Quiet w₀ w) (nickId : ℕ) (type : TimeoutType) (delay now : ℕ) :
    Quiet w₀ (addNsTimeout nickId type delay now w) := h.act fun _ ↦ ⟨rfl, id⟩

theorem delNsTimeout (h : Quiet w₀ w) (nickId : ℕ) (type : TimeoutType) :
    Quiet w₀ (delNsTimeout nickId type w) := h.act fun _ ↦ ⟨rfl, id⟩

theorem fireNsTimeout (h : Quiet w₀ w) (t : NsTimeout) : Quiet w₀ (fireNsTimeout t w) :=
  h.act fun _ ↦ ⟨rfl, id⟩

/-- The suspensions that have expired are deleted one by one. -/
theorem expireNicksuspends (h : Quiet w₀ w) (expired : ℕ → Bool) :
    Quiet w₀ (expireNicksuspends expired w) := by
  refine List.foldlRecOn _ _ (motive := Quiet w₀) h fun w hw r _ ↦ ?_
  refine Quiet.act (hw.updateNick r.nickId fun _ ↦ rfl) fun _ ↦ ⟨?_, id⟩
  simp only [World.registry, nick_delNicksuspend]

theorem noticeLang (h : Quiet w₀ w) (now : ℕ) (u : User) : Quiet w₀ (noticeLang now u w) :=
  h.trans ((CacheOnly.refl w).noticeLang now u).quiet

theorem lookups (h : Quiet w₀ w) (now : ℕ) (l : List Lookup) : Quiet w₀ (lookups now l w) :=
  h.trans ((CacheOnly.refl w).lookups now l).quiet

theorem freshenIdentified (h : Quiet w₀ w) (now : ℕ) (u : User) :
    Quiet w₀ (freshenIdentified now u w) :=
  h.trans ((CacheOnly.refl w).freshenIdentified now u).quiet

theorem freshenAdmin (h : Quiet w₀ w) (env : Env) (u : User) :
    Quiet w₀ (freshenAdmin env u w) := h.trans ((CacheOnly.refl w).freshenAdmin env u).quiet

theorem syntaxError (h : Quiet w₀ w) (env : Env) (u : User) : Quiet w₀ (syntaxError env u w) :=
  h.trans ((CacheOnly.refl w).syntaxError env u).quiet

theorem insertMemoinfo (h : Quiet w₀ w) (owner : CString) (max : ℤ) :
    Quiet w₀ (insertMemoinfo owner max w) := h.act fun _ ↦ .ite (refl w).die ⟨rfl, id⟩

theorem insertNickaccess (h : Quiet w₀ w) (nickId idx : ℕ) (userhost : CString) :
    Quiet w₀ (insertNickaccess nickId idx userhost w) :=
  h.act fun _ ↦ .ite (refl w).die ⟨rfl, id⟩

theorem mysqlUpdateLastSeen (h : Quiet w₀ w) (u : User) (status : BitVec 32) :
    Quiet w₀ (mysqlUpdateLastSeen u status w) := by
  rw [NickServ.mysqlUpdateLastSeen]
  exact (h.updateStatus _ u.realId).updateColumns _ u.realId

/-! ### User messages -/

theorem checkOnAccess (h : Quiet w₀ w) (env : Env) (u : User) : Quiet w₀ (checkOnAccess env u w) :=
  .ite h (.ite ((h.updateStatus _ u.realId).nickcacheChangeStatus _ env.now u.realId) h)

theorem validateAccess (h : Quiet w₀ w) (env : Env) (flags : BitVec 32) (u : User) :
    Quiet w₀ (validateAccess env flags u w).2 := by
  have honAccess : Quiet w₀ (if isOnAccess w u u.nickId then
      addNickStatus NS_ON_ACCESS env.now u.realId w else w) :=
    .ite (h.changeNickStatus _ env.now u.realId) h
  rw [NickServ.validateAccess]
  dsimp only
  generalize (if isOnAccess w u u.nickId then
    addNickStatus NS_ON_ACCESS env.now u.realId w else w) = w₁ at honAccess ⊢
  split
  · dsimp only
    exact ((honAccess.updateStatus _ _).updateColumns _ _).nickcacheChangeStatus _ _ _
  · split
    · exact ((honAccess.noticeLang _ _).noticeLang _ _).addNsTimeout _ _ _ _
    · exact honAccess.noticeLang _ _

theorem validateUser (h : Quiet w₀ w) (conf : Config) (env : Env) (u : User) :
    Quiet w₀ (validateUser conf env u w).2 := by
  rw [NickServ.validateUser]
  dsimp only
  split
  · exact h
  · split
    · exact ((h.noticeLang _ _).noticeLang _ _).addNsTimeout _ _ _ _
    · split
      · exact (((h.changeNickStatus _ _ _).updateStatus _ _).nickcacheChangeStatus _ _ _).lookups _ _
      · exact (h.changeNickStatus _ _ _).validateAccess _ _ _

theorem cancelUser (h : Quiet w₀ w) (conf : Config) (env : Env) (u : User) :
    Quiet w₀ (cancelUser conf env u w) := by
  refine .ite (delNsTimeout (.ite ?_ ?_) u.realId .collide) h
  · exact ((h.updateStatus _ _).addNsTimeout _ _ _ _).changeNickStatus _ _ _
  · exact h.changeNickStatus _ _ _

theorem checkMemos (h : Quiet w₀ w) (env : Env) (u : User) : Quiet w₀ (checkMemos env u w) :=
  h.trans ((CacheOnly.refl w).checkMemos env u).quiet

theorem settleUser (h : Quiet w₀ w) (conf : Config) (env : Env) (u : User) (niChanged : Bool) :
    Quiet w₀ (settleUser conf env u niChanged w) := by
  have hvalidate : Quiet w₀ (if niChanged then
      (if (NickServ.validateUser conf env u w).1 then
        NickServ.checkMemos env u (NickServ.validateUser conf env u w).2
      else (NickServ.validateUser conf env u w).2)
      else NickServ.checkOnAccess env u w) :=
    .ite (.ite ((h.validateUser conf env u).checkMemos env u) (h.validateUser conf env u))
      (h.checkOnAccess env u)
  exact .ite ((hvalidate.freshenIdentified env.now u).mysqlUpdateLastSeen u 0#32)
    (hvalidate.freshenIdentified env.now u)

theorem umodeLetter (h : Quiet w₀ w) (env : Env) (u : User) (add : Bool) (c : Char) :
    Quiet w₀ (umodeLetter env u add c w) := by
  have hupdate := (h.mysqlUpdateLastSeen u NS_IDENTIFIED).act
    (f := NickServ.nickcacheUpdate env.now u.realId) fun _ ↦ (refl _).nickcacheUpdate env.now u.realId
  have hread := hupdate.act (f := fun w ↦
    { w with alive := (getNickFromId w.db u.realId).isSome }) fun halive ↦ ⟨rfl, fun _ ↦ halive⟩
  have hoper : Quiet w₀ (NickServ.modifyUser (fun u ↦ { u with oper := add }) u.uid w) :=
    h.modifyUser u.uid fun _ ↦ rfl
  refine .ite (.ite ?_ h) (.ite (.ite (hoper.lookups env.now env.reads) hoper) h)
  have hnotice {w₁ : World} (h₁ : Quiet w₀ w₁) : Quiet w₀ (NickServ.freshenStatus env.now u.realId
      (if (w₁.columns u.realId).email.length ≤ 1 then NickServ.noticeLang env.now u w₁ else w₁)) :=
    freshenStatus (.ite (h₁.noticeLang env.now u) h₁) env.now u.realId
  exact .ite ((hnotice hread).checkMemos env u) (hnotice hread)

theorem umodeLoop (h : Quiet w₀ w) (env : Env) (u : User) (add : Bool) (modes : CString) :
    Quiet w₀ (umodeLoop env u add modes w) := by
  induction modes generalizing add w with
  | nil => exact h
  | cons c modes ih => exact .ite (ih h true) (.ite (ih h false) (ih (h.umodeLetter env u add c) add))

theorem doUmode (h : Quiet w₀ w) (env : Env) (source nick modes : CString) :
    Quiet w₀ (doUmode env source nick modes w) := by
  refine .ite h ?_
  cases finduser w source with
  | none => exact h
  | some u => exact h.umodeLoop env u true modes

theorem collide (h : Quiet w₀ w) (env : Env) (nickId : ℕ) (u : User) :
    Quiet w₀ (collide env nickId u w) :=
  (h.noticeLang env.now u).changeNickStatus _ env.now nickId

theorem release (h : Quiet w₀ w) (env : Env) (nickId : ℕ) : Quiet w₀ (release env nickId w) :=
  h.changeNickStatus _ env.now nickId

theorem timeoutCollide (h : Quiet w₀ w) (env : Env) (t : NsTimeout) :
    Quiet w₀ (timeoutCollide env t w) := by
  have hfire := (h.fireNsTimeout t).freshenStatus env.now t.nickId
  rw [NickServ.timeoutCollide]
  generalize NickServ.freshenStatus env.now t.nickId (NickServ.fireNsTimeout t w) = w₁ at hfire ⊢
  refine .ite hfire ?_
  cases getNickFromId w₁.db t.nickId with
  | none => exact hfire.act fun _ ↦ (refl w₁).die
  | some nick =>
    dsimp only
    cases finduser w₁ nick with
    | none => exact hfire
    | some u => exact .ite hfire (hfire.collide env t.nickId u)

theorem doTimeout (h : Quiet w₀ w) (env : Env) (t : NsTimeout) : Quiet w₀ (doTimeout env t w) := by
  refine .ite ?_ h
  cases t.type with
  | collide => exact h.timeoutCollide env t
  | release => exact (h.fireNsTimeout t).release env t.nickId

end Quiet

/-! ### What only makes users leave -/

/-- The nicks and the codes are the same, and no user is new or has other ids. -/
structure Calm (w w' : World) : Prop where
  nicks : w'.registry.nicks = w.registry.nicks
  nextNickId : w'.nextNickId = w.nextNickId
  users : w'.registry.users.Sublist w.registry.users
  nextUid : w'.nextUid = w.nextUid
  auth : w'.auth = w.auth
  nextAuthId : w'.nextAuthId = w.nextAuthId
  alive : w'.alive = true → w.alive = true

theorem Quiet.calm {w w' : World} (h : Quiet w w') : Calm w w' where
  nicks := congrArg Registry.nicks h.registry
  nextNickId := congrArg Registry.nextNickId h.registry
  users := congrArg Registry.users h.registry ▸ List.Sublist.refl _
  nextUid := congrArg Registry.nextUid h.registry
  auth := congrArg Registry.auth h.registry
  nextAuthId := congrArg Registry.nextAuthId h.registry
  alive := h.alive

namespace Calm

variable {w₀ w : World}

theorem refl (w : World) : Calm w w := (Quiet.refl w).calm

theorem trans {w₁ w₂ w₃ : World} (h₁ : Calm w₁ w₂) (h₂ : Calm w₂ w₃) : Calm w₁ w₃ where
  nicks := h₂.nicks.trans h₁.nicks
  nextNickId := h₂.nextNickId.trans h₁.nextNickId
  users := h₂.users.trans h₁.users
  nextUid := h₂.nextUid.trans h₁.nextUid
  auth := h₂.auth.trans h₁.auth
  nextAuthId := h₂.nextAuthId.trans h₁.nextAuthId
  alive h := h₁.alive (h₂.alive h)

theorem quiet {w₁ : World} (h : Calm w₀ w) (hq : Quiet w w₁) : Calm w₀ w₁ := h.trans hq.calm

theorem ite {c : Prop} [Decidable c] {w₁ w₂ : World} (h₁ : Calm w w₁) (h₂ : Calm w w₂) :
    Calm w (if c then w₁ else w₂) := by
  split_ifs
  · exact h₁
  · exact h₂

theorem deleteUser (h : Calm w₀ w) (conf : Config) (env : Env) (u : User) :
    Calm w₀ (deleteUser conf env u w) := by
  have hcancel := ((Quiet.refl w).cancelUser conf env u).calm
  refine h.trans ?_
  rw [NickServ.deleteUser]
  generalize NickServ.cancelUser conf env u w = w₁ at hcancel ⊢
  refine World.act_cases hcancel fun _ ↦ hcancel.trans ?_
  exact ⟨rfl, rfl, List.filter_sublist.map _, rfl, rfl, rfl, id⟩

theorem doQuit (h : Calm w₀ w) (conf : Config) (env : Env) (nick : CString) :
    Calm w₀ (doQuit conf env nick w) := by
  rw [NickServ.doQuit]
  cases finduser w nick with
  | none => exact h
  | some u => exact h.deleteUser conf env u

theorem badPassword (h : Calm w₀ w) (conf : Config) (env : Env) (u : User) :
    Calm w₀ (badPassword conf env u w) := .ite (h.doQuit conf env u.nick) h

theorem noticeLang (h : Calm w₀ w) (now : ℕ) (u : User) : Calm w₀ (noticeLang now u w) :=
  h.quiet ((Quiet.refl w).noticeLang now u)

/-! ### Commands that leave the directory of nicks as it is -/

theorem doIdentify (h : Calm w₀ w) (conf : Config) (env : Env) (u : User)
    (pass : Option CString) : Calm w₀ (doIdentify conf env u pass w) := by
  have hw := Quiet.refl w
  refine .ite (h.quiet (hw.syntaxError env u)) (.ite h (.ite (h.noticeLang env.now u)
    (.ite ((h.noticeLang env.now u).badPassword conf env u) ?_)))
  have hupdate := (hw.mysqlUpdateLastSeen u NS_IDENTIFIED).act (f := nickcacheUpdate env.now u.realId)
    fun _ ↦ (Quiet.refl _).nickcacheUpdate env.now u.realId
  have hstatus := (hupdate.noticeLang env.now u).freshenStatus env.now u.realId
  exact h.quiet (.ite (hstatus.checkMemos env u) hstatus)

theorem doSuspend (h : Calm w₀ w) (conf : Config) (env : Env) (u : User)
    (nick reason : Option CString) : Calm w₀ (doSuspend conf env u nick reason w) := by
  have hadmin := (Quiet.refl w).freshenAdmin env u
  refine h.quiet ?_
  unfold NickServ.doSuspend
  dsimp only
  generalize freshenAdmin env u w = w₁ at hadmin ⊢
  refine .ite (hadmin.noticeLang env.now u) ?_
  split
  · split
    · exact hadmin.noticeLang env.now u
    · refine .ite (hadmin.noticeLang env.now u) (.ite (hadmin.noticeLang env.now u) ?_)
      refine Quiet.noticeLang (Quiet.act (hadmin.updateNick _ ?_) fun _ ↦ ?_) env.now u
      · exact fun _ ↦ rfl
      · exact .ite ⟨rfl, fun h ↦ by cases h⟩ ⟨rfl, id⟩
  · exact hadmin.syntaxError env u

theorem doUnsuspend (h : Calm w₀ w) (conf : Config) (env : Env) (u : User)
    (nick : Option CString) : Calm w₀ (doUnsuspend conf env u nick w) := by
  have hadmin := (Quiet.refl w).freshenAdmin env u
  refine h.quiet ?_
  unfold NickServ.doUnsuspend
  dsimp only
  generalize freshenAdmin env u w = w₁ at hadmin ⊢
  refine .ite (hadmin.noticeLang env.now u) ?_
  cases nick with
  | none => exact hadmin.syntaxError env u
  | some nick =>
    have hstatus := hadmin.freshenStatus env.now (mysqlFindnick w₁.db nick)
    dsimp only
    refine .ite (hadmin.noticeLang env.now u) (.ite (hstatus.noticeLang env.now u)
      (.ite (hstatus.noticeLang env.now u) ?_))
    refine Quiet.noticeLang (Quiet.updateNick (hstatus.act fun _ ↦ ?_) _ ?_) env.now u
    · split
      · refine ⟨?_, id⟩
        simp only [World.registry, nick_delNicksuspend]
      · exact .refl _
    · exact fun _ ↦ rfl

theorem setOption (h : Calm w₀ w) (conf : Config) (env : Env) (u : User) (nickId : ℕ)
    (opt : SetOption) : Calm w₀ (setOption conf env u nickId opt w) := by
  have hw := Quiet.refl w
  refine h.quiet ?_
  cases opt with
  | language language =>
    refine Quiet.noticeLang (Quiet.nickcacheSetLanguage (hw.act fun _ ↦ ?_) _ _ _) env.now u
    exact .ite (hw.updateColumns _ nickId) hw
  | noexpire on =>
    have hadmin := hw.freshenAdmin env u
    exact .ite (hadmin.noticeLang env.now u)
      (.ite ((hadmin.changeNickStatus _ env.now nickId).noticeLang env.now u)
        ((hadmin.changeNickStatus _ env.now nickId).noticeLang env.now u))

theorem doSet (h : Calm w₀ w) (conf : Config) (env : Env) (u : User) (nick : Option CString)
    (opt : SetOption) : Calm w₀ (doSet conf env u nick opt w) := by
  have hadmin := (Quiet.refl w).freshenAdmin env u
  refine h.trans ?_
  rw [NickServ.doSet]
  dsimp only
  generalize isServicesAdmin conf env u w = isServadmin
  generalize freshenAdmin env u w = w₁ at hadmin ⊢
  generalize (if isServadmin ∧ nick.isSome then mysqlFindnick w₁.db (nick.getD [])
    else u.nickId) = nickId
  have hstatus := hadmin.freshenStatus env.now nickId
  generalize getNickStatus env.now nickId w₁ = status
  generalize freshenStatus env.now nickId w₁ = w₂ at hstatus ⊢
  refine .ite (hadmin.calm.noticeLang env.now u) (.ite (hstatus.calm.noticeLang env.now u) ?_)
  have hidentified : Quiet w (if isServadmin then w₂ else freshenIdentified env.now u w₂) :=
    .ite hstatus (hstatus.freshenIdentified env.now u)
  exact .ite (hidentified.calm.noticeLang env.now u) (hidentified.calm.setOption conf env u nickId opt)

theorem denyRecover (h : Calm w₀ w) (conf : Config) (env : Env) (u : User)
    (pass : Option CString) : Calm w₀ (denyRecover conf env u pass w) :=
  .ite ((h.noticeLang env.now u).badPassword conf env u) (h.noticeLang env.now u)

theorem onOtherUser (h : Calm w₀ w) (conf : Config) (env : Env) (u : User)
    (nick pass : Option CString) {act : CString → ℕ → World → World}
    (hact : ∀ nick nickId, Calm w₀ (act nick nickId w)) :
    Calm w₀ (onOtherUser conf env u nick pass act w) := by
  unfold NickServ.onOtherUser
  cases nick with
  | none => exact h.quiet ((Quiet.refl w).syntaxError env u)
  | some nick =>
    dsimp only
    cases finduser w nick with
    | none => exact h.noticeLang env.now u
    | some u₂ =>
      exact .ite (h.noticeLang env.now u) (.ite (h.noticeLang env.now u)
        (.ite ((hact nick u₂.realId).noticeLang env.now u) (h.denyRecover conf env u pass)))

theorem collideNick (h : Calm w₀ w) (env : Env) (nickId : ℕ) :
    Calm w₀ (collideNick env nickId w) := by
  have hdel := (Quiet.refl w).delNsTimeout nickId .collide
  refine h.quiet ?_
  rw [NickServ.collideNick]
  generalize delNsTimeout nickId .collide w = w₁ at hdel ⊢
  split
  · exact hdel.act fun _ ↦ (Quiet.refl w₁).die
  · split
    · exact hdel.collide env nickId _
    · exact hdel.changeNickStatus _ env.now nickId

theorem doRecover (h : Calm w₀ w) (conf : Config) (env : Env) (u : User)
    (nick pass : Option CString) : Calm w₀ (doRecover conf env u nick pass w) :=
  h.onOtherUser conf env u nick pass fun _ nickId ↦ h.collideNick env nickId

theorem doGhost (h : Calm w₀ w) (conf : Config) (env : Env) (u : User)
    (nick pass : Option CString) : Calm w₀ (doGhost conf env u nick pass w) :=
  h.onOtherUser conf env u nick pass fun nick _ ↦ h.doQuit conf env nick

theorem doRelease (h : Calm w₀ w) (conf : Config) (env : Env) (u : User)
    (nick pass : Option CString) : Calm w₀ (doRelease conf env u nick pass w) := by
  unfold NickServ.doRelease
  cases nick with
  | none => exact h.quiet ((Quiet.refl w).syntaxError env u)
  | some nick =>
    have hstatus := h.quiet ((Quiet.refl w).freshenStatus env.now (mysqlFindnick w.db nick))
    dsimp only
    refine .ite (h.noticeLang env.now u) (.ite (hstatus.noticeLang env.now u)
      (.ite ?_ (hstatus.denyRecover conf env u pass)))
    exact (hstatus.quiet (((Quiet.refl _).delNsTimeout _ .release).release env _)).noticeLang env.now u

end Calm

end BlitzedServices.NickServ
