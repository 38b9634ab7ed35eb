import BlitzedServices.NickServ.Statuses
import BlitzedServices.NickServ.OnlineIds

/-!
# What the handlers do to statuses

Each handler of user messages and each command of NickServ, summed up by `Statuses`: whom it may
identify, and when it keeps the cache right. `cancelUser` does not when the nick was taken from its user,
and a nick that is deleted leaves its entry behind.
-/

set_option autoImplicit false
set_option relaxedAutoImplicit false

namespace BlitzedServices.NickServ

open Lib Lib.SqlText Mysql ChanServ

/-- The user of the name, if there is one, leaves no nick that was taken from him. -/
def LeavesFreely (w : World) (nick : CString) : Prop :=
  ∀ v, finduser w nick = some v → guested w v.realId = false

/-- The cache has no entry of the nick. -/
def Uncached (w : World) (nickId : ℕ) : Prop :=
  ∀ nc ∈ w.nickcache, nc.nickId ≠ nickId

theorem uncached_freshenAdmin {w : World} {nickId : ℕ} {u : User} (env : Env)
    (h : Uncached w nickId) (hid : u.realId ≠ nickId) : Uncached (freshenAdmin env u w) nickId := by
  rw [freshenAdmin, freshenIdentified]
  split_ifs
  · refine entry_nickcacheFreshen (p := fun nc ↦ nc.nickId ≠ nickId) _ h fun nc hselect ↦ ?_
    rw [(selectCached_eq_some hselect).1]
    exact hid
  · exact h
  · exact h

theorem CacheOnly.leavesFreely {w w' : World} (h : CacheOnly w w') {nick : CString} :
    LeavesFreely w' nick ↔ LeavesFreely w nick := by
  simp only [LeavesFreely, finduser, guested, h.users, h.db]

theorem CacheOnly.checkNickPassword {w w' : World} (h : CacheOnly w w') (env : Env) (nickId : ℕ) :
    checkNickPassword env w' nickId = checkNickPassword env w nickId := by
  rw [NickServ.checkNickPassword, NickServ.checkNickPassword, h.db]

theorem SameStatuses.mysqlUpdateLastSeen (u : User) (w : World) :
    SameStatuses w (mysqlUpdateLastSeen u 0#32 w) := by
  rw [NickServ.mysqlUpdateLastSeen]
  refine (SameStatuses.updateNothing u.realId w).trans (.updateColumns _ _ ?_)
  exact fun _ ↦ rfl

/-- The stamps do not depend on the statuses. -/
theorem splitRecovered_congr {w w' : World} (u : User)
    (hnick : w'.db.nick.map NickRow.nickId = w.db.nick.map NickRow.nickId)
    (hcolumns : w'.columns = w.columns) : splitRecovered w' u = splitRecovered w u := by
  have hids (w : World) : splitRecovered w u = (w.db.nick.map NickRow.nickId).any fun id ↦
      id = u.realId ∧ (w.columns id).idStamp ≠ 0 ∧ (w.columns id).idStamp = u.servicesStamp ∧
        sameName (w.columns id).lastUsermask u.usermask := by
    rw [List.any_map]
    rfl
  rw [hids, hids, hnick, hcolumns]

/-- Ids and stamps of nicks are the same. -/
structure SameStamps (w w' : World) : Prop where
  nick : w'.db.nick.map NickRow.nickId = w.db.nick.map NickRow.nickId
  columns : w'.columns = w.columns

namespace SameStamps

variable {w₀ w : World}

theorem refl (w : World) : SameStamps w w := ⟨rfl, rfl⟩

theorem trans {w₁ w₂ w₃ : World} (h₁ : SameStamps w₁ w₂) (h₂ : SameStamps w₂ w₃) : SameStamps w₁ w₃ :=
  ⟨h₂.nick.trans h₁.nick, h₂.columns.trans h₁.columns⟩

theorem ite {c : Prop} [Decidable c] {w₁ w₂ : World} (h₁ : SameStamps w w₁)
    (h₂ : SameStamps w w₂) : SameStamps w (if c then w₁ else w₂) := by
  split_ifs
  · exact h₁
  · exact h₂

theorem cacheOnly {w' : World} (h : SameStamps w₀ w) (hc : CacheOnly w w') : SameStamps w₀ w' :=
  h.trans ⟨by rw [hc.db], hc.columns⟩

theorem modifyUser (h : SameStamps w₀ w) (f : User → User) (uid : ℕ) :
    SameStamps w₀ (modifyUser f uid w) :=
  World.act_cases h fun _ ↦ h.trans ⟨rfl, rfl⟩

theorem addUser (h : SameStamps w₀ w) (u : User) : SameStamps w₀ (addUser u w) :=
  World.act_cases h fun _ ↦ h.trans ⟨rfl, rfl⟩

theorem updateStatus (h : SameStamps w₀ w) (f : BitVec 32 → BitVec 32) (nickId : ℕ) :
    SameStamps w₀ (updateStatus f nickId w) := by
  rw [NickServ.updateStatus, updateNick]
  refine World.act_cases h fun _ ↦ h.trans ⟨?_, rfl⟩
  rw [List.map_map]
  refine List.map_congr_left fun r _ ↦ ?_
  rw [Function.comp_apply]
  split_ifs <;> rfl

theorem changeNickStatus (h : SameStamps w₀ w) (f : BitVec 32 → BitVec 32) (now nickId : ℕ) :
    SameStamps w₀ (changeNickStatus f now nickId w) :=
  (h.updateStatus f nickId).cacheOnly ((CacheOnly.refl _).nickcacheWrite _ now nickId)

theorem cancelUser (h : SameStamps w₀ w) (conf : Config) (env : Env) (u : User) :
    SameStamps w₀ (cancelUser conf env u w) := by
  have htimeout (nickId : ℕ) (type : TimeoutType) (delay now : ℕ) {w : World} (h : SameStamps w₀ w) :
      SameStamps w₀ (addNsTimeout nickId type delay now w) :=
    World.act_cases h fun _ ↦ h.trans ⟨rfl, rfl⟩
  refine ite_ind (p := SameStamps w₀) (fun _ ↦ ?_) fun _ ↦ h
  have hstatus : SameStamps w₀ (if guested w u.realId then
      addNickStatus NS_KILL_HELD env.now u.realId (addNsTimeout u.realId .release conf.nsReleaseTimeout
        env.now (NickServ.updateStatus (· &&& ~~~NS_TEMPORARY) u.realId w))
      else removeNickStatus NS_TEMPORARY env.now u.realId w) :=
    ite_ind (p := SameStamps w₀)
      (fun _ ↦ (htimeout _ _ _ _ (h.updateStatus _ _)).changeNickStatus _ _ _)
      fun _ ↦ h.changeNickStatus _ _ _
  exact World.act_cases hstatus fun _ ↦ hstatus.trans ⟨rfl, rfl⟩

theorem splitRecovered_eq (h : SameStamps w₀ w) (u : User) :
    splitRecovered w u = splitRecovered w₀ u := splitRecovered_congr u h.nick h.columns

end SameStamps

theorem users_linkNick (nickId targetId : ℕ) (w : World) : (linkNick nickId targetId w).users = w.users := by
  have hact {f : World → World} {w₁ : World} (h : w₁.users = w.users)
      (hf : (f w₁).users = w₁.users) : (w₁.act f).users = w.users :=
    World.act_cases (p := fun w' ↦ w'.users = w.users) h fun _ ↦ hf.trans h
  unfold linkNick
  refine hact (hact (hact rfl rfl) rfl) ?_
  split
  · rfl
  · rfl

/-- The record of a user who takes a nick. -/
def renamed (w : World) (nick : CString) (u : User) : User :=
  { u with nick := strscpy nick NICKMAX, realId := (nickIds w.db nick).1, nickId := (nickIds w.db nick).2 }

/-- The letters of a user MODE report +R. -/
def reportsR : Bool → CString → Bool
  | _, [] => false
  | add, c :: modes =>
    if c = '+' then reportsR true modes
    else if c = '-' then reportsR false modes
    else (add && c = 'R') || reportsR add modes

/-- The command gets as far as the password, and the password is wrong. -/
def Denied (conf : Config) (env : Env) (u : User) (w : World) : Command → Prop
  | .identify pass => pass.isSome = true ∧ u.realId ≠ 0 ∧
      getNickFlags w u.realId &&& NI_SUSPENDED = 0#32 ∧ checkNickPassword env w u.realId = false
  | .link (some nick) (some _) => conf.nsDisableLinkCommand = false ∧
      nickIdentified env.now u w = true ∧ mysqlFindnick w.db nick ≠ 0 ∧
      mysqlFindnick w.db nick ≠ u.realId ∧ nickHasLinks w u.nickId = 0 ∧
      mysqlGetlink w.db (mysqlFindnick w.db nick) = mysqlFindnick w.db nick ∧
      checkNickPassword env w (mysqlFindnick w.db nick) = false
  | .unlink (some nick) pass => ∃ ni, mysqlFindnickinfo w.db nick = some ni ∧ ni.linkId ≠ 0 ∧
      isServicesAdmin conf env u w = false ∧ pass.isSome = true ∧
      checkNickPassword env w ni.nickId = false
  | .recover (some nick) pass => ∃ v, finduser w nick = some v ∧ v.realId ≠ 0 ∧
      sameName nick u.nick = false ∧ pass.isSome = true ∧ checkNickPassword env w v.realId = false
  | .ghost (some nick) pass => ∃ v, finduser w nick = some v ∧ v.realId ≠ 0 ∧
      sameName nick u.nick = false ∧ pass.isSome = true ∧ checkNickPassword env w v.realId = false
  | .release (some nick) pass => mysqlFindnick w.db nick ≠ 0 ∧
      getNickStatus env.now (mysqlFindnick w.db nick) w &&& NS_KILL_HELD ≠ 0#32 ∧
      pass.isSome = true ∧ checkNickPassword env w (mysqlFindnick w.db nick) = false
  | _ => False

namespace Statuses

variable {P : ℕ → Prop} {C : Prop} {w₀ w : World}

/-! ### User messages -/

theorem checkOnAccess (h : Statuses P C w₀ w) (env : Env) (u : User) :
    Statuses P C w₀ (checkOnAccess env u w) :=
  .ite h (.ite (h.change (plain_add (by decide)) env.now u.realId) h)

theorem validateAccess (h : Statuses P C w₀ w) (env : Env) (flags : BitVec 32) (u : User) :
    Statuses P C w₀ (validateAccess env flags u w).2 := by
  have honAccess : Statuses P C w₀ (if isOnAccess w u u.nickId then
      addNickStatus NS_ON_ACCESS env.now u.realId w else w) :=
    .ite (h.change (plain_add (by decide)) env.now u.realId) h
  have hplain : Plain (· ||| NS_RECOGNIZED) := plain_add (by decide)
  rw [NickServ.validateAccess]
  dsimp only
  generalize (if isOnAccess w u u.nickId then
    addNickStatus NS_ON_ACCESS env.now u.realId w else w) = w₁ at honAccess ⊢
  split
  · refine honAccess.writeWith hplain.idem (fun s hs ↦ .inl (hplain.identified s hs))
      (.updateColumns _ _ ?_) env.now
    exact fun _ ↦ rfl
  · split
    · exact ((honAccess.noticeLang _ _).noticeLang _ _).same (.addNsTimeout _ _ _ _ _)
    · exact honAccess.noticeLang _ _

theorem validateUser (h : Statuses P C w₀ w) (conf : Config) (env : Env) (u : User)
    (hP : splitRecovered w u = true → P u.realId) :
    Statuses P C w₀ (validateUser conf env u w).2 := by
  have hremove := h.change (plain_remove NS_TEMPORARY) env.now u.realId
  have hstamps := (SameStamps.refl w).changeNickStatus (· &&& ~~~NS_TEMPORARY) env.now u.realId
  rw [NickServ.validateUser]
  dsimp only
  split
  · exact h
  · split
    · exact ((h.noticeLang _ _).noticeLang _ _).same (.addNsTimeout _ _ _ _ _)
    · split
      · next hsplit =>
        rw [removeNickStatus, hstamps.splitRecovered_eq] at hsplit
        exact (hremove.mark (hP hsplit.2) env.now).lookups _ _
      · exact hremove.validateAccess _ _ _

theorem cancelUser (h : Statuses P C w₀ w) (conf : Config) (env : Env) (u : User)
    (hC : C → guested w u.realId = false) : Statuses P C w₀ (cancelUser conf env u w) := by
  refine .ite (Statuses.same ?_ (.delNsTimeout _ _ _)) h
  refine ite_ind (p := Statuses P C w₀) (fun hguested ↦ ?_)
    fun _ ↦ h.change (plain_remove NS_TEMPORARY) env.now u.realId
  refine ((h.clear (fun hyes ↦ ?_) (plain_remove NS_TEMPORARY) u.realId).same
    (.addNsTimeout _ _ _ _ _)).change (plain_add (by decide)) env.now u.realId
  rw [hC hyes] at hguested
  cases hguested

theorem settleUser (h : Statuses P C w₀ w) (conf : Config) (env : Env) (u : User) (niChanged : Bool)
    (hP : niChanged = true → splitRecovered w u = true → P u.realId) :
    Statuses P C w₀ (settleUser conf env u niChanged w) := by
  have hvalidate : Statuses P C w₀ (if niChanged then
      (if (NickServ.validateUser conf env u w).1 then
        NickServ.checkMemos env u (NickServ.validateUser conf env u w).2
      else (NickServ.validateUser conf env u w).2)
      else NickServ.checkOnAccess env u w) := by
    refine ite_ind (p := Statuses P C w₀) (fun hchanged ↦ ?_) fun _ ↦ h.checkOnAccess env u
    have hvalid := h.validateUser conf env u (hP hchanged)
    exact .ite (hvalid.checkMemos env u) hvalid
  have hidentified := hvalidate.freshenIdentified env.now u
  exact .ite (hidentified.same (.mysqlUpdateLastSeen u _)) hidentified

theorem doNickNew (conf : Config) (env : Env) (nick username host : CString)
    (hP : splitRecovered w (newUser env.now nick username host w) = true →
      P (newUser env.now nick username host w).realId) :
    Statuses P C w (doNickNew conf env nick username host w) := by
  have hadd := (refl (P := P) (C := C) w).same
    (.addUser (newUser env.now nick username host w) w)
  have hstamps := ((SameStamps.refl w).addUser (newUser env.now nick username host w)).cacheOnly
    ((CacheOnly.refl _).lookups env.now env.reads)
  refine (hadd.lookups env.now env.reads).settleUser conf env _ true fun _ hsplit ↦ hP ?_
  rwa [hstamps.splitRecovered_eq] at hsplit

theorem doNickChange {conf : Config} {env : Env} {source nick : CString} {u : User}
    (huser : finduser w source = some u) (hC : C → guested w u.realId = false)
    (hcopy : sameName nick source = true → (nickIds w.db nick).1 ≠ 0 →
      getNickStatus env.now u.nickId (NickServ.cancelUser conf env u w) &&& NS_IDENTIFIED ≠ 0#32 →
        P (nickIds w.db nick).1)
    (hP : sameName nick source = false → splitRecovered w (renamed w nick u) = true →
      P (nickIds w.db nick).1) :
    Statuses P C w (doNickChange conf env source nick w) := by
  rw [NickServ.doNickChange, huser]
  dsimp only
  have hsame : Quiet w (NickServ.cancelUser conf env u (if !sameName nick source then
      modifyUser (fun u ↦ { u with mySignon := env.now }) u.uid w else w)) := by
    refine Quiet.cancelUser (.ite ((Quiet.refl w).modifyUser u.uid ?_) (.refl w)) conf env u
    exact fun _ ↦ rfl
  have hids := nickIds_congr (congrArg Registry.nicks hsame.registry) nick
  have hstamps : SameStamps w (NickServ.cancelUser conf env u (if !sameName nick source then
      modifyUser (fun u ↦ { u with mySignon := env.now }) u.uid w else w)) :=
    SameStamps.cancelUser (.ite ((SameStamps.refl w).modifyUser _ _) (.refl w)) conf env u
  have hcancel : Statuses P C w (NickServ.cancelUser conf env u (if !sameName nick source then
      modifyUser (fun u ↦ { u with mySignon := env.now }) u.uid w else w)) := by
    refine Statuses.cancelUser (.ite ((refl w).same (.modifyUser _ _ _)) (refl w)) conf env u
      fun hyes ↦ ?_
    rw [guested, apply_ite World.db, db_modifyUser, ite_self]
    exact hC hyes
  have hold : (!sameName nick source) = false →
      NickServ.cancelUser conf env u (if !sameName nick source then
        modifyUser (fun u ↦ { u with mySignon := env.now }) u.uid w else w) =
      NickServ.cancelUser conf env u w := by
    intro hunchanged
    rw [hunchanged]
    rfl
  generalize NickServ.cancelUser conf env u (if !sameName nick source then
    modifyUser (fun u ↦ { u with mySignon := env.now }) u.uid w else w) = w₁
    at hsame hids hstamps hcancel hold ⊢
  rw [changeUserNick, hids]
  have hset : Statuses P C w (if (nickIds w.db nick).1 ≠ 0 ∧ ¬ (!sameName nick source) = true then
      setNickStatus (getNickStatus env.now u.nickId w₁) env.now (nickIds w.db nick).1
        (NickServ.freshenStatus env.now u.nickId w₁) else w₁) := by
    refine ite_ind (p := Statuses P C w) (fun hcase ↦ ?_) fun _ ↦ hcancel
    refine (hcancel.freshenStatus env.now u.nickId).set (fun hmark ↦ ?_) env.now
    have hunchanged := Bool.not_eq_true _ ▸ hcase.2
    rw [hold hunchanged] at hmark
    exact hcopy (by simpa using hunchanged) hcase.1 hmark
  have hstamps' : SameStamps w (if (nickIds w.db nick).1 ≠ 0 ∧ ¬ (!sameName nick source) = true then
      setNickStatus (getNickStatus env.now u.nickId w₁) env.now (nickIds w.db nick).1
        (NickServ.freshenStatus env.now u.nickId w₁) else w₁) :=
    ite_ind (p := SameStamps w) (fun _ ↦ (hstamps.cacheOnly
      ((CacheOnly.refl w₁).freshenStatus env.now u.nickId)).changeNickStatus _ _ _) fun _ ↦ hstamps
  refine (hset.same (.modifyUser _ _ _)).settleUser conf env _ _ fun hchanged hsplit ↦ ?_
  rw [(hstamps'.modifyUser _ _).splitRecovered_eq] at hsplit
  exact hP (by simpa using hchanged) hsplit

/-! ### Users who leave -/

theorem deleteUser (h : Statuses P C w₀ w) (conf : Config) (env : Env) (u : User)
    (hC : C → guested w u.realId = false) : Statuses P C w₀ (deleteUser conf env u w) := by
  rw [NickServ.deleteUser]
  refine (h.cancelUser conf env u hC).same (.act fun _ ↦ ?_)
  exact ⟨rfl, rfl, fun _ ↦ rfl, rfl, id⟩

theorem doQuit (h : Statuses P C w₀ w) (conf : Config) (env : Env) (nick : CString)
    (hC : C → LeavesFreely w nick) : Statuses P C w₀ (doQuit conf env nick w) := by
  rw [NickServ.doQuit]
  cases huser : finduser w nick with
  | none => exact h
  | some u => exact h.deleteUser conf env u fun hyes ↦ hC hyes u huser

theorem badPassword (h : Statuses P C w₀ w) (conf : Config) (env : Env) (u : User)
    (hC : C → env.badPassKill = true → LeavesFreely w u.nick) :
    Statuses P C w₀ (badPassword conf env u w) :=
  ite_ind (p := Statuses P C w₀) (fun hkill ↦ h.doQuit conf env u.nick fun hyes ↦ hC hyes hkill)
    fun _ ↦ h

/-! ### Modes and timeouts -/

theorem umodeLetter (h : Statuses P C w₀ w) (env : Env) (u : User) (add : Bool) (c : Char)
    (hP : add = true → c = 'R' → u.realId ≠ 0 → P u.realId) :
    Statuses P C w₀ (umodeLetter env u add c w) := by
  refine ite_ind (p := Statuses P C w₀) (fun hR ↦ ite_ind (p := Statuses P C w₀) (fun hadd ↦ ?_)
    fun _ ↦ h) fun _ ↦ ite_ind (p := Statuses P C w₀) (fun _ ↦ ?_) fun _ ↦ h
  · have hidentify := h.identify u (hP hadd.1 hR hadd.2) env.now
    have hread := hidentify.same (.act (f := fun w ↦
      { w with alive := (getNickFromId w.db u.realId).isSome })
      fun halive ↦ ⟨rfl, rfl, fun _ ↦ rfl, rfl, fun _ ↦ halive⟩)
    have hnotice {w₁ : World} (h₁ : Statuses P C w₀ w₁) : Statuses P C w₀
        (NickServ.freshenStatus env.now u.realId (if (w₁.columns u.realId).email.length ≤ 1 then
          NickServ.noticeLang env.now u w₁ else w₁)) :=
      freshenStatus (.ite (h₁.noticeLang env.now u) h₁) env.now u.realId
    exact .ite ((hnotice hread).checkMemos env u) (hnotice hread)
  · have hoper := h.same (.modifyUser (fun u ↦ { u with oper := add }) u.uid w)
    exact .ite (hoper.lookups env.now env.reads) hoper

theorem umodeLoop (h : Statuses P C w₀ w) (env : Env) (u : User) (add : Bool) (modes : CString)
    (hP : reportsR add modes = true → u.realId ≠ 0 → P u.realId) :
    Statuses P C w₀ (umodeLoop env u add modes w) := by
  induction modes generalizing add w with
  | nil => exact h
  | cons c modes ih =>
    rw [reportsR] at hP
    rw [NickServ.umodeLoop]
    split_ifs at hP ⊢ with hplus hminus
    · exact ih h true hP
    · exact ih h false hP
    · refine ih (h.umodeLetter env u add c fun hadd hR ↦ hP ?_) add fun hR ↦ hP ?_
      · simp [hadd, hR]
      · rw [hR, Bool.or_true]

theorem doUmode (h : Statuses P C w₀ w) (env : Env) (source nick modes : CString)
    (hP : ∀ u, sameName source nick = true → finduser w source = some u →
      reportsR true modes = true → u.realId ≠ 0 → P u.realId) :
    Statuses P C w₀ (doUmode env source nick modes w) := by
  refine ite_ind (p := Statuses P C w₀) (fun _ ↦ h) fun hself ↦ ?_
  cases huser : finduser w source with
  | none => exact h
  | some u => exact h.umodeLoop env u true modes (hP u (not_not.mp hself) huser)

theorem collide (h : Statuses P C w₀ w) (env : Env) (nickId : ℕ) (u : User) :
    Statuses P C w₀ (collide env nickId u w) :=
  (h.noticeLang env.now u).change (plain_add (by decide)) env.now nickId

theorem release (h : Statuses P C w₀ w) (env : Env) (nickId : ℕ) :
    Statuses P C w₀ (release env nickId w) := h.change (plain_remove _) env.now nickId

theorem timeoutCollide (h : Statuses P C w₀ w) (env : Env) (t : NsTimeout) :
    Statuses P C w₀ (timeoutCollide env t w) := by
  have hfire := (h.same (.fireNsTimeout t w)).freshenStatus env.now t.nickId
  rw [NickServ.timeoutCollide]
  generalize NickServ.freshenStatus env.now t.nickId (fireNsTimeout t w) = w₁ at hfire ⊢
  refine .ite hfire ?_
  cases getNickFromId w₁.db t.nickId with
  | none => exact hfire.act fun _ ↦ (refl w₁).die
  | some nick =>
    dsimp only
    cases finduser w₁ nick with
    | none => exact hfire
    | some u => exact .ite hfire (hfire.collide env t.nickId u)

theorem doTimeout (h : Statuses P C w₀ w) (env : Env) (t : NsTimeout) :
    Statuses P C w₀ (doTimeout env t w) := by
  refine .ite ?_ h
  cases t.type with
  | collide => exact h.timeoutCollide env t
  | release => exact (h.same (.fireNsTimeout t w)).release env t.nickId

/-! ### Commands -/

theorem registerNick (h : Statuses P C w₀ w) (conf : Config) (env : Env) (u : User)
    (email : CString) (hP : P w.nextNickId) :
    Statuses P C w₀ (registerNick conf env u email w) := by
  have hnotice := (CacheOnly.refl w).noticeLang env.now u
  have hmodify := SameStatuses.modifyUser (fun u ↦ { u with lastnickreg := env.now }) u.uid
    (NickServ.noticeLang env.now u w)
  refine ((((h.noticeLang env.now u).same hmodify).insertNewNick _ _ _ _ env.now fun _ ↦ ?_)).same
    (.modifyUser _ _ _)
  rw [hmodify.nextNickId, hnotice.nextNickId]
  exact hP

theorem doRegister (conf : Config) (env : Env) (u : User) (words : RegisterWords) (code : CString)
    (hP : P w.nextNickId) : Statuses P C w (doRegister conf env u words code w) := by
  have hw := refl (P := P) (C := C) w
  have hauth (authcode : Option CString) : Statuses P C w (doRegisterAuth conf env u authcode w) := by
    unfold doRegisterAuth
    cases authcode with
    | none => exact hw.syntaxError env u
    | some authcode =>
      dsimp only
      split
      · exact hw.registerNick conf env u _ hP
      · exact hw.noticeLang env.now u
  refine .ite (hw.noticeLang env.now u) ?_
  cases words.pass with
  | none => exact hw.syntaxError env u
  | some pass =>
    refine .ite (hauth words.email) (.ite (hw.syntaxError env u) (.ite (hw.noticeLang env.now u) ?_))
    cases words.email with
    | none => exact hw.syntaxError env u
    | some email =>
      refine .ite ((hw.noticeLang env.now u).syntaxError env u)
        (.ite ((hw.freshenStatus env.now u.realId).noticeLang env.now u)
          (.ite (hw.noticeLang env.now u) (.ite (.ite (hw.noticeLang env.now u) ?_) ?_)))
      · exact (hw.same (.insertAuth _ _ _ _ _ _)).noticeLang env.now u
      · exact hw.registerNick conf env u email hP

theorem doIdentify (conf : Config) (env : Env) (u : User) (pass : Option CString)
    (hP : checkNickPassword env w u.realId = true → P u.realId)
    (hC : C → env.badPassKill = true → Denied conf env u w (.identify pass) →
      LeavesFreely w u.nick) : Statuses P C w (doIdentify conf env u pass w) := by
  have hw := refl (P := P) (C := C) w
  refine ite_ind (p := Statuses P C w) (fun _ ↦ hw.syntaxError env u) fun hpass ↦
    ite_ind (p := Statuses P C w) (fun _ ↦ hw) fun hid ↦
    ite_ind (p := Statuses P C w) (fun _ ↦ hw.noticeLang env.now u) fun hsuspended ↦
    ite_ind (p := Statuses P C w) (fun hbad ↦ ?_) fun hgood ↦ ?_
  · refine (hw.noticeLang env.now u).badPassword conf env u fun hyes hkill ↦ ?_
    rw [((CacheOnly.refl w).noticeLang env.now u).leavesFreely]
    refine hC hyes hkill ⟨?_, hid, not_not.mp hsuspended, Bool.not_eq_true _ ▸ hbad⟩
    exact Option.isSome_iff_ne_none.mpr fun hnone ↦ hpass (Option.isNone_iff_eq_none.mpr hnone)
  · have hstatus := ((hw.identify u (hP (not_not.mp hgood)) env.now).noticeLang env.now u
      ).freshenStatus env.now u.realId
    exact .ite (hstatus.checkMemos env u) hstatus

theorem doDropAuth (h : Statuses P C w₀ w) (env : Env) (u : User) (authcode : Option CString)
    (hC : C → ∀ code, authcode = some code → dropCoded u code w = true → Uncached w u.realId) :
    Statuses P C w₀ (doDropAuth env u authcode w) := by
  unfold NickServ.doDropAuth
  cases authcode with
  | none => exact h.syntaxError env u
  | some authcode =>
    refine ite_ind (p := Statuses P C w₀) (fun hcode ↦ ?_) fun _ ↦ h.noticeLang env.now u
    have hmodify := SameStatuses.modifyUser (fun u ↦ { u with realId := 0, nickId := 0 }) u.uid w
    refine ((h.same hmodify).delnick fun hyes ↦ ?_).same (.withdraw _ _)
    rw [hmodify.nickcache]
    exact hC hyes authcode rfl hcode

theorem dropNick (h : Statuses P C w₀ w) (env : Env) (u : User) (nick : CString) {nickId : ℕ}
    (hC : C → Uncached w nickId) :
    Statuses P C w₀ (dropNick env u nick nickId w) := by
  have hdel := (h.delnick hC).noticeLang env.now u
  rw [NickServ.dropNick]
  cases finduser (NickServ.noticeLang env.now u (NickServ.delnick nickId w)) nick with
  | none => exact hdel
  | some u₂ => exact hdel.same (.modifyUser _ _ _)

theorem doDrop (conf : Config) (env : Env) (u : User) (nick authcode : Option CString)
    (code : CString)
    (hauth : C → ∀ nick', nick = some nick' → sameName nick' "AUTH".toList = true →
      ∀ code, authcode = some code → dropCoded u code w = true → Uncached w u.realId)
    (hdrop : C → ∀ nick', nick = some nick' → sameName nick' "AUTH".toList = false →
      DropAccepted conf env u nick' w →
        Uncached w (mysqlFindnick w.db nick') ∧ u.realId ≠ mysqlFindnick w.db nick') :
    Statuses P C w (doDrop conf env u nick authcode code w) := by
  have hw := refl (P := P) (C := C) w
  cases nick with
  | none =>
    have hidentified := hw.freshenIdentified env.now u
    refine .ite (hw.noticeLang env.now u) (.ite (hidentified.noticeLang env.now u)
      (.ite (hidentified.noticeLang env.now u) ?_))
    exact (hidentified.same (.insertAuth _ _ _ _ _ _)).noticeLang env.now u
  | some nick =>
    have hadmin := hw.freshenAdmin env u
    have hcache := (CacheOnly.refl w).freshenAdmin env u
    refine ite_ind (p := Statuses P C w) (fun hword ↦ hw.doDropAuth env u authcode fun hyes ↦
        hauth hyes nick rfl hword) fun hword ↦ ite_ind (p := Statuses P C w)
      (fun _ ↦ hadmin.syntaxError env u) fun hservadmin ↦ ite_ind (p := Statuses P C w)
      (fun _ ↦ hadmin.noticeLang env.now u) fun hid ↦ ite_ind (p := Statuses P C w)
      (fun _ ↦ hadmin.act fun _ ↦ (refl _).die) fun hknown ↦ ite_ind (p := Statuses P C w)
      (fun _ ↦ hadmin.noticeLang env.now u) fun hroot ↦ ?_
    have haccepted := dropAccepted_of_checks hcache hservadmin hid hknown hroot
    refine hadmin.dropNick env u nick fun hyes ↦ ?_
    obtain ⟨huncached, hne⟩ := hdrop hyes nick rfl (Bool.not_eq_true _ ▸ hword) haccepted
    exact uncached_freshenAdmin env huncached hne

theorem doSendpass (conf : Config) (env : Env) (u : User) (nick authcode : Option CString)
    (code : CString) : Statuses P C w (doSendpass conf env u nick authcode code w) := by
  have hw := refl (P := P) (C := C) w
  refine .ite ?_ ?_
  · unfold doSendpassAuth
    cases authcode with
    | none => exact hw.syntaxError env u
    | some authcode =>
      dsimp only
      split
      · exact hw.noticeLang env.now u
      · split
        · exact hw.noticeLang env.now u
        · refine Statuses.noticeLang (Statuses.same (Statuses.freshen (hw.same (.withdraw _ _)) _ _ _)
            (.updateColumns _ _ ?_)) env.now u
          exact fun _ ↦ rfl
  · dsimp only
    split
    · exact hw.noticeLang env.now u
    · next ni _ =>
      have hadmin : Statuses P C w
          (if ni.flags &&& NI_MARKED ≠ 0#32 then NickServ.freshenAdmin env u w else w) :=
        .ite (hw.freshenAdmin env u) hw
      refine .ite (hw.noticeLang env.now u) (.ite (hadmin.noticeLang env.now u)
        (.ite (hadmin.noticeLang env.now u) (.ite (hadmin.noticeLang env.now u) ?_)))
      exact ((hadmin.freshen _ _ _).same (.insertAuth _ _ _ _ _ _)).noticeLang env.now u

theorem doLink (conf : Config) (env : Env) (u : User) (nick pass : Option CString)
    (hP : checkNickPassword env w (mysqlFindnick w.db (nick.getD [])) = true →
      (finduser w (escape ((getNickFromId w.db (mysqlFindnick w.db (nick.getD []))).getD []))).isNone =
        true → P (mysqlFindnick w.db (nick.getD [])))
    (hC : C → env.badPassKill = true → Denied conf env u w (.link nick pass) →
      LeavesFreely w u.nick) :
    Statuses P C w (doLink conf env u nick pass w) := by
  have hw := refl (P := P) (C := C) w
  refine ite_ind (p := Statuses P C w) (fun _ ↦ hw.noticeLang env.now u) fun hdisabled ↦ ?_
  cases nick with
  | none => exact hw.syntaxError env u
  | some nick =>
    cases pass with
    | none => exact hw.syntaxError env u
    | some pass =>
      have hidentified := hw.freshenIdentified env.now u
      have hstatus := hidentified.freshenStatus env.now (mysqlFindnick w.db nick)
      have hcache := ((CacheOnly.refl w).freshenIdentified env.now u).freshenStatus env.now
        (mysqlFindnick w.db nick)
      refine .ite (hw.noticeLang env.now u) (ite_ind (p := Statuses P C w)
        (fun _ ↦ hidentified.noticeLang env.now u) fun hknown ↦ ite_ind (p := Statuses P C w)
        (fun _ ↦ hidentified.noticeLang env.now u) fun htarget ↦ ite_ind (p := Statuses P C w)
        (fun _ ↦ hidentified.noticeLang env.now u) fun hother ↦
        .ite (hstatus.noticeLang env.now u) (ite_ind (p := Statuses P C w)
        (fun _ ↦ hstatus.noticeLang env.now u) fun hlinks ↦ ite_ind (p := Statuses P C w)
        (fun _ ↦ hstatus.noticeLang env.now u) fun hmaster ↦ ite_ind (p := Statuses P C w)
        (fun hbad ↦ ?_) fun hgood ↦ .ite (hstatus.noticeLang env.now u) ?_))
      · refine (hstatus.noticeLang env.now u).badPassword conf env u fun hyes hkill ↦ ?_
        rw [(hcache.noticeLang env.now u).leavesFreely]
        rw [hcache.checkNickPassword] at hbad
        rw [nickHasLinks, hcache.db, ← nickHasLinks] at hlinks
        rw [hcache.db] at hmaster
        exact hC hyes hkill ⟨Bool.not_eq_true _ ▸ hdisabled, not_not.mp hknown, htarget, hother,
          not_not.mp hlinks, not_not.mp hmaster, Bool.not_eq_true _ ▸ hbad⟩
      · have hlinked := (hstatus.same (.linkNick u.realId (mysqlFindnick w.db nick) _)).noticeLang
          env.now u
        refine ite_ind (p := Statuses P C w) (fun hunused ↦ hlinked.mark (hP ?_ ?_) env.now) fun _ ↦
          hlinked
        · rw [hcache.checkNickPassword] at hgood
          exact not_not.mp hgood
        · rw [finduser, ((CacheOnly.refl _).noticeLang env.now u).users, users_linkNick,
            hcache.users, hcache.db] at hunused
          exact hunused

/-! ### Links -/

theorem delink (h : Statuses P C w₀ w) (now nickId : ℕ) : Statuses P C w₀ (delink now nickId w) := by
  rw [NickServ.delink]
  split
  · exact h.act fun _ ↦ (refl w).die
  · next ni _ =>
    refine .ite h ?_
    split
    · exact h.act fun _ ↦ (refl w).die
    · next master _ =>
      split
      · exact h.act fun _ ↦ (refl w).die
      · refine Statuses.same (Statuses.writeLanguage (Statuses.same (h.same (.updateNick nickId w ?_ ?_))
          (.updateNick nickId _ ?_ ?_)) nickId _ now) (.act fun _ ↦ ⟨rfl, rfl, fun _ ↦ rfl, rfl, id⟩)
        all_goals exact fun _ ↦ rfl

theorem doUnlink (conf : Config) (env : Env) (u : User) (nick pass : Option CString)
    (hC : C → env.badPassKill = true → Denied conf env u w (.unlink nick pass) →
      LeavesFreely w u.nick) :
    Statuses P C w (doUnlink conf env u nick pass w) := by
  have hw := refl (P := P) (C := C) w
  cases nick with
  | some nick =>
    have hadmin := hw.freshenAdmin env u
    have hcache := (CacheOnly.refl w).freshenAdmin env u
    unfold NickServ.doUnlink
    dsimp only
    split
    · exact hadmin.noticeLang env.now u
    · next ni hni =>
      refine ite_ind (p := Statuses P C w) (fun _ ↦ hadmin.noticeLang env.now u) fun hlink ↦
        ite_ind (p := Statuses P C w) (fun _ ↦ hadmin.syntaxError env u) fun hpass ↦
        ite_ind (p := Statuses P C w) (fun hbad ↦ ?_) fun _ ↦
          (hadmin.delink env.now ni.nickId).noticeLang env.now u
      refine (hadmin.noticeLang env.now u).badPassword conf env u fun hyes hkill ↦ ?_
      rw [(hcache.noticeLang env.now u).leavesFreely]
      rw [hcache.checkNickPassword] at hbad
      rw [hcache.db] at hni
      refine hC hyes hkill ⟨ni, hni, hlink, Bool.not_eq_true _ ▸ hbad.1, ?_,
        Bool.not_eq_true _ ▸ hbad.2⟩
      refine Option.isSome_iff_ne_none.mpr fun hnone ↦ hpass ⟨hbad.1, ?_⟩
      exact Option.isNone_iff_eq_none.mpr hnone
  | none =>
    unfold NickServ.doUnlink
    dsimp only
    split
    · exact hw.noticeLang env.now u
    · have hidentified := hw.freshenIdentified env.now u
      refine .ite (hidentified.noticeLang env.now u) (.ite (hidentified.noticeLang env.now u) ?_)
      exact ((hidentified.same (.modifyUser _ _ _)).delink env.now _).noticeLang env.now _

/-! ### FORBID and SUSPEND -/

theorem doForbid (conf : Config) (env : Env) (u : User) (nick : Option CString)
    (hC : C → ∀ nick', nick = some nick' → ForbidAccepted conf env u nick' w →
      mysqlFindnick w.db nick' ≠ 0 →
        Uncached w (mysqlFindnick w.db nick') ∧ u.realId ≠ mysqlFindnick w.db nick') :
    Statuses P C w (doForbid conf env u nick w) := by
  have hadmin := (refl (P := P) (C := C) w).freshenAdmin env u
  have hcache := (CacheOnly.refl w).freshenAdmin env u
  refine ite_ind (p := Statuses P C w) (fun _ ↦ hadmin.noticeLang env.now u) fun hservadmin ↦ ?_
  cases nick with
  | none => exact hadmin.syntaxError env u
  | some nick =>
    dsimp only
    rw [hcache.db]
    refine ite_ind (p := Statuses P C w) (fun _ ↦ hadmin.act fun _ ↦ (refl _).die) fun hknown ↦
      ite_ind (p := Statuses P C w) (fun _ ↦ hadmin.noticeLang env.now u) fun hstaff ↦ ?_
    have haccepted := forbidAccepted_of_checks hcache hservadmin hknown hstaff
    have hdel : Statuses P C w (if mysqlFindnick w.db nick ≠ 0 then
        NickServ.delnick (mysqlFindnick w.db nick) (NickServ.freshenAdmin env u w)
        else NickServ.freshenAdmin env u w) :=
      ite_ind (p := Statuses P C w) (fun hid ↦ hadmin.delnick fun hyes ↦
        (hC hyes nick rfl haccepted hid).elim (uncached_freshenAdmin env)) fun _ ↦ hadmin
    refine (hdel.insertNewNick _ _ _ _ env.now fun hmark ↦ ?_).noticeLang env.now u
    exact absurd (show NS_VERBOTEN &&& NS_IDENTIFIED = 0#32 by decide) hmark

end Statuses

theorem SameStatuses.addNicksuspend (nickId : ℕ) (reason who : CString) (w : World) :
    SameStatuses w (addNicksuspend nickId reason who w) := by
  refine .act fun _ ↦ ?_
  dsimp only
  split_ifs
  · exact ⟨rfl, rfl, fun _ ↦ rfl, rfl, fun h ↦ by cases h⟩
  · exact ⟨rfl, rfl, fun _ ↦ rfl, rfl, id⟩

namespace Statuses

variable {P : ℕ → Prop} {C : Prop} {w₀ w : World}

theorem doSuspend (h : Statuses P C w₀ w) (conf : Config) (env : Env) (u : User)
    (nick reason : Option CString) : Statuses P C w₀ (doSuspend conf env u nick reason w) := by
  have hadmin := h.freshenAdmin env u
  unfold NickServ.doSuspend
  dsimp only
  generalize NickServ.freshenAdmin env u w = w₁ at hadmin ⊢
  refine .ite (hadmin.noticeLang env.now u) ?_
  split
  · split
    · exact hadmin.noticeLang env.now u
    · refine .ite (hadmin.noticeLang env.now u) (.ite (hadmin.noticeLang env.now u) ?_)
      refine ((hadmin.same (.updateNick _ _ ?_ ?_)).same (.addNicksuspend _ _ _ _)).noticeLang env.now u
      · exact fun _ ↦ rfl
      · exact fun _ ↦ rfl
  · exact hadmin.syntaxError env u

theorem doUnsuspend (h : Statuses P C w₀ w) (conf : Config) (env : Env) (u : User)
    (nick : Option CString) : Statuses P C w₀ (doUnsuspend conf env u nick w) := by
  have hadmin := h.freshenAdmin env u
  unfold NickServ.doUnsuspend
  dsimp only
  generalize NickServ.freshenAdmin env u w = w₁ at hadmin ⊢
  refine .ite (hadmin.noticeLang env.now u) ?_
  cases nick with
  | none => exact hadmin.syntaxError env u
  | some nick =>
    have hstatus := hadmin.freshenStatus env.now (mysqlFindnick w₁.db nick)
    refine .ite (hadmin.noticeLang env.now u) (.ite (hstatus.noticeLang env.now u)
      (.ite (hstatus.noticeLang env.now u) ?_))
    refine Statuses.noticeLang (Statuses.same (hstatus.act fun _ ↦ ?_) (.updateNick _ _ ?_ ?_)) env.now u
    · split
      · refine (refl _).same ⟨?_, rfl, fun _ ↦ rfl, rfl, id⟩
        dsimp only
        rw [nick_delNicksuspend]
      · exact refl _
    · exact fun _ ↦ rfl
    · exact fun _ ↦ rfl

/-! ### SET -/

theorem setOption (h : Statuses P C w₀ w) (conf : Config) (env : Env) (u : User) (nickId : ℕ)
    (opt : SetOption) : Statuses P C w₀ (setOption conf env u nickId opt w) := by
  cases opt with
  | language language =>
    refine Statuses.noticeLang ?_ env.now u
    rw [World.act]
    split_ifs with halive hrow
    · exact h.writeLanguage nickId language env.now
    · refine h.setLanguage rfl rfl rfl id (fun _ _ ↦ rfl) (fun _ r hr hid ↦ absurd ?_ hrow) env.now
      exact List.find?_isSome.mpr ⟨r, hr, decide_eq_true hid⟩
    · exact h.setLanguage rfl rfl rfl id (fun _ _ ↦ rfl) (fun hyes ↦ absurd hyes halive) env.now
  | noexpire on =>
    have hadmin := h.freshenAdmin env u
    refine .ite (hadmin.noticeLang env.now u) (.ite ?_ ?_)
    · exact (hadmin.change (plain_add (by decide)) env.now nickId).noticeLang env.now u
    · exact (hadmin.change (plain_remove _) env.now nickId).noticeLang env.now u

theorem doSet (h : Statuses P C w₀ w) (conf : Config) (env : Env) (u : User) (nick : Option CString)
    (opt : SetOption) : Statuses P C w₀ (doSet conf env u nick opt w) := by
  have hadmin := h.freshenAdmin env u
  unfold NickServ.doSet
  dsimp only
  generalize NickServ.freshenAdmin env u w = w₁ at hadmin ⊢
  generalize (if isServicesAdmin conf env u w = true ∧ nick.isSome = true then
    mysqlFindnick w₁.db (nick.getD []) else u.nickId) = nickId
  have hstatus := hadmin.freshenStatus env.now nickId
  have hidentified := Statuses.ite (c := isServicesAdmin conf env u w = true) hstatus
    (hstatus.freshenIdentified env.now u)
  exact .ite (hadmin.noticeLang env.now u) (.ite (hstatus.noticeLang env.now u)
    (.ite (hidentified.noticeLang env.now u) (hidentified.setOption conf env u nickId opt)))

/-! ### RECOVER, RELEASE and GHOST -/

theorem denyRecover (h : Statuses P C w₀ w) (conf : Config) (env : Env) (u : User)
    (pass : Option CString)
    (hC : C → pass.isSome = true → env.badPassKill = true → LeavesFreely w u.nick) :
    Statuses P C w₀ (denyRecover conf env u pass w) := by
  have hnotice := h.noticeLang env.now u
  refine ite_ind (p := Statuses P C w₀) (fun hpass ↦ ?_) fun _ ↦ hnotice
  refine hnotice.badPassword conf env u fun hyes hkill ↦ ?_
  rw [((CacheOnly.refl w).noticeLang env.now u).leavesFreely]
  exact hC hyes hpass hkill

theorem onOtherUser (conf : Config) (env : Env) (u : User) (nick pass : Option CString)
    {act : CString → ℕ → World → World}
    (hact : ∀ nick' v, nick = some nick' → finduser w nick' = some v → v.realId ≠ 0 →
      sameName nick' u.nick = false → mayRecover env u v.realId pass w = true →
        Statuses P C w (act nick' v.realId w))
    (hC : C → env.badPassKill = true → ∀ nick' v, nick = some nick' → finduser w nick' = some v →
      v.realId ≠ 0 → sameName nick' u.nick = false → pass.isSome = true →
        checkNickPassword env w v.realId = false → LeavesFreely w u.nick) :
    Statuses P C w (onOtherUser conf env u nick pass act w) := by
  have hw := refl (P := P) (C := C) w
  unfold NickServ.onOtherUser
  cases nick with
  | none => exact hw.syntaxError env u
  | some nick =>
    dsimp only
    cases huser : finduser w nick with
    | none => exact hw.noticeLang env.now u
    | some u₂ =>
      refine ite_ind (p := Statuses P C w) (fun _ ↦ hw.noticeLang env.now u) fun hid ↦
        ite_ind (p := Statuses P C w) (fun _ ↦ hw.noticeLang env.now u) fun hother ↦
        ite_ind (p := Statuses P C w) (fun hmay ↦ ?_) fun hnot ↦ ?_
      · exact (hact nick u₂ rfl huser hid (Bool.not_eq_true _ ▸ hother) hmay).noticeLang env.now u
      · refine hw.denyRecover conf env u pass fun hyes hpass hkill ↦
          hC hyes hkill nick u₂ rfl huser hid (Bool.not_eq_true _ ▸ hother) hpass ?_
        obtain ⟨pass, rfl⟩ := Option.isSome_iff_exists.mp hpass
        exact Bool.not_eq_true _ ▸ hnot

theorem collideNick (h : Statuses P C w₀ w) (env : Env) (nickId : ℕ) :
    Statuses P C w₀ (collideNick env nickId w) := by
  have hdel := h.same (.delNsTimeout nickId .collide w)
  rw [NickServ.collideNick]
  generalize delNsTimeout nickId .collide w = w₁ at hdel ⊢
  cases getNickFromId w₁.db nickId with
  | none => exact hdel.act fun _ ↦ (refl w₁).die
  | some nick =>
    dsimp only
    cases finduser w₁ nick with
    | none => exact hdel.change (plain_add (by decide)) env.now nickId
    | some u => exact hdel.collide env nickId u

theorem doRecover (conf : Config) (env : Env) (u : User) (nick pass : Option CString)
    (hC : C → env.badPassKill = true → Denied conf env u w (.recover nick pass) →
      LeavesFreely w u.nick) :
    Statuses P C w (doRecover conf env u nick pass w) := by
  refine onOtherUser conf env u nick pass (fun _ _ _ _ _ _ _ ↦ (refl w).collideNick env _)
    fun hyes hkill nick' v hnick huser hid hother hpass hbad ↦ hC hyes hkill ?_
  subst hnick
  exact ⟨v, huser, hid, hother, hpass, hbad⟩

theorem doGhost (conf : Config) (env : Env) (u : User) (nick pass : Option CString)
    (hghost : C → ∀ nick' v, nick = some nick' → finduser w nick' = some v → v.realId ≠ 0 →
      sameName nick' u.nick = false → mayRecover env u v.realId pass w = true →
        guested w v.realId = false)
    (hC : C → env.badPassKill = true → Denied conf env u w (.ghost nick pass) →
      LeavesFreely w u.nick) :
    Statuses P C w (doGhost conf env u nick pass w) := by
  refine onOtherUser conf env u nick pass (fun nick' v hnick huser hid hother hmay ↦ ?_)
    fun hyes hkill nick' v hnick huser hid hother hpass hbad ↦ hC hyes hkill ?_
  · refine (refl w).doQuit conf env nick' fun hyes v' huser' ↦ ?_
    rw [huser] at huser'
    rw [← Option.some.inj huser']
    exact hghost hyes nick' v hnick huser hid hother hmay
  · subst hnick
    exact ⟨v, huser, hid, hother, hpass, hbad⟩

theorem doRelease (conf : Config) (env : Env) (u : User) (nick pass : Option CString)
    (hC : C → env.badPassKill = true → Denied conf env u w (.release nick pass) →
      LeavesFreely w u.nick) :
    Statuses P C w (doRelease conf env u nick pass w) := by
  have hw := refl (P := P) (C := C) w
  unfold NickServ.doRelease
  cases nick with
  | none => exact hw.syntaxError env u
  | some nick =>
    have hstatus := hw.freshenStatus env.now (mysqlFindnick w.db nick)
    have hcache := (CacheOnly.refl w).freshenStatus env.now (mysqlFindnick w.db nick)
    refine ite_ind (p := Statuses P C w) (fun _ ↦ hw.noticeLang env.now u) fun hid ↦
      ite_ind (p := Statuses P C w) (fun _ ↦ hstatus.noticeLang env.now u) fun hheld ↦
      ite_ind (p := Statuses P C w) (fun _ ↦ ?_) fun hnot ↦ ?_
    · exact ((hstatus.same (.delNsTimeout _ _ _)).release env _).noticeLang env.now u
    · refine hstatus.denyRecover conf env u pass fun hyes hpass hkill ↦ ?_
      rw [hcache.leavesFreely]
      refine hC hyes hkill ⟨hid, hheld, hpass, ?_⟩
      obtain ⟨pass, rfl⟩ := Option.isSome_iff_exists.mp hpass
      rw [← hcache.checkNickPassword]
      exact Bool.not_eq_true _ ▸ hnot

/-! ### Expiry and other commands -/

theorem expireNicks (conf : Config) (grace old : ℕ → Bool)
    (hC : C → ∀ id, Expires conf grace old w id → Uncached w id) :
    Statuses P C w (expireNicks conf grace old w) := by
  refine (expireNicks_induct (p := fun w' ↦ Statuses P C w w' ∧ w'.nickcache = w.nickcache)
    (fun nickId w' hexpires hw' ↦ ?_) ⟨refl w, rfl⟩).1
  constructor
  · refine hw'.1.delnick fun hyes ↦ ?_
    rw [hw'.2]
    exact hC hyes nickId hexpires
  · exact World.act_cases (p := fun w'' ↦ w''.nickcache = w.nickcache) hw'.2 fun _ ↦ hw'.2

theorem expireNicksuspends (h : Statuses P C w₀ w) (expired : ℕ → Bool) :
    Statuses P C w₀ (expireNicksuspends expired w) := by
  refine List.foldlRecOn _ _ (motive := Statuses P C w₀) h fun w hw r _ ↦ ?_
  have hflags : SameStatuses w (unsuspend r.nickId w) :=
    .updateNick r.nickId w (fun _ ↦ rfl) fun _ ↦ rfl
  refine (hw.same hflags).act fun _ ↦ (refl _).same ⟨?_, rfl, fun _ ↦ rfl, rfl, id⟩
  dsimp only
  rw [nick_delNicksuspend]

theorem doOther (h : Statuses P C w₀ w) (env : Env) (db : Database) :
    Statuses P C w₀ (doOther env db w) := by
  have hlookups := h.lookups env.now env.reads
  rw [NickServ.doOther]
  generalize NickServ.lookups env.now env.reads w = w₁ at hlookups ⊢
  refine hlookups.act fun _ ↦ ?_
  split_ifs with hfixed
  · refine (refl w₁).same ⟨?_, rfl, fun _ ↦ rfl, rfl, id⟩
    have hcolumns (db : Database) : db.nick.map (fun r ↦ (r.nickId, r.status)) =
        (db.nick.map fixedColumns).map fun c ↦ (c.1, c.2.2.1) := by
      rw [List.map_map]
      rfl
    rw [hcolumns, hfixed, ← hcolumns]
  · exact refl w₁

end Statuses

end BlitzedServices.NickServ
