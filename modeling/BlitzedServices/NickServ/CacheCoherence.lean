import BlitzedServices.NickServ.StatusHandlers
import BlitzedServices.NickServ.Links

/-!
# The nick cache agrees with the rows

An entry of the nick cache that is younger than an hour is what `get_nick_status` goes by. It has the
status and the language of the row of its nick in every state of a run, unless a nick is deleted while it
is in the cache or a user leaves a nick that was taken from him. Both write to the rows alone.
-/

set_option autoImplicit false
set_option relaxedAutoImplicit false

namespace BlitzedServices.NickServ

open Lib Lib.SqlText Mysql ChanServ

/-- The young entries agree with the rows of their nicks, which have rows. -/
def CacheCoherent (now : ℕ) (w : World) : Prop :=
  ∀ nc ∈ w.nickcache,
    (now - nc.statusTimestamp < 60 * 60 →
      ∃ r ∈ w.db.nick, r.nickId = nc.nickId ∧ r.status = nc.status) ∧
    (now - nc.languageTimestamp < 60 * 60 →
      ∃ r ∈ w.db.nick, r.nickId = nc.nickId ∧ (w.columns nc.nickId).language = nc.language)

theorem Cached.cacheCoherent {w : World} (h : Cached w) (now : ℕ) : CacheCoherent now w := by
  intro nc hnc
  obtain ⟨r, hr, hid, hstatus, hlanguage⟩ := h.entry nc hnc
  constructor
  · exact fun _ ↦ ⟨r, hr, hid, hstatus⟩
  · exact fun _ ↦ ⟨r, hr, hid, hlanguage⟩

/-! ### What a message does to statuses -/

/-- The nick that a command may identify. -/
def CommandMarks (env : Env) (u : User) (w : World) : Command → ℕ → Prop
  | .register _ _, id => id = w.nextNickId
  | .identify _, id => id = u.realId ∧ checkNickPassword env w id = true
  | .link nick _, id => id = mysqlFindnick w.db (nick.getD []) ∧ checkNickPassword env w id = true ∧
      (finduser w (escape ((getNickFromId w.db id).getD []))).isNone = true
  | _, _ => False

/-- The nick that a message may identify. -/
def Marks (conf : Config) (w : World) : Env × Message → ℕ → Prop
  | (env, .connect nick username host), id => id = (newUser env.now nick username host w).realId ∧
      splitRecovered w (newUser env.now nick username host w) = true
  | (env, .nick source nick), id => ∃ u, finduser w source = some u ∧ id = (nickIds w.db nick).1 ∧
      if sameName nick source then id ≠ 0 ∧
        getNickStatus env.now u.nickId (cancelUser conf env u w) &&& NS_IDENTIFIED ≠ 0#32
      else splitRecovered w (renamed w nick u) = true
  | (_, .mode source nick modes), id => ∃ u, sameName source nick = true ∧
      finduser w source = some u ∧ reportsR true modes = true ∧ id = u.realId ∧ id ≠ 0
  | (env, .command source cmd), id => ∃ u, finduser w source = some u ∧ CommandMarks env u w cmd id
  | _, _ => False

/-- What a command must meet: a nick that it deletes is not in the cache, and a user whom it removes
leaves a nick that was not taken from him. -/
def CommandKeepsCache (conf : Config) (env : Env) (u : User) (w : World) (cmd : Command) : Prop :=
  (env.badPassKill = true → Denied conf env u w cmd → LeavesFreely w u.nick) ∧
  match cmd with
  | .drop (some nick) authcode _ =>
    if sameName nick "AUTH".toList then
      ∀ code, authcode = some code → dropCoded u code w = true → Uncached w u.realId
    else DropAccepted conf env u nick w →
      Uncached w (mysqlFindnick w.db nick) ∧ u.realId ≠ mysqlFindnick w.db nick
  | .forbid (some nick) => ForbidAccepted conf env u nick w → mysqlFindnick w.db nick ≠ 0 →
      Uncached w (mysqlFindnick w.db nick) ∧ u.realId ≠ mysqlFindnick w.db nick
  | .ghost (some nick) pass => ∀ v, finduser w nick = some v → v.realId ≠ 0 →
      sameName nick u.nick = false → mayRecover env u v.realId pass w = true →
        guested w v.realId = false
  | _ => True

/-- What a message must meet. -/
def KeepsCache (conf : Config) (w : World) : Env × Message → Prop
  | (_, .nick source _) => LeavesFreely w source
  | (_, .quit nick) => LeavesFreely w nick
  | (env, .command source cmd) => ∀ u, finduser w source = some u → CommandKeepsCache conf env u w cmd
  | (_, .expireNicks grace old) => ∀ id, Expires conf grace old w id → Uncached w id
  | _ => True

theorem statuses_command (conf : Config) (env : Env) (u : User) (w : World) (cmd : Command) :
    Statuses (CommandMarks env u w cmd) (CommandKeepsCache conf env u w cmd) w
      (doCommand conf env u w cmd) := by
  have hw := Statuses.refl (P := CommandMarks env u w cmd)
    (C := CommandKeepsCache conf env u w cmd) w
  cases cmd with
  | register words code => exact .doRegister conf env u words code rfl
  | identify pass =>
    exact .doIdentify conf env u pass (fun hpass ↦ ⟨rfl, hpass⟩) fun hmeets ↦ hmeets.1
  | drop nick authcode code =>
    refine .doDrop conf env u nick authcode code ?_ ?_
    · rintro hmeets nick rfl hword
      have hauth := hmeets.2
      dsimp only at hauth
      rwa [if_pos hword] at hauth
    · rintro hmeets nick rfl hword
      have hdrop := hmeets.2
      dsimp only at hdrop
      rwa [hword, if_neg Bool.false_ne_true] at hdrop
  | sendpass nick authcode code => exact .doSendpass conf env u nick authcode code
  | link nick pass =>
    exact .doLink conf env u nick pass (fun hpass hunused ↦ ⟨rfl, hpass, hunused⟩)
      fun hmeets ↦ hmeets.1
  | unlink nick pass => exact .doUnlink conf env u nick pass fun hmeets ↦ hmeets.1
  | forbid nick =>
    refine .doForbid conf env u nick ?_
    rintro hmeets nick rfl
    exact hmeets.2
  | suspend nick reason => exact hw.doSuspend conf env u nick reason
  | unsuspend nick => exact hw.doUnsuspend conf env u nick
  | set nick opt => exact hw.doSet conf env u nick opt
  | recover nick pass => exact .doRecover conf env u nick pass fun hmeets ↦ hmeets.1
  | release nick pass => exact .doRelease conf env u nick pass fun hmeets ↦ hmeets.1
  | ghost nick pass =>
    refine .doGhost conf env u nick pass ?_ fun hmeets ↦ hmeets.1
    rintro hmeets nick v rfl
    exact hmeets.2 v

theorem statuses_nsInit {P : ℕ → Prop} {C : Prop} {w : World} (hnum : C → Numbered w.registry) :
    Statuses P C w (nsInit w) := by
  constructor
  · rintro id (⟨r', hr', rfl, hmark⟩ | ⟨nc, hnc, -⟩)
    · obtain ⟨r, hr, rfl⟩ := List.mem_map.mp hr'
      refine .inl (.inl ⟨r, hr, ?_⟩)
      split_ifs at hmark ⊢
      · exact absurd BitVec.zero_and hmark
      · exact ⟨rfl, hmark⟩
    · cases hnc
  · intro hyes _ _
    constructor
    · intro nc hnc
      cases hnc
    · refine List.forall_mem_map.mpr fun r hr ↦ ?_
      have hlt := (hnum hyes).sound.lt (nickEntry r) (List.mem_map_of_mem hr)
      split_ifs
      · exact hlt
      · exact hlt

theorem statuses_step (conf : Config) (w : World) (msg : Env × Message) :
    Statuses (Marks conf w msg) (Numbered w.registry ∧ KeepsCache conf w msg) w
      (step conf w msg) := by
  obtain ⟨env, msg⟩ := msg
  have hw := Statuses.refl (P := Marks conf w (env, msg))
    (C := Numbered w.registry ∧ KeepsCache conf w (env, msg)) w
  cases msg with
  | connect nick username host =>
    exact .doNickNew conf env nick username host fun hsplit ↦ ⟨rfl, hsplit⟩
  | nick source nick =>
    cases huser : finduser w source with
    | none =>
      rw [step, NickServ.doNickChange, huser]
      exact hw
    | some u =>
      refine .doNickChange huser (fun hmeets ↦ hmeets.2 u huser) (fun hsame hid hmark ↦ ?_)
        fun hother hsplit ↦ ?_
      · refine ⟨u, huser, rfl, ?_⟩
        rw [if_pos hsame]
        exact ⟨hid, hmark⟩
      · refine ⟨u, huser, rfl, ?_⟩
        rw [hother, if_neg Bool.false_ne_true]
        exact hsplit
  | quit nick => exact hw.doQuit conf env nick fun hmeets ↦ hmeets.2
  | mode source nick modes =>
    exact hw.doUmode env source nick modes fun u hself huser hR hid ↦ ⟨u, hself, huser, hR, rfl, hid⟩
  | command source cmd =>
    rw [step]
    cases huser : finduser w source with
    | none => exact hw
    | some u =>
      obtain ⟨hmarked, hcached⟩ := statuses_command conf env u w cmd
      refine ⟨fun id hid ↦ (hmarked id hid).imp_right fun hmark ↦ ⟨u, huser, hmark⟩,
        fun hmeets ↦ hcached (hmeets.2 u huser)⟩
  | other db => exact hw.doOther env db
  | timeout t => exact hw.doTimeout env t
  | expireNicks grace old => exact .expireNicks conf grace old fun hmeets ↦ hmeets.2
  | expireNicksuspends expired => exact hw.expireNicksuspends expired
  | expireAuth => exact hw.same (.withdraw _ w)
  | restart => exact statuses_nsInit fun hmeets ↦ hmeets.1

/-! ### Runs -/

theorem coherently_step (conf : Config) (w : World) (msg : Env × Message)
    (h : Numbered w.registry ∧ Coherently w) (hmeets : KeepsCache conf w msg) :
    Numbered (step conf w msg).registry ∧ Coherently (step conf w msg) :=
  ⟨numbered_step conf w msg h.1, (statuses_step conf w msg).cached ⟨h.1, hmeets⟩ h.2⟩

theorem coherently_empty : Coherently World.empty := by
  intro _
  constructor
  · intro nc hnc
    cases hnc
  · intro r hr
    cases hr

/-- The cache agrees with the rows in each state of a run whose messages meet the condition. -/
theorem cacheCoherent_run (conf : Config) (msgs : List (Env × Message))
    (hok : Along (step conf) (KeepsCache conf) World.empty msgs) (l : List (Env × Message))
    (hl : l <+: msgs) (halive : (run conf World.empty l).alive = true) (now : ℕ) :
    CacheCoherent now (run conf World.empty l) := by
  obtain ⟨rest, rfl⟩ := hl
  have hprefix := ((along_append _ _ _).mp hok).1
  have hrun := hprefix.invariant (p := fun w ↦ Numbered w.registry ∧ Coherently w)
    (coherently_step conf) ⟨numbered_empty, coherently_empty⟩
  exact (hrun.2 halive).cacheCoherent now

/-- A user registers his nick and leaves. -/
def briefVisit : List (Env × Message) :=
  newNick 1 "a" ++ [(trusting 2, .quit "a".toList)]

instance (w : World) (nick : CString) : Decidable (LeavesFreely w nick) :=
  decidable_of_iff ((finduser w nick).all fun v ↦ guested w v.realId = false) <| by
    rw [LeavesFreely]
    cases finduser w nick with
    | none => simp
    | some v => simp

theorem cacheCoherent_run_briefVisit :
    CacheCoherent 3 (run openConfig World.empty briefVisit) := by
  refine cacheCoherent_run openConfig briefVisit ⟨trivial, ?_, ?_, trivial⟩ _ List.prefix_rfl ?_ 3
  · exact fun _ _ ↦ ⟨fun _ hdenied ↦ hdenied.elim, trivial⟩
  · show LeavesFreely _ _
    decide +kernel
  · decide +kernel

instance (now : ℕ) (w : World) : Decidable (CacheCoherent now w) :=
  inferInstanceAs (Decidable (∀ nc ∈ w.nickcache, _))

/-- A user registers his nick, asks for a code to drop it, and gives it. -/
def nickDropped : List (Env × Message) :=
  newNick 1 "a" ++
  [(trusting 2, .command "a".toList (.drop none none "code".toList)),
    (trusting 3, .command "a".toList (.drop (some "AUTH".toList) (some "code".toList) []))]

theorem nickDropped_not_cacheCoherent :
    (run openConfig World.empty nickDropped).alive = true ∧
      ¬ CacheCoherent 4 (run openConfig World.empty nickDropped) := by
  decide +kernel

end BlitzedServices.NickServ
