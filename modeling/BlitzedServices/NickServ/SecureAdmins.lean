import BlitzedServices.NickServ.Links
import BlitzedServices.Mysql.Passwords

/-!
# NSSecureAdmins

With `NSSecureAdmins` set, DROP, SET PASSWORD and FORBID refuse a services admin who names the nick of another
services admin or of the services root. Each command makes the test itself. DROP and SET PASSWORD ask about the nick
that is named, FORBID about the master of the user's own nick.

The commands are given here with their replies; `answerDrop_snd` and `answerForbid_snd` say that they are the commands
of `Commands`. `secureAdmins_iff` says when all three protect the nicks of services admins and of nobody else.
-/

set_option autoImplicit false
set_option relaxedAutoImplicit false

namespace BlitzedServices.NickServ

open Lib Mysql

/-! ### The commands and their replies -/

/-- The replies of the three commands. -/
inductive AdminReply where
  | ACCESS_DENIED
  | PERMISSION_DENIED
  | NICK_DROP_SYNTAX
  | NICK_X_NOT_REGISTERED
  | NICK_X_DROPPED
  | NICK_FORBID_SYNTAX
  | NICK_FORBID_SUCCEEDED
  | NICK_SET_SERVADMIN_SYNTAX
  | NICK_X_FORBIDDEN
  | MORE_OBSCURE_PASSWORD
  | NICK_SET_PASSWORD_CHANGED_TO
  /-- There is no reply: `nick_is_services_admin` compares a null pointer. -/
  | crashed
  deriving DecidableEq

/-- `do_drop` with one word. -/
def answerDrop (conf : Config) (env : Env) (u : User) (nick : CString) (w : World) : AdminReply × World :=
  if sameName nick "AUTH".toList then (.NICK_DROP_SYNTAX, syntaxError env u w)
  else
    let nickId := mysqlFindnick w.db nick
    let isServadmin := isServicesAdmin conf env u w
    let isRoot := isServicesRoot conf env u w
    let w := freshenAdmin env u w
    if ¬ isServadmin then (.NICK_DROP_SYNTAX, syntaxError env u w)
    else if nickId = 0 then (.NICK_X_NOT_REGISTERED, noticeLang env.now u w)
    else if conf.nsSecureAdmins ∧ ¬ namesKnown w nickId then (.crashed, w.act World.die)
    else if conf.nsSecureAdmins ∧ nickIsServicesAdmin conf w nickId ∧ ¬ isRoot then
      (.PERMISSION_DENIED, noticeLang env.now u w)
    else (.NICK_X_DROPPED, dropNick env u nick nickId w)

theorem answerDrop_snd (conf : Config) (env : Env) (u : User) (nick code : CString) (w : World) :
    (answerDrop conf env u nick w).2 = doDrop conf env u (some nick) none code w := by
  unfold answerDrop doDrop
  dsimp only
  split_ifs <;> rfl

/-- `do_forbid` with one word. -/
def answerForbid (conf : Config) (env : Env) (u : User) (nick : CString) (w : World) : AdminReply × World :=
  let isServadmin := isServicesAdmin conf env u w
  let isRoot := isServicesRoot conf env u w
  let w₁ := freshenAdmin env u w
  if ¬ isServadmin then (.ACCESS_DENIED, noticeLang env.now u w₁)
  else
    let nickId := mysqlFindnick w₁.db nick
    if nickId ≠ 0 ∧ conf.nsSecureAdmins ∧ ¬ isRoot ∧ ¬ namesKnown w₁ u.nickId then (.crashed, w₁.act World.die)
    else if nickId ≠ 0 ∧ conf.nsSecureAdmins ∧ ¬ isRoot ∧ nickIsServicesAdmin conf w₁ u.nickId then
      (.PERMISSION_DENIED, noticeLang env.now u w₁)
    else (.NICK_FORBID_SUCCEEDED, doForbid conf env u (some nick) w)

theorem answerForbid_snd (conf : Config) (env : Env) (u : User) (nick : CString) (w : World) :
    (answerForbid conf env u nick w).2 = doForbid conf env u (some nick) w := by
  by_cases hadmin : isServicesAdmin conf env u w = true
  · have hallowed : ¬ ¬ isServicesAdmin conf env u w = true := not_not.mpr hadmin
    simp only [answerForbid, doForbid, if_neg hallowed]
    split_ifs <;> rfl
  · simp only [answerForbid, doForbid, if_pos hadmin]

/-- What SET PASSWORD gets from elsewhere: `validate_password` for the word, and the password and the salt that the
UPDATE stores. -/
structure SetPasswordCall where
  validatePassword : CString → Bool
  secretOf : CString → Secret

/-- `do_set_password` by a services admin. -/
def doSetPassword (conf : Config) (env : Env) (u : User) (isRoot : Bool) (nickId : ℕ) (param : CString)
    (call : SetPasswordCall) (w : World) (secrets : ℕ → Secret) : AdminReply × World × (ℕ → Secret) :=
  if conf.nsSecureAdmins ∧ u.realId ≠ nickId ∧ ¬ isRoot ∧ ¬ namesKnown w nickId then
    (.crashed, w.act World.die, secrets)
  else if conf.nsSecureAdmins ∧ u.realId ≠ nickId ∧ ¬ isRoot ∧ nickIsServicesAdmin conf w nickId then
    (.PERMISSION_DENIED, noticeLang env.now u w, secrets)
  -- A services admin may change the password of a marked nick.
  else if ¬ call.validatePassword param then (.MORE_OBSCURE_PASSWORD, noticeLang env.now u w, secrets)
  else
    (.NICK_SET_PASSWORD_CHANGED_TO, noticeLang env.now u w, Function.update secrets nickId (call.secretOf param))

/-- `do_set` by a services admin who names a registered nick and PASSWORD, up to `do_set_password`. -/
def answerSetPassword (conf : Config) (env : Env) (u : User) (nickId : ℕ) (param : Option CString)
    (call : SetPasswordCall) (w : World) (secrets : ℕ → Secret) : AdminReply × World × (ℕ → Secret) :=
  let isRoot := isServicesRoot conf env u w
  let w := freshenAdmin env u w
  match param with
  | none => (.NICK_SET_SERVADMIN_SYNTAX, syntaxError env u w, secrets)
  | some param =>
    let status := getNickStatus env.now nickId w
    let w := freshenStatus env.now nickId w
    if status &&& NS_VERBOTEN ≠ 0#32 then (.NICK_X_FORBIDDEN, noticeLang env.now u w, secrets)
    else doSetPassword conf env u isRoot nickId param call w secrets

/-! ### What the commands answer to a services admin -/

/-- The reply says that the command did not do what it was asked for. -/
def AdminReply.isRefusal : AdminReply → Bool
  | .NICK_X_DROPPED | .NICK_FORBID_SUCCEEDED | .NICK_SET_PASSWORD_CHANGED_TO | .crashed => false
  | _ => true

/-- The command is refused and changes nothing but the nick cache. -/
def Refused (w : World) (reply : AdminReply) (w' : World) : Prop :=
  reply.isRefusal = true ∧ CacheOnly w w'

section Answers

variable {conf : Config} {env : Env} {u : User} {nick : CString} {w : World}

theorem db_freshenAdmin (env : Env) (u : User) (w : World) : (freshenAdmin env u w).db = w.db :=
  ((CacheOnly.refl w).freshenAdmin env u).db

theorem namesKnown_congr {w₁ : World} (h : w₁.db = w.db) (nickId : ℕ) : namesKnown w₁ nickId = namesKnown w nickId := by
  rw [namesKnown, namesKnown, h]

theorem nickIsServicesAdmin_congr {w₁ : World} (h : w₁.db = w.db) (nickId : ℕ) :
    nickIsServicesAdmin conf w₁ nickId = nickIsServicesAdmin conf w nickId := by
  rw [nickIsServicesAdmin, nickIsServicesAdmin, h]

/-- A services admin who is not the root, where `NSSecureAdmins` is set. -/
structure SecuredAdmin (conf : Config) (env : Env) (u : User) (w : World) : Prop where
  secure : conf.nsSecureAdmins = true
  admin : isServicesAdmin conf env u w = true
  notRoot : isServicesRoot conf env u w = false

/-- The answer of DROP. -/
theorem answerDrop_eq (h : SecuredAdmin conf env u w) (hnick : mysqlFindnick w.db nick ≠ 0)
    (hword : sameName nick "AUTH".toList = false) :
    answerDrop conf env u nick w =
      if ¬ namesKnown w (mysqlFindnick w.db nick) then (.crashed, (freshenAdmin env u w).act World.die)
      else if nickIsServicesAdmin conf w (mysqlFindnick w.db nick) then
        (.PERMISSION_DENIED, noticeLang env.now u (freshenAdmin env u w))
      else (.NICK_X_DROPPED, dropNick env u nick (mysqlFindnick w.db nick) (freshenAdmin env u w)) := by
  have hdb := db_freshenAdmin env u w
  have hnot : ¬ sameName nick "AUTH".toList = true := by
    rw [hword]
    exact Bool.false_ne_true
  unfold answerDrop
  rw [if_neg hnot]
  simp [h.secure, h.admin, h.notRoot, hnick, namesKnown_congr hdb, nickIsServicesAdmin_congr hdb]

/-- The answer of FORBID to a services admin who names a registered nick. -/
theorem answerForbid_eq (h : SecuredAdmin conf env u w) (hnick : mysqlFindnick w.db nick ≠ 0) :
    answerForbid conf env u nick w =
      if ¬ namesKnown w u.nickId then (.crashed, (freshenAdmin env u w).act World.die)
      else if nickIsServicesAdmin conf w u.nickId then
        (.PERMISSION_DENIED, noticeLang env.now u (freshenAdmin env u w))
      else (.NICK_FORBID_SUCCEEDED, doForbid conf env u (some nick) w) := by
  have hdb := db_freshenAdmin env u w
  simp [answerForbid, h.secure, h.admin, h.notRoot, hdb, hnick, namesKnown_congr hdb, nickIsServicesAdmin_congr hdb]

/-- The answer of SET PASSWORD. -/
theorem answerSetPassword_eq (h : SecuredAdmin conf env u w) (nickId : ℕ) (param : CString) (call : SetPasswordCall)
    (secrets : ℕ → Secret) :
    (answerSetPassword conf env u nickId (some param) call w secrets).1 =
      if getNickStatus env.now nickId (freshenAdmin env u w) &&& NS_VERBOTEN ≠ 0#32 then .NICK_X_FORBIDDEN
      else if u.realId ≠ nickId ∧ ¬ namesKnown w nickId then .crashed
      else if u.realId ≠ nickId ∧ nickIsServicesAdmin conf w nickId then .PERMISSION_DENIED
      else if ¬ call.validatePassword param then .MORE_OBSCURE_PASSWORD
      else .NICK_SET_PASSWORD_CHANGED_TO := by
  have hdb : (freshenStatus env.now nickId (freshenAdmin env u w)).db = w.db :=
    (((CacheOnly.refl w).freshenAdmin env u).freshenStatus env.now nickId).db
  simp only [answerSetPassword, doSetPassword, h.secure, h.notRoot, namesKnown_congr hdb, nickIsServicesAdmin_congr hdb,
    Bool.false_eq_true, not_false_eq_true, true_and]
  split_ifs <;> rfl

/-- Unless the password is changed, SET PASSWORD changes nothing but the nick cache. -/
theorem answerSetPassword_kept (nickId : ℕ) (param : Option CString) (call : SetPasswordCall) (secrets : ℕ → Secret)
    (h : (answerSetPassword conf env u nickId param call w secrets).1 ≠ .NICK_SET_PASSWORD_CHANGED_TO) :
    CacheOnly w (answerSetPassword conf env u nickId param call w secrets).2.1 ∧
      (answerSetPassword conf env u nickId param call w secrets).2.2 = secrets := by
  have hadmin := (CacheOnly.refl w).freshenAdmin env u
  have hstatus := hadmin.freshenStatus env.now nickId
  cases param with
  | none => exact ⟨hadmin.syntaxError env u, rfl⟩
  | some param =>
    simp only [answerSetPassword, doSetPassword] at h ⊢
    split_ifs at h ⊢
    · exact ⟨hstatus.noticeLang env.now u, rfl⟩
    · exact ⟨hstatus.act fun _ ↦ (CacheOnly.refl _).die, rfl⟩
    · exact ⟨hstatus.noticeLang env.now u, rfl⟩
    · exact absurd rfl h
    · exact ⟨hstatus.noticeLang env.now u, rfl⟩

/-! ### Who is protected -/

/-- The nick is that of a services admin or the root, and not one of the user's own link group. -/
structure AnothersAdmin (conf : Config) (u : User) (w : World) (nickId : ℕ) : Prop where
  admin : nickIsServicesAdmin conf w nickId = true
  real : nickId ≠ u.realId
  master : mysqlGetlink w.db nickId ≠ u.nickId

/-- The three commands refuse the nicks of other services admins, and say PERMISSION_DENIED for no nick of a user who
is none. -/
structure SecureAdmins (conf : Config) (env : Env) (u : User) (nick : CString) (w : World) : Prop where
  drop : AnothersAdmin conf u w (mysqlFindnick w.db nick) →
    Refused w (answerDrop conf env u nick w).1 (answerDrop conf env u nick w).2
  setPassword : AnothersAdmin conf u w (mysqlFindnick w.db nick) → ∀ param call secrets,
    Refused w (answerSetPassword conf env u (mysqlFindnick w.db nick) param call w secrets).1
        (answerSetPassword conf env u (mysqlFindnick w.db nick) param call w secrets).2.1 ∧
      (answerSetPassword conf env u (mysqlFindnick w.db nick) param call w secrets).2.2 = secrets
  forbid : AnothersAdmin conf u w (mysqlFindnick w.db nick) →
    Refused w (answerForbid conf env u nick w).1 (answerForbid conf env u nick w).2
  others : nickIsServicesAdmin conf w (mysqlFindnick w.db nick) = false →
    (answerDrop conf env u nick w).1 ≠ .PERMISSION_DENIED ∧
      (∀ param call secrets, (answerSetPassword conf env u (mysqlFindnick w.db nick) param call w secrets).1 ≠
        .PERMISSION_DENIED) ∧
      (answerForbid conf env u nick w).1 ≠ .PERMISSION_DENIED

/-- The nick of another services admin has a master with a row (or one of DROP and SET reads no name), and the user's own
master is a services admin's nick; for a nick of nobody else it is not. -/
structure SecureAdminsMeets (conf : Config) (env : Env) (u : User) (nick : CString) (w : World) : Prop where
  drop : AnothersAdmin conf u w (mysqlFindnick w.db nick) →
    sameName nick "AUTH".toList = true ∨ namesKnown w (mysqlFindnick w.db nick) = true
  setPassword : AnothersAdmin conf u w (mysqlFindnick w.db nick) →
    getNickStatus env.now (mysqlFindnick w.db nick) (freshenAdmin env u w) &&& NS_VERBOTEN ≠ 0#32 ∨
      namesKnown w (mysqlFindnick w.db nick) = true
  forbid : AnothersAdmin conf u w (mysqlFindnick w.db nick) →
    namesKnown w u.nickId = true ∧ nickIsServicesAdmin conf w u.nickId = true
  others : nickIsServicesAdmin conf w (mysqlFindnick w.db nick) = false → namesKnown w u.nickId = true →
    nickIsServicesAdmin conf w u.nickId = false

theorem refused_drop_iff (h : SecuredAdmin conf env u w) (hnick : mysqlFindnick w.db nick ≠ 0)
    (hadmin : nickIsServicesAdmin conf w (mysqlFindnick w.db nick) = true) :
    Refused w (answerDrop conf env u nick w).1 (answerDrop conf env u nick w).2 ↔
      sameName nick "AUTH".toList = true ∨ namesKnown w (mysqlFindnick w.db nick) = true := by
  have hkept := CacheOnly.refl w
  by_cases hword : sameName nick "AUTH".toList = true
  · rw [answerDrop, if_pos hword]
    exact iff_of_true ⟨rfl, hkept.syntaxError env u⟩ (Or.inl hword)
  · rw [answerDrop_eq h hnick (Bool.not_eq_true _ ▸ hword)]
    by_cases hknown : namesKnown w (mysqlFindnick w.db nick) = true
    · rw [if_neg (not_not.mpr hknown), if_pos hadmin]
      exact iff_of_true ⟨rfl, (hkept.freshenAdmin env u).noticeLang env.now u⟩ (Or.inr hknown)
    · rw [if_pos hknown]
      exact iff_of_false (fun hrefused ↦ Bool.false_ne_true hrefused.1) (not_or.mpr ⟨hword, hknown⟩)

theorem refused_setPassword_iff (h : SecuredAdmin conf env u w) {nickId : ℕ} (hreal : nickId ≠ u.realId)
    (hadmin : nickIsServicesAdmin conf w nickId = true) :
    (∀ param call secrets, Refused w (answerSetPassword conf env u nickId param call w secrets).1
        (answerSetPassword conf env u nickId param call w secrets).2.1 ∧
      (answerSetPassword conf env u nickId param call w secrets).2.2 = secrets) ↔
      getNickStatus env.now nickId (freshenAdmin env u w) &&& NS_VERBOTEN ≠ 0#32 ∨ namesKnown w nickId = true := by
  constructor
  · intro hall
    by_contra hno
    obtain ⟨hstatus, hknown⟩ := not_or.mp hno
    have hrefused := (hall (some []) ⟨fun _ ↦ true, fun _ ↦ ⟨[], []⟩⟩ fun _ ↦ ⟨[], []⟩).1.1
    rw [answerSetPassword_eq h, if_neg hstatus, if_pos ⟨hreal.symm, hknown⟩] at hrefused
    exact Bool.false_ne_true hrefused
  · intro hmeets param call secrets
    have hreply : (answerSetPassword conf env u nickId param call w secrets).1.isRefusal = true := by
      cases param with
      | none => rfl
      | some param =>
        rw [answerSetPassword_eq h]
        by_cases hstatus : getNickStatus env.now nickId (freshenAdmin env u w) &&& NS_VERBOTEN ≠ 0#32
        · rw [if_pos hstatus]
          rfl
        · have hknown := hmeets.resolve_left hstatus
          rw [if_neg hstatus, if_neg fun hand ↦ hand.2 hknown, if_pos ⟨hreal.symm, hadmin⟩]
          rfl
    have hkept := answerSetPassword_kept nickId param call secrets fun heq ↦ by
      rw [heq] at hreply
      exact Bool.false_ne_true hreply
    exact ⟨⟨hreply, hkept.1⟩, hkept.2⟩

theorem refused_forbid_iff (h : SecuredAdmin conf env u w) (hnick : mysqlFindnick w.db nick ≠ 0) :
    Refused w (answerForbid conf env u nick w).1 (answerForbid conf env u nick w).2 ↔
      namesKnown w u.nickId = true ∧ nickIsServicesAdmin conf w u.nickId = true := by
  rw [answerForbid_eq h hnick]
  by_cases hknown : namesKnown w u.nickId = true
  · rw [if_neg (not_not.mpr hknown)]
    by_cases hadmin : nickIsServicesAdmin conf w u.nickId = true
    · rw [if_pos hadmin]
      exact iff_of_true ⟨rfl, ((CacheOnly.refl w).freshenAdmin env u).noticeLang env.now u⟩ ⟨hknown, hadmin⟩
    · rw [if_neg hadmin]
      exact iff_of_false (fun hrefused ↦ Bool.false_ne_true hrefused.1) fun hand ↦ hadmin hand.2
  · rw [if_pos hknown]
    exact iff_of_false (fun hrefused ↦ Bool.false_ne_true hrefused.1) fun hand ↦ hknown hand.1

theorem forbid_denied_iff (h : SecuredAdmin conf env u w) (hnick : mysqlFindnick w.db nick ≠ 0) :
    (answerForbid conf env u nick w).1 = .PERMISSION_DENIED ↔
      namesKnown w u.nickId = true ∧ nickIsServicesAdmin conf w u.nickId = true := by
  rw [answerForbid_eq h hnick]
  by_cases hknown : namesKnown w u.nickId = true <;> by_cases hadmin : nickIsServicesAdmin conf w u.nickId = true <;>
    simp [hknown, hadmin]

/-- DROP and SET PASSWORD do not say PERMISSION_DENIED for a nick that is no services admin's. -/
theorem drop_setPassword_not_denied (h : SecuredAdmin conf env u w) (hnick : mysqlFindnick w.db nick ≠ 0)
    (hno : nickIsServicesAdmin conf w (mysqlFindnick w.db nick) = false) :
    (answerDrop conf env u nick w).1 ≠ .PERMISSION_DENIED ∧
      ∀ param call secrets, (answerSetPassword conf env u (mysqlFindnick w.db nick) param call w secrets).1 ≠
        .PERMISSION_DENIED := by
  constructor
  · by_cases hword : sameName nick "AUTH".toList = true
    · rw [answerDrop, if_pos hword]
      exact AdminReply.noConfusion
    · rw [answerDrop_eq h hnick (Bool.not_eq_true _ ▸ hword), hno]
      simp only [Bool.false_eq_true, if_false]
      split_ifs <;> simp
  · intro param call secrets
    cases param with
    | none => exact (by decide : AdminReply.NICK_SET_SERVADMIN_SYNTAX ≠ .PERMISSION_DENIED)
    | some param =>
      rw [answerSetPassword_eq h, hno]
      split_ifs <;> simp_all

/-- With `NSSecureAdmins` set, the commands of a services admin who is not the root protect the nicks of other services
admins and of nobody else exactly when his own nick and the one he names meet this. -/
theorem secureAdmins_iff (h : SecuredAdmin conf env u w) (hnick : mysqlFindnick w.db nick ≠ 0) :
    SecureAdmins conf env u nick w ↔ SecureAdminsMeets conf env u nick w := by
  have hforbid := refused_forbid_iff h hnick
  have hdenied := forbid_denied_iff h hnick
  constructor
  · intro hspec
    refine ⟨?_, ?_, ?_, ?_⟩
    · exact fun ha ↦ (refused_drop_iff h hnick ha.admin).mp (hspec.drop ha)
    · exact fun ha ↦ (refused_setPassword_iff h ha.real ha.admin).mp (hspec.setPassword ha)
    · exact fun ha ↦ hforbid.mp (hspec.forbid ha)
    · intro hno hknown
      rw [← Bool.not_eq_true]
      exact fun hadmin ↦ (hspec.others hno).2.2 (hdenied.mpr ⟨hknown, hadmin⟩)
  · intro hmeets
    refine ⟨?_, ?_, ?_, ?_⟩
    · exact fun ha ↦ (refused_drop_iff h hnick ha.admin).mpr (hmeets.drop ha)
    · exact fun ha ↦ (refused_setPassword_iff h ha.real ha.admin).mpr (hmeets.setPassword ha)
    · exact fun ha ↦ hforbid.mpr (hmeets.forbid ha)
    · intro hno
      obtain ⟨hdrop, hset⟩ := drop_setPassword_not_denied h hnick hno
      refine ⟨hdrop, hset, fun heq ↦ ?_⟩
      obtain ⟨hknown, hadmin⟩ := hdenied.mp heq
      exact absurd hadmin (Bool.eq_false_iff.mp (hmeets.others hno hknown))

/-- The root, services admin `a` with a linked nick `s`, services admin `b` and a user `c`. The rights of `a` are with
`s` or with `a` itself. -/
def adminWorld (adminId : ℕ) : World :=
  { World.empty with
    db := { World.empty.db with
      nick := [⟨1, "root".toList, NS_IDENTIFIED, 0, 0#32, 10⟩, ⟨2, "a".toList, NS_IDENTIFIED, 0, 0#32, 10⟩,
        ⟨3, "s".toList, NS_IDENTIFIED, 2, 0#32, 10⟩, ⟨4, "b".toList, NS_IDENTIFIED, 0, 0#32, 10⟩,
        ⟨5, "c".toList, NS_IDENTIFIED, 0, 0#32, 10⟩]
      admin := [⟨1, adminId⟩, ⟨2, 4⟩] } }

/-- The user of `s`, an IRC operator. -/
def linkedAdmin : User :=
  ⟨0, "s".toList, "user".toList, "host".toList, 3, 2, 1, 1, true, 0⟩

/-- The rights are with `a`, the master of `s`: he may not FORBID `b`. -/
theorem secureAdmins_iff_master :
    SecureAdmins { openConfig with nsSecureAdmins := true } (trusting 4) linkedAdmin "b".toList (adminWorld 2) ↔
      SecureAdminsMeets { openConfig with nsSecureAdmins := true } (trusting 4) linkedAdmin "b".toList
        (adminWorld 2) :=
  secureAdmins_iff ⟨rfl, by decide +kernel, by decide +kernel⟩ (by decide +kernel)

/-- He may not FORBID `c` either, who is no services admin. -/
theorem forbid_others_denied :
    ¬ ∀ conf env u nick w, SecuredAdmin conf env u w → mysqlFindnick w.db nick ≠ 0 →
      SecureAdmins conf env u nick w := by
  intro h
  have hspec := h { openConfig with nsSecureAdmins := true } (trusting 4) linkedAdmin "c".toList (adminWorld 2)
    ⟨rfl, by decide +kernel, by decide +kernel⟩ (by decide +kernel)
  have hdenied : (answerForbid { openConfig with nsSecureAdmins := true } (trusting 4) linkedAdmin "c".toList
      (adminWorld 2)).1 = .PERMISSION_DENIED := by
    decide +kernel
  exact (hspec.others (by decide +kernel)).2.2 hdenied

end Answers

end BlitzedServices.NickServ
