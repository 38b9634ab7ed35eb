import BlitzedServices.NickServ.World
import BlitzedServices.Misc.MatchWild

/-!
# User messages

What NickServ does when users connect, change nicks, set modes and leave. `validateUser` runs when a
user takes a nick and `cancelUser` when he leaves it; between the two the status of the nick's row is
that of the user.
-/

set_option autoImplicit false
set_option relaxedAutoImplicit false

namespace BlitzedServices.NickServ

open Lib Mysql Misc

/-- The settings of the configuration file that the handlers read. `nsDefFlags` are the flags that the
`NSDef...` settings give a new nick. -/
structure Config where
  noSplitRecovery : Bool
  nsReleaseTimeout : ℕ
  nsRegNeedAuth : Bool
  nsRegDelay : ℕ
  nsGuestNickPrefix : CString
  nsDefFlags : BitVec 32
  csMaxReg : ℕ
  msMaxMemos : ℤ
  defLanguage : ℕ
  nsSecureAdmins : Bool
  nsDisableLinkCommand : Bool
  nsExpire : ℕ
  nsExtraGrace : Bool
  servicesRoot : CString

/-- What a handler learns from elsewhere: the time, whether the password in the message is that of a
nick, whether one bad password too many kills the user, and what the notices about memos, news and
autojoins look up. -/
structure Env where
  now : ℕ
  password : ℕ → Bool
  badPassKill : Bool
  reads : List Lookup

/-- `user@host`. -/
def User.usermask (u : User) : CString :=
  u.username ++ '@' :: u.host

/-- `is_on_access`. -/
def isOnAccess (w : World) (u : User) (nickId : ℕ) : Bool :=
  w.db.nickaccess.any fun r ↦ r.nickId = nickId ∧
    ircMatch r.userhost (u.username ++ '@' :: u.host.map Char.toLower) none

/-- `check_on_access`. -/
def checkOnAccess (env : Env) (u : User) (w : World) : World :=
  if u.nickId = 0 then w
  else if isOnAccess w u u.nickId then
    nickcacheChangeStatus (· ||| NS_ON_ACCESS) env.now u.realId
      (updateStatus (· ||| NS_ON_ACCESS) u.realId w)
  else w

/-- The nick is forbidden or suspended. -/
def mayNotBeUsed (w : World) (nickId : ℕ) : Bool :=
  w.db.nick.any fun r ↦ r.nickId = nickId ∧
    (r.status &&& NS_VERBOTEN ≠ 0#32 ∨ r.flags &&& NI_SUSPENDED ≠ 0#32)

/-- The row has the services stamp and the mask of the user. -/
def splitRecovered (w : World) (u : User) : Bool :=
  w.db.nick.any fun r ↦ r.nickId = u.realId ∧ (w.columns r.nickId).idStamp ≠ 0 ∧
    (w.columns r.nickId).idStamp = u.servicesStamp ∧
    sameName (w.columns r.nickId).lastUsermask u.usermask

/-- The end of `validate_user`: a user who is not known by his stamp. -/
def validateAccess (env : Env) (flags : BitVec 32) (u : User) (w : World) : Bool × World :=
  let onAccess := isOnAccess w u u.nickId
  let w := if onAccess then addNickStatus NS_ON_ACCESS env.now u.realId w else w
  if flags &&& NI_SECURE = 0#32 ∧ onAccess then
    let w := updateStatus (· ||| NS_RECOGNIZED) u.realId w
    let w := updateColumns (fun c ↦ { c with lastUsermask := u.usermask }) u.realId w
    (true, nickcacheChangeStatus (· ||| NS_RECOGNIZED) env.now u.realId w)
  else
    let w := noticeLang env.now u w
    if flags &&& NI_ENFORCE ≠ 0#32 ∧ ¬ onAccess then
      let w := noticeLang env.now u w
      let delay := if flags &&& NI_ENFORCEQUICK ≠ 0#32 then 20 else 60
      (false, addNsTimeout u.realId .collide delay env.now w)
    else (false, w)

/-- `validate_user`. -/
def validateUser (conf : Config) (env : Env) (u : User) (w : World) : Bool × World :=
  if u.realId = 0 then (false, w)
  else
    let flags := getNickFlags w u.nickId
    if mayNotBeUsed w u.realId then
      let w := noticeLang env.now u (noticeLang env.now u w)
      (false, addNsTimeout u.realId .collide 60 env.now w)
    else
      let w := removeNickStatus NS_TEMPORARY env.now u.realId w
      if ¬ conf.noSplitRecovery ∧ splitRecovered w u then
        let w := updateStatus (· ||| NS_IDENTIFIED) u.realId w
        let w := nickcacheChangeStatus (· ||| NS_IDENTIFIED) env.now u.realId w
        (true, lookups env.now env.reads w)
      else validateAccess env flags u w

/-- The nick was taken from its user, who is about to be given another one. -/
def guested (w : World) (nickId : ℕ) : Bool :=
  w.db.nick.any fun r ↦ r.nickId = nickId ∧ r.status &&& NS_GUESTED ≠ 0#32

/-- `cancel_user`. For a nick that was taken the UPDATE clears the status in the row only. -/
def cancelUser (conf : Config) (env : Env) (u : User) (w : World) : World :=
  if u.realId ≠ 0 then
    let w :=
      if guested w u.realId then
        let w := updateStatus (· &&& ~~~NS_TEMPORARY) u.realId w
        let w := addNsTimeout u.realId .release conf.nsReleaseTimeout env.now w
        addNickStatus NS_KILL_HELD env.now u.realId w
      else removeNickStatus NS_TEMPORARY env.now u.realId w
    delNsTimeout u.realId .collide w
  else w

/-- `check_memos`. -/
def checkMemos (env : Env) (u : User) (w : World) : World :=
  if u.realId ≠ 0 then lookups env.now env.reads (freshenStatus env.now u.realId w) else w

/-- `mysql_update_last_seen`. -/
def mysqlUpdateLastSeen (u : User) (status : BitVec 32) (w : World) : World :=
  let w := updateStatus (· ||| status) u.realId w
  updateColumns
    (fun c ↦ { c with idStamp := u.servicesStamp, lastUsermask := u.usermask }) u.realId w

/-- The ids that `new_user` and `change_user_nick` give to a user of a nick. -/
def nickIds (db : Database) (nick : CString) : ℕ × ℕ :=
  let realId := mysqlFindnick db nick
  (realId, if realId ≠ 0 then mysqlGetlink db realId else 0)

/-- `new_user` and what `do_nick` fills in. -/
def newUser (now : ℕ) (nick username host : CString) (w : World) : User :=
  { uid := w.nextUid
    nick := strscpy nick NICKMAX
    username := username
    host := host
    realId := (nickIds w.db nick).1
    nickId := (nickIds w.db nick).2
    mySignon := now
    servicesStamp := 0
    oper := false
    lastnickreg := 0 }

/-- Put a user in the list. -/
def addUser (u : User) (w : World) : World :=
  w.act fun w ↦ { w with users := u :: w.users, nextUid := w.nextUid + 1 }

/-- `change_user_nick`. -/
def changeUserNick (env : Env) (u : User) (nick : CString) (niChanged : Bool) (w : World) :
    World :=
  let ids := nickIds w.db nick
  let w :=
    if ids.1 ≠ 0 ∧ ¬ niChanged then
      setNickStatus (getNickStatus env.now u.nickId w) env.now ids.1
        (freshenStatus env.now u.nickId w)
    else w
  modifyUser
    (fun u ↦ { u with nick := strscpy nick NICKMAX, realId := ids.1, nickId := ids.2 }) u.uid w

/-- The end of `do_nick`. -/
def settleUser (conf : Config) (env : Env) (u : User) (niChanged : Bool) (w : World) : World :=
  let w :=
    if niChanged then
      let (valid, w) := validateUser conf env u w
      if valid then checkMemos env u w else w
    else checkOnAccess env u w
  let identified := nickIdentified env.now u w
  let w := freshenIdentified env.now u w
  if identified ∧ ¬ niChanged ∧ u.realId ≠ 0 ∧ u.realId ≠ u.nickId then
    mysqlUpdateLastSeen u 0#32 w
  else w

/-- `do_nick` for a new user who was admitted. -/
def doNickNew (conf : Config) (env : Env) (nick username host : CString) (w : World) : World :=
  let u := newUser env.now nick username host w
  settleUser conf env u true (lookups env.now env.reads (addUser u w))

/-- `do_nick` for a user who changes nicks. -/
def doNickChange (conf : Config) (env : Env) (source nick : CString) (w : World) : World :=
  match finduser w source with
  | none => w
  | some u =>
    let niChanged := !sameName nick source
    let w :=
      if niChanged then modifyUser (fun u ↦ { u with mySignon := env.now }) u.uid w else w
    let w := cancelUser conf env u w
    let ids := nickIds w.db nick
    let w := changeUserNick env u nick niChanged w
    let u := { u with nick := strscpy nick NICKMAX, realId := ids.1, nickId := ids.2 }
    settleUser conf env u niChanged w

/-- `delete_user`. -/
def deleteUser (conf : Config) (env : Env) (u : User) (w : World) : World :=
  let w := cancelUser conf env u w
  w.act fun w ↦ { w with users := w.users.filter fun v ↦ v.uid ≠ u.uid }

/-- `do_quit` and `do_kill`. The columns for the quit message are left out. -/
def doQuit (conf : Config) (env : Env) (nick : CString) (w : World) : World :=
  match finduser w nick with
  | none => w
  | some u => deleteUser conf env u w

/-- `bad_password`. -/
def badPassword (conf : Config) (env : Env) (u : User) (w : World) : World :=
  if env.badPassKill then doQuit conf env u.nick w else w

/-- One letter of a user MODE. The mail address of a nick without a row is a null pointer. -/
def umodeLetter (env : Env) (u : User) (add : Bool) (c : Char) (w : World) : World :=
  if c = 'R' then
    if add ∧ u.realId ≠ 0 then
      let w := mysqlUpdateLastSeen u NS_IDENTIFIED w
      let w := w.act (nickcacheUpdate env.now u.realId)
      let w := w.act fun w ↦ { w with alive := (getNickFromId w.db u.realId).isSome }
      let w := if (w.columns u.realId).email.length ≤ 1 then noticeLang env.now u w else w
      let status := getNickStatus env.now u.realId w
      let w := freshenStatus env.now u.realId w
      if status &&& NS_RECOGNIZED = 0#32 then checkMemos env u w else w
    else w
  else if c = 'o' then
    let w := modifyUser (fun u ↦ { u with oper := add }) u.uid w
    if add then lookups env.now env.reads w else w
  else w

/-- The loop over the letters. -/
def umodeLoop (env : Env) (u : User) : Bool → CString → World → World
  | _, [], w => w
  | add, c :: modes, w =>
    if c = '+' then umodeLoop env u true modes w
    else if c = '-' then umodeLoop env u false modes w
    else umodeLoop env u add modes (umodeLetter env u add c w)

/-- `do_umode`. -/
def doUmode (env : Env) (source nick modes : CString) (w : World) : World :=
  if ¬ sameName source nick then w
  else match finduser w source with
    | none => w
    | some u => umodeLoop env u true modes w

/-! ### Timeouts -/

/-- `collide`: the user is told to take another nick. -/
def collide (env : Env) (nickId : ℕ) (u : User) (w : World) : World :=
  addNickStatus NS_GUESTED env.now nickId (noticeLang env.now u w)

/-- `release`. -/
def release (env : Env) (nickId : ℕ) (w : World) : World :=
  removeNickStatus NS_KILL_HELD env.now nickId w

/-- `timeout_collide`. The name of a nick without a row is a null pointer for `finduser`. -/
def timeoutCollide (env : Env) (t : NsTimeout) (w : World) : World :=
  let w := fireNsTimeout t w
  let status := getNickStatus env.now t.nickId w
  let w := freshenStatus env.now t.nickId w
  if status &&& NS_IDENTIFIED ≠ 0#32 then w
  else match getNickFromId w.db t.nickId with
    | none => w.act World.die
    | some nick =>
      match finduser w nick with
      | none => w
      | some u => if t.settime < u.mySignon then w else collide env t.nickId u w

/-- `timeout_release`. -/
def timeoutRelease (env : Env) (t : NsTimeout) (w : World) : World :=
  release env t.nickId (fireNsTimeout t w)

/-- A timeout that is due. -/
def doTimeout (env : Env) (t : NsTimeout) (w : World) : World :=
  if t ∈ w.timeouts ∧ t.timeout ≤ env.now then
    match t.type with
    | .collide => timeoutCollide env t w
    | .release => timeoutRelease env t w
  else w

end BlitzedServices.NickServ
