import BlitzedServices.NickServ.Commands
import BlitzedServices.Lib.Runs

/-!
# Runs of the services

The messages that change nicks and users, and what one of them does to the state. A message comes with
what its handler learns from elsewhere. The process starts with `nsInit`, also after it died.
-/

set_option autoImplicit false
set_option relaxedAutoImplicit false

namespace BlitzedServices.NickServ

open Lib Mysql

/-- The commands of NickServ, with their words. -/
inductive Command where
  | register (words : RegisterWords) (code : CString)
  | identify (pass : Option CString)
  | drop (nick authcode : Option CString) (code : CString)
  | sendpass (nick authcode : Option CString) (code : CString)
  | link (nick pass : Option CString)
  | unlink (nick pass : Option CString)
  | forbid (nick : Option CString)
  | suspend (nick reason : Option CString)
  | unsuspend (nick : Option CString)
  | set (nick : Option CString) (opt : SetOption)
  | recover (nick pass : Option CString)
  | release (nick pass : Option CString)
  | ghost (nick pass : Option CString)

/-- A message of the server, a timer that goes off, or a start of the process. `other` is any other
command: it reads statuses and languages and may change all tables, but not the id, the name, the
status or the link of a nick. -/
inductive Message where
  | connect (nick username host : CString)
  | nick (source nick : CString)
  | quit (nick : CString)
  | mode (source nick modes : CString)
  | command (source : CString) (cmd : Command)
  | other (db : Database)
  | timeout (t : NsTimeout)
  | expireNicks (grace old : ℕ → Bool)
  | expireNicksuspends (expired : ℕ → Bool)
  | expireAuth
  | restart

/-- `run_cmd` of NickServ. -/
def doCommand (conf : Config) (env : Env) (u : User) (w : World) : Command → World
  | .register words code => doRegister conf env u words code w
  | .identify pass => doIdentify conf env u pass w
  | .drop nick authcode code => doDrop conf env u nick authcode code w
  | .sendpass nick authcode code => doSendpass conf env u nick authcode code w
  | .link nick pass => doLink conf env u nick pass w
  | .unlink nick pass => doUnlink conf env u nick pass w
  | .forbid nick => doForbid conf env u nick w
  | .suspend nick reason => doSuspend conf env u nick reason w
  | .unsuspend nick => doUnsuspend conf env u nick w
  | .set nick opt => doSet conf env u nick opt w
  | .recover nick pass => doRecover conf env u nick pass w
  | .release nick pass => doRelease conf env u nick pass w
  | .ghost nick pass => doGhost conf env u nick pass w

/-- The columns of a nick that the other commands leave alone. -/
def fixedColumns (r : NickRow) : ℕ × CString × BitVec 32 × ℕ :=
  (r.nickId, r.nick, r.status, r.linkId)

/-- Any other command. -/
def doOther (env : Env) (db : Database) (w : World) : World :=
  let w := lookups env.now env.reads w
  w.act fun w ↦
    if db.nick.map fixedColumns = w.db.nick.map fixedColumns then { w with db := db } else w

/-- `ns_init`, at the start of a process. The list of users is empty until the server names them. -/
def nsInit (w : World) : World :=
  { w with
    alive := true
    db := { w.db with
      nick := w.db.nick.map fun r ↦
        if r.status ≠ NS_VERBOTEN then { r with status := 0#32 } else r }
    nickcache := []
    users := []
    timeouts := [] }

/-- What a message does. -/
def step (conf : Config) (w : World) (msg : Env × Message) : World :=
  match msg with
  | (env, .connect nick username host) => doNickNew conf env nick username host w
  | (env, .nick source nick) => doNickChange conf env source nick w
  | (env, .quit nick) => doQuit conf env nick w
  | (env, .mode source nick modes) => doUmode env source nick modes w
  | (env, .command source cmd) =>
    match finduser w source with
    | none => w
    | some u => doCommand conf env u w cmd
  | (env, .other db) => doOther env db w
  | (env, .timeout t) => doTimeout env t w
  | (_, .expireNicks grace old) => expireNicks conf grace old w
  | (_, .expireNicksuspends expired) => expireNicksuspends expired w
  | (env, .expireAuth) => expireAuth env.now w
  | (_, .restart) => nsInit w

/-- The state after a run. -/
def run (conf : Config) (w : World) (msgs : List (Env × Message)) : World :=
  msgs.foldl (step conf) w

/-- No nick, channel or user is known. -/
def World.empty : World where
  alive := true
  db :=
    { nick := []
      nickaccess := []
      nicksuspend := []
      suspend := []
      chansuspend := []
      channel := []
      akick := []
      chanaccess := []
      chanlevel := []
      autojoin := []
      memo := []
      memoinfo := []
      admin := []
      oper := [] }
  columns := fun _ ↦ ⟨[], 0, 0, [], 0⟩
  nextNickId := 1
  auth := []
  nextAuthId := 1
  nickcache := []
  users := []
  nextUid := 0
  timeouts := []

end BlitzedServices.NickServ
