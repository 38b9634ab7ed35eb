import BlitzedServices.NickServ.Users
import BlitzedServices.Lib.SqlText

/-!
# NickServ commands

The commands that write to table `nick`, to the nick cache or to the ids of users, and those that mail
a code and honour it. A command gets the record of the user who gives it and the words of his message.
-/

set_option autoImplicit false
set_option relaxedAutoImplicit false

namespace BlitzedServices.NickServ

open Lib Lib.SqlText Mysql ChanServ

/-! ### What the commands share -/

/-- `syntax_error`. -/
def syntaxError (env : Env) (u : User) (w : World) : World :=
  noticeLang env.now u (noticeLang env.now u (noticeLang env.now u w))

/-- `check_nick_password`. -/
def checkNickPassword (env : Env) (w : World) (nickId : ℕ) : Bool :=
  (getNickinfoFromId w.db nickId).isSome && env.password nickId

/-- `is_services_root`. -/
def isServicesRoot (conf : Config) (env : Env) (u : User) (w : World) : Bool :=
  u.oper && sameName u.nick conf.servicesRoot && nickIdentified env.now u w

/-- `is_services_admin`. -/
def isServicesAdmin (conf : Config) (env : Env) (u : User) (w : World) : Bool :=
  u.oper && nickIdentified env.now u w && (sameName u.nick conf.servicesRoot ||
    w.db.admin.any fun r ↦ r.nickId = u.nickId ∨ r.nickId = u.realId)

/-- The effect of `is_services_admin` and `is_services_root` on the cache. -/
def freshenAdmin (env : Env) (u : User) (w : World) : World :=
  if u.oper then freshenIdentified env.now u w else w

/-- `nick_is_services_admin`. -/
def nickIsServicesAdmin (conf : Config) (w : World) (nickId : ℕ) : Bool :=
  let linkId := mysqlGetlink w.db nickId
  nickId ≠ 0 ∧
    ((getNickFromId w.db nickId).any (sameName conf.servicesRoot) ∨
      (getNickFromId w.db linkId).any (sameName conf.servicesRoot) ∨
      w.db.admin.any fun r ↦ r.nickId = nickId ∨ r.nickId = linkId)

/-- `nick_is_services_admin` compares the names of the nick and of its master, null pointers when they
have no row. -/
def namesKnown (w : World) (nickId : ℕ) : Bool :=
  nickId = 0 ∨ ((getNickFromId w.db nickId).isSome ∧
    (getNickFromId w.db (mysqlGetlink w.db nickId)).isSome)

/-- `nick_has_links`. -/
def nickHasLinks (w : World) (nickId : ℕ) : ℕ :=
  (w.db.nick.filter fun r ↦ r.linkId = nickId).length

/-- The key of a new row in a table that counts them. -/
def freshId (ids : List ℕ) : ℕ :=
  ids.foldl max 0 + 1

/-- `create_mask`. -/
def createMask (u : User) : CString :=
  let parts := u.host.splitOn '.'
  let net := (atoi u.host).toInt
  u.username ++ '@' ::
    (if u.host.all (fun c ↦ c.isDigit || c == '.') ∧ parts.length = 4 then
      let keep := if net < 128 then 1 else if net < 192 then 2 else 3
      ['.'].intercalate (parts.take keep) ++ ".*".toList
    else if 3 ≤ parts.length then '*' :: u.host.dropWhile (· ≠ '.')
    else u.host)

/-- An INSERT into `memoinfo`. The owner is a unique key. -/
def insertMemoinfo (owner : CString) (max : ℤ) (w : World) : World :=
  w.act fun w ↦
    if w.db.memoinfo.any fun r ↦ sameName r.owner owner then w.die
    else
      { w with
        db := { w.db with
          memoinfo := w.db.memoinfo ++
            [⟨freshId (w.db.memoinfo.map MemoinfoRow.memoinfoId), owner, max⟩] } }

/-- An INSERT into `nickaccess`. Nick and mask are a unique key. -/
def insertNickaccess (nickId idx : ℕ) (userhost : CString) (w : World) : World :=
  w.act fun w ↦
    if w.db.nickaccess.any fun r ↦ r.nickId = nickId ∧ sameName r.userhost userhost then w.die
    else
      { w with
        db := { w.db with
          nickaccess := w.db.nickaccess ++
            [⟨freshId (w.db.nickaccess.map NickaccessRow.nickaccessId), nickId, idx, userhost⟩] } }

/-- The INSERT into `nick`. The name is a unique key, and a failed query is fatal. -/
def insertNick (row : NickRow) (columns : NickColumns) (w : World) : World :=
  w.act fun w ↦
    if w.db.nick.any fun r ↦ sameName r.nick row.nick then w.die
    else
      { w with
        db := { w.db with nick := w.db.nick ++ [{ row with nickId := w.nextNickId }] }
        columns := Function.update w.columns w.nextNickId columns
        nextNickId := w.nextNickId + 1 }

/-- `insert_new_nick`. The new nick gets the id `w.nextNickId`. -/
def insertNewNick (row : NickRow) (columns : NickColumns) (memomax : Option ℤ)
    (access : Option CString) (now : ℕ) (w : World) : World :=
  let nickId := w.nextNickId
  let w := insertNick row columns w
  let w := nickcacheChangeStatus (fun _ ↦ row.status) now nickId w
  let w := nickcacheSetLanguage now nickId columns.language w
  let w := match memomax with
    | some max => insertMemoinfo row.nick max w
    | none => w
  match access with
  | some access => insertNickaccess nickId 1 access w
  | none => w

/-! ### Codes -/

/-- The rows with a command and a name. -/
def authPending (w : World) (command : AuthCommand) (name : CString) : Bool :=
  w.auth.any fun r ↦ r.command = command ∧ sameName r.name name

/-- An INSERT into `auth`. -/
def insertAuth (command : AuthCommand) (code name params : CString) (now : ℕ) (w : World) :
    World :=
  w.act fun w ↦
    { w with
      auth := w.auth ++ [⟨w.nextAuthId, code, name, command, params, now⟩]
      nextAuthId := w.nextAuthId + 1 }

def SECS_24_HRS : ℕ := 86400

/-- `expire_auth`. -/
def expireAuth (now : ℕ) (w : World) : World :=
  w.act fun w ↦ { w with auth := w.auth.filter fun r ↦ ¬ r.createTime + SECS_24_HRS < now }

/-! ### REGISTER -/

/-- A nick that services give to users who have to leave theirs. -/
def isGuestNick (conf : Config) (nick : CString) : Bool :=
  let number := nick.drop conf.nsGuestNickPrefix.length
  sameName (nick.take conf.nsGuestNickPrefix.length) conf.nsGuestNickPrefix ∧
    1 ≤ number.length ∧ number.length ≤ 10 ∧ number.all Char.isDigit

/-- `register_nick`. -/
def registerNick (conf : Config) (env : Env) (u : User) (email : CString) (w : World) : World :=
  let nickId := w.nextNickId
  let w := noticeLang env.now u w
  let w := modifyUser (fun u ↦ { u with lastnickreg := env.now }) u.uid w
  let row : NickRow :=
    { nickId := 0
      nick := strscpy u.nick NICKMAX
      status := NS_IDENTIFIED ||| NS_RECOGNIZED
      linkId := 0
      flags := conf.nsDefFlags
      channelmax := conf.csMaxReg }
  let columns : NickColumns :=
    { email := email
      language := conf.defLanguage
      idStamp := 0
      lastUsermask := u.usermask
      lastSendpassTime := 0 }
  let w := insertNewNick row columns (some conf.msMaxMemos) (some (createMask u)) env.now w
  modifyUser (fun u ↦ { u with realId := nickId, nickId := nickId }) u.uid w

/-- The words of a REGISTER and what the checks of mail address and password say about them. -/
structure RegisterWords where
  pass : Option CString
  email : Option CString
  more : Bool
  validEmail : Bool
  validPassword : Bool

/-- `REGISTER AUTH`. The parameters of the row are the password and the mail address. -/
def doRegisterAuth (conf : Config) (env : Env) (u : User) (authcode : Option CString)
    (w : World) : World :=
  match authcode with
  | none => syntaxError env u w
  | some authcode =>
    match w.auth.find? fun r ↦ r.command = .NICK_REG ∧ sameName r.code authcode ∧
      sameName r.name u.nick with
    | some row => registerNick conf env u (row.params.dropWhile (· ≠ ' ')).tail w
    | none => noticeLang env.now u w

/-- `do_register`. `code` is the new code if one is made. -/
def doRegister (conf : Config) (env : Env) (u : User) (words : RegisterWords) (code : CString)
    (w : World) : World :=
  if isGuestNick conf u.nick then noticeLang env.now u w
  else match words.pass with
    | none => syntaxError env u w
    | some pass =>
      if sameName pass "AUTH".toList then doRegisterAuth conf env u words.email w
      else if sameName pass u.nick ∧ words.more then syntaxError env u w
      else if env.now < u.lastnickreg + conf.nsRegDelay then noticeLang env.now u w
      else match words.email with
        | none => syntaxError env u w
        | some email =>
          if ¬ words.validEmail then syntaxError env u (noticeLang env.now u w)
          else if u.realId ≠ 0 then noticeLang env.now u (freshenStatus env.now u.realId w)
          else if ¬ words.validPassword then noticeLang env.now u w
          else if conf.nsRegNeedAuth then
            if authPending w .NICK_REG u.nick then noticeLang env.now u w
            else
              noticeLang env.now u
                (insertAuth .NICK_REG code u.nick (pass ++ ' ' :: email) env.now w)
          else registerNick conf env u email w

/-! ### IDENTIFY -/

/-- `do_identify`. -/
def doIdentify (conf : Config) (env : Env) (u : User) (pass : Option CString) (w : World) :
    World :=
  if pass.isNone then syntaxError env u w
  else if u.realId = 0 then w
  else if getNickFlags w u.realId &&& NI_SUSPENDED ≠ 0#32 then noticeLang env.now u w
  else if ¬ checkNickPassword env w u.realId then
    badPassword conf env u (noticeLang env.now u w)
  else
    let w := mysqlUpdateLastSeen u NS_IDENTIFIED w
    let w := w.act (nickcacheUpdate env.now u.realId)
    let w := noticeLang env.now u w
    let status := getNickStatus env.now u.realId w
    let w := freshenStatus env.now u.realId w
    if status &&& NS_RECOGNIZED = 0#32 then checkMemos env u w else w

/-! ### DROP -/

/-- `DROP AUTH`. -/
def doDropAuth (env : Env) (u : User) (authcode : Option CString) (w : World) : World :=
  match authcode with
  | none => syntaxError env u w
  | some authcode =>
    if w.auth.any fun r ↦ r.command = .NICK_DROP ∧ sameName r.code authcode ∧
      sameName r.name u.nick then
      let w := modifyUser (fun u ↦ { u with realId := 0, nickId := 0 }) u.uid w
      let w := delnick u.realId w
      w.act fun w ↦
        { w with
          auth := w.auth.filter fun r ↦ ¬ (r.command = .NICK_DROP ∧ sameName r.code authcode ∧
            sameName r.name u.nick) }
    else noticeLang env.now u w

/-- DROP of another nick by a services admin. -/
def dropNick (env : Env) (u : User) (nick : CString) (nickId : ℕ) (w : World) : World :=
  let w := delnick nickId w
  let w := noticeLang env.now u w
  match finduser w nick with
  | some u₂ => modifyUser (fun u ↦ { u with nickId := 0, realId := 0 }) u₂.uid w
  | none => w

/-- `do_drop`. -/
def doDrop (conf : Config) (env : Env) (u : User) (nick authcode : Option CString)
    (code : CString) (w : World) : World :=
  match nick with
  | some nick =>
    if sameName nick "AUTH".toList then doDropAuth env u authcode w
    else
      let nickId := mysqlFindnick w.db nick
      let isServadmin := isServicesAdmin conf env u w
      let isRoot := isServicesRoot conf env u w
      let w := freshenAdmin env u w
      if ¬ isServadmin then syntaxError env u w
      else if nickId = 0 then noticeLang env.now u w
      else if conf.nsSecureAdmins ∧ ¬ namesKnown w nickId then w.act World.die
      else if conf.nsSecureAdmins ∧ nickIsServicesAdmin conf w nickId ∧ ¬ isRoot then
        noticeLang env.now u w
      else dropNick env u nick nickId w
  | none =>
    let identified := nickIdentified env.now u w
    if u.realId = 0 then noticeLang env.now u w
    else
      let w := freshenIdentified env.now u w
      if ¬ identified then noticeLang env.now u w
      else if authPending w .NICK_DROP u.nick then noticeLang env.now u w
      else noticeLang env.now u (insertAuth .NICK_DROP code u.nick [] env.now w)

/-! ### SENDPASS -/

/-- `SENDPASS AUTH`. The row is deleted. -/
def doSendpassAuth (env : Env) (u : User) (authcode : Option CString) (w : World) : World :=
  match authcode with
  | none => syntaxError env u w
  | some authcode =>
    match w.auth.find? fun r ↦ r.command = .NICK_SENDPASS ∧ sameName r.code authcode with
    | none => noticeLang env.now u w
    | some row =>
      match mysqlFindnickinfo w.db row.name with
      | none => noticeLang env.now u w
      | some ni =>
        let w := w.act fun w ↦
          { w with
            auth := w.auth.filter fun r ↦
              ¬ (r.command = .NICK_SENDPASS ∧ sameName r.code authcode) }
        let w := freshenLanguage env.now ni.nickId w
        let w := updateColumns (fun c ↦ { c with lastSendpassTime := env.now }) ni.nickId w
        noticeLang env.now u w

/-- `do_sendpass`. -/
def doSendpass (conf : Config) (env : Env) (u : User) (nick authcode : Option CString)
    (code : CString) (w : World) : World :=
  if nick.any fun nick ↦ sameName nick "AUTH".toList then doSendpassAuth env u authcode w
  else
    let nick := nick.getD u.nick
    match mysqlFindnickinfo w.db nick with
    | none => noticeLang env.now u w
    | some ni =>
      if (w.columns ni.nickId).email.length ≤ 1 then noticeLang env.now u w
      else
        let marked := ni.flags &&& NI_MARKED ≠ 0#32
        let isServadmin := isServicesAdmin conf env u w
        let w := if marked then freshenAdmin env u w else w
        if marked ∧ ¬ isServadmin then noticeLang env.now u w
        else if ni.flags &&& NI_NOSENDPASS ≠ 0#32 then noticeLang env.now u w
        else if ¬ (finduser w u.nick).any User.oper ∧ authPending w .NICK_SENDPASS ni.nick then
          noticeLang env.now u w
        else
          let w := freshenLanguage env.now ni.nickId w
          noticeLang env.now u (insertAuth .NICK_SENDPASS code ni.nick [] env.now w)

/-! ### LINK and UNLINK -/

/-- The statements of LINK: the link, the access list of the nick, the owner of its memos. -/
def linkNick (nickId targetId : ℕ) (w : World) : World :=
  let w := updateNick (fun r ↦ { r with linkId := targetId }) nickId w
  let w := w.act fun w ↦
    { w with
      db := { w.db with nickaccess := w.db.nickaccess.filter (·.nickId ≠ nickId) } }
  w.act fun w ↦
    match getNickFromId w.db targetId, getNickFromId w.db nickId with
    | some target, some link =>
      { w with
        db := { w.db with
          memo := w.db.memo.map fun r ↦
            if sameName r.owner link then { r with owner := target } else r } }
    | _, _ => w.die

/-- `do_link`. It looks for a user of the target under the name as it stands in a query. -/
def doLink (conf : Config) (env : Env) (u : User) (nick pass : Option CString) (w : World) :
    World :=
  if conf.nsDisableLinkCommand then noticeLang env.now u w
  else match nick, pass with
    | some nick, some _ =>
      let identified := nickIdentified env.now u w
      let targetId := mysqlFindnick w.db nick
      if u.realId = 0 then noticeLang env.now u w
      else
        let w := freshenIdentified env.now u w
        if ¬ identified then noticeLang env.now u w
        else if targetId = 0 then noticeLang env.now u w
        else if targetId = u.realId then noticeLang env.now u w
        else
          let status := getNickStatus env.now targetId w
          let w := freshenStatus env.now targetId w
          if status &&& NS_VERBOTEN ≠ 0#32 then noticeLang env.now u w
          else if nickHasLinks w u.nickId ≠ 0 then noticeLang env.now u w
          else if mysqlGetlink w.db targetId ≠ targetId then noticeLang env.now u w
          else if ¬ checkNickPassword env w targetId then
            badPassword conf env u (noticeLang env.now u w)
          else if 0 ≤ checkChanLimit w.db targetId then noticeLang env.now u w
          else
            let target := (getNickFromId w.db targetId).getD []
            let w := noticeLang env.now u (linkNick u.realId targetId w)
            if (finduser w (escape target)).isNone then
              addNickStatus NS_IDENTIFIED env.now targetId w
            else w
    | _, _ => syntaxError env u w

/-- The rows that `delink` copies from the access list of the master. -/
def copyAccess (nickId masterId : ℕ) (rows : List NickaccessRow) : List NickaccessRow :=
  let copied := rows.filter (·.nickId = masterId)
  if copied = [] then rows
  else
    let kept := rows.filter (·.nickId ≠ nickId)
    kept ++ copied.mapIdx fun i r ↦
      ⟨freshId (rows.map NickaccessRow.nickaccessId) + i, nickId, 0, r.userhost⟩

/-- `delink`. A master without a row or without settings for memos is a null pointer. -/
def delink (now nickId : ℕ) (w : World) : World :=
  match getNickinfoFromId w.db nickId with
  | none => w.act World.die
  | some ni =>
    if ni.linkId = 0 then w
    else match getNickinfoFromId w.db ni.linkId with
      | none => w.act World.die
      | some master =>
        match w.db.memoinfo.find? fun r ↦ sameName r.owner master.nick with
        | none => w.act World.die
        | some info =>
          let language := (w.columns master.nickId).language
          let w := updateNick (fun r ↦ { r with linkId := 0 }) nickId w
          let w := updateNick
            (fun r ↦ { r with flags := master.flags, channelmax := master.channelmax }) nickId w
          let w := updateColumns (fun c ↦ { c with language := language }) nickId w
          let w := nickcacheSetLanguage now nickId language w
          w.act fun w ↦
            { w with
              db := { w.db with
                nickaccess := copyAccess nickId master.nickId w.db.nickaccess
                memoinfo := w.db.memoinfo.map fun r ↦
                  if sameName r.owner ni.nick then { r with max := info.max } else r } }

/-- `do_unlink`. -/
def doUnlink (conf : Config) (env : Env) (u : User) (nick pass : Option CString) (w : World) :
    World :=
  match nick with
  | some nick =>
    let isServadmin := isServicesAdmin conf env u w
    let w := freshenAdmin env u w
    match mysqlFindnickinfo w.db nick with
    | none => noticeLang env.now u w
    | some ni =>
      if ni.linkId = 0 then noticeLang env.now u w
      else if ¬ isServadmin ∧ pass.isNone then syntaxError env u w
      else if ¬ isServadmin ∧ ¬ checkNickPassword env w ni.nickId then
        badPassword conf env u (noticeLang env.now u w)
      else noticeLang env.now u (delink env.now ni.nickId w)
  | none =>
    match getNickinfoFromId w.db u.realId with
    | none => noticeLang env.now u w
    | some ni =>
      let identified := nickIdentified env.now u w
      let w := freshenIdentified env.now u w
      if ¬ identified then noticeLang env.now u w
      else if ni.linkId = 0 then noticeLang env.now u w
      else
        let w := modifyUser (fun u ↦ { u with nickId := ni.nickId }) u.uid w
        let w := delink env.now ni.nickId w
        noticeLang env.now { u with nickId := ni.nickId } w

/-! ### FORBID and SUSPEND -/

/-- `do_forbid`. -/
def doForbid (conf : Config) (env : Env) (u : User) (nick : Option CString) (w : World) : World :=
  let isServadmin := isServicesAdmin conf env u w
  let isRoot := isServicesRoot conf env u w
  let w := freshenAdmin env u w
  if ¬ isServadmin then noticeLang env.now u w
  else match nick with
    | none => syntaxError env u w
    | some nick =>
      let nickId := mysqlFindnick w.db nick
      if nickId ≠ 0 ∧ conf.nsSecureAdmins ∧ ¬ isRoot ∧ ¬ namesKnown w u.nickId then
        w.act World.die
      else if nickId ≠ 0 ∧ conf.nsSecureAdmins ∧ ¬ isRoot ∧
          nickIsServicesAdmin conf w u.nickId then
        noticeLang env.now u w
      else
        let w := if nickId ≠ 0 then delnick nickId w else w
        let row : NickRow :=
          { nickId := 0
            nick := nick.take NICKMAX
            status := NS_VERBOTEN
            linkId := 0
            flags := 0#32
            channelmax := 0 }
        let columns : NickColumns :=
          { email := []
            language := 0
            idStamp := 0
            lastUsermask := []
            lastSendpassTime := 0 }
        noticeLang env.now u (insertNewNick row columns none none env.now w)

/-- `add_nicksuspend`. The nick is a unique key. -/
def addNicksuspend (nickId : ℕ) (reason who : CString) (w : World) : World :=
  w.act fun w ↦
    let suspendId := freshId (w.db.suspend.map SuspendRow.suspendId)
    let row : NicksuspendRow :=
      { nicksuspendId := freshId (w.db.nicksuspend.map NicksuspendRow.nicksuspendId)
        nickId := nickId
        suspendId := suspendId }
    let suspend := w.db.suspend ++ [⟨suspendId, who, reason⟩]
    if w.db.nicksuspend.any fun r ↦ r.nickId = nickId ∨ r.suspendId = suspendId then
      { w with db := { w.db with suspend := suspend }, alive := false }
    else
      { w with
        db := { w.db with suspend := suspend, nicksuspend := w.db.nicksuspend ++ [row] } }

/-- `do_suspend`. The expiry of a suspension is left out. -/
def doSuspend (conf : Config) (env : Env) (u : User) (nick reason : Option CString) (w : World) :
    World :=
  let isServadmin := isServicesAdmin conf env u w
  let w := freshenAdmin env u w
  if ¬ isServadmin then noticeLang env.now u w
  else match nick, reason with
    | some nick, some reason =>
      match mysqlFindnickinfo w.db nick with
      | none => noticeLang env.now u w
      | some ni =>
        let realId := if ni.linkId ≠ 0 then ni.linkId else ni.nickId
        if ni.status &&& NS_VERBOTEN ≠ 0#32 then noticeLang env.now u w
        else if (getNickinfoFromId w.db realId).any fun r ↦ r.flags &&& NI_SUSPENDED ≠ 0#32 then
          noticeLang env.now u w
        else
          let w := updateNick (fun r ↦ { r with flags := r.flags ||| NI_SUSPENDED }) realId w
          noticeLang env.now u (addNicksuspend realId reason u.nick w)
    | _, _ => syntaxError env u w

/-- `unsuspend`. The time of the last visit is left out. -/
def unsuspend (nickId : ℕ) (w : World) : World :=
  updateNick (fun r ↦ { r with flags := r.flags &&& ~~~NI_SUSPENDED }) nickId w

/-- `do_unsuspend`. -/
def doUnsuspend (conf : Config) (env : Env) (u : User) (nick : Option CString) (w : World) :
    World :=
  let isServadmin := isServicesAdmin conf env u w
  let w := freshenAdmin env u w
  if ¬ isServadmin then noticeLang env.now u w
  else match nick with
    | none => syntaxError env u w
    | some nick =>
      let nickId := mysqlFindnick w.db nick
      if nickId = 0 then noticeLang env.now u w
      else
        let status := getNickStatus env.now nickId w
        let w := freshenStatus env.now nickId w
        if status &&& NS_VERBOTEN ≠ 0#32 then noticeLang env.now u w
        else
          let realId := mysqlGetlink w.db nickId
          if getNickFlags w realId &&& NI_SUSPENDED = 0#32 then noticeLang env.now u w
          else
            let w := w.act fun w ↦
              match w.db.nicksuspend.find? fun r ↦ r.nickId = realId with
              | some r => { w with db := delNicksuspend w.db r.nicksuspendId }
              | none => w
            noticeLang env.now u (unsuspend realId w)

/-! ### SET -/

/-- The options of SET that the nick cache or the status of a nick depend on. -/
inductive SetOption where
  | language (language : ℕ)
  | noexpire (on : Bool)

/-- `do_set_language` and `do_set_noexpire`, for a language that exists. -/
def setOption (conf : Config) (env : Env) (u : User) (nickId : ℕ) (opt : SetOption) (w : World) :
    World :=
  match opt with
  | .language language =>
    let w := w.act fun w ↦
      if (getNickinfoFromId w.db nickId).isSome then
        updateColumns (fun c ↦ { c with language := language }) nickId w
      else w
    noticeLang env.now u (nickcacheSetLanguage env.now nickId language w)
  | .noexpire on =>
    let isServadmin := isServicesAdmin conf env u w
    let w := freshenAdmin env u w
    if ¬ isServadmin then noticeLang env.now u w
    else if on then noticeLang env.now u (addNickStatus NS_NO_EXPIRE env.now nickId w)
    else noticeLang env.now u (removeNickStatus NS_NO_EXPIRE env.now nickId w)

/-- `do_set`. A services admin may name a nick, anybody else sets the options of his master. -/
def doSet (conf : Config) (env : Env) (u : User) (nick : Option CString) (opt : SetOption)
    (w : World) : World :=
  let isServadmin := isServicesAdmin conf env u w
  let w := freshenAdmin env u w
  let nickId :=
    if isServadmin ∧ nick.isSome then mysqlFindnick w.db (nick.getD []) else u.nickId
  if nickId = 0 then noticeLang env.now u w
  else
    let status := getNickStatus env.now nickId w
    let w := freshenStatus env.now nickId w
    if status &&& NS_VERBOTEN ≠ 0#32 then noticeLang env.now u w
    else
      let identified := nickIdentified env.now u w
      let w := if isServadmin then w else freshenIdentified env.now u w
      if ¬ isServadmin ∧ ¬ identified then noticeLang env.now u w
      else setOption conf env u nickId opt w

/-! ### RECOVER, RELEASE and GHOST -/

/-- The user may act on a nick: he gave its password, or none and is on its access list. -/
def mayRecover (env : Env) (u : User) (nickId : ℕ) (pass : Option CString) (w : World) : Bool :=
  match pass with
  | some _ => checkNickPassword env w nickId
  | none => getNickFlags w nickId &&& NI_SECURE = 0#32 ∧ isOnAccess w u nickId

/-- The reply to a user who may not. -/
def denyRecover (conf : Config) (env : Env) (u : User) (pass : Option CString) (w : World) :
    World :=
  let w := noticeLang env.now u w
  if pass.isSome then badPassword conf env u w else w

/-- The common part of `do_recover` and `do_ghost`: `act` is what happens to the other user. -/
def onOtherUser (conf : Config) (env : Env) (u : User) (nick pass : Option CString)
    (act : CString → ℕ → World → World) (w : World) : World :=
  match nick with
  | none => syntaxError env u w
  | some nick =>
    match finduser w nick with
    | none => noticeLang env.now u w
    | some u₂ =>
      if u₂.realId = 0 then noticeLang env.now u w
      else if sameName nick u.nick then noticeLang env.now u w
      else if mayRecover env u u₂.realId pass w then
        noticeLang env.now u (act nick u₂.realId w)
      else denyRecover conf env u pass w

/-- `collide` for a nick that is in use. -/
def collideNick (env : Env) (nickId : ℕ) (w : World) : World :=
  let w := delNsTimeout nickId .collide w
  match getNickFromId w.db nickId with
  | none => w.act World.die
  | some nick =>
    match finduser w nick with
    | some u => collide env nickId u w
    | none => addNickStatus NS_GUESTED env.now nickId w

/-- `do_recover`. -/
def doRecover (conf : Config) (env : Env) (u : User) (nick pass : Option CString) (w : World) :
    World :=
  onOtherUser conf env u nick pass (fun _ nickId ↦ collideNick env nickId) w

/-- `do_ghost`. -/
def doGhost (conf : Config) (env : Env) (u : User) (nick pass : Option CString) (w : World) :
    World :=
  onOtherUser conf env u nick pass (fun nick _ ↦ doQuit conf env nick) w

/-- `do_release`. -/
def doRelease (conf : Config) (env : Env) (u : User) (nick pass : Option CString) (w : World) :
    World :=
  match nick with
  | none => syntaxError env u w
  | some nick =>
    let nickId := mysqlFindnick w.db nick
    if nickId = 0 then noticeLang env.now u w
    else
      let status := getNickStatus env.now nickId w
      let w := freshenStatus env.now nickId w
      if status &&& NS_KILL_HELD = 0#32 then noticeLang env.now u w
      else if mayRecover env u nickId pass w then
        noticeLang env.now u (release env nickId (delNsTimeout nickId .release w))
      else denyRecover conf env u pass w

/-! ### Expiry -/

/-- A nick that may expire by its status and flags. Those of users who are there have just been
seen. -/
def mayExpire (r : NickRow) : Bool :=
  r.status &&& (NS_IDENTIFIED ||| NS_RECOGNIZED) = 0#32 ∧
    r.status &&& (NS_VERBOTEN ||| NS_NO_EXPIRE) = 0#32 ∧
    r.flags &&& (NI_SUSPENDED ||| NI_IRCOP) = 0#32

/-- Delete the nicks that the SELECT found. -/
def expireLoop (old : ℕ → Bool) (w : World) : World :=
  ((w.db.nick.filter fun r ↦ old r.nickId ∧ mayExpire r).map NickRow.nickId).foldl
    (fun w nickId ↦ delnick nickId w) w

/-- `expire_nicks`. `grace` and `old` say for which nicks the times in the two SELECTs are over. -/
def expireNicks (conf : Config) (grace old : ℕ → Bool) (w : World) : World :=
  if conf.nsExpire = 0 then w
  else expireLoop old (if conf.nsExtraGrace then expireLoop grace w else w)

/-- The rows of table `nicksuspend` with a nick and a record that has expired. -/
def expiredNicksuspends (expired : ℕ → Bool) (db : Database) : List NicksuspendRow :=
  db.nicksuspend.filter fun r ↦
    (db.nick.any fun n ↦ n.nickId = r.nickId) ∧
      db.suspend.any fun s ↦ s.suspendId = r.suspendId ∧ expired s.suspendId

/-- `expire_nicksuspends`. `expired` says which records have expired. -/
def expireNicksuspends (expired : ℕ → Bool) (w : World) : World :=
  (expiredNicksuspends expired w.db).foldl
    (fun w r ↦
      let w := unsuspend r.nickId w
      w.act fun w ↦ { w with db := delNicksuspend w.db r.nicksuspendId })
    w

end BlitzedServices.NickServ
