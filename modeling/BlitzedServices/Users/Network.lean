import BlitzedServices.Channels.Autolimit
import BlitzedServices.Channels.Iteration
import BlitzedServices.Users.KillUser
import BlitzedServices.Users.Sjoin
import BlitzedServices.Users.UserCounts

/-!
# Users on channels

Who is on which channel is kept twice: every user has the list `chans` of his channels, and every channel the list of
its users, with those who have ops or voice listed once more. The handlers of NICK, QUIT, KILL, JOIN, SJOIN, PART, KICK
and MODE change both, and a channel lives as long as it has users.

A handler is `none` where it follows a null pointer or the pointer to a user or a channel that is freed, where it leaves
an array, or where memory would be allocated at an address in use.
-/

set_option autoImplicit false
set_option relaxedAutoImplicit false

namespace BlitzedServices.Users

open Lib Misc Channels ChanServ

/-! ### The state -/

/-- The users, the list `chans` of each, the table of channels, and the `lastmodes` of `do_cmode`. An entry of `chans`
is a null pointer when `findchan` did not find the channel that was joined. -/
structure Network where
  table : UserTable
  chans : UserId → List (Option ℕ)
  chanlist : HashTable LimitChannel
  lastmodes : CString

/-- What the handlers read of the rest of the program: the name of the server, the clock, the ids, locks and settings of
the channels, the mask for which `check_kick` bans a user, `check_should_op`, `check_should_voice` and
`check_valid_op`, and where the record of a new channel is put. -/
structure NetworkEnv where
  serverName : CString
  now : ℤ
  channelId : CString → ℕ
  row : ℕ → Option MlockRow
  auto : ℕ → Autolimit
  checkKick : UserId → CString → Option CString
  shouldOp : UserId → CString → Bool
  shouldVoice : UserId → CString → Bool
  checkValidOp : UserId → CString → Bool → Bool
  malloc : CString → ℕ

/-- Services start without users and channels. -/
def Network.initial (maxusercnt : ℤ) : Network := ⟨.initial maxusercnt, fun _ ↦ [], .empty, []⟩

/-- The user's record is allocated. -/
def Network.isOnline (s : Network) (user : UserId) : Bool := (s.table.userlist.val user).isSome

/-- The nick in a user's record. -/
def Network.nickOf (s : Network) (user : UserId) : CString :=
  ((s.table.userlist.val user).map TableUser.nick).getD []

/-- The bucket of a channel. -/
def hashLimit (c : LimitChannel) : ℕ := hashName c.chan.name

/-- `findchan` for the string at the front of a buffer. -/
def Network.findchan (s : Network) (chan : List Char) : Option ℕ :=
  ((s.chanlist.bucket (hashName chan)).toList.find? fun x ↦ ircStricmp x.2.chan.name (strAt chan 0) = 0).map Prod.fst

/-- The record of a channel is written. -/
def Network.setChan (s : Network) (a : ℕ) (c : LimitChannel) : Network :=
  { s with chanlist := s.chanlist.modifyVal (fun _ ↦ c) a }

/-- What `do_cmode` reads on a channel. -/
def Network.cmodeEnv (s : Network) (env : NetworkEnv) (name : CString) : CmodeEnv where
  serverName := env.serverName
  nickOf := s.nickOf
  finduser := finduser s.table
  checkValidOp user server := env.checkValidOp user name server

/-! ### MODE -/

/-- The loops over `chanops` and `voices` read the nick of each user up to the one they look for. -/
def nicksReadable (isOnline : UserId → Bool) (env : CmodeEnv) (nick : CString) : List UserId → Bool
  | [] => true
  | user :: list =>
    isOnline user && (stricmp (env.nickOf user) nick == 0 || nicksReadable isOnline env nick list)

/-- No letter reads the nick of a user who is freed. -/
def cmodeReadable (isOnline : UserId → Bool) (env : CmodeEnv) (source : CString) : CmodeState → CString → Bool
  | _, [] => true
  | st, c :: modestr =>
    (if c = 'o' ∧ 0 < st.ac then nicksReadable isOnline env (st.av.headD []) st.chan.chanops
      else if c = 'v' ∧ 0 < st.ac then nicksReadable isOnline env (st.av.headD []) st.chan.voices
      else true) && cmodeReadable isOnline env source (cmodeStep env source st c) modestr

/-- `do_cmode`. -/
def Network.doCmode (env : NetworkEnv) (source : CString) (chan : List Char) (modestr : CString)
    (params : List CString) (s : Network) : Option Network :=
  match s.findchan chan with
  | none => some s
  | some a =>
    (s.chanlist.val a).bind fun c ↦
      let cenv := s.cmodeEnv env c.chan.name
      if cmodeReadable s.isOnline cenv source ⟨c.chan, true, params.length, params⟩ modestr then
        let result := ChanServ.doCmode cenv env.now (env.row c.chan.channelId) source s.lastmodes c.chan modestr params
        some { s.setChan a { c with chan := result.1 } with lastmodes := result.2.1 }
      else none

/-! ### Coming and going -/

/-- The record of a new channel. -/
def newChannel (env : NetworkEnv) (chan : CString) : LimitChannel where
  chan :=
    { name := strscpy chan CHANMAX
      channelId := env.channelId chan
      mode := 0
      limit := 0
      key := none
      newbans := []
      users := []
      chanops := []
      voices := []
      serverModetime := 0
      chanservModetime := 0
      serverModecount := 0
      chanservModecount := 0
      bouncyModes := false
      bouncyModes_eq := rfl }
  auto := env.auto (env.channelId chan)

/-- `check_modes` on the channel that is found. -/
def Network.checkModes (env : NetworkEnv) (chan : List Char) (s : Network) : Network :=
  match s.findchan chan with
  | none => s
  | some a =>
    match s.chanlist.val a with
    | none => s
    | some c =>
      s.setChan a { c with
        chan := (ChanServ.checkModes (s.cmodeEnv env c.chan.name) env.now (env.row c.chan.channelId) c.chan).1 }

/-- The first half of `chan_adduser`, when the channel is new. -/
def Network.createChan (env : NetworkEnv) (chan : List Char) (s : Network) : Option Network :=
  match s.chanlist.heap (env.malloc (strAt chan 0)) with
  | some _ => none
  | none =>
    let c := newChannel env (strAt chan 0)
    some (Network.checkModes env chan
      { s with chanlist := s.chanlist.push (hashLimit c) (env.malloc (strAt chan 0)) c })

/-- A user is put in the lists of a channel. -/
def listUser (env : NetworkEnv) (user : UserId) (name : CString) (chan : Channel) : Channel :=
  let chan :=
    if env.shouldOp user name then { chan with chanops := user :: chan.chanops }
    else if env.shouldVoice user name then { chan with voices := user :: chan.voices }
    else chan
  { chan with users := user :: chan.users }

/-- The second half of `chan_adduser`. -/
def Network.addToLists (env : NetworkEnv) (user : UserId) (name : CString) (a : ℕ) (s : Network) : Option Network :=
  (s.chanlist.val a).map fun c ↦ s.setChan a { c with chan := listUser env user name c.chan }

/-- `chan_adduser`. -/
def Network.chanAdduser (env : NetworkEnv) (user : UserId) (chan : List Char) (s : Network) : Option Network :=
  match s.findchan chan with
  | some a => s.addToLists env user (strAt chan 0) a
  | none =>
    (s.createChan env chan).bind fun s ↦ s.addToLists env user (strAt chan 0) (env.malloc (strAt chan 0))

/-- A user is taken out of the lists of a channel. -/
def unlistUser (user : UserId) (chan : Channel) : Channel :=
  { chan with
    users := chan.users.erase user
    chanops := chan.chanops.erase user
    voices := chan.voices.erase user }

/-- `chan_deluser`. -/
def Network.chanDeluser (env : NetworkEnv) (user : UserId) (a : ℕ) (s : Network) : Option Network :=
  (s.chanlist.val a).map fun c ↦
    let c' := { c with chan := unlistUser user c.chan }
    if c'.chan.users = [] then { s with chanlist := s.chanlist.unlink (hashLimit c) a }
    else s.setChan a (checkAutolimit env.now false c').chan

/-- One turn of a loop over all channels of a user. -/
def Network.leaveEntry (env : NetworkEnv) (user : UserId) (s : Network) (p : Option ℕ) : Option Network :=
  p.bind fun a ↦ s.chanDeluser env user a

/-- The loop over all channels of a user. -/
def Network.leaveAll (env : NetworkEnv) (user : UserId) (s : Network) : Option Network :=
  ((s.chans user).foldlM (Network.leaveEntry env user) s).map fun s ↦
    { s with chans := Function.update s.chans user [] }

/-- The loop that looks for a channel by its name in the list of a user: the pointer in the entry. -/
def Network.entryNamed (s : Network) (name : CString) : List (Option ℕ) → Option (Option ℕ)
  | [] => some none
  | p :: entries =>
    (p.bind s.chanlist.val).bind fun c ↦
      if stricmp name c.chan.name = 0 then some p else s.entryNamed name entries

/-- A user leaves the channel of this name, if he has an entry for it. -/
def Network.leave (env : NetworkEnv) (user : UserId) (name : CString) (s : Network) : Option Network :=
  (s.entryNamed name (s.chans user)).bind fun
    | none => some s
    | some a =>
      (s.chanDeluser env user a).map fun s ↦
        { s with chans := Function.update s.chans user ((s.chans user).erase (some a)) }

/-- A user gets an entry for the channel that is found. -/
def Network.enter (s : Network) (user : UserId) (chan : List Char) : Network :=
  { s with chans := Function.update s.chans user (s.findchan chan :: s.chans user) }

/-! ### The handlers -/

/-- What the pointer `s` of a loop over a list stands at in its turns: a piece, a NUL for the separator behind it, and
what follows. -/
def turns (sep : Char) (t : CString) : List (List Char) :=
  match t with
  | [] => []
  | c :: t =>
    (Separated.field sep (c :: t) ++ nul :: Separated.behind sep (c :: t)) :: turns sep (Separated.behind sep (c :: t))
termination_by t.length
decreasing_by exact Separated.length_behind_lt sep c t

/-- One turn of `do_join`. -/
def Network.joinChannel (env : NetworkEnv) (user : UserId) (s : Network) (chan : List Char) : Option Network :=
  if chan.head? = some '0' then s.leaveAll env user
  else
    match env.checkKick user (strAt chan 0) with
    | some mask => s.doCmode env s_ChanServ (strAt chan 0) ['+', 'b'] [mask]
    | none => (s.chanAdduser env user chan).map fun s ↦ s.enter user chan

/-- `do_join`. -/
def Network.doJoin (env : NetworkEnv) (source : List Char) (channels : CString) (s : Network) : Option Network :=
  match finduser s.table source with
  | none => some s
  | some user => (turns ',' channels).foldlM (Network.joinChannel env user) s

/-- `do_part`. -/
def Network.doPart (env : NetworkEnv) (source : List Char) (channels : CString) (s : Network) : Option Network :=
  match finduser s.table source with
  | none => some s
  | some user => (turns ',' channels).foldlM (fun s chan ↦ s.leave env user (strAt chan 0)) s

/-- One turn of `do_kick`. -/
def Network.kickNick (env : NetworkEnv) (channel : CString) (s : Network) (nick : List Char) : Option Network :=
  match finduser s.table nick with
  | none => some s
  | some user => s.leave env user channel

/-- `do_kick`. -/
def Network.doKick (env : NetworkEnv) (channel nicks : CString) (s : Network) : Option Network :=
  (turns ',' nicks).foldlM (Network.kickNick env channel) s

/-- One user of `do_sjoin` who is not kicked, and his modes. The creation time is written through the pointer that
`findchan` returns. -/
def Network.sjoinUser (env : NetworkEnv) (source channel modestr nick : CString) (modecnt : ℕ) (user : UserId)
    (s : Network) : Option Network :=
  (s.chanAdduser env user channel).bind fun s ↦
    if (s.findchan channel).isNone then none
    else
      let s := s.enter user channel
      if 0 < modecnt then s.doCmode env source channel modestr ([nick, nick].take modecnt) else some s

/-- One turn of `do_sjoin`, with the number of users who joined. -/
def Network.sjoinNick (env : NetworkEnv) (source channel : CString) (s : Network × ℕ) (entry : List Char) :
    Option (Network × ℕ) :=
  (modebuf (strAt entry 0)).bind fun modestr ↦
    let nick := entry.dropWhile isPrefix
    match finduser s.1.table nick with
    | none => some s
    | some user =>
      match env.checkKick user channel with
      | some mask => (s.1.doCmode env s_ChanServ channel ['+', 'b'] [mask]).map fun s' ↦ (s', s.2)
      | none =>
        (s.1.sjoinUser env source channel modestr (strAt nick 0) (prefixesOf (strAt entry 0)).length user).map
          fun s' ↦ (s', s.2 + 1)

/-- The end of `do_sjoin`: the modes of the channel. `av_cmode` has room for two parameters. -/
def Network.sjoinModes (env : NetworkEnv) (source channel : CString) (args : List CString) (s : Network × ℕ) :
    Option Network :=
  match args with
  | [] => some s.1
  | modestr :: more =>
    if s.2 = 0 then some s.1
    else
      match modestr with
      | [] => none
      | [_] => some s.1
      | _ =>
        match s.1.findchan channel with
        | none => some s.1
        | some a =>
          (s.1.chanlist.val a).bind fun c ↦
            if overreads (s.1.cmodeEnv env c.chan.name) source
                ⟨c.chan, true, more.dropLast.length, more.dropLast.take 2⟩ modestr then none
            else s.1.doCmode env source channel modestr more.dropLast

/-- The parameters of `do_sjoin` from the time of the channel on. In the plain format the time of the join comes
first. -/
def sjoinParams : List CString → Option (CString × List CString)
  | first :: second :: rest =>
    match if second.head?.any Char.isDigit then second :: rest else first :: second :: rest with
    | _ :: channel :: args => some (channel, args)
    | _ => none
  | _ => none

/-- The nicks of `do_sjoin`: the last parameter, or the source when a client joins. -/
def sjoinNicks (source : CString) (args : List CString) : List (List Char) :=
  turns ' ' (if 2 ≤ args.length then (args.getLast?).getD [] else source)

/-- `do_sjoin`. -/
def Network.doSjoin (env : NetworkEnv) (source : CString) (av : List CString) (s : Network) : Option Network :=
  (sjoinParams av).bind fun (channel, args) ↦
    ((sjoinNicks source args).foldlM (Network.sjoinNick env source channel) (s, 0)).bind
      (Network.sjoinModes env source channel args)

/-- `do_nick`. A new user has no channels. -/
def Network.doNick (source : List Char) (nick : CString) (a : ℕ) (admitted identified : Bool) (s : Network) :
    Option Network :=
  (Users.doNick source nick a admitted identified s.table).map fun table ↦
    { s with
      table
      chans := if strAt source 0 = [] ∧ admitted then Function.update s.chans a [] else s.chans }

/-- `delete_user`. -/
def Network.deleteUser (env : NetworkEnv) (user : UserId) (s : Network) : Option Network :=
  (s.leaveAll env user).bind fun s ↦ (Users.deleteUser user s.table).map fun table ↦ { s with table }

/-- `do_quit` of the source, and `do_kill` of the nick killed. -/
def Network.doQuit (env : NetworkEnv) (source : List Char) (s : Network) : Option Network :=
  match finduser s.table source with
  | none => some s
  | some user => s.deleteUser env user

/-- The messages that come for users and channels. -/
inductive NetworkMessage where
  | nick (source : List Char) (nick : CString) (a : ℕ) (admitted identified : Bool)
  | umode (source : List Char) (nick modes : CString)
  | quit (env : NetworkEnv) (source : List Char)
  | kill (env : NetworkEnv) (nick : List Char)
  | join (env : NetworkEnv) (source : List Char) (channels : CString)
  | sjoin (env : NetworkEnv) (source : CString) (av : List CString)
  | part (env : NetworkEnv) (source : List Char) (channels : CString)
  | kick (env : NetworkEnv) (channel nicks : CString)
  | mode (env : NetworkEnv) (source : CString) (chan : CString) (modestr : CString) (params : List CString)

/-- One message. -/
def Network.receive (s : Network) : NetworkMessage → Option Network
  | .nick source nick a admitted identified => s.doNick source nick a admitted identified
  | .umode source nick modes => (doUmode source nick modes s.table).map fun table ↦ { s with table }
  | .quit env source => s.doQuit env source
  | .kill env nick => s.doQuit env nick
  | .join env source channels => s.doJoin env source channels
  | .sjoin env source av => s.doSjoin env source av
  | .part env source channels => s.doPart env source channels
  | .kick env channel nicks => s.doKick env channel nicks
  | .mode env source chan modestr params => s.doCmode env source chan modestr params

end BlitzedServices.Users
