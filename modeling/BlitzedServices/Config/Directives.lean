import BlitzedServices.Lib.CString

/-!
# Configuration directives

The table of the directives: what parameters each of them takes, of which type, and where their values go.
-/

set_option autoImplicit false
set_option relaxedAutoImplicit false

namespace BlitzedServices.Config

open Lib

/-- What the table points to: the variables of the configuration, and the function of a deprecated directive. -/
inductive Address where
  | AbuseEmail | AkillWildThresh | AuthExpireTimeout | AutokillExpiry | BadPassLimit | BadPassTimeout
  | s_ChanServ | desc_ChanServ | CSAccessMax | CSAutokickMax | CSAutokickReason | CSExpire | CSExtraGrace
  | CSInhabit | CSListMax | CSListOpersOnly | CSMaxReg | CSMyEmail | CSOpOper | CSAkickOper | CSRestrictDelay
  | CSSuspendExpire | CSSuspendGrace | CSWallReg | DefaultCloak | DefSessionLimit | s_DevNull | desc_DevNull
  | ExceptionExpiry | ExpireTimeout | FloodServAkillExpiry | FloodServAkillReason | s_FloodServ
  | desc_FloodServ | FloodServTFNumLines | FloodServTFSec | FloodServTFNLWarned | FloodServTFSecWarned
  | FloodServWarnFirst | FloodServWarnMsg | s_GlobalNoticer | desc_GlobalNoticer | HelpDir | s_HelpServ
  | desc_HelpServ | ImmediatelySendAkill | s_IrcIIHelp | desc_IrcIIHelp | LimitSessions | dep_ListOpersOnly
  | LocalHost | LocalPort | LogMaxUsers | MaxSessionLimit | s_MemoServ | desc_MemoServ | MOTDFilename
  | mysqlHost | mysqlUser | mysqlPass | mysqlDB | mysqlPort | mysqlSocket | MSMaxMemos | MSNotifyAll | MSROT13
  | MSSendDelay | NetworkName | s_NickServ | desc_NickServ | NoSplitRecovery | NSAccessMax | NSAutoJoinMax
  | NSDefHideEmail | NSDefHideQuit | NSDefHideUsermask | NSDefEnforce | NSDefEnforceQuick | NSDefMemoReceive
  | NSDefMemoSignon | NSDefNone | NSDefPrivate | NSDefSecure | NSDefAutoJoin | NSDisableLinkCommand
  | temp_nsuserhost | NSExpire | NSExtraGrace | NSGuestNickPrefix | NSListMax | NSListOpersOnly | NSNickURL
  | NSMyEmail | NSRegDelay | NSRegExtraInfo | NSRegNeedAuth | NSReleaseTimeout | NSSecureAdmins
  | NSSuspendExpire | NSSuspendGrace | NSWallReg | s_OperServ | desc_OperServ | PIDFilename | ReadTimeout
  | RemoteServer | RemotePort | RemotePassword | ServerDesc | ServerName | ServicesRoot | temp_userhost
  | SessionAkillExpiry | SessionKillClues | SessionLimitDetailsLoc | SessionLimitExceeded | SendmailPath
  | SnoopChan | StaticAkillReason | StrictPassReject | StrictPassWarn | TimeoutCheck | WallAkillExpire
  | WallExceptionExpire | WallBadOS | WallGetpass | WallOper | WallOSAkill | WallOSClearmodes | WallOSException
  | WallOSKick | WallOSMode | WallSetpass | WarningTimeout | NSDefCloak
  deriving DecidableEq

/-- The types of parameters. `PARAM_SET` and `PARAM_DEPRECATED` take no text. -/
inductive ParamType where
  | PARAM_INT
  | PARAM_POSINT
  | PARAM_PORT
  | PARAM_STRING
  | PARAM_TIME
  | PARAM_SET
  | PARAM_DEPRECATED
  deriving DecidableEq

def PARAM_OPTIONAL : ℕ := 0x01

def PARAM_FULLONLY : ℕ := 0x02

/-- A parameter of a directive. -/
structure Param where
  type : ParamType
  flags : ℕ
  ptr : Address

/-- A directive. -/
structure Directive where
  name : CString
  params : List Param

/-- `directives`. -/
def directives : List Directive :=
  [ ⟨"AbuseEmail".toList, [⟨.PARAM_STRING, 0, .AbuseEmail⟩]⟩,
    ⟨"AkillWildThresh".toList, [⟨.PARAM_POSINT, 0, .AkillWildThresh⟩]⟩,
    ⟨"AuthExpireTimeout".toList, [⟨.PARAM_TIME, 0, .AuthExpireTimeout⟩]⟩,
    ⟨"AutokillExpiry".toList, [⟨.PARAM_TIME, 0, .AutokillExpiry⟩]⟩,
    ⟨"BadPassLimit".toList, [⟨.PARAM_POSINT, 0, .BadPassLimit⟩]⟩,
    ⟨"BadPassTimeout".toList, [⟨.PARAM_TIME, 0, .BadPassTimeout⟩]⟩,
    ⟨"ChanServName".toList, [⟨.PARAM_STRING, 0, .s_ChanServ⟩, ⟨.PARAM_STRING, 0, .desc_ChanServ⟩]⟩,
    ⟨"CSAccessMax".toList, [⟨.PARAM_POSINT, 0, .CSAccessMax⟩]⟩,
    ⟨"CSAutokickMax".toList, [⟨.PARAM_POSINT, 0, .CSAutokickMax⟩]⟩,
    ⟨"CSAutokickReason".toList, [⟨.PARAM_STRING, 0, .CSAutokickReason⟩]⟩,
    ⟨"CSExpire".toList, [⟨.PARAM_TIME, 0, .CSExpire⟩]⟩,
    ⟨"CSExtraGrace".toList, [⟨.PARAM_SET, 0, .CSExtraGrace⟩]⟩,
    ⟨"CSInhabit".toList, [⟨.PARAM_TIME, 0, .CSInhabit⟩]⟩,
    ⟨"CSListMax".toList, [⟨.PARAM_POSINT, 0, .CSListMax⟩]⟩,
    ⟨"CSListOpersOnly".toList, [⟨.PARAM_SET, 0, .CSListOpersOnly⟩]⟩,
    ⟨"CSMaxReg".toList, [⟨.PARAM_POSINT, 0, .CSMaxReg⟩]⟩,
    ⟨"CSMyEmail".toList, [⟨.PARAM_STRING, 0, .CSMyEmail⟩]⟩,
    ⟨"CSOpOper".toList, [⟨.PARAM_SET, 0, .CSOpOper⟩]⟩,
    ⟨"CSAkickOper".toList, [⟨.PARAM_SET, 0, .CSAkickOper⟩]⟩,
    ⟨"CSRestrictDelay".toList, [⟨.PARAM_TIME, 0, .CSRestrictDelay⟩]⟩,
    ⟨"CSSuspendExpire".toList, [⟨.PARAM_TIME, 0, .CSSuspendExpire⟩]⟩,
    ⟨"CSSuspendGrace".toList, [⟨.PARAM_TIME, 0, .CSSuspendGrace⟩]⟩,
    ⟨"CSWallReg".toList, [⟨.PARAM_SET, 0, .CSWallReg⟩]⟩,
    ⟨"DefaultCloak".toList, [⟨.PARAM_STRING, 0, .DefaultCloak⟩]⟩,
    ⟨"DefSessionLimit".toList, [⟨.PARAM_INT, 0, .DefSessionLimit⟩]⟩,
    ⟨"DevNullName".toList, [⟨.PARAM_STRING, 0, .s_DevNull⟩, ⟨.PARAM_STRING, 0, .desc_DevNull⟩]⟩,
    ⟨"ExceptionExpiry".toList, [⟨.PARAM_TIME, 0, .ExceptionExpiry⟩]⟩,
    ⟨"ExpireTimeout".toList, [⟨.PARAM_TIME, 0, .ExpireTimeout⟩]⟩,
    ⟨"FloodServAkillExpiry".toList, [⟨.PARAM_TIME, 0, .FloodServAkillExpiry⟩]⟩,
    ⟨"FloodServAkillReason".toList, [⟨.PARAM_STRING, 0, .FloodServAkillReason⟩]⟩,
    ⟨"FloodServName".toList, [⟨.PARAM_STRING, 0, .s_FloodServ⟩, ⟨.PARAM_STRING, 0, .desc_FloodServ⟩]⟩,
    ⟨"FloodServTFNumLines".toList, [⟨.PARAM_INT, 0, .FloodServTFNumLines⟩]⟩,
    ⟨"FloodServTFSec".toList, [⟨.PARAM_INT, 0, .FloodServTFSec⟩]⟩,
    ⟨"FloodServTFNLWarned".toList, [⟨.PARAM_INT, 0, .FloodServTFNLWarned⟩]⟩,
    ⟨"FloodServTFSecWarned".toList, [⟨.PARAM_INT, 0, .FloodServTFSecWarned⟩]⟩,
    ⟨"FloodServWarnFirst".toList, [⟨.PARAM_SET, 0, .FloodServWarnFirst⟩]⟩,
    ⟨"FloodServWarnMsg".toList, [⟨.PARAM_STRING, 0, .FloodServWarnMsg⟩]⟩,
    ⟨"GlobalName".toList, [⟨.PARAM_STRING, 0, .s_GlobalNoticer⟩, ⟨.PARAM_STRING, 0, .desc_GlobalNoticer⟩]⟩,
    ⟨"HelpDir".toList, [⟨.PARAM_STRING, 0, .HelpDir⟩]⟩,
    ⟨"HelpServName".toList, [⟨.PARAM_STRING, 0, .s_HelpServ⟩, ⟨.PARAM_STRING, 0, .desc_HelpServ⟩]⟩,
    ⟨"ImmediatelySendAkill".toList, [⟨.PARAM_SET, 0, .ImmediatelySendAkill⟩]⟩,
    ⟨"IrcIIHelpName".toList, [⟨.PARAM_STRING, 0, .s_IrcIIHelp⟩, ⟨.PARAM_STRING, 0, .desc_IrcIIHelp⟩]⟩,
    ⟨"LimitSessions".toList, [⟨.PARAM_SET, PARAM_FULLONLY, .LimitSessions⟩]⟩,
    ⟨"ListOpersOnly".toList, [⟨.PARAM_DEPRECATED, 0, .dep_ListOpersOnly⟩]⟩,
    ⟨"LocalAddress".toList, [⟨.PARAM_STRING, 0, .LocalHost⟩, ⟨.PARAM_PORT, PARAM_OPTIONAL, .LocalPort⟩]⟩,
    ⟨"LogMaxUsers".toList, [⟨.PARAM_SET, 0, .LogMaxUsers⟩]⟩,
    ⟨"MaxSessionLimit".toList, [⟨.PARAM_POSINT, 0, .MaxSessionLimit⟩]⟩,
    ⟨"MemoServName".toList, [⟨.PARAM_STRING, 0, .s_MemoServ⟩, ⟨.PARAM_STRING, 0, .desc_MemoServ⟩]⟩,
    ⟨"MOTDFile".toList, [⟨.PARAM_STRING, 0, .MOTDFilename⟩]⟩,
    ⟨"MySQLHost".toList, [⟨.PARAM_STRING, 0, .mysqlHost⟩]⟩,
    ⟨"MySQLUser".toList, [⟨.PARAM_STRING, 0, .mysqlUser⟩]⟩,
    ⟨"MySQLPass".toList, [⟨.PARAM_STRING, 0, .mysqlPass⟩]⟩,
    ⟨"MySQLDB".toList, [⟨.PARAM_STRING, 0, .mysqlDB⟩]⟩,
    ⟨"MySQLPort".toList, [⟨.PARAM_POSINT, 0, .mysqlPort⟩]⟩,
    ⟨"MySQLSocket".toList, [⟨.PARAM_STRING, 0, .mysqlSocket⟩]⟩,
    ⟨"MSMaxMemos".toList, [⟨.PARAM_POSINT, 0, .MSMaxMemos⟩]⟩,
    ⟨"MSNotifyAll".toList, [⟨.PARAM_SET, 0, .MSNotifyAll⟩]⟩,
    ⟨"MSROT13".toList, [⟨.PARAM_SET, 0, .MSROT13⟩]⟩,
    ⟨"MSSendDelay".toList, [⟨.PARAM_TIME, 0, .MSSendDelay⟩]⟩,
    ⟨"NetworkName".toList, [⟨.PARAM_STRING, 0, .NetworkName⟩]⟩,
    ⟨"NickServName".toList, [⟨.PARAM_STRING, 0, .s_NickServ⟩, ⟨.PARAM_STRING, 0, .desc_NickServ⟩]⟩,
    ⟨"NoSplitRecovery".toList, [⟨.PARAM_SET, 0, .NoSplitRecovery⟩]⟩,
    ⟨"NSAccessMax".toList, [⟨.PARAM_POSINT, 0, .NSAccessMax⟩]⟩,
    ⟨"NSAutoJoinMax".toList, [⟨.PARAM_POSINT, 0, .NSAutoJoinMax⟩]⟩,
    ⟨"NSDefHideEmail".toList, [⟨.PARAM_SET, 0, .NSDefHideEmail⟩]⟩,
    ⟨"NSDefHideQuit".toList, [⟨.PARAM_SET, 0, .NSDefHideQuit⟩]⟩,
    ⟨"NSDefHideUsermask".toList, [⟨.PARAM_SET, 0, .NSDefHideUsermask⟩]⟩,
    ⟨"NSDefEnforce".toList, [⟨.PARAM_SET, 0, .NSDefEnforce⟩]⟩,
    ⟨"NSDefEnforceQuick".toList, [⟨.PARAM_SET, 0, .NSDefEnforceQuick⟩]⟩,
    ⟨"NSDefMemoReceive".toList, [⟨.PARAM_SET, 0, .NSDefMemoReceive⟩]⟩,
    ⟨"NSDefMemoSignon".toList, [⟨.PARAM_SET, 0, .NSDefMemoSignon⟩]⟩,
    ⟨"NSDefNone".toList, [⟨.PARAM_SET, 0, .NSDefNone⟩]⟩,
    ⟨"NSDefPrivate".toList, [⟨.PARAM_SET, 0, .NSDefPrivate⟩]⟩,
    ⟨"NSDefSecure".toList, [⟨.PARAM_SET, 0, .NSDefSecure⟩]⟩,
    ⟨"NSDefAutoJoin".toList, [⟨.PARAM_SET, 0, .NSDefAutoJoin⟩]⟩,
    ⟨"NSDisableLinkCommand".toList, [⟨.PARAM_SET, 0, .NSDisableLinkCommand⟩]⟩,
    ⟨"NSEnforcerUser".toList, [⟨.PARAM_STRING, 0, .temp_nsuserhost⟩]⟩,
    ⟨"NSExpire".toList, [⟨.PARAM_TIME, 0, .NSExpire⟩]⟩,
    ⟨"NSExtraGrace".toList, [⟨.PARAM_SET, 0, .NSExtraGrace⟩]⟩,
    ⟨"NSGuestNickPrefix".toList, [⟨.PARAM_STRING, 0, .NSGuestNickPrefix⟩]⟩,
    ⟨"NSListMax".toList, [⟨.PARAM_POSINT, 0, .NSListMax⟩]⟩,
    ⟨"NSListOpersOnly".toList, [⟨.PARAM_SET, 0, .NSListOpersOnly⟩]⟩,
    ⟨"NSNickURL".toList, [⟨.PARAM_STRING, 0, .NSNickURL⟩]⟩,
    ⟨"NSMyEmail".toList, [⟨.PARAM_STRING, 0, .NSMyEmail⟩]⟩,
    ⟨"NSRegDelay".toList, [⟨.PARAM_TIME, 0, .NSRegDelay⟩]⟩,
    ⟨"NSRegExtraInfo".toList, [⟨.PARAM_STRING, 0, .NSRegExtraInfo⟩]⟩,
    ⟨"NSRegNeedAuth".toList, [⟨.PARAM_SET, 0, .NSRegNeedAuth⟩]⟩,
    ⟨"NSReleaseTimeout".toList, [⟨.PARAM_TIME, 0, .NSReleaseTimeout⟩]⟩,
    ⟨"NSSecureAdmins".toList, [⟨.PARAM_SET, 0, .NSSecureAdmins⟩]⟩,
    ⟨"NSSuspendExpire".toList, [⟨.PARAM_TIME, 0, .NSSuspendExpire⟩]⟩,
    ⟨"NSSuspendGrace".toList, [⟨.PARAM_TIME, 0, .NSSuspendGrace⟩]⟩,
    ⟨"NSWallReg".toList, [⟨.PARAM_SET, 0, .NSWallReg⟩]⟩,
    ⟨"OperServName".toList, [⟨.PARAM_STRING, 0, .s_OperServ⟩, ⟨.PARAM_STRING, 0, .desc_OperServ⟩]⟩,
    ⟨"PIDFile".toList, [⟨.PARAM_STRING, 0, .PIDFilename⟩]⟩,
    ⟨"ReadTimeout".toList, [⟨.PARAM_TIME, 0, .ReadTimeout⟩]⟩,
    ⟨"RemoteServer".toList, [⟨.PARAM_STRING, 0, .RemoteServer⟩,
      ⟨.PARAM_PORT, 0, .RemotePort⟩,
      ⟨.PARAM_STRING, 0, .RemotePassword⟩]⟩,
    ⟨"ServerDesc".toList, [⟨.PARAM_STRING, 0, .ServerDesc⟩]⟩,
    ⟨"ServerName".toList, [⟨.PARAM_STRING, 0, .ServerName⟩]⟩,
    ⟨"ServicesRoot".toList, [⟨.PARAM_STRING, 0, .ServicesRoot⟩]⟩,
    ⟨"ServiceUser".toList, [⟨.PARAM_STRING, 0, .temp_userhost⟩]⟩,
    ⟨"SessionAkillExpiry".toList, [⟨.PARAM_TIME, 0, .SessionAkillExpiry⟩]⟩,
    ⟨"SessionKillClues".toList, [⟨.PARAM_POSINT, 0, .SessionKillClues⟩]⟩,
    ⟨"SessionLimitDetailsLoc".toList, [⟨.PARAM_STRING, 0, .SessionLimitDetailsLoc⟩]⟩,
    ⟨"SessionLimitExceeded".toList, [⟨.PARAM_STRING, 0, .SessionLimitExceeded⟩]⟩,
    ⟨"SendmailPath".toList, [⟨.PARAM_STRING, 0, .SendmailPath⟩]⟩,
    ⟨"SnoopChan".toList, [⟨.PARAM_STRING, 0, .SnoopChan⟩]⟩,
    ⟨"StaticAkillReason".toList, [⟨.PARAM_STRING, 0, .StaticAkillReason⟩]⟩,
    ⟨"StrictPassReject".toList, [⟨.PARAM_SET, 0, .StrictPassReject⟩]⟩,
    ⟨"StrictPassWarn".toList, [⟨.PARAM_SET, 0, .StrictPassWarn⟩]⟩,
    ⟨"TimeoutCheck".toList, [⟨.PARAM_TIME, 0, .TimeoutCheck⟩]⟩,
    ⟨"WallAkillExpire".toList, [⟨.PARAM_SET, 0, .WallAkillExpire⟩]⟩,
    ⟨"WallExceptionExpire".toList, [⟨.PARAM_SET, 0, .WallExceptionExpire⟩]⟩,
    ⟨"WallBadOS".toList, [⟨.PARAM_SET, 0, .WallBadOS⟩]⟩,
    ⟨"WallGetpass".toList, [⟨.PARAM_SET, 0, .WallGetpass⟩]⟩,
    ⟨"WallOper".toList, [⟨.PARAM_SET, 0, .WallOper⟩]⟩,
    ⟨"WallOSAkill".toList, [⟨.PARAM_SET, 0, .WallOSAkill⟩]⟩,
    ⟨"WallOSClearmodes".toList, [⟨.PARAM_SET, 0, .WallOSClearmodes⟩]⟩,
    ⟨"WallOSException".toList, [⟨.PARAM_SET, 0, .WallOSException⟩]⟩,
    ⟨"WallOSKick".toList, [⟨.PARAM_SET, 0, .WallOSKick⟩]⟩,
    ⟨"WallOSMode".toList, [⟨.PARAM_SET, 0, .WallOSMode⟩]⟩,
    ⟨"WallSetpass".toList, [⟨.PARAM_SET, 0, .WallSetpass⟩]⟩,
    ⟨"WarningTimeout".toList, [⟨.PARAM_TIME, 0, .WarningTimeout⟩]⟩,
    ⟨"NSDefCloak".toList, [⟨.PARAM_SET, 0, .NSDefCloak⟩]⟩ ]

end BlitzedServices.Config
