import BlitzedServices.Lib.CircularBuffer
import BlitzedServices.Lib.CString
import BlitzedServices.Lib.SqlText
import BlitzedServices.Lib.Standing
import BlitzedServices.Lib.Glob
import BlitzedServices.Misc.MatchWild
import BlitzedServices.Sockutil.WriteBuffer
import BlitzedServices.Sockutil.ReadBuffer
import BlitzedServices.Sockutil.Lines
import BlitzedServices.Channels.Cmode
import BlitzedServices.ChanServ.CheckModes
import BlitzedServices.ChanServ.SetMlock
import BlitzedServices.ChanServ.OperLock
import BlitzedServices.Mysql.Connection
import BlitzedServices.Mysql.BuildQuery
import BlitzedServices.Mysql.Queries
import BlitzedServices.Mysql.Database
import BlitzedServices.ChanServ.RemoveNick
import BlitzedServices.ChanServ.Succession
import BlitzedServices.NickServ.DelNick
import BlitzedServices.ChanServ.Access
import BlitzedServices.Lib.Directory
import BlitzedServices.Lib.Runs
import BlitzedServices.NickServ.World
import BlitzedServices.NickServ.Users
import BlitzedServices.NickServ.Commands
import BlitzedServices.NickServ.Run
import BlitzedServices.NickServ.Registry
import BlitzedServices.NickServ.Effects
import BlitzedServices.NickServ.Links
import BlitzedServices.NickServ.OnlineIds
import BlitzedServices.NickServ.DropAuth
import BlitzedServices.NickServ.Codes
import BlitzedServices.NickServ.Statuses
import BlitzedServices.NickServ.StatusHandlers
import BlitzedServices.NickServ.CacheCoherence
import BlitzedServices.NickServ.Actions
import BlitzedServices.NickServ.PendingTimeouts
import BlitzedServices.NickServ.Changes
import BlitzedServices.NickServ.Forbids
import BlitzedServices.Lib.Strtok
import BlitzedServices.Users.Usermask
import BlitzedServices.Users.CreateMask
import BlitzedServices.Users.SplitUsermask
import BlitzedServices.Users.UserTable
import BlitzedServices.Users.UserCounts
import BlitzedServices.Channels.Iteration
import BlitzedServices.Channels.Bans
import BlitzedServices.Akill.CheckAkill
import BlitzedServices.Misc.Dotime
import BlitzedServices.Akill.AddAkill
import BlitzedServices.Akill.ListAkills
import BlitzedServices.Sessions.Accounting
import BlitzedServices.Lib.LinkedList
import BlitzedServices.Lib.Ledger
import BlitzedServices.Lib.CBuffer
import BlitzedServices.Lib.TextBuffer
import BlitzedServices.Lib.HashTable
import BlitzedServices.Lib.CircularList
import BlitzedServices.Lib.Cursor
import BlitzedServices.Lib.SiblingForest
import BlitzedServices.Lib.OffsetTable
import BlitzedServices.Misc.IrcCase
import BlitzedServices.Servers.ServerTree
import BlitzedServices.Lang.Langcomp
import BlitzedServices.Lang.LoadLang
import BlitzedServices.Process.Process
import BlitzedServices.Process.OpenResults
import BlitzedServices.ChanServ.Sync
import BlitzedServices.ChanServ.SyncServer
import BlitzedServices.ChanServ.ModeStrings
import BlitzedServices.OperServ.Clearmodes
import BlitzedServices.Timeout.CheckTimeouts
import BlitzedServices.NickServ.NsTimeouts
import BlitzedServices.Mysql.Passwords
import BlitzedServices.ChanServ.Passwords
import BlitzedServices.ChanServ.Register
import BlitzedServices.ChanServ.AccessAgreement
import BlitzedServices.ChanServ.MemoTimes
import BlitzedServices.NickServ.SecureAdmins
import BlitzedServices.NickServ.CacheChains
import BlitzedServices.NickServ.Session
import BlitzedServices.MemoServ.Memos
import BlitzedServices.MemoServ.ListMemos
import BlitzedServices.FloodServ.Policy
import BlitzedServices.ChanServ.Levels
import BlitzedServices.NickServ.SuspendGrace
import BlitzedServices.Mysql.NumberQueries
import BlitzedServices.Channels.Parameters
import BlitzedServices.NickServ.CaseChange
import BlitzedServices.Users.Sjoin
import BlitzedServices.MemoServ.Routing
import BlitzedServices.Misc.TimeTexts
import BlitzedServices.Lib.Substitution
import BlitzedServices.Misc.Strnrepl
import BlitzedServices.Channels.BanArray
import BlitzedServices.ChanServ.Unban
import BlitzedServices.Channels.Autolimit
import BlitzedServices.Akill.ExpireAkills
import BlitzedServices.Lib.CursorLoop
import BlitzedServices.Users.KillUser
import BlitzedServices.OperServ.Killclones
import BlitzedServices.OperServ.News
import BlitzedServices.OperServ.Quarantine
import BlitzedServices.HelpServ.DoHelp
import BlitzedServices.FloodServ.KillFlooders
import BlitzedServices.Channels.ExpireBans
import BlitzedServices.MemoServ.SetLimit
import BlitzedServices.Lib.Joins
import BlitzedServices.MemoServ.Broadcast
import BlitzedServices.Lib.Strtol
import BlitzedServices.Config.Directives
import BlitzedServices.Config.Parse
import BlitzedServices.Config.Numbers
import BlitzedServices.Vsnprintf.Writefunc
import BlitzedServices.Vsnprintf.Format
import BlitzedServices.Vsnprintf.Pfmt
import BlitzedServices.Vsnprintf.Emission
import BlitzedServices.Vsnprintf.Scanning
import BlitzedServices.Vsnprintf.Buffer
import BlitzedServices.Lib.BlockHash
import BlitzedServices.Lib.Sha1
import BlitzedServices.Sha1.Transform
import BlitzedServices.Sha1.Digest
import BlitzedServices.Lib.Mirror
import BlitzedServices.Lib.PartialRuns
import BlitzedServices.Users.Network
import BlitzedServices.Users.Ranks
import BlitzedServices.Users.Membership
import BlitzedServices.Users.MembershipRuns
import BlitzedServices.Users.Presence
import BlitzedServices.Lib.NumberedList
import BlitzedServices.ChanServ.Akick
import BlitzedServices.ChanServ.AkickRuns
import BlitzedServices.ChanServ.AkickNumbers
