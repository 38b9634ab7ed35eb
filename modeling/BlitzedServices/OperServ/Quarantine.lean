import BlitzedServices.ChanServ.Akick
import BlitzedServices.Lib.Standing

/-!
# Quarantines

The table of quarantines is what services tell the network as SQLINEs: a quarantine is added by an admin or learned from a
server, and an admin deletes it. When the uplink comes, all of them are told.

A command is `none` where services exit, because MySQL refuses a statement.
-/

set_option autoImplicit false
set_option relaxedAutoImplicit false

namespace BlitzedServices.OperServ

open Lib Misc Mysql
open ChanServ (fits isNumlist)
open NumberQueries (Frame)

/-! ### The table -/

/-- Table `quarantine`. -/
structure QuarantineRow where
  quarantineId : ℕ
  idx : ℕ
  regex : CString
  addedBy : CString
  addedTime : ℕ
  reason : CString
  deriving DecidableEq

/-- The rows, and the AUTO_INCREMENT value of the table. -/
structure QuarantineTable where
  rows : List QuarantineRow
  nextId : ℕ

/-- A text as a `varchar(255)` takes it. -/
def column (text : CString) : CString := text.take 255

/-- The INSERT; `none` is `ER_DUP_ENTRY`. -/
def insertQuarantine (table : QuarantineTable) (now : ℕ) (regex addedBy reason : CString) : Option QuarantineTable :=
  if table.rows.any fun r ↦ sameName r.regex (column regex) then none
  else
    some
      { rows := table.rows ++
          [⟨table.nextId, table.rows.length + 1, column regex, column addedBy, now, column reason⟩]
        nextId := table.nextId + 1 }

/-- The rows in the order of their times. -/
def quarantinesByTime (rows : List QuarantineRow) : List QuarantineRow :=
  rows.mergeSort fun r s ↦ r.addedTime ≤ s.addedTime

/-- `renumber_quarantines`. The REPLACE keeps every column but the number. -/
def renumberQuarantines (table : QuarantineTable) : QuarantineTable :=
  { table with
    rows := table.rows.map fun r ↦
      if r ∈ quarantinesByTime table.rows then { r with idx := (quarantinesByTime table.rows).idxOf r + 1 } else r }

/-! ### What is sent -/

/-- What is sent to the network. -/
inductive QuarantineCall
  | sqline (regex reason : CString)
  | unsqline (regex : CString)
  | wallops (text : CString)
  deriving DecidableEq

/-- The time, the regular expressions of the C library, and the nicks and the channels that are in use. `regcomp` is the
text of `regerror` for an expression it refuses. -/
structure QuarantineEnv where
  now : ℕ
  regcomp : CString → Option CString
  regexec : CString → CString → Bool
  nicks : List CString
  channels : List CString

/-- `chan_count_regex_match` for a text with a `#`, else `user_count_regex_match`. -/
def countRegexMatch (env : QuarantineEnv) (regex : CString) : ℕ :=
  if '#' ∈ regex then env.channels.countP (env.regexec regex) else env.nicks.countP (env.regexec regex)

/-- The last line of a quarantine that is new. -/
def matchesText (env : QuarantineEnv) (regex : CString) : CString :=
  "Matches ".toList ++ decimal (countRegexMatch env regex) ++ " currently in use ".toList ++
    (if '#' ∈ regex then "channel".toList else "nick".toList) ++
    (if countRegexMatch env regex = 1 then [] else "s".toList)

/-- `do_sqline`. -/
def doSqline (env : QuarantineEnv) (table : QuarantineTable) (source regex reason : CString) :
    List QuarantineCall × QuarantineTable :=
  match env.regcomp regex with
  | some error =>
    ([.wallops ("Ignoring broken QLINE ".toList ++ regex ++ " from server ".toList ++ source ++ " (".toList ++ reason ++
        ")".toList),
      .wallops ("Error: ".toList ++ error)], table)
  | none =>
    match insertQuarantine table env.now regex source reason with
    | none => ([], table)
    | some table =>
      ([.wallops ("Quarantine ".toList ++ regex ++ " learned from server ".toList ++ source ++ " (".toList ++ reason ++
          ")".toList),
        .sqline regex reason, .wallops (matchesText env regex)], table)

/-- `send_sqlines`. -/
def sendSqlines (table : QuarantineTable) : List QuarantineCall :=
  table.rows.map fun r ↦ .sqline r.regex r.reason

/-! ### The command -/

/-- The messages the command answers with. -/
inductive QuarantineReply
  | OPER_QUARANTINE_SYNTAX
  | OPER_QUARANTINE_NO_MATCH
  | OPER_QUARANTINE_BROKEN_REGEX (regex : CString)
  | OPER_QUARANTINE_ALREADY_PRESENT (regex : CString)
  | OPER_QUARANTINE_ADDED (regex : CString) (count : ℕ)
  | OPER_QUARANTINE_DELETED_ONE
  | OPER_QUARANTINE_DELETED_SEVERAL (rows : ℕ)
  | listed (rows : List QuarantineRow)
  | silent
  deriving DecidableEq

/-- A quarantine is sent back as no longer there. -/
def announceDeleted (nick : CString) (r : QuarantineRow) : List QuarantineCall :=
  [.unsqline r.regex,
    .wallops (nick ++ " removed Quarantine on ".toList ++ r.regex ++ " (".toList ++ r.reason ++ ")".toList)]

/-- The SELECT of LIST with a list of numbers. -/
def quarantineList : Frame where
  pieces := [.sql "SELECT idx, regex, added_by, added_time, reason FROM quarantine WHERE (".toList]
  column := NumberQueries.idx
  tail := ") ORDER BY idx ASC".toList

/-- The SELECT of DEL with a list of numbers. -/
def quarantineSelect : Frame where
  pieces := [.sql "SELECT regex, reason FROM quarantine WHERE (".toList]
  column := NumberQueries.idx
  tail := ")".toList

/-- The DELETE of DEL with a list of numbers. -/
def quarantineDelete : Frame where
  pieces := [.sql "DELETE FROM quarantine WHERE (".toList]
  column := NumberQueries.idx
  tail := ")".toList

/-- QUARANTINE LIST. The test for a list of numbers does not ask for a digit at the front, as that of DEL does. -/
def doQuarantineList (table : QuarantineTable) (regex : Option CString) : Option QuarantineReply :=
  let shown (rows : List QuarantineRow) : QuarantineReply :=
    match rows.mergeSort fun r s ↦ r.idx ≤ s.idx with
    | [] => .OPER_QUARANTINE_NO_MATCH
    | rows => .listed rows
  match regex with
  | none => some (shown table.rows)
  | some regex =>
    if regex.all fun c ↦ c.isDigit || c == ',' || c == '-' then
      if fits quarantineList regex 32767 then
        some (shown (table.rows.filter fun r ↦ inRanges (queryRanges regex 32767) r.idx))
      else none
    else some (shown (table.rows.filter fun r ↦ sameName r.regex regex))

/-- QUARANTINE ADD. -/
def doQuarantineAdd (env : QuarantineEnv) (table : QuarantineTable) (nick regex reason : CString) :
    QuarantineReply × List QuarantineCall × QuarantineTable :=
  if env.regcomp regex ≠ none then (.OPER_QUARANTINE_BROKEN_REGEX regex, [], table)
  else
    match insertQuarantine table env.now regex nick reason with
    | none => (.OPER_QUARANTINE_ALREADY_PRESENT regex, [], table)
    | some table =>
      (.OPER_QUARANTINE_ADDED regex (countRegexMatch env regex),
        [.sqline regex reason,
          .wallops (nick ++ " added Quarantine on ".toList ++ regex ++ " (".toList ++ reason ++ ")".toList),
          .wallops (matchesText env regex)], table)

/-- The rows that DEL deletes. -/
def quarantineChosen (regex : CString) (r : QuarantineRow) : Bool :=
  if isNumlist regex then inRanges (queryRanges regex 32767) r.idx else sameName r.regex regex

/-- QUARANTINE DEL. -/
def doQuarantineDel (table : QuarantineTable) (nick regex : CString) :
    Option (QuarantineReply × List QuarantineCall × QuarantineTable) :=
  if isNumlist regex ∧ ¬ (fits quarantineSelect regex 32767 ∧ fits quarantineDelete regex 32767) then none
  else
    let deleted := table.rows.filter (quarantineChosen regex)
    let table' := { table with rows := table.rows.filter fun r ↦ !quarantineChosen regex r }
    let calls := deleted.flatMap (announceDeleted nick)
    if deleted.length = 0 then some (.OPER_QUARANTINE_NO_MATCH, calls, table')
    else if deleted.length = 1 then some (.OPER_QUARANTINE_DELETED_ONE, calls, renumberQuarantines table')
    else some (.OPER_QUARANTINE_DELETED_SEVERAL deleted.length, calls, renumberQuarantines table')

/-- The words of the line: the command, the regular expression and the reason. -/
def quarantineWords (line : CString) : Option CString × Option CString × Option CString :=
  let (cmd, line) := strtokCall [' '] line
  let (regex, line) := strtokCall [' '] line
  (cmd, regex, (strtokCall [] line).1)

/-- `do_quarantine`. Any other command is not answered. -/
def doQuarantine (env : QuarantineEnv) (table : QuarantineTable) (nick line : CString) :
    Option (QuarantineReply × List QuarantineCall × QuarantineTable) :=
  match quarantineWords line with
  | (none, _) => some (.OPER_QUARANTINE_SYNTAX, [], table)
  | (some cmd, regex, reason) =>
    if stricmp cmd "ADD".toList = 0 ∧ (regex = none ∨ reason = none) ∨ stricmp cmd "DEL".toList = 0 ∧ regex = none then
      some (.OPER_QUARANTINE_SYNTAX, [], table)
    else if stricmp cmd "LIST".toList = 0 then
      (doQuarantineList table regex).map fun reply ↦ (reply, [], table)
    else if stricmp cmd "ADD".toList = 0 then some (doQuarantineAdd env table nick (regex.getD []) (reason.getD []))
    else if stricmp cmd "DEL".toList = 0 then doQuarantineDel table nick (regex.getD [])
    else some (.silent, [], table)

/-! ### Runs -/

/-- What comes in: a SQLINE of a server, a command of an admin, and the SERVER line of the uplink. -/
inductive QuarantineMessage where
  | sqline (env : QuarantineEnv) (source regex reason : CString)
  | quarantine (env : QuarantineEnv) (nick line : CString)
  | uplink

/-- The table, and what has been sent. -/
structure Quarantines where
  table : QuarantineTable
  sent : List QuarantineCall

/-- One message. -/
def Quarantines.receive (s : Quarantines) : QuarantineMessage → Option Quarantines
  | .sqline env source regex reason =>
    let (calls, table) := doSqline env s.table source regex reason
    some ⟨table, s.sent ++ calls⟩
  | .quarantine env nick line =>
    (doQuarantine env s.table nick line).map fun (_, calls, table) ↦ ⟨table, s.sent ++ calls⟩
  | .uplink => some ⟨s.table, s.sent ++ sendSqlines s.table⟩

end BlitzedServices.OperServ
