import BlitzedServices.Lib.SqlText
import BlitzedServices.Mysql.Database
import BlitzedServices.ChanServ.SetMlock

/-!
# The statements built from command texts

Each command writes its texts into a statement template: some escaped by `smysql_escape_string`, some
escaped and cut to `PASSMAX - 1` characters, some as they are. `smysqlBulkQuery` then cuts the
whole to its buffer. A statement is `Intact` when the server reads the tokens of its template with
each text as the value of one literal.

`queries_intact_iff` says for which texts that is so. REGISTER with `NSRegNeedAuth` and SESSION VIEW
write texts unescaped; REGISTER and SET PASSWORD cut an escaped password, which can lose the second
half of an escape; and SET PASSWORD escapes the password twice for the lookup of
`validate_password`. No command line is long enough to fill the buffer.
-/

set_option autoImplicit false
set_option relaxedAutoImplicit false

namespace BlitzedServices.Mysql

open Lib SqlText Channels ChanServ

/-! ### Lines, users and statements -/

/-- A line, or a part of one. `process` copies each line into `char buf[512]`. -/
structure Line where
  text : CString
  short : text.length ≤ 511

/-- The copy that `process` makes. -/
def Line.ofInbuf (inbuf : CString) : Line where
  text := strscpy inbuf 512
  short := by
    rw [strscpy, List.length_take]
    omega

/-- The fields of a user the statements are built from. The last three came in one NICK line, and
the nick was copied into `NICKMAX` bytes. -/
structure User where
  nick : CString
  username : CString
  host : CString
  realname : CString
  nickId : BitVec 32
  realId : BitVec 32
  lastnickreg : ℤ
  nick_short : nick.length ≤ 31
  line_short : username.length + host.length + realname.length ≤ 511

/-- A string of `make_random_string` with `SALTMAX` bytes: sixteen letters. -/
structure Salt where
  text : CString
  letters : text.all Char.isAlpha
  length_eq : text.length = 16

/-- A hash of `make_sha_hash`: forty hexadecimal digits. -/
structure Code where
  text : CString
  digits : text.all Char.isAlphanum
  length_eq : text.length = 40

/-- A template with its texts. -/
abbrev Query := List Piece

/-- Text of a template. -/
def sql (text : String) : Piece :=
  .sql text.toList

/-- A `%d` outside literals. -/
def int (n : BitVec 32) : Piece :=
  .sql (decimal n.toInt)

/-- A `%u` outside literals. -/
def uint (n : BitVec 32) : Piece :=
  .sql (decimal n.toNat)

/-- A literal of the template itself. -/
def const (text : String) : Piece :=
  .quoted text.toList text.toList

/-- The text that `smysql_bulk_query` sends, printed into `char buf[4096]`. -/
def smysqlBulkQuery (q : Query) : CString :=
  (render q).take 4095

/-- The server reads the tokens of the template, with each text as the value of its literal. -/
def Intact (q : Query) : Prop :=
  lex (smysqlBulkQuery q) = some (intended q)

section Commands

-- `mysql_real_escape_string` belongs to the client library.
variable (realEscape : CString → CString)

/-! ### NickServ REGISTER -/

/-- The text without its last dot and what follows it. -/
def beforeLastDot (s : CString) : CString :=
  ((s.reverse.dropWhile (· ≠ '.')).drop 1).reverse

/-- `create_mask`. -/
def createMask (u : User) : CString :=
  let numeric := u.host.all (fun c ↦ c.isDigit || c == '.') && u.host.count '.' == 3
  let host :=
    if numeric then
      let s := beforeLastDot u.host
      let s := if (atoi u.host).toInt < 192 then beforeLastDot s else s
      let s := if (atoi u.host).toInt < 128 then beforeLastDot s else s
      s ++ ['.', '*']
    else if 2 ≤ u.host.count '.' then '*' :: u.host.dropWhile (· ≠ '.')
    else u.host
  u.username ++ '@' :: host

/-- The configuration and the answers of the database that `do_register` depends on. The two
numbers at the end are never set for a new nick. -/
structure RegisterEnv where
  nsRegNeedAuth : Bool
  nsGuestNickPrefix : CString
  nsRegDelay : ℤ
  defFlags : BitVec 32
  defLanguage : BitVec 32
  csMaxReg : BitVec 32
  msMaxMemos : BitVec 32
  now : BitVec 32
  passwordIsNick : Bool
  authPending : Bool
  authRow : Option Line
  insertId : BitVec 32
  salt : Salt
  code : Code
  idStamp : BitVec 32
  regainid : BitVec 32

/-- A guest nick: the prefix and one to ten digits. -/
def isGuestNick (pre nick : CString) : Bool :=
  nick.length ≤ pre.length + 10 && pre.length + 1 ≤ nick.length &&
    stricmp (nick.take pre.length) pre == 0 && (nick.drop pre.length).all Char.isDigit

/-- The lookup of `validate_password`: the text it is given, for the text that was typed. -/
def passwordLookup (u : User) (pass typed : CString) : Query :=
  [sql "SELECT 1 FROM nick WHERE (nick_id=", uint u.nickId, sql " || link_id=", uint u.nickId,
    sql ") && STRCMP(nick, ", .quoted (realEscape pass) typed, sql ")=0"]

/-- The comparisons of `validate_password` before its lookup. -/
def passwordIsName (u : User) (pass : CString) : Bool :=
  let username := if u.username.head? = some '~' then u.username.tail else u.username
  stricmp pass u.nick == 0 || stricmp pass username == 0 || stricmp pass u.realname == 0

/-- `validate_password` for a nick: its statements and whether the password is accepted. -/
def validatePassword (passwordIsNick : Bool) (u : User) (pass typed : CString) :
    List Query × Bool :=
  if passwordIsName u pass then ([], false)
  else if u.nickId ≠ 0#32 then ([passwordLookup realEscape u pass typed], !passwordIsNick)
  else ([], true)

/-- The statement that looks an AUTH code up. -/
def authLookup (u : User) (authcode : CString) : Query :=
  [sql "SELECT params FROM auth WHERE command=", const "NICK_REG", sql " && code=",
    .quoted (realEscape authcode) authcode, sql " && name=", .quoted (realEscape u.nick) u.nick]

/-- The statement that looks for a pending AUTH code. -/
def authPendingLookup (u : User) : Query :=
  [sql "SELECT 1 FROM auth WHERE command=", const "NICK_REG", sql " && name=",
    .quoted (realEscape u.nick) u.nick]

/-- The statement that stores password and address until the AUTH code comes back. -/
def authInsert (env : RegisterEnv) (u : User) (pass email : CString) : Query :=
  [sql "INSERT INTO auth SET auth_id=", const "NULL", sql ", code=",
    .quoted env.code.text env.code.text, sql ", name=", .quoted (realEscape u.nick) u.nick,
    sql ", command=", const "NICK_REG", sql ", params=",
    .quoted (pass ++ ' ' :: email) (pass ++ ' ' :: email), sql ", create_time=", int env.now]

/-- The first statement of `insert_new_nick`. -/
def nickInsert (env : RegisterEnv) (u : User) (pass email : CString) : Query :=
  let lastUsermask := u.username ++ '@' :: u.host
  [sql "INSERT INTO nick (nick_id, nick, pass, salt, email, last_usermask, last_realname, ",
    sql "time_registered, last_seen, status, flags, channelmax, language, id_stamp, regainid) ",
    sql "VALUES (", const "NULL", sql ", ", .quoted (realEscape u.nick) u.nick, sql ", SHA1(",
    .quoted (strscpy (realEscape pass) 41 ++ env.salt.text) (strscpy pass 41 ++ env.salt.text),
    sql "), ", .quoted env.salt.text env.salt.text, sql ", ", .quoted (realEscape email) email,
    sql ", ", .quoted (realEscape lastUsermask) lastUsermask, sql ", ",
    .quoted (realEscape u.realname) u.realname, sql ", ", int env.now, sql ", ", int env.now,
    sql ", ", int (NS_IDENTIFIED ||| NS_RECOGNIZED), sql ", ", int env.defFlags, sql ", ", uint env.csMaxReg, sql ", ",
    uint env.defLanguage, sql ", ", int env.idStamp, sql ", ", uint env.regainid, sql ")"]

/-- The memo settings of a new nick. -/
def memoinfoInsert (env : RegisterEnv) (u : User) : Query :=
  [sql "INSERT INTO memoinfo (memoinfo_id, owner, max) VALUES (", const "NULL", sql ", ",
    .quoted (realEscape u.nick) u.nick, sql ", ", uint env.msMaxMemos, sql ")"]

/-- The access mask of a new nick. -/
def nickaccessInsert (env : RegisterEnv) (u : User) : Query :=
  [sql "INSERT INTO nickaccess (nickaccess_id, idx, nick_id, userhost) VALUES (", const "NULL",
    sql ", 1, ", uint env.insertId, sql ", ", .quoted (realEscape (createMask u)) (createMask u),
    sql ")"]

/-- `register_nick`. -/
def registerNick (env : RegisterEnv) (u : User) (pass email : CString) : List Query :=
  [nickInsert realEscape env u pass email, memoinfoInsert realEscape env u,
    nickaccessInsert realEscape env u]

/-- The two `strtok` calls on the parameters of an AUTH row. -/
def authParams (row : CString) : CString × CString :=
  let row := row.dropWhile (· = ' ')
  (row.takeWhile (· ≠ ' '), (row.dropWhile (· ≠ ' ')).drop 1)

/-- What `do_register` was asked for. -/
inductive RegisterRequest
  /-- `REGISTER AUTH authcode` -/
  | auth (authcode : CString)
  /-- `REGISTER pass email` -/
  | new (pass email : CString)

/-- The tests of `do_register` before its first statement, on the rest of the line. -/
def registerRequest (env : RegisterEnv) (u : User) (rest : Line) : Option RegisterRequest :=
  if isGuestNick env.nsGuestNickPrefix u.nick then none
  else
    match strtokWords rest.text with
    | [] => none
    | [_] => none
    | pass :: email :: words =>
      if stricmp pass "AUTH".toList = 0 then some (.auth email)
      else if stricmp pass u.nick = 0 ∧ words ≠ [] then none
      else if env.now.toInt < u.lastnickreg + env.nsRegDelay then none
      else if '@' ∉ email then none
      else if u.realId ≠ 0#32 then none
      else some (.new pass email)

/-- `do_register`. -/
def doRegister (env : RegisterEnv) (u : User) (rest : Line) : List Query :=
  match registerRequest env u rest with
  | none => []
  | some (.auth authcode) =>
    authLookup realEscape u authcode ::
      match env.authRow with
      | none => []
      | some row => registerNick realEscape env u (authParams row.text).1 (authParams row.text).2
  | some (.new pass email) =>
    let (queries, accepted) := validatePassword realEscape env.passwordIsNick u pass pass
    queries ++
      if accepted = false then []
      else if env.nsRegNeedAuth then
        authPendingLookup realEscape u ::
          if env.authPending then [] else [authInsert realEscape env u pass email]
      else registerNick realEscape env u pass email

/-! ### NickServ SET PASSWORD -/

/-- What `do_set_password` reads besides its parameter. -/
structure SetPasswordEnv where
  nsSecureAdmins : Bool
  isServicesRoot : Bool
  isServicesAdmin : Bool
  targetIsServicesAdmin : Bool
  targetMarked : Bool
  passwordIsNick : Bool
  nickId : BitVec 32
  salt : Salt

/-- The two permission tests. -/
def mayNotSetPassword (env : SetPasswordEnv) (u : User) : Bool :=
  (env.nsSecureAdmins && u.realId != env.nickId && !env.isServicesRoot &&
      env.targetIsServicesAdmin) ||
    (env.targetMarked && !(env.isServicesRoot || env.isServicesAdmin))

/-- The statement that stores a new password. -/
def passwordUpdate (env : SetPasswordEnv) (param : CString) : Query :=
  [sql "UPDATE nick SET pass=SHA1(",
    .quoted (strscpy (realEscape param) 41 ++ env.salt.text) (strscpy param 41 ++ env.salt.text),
    sql "), salt=", .quoted env.salt.text env.salt.text, sql " WHERE nick_id=", uint env.nickId]

/-- `do_set_password`. -/
def doSetPassword (env : SetPasswordEnv) (u : User) (param : Line) : List Query :=
  if mayNotSetPassword env u then []
  else
    let (queries, accepted) :=
      validatePassword realEscape env.passwordIsNick u (realEscape param.text) param.text
    queries ++ if accepted = false then [] else [passwordUpdate realEscape env param.text]

/-! ### ChanServ SET MLOCK -/

/-- The statement that stores the new lock. Without a key the literal is empty. -/
def mlockUpdate (channelId : BitVec 32) (st : MlockState) : Query :=
  let key := st.newlockKey.getD []
  [sql "UPDATE channel SET mlock_on=", int st.newlockOn, sql ", mlock_off=", int st.newlockOff,
    sql ", mlock_limit=", uint st.newlockLimit, sql ", mlock_key=", .quoted (realEscape key) key,
    sql " WHERE channel_id=", uint channelId]

/-- The statements of `do_set_mlock` that carry its parameters. -/
def setMlockQueries (channelId : BitVec 32) (isOper : Bool) (row : MlockRow)
    (param : CString) (rest : Line) : List Query :=
  match mlockLoop isOper row (if isOff param then [] else param)
    (.start param (strtokWords rest.text)) with
  | .error _ => []
  | .ok st => if st.add = none then [] else [mlockUpdate realEscape channelId st]

/-! ### OperServ SESSION -/

/-- The statement of SESSION LIST. -/
def sessionList (defSessionLimit mincount : BitVec 32) : Query :=
  [sql "SELECT session.host, session.count, IFNULL(exception.ex_limit, ", int defSessionLimit,
    sql ") FROM session LEFT JOIN exception ON IRC_MATCH(exception.mask, session.host) ",
    sql "WHERE session.count >= ", int mincount, sql " ORDER BY session.count DESC"]

/-- The statement of SESSION VIEW. -/
def sessionView (defSessionLimit : BitVec 32) (host : CString) : Query :=
  [sql "SELECT session.host, session.count, IFNULL(exception.ex_limit, ", int defSessionLimit,
    sql ") FROM session LEFT JOIN exception ON IRC_MATCH(exception.mask, session.host) ",
    sql "WHERE session.host=", .quoted host host]

/-- `do_session`. -/
def doSession (limitSessions : Bool) (defSessionLimit : BitVec 32) (rest : Line) : List Query :=
  if limitSessions = false then []
  else
    match strtokWords rest.text with
    | cmd :: param1 :: _ =>
      if stricmp cmd "LIST".toList = 0 then
        if (atoi param1).toInt ≤ 1 then [] else [sessionList defSessionLimit (atoi param1)]
      else if stricmp cmd "VIEW".toList = 0 then [sessionView defSessionLimit param1]
      else []
    | _ => []

/-! ### The commands -/

/-- A command with what it reads. -/
inductive Command
  | register (env : RegisterEnv) (u : User) (rest : Line)
  | setPassword (env : SetPasswordEnv) (u : User) (param : Line)
  | setMlock (channelId : BitVec 32) (isOper : Bool) (row : MlockRow) (param : CString)
    (rest : Line)
  | session (limitSessions : Bool) (defSessionLimit : BitVec 32) (rest : Line)

/-- The statements of a command. -/
def Command.queries : Command → List Query
  | .register env u rest => doRegister realEscape env u rest
  | .setPassword env u param => doSetPassword realEscape env u param
  | .setMlock channelId isOper row param rest =>
    setMlockQueries realEscape channelId isOper row param rest
  | .session limitSessions defSessionLimit rest => doSession limitSessions defSessionLimit rest

end Commands

/-! ### Statements that are always intact -/

theorem isQuote_decimal (n : ℤ) : ∀ c ∈ decimal n, isQuote c = false := by
  intro c hc
  rcases mem_decimal hc with rfl | hdigit
  · rfl
  · by_contra hquote
    simp only [isQuote, Bool.not_eq_false, Bool.or_eq_true, beq_iff_eq] at hquote
    rcases hquote with rfl | rfl <;> exact absurd hdigit (by decide)

theorem length_decimal_le {n : ℤ} (h : n.natAbs < 10 ^ 10) : (decimal n).length ≤ 11 := by
  have hdigits : (Nat.toDigits 10 n.natAbs).length ≤ 10 :=
    (Nat.length_toDigits_le_iff (by decide) (by decide)).mpr h
  rw [decimal]
  split_ifs
  · rw [List.length_cons]
    omega
  · omega

theorem length_int_le (n : BitVec 32) : (int n).text.length ≤ 11 := by
  have hlt := n.toInt_lt
  have hle := n.le_toInt
  exact length_decimal_le (by omega)

theorem length_uint_le (n : BitVec 32) : (uint n).text.length ≤ 11 := by
  have hlt := n.isLt
  exact length_decimal_le (by omega)

/-- A statement that the buffer holds is sent whole. -/
theorem intact_iff_of_length {q : Query} (h : (render q).length ≤ 4095) :
    Intact q ↔ lex (render q) = some (intended q) := by
  rw [Intact, smysqlBulkQuery, List.take_of_length_le h]

@[simp] theorem length_text_sql (text : String) : (sql text).text.length = text.toList.length := rfl

@[simp] theorem length_text_const (text : String) :
    (const text).text.length = text.toList.length + 2 := by
  simp [const, Piece.text]

@[simp] theorem length_text_quoted (written value : CString) :
    (Piece.quoted written value).text.length = written.length + 2 := by
  simp [Piece.text]

@[simp] theorem sound_nil (s : CString) : Sound s [] ↔ True := Iff.rfl

@[simp] theorem sound_sql (s : CString) (text : String) (ps : List Piece) :
    Sound s (sql text :: ps) ↔ text.toList.all (!isQuote ·) ∧ Sound s ps := by
  simp [Sound, sql]

@[simp] theorem sound_int (s : CString) (n : BitVec 32) (ps : List Piece) :
    Sound s (int n :: ps) ↔ Sound s ps :=
  and_iff_right (isQuote_decimal _)

@[simp] theorem sound_uint (s : CString) (n : BitVec 32) (ps : List Piece) :
    Sound s (uint n :: ps) ↔ Sound s ps :=
  and_iff_right (isQuote_decimal _)

/-- A literal of the template before other text of the template. -/
@[simp] theorem sound_const (s : CString) {text : String} (htext : verbatim text.toList)
    (next : String) (ps : List Piece) :
    Sound s (const text :: sql next :: ps) ↔
      (next.toList ++ (render ps ++ s)).head? ≠ some '\'' ∧ Sound s (sql next :: ps) := by
  have hdecodes := decodes_of_verbatim htext
  simp [Sound, const, sql, Piece.text, hdecodes]

/-- A literal with a text before text of the template. -/
@[simp] theorem sound_quoted (s written value : CString) (next : String) (ps : List Piece) :
    Sound s (.quoted written value :: sql next :: ps) ↔
      Decodes written value ∧ (next.toList ++ (render ps ++ s)).head? ≠ some '\'' ∧
        Sound s (sql next :: ps) := by
  simp [Sound, sql, Piece.text]

/-- A literal with a text at the end. -/
@[simp] theorem sound_quoted_nil (written value : CString) :
    Sound [] [.quoted written value] ↔ Decodes written value := by
  simp [Sound]

theorem Code.decodes (code : Code) : Decodes code.text code.text := by
  refine .of_forall fun c hc ↦ ?_
  have hdigit := List.all_eq_true.mp code.digits c hc
  refine ⟨?_, ?_⟩ <;> rintro rfl <;> exact absurd hdigit (by decide)

theorem Salt.isLetters (salt : Salt) : Letters salt.text := by
  intro c hc
  have hletter := List.all_eq_true.mp salt.letters c hc
  refine ⟨?_, ?_, ?_⟩
  · rintro rfl
    exact absurd hletter (by decide)
  · rintro rfl
    exact absurd hletter (by decide)
  · by_contra hwild
    simp only [isWildcard, Bool.not_eq_false, Bool.or_eq_true, beq_iff_eq] at hwild
    rcases hwild with rfl | rfl <;> exact absurd hletter (by decide)

theorem Salt.ne_nil (salt : Salt) : salt.text ≠ [] := by
  intro h
  have hlength := salt.length_eq
  rw [h] at hlength
  cases hlength

theorem length_beforeLastDot_le (s : CString) : (beforeLastDot s).length ≤ s.length := by
  have hdrop := (@List.dropWhile_suffix _ s.reverse (· ≠ '.')).length_le
  rw [beforeLastDot, List.length_reverse, List.length_drop]
  rw [List.length_reverse] at hdrop
  omega

theorem length_createMask_le (u : User) :
    (createMask u).length ≤ u.username.length + u.host.length + 4 := by
  have hcut := length_beforeLastDot_le u.host
  have hcut₁ := length_beforeLastDot_le (beforeLastDot u.host)
  have hcut₂ := length_beforeLastDot_le (beforeLastDot (beforeLastDot u.host))
  have hdrop := (@List.dropWhile_suffix _ u.host (· ≠ '.')).length_le
  simp only [createMask]
  split_ifs <;> simp only [List.length_append, List.length_cons, List.length_nil] <;> omega

section Escaping

variable {realEscape : CString → CString}

theorem passwordLookup_iff (hesc : ∀ s, realEscape s = escape s) (u : User)
    {pass typed : CString} (hpass : pass.length ≤ 1022) :
    Intact (passwordLookup realEscape u pass typed) ↔ pass = typed := by
  have hid := length_uint_le u.nickId
  have hlength := length_escape_le pass
  rw [intact_iff_of_length]
  · have hsplit : passwordLookup realEscape u pass typed =
        [sql "SELECT 1 FROM nick WHERE (nick_id=", uint u.nickId, sql " || link_id=",
          uint u.nickId, sql ") && STRCMP(nick, "] ++
        [.quoted (realEscape pass) typed, sql ")=0"] := rfl
    rw [hsplit, lex_append_iff (by simp [isQuote])]
    exact lex_quoted_iff (hesc pass ▸ decodes_escape pass) (by simp [isQuote]) (by decide)
  · simp [passwordLookup, hesc]
    omega

theorem authLookup_intact (hesc : ∀ s, realEscape s = escape s) (u : User)
    {authcode : CString} (hcode : authcode.length ≤ 511) :
    Intact (authLookup realEscape u authcode) := by
  have hnick := length_escape_le u.nick
  have hnick' := u.nick_short
  have hlength := length_escape_le authcode
  rw [intact_iff_of_length]
  · refine lex_render ?_
    simp [authLookup, hesc, isQuote, decodes_escape, verbatim]
  · simp [authLookup, hesc]
    omega

theorem authPendingLookup_intact (hesc : ∀ s, realEscape s = escape s) (u : User) :
    Intact (authPendingLookup realEscape u) := by
  have hnick := length_escape_le u.nick
  have hnick' := u.nick_short
  rw [intact_iff_of_length]
  · refine lex_render ?_
    simp [authPendingLookup, hesc, isQuote, decodes_escape, verbatim]
  · simp [authPendingLookup, hesc]
    omega

theorem memoinfoInsert_intact (hesc : ∀ s, realEscape s = escape s) (env : RegisterEnv)
    (u : User) : Intact (memoinfoInsert realEscape env u) := by
  have hnick := length_escape_le u.nick
  have hnick' := u.nick_short
  have hmax := length_uint_le env.msMaxMemos
  rw [intact_iff_of_length]
  · refine lex_render ?_
    simp [memoinfoInsert, hesc, isQuote, decodes_escape, verbatim]
  · simp [memoinfoInsert, hesc]
    omega

theorem nickaccessInsert_intact (hesc : ∀ s, realEscape s = escape s) (env : RegisterEnv)
    (u : User) : Intact (nickaccessInsert realEscape env u) := by
  have hline := u.line_short
  have hmask := length_createMask_le u
  have hmask' := length_escape_le (createMask u)
  have hid := length_uint_le env.insertId
  rw [intact_iff_of_length]
  · refine lex_render ?_
    simp [nickaccessInsert, hesc, isQuote, decodes_escape, verbatim]
  · simp [nickaccessInsert, hesc]
    omega

theorem mlockUpdate_intact (hesc : ∀ s, realEscape s = escape s) (channelId : BitVec 32)
    {st : MlockState} (hkey : (st.newlockKey.getD []).length ≤ 511) :
    Intact (mlockUpdate realEscape channelId st) := by
  have hkey' := length_escape_le (st.newlockKey.getD [])
  have hon := length_int_le st.newlockOn
  have hoff := length_int_le st.newlockOff
  have hlimit := length_uint_le st.newlockLimit
  have hid := length_uint_le channelId
  rw [intact_iff_of_length]
  · refine lex_render ?_
    simp [mlockUpdate, hesc, isQuote, decodes_escape]
  · simp [mlockUpdate, hesc]
    omega

theorem sessionList_intact (defSessionLimit mincount : BitVec 32) :
    Intact (sessionList defSessionLimit mincount) := by
  have hlimit := length_int_le defSessionLimit
  have hcount := length_int_le mincount
  rw [intact_iff_of_length]
  · refine lex_render ?_
    simp [sessionList, isQuote]
  · simp [sessionList]
    omega

theorem sessionView_iff (defSessionLimit : BitVec 32) {host : CString}
    (hhost : host.length ≤ 511) :
    Intact (sessionView defSessionLimit host) ↔ verbatim host := by
  have hlimit := length_int_le defSessionLimit
  rw [intact_iff_of_length]
  · have hsplit : sessionView defSessionLimit host =
        [sql "SELECT session.host, session.count, IFNULL(exception.ex_limit, ",
          int defSessionLimit,
          sql ") FROM session LEFT JOIN exception ON IRC_MATCH(exception.mask, session.host) ",
          sql "WHERE session.host="] ++ [.quoted host host] := rfl
    rw [hsplit, lex_append_iff (by simp [isQuote])]
    exact @lex_raw_iff host [] (by simp)
  · simp [sessionView]
    omega

theorem authInsert_iff (hesc : ∀ s, realEscape s = escape s) (env : RegisterEnv) (u : User)
    {pass email : CString} (hpass : pass.length ≤ 511) (hemail : email.length ≤ 511) :
    Intact (authInsert realEscape env u pass email) ↔ verbatim (pass ++ ' ' :: email) := by
  have hnick := length_escape_le u.nick
  have hnick' := u.nick_short
  have hcode := env.code.length_eq
  have hnow := length_int_le env.now
  rw [intact_iff_of_length]
  · have hsplit : authInsert realEscape env u pass email =
        [sql "INSERT INTO auth SET auth_id=", const "NULL", sql ", code=",
          .quoted env.code.text env.code.text, sql ", name=",
          .quoted (realEscape u.nick) u.nick, sql ", command=", const "NICK_REG",
          sql ", params="] ++
        [.quoted (pass ++ ' ' :: email) (pass ++ ' ' :: email), sql ", create_time=",
          int env.now] := rfl
    rw [hsplit, lex_append_iff (by simp [isQuote, verbatim, hesc, decodes_escape,
      env.code.decodes])]
    have htext : ∀ c ∈ ", create_time=".toList, isQuote c = false := by simp [isQuote]
    have hpost : ∀ c ∈ ", create_time=".toList ++ decimal env.now.toInt, isQuote c = false :=
      fun c hc ↦ (List.mem_append.mp hc).elim (htext c) (isQuote_decimal _ c)
    have hjoin := @lex_raw_iff (pass ++ ' ' :: email) _ hpost
    simpa [render, intended, sql, int, Piece.text, Piece.tokens] using hjoin
  · simp [authInsert, hesc]
    omega

/-- A nick's password as both commands write it: escaped, cut and followed by the salt. -/
theorem quotedPassword_iff (hesc : ∀ s, realEscape s = escape s) (pass : CString) (salt : Salt)
    {post : List Piece} (hpost : Sound [] post) (hhead : (render post).head? ≠ some '\'') :
    lex (render (.quoted (strscpy (realEscape pass) 41 ++ salt.text)
        (strscpy pass 41 ++ salt.text) :: post)) =
      some (intended (.quoted (strscpy (realEscape pass) 41 ++ salt.text)
        (strscpy pass 41 ++ salt.text) :: post)) ↔
      (escape (pass.take 40)).length ≤ 40 := by
  rw [hesc, strscpy, strscpy]
  exact lex_take_escape_iff pass salt.isLetters salt.ne_nil 40 hpost hhead

theorem length_nickInsert_le (hesc : ∀ s, realEscape s = escape s) (env : RegisterEnv) (u : User)
    (pass : CString) {email : CString} (hemail : email.length ≤ 511) :
    (render (nickInsert realEscape env u pass email)).length ≤ 4095 := by
  have hcut : (strscpy (escape pass) 41).length ≤ 40 := by
    rw [strscpy, List.length_take]
    omega
  have hsalt := env.salt.length_eq
  have hnick := length_escape_le u.nick
  have hnick' := u.nick_short
  have hline := u.line_short
  have hemail' := length_escape_le email
  have hmask := length_escape_le (u.username ++ '@' :: u.host)
  have hrealname := length_escape_le u.realname
  have hnow := length_int_le env.now
  have hstatus := length_int_le (NS_IDENTIFIED ||| NS_RECOGNIZED)
  have hflags := length_int_le env.defFlags
  have hmax := length_uint_le env.csMaxReg
  have hlanguage := length_uint_le env.defLanguage
  have hstamp := length_int_le env.idStamp
  have hregain := length_uint_le env.regainid
  rw [List.length_append, List.length_cons] at hmask
  simp [nickInsert, hesc]
  linarith

theorem nickInsert_iff (hesc : ∀ s, realEscape s = escape s) (env : RegisterEnv) (u : User)
    (pass : CString) {email : CString} (hemail : email.length ≤ 511) :
    Intact (nickInsert realEscape env u pass email) ↔ (escape (pass.take 40)).length ≤ 40 := by
  rw [intact_iff_of_length (length_nickInsert_le hesc env u pass hemail)]
  have hsplit : nickInsert realEscape env u pass email =
      [sql "INSERT INTO nick (nick_id, nick, pass, salt, email, last_usermask, last_realname, ",
        sql "time_registered, last_seen, status, flags, channelmax, language, id_stamp, regainid) ",
        sql "VALUES (", const "NULL", sql ", ", .quoted (realEscape u.nick) u.nick,
        sql ", SHA1("] ++
      .quoted (strscpy (realEscape pass) 41 ++ env.salt.text)
        (strscpy pass 41 ++ env.salt.text) ::
        (nickInsert realEscape env u pass email).drop 8 := rfl
  rw [hsplit, lex_append_iff (by simp [isQuote, verbatim, hesc, decodes_escape])]
  refine quotedPassword_iff hesc pass env.salt ?_ ?_
  · simp [nickInsert, isQuote, hesc, decodes_escape, env.salt.isLetters.decodes]
  · simp [nickInsert, sql, Piece.text]

theorem length_passwordUpdate_le (hesc : ∀ s, realEscape s = escape s) (env : SetPasswordEnv)
    (param : CString) : (render (passwordUpdate realEscape env param)).length ≤ 4095 := by
  have hcut : (strscpy (escape param) 41).length ≤ 40 := by
    rw [strscpy, List.length_take]
    omega
  have hsalt := env.salt.length_eq
  have hid := length_uint_le env.nickId
  simp [passwordUpdate, hesc]
  omega

theorem passwordUpdate_iff (hesc : ∀ s, realEscape s = escape s) (env : SetPasswordEnv)
    (param : CString) :
    Intact (passwordUpdate realEscape env param) ↔ (escape (param.take 40)).length ≤ 40 := by
  rw [intact_iff_of_length (length_passwordUpdate_le hesc env param)]
  have hsplit : passwordUpdate realEscape env param =
      [sql "UPDATE nick SET pass=SHA1("] ++
      .quoted (strscpy (realEscape param) 41 ++ env.salt.text)
        (strscpy param 41 ++ env.salt.text) ::
      [sql "), salt=", .quoted env.salt.text env.salt.text, sql " WHERE nick_id=",
        uint env.nickId] := rfl
  rw [hsplit, lex_append_iff (by simp [isQuote])]
  exact quotedPassword_iff hesc param env.salt
    (by simp [isQuote, env.salt.isLetters.decodes]) (by simp [sql, Piece.text])

/-! ### When the statements of a command are intact -/

theorem length_le_of_mem_splitOn {word text : CString} (h : word ∈ text.splitOn ' ') :
    word.length ≤ text.length := by
  induction text generalizing word with
  | nil =>
    rw [List.splitOn_nil, List.mem_singleton] at h
    rw [h]
  | cons c text ih =>
    rw [List.splitOn_cons_eq_if_modifyHead] at h
    rw [List.length_cons]
    split_ifs at h
    · obtain rfl | hword := List.mem_cons.mp h
      · exact Nat.zero_le _
      · exact (ih hword).trans (Nat.le_succ _)
    · cases hsplit : text.splitOn ' ' with
      | nil => exact absurd hsplit (List.splitOn_ne_nil _ _)
      | cons head tail =>
        rw [hsplit, List.modifyHead_cons] at h
        obtain rfl | hword := List.mem_cons.mp h
        · exact Nat.succ_le_succ (ih (hsplit ▸ List.mem_cons_self ..))
        · exact (ih (hsplit ▸ List.mem_cons_of_mem _ hword)).trans (Nat.le_succ _)

/-- A word of a line is as short as the line. -/
theorem Line.length_word_le (line : Line) {word : CString} (h : word ∈ strtokWords line.text) :
    word.length ≤ 511 :=
  (length_le_of_mem_splitOn (List.mem_filter.mp h).1).trans line.short

/-- The key and the words of SET MLOCK are short. -/
structure ShortWords (st : MlockState) : Prop where
  words : ∀ word ∈ st.words, word.length ≤ 511
  key : (st.newlockKey.getD []).length ≤ 511

theorem ShortWords.lockFlag {st : MlockState} (h : ShortWords st) (add : Bool)
    (flag : BitVec 32) : ShortWords (st.lockFlag add flag) := by
  cases add with
  | true => exact ⟨h.words, h.key⟩
  | false => exact ⟨h.words, h.key⟩

theorem ShortWords.lockKey {st st' : MlockState} {add : Bool} (h : ShortWords st)
    (hlock : st.lockKey add = .ok st') : ShortWords st' := by
  rw [MlockState.lockKey] at hlock
  split_ifs at hlock
  · cases hwords : st.words with
    | nil =>
      rw [hwords] at hlock
      cases hlock
    | cons word words =>
      rw [hwords] at hlock
      cases hlock
      have hshort := h.words
      rw [hwords] at hshort
      exact ⟨fun w hw ↦ hshort w (List.mem_cons_of_mem _ hw), hshort word (List.mem_cons_self ..)⟩
  · cases hlock
    exact ⟨h.words, Nat.zero_le _⟩

theorem ShortWords.lockLimit {st st' : MlockState} {add : Bool} (h : ShortWords st)
    (hlock : st.lockLimit add = .ok st') : ShortWords st' := by
  rw [MlockState.lockLimit] at hlock
  split_ifs at hlock
  · cases hwords : st.words with
    | nil =>
      rw [hwords] at hlock
      cases hlock
    | cons word words =>
      simp only [hwords] at hlock
      split_ifs at hlock
      cases hlock
      have hshort := h.words
      rw [hwords] at hshort
      exact ⟨fun w hw ↦ hshort w (List.mem_cons_of_mem _ hw), h.key⟩
  · cases hlock
    exact ⟨h.words, h.key⟩

theorem ShortWords.keepOper {st : MlockState} (h : ShortWords st) (row : MlockRow) :
    ShortWords (st.keepOper row) := by
  simp only [MlockState.keepOper]
  split_ifs
  · exact (h.lockFlag _ _).lockFlag _ _
  · exact h.lockFlag _ _
  · exact h.lockFlag _ _
  · exact h

theorem ShortWords.mlockLetter {isOper : Bool} {row : MlockRow} {st st' : MlockState}
    {add : Bool} {c : Char} (h : ShortWords st)
    (hletter : mlockLetter isOper row st add c = .ok st') : ShortWords st' := by
  rw [ChanServ.mlockLetter] at hletter
  split_ifs at hletter
  · exact h.lockKey hletter
  · exact h.lockLimit hletter
  · cases hletter
    exact h.keepOper row
  · cases hflag : flagOf c with
    | some flag =>
      rw [hflag] at hletter
      cases hletter
      exact h.lockFlag add flag
    | none =>
      rw [hflag] at hletter
      cases hletter
      exact ⟨h.words, h.key⟩

theorem ShortWords.mlockStep {isOper : Bool} {row : MlockRow} {st st' : MlockState} {c : Char}
    (h : ShortWords st) (hstep : mlockStep isOper row st c = .ok st') : ShortWords st' := by
  rw [ChanServ.mlockStep] at hstep
  split_ifs at hstep with hplus hminus
  · cases hstep
    exact ⟨h.words, h.key⟩
  · cases hstep
    exact ⟨h.words, h.key⟩
  · cases hadd : st.add with
    | none =>
      rw [hadd] at hstep
      cases hstep
      exact h
    | some add =>
      rw [hadd] at hstep
      exact h.mlockLetter hstep

theorem ShortWords.mlockLoop {isOper : Bool} {row : MlockRow} {param : CString}
    {st st' : MlockState} (h : ShortWords st) (hloop : mlockLoop isOper row param st = .ok st') :
    ShortWords st' := by
  induction param generalizing st with
  | nil =>
    cases hloop
    exact h
  | cons c param ih =>
    rw [ChanServ.mlockLoop] at hloop
    cases hstep : ChanServ.mlockStep isOper row st c with
    | error err =>
      rw [hstep] at hloop
      cases hloop
    | ok st₁ =>
      rw [hstep] at hloop
      exact ih (h.mlockStep hstep) hloop

/-- `validate_password` accepts the text. -/
def passwordAccepted (passwordIsNick : Bool) (u : User) (pass : CString) : Prop :=
  passwordIsName u pass = false ∧ (u.nickId ≠ 0#32 → passwordIsNick = false)

/-- The escaped form of the first `PASSMAX - 1` characters of a password fits `PASSMAX` bytes. -/
def PasswordFits (pass : CString) : Prop :=
  (escape (pass.take 40)).length ≤ 40

/-- The texts of a command do no harm to its statements. -/
def Command.Meets : Command → Prop
  | .register env u rest =>
    match registerRequest env u rest with
    | none => True
    | some (.auth _) => ∀ row ∈ env.authRow, PasswordFits (authParams row.text).1
    | some (.new pass email) =>
      passwordAccepted env.passwordIsNick u pass →
        if env.nsRegNeedAuth then env.authPending = true ∨ verbatim pass ∧ verbatim email
        else PasswordFits pass
  | .setPassword env u param =>
    mayNotSetPassword env u = false → passwordIsName u (escape param.text) = false →
      (u.nickId ≠ 0#32 → escape param.text = param.text) ∧
        (passwordAccepted env.passwordIsNick u (escape param.text) → PasswordFits param.text)
  | .setMlock .. => True
  | .session limitSessions _ rest =>
    ∀ cmd host words, limitSessions = true → strtokWords rest.text = cmd :: host :: words →
      stricmp cmd "VIEW".toList = 0 → verbatim host

theorem registerNick_iff (hesc : ∀ s, realEscape s = escape s) (env : RegisterEnv) (u : User)
    (pass : CString) {email : CString} (hemail : email.length ≤ 511) :
    (∀ q ∈ registerNick realEscape env u pass email, Intact q) ↔ PasswordFits pass := by
  simp [registerNick, nickInsert_iff hesc env u pass hemail, memoinfoInsert_intact hesc,
    nickaccessInsert_intact hesc, PasswordFits]

theorem validatePassword_accepted (passwordIsNick : Bool) (u : User) (pass typed : CString) :
    (validatePassword realEscape passwordIsNick u pass typed).2 = true ↔
      passwordAccepted passwordIsNick u pass := by
  rw [validatePassword, passwordAccepted]
  split_ifs <;> simp_all

theorem validatePassword_iff (hesc : ∀ s, realEscape s = escape s) (passwordIsNick : Bool)
    (u : User) {pass typed : CString} (hpass : pass.length ≤ 1022) :
    (∀ q ∈ (validatePassword realEscape passwordIsNick u pass typed).1, Intact q) ↔
      (passwordIsName u pass = false → u.nickId ≠ 0#32 → pass = typed) := by
  rw [validatePassword]
  split_ifs with hname hid
  · simp [hname]
  · simp [hname, hid, passwordLookup_iff hesc u hpass]
  · simp [hid]

/-- The texts of a request are short. -/
def RegisterRequest.Short : RegisterRequest → Prop
  | .auth authcode => authcode.length ≤ 511
  | .new pass email => pass.length ≤ 511 ∧ email.length ≤ 511

theorem registerRequest_short {env : RegisterEnv} {u : User} {rest : Line}
    {request : RegisterRequest} (h : registerRequest env u rest = some request) :
    request.Short := by
  rw [registerRequest] at h
  by_cases hguest : isGuestNick env.nsGuestNickPrefix u.nick = true
  · rw [if_pos hguest] at h
    cases h
  · rw [if_neg hguest] at h
    match hwords : strtokWords rest.text with
    | [] =>
      rw [hwords] at h
      cases h
    | [_] =>
      rw [hwords] at h
      cases h
    | pass :: email :: words =>
      have hpass : pass.length ≤ 511 := rest.length_word_le (hwords ▸ List.mem_cons_self ..)
      have hemail : email.length ≤ 511 :=
        rest.length_word_le (hwords ▸ List.mem_cons_of_mem _ (List.mem_cons_self ..))
      simp only [hwords] at h
      split_ifs at h
      · cases h
        exact hemail
      · cases h
        exact ⟨hpass, hemail⟩

theorem length_authParams_le (row : CString) : (authParams row).2.length ≤ row.length := by
  have hstart := (@List.dropWhile_suffix _ row (· = ' ')).length_le
  have hrest := (@List.dropWhile_suffix _ (row.dropWhile (· = ' ')) (· ≠ ' ')).length_le
  simp only [authParams, List.length_drop]
  omega

theorem doRegister_iff (hesc : ∀ s, realEscape s = escape s) (env : RegisterEnv) (u : User)
    (rest : Line) :
    (∀ q ∈ doRegister realEscape env u rest, Intact q) ↔
      (Command.register env u rest).Meets := by
  rw [doRegister, Command.Meets]
  cases hrequest : registerRequest env u rest with
  | none => simp
  | some request =>
    have hshort := registerRequest_short hrequest
    cases request with
    | auth authcode =>
      have hlookup := authLookup_intact hesc u hshort
      cases hrow : env.authRow with
      | none => simp [hlookup]
      | some row =>
        have hemail := (length_authParams_le row.text).trans row.short
        have hnick := registerNick_iff hesc env u (authParams row.text).1 hemail
        simpa [hlookup] using hnick
    | new pass email =>
      obtain ⟨hpass, hemail⟩ := hshort
      have hvalidate := @validatePassword_iff realEscape hesc env.passwordIsNick u pass pass
        (hpass.trans (by omega))
      have haccepted := @validatePassword_accepted realEscape env.passwordIsNick u
        pass pass
      have hnick := registerNick_iff hesc env u pass hemail
      have hpending := authPendingLookup_intact hesc u
      have hinsert := authInsert_iff hesc env u hpass hemail
      rw [verbatim_append_space, Bool.and_eq_true] at hinsert
      simp only [List.forall_mem_append, hvalidate, ← haccepted]
      cases (validatePassword realEscape env.passwordIsNick u pass pass).2 with
      | false => simp
      | true =>
        cases env.nsRegNeedAuth with
        | false => simpa using hnick
        | true =>
          cases hauth : env.authPending with
          | true => simp [hpending]
          | false => simp [hpending, hinsert]

theorem doSetPassword_iff (hesc : ∀ s, realEscape s = escape s) (env : SetPasswordEnv) (u : User)
    (param : Line) :
    (∀ q ∈ doSetPassword realEscape env u param, Intact q) ↔
      (Command.setPassword env u param).Meets := by
  have hshort := length_escape_le param.text
  have hparam := param.short
  have hvalidate := @validatePassword_iff realEscape hesc env.passwordIsNick u
    (escape param.text) param.text (by omega)
  have haccepted := @validatePassword_accepted realEscape env.passwordIsNick u
    (escape param.text) param.text
  have hupdate := passwordUpdate_iff hesc env param.text
  rw [doSetPassword, Command.Meets, hesc param.text]
  cases hmay : mayNotSetPassword env u with
  | true => simp
  | false =>
    simp only [if_neg Bool.false_ne_true, List.forall_mem_append, hvalidate, ← haccepted]
    cases hname : passwordIsName u (escape param.text) with
    | true => simp_all [passwordAccepted]
    | false =>
      cases (validatePassword realEscape env.passwordIsNick u (escape param.text) param.text).2 with
      | false => simp
      | true => simpa [PasswordFits] using fun _ ↦ hupdate

theorem setMlockQueries_intact (hesc : ∀ s, realEscape s = escape s) (channelId : BitVec 32)
    (isOper : Bool) (row : MlockRow) (param : CString) (rest : Line) :
    ∀ q ∈ setMlockQueries realEscape channelId isOper row param rest, Intact q := by
  have hstart : ShortWords (.start param (strtokWords rest.text)) := by
    refine ⟨fun word hword ↦ rest.length_word_le hword, ?_⟩
    rw [MlockState.start]
    split_ifs <;> exact Nat.zero_le _
  intro q hq
  rw [setMlockQueries] at hq
  cases hloop : mlockLoop isOper row (if isOff param then [] else param)
      (.start param (strtokWords rest.text)) with
  | error err =>
    rw [hloop] at hq
    cases hq
  | ok st =>
    simp only [hloop] at hq
    split_ifs at hq
    · cases hq
    · rw [List.mem_singleton.mp hq]
      exact mlockUpdate_intact hesc channelId (hstart.mlockLoop hloop).key

theorem doSession_iff (limitSessions : Bool) (defSessionLimit : BitVec 32) (rest : Line) :
    (∀ q ∈ doSession limitSessions defSessionLimit rest, Intact q) ↔
      (Command.session limitSessions defSessionLimit rest).Meets := by
  rw [doSession, Command.Meets]
  cases limitSessions with
  | false => simp
  | true =>
    rw [if_neg (by decide)]
    match hwords : strtokWords rest.text with
    | [] => simp
    | [_] => simp
    | cmd :: host :: words =>
      have hhost : host.length ≤ 511 :=
        rest.length_word_le (hwords ▸ List.mem_cons_of_mem _ (List.mem_cons_self ..))
      by_cases hlist : stricmp cmd "LIST".toList = 0
      · have hview : stricmp cmd "VIEW".toList ≠ 0 := by
          rw [Ne, stricmp_eq_zero_iff, (stricmp_eq_zero_iff _ _).mp hlist]
          decide
        simp only [if_pos hlist]
        split_ifs
        · simp_all
        · simp_all [sessionList_intact]
      · by_cases hview : stricmp cmd "VIEW".toList = 0
        · simp_all [sessionView_iff _ hhost]
        · simp_all

end Escaping

/-- Every statement of a command is intact exactly when the command meets its condition: a password
that is cut keeps its escapes whole, a password that is looked up after `do_set_password` escaped it
has nothing to escape, and the texts that are written raw, those of REGISTER with `NSRegNeedAuth` and
of SESSION VIEW, are read back as they are. -/
theorem queries_intact_iff (realEscape : CString → CString)
    (hesc : ∀ s, realEscape s = escape s) (command : Command) :
    (∀ q ∈ command.queries realEscape, Intact q) ↔ command.Meets := by
  cases command with
  | register env u rest => exact doRegister_iff hesc env u rest
  | setPassword env u param => exact doSetPassword_iff hesc env u param
  | setMlock channelId isOper row param rest =>
    exact iff_of_true (setMlockQueries_intact hesc channelId isOper row param rest) trivial
  | session limitSessions defSessionLimit rest =>
    exact doSession_iff limitSessions defSessionLimit rest

/-- SESSION VIEW of a host name without quotes. -/
theorem queries_intact_iff_host :
    (∀ q ∈ (Command.session true 3#32 (.ofInbuf "VIEW irc.example.net".toList)).queries escape,
      Intact q) ↔
      (Command.session true 3#32 (.ofInbuf "VIEW irc.example.net".toList)).Meets :=
  queries_intact_iff escape (fun _ ↦ rfl) _

/-- SESSION VIEW of a text with a quote is not the statement it was written for. -/
theorem queries_not_intact :
    ¬ ∀ command : Command, ∀ q ∈ command.queries escape, Intact q := by
  intro h
  have hquery := h (.session true 3#32 (.ofInbuf "VIEW x'or'1".toList))
    (sessionView 3#32 "x'or'1".toList) (List.mem_singleton.mpr rfl)
  rw [sessionView_iff _ (by decide)] at hquery
  exact absurd hquery (by decide)

end BlitzedServices.Mysql
