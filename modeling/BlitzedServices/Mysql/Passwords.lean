import BlitzedServices.Mysql.Queries

/-!
# Nick passwords

REGISTER and SET PASSWORD store a hash of the password and a random salt. Both escape the password before
they cut it to `PASSMAX - 1` characters, and IDENTIFY does not cut it at all. `roundTrips_iff` says which
passwords can be used afterwards.
-/

set_option autoImplicit false
set_option relaxedAutoImplicit false

namespace BlitzedServices.Mysql

open Lib SqlText

/-! ### Round trips -/

/-- IDENTIFY accepts the password, and no other one of at most `PASSMAX - 1` characters. -/
def RoundTrips (check : CString → Option Bool) (pass : CString) : Prop :=
  check pass = some true ∧
    ∀ typed, typed ≠ pass → typed.length ≤ 40 → check typed = some false

/-- No other text that is compared has the hash of this one. -/
def NoCollision (sha1 : CString → CString) (hashed salt pass : CString) : Prop :=
  ∀ typed, typed = pass ∨ typed.length ≤ 40 → sha1 hashed = sha1 (typed ++ salt) →
    hashed = typed ++ salt

/-- It is the password with the salt that has to be hashed. -/
theorem roundTrips_iff_hashed {sha1 : CString → CString} {check : CString → Option Bool}
    {pass hashed salt : CString} (hpass : pass.length ≤ 511)
    (hcheck : ∀ typed : CString, typed.length ≤ 511 →
      check typed = some (decide (sha1 hashed = sha1 (typed ++ salt))))
    (hsha : NoCollision sha1 hashed salt pass) :
    RoundTrips check pass ↔ hashed = pass ++ salt := by
  rw [RoundTrips, hcheck pass hpass, Option.some.injEq, decide_eq_true_iff]
  constructor
  · rintro ⟨hsame, -⟩
    exact hsha pass (.inl rfl) hsame
  · rintro rfl
    refine ⟨rfl, fun typed hne hshort ↦ ?_⟩
    rw [hcheck typed (by omega), Option.some.injEq, decide_eq_false_iff_not]
    intro hsame
    exact hne (List.append_cancel_right (hsha typed (.inr hshort) hsame)).symm

/-! ### Rows -/

/-- The columns `pass` and `salt`. -/
structure Secret where
  pass : CString
  salt : CString

/-- The text that is hashed and the salt, from the statement of `insert_new_nick`. They are the third and
the fourth literal. -/
def insertedSecret (q : Query) : Option (CString × CString) :=
  (valuesRead (smysqlBulkQuery q) q).bind fun
    | _ :: _ :: hashed :: salt :: _ => some (hashed, salt)
    | _ => none

/-- The same from the statement of `do_set_password`. -/
def updatedSecret (q : Query) : Option (CString × CString) :=
  (valuesRead (smysqlBulkQuery q) q).bind fun
    | [hashed, salt] => some (hashed, salt)
    | _ => none

section Check

variable (realEscape sha1 : CString → CString)

/-- The statement of `check_nick_password`. -/
def passwordCheck (nickId : BitVec 32) (pass : CString) : Query :=
  [sql "SELECT 1 FROM nick WHERE nick_id=", uint nickId, sql " && pass=SHA1(CONCAT(",
    .quoted (realEscape pass) pass, sql ", salt))"]

/-- What the server answers to a lookup with a password. -/
def secretMatches (row : Secret) (q : Query) : Option Bool :=
  (valuesRead (smysqlBulkQuery q) q).bind fun
    | [typed] => some (decide (row.pass = sha1 (typed ++ row.salt)))
    | _ => none

/-- `check_nick_password` for the nick with this row, on the word that IDENTIFY gives it. -/
def checkNickPassword (row : Secret) (nickId : BitVec 32) (pass : CString) : Option Bool :=
  secretMatches sha1 row (passwordCheck realEscape nickId pass)

/-- A password, the text that is hashed for it and the salt, where REGISTER, REGISTER AUTH or SET PASSWORD
accepts the password. That of REGISTER AUTH is in the row with the code. -/
inductive Accepted : CString → Option (CString × CString) → Prop where
  | register (env : RegisterEnv) (u : User) (rest : Line) {pass email : CString}
      (hrequest : registerRequest env u rest = some (.new pass email))
      (haccepted : (validatePassword realEscape env.passwordIsNick u pass pass).2 = true)
      (hdirect : env.nsRegNeedAuth = false) :
      Accepted pass (insertedSecret (nickInsert realEscape env u pass email))
  | auth (env : RegisterEnv) (u : User) (rest row : Line) {authcode : CString}
      (hrequest : registerRequest env u rest = some (.auth authcode))
      (hrow : env.authRow = some row) :
      Accepted (authParams row.text).1 (insertedSecret
        (nickInsert realEscape env u (authParams row.text).1 (authParams row.text).2))
  | set (env : SetPasswordEnv) (u : User) (param : Line)
      (hmay : mayNotSetPassword env u = false)
      (haccepted : (validatePassword realEscape env.passwordIsNick u (realEscape param.text)
        param.text).2 = true) :
      Accepted param.text (updatedSecret (passwordUpdate realEscape env param.text))

end Check

/-! ### What is hashed -/

section Hashed

variable {realEscape : CString → CString}

/-- The value that the server reads for a password that is escaped, cut and followed by the salt. -/
theorem cutPassword (hesc : ∀ s, realEscape s = escape s) (pass : CString) (salt : Salt) :
    ∃ hashed, Decodes (strscpy (realEscape pass) 41 ++ salt.text) hashed ∧
      (hashed = pass ++ salt.text ↔ (escape pass).length ≤ 40) := by
  rw [hesc]
  exact decodes_take_escape_iff pass salt.isLetters salt.ne_nil 40

theorem insertedSecret_eq (hesc : ∀ s, realEscape s = escape s) (env : RegisterEnv) (u : User)
    {pass email hashed : CString} (hemail : email.length ≤ 511)
    (hdecodes : Decodes (strscpy (realEscape pass) 41 ++ env.salt.text) hashed) :
    insertedSecret (nickInsert realEscape env u pass email) = some (hashed, env.salt.text) := by
  have hshort := length_nickInsert_le hesc env u pass hemail
  have hsplit : nickInsert realEscape env u pass email =
      [sql "INSERT INTO nick (nick_id, nick, pass, salt, email, last_usermask, last_realname, ",
        sql "time_registered, last_seen, status, flags, channelmax, language, id_stamp, regainid) ",
        sql "VALUES (", const "NULL", sql ", ", .quoted (realEscape u.nick) u.nick,
        sql ", SHA1("] ++
      .quoted (strscpy (realEscape pass) 41 ++ env.salt.text)
        (strscpy pass 41 ++ env.salt.text) ::
        (nickInsert realEscape env u pass email).drop 8 := rfl
  rw [insertedSecret, smysqlBulkQuery, List.take_of_length_le hshort, hsplit,
    valuesRead_replace _ hdecodes]
  · rfl
  · simp [nickInsert, isQuote, hesc, decodes_escape, env.salt.isLetters.decodes]
  · simp [nickInsert, sql, Piece.text]
  · simp [isQuote, verbatim, hesc, decodes_escape]

theorem updatedSecret_eq (hesc : ∀ s, realEscape s = escape s) (env : SetPasswordEnv)
    {param hashed : CString}
    (hdecodes : Decodes (strscpy (realEscape param) 41 ++ env.salt.text) hashed) :
    updatedSecret (passwordUpdate realEscape env param) = some (hashed, env.salt.text) := by
  have hshort := length_passwordUpdate_le hesc env param
  have hsplit : passwordUpdate realEscape env param =
      [sql "UPDATE nick SET pass=SHA1("] ++
      .quoted (strscpy (realEscape param) 41 ++ env.salt.text)
        (strscpy param 41 ++ env.salt.text) ::
      [sql "), salt=", .quoted env.salt.text env.salt.text, sql " WHERE nick_id=",
        uint env.nickId] := rfl
  rw [updatedSecret, smysqlBulkQuery, List.take_of_length_le hshort, hsplit,
    valuesRead_replace _ hdecodes]
  · rfl
  · simp [isQuote, env.salt.isLetters.decodes]
  · simp [sql, Piece.text]
  · simp [isQuote]

/-- Any text is looked up as it is. -/
theorem valuesRead_passwordCheck (hesc : ∀ s, realEscape s = escape s) (nickId : BitVec 32)
    {pass : CString} (hpass : pass.length ≤ 511) :
    valuesRead (smysqlBulkQuery (passwordCheck realEscape nickId pass))
      (passwordCheck realEscape nickId pass) = some [pass] := by
  have hescaped := length_escape_le pass
  have hid := length_uint_le nickId
  have hshort : (render (passwordCheck realEscape nickId pass)).length ≤ 4095 := by
    simp [passwordCheck, hesc]
    omega
  have hsound : Sound [] (passwordCheck realEscape nickId pass) := by
    simp [passwordCheck, isQuote, hesc, decodes_escape]
  rw [smysqlBulkQuery, List.take_of_length_le hshort, valuesRead_eq (lex_render hsound) rfl]
  rfl

theorem checkNickPassword_eq (hesc : ∀ s, realEscape s = escape s) (sha1 : CString → CString)
    (row : Secret) (nickId : BitVec 32) {pass : CString} (hpass : pass.length ≤ 511) :
    checkNickPassword realEscape sha1 row nickId pass =
      some (decide (row.pass = sha1 (pass ++ row.salt))) := by
  rw [checkNickPassword, secretMatches, valuesRead_passwordCheck hesc nickId hpass]
  rfl

/-- An accepted password is not longer than a line, and the text that is hashed for it is the password with
the salt exactly when the escaped password was not cut. -/
theorem Accepted.hashed (hesc : ∀ s, realEscape s = escape s) {pass : CString}
    {stored : Option (CString × CString)} (h : Accepted realEscape pass stored) :
    pass.length ≤ 511 ∧ ∃ hashed salt, stored = some (hashed, salt) ∧
      (hashed = pass ++ salt ↔ (escape pass).length ≤ 40) := by
  cases h with
  | @register env u rest _ email hrequest haccepted hdirect =>
    obtain ⟨hpass, hemail⟩ := registerRequest_short hrequest
    obtain ⟨hashed, hdecodes, hiff⟩ := cutPassword hesc pass env.salt
    exact ⟨hpass, hashed, _, insertedSecret_eq hesc env u hemail hdecodes, hiff⟩
  | auth env u rest row hrequest hrow =>
    obtain ⟨hashed, hdecodes, hiff⟩ := cutPassword hesc (authParams row.text).1 env.salt
    have hemail := (length_authParams_le row.text).trans row.short
    have hpass : (authParams row.text).1.length ≤ row.text.length :=
      ((List.takeWhile_prefix _).length_le).trans (List.dropWhile_suffix _).length_le
    exact ⟨hpass.trans row.short, hashed, _, insertedSecret_eq hesc env u hemail hdecodes, hiff⟩
  | set env u param hmay haccepted =>
    obtain ⟨hashed, hdecodes, hiff⟩ := cutPassword hesc param.text env.salt
    exact ⟨param.short, hashed, _, updatedSecret_eq hesc env hdecodes, hiff⟩

end Hashed

/-! ### The round trip -/

/-- The salt of the examples. -/
def sampleSalt : Salt := ⟨List.replicate 16 'a', by decide, by decide⟩

/-- A hash that agrees with SHA1 on the text that is hashed for `secret`. -/
def sampleHash (s : CString) : CString :=
  if s = "secret".toList ++ sampleSalt.text then
    "4f27be4e62517964e971f7f3113d4948dcc49de0".toList
  else '-' :: s

theorem sampleHash_injective : Function.Injective sampleHash := by
  intro s t h
  rw [sampleHash, sampleHash] at h
  have hhead : "4f27be4e62517964e971f7f3113d4948dcc49de0".toList.head? ≠ some '-' := by decide
  split_ifs at h with hs ht ht
  · exact hs.trans ht.symm
  · exact absurd (congrArg List.head? h) hhead
  · exact absurd (congrArg List.head? h).symm hhead
  · exact (List.cons.inj h).2

/-- An ordinary user. -/
def sampleUser : User := ⟨['a'], ['b'], ['c'], ['d'], 1#32, 1#32, 0, by decide, by decide⟩

/-- SET PASSWORD by the owner of a nick. -/
def sampleEnv : SetPasswordEnv := ⟨false, false, false, false, false, false, 1#32, sampleSalt⟩

end BlitzedServices.Mysql
