import BlitzedServices.Lib.Strtok
import BlitzedServices.Mysql.Passwords
import BlitzedServices.ChanServ.Access

/-!
# Channel passwords

REGISTER cuts the password to `PASSMAX - 1` characters before it is escaped and hashed, SET PASSWORD does
not cut it, and neither does IDENTIFY. `chanPassword_iff` says which passwords can be used afterwards.
-/

set_option autoImplicit false
set_option relaxedAutoImplicit false

namespace BlitzedServices.ChanServ.Passwords

open Lib SqlText Mysql Channels
open ChanServ (CI_SECURE)

def CI_KEEPTOPIC : BitVec 32 := 0x1#32

def CHANMAX : ℕ := 200

def NICKMAX : ℕ := 32

/-! ### The commands -/

/-- The topic of a channel. -/
structure Topic where
  text : Line
  setter : CString
  time : BitVec 32

/-- What `do_register` reads besides its parameters. The last two are `getNickinfo` found, and a limit of
the founder that is reached or exceeded. -/
structure RegisterEnv where
  passwordIsNick : Bool
  nickRegistered : Bool
  nickRecognized : Bool
  channelTaken : Bool
  isChanop : Bool
  limitReached : Bool
  channelExists : Bool
  topic : Option Topic
  now : BitVec 32
  msMaxMemos : BitVec 32
  salt : Salt

/-- The password is the name of the channel. -/
def passwordIsChannel (pass chan : CString) : Bool :=
  let name := if chan.head? = some '#' then chan.tail else chan
  stricmp pass name == 0

section Commands

variable (realEscape : CString → CString)

/-- `validate_password` for a channel. -/
def validateChanPassword (passwordIsNick : Bool) (u : User) (pass typed chan : CString) : Bool :=
  (validatePassword realEscape passwordIsNick u pass typed).2 && !passwordIsChannel pass chan

/-- The channel, the password and the description of REGISTER. -/
def registerParams (rest : Line) : Option (CString × CString × CString) := do
  let (chan, rest) ← strtok [' '] rest.text
  let (pass, desc) ← strtok [' '] rest
  if desc = [] then none else some (chan, pass, desc)

/-- A number in a literal. -/
def quotedInt (n : BitVec 32) : Piece :=
  .quoted (decimal n.toInt) (decimal n.toInt)

def quotedUint (n : BitVec 32) : Piece :=
  .quoted (decimal n.toNat) (decimal n.toNat)

def text (s : CString) : Piece :=
  .quoted (realEscape s) s

/-- The first statement of `insert_new_channel`, for a channel of `do_register`. -/
def channelInsert (env : RegisterEnv) (u : User) (chan pass desc : CString) : Query :=
  let name := strscpy chan CHANMAX
  let founderpass := strscpy pass 41
  let topic := (env.topic.map fun topic ↦ topic.text.text).getD []
  let setter := (env.topic.map fun topic ↦ strscpy topic.setter NICKMAX).getD []
  let topicTime := (env.topic.map Topic.time).getD 0#32
  [sql "INSERT INTO channel (channel_id, name, founder, successor, founderpass, salt, ",
    sql "description, url, email, time_registered, last_used, founder_memo_read, last_topic, ",
    sql "last_topic_setter, last_topic_time, flags, mlock_on, mlock_off, mlock_limit, mlock_key, ",
    sql "entry_message, last_limit_time, limit_offset, limit_tolerance, limit_period, bantime, ",
    sql "last_sendpass_pass, last_sendpass_salt, last_sendpass_time) VALUES (", const "NULL",
    sql ", ", text realEscape name, sql ", ", quotedUint u.realId, sql ", ", quotedUint 0#32,
    sql ", SHA1(",
    .quoted (realEscape founderpass ++ env.salt.text) (founderpass ++ env.salt.text), sql "), ",
    .quoted env.salt.text env.salt.text, sql ", ", text realEscape desc, sql ", ",
    text realEscape [], sql ", ", text realEscape [], sql ", ", quotedInt env.now, sql ", ",
    quotedInt env.now, sql ", ", quotedInt env.now, sql ", ", text realEscape topic, sql ", ",
    text realEscape setter, sql ", ", quotedInt topicTime, sql ", ",
    quotedInt (CI_KEEPTOPIC ||| CI_SECURE), sql ", ", quotedInt CMODE_n, sql ", ",
    quotedInt 0#32, sql ", ", quotedUint 0#32, sql ", ", text realEscape [], sql ", ",
    text realEscape [], sql ", ", quotedInt 0#32, sql ", ", quotedUint 0#32, sql ", ",
    quotedUint 0#32, sql ", ", quotedUint 0#32, sql ", ", quotedUint 0#32, sql ", ",
    text realEscape [], sql ", ", text realEscape [], sql ", ", quotedInt 0#32, sql ")"]

/-- The tests of `do_register`: the channel, the password and the description where it registers. -/
def registered (env : RegisterEnv) (u : User) (rest : Line) :
    Option (CString × CString × CString) :=
  match registerParams rest with
  | none => none
  | some (chan, pass, desc) =>
    if !validateChanPassword realEscape env.passwordIsNick u pass pass chan then none
    else if chan.head? = some '&' then none
    else if !env.nickRegistered then none
    else if !env.nickRecognized then none
    else if env.channelTaken then none
    else if !env.isChanop then none
    else if env.limitReached then none
    else if !env.channelExists then none
    else some (chan, pass, desc)

/-- The statement of `set_chan_pass`, for a password that `do_set_password` has escaped. -/
def founderpassUpdate (salt : Salt) (channelId : BitVec 32) (param : CString) : Query :=
  [sql "UPDATE channel SET founderpass=SHA1(",
    .quoted (realEscape param ++ salt.text) (param ++ salt.text), sql "), salt=",
    .quoted salt.text salt.text, sql " WHERE channel_id=", uint channelId]

/-- The statement of `check_chan_password`. -/
def chanPasswordCheck (channelId : BitVec 32) (pass : CString) : Query :=
  [sql "SELECT 1 FROM channel WHERE channel_id=", uint channelId,
    sql " && founderpass=SHA1(CONCAT(", text realEscape pass, sql ", salt))"]

/-- `check_chan_password` for the channel with this row, on the word that IDENTIFY gives it. -/
def checkChanPassword (sha1 : CString → CString) (row : Secret) (channelId : BitVec 32)
    (pass : CString) : Option Bool :=
  secretMatches sha1 row (chanPasswordCheck realEscape channelId pass)

/-- The text that is hashed and the salt, from the statement of `insert_new_channel`. They are the fifth and
the sixth literal. -/
def insertedFounderpass (q : Query) : Option (CString × CString) :=
  (valuesRead (smysqlBulkQuery q) q).bind fun
    | _ :: _ :: _ :: _ :: hashed :: salt :: _ => some (hashed, salt)
    | _ => none

/-- The two commands that store a password. -/
inductive Way where
  | register
  | set
  deriving DecidableEq

/-- A password, the text that is hashed for it and the salt, where a command accepts the password. -/
inductive Accepted : Way → CString → Option (CString × CString) → Prop where
  | register (env : RegisterEnv) (u : User) (rest : Line) {chan pass desc : CString}
      (hregistered : registered realEscape env u rest = some (chan, pass, desc)) :
      Accepted .register pass (insertedFounderpass (channelInsert realEscape env u chan pass desc))
  | set (passwordIsNick : Bool) (u : User) (name : CString) (channelId : BitVec 32) (param : Line)
      (salt : Salt)
      (haccepted : validateChanPassword realEscape passwordIsNick u (realEscape param.text)
        param.text name = true) :
      Accepted .set param.text (updatedSecret (founderpassUpdate realEscape salt channelId param.text))

end Commands

/-! ### What is hashed -/

section Hashed

variable {realEscape : CString → CString}

theorem decodes_decimal (n : ℤ) : Decodes (decimal n) (decimal n) := by
  refine .of_forall fun c hc ↦ ?_
  rcases mem_decimal hc with rfl | hdigit
  · exact ⟨by decide, by decide⟩
  · constructor <;> rintro rfl <;> exact absurd hdigit (by decide)

theorem length_strtok_le {delims s token rest : CString} (h : strtok delims s = some (token, rest)) :
    token.length ≤ s.length ∧ rest.length ≤ s.length := by
  obtain ⟨-, -, -, -, hlength⟩ := strtok_eq_some h
  omega

/-- The parameters of REGISTER fit in a line. -/
theorem registered_short {env : RegisterEnv} {u : User} {rest : Line} {chan pass desc : CString}
    (h : registered realEscape env u rest = some (chan, pass, desc)) :
    pass.length ≤ 511 ∧ desc.length ≤ 511 := by
  have hparams : registerParams rest = some (chan, pass, desc) := by
    rw [registered] at h
    split at h
    · cases h
    · split_ifs at h
      rw [← h]
      assumption
  have hline := rest.short
  rw [registerParams] at hparams
  cases hchan : strtok [' '] rest.text with
  | none =>
    rw [hchan] at hparams
    cases hparams
  | some first =>
    obtain ⟨chan', rest'⟩ := first
    have hfirst := (length_strtok_le hchan).2
    cases hpass : strtok [' '] rest' with
    | none =>
      simp only [hchan, hpass, bind, Option.bind_some, Option.bind_none] at hparams
      cases hparams
    | some second =>
      obtain ⟨pass', desc'⟩ := second
      obtain ⟨hword, hdesc⟩ := length_strtok_le hpass
      simp only [hchan, hpass, bind, Option.bind_some] at hparams
      split_ifs at hparams
      simp only [Option.some.injEq, Prod.mk.injEq] at hparams
      obtain ⟨-, rfl, rfl⟩ := hparams
      omega

theorem length_channelInsert_le (hesc : ∀ s, realEscape s = escape s) (env : RegisterEnv) (u : User)
    (chan pass : CString) {desc : CString} (hdesc : desc.length ≤ 511) :
    (render (channelInsert realEscape env u chan pass desc)).length ≤ 4095 := by
  have hcut (s : CString) (n : ℕ) : (escape (strscpy s n)).length ≤ 2 * (n - 1) := by
    refine (length_escape_le _).trans ?_
    rw [strscpy, List.length_take]
    omega
  have hname := hcut chan CHANMAX
  have hpass := hcut pass 41
  have hsalt := env.salt.length_eq
  have hdesc' := length_escape_le desc
  have htopic : (escape ((env.topic.map fun topic ↦ topic.text.text).getD [])).length ≤ 1022 := by
    cases env.topic with
    | none => exact Nat.zero_le _
    | some topic => exact (length_escape_le _).trans (Nat.mul_le_mul_left 2 topic.text.short)
  have hsetter : (escape ((env.topic.map fun topic ↦ strscpy topic.setter NICKMAX).getD [])).length ≤
      62 := by
    cases env.topic with
    | none => exact Nat.zero_le _
    | some topic => exact hcut topic.setter NICKMAX
  have hfounder := length_uint_le u.realId
  have hnow := length_int_le env.now
  have htime := length_int_le ((env.topic.map Topic.time).getD 0#32)
  have hflags := length_int_le (CI_KEEPTOPIC ||| CI_SECURE)
  have hmode := length_int_le CMODE_n
  have hzero : (decimal 0).length ≤ 11 := length_decimal_le (by decide)
  rw [CHANMAX] at hname
  simp only [int, uint, Piece.text, BitVec.toInt_or] at hfounder hnow htime hflags hmode
  simp [channelInsert, text, quotedInt, quotedUint, hesc, CHANMAX]
  linarith

theorem insertedFounderpass_eq (hesc : ∀ s, realEscape s = escape s) (env : RegisterEnv) (u : User)
    (chan pass : CString) {desc : CString} (hdesc : desc.length ≤ 511) :
    insertedFounderpass (channelInsert realEscape env u chan pass desc) =
      some (strscpy pass 41 ++ env.salt.text, env.salt.text) := by
  have hshort := length_channelInsert_le hesc env u chan pass hdesc
  have hsound : Sound [] (channelInsert realEscape env u chan pass desc) := by
    simp [channelInsert, text, quotedInt, quotedUint, isQuote, verbatim, hesc, decodes_escape,
      decodes_decimal, Decodes.nil, (decodes_escape _).append env.salt.isLetters.decodes,
      env.salt.isLetters.decodes]
  rw [insertedFounderpass, smysqlBulkQuery, List.take_of_length_le hshort,
    valuesRead_eq (lex_render hsound) rfl]
  rfl

theorem updatedSecret_founderpass (hesc : ∀ s, realEscape s = escape s) (salt : Salt)
    (channelId : BitVec 32) {param : CString} (hparam : param.length ≤ 511) :
    updatedSecret (founderpassUpdate realEscape salt channelId param) =
      some (param ++ salt.text, salt.text) := by
  have hescaped := length_escape_le param
  have hsalt := salt.length_eq
  have hid := length_uint_le channelId
  have hshort : (render (founderpassUpdate realEscape salt channelId param)).length ≤ 4095 := by
    simp [founderpassUpdate, hesc]
    omega
  have hsound : Sound [] (founderpassUpdate realEscape salt channelId param) := by
    simp [founderpassUpdate, isQuote, hesc, (decodes_escape _).append salt.isLetters.decodes,
      salt.isLetters.decodes]
  rw [updatedSecret, smysqlBulkQuery, List.take_of_length_le hshort,
    valuesRead_eq (lex_render hsound) rfl]
  rfl

theorem checkChanPassword_eq (hesc : ∀ s, realEscape s = escape s) (sha1 : CString → CString)
    (row : Secret) (channelId : BitVec 32) {pass : CString} (hpass : pass.length ≤ 511) :
    checkChanPassword realEscape sha1 row channelId pass =
      some (decide (row.pass = sha1 (pass ++ row.salt))) := by
  have hescaped := length_escape_le pass
  have hid := length_uint_le channelId
  have hshort : (render (chanPasswordCheck realEscape channelId pass)).length ≤ 4095 := by
    simp [chanPasswordCheck, text, hesc]
    omega
  have hsound : Sound [] (chanPasswordCheck realEscape channelId pass) := by
    simp [chanPasswordCheck, text, isQuote, hesc, decodes_escape]
  rw [checkChanPassword, secretMatches, smysqlBulkQuery, List.take_of_length_le hshort,
    valuesRead_eq (lex_render hsound) rfl]
  rfl

/-- REGISTER hashes the first `PASSMAX - 1` characters, and SET PASSWORD the whole password. -/
theorem Accepted.hashed (hesc : ∀ s, realEscape s = escape s) {way : Way} {pass : CString}
    {stored : Option (CString × CString)} (h : Accepted realEscape way pass stored) :
    pass.length ≤ 511 ∧ ∃ hashed salt, stored = some (hashed, salt) ∧
      (hashed = pass ++ salt ↔ way = .set ∨ pass.length ≤ 40) := by
  cases h with
  | @register env u rest chan _ desc hregistered =>
    obtain ⟨hpass, hdesc⟩ := registered_short hregistered
    refine ⟨hpass, _, _, insertedFounderpass_eq hesc env u chan pass hdesc, ?_⟩
    rw [List.append_left_inj, strscpy, List.take_eq_self_iff]
    exact (or_iff_right Way.noConfusion).symm
  | set passwordIsNick u name channelId param salt haccepted =>
    exact ⟨param.short, _, _, updatedSecret_founderpass hesc salt channelId param.short,
      iff_of_true rfl (.inl rfl)⟩

end Hashed

/-! ### The round trip -/

/-- For every accepted password a row is stored, and without collisions IDENTIFY accepts the password, and
no other one of at most `PASSMAX - 1` characters, iff it was set with SET PASSWORD or has at most that many
characters. -/
theorem chanPassword_iff {realEscape : CString → CString} (hesc : ∀ s, realEscape s = escape s)
    (sha1 : CString → CString) {way : Way} {pass : CString} {stored : Option (CString × CString)}
    (h : Accepted realEscape way pass stored) :
    ∃ hashed salt, stored = some (hashed, salt) ∧ (NoCollision sha1 hashed salt pass →
      ∀ channelId,
        RoundTrips (checkChanPassword realEscape sha1 ⟨sha1 hashed, salt⟩ channelId) pass ↔
          way = .set ∨ pass.length ≤ 40) := by
  obtain ⟨hpass, hashed, salt, hstored, hiff⟩ := h.hashed hesc
  refine ⟨hashed, salt, hstored, fun hsha channelId ↦ ?_⟩
  rw [← hiff]
  exact roundTrips_iff_hashed hpass (fun _ ↦ checkChanPassword_eq hesc sha1 _ channelId) hsha

/-- A channel that can be registered. -/
def sampleEnv : RegisterEnv :=
  ⟨false, true, true, false, true, false, true, none, 0#32, 20#32, sampleSalt⟩

/-- SET PASSWORD secret. -/
theorem chanPassword_iff_secret :
    ∃ hashed salt, updatedSecret (founderpassUpdate escape sampleSalt 1#32 "secret".toList) =
      some (hashed, salt) ∧
      RoundTrips (checkChanPassword escape sampleHash ⟨sampleHash hashed, salt⟩ 1#32)
        "secret".toList := by
  obtain ⟨hashed, salt, hstored, hiff⟩ := chanPassword_iff (fun _ ↦ rfl) sampleHash
    (.set false sampleUser "#c".toList 1#32 (.ofInbuf "secret".toList) sampleSalt rfl)
  exact ⟨hashed, salt, hstored,
    (hiff (fun _ _ h ↦ sampleHash_injective h) 1#32).mpr (.inl rfl)⟩

/-- REGISTER with a password of 41 letters. -/
theorem not_roundTrips_register :
    ¬ ∀ way pass stored, Accepted escape way pass stored →
      ∃ hashed salt, stored = some (hashed, salt) ∧ (NoCollision sampleHash hashed salt pass →
        ∀ channelId, RoundTrips
          (checkChanPassword escape sampleHash ⟨sampleHash hashed, salt⟩ channelId) pass) := by
  intro h
  have haccepted : Accepted escape .register (List.replicate 41 'x')
      (insertedFounderpass (channelInsert escape sampleEnv sampleUser "#c".toList
        (List.replicate 41 'x') ['d'])) :=
    .register sampleEnv sampleUser (.ofInbuf ("#c ".toList ++ List.replicate 41 'x' ++ [' ', 'd']))
      (by decide +kernel)
  obtain ⟨hashed, salt, hstored, hround⟩ := h _ _ _ haccepted
  obtain ⟨hpass, hashed', salt', hstored', hiff⟩ := haccepted.hashed fun _ ↦ rfl
  obtain ⟨rfl, rfl⟩ := Prod.mk.inj (Option.some.inj (hstored.symm.trans hstored'))
  have hsha : NoCollision sampleHash hashed salt (List.replicate 41 'x') :=
    fun _ _ h ↦ sampleHash_injective h
  have hhashed := (roundTrips_iff_hashed hpass
    (fun _ ↦ checkChanPassword_eq (fun _ ↦ rfl) sampleHash _ 1#32) hsha).mp (hround hsha 1#32)
  exact absurd (hiff.mp hhashed) (by decide)

end BlitzedServices.ChanServ.Passwords
