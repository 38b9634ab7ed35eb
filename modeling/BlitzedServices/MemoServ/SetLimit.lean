import BlitzedServices.Akill.AddAkill
import BlitzedServices.MemoServ.Memos
import BlitzedServices.NickServ.Run

/-!
# SET LIMIT of MemoServ

A limit is set for a channel, for a nick that a services admin names, or for the caller's own nick. `do_set_limit`
looks up the record with the limit by a name and the flag that locks it by an id, and not always of the same owner: for
a services admin the record is that of his own nick also when he gives a channel, and that of the nick as typed
where the flag is that of its master; for his own nick the id is never set.

`doSetLimit_right_iff` says when a call is right nevertheless: an error changes nothing, and a success sets the
limit and the flag of the owner that is named and of nobody else.
-/

set_option autoImplicit false
set_option relaxedAutoImplicit false

namespace BlitzedServices.MemoServ

open Lib Mysql NickServ ChanServ
open Akill (nextWord)

def CI_MEMO_HARDMAX : BitVec 32 := 0x400#32
def NI_MEMO_HARDMAX : BitVec 32 := 0x8#32

/-! ### Updates -/

/-- `add_chan_flags` and `remove_chan_flags`. -/
def updateChanFlags (f : BitVec 32 → BitVec 32) (channelId : ℕ) (db : Database) : Database :=
  { db with channel := db.channel.map fun c ↦ if c.channelId = channelId then { c with flags := f c.flags } else c }

/-- `add_nick_flags` and `remove_nick_flags`. -/
def updateNickFlags (f : BitVec 32 → BitVec 32) (nickId : ℕ) (db : Database) : Database :=
  { db with nick := db.nick.map fun r ↦ if r.nickId = nickId then { r with flags := f r.flags } else r }

/-- `set_memo_limit`. -/
def setMemoLimit (memoinfoId : ℕ) (max : ℤ) (db : Database) : Database :=
  { db with memoinfo := db.memoinfo.map fun r ↦ if r.memoinfoId = memoinfoId then { r with max } else r }

/-- A flag that is added or removed. -/
def withFlag (flag : BitVec 32) (add : Bool) (flags : BitVec 32) : BitVec 32 :=
  if add then flags ||| flag else flags &&& ~~~flag

/-! ### The command -/

/-- The words of the argument. -/
structure LimitWords where
  chan : Option CString
  p1 : Option CString
  p2 : Option CString
  p3 : Option CString
  deriving DecidableEq

/-- The calls of `strtok` in `do_set_limit`. -/
def limitWords (param : CString) : LimitWords :=
  let first := nextWord param
  let second := nextWord first.2
  let third := nextWord second.2
  if first.1.any fun word ↦ word.head? = some '#' then ⟨first.1, second.1, third.1, (nextWord third.2).1⟩
  else ⟨none, first.1, second.1, third.1⟩

/-- The reply when a limit has been set. -/
inductive LimitSet where
  | MEMO_SET_YOUR_LIMIT (limit : ℤ)
  | MEMO_SET_LIMIT (name : Option CString) (limit : ℤ)
  | MEMO_SET_YOUR_LIMIT_ZERO
  | MEMO_SET_LIMIT_ZERO (name : Option CString)
  | MEMO_UNSET_YOUR_LIMIT
  | MEMO_UNSET_LIMIT (name : Option CString)
  deriving DecidableEq

/-- What `do_set_limit` replies when it refuses. -/
inductive LimitError where
  | CHAN_X_NOT_REGISTERED (chan : CString)
  | CHAN_X_FORBIDDEN (chan : CString)
  | ACCESS_DENIED
  | NICK_X_NOT_REGISTERED (nick : CString)
  | MEMO_SET_LIMIT_SERVADMIN_SYNTAX
  | MEMO_SET_LIMIT_SYNTAX
  | MEMO_SET_LIMIT_FORBIDDEN (chan : CString)
  | MEMO_SET_YOUR_LIMIT_FORBIDDEN
  | MEMO_SET_LIMIT_TOO_HIGH (chan : CString) (max : ℤ)
  | MEMO_SET_YOUR_LIMIT_TOO_HIGH (max : ℤ)
  deriving DecidableEq

/-- What `do_set_limit` replies. A limit that is too large is stored as 32767, with a notice before the reply. -/
inductive SetLimitReply where
  | error (error : LimitError)
  | limitSet (overflow : Bool) (reply : LimitSet)
  deriving DecidableEq

/-- The choice of the last reply. -/
def replyOf (yours : Bool) (name : Option CString) (limit : ℤ) : LimitSet :=
  if 0 < limit then if yours then .MEMO_SET_YOUR_LIMIT limit else .MEMO_SET_LIMIT name limit
  else if limit = 0 then if yours then .MEMO_SET_YOUR_LIMIT_ZERO else .MEMO_SET_LIMIT_ZERO name
  else if yours then .MEMO_UNSET_YOUR_LIMIT else .MEMO_UNSET_LIMIT name

def isHard (word : CString) : Bool := stricmp word "HARD".toList = 0

def isNone (word : CString) : Bool := stricmp word "NONE".toList = 0

def startsWithDigit (word : CString) : Bool := word.head?.any Char.isDigit

/-- A services admin names a nick: there is a second word other than HARD, and no channel. -/
def namesNick (words : LimitWords) : Bool :=
  words.chan.isNone && words.p2.any fun p2 ↦ !isHard p2

/-- What a services admin asks for: the name whose record is looked up, the id in `ni`, the limit and whether
there is a word after it. -/
structure AdminRequest where
  user : CString
  nickId : ℕ
  overflow : Bool
  limit : ℤ
  hard : Bool

/-- The limit that a services admin gives, and HARD after it. -/
def adminLimit (user : CString) (nickId : ℕ) (p1 : CString) (p2 : Option CString) :
    Except LimitError AdminRequest :=
  if ¬startsWithDigit p1 ∧ ¬isNone p1 ∨ p2.any fun p2 ↦ !isHard p2 then
    .error .MEMO_SET_LIMIT_SERVADMIN_SYNTAX
  else
    let limit := (atoi p1).toInt
    let overflow := decide (limit < 0 ∨ 32767 < limit)
    .ok ⟨user, nickId, overflow, if isNone p1 then -1 else if overflow then 32767 else limit, p2.isSome⟩

/-- The words of a services admin. -/
def adminRequest (u : AccessUser) (words : LimitWords) (db : Database) : Except LimitError AdminRequest :=
  match words.p1 with
  | none => .error .MEMO_SET_LIMIT_SERVADMIN_SYNTAX
  | some p1 =>
    if namesNick words then
      if mysqlFindnick db p1 = 0 then .error (.NICK_X_NOT_REGISTERED p1)
      else
        match getNickinfoFromId db (mysqlGetlink db (mysqlFindnick db p1)) with
        | none => .error (.NICK_X_NOT_REGISTERED p1)
        | some ni => adminLimit p1 ni.nickId (words.p2.getD []) words.p3
    else adminLimit u.nick 0 p1 words.p2

/-- The part for services admins, with the channel that is given. -/
def setLimitAdmin (now : ℕ) (u : AccessUser) (words : LimitWords) (ci : Option ChannelRow) (w : World) :
    SetLimitReply × Database :=
  match adminRequest u words w.db with
  | .error error => (.error error, w.db)
  | .ok request =>
    let mi := getMemoinfoFromOwner now request.user w
    let db :=
      match ci with
      | some ci => updateChanFlags (withFlag CI_MEMO_HARDMAX request.hard) ci.channelId w.db
      | none => updateNickFlags (withFlag NI_MEMO_HARDMAX request.hard) request.nickId w.db
    let yours := words.chan = none ∧ request.nickId = u.nickId
    (.limitSet request.overflow (replyOf yours (words.chan.getD request.user) request.limit),
      setMemoLimit mi.memoinfoId request.limit db)

/-- The limit that others give, when HARD is set or is not: whether it was too large to be stored, and the limit. -/
def ownLimit (msMaxMemos : ℤ) (words : LimitWords) (hard : Bool) : Except LimitError (Bool × ℤ) :=
  match words.p1 with
  | none => .error .MEMO_SET_LIMIT_SYNTAX
  | some p1 =>
    if words.p2.isSome ∨ ¬startsWithDigit p1 then .error .MEMO_SET_LIMIT_SYNTAX
    else if hard then
      match words.chan with
      | some chan => .error (.MEMO_SET_LIMIT_FORBIDDEN chan)
      | none => .error .MEMO_SET_YOUR_LIMIT_FORBIDDEN
    else
      let limit := (atoi p1).toInt
      if limit < 0 ∨ 0 < msMaxMemos ∧ msMaxMemos < limit then
        match words.chan with
        | some chan => .error (.MEMO_SET_LIMIT_TOO_HIGH chan msMaxMemos)
        | none => .error (.MEMO_SET_YOUR_LIMIT_TOO_HIGH msMaxMemos)
      else .ok (32767 < limit, if 32767 < limit then 32767 else limit)

/-- The part for others, with the name whose record is looked up and the id in `ni`. -/
def setLimitOwn (msMaxMemos : ℤ) (now : ℕ) (u : AccessUser) (words : LimitWords) (owner : CString) (nickId : ℕ)
    (hard : Bool) (w : World) : SetLimitReply × Database :=
  let mi := getMemoinfoFromOwner now owner w
  match ownLimit msMaxMemos words hard with
  | .error error => (.error error, w.db)
  | .ok (overflow, limit) =>
    let yours := words.chan = none ∧ nickId = u.nickId
    (.limitSet overflow (replyOf yours words.chan limit), setMemoLimit mi.memoinfoId limit w.db)

/-- `do_set_limit`, where `none` is a read of the record `ni` that was not filled. -/
def doSetLimit (msMaxMemos : ℤ) (now : ℕ) (u : AccessUser) (param : CString) (w : World) :
    Option (SetLimitReply × Database) :=
  let words := limitWords param
  match words.chan with
  | some chan =>
    match w.db.channel.find? fun c ↦ c.channelId = mysqlFindchan w.db chan with
    | none => some (.error (.CHAN_X_NOT_REGISTERED chan), w.db)
    | some ci =>
      if ci.flags &&& CI_VERBOTEN ≠ 0#32 then some (.error (.CHAN_X_FORBIDDEN chan), w.db)
      else if u.isServicesAdmin then some (setLimitAdmin now u words (some ci) w)
      else
        let access := checkAccess u now w.db ci.channelId CA_SET
        if ¬access.1 then some (.error .ACCESS_DENIED, access.2)
        else
          let hard := ci.flags &&& CI_MEMO_HARDMAX ≠ 0#32
          some (setLimitOwn msMaxMemos now u words chan 0 hard { w with db := access.2 })
  | none =>
    if u.isServicesAdmin then some (setLimitAdmin now u words none w)
    else
      (getNickinfoFromId w.db u.realId).map fun ni ↦
        setLimitOwn msMaxMemos now u words ni.nick ni.nickId (ni.flags &&& NI_MEMO_HARDMAX ≠ 0#32) w

/-! ### The owner and what is promised -/

/-- Who has a limit. -/
inductive LimitOwner where
  | channel (channelId : ℕ)
  | nick (nickId : ℕ)

/-- The owner that a request names. -/
def limitOwner (u : AccessUser) (words : LimitWords) (db : Database) : LimitOwner :=
  match words.chan with
  | some chan => .channel (mysqlFindchan db chan)
  | none =>
    if u.isServicesAdmin ∧ namesNick words then .nick (mysqlGetlink db (mysqlFindnick db (words.p1.getD [])))
    else .nick u.realId

/-- Whether a services admin asks for HARD. -/
def asksHard (words : LimitWords) : Bool :=
  words.p2.any isHard || words.p3.any isHard

/-- The name of an owner. -/
def LimitOwner.name (db : Database) : LimitOwner → Option CString
  | .channel channelId => getChannameFromId db channelId
  | .nick nickId => getNickFromId db nickId

/-- The HARD flag of an owner. -/
def LimitOwner.isHard (db : Database) : LimitOwner → Bool
  | .channel channelId =>
    (db.channel.find? fun c ↦ c.channelId = channelId).any fun c ↦ c.flags &&& CI_MEMO_HARDMAX ≠ 0#32
  | .nick nickId => (getNickinfoFromId db nickId).any fun r ↦ r.flags &&& NI_MEMO_HARDMAX ≠ 0#32

/-- The HARD flag of an owner is set or cleared. -/
def LimitOwner.setHard (hard : Bool) (db : Database) : LimitOwner → Database
  | .channel channelId => updateChanFlags (withFlag CI_MEMO_HARDMAX hard) channelId db
  | .nick nickId => updateNickFlags (withFlag NI_MEMO_HARDMAX hard) nickId db

/-- The limit that a reply tells. -/
def LimitSet.limit : LimitSet → ℤ
  | .MEMO_SET_YOUR_LIMIT limit => limit
  | .MEMO_SET_LIMIT _ limit => limit
  | .MEMO_SET_YOUR_LIMIT_ZERO => 0
  | .MEMO_SET_LIMIT_ZERO _ => 0
  | .MEMO_UNSET_YOUR_LIMIT => -1
  | .MEMO_UNSET_LIMIT _ => -1

/-- The limit of one owner has been set, and that of nobody else. -/
def SetsLimit (name : CString) (limit : ℤ) (before after : List MemoinfoRow) : Prop :=
  (∃ r ∈ before, sameName r.owner name) ∧
    after = before.map fun r ↦ if sameName r.owner name then { r with max := limit } else r

/-- What is promised when a limit is set: the limit is that of the owner, who has a record, and of nobody else. A services
admin sets or clears the owner's HARD flag as he asks. Others change no flag, set no limit above the largest one, and
none for an owner whose HARD flag is set. -/
structure LimitPromise (msMaxMemos : ℤ) (u : AccessUser) (words : LimitWords) (db : Database) (limit : ℤ)
    (db' : Database) : Prop where
  record : ∃ name, (limitOwner u words db).name db = some name ∧ SetsLimit name limit db.memoinfo db'.memoinfo
  admin : u.isServicesAdmin = true →
    db'.nick = ((limitOwner u words db).setHard (asksHard words) db).nick ∧
      db'.channel = ((limitOwner u words db).setHard (asksHard words) db).channel
  others : u.isServicesAdmin = false → db'.nick = db.nick ∧ db'.channel = db.channel ∧
    (0 < msMaxMemos → limit ≤ msMaxMemos) ∧ (limitOwner u words db).isHard db = false

/-- What is promised of a call: it comes to an end, and either sets a limit as promised or changes nothing. -/
def LimitRight (msMaxMemos : ℤ) (u : AccessUser) (param : CString) (db : Database)
    (result : Option (SetLimitReply × Database)) : Prop :=
  ∃ reply db', result = some (reply, db') ∧
    match reply with
    | .limitSet _ reply => LimitPromise msMaxMemos u (limitWords param) db reply.limit db'
    | .error _ => db' = db

/-! ### The condition -/

/-- The record that is found by a name is the only one of the owner, or has the limit already, as has every other one for
which it makes a difference. -/
def RecordRight (now : ℕ) (w : World) (used name : CString) (limit : ℤ) : Prop :=
  (∃ r ∈ w.db.memoinfo, sameName r.owner name) ∧
    ∀ r ∈ w.db.memoinfo, r.max = limit ∨
      (r.memoinfoId = (getMemoinfoFromOwner now used w).memoinfoId ↔ sameName r.owner name)

/-- The condition on the words of a services admin: the record of his own nick, or of the nick that he types, is right for
the owner; and the HARD flag of his own nick is already as he asks. -/
def AdminMeets (now : ℕ) (u : AccessUser) (words : LimitWords) (w : World) : Prop :=
  ∀ request, adminRequest u words w.db = .ok request →
    (∃ name, (limitOwner u words w.db).name w.db = some name ∧ RecordRight now w request.user name request.limit) ∧
      (words.chan = none → namesNick words = false → ∀ ni, getNickinfoFromId w.db u.realId = some ni →
        withFlag NI_MEMO_HARDMAX request.hard ni.flags = ni.flags)

/-- The condition on a call. A refusal may leave no mark of the look at the caller's access level. -/
def LimitMeets (msMaxMemos : ℤ) (now : ℕ) (u : AccessUser) (param : CString) (w : World) : Prop :=
  let words := limitWords param
  match words.chan with
  | some chan =>
    ∀ ci, (w.db.channel.find? fun c ↦ c.channelId = mysqlFindchan w.db chan) = some ci →
      ci.flags &&& CI_VERBOTEN = 0#32 →
        if u.isServicesAdmin then AdminMeets now u words w
        else
          match (checkAccess u now w.db ci.channelId CA_SET).1,
              ownLimit msMaxMemos words (ci.flags &&& CI_MEMO_HARDMAX ≠ 0#32) with
          | true, .ok (_, limit) => RecordRight now w chan ci.name limit
          | _, _ => (checkAccess u now w.db ci.channelId CA_SET).2 = w.db
  | none =>
    if u.isServicesAdmin then AdminMeets now u words w
    else
      ∃ ni, getNickinfoFromId w.db u.realId = some ni ∧
        ∀ overflow limit, ownLimit msMaxMemos words (ni.flags &&& NI_MEMO_HARDMAX ≠ 0#32) = .ok (overflow, limit) →
          RecordRight now w ni.nick ni.nick limit

/-! ### Words and limits -/

section Words

variable {u : AccessUser} {words : LimitWords} {db : Database} {request : AdminRequest} {msMaxMemos : ℤ}

theorem limit_replyOf (yours : Bool) (name : Option CString) {limit : ℤ} (h : -1 ≤ limit) :
    (replyOf yours name limit).limit = limit := by
  rw [replyOf]
  split_ifs
  · rfl
  · rfl
  · exact Eq.symm ‹limit = 0›
  · exact Eq.symm ‹limit = 0›
  · show -1 = limit
    omega
  · show -1 = limit
    omega

/-- A word is missing only when those after it are. -/
theorem limitWords_p3 (param : CString) (h : (limitWords param).p2 = none) : (limitWords param).p3 = none := by
  have hnext {s : CString} (hs : (nextWord s).1 = none) : (nextWord (nextWord s).2).1 = none := by
    rw [nextWord] at hs
    cases htok : strtok [' '] s with
    | none =>
      rw [show (nextWord s).2 = [] by rw [nextWord, htok]]
      rfl
    | some found =>
      rw [htok] at hs
      cases hs
  rw [limitWords] at h ⊢
  split_ifs at h ⊢
  · exact hnext h
  · exact hnext h

/-- What the words of a services admin come to. -/
theorem adminLimit_ok {user : CString} {nickId : ℕ} {p1 : CString} {p2 : Option CString}
    (h : adminLimit user nickId p1 p2 = .ok request) :
    request.user = user ∧ request.nickId = nickId ∧ -1 ≤ request.limit ∧ request.hard = p2.any isHard ∧
      p2.any isHard = p2.isSome := by
  rw [adminLimit] at h
  by_cases hrefuse : ¬startsWithDigit p1 ∧ ¬isNone p1 ∨ p2.any fun p2 ↦ !isHard p2
  · rw [if_pos hrefuse] at h
    cases h
  rcases not_or.mp hrefuse with ⟨-, hword⟩
  rw [if_neg hrefuse] at h
  obtain rfl := Except.ok.inj h
  have hhard : p2.any isHard = p2.isSome := by
    cases p2 with
    | none => rfl
    | some p2 => simpa using hword
  refine ⟨rfl, rfl, ?_, hhard.symm, hhard⟩
  · dsimp only
    split_ifs with hnone hoverflow
    · exact le_rfl
    · decide
    · have hrange := not_or.mp (of_decide_eq_false (Bool.not_eq_true _ ▸ hoverflow))
      omega

/-- What a services admin asks for: the id is that of the nick that he names, or none. -/
theorem adminRequest_ok (hwords : words.p2 = none → words.p3 = none) (h : adminRequest u words db = .ok request) :
    -1 ≤ request.limit ∧ request.hard = asksHard words ∧
      if namesNick words then
        words.p1 = some request.user ∧ request.nickId = mysqlGetlink db (mysqlFindnick db (words.p1.getD [])) ∧
          (getNickinfoFromId db request.nickId).isSome
      else request.user = u.nick ∧ request.nickId = 0 := by
  rw [adminRequest] at h
  cases hp1 : words.p1 with
  | none =>
    rw [hp1] at h
    cases h
  | some p1 =>
    rw [hp1] at h
    dsimp only at h
    by_cases hnames : namesNick words = true
    · have hword : words.p2.any isHard = false := by
        rw [namesNick, Bool.and_eq_true] at hnames
        cases hp2 : words.p2 with
        | none => rfl
        | some p2 => simpa [hp2] using hnames.2
      rw [if_pos hnames] at h ⊢
      by_cases hzero : mysqlFindnick db p1 = 0
      · rw [if_pos hzero] at h
        cases h
      · rw [if_neg hzero] at h
        cases hni : getNickinfoFromId db (mysqlGetlink db (mysqlFindnick db p1)) with
        | none =>
          rw [hni] at h
          cases h
        | some ni =>
          rw [hni] at h
          rcases adminLimit_ok h with ⟨huser, hid, hlimit, hhard, -⟩
          have hrow : ni.nickId = mysqlGetlink db (mysqlFindnick db p1) := by
            simpa using List.find?_some hni
          refine ⟨hlimit, ?_, congrArg some huser.symm, hid.trans hrow, ?_⟩
          · rw [hhard, asksHard, hword, Bool.false_or]
          · rw [hid, hrow, hni]
            rfl
    · rw [if_neg hnames] at h ⊢
      rcases adminLimit_ok h with ⟨huser, hid, hlimit, hhard, hword⟩
      refine ⟨hlimit, ?_, huser, hid⟩
      rw [hhard, asksHard]
      cases hp2 : words.p2 with
      | none =>
        rw [hwords hp2]
        rfl
      | some p2 =>
        rw [hp2, Option.isSome_some] at hword
        rw [hword, Bool.true_or]

/-- What the words of others come to. -/
theorem ownLimit_ok {hard overflow : Bool} {limit : ℤ} (h : ownLimit msMaxMemos words hard = .ok (overflow, limit)) :
    0 ≤ limit ∧ (0 < msMaxMemos → limit ≤ msMaxMemos) ∧ hard = false := by
  rw [ownLimit] at h
  split at h
  · cases h
  · split at h
    · cases h
    · split at h
      · split at h <;> cases h
      · rename_i hhard
        dsimp only at h
        split at h
        · split at h <;> cases h
        · rename_i hrange
          have hlimit := congrArg Prod.snd (Except.ok.inj h)
          dsimp only at hlimit
          rw [not_or, not_and] at hrange
          refine ⟨?_, fun hpos ↦ ?_, Bool.not_eq_true _ ▸ hhard⟩
          · rw [← hlimit]
            split_ifs <;> omega
          · have hmax := hrange.2 hpos
            rw [← hlimit]
            split_ifs <;> omega

end Words

/-! ### Rows -/

section Rows

variable {w : World} {db : Database} {name : CString} {limit : ℤ}

/-- The limit that was set by an id is the owner's and nobody else's if the id is right. -/
theorem setsLimit_iff (rows : List MemoinfoRow) (memoinfoId : ℕ) :
    SetsLimit name limit rows
        (rows.map fun r ↦ if r.memoinfoId = memoinfoId then { r with max := limit } else r) ↔
      (∃ r ∈ rows, sameName r.owner name) ∧
        ∀ r ∈ rows, r.max = limit ∨ (r.memoinfoId = memoinfoId ↔ sameName r.owner name) := by
  refine and_congr_right fun _ ↦ ?_
  rw [List.map_inj_left]
  refine forall₂_congr fun r _ ↦ ?_
  have hsame : r = { r with max := limit } ↔ r.max = limit :=
    ⟨fun h ↦ congrArg MemoinfoRow.max h, fun h ↦ by rw [← h]⟩
  by_cases hid : r.memoinfoId = memoinfoId
  · by_cases hname : sameName r.owner name = true
    · rw [if_pos hid, if_pos hname]
      exact iff_of_true rfl (.inr (iff_of_true hid hname))
    · rw [if_pos hid, if_neg hname, or_iff_left fun h ↦ hname (h.mp hid)]
      exact eq_comm.trans hsame
  · by_cases hname : sameName r.owner name = true
    · rw [if_neg hid, if_pos hname, or_iff_left fun h ↦ hid (h.mpr hname)]
      exact hsame
    · rw [if_neg hid, if_neg hname]
      exact iff_of_true rfl (.inr (iff_of_false hid hname))

/-- No nick has the id 0. -/
theorem updateNickFlags_zero (hkeys : Keys db) (f : BitVec 32 → BitVec 32) : updateNickFlags f 0 db = db := by
  have hrows : (db.nick.map fun r ↦ if r.nickId = 0 then { r with flags := f r.flags } else r) = db.nick :=
    (List.map_congr_left fun r hr ↦ if_neg (hkeys.nick_ne_zero r hr)).trans (List.map_id _)
  exact congrArg (fun nick ↦ { db with nick }) hrows

/-- An update changes nothing if the flags of the nick are those that it makes. -/
theorem nick_eq_updateNickFlags_iff (hkeys : Keys db) (f : BitVec 32 → BitVec 32) (nickId : ℕ) :
    db.nick = (updateNickFlags f nickId db).nick ↔
      ∀ ni, getNickinfoFromId db nickId = some ni → f ni.flags = ni.flags := by
  show db.nick = db.nick.map _ ↔ _
  have hmap : (db.nick = db.nick.map fun r ↦ if r.nickId = nickId then { r with flags := f r.flags } else r) ↔
      ∀ r ∈ db.nick, r = if r.nickId = nickId then { r with flags := f r.flags } else r := by
    have hinj := List.map_inj_left (l := db.nick) (f := fun r ↦ r)
      (g := fun r ↦ if r.nickId = nickId then { r with flags := f r.flags } else r)
    rwa [List.map_id'] at hinj
  rw [hmap]
  constructor
  · intro hrows ni hni
    have hid : ni.nickId = nickId := by simpa using List.find?_some hni
    have hrow := hrows ni (List.mem_of_find?_eq_some hni)
    rw [if_pos hid] at hrow
    exact (congrArg NickRow.flags hrow).symm
  · intro hflags r hr
    by_cases hid : r.nickId = nickId
    · have hfind : getNickinfoFromId db nickId = some r := hid ▸ find?_eq_some_of_nodup hkeys.nick hr
      rw [if_pos hid, hflags r hfind]
    · rw [if_neg hid]

/-- Where ids are unique and the owner has one record, the record is right if it is the one that is found. -/
theorem recordRight_of_found {now : ℕ} {used : CString} (hids : (w.db.memoinfo.map MemoinfoRow.memoinfoId).Nodup)
    {r : MemoinfoRow} (hr : r ∈ w.db.memoinfo) (hname : sameName r.owner name)
    (honly : ∀ s ∈ w.db.memoinfo, sameName s.owner name → s = r)
    (hfound : (getMemoinfoFromOwner now used w).memoinfoId = r.memoinfoId) (limit : ℤ) :
    RecordRight now w used name limit := by
  refine ⟨⟨r, hr, hname⟩, fun s hs ↦ .inr ?_⟩
  rw [hfound]
  constructor
  · intro hid
    rwa [List.inj_on_of_nodup_map hids hs hr hid]
  · exact fun hsname ↦ congrArg MemoinfoRow.memoinfoId (honly s hs hsname)

theorem limitRight_error (msMaxMemos : ℤ) (u : AccessUser) (param : CString) (db db' : Database) (e : LimitError) :
    LimitRight msMaxMemos u param db (some (.error e, db')) ↔ db' = db := by
  constructor
  · rintro ⟨reply, after, heq, hright⟩
    obtain ⟨rfl, rfl⟩ := Prod.mk.inj (Option.some.inj heq)
    exact hright
  · exact fun h ↦ ⟨_, _, rfl, h⟩

theorem limitRight_limitSet (msMaxMemos : ℤ) (u : AccessUser) (param : CString) (db db' : Database) (overflow : Bool)
    (reply : LimitSet) :
    LimitRight msMaxMemos u param db (some (.limitSet overflow reply, db')) ↔
      LimitPromise msMaxMemos u (limitWords param) db reply.limit db' := by
  constructor
  · rintro ⟨reply', after, heq, hright⟩
    obtain ⟨rfl, rfl⟩ := Prod.mk.inj (Option.some.inj heq)
    exact hright
  · exact fun h ↦ ⟨_, _, rfl, h⟩

/-- The look at the access level matters to no other table. -/
theorem checkAccess_stamps (u : AccessUser) (now : ℕ) (db : Database) (channelId what : ℕ) :
    ∃ chanaccess, (checkAccess u now db channelId what).2 = { db with chanaccess } := by
  rcases getAccess_stamps u now db channelId with ⟨stamp, hstamp⟩
  exact ⟨_, (checkAccess_snd u now what).trans hstamp⟩

end Rows

/-! ### The two parts -/

section Parts

variable {w : World} {u : AccessUser} {param : CString}

theorem limitOwner_chan {words : LimitWords} {chan : CString} (h : words.chan = some chan) (u : AccessUser)
    (db : Database) : limitOwner u words db = .channel (mysqlFindchan db chan) := by
  rw [limitOwner, h]

theorem limitOwner_own {words : LimitWords} (h : words.chan = none) (hown : (u.isServicesAdmin && namesNick words) = false)
    (db : Database) : limitOwner u words db = .nick u.realId := by
  rw [limitOwner, h]
  exact if_neg fun hnames ↦ by simp [hnames.1, hnames.2] at hown

/-- The record is right, and whatever is promised of the flags. -/
theorem limitPromise_iff (msMaxMemos : ℤ) (now : ℕ) (words : LimitWords) (limit : ℤ) (used : CString) {db : Database}
    (hmemoinfo : db.memoinfo = w.db.memoinfo) :
    LimitPromise msMaxMemos u words w.db limit
        (setMemoLimit (getMemoinfoFromOwner now used w).memoinfoId limit db) ↔
      (∃ name, (limitOwner u words w.db).name w.db = some name ∧ RecordRight now w used name limit) ∧
        (u.isServicesAdmin = true →
          db.nick = ((limitOwner u words w.db).setHard (asksHard words) w.db).nick ∧
            db.channel = ((limitOwner u words w.db).setHard (asksHard words) w.db).channel) ∧
        (u.isServicesAdmin = false → db.nick = w.db.nick ∧ db.channel = w.db.channel ∧
          (0 < msMaxMemos → limit ≤ msMaxMemos) ∧ (limitOwner u words w.db).isHard w.db = false) := by
  have hrecord (name : CString) : SetsLimit name limit w.db.memoinfo
      (setMemoLimit (getMemoinfoFromOwner now used w).memoinfoId limit db).memoinfo ↔
        RecordRight now w used name limit := by
    show SetsLimit name limit w.db.memoinfo (db.memoinfo.map _) ↔ _
    rw [hmemoinfo]
    exact setsLimit_iff _ _
  constructor
  · rintro ⟨⟨name, hname, hsets⟩, hadmin, hothers⟩
    exact ⟨⟨name, hname, (hrecord name).mp hsets⟩, hadmin, hothers⟩
  · rintro ⟨⟨name, hname, hright⟩, hadmin, hothers⟩
    exact ⟨⟨name, hname, (hrecord name).mpr hright⟩, hadmin, hothers⟩

/-- For a services admin. The id is that of the channel or of the master of the nick that is named, and 0 otherwise. -/
theorem setLimitAdmin_right_iff (hkeys : Keys w.db) (msMaxMemos : ℤ) (now : ℕ) (hadmin : u.isServicesAdmin = true)
    {ci : Option ChannelRow}
    (hci : ci.map ChannelRow.channelId = (limitWords param).chan.map fun chan ↦ mysqlFindchan w.db chan) :
    LimitRight msMaxMemos u param w.db (some (setLimitAdmin now u (limitWords param) ci w)) ↔
      AdminMeets now u (limitWords param) w := by
  rw [setLimitAdmin, AdminMeets]
  cases hrequest : adminRequest u (limitWords param) w.db with
  | error e =>
    dsimp only
    rw [limitRight_error]
    exact iff_of_true rfl fun request h ↦ nomatch h
  | ok request =>
    rcases adminRequest_ok (limitWords_p3 param) hrequest with ⟨hlimit, hhard, hid⟩
    dsimp only
    rw [limitRight_limitSet, limit_replyOf _ _ hlimit]
    have hone {p : AdminRequest → Prop} :
        (∀ r, (Except.ok request : Except LimitError AdminRequest) = .ok r → p r) ↔ p request :=
      ⟨fun h ↦ h request rfl, fun h r hr ↦ Except.ok.inj hr ▸ h⟩
    rw [hone]
    cases hchan : (limitWords param).chan with
    | some chan =>
      rw [hchan] at hci
      rcases Option.map_eq_some_iff.mp hci with ⟨c, rfl, hc⟩
      dsimp only
      rw [limitPromise_iff _ _ _ _ _ (by rfl)]
      refine and_congr_right fun _ ↦ iff_of_true ⟨fun _ ↦ ?_, fun h ↦ ?_⟩ fun h ↦ nomatch h
      · rw [limitOwner_chan hchan, ← show c.channelId = mysqlFindchan w.db chan from hc, ← hhard]
        exact ⟨rfl, rfl⟩
      · rw [hadmin] at h
        cases h
    | none =>
      rw [hchan] at hci
      obtain rfl := Option.map_eq_none_iff.mp hci
      dsimp only
      rw [limitPromise_iff _ _ _ _ _ (by rfl)]
      refine and_congr_right fun _ ↦ ?_
      have hothers : ¬u.isServicesAdmin = false := by rw [hadmin]; exact Bool.noConfusion
      rw [and_iff_left fun h ↦ absurd h hothers, forall_prop_of_true hadmin, forall_prop_of_true rfl]
      cases hnames : namesNick (limitWords param) with
      | true =>
        rw [if_pos hnames] at hid
        refine iff_of_true ?_ fun h ↦ nomatch h
        rw [limitOwner, hchan, if_pos ⟨hadmin, hnames⟩, ← hid.2.1, ← hhard]
        exact ⟨rfl, rfl⟩
      | false =>
        rw [if_neg (by simp [hnames])] at hid
        rw [forall_prop_of_true rfl, limitOwner_own hchan (by rw [hnames, Bool.and_false]), hid.2,
          updateNickFlags_zero hkeys, hhard]
        exact (and_iff_left rfl).trans (nick_eq_updateNickFlags_iff hkeys _ _)

/-- For others, when the owner is known. The world may have the marks of a look at the access level. -/
theorem setLimitOwn_right_iff (msMaxMemos : ℤ) (now : ℕ) (hothers : u.isServicesAdmin = false) {name owner : CString}
    {nickId : ℕ} {hard : Bool} (hname : (limitOwner u (limitWords param) w.db).name w.db = some name)
    (hhard : (limitOwner u (limitWords param) w.db).isHard w.db = hard) {chanaccess : List ChanaccessRow}
    (hrecord : getMemoinfoFromOwner now owner { w with db := { w.db with chanaccess } } =
      getMemoinfoFromOwner now owner w) :
    LimitRight msMaxMemos u param w.db
        (some (setLimitOwn msMaxMemos now u (limitWords param) owner nickId hard
          { w with db := { w.db with chanaccess } })) ↔
      match ownLimit msMaxMemos (limitWords param) hard with
      | .ok (_, limit) => RecordRight now w owner name limit
      | .error _ => { w.db with chanaccess } = w.db := by
  rw [setLimitOwn, hrecord]
  cases hlimit : ownLimit msMaxMemos (limitWords param) hard with
  | error e =>
    dsimp only
    rw [limitRight_error]
  | ok found =>
    rcases found with ⟨overflow, limit⟩
    rcases ownLimit_ok hlimit with ⟨hpos, hmax, rfl⟩
    dsimp only
    rw [limitRight_limitSet, limit_replyOf _ _ (by omega), limitPromise_iff _ _ _ _ _ (by rfl)]
    have hadmin : ¬u.isServicesAdmin = true := by rw [hothers]; exact Bool.noConfusion
    constructor
    · rintro ⟨⟨name', hname', hright⟩, -, -⟩
      obtain rfl := Option.some.inj (hname.symm.trans hname')
      exact hright
    · exact fun hright ↦ ⟨⟨name, hname, hright⟩, fun h ↦ absurd h hadmin, fun _ ↦ ⟨rfl, rfl, hmax, hhard⟩⟩

end Parts

/-! ### The whole command -/

theorem limitWords_chan {param chan : CString} (h : (limitWords param).chan = some chan) : chan.head? = some '#' := by
  rw [limitWords] at h
  split_ifs at h with hfirst
  rw [show (nextWord param).1 = some chan from h] at hfirst
  simpa using hfirst

/-- For every caller, argument and state: an error changes nothing, and a success changes the limit and the HARD flag of
exactly the owner that is named, with the promises to callers who are no services admins, if and only if the condition
holds. -/
theorem doSetLimit_right_iff (msMaxMemos : ℤ) (now : ℕ) (u : AccessUser) (param : CString) {w : World}
    (hkeys : Keys w.db) :
    LimitRight msMaxMemos u param w.db (doSetLimit msMaxMemos now u param w) ↔
      LimitMeets msMaxMemos now u param w := by
  rw [doSetLimit, LimitMeets]
  cases hchan : (limitWords param).chan with
  | none =>
    dsimp only
    cases hadmin : u.isServicesAdmin with
    | true =>
      rw [if_pos rfl, if_pos rfl]
      exact setLimitAdmin_right_iff hkeys msMaxMemos now hadmin (by rw [hchan]; rfl)
    | false =>
      rw [if_neg Bool.false_ne_true, if_neg Bool.false_ne_true]
      have howner := limitOwner_own (u := u) hchan (by rw [hadmin, Bool.false_and]) w.db
      cases hni : getNickinfoFromId w.db u.realId with
      | none =>
        refine iff_of_false ?_ ?_
        · rintro ⟨_, _, h, -⟩
          cases h
        · rintro ⟨_, h, -⟩
          cases h
      | some ni =>
        have hname : (limitOwner u (limitWords param) w.db).name w.db = some ni.nick := by
          rw [howner]
          exact congrArg (Option.map NickRow.nick) hni
        have hhard : (limitOwner u (limitWords param) w.db).isHard w.db =
            decide (ni.flags &&& NI_MEMO_HARDMAX ≠ 0#32) := by
          rw [howner, LimitOwner.isHard, hni]
          rfl
        have hrecord : getMemoinfoFromOwner now ni.nick { w with db := { w.db with chanaccess := w.db.chanaccess } } =
            getMemoinfoFromOwner now ni.nick w := rfl
        refine (setLimitOwn_right_iff msMaxMemos now hadmin hname hhard hrecord).trans ?_
        cases hlimit : ownLimit msMaxMemos (limitWords param) (decide (ni.flags &&& NI_MEMO_HARDMAX ≠ 0#32)) with
        | error e => exact iff_of_true rfl ⟨ni, rfl, fun overflow limit h ↦ by rw [hlimit] at h; cases h⟩
        | ok found =>
          constructor
          · intro hright
            refine ⟨ni, rfl, fun overflow limit h ↦ ?_⟩
            rw [hlimit] at h
            obtain rfl := Except.ok.inj h
            exact hright
          · rintro ⟨ni', hni', hall⟩
            obtain rfl := Option.some.inj hni'
            exact hall found.1 found.2 hlimit
  | some chan =>
    dsimp only
    cases hfind : w.db.channel.find? fun c ↦ c.channelId = mysqlFindchan w.db chan with
    | none =>
      refine iff_of_true ?_ fun ci h ↦ nomatch h
      exact (limitRight_error ..).mpr rfl
    | some ci =>
      have hid : ci.channelId = mysqlFindchan w.db chan := by simpa using List.find?_some hfind
      have hone {p : ChannelRow → Prop} : (∀ c, some ci = some c → p c) ↔ p ci :=
        ⟨fun h ↦ h ci rfl, fun h c hc ↦ Option.some.inj hc ▸ h⟩
      rw [hone]
      dsimp only
      by_cases hforbidden : ci.flags &&& CI_VERBOTEN = 0#32
      · rw [if_neg (not_not_intro hforbidden), forall_prop_of_true hforbidden]
        cases hadmin : u.isServicesAdmin with
        | true =>
          rw [if_pos rfl, if_pos rfl]
          refine setLimitAdmin_right_iff hkeys msMaxMemos now hadmin ?_
          rw [hchan]
          exact congrArg some hid
        | false =>
          rw [if_neg Bool.false_ne_true, if_neg Bool.false_ne_true]
          rcases checkAccess_stamps u now w.db ci.channelId CA_SET with ⟨chanaccess, hstamps⟩
          cases haccess : (checkAccess u now w.db ci.channelId CA_SET).1 with
          | false =>
            rw [if_pos (by simp)]
            exact limitRight_error ..
          | true =>
            rw [if_neg (by simp), hstamps]
            have howner := limitOwner_chan hchan u w.db
            have hname : (limitOwner u (limitWords param) w.db).name w.db = some ci.name := by
              rw [howner]
              exact congrArg (Option.map ChannelRow.name) hfind
            have hhard : (limitOwner u (limitWords param) w.db).isHard w.db =
                decide (ci.flags &&& CI_MEMO_HARDMAX ≠ 0#32) := by
              rw [howner, LimitOwner.isHard, hfind]
              rfl
            have hrecord : getMemoinfoFromOwner now chan { w with db := { w.db with chanaccess } } =
                getMemoinfoFromOwner now chan w := by
              rw [getMemoinfoFromOwner, getMemoinfoFromOwner, if_pos (limitWords_chan hchan),
                if_pos (limitWords_chan hchan)]
              rfl
            refine (setLimitOwn_right_iff msMaxMemos now hadmin hname hhard hrecord).trans ?_
            cases ownLimit msMaxMemos (limitWords param) (decide (ci.flags &&& CI_MEMO_HARDMAX ≠ 0#32)) with
            | error e => exact Iff.rfl
            | ok found => exact Iff.rfl
      · rw [if_pos hforbidden]
        exact iff_of_true ((limitRight_error ..).mpr rfl) fun h ↦ absurd h hforbidden

/-- The nick `a` and the channel `#` have limits. -/
def limitedWorld : World :=
  { World.empty with db := { exampleAccess with memoinfo := [⟨1, ['a'], 20⟩, ⟨2, ['#'], 20⟩] } }

theorem keys_limitedWorld : Keys limitedWorld.db := ⟨by decide, by decide, by decide⟩

/-- The user of `a` sets his own limit. -/
theorem doSetLimit_right_own : LimitRight 50 exampleActor ['5'] limitedWorld.db
    (doSetLimit 50 100 exampleActor ['5'] limitedWorld) := by
  refine (doSetLimit_right_iff 50 100 exampleActor ['5'] keys_limitedWorld).mpr ?_
  rw [LimitMeets, show limitWords ['5'] = ⟨none, some ['5'], none, none⟩ by decide +kernel]
  refine ⟨⟨1, ['a'], NS_IDENTIFIED, 0, 0#32, 20⟩, rfl, fun overflow limit _ ↦ ?_⟩
  have hrow : (⟨1, ['a'], 20⟩ : MemoinfoRow) ∈ limitedWorld.db.memoinfo := List.mem_cons_self
  exact recordRight_of_found (by decide) hrow (by decide) (by decide) (by decide +kernel) limit

/-- A services admin with the nick `a` sets the limit of the channel: it becomes that of his nick. -/
theorem not_doSetLimit_right : ¬LimitRight 50 { exampleActor with isServicesAdmin := true } ['#', ' ', '5']
    limitedWorld.db
      (doSetLimit 50 100 { exampleActor with isServicesAdmin := true } ['#', ' ', '5'] limitedWorld) := by
  rw [doSetLimit_right_iff 50 100 _ _ keys_limitedWorld, LimitMeets,
    show limitWords ['#', ' ', '5'] = ⟨some ['#'], some ['5'], none, none⟩ by decide +kernel]
  intro hmeets
  have hadmin := hmeets ⟨1, ['#'], 3, 0, 0#32⟩ rfl rfl ⟨['a'], 0, false, 5, false⟩ (by rfl)
  rcases hadmin.1 with ⟨name, hname, -, hrows⟩
  obtain rfl := Option.some.inj hname
  have hrow := hrows ⟨2, ['#'], 20⟩ (by decide)
  have hid : (getMemoinfoFromOwner 100 ['a'] limitedWorld).memoinfoId = 1 := by decide +kernel
  rw [hid] at hrow
  revert hrow
  decide

end BlitzedServices.MemoServ
