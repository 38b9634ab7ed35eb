import BlitzedServices.ChanServ.Succession
import BlitzedServices.ChanServ.Sync
import BlitzedServices.ChanServ.Passwords

/-!
# REGISTER and DROP of a channel

The user who registers a channel counts as identified for it: `do_register` puts a node in front of his list
`founder_chans`. The id in that node is not the one that `insert_new_channel` returns but `ci.channel_id`, a
field of a structure on the stack that nothing sets. `stackId` is what is found there.

`doRegister_identified_iff` says when the user is identified for the new channel and no other one that he was not
identified for, and so may DROP this channel and no other.
-/

set_option autoImplicit false
set_option relaxedAutoImplicit false

namespace BlitzedServices.ChanServ

open Lib Mysql Channels
open Passwords (CHANMAX CI_KEEPTOPIC)

/-! ### The commands -/

/-- `is_identified`. -/
def isIdentified (u : AccessUser) (channelId : ℕ) : Bool :=
  u.founderChans.contains channelId

/-- What `do_register` reads of the rest of the program: `validate_password` for this user, the channels in use
and their users, the ids that the database gives to the rows it inserts, and the uninitialised `ci.channel_id`. -/
structure RegisterCall where
  validatePassword : CString → CString → Bool
  findchan : CString → Option Channel
  cmode : CmodeEnv
  now : ℤ
  msMaxMemos : ℤ
  insertId : ℕ
  memoinfoId : ℕ
  stackId : ℕ

/-- The replies of `do_register`. -/
inductive RegisterReply
  | CHAN_REGISTER_SYNTAX
  | MORE_OBSCURE_PASSWORD
  | CHAN_REGISTER_NOT_LOCAL
  | CHAN_MUST_REGISTER_NICK
  | CHAN_MUST_IDENTIFY_NICK
  | CHAN_MAY_NOT_BE_REGISTERED
  | CHAN_ALREADY_REGISTERED
  | CHAN_MUST_BE_CHANOP
  | CHAN_EXCEEDED_CHANNEL_LIMIT (channelmax : ℕ)
  | CHAN_REACHED_CHANNEL_LIMIT (channelmax : ℕ)
  | CHAN_REGISTRATION_FAILED
  | CHAN_REGISTERED
  deriving DecidableEq

/-- `insert_new_channel` for a channel of `do_register`. -/
def insertNewChannel (call : RegisterCall) (u : AccessUser) (db : Database) (chan : CString) : Database :=
  let name := strscpy chan CHANMAX
  { db with
    channel := db.channel ++ [⟨call.insertId, name, u.realId, 0, CI_KEEPTOPIC ||| CI_SECURE⟩]
    memoinfo := db.memoinfo ++ [⟨call.memoinfoId, name, call.msMaxMemos⟩] }

/-- What `do_register` leaves: the tables, the user, and the channel with what its `check_modes` sent. -/
structure RegisterResult where
  reply : RegisterReply
  db : Database
  user : AccessUser
  chan : Option (Channel × List Sent)

/-- `do_register` with the words of the line. -/
def doRegister (call : RegisterCall) (u : AccessUser) (db : Database) (chan pass desc : Option CString) :
    RegisterResult :=
  let refuse := fun reply ↦ (⟨reply, db, u, none⟩ : RegisterResult)
  match chan, pass, desc with
  | some chan, some pass, some _ =>
    if !call.validatePassword pass chan then refuse .MORE_OBSCURE_PASSWORD
    else if chan.head? = some '&' then refuse .CHAN_REGISTER_NOT_LOCAL
    else
      match getNickinfoFromId db u.nickId with
      | none => refuse .CHAN_MUST_REGISTER_NICK
      | some ni =>
        if !nickRecognized u then refuse .CHAN_MUST_IDENTIFY_NICK
        else if mysqlFindchan db chan ≠ 0 then
          if getChanFlags db (mysqlFindchan db chan) &&& CI_VERBOTEN ≠ 0#32 then
            refuse .CHAN_MAY_NOT_BE_REGISTERED
          else refuse .CHAN_ALREADY_REGISTERED
        else if !(call.findchan chan).any fun c ↦ isChanop call.cmode c u.nick then refuse .CHAN_MUST_BE_CHANOP
        else if 0 < ni.channelmax ∧ checkChanLimit db ni.nickId ≠ -1 then
          if checkChanLimit db ni.nickId = 1 then refuse (.CHAN_EXCEEDED_CHANNEL_LIMIT ni.channelmax)
          else refuse (.CHAN_REACHED_CHANNEL_LIMIT ni.channelmax)
        else
          match call.findchan chan with
          | none => refuse .CHAN_REGISTRATION_FAILED
          | some c =>
            -- The new node has `ci.channel_id`; only the channel gets the id that was inserted.
            ⟨.CHAN_REGISTERED, insertNewChannel call u db chan,
              { u with founderChans := call.stackId :: u.founderChans },
              some (checkModes call.cmode call.now (some ⟨CMODE_n, 0#32, 0#32, []⟩)
                { c with channelId := call.insertId })⟩
  | _, _, _ => refuse .CHAN_REGISTER_SYNTAX

/-- The replies of `do_drop`. -/
inductive DropReply
  | CHAN_DROP_SYNTAX
  | CHAN_X_NOT_REGISTERED
  | CHAN_X_FORBIDDEN
  | CHAN_IDENTIFY_REQUIRED
  | CHAN_DROPPED
  deriving DecidableEq

/-- `do_drop`. -/
def doDrop (u : AccessUser) (db : Database) (chan : Option CString) : DropReply × Database :=
  match chan with
  | none => (.CHAN_DROP_SYNTAX, db)
  | some chan =>
    let channelId := mysqlFindchan db chan
    if channelId = 0 then (.CHAN_X_NOT_REGISTERED, db)
    else if getChanFlags db channelId &&& CI_VERBOTEN ≠ 0#32 ∧ !u.isServicesAdmin then (.CHAN_X_FORBIDDEN, db)
    else if !u.isServicesAdmin ∧ !isIdentified u channelId then (.CHAN_IDENTIFY_REQUIRED, db)
    else (.CHAN_DROPPED, mysqlDelchan db channelId)

/-- The user may drop the channel. -/
def MayDrop (u : AccessUser) (db : Database) (chan : CString) : Prop :=
  (doDrop u db (some chan)).1 = .CHAN_DROPPED

/-! ### What the founder of a new channel may do -/

/-- The user is identified for the new channel and those he was identified for, and may drop these and no others. -/
structure FounderOf (newId : ℕ) (u : AccessUser) (db : Database) (u' : AccessUser) (db' : Database) : Prop where
  identified : ∀ c ∈ db'.channel, isIdentified u' c.channelId ↔ c.channelId = newId ∨ isIdentified u c.channelId
  drops : ∀ chan, MayDrop u' db' chan ↔ mysqlFindchan db' chan = newId ∨ MayDrop u db chan

/-- The stack has the new id by chance; or the user's list has that id from before, and the stack has one of the
list or of no channel. -/
def StackMeets (call : RegisterCall) (u : AccessUser) (db : Database) : Prop :=
  call.stackId = call.insertId ∨ (isIdentified u call.insertId ∧
    (isIdentified u call.stackId ∨ ∀ c ∈ db.channel, c.channelId ≠ call.stackId))

/-- The id of a new row is not 0 and not that of another row. -/
structure FreshId (call : RegisterCall) (db : Database) : Prop where
  ne_zero : call.insertId ≠ 0
  new : ∀ c ∈ db.channel, c.channelId ≠ call.insertId

section Register

variable {call : RegisterCall} {u : AccessUser} {db : Database} {chan pass desc : Option CString}

/-- What REGISTER leaves: everything as it was, or a new row and a new node for a name that had no channel. -/
theorem doRegister_cases (call : RegisterCall) (u : AccessUser) (db : Database) (chan pass desc : Option CString) :
    (∃ reply, reply ≠ .CHAN_REGISTERED ∧ doRegister call u db chan pass desc = ⟨reply, db, u, none⟩) ∨
      ∃ name opened, mysqlFindchan db name = 0 ∧
        doRegister call u db chan pass desc = ⟨.CHAN_REGISTERED, insertNewChannel call u db name,
          { u with founderChans := call.stackId :: u.founderChans }, some opened⟩ := by
  rw [doRegister.eq_def]
  dsimp only
  split
  · next name _ _ =>
    -- One case for each refusal, in the order of the tests; the last is the registration.
    split
    · exact Or.inl ⟨_, by simp, rfl⟩
    split
    · exact Or.inl ⟨_, by simp, rfl⟩
    split
    · exact Or.inl ⟨_, by simp, rfl⟩
    split
    · exact Or.inl ⟨_, by simp, rfl⟩
    split
    · split <;> exact Or.inl ⟨_, by simp, rfl⟩
    · next hfree =>
      split
      · exact Or.inl ⟨_, by simp, rfl⟩
      split
      · split <;> exact Or.inl ⟨_, by simp, rfl⟩
      split
      · exact Or.inl ⟨_, by simp, rfl⟩
      · exact Or.inr ⟨name, _, not_not.mp hfree, rfl⟩
  · exact Or.inl ⟨_, by simp, rfl⟩

theorem doRegister_registered (h : (doRegister call u db chan pass desc).reply = .CHAN_REGISTERED) :
    ∃ name, mysqlFindchan db name = 0 ∧
      (doRegister call u db chan pass desc).db = insertNewChannel call u db name ∧
      (doRegister call u db chan pass desc).user = { u with founderChans := call.stackId :: u.founderChans } := by
  rcases doRegister_cases call u db chan pass desc with ⟨reply, hne, heq⟩ | ⟨name, _, hfree, heq⟩
  · rw [heq] at h
    exact absurd h hne
  · rw [heq]
    exact ⟨name, hfree, rfl, rfl⟩

/-! ### The new row -/

theorem mysqlFindchan_insertNewChannel (call : RegisterCall) (u : AccessUser) (db : Database) (name chan : CString) :
    mysqlFindchan (insertNewChannel call u db name) chan = mysqlFindchan db chan ∨
      mysqlFindchan db chan = 0 ∧ mysqlFindchan (insertNewChannel call u db name) chan = call.insertId := by
  simp only [mysqlFindchan, insertNewChannel, List.find?_append]
  cases db.channel.find? fun c ↦ sameName c.name chan with
  | some c => exact Or.inl rfl
  | none =>
    rw [Option.none_or, List.find?_singleton]
    split_ifs
    · exact Or.inr ⟨rfl, rfl⟩
    · exact Or.inl rfl

theorem getChanFlags_insertNewChannel_of_ne {name : CString} {id : ℕ} (h : id ≠ call.insertId) :
    getChanFlags (insertNewChannel call u db name) id = getChanFlags db id := by
  simp [getChanFlags, insertNewChannel, List.filter_append, h.symm]

theorem getChanFlags_insertNewChannel_self (call : RegisterCall) (u : AccessUser) (db : Database) (name : CString) :
    getChanFlags (insertNewChannel call u db name) call.insertId = CI_KEEPTOPIC ||| CI_SECURE := by
  simp [getChanFlags, insertNewChannel, List.filter_append]

/-! ### Who may drop a channel -/

theorem mayDrop_iff {chan : CString} : MayDrop u db chan ↔ mysqlFindchan db chan ≠ 0 ∧
    (getChanFlags db (mysqlFindchan db chan) &&& CI_VERBOTEN ≠ 0#32 → u.isServicesAdmin) ∧
    (u.isServicesAdmin ∨ isIdentified u (mysqlFindchan db chan)) := by
  simp only [MayDrop, doDrop]
  cases u.isServicesAdmin <;> split_ifs <;> simp_all

theorem isIdentified_cons {id channelId : ℕ} :
    isIdentified { u with founderChans := id :: u.founderChans } channelId ↔
      channelId = id ∨ isIdentified u channelId := by
  simp [isIdentified]

/-- Where the user is identified for the new channel and no other new one, he may drop it and no other new one. -/
theorem drops_of_identified {name : CString} {u' : AccessUser} (hadmin : u'.isServicesAdmin = u.isServicesAdmin)
    (hid : FreshId call db)
    (hident : ∀ c ∈ (insertNewChannel call u db name).channel,
      isIdentified u' c.channelId ↔ c.channelId = call.insertId ∨ isIdentified u c.channelId) (chan : CString) :
    MayDrop u' (insertNewChannel call u db name) chan ↔
      mysqlFindchan (insertNewChannel call u db name) chan = call.insertId ∨ MayDrop u db chan := by
  rw [mayDrop_iff, mayDrop_iff, hadmin]
  rcases mysqlFindchan_insertNewChannel call u db name chan with hsame | ⟨hfree, hnew⟩
  · rw [hsame]
    by_cases hzero : mysqlFindchan db chan = 0
    · simp [hzero, hid.ne_zero.symm]
    · obtain ⟨c, hc, hrow⟩ := exists_row_of_mysqlFindchan_ne_zero hzero
      have hold : mysqlFindchan db chan ≠ call.insertId := hrow ▸ hid.new c hc
      have hiff := hident c (List.mem_append_left _ hc)
      rw [hrow] at hiff
      rw [getChanFlags_insertNewChannel_of_ne hold, hiff]
      simp [hold]
  · have hiff := hident _ (List.mem_append_right _ (List.mem_singleton_self _))
    have hflags : getChanFlags (insertNewChannel call u db name) call.insertId &&& CI_VERBOTEN = 0#32 := by
      rw [getChanFlags_insertNewChannel_self]
      decide
    rw [hnew, hflags, hiff]
    simp [hid.ne_zero]

/-- After REGISTER the user is identified for the new channel and no other new one, and may drop it and no other
new one, exactly when the stack meets this. -/
theorem doRegister_identified_iff (h : (doRegister call u db chan pass desc).reply = .CHAN_REGISTERED)
    (hid : FreshId call db) :
    FounderOf call.insertId u db (doRegister call u db chan pass desc).user
        (doRegister call u db chan pass desc).db ↔ StackMeets call u db := by
  obtain ⟨name, _, hdb, huser⟩ := doRegister_registered h
  rw [hdb, huser]
  constructor
  · intro hfounder
    have hnew := (hfounder.identified _ (List.mem_append_right _ (List.mem_singleton_self _))).mpr (Or.inl rfl)
    rcases isIdentified_cons.mp hnew with heq | hbefore
    · exact Or.inl heq.symm
    · refine or_iff_not_imp_left.mpr fun hne ↦ ⟨hbefore, ?_⟩
      refine or_iff_not_imp_left.mpr fun hno c hc heq ↦ ?_
      rcases (hfounder.identified c (List.mem_append_left _ hc)).mp (isIdentified_cons.mpr (Or.inl heq)) with
        hfresh | hlisted
      · exact hne (heq.symm.trans hfresh)
      · exact hno (heq ▸ hlisted)
  · intro hmeets
    have hident : ∀ c ∈ (insertNewChannel call u db name).channel,
        isIdentified { u with founderChans := call.stackId :: u.founderChans } c.channelId ↔
          c.channelId = call.insertId ∨ isIdentified u c.channelId := by
      intro c hc
      rw [isIdentified_cons]
      rcases hmeets with heq | ⟨hbefore, hstack⟩
      · rw [heq]
      · constructor
        · rintro (heq | hlisted)
          · rcases List.mem_append.mp hc with hold | hnew
            · rcases hstack with hlisted | hnone
              · exact Or.inr (heq ▸ hlisted)
              · exact absurd heq (hnone c hold)
            · exact Or.inl (congrArg ChannelRow.channelId (List.mem_singleton.mp hnew))
          · exact Or.inr hlisted
        · rintro (heq | hlisted)
          · exact Or.inr (heq ▸ hbefore)
          · exact Or.inr hlisted
    exact ⟨hident, drops_of_identified (u := u) rfl hid hident⟩

/-- A channel operator of `#b`, the database that has channel 7 already, and the request to register `#b`. -/
def registrar : AccessUser :=
  ⟨['u'], 1, 1, NS_IDENTIFIED, [], false⟩

def oneChannel : Database :=
  { heirlooms [] with channel := [⟨7, ['#', 'a'], 2, 0, 0#32⟩] }

def registerCall (stackId : ℕ) : RegisterCall where
  validatePassword := fun _ _ ↦ true
  findchan := fun chan ↦
    some ⟨chan, 0, 0#32, 0#32, none, [], [1], [1], [], 0, 0, 0#16, 0#16, false, rfl⟩
  cmode := ⟨['s'], fun _ ↦ ['u'], fun _ ↦ some 1, fun _ _ ↦ true⟩
  now := 100
  msMaxMemos := 20
  insertId := 8
  memoinfoId := 1
  stackId := stackId

theorem freshId_registerCall (stackId : ℕ) : FreshId (registerCall stackId) oneChannel where
  ne_zero := by simp [registerCall]
  new := by simp [registerCall, oneChannel]

/-- The stack has the new id by chance. -/
theorem doRegister_identified_iff_chance :
    FounderOf 8 registrar oneChannel
        (doRegister (registerCall 8) registrar oneChannel (some ['#', 'b']) (some ['p']) (some ['d'])).user
        (doRegister (registerCall 8) registrar oneChannel (some ['#', 'b']) (some ['p']) (some ['d'])).db ↔
      StackMeets (registerCall 8) registrar oneChannel :=
  doRegister_identified_iff (by decide +kernel) (freshId_registerCall 8)

/-- The stack has the id of another's channel, and the user becomes identified for that one. -/
theorem doRegister_identifies_other :
    ¬ ∀ call u db chan pass desc, (doRegister call u db chan pass desc).reply = .CHAN_REGISTERED →
      FreshId call db → FounderOf call.insertId u db (doRegister call u db chan pass desc).user
        (doRegister call u db chan pass desc).db := by
  intro h
  have hreply : (doRegister (registerCall 7) registrar oneChannel (some ['#', 'b']) (some ['p'])
      (some ['d'])).reply = .CHAN_REGISTERED := by
    decide +kernel
  have hfounder := h (registerCall 7) registrar oneChannel (some ['#', 'b']) (some ['p']) (some ['d']) hreply
    (freshId_registerCall 7)
  obtain ⟨name, _, hdb, huser⟩ := doRegister_registered hreply
  have hiff := hfounder.identified ⟨7, ['#', 'a'], 2, 0, 0#32⟩ (by
    rw [hdb]
    exact List.mem_append_left _ (List.mem_singleton_self _))
  rw [huser] at hiff
  exact absurd (hiff.mp (by decide)) (by decide)

end Register

end BlitzedServices.ChanServ
