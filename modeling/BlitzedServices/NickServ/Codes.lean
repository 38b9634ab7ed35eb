import BlitzedServices.NickServ.DropAuth

/-!
# Mailed codes

A code is a row of table `auth`. Next to a run we keep a ledger: which codes were honoured, for which
registration a DROP was requested, and when codes for SENDPASS were made. `HonestStep` says what a step
should do in view of the ledger: it honours no code twice, a code registers only the nick it was made
for, it drops only the registration it was requested for, and a nick gets one code for SENDPASS a day.

A row is bound to a name and outlives the registration of that name, the row of a REGISTER is never
deleted when it is used, and that of a SENDPASS is, so that nothing is left to count. `honest_run` gives
the conditions under which all steps of a run are honest.
-/

set_option autoImplicit false
set_option relaxedAutoImplicit false

namespace BlitzedServices.NickServ

open Lib Lib.SqlText Mysql ChanServ

/-! ### Codes that are given and honoured -/

/-- The row of a code that a command gives. -/
def givenCode (conf : Config) (u : User) (w : World) : Command → Option AuthRow
  | .register words _ =>
    if ¬ isGuestNick conf u.nick ∧ words.pass.any fun pass ↦ sameName pass "AUTH".toList then
      words.email.bind fun authcode ↦ w.auth.find? fun r ↦ r.command = .NICK_REG ∧
        sameName r.code authcode ∧ sameName r.name u.nick
    else none
  | .drop (some nick) authcode _ =>
    if sameName nick "AUTH".toList then
      authcode.bind fun authcode ↦ w.auth.find? fun r ↦ r.command = .NICK_DROP ∧
        sameName r.code authcode ∧ sameName r.name u.nick
    else none
  | .sendpass (some nick) authcode _ =>
    if sameName nick "AUTH".toList then
      (authcode.bind fun authcode ↦ w.auth.find? fun r ↦ r.command = .NICK_SENDPASS ∧
        sameName r.code authcode).filter fun r ↦ (mysqlFindnickinfo w.db r.name).isSome
    else none
  | _ => none

/-- The row of the code that a message gives to a live process. -/
def given (conf : Config) (w : World) (msg : Env × Message) : Option AuthRow :=
  match msg.2 with
  | .command source cmd =>
    if w.alive then (finduser w source).bind fun u ↦ givenCode conf u w cmd else none
  | _ => none

/-- The code is honoured. One for a REGISTER that does not create a nick is not. -/
def honoured (conf : Config) (w : World) (msg : Env × Message) : Option AuthRow :=
  (given conf w msg).filter fun r ↦
    r.command ≠ .NICK_REG ∨ (step conf w msg).db.nick.length ≠ w.db.nick.length

/-- The codes that a step makes. -/
def issued (conf : Config) (w : World) (msg : Env × Message) : List AuthRow :=
  (step conf w msg).auth.filter fun r ↦ w.nextAuthId ≤ r.authId

/-! ### The ledger -/

/-- The sender of a command. -/
def sender (msg : Env × Message) : CString :=
  match msg.2 with
  | .command source _ => source
  | _ => []

/-- The rows that a SENDPASS with the code deletes. -/
def redeemedRows (w : World) (r : AuthRow) : List AuthRow :=
  w.auth.filter fun a ↦ a.command = .NICK_SENDPASS ∧ r.command = .NICK_SENDPASS ∧
    foldName a.code = foldName r.code

/-- What happened so far: the codes that were honoured, the registration of the sender when a code was
made, the names and times of codes for SENDPASS and of those of them that were deleted when they were
honoured, and the time of the last message. -/
structure Ledger where
  used : List ℕ
  dropFor : ℕ → ℕ
  sent : List (CString × ℕ)
  redeemed : List (CString × ℕ)
  clock : ℕ

/-- The ledger after a step. -/
def Ledger.record (conf : Config) (w : World) (msg : Env × Message) (l : Ledger) : Ledger where
  used := ((honoured conf w msg).map AuthRow.authId).toList ++ l.used
  dropFor := Function.update l.dropFor w.nextAuthId (mysqlFindnick w.db (sender msg))
  sent := ((issued conf w msg).filter fun r ↦ r.command = .NICK_SENDPASS).map
    (fun r ↦ (r.name, r.createTime)) ++ l.sent
  redeemed := ((honoured conf w msg).toList.flatMap (redeemedRows w)).map
    (fun r ↦ (r.name, r.createTime)) ++ l.redeemed
  clock := msg.1.now

def Ledger.empty : Ledger where
  used := []
  dropFor := fun _ ↦ 0
  sent := []
  redeemed := []
  clock := 0

/-- A step of the services with the ledger. -/
def audited (conf : Config) (s : World × Ledger) (msg : Env × Message) : World × Ledger :=
  (step conf s.1 msg, s.2.record conf s.1 msg)

/-! ### What should hold -/

/-- One nick is new, and it has the name. -/
def Creates (name : CString) (w w' : World) : Prop :=
  mysqlFindnick w.db name = 0 ∧
    w'.db.nick.map NickRow.nickId = w.db.nick.map NickRow.nickId ++ [w.nextNickId] ∧
    ∃ row ∈ w'.db.nick, row.nickId = w.nextNickId ∧ sameName row.nick name = true

/-- What codes do in a step. -/
structure HonestStep (conf : Config) (s : World × Ledger) (msg : Env × Message) : Prop where
  once : ∀ r, honoured conf s.1 msg = some r → r.authId ∉ s.2.used
  register : ∀ r, given conf s.1 msg = some r → r.command = .NICK_REG →
    (step conf s.1 msg).db.nick.length = s.1.db.nick.length ∨
      Creates r.name s.1 (step conf s.1 msg)
  drop : ∀ r, given conf s.1 msg = some r → r.command = .NICK_DROP →
    (∃ row ∈ s.1.db.nick, row.nickId = s.2.dropFor r.authId ∧ sameName row.nick r.name = true) ∧
      (step conf s.1 msg).db = mysqlDelnick s.1.db (s.2.dropFor r.authId)
  sendpass : ∀ r ∈ issued conf s.1 msg, r.command = .NICK_SENDPASS →
    (finduser s.1 (sender msg)).any User.oper = false →
      ∀ entry ∈ s.2.sent, sameName entry.1 r.name = true →
        entry.2 + SECS_24_HRS < msg.1.now

/-! ### The condition -/

/-- The nick is not one that was registered with a code that is still there. -/
def SparesUsed (s : World × Ledger) (id : ℕ) : Prop :=
  ∀ r ∈ s.1.auth, r.command = .NICK_REG → r.authId ∈ s.2.used → mysqlFindnick s.1.db r.name ≠ id

/-- The nick is not one for which there is a code to drop it. -/
def SparesRequested (s : World × Ledger) (id : ℕ) : Prop :=
  ∀ r ∈ s.1.auth, r.command = .NICK_DROP → mysqlFindnick s.1.db r.name ≠ id

/-- What a command must meet. The record of a user who drops his nick is right; a nick that was
registered with a code is not deleted as long as the code is there, nor one for which there is a code to
drop it in any other way; and nobody but an oper asks for a SENDPASS in the day after a code for the nick
that was honoured. -/
def CodeMeets (conf : Config) (env : Env) (u : User) (s : World × Ledger) : Command → Prop
  | .drop none _ _ => u.realId ≠ 0 → u.realId = mysqlFindnick s.1.db u.nick
  | .drop (some nick) authcode _ =>
    if sameName nick "AUTH".toList then
      ∀ code, authcode = some code → dropCoded u code s.1 = true →
        u.realId = mysqlFindnick s.1.db u.nick ∧ SparesUsed s u.realId
    else DropAccepted conf env u nick s.1 →
      SparesUsed s (mysqlFindnick s.1.db nick) ∧ SparesRequested s (mysqlFindnick s.1.db nick)
  | .forbid (some nick) => ForbidAccepted conf env u nick s.1 → mysqlFindnick s.1.db nick ≠ 0 →
      SparesRequested s (mysqlFindnick s.1.db nick)
  | .sendpass nick _ _ => (nick.any fun nick ↦ sameName nick "AUTH".toList) = false →
      (finduser s.1 u.nick).any User.oper = false → ∀ entry ∈ s.2.redeemed,
        sameName entry.1 (nick.getD u.nick) = true → entry.2 + SECS_24_HRS < env.now
  | _ => True

/-- What a message must meet. Time does not run backwards. -/
def CodesMeet (conf : Config) (s : World × Ledger) (msg : Env × Message) : Prop :=
  s.2.clock ≤ msg.1.now ∧
    match msg with
    | (env, .command source cmd) =>
      ∀ u, finduser s.1 source = some u → CodeMeets conf env u s cmd
    | (_, .expireNicks grace old) =>
      ∀ id, Expires conf grace old s.1 id → SparesUsed s id ∧ SparesRequested s id
    | _ => True

/-! ### The invariant -/

/-- The names of the directory, the codes and the ledger fit together. A code that was honoured is still
there only if it registered a nick that is still registered; a code to drop a nick was requested for the
nick of that name, and is the only one for it; and a code for SENDPASS is there for a day if it is not
honoured. `ok` is what else is known of all codes. -/
structure Books (ok : AuthRow → Prop) (r : Registry) (l : Ledger) : Prop where
  numbered : Numbered r
  short : ∀ v ∈ r.users, v.name.length < NICKMAX
  ids : (r.auth.map AuthRow.authId).Nodup
  lt : ∀ a ∈ r.auth, a.authId < r.nextAuthId
  all : ∀ a ∈ r.auth, ok a
  usedLt : ∀ id ∈ l.used, id < r.nextAuthId
  names : ∀ a ∈ r.auth, a.command = .NICK_REG → a.name.length < NICKMAX
  used : ∀ a ∈ r.auth, a.authId ∈ l.used →
    a.command = .NICK_REG ∧ Entry.findId r.nicks (foldName a.name) ≠ 0
  requested : ∀ a ∈ r.auth, a.command = .NICK_DROP →
    Entry.findId r.nicks (foldName a.name) = l.dropFor a.authId ∧ l.dropFor a.authId ≠ 0
  single : ∀ a ∈ r.auth, ∀ b ∈ r.auth, a.command = .NICK_DROP → b.command = .NICK_DROP →
    foldName a.name = foldName b.name → a = b
  sent : ∀ entry ∈ l.sent, entry.2 + SECS_24_HRS < l.clock ∨ entry ∈ l.redeemed ∨
    ∃ a ∈ r.auth, a.command = .NICK_SENDPASS ∧ (a.name, a.createTime) = entry

namespace Books

variable {ok : AuthRow → Prop} {r r' : Registry} {l : Ledger}

/-- The nicks change, and the names for which there are codes are registered as before. -/
theorem withNicks (h : Books ok r l) (hnum : Numbered r') (husers : r'.users = r.users)
    (hauth : r'.auth = r.auth) (hnext : r'.nextAuthId = r.nextAuthId)
    (hused : ∀ a ∈ r.auth, a.command = .NICK_REG → a.authId ∈ l.used →
      Entry.findId r'.nicks (foldName a.name) ≠ 0)
    (hrequested : ∀ a ∈ r.auth, a.command = .NICK_DROP →
      Entry.findId r'.nicks (foldName a.name) = Entry.findId r.nicks (foldName a.name)) :
    Books ok r' l where
  numbered := hnum
  short := husers ▸ h.short
  ids := hauth ▸ h.ids
  lt := by
    rw [hauth, hnext]
    exact h.lt
  all := hauth ▸ h.all
  usedLt := hnext ▸ h.usedLt
  names := hauth ▸ h.names
  used a ha hid := by
    rw [hauth] at ha
    obtain ⟨hcommand, -⟩ := h.used a ha hid
    exact ⟨hcommand, hused a ha hcommand hid⟩
  requested a ha hcommand := by
    rw [hauth] at ha
    rw [hrequested a ha hcommand]
    exact h.requested a ha hcommand
  single := hauth ▸ h.single
  sent := hauth ▸ h.sent

theorem insert (h : Books ok r l) {name : CString} (hfree : r.Free name) : Books ok (r.insert name) l := by
  have hkept {x : CString} (hx : Entry.findId r.nicks x ≠ 0) :
      Entry.findId (r.insert name).nicks x = Entry.findId r.nicks x := by
    obtain ⟨e, he, hname, -⟩ := Entry.exists_of_findId_ne_zero hx
    rw [Registry.insert, Entry.findId_insert r.nicks hfree, if_neg]
    rintro rfl
    exact hfree e he hname
  refine h.withNicks (kept_numbered.insert r name hfree h.numbered) rfl rfl rfl
    (fun a ha _ hid ↦ ?_) fun a ha hcommand ↦ ?_
  · have hfound := (h.used a ha hid).2
    rwa [hkept hfound]
  · obtain ⟨hfound, hne⟩ := h.requested a ha hcommand
    exact hkept (hfound ▸ hne)

theorem relink (h : Books ok r l) (id link : ℕ) : Books ok (r.relink id link) l := by
  refine h.withNicks ⟨h.numbered.sound.relink id link, h.numbered.pos⟩ rfl rfl rfl
    (fun a ha _ hid ↦ ?_) fun a ha _ ↦ ?_
  · rw [Registry.relink, Entry.findId_relink]
    exact (h.used a ha hid).2
  · rw [Registry.relink, Entry.findId_relink]

theorem remove (h : Books ok r l) {id : ℕ}
    (hused : ∀ a ∈ r.auth, a.command = .NICK_REG → a.authId ∈ l.used →
      Entry.findId r.nicks (foldName a.name) ≠ id)
    (hrequested : ∀ a ∈ r.auth, a.command = .NICK_DROP →
      Entry.findId r.nicks (foldName a.name) ≠ id) : Books ok (r.remove id) l := by
  refine h.withNicks (kept_numbered.remove r id h.numbered) rfl rfl rfl
    (fun a ha hcommand hid ↦ ?_) fun a ha hcommand ↦ ?_
  · rw [Registry.remove, h.numbered.sound.findId_remove, if_neg (hused a ha hcommand hid)]
    exact (h.used a ha hid).2
  · rw [Registry.remove, h.numbered.sound.findId_remove, if_neg (hrequested a ha hcommand)]

/-- Users come and go, with names that fit their field. -/
theorem withUsers (h : Books ok r l) (hnicks : r'.nicks = r.nicks)
    (hnextNick : r'.nextNickId = r.nextNickId) (hauth : r'.auth = r.auth)
    (hnext : r'.nextAuthId = r.nextAuthId) (hshort : ∀ v ∈ r'.users, v.name.length < NICKMAX) :
    Books ok r' l where
  numbered := kept_numbered.users r r' hnicks hnextNick h.numbered
  short := hshort
  ids := hauth ▸ h.ids
  lt := by
    rw [hauth, hnext]
    exact h.lt
  all := hauth ▸ h.all
  usedLt := hnext ▸ h.usedLt
  names := hauth ▸ h.names
  used := by
    rw [hauth, hnicks]
    exact h.used
  requested := by
    rw [hauth, hnicks]
    exact h.requested
  single := hauth ▸ h.single
  sent := hauth ▸ h.sent

/-- Some codes are deleted. Those for SENDPASS are older than a day or were honoured. -/
theorem withdraw (h : Books ok r l) {p : AuthRow → Bool}
    (hold : ∀ a ∈ r.auth, p a = true → a.command = .NICK_SENDPASS →
      a.createTime + SECS_24_HRS < l.clock ∨ (a.name, a.createTime) ∈ l.redeemed) : Books ok (r.withdraw p) l := by
  have hmem {a : AuthRow} (ha : a ∈ (r.withdraw p).auth) : a ∈ r.auth := List.mem_of_mem_filter ha
  constructor
  · exact ⟨h.numbered.sound, h.numbered.pos⟩
  · exact h.short
  · exact h.ids.sublist (List.filter_sublist.map _)
  · exact fun a ha ↦ h.lt a (hmem ha)
  · exact fun a ha ↦ h.all a (hmem ha)
  · exact h.usedLt
  · exact fun a ha ↦ h.names a (hmem ha)
  · exact fun a ha ↦ h.used a (hmem ha)
  · exact fun a ha ↦ h.requested a (hmem ha)
  · exact fun a ha b hb ↦ h.single a (hmem ha) b (hmem hb)
  · intro entry hentry
    rcases h.sent entry hentry with hlate | hredeemed | ⟨a, ha, hcommand, rfl⟩
    · exact .inl hlate
    · exact .inr (.inl hredeemed)
    · by_cases hp : p a = true
      · exact (hold a ha hp hcommand).imp_right .inl
      · exact .inr (.inr ⟨a, List.mem_filter.mpr ⟨ha, by simpa using hp⟩, hcommand, rfl⟩)

/-- A new code for a REGISTER has a name that fits, and one for a DROP is for the nick of that name. -/
theorem post (h : Books ok r l) {command : AuthCommand} {code name params : CString} {now : ℕ}
    (hnew : ok ⟨r.nextAuthId, code, name, command, params, now⟩)
    (hreg : command = .NICK_REG → name.length < NICKMAX)
    (hdrop : command = .NICK_DROP → Entry.findId r.nicks (foldName name) = l.dropFor r.nextAuthId ∧
      l.dropFor r.nextAuthId ≠ 0 ∧
      ∀ a ∈ r.auth, a.command = .NICK_DROP → foldName a.name ≠ foldName name) :
    Books ok (r.post command code name params now) l := by
  have hmem {a : AuthRow} (ha : a ∈ (r.post command code name params now).auth) :
      a ∈ r.auth ∨ a = ⟨r.nextAuthId, code, name, command, params, now⟩ := by
    rcases List.mem_append.mp ha with hold | hnew
    · exact .inl hold
    · exact .inr (List.mem_singleton.mp hnew)
  constructor
  · exact ⟨h.numbered.sound, h.numbered.pos⟩
  · exact h.short
  · rw [Registry.post, List.map_append, List.nodup_append]
    refine ⟨h.ids, List.nodup_singleton _, ?_⟩
    rintro id hid _ hnew rfl
    obtain ⟨a, ha, rfl⟩ := List.mem_map.mp hid
    exact absurd (List.mem_singleton.mp hnew) (Nat.ne_of_lt (h.lt a ha))
  · intro a ha
    rcases hmem ha with hold | rfl
    · exact Nat.lt_succ_of_lt (h.lt a hold)
    · exact Nat.lt_succ_self _
  · intro a ha
    rcases hmem ha with hold | rfl
    · exact h.all a hold
    · exact hnew
  · exact fun id hid ↦ Nat.lt_succ_of_lt (h.usedLt id hid)
  · intro a ha hcommand
    rcases hmem ha with hold | rfl
    · exact h.names a hold hcommand
    · exact hreg hcommand
  · intro a ha hid
    rcases hmem ha with hold | rfl
    · exact h.used a hold hid
    · exact absurd (h.usedLt _ hid) (Nat.lt_irrefl _)
  · intro a ha hcommand
    rcases hmem ha with hold | rfl
    · exact h.requested a hold hcommand
    · exact ⟨(hdrop hcommand).1, (hdrop hcommand).2.1⟩
  · intro a ha b hb hacommand hbcommand hname
    rcases hmem ha with haold | rfl
    · rcases hmem hb with hbold | rfl
      · exact h.single a haold b hbold hacommand hbcommand hname
      · exact absurd hname ((hdrop hbcommand).2.2 a haold hacommand)
    · rcases hmem hb with hbold | rfl
      · exact absurd hname.symm ((hdrop hacommand).2.2 b hbold hbcommand)
      · rfl
  · intro entry hentry
    refine (h.sent entry hentry).imp_right (Or.imp_right ?_)
    exact fun ⟨a, ha, hfound⟩ ↦ ⟨a, List.mem_append_left _ ha, hfound⟩

/-- One nick is deleted, and a new one gets its name. -/
theorem replace (h : Books ok r l) {id : ℕ} {name : CString} (hid : id = Entry.findId r.nicks name)
    (hrequested : ∀ a ∈ r.auth, a.command = .NICK_DROP →
      Entry.findId r.nicks (foldName a.name) ≠ id) :
    Books ok ((r.remove id).insert name) l := by
  have hfree : (r.remove id).Free name := by
    refine (Entry.findId_eq_zero (kept_numbered.remove r id h.numbered).sound.pos).mp ?_
    rw [Registry.remove, h.numbered.sound.findId_remove, if_pos hid.symm]
  have hfind (x : CString) : Entry.findId ((r.remove id).insert name).nicks x =
      if x = name then r.nextNickId else if Entry.findId r.nicks x = id then 0
        else Entry.findId r.nicks x := by
    rw [Registry.insert, Entry.findId_insert _ hfree, Registry.remove,
      h.numbered.sound.findId_remove]
  refine h.withNicks (kept_numbered.insert _ name hfree (kept_numbered.remove r id h.numbered)) rfl
    rfl rfl (fun a ha _ hmem ↦ ?_) fun a ha hcommand ↦ ?_
  · have hfound := (h.used a ha hmem).2
    rw [hfind]
    split_ifs with hname hsame
    · exact h.numbered.pos.ne'
    · exact absurd (h.numbered.sound.findId_inj hfound (hsame.trans hid)) hname
    · exact hfound
  · have hne := hrequested a ha hcommand
    rw [hfind, if_neg, if_neg hne]
    rintro hname
    exact hne (hname ▸ hid.symm)

/-- Time goes on, the next code gets a registration, and some codes are about to be honoured. -/
theorem tick (h : Books ok r l) {now : ℕ} (hnow : l.clock ≤ now) (id : ℕ)
    (redeemed : List (CString × ℕ)) :
    Books ok r { l with
      dropFor := Function.update l.dropFor r.nextAuthId id
      redeemed := redeemed ++ l.redeemed
      clock := now } where
  numbered := h.numbered
  short := h.short
  ids := h.ids
  lt := h.lt
  all := h.all
  usedLt := h.usedLt
  names := h.names
  used := h.used
  requested a ha hcommand := by
    dsimp only
    rw [Function.update_of_ne (Nat.ne_of_lt (h.lt a ha))]
    exact h.requested a ha hcommand
  single := h.single
  sent entry hentry := by
    rcases h.sent entry hentry with hlate | hredeemed | hthere
    · exact .inl (hlate.trans_le hnow)
    · exact .inr (.inl (List.mem_append_right _ hredeemed))
    · exact .inr (.inr hthere)

/-- What happened is written down. -/
theorem note (h : Books ok r l) (ids : List ℕ) (rows : List AuthRow)
    (hids : ∀ id ∈ ids, id < r.nextAuthId)
    (hused : ∀ a ∈ r.auth, a.authId ∈ ids →
      a.command = .NICK_REG ∧ Entry.findId r.nicks (foldName a.name) ≠ 0)
    (hrows : ∀ a ∈ rows, a ∈ r.auth ∧ a.command = .NICK_SENDPASS) :
    Books ok r { l with
      used := ids ++ l.used
      sent := rows.map (fun a ↦ (a.name, a.createTime)) ++ l.sent } where
  numbered := h.numbered
  short := h.short
  ids := h.ids
  lt := h.lt
  all := h.all
  usedLt id hid := (List.mem_append.mp hid).elim (hids id) (h.usedLt id)
  names := h.names
  used a ha hid := (List.mem_append.mp hid).elim (hused a ha) (h.used a ha)
  requested := h.requested
  single := h.single
  sent entry hentry := by
    rcases List.mem_append.mp hentry with hnew | hold
    · obtain ⟨a, ha, rfl⟩ := List.mem_map.mp hnew
      exact .inr (.inr ⟨a, (hrows a ha).1, (hrows a ha).2, rfl⟩)
    · exact h.sent entry hold

end Books

/-! ### What the commands do to the books -/

section Commands

/-- A code for SENDPASS is made for the nick that was asked for, by an oper or if there is none for it
yet. -/
def MayAsk (w : World) (u : User) (cmd : Command) (a : AuthRow) : Prop :=
  a.command = .NICK_SENDPASS → ∃ nick authcode code, cmd = .sendpass nick authcode code ∧
    (nick.any fun nick ↦ sameName nick "AUTH".toList) = false ∧
    sameName a.name (nick.getD u.nick) = true ∧
    ((finduser w u.nick).any User.oper = true ∨ authPending w .NICK_SENDPASS a.name = false)

variable {ok : AuthRow → Prop} {w w' : World} {l : Ledger}

theorem Books.quiet (h : Books ok w.registry l) (hq : Quiet w w') : Books ok w'.registry l := by
  rw [hq.registry]
  exact h

theorem Books.calm (h : Books ok w.registry l) (hc : Calm w w') : Books ok w'.registry l :=
  h.withUsers hc.nicks hc.nextNickId hc.auth hc.nextAuthId
    fun v hv ↦ h.short v (hc.users.subset hv)

theorem Books.does {R : Registry → Registry → Prop} (h : Books ok w.registry l) (hd : Does R w w')
    (hR : ∀ r', R w.registry r' → Books ok r' l) : Books ok w'.registry l :=
  hd.preserves (p := fun r ↦ Books ok r l) h hR

/-- The name of a user stays, or the new one fits. -/
theorem Books.modifyUser {r : Registry} (h : Books ok r l) {g : UserIds → UserIds}
    (hg : ∀ v, v.name.length < NICKMAX → (g v).name.length < NICKMAX) (uid : ℕ) :
    Books ok (r.modifyUser g uid) l := by
  refine h.withUsers rfl rfl rfl rfl (List.forall_mem_map.mpr fun v hv ↦ ?_)
  split_ifs
  · exact hg v (h.short v hv)
  · exact h.short v hv

theorem Books.does_setIds (h : Books ok w.registry l) {realId nickId uid : ℕ}
    (hd : Does (fun r r' ↦ r' = r.modifyUser (UserIds.withIds realId nickId) uid) w w') :
    Books ok w'.registry l :=
  h.does hd fun _ hr' ↦ hr' ▸ h.modifyUser (g := UserIds.withIds realId nickId) (fun _ ↦ id) uid

theorem Books.findnick (h : Books ok w.registry l) (nick : CString) :
    mysqlFindnick w.db nick = Entry.findId w.registry.nicks (foldName nick) :=
  mysqlFindnick_eq h.numbered.sound nick

theorem Books.nick_short (h : Books ok w.registry l) {u : User} (hu : u ∈ w.users) :
    u.nick.length < NICKMAX := by
  have hshort := h.short u.ids (List.mem_map_of_mem hu)
  rwa [User.ids, foldName, List.length_map] at hshort

theorem authPending_eq_false {command : AuthCommand} {name : CString}
    (h : authPending w command name = false) :
    ∀ a ∈ w.auth, a.command = command → foldName a.name ≠ foldName name := by
  intro a ha hcommand hname
  have hnot := List.any_eq_false.mp h a ha
  exact hnot (decide_eq_true ⟨hcommand, sameName_iff.mpr hname⟩)

/-- What `registerNick` does to the nicks. -/
theorem registerNick_nicks (conf : Config) (env : Env) {u : User} (hshort : u.nick.length < NICKMAX)
    (email : CString) (w : World) :
    (w.registry.Free (foldName u.nick) ∧
      (registerNick conf env u email w).registry.nicks = (w.registry.insert (foldName u.nick)).nicks) ∨
    (registerNick conf env u email w).registry.nicks = w.registry.nicks := by
  obtain ⟨w₁, hinsert, hids⟩ := registerNick_does conf env u email w
  rw [strscpy_nick hshort] at hinsert
  have hlast : (registerNick conf env u email w).registry.nicks = w₁.registry.nicks := by
    rcases hids.registry with ⟨-, hset⟩ | ⟨hsame, -⟩
    · rw [hset]
      rfl
    · rw [hsame]
  rw [hlast]
  rcases hinsert.registry with ⟨-, hfree, hnew⟩ | ⟨hsame, -⟩
  · exact .inl ⟨hfree, by rw [hnew]⟩
  · exact .inr (by rw [hsame])

theorem Books.registerNick (h : Books ok w.registry l) (conf : Config) (env : Env) (u : User)
    (email : CString) : Books ok (registerNick conf env u email w).registry l := by
  obtain ⟨w₁, hinsert, hids⟩ := registerNick_does conf env u email w
  refine Books.does_setIds ?_ hids
  refine h.does hinsert ?_
  rintro _ ⟨hfree, rfl⟩
  exact h.insert hfree

theorem Books.register (h : Books ok w.registry l) (conf : Config) (env : Env) {u : User}
    (hu : u ∈ w.users) (hmay : ∀ a, a.command ≠ .NICK_SENDPASS → ok a)
    (words : RegisterWords) (code : CString) :
    Books ok (doRegister conf env u words code w).registry l := by
  rcases doRegister_cases conf env u words code w with hquiet | ⟨-, params, hpost⟩ | ⟨email, heq⟩
  · exact h.quiet hquiet
  · refine h.does hpost fun _ hr' ↦ hr' ▸ h.post (hmay _ fun hcommand ↦ ?_)
      (fun _ ↦ h.nick_short hu) fun hcommand ↦ ?_
    · cases hcommand
    · cases hcommand
  · rw [heq]
    exact h.registerNick conf env u email

/-- The nicks that are deleted have no codes that matter. -/
theorem Books.delnick (h : Books ok w.registry l) {nickId : ℕ}
    (hused : ∀ a ∈ w.auth, a.command = .NICK_REG → a.authId ∈ l.used →
      mysqlFindnick w.db a.name ≠ nickId)
    (hrequested : ∀ a ∈ w.auth, a.command = .NICK_DROP → mysqlFindnick w.db a.name ≠ nickId)
    (hd : Does (fun r r' ↦ r' = r.remove nickId) w w') : Books ok w'.registry l := by
  refine h.does hd fun _ hr' ↦ hr' ▸ h.remove (fun a ha hcommand hid ↦ ?_) fun a ha hcommand ↦ ?_
  · rw [← h.findnick]
    exact hused a ha hcommand hid
  · rw [← h.findnick]
    exact hrequested a ha hcommand

/-- After a code was made for a DROP, the nick is there. -/
theorem Books.exists_row (h : Books ok w.registry l) {a : AuthRow} (ha : a ∈ w.auth)
    (hcommand : a.command = .NICK_DROP) :
    ∃ row ∈ w.db.nick, row.nickId = mysqlFindnick w.db a.name ∧ sameName row.nick a.name = true := by
  obtain ⟨hfound, hne⟩ := h.requested a ha hcommand
  obtain ⟨e, he, hname, hid⟩ := Entry.exists_of_findId_ne_zero (hfound ▸ hne)
  obtain ⟨row, hrow, rfl⟩ := List.mem_map.mp he
  exact ⟨row, hrow, by rw [h.findnick]; exact hid, sameName_iff.mpr hname⟩

theorem Does.dead {R : Registry → Registry → Prop} (h : Does R w w') (hdead : w.alive = false) :
    w'.registry = w.registry ∧ w'.alive = false := by
  rcases h.registry with ⟨halive, -⟩ | hsame
  · rw [hdead] at halive
    cases halive
  · exact hsame

/-- What a DROP with a valid code does in a live process, for a nick with a row. -/
theorem registry_doDropAuth (env : Env) {u : User} {authcode : CString} (halive : w.alive = true)
    (hcode : dropCoded u authcode w = true) (hrow : ∃ row ∈ w.db.nick, row.nickId = u.realId) :
    (doDropAuth env u (some authcode) w).registry =
      ((w.registry.withdraw fun a ↦ a.command = .NICK_DROP ∧ sameName a.code authcode ∧
        sameName a.name u.nick).modifyUser (UserIds.withIds 0 0) u.uid).remove u.realId := by
  have hids := setIds_does 0 0 u.uid w
  generalize hw₁ : modifyUser (fun v ↦ { v with realId := 0, nickId := 0 }) u.uid w = w₁ at hids
  have halive₁ : w₁.alive = true := by
    rw [← hw₁, alive_modifyUser]
    exact halive
  have hremove := delnick_does u.realId w₁
  have halive₂ : (NickServ.delnick u.realId w₁).alive = true := by
    obtain ⟨row, hrow, hid⟩ := hrow
    rw [NickServ.delnick, World.act, if_pos halive₁, ← hw₁, db_modifyUser]
    refine Option.isSome_map.trans (List.find?_isSome.mpr ⟨row, hrow, ?_⟩)
    exact decide_eq_true hid
  have hcodes := withdraw_does (p := fun a : AuthRow ↦ a.command = .NICK_DROP ∧
    sameName a.code authcode ∧ sameName a.name u.nick) (NickServ.delnick u.realId w₁)
  unfold doDropAuth
  dsimp only
  rw [dropCoded] at hcode
  rw [if_pos hcode, hw₁]
  rw [hcodes.of_alive, hremove.of_alive halive₂, hids.of_alive halive₁]
  · rfl
  · rw [World.act, if_pos halive₂]
    exact halive₂

theorem Books.dropAuth (h : Books ok w.registry l) (env : Env) {u : User} (authcode : Option CString)
    (hok : ∀ code, authcode = some code → dropCoded u code w = true →
      u.realId = mysqlFindnick w.db u.nick ∧ SparesUsed (w, l) u.realId) :
    Books ok (doDropAuth env u authcode w).registry l := by
  by_cases hcode : ∃ code, authcode = some code ∧ dropCoded u code w = true
  · obtain ⟨code, rfl, hcoded⟩ := hcode
    obtain ⟨hreal, hspares⟩ := hok code rfl hcoded
    by_cases halive : w.alive = true
    · obtain ⟨a, ha, hmatch⟩ := List.any_eq_true.mp hcoded
      have hmatch := of_decide_eq_true hmatch
      have hname : mysqlFindnick w.db a.name = u.realId := by
        rw [hreal, h.findnick, h.findnick, sameName_iff.mp hmatch.2.2]
      have hne : mysqlFindnick w.db a.name ≠ 0 := by
        obtain ⟨hfound, hne⟩ := h.requested a ha hmatch.1
        rw [h.findnick, hfound]
        exact hne
      obtain ⟨row, hrow, hid, -⟩ := h.exists_row ha hmatch.1
      rw [registry_doDropAuth env halive hcoded ⟨row, hrow, hid.trans hname⟩]
      refine Books.remove (Books.modifyUser (g := UserIds.withIds 0 0)
        (h.withdraw fun b _ hb hcommand ↦ ?_) (fun _ ↦ id) _)
        (fun b hb hcommand hused ↦ ?_) fun b hb hcommand hsame ↦ ?_
      · rw [(of_decide_eq_true hb).1] at hcommand
        cases hcommand
      · exact fun hsame ↦
          hspares b (List.mem_of_mem_filter hb) hcommand hused ((h.findnick b.name).trans hsame)
      · -- a code for the same nick is the one that was given, and that is gone
        obtain ⟨hb, hgone⟩ := List.mem_filter.mp hb
        have heq := h.numbered.sound.findId_inj (h.findnick _ ▸ hne)
          ((h.findnick a.name).symm.trans (hname.trans hsame.symm))
        rw [h.single a ha b hb hmatch.1 hcommand heq] at hmatch
        simp [hmatch] at hgone
    · obtain ⟨w₁, w₂, hids, hremove, hcodes⟩ := doDropAuth_does env u hcoded
      obtain ⟨hsame₁, hdead₁⟩ := hids.dead (Bool.not_eq_true _ ▸ halive)
      obtain ⟨hsame₂, hdead₂⟩ := hremove.dead hdead₁
      rw [(hcodes.dead hdead₂).1, hsame₂, hsame₁]
      exact h
  · refine h.quiet (doDropAuth_quiet env u fun code hcoded ↦ ?_)
    exact Bool.eq_false_iff.mpr fun hcode' ↦ hcode ⟨code, hcoded, hcode'⟩

theorem Books.drop (h : Books ok w.registry l) (conf : Config) (env : Env) {u : User}
    (hnext : l.dropFor w.nextAuthId = mysqlFindnick w.db u.nick)
    (hmay : ∀ a, a.command ≠ .NICK_SENDPASS → ok a) (nick authcode : Option CString) (code : CString)
    (hok : CodeMeets conf env u (w, l) (.drop nick authcode code)) :
    Books ok (doDrop conf env u nick authcode code w).registry l := by
  rcases doDrop_cases conf env u nick authcode code w with
    hquiet | ⟨rfl, hreal, hnew, hpost⟩ | ⟨nick', rfl, hauth, heq⟩ |
    ⟨nick', rfl, hauth, haccepted, w₁, hquiet, heq⟩
  · exact h.quiet hquiet
  · refine h.does hpost fun _ hr' ↦ hr' ▸ h.post (hmay _ fun hcommand ↦ ?_)
      (fun hcommand ↦ ?_) fun _ ↦ ⟨?_, ?_, ?_⟩
    · cases hcommand
    · cases hcommand
    · exact (h.findnick u.nick).symm.trans hnext.symm
    · rw [show l.dropFor w.registry.nextAuthId = mysqlFindnick w.db u.nick from hnext, ← hok hreal]
      exact hreal
    · exact authPending_eq_false hnew
  · rw [CodeMeets, if_pos hauth] at hok
    rw [heq]
    exact h.dropAuth env authcode hok
  · rw [CodeMeets, if_neg (by rw [hauth]; exact Bool.false_ne_true)] at hok
    obtain ⟨hused, hrequested⟩ := hok haccepted
    rw [heq]
    obtain ⟨w₂, hremove, hfound, hnone⟩ := dropNick_does env u nick' (mysqlFindnick w.db nick') w₁
    have hmid : Books ok w₂.registry l := h.delnick hused hrequested (hquiet.does hremove)
    cases huser : finduser w₂ nick' with
    | some u₂ => exact hmid.does_setIds (hfound u₂ huser)
    | none => exact hmid.quiet (hnone huser)

theorem find_code {r : AuthRow} {command : AuthCommand} {q : AuthRow → Prop} [DecidablePred q]
    (h : w.auth.find? (fun a ↦ a.command = command ∧ q a) = some r) :
    r ∈ w.auth ∧ r.command = command ∧ q r :=
  ⟨List.mem_of_find?_eq_some h, by simpa using List.find?_some h⟩

theorem Books.sendpass (h : Books ok w.registry l) (conf : Config) (env : Env) {u : User}
    {nick authcode : Option CString} {code : CString}
    (hmay : ∀ a, MayAsk w u (.sendpass nick authcode code) a → ok a)
    (hredeemed : w.alive = true → ∀ row, givenCode conf u w (.sendpass nick authcode code) = some row →
      ∀ a ∈ redeemedRows w row, (a.name, a.createTime) ∈ l.redeemed) :
    Books ok (doSendpass conf env u nick authcode code w).registry l := by
  rcases doSendpass_cases conf env u nick authcode code w with
    hquiet | ⟨nick', authcode', row, rfl, hauth, rfl, hfind, hni, hcodes⟩ |
    ⟨name, hauth, hname, hask, hpost⟩
  · exact h.quiet hquiet
  · by_cases halive : w.alive = true
    · have hgiven : givenCode conf u w (.sendpass (some nick') (some authcode') code) = some row := by
        rw [givenCode, if_pos hauth]
        exact Option.filter_eq_some_iff.mpr ⟨hfind, hni⟩
      obtain ⟨-, hcommand, hcode⟩ := find_code hfind
      refine h.does hcodes fun _ hr' ↦ hr' ▸ h.withdraw fun a ha hmatch _ ↦ .inr ?_
      have hmatch := of_decide_eq_true hmatch
      refine hredeemed halive row hgiven a (List.mem_filter.mpr ⟨ha, decide_eq_true ?_⟩)
      exact ⟨hmatch.1, hcommand, (sameName_iff.mp hmatch.2).trans (sameName_iff.mp hcode).symm⟩
    · rw [(hcodes.dead (Bool.not_eq_true _ ▸ halive)).1]
      exact h
  · refine h.does hpost fun _ hr' ↦ hr' ▸ h.post (hmay _ fun _ ↦ ?_) (fun hcommand ↦ ?_)
      fun hcommand ↦ ?_
    · exact ⟨nick, authcode, code, rfl, hauth, hname, hask⟩
    · cases hcommand
    · cases hcommand

theorem Books.link (h : Books ok w.registry l) (conf : Config) (env : Env) (u : User)
    (nick pass : Option CString) : Books ok (doLink conf env u nick pass w).registry l := by
  by_cases hlink : LinkAccepted conf env u nick pass w
  · rw [doLink_accepted hlink]
    exact h.relink _ _
  · exact h.calm (doLink_calm hlink)

theorem Books.unlink (h : Books ok w.registry l) (conf : Config) (env : Env) (u : User)
    (nick pass : Option CString) : Books ok (doUnlink conf env u nick pass w).registry l := by
  rcases doUnlink_cases conf env u nick pass w with hcalm |
    ⟨nick', ni, -, -, -, -, w₁, hquiet, hdelink⟩ | ⟨ni, -, -, -, w₁, w₂, hquiet, hids, hunlink⟩
  · exact h.calm hcalm
  · have hmid := h.quiet hquiet
    refine Books.quiet (hmid.does (delink_does_or env.now ni.nickId w₁) ?_) hdelink
    rintro r' (rfl | rfl)
    · exact hmid.relink _ _
    · exact hmid
  · have hmid := h.quiet hquiet
    have husers : Books ok w₂.registry l := hmid.does hids fun _ hr' ↦ hr' ▸
      hmid.modifyUser (g := fun v ↦ { v with nickId := u.realId }) (fun _ ↦ id) u.uid
    exact husers.does hunlink fun _ hr' ↦ hr' ▸ husers.relink _ _

theorem Books.forbid (h : Books ok w.registry l) (conf : Config) (env : Env) (u : User)
    (nick : Option CString) (hok : CodeMeets conf env u (w, l) (.forbid nick)) :
    Books ok (doForbid conf env u nick w).registry l := by
  rcases doForbid_cases conf env u nick w with
    hquiet | ⟨nick', w₁, w₂, rfl, haccepted, hquiet, hdel, row, columns, hlink, hrow, hinsert⟩
  · exact h.quiet hquiet
  · refine Books.quiet ?_ hinsert
    have hnew (hmid : Books ok w₂.registry l) : Books ok (insertNick row columns w₂).registry l := by
      refine hmid.does (insertNick_does row columns w₂ hlink rfl) ?_
      rintro _ ⟨hfree, rfl⟩
      exact hmid.insert hfree
    by_cases hid : mysqlFindnick w.db nick' = 0
    · rw [if_neg (not_not.mpr hid)] at hdel
      exact hnew (hdel ▸ h.quiet hquiet)
    · rw [if_pos hid] at hdel
      have hremove := delnick_does (mysqlFindnick w.db nick') w₁
      rw [← hdel] at hremove
      have hrequested := hok haccepted hid
      by_cases hshort : nick'.length < NICKMAX ∧ w₁.alive = true
      · -- the name fits, so the nick is registered again
        obtain ⟨hshort, halive⟩ := hshort
        rw [List.take_of_length_le hshort.le] at hrow
        have hfind := h.findnick nick'
        have halive₂ : w₂.alive = true := by
          obtain ⟨e, he, -, heid⟩ := Entry.exists_of_findId_ne_zero (hfind ▸ hid)
          rw [← hquiet.registry] at he
          obtain ⟨s, hs, rfl⟩ := List.mem_map.mp he
          rw [hdel, NickServ.delnick, World.act, if_pos halive]
          refine Option.isSome_map.trans (List.find?_isSome.mpr ⟨s, hs, ?_⟩)
          exact decide_eq_true (heid.trans hfind.symm)
        have hreg := hremove.of_alive halive₂
        rw [hquiet.registry] at hreg
        rw [registry_insertNick columns hlink halive₂, hreg, hrow]
        · refine h.replace hfind fun a ha hcommand ↦ ?_
          rw [← h.findnick]
          exact hrequested a ha hcommand
        · rw [hreg, hrow]
          refine (Entry.findId_eq_zero (kept_numbered.remove _ _ h.numbered).sound.pos).mp ?_
          rw [Registry.remove, h.numbered.sound.findId_remove, if_pos hfind.symm]
      · refine hnew ?_
        by_cases halive : w₁.alive = true
        · refine h.delnick (fun a ha hcommand _ hsame ↦ hshort ⟨?_, halive⟩) hrequested
            (hquiet.does hremove)
          -- the name of a REGISTER fits
          rw [h.findnick, h.findnick] at hsame
          have hname := h.numbered.sound.findId_inj (hsame ▸ h.findnick nick' ▸ hid) hsame
          have hlength := congrArg List.length hname
          rw [foldName, foldName, List.length_map, List.length_map] at hlength
          exact hlength ▸ h.names a ha hcommand
        · rw [(hremove.dead (Bool.not_eq_true _ ▸ halive)).1]
          exact h.quiet hquiet

/-- The condition on other commands is about the codes that were honoured. -/
theorem CodeMeets.of_used {conf : Config} {env : Env} {u : User} {cmd : Command} {l' : Ledger}
    (h : CodeMeets conf env u (w, l') cmd) (hused : l'.used = l.used)
    (hcmd : ∀ nick authcode code, cmd ≠ .sendpass nick authcode code) :
    CodeMeets conf env u (w, l) cmd := by
  have hspares (id : ℕ) : SparesUsed (w, l') id ↔ SparesUsed (w, l) id := by
    simp only [SparesUsed, hused]
  cases cmd with
  | drop nick authcode code =>
    cases nick with
    | none => exact h
    | some nick =>
      simp only [CodeMeets, hspares] at h
      exact h
  | sendpass nick authcode code => exact absurd rfl (hcmd nick authcode code)
  | forbid nick =>
    cases nick with
    | none => exact h
    | some nick => exact h
  | _ => trivial

theorem Books.command (h : Books ok w.registry l) (conf : Config) (env : Env) {u : User}
    (hu : u ∈ w.users) (hnext : l.dropFor w.nextAuthId = mysqlFindnick w.db u.nick) {cmd : Command}
    (hmay : ∀ a, MayAsk w u cmd a → ok a)
    (hredeemed : w.alive = true → ∀ row, givenCode conf u w cmd = some row →
      ∀ a ∈ redeemedRows w row, (a.name, a.createTime) ∈ l.redeemed)
    (hok : (∀ nick authcode code, cmd ≠ .sendpass nick authcode code) →
      CodeMeets conf env u (w, l) cmd) : Books ok (doCommand conf env u w cmd).registry l := by
  have hw := Calm.refl w
  have hother : ∀ a : AuthRow, a.command ≠ .NICK_SENDPASS → ok a := fun a hcommand ↦
    hmay a fun hsendpass ↦ absurd hsendpass hcommand
  cases cmd with
  | register words code => exact h.register conf env hu hother words code
  | identify pass => exact h.calm (hw.doIdentify conf env u pass)
  | drop nick authcode code => exact h.drop conf env hnext hother nick authcode code (hok (by simp))
  | sendpass nick authcode code => exact h.sendpass conf env hmay hredeemed
  | link nick pass => exact h.link conf env u nick pass
  | unlink nick pass => exact h.unlink conf env u nick pass
  | forbid nick => exact h.forbid conf env u nick (hok (by simp))
  | suspend nick reason => exact h.calm (hw.doSuspend conf env u nick reason)
  | unsuspend nick => exact h.calm (hw.doUnsuspend conf env u nick)
  | set nick opt => exact h.calm (hw.doSet conf env u nick opt)
  | recover nick pass => exact h.calm (hw.doRecover conf env u nick pass)
  | release nick pass => exact h.calm (hw.doRelease conf env u nick pass)
  | ghost nick pass => exact h.calm (hw.doGhost conf env u nick pass)

end Commands

/-! ### What a step does to the books -/

section Steps

variable {ok : AuthRow → Prop} {w : World} {l : Ledger}

theorem Books.expireNicks (h : Books ok w.registry l) (conf : Config) (grace old : ℕ → Bool)
    (hspares : ∀ id, Expires conf grace old w id → SparesUsed (w, l) id ∧ SparesRequested (w, l) id) :
    Books ok (expireNicks conf grace old w).registry l := by
  let p (w' : World) : Prop := Books ok w'.registry l ∧ w'.auth = w.auth ∧
    ∀ x, Entry.findId w'.registry.nicks x = 0 ∨
      Entry.findId w'.registry.nicks x = Entry.findId w.registry.nicks x
  have hend : p (NickServ.expireNicks conf grace old w) := by
    refine expireNicks_induct (p := p) (fun nickId w' hexpires hw' ↦ ?_) ⟨h, rfl, fun _ ↦ .inr rfl⟩
    obtain ⟨hbooks, hauth, hfind⟩ := hw'
    obtain ⟨hused, hrequested⟩ := hspares nickId hexpires
    have hpos : nickId ≠ 0 := by
      obtain ⟨-, row, hrow, rfl, -⟩ := hexpires
      exact (h.numbered.sound.pos _ (List.mem_map_of_mem hrow)).ne'
    have hkept {a : AuthRow} (hne : mysqlFindnick w.db a.name ≠ nickId) :
        mysqlFindnick w'.db a.name ≠ nickId := by
      rw [hbooks.findnick]
      rw [h.findnick] at hne
      rcases hfind (foldName a.name) with hnone | hsame
      · rw [hnone]
        exact hpos.symm
      · rw [hsame]
        exact hne
    have hdel := delnick_does nickId w'
    refine ⟨hbooks.delnick (fun a ha hcommand hid ↦ hkept (hused a (hauth ▸ ha) hcommand hid))
      (fun a ha hcommand ↦ hkept (hrequested a (hauth ▸ ha) hcommand)) hdel, ?_, fun x ↦ ?_⟩
    · exact hdel.preserves (p := fun r ↦ r.auth = w.auth) hauth fun _ hr' ↦ hr' ▸ hauth
    · refine hdel.preserves (p := fun r ↦ Entry.findId r.nicks x = 0 ∨
        Entry.findId r.nicks x = Entry.findId w.registry.nicks x) (hfind x) fun _ hr' ↦ ?_
      rw [hr', Registry.remove, hbooks.numbered.sound.findId_remove]
      split_ifs
      · exact .inl rfl
      · exact hfind x
  exact hend.1

theorem length_strscpy (nick : CString) : (foldName (strscpy nick NICKMAX)).length < NICKMAX := by
  rw [foldName, List.length_map, strscpy, List.length_take]
  exact lt_of_le_of_lt (min_le_left _ _) (by decide)

/-- The ledger when a message comes. -/
def Ledger.tick (conf : Config) (w : World) (msg : Env × Message) (l : Ledger) : Ledger :=
  { l with
    dropFor := Function.update l.dropFor w.nextAuthId (mysqlFindnick w.db (sender msg))
    redeemed := ((honoured conf w msg).toList.flatMap (redeemedRows w)).map
      (fun r ↦ (r.name, r.createTime)) ++ l.redeemed
    clock := msg.1.now }

/-- A code for SENDPASS that the message may make. -/
def MayIssue (w : World) (msg : Env × Message) (a : AuthRow) : Prop :=
  a.command = .NICK_SENDPASS → ∃ env source cmd u, msg = (env, .command source cmd) ∧
    finduser w source = some u ∧ MayAsk w u cmd a

theorem finduser_self {source : CString} {u : User} (h : finduser w source = some u) :
    finduser w u.nick = some u := by
  have hsame : (fun v : User ↦ sameName v.nick u.nick) = fun v ↦ sameName v.nick source := by
    ext v
    rw [Bool.eq_iff_iff, sameName_iff, sameName_iff, (mem_of_finduser h).2]
  rw [finduser, hsame]
  exact h

theorem Books.meets (h : Books ok w.registry l) (conf : Config) (msg : Env × Message)
    (hmay : ∀ a, MayIssue w msg a → ok a) (hok : CodesMeet conf (w, l) msg) :
    Books ok (step conf w msg).registry (l.tick conf w msg) := by
  obtain ⟨hclock, hok⟩ := hok
  have htick : Books ok w.registry (l.tick conf w msg) := h.tick hclock _ _
  obtain ⟨env, msg⟩ := msg
  have hw := Quiet.refl w
  cases msg with
  | connect nick username host =>
    refine htick.does (doNickNew_does conf env nick username host w) fun _ hr' ↦ hr' ▸ ?_
    refine htick.withUsers rfl rfl rfl rfl fun v hv ↦ ?_
    rcases List.mem_cons.mp hv with rfl | hv
    · exact length_strscpy nick
    · exact htick.short v hv
  | nick source nick =>
    change Books ok (doNickChange conf env source nick w).registry _
    cases huser : finduser w source with
    | none =>
      rw [doNickChange, huser]
      exact htick
    | some u =>
      refine htick.does (doNickChange_does huser) fun _ hr' ↦ hr' ▸ htick.modifyUser ?_ u.uid
      exact fun _ _ ↦ length_strscpy nick
  | quit nick => exact htick.calm ((Calm.refl w).doQuit conf env nick)
  | mode source nick modes => exact htick.quiet (hw.doUmode env source nick modes)
  | command source cmd =>
    rw [step]
    cases huser : finduser w source with
    | none => exact htick
    | some u =>
      obtain ⟨hu, hname⟩ := mem_of_finduser huser
      have hsource : mysqlFindnick w.db source = mysqlFindnick w.db u.nick := by
        rw [h.findnick, h.findnick, hname]
      refine htick.command conf env hu ((Function.update_self ..).trans hsource) (fun a ha ↦ ?_)
        (fun halive row hrow a ha ↦ ?_) ?_
      · exact hmay a fun _ ↦ ⟨env, source, cmd, u, rfl, huser, ha⟩
      · have hgiven : given conf w (env, .command source cmd) = some row := by
          change (if w.alive then (finduser w source).bind fun u ↦ givenCode conf u w cmd else none) = _
          rw [if_pos halive, huser]
          exact hrow
        have hcommand := (of_decide_eq_true (List.mem_filter.mp ha).2).2.1
        have hhonoured : honoured conf w (env, .command source cmd) = some row := by
          refine Option.filter_eq_some_iff.mpr ⟨hgiven, decide_eq_true (.inl ?_)⟩
          rw [hcommand]
          decide
        refine List.mem_append_left _ (List.mem_map_of_mem (List.mem_flatMap.mpr ⟨row, ?_, ha⟩))
        exact Option.mem_toList.mpr hhonoured
      · exact (hok u huser).of_used rfl
  | other db => exact htick.quiet (doOther_quiet env db w)
  | timeout t => exact htick.quiet (hw.doTimeout env t)
  | expireNicks grace old => exact htick.expireNicks conf grace old hok
  | expireNicksuspends expired => exact htick.quiet (hw.expireNicksuspends expired)
  | expireAuth =>
    refine htick.does (expireAuth_does env.now w) fun _ hr' ↦ hr' ▸ htick.withdraw ?_
    exact fun a _ hold _ ↦ .inl (of_decide_eq_true hold)
  | restart =>
    rw [step, registry_nsInit]
    exact htick.withUsers rfl rfl rfl rfl fun v hv ↦ by cases hv

end Steps

/-! ### What a code does -/

section Given

variable {ok : AuthRow → Prop} {w : World} {l : Ledger} {conf : Config} {r : AuthRow}

/-- A code is given by a user of a live process. -/
theorem exists_of_given {msg : Env × Message} (h : given conf w msg = some r) :
    ∃ env source cmd u, msg = (env, .command source cmd) ∧ w.alive = true ∧
      finduser w source = some u ∧ givenCode conf u w cmd = some r := by
  obtain ⟨env, msg⟩ := msg
  cases msg with
  | command source cmd =>
    change (if w.alive then (finduser w source).bind fun u ↦ givenCode conf u w cmd else none) =
      some r at h
    split_ifs at h with halive
    obtain ⟨u, hu, hcode⟩ := Option.bind_eq_some_iff.mp h
    exact ⟨env, source, cmd, u, rfl, halive, hu, hcode⟩
  | _ => cases h

theorem step_command {env : Env} {source : CString} {cmd : Command} {u : User}
    (huser : finduser w source = some u) :
    step conf w (env, .command source cmd) = doCommand conf env u w cmd := by
  rw [step, huser]

/-- The code of a REGISTER that is given. -/
structure GivenRegister (conf : Config) (w : World) (msg : Env × Message) (r : AuthRow) (u : User) :
    Prop where
  mem : r ∈ w.auth
  command : r.command = .NICK_REG
  name : foldName r.name = foldName u.nick
  user : u ∈ w.users
  eq : ∃ email, step conf w msg = registerNick conf msg.1 u email w

/-- The code of a DROP that is given. -/
structure GivenDrop (conf : Config) (w : World) (msg : Env × Message) (r : AuthRow) (u : User)
    (authcode : CString) : Prop where
  mem : r ∈ w.auth
  command : r.command = .NICK_DROP
  name : foldName r.name = foldName u.nick
  code : sameName r.code authcode = true
  alive : w.alive = true
  eq : step conf w msg = doDropAuth msg.1 u (some authcode) w
  meets : ∀ l, CodesMeet conf (w, l) msg →
    u.realId = mysqlFindnick w.db u.nick ∧ SparesUsed (w, l) u.realId

/-- The code of a SENDPASS that is given. -/
structure GivenSendpass (conf : Config) (w : World) (msg : Env × Message) (r : AuthRow) (u : User)
    (authcode : CString) : Prop where
  mem : r ∈ w.auth
  command : r.command = .NICK_SENDPASS
  code : sameName r.code authcode = true
  alive : w.alive = true
  found : w.auth.find? (fun a ↦ a.command = .NICK_SENDPASS ∧ sameName a.code authcode) = some r
  row : (mysqlFindnickinfo w.db r.name).isSome = true
  eq : step conf w msg = doSendpassAuth msg.1 u (some authcode) w

theorem GivenDrop.coded {msg : Env × Message} {u : User} {authcode : CString}
    (h : GivenDrop conf w msg r u authcode) : dropCoded u authcode w = true :=
  List.any_eq_true.mpr ⟨r, h.mem, decide_eq_true ⟨h.command, h.code, sameName_iff.mpr h.name⟩⟩

/-- A code is given in one of three commands. -/
theorem given_cases {msg : Env × Message} (h : given conf w msg = some r) :
    (∃ u, GivenRegister conf w msg r u) ∨ (∃ u authcode, GivenDrop conf w msg r u authcode) ∨
      ∃ u authcode, GivenSendpass conf w msg r u authcode := by
  obtain ⟨env, source, cmd, u, rfl, halive, huser, hcode⟩ := exists_of_given h
  have hu := (mem_of_finduser huser).1
  cases cmd with
  | register words code =>
    rw [givenCode] at hcode
    split_ifs at hcode with hauth
    obtain ⟨authcode, hemail, hfind⟩ := Option.bind_eq_some_iff.mp hcode
    obtain ⟨hguest, hpass⟩ := hauth
    obtain ⟨pass, hwords, hpass⟩ := (Option.any_eq_true ..).mp hpass
    obtain ⟨hr, hcommand, -, hname⟩ := find_code hfind
    refine .inl ⟨u, hr, hcommand, sameName_iff.mp hname, hu, (r.params.dropWhile (· ≠ ' ')).tail, ?_⟩
    rw [step_command huser, doCommand, doRegister, if_neg hguest, hwords]
    dsimp only
    rw [if_pos hpass, hemail, doRegisterAuth]
    rw [hfind]
  | drop nick authcode code =>
    cases nick with
    | none => cases hcode
    | some nick =>
      rw [givenCode] at hcode
      split_ifs at hcode with hauth
      obtain ⟨authcode, rfl, hfind⟩ := Option.bind_eq_some_iff.mp hcode
      obtain ⟨hr, hcommand, hsame, hname⟩ := find_code hfind
      have hcoded : dropCoded u authcode w = true :=
        List.any_eq_true.mpr ⟨r, hr, decide_eq_true ⟨hcommand, hsame, hname⟩⟩
      refine .inr (.inl ⟨u, authcode, hr, hcommand, sameName_iff.mp hname, hsame, halive, ?_, ?_⟩)
      · rw [step_command huser, doCommand, doDrop]
        exact if_pos hauth
      · intro l hmeets
        have hmeets := hmeets.2 u huser
        rw [CodeMeets, if_pos hauth] at hmeets
        exact hmeets authcode rfl hcoded
  | sendpass nick authcode code =>
    cases nick with
    | none => cases hcode
    | some nick =>
      rw [givenCode] at hcode
      split_ifs at hcode with hauth
      obtain ⟨hcode, hrow⟩ := Option.filter_eq_some_iff.mp hcode
      obtain ⟨authcode, rfl, hfind⟩ := Option.bind_eq_some_iff.mp hcode
      obtain ⟨hr, hcommand, hsame⟩ := find_code hfind
      refine .inr (.inr ⟨u, authcode, hr, hcommand, hsame, halive, hfind, hrow, ?_⟩)
      rw [step_command huser, doCommand, doSendpass]
      exact if_pos hauth
  | _ => cases hcode

end Given

/-! ### Steps are honest -/

section Honest

variable {ok : AuthRow → Prop} {w : World} {l : Ledger} {conf : Config} {r : AuthRow}
  {msg : Env × Message} {u : User} {authcode : CString}

theorem Books.eq_of_authId (h : Books ok w.registry l) {a b : AuthRow} (ha : a ∈ w.auth)
    (hb : b ∈ w.auth) (heq : a.authId = b.authId) : a = b :=
  List.inj_on_of_nodup_map h.ids ha hb heq

/-- A code for a REGISTER inserts the nick it was made for, or no nick at all. -/
theorem GivenRegister.nicks (h : GivenRegister conf w msg r u) (hbooks : Books ok w.registry l) :
    (w.registry.Free (foldName r.name) ∧
      (step conf w msg).registry.nicks = (w.registry.insert (foldName r.name)).nicks) ∨
    (step conf w msg).registry.nicks = w.registry.nicks := by
  obtain ⟨email, heq⟩ := h.eq
  rw [heq, h.name]
  exact registerNick_nicks conf msg.1 (hbooks.nick_short h.user) email w

theorem GivenRegister.auth (h : GivenRegister conf w msg r u) :
    (step conf w msg).auth = w.auth ∧ (step conf w msg).nextAuthId = w.nextAuthId := by
  obtain ⟨email, heq⟩ := h.eq
  obtain ⟨w₁, hinsert, hids⟩ := registerNick_does conf msg.1 u email w
  rw [heq]
  have hmid : w₁.auth = w.auth ∧ w₁.nextAuthId = w.nextAuthId :=
    hinsert.preserves (p := fun r' ↦ r'.auth = w.auth ∧ r'.nextAuthId = w.nextAuthId) ⟨rfl, rfl⟩
      fun _ hr' ↦ hr'.2 ▸ ⟨rfl, rfl⟩
  exact hids.preserves (p := fun r' ↦ r'.auth = w.auth ∧ r'.nextAuthId = w.nextAuthId) hmid
    fun _ hr' ↦ hr' ▸ hmid

/-- A code that registers a nick finds the name free. -/
theorem GivenRegister.inserts (h : GivenRegister conf w msg r u) (hbooks : Books ok w.registry l)
    (hhonoured : honoured conf w msg = some r) :
    w.registry.Free (foldName r.name) ∧
      (step conf w msg).registry.nicks = (w.registry.insert (foldName r.name)).nicks := by
  have hlength := of_decide_eq_true (Option.filter_eq_some_iff.mp hhonoured).2
  rcases h.nicks hbooks with hinsert | hsame
  · exact hinsert
  · rcases hlength with hcommand | hne
    · exact absurd h.command hcommand
    · have hrows := congrArg List.length hsame
      rw [World.registry, World.registry, List.length_map, List.length_map] at hrows
      exact absurd hrows hne

theorem GivenDrop.row (h : GivenDrop conf w msg r u authcode) (hbooks : Books ok w.registry l)
    (hok : CodesMeet conf (w, l) msg) :
    u.realId = l.dropFor r.authId ∧
      ∃ row ∈ w.db.nick, row.nickId = u.realId ∧ sameName row.nick r.name = true := by
  obtain ⟨hreal, -⟩ := h.meets l hok
  have hname : mysqlFindnick w.db r.name = u.realId := by
    rw [hreal, hbooks.findnick, hbooks.findnick, h.name]
  obtain ⟨row, hrow, hid, hsame⟩ := hbooks.exists_row h.mem h.command
  refine ⟨?_, row, hrow, hid.trans hname, hsame⟩
  rw [← hname, hbooks.findnick]
  exact (hbooks.requested r h.mem h.command).1

/-- What a SENDPASS with a valid code does in a live process. -/
theorem GivenSendpass.registry (h : GivenSendpass conf w msg r u authcode) :
    (step conf w msg).registry = w.registry.withdraw fun a ↦ a.command = .NICK_SENDPASS ∧
      sameName a.code authcode := by
  have hcodes := withdraw_does (p := fun a : AuthRow ↦ a.command = .NICK_SENDPASS ∧
    sameName a.code authcode) w
  obtain ⟨ni, hni⟩ := Option.isSome_iff_exists.mp h.row
  rw [h.eq, doSendpassAuth]
  dsimp only
  rw [h.found]
  dsimp only
  rw [hni]
  dsimp only
  rw [← hcodes.of_alive (by rw [World.act, if_pos h.alive]; exact h.alive)]
  exact ((((Quiet.refl _).freshenLanguage _ _).updateColumns _ _).noticeLang _ _).registry

/-- A code that was honoured is gone, or its nick is registered. -/
theorem Books.spent (h : Books ok w.registry l) (hok : CodesMeet conf (w, l) msg)
    (hhonoured : honoured conf w msg = some r) :
    r.authId < (step conf w msg).nextAuthId ∧
      ∀ a ∈ (step conf w msg).auth, a.authId = r.authId →
        a.command = .NICK_REG ∧ Entry.findId (step conf w msg).registry.nicks (foldName a.name) ≠ 0 := by
  rcases given_cases (Option.filter_eq_some_iff.mp hhonoured).1 with
    ⟨u, hreg⟩ | ⟨u, authcode, hdrop⟩ | ⟨u, authcode, hsend⟩
  · obtain ⟨hauth, hnext⟩ := hreg.auth
    obtain ⟨hfree, hnicks⟩ := hreg.inserts h hhonoured
    rw [hauth, hnext, hnicks]
    refine ⟨h.lt r hreg.mem, fun a ha hid ↦ ?_⟩
    rw [h.eq_of_authId ha hreg.mem hid]
    refine ⟨hreg.command, ?_⟩
    rw [Registry.insert, Entry.findId_insert _ hfree, if_pos rfl]
    exact h.numbered.pos.ne'
  · obtain ⟨-, row, hrow, hid, -⟩ := hdrop.row h hok
    have hregistry := registry_doDropAuth msg.1 hdrop.alive hdrop.coded ⟨row, hrow, hid⟩
    rw [← hdrop.eq] at hregistry
    rw [show (step conf w msg).auth = _ from congrArg Registry.auth hregistry,
      show (step conf w msg).nextAuthId = _ from congrArg Registry.nextAuthId hregistry]
    refine ⟨h.lt r hdrop.mem, fun a ha hid ↦ ?_⟩
    obtain ⟨ha, hkept⟩ := List.mem_filter.mp ha
    rw [h.eq_of_authId ha hdrop.mem hid] at hkept
    simp [hdrop.command, hdrop.code, sameName_iff.mpr hdrop.name] at hkept
  · rw [show (step conf w msg).auth = _ from congrArg Registry.auth hsend.registry,
      show (step conf w msg).nextAuthId = _ from congrArg Registry.nextAuthId hsend.registry]
    refine ⟨h.lt r hsend.mem, fun a ha hid ↦ ?_⟩
    obtain ⟨ha, hkept⟩ := List.mem_filter.mp ha
    rw [h.eq_of_authId ha hsend.mem hid] at hkept
    simp [hsend.command, hsend.code] at hkept

theorem Books.once (h : Books ok w.registry l) (hhonoured : honoured conf w msg = some r) :
    r.authId ∉ l.used := by
  intro hused
  rcases given_cases (Option.filter_eq_some_iff.mp hhonoured).1 with
    ⟨u, hreg⟩ | ⟨u, authcode, hdrop⟩ | ⟨u, authcode, hsend⟩
  · have hfree := (hreg.inserts h hhonoured).1
    exact (h.used r hreg.mem hused).2 ((Entry.findId_eq_zero h.numbered.sound.pos).mpr hfree)
  · exact absurd ((h.used r hdrop.mem hused).1.symm.trans hdrop.command) (by decide)
  · exact absurd ((h.used r hsend.mem hused).1.symm.trans hsend.command) (by decide)

theorem Books.registers (h : Books ok w.registry l) (hgiven : given conf w msg = some r)
    (hcommand : r.command = .NICK_REG) :
    (step conf w msg).db.nick.length = w.db.nick.length ∨ Creates r.name w (step conf w msg) := by
  rcases given_cases hgiven with ⟨u, hreg⟩ | ⟨u, authcode, hdrop⟩ | ⟨u, authcode, hsend⟩
  · rcases hreg.nicks h with ⟨hfree, hinsert⟩ | hsame
    · refine .inr ⟨?_, ?_, ?_⟩
      · rw [h.findnick]
        exact (Entry.findId_eq_zero h.numbered.sound.pos).mpr hfree
      · have hids := congrArg (List.map Entry.id) hinsert
        rw [World.registry, Registry.insert, World.registry, List.map_append, List.map_map,
          List.map_map] at hids
        exact hids
      · have hmem : (⟨w.nextNickId, foldName r.name, 0⟩ : Entry CString) ∈
            (step conf w msg).registry.nicks := by
          rw [hinsert]
          exact List.mem_append_right _ (List.mem_singleton_self _)
        obtain ⟨row, hrow, heq⟩ := List.mem_map.mp hmem
        exact ⟨row, hrow, congrArg Entry.id heq, sameName_iff.mpr (congrArg Entry.name heq)⟩
    · have hrows := congrArg List.length hsame
      rw [World.registry, World.registry, List.length_map, List.length_map] at hrows
      exact .inl hrows
  · exact absurd (hcommand.symm.trans hdrop.command) (by decide)
  · exact absurd (hcommand.symm.trans hsend.command) (by decide)

theorem Books.drops (h : Books ok w.registry l) (hok : CodesMeet conf (w, l) msg)
    (hgiven : given conf w msg = some r) (hcommand : r.command = .NICK_DROP) :
    (∃ row ∈ w.db.nick, row.nickId = l.dropFor r.authId ∧ sameName row.nick r.name = true) ∧
      (step conf w msg).db = mysqlDelnick w.db (l.dropFor r.authId) := by
  rcases given_cases hgiven with ⟨u, hreg⟩ | ⟨u, authcode, hdrop⟩ | ⟨u, authcode, hsend⟩
  · exact absurd (hcommand.symm.trans hreg.command) (by decide)
  · obtain ⟨hreal, row, hrow, hid, hname⟩ := hdrop.row h hok
    refine ⟨⟨row, hrow, hid.trans hreal, hname⟩, ?_⟩
    rw [hdrop.eq, db_doDropAuth hdrop.alive hdrop.coded, hreal]
  · exact absurd (hcommand.symm.trans hsend.command) (by decide)

/-- A code for SENDPASS that is new is given to an oper, or the last one is a day old. -/
theorem Books.sends (h : Books ok w.registry l) (hok : CodesMeet conf (w, l) msg)
    (hissued : r ∈ issued conf w msg) (hcommand : r.command = .NICK_SENDPASS)
    (hoper : (finduser w (sender msg)).any User.oper = false) :
    ∀ entry ∈ l.sent, sameName entry.1 r.name = true → entry.2 + SECS_24_HRS < msg.1.now := by
  intro entry hentry hname
  obtain ⟨hr, hnew⟩ := List.mem_filter.mp hissued
  have hbooks : Books (fun a ↦ a ∈ w.auth ∨ MayIssue w msg a) w.registry l :=
    { h with all := fun a ha ↦ .inl ha }
  rcases (hbooks.meets conf msg (fun a ↦ .inr) hok).all r hr with hold | hissue
  · exact absurd (of_decide_eq_true hnew) (Nat.not_le.mpr (h.lt r hold))
  · obtain ⟨env, source, cmd, u, rfl, huser, hask⟩ := hissue hcommand
    obtain ⟨nick, authcode, code, rfl, hauth, hnick, hallowed⟩ := hask hcommand
    have hoper' : (finduser w u.nick).any User.oper = false := by
      rwa [finduser_self huser, ← huser]
    have hpending : authPending w .NICK_SENDPASS r.name = false := by
      rcases hallowed with hyes | hnone
      · rw [hoper'] at hyes
        cases hyes
      · exact hnone
    rcases h.sent entry hentry with hlate | hredeemed | ⟨a, ha, hacommand, rfl⟩
    · exact hlate.trans_le hok.1
    · refine hok.2 u huser hauth hoper' entry hredeemed (sameName_iff.mpr ?_)
      exact (sameName_iff.mp hname).trans (sameName_iff.mp hnick)
    · exact absurd (sameName_iff.mp hname) (authPending_eq_false hpending a ha hacommand)

theorem Books.honest (h : Books ok w.registry l) (hok : CodesMeet conf (w, l) msg) :
    HonestStep conf (w, l) msg where
  once _ hhonoured := h.once hhonoured
  register _ hgiven hcommand := h.registers hgiven hcommand
  drop _ hgiven hcommand := h.drops hok hgiven hcommand
  sendpass _ hissued hcommand hoper := h.sends hok hissued hcommand hoper

theorem Books.entered (h : Books ok w.registry l) (hmay : ∀ a, ok a)
    (hok : CodesMeet conf (w, l) msg) :
    Books ok (audited conf (w, l) msg).1.registry (audited conf (w, l) msg).2 := by
  have hstep := h.meets conf msg (fun a _ ↦ hmay a) hok
  have hnote := hstep.note ((honoured conf w msg).map AuthRow.authId).toList
    ((issued conf w msg).filter fun r ↦ r.command = .NICK_SENDPASS)
    (fun id hid ↦ ?_) (fun a ha hid ↦ ?_) fun a ha ↦ ?_
  · exact hnote
  · obtain ⟨r, hr, rfl⟩ := Option.map_eq_some_iff.mp (Option.mem_toList.mp hid)
    exact (h.spent hok hr).1
  · obtain ⟨r, hr, heq⟩ := Option.map_eq_some_iff.mp (Option.mem_toList.mp hid)
    exact (h.spent hok hr).2 a ha heq.symm
  · obtain ⟨ha, hcommand⟩ := List.mem_filter.mp ha
    exact ⟨List.mem_of_mem_filter ha, of_decide_eq_true hcommand⟩

theorem books_empty : Books (fun _ ↦ True) World.empty.registry Ledger.empty where
  numbered := numbered_empty
  short _ hv := by cases hv
  ids := List.nodup_nil
  lt _ ha := by cases ha
  all _ ha := by cases ha
  usedLt _ hid := by cases hid
  names _ ha := by cases ha
  used _ ha := by cases ha
  requested _ ha := by cases ha
  single _ ha := by cases ha
  sent _ hentry := by cases hentry

/-- In a run whose messages meet the condition, what codes do is what they were made for. -/
theorem honest_run (conf : Config) (msgs : List (Env × Message))
    (hok : Along (audited conf) (CodesMeet conf) (World.empty, Ledger.empty) msgs) :
    Along (audited conf) (HonestStep conf) (World.empty, Ledger.empty) msgs :=
  hok.imp (p := fun s : World × Ledger ↦ Books (fun _ ↦ True) s.1.registry s.2)
    (fun _ _ h hmeets ↦ h.entered (fun _ ↦ trivial) hmeets) (fun _ _ h hmeets ↦ h.honest hmeets)
    books_empty

/-- Commands are confirmed with codes. -/
def authConfig : Config :=
  { openConfig with nsRegNeedAuth := true }

/-- A user asks for a code to register his nick, and gives it. -/
def codeGiven : List (Env × Message) :=
  [(trusting 1, .connect "a".toList "user".toList "host".toList),
    (trusting 2, .command "a".toList
      (.register ⟨some "pass".toList, some "mail".toList, false, true, true⟩ "first".toList)),
    (trusting 3, .command "a".toList
      (.register ⟨some "AUTH".toList, some "first".toList, false, true, true⟩ []))]

theorem honest_run_codeGiven :
    Along (audited authConfig) (HonestStep authConfig) (World.empty, Ledger.empty) codeGiven := by
  refine honest_run authConfig codeGiven ⟨⟨?_, trivial⟩, ⟨?_, ?_⟩, ⟨?_, ?_⟩, trivial⟩
  · decide
  · decide
  · exact fun _ _ ↦ trivial
  · decide
  · exact fun _ _ ↦ trivial

/-- He drops the nick, and gives the code again. -/
def codeReused : List (Env × Message) :=
  codeGiven ++
  [(trusting 4, .command "a".toList (.drop none none "second".toList)),
    (trusting 5, .command "a".toList (.drop (some "AUTH".toList) (some "second".toList) []))]

/-- The code that registered the nick registers it once more. -/
theorem codeReused_not_honest : ¬ Along (audited authConfig) (HonestStep authConfig)
    (World.empty, Ledger.empty) (codeReused ++
      [(trusting 6, .command "a".toList
        (.register ⟨some "AUTH".toList, some "first".toList, false, true, true⟩ []))]) := by
  intro h
  have hlast := ((along_append _ _ _).mp h).2.1.once
  have hused : ((honoured authConfig (codeReused.foldl (audited authConfig)
      (World.empty, Ledger.empty)).1 (trusting 6, .command "a".toList
        (.register ⟨some "AUTH".toList, some "first".toList, false, true, true⟩ []))).any fun r ↦
      decide (r.authId ∈ (codeReused.foldl (audited authConfig)
        (World.empty, Ledger.empty)).2.used)) = true := by
    decide +kernel
  obtain ⟨r, hr, hmem⟩ := (Option.any_eq_true ..).mp hused
  exact hlast r hr (of_decide_eq_true hmem)

end Honest

end BlitzedServices.NickServ
