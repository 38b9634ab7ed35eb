import BlitzedServices.NickServ.OnlineIds
import BlitzedServices.ChanServ.Access

/-!
# DROP with a code

The code that confirms a DROP is looked up under the name of the user's nick, but what is deleted is
the nick with his `real_id`. After the nick was deleted in another way the code is still there, and
`real_id` is 0, which is also the founder of a forbidden channel and the nick of a mask in an akick.

`doDropAuth_iff` says for which users and tables a valid code deletes the nick it was asked for, or
nothing if that nick is not registered.
-/

set_option autoImplicit false
set_option relaxedAutoImplicit false

namespace BlitzedServices.NickServ

open Lib Lib.SqlText Mysql ChanServ

/-! ### What should happen -/

/-- A nick was deleted: its row is gone, the other nicks stay, and the tables are as `mysql_delnick`
leaves them for that nick. -/
structure DeletesNick (r : NickRow) (db db' : Database) : Prop where
  gone : ∀ s ∈ db'.nick, s.nickId ≠ r.nickId
  others : ∀ s ∈ db.nick, s.nickId ≠ r.nickId →
    (if s.linkId = r.nickId then { s with linkId := 0 } else s) ∈ db'.nick
  tables : db' = mysqlDelnick db r.nickId

/-- No nick, channel, access or akick row is changed. -/
structure KeepsRows (db db' : Database) : Prop where
  nick : db'.nick = db.nick
  channel : db'.channel = db.channel
  nickaccess : db'.nickaccess = db.nickaccess
  chanaccess : db'.chanaccess = db.chanaccess
  akick : db'.akick = db.akick

/-- What a DROP with a valid code should do. -/
def DropAuthSpec (u : User) (db db' : Database) : Prop :=
  match mysqlFindnickinfo db u.nick with
  | some r => DeletesNick r db db'
  | none => KeepsRows db db'

/-- Nothing refers to a nick; the id 0 in a link or a successorship means none. -/
structure Unused (db : Database) (nickId : ℕ) : Prop where
  nick : ∀ r ∈ db.nick, r.nickId ≠ nickId ∧ (r.linkId = nickId → nickId = 0)
  channel : ∀ c ∈ db.channel, c.founder ≠ nickId ∧ (c.successor = nickId → nickId = 0)
  nickaccess : ∀ r ∈ db.nickaccess, r.nickId ≠ nickId
  chanaccess : ∀ r ∈ db.chanaccess, r.nickId ≠ nickId
  akick : ∀ r ∈ db.akick, r.nickId ≠ nickId

/-- The user's `realId` is that of his nick, or nothing refers to it if his nick is not registered. -/
def DropAuthMeets (u : User) (db : Database) : Prop :=
  match mysqlFindnickinfo db u.nick with
  | some r => u.realId = r.nickId
  | none => Unused db u.realId

/-! ### Deleting a nick that nothing refers to -/

section Unused

variable {db : Database} {nickId : ℕ}

theorem map_eq_self_iff {α : Type} {f : α → α} {l : List α} : l.map f = l ↔ ∀ a ∈ l, f a = a := by
  induction l with
  | nil => simp
  | cons a l ih => rw [List.map_cons, List.cons.injEq, ih, List.forall_mem_cons]

theorem unlink_eq_self_iff {r : NickRow} :
    (if r.linkId = nickId then { r with linkId := 0 } else r) = r ↔
      (r.linkId = nickId → nickId = 0) := by
  split_ifs with hlink
  · constructor
    · intro heq _
      exact hlink.symm.trans (congrArg NickRow.linkId heq).symm
    · intro hzero
      obtain ⟨id, nick, status, linkId, flags, channelmax⟩ := r
      simp only [NickRow.mk.injEq, true_and, and_true]
      exact (hlink.trans (hzero hlink)).symm
  · exact iff_of_true rfl fun h ↦ absurd h hlink

theorem unsucceed_eq_self_iff {c : ChannelRow} :
    (if c.successor = nickId then { c with successor := 0 } else c) = c ↔
      (c.successor = nickId → nickId = 0) := by
  split_ifs with hsuccessor
  · constructor
    · intro heq _
      exact hsuccessor.symm.trans (congrArg ChannelRow.successor heq).symm
    · intro hzero
      obtain ⟨id, name, founder, successor, flags⟩ := c
      simp only [ChannelRow.mk.injEq, true_and, and_true]
      exact (hsuccessor.trans (hzero hsuccessor)).symm
  · exact iff_of_true rfl fun h ↦ absurd h hsuccessor

theorem nick_mysqlDelnick_eq_iff :
    (mysqlDelnick db nickId).nick = db.nick ↔
      ∀ r ∈ db.nick, r.nickId ≠ nickId ∧ (r.linkId = nickId → nickId = 0) := by
  have hid (r : NickRow) :
      (if r.linkId = nickId then { r with linkId := 0 } else r).nickId = r.nickId := by
    split_ifs <;> rfl
  rw [nick_mysqlDelnick]
  constructor
  · intro heq
    have hall : ∀ r ∈ db.nick, r.nickId ≠ nickId := by
      intro r hr
      rw [← heq] at hr
      simpa using (List.mem_filter.mp hr).2
    rw [List.filter_eq_self.mpr, map_eq_self_iff] at heq
    · exact fun r hr ↦ ⟨hall r hr, unlink_eq_self_iff.mp (heq r hr)⟩
    · intro s hs
      obtain ⟨r, hr, rfl⟩ := List.mem_map.mp hs
      simpa [hid] using hall r hr
  · intro hall
    rw [map_eq_self_iff.mpr fun r hr ↦ unlink_eq_self_iff.mpr (hall r hr).2]
    exact List.filter_eq_self.mpr fun r hr ↦ by simpa using (hall r hr).1

/-- A nick that founded no channel passes none on. -/
theorem passChannels_eq_self (h : ∀ c ∈ db.channel, c.founder ≠ nickId) :
    passChannels db nickId = db := by
  have hsucceeded : succeeded db nickId = [] :=
    List.filter_eq_nil_iff.mpr fun c hc hkeep ↦ h c hc (of_decide_eq_true hkeep).1
  have hunsucceeded : unsucceeded db nickId = [] :=
    List.filter_eq_nil_iff.mpr fun c hc hkeep ↦ h c hc (of_decide_eq_true hkeep).1
  rw [passChannels, hsucceeded]
  simp only [succeedLoop, hunsucceeded]
  rfl

/-- A channel of the nick does not stay as it is. -/
theorem founder_ne_of_channel_eq (hkeys : Keys db)
    (heq : (csMysqlRemoveNick db nickId).channel = db.channel) :
    ∀ c ∈ db.channel, c.founder ≠ nickId := by
  obtain ⟨done, moved, rest, db₁, h, hpass⟩ := exists_passChannels hkeys nickId
  have hkept : ∀ c ∈ db.channel, c.channelId ∉ droppedIds nickId db₁ done := by
    intro c hc hdropped
    have hgone := (h.gone_iff hkeys hc).mpr hdropped
    rw [← hpass] at hgone
    exact (forall_channel_csMysqlRemoveNick (p := fun id _ ↦ id ≠ c.channelId)).mpr hgone c
      (heq ▸ hc) rfl
  have hnone : moved = none := by
    cases hmoved : moved with
    | none => rfl
    | some c =>
      exfalso
      obtain ⟨hc, -, hsuccessor⟩ := mem_succeeded.mp (h.mem_moved hmoved)
      have hdone : c ∉ done := fun hdone ↦
        hkept c hc (List.mem_append_left _ (List.mem_map_of_mem hdone))
      have hrow := h.mem_channel hkeys hc hdone
      have hid := channelId_passOn moved c
      rw [passOn, if_pos hmoved] at hrow hid
      by_cases hown : c.successor = nickId ∧ (0 : ℕ) = 0
      · refine hkept c hc (List.mem_append_right _ ?_)
        exact hid ▸ List.mem_map_of_mem (mem_unsucceeded.mpr ⟨hrow, hown⟩)
      · have hfinal := h.mem_final_iff.mpr ⟨hrow, hown⟩
        rw [← hpass] at hfinal
        have hmem := mem_channel_csMysqlRemoveNick.mpr ⟨_, hfinal, rfl⟩
        rw [heq] at hmem
        have hsame := eq_of_channelId_eq hkeys hmem hc (by split_ifs <;> rfl)
        refine hsuccessor ?_
        rw [← hsame]
        split_ifs <;> rfl
  have hsucceeded : succeeded db nickId = done := by
    rw [h.split, h.reached hnone, hnone]
    simp
  intro c hc hfounder
  by_cases hsuccessor : c.successor = 0
  · have hdone : c ∉ done := fun hdone ↦
      hkept c hc (List.mem_append_left _ (List.mem_map_of_mem hdone))
    have hrow := h.mem_channel hkeys hc hdone
    rw [passOn, if_neg (by rw [hnone]; exact (Option.some_ne_none c).symm)] at hrow
    refine hkept c hc (List.mem_append_right _ ?_)
    exact List.mem_map_of_mem (mem_unsucceeded.mpr ⟨hrow, hfounder, hsuccessor⟩)
  · have hdone : c ∈ done := hsucceeded ▸ mem_succeeded.mpr ⟨hc, hfounder, hsuccessor⟩
    exact hkept c hc (List.mem_append_left _ (List.mem_map_of_mem hdone))

theorem channel_mysqlDelnick_eq_iff (hkeys : Keys db) :
    (mysqlDelnick db nickId).channel = db.channel ↔
      ∀ c ∈ db.channel, c.founder ≠ nickId ∧ (c.successor = nickId → nickId = 0) := by
  have hsuspend := channel_delNicksuspend db nickId
  have hchannel : (mysqlDelnick db nickId).channel =
      (csMysqlRemoveNick (delNicksuspend db nickId) nickId).channel := rfl
  rw [hchannel, ← hsuspend]
  constructor
  · intro heq
    have hfounder := founder_ne_of_channel_eq (keys_delNicksuspend hkeys nickId) heq
    rw [csMysqlRemoveNick, passChannels_eq_self hfounder] at heq
    exact fun c hc ↦ ⟨hfounder c hc, unsucceed_eq_self_iff.mp (map_eq_self_iff.mp heq c hc)⟩
  · intro hall
    rw [csMysqlRemoveNick, passChannels_eq_self fun c hc ↦ (hall c hc).1]
    exact map_eq_self_iff.mpr fun c hc ↦ unsucceed_eq_self_iff.mpr (hall c hc).2

/-- The other tables, for a nick that founded no channel. -/
theorem access_mysqlDelnick (h : ∀ c ∈ db.channel, c.founder ≠ nickId) :
    (mysqlDelnick db nickId).nickaccess = db.nickaccess.filter (·.nickId ≠ nickId) ∧
      (mysqlDelnick db nickId).chanaccess = db.chanaccess.filter (·.nickId ≠ nickId) ∧
      (mysqlDelnick db nickId).akick = db.akick.filter (·.nickId ≠ nickId) := by
  have hpass : passChannels (delNicksuspend db nickId) nickId = delNicksuspend db nickId :=
    passChannels_eq_self (by rw [channel_delNicksuspend]; exact h)
  have hsuspend : (delNicksuspend db nickId).nickaccess = db.nickaccess ∧
      (delNicksuspend db nickId).chanaccess = db.chanaccess ∧
      (delNicksuspend db nickId).akick = db.akick := by
    rw [delNicksuspend]
    split_ifs <;> exact ⟨rfl, rfl, rfl⟩
  rw [mysqlDelnick]
  simp only [mysqlDeleteNick, nsMysqlRemoveMemos, nsMysqlRemoveAccess, mysqlRemoveLinks,
    osMysqlRemoveNick, csMysqlRemoveNick, hpass, hsuspend]
  exact ⟨trivial, trivial, trivial⟩

theorem filter_id_eq_self_iff {α : Type} {key : α → ℕ} {l : List α} :
    (l.filter fun a ↦ key a ≠ nickId) = l ↔ ∀ a ∈ l, key a ≠ nickId := by
  rw [List.filter_eq_self]
  exact forall₂_congr fun a _ ↦ decide_eq_true_iff

/-- A deletion changes no row of these tables iff nothing refers to the nick. -/
theorem keepsRows_mysqlDelnick_iff (hkeys : Keys db) :
    KeepsRows db (mysqlDelnick db nickId) ↔ Unused db nickId := by
  constructor
  · intro h
    have hchannel := (channel_mysqlDelnick_eq_iff hkeys).mp h.channel
    obtain ⟨hnick, hchan, hakick⟩ := access_mysqlDelnick fun c hc ↦ (hchannel c hc).1
    exact ⟨nick_mysqlDelnick_eq_iff.mp h.nick, hchannel,
      filter_id_eq_self_iff.mp (hnick.symm.trans h.nickaccess),
      filter_id_eq_self_iff.mp (hchan.symm.trans h.chanaccess),
      filter_id_eq_self_iff.mp (hakick.symm.trans h.akick)⟩
  · intro h
    obtain ⟨hnick, hchan, hakick⟩ := access_mysqlDelnick fun c hc ↦ (h.channel c hc).1
    exact ⟨nick_mysqlDelnick_eq_iff.mpr h.nick, (channel_mysqlDelnick_eq_iff hkeys).mpr h.channel,
      hnick.trans (filter_id_eq_self_iff.mpr h.nickaccess),
      hchan.trans (filter_id_eq_self_iff.mpr h.chanaccess),
      hakick.trans (filter_id_eq_self_iff.mpr h.akick)⟩

/-- A deletion of one nick is that of another only if they are the same. -/
theorem deletesNick_mysqlDelnick_iff {r : NickRow} (hr : r ∈ db.nick) :
    DeletesNick r db (mysqlDelnick db nickId) ↔ nickId = r.nickId := by
  constructor
  · intro h
    by_contra hne
    have hrow : (if r.linkId = nickId then { r with linkId := 0 } else r) ∈
        (mysqlDelnick db nickId).nick := by
      rw [nick_mysqlDelnick, List.mem_filter, decide_eq_true_eq]
      refine ⟨List.mem_map_of_mem hr, ?_⟩
      split_ifs
      · exact Ne.symm hne
      · exact Ne.symm hne
    refine h.gone _ hrow ?_
    split_ifs <;> rfl
  · rintro rfl
    refine ⟨fun s hs ↦ ?_, fun s hs hne ↦ ?_, rfl⟩
    · rw [nick_mysqlDelnick] at hs
      simpa using (List.mem_filter.mp hs).2
    · rw [nick_mysqlDelnick, List.mem_filter, decide_eq_true_eq]
      refine ⟨List.mem_map_of_mem hs, ?_⟩
      split_ifs
      · exact hne
      · exact hne

end Unused

/-! ### DROP AUTH -/

theorem db_delnick {nickId : ℕ} {w : World} (h : w.alive = true) :
    (delnick nickId w).db = mysqlDelnick w.db nickId := by
  rw [delnick, World.act, if_pos h]

theorem alive_modifyUser (f : User → User) (uid : ℕ) (w : World) :
    (modifyUser f uid w).alive = w.alive :=
  World.act_cases (p := fun w' ↦ w'.alive = w.alive) rfl fun _ ↦ rfl

/-- The tables after a DROP with a valid code. -/
theorem db_doDropAuth {env : Env} {u : User} {authcode : CString} {w : World}
    (halive : w.alive = true) (hcode : dropCoded u authcode w = true) :
    (doDropAuth env u (some authcode) w).db = mysqlDelnick w.db u.realId := by
  have hdel : (delnick u.realId (modifyUser (fun u ↦ { u with realId := 0, nickId := 0 }) u.uid
      w)).db = mysqlDelnick w.db u.realId := by
    rw [db_delnick (by rw [alive_modifyUser]; exact halive), db_modifyUser]
  unfold doDropAuth
  dsimp only
  rw [dropCoded] at hcode
  rw [if_pos hcode, ← hdel]
  exact World.act_cases (p := fun w' ↦ w'.db = (delnick u.realId (modifyUser
    (fun u ↦ { u with realId := 0, nickId := 0 }) u.uid w)).db) rfl fun _ ↦ rfl

/-- A user asks for a code to drop his nick. -/
def codeRequested (nick : String) : List (Env × Message) :=
  newNick 2 nick ++ [(trusting 3, .command nick.toList (.drop none none "code".toList))]

/-- The user of the nick. -/
def requester (uid nickId : ℕ) (nick : String) : User where
  uid := uid
  nick := nick.toList
  username := "user".toList
  host := "host".toList
  realId := nickId
  nickId := nickId
  mySignon := 2
  servicesStamp := 0
  oper := false
  lastnickreg := 2

/-- A user asks for a code to drop his nick, and then a services admin drops it. -/
def codeOutlivesNick : World :=
  run openConfig World.empty (newNick 1 "root" ++ codeRequested "a" ++
    [(trusting 4, .mode "root".toList "root".toList "+o".toList),
      (trusting 5, .command "root".toList (.drop (some "a".toList) none []))])

/-- There are a forbidden channel, and a channel of `root` with an akick on a mask. -/
def withChannels : World :=
  step openConfig codeOutlivesNick (trusting 6, .other
    { codeOutlivesNick.db with
      channel := [⟨1, "#forbidden".toList, 0, 0, CI_VERBOTEN⟩, ⟨2, "#root".toList, 1, 0, 0#32⟩]
      akick := [⟨1, 2, 1, some "*!*@bad.host".toList, 0⟩] })

end BlitzedServices.NickServ
