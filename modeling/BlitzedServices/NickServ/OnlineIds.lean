import BlitzedServices.NickServ.Links

/-!
# The ids of online users

The record of a user holds the id of the nick he is using and that of its master, as they were when he
took the nick. Commands of other users and the expiry change the nicks under it, and most of them
refresh no record: LINK not even that of the user who gives it.

`coherentIds_run` says under which conditions on the messages of a run all records are right in every
state of it.
-/

set_option autoImplicit false
set_option relaxedAutoImplicit false

namespace BlitzedServices.NickServ

open Lib Lib.SqlText Mysql ChanServ

/-! ### What should hold -/

/-- The ids of each user are those of his nick and its master, 0 if it is not registered. -/
def CoherentIds (w : World) : Prop :=
  ∀ u ∈ w.users, u.realId = mysqlFindnick w.db u.nick ∧
    u.nickId = if u.realId ≠ 0 then mysqlGetlink w.db u.realId else 0

instance (w : World) : Decidable (CoherentIds w) :=
  inferInstanceAs (Decidable (∀ u ∈ w.users, _))

/-! ### Coherent registries -/

/-- The master of a nick, 0 for none. -/
def masterOf (nicks : List (Entry CString)) (id : ℕ) : ℕ :=
  if id ≠ 0 then Entry.master nicks id else 0

/-- The ids are those of the name. -/
def UserIds.Ok (nicks : List (Entry CString)) (v : UserIds) : Prop :=
  v.realId = Entry.findId nicks v.name ∧ v.nickId = masterOf nicks v.realId

/-- Users and their names are distinct, and the ids of each are those of his name. -/
structure Coherent (r : Registry) : Prop where
  uids : (r.users.map UserIds.uid).Nodup
  names : (r.users.map UserIds.name).Nodup
  lt : ∀ v ∈ r.users, v.uid < r.nextUid
  short : ∀ v ∈ r.users, v.name.length < NICKMAX
  ok : ∀ v ∈ r.users, v.Ok r.nicks

section Users

variable {r : Registry}

theorem Registry.mem_modifyUser {f : UserIds → UserIds} {uid : ℕ} {v' : UserIds} :
    v' ∈ (r.modifyUser f uid).users ↔
      ∃ v ∈ r.users, (if v.uid = uid then f v else v) = v' :=
  List.mem_map

theorem Coherent.eq_of_uid (h : Coherent r) {v v' : UserIds} (hv : v ∈ r.users)
    (hv' : v' ∈ r.users) (heq : v.uid = v'.uid) : v = v' :=
  List.inj_on_of_nodup_map h.uids hv hv' heq

theorem Coherent.eq_of_name (h : Coherent r) {v v' : UserIds} (hv : v ∈ r.users)
    (hv' : v' ∈ r.users) (heq : v.name = v'.name) : v = v' :=
  List.inj_on_of_nodup_map h.names hv hv' heq

theorem Coherent.sublist (h : Coherent r) {r' : Registry} (hnicks : r'.nicks = r.nicks)
    (husers : r'.users.Sublist r.users) (hnext : r'.nextUid = r.nextUid) : Coherent r' where
  uids := (husers.map _).nodup h.uids
  names := (husers.map _).nodup h.names
  lt v hv := hnext ▸ h.lt v (husers.subset hv)
  short v hv := h.short v (husers.subset hv)
  ok v hv := hnicks ▸ h.ok v (husers.subset hv)

theorem Coherent.addUser (h : Coherent r) {v : UserIds} (huid : v.uid = r.nextUid)
    (hname : ∀ v' ∈ r.users, v'.name ≠ v.name) (hshort : v.name.length < NICKMAX)
    (hok : v.Ok r.nicks) : Coherent (r.addUser v) where
  uids := by
    refine List.nodup_cons.mpr ⟨fun hmem ↦ ?_, h.uids⟩
    obtain ⟨v', hv', heq⟩ := List.mem_map.mp hmem
    exact (h.lt v' hv').ne (heq.trans huid)
  names := by
    refine List.nodup_cons.mpr ⟨fun hmem ↦ ?_, h.names⟩
    obtain ⟨v', hv', heq⟩ := List.mem_map.mp hmem
    exact hname v' hv' heq
  lt v' hv' := by
    rcases List.mem_cons.mp hv' with rfl | hv'
    · exact huid ▸ Nat.lt_succ_self _
    · exact (h.lt v' hv').trans (Nat.lt_succ_self _)
  short v' hv' := by
    rcases List.mem_cons.mp hv' with rfl | hv'
    · exact hshort
    · exact h.short v' hv'
  ok v' hv' := by
    rcases List.mem_cons.mp hv' with rfl | hv'
    · exact hok
    · exact h.ok v' hv'

theorem map_modify {β : Type} {g : UserIds → β} {f : UserIds → UserIds} (hf : ∀ v, g (f v) = g v)
    (uid : ℕ) (users : List UserIds) :
    (users.map fun v ↦ if v.uid = uid then f v else v).map g = users.map g := by
  rw [List.map_map]
  refine List.map_congr_left fun v _ ↦ ?_
  rw [Function.comp_apply]
  split_ifs
  · exact hf v
  · rfl

/-- One user gets other ids while the nicks change: his are right afterwards, and those of the others
stay right. -/
theorem Coherent.setIds (h : Coherent r) {nicks : List (Entry CString)} {next uid : ℕ}
    {f : UserIds → UserIds} (huid : ∀ v, (f v).uid = v.uid) (hname : ∀ v, (f v).name = v.name)
    (hok : ∀ v ∈ r.users, v.uid = uid → (f v).Ok nicks)
    (hothers : ∀ v ∈ r.users, v.uid ≠ uid → v.Ok nicks) :
    Coherent { r with
      nicks := nicks, nextNickId := next
      users := r.users.map fun v ↦ if v.uid = uid then f v else v } where
  uids := map_modify huid uid r.users ▸ h.uids
  names := map_modify hname uid r.users ▸ h.names
  lt v' hv' := by
    obtain ⟨v, hv, rfl⟩ := List.mem_map.mp hv'
    split_ifs
    · exact huid v ▸ h.lt v hv
    · exact h.lt v hv
  short v' hv' := by
    obtain ⟨v, hv, rfl⟩ := List.mem_map.mp hv'
    split_ifs
    · exact hname v ▸ h.short v hv
    · exact h.short v hv
  ok v' hv' := by
    obtain ⟨v, hv, rfl⟩ := List.mem_map.mp hv'
    split_ifs with hv''
    · exact hok v hv hv''
    · exact hothers v hv hv''

/-- A user takes a name that no other has. -/
theorem Coherent.rename (h : Coherent r) {uid realId nickId : ℕ} {name : CString}
    (hname : ∀ v ∈ r.users, v.uid ≠ uid → v.name ≠ name) (hshort : name.length < NICKMAX)
    (hok : realId = Entry.findId r.nicks name ∧ nickId = masterOf r.nicks realId) :
    Coherent (r.modifyUser (fun v ↦ { v with name := name, realId := realId, nickId := nickId })
      uid) where
  uids := map_modify (g := UserIds.uid)
    (f := fun v ↦ { v with name := name, realId := realId, nickId := nickId }) (fun _ ↦ rfl) uid
    r.users ▸ h.uids
  names := by
    rw [Registry.modifyUser, List.map_map]
    refine List.Nodup.map_on (fun v hv v' hv' heq ↦ ?_) (List.Nodup.of_map _ h.uids)
    rw [Function.comp_apply, Function.comp_apply] at heq
    split_ifs at heq with huid huid' huid'
    · exact h.eq_of_uid hv hv' (huid.trans huid'.symm)
    · exact absurd heq.symm (hname v' hv' huid')
    · exact absurd heq (hname v hv huid)
    · exact h.eq_of_name hv hv' heq
  lt v' hv' := by
    obtain ⟨v, hv, rfl⟩ := List.mem_map.mp hv'
    split_ifs
    · exact h.lt v hv
    · exact h.lt v hv
  short v' hv' := by
    obtain ⟨v, hv, rfl⟩ := List.mem_map.mp hv'
    split_ifs
    · exact hshort
    · exact h.short v hv
  ok v' hv' := by
    obtain ⟨v, hv, rfl⟩ := List.mem_map.mp hv'
    split_ifs
    · exact hok
    · exact h.ok v hv

end Users

/-! ### Ids that stay right -/

section Ok

variable {nicks : List (Entry CString)} {next : ℕ} {v : UserIds}

theorem UserIds.Ok.insert (hv : v.Ok nicks) (h : Entry.Sound nicks next) {name : CString}
    (hfree : ∀ e ∈ nicks, e.name ≠ name) (hname : v.name ≠ name) :
    v.Ok (nicks ++ [⟨next, name, 0⟩]) := by
  refine ⟨?_, ?_⟩
  · rw [Entry.findId_insert nicks hfree, if_neg hname]
    exact hv.1
  · rw [hv.2, masterOf, masterOf]
    split_ifs with hid
    · have hne : v.realId ≠ next := by
        rw [hv.1] at hid ⊢
        obtain ⟨e, he, -, heid⟩ := Entry.exists_of_findId_ne_zero hid
        exact heid ▸ (h.lt e he).ne
      rw [Entry.master_insert nicks next 0 name hne]
    · rfl

/-- The user of a new nick. -/
theorem UserIds.ok_of_insert (h : Entry.Sound nicks next) (hpos : 0 < next)
    (hfree : ∀ e ∈ nicks, e.name ≠ v.name) (hreal : v.realId = next) (hnick : v.nickId = next) :
    v.Ok (nicks ++ [⟨next, v.name, 0⟩]) := by
  have hmem : (⟨next, v.name, 0⟩ : Entry CString) ∈ nicks ++ [⟨next, v.name, 0⟩] :=
    List.mem_append_right _ (List.mem_singleton_self _)
  refine ⟨?_, ?_⟩
  · rw [Entry.findId_insert nicks hfree, if_pos rfl, hreal]
  · rw [hnick, hreal, masterOf, if_pos hpos.ne']
    exact ((h.insert hfree hpos 0).master_eq hmem).symm

theorem UserIds.Ok.remove (hv : v.Ok nicks) (h : Entry.Sound nicks next) {id : ℕ}
    (hreal : v.realId ≠ id) (hnick : v.nickId ≠ id) : v.Ok (Entry.remove nicks id) := by
  refine ⟨?_, ?_⟩
  · rw [h.findId_remove, if_neg (hv.1 ▸ hreal)]
    exact hv.1
  · have hmaster := hv.2
    rw [masterOf] at hmaster ⊢
    split_ifs at hmaster ⊢ with hid
    · have hfound := hid
      rw [hv.1] at hfound
      obtain ⟨e, he, -, heid⟩ := Entry.exists_of_findId_ne_zero hfound
      rw [← hv.1] at heid
      have hkept := h.master_remove he (heid ▸ hreal)
      rw [heid, ← hmaster, if_neg hnick] at hkept
      exact hkept.symm
    · exact hmaster

/-- The user of a nick that is deleted. -/
theorem UserIds.ok_of_remove (h : Entry.Sound nicks next) (hreal : v.realId = 0)
    (hnick : v.nickId = 0) : v.Ok (Entry.remove nicks (Entry.findId nicks v.name)) := by
  refine ⟨?_, ?_⟩
  · rw [h.findId_remove, if_pos rfl, hreal]
  · rw [hnick, hreal]
    rfl

theorem UserIds.Ok.unlink (hv : v.Ok nicks) {id : ℕ} (hreal : v.realId ≠ id) :
    v.Ok (Entry.relink nicks id 0) := by
  refine ⟨?_, ?_⟩
  · rw [Entry.findId_relink]
    exact hv.1
  · rw [hv.2, masterOf, masterOf, Entry.master_relink_of_ne nicks hreal]

/-- The user of a nick that is not linked any more. -/
theorem UserIds.ok_of_unlink (h : Entry.Sound nicks next) (hv : v.Ok nicks)
    (hid : v.realId ≠ 0) : UserIds.Ok (Entry.relink nicks v.realId 0) { v with nickId := v.realId } := by
  refine ⟨?_, ?_⟩
  · rw [Entry.findId_relink]
    exact hv.1
  · have hfound := hid
    rw [hv.1] at hfound
    obtain ⟨e, he, -, heid⟩ := Entry.exists_of_findId_ne_zero hfound
    rw [← hv.1] at heid
    have hmem : (if e.id = v.realId then { e with link := 0 } else e) ∈
        Entry.relink nicks v.realId 0 := Entry.mem_relink.mpr ⟨e, he, rfl⟩
    rw [if_pos heid] at hmem
    have hmaster := (h.relink v.realId 0).master_eq hmem
    rw [masterOf, if_pos hid, ← heid]
    rw [← heid] at hmaster
    exact hmaster.symm

end Ok

/-! ### The condition -/

/-- What a command by the user `u` must meet: it is not an accepted LINK, it unlinks and forbids nicks
that nobody is using, and it deletes nicks that are the master of no user but the one who is using
them. -/
def CommandMeets (conf : Config) (env : Env) (u : User) (w : World) : Command → Prop
  | .link nick pass => ¬ LinkAccepted conf env u nick pass w
  | .unlink (some nick) pass => ∀ ni, mysqlFindnickinfo w.db nick = some ni → ni.linkId ≠ 0 →
      UnlinkAccepted conf env u ni pass w → ∀ v ∈ w.users, v.realId ≠ ni.nickId
  | .drop (some nick) authcode _ =>
      if sameName nick "AUTH".toList then
        ∀ code, authcode = some code → dropCoded u code w = true → u.realId ≠ 0 →
          ∀ v ∈ w.users, v.uid ≠ u.uid → v.nickId ≠ u.realId
      else DropAccepted conf env u nick w →
        ∀ v ∈ w.users, v.nickId = mysqlFindnick w.db nick → v.realId = mysqlFindnick w.db nick
  | .forbid (some nick) => ForbidAccepted conf env u nick w →
      ∀ v ∈ w.users, foldName v.nick ≠ foldName (nick.take NICKMAX) ∧
        (mysqlFindnick w.db nick ≠ 0 → v.nickId ≠ mysqlFindnick w.db nick)
  | _ => True

/-- What a message must meet. The server names users by nicks that are shorter than `NICKMAX` and that
nobody else is using; the rest is about commands and the expiry. -/
def IdsMeet (conf : Config) (w : World) (msg : Env × Message) : Prop :=
  match msg with
  | (_, .connect nick _ _) => nick.length < NICKMAX ∧ finduser w nick = none
  | (_, .nick source nick) => nick.length < NICKMAX ∧
      ∀ v, finduser w nick = some v → sameName nick source = true
  | (env, .command source cmd) =>
    ∀ u, finduser w source = some u → CommandMeets conf env u w cmd
  | (_, .expireNicks grace old) =>
    ∀ v ∈ w.users, ¬ Expires conf grace old w v.realId ∧ ¬ Expires conf grace old w v.nickId
  | _ => True

/-! ### Commands -/

section Commands

variable {w w₁ w' : World}

theorem exists_user {p : UserIds → Prop} (h : ∀ u ∈ w.users, p u.ids) :
    ∀ v ∈ w.registry.users, p v :=
  List.forall_mem_map.mpr h

theorem mem_of_finduser {nick : CString} {u : User} (h : finduser w nick = some u) :
    u ∈ w.users ∧ foldName u.nick = foldName nick := by
  have hname := List.find?_some h
  exact ⟨List.mem_of_find?_eq_some h, sameName_iff.mp hname⟩

theorem Coherent.calm (h : Coherent w.registry) (hc : Calm w w') : Coherent w'.registry :=
  h.sublist hc.nicks hc.users hc.nextUid

theorem coherent_quiet (h : Coherent w.registry) (hq : Quiet w w') : Coherent w'.registry := by
  rw [hq.registry]
  exact h

/-- The codes do not matter. -/
theorem Coherent.does_codes (h : Coherent w.registry) {f : Registry → Registry}
    (hd : Does (fun r r' ↦ r' = f r) w w') (halive : w'.alive = true)
    (hnicks : ∀ r, (f r).nicks = r.nicks := by exact fun _ ↦ rfl)
    (husers : ∀ r, (f r).users = r.users := by exact fun _ ↦ rfl)
    (hnext : ∀ r, (f r).nextUid = r.nextUid := by exact fun _ ↦ rfl) : Coherent w'.registry := by
  rw [hd.of_alive halive]
  exact h.sublist (hnicks _) (by rw [husers]) (hnext _)

/-- A registered user is the first with his name. -/
theorem Coherent.ids_eq (h : Coherent w.registry) {u : User} (hu : u ∈ w.users) {v : UserIds}
    (hv : v ∈ w.registry.users) (huid : v.uid = u.uid) : v = u.ids :=
  h.eq_of_uid hv (List.mem_map_of_mem hu) huid

/-- Users of one nick are the same. -/
theorem Coherent.eq_of_realId {r : Registry} (h : Coherent r) (hnum : Numbered r) {v v' : UserIds}
    (hv : v ∈ r.users) (hv' : v' ∈ r.users) (hid : v.realId ≠ 0) (heq : v.realId = v'.realId) :
    v' = v := by
  have hreal := (h.ok v hv).1
  have hreal' := (h.ok v' hv').1
  obtain ⟨e, he, hname, heid⟩ := Entry.exists_of_findId_ne_zero (hreal ▸ hid)
  obtain ⟨e', he', hname', heid'⟩ := Entry.exists_of_findId_ne_zero (hreal' ▸ heq ▸ hid)
  have hsame : e = e' := hnum.sound.eq_of_id_eq he he'
    (heid.trans (hreal.symm.trans (heq.trans (hreal'.trans heid'.symm))))
  exact h.eq_of_name hv' hv (hname' ▸ hsame ▸ hname)

theorem coherent_register (hnum : Numbered w.registry) (h : Coherent w.registry) {u : User}
    (hu : u ∈ w.users) (conf : Config) (env : Env) (words : RegisterWords) (code : CString)
    (halive : (doRegister conf env u words code w).alive = true) :
    Coherent (doRegister conf env u words code w).registry := by
  rcases doRegister_cases conf env u words code w with hquiet | ⟨-, _, hpost⟩ | ⟨email, heq⟩
  · exact coherent_quiet h hquiet
  · exact h.does_codes hpost halive
  · obtain ⟨w₁, hinsert, hids⟩ := registerNick_does conf env u email w
    rw [heq] at halive ⊢
    obtain ⟨hfree, hnicks⟩ := hinsert.of_alive (hids.alive halive)
    have hshort : u.nick.length < NICKMAX := by
      have := h.short u.ids (List.mem_map_of_mem hu)
      rwa [User.ids, foldName, List.length_map] at this
    have hname : strscpy u.nick NICKMAX = u.nick :=
      List.take_of_length_le (Nat.le_sub_one_of_lt hshort)
    rw [hname] at hfree hnicks
    rw [hids.of_alive halive, hnicks]
    refine h.setIds (fun _ ↦ rfl) (fun _ ↦ rfl) (fun v hv huid ↦ ?_) fun v hv huid ↦ ?_
    · rw [h.ids_eq hu hv huid]
      exact UserIds.ok_of_insert (v := u.ids.withIds w.nextNickId w.nextNickId) hnum.sound hnum.pos
        hfree rfl rfl
    · refine (h.ok v hv).insert hnum.sound hfree fun hsame ↦ huid ?_
      rw [h.eq_of_name hv (List.mem_map_of_mem hu) hsame]
      rfl

theorem coherent_dropAuth (hnum : Numbered w.registry) (h : Coherent w.registry) {u : User}
    (hu : u ∈ w.users) (env : Env) (authcode : Option CString)
    (hok : ∀ code, authcode = some code → dropCoded u code w = true → u.realId ≠ 0 →
      ∀ v ∈ w.users, v.uid ≠ u.uid → v.nickId ≠ u.realId)
    (halive : (doDropAuth env u authcode w).alive = true) :
    Coherent (doDropAuth env u authcode w).registry := by
  by_cases hcode : ∀ code, authcode = some code → dropCoded u code w = false
  · exact coherent_quiet h (doDropAuth_quiet env u hcode)
  · push Not at hcode
    obtain ⟨code, rfl, hcoded⟩ := hcode
    have hvalid := Bool.ne_false_iff.mp hcoded
    obtain ⟨w₁, w₂, hids, hremove, hcodes⟩ := doDropAuth_does env u hvalid
    have hmid := hcodes.alive halive
    refine Coherent.does_codes ?_ hcodes halive
    rw [hremove.of_alive hmid, hids.of_alive (hremove.alive hmid)]
    have hreal : u.realId ≠ 0 := by
      intro hzero
      rw [doDropAuth_dead hvalid fun r hr ↦ ?_] at halive
      · cases halive
      · rw [hzero]
        exact (hnum.sound.pos _ (List.mem_map_of_mem hr)).ne'
    refine h.setIds (fun _ ↦ rfl) (fun _ ↦ rfl) (fun v hv huid ↦ ?_) fun v hv huid ↦ ?_
    · have hfind := (h.ok u.ids (List.mem_map_of_mem hu)).1
      rw [h.ids_eq hu hv huid, show u.realId = _ from hfind]
      exact UserIds.ok_of_remove (v := u.ids.withIds 0 0) hnum.sound rfl rfl
    · have hnick : v.nickId ≠ u.realId := by
        obtain ⟨v, hv', rfl⟩ := List.mem_map.mp hv
        exact hok code rfl hvalid hreal v hv' huid
      refine (h.ok v hv).remove hnum.sound (fun hsame ↦ huid ?_) hnick
      rw [h.eq_of_realId hnum (List.mem_map_of_mem hu) hv hreal hsame.symm]
      rfl

/-- The user of a nick has its name. -/
theorem Coherent.name_of_realId {r : Registry} (h : Coherent r) (hnum : Numbered r) {v : UserIds}
    (hv : v ∈ r.users) {name : CString} (hid : Entry.findId r.nicks name ≠ 0)
    (heq : v.realId = Entry.findId r.nicks name) : v.name = name := by
  have hreal := (h.ok v hv).1
  exact hnum.sound.findId_inj (hreal ▸ heq ▸ hid) (hreal.symm.trans heq)

theorem name_ne_of_finduser {nick : CString} (h : finduser w nick = none) :
    ∀ v ∈ w.registry.users, v.name ≠ foldName nick :=
  exists_user fun u hu hname ↦ List.find?_eq_none.mp h u hu (sameName_iff.mpr hname)

/-- The nicks change, and the ids of all users stay right. -/
theorem Coherent.withNicks {r : Registry} (h : Coherent r) {nicks : List (Entry CString)} (next : ℕ)
    (hok : ∀ v ∈ r.users, v.Ok nicks) : Coherent { r with nicks := nicks, nextNickId := next } :=
  ⟨h.uids, h.names, h.lt, h.short, hok⟩

theorem coherent_dropNick (hnum : Numbered w.registry) (h : Coherent w.registry) (env : Env)
    (u : User) {nick : CString} {w₁ : World} (hquiet : Quiet w w₁) (hid : mysqlFindnick w.db nick ≠ 0)
    (hok : ∀ v ∈ w.users, v.nickId = mysqlFindnick w.db nick → v.realId = mysqlFindnick w.db nick)
    (halive : (dropNick env u nick (mysqlFindnick w.db nick) w₁).alive = true) :
    Coherent (dropNick env u nick (mysqlFindnick w.db nick) w₁).registry := by
  have hfind := mysqlFindnick_eq hnum.sound nick
  have hmaster := exists_user (p := fun v ↦ v.nickId = mysqlFindnick w.db nick →
    v.realId = mysqlFindnick w.db nick) hok
  have hother : ∀ v ∈ w.registry.users, v.name ≠ foldName nick →
      v.Ok (Entry.remove w.registry.nicks (mysqlFindnick w.db nick)) := by
    intro v hv hname
    have hreal : v.realId ≠ mysqlFindnick w.db nick := fun hsame ↦
      hname (h.name_of_realId hnum hv (hfind ▸ hid) (hsame.trans hfind))
    exact (h.ok v hv).remove hnum.sound hreal fun hsame ↦ hreal (hmaster v hv hsame)
  obtain ⟨w₂, hremove, hfound, hnone⟩ := dropNick_does env u nick (mysqlFindnick w.db nick) w₁
  cases huser : finduser w₂ nick with
  | none =>
    have hlast := hnone huser
    have hreg := hremove.of_alive (hlast.alive halive)
    rw [hquiet.registry] at hreg
    rw [hlast.registry, hreg]
    refine h.withNicks _ fun v hv ↦ hother v hv (name_ne_of_finduser huser v ?_)
    rw [hreg]
    exact hv
  | some u₂ =>
    have hlast := hfound u₂ huser
    have hreg := hremove.of_alive (hlast.alive halive)
    rw [hquiet.registry] at hreg
    rw [hlast.of_alive halive, hreg]
    obtain ⟨hmem, hname⟩ := mem_of_finduser huser
    have hu : u₂.ids ∈ w.registry.users := by
      have hmem := List.mem_map_of_mem (f := User.ids) hmem
      change u₂.ids ∈ w₂.registry.users at hmem
      rwa [hreg] at hmem
    refine h.setIds (fun _ ↦ rfl) (fun _ ↦ rfl) (fun v hv huid ↦ ?_) fun v hv huid ↦ ?_
    · rw [h.eq_of_uid hv hu huid, hfind, ← hname]
      exact UserIds.ok_of_remove (v := u₂.ids.withIds 0 0) hnum.sound rfl rfl
    · refine hother v hv fun hsame ↦ huid ?_
      rw [h.eq_of_name hv hu (hsame.trans hname.symm)]
      rfl

theorem coherent_drop (hnum : Numbered w.registry) (h : Coherent w.registry) {u : User}
    (hu : u ∈ w.users) (conf : Config) (env : Env) (nick authcode : Option CString) (code : CString)
    (hok : CommandMeets conf env u w (.drop nick authcode code))
    (halive : (doDrop conf env u nick authcode code w).alive = true) :
    Coherent (doDrop conf env u nick authcode code w).registry := by
  rcases doDrop_cases conf env u nick authcode code w with
    hquiet | ⟨-, -, -, hpost⟩ | ⟨nick', rfl, hauth, heq⟩ |
    ⟨nick', rfl, hauth, haccepted, w₁, hquiet, heq⟩
  · exact coherent_quiet h hquiet
  · exact h.does_codes hpost halive
  · rw [CommandMeets, if_pos hauth] at hok
    rw [heq] at halive ⊢
    exact coherent_dropAuth hnum h hu env authcode hok halive
  · rw [CommandMeets, if_neg (by rw [hauth]; exact Bool.false_ne_true)] at hok
    rw [heq] at halive ⊢
    exact coherent_dropNick hnum h env u hquiet haccepted.2.1 (hok haccepted) halive

theorem coherent_sendpass (h : Coherent w.registry) {u : User} (conf : Config) (env : Env)
    (nick authcode : Option CString) (code : CString)
    (halive : (doSendpass conf env u nick authcode code w).alive = true) :
    Coherent (doSendpass conf env u nick authcode code w).registry := by
  rcases doSendpass_cases conf env u nick authcode code w with
    hquiet | ⟨_, _, _, -, -, -, -, -, hcodes⟩ | ⟨_, -, -, -, hpost⟩
  · exact coherent_quiet h hquiet
  · exact h.does_codes hcodes halive
  · exact h.does_codes hpost halive

theorem coherent_unlink (hnum : Numbered w.registry) (h : Coherent w.registry) {u : User}
    (hu : u ∈ w.users) (conf : Config) (env : Env) (nick pass : Option CString)
    (hok : CommandMeets conf env u w (.unlink nick pass))
    (halive : (doUnlink conf env u nick pass w).alive = true) :
    Coherent (doUnlink conf env u nick pass w).registry := by
  rcases doUnlink_cases conf env u nick pass w with hcalm |
    ⟨nick', ni, rfl, hni, hlink, haccepted, w₁, hquiet, hdelink⟩ |
    ⟨ni, rfl, hni, -, w₁, w₂, hquiet, hids, hunlink⟩
  · exact h.calm hcalm
  · have hfree := exists_user (p := fun v ↦ v.realId ≠ ni.nickId) (hok ni hni hlink haccepted)
    have hreg := (delink_does_or env.now ni.nickId w₁).of_alive (hdelink.alive halive)
    rw [hdelink.registry]
    rw [hquiet.registry] at hreg
    rcases hreg with hreg | hreg
    · rw [hreg]
      exact h.withNicks _ fun v hv ↦ (h.ok v hv).unlink (hfree v hv)
    · rw [hreg]
      exact h
  · have hreal : u.realId ≠ 0 := by
      have hmem := List.mem_map_of_mem (f := nickEntry) (List.mem_of_find?_eq_some hni)
      have hid : ni.nickId = u.realId := by simpa using List.find?_some hni
      exact hid ▸ (hnum.sound.pos _ hmem).ne'
    rw [hunlink.of_alive halive, hids.of_alive (hunlink.alive halive), hquiet.registry]
    refine h.setIds (fun _ ↦ rfl) (fun _ ↦ rfl) (fun v hv huid ↦ ?_) fun v hv huid ↦ ?_
    · rw [h.ids_eq hu hv huid]
      exact UserIds.ok_of_unlink hnum.sound (h.ok u.ids (List.mem_map_of_mem hu)) hreal
    · refine (h.ok v hv).unlink fun hsame ↦ huid ?_
      rw [h.eq_of_realId hnum (List.mem_map_of_mem hu) hv hreal hsame.symm]
      rfl

theorem coherent_forbid (hnum : Numbered w.registry) (h : Coherent w.registry) {u : User}
    (conf : Config) (env : Env) (nick : Option CString)
    (hok : CommandMeets conf env u w (.forbid nick))
    (halive : (doForbid conf env u nick w).alive = true) :
    Coherent (doForbid conf env u nick w).registry := by
  rcases doForbid_cases conf env u nick w with
    hquiet | ⟨nick', w₁, w₂, rfl, haccepted, hquiet, hdel, row, columns, hlink, hrow, hinsert⟩
  · exact coherent_quiet h hquiet
  · have hfree := exists_user (p := fun v ↦ v.name ≠ foldName (nick'.take NICKMAX) ∧
      (mysqlFindnick w.db nick' ≠ 0 → v.nickId ≠ mysqlFindnick w.db nick')) (hok haccepted)
    have hmid : Numbered w₂.registry ∧ Coherent w₂.registry ∧
        w₂.registry.users = w.registry.users := by
      have hmid := (insertNick_does row columns w₂ hlink rfl).alive (hinsert.alive halive)
      rw [hdel] at hmid ⊢
      split_ifs at hmid ⊢ with hid
      · rw [(delnick_does _ w₁).of_alive hmid, hquiet.registry]
        refine ⟨kept_numbered.remove _ _ hnum, h.withNicks _ fun v hv ↦ ?_, rfl⟩
        refine (h.ok v hv).remove hnum.sound (fun hsame ↦ ?_) ((hfree v hv).2 hid)
        have hfind := mysqlFindnick_eq hnum.sound nick'
        have hname := h.name_of_realId hnum hv (hfind ▸ hid) (hsame.trans hfind)
        have hshort := h.short v hv
        rw [hname, foldName, List.length_map] at hshort
        exact (hfree v hv).1 (by rw [hname, List.take_of_length_le hshort.le])
      · rw [hquiet.registry]
        exact ⟨hnum, h, rfl⟩
    obtain ⟨hnum₂, h₂, husers⟩ := hmid
    obtain ⟨hname, hreg⟩ := 
      (insertNick_does row columns w₂ hlink (congrArg foldName hrow)).of_alive (hinsert.alive halive)
    rw [hinsert.registry, hreg]
    refine h₂.withNicks _ fun v hv ↦ (h₂.ok v hv).insert hnum₂.sound hname ?_
    exact (hfree v (husers ▸ hv)).1

theorem coherent_command (hnum : Numbered w.registry) (h : Coherent w.registry) {u : User}
    (hu : u ∈ w.users) (conf : Config) (env : Env) (cmd : Command)
    (hok : CommandMeets conf env u w cmd) (halive : (doCommand conf env u w cmd).alive = true) :
    Coherent (doCommand conf env u w cmd).registry := by
  have hw := Calm.refl w
  cases cmd with
  | register words code => exact coherent_register hnum h hu conf env words code halive
  | identify pass => exact h.calm (hw.doIdentify conf env u pass)
  | drop nick authcode code => exact coherent_drop hnum h hu conf env nick authcode code hok halive
  | sendpass nick authcode code => exact coherent_sendpass h conf env nick authcode code halive
  | link nick pass => exact h.calm (doLink_calm hok)
  | unlink nick pass => exact coherent_unlink hnum h hu conf env nick pass hok halive
  | forbid nick => exact coherent_forbid hnum h conf env nick hok halive
  | suspend nick reason => exact h.calm (hw.doSuspend conf env u nick reason)
  | unsuspend nick => exact h.calm (hw.doUnsuspend conf env u nick)
  | set nick opt => exact h.calm (hw.doSet conf env u nick opt)
  | recover nick pass => exact h.calm (hw.doRecover conf env u nick pass)
  | release nick pass => exact h.calm (hw.doRelease conf env u nick pass)
  | ghost nick pass => exact h.calm (hw.doGhost conf env u nick pass)

end Commands

/-! ### Runs -/

section Runs

variable {w : World}

/-- The ids that a user gets are those of the nick. -/
theorem nickIds_eq (hnum : Numbered w.registry) (nick : CString) :
    (nickIds w.db nick).1 = Entry.findId w.registry.nicks (foldName nick) ∧
      (nickIds w.db nick).2 = masterOf w.registry.nicks (nickIds w.db nick).1 := by
  refine ⟨mysqlFindnick_eq hnum.sound nick, ?_⟩
  rw [nickIds, masterOf, mysqlGetlink_eq]
  rfl

theorem strscpy_nick {nick : CString} (h : nick.length < NICKMAX) : strscpy nick NICKMAX = nick :=
  List.take_of_length_le (Nat.le_sub_one_of_lt h)

theorem coherent_connect (hnum : Numbered w.registry) (h : Coherent w.registry) (conf : Config)
    (env : Env) {nick : CString} (username host : CString) (hlength : nick.length < NICKMAX)
    (hfree : finduser w nick = none) (halive : (doNickNew conf env nick username host w).alive = true) :
    Coherent (doNickNew conf env nick username host w).registry := by
  have hids := nickIds_eq hnum nick
  rw [(doNickNew_does conf env nick username host w).of_alive halive]
  refine h.addUser rfl (fun v hv ↦ ?_) ?_ ?_
  · rw [User.ids, newUser, strscpy_nick hlength]
    exact name_ne_of_finduser hfree v hv
  · rw [User.ids, newUser, strscpy_nick hlength, foldName, List.length_map]
    exact hlength
  · rw [User.ids, newUser, strscpy_nick hlength]
    exact hids

theorem coherent_nick (hnum : Numbered w.registry) (h : Coherent w.registry) (conf : Config)
    (env : Env) {source nick : CString} (hlength : nick.length < NICKMAX)
    (hfree : ∀ v, finduser w nick = some v → sameName nick source = true)
    (halive : (doNickChange conf env source nick w).alive = true) :
    Coherent (doNickChange conf env source nick w).registry := by
  cases huser : finduser w source with
  | none =>
    rw [doNickChange, huser]
    exact h
  | some u =>
    obtain ⟨hu, hsource⟩ := mem_of_finduser huser
    rw [(doNickChange_does huser).of_alive halive, strscpy_nick hlength]
    refine h.rename (fun v hv huid hname ↦ huid ?_) ?_ (nickIds_eq hnum nick)
    · -- the nick is in use, so it is that of the user himself
      cases hnick : finduser w nick with
      | none => exact absurd hname (name_ne_of_finduser hnick v hv)
      | some v' =>
        have hsame := sameName_iff.mp (hfree v' hnick)
        rw [h.eq_of_name hv (List.mem_map_of_mem hu) (hname.trans (hsame.trans hsource.symm))]
        rfl
    · rw [foldName, List.length_map]
      exact hlength

theorem coherent_expireNicks (hnum : Numbered w.registry) (h : Coherent w.registry)
    (conf : Config) (grace old : ℕ → Bool)
    (hok : ∀ v ∈ w.users, ¬ Expires conf grace old w v.realId ∧ ¬ Expires conf grace old w v.nickId)
    (halive : (expireNicks conf grace old w).alive = true) :
    Coherent (expireNicks conf grace old w).registry := by
  have hkept := exists_user (p := fun v ↦ ¬ Expires conf grace old w v.realId ∧
    ¬ Expires conf grace old w v.nickId) hok
  let p (w' : World) : Prop := Numbered w'.registry ∧ (w'.alive = true →
    Coherent w'.registry ∧ w'.registry.users = w.registry.users)
  have hstart : p w := ⟨hnum, fun _ ↦ ⟨h, rfl⟩⟩
  have hend : p (expireNicks conf grace old w) := by
    refine expireNicks_induct (p := p) (fun nickId w' hexpires hw' ↦ ?_) hstart
    refine ⟨kept_numbered.delnick nickId hw'.1, fun halive' ↦ ?_⟩
    have hdel := delnick_does nickId w'
    obtain ⟨hcoherent, husers⟩ := hw'.2 (hdel.alive halive')
    rw [hdel.of_alive halive']
    refine ⟨hcoherent.withNicks _ fun v hv ↦ ?_, husers⟩
    have hnot := hkept v (husers ▸ hv)
    exact (hcoherent.ok v hv).remove hw'.1.sound (fun hsame ↦ hnot.1 (hsame ▸ hexpires))
      fun hsame ↦ hnot.2 (hsame ▸ hexpires)
  exact (hend.2 halive).1

theorem coherent_nil {r : Registry} (h : r.users = []) : Coherent r := by
  constructor
  all_goals simp [h]

/-- A step that meets the condition. -/
theorem coherent_step (conf : Config) (msg : Env × Message) (hnum : Numbered w.registry)
    (h : w.alive = true → Coherent w.registry) (hok : IdsMeet conf w msg)
    (halive : (step conf w msg).alive = true) : Coherent (step conf w msg).registry := by
  obtain ⟨env, msg⟩ := msg
  have hw := Quiet.refl w
  cases msg with
  | connect nick username host =>
    have hcoherent := h ((doNickNew_does conf env nick username host w).alive halive)
    exact coherent_connect hnum hcoherent conf env username host hok.1 hok.2 halive
  | nick source nick =>
    refine coherent_nick hnum (h ?_) conf env hok.1 hok.2 halive
    change (doNickChange conf env source nick w).alive = true at halive
    cases huser : finduser w source with
    | none =>
      rw [doNickChange, huser] at halive
      exact halive
    | some u => exact (doNickChange_does huser).alive halive
  | quit nick =>
    have hcalm := (Calm.refl w).doQuit conf env nick
    exact (h (hcalm.alive halive)).calm hcalm
  | mode source nick modes =>
    have hquiet := hw.doUmode env source nick modes
    exact coherent_quiet (h (hquiet.alive halive)) hquiet
  | command source cmd =>
    rw [step] at halive ⊢
    cases huser : finduser w source with
    | none =>
      rw [huser] at halive
      exact h halive
    | some u =>
      rw [huser] at halive
      have hcoherent := h (alive_doCommand halive)
      exact coherent_command hnum hcoherent (mem_of_finduser huser).1 conf env cmd (hok u huser)
        halive
  | other db =>
    have hquiet := doOther_quiet env db w
    exact coherent_quiet (h (hquiet.alive halive)) hquiet
  | timeout t =>
    have hquiet := hw.doTimeout env t
    exact coherent_quiet (h (hquiet.alive halive)) hquiet
  | expireNicks grace old =>
    exact coherent_expireNicks hnum (h (alive_expireNicks halive)) conf grace old hok halive
  | expireNicksuspends expired =>
    have hquiet := hw.expireNicksuspends expired
    exact coherent_quiet (h (hquiet.alive halive)) hquiet
  | expireAuth =>
    have hcodes := expireAuth_does env.now w
    exact (h (hcodes.alive halive)).does_codes hcodes halive
  | restart =>
    rw [step, registry_nsInit]
    exact coherent_nil rfl

theorem coherentIds_of_coherent (hnum : Numbered w.registry) (h : Coherent w.registry) :
    CoherentIds w := by
  intro u hu
  obtain ⟨hreal, hnick⟩ := h.ok u.ids (List.mem_map_of_mem hu)
  refine ⟨hreal.trans (mysqlFindnick_eq hnum.sound u.nick).symm, ?_⟩
  rw [mysqlGetlink_eq]
  exact hnick

/-- In every state of a run whose messages meet the condition, the ids of all users are right. -/
theorem coherentIds_run (conf : Config) (msgs : List (Env × Message))
    (hok : Along (step conf) (IdsMeet conf) World.empty msgs)
    (halive : (run conf World.empty msgs).alive = true) :
    CoherentIds (run conf World.empty msgs) := by
  have hinv := hok.invariant
    (p := fun w : World ↦ Numbered w.registry ∧ (w.alive = true → Coherent w.registry))
    (fun w msg h hmeets ↦ ⟨numbered_step conf w msg h.1, coherent_step conf msg h.1 h.2 hmeets⟩)
    ⟨numbered_empty, fun _ ↦ coherent_nil rfl⟩
  exact coherentIds_of_coherent hinv.1 (hinv.2 halive)

theorem coherentIds_run_newNick : CoherentIds (run openConfig World.empty (newNick 1 "a")) := by
  refine coherentIds_run openConfig (newNick 1 "a") ⟨⟨by decide, rfl⟩, fun _ _ ↦ trivial, trivial⟩ ?_
  decide +kernel

/-- A LINK leaves the user's own record as it was. -/
theorem link_not_coherentIds :
    let w := run openConfig World.empty (newNick 1 "a" ++ newNick 2 "b" ++
      [(trusting 3, .command "a".toList (.link (some "b".toList) (some "pass".toList)))])
    w.alive = true ∧ ¬ CoherentIds w := by
  decide +kernel

end Runs

end BlitzedServices.NickServ
