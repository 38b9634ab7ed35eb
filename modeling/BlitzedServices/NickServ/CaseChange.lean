import BlitzedServices.NickServ.CacheCoherence

/-!
# Nick changes in case only

For `do_nick` a NICK that changes upper and lower case only is no real change. The user is cancelled all the
same, which clears the temporary bits of his nick, and then gets the status of the master of the nick: the one
that was just cleared when his nick is not linked, that of another nick when it is.

`caseChange_iff` says for every reachable state when he stays identified and recognized as he was. It compares
the statuses that `get_nick_status` reports, which come from the cache or from the row; `seenStatus` says from
which.
-/

set_option autoImplicit false
set_option relaxedAutoImplicit false

namespace BlitzedServices.NickServ

open Lib Mysql

/-- `nick_recognized`. -/
def nickRecognized (now : ℕ) (u : User) (w : World) : Bool :=
  u.realId ≠ 0 ∧ getNickStatus now u.realId w &&& (NS_IDENTIFIED ||| NS_RECOGNIZED) ≠ 0#32

/-- The status in the row of a nick. -/
def rowStatus (w : World) (id : ℕ) : Option (BitVec 32) :=
  (getNickinfoFromId w.db id).map NickRow.status

/-! ### What `get_nick_status` reports -/

/-- The status that is reported for an entry of the cache and a row. -/
def seenStatus (now id : ℕ) (cached : Option Nickcache) (row : Option (BitVec 32)) : BitVec 32 :=
  match cached with
  | some nc =>
    if id ≠ 0 ∧ 60 * 60 ≤ now - nc.statusTimestamp then row.getD nc.status else nc.status
  | none => if id = 0 then 0#32 else row.getD 0#32

section Find

variable {w w' : World} {now id nickId : ℕ}

theorem selectCached_status (now id : ℕ) (w : World) :
    (selectCached now id w).map Nickcache.status = rowStatus w id := by
  rw [selectCached, Option.map_map]
  rfl

theorem nickcacheFind_nickId {nc : Nickcache} (h : nickcacheFind w id = some nc) : nc.nickId = id := by
  simpa using List.find?_some h

theorem nickcacheFind_insert (hid : id ≠ nickId) :
    nickcacheFind (nickcacheInsert now nickId w) id = nickcacheFind w id := by
  rw [nickcacheInsert]
  cases hselect : selectCached now nickId w with
  | none => rfl
  | some nc =>
    have hne : ¬ nc.nickId = id := fun h ↦ hid (h.symm.trans (selectCached_eq_some hselect).1)
    rw [nickcacheFind, List.find?_cons_of_neg (by simpa using hne)]
    rfl

theorem nickcacheFind_insert_self (h : nickcacheFind w id = none) :
    nickcacheFind (nickcacheInsert now id w) id = selectCached now id w := by
  rw [nickcacheInsert]
  cases hselect : selectCached now id w with
  | none => exact h
  | some nc =>
    rw [nickcacheFind, List.find?_cons_of_pos (by simpa using (selectCached_eq_some hselect).1)]

theorem nickcacheFind_modify {f : Nickcache → Nickcache} (hf : ∀ nc, nc.nickId = nickId → (f nc).nickId = nickId) :
    nickcacheFind (nickcacheModify f nickId w) id =
      (nickcacheFind w id).map fun nc ↦ if nc.nickId = nickId then f nc else nc := by
  rw [nickcacheFind, nickcacheFind, nickcacheModify]
  apply find?_map_update
  intro nc hnick
  rw [hf nc hnick, hnick]

theorem nickcacheFind_modify_of_ne {f : Nickcache → Nickcache}
    (hf : ∀ nc, nc.nickId = nickId → (f nc).nickId = nickId) (hid : id ≠ nickId) :
    nickcacheFind (nickcacheModify f nickId w) id = nickcacheFind w id := by
  rw [nickcacheFind_modify hf]
  cases hfind : nickcacheFind w id with
  | none => rfl
  | some nc =>
    rw [Option.map_some, if_neg]
    rw [nickcacheFind_nickId hfind]
    exact hid

theorem nickcacheFind_modify_self {f : Nickcache → Nickcache}
    (hf : ∀ nc, nc.nickId = id → (f nc).nickId = id) :
    nickcacheFind (nickcacheModify f id w) id = (nickcacheFind w id).map f := by
  rw [nickcacheFind_modify hf]
  cases hfind : nickcacheFind w id with
  | none => rfl
  | some nc =>
    rw [Option.map_some, Option.map_some, if_pos (nickcacheFind_nickId hfind)]

/-- An entry that is read anew, when it is there. -/
theorem nickcacheUpdate_of_isSome (h : (nickcacheFind w id).isSome = true) :
    nickcacheUpdate now id w =
      match selectCached now id w with
      | some nc => nickcacheModify (fun _ ↦ nc) id w
      | none => nickcacheDel id w := by
  rw [nickcacheUpdate, if_pos h] <;> cases selectCached now id w <;> rfl

theorem nickcacheDel_of_isSome (h : (nickcacheFind w id).isSome = true) : nickcacheDel id w = w.die := by
  obtain ⟨nc, hnc⟩ := Option.isSome_iff_exists.mp h
  have hid := nickcacheFind_nickId hnc
  have hmem : nc ∈ w.nickcache := List.mem_of_find?_eq_some hnc
  rw [nickcacheDel]
  refine if_pos (List.any_eq_true.mpr ⟨nc, List.mem_filter.mpr ⟨hmem, ?_⟩, ?_⟩)
  · rw [hid]
    exact decide_eq_true rfl
  · exact decide_eq_true hid

theorem nickcacheFind_update (h : (nickcacheFind w nickId).isSome = true) (hid : id ≠ nickId) :
    nickcacheFind (nickcacheUpdate now nickId w) id = nickcacheFind w id := by
  rw [nickcacheUpdate_of_isSome h]
  cases hselect : selectCached now nickId w with
  | none =>
    dsimp only
    rw [nickcacheDel_of_isSome h]
    rfl
  | some nc => exact nickcacheFind_modify_of_ne (fun _ _ ↦ (selectCached_eq_some hselect).1) hid

theorem nickcacheFind_freshen_of_ne (hid : id ≠ nickId) :
    nickcacheFind (freshenStatus now nickId w) id = nickcacheFind w id := by
  refine World.act_cases (p := fun w' ↦ nickcacheFind w' id = nickcacheFind w id) rfl fun _ ↦
    ite_ind (p := fun w' ↦ nickcacheFind w' id = nickcacheFind w id) (fun _ ↦ rfl) fun _ ↦ ?_
  cases hfind : nickcacheFind w nickId with
  | none => exact nickcacheFind_insert hid
  | some nc =>
    refine ite_ind (p := fun w' ↦ nickcacheFind w' id = nickcacheFind w id) (fun _ ↦ ?_) fun _ ↦ rfl
    exact nickcacheFind_update (by rw [hfind]; rfl) hid

/-- The lookup of a status, by what the cache has of the nick. -/
theorem freshenStatus_eq (halive : w.alive = true) (hid : id ≠ 0) :
    freshenStatus now id w =
      match nickcacheFind w id with
      | none => nickcacheInsert now id w
      | some nc =>
        if 60 * 60 ≤ now - nc.statusTimestamp then
          match selectCached now id w with
          | some nc => nickcacheModify (fun _ ↦ nc) id w
          | none => w.die
        else w := by
  rw [freshenStatus, nickcacheFreshen, World.act, if_pos halive, if_neg hid]
  cases hfind : nickcacheFind w id with
  | none => rfl
  | some nc =>
    have hsome : (nickcacheFind w id).isSome = true := by rw [hfind]; rfl
    dsimp only
    rw [nickcacheUpdate_of_isSome hsome, nickcacheDel_of_isSome hsome]

/-- What `get_nick_status` reports. -/
theorem getNickStatus_eq (halive : w.alive = true) :
    getNickStatus now id w = seenStatus now id (nickcacheFind w id) (rowStatus w id) := by
  rw [getNickStatus]
  by_cases hid : id = 0
  · have hdie : freshenStatus now id w = w.die := by
      rw [freshenStatus, nickcacheFreshen, World.act, if_pos halive, if_pos hid]
    have hfind : nickcacheFind w.die id = nickcacheFind w id := rfl
    rw [hdie, hfind]
    cases nickcacheFind w id with
    | none => exact (if_pos hid).symm
    | some nc => exact (if_neg fun h ↦ h.1 hid).symm
  · rw [freshenStatus_eq halive hid]
    cases hfind : nickcacheFind w id with
    | none =>
      dsimp only [seenStatus]
      rw [nickcacheFind_insert_self hfind, selectCached_status, if_neg hid]
    | some nc =>
      dsimp only [seenStatus]
      by_cases hold : 60 * 60 ≤ now - nc.statusTimestamp
      · rw [if_pos hold, if_pos ⟨hid, hold⟩, ← selectCached_status now id w]
        cases hselect : selectCached now id w with
        | none =>
          have hdie : nickcacheFind w.die id = some nc := hfind
          dsimp only
          rw [hdie]
          rfl
        | some nc' =>
          dsimp only
          rw [nickcacheFind_modify_self fun _ _ ↦ (selectCached_eq_some hselect).1, hfind]
          rfl
      · rw [if_neg hold, if_neg fun h ↦ hold h.2, hfind]
        rfl

end Find

/-! ### What the operations leave alone -/

/-- Nothing that a lookup of the status of the nick reads is changed. -/
structure SameLookup (id : ℕ) (w w' : World) : Prop where
  alive : w'.alive = w.alive
  find : nickcacheFind w' id = nickcacheFind w id
  row : rowStatus w' id = rowStatus w id

namespace SameLookup

variable {w w' : World} {id nickId now : ℕ}

theorem refl (id : ℕ) (w : World) : SameLookup id w w := ⟨rfl, rfl, rfl⟩

theorem trans {w₁ w₂ w₃ : World} (h₁ : SameLookup id w₁ w₂) (h₂ : SameLookup id w₂ w₃) :
    SameLookup id w₁ w₃ where
  alive := h₂.alive.trans h₁.alive
  find := h₂.find.trans h₁.find
  row := h₂.row.trans h₁.row

theorem act {f : World → World} (hf : w.alive = true → SameLookup id w (f w)) : SameLookup id w (w.act f) :=
  World.act_cases (refl id w) hf

theorem ite {c : Prop} [Decidable c] {w₁ w₂ : World} (h₁ : SameLookup id w w₁) (h₂ : SameLookup id w w₂) :
    SameLookup id w (if c then w₁ else w₂) := by
  split_ifs
  · exact h₁
  · exact h₂

theorem seen (h : SameLookup id w w') (halive : w.alive = true) :
    getNickStatus now id w' = getNickStatus now id w := by
  rw [getNickStatus_eq halive, getNickStatus_eq (h.alive.trans halive), h.find, h.row]

theorem addNsTimeout (nickId : ℕ) (type : TimeoutType) (delay now : ℕ) (w : World) :
    SameLookup id w (addNsTimeout nickId type delay now w) := act fun _ ↦ ⟨rfl, rfl, rfl⟩

theorem delNsTimeout (nickId : ℕ) (type : TimeoutType) (w : World) :
    SameLookup id w (delNsTimeout nickId type w) := act fun _ ↦ ⟨rfl, rfl, rfl⟩

theorem modifyUser (f : User → User) (uid : ℕ) (w : World) : SameLookup id w (modifyUser f uid w) :=
  act fun _ ↦ ⟨rfl, rfl, rfl⟩

theorem updateColumns (f : NickColumns → NickColumns) (nickId : ℕ) (w : World) :
    SameLookup id w (updateColumns f nickId w) := act fun _ ↦ ⟨rfl, rfl, rfl⟩

theorem updateStatus (f : BitVec 32 → BitVec 32) (hid : id ≠ nickId) (w : World) :
    SameLookup id w (updateStatus f nickId w) := by
  rw [NickServ.updateStatus, updateNick]
  refine act fun _ ↦ ⟨rfl, rfl, ?_⟩
  dsimp only [rowStatus, getNickinfoFromId]
  rw [find?_map_update]
  · cases hrow : w.db.nick.find? fun r ↦ decide (r.nickId = id) with
    | none => rfl
    | some r =>
      have hr : r.nickId = id := by simpa using List.find?_some hrow
      rw [Option.map_some, if_neg fun h ↦ hid (hr.symm.trans h)]
  · exact fun _ _ ↦ rfl

theorem nickcacheChangeStatus (f : BitVec 32 → BitVec 32) (hnick : nickId ≠ 0) (hid : id ≠ nickId) (w : World) :
    SameLookup id w (nickcacheChangeStatus f now nickId w) := by
  rw [NickServ.nickcacheChangeStatus, nickcacheWrite]
  refine act fun _ ↦ ?_
  rw [if_neg hnick]
  have hdb : (if (nickcacheFind w nickId).isSome then w else nickcacheInsert now nickId w).db = w.db :=
    findOrInsert_cacheOnly.db
  constructor
  · dsimp only [nickcacheModify]
    split_ifs
    · rfl
    · rw [nickcacheInsert]
      cases selectCached now nickId w <;> rfl
  · have hkept : ∀ nc : Nickcache, nc.nickId = nickId →
        ({ nc with status := f nc.status, statusTimestamp := now } : Nickcache).nickId = nickId := fun _ h ↦ h
    rw [nickcacheFind_modify_of_ne hkept hid]
    split_ifs
    · rfl
    · exact nickcacheFind_insert hid
  · rw [rowStatus, nickcacheModify]
    dsimp only
    rw [hdb]
    rfl

theorem changeNickStatus (f : BitVec 32 → BitVec 32) (hnick : nickId ≠ 0) (hid : id ≠ nickId) (w : World) :
    SameLookup id w (changeNickStatus f now nickId w) :=
  (updateStatus f hid w).trans (nickcacheChangeStatus f hnick hid _)

theorem cancelUser (conf : Config) (env : Env) {u : User} (hid : id ≠ u.realId) (w : World) :
    SameLookup id w (cancelUser conf env u w) := by
  refine ite_ind (p := SameLookup id w) (fun hreal ↦ ?_) fun _ ↦ refl id w
  refine trans (ite ?_ (changeNickStatus _ hreal hid w)) (delNsTimeout _ _ _)
  exact ((updateStatus _ hid w).trans (addNsTimeout _ _ _ _ _)).trans (changeNickStatus _ hreal hid _)

theorem checkOnAccess (env : Env) {u : User} (hreal : u.realId ≠ 0) (hid : id ≠ u.realId) (w : World) :
    SameLookup id w (checkOnAccess env u w) :=
  ite (refl id w) (ite (changeNickStatus _ hreal hid w) (refl id w))

theorem mysqlUpdateLastSeen {u : User} (hid : id ≠ u.realId) (w : World) :
    SameLookup id w (mysqlUpdateLastSeen u 0#32 w) := by
  rw [NickServ.mysqlUpdateLastSeen]
  exact (updateStatus _ hid w).trans (updateColumns _ _ _)

end SameLookup

/-! ### Writes to the status of a nick -/

section Writes

variable {w w' : World} {now id : ℕ} {s : BitVec 32} {f : BitVec 32 → BitVec 32}

theorem rowStatus_updateStatus (halive : w.alive = true) :
    rowStatus (updateStatus f id w) id = (rowStatus w id).map f := by
  rw [updateStatus, updateNick, World.act, if_pos halive]
  dsimp only [rowStatus, getNickinfoFromId]
  rw [find?_map_update]
  · cases hrow : w.db.nick.find? fun r ↦ decide (r.nickId = id) with
    | none => rfl
    | some r =>
      have hr : r.nickId = id := by simpa using List.find?_some hrow
      rw [Option.map_some, if_pos hr]
      rfl
  · exact fun _ _ ↦ rfl

theorem alive_changeNickStatus (hid : id ≠ 0) : (changeNickStatus f now id w).alive = w.alive := by
  have hupdate : (updateStatus f id w).alive = w.alive := updateNick_alive _ _ _
  rw [changeNickStatus, nickcacheChangeStatus, nickcacheWrite]
  refine World.act_cases (p := fun w' ↦ w'.alive = w.alive) hupdate fun _ ↦ ?_
  rw [if_neg hid]
  dsimp only [nickcacheModify]
  split_ifs
  · exact hupdate
  · rw [nickcacheInsert]
    cases selectCached now id (updateStatus f id w) with
    | none => exact hupdate
    | some nc => exact hupdate

/-- The row gets the new status. -/
theorem rowStatus_changeNickStatus (halive : w.alive = true) :
    rowStatus (changeNickStatus f now id w) id = (rowStatus w id).map f := by
  have hdb : (changeNickStatus f now id w).db = (updateStatus f id w).db :=
    ((CacheOnly.refl _).nickcacheWrite _ now id).db
  rw [← rowStatus_updateStatus halive, rowStatus, rowStatus, hdb]

/-- The entry gets it too, and is read from the changed row first when it is not there. -/
theorem nickcacheFind_changeNickStatus (halive : w.alive = true) (hid : id ≠ 0) :
    nickcacheFind (changeNickStatus f now id w) id =
      ((nickcacheFind w id).or (selectCached now id (updateStatus f id w))).map fun nc ↦
        { nc with status := f nc.status, statusTimestamp := now } := by
  have hkept : ∀ nc : Nickcache, nc.nickId = id →
      ({ nc with status := f nc.status, statusTimestamp := now } : Nickcache).nickId = id := fun _ h ↦ h
  have halive' : (updateStatus f id w).alive = true := (updateNick_alive _ _ _).trans halive
  have hfind : nickcacheFind (updateStatus f id w) id = nickcacheFind w id := by
    rw [updateStatus, updateNick, World.act, if_pos halive]
    rfl
  rw [changeNickStatus, nickcacheChangeStatus, nickcacheWrite, World.act, if_pos halive', if_neg hid,
    nickcacheFind_modify_self hkept, hfind]
  cases hold : nickcacheFind w id with
  | none => rw [if_neg (by simp), nickcacheFind_insert_self (hfind.trans hold), Option.none_or]
  | some nc => rw [if_pos (by simp), hfind, hold, Option.some_or]

/-- The cache has a young entry with the status. -/
def Young (now id : ℕ) (s : BitVec 32) (w : World) : Prop :=
  ∃ nc, nickcacheFind w id = some nc ∧ nc.statusTimestamp = now ∧ nc.status = s

theorem seenStatus_young {nc : Nickcache} (h : nc.statusTimestamp = now) (row : Option (BitVec 32)) :
    seenStatus now id (some nc) row = nc.status := by
  refine if_neg fun hold ↦ ?_
  have hle := hold.2
  rw [h, Nat.sub_self] at hle
  omega

theorem Young.seen (h : Young now id s w) (halive : w.alive = true) : getNickStatus now id w = s := by
  obtain ⟨nc, hfind, hstamp, hstatus⟩ := h
  rw [getNickStatus_eq halive, hfind, seenStatus_young hstamp, hstatus]

theorem Young.freshen (h : Young now id s w) (halive : w.alive = true) (hid : id ≠ 0) :
    freshenStatus now id w = w := by
  obtain ⟨nc, hfind, hstamp, -⟩ := h
  rw [freshenStatus_eq halive hid, hfind]
  refine if_neg fun hold ↦ ?_
  rw [hstamp, Nat.sub_self] at hold
  omega

theorem Young.of_find (h : Young now id s w) (hfind : nickcacheFind w' id = nickcacheFind w id) :
    Young now id s w' := by
  rw [Young, hfind]
  exact h

theorem young_changeNickStatus {nc : Nickcache} (halive : w.alive = true) (hid : id ≠ 0)
    (hfind : (nickcacheFind w id).or (selectCached now id (updateStatus f id w)) = some nc) :
    Young now id (f nc.status) (changeNickStatus f now id w) := by
  refine ⟨{ nc with status := f nc.status, statusTimestamp := now }, ?_, rfl, rfl⟩
  rw [nickcacheFind_changeNickStatus halive hid, hfind, Option.map_some]

theorem Young.change (h : Young now id s w) (halive : w.alive = true) (hid : id ≠ 0) :
    Young now id (f s) (changeNickStatus f now id w) := by
  obtain ⟨nc, hfind, -, rfl⟩ := h
  exact young_changeNickStatus halive hid (by rw [hfind, Option.some_or])

theorem isSome_rowStatus : (rowStatus w id).isSome = true ↔ id ∈ w.db.nick.map NickRow.nickId := by
  rw [rowStatus, Option.isSome_map, getNickinfoFromId, List.find?_isSome, List.mem_map]
  simp only [decide_eq_true_eq]

/-- The status of a nick with a row is set. -/
theorem young_setNickStatus (halive : w.alive = true) (hid : id ≠ 0) (hrow : (rowStatus w id).isSome = true) :
    Young now id s (setNickStatus s now id w) := by
  have hselect : (selectCached now id (updateStatus (fun _ ↦ s) id w)).isSome = true := by
    rw [← Option.isSome_map, selectCached_status, rowStatus_updateStatus halive, Option.isSome_map]
    exact hrow
  have hfound : ((nickcacheFind w id).or (selectCached now id (updateStatus (fun _ ↦ s) id w))).isSome = true := by
    rw [Option.isSome_or, hselect, Bool.or_true]
  obtain ⟨nc, hnc⟩ := Option.isSome_iff_exists.mp hfound
  exact young_changeNickStatus halive hid hnc

/-- What is reported after a write is what the write makes of the status in the cache or, without an
entry, in the changed row. -/
theorem getNickStatus_change (halive : w.alive = true) (hid : id ≠ 0) :
    getNickStatus now id (changeNickStatus f now id w) =
      match nickcacheFind w id with
      | some nc => f nc.status
      | none => ((rowStatus w id).map fun s ↦ f (f s)).getD 0#32 := by
  have halive' : (changeNickStatus f now id w).alive = true := (alive_changeNickStatus hid).trans halive
  cases hfind : nickcacheFind w id with
  | some nc => exact (young_changeNickStatus halive hid (by rw [hfind, Option.some_or])).seen halive'
  | none =>
    have hselect := selectCached_status now id (updateStatus f id w)
    rw [rowStatus_updateStatus halive] at hselect
    cases hrow : selectCached now id (updateStatus f id w) with
    | some nc =>
      rw [hrow, Option.map_some] at hselect
      rw [(young_changeNickStatus halive hid (by rw [hfind, Option.none_or, hrow])).seen halive']
      cases hstatus : rowStatus w id with
      | none =>
        rw [hstatus] at hselect
        cases hselect
      | some s =>
        rw [hstatus, Option.map_some, Option.some.injEq] at hselect
        rw [hselect]
        rfl
    | none =>
      rw [hrow, Option.map_none] at hselect
      have hstatus : rowStatus w id = none := Option.map_eq_none_iff.mp hselect.symm
      rw [getNickStatus_eq halive', nickcacheFind_changeNickStatus halive hid, hfind, hrow,
        rowStatus_changeNickStatus halive, hstatus]
      exact if_neg hid

end Writes

/-! ### The flags of an identified user -/

/-- Whether a status is that of an identified and of a recognized user. -/
def authFlags (s : BitVec 32) : Bool × Bool :=
  (s &&& NS_IDENTIFIED ≠ 0#32, s &&& (NS_IDENTIFIED ||| NS_RECOGNIZED) ≠ 0#32)

/-- Whether the user is identified and recognized. -/
def userFlags (now : ℕ) (u : User) (w : World) : Bool × Bool :=
  (nickIdentified now u w, nickRecognized now u w)

section Flags

variable {w : World} {now : ℕ} {u : User} {s c : BitVec 32}

theorem userFlags_eq (h : u.realId ≠ 0) : userFlags now u w = authFlags (getNickStatus now u.realId w) := by
  rw [userFlags, nickIdentified, nickRecognized, authFlags]
  simp only [h, ne_eq, not_false_eq_true, true_and]

theorem userFlags_of_zero (h : u.realId = 0) : userFlags now u w = (false, false) := by
  rw [userFlags, nickIdentified, nickRecognized]
  simp only [h, ne_eq, not_true_eq_false, false_and, decide_false]

/-- Other bits do not matter. -/
theorem authFlags_add (h : c &&& (NS_IDENTIFIED ||| NS_RECOGNIZED) = 0#32) (s : BitVec 32) :
    authFlags (s ||| c) = authFlags s := by
  have hid : c &&& NS_IDENTIFIED = 0#32 := by
    rw [BitVec.and_or_distrib_left] at h
    exact (BitVec.or_eq_zero_iff.mp h).1
  rw [authFlags, authFlags, BitVec.and_or_distrib_right, BitVec.and_or_distrib_right, h, hid, BitVec.or_zero,
    BitVec.or_zero]

/-- The temporary bits hold both flags. -/
theorem authFlags_remove (s : BitVec 32) : authFlags (s &&& ~~~NS_TEMPORARY) = (false, false) := by
  have hid : ~~~NS_TEMPORARY &&& NS_IDENTIFIED = 0#32 := by decide
  have hrec : ~~~NS_TEMPORARY &&& (NS_IDENTIFIED ||| NS_RECOGNIZED) = 0#32 := by decide
  rw [authFlags, BitVec.and_assoc, BitVec.and_assoc, hid, hrec, BitVec.and_zero]
  rfl

theorem authFlags_zero : authFlags 0#32 = (false, false) := by
  rw [authFlags, BitVec.zero_and, BitVec.zero_and]
  rfl

/-- Who is identified is recognized. -/
theorem userFlags_eq_false_iff : userFlags now u w = (false, false) ↔ nickRecognized now u w = false := by
  constructor
  · exact fun h ↦ congrArg Prod.snd h
  · intro h
    by_cases hreal : u.realId = 0
    · exact userFlags_of_zero hreal
    · have hflags : userFlags now u w = authFlags (getNickStatus now u.realId w) := userFlags_eq hreal
      have hnone : getNickStatus now u.realId w &&& (NS_IDENTIFIED ||| NS_RECOGNIZED) = 0#32 := by
        by_contra hne
        have hyes : nickRecognized now u w = true := decide_eq_true ⟨hreal, hne⟩
        rw [h] at hyes
        cases hyes
      have hid := hnone
      rw [BitVec.and_or_distrib_left] at hid
      rw [hflags, authFlags, hnone, (BitVec.or_eq_zero_iff.mp hid).1]
      rfl

end Flags

/-! ### The steps of the nick change -/

section Steps

variable {w : World} {conf : Config} {env : Env} {u : User} {s : BitVec 32}

theorem addNsTimeout_alive (nickId : ℕ) (type : TimeoutType) (delay now : ℕ) (w : World) :
    (addNsTimeout nickId type delay now w).alive = w.alive :=
  World.act_cases (p := fun w' ↦ w'.alive = w.alive) rfl fun _ ↦ rfl

theorem delNsTimeout_alive (nickId : ℕ) (type : TimeoutType) (w : World) :
    (delNsTimeout nickId type w).alive = w.alive :=
  World.act_cases (p := fun w' ↦ w'.alive = w.alive) rfl fun _ ↦ rfl

theorem modifyUser_alive (f : User → User) (uid : ℕ) (w : World) : (modifyUser f uid w).alive = w.alive :=
  World.act_cases (p := fun w' ↦ w'.alive = w.alive) rfl fun _ ↦ rfl

theorem alive_cancelUser (halive : w.alive = true) : (cancelUser conf env u w).alive = true := by
  refine ite_ind (p := fun w' ↦ w'.alive = true) (fun hreal ↦ ?_) fun _ ↦ halive
  refine (delNsTimeout_alive _ _ _).trans ?_
  refine ite_ind (p := fun w' ↦ w'.alive = true) (fun _ ↦ ?_) fun _ ↦
    (alive_changeNickStatus hreal).trans halive
  refine (alive_changeNickStatus hreal).trans ?_
  exact ((addNsTimeout_alive _ _ _ _ _).trans (updateNick_alive _ _ _)).trans halive

/-- A user who was cancelled has no flag left, unless his nick was taken: the flags in the cache stay then. -/
theorem authFlags_cancelUser (halive : w.alive = true) (hreal : u.realId ≠ 0) :
    authFlags (getNickStatus env.now u.realId (cancelUser conf env u w)) =
      match nickcacheFind w u.realId with
      | some nc => if guested w u.realId then authFlags nc.status else (false, false)
      | none => (false, false) := by
  rw [cancelUser, if_pos hreal]
  dsimp only
  by_cases hguested : guested w u.realId = true
  · have hupdate : (updateStatus (· &&& ~~~NS_TEMPORARY) u.realId w).alive = true :=
      (updateNick_alive _ _ _).trans halive
    have htimeout : SameLookup u.realId (updateStatus (· &&& ~~~NS_TEMPORARY) u.realId w)
        (addNsTimeout u.realId .release conf.nsReleaseTimeout env.now
          (updateStatus (· &&& ~~~NS_TEMPORARY) u.realId w)) := .addNsTimeout _ _ _ _ _
    have halive' := htimeout.alive.trans hupdate
    have hfind : nickcacheFind (updateStatus (· &&& ~~~NS_TEMPORARY) u.realId w) u.realId =
        nickcacheFind w u.realId := by
      rw [updateStatus, updateNick, World.act, if_pos halive]
      rfl
    rw [if_pos hguested, addNickStatus,
      (SameLookup.delNsTimeout _ _ _).seen ((alive_changeNickStatus hreal).trans halive'),
      getNickStatus_change halive' hreal, htimeout.find, htimeout.row, hfind,
      rowStatus_updateStatus halive]
    have hheld : NS_KILL_HELD &&& (NS_IDENTIFIED ||| NS_RECOGNIZED) = 0#32 := by decide
    cases nickcacheFind w u.realId with
    | some nc =>
      dsimp only
      rw [if_pos hguested, authFlags_add hheld]
    | none =>
      cases rowStatus w u.realId with
      | none => exact authFlags_zero
      | some s =>
        have hflags : authFlags (((s &&& ~~~NS_TEMPORARY) ||| NS_KILL_HELD) ||| NS_KILL_HELD) =
            (false, false) := by
          rw [authFlags_add hheld, authFlags_add hheld, authFlags_remove]
        exact hflags
  · rw [if_neg hguested, removeNickStatus,
      (SameLookup.delNsTimeout _ _ _).seen ((alive_changeNickStatus hreal).trans halive),
      getNickStatus_change halive hreal]
    cases nickcacheFind w u.realId with
    | some nc =>
      dsimp only
      rw [if_neg hguested, authFlags_remove]
    | none =>
      cases rowStatus w u.realId with
      | none => exact authFlags_zero
      | some s => exact authFlags_remove _

/-- The end of `do_nick` for a nick whose status was just set. -/
theorem settleUser_young (halive : w.alive = true) (hreal : u.realId ≠ 0) (h : Young env.now u.realId s w) :
    (settleUser conf env u false w).alive = true ∧
      authFlags (getNickStatus env.now u.realId (settleUser conf env u false w)) = authFlags s ∧
      ∀ id, id ≠ u.realId → SameLookup id w (settleUser conf env u false w) := by
  have haccess : ∃ s', Young env.now u.realId s' (checkOnAccess env u w) ∧ authFlags s' = authFlags s := by
    rw [checkOnAccess]
    split_ifs
    · exact ⟨s, h, rfl⟩
    · exact ⟨s ||| NS_ON_ACCESS, h.change halive hreal, authFlags_add (by decide) s⟩
    · exact ⟨s, h, rfl⟩
  obtain ⟨s', hyoung, hflags⟩ := haccess
  have halive' : (checkOnAccess env u w).alive = true := by
    refine ite_ind (p := fun w' ↦ w'.alive = true) (fun _ ↦ halive) fun _ ↦
      ite_ind (p := fun w' ↦ w'.alive = true) (fun _ ↦ ?_) fun _ ↦ halive
    exact (alive_changeNickStatus hreal).trans halive
  have hlast : settleUser conf env u false w = mysqlUpdateLastSeen u 0#32 (checkOnAccess env u w) ∨
      settleUser conf env u false w = checkOnAccess env u w := by
    rw [settleUser, if_neg Bool.false_ne_true, freshenIdentified, if_pos hreal, hyoung.freshen halive' hreal]
    exact ite_eq_or_eq _ _ _
  rcases hlast with hlast | hlast
  · have hseen : (mysqlUpdateLastSeen u 0#32 (checkOnAccess env u w)).alive = true :=
      ((SameLookup.mysqlUpdateLastSeen hreal.symm _).alive).trans halive'
    have hcache := (SameStatuses.mysqlUpdateLastSeen u (checkOnAccess env u w)).nickcache
    rw [hlast]
    refine ⟨hseen, ?_, fun id hid ↦ ?_⟩
    · rw [(hyoung.of_find (by rw [nickcacheFind, nickcacheFind, hcache])).seen hseen, hflags]
    · exact (SameLookup.checkOnAccess env hreal hid w).trans (.mysqlUpdateLastSeen hid _)
  · rw [hlast]
    refine ⟨halive', ?_, fun id hid ↦ ?_⟩
    · rw [hyoung.seen halive', hflags]
    · exact SameLookup.checkOnAccess env hreal hid w

/-- There is no lookup for no nick. -/
theorem ne_zero_of_alive_freshenStatus {now id : ℕ} (halive : w.alive = true)
    (hlookup : (freshenStatus now id w).alive = true) : id ≠ 0 := by
  rintro rfl
  rw [freshenStatus, nickcacheFreshen, World.act, if_pos halive, if_pos rfl] at hlookup
  cases hlookup

/-- The lookup of a status does not fail on an old entry that has lost its row. -/
theorem alive_freshenStatus_iff {now id : ℕ} (halive : w.alive = true) (hid : id ≠ 0) :
    (freshenStatus now id w).alive = true ↔ ∀ nc, nickcacheFind w id = some nc →
      60 * 60 ≤ now - nc.statusTimestamp → (rowStatus w id).isSome = true := by
  rw [freshenStatus_eq halive hid]
  cases hfind : nickcacheFind w id with
  | none =>
    have hinsert : (nickcacheInsert now id w).alive = true := by
      rw [nickcacheInsert]
      cases selectCached now id w with
      | none => exact halive
      | some nc => exact halive
    exact iff_of_true hinsert fun nc h ↦ by cases h
  | some nc =>
    dsimp only
    by_cases hold : 60 * 60 ≤ now - nc.statusTimestamp
    · rw [if_pos hold, ← selectCached_status now id w]
      cases selectCached now id w with
      | none =>
        refine iff_of_false Bool.false_ne_true fun h ↦ ?_
        exact Bool.false_ne_true (h nc rfl hold)
      | some nc' => exact iff_of_true halive fun _ _ _ ↦ rfl
    · rw [if_neg hold]
      refine iff_of_true halive fun nc' h hle ↦ ?_
      rw [Option.some.injEq] at h
      exact absurd (h ▸ hle) hold

/-- What is read anew gets the stamp of now. -/
theorem selectCached_stamp {now id : ℕ} {nc : Nickcache} (h : selectCached now id w = some nc) :
    nc.statusTimestamp = now := by
  obtain ⟨r, -, rfl⟩ := Option.map_eq_some_iff.mp h
  rfl

/-- A lookup reports what it finds, and the next one the same. -/
theorem getNickStatus_freshenStatus {now id nickId : ℕ} (halive : w.alive = true) (hid : nickId ≠ 0)
    (hlookup : (freshenStatus now nickId w).alive = true) :
    getNickStatus now id (freshenStatus now nickId w) = getNickStatus now id w := by
  have hrow : rowStatus (freshenStatus now nickId w) id = rowStatus w id := by
    rw [rowStatus, rowStatus, ((CacheOnly.refl w).freshenStatus now nickId).db]
  by_cases hsame : id = nickId
  · subst hsame
    rw [getNickStatus_eq hlookup, getNickStatus_eq halive, hrow]
    rw [freshenStatus_eq halive hid] at hlookup ⊢
    cases hfind : nickcacheFind w id with
    | none =>
      dsimp only
      rw [nickcacheFind_insert_self hfind, ← selectCached_status now id w]
      cases hselect : selectCached now id w with
      | none => rfl
      | some nc =>
        rw [seenStatus_young (selectCached_stamp hselect)]
        exact (if_neg hid).symm
    | some nc =>
      rw [hfind] at hlookup
      dsimp only at hlookup ⊢
      by_cases hold : 60 * 60 ≤ now - nc.statusTimestamp
      · rw [if_pos hold] at hlookup ⊢
        rw [← selectCached_status now id w]
        cases hselect : selectCached now id w with
        | none =>
          rw [hselect] at hlookup
          cases hlookup
        | some nc' =>
          dsimp only
          rw [nickcacheFind_modify_self fun _ _ ↦ (selectCached_eq_some hselect).1, hfind, Option.map_some,
            seenStatus_young (selectCached_stamp hselect)]
          exact (if_pos ⟨hid, hold⟩).symm
      · rw [if_neg hold, hfind]
  · rw [getNickStatus_eq hlookup, getNickStatus_eq halive, hrow, nickcacheFind_freshen_of_ne hsame]

theorem young_cancelUser (halive : w.alive = true) (hreal : u.realId ≠ 0) {nc : Nickcache}
    (h : nickcacheFind (cancelUser conf env u w) u.realId = some nc) : nc.statusTimestamp = env.now := by
  have hchange {f : BitVec 32 → BitVec 32} {w₁ : World} (halive₁ : w₁.alive = true)
      (hfind : nickcacheFind (delNsTimeout u.realId .collide (changeNickStatus f env.now u.realId w₁)) u.realId =
        some nc) : nc.statusTimestamp = env.now := by
    rw [(SameLookup.delNsTimeout _ _ _).find, nickcacheFind_changeNickStatus halive₁ hreal] at hfind
    obtain ⟨nc₀, -, rfl⟩ := Option.map_eq_some_iff.mp hfind
    rfl
  rw [cancelUser, if_pos hreal] at h
  dsimp only at h
  split_ifs at h
  · refine hchange ?_ h
    exact (addNsTimeout_alive _ _ _ _ _).trans ((updateNick_alive _ _ _).trans halive)
  · exact hchange halive h

end Steps

/-! ### What should hold, and when it does -/

/-- The user is identified and recognized as before, and no other nick than his has another status. -/
structure KeepsIdentification (now : ℕ) (nick : CString) (u : User) (w w' : World) : Prop where
  alive : w'.alive = true
  online : ∃ v ∈ w'.users, v.uid = u.uid
  user : ∀ v ∈ w'.users, v.uid = u.uid →
    nickIdentified now v w' = nickIdentified now u w ∧ nickRecognized now v w' = nickRecognized now u w
  others : ∀ r ∈ w.db.nick, r.nickId ≠ u.realId → r.nickId ≠ mysqlFindnick w.db nick →
    rowStatus w' r.nickId = rowStatus w r.nickId ∧ getNickStatus now r.nickId w' = getNickStatus now r.nickId w

/-- A nick that is not linked has no flag to lose, or was taken and keeps the flags in the cache. The master of
a linked nick has the flags of the user. -/
structure CaseChangeMeets (now : ℕ) (nick : CString) (u : User) (w : World) : Prop where
  unregistered : mysqlFindnick w.db nick = 0 → nickRecognized now u w = false
  master : mysqlFindnick w.db nick ≠ 0 → u.nickId ≠ 0
  unlinked : mysqlFindnick w.db nick ≠ 0 → u.nickId = u.realId →
    guested w u.realId = false ∨ nickcacheFind w u.realId = none → nickRecognized now u w = false
  taken : mysqlFindnick w.db nick ≠ 0 → u.nickId = u.realId → guested w u.realId = true →
    ∀ nc, nickcacheFind w u.realId = some nc → authFlags nc.status = userFlags now u w
  linked : mysqlFindnick w.db nick ≠ 0 → u.nickId ≠ u.realId →
    (freshenStatus now u.nickId w).alive = true ∧ authFlags (getNickStatus now u.nickId w) = userFlags now u w

section CaseChange

variable {conf : Config} {env : Env} {source nick : CString} {u : User} {w : World}

/-- The ids that a nick gives are the same after the user's old nick was left. -/
theorem nickIds_cancelUser : nickIds (cancelUser conf env u w).db nick = nickIds w.db nick :=
  nickIds_congr (congrArg Registry.nicks ((Quiet.refl w).cancelUser conf env u).registry) nick

theorem doNickChange_case (huser : finduser w source = some u) (hcase : sameName nick source = true) :
    doNickChange conf env source nick w =
      settleUser conf env (renamed w nick u) false
        (changeUserNick env u nick false (cancelUser conf env u w)) := by
  have hids : nickIds (cancelUser conf env u w).db nick = nickIds w.db nick := nickIds_cancelUser
  rw [renamed, ← hids, doNickChange, huser, hcase]
  rfl

theorem mem_of_mysqlFindnick {db : Database} (h : mysqlFindnick db nick ≠ 0) :
    mysqlFindnick db nick ∈ db.nick.map NickRow.nickId := by
  rw [mysqlFindnick] at h ⊢
  cases hlast : (db.nick.filter fun r ↦ sameName r.nick nick).getLast? with
  | none => exact absurd (by rw [hlast]; rfl) h
  | some r => exact List.mem_map_of_mem (List.mem_of_mem_filter (List.mem_of_getLast? hlast))

/-- The user's record has the ids of the nick afterwards. -/
theorem realId_doNickChange (huser : finduser w source = some u)
    (halive : (doNickChange conf env source nick w).alive = true) :
    (∃ v ∈ (doNickChange conf env source nick w).users, v.uid = u.uid) ∧
      ∀ v ∈ (doNickChange conf env source nick w).users, v.uid = u.uid → v.realId = mysqlFindnick w.db nick := by
  have hdoes : Does _ w (doNickChange conf env source nick w) := doNickChange_does huser
  have hregistry := congrArg Registry.users (hdoes.of_alive halive)
  have hmem (v : UserIds) : v ∈ (doNickChange conf env source nick w).users.map User.ids ↔ _ :=
    (iff_of_eq (congrArg (v ∈ ·) hregistry)).trans Registry.mem_modifyUser
  constructor
  · have hu : u.ids ∈ w.registry.users := List.mem_map_of_mem (mem_of_finduser huser).1
    obtain ⟨v, hv, hids⟩ := List.mem_map.mp ((hmem _).mpr ⟨u.ids, hu, rfl⟩)
    rw [if_pos (show u.ids.uid = u.uid from rfl)] at hids
    exact ⟨v, hv, congrArg UserIds.uid hids⟩
  · intro v hv huid
    obtain ⟨v₀, -, hids⟩ := (hmem v.ids).mp (List.mem_map_of_mem hv)
    split_ifs at hids with hsame
    · exact (congrArg UserIds.realId hids).symm
    · exact absurd ((congrArg UserIds.uid hids).trans huid) hsame

/-- The status that is copied when the nick is registered. -/
theorem changeUserNick_case (hnick : mysqlFindnick w.db nick ≠ 0) :
    changeUserNick env u nick false (cancelUser conf env u w) =
      modifyUser (fun v ↦ { v with
          nick := strscpy nick NICKMAX, realId := (nickIds w.db nick).1, nickId := (nickIds w.db nick).2 }) u.uid
        (setNickStatus (getNickStatus env.now u.nickId (cancelUser conf env u w)) env.now
          (mysqlFindnick w.db nick) (freshenStatus env.now u.nickId (cancelUser conf env u w))) := by
  have hids : nickIds (cancelUser conf env u w).db nick = nickIds w.db nick := nickIds_cancelUser
  have hset : (nickIds w.db nick).1 ≠ 0 ∧ ¬ false = true := ⟨hnick, Bool.false_ne_true⟩
  rw [changeUserNick, hids, if_pos hset]
  rfl

/-- A nick that is not registered has no status to give. -/
theorem keepsIdentification_unregistered (halive : w.alive = true) (huser : finduser w source = some u)
    (hcase : sameName nick source = true) (hnick : mysqlFindnick w.db nick = 0) :
    KeepsIdentification env.now nick u w (doNickChange conf env source nick w) ↔
      nickRecognized env.now u w = false := by
  have hids : nickIds (cancelUser conf env u w).db nick = nickIds w.db nick := nickIds_cancelUser
  have hreal : (nickIds w.db nick).1 = 0 := hnick
  have hmaster : (nickIds w.db nick).2 = 0 := if_neg (not_not.mpr hnick)
  have hresult : doNickChange conf env source nick w = modifyUser (fun v ↦ { v with
      nick := strscpy nick NICKMAX, realId := (nickIds w.db nick).1, nickId := (nickIds w.db nick).2 }) u.uid
        (cancelUser conf env u w) := by
    rw [doNickChange_case huser hcase, changeUserNick, hids, if_neg fun h ↦ h.1 hreal, settleUser,
      if_neg Bool.false_ne_true, checkOnAccess, renamed, freshenIdentified]
    dsimp only
    rw [if_pos hmaster, if_neg (not_not.mpr hreal), if_neg fun h ↦ h.2.2.1 hreal]
  have hmodify (id : ℕ) (f : User → User) : SameLookup id (cancelUser conf env u w)
      (modifyUser f u.uid (cancelUser conf env u w)) := SameLookup.modifyUser f u.uid _
  have hcancelled : (cancelUser conf env u w).alive = true := alive_cancelUser halive
  have halive' : (doNickChange conf env source nick w).alive = true := by
    rw [hresult]
    exact (modifyUser_alive _ _ _).trans hcancelled
  obtain ⟨honline, hid⟩ := realId_doNickChange huser halive'
  have hnone (v : User) (hv : v ∈ (doNickChange conf env source nick w).users) (huid : v.uid = u.uid) :
      userFlags env.now v (doNickChange conf env source nick w) = (false, false) :=
    userFlags_of_zero ((hid v hv huid).trans hnick)
  rw [← userFlags_eq_false_iff]
  constructor
  · intro h
    obtain ⟨v, hv, huid⟩ := honline
    rw [← hnone v hv huid]
    exact (Prod.ext (h.user v hv huid).1 (h.user v hv huid).2).symm
  · intro h
    refine ⟨halive', honline, fun v hv huid ↦ ?_, fun r hr hne _ ↦ ?_⟩
    · exact Prod.ext_iff.mp ((hnone v hv huid).trans h.symm)
    · have hsame : SameLookup r.nickId w (doNickChange conf env source nick w) := by
        rw [hresult]
        exact (SameLookup.cancelUser conf env hne w).trans (hmodify _ _)
      exact ⟨hsame.row, hsame.seen halive⟩

/-- The nick of the user gets the flags of the status that is copied. -/
theorem keepsIdentification_registered (halive : w.alive = true) (huser : finduser w source = some u)
    (hcase : sameName nick source = true) (hnick : mysqlFindnick w.db nick ≠ 0) :
    KeepsIdentification env.now nick u w (doNickChange conf env source nick w) ↔
      (freshenStatus env.now u.nickId (cancelUser conf env u w)).alive = true ∧
        authFlags (getNickStatus env.now u.nickId (cancelUser conf env u w)) = userFlags env.now u w := by
  have hresult : doNickChange conf env source nick w = settleUser conf env (renamed w nick u) false
      (changeUserNick env u nick false (cancelUser conf env u w)) := doNickChange_case huser hcase
  rw [changeUserNick_case hnick] at hresult
  have hcancelled : (cancelUser conf env u w).alive = true := alive_cancelUser halive
  have hreal : (renamed w nick u).realId ≠ 0 := hnick
  generalize hstatus : getNickStatus env.now u.nickId (cancelUser conf env u w) = status at hresult ⊢
  have hmodify (id : ℕ) (f : User → User) (w₁ : World) : SameLookup id w₁ (modifyUser f u.uid w₁) :=
    SameLookup.modifyUser f u.uid w₁
  have hset : (setNickStatus status env.now (mysqlFindnick w.db nick)
      (freshenStatus env.now u.nickId (cancelUser conf env u w))).alive =
      (freshenStatus env.now u.nickId (cancelUser conf env u w)).alive := alive_changeNickStatus hnick
  -- What is known of the last state when the status could be looked up.
  have hsettled (hlookup : (freshenStatus env.now u.nickId (cancelUser conf env u w)).alive = true) :
      (doNickChange conf env source nick w).alive = true ∧
        authFlags (getNickStatus env.now (mysqlFindnick w.db nick) (doNickChange conf env source nick w)) =
          authFlags status ∧
        ∀ id, id ≠ mysqlFindnick w.db nick →
          SameLookup id (freshenStatus env.now u.nickId (cancelUser conf env u w))
            (doNickChange conf env source nick w) := by
    have hyoung : Young env.now (mysqlFindnick w.db nick) status
        (setNickStatus status env.now (mysqlFindnick w.db nick)
          (freshenStatus env.now u.nickId (cancelUser conf env u w))) := by
      refine young_setNickStatus hlookup hnick (isSome_rowStatus.mpr ?_)
      have hids := ((SameStamps.refl w).cancelUser conf env u).cacheOnly
        ((CacheOnly.refl _).freshenStatus env.now u.nickId)
      rw [hids.nick]
      exact mem_of_mysqlFindnick hnick
    obtain ⟨halive', hflags, hothers⟩ := settleUser_young
      ((modifyUser_alive _ _ _).trans (hset.trans hlookup)) hreal (hyoung.of_find (hmodify _ _ _).find)
    rw [← hresult] at halive' hflags hothers
    refine ⟨halive', hflags, fun id hid ↦ ?_⟩
    exact ((SameLookup.changeNickStatus _ hnick hid _).trans (hmodify _ _ _)).trans (hothers id hid)
  have hflags (hlookup : (freshenStatus env.now u.nickId (cancelUser conf env u w)).alive = true) (v : User)
      (hv : v ∈ (doNickChange conf env source nick w).users) (huid : v.uid = u.uid) :
      userFlags env.now v (doNickChange conf env source nick w) = authFlags status := by
    obtain ⟨halive', hset, -⟩ := hsettled hlookup
    have hid := (realId_doNickChange huser halive').2 v hv huid
    rw [userFlags_eq (hid ▸ hnick), hid, hset]
  constructor
  · intro h
    have hlookup : (freshenStatus env.now u.nickId (cancelUser conf env u w)).alive = true := by
      have hlast := h.alive
      rw [hresult] at hlast
      exact hset.symm.trans ((modifyUser_alive _ _ _).symm.trans
        (((Quiet.refl _).settleUser conf env _ false).alive hlast))
    obtain ⟨v, hv, huid⟩ := h.online
    refine ⟨hlookup, ?_⟩
    rw [← hflags hlookup v hv huid]
    exact Prod.ext (h.user v hv huid).1 (h.user v hv huid).2
  · rintro ⟨hlookup, hsame⟩
    have hmaster := ne_zero_of_alive_freshenStatus hcancelled hlookup
    obtain ⟨halive', -, hothers⟩ := hsettled hlookup
    refine ⟨halive', (realId_doNickChange huser halive').1, fun v hv huid ↦ ?_, fun r hr hne hid ↦ ?_⟩
    · exact Prod.ext_iff.mp ((hflags hlookup v hv huid).trans hsame)
    · have hcancel : SameLookup r.nickId w (cancelUser conf env u w) := .cancelUser conf env hne w
      have hlast := hothers r.nickId hid
      constructor
      · rw [hlast.row, rowStatus, ((CacheOnly.refl _).freshenStatus _ _).db]
        exact hcancel.row
      · rw [hlast.seen hlookup, getNickStatus_freshenStatus hcancelled hmaster hlookup, hcancel.seen halive]

/-- The flags of a nick that is not linked are those that cancelling the user leaves. -/
theorem authFlags_unlinked (halive : w.alive = true) (hreal : u.realId ≠ 0) :
    authFlags (getNickStatus env.now u.realId (cancelUser conf env u w)) = userFlags env.now u w ↔
      (guested w u.realId = false ∨ nickcacheFind w u.realId = none → nickRecognized env.now u w = false) ∧
        (guested w u.realId = true → ∀ nc, nickcacheFind w u.realId = some nc →
          authFlags nc.status = userFlags env.now u w) := by
  rw [authFlags_cancelUser halive hreal]
  cases hfind : nickcacheFind w u.realId with
  | none =>
    dsimp only
    rw [eq_comm, userFlags_eq_false_iff]
    constructor
    · exact fun h ↦ ⟨fun _ ↦ h, fun _ nc hnc ↦ by cases hnc⟩
    · exact fun h ↦ h.1 (.inr rfl)
  | some nc =>
    dsimp only
    by_cases hguested : guested w u.realId = true
    · rw [if_pos hguested]
      constructor
      · intro h
        refine ⟨fun hno ↦ ?_, fun _ nc' hnc' ↦ ?_⟩
        · rcases hno with hno | hno
          · rw [hguested] at hno
            cases hno
          · cases hno
        · rw [← Option.some.inj hnc']
          exact h
      · exact fun h ↦ h.2 hguested nc rfl
    · rw [if_neg hguested, eq_comm, userFlags_eq_false_iff]
      constructor
      · exact fun h ↦ ⟨fun _ ↦ h, fun hyes ↦ absurd hyes hguested⟩
      · exact fun h ↦ h.1 (.inl (Bool.not_eq_true _ ▸ hguested))

/-- Whether a change of case leaves the user as he is, for any state. -/
theorem keepsIdentification_iff (halive : w.alive = true) (huser : finduser w source = some u)
    (hcase : sameName nick source = true) :
    KeepsIdentification env.now nick u w (doNickChange conf env source nick w) ↔
      CaseChangeMeets env.now nick u w := by
  have hcancelled : (cancelUser conf env u w).alive = true := alive_cancelUser halive
  by_cases hnick : mysqlFindnick w.db nick = 0
  · rw [keepsIdentification_unregistered halive huser hcase hnick]
    constructor
    · intro h
      exact ⟨fun _ ↦ h, fun hno ↦ absurd hnick hno, fun hno ↦ absurd hnick hno, fun hno ↦ absurd hnick hno,
        fun hno ↦ absurd hnick hno⟩
    · exact fun h ↦ h.unregistered hnick
  · rw [keepsIdentification_registered halive huser hcase hnick]
    by_cases hlinked : u.nickId = u.realId
    · rw [hlinked]
      constructor
      · rintro ⟨hlookup, hflags⟩
        have hreal := ne_zero_of_alive_freshenStatus hcancelled hlookup
        obtain ⟨hunlinked, htaken⟩ := (authFlags_unlinked halive hreal).mp hflags
        exact ⟨fun hno ↦ absurd hno hnick, fun _ ↦ hlinked ▸ hreal, fun _ _ ↦ hunlinked, fun _ _ ↦ htaken,
          fun _ hno ↦ absurd hlinked hno⟩
      · intro h
        have hreal : u.realId ≠ 0 := hlinked ▸ h.master hnick
        constructor
        · rw [alive_freshenStatus_iff hcancelled hreal]
          intro nc hfind hold
          rw [young_cancelUser halive hreal hfind, Nat.sub_self] at hold
          omega
        · exact (authFlags_unlinked halive hreal).mpr ⟨h.unlinked hnick hlinked, h.taken hnick hlinked⟩
    · have hsame : SameLookup u.nickId w (cancelUser conf env u w) := .cancelUser conf env hlinked w
      have hlookup (hmaster : u.nickId ≠ 0) :
          (freshenStatus env.now u.nickId (cancelUser conf env u w)).alive = true ↔
            (freshenStatus env.now u.nickId w).alive = true := by
        rw [alive_freshenStatus_iff hcancelled hmaster, hsame.find, hsame.row,
          alive_freshenStatus_iff halive hmaster]
      rw [hsame.seen halive]
      constructor
      · rintro ⟨hfound, hflags⟩
        have hmaster := ne_zero_of_alive_freshenStatus hcancelled hfound
        exact ⟨fun hno ↦ absurd hno hnick, fun _ ↦ hmaster, fun _ hno ↦ absurd hno hlinked,
          fun _ hno ↦ absurd hno hlinked, fun _ _ ↦ ⟨(hlookup hmaster).mp hfound, hflags⟩⟩
      · intro h
        obtain ⟨hfound, hflags⟩ := h.linked hnick hlinked
        exact ⟨(hlookup (h.master hnick)).mpr hfound, hflags⟩

end CaseChange

/-! ### Runs -/

/-- In every reachable state, a NICK that changes upper and lower case only leaves the user identified and
recognized as he was, and the statuses of all other nicks as they were, exactly when this is met. -/
theorem caseChange_iff (conf : Config) (msgs : List (Env × Message))
    (halive : (run conf World.empty msgs).alive = true) (env : Env) (source nick : CString) (u : User)
    (huser : finduser (run conf World.empty msgs) source = some u) (hcase : sameName nick source = true) :
    KeepsIdentification env.now nick u (run conf World.empty msgs)
        (step conf (run conf World.empty msgs) (env, .nick source nick)) ↔
      CaseChangeMeets env.now nick u (run conf World.empty msgs) :=
  keepsIdentification_iff halive huser hcase

/-- A user comes back to his nick from elsewhere and does not identify. -/
def unidentified : List (Env × Message) :=
  newNick 1 "a" ++ [(trusting 2, .quit "a".toList), (trusting 3, .connect "a".toList "user".toList "other".toList)]

/-- A user who is not identified does not become so. -/
theorem caseChange_iff_unidentified :
    KeepsIdentification 4 "A".toList ⟨1, "a".toList, "user".toList, "other".toList, 1, 1, 3, 0, false, 0⟩
      (run openConfig World.empty unidentified)
      (step openConfig (run openConfig World.empty unidentified) (trusting 4, .nick "a".toList "A".toList)) := by
  refine (caseChange_iff openConfig unidentified (by decide +kernel) (trusting 4) "a".toList "A".toList _
    (by decide +kernel) (by decide +kernel)).mpr ⟨?_, ?_, ?_, ?_, ?_⟩
  · intro hnone
    revert hnone
    decide +kernel
  · intro _
    decide
  · intro _ _ _
    decide +kernel
  · intro _ _ hguested
    revert hguested
    decide +kernel
  · exact fun _ hlinked ↦ absurd rfl hlinked

/-- A user registers his nick, which identifies him, and changes its case: he is not identified any more. -/
theorem caseChange_forgets :
    ¬ ∀ conf msgs, (run conf World.empty msgs).alive = true → ∀ env source nick u,
      finduser (run conf World.empty msgs) source = some u → sameName nick source = true →
        KeepsIdentification env.now nick u (run conf World.empty msgs)
          (step conf (run conf World.empty msgs) (env, .nick source nick)) := by
  intro h
  have halive : (run openConfig World.empty (newNick 1 "a")).alive = true := by decide +kernel
  have huser : finduser (run openConfig World.empty (newNick 1 "a")) "a".toList =
      some ⟨0, "a".toList, "user".toList, "host".toList, 1, 1, 1, 0, false, 1⟩ := by decide +kernel
  have hcase : sameName "A".toList "a".toList = true := by decide +kernel
  have hkept := h openConfig (newNick 1 "a") halive (trusting 2) "a".toList "A".toList _ huser hcase
  rw [step] at hkept
  have hmeets := (keepsIdentification_iff halive huser hcase).mp hkept
  have hnone := hmeets.unlinked (by decide +kernel) rfl (.inl (by decide +kernel))
  revert hnone
  decide +kernel

/-- `a` is linked to `b`, whose user is identified, and another user connects as `a`. -/
def linkedVisit : List (Env × Message) :=
  newNick 1 "a" ++ newNick 2 "b" ++
  [(trusting 3, .command "a".toList (.link (some "b".toList) (some "pass".toList))),
    (trusting 4, .quit "a".toList), (trusting 5, .connect "a".toList "user".toList "host".toList)]

/-- With the status of the master he is identified when he has changed the case, without a password. -/
example :
    let w := run openConfig World.empty linkedVisit
    (w.users.map fun u ↦ (u.nick, nickIdentified 6 u w)) = [("a".toList, false), ("b".toList, true)] ∧
      let w' := step openConfig w (trusting 6, .nick "a".toList "A".toList)
      (w'.users.map fun u ↦ (u.nick, nickIdentified 6 u w')) = [("A".toList, true), ("b".toList, true)] := by
  decide +kernel

end BlitzedServices.NickServ
