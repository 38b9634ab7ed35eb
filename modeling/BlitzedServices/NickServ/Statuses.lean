import BlitzedServices.NickServ.Effects

/-!
# Statuses of nicks

The status of a nick stands in its row and in the nick cache, which also has its language. `Statuses`
says of an operation which nicks it may give `NS_IDENTIFIED`, and under which condition the cache agrees
with the table after it if it did before. An operation that writes a status twice, to the row and to the
cache, gets one lemma for both writes.
-/

set_option autoImplicit false
set_option relaxedAutoImplicit false

namespace BlitzedServices.NickServ

open Lib Mysql ChanServ

/-! ### What the cache should be like -/

/-- An entry has the status and the language of a row. -/
def Matches (w : World) (nc : Nickcache) : Prop :=
  ∃ r ∈ w.db.nick, r.nickId = nc.nickId ∧ r.status = nc.status ∧
    (w.columns nc.nickId).language = nc.language

/-- All entries match, and the next id of a nick is new. -/
structure Cached (w : World) : Prop where
  entry : ∀ nc ∈ w.nickcache, Matches w nc
  lt : ∀ r ∈ w.db.nick, r.nickId < w.nextNickId

/-- The cache of a live process is right. -/
def Coherently (w : World) : Prop :=
  w.alive = true → Cached w

/-- The nick is identified in its row or in the cache. -/
def Marked (w : World) (nickId : ℕ) : Prop :=
  (∃ r ∈ w.db.nick, r.nickId = nickId ∧ r.status &&& NS_IDENTIFIED ≠ 0#32) ∨
    ∃ nc ∈ w.nickcache, nc.nickId = nickId ∧ nc.status &&& NS_IDENTIFIED ≠ 0#32

/-- A change of a status that can be made twice and identifies nobody. -/
structure Plain (f : BitVec 32 → BitVec 32) : Prop where
  idem : ∀ s, f (f s) = f s
  identified : ∀ s, f s &&& NS_IDENTIFIED ≠ 0#32 → s &&& NS_IDENTIFIED ≠ 0#32

theorem plain_add {c : BitVec 32} (h : c &&& NS_IDENTIFIED = 0#32) : Plain (· ||| c) := by
  constructor
  · intro s
    rw [BitVec.or_assoc, BitVec.or_self]
  · intro s hs hzero
    apply hs
    ext i hi
    have hsi := congrArg (·[i]) hzero
    have hci := congrArg (·[i]) h
    simp only [BitVec.getElem_and, BitVec.getElem_or, BitVec.getElem_zero] at hsi hci ⊢
    rw [Bool.and_or_distrib_right, hsi, hci]
    rfl

theorem plain_remove (c : BitVec 32) : Plain (· &&& ~~~c) := by
  constructor
  · intro s
    rw [BitVec.and_assoc, BitVec.and_self]
  · intro s hs hzero
    apply hs
    rw [BitVec.and_assoc, BitVec.and_comm (~~~c), ← BitVec.and_assoc, hzero, BitVec.zero_and]

/-! ### Operations of the cache -/

section Cache

variable {w w' : World} {now nickId : ℕ}

theorem selectCached_eq_some {nc : Nickcache} (h : selectCached now nickId w = some nc) :
    nc.nickId = nickId ∧ ∃ r ∈ w.db.nick, r.nickId = nickId ∧ r.status = nc.status ∧
      (w.columns nickId).language = nc.language := by
  obtain ⟨r, hr, rfl⟩ := Option.map_eq_some_iff.mp h
  have hid : r.nickId = nickId := by simpa using List.find?_some hr
  exact ⟨rfl, r, List.mem_of_find?_eq_some hr, hid, rfl, rfl⟩

theorem matches_selectCached {nc : Nickcache} (h : selectCached now nickId w = some nc) :
    Matches w nc := by
  obtain ⟨rfl, hrow⟩ := selectCached_eq_some h
  exact hrow

theorem matches_congr (hdb : w'.db = w.db) (hcolumns : w'.columns = w.columns) {nc : Nickcache} :
    Matches w' nc ↔ Matches w nc := by
  rw [Matches, Matches, hdb, hcolumns]

theorem entry_nickcacheInsert {p : Nickcache → Prop} (h : ∀ nc ∈ w.nickcache, p nc)
    (hrow : ∀ nc, selectCached now nickId w = some nc → p nc) :
    ∀ nc ∈ (nickcacheInsert now nickId w).nickcache, p nc := by
  rw [nickcacheInsert]
  cases hselect : selectCached now nickId w with
  | none => exact h
  | some nc =>
    rintro nc' hnc'
    rcases List.mem_cons.mp hnc' with rfl | hold
    · exact hrow _ hselect
    · exact h nc' hold

/-- An entry is there after it was inserted, or the nick has no row. -/
theorem entry_findOrInsert {p : Nickcache → Prop} (h : ∀ nc ∈ w.nickcache, p nc)
    (hrow : ∀ nc, selectCached now nickId w = some nc → p nc) :
    ∀ nc ∈ (if (nickcacheFind w nickId).isSome then w else nickcacheInsert now nickId w).nickcache,
      p nc := by
  split_ifs
  · exact h
  · exact entry_nickcacheInsert h hrow

theorem findOrInsert_cacheOnly :
    CacheOnly w (if (nickcacheFind w nickId).isSome then w else nickcacheInsert now nickId w) :=
  .ite (.refl w) ((CacheOnly.refl w).nickcacheInsert now nickId)

theorem cached_nickcacheInsert (h : Cached w) : Cached (nickcacheInsert now nickId w) := by
  have hcache := (CacheOnly.refl w).nickcacheInsert now nickId
  constructor
  · refine entry_nickcacheInsert (fun nc hnc ↦ ?_) fun nc hnc ↦ ?_
    · exact (matches_congr hcache.db hcache.columns).mpr (h.entry nc hnc)
    · exact (matches_congr hcache.db hcache.columns).mpr (matches_selectCached hnc)
  · rw [hcache.db, hcache.nextNickId]
    exact h.lt

/-- The entry of the nick is read anew, so it need not match before. -/
theorem cached_nickcacheUpdate (h : ∀ nc ∈ w.nickcache, nc.nickId ≠ nickId → Matches w nc)
    (hlt : ∀ r ∈ w.db.nick, r.nickId < w.nextNickId)
    (halive : (nickcacheUpdate now nickId w).alive = true) :
    Cached (nickcacheUpdate now nickId w) := by
  have hcache := (CacheOnly.refl w).nickcacheUpdate now nickId
  constructor
  · have hfind : CacheOnly w (if (nickcacheFind w nickId).isSome then w
        else nickcacheInsert now nickId w) := findOrInsert_cacheOnly
    have hentry : ∀ nc ∈ (if (nickcacheFind w nickId).isSome then w
        else nickcacheInsert now nickId w).nickcache, nc.nickId ≠ nickId → Matches w nc :=
      entry_findOrInsert h fun nc hnc _ ↦ matches_selectCached hnc
    intro nc hnc
    rw [matches_congr hcache.db hcache.columns]
    rw [nickcacheUpdate] at hnc halive
    generalize (if (nickcacheFind w nickId).isSome then w else nickcacheInsert now nickId w) = w₁
      at hnc halive hfind hentry
    cases hselect : selectCached now nickId w₁ with
    | some nc₁ =>
      rw [hselect] at hnc
      obtain ⟨nc₀, hnc₀, rfl⟩ := List.mem_map.mp hnc
      split_ifs with hid
      · exact (matches_congr hfind.db hfind.columns).mp (matches_selectCached hselect)
      · exact hentry nc₀ hnc₀ hid
    | none =>
      rw [hselect] at hnc halive
      dsimp only at hnc halive
      rw [nickcacheDel] at hnc halive
      split_ifs at hnc halive with hany hend
      · cases halive
      · refine hentry nc hnc fun hid ↦ hany (List.any_eq_true.mpr ⟨nc, ?_, decide_eq_true hid⟩)
        exact List.mem_filter.mpr ⟨hnc, by rw [hid]; exact decide_eq_true rfl⟩
      · cases halive
  · rw [hcache.db, hcache.nextNickId]
    exact hlt

theorem cached_nickcacheFreshen (stamp : Nickcache → ℕ) (h : Coherently w) :
    Coherently (nickcacheFreshen stamp now nickId w) := by
  refine World.act_cases h fun halive ↦ ite_ind (fun _ hdead ↦ by cases hdead) fun _ ↦ ?_
  have hw := h halive
  cases nickcacheFind w nickId with
  | none => exact fun _ ↦ cached_nickcacheInsert hw
  | some nc =>
    refine ite_ind (fun _ halive' ↦ ?_) fun _ ↦ h
    exact cached_nickcacheUpdate (fun nc hnc _ ↦ hw.entry nc hnc) hw.lt halive'

/-- After a write the entry of the nick is as the write makes it. -/
theorem cached_nickcacheWrite {f : Nickcache → Nickcache}
    (h : ∀ nc ∈ w.nickcache, Matches w (if nc.nickId = nickId then f nc else nc))
    (hrow : ∀ nc, selectCached now nickId w = some nc → Matches w (f nc))
    (hlt : ∀ r ∈ w.db.nick, r.nickId < w.nextNickId) :
    Coherently (nickcacheWrite f now nickId w) := by
  intro halive
  have hcache := (CacheOnly.refl w).nickcacheWrite f now nickId
  constructor
  · intro nc hnc
    rw [matches_congr hcache.db hcache.columns]
    rw [nickcacheWrite, World.act, if_pos (hcache.alive halive)] at hnc halive
    by_cases hzero : nickId = 0
    · rw [if_pos hzero] at halive
      cases halive
    · rw [if_neg hzero] at hnc
      obtain ⟨nc₀, hnc₀, rfl⟩ := List.mem_map.mp hnc
      refine entry_findOrInsert (p := fun nc ↦ Matches w (if nc.nickId = nickId then f nc else nc)) h
        (fun nc hselect ↦ ?_) nc₀ hnc₀
      rw [if_pos (selectCached_eq_some hselect).1]
      exact hrow nc hselect
  · rw [hcache.db, hcache.nextNickId]
    exact hlt

theorem entry_nickcacheUpdate {p : Nickcache → Prop} (h : ∀ nc ∈ w.nickcache, p nc)
    (hrow : ∀ nc, selectCached now nickId w = some nc → p nc) :
    ∀ nc ∈ (nickcacheUpdate now nickId w).nickcache, p nc := by
  have hfind : CacheOnly w (if (nickcacheFind w nickId).isSome then w
      else nickcacheInsert now nickId w) := findOrInsert_cacheOnly
  have hentry := entry_findOrInsert h hrow
  rw [nickcacheUpdate]
  generalize (if (nickcacheFind w nickId).isSome then w else nickcacheInsert now nickId w) = w₁
    at hfind hentry
  have hsame : selectCached now nickId w₁ = selectCached now nickId w := by
    rw [selectCached, selectCached, hfind.db, hfind.columns]
  cases hselect : selectCached now nickId w₁ with
  | some nc₁ =>
    intro nc hnc
    obtain ⟨nc₀, hnc₀, rfl⟩ := List.mem_map.mp hnc
    dsimp only
    split_ifs
    · exact hrow nc₁ (hsame ▸ hselect)
    · exact hentry nc₀ hnc₀
  | none =>
    exact ite_ind (p := fun w' ↦ ∀ nc ∈ w'.nickcache, p nc) (fun _ ↦ hentry) fun _ ↦
      ite_ind (p := fun w' ↦ ∀ nc ∈ w'.nickcache, p nc) (fun _ ↦ hentry) fun _ ↦ hentry

theorem entry_nickcacheFreshen {p : Nickcache → Prop} (stamp : Nickcache → ℕ)
    (h : ∀ nc ∈ w.nickcache, p nc) (hrow : ∀ nc, selectCached now nickId w = some nc → p nc) :
    ∀ nc ∈ (nickcacheFreshen stamp now nickId w).nickcache, p nc := by
  refine World.act_cases (p := fun w' ↦ ∀ nc ∈ w'.nickcache, p nc) h fun _ ↦
    ite_ind (p := fun w' ↦ ∀ nc ∈ w'.nickcache, p nc) (fun _ ↦ h) fun _ ↦ ?_
  cases nickcacheFind w nickId with
  | none => exact entry_nickcacheInsert h hrow
  | some nc =>
    exact ite_ind (p := fun w' ↦ ∀ nc ∈ w'.nickcache, p nc) (fun _ ↦ entry_nickcacheUpdate h hrow)
      fun _ ↦ h

theorem entry_nickcacheWrite {p q : Nickcache → Prop} {f : Nickcache → Nickcache}
    (h : ∀ nc ∈ w.nickcache, p nc) (hrow : ∀ nc, selectCached now nickId w = some nc → p nc)
    (hf : ∀ nc, p nc → nc.nickId = nickId → q (f nc)) (hq : ∀ nc, p nc → q nc) :
    ∀ nc ∈ (nickcacheWrite f now nickId w).nickcache, q nc := by
  have hold : ∀ nc ∈ w.nickcache, q nc := fun nc hnc ↦ hq nc (h nc hnc)
  refine World.act_cases (p := fun w' ↦ ∀ nc ∈ w'.nickcache, q nc) hold fun _ ↦
    ite_ind (p := fun w' ↦ ∀ nc ∈ w'.nickcache, q nc) (fun _ ↦ hold) fun _ nc hnc ↦ ?_
  obtain ⟨nc₀, hnc₀, rfl⟩ := List.mem_map.mp hnc
  have hp := entry_findOrInsert h hrow nc₀ hnc₀
  split_ifs with hid
  · exact hf nc₀ hp hid
  · exact hq nc₀ hp

end Cache

/-! ### Operations on statuses -/

/-- What an operation does to the statuses: it identifies at most the nicks of `P`, and under the
condition `C` the cache stays right. -/
structure Statuses (P : ℕ → Prop) (C : Prop) (w w' : World) : Prop where
  marked : ∀ nickId, Marked w' nickId → Marked w nickId ∨ P nickId
  cached : C → Coherently w → Coherently w'

/-- The row of a nick was changed and the cache not yet. -/
structure Ahead (f : BitVec 32 → BitVec 32) (nickId : ℕ) (w : World) : Prop where
  entry : ∀ nc ∈ w.nickcache,
    Matches w (if nc.nickId = nickId then { nc with status := f nc.status } else nc)
  fixed : ∀ r ∈ w.db.nick, r.nickId = nickId → f r.status = r.status
  lt : ∀ r ∈ w.db.nick, r.nickId < w.nextNickId

/-- The same statuses and languages, and the same cache. -/
structure SameStatuses (w w' : World) : Prop where
  nick : w'.db.nick.map (fun r ↦ (r.nickId, r.status)) = w.db.nick.map fun r ↦ (r.nickId, r.status)
  nickcache : w'.nickcache = w.nickcache
  language : ∀ nickId, (w'.columns nickId).language = (w.columns nickId).language
  nextNickId : w'.nextNickId = w.nextNickId
  alive : w'.alive = true → w.alive = true

namespace SameStatuses

variable {w w' : World}

theorem exists_row {p : ℕ → BitVec 32 → Prop} (h : SameStatuses w w') :
    (∃ r ∈ w'.db.nick, p r.nickId r.status) ↔ ∃ r ∈ w.db.nick, p r.nickId r.status := by
  have hrows (db : Database) : (∃ r ∈ db.nick, p r.nickId r.status) ↔
      ∃ c ∈ db.nick.map (fun r ↦ (r.nickId, r.status)), p c.1 c.2 := by
    simp only [List.mem_map, exists_exists_and_eq_and]
  rw [hrows, hrows, h.nick]

theorem matches_iff (h : SameStatuses w w') {nc : Nickcache} : Matches w' nc ↔ Matches w nc := by
  rw [Matches, Matches, h.language]
  exact h.exists_row (p := fun id status ↦ id = nc.nickId ∧ status = nc.status ∧
    (w.columns nc.nickId).language = nc.language)

theorem marked_iff (h : SameStatuses w w') {nickId : ℕ} : Marked w' nickId ↔ Marked w nickId := by
  rw [Marked, Marked, h.nickcache]
  exact or_congr_left
    (h.exists_row (p := fun id status ↦ id = nickId ∧ status &&& NS_IDENTIFIED ≠ 0#32))

theorem lt (h : SameStatuses w w') (hlt : ∀ r ∈ w.db.nick, r.nickId < w.nextNickId) :
    ∀ r ∈ w'.db.nick, r.nickId < w'.nextNickId := by
  rw [h.nextNickId]
  by_contra hnot
  push Not at hnot
  obtain ⟨r, hr, hle⟩ := (h.exists_row (p := fun id _ ↦ w.nextNickId ≤ id)).mp hnot
  exact absurd (hlt r hr) (Nat.not_lt.mpr hle)

theorem cached (h : SameStatuses w w') (hw : Cached w) : Cached w' := by
  constructor
  · rw [h.nickcache]
    exact fun nc hnc ↦ h.matches_iff.mpr (hw.entry nc hnc)
  · exact h.lt hw.lt

theorem ahead (h : SameStatuses w w') {f : BitVec 32 → BitVec 32} {nickId : ℕ}
    (hw : Ahead f nickId w) : Ahead f nickId w' := by
  constructor
  · rw [h.nickcache]
    exact fun nc hnc ↦ h.matches_iff.mpr (hw.entry nc hnc)
  · intro r hr hid
    by_contra hne
    obtain ⟨s, hs, hsid, hsne⟩ := (h.exists_row
      (p := fun id status ↦ id = nickId ∧ f status ≠ status)).mp ⟨r, hr, hid, hne⟩
    exact hsne (hw.fixed s hs hsid)
  · exact h.lt hw.lt

end SameStatuses

section Writes

variable {w : World} {f : BitVec 32 → BitVec 32} {now nickId : ℕ}

theorem updateNick_alive (f : NickRow → NickRow) (nickId : ℕ) (w : World) :
    (updateNick f nickId w).alive = w.alive :=
  World.act_cases (p := fun w' ↦ w'.alive = w.alive) rfl fun _ ↦ rfl

/-- A write to the row. -/
theorem ahead_updateStatus (hf : ∀ s, f (f s) = f s) (h : Cached w) (halive : w.alive = true) :
    Ahead f nickId (updateStatus f nickId w) := by
  rw [updateStatus, updateNick, World.act, if_pos halive]
  constructor
  · intro nc hnc
    obtain ⟨r, hr, hid, hstatus, hlanguage⟩ := h.entry nc hnc
    by_cases hrow : nc.nickId = nickId
    · rw [if_pos hrow]
      refine ⟨_, List.mem_map_of_mem hr, ?_⟩
      rw [if_pos (hid.trans hrow)]
      exact ⟨hid, congrArg f hstatus, hlanguage⟩
    · rw [if_neg hrow]
      refine ⟨_, List.mem_map_of_mem hr, ?_⟩
      rw [if_neg fun h ↦ hrow (hid.symm.trans h)]
      exact ⟨hid, hstatus, hlanguage⟩
  · refine List.forall_mem_map.mpr fun r _ hid ↦ ?_
    split_ifs at hid ⊢ with hrow
    · exact hf r.status
    · exact absurd hid hrow
  · refine List.forall_mem_map.mpr fun r hr ↦ ?_
    split_ifs
    · exact h.lt r hr
    · exact h.lt r hr

/-- The same write to the cache. -/
theorem Ahead.nickcacheChangeStatus (h : Ahead f nickId w) :
    Coherently (nickcacheChangeStatus f now nickId w) := by
  refine cached_nickcacheWrite (fun nc hnc ↦ ?_) (fun nc hselect ↦ ?_) h.lt
  · have hentry := h.entry nc hnc
    split_ifs at hentry ⊢
    · exact hentry
    · exact hentry
  · obtain ⟨hid, r, hr, hrid, hstatus, hlanguage⟩ := selectCached_eq_some hselect
    exact ⟨r, hr, hrid.trans hid.symm, (h.fixed r hr hrid).symm.trans (congrArg f hstatus),
      hid ▸ hlanguage⟩

/-- The entry is read anew. -/
theorem Ahead.nickcacheUpdate (h : Ahead f nickId w) :
    Coherently (nickcacheUpdate now nickId w) := by
  refine cached_nickcacheUpdate (fun nc hnc hid ↦ ?_) h.lt
  have hentry := h.entry nc hnc
  rwa [if_neg hid] at hentry

/-- The marks after a change of the cache alone. -/
theorem marked_of_entries {P : ℕ → Prop} {w' : World} (hnick : w'.db.nick = w.db.nick)
    (hentry : ∀ nc ∈ w'.nickcache, nc.status &&& NS_IDENTIFIED ≠ 0#32 →
      Marked w nc.nickId ∨ P nc.nickId) (id : ℕ) (h : Marked w' id) : Marked w id ∨ P id := by
  rcases h with ⟨r, hr, hrow⟩ | ⟨nc, hnc, rfl, hmark⟩
  · exact .inl (.inl ⟨r, hnick ▸ hr, hrow⟩)
  · exact hentry nc hnc hmark

theorem marked_old {nc : Nickcache} (hnc : nc ∈ w.nickcache)
    (hmark : nc.status &&& NS_IDENTIFIED ≠ 0#32) : Marked w nc.nickId :=
  .inr ⟨nc, hnc, rfl, hmark⟩

theorem marked_selected {nc : Nickcache} (h : selectCached now nickId w = some nc)
    (hmark : nc.status &&& NS_IDENTIFIED ≠ 0#32) : Marked w nc.nickId := by
  obtain ⟨rfl, r, hr, hid, hstatus, -⟩ := selectCached_eq_some h
  exact .inl ⟨r, hr, hid, hstatus ▸ hmark⟩

/-- A language identifies nobody. -/
theorem marked_nickcacheSetLanguage (language id : ℕ)
    (h : Marked (nickcacheSetLanguage now nickId language w) id) : Marked w id := by
  refine (marked_of_entries (P := fun _ ↦ False) (congrArg Database.nick
    ((CacheOnly.refl w).nickcacheWrite _ now nickId).db) ?_ id h).resolve_right fun h ↦ h
  exact entry_nickcacheWrite (p := fun nc ↦ nc.status &&& NS_IDENTIFIED ≠ 0#32 → Marked w nc.nickId)
    (fun nc hnc ↦ marked_old hnc) (fun nc hselect ↦ marked_selected hselect)
    (fun nc hold _ hmark ↦ .inl (hold hmark)) fun nc hold hmark ↦ .inl (hold hmark)

/-- The language of a nick with a row is that of the row. -/
theorem cached_nickcacheSetLanguage {language : ℕ}
    (h : ∀ nc ∈ w.nickcache, nc.nickId ≠ nickId → Matches w nc)
    (hid : ∀ nc ∈ w.nickcache, nc.nickId = nickId →
      ∃ r ∈ w.db.nick, r.nickId = nc.nickId ∧ r.status = nc.status)
    (hrow : ∀ r ∈ w.db.nick, r.nickId = nickId → (w.columns nickId).language = language)
    (hlt : ∀ r ∈ w.db.nick, r.nickId < w.nextNickId) :
    Coherently (nickcacheSetLanguage now nickId language w) := by
  refine cached_nickcacheWrite (fun nc hnc ↦ ?_) (fun nc hselect ↦ ?_) hlt
  · split_ifs with hnick
    · obtain ⟨r, hr, hrid, hstatus⟩ := hid nc hnc hnick
      exact ⟨r, hr, hrid, hstatus, hnick ▸ hrow r hr (hrid.trans hnick)⟩
    · exact h nc hnc hnick
  · obtain ⟨rfl, r, hr, hrid, hstatus, -⟩ := selectCached_eq_some hselect
    exact ⟨r, hr, hrid, hstatus, hrow r hr hrid⟩

/-- The row of a new nick. -/
theorem ahead_insertNick {row : NickRow} {columns : NickColumns} (h : Cached w)
    (halive : (insertNick row columns w).alive = true) :
    Ahead (fun _ ↦ row.status) w.nextNickId (insertNick row columns w) ∧
      ((insertNick row columns w).columns w.nextNickId).language = columns.language := by
  rw [insertNick, World.act] at halive ⊢
  split_ifs at halive ⊢ with hw hname
  · cases halive
  · have hne : ∀ nc ∈ w.nickcache, nc.nickId ≠ w.nextNickId := by
      intro nc hnc hid
      obtain ⟨r, hr, hrid, -⟩ := h.entry nc hnc
      exact absurd (h.lt r hr) (by rw [hrid, hid]; exact Nat.lt_irrefl _)
    refine ⟨⟨fun nc hnc ↦ ?_, fun r hr hid ↦ ?_, fun r hr ↦ ?_⟩, ?_⟩
    · obtain ⟨r, hr, hrid, hstatus, hlanguage⟩ := h.entry nc hnc
      rw [if_neg (hne nc hnc)]
      refine ⟨r, List.mem_append_left _ hr, hrid, hstatus, ?_⟩
      dsimp only
      rw [Function.update_of_ne (hne nc hnc)]
      exact hlanguage
    · rcases List.mem_append.mp hr with hold | hnew
      · exact absurd (h.lt r hold) (by rw [hid]; exact Nat.lt_irrefl _)
      · rw [List.mem_singleton.mp hnew]
    · rcases List.mem_append.mp hr with hold | hnew
      · exact Nat.lt_succ_of_lt (h.lt r hold)
      · rw [List.mem_singleton.mp hnew]
        exact Nat.lt_succ_self _
    · dsimp only
      rw [Function.update_self]
  · exact absurd halive hw

theorem alive_of_insertNick {row : NickRow} {columns : NickColumns}
    (h : (insertNick row columns w).alive = true) : w.alive = true := by
  rw [insertNick, World.act] at h
  split_ifs at h with hw
  · cases h
  · exact hw
  · exact h

theorem marked_insertNick {P : ℕ → Prop} {row : NickRow} {columns : NickColumns}
    (hP : row.status &&& NS_IDENTIFIED ≠ 0#32 → P w.nextNickId) (id : ℕ)
    (h : Marked (insertNick row columns w) id) : Marked w id ∨ P id := by
  refine World.act_cases (p := fun w' ↦ Marked w' id → Marked w id ∨ P id) .inl (fun _ h ↦ ?_) h
  refine ite_ind (p := fun w' ↦ Marked w' id → Marked w id ∨ P id) (w := w.die) (fun _ ↦ .inl)
    (fun _ h ↦ ?_) h
  rcases h with ⟨r, hr, rfl, hmark⟩ | hcache
  · rcases List.mem_append.mp hr with hold | hnew
    · exact .inl (.inl ⟨r, hold, rfl, hmark⟩)
    · rw [List.mem_singleton.mp hnew] at hmark ⊢
      exact .inr (hP hmark)
  · exact .inl (.inr hcache)

end Writes

namespace Statuses

variable {P : ℕ → Prop} {C : Prop} {w₀ w : World}

theorem refl (w : World) : Statuses P C w w := ⟨fun _ ↦ .inl, fun _ ↦ id⟩

theorem trans {w₁ w₂ w₃ : World} (h₁ : Statuses P C w₁ w₂) (h₂ : Statuses P C w₂ w₃) :
    Statuses P C w₁ w₃ := by
  refine ⟨fun nickId hmark ↦ ?_, fun hC h ↦ h₂.cached hC (h₁.cached hC h)⟩
  rcases h₂.marked nickId hmark with hmid | hP
  · exact h₁.marked nickId hmid
  · exact .inr hP

theorem act {f : World → World} (h : Statuses P C w₀ w)
    (hf : w.alive = true → Statuses P C w (f w)) : Statuses P C w₀ (w.act f) :=
  World.act_cases h fun halive ↦ h.trans (hf halive)

theorem ite {c : Prop} [Decidable c] {w₁ w₂ : World} (h₁ : Statuses P C w w₁)
    (h₂ : Statuses P C w w₂) : Statuses P C w (if c then w₁ else w₂) := by
  split_ifs
  · exact h₁
  · exact h₂

theorem die (h : Statuses P C w₀ w) : Statuses P C w₀ w.die :=
  ⟨h.marked, fun _ _ halive ↦ by cases halive⟩

theorem same {w' : World} (h : Statuses P C w₀ w) (hs : SameStatuses w w') :
    Statuses P C w₀ w' := by
  refine h.trans ⟨fun nickId hmark ↦ .inl (hs.marked_iff.mp hmark), fun _ hw halive ↦ ?_⟩
  exact hs.cached (hw (hs.alive halive))

theorem freshen (h : Statuses P C w₀ w) (stamp : Nickcache → ℕ) (now nickId : ℕ) :
    Statuses P C w₀ (nickcacheFreshen stamp now nickId w) := by
  refine h.trans ⟨?_, fun _ hw ↦ cached_nickcacheFreshen stamp hw⟩
  refine marked_of_entries (congrArg Database.nick
    ((CacheOnly.refl w).nickcacheFreshen stamp now nickId).db) ?_
  refine entry_nickcacheFreshen (p := fun nc ↦ nc.status &&& NS_IDENTIFIED ≠ 0#32 →
    Marked w nc.nickId ∨ P nc.nickId) stamp (fun nc hnc hmark ↦ ?_) fun nc hselect hmark ↦ ?_
  · exact .inl (marked_old hnc hmark)
  · exact .inl (marked_selected hselect hmark)

theorem marked_updateStatus {f : BitVec 32 → BitVec 32} {nickId : ℕ}
    (hf : ∀ s, f s &&& NS_IDENTIFIED ≠ 0#32 → s &&& NS_IDENTIFIED ≠ 0#32 ∨ P nickId) (id : ℕ)
    (h : Marked (updateStatus f nickId w) id) : Marked w id ∨ P id := by
  refine World.act_cases (p := fun w' ↦ Marked w' id → Marked w id ∨ P id) .inl (fun _ h ↦ ?_) h
  rcases h with ⟨r', hr', rfl, hmark⟩ | hcache
  · obtain ⟨r, hr, rfl⟩ := List.mem_map.mp hr'
    split_ifs at hmark ⊢ with hid
    · refine (hf r.status hmark).imp (fun hmark ↦ .inl ⟨r, hr, rfl, hmark⟩) fun hP ↦ ?_
      rw [hid]
      exact hP
    · exact .inl (.inl ⟨r, hr, rfl, hmark⟩)
  · exact .inl (.inr hcache)

theorem marked_nickcacheChangeStatus {f : BitVec 32 → BitVec 32} {nickId : ℕ}
    (hf : ∀ s, f s &&& NS_IDENTIFIED ≠ 0#32 → s &&& NS_IDENTIFIED ≠ 0#32 ∨ P nickId) (now id : ℕ)
    (h : Marked (nickcacheChangeStatus f now nickId w) id) : Marked w id ∨ P id := by
  refine marked_of_entries (congrArg Database.nick
    ((CacheOnly.refl w).nickcacheWrite _ now nickId).db) ?_ id h
  refine entry_nickcacheWrite (p := fun nc ↦ nc.status &&& NS_IDENTIFIED ≠ 0#32 →
    Marked w nc.nickId) (fun nc hnc ↦ marked_old hnc) (fun nc hselect ↦ marked_selected hselect)
    (fun nc hold hid hmark ↦ ?_) fun nc hold hmark ↦ .inl (hold hmark)
  exact (hf nc.status hmark).imp hold fun hP ↦ hid ▸ hP

/-- A write to the row, a change of other columns, and the same write to the cache. -/
theorem writeWith (h : Statuses P C w₀ w) {f : BitVec 32 → BitVec 32} {nickId : ℕ}
    (hidem : ∀ s, f (f s) = f s)
    (hf : ∀ s, f s &&& NS_IDENTIFIED ≠ 0#32 → s &&& NS_IDENTIFIED ≠ 0#32 ∨ P nickId) {w₁ : World}
    (hs : SameStatuses (updateStatus f nickId w) w₁) (now : ℕ) :
    Statuses P C w₀ (nickcacheChangeStatus f now nickId w₁) := by
  refine h.trans ⟨fun id hmark ↦ ?_, fun _ hw halive ↦ ?_⟩
  · rcases marked_nickcacheChangeStatus hf now id hmark with hmid | hP
    · exact marked_updateStatus hf id (hs.marked_iff.mp hmid)
    · exact .inr hP
  · have halive₁ := hs.alive (((CacheOnly.refl w₁).nickcacheWrite _ now nickId).alive halive)
    have halive₀ := (updateNick_alive _ _ _).symm.trans halive₁
    exact (hs.ahead (ahead_updateStatus hidem (hw halive₀) halive₀)).nickcacheChangeStatus halive

end Statuses

/-! ### What keeps all statuses -/

namespace SameStatuses

variable {w : World}

theorem refl (w : World) : SameStatuses w w := ⟨rfl, rfl, fun _ ↦ rfl, rfl, id⟩

theorem trans {w₁ w₂ w₃ : World} (h₁ : SameStatuses w₁ w₂) (h₂ : SameStatuses w₂ w₃) :
    SameStatuses w₁ w₃ where
  nick := h₂.nick.trans h₁.nick
  nickcache := h₂.nickcache.trans h₁.nickcache
  language nickId := (h₂.language nickId).trans (h₁.language nickId)
  nextNickId := h₂.nextNickId.trans h₁.nextNickId
  alive h := h₁.alive (h₂.alive h)

theorem act {f : World → World} (hf : w.alive = true → SameStatuses w (f w)) :
    SameStatuses w (w.act f) :=
  World.act_cases (refl w) hf

theorem die (w : World) : SameStatuses w w.die := ⟨rfl, rfl, fun _ ↦ rfl, rfl, fun h ↦ by cases h⟩

theorem modifyUser (f : User → User) (uid : ℕ) (w : World) :
    SameStatuses w (modifyUser f uid w) := act fun _ ↦ ⟨rfl, rfl, fun _ ↦ rfl, rfl, id⟩

theorem addUser (u : User) (w : World) : SameStatuses w (addUser u w) :=
  act fun _ ↦ ⟨rfl, rfl, fun _ ↦ rfl, rfl, id⟩

theorem insertAuth (command : AuthCommand) (code name params : CString) (now : ℕ) (w : World) :
    SameStatuses w (insertAuth command code name params now w) :=
  act fun _ ↦ ⟨rfl, rfl, fun _ ↦ rfl, rfl, id⟩

theorem withdraw (p : AuthRow → Bool) (w : World) :
    SameStatuses w (w.act fun w ↦ { w with auth := w.auth.filter p }) :=
  act fun _ ↦ ⟨rfl, rfl, fun _ ↦ rfl, rfl, id⟩

theorem addNsTimeout (nickId : ℕ) (type : TimeoutType) (delay now : ℕ) (w : World) :
    SameStatuses w (addNsTimeout nickId type delay now w) :=
  act fun _ ↦ ⟨rfl, rfl, fun _ ↦ rfl, rfl, id⟩

theorem delNsTimeout (nickId : ℕ) (type : TimeoutType) (w : World) :
    SameStatuses w (delNsTimeout nickId type w) := act fun _ ↦ ⟨rfl, rfl, fun _ ↦ rfl, rfl, id⟩

theorem fireNsTimeout (t : NsTimeout) (w : World) : SameStatuses w (fireNsTimeout t w) :=
  act fun _ ↦ ⟨rfl, rfl, fun _ ↦ rfl, rfl, id⟩

theorem insertMemoinfo (owner : CString) (max : ℤ) (w : World) :
    SameStatuses w (insertMemoinfo owner max w) := by
  refine act fun _ ↦ ?_
  split_ifs
  · exact die w
  · exact ⟨rfl, rfl, fun _ ↦ rfl, rfl, id⟩

theorem insertNickaccess (nickId idx : ℕ) (userhost : CString) (w : World) :
    SameStatuses w (insertNickaccess nickId idx userhost w) := by
  refine act fun _ ↦ ?_
  split_ifs
  · exact die w
  · exact ⟨rfl, rfl, fun _ ↦ rfl, rfl, id⟩

/-- An UPDATE of other columns than the status. -/
theorem updateNick {f : NickRow → NickRow} (nickId : ℕ) (w : World) (hid : ∀ r, (f r).nickId = r.nickId)
    (hstatus : ∀ r, (f r).status = r.status) : SameStatuses w (updateNick f nickId w) := by
  refine act fun _ ↦ ⟨?_, rfl, fun _ ↦ rfl, rfl, id⟩
  rw [List.map_map]
  refine List.map_congr_left fun r _ ↦ ?_
  rw [Function.comp_apply]
  split_ifs
  · exact Prod.ext (hid r) (hstatus r)
  · rfl

theorem updateColumns {f : NickColumns → NickColumns} (nickId : ℕ) (w : World)
    (hf : ∀ c, (f c).language = c.language) : SameStatuses w (updateColumns f nickId w) := by
  refine act fun _ ↦ ⟨rfl, rfl, fun id ↦ ?_, rfl, id⟩
  dsimp only
  by_cases hid : id = nickId
  · subst hid
    rw [Function.update_self]
    exact hf _
  · rw [Function.update_of_ne hid]

/-- An UPDATE that changes no bit. -/
theorem updateNothing (nickId : ℕ) (w : World) : SameStatuses w (updateStatus (· ||| 0#32) nickId w) :=
  updateNick nickId w (fun _ ↦ rfl) fun _ ↦ BitVec.or_zero

theorem linkNick (nickId targetId : ℕ) (w : World) : SameStatuses w (linkNick nickId targetId w) := by
  unfold NickServ.linkNick
  refine trans (trans ?_ (act ?_)) (act ?_)
  · exact updateNick nickId w (fun _ ↦ rfl) fun _ ↦ rfl
  · exact fun _ ↦ ⟨rfl, rfl, fun _ ↦ rfl, rfl, id⟩
  · intro _
    dsimp only
    split
    · exact ⟨rfl, rfl, fun _ ↦ rfl, rfl, id⟩
    · exact die _

end SameStatuses

namespace Statuses

variable {P : ℕ → Prop} {C : Prop} {w₀ w : World}

/-! ### Reading -/

theorem freshenStatus (h : Statuses P C w₀ w) (now nickId : ℕ) :
    Statuses P C w₀ (freshenStatus now nickId w) := h.freshen _ now nickId

theorem noticeLang (h : Statuses P C w₀ w) (now : ℕ) (u : User) :
    Statuses P C w₀ (noticeLang now u w) := .ite (h.freshen _ now u.nickId) h

theorem lookups (h : Statuses P C w₀ w) (now : ℕ) (l : List Lookup) :
    Statuses P C w₀ (lookups now l w) := by
  induction l generalizing w with
  | nil => exact h
  | cons a l ih =>
    apply ih
    cases a with
    | status nickId => exact h.freshen _ now nickId
    | language nickId => exact h.freshen _ now nickId

theorem freshenIdentified (h : Statuses P C w₀ w) (now : ℕ) (u : User) :
    Statuses P C w₀ (freshenIdentified now u w) := .ite (h.freshenStatus now u.realId) h

theorem freshenAdmin (h : Statuses P C w₀ w) (env : Env) (u : User) :
    Statuses P C w₀ (freshenAdmin env u w) := .ite (h.freshenIdentified env.now u) h

theorem syntaxError (h : Statuses P C w₀ w) (env : Env) (u : User) :
    Statuses P C w₀ (syntaxError env u w) :=
  ((h.noticeLang env.now u).noticeLang env.now u).noticeLang env.now u

theorem checkMemos (h : Statuses P C w₀ w) (env : Env) (u : User) :
    Statuses P C w₀ (checkMemos env u w) :=
  .ite ((h.freshenStatus env.now u.realId).lookups env.now env.reads) h

/-! ### Writing -/

theorem change (h : Statuses P C w₀ w) {f : BitVec 32 → BitVec 32} (hf : Plain f) (now nickId : ℕ) :
    Statuses P C w₀ (changeNickStatus f now nickId w) :=
  h.writeWith hf.idem (fun s hs ↦ .inl (hf.identified s hs)) (.refl _) now

theorem mark (h : Statuses P C w₀ w) {nickId : ℕ} (hP : P nickId) (now : ℕ) :
    Statuses P C w₀ (addNickStatus NS_IDENTIFIED now nickId w) := by
  refine h.writeWith (fun s ↦ ?_) (fun _ _ ↦ .inr hP) (.refl _) now
  rw [BitVec.or_assoc, BitVec.or_self]

theorem set (h : Statuses P C w₀ w) {status : BitVec 32} {nickId : ℕ}
    (hP : status &&& NS_IDENTIFIED ≠ 0#32 → P nickId) (now : ℕ) :
    Statuses P C w₀ (setNickStatus status now nickId w) :=
  h.writeWith (f := fun _ ↦ status) (fun _ ↦ rfl) (fun _ hs ↦ .inr (hP hs)) (.refl _) now

/-- A write to the row only. -/
theorem clear (h : Statuses P C w₀ w) (hC : ¬ C) {f : BitVec 32 → BitVec 32} (hf : Plain f)
    (nickId : ℕ) : Statuses P C w₀ (updateStatus f nickId w) := by
  refine h.trans ⟨fun id hmark ↦ ?_, fun hyes ↦ absurd hyes hC⟩
  exact marked_updateStatus (fun s hs ↦ .inl (hf.identified s hs)) id hmark

/-- The user is identified and the entry of his nick is read anew. -/
theorem identify (h : Statuses P C w₀ w) (u : User) (hP : P u.realId) (now : ℕ) :
    Statuses P C w₀ ((mysqlUpdateLastSeen u NS_IDENTIFIED w).act (nickcacheUpdate now u.realId)) := by
  have hsame : SameStatuses (updateStatus (· ||| NS_IDENTIFIED) u.realId w)
      (mysqlUpdateLastSeen u NS_IDENTIFIED w) := by
    rw [mysqlUpdateLastSeen]
    refine .updateColumns _ _ ?_
    exact fun _ ↦ rfl
  refine h.trans ⟨fun id hmark ↦ ?_, fun _ hw ↦ ?_⟩
  · have hmid : Marked (mysqlUpdateLastSeen u NS_IDENTIFIED w) id := by
      refine World.act_cases (p := fun w' ↦ Marked w' id →
        Marked (mysqlUpdateLastSeen u NS_IDENTIFIED w) id) (fun hmark ↦ hmark) (fun _ hmark ↦ ?_) hmark
      have hdb := ((CacheOnly.refl (mysqlUpdateLastSeen u NS_IDENTIFIED w)).nickcacheUpdate now
        u.realId).db
      refine (marked_of_entries (P := fun _ ↦ False) (congrArg Database.nick hdb) ?_ id hmark).resolve_right (fun h ↦ h)
      refine entry_nickcacheUpdate (p := fun nc ↦ nc.status &&& NS_IDENTIFIED ≠ 0#32 →
        Marked (mysqlUpdateLastSeen u NS_IDENTIFIED w) nc.nickId ∨ False)
        (fun nc hnc hmark ↦ .inl (marked_old hnc hmark))
        fun nc hselect hmark ↦ .inl (marked_selected hselect hmark)
    exact marked_updateStatus (fun _ _ ↦ .inr hP) id (hsame.marked_iff.mp hmid)
  · rw [World.act]
    split_ifs with halive
    · have halive₀ := (updateNick_alive _ _ _).symm.trans (hsame.alive halive)
      refine (hsame.ahead (ahead_updateStatus (fun s ↦ ?_) (hw halive₀) halive₀)).nickcacheUpdate
      rw [BitVec.or_assoc, BitVec.or_self]
    · exact fun hyes ↦ absurd hyes halive

/-- The language of a nick is written to its row, if there is one, and to the cache. -/
theorem setLanguage (h : Statuses P C w₀ w) {w₁ : World} {nickId language : ℕ}
    (hdb : w₁.db.nick = w.db.nick) (hcache : w₁.nickcache = w.nickcache)
    (hnext : w₁.nextNickId = w.nextNickId) (halive : w₁.alive = true → w.alive = true)
    (hother : ∀ id, id ≠ nickId → w₁.columns id = w.columns id)
    (hrow : w₁.alive = true → ∀ r ∈ w.db.nick, r.nickId = nickId →
      (w₁.columns nickId).language = language) (now : ℕ) :
    Statuses P C w₀ (nickcacheSetLanguage now nickId language w₁) := by
  have hlanguage := (CacheOnly.refl w₁).nickcacheWrite
    (fun nc ↦ { nc with language := language, languageTimestamp := now }) now nickId
  refine h.trans ⟨fun id hmark ↦ ?_, fun _ hw halive₂ ↦ ?_⟩
  · refine marked_of_entries hdb (fun nc hnc hmark ↦ ?_) id (marked_nickcacheSetLanguage _ id hmark)
    exact .inl (marked_old (hcache ▸ hnc) hmark)
  · have halive₁ := hlanguage.alive halive₂
    have hcached := hw (halive halive₁)
    refine cached_nickcacheSetLanguage (fun nc hnc hnick ↦ ?_) (fun nc hnc _ ↦ ?_) ?_ ?_ halive₂
    · obtain ⟨r, hr, hid, hstatus, hcolumn⟩ := hcached.entry nc (hcache ▸ hnc)
      exact ⟨r, hdb ▸ hr, hid, hstatus, (congrArg _ (hother nc.nickId hnick)).trans hcolumn⟩
    · obtain ⟨r, hr, hid, hstatus, -⟩ := hcached.entry nc (hcache ▸ hnc)
      exact ⟨r, hdb ▸ hr, hid, hstatus⟩
    · rw [hdb]
      exact hrow halive₁
    · rw [hdb, hnext]
      exact hcached.lt

/-- The language is written to the row and to the cache. -/
theorem writeLanguage (h : Statuses P C w₀ w) (nickId language now : ℕ) :
    Statuses P C w₀ (nickcacheSetLanguage now nickId language
      (updateColumns (fun c ↦ { c with language := language }) nickId w)) := by
  rw [updateColumns, World.act]
  split_ifs with halive
  · refine h.setLanguage ?_ ?_ ?_ ?_ (fun id hid ↦ ?_) (fun _ _ _ _ ↦ ?_) now
    · rfl
    · rfl
    · rfl
    · exact id
    · exact Function.update_of_ne hid _ _
    · dsimp only
      rw [Function.update_self]
  · exact h.setLanguage rfl rfl rfl id (fun _ _ ↦ rfl) (fun hyes ↦ absurd hyes halive) now

/-- A new nick. -/
theorem insertNewNick (h : Statuses P C w₀ w) (row : NickRow) (columns : NickColumns)
    (memomax : Option ℤ) (access : Option CString) (now : ℕ)
    (hP : row.status &&& NS_IDENTIFIED ≠ 0#32 → P w.nextNickId) :
    Statuses P C w₀ (insertNewNick row columns memomax access now w) := by
  have hstatus := (CacheOnly.refl (insertNick row columns w)).nickcacheWrite
    (fun nc ↦ { nc with status := row.status, statusTimestamp := now }) now w.nextNickId
  have hw : Statuses P C w (nickcacheSetLanguage now w.nextNickId columns.language
      (nickcacheChangeStatus (fun _ ↦ row.status) now w.nextNickId (insertNick row columns w))) := by
    refine ⟨fun id hmark ↦ ?_, fun _ hw halive₂ ↦ ?_⟩
    · rcases marked_nickcacheChangeStatus (P := fun id ↦ id = w.nextNickId ∧
        row.status &&& NS_IDENTIFIED ≠ 0#32) (fun _ hs ↦ .inr ⟨rfl, hs⟩) now id
        (marked_nickcacheSetLanguage _ id hmark) with hmid | ⟨rfl, hnew⟩
      · exact marked_insertNick hP id hmid
      · exact .inr (hP hnew)
    · have halive₁ := ((CacheOnly.refl _).nickcacheWrite _ now w.nextNickId).alive halive₂
      have halive := hstatus.alive halive₁
      obtain ⟨hahead, hcolumn⟩ := ahead_insertNick (hw (alive_of_insertNick halive)) halive
      have hcached : Cached (nickcacheChangeStatus (fun _ ↦ row.status) now w.nextNickId
          (insertNick row columns w)) := hahead.nickcacheChangeStatus halive₁
      refine cached_nickcacheSetLanguage (fun nc hnc _ ↦ hcached.entry nc hnc) (fun nc hnc _ ↦ ?_)
        (fun _ _ _ ↦ ?_) hcached.lt halive₂
      · obtain ⟨r, hr, hid, hrow, -⟩ := hcached.entry nc hnc
        exact ⟨r, hr, hid, hrow⟩
      · exact (congrArg (fun c ↦ (c w.nextNickId).language) hstatus.columns).trans hcolumn
  have hlast := h.trans hw
  unfold NickServ.insertNewNick
  dsimp only
  generalize nickcacheSetLanguage now w.nextNickId columns.language
    (nickcacheChangeStatus (fun _ ↦ row.status) now w.nextNickId (insertNick row columns w)) = w₁
    at hlast ⊢
  cases memomax with
  | some max =>
    have hmemo := hlast.same (.insertMemoinfo row.nick max w₁)
    cases access with
    | some access => exact hmemo.same (.insertNickaccess _ _ _ _)
    | none => exact hmemo
  | none =>
    cases access with
    | some access => exact hlast.same (.insertNickaccess _ _ _ _)
    | none => exact hlast

/-- A nick that is not in the cache is deleted. -/
theorem delnick (h : Statuses P C w₀ w) {nickId : ℕ}
    (hC : C → ∀ nc ∈ w.nickcache, nc.nickId ≠ nickId) : Statuses P C w₀ (delnick nickId w) := by
  refine h.act fun halive ↦ ⟨fun id hmark ↦ .inl ?_, fun hyes hw _ ↦ ?_⟩
  · rcases hmark with ⟨r, hr, hrow⟩ | hcache
    · rw [nick_mysqlDelnick] at hr
      obtain ⟨s, hs, rfl⟩ := List.mem_map.mp (List.mem_of_mem_filter hr)
      refine .inl ⟨s, hs, ?_⟩
      split_ifs at hrow
      · exact hrow
      · exact hrow
    · exact .inr hcache
  · have hcached := hw halive
    have hrows {r' : NickRow} : r' ∈ (mysqlDelnick w.db nickId).nick ↔ ∃ r ∈ w.db.nick,
        (if r.linkId = nickId then { r with linkId := 0 } else r) = r' ∧ r'.nickId ≠ nickId := by
      rw [nick_mysqlDelnick, List.mem_filter, List.mem_map, decide_eq_true_eq]
      simp only [← exists_and_right, and_assoc]
    constructor
    · intro nc hnc
      obtain ⟨r, hr, hid, hstatus, hlanguage⟩ := hcached.entry nc hnc
      have hne : r.nickId ≠ nickId := hid ▸ hC hyes nc hnc
      refine ⟨_, hrows.mpr ⟨r, hr, rfl, ?_⟩, ?_⟩
      · split_ifs
        · exact hne
        · exact hne
      · split_ifs
        · exact ⟨hid, hstatus, hlanguage⟩
        · exact ⟨hid, hstatus, hlanguage⟩
    · intro r' hr'
      obtain ⟨r, hr, rfl, -⟩ := hrows.mp hr'
      split_ifs
      · exact hcached.lt r hr
      · exact hcached.lt r hr

end Statuses

end BlitzedServices.NickServ
