import Mathlib

/-!
# Directories with links

A directory has an entry for each name, under a number that is never given twice, and an entry can be
linked to another one, its master. Numbers count from 1, so 0 stands for no entry and for no link.

`Sound` says that names and numbers are unique, `OneLevel` that a link leads to another entry that is
not linked. Each change of the directory comes with what it does to both and to the two lookups.
-/

set_option autoImplicit false
set_option relaxedAutoImplicit false

namespace BlitzedServices.Lib

variable {α : Type}

/-- An entry of a directory. -/
structure Entry (α : Type) where
  id : ℕ
  name : α
  link : ℕ
  deriving DecidableEq

namespace Entry

/-- The number of a name. -/
def findId [DecidableEq α] (l : List (Entry α)) (name : α) : ℕ :=
  ((l.find? fun e ↦ e.name = name).map Entry.id).getD 0

/-- The number of the master of an entry, its own if it is not linked. -/
def master (l : List (Entry α)) (id : ℕ) : ℕ :=
  match l.find? fun e ↦ e.id = id with
  | some e => if e.link ≠ 0 then e.link else id
  | none => id

/-- Set the link of one entry. -/
def relink (l : List (Entry α)) (id link : ℕ) : List (Entry α) :=
  l.map fun e ↦ if e.id = id then { e with link := link } else e

/-- Remove one entry and the links to it. -/
def remove (l : List (Entry α)) (id : ℕ) : List (Entry α) :=
  (l.map fun e ↦ if e.link = id then { e with link := 0 } else e).filter (·.id ≠ id)

/-- Names and numbers are unique; the numbers given are below `next`. -/
structure Sound (l : List (Entry α)) (next : ℕ) : Prop where
  ids : (l.map Entry.id).Nodup
  names : (l.map Entry.name).Nodup
  pos : ∀ e ∈ l, 0 < e.id
  lt : ∀ e ∈ l, e.id < next

/-- A link leads to another entry that is not linked. -/
def OneLevel (l : List (Entry α)) : Prop :=
  ∀ e ∈ l, e.link ≠ 0 → ∃ m ∈ l, m.id = e.link ∧ m.id ≠ e.id ∧ m.link = 0

section Lookups

variable {l : List (Entry α)} {next : ℕ}

theorem sound_nil : Sound ([] : List (Entry α)) next := ⟨by simp, by simp, by simp, by simp⟩

theorem oneLevel_nil : OneLevel ([] : List (Entry α)) := fun _ he ↦ by cases he

theorem Sound.eq_of_id_eq (h : Sound l next) {e f : Entry α} (he : e ∈ l) (hf : f ∈ l)
    (heq : e.id = f.id) : e = f :=
  List.inj_on_of_nodup_map h.ids he hf heq

theorem Sound.eq_of_name_eq (h : Sound l next) {e f : Entry α} (he : e ∈ l) (hf : f ∈ l)
    (heq : e.name = f.name) : e = f :=
  List.inj_on_of_nodup_map h.names he hf heq

theorem Sound.mono (h : Sound l next) {next' : ℕ} (hle : next ≤ next') : Sound l next' :=
  ⟨h.ids, h.names, h.pos, fun e he ↦ (h.lt e he).trans_le hle⟩

theorem Sound.findId_eq [DecidableEq α] (h : Sound l next) {e : Entry α} (he : e ∈ l) :
    findId l e.name = e.id := by
  rw [findId]
  cases hfind : l.find? fun f ↦ f.name = e.name with
  | none => exact absurd (List.find?_eq_none.mp hfind e he) (by simp)
  | some f =>
    have hname : f.name = e.name := by simpa using List.find?_some hfind
    rw [h.eq_of_name_eq (List.mem_of_find?_eq_some hfind) he hname, Option.map_some,
      Option.getD_some]

theorem findId_eq_zero [DecidableEq α] (h : ∀ e ∈ l, 0 < e.id) {name : α} :
    findId l name = 0 ↔ ∀ e ∈ l, e.name ≠ name := by
  rw [findId]
  cases hfind : l.find? fun f ↦ f.name = name with
  | none => simpa using hfind
  | some f =>
    have hmem := List.mem_of_find?_eq_some hfind
    have hname : f.name = name := by simpa using List.find?_some hfind
    rw [Option.map_some, Option.getD_some]
    exact iff_of_false (h f hmem).ne' fun hnone ↦ hnone f hmem hname

/-- A number found is that of an entry with the name. -/
theorem exists_of_findId_ne_zero [DecidableEq α] {name : α} (h : findId l name ≠ 0) :
    ∃ e ∈ l, e.name = name ∧ e.id = findId l name := by
  rw [findId] at h ⊢
  cases hfind : l.find? fun f ↦ f.name = name with
  | none => rw [hfind] at h; exact absurd rfl h
  | some e =>
    refine ⟨e, List.mem_of_find?_eq_some hfind, by simpa using List.find?_some hfind, ?_⟩
    rw [Option.map_some, Option.getD_some]

/-- Different names have different numbers. -/
theorem Sound.findId_inj [DecidableEq α] (h : Sound l next) {x y : α} (hx : findId l x ≠ 0)
    (heq : findId l x = findId l y) : x = y := by
  obtain ⟨e, he, hename, heid⟩ := exists_of_findId_ne_zero hx
  obtain ⟨f, hf, hfname, hfid⟩ := exists_of_findId_ne_zero (heq ▸ hx)
  rw [← hename, ← hfname, h.eq_of_id_eq he hf (heid.trans (heq.trans hfid.symm))]

theorem Sound.master_eq (h : Sound l next) {e : Entry α} (he : e ∈ l) :
    master l e.id = if e.link ≠ 0 then e.link else e.id := by
  rw [master]
  cases hfind : l.find? fun f ↦ f.id = e.id with
  | none => exact absurd (List.find?_eq_none.mp hfind e he) (by simp)
  | some f =>
    have hid : f.id = e.id := by simpa using List.find?_some hfind
    rw [h.eq_of_id_eq (List.mem_of_find?_eq_some hfind) he hid]

end Lookups

/-! ### A new entry -/

section Insert

variable {l : List (Entry α)} {next : ℕ}

theorem Sound.insert (h : Sound l next) {name : α} (hname : ∀ e ∈ l, e.name ≠ name)
    (hnext : 0 < next) (link : ℕ) : Sound (l ++ [⟨next, name, link⟩]) (next + 1) where
  ids := by
    rw [List.map_append, List.map_singleton, List.nodup_append]
    refine ⟨h.ids, List.nodup_singleton _, fun id hid id' hid' ↦ ?_⟩
    obtain ⟨e, he, rfl⟩ := List.mem_map.mp hid
    rw [List.mem_singleton.mp hid']
    exact (h.lt e he).ne
  names := by
    rw [List.map_append, List.map_singleton, List.nodup_append]
    refine ⟨h.names, List.nodup_singleton _, fun x hx x' hx' ↦ ?_⟩
    obtain ⟨e, he, rfl⟩ := List.mem_map.mp hx
    rw [List.mem_singleton.mp hx']
    exact hname e he
  pos e he := by
    rcases List.mem_append.mp he with he | he
    · exact h.pos e he
    · rw [List.mem_singleton.mp he]
      exact hnext
  lt e he := by
    rcases List.mem_append.mp he with he | he
    · exact (h.lt e he).trans (Nat.lt_succ_self next)
    · rw [List.mem_singleton.mp he]
      exact Nat.lt_succ_self next

theorem OneLevel.insert (h : OneLevel l) (name : α) : OneLevel (l ++ [⟨next, name, 0⟩]) := by
  intro e he hlink
  rcases List.mem_append.mp he with he | he
  · obtain ⟨m, hm, hid, hne, hzero⟩ := h e he hlink
    exact ⟨m, List.mem_append_left _ hm, hid, hne, hzero⟩
  · rw [List.mem_singleton.mp he] at hlink
    exact absurd rfl hlink

theorem findId_insert [DecidableEq α] (l : List (Entry α)) {name : α} (hname : ∀ e ∈ l, e.name ≠ name)
    (id link : ℕ) (x : α) :
    findId (l ++ [⟨id, name, link⟩]) x = if x = name then id else findId l x := by
  rw [findId, findId, List.find?_append]
  split_ifs with hx
  · have hnone : l.find? (fun e ↦ e.name = x) = none := by
      rw [List.find?_eq_none]
      simpa [hx] using hname
    rw [hnone]
    simp [hx]
  · have hnone : ([⟨id, name, link⟩] : List (Entry α)).find? (fun e ↦ e.name = x) = none := by
      simp [Ne.symm hx]
    rw [hnone, Option.or_none]

theorem master_insert (l : List (Entry α)) (id link : ℕ) (name : α) {x : ℕ} (hx : x ≠ id) :
    master (l ++ [⟨id, name, link⟩]) x = master l x := by
  have hnone : ([⟨id, name, link⟩] : List (Entry α)).find? (fun e ↦ e.id = x) = none := by
    simp [Ne.symm hx]
  rw [master, master, List.find?_append, hnone, Option.or_none]

end Insert

/-! ### A new link -/

section Relink

variable {l : List (Entry α)} {next : ℕ}

theorem id_relink (id link : ℕ) (e : Entry α) :
    (if e.id = id then { e with link := link } else e).id = e.id := by
  split_ifs <;> rfl

theorem name_relink (id link : ℕ) (e : Entry α) :
    (if e.id = id then { e with link := link } else e).name = e.name := by
  split_ifs <;> rfl

theorem mem_relink {id link : ℕ} {f : Entry α} :
    f ∈ relink l id link ↔ ∃ e ∈ l, (if e.id = id then { e with link := link } else e) = f :=
  List.mem_map

theorem Sound.relink (h : Sound l next) (id link : ℕ) : Sound (relink l id link) next where
  ids := by
    have hids : (Entry.relink l id link).map Entry.id = l.map Entry.id := by
      rw [Entry.relink, List.map_map]
      exact List.map_congr_left fun e _ ↦ id_relink id link e
    rw [hids]
    exact h.ids
  names := by
    have hnames : (Entry.relink l id link).map Entry.name = l.map Entry.name := by
      rw [Entry.relink, List.map_map]
      exact List.map_congr_left fun e _ ↦ name_relink id link e
    rw [hnames]
    exact h.names
  pos f hf := by
    obtain ⟨e, he, rfl⟩ := mem_relink.mp hf
    rw [id_relink]
    exact h.pos e he
  lt f hf := by
    obtain ⟨e, he, rfl⟩ := mem_relink.mp hf
    rw [id_relink]
    exact h.lt e he

/-- A link may be set to an entry that is not linked, from one that no other is linked to. -/
theorem OneLevel.relink (h : OneLevel l) {id link : ℕ} (hfree : ∀ e ∈ l, e.link ≠ id)
    (hlink : ∃ m ∈ l, m.id = link ∧ m.id ≠ id ∧ m.link = 0) : OneLevel (relink l id link) := by
  intro f hf hne
  obtain ⟨e, he, rfl⟩ := mem_relink.mp hf
  by_cases hid : e.id = id
  · rw [if_pos hid] at hne ⊢
    obtain ⟨m, hm, hmid, hmne, hzero⟩ := hlink
    exact ⟨m, mem_relink.mpr ⟨m, hm, if_neg hmne⟩, hmid, by rwa [← hid] at hmne, hzero⟩
  · rw [if_neg hid] at hne ⊢
    obtain ⟨m, hm, hmid, hmne, hzero⟩ := h e he hne
    have hmfree : m.id ≠ id := hmid ▸ hfree e he
    exact ⟨m, mem_relink.mpr ⟨m, hm, if_neg hmfree⟩, hmid, hmne, hzero⟩

/-- No other entry may be linked to one that is given a link. -/
theorem OneLevel.relink_iff (h : OneLevel l) {id link : ℕ} (hid : id ≠ 0) (hne : link ≠ 0)
    (hlink : ∃ m ∈ l, m.id = link ∧ m.id ≠ id ∧ m.link = 0) :
    OneLevel (Entry.relink l id link) ↔ ∀ e ∈ l, e.link ≠ id := by
  constructor
  · rintro hlevel e he rfl
    obtain ⟨m, -, hmid, hmne, -⟩ := h e he hid
    have hkept : (if e.id = e.link then { e with link := link } else e) = e :=
      if_neg (hmid ▸ hmne.symm)
    have hmem : e ∈ Entry.relink l e.link link := mem_relink.mpr ⟨e, he, hkept⟩
    obtain ⟨f, hf, hfid, -, hzero⟩ := hlevel e hmem hid
    obtain ⟨g, -, rfl⟩ := mem_relink.mp hf
    rw [id_relink] at hfid
    rw [if_pos hfid] at hzero
    exact hne hzero
  · intro hfree
    exact h.relink hfree hlink

/-- A link may always be taken away. -/
theorem OneLevel.unlink (h : OneLevel l) (id : ℕ) : OneLevel (Entry.relink l id 0) := by
  intro f hf hne
  obtain ⟨e, he, rfl⟩ := mem_relink.mp hf
  by_cases hid : e.id = id
  · rw [if_pos hid] at hne
    exact absurd rfl hne
  · rw [if_neg hid] at hne ⊢
    obtain ⟨m, hm, hmid, hmne, hzero⟩ := h e he hne
    refine ⟨_, mem_relink.mpr ⟨m, hm, rfl⟩, ?_, ?_, ?_⟩
    · rw [id_relink, hmid]
    · rw [id_relink]
      exact hmne
    · split_ifs
      · rfl
      · exact hzero

theorem findId_relink [DecidableEq α] (l : List (Entry α)) (id link : ℕ) (x : α) :
    findId (relink l id link) x = findId l x := by
  have hcomp : ((fun e : Entry α ↦ decide (e.name = x)) ∘
      fun e ↦ if e.id = id then { e with link := link } else e) = fun e ↦ decide (e.name = x) := by
    ext e
    rw [Function.comp_apply, name_relink]
  rw [findId, findId, relink, List.find?_map, hcomp, Option.map_map]
  congr 2
  ext e
  exact id_relink id link e

theorem master_relink_of_ne (l : List (Entry α)) {id link x : ℕ} (hx : x ≠ id) :
    master (relink l id link) x = master l x := by
  have hcomp : ((fun e : Entry α ↦ decide (e.id = x)) ∘
      fun e ↦ if e.id = id then { e with link := link } else e) = fun e ↦ decide (e.id = x) := by
    ext e
    rw [Function.comp_apply, id_relink]
  rw [master, master, relink, List.find?_map, hcomp]
  cases hfind : l.find? fun e ↦ e.id = x with
  | none => rfl
  | some e =>
    have hid : e.id ≠ id := fun hid ↦ hx ((by simpa using List.find?_some hfind : e.id = x) ▸ hid)
    rw [Option.map_some, if_neg hid]

end Relink

/-! ### Removing an entry -/

section Remove

variable {l : List (Entry α)} {next : ℕ}

theorem id_unlink (id : ℕ) (e : Entry α) :
    (if e.link = id then { e with link := 0 } else e).id = e.id := by
  split_ifs <;> rfl

theorem name_unlink (id : ℕ) (e : Entry α) :
    (if e.link = id then { e with link := 0 } else e).name = e.name := by
  split_ifs <;> rfl

theorem mem_remove {id : ℕ} {f : Entry α} :
    f ∈ remove l id ↔
      ∃ e ∈ l, e.id ≠ id ∧ (if e.link = id then { e with link := 0 } else e) = f := by
  rw [remove, List.mem_filter, List.mem_map, decide_eq_true_eq]
  constructor
  · rintro ⟨⟨e, he, rfl⟩, hne⟩
    rw [id_unlink] at hne
    exact ⟨e, he, hne, rfl⟩
  · rintro ⟨e, he, hne, rfl⟩
    refine ⟨⟨e, he, rfl⟩, ?_⟩
    rwa [id_unlink]

theorem Sound.remove (h : Sound l next) (id : ℕ) : Sound (remove l id) next where
  ids := by
    refine List.Nodup.sublist (List.filter_sublist.map _) ?_
    rw [List.map_map]
    exact (List.map_congr_left fun e _ ↦ id_unlink id e) ▸ h.ids
  names := by
    refine List.Nodup.sublist (List.filter_sublist.map _) ?_
    rw [List.map_map]
    exact (List.map_congr_left fun e _ ↦ name_unlink id e) ▸ h.names
  pos f hf := by
    obtain ⟨e, he, -, rfl⟩ := mem_remove.mp hf
    rw [id_unlink]
    exact h.pos e he
  lt f hf := by
    obtain ⟨e, he, -, rfl⟩ := mem_remove.mp hf
    rw [id_unlink]
    exact h.lt e he

theorem OneLevel.remove (h : OneLevel l) (id : ℕ) : OneLevel (Entry.remove l id) := by
  intro f hf hlink
  obtain ⟨e, he, hid, rfl⟩ := mem_remove.mp hf
  by_cases hto : e.link = id
  · rw [if_pos hto] at hlink
    exact absurd rfl hlink
  · rw [if_neg hto] at hlink ⊢
    obtain ⟨m, hm, hmid, hmne, hzero⟩ := h e he hlink
    refine ⟨_, mem_remove.mpr ⟨m, hm, hmid ▸ hto, rfl⟩, ?_, ?_, ?_⟩
    · rw [id_unlink, hmid]
    · rw [id_unlink]
      exact hmne
    · split_ifs
      · rfl
      · exact hzero

theorem Sound.findId_remove [DecidableEq α] (h : Sound l next) (id : ℕ) (x : α) :
    findId (Entry.remove l id) x = if findId l x = id then 0 else findId l x := by
  have hsound := h.remove id
  split_ifs with hx
  · rw [findId_eq_zero hsound.pos]
    intro f hf hname
    obtain ⟨e, he, hid, rfl⟩ := mem_remove.mp hf
    rw [name_unlink] at hname
    rw [← hname, h.findId_eq he] at hx
    exact hid hx
  · by_cases hzero : findId l x = 0
    · rw [hzero, findId_eq_zero hsound.pos]
      intro f hf hname
      obtain ⟨e, he, -, rfl⟩ := mem_remove.mp hf
      rw [name_unlink] at hname
      exact (findId_eq_zero h.pos).mp hzero e he hname
    · obtain ⟨e, he, hname, hid⟩ := exists_of_findId_ne_zero hzero
      have hmem := mem_remove.mpr ⟨e, he, hid ▸ hx, rfl⟩
      have heq := hsound.findId_eq hmem
      rwa [name_unlink, id_unlink, hname, hid] at heq

theorem Sound.master_remove (h : Sound l next) {id : ℕ} {e : Entry α} (he : e ∈ l)
    (hid : e.id ≠ id) :
    master (Entry.remove l id) e.id = if master l e.id = id then e.id else master l e.id := by
  have hmem := mem_remove.mpr ⟨e, he, hid, rfl⟩
  have heq := (h.remove id).master_eq hmem
  rw [id_unlink] at heq
  rw [heq, h.master_eq he]
  by_cases hto : e.link = id
  · subst hto
    by_cases hzero : e.link = 0
    · simp [hzero]
    · simp [hzero]
  · simp only [if_neg hto]
    by_cases hzero : e.link = 0
    · simp [hzero, hid]
    · simp [hzero, hto]

end Remove

end Entry

end BlitzedServices.Lib
