import BlitzedServices.ChanServ.Akick
import BlitzedServices.Lib.PartialRuns

/-!
# Runs of AKICK

`AkickKept` holds in every state: no entry is there twice, and no channel has more entries than the limit. What a command
can do to a list is `AkickEffect`: nothing, a new entry behind the last one, or entries deleted and the list numbered
anew.
-/

set_option autoImplicit false
set_option relaxedAutoImplicit false

namespace BlitzedServices.ChanServ

open Lib Misc Mysql
open Users (splitUsermask)

/-- The rows as a table of numbered lists. -/
def akickNumbering : Numbering AkickRow ℕ where
  owner := AkickRow.channelId
  idx := AkickRow.idx
  setIdx n r := { r with idx := n }
  owner_setIdx _ _ := rfl
  idx_setIdx _ _ := rfl

/-! ### What a command does to the table -/

section Commands

variable {env : AkickEnv} {u : AccessUser} {st st' : AkickState} {channelId nickId : ℕ} {mask : CString}
  {reply : AkickReply}

/-- The table stays as it is. -/
structure SameAkicks (st st' : AkickState) : Prop where
  akick : st'.db.akick = st.db.akick
  columns : st'.columns = st.columns
  nextId : st'.nextId = st.nextId

theorem SameAkicks.refl (st : AkickState) : SameAkicks st st := ⟨rfl, rfl, rfl⟩

/-- An entry is for a nick, or for a mask that fits in the column. -/
def Targeted (r : AkickRow) : Prop :=
  r.nickId ≠ 0 ∧ r.mask = none ∨ r.nickId = 0 ∧ ∃ mask, r.mask = some mask ∧ mask.length ≤ 255

/-- A new entry behind the last one of its list. -/
structure Adds (max now : ℕ) (st st' : AkickState) (channelId nickId : ℕ) (mask : Option CString)
    (columns : AkickColumns) : Prop where
  new : ¬ akickExists st.db channelId nickId mask
  unique : ∀ r ∈ st.db.akick, r.channelId = channelId → sameMask r.mask (maskColumn mask) = false
  target : Targeted ⟨st.nextId, channelId, chanakickCount st.db channelId + 1, maskColumn mask, nickId⟩
  room : chanakickCount st.db channelId < max
  added : columns.added = now
  akick : st'.db.akick = st.db.akick ++
    [⟨st.nextId, channelId, chanakickCount st.db channelId + 1, maskColumn mask, nickId⟩]
  columns : st'.columns = Function.update st.columns st.nextId columns
  nextId : st'.nextId = st.nextId + 1

/-- Entries of a channel are deleted, and its list is numbered anew. -/
structure Deletes (st st' : AkickState) (channelId : ℕ) (p : AkickRow → Bool) : Prop where
  state : st' = renumberAkicks (deleteAkicks st channelId p).1 channelId

theorem akickTarget_cases (db : Database) (mask : CString) :
    (akickTarget db mask).1 ≠ 0 ∧ (akickTarget db mask).2 = none ∨
      (akickTarget db mask).1 = 0 ∧ (akickTarget db mask).2 = some (splitUsermask mask).join := by
  rw [akickTarget]
  split
  · split_ifs with hid
    · exact .inl ⟨hid, rfl⟩
    · exact .inr ⟨rfl, rfl⟩
  · exact .inr ⟨rfl, rfl⟩

theorem doAkickAdd_cases {reason : Option CString} (h : doAkickAdd env u st channelId mask reason = some (reply, st')) :
    reply ≠ .CHAN_AKICK_ADDED ∧ SameAkicks st st' ∨
      reply = .CHAN_AKICK_ADDED ∧ ∃ columns, Adds env.csAutokickMax.toNat env.now st st' channelId
        (akickTarget st.db mask).1 (akickTarget st.db mask).2 columns := by
  have hrefused {reply' : AkickReply} (h : some (reply', st) = some (reply, st')) (hne : reply' ≠ .CHAN_AKICK_ADDED) :
      reply ≠ .CHAN_AKICK_ADDED ∧ SameAkicks st st' := by
    obtain ⟨rfl, rfl⟩ := Prod.mk.inj (Option.some.inj h)
    exact ⟨hne, .refl _⟩
  rw [doAkickAdd] at h
  dsimp only at h
  split_ifs at h with hforbidden hexists hlimit
  · exact .inl (hrefused h (by decide))
  · exact .inl (hrefused h (by decide))
  · exact .inl (hrefused h (by decide))
  · rw [insertAkick] at h
    split_ifs at h with hunique
    · cases h
    · obtain ⟨rfl, rfl⟩ := Prod.mk.inj (Option.some.inj h)
      refine .inr ⟨rfl, _, hexists, fun r hr hchannel ↦ ?_, ?_, Nat.lt_of_not_le hlimit, rfl, rfl, rfl, rfl⟩
      · rw [Bool.not_eq_true, List.any_eq_false] at hunique
        have hone := hunique r hr
        simpa [hchannel] using hone
      · rcases akickTarget_cases st.db mask with ⟨hnick, hmask⟩ | ⟨hnick, hmask⟩
        · exact .inl ⟨hnick, by rw [hmask]; rfl⟩
        · exact .inr ⟨hnick, _, by rw [hmask]; rfl, List.length_take_le _ _⟩

theorem deleteAkicks_eq_self {p : AkickRow → Bool} (h : (deleteAkicks st channelId p).2 = 0) :
    (deleteAkicks st channelId p).1 = st := by
  have hnone : ∀ r ∈ st.db.akick, (!(decide (r.channelId = channelId) && p r)) = true := by
    intro r hr
    have hempty := List.filter_eq_nil_iff.mp (List.length_eq_zero_iff.mp h) r hr
    rw [Bool.not_eq_true] at hempty
    rw [hempty]
    rfl
  rw [deleteAkicks]
  dsimp only
  rw [List.filter_eq_self.mpr hnone]

theorem doAkickDel_cases {verbose : Bool} (h : doAkickDel env st channelId verbose mask = some (reply, st')) :
    reply ≠ .CHAN_AKICK_ADDED ∧
      ((∀ r ∈ st.db.akick, r.channelId = channelId → akickChosen env st.db mask r = false) ∧ SameAkicks st st' ∨
        Deletes st st' channelId (akickChosen env st.db mask)) := by
  rw [doAkickDel] at h
  split_ifs at h with hfits
  dsimp only at h
  split_ifs at h with hnone hone
  · obtain ⟨rfl, rfl⟩ := Prod.mk.inj (Option.some.inj h)
    rw [deleteAkicks_eq_self hnone]
    refine ⟨nofun, .inl ⟨fun r hr hchannel ↦ ?_, .refl _⟩⟩
    have hempty := List.filter_eq_nil_iff.mp (List.length_eq_zero_iff.mp hnone) r hr
    simpa [hchannel] using hempty
  · obtain ⟨rfl, rfl⟩ := Prod.mk.inj (Option.some.inj h)
    exact ⟨nofun, .inr ⟨rfl⟩⟩
  · obtain ⟨rfl, rfl⟩ := Prod.mk.inj (Option.some.inj h)
    exact ⟨nofun, .inr ⟨rfl⟩⟩

theorem akick_checkAccess (u : AccessUser) (now : ℕ) (db : Database) (channelId what : ℕ) :
    (checkAccess u now db channelId what).2.akick = db.akick := by
  obtain ⟨stamp, hstamp⟩ := getAccess_stamps u now db channelId
  rw [checkAccess_snd, hstamp]

/-- What a command can do to the list of a channel: nothing, a new entry, or entries deleted. -/
inductive AkickEffect (env : AkickEnv) (st st' : AkickState) (channelId : ℕ) : AkickReply → Prop
  | same {reply : AkickReply} (hreply : reply ≠ .CHAN_AKICK_ADDED) (hsame : SameAkicks st st') :
      AkickEffect env st st' channelId reply
  | adds {nickId : ℕ} {mask : Option CString} {columns : AkickColumns}
      (hadds : Adds env.csAutokickMax.toNat env.now st st' channelId nickId mask columns) :
      AkickEffect env st st' channelId .CHAN_AKICK_ADDED
  | deletes {reply : AkickReply} {mask : CString} (hreply : reply ≠ .CHAN_AKICK_ADDED)
      (hdel : Deletes st st' channelId (akickChosen env st.db mask)) : AkickEffect env st st' channelId reply

theorem runAkick_effect {cmd : CString} {mask reason : Option CString}
    (h : runAkick env u st channelId cmd mask reason = some (reply, st')) : AkickEffect env st st' channelId reply := by
  have hanswer {reply' : AkickReply} (h : some (reply', st) = some (reply, st')) (hne : reply' ≠ .CHAN_AKICK_ADDED) :
      AkickEffect env st st' channelId reply := by
    obtain ⟨rfl, rfl⟩ := Prod.mk.inj (Option.some.inj h)
    exact .same hne (.refl _)
  have hlisted {select : BitVec 32 → NumberQueries.Frame}
      (h : ((doAkickList env st.db channelId select mask).map fun reply ↦ (reply, st)) = some (reply, st')) :
      AkickEffect env st st' channelId reply := by
    obtain ⟨reply', hlist, heq⟩ := Option.map_eq_some_iff.mp h
    refine hanswer (congrArg some heq) ?_
    rintro rfl
    rw [doAkickList] at hlist
    split_ifs at hlist
    · cases hlist
    · split at hlist <;> cases hlist
  rw [runAkick] at h
  split_ifs at h with hadd hdel hlist hview henforce hcount
  · rcases doAkickAdd_cases h with ⟨hne, hsame⟩ | ⟨rfl, columns, hadds⟩
    · exact .same hne hsame
    · exact .adds hadds
  · obtain ⟨hne, ⟨-, hsame⟩ | hdeletes⟩ := doAkickDel_cases h
    · exact .same hne hsame
    · exact .deletes hne hdeletes
  · exact hlisted h
  · exact hlisted h
  · exact hanswer h (by decide)
  · exact hanswer h nofun
  · exact hanswer h (by decide)

/-- A command is refused, or it works on a registered channel. -/
theorem doAkick_effect {line : CString} (h : doAkick env u st line = some (reply, st')) :
    reply ≠ .CHAN_AKICK_ADDED ∧ SameAkicks st st' ∨ ∃ chan rest st₁, akickWords line = some (chan, rest) ∧
      mysqlFindchan st.db chan ≠ 0 ∧ SameAkicks st st₁ ∧
      AkickEffect env st₁ st' (mysqlFindchan st.db chan) reply := by
  have hanswer {reply' : AkickReply} {st₁ : AkickState} (hsame : SameAkicks st st₁)
      (h : some (reply', st₁) = some (reply, st')) (hne : reply' ≠ .CHAN_AKICK_ADDED) :
      reply ≠ .CHAN_AKICK_ADDED ∧ SameAkicks st st' := by
    obtain ⟨rfl, rfl⟩ := Prod.mk.inj (Option.some.inj h)
    exact ⟨hne, hsame⟩
  rw [doAkick] at h
  split at h
  · exact .inl (hanswer (.refl _) h (by decide))
  · rename_i chan cmd mask reason hwords
    dsimp only at h
    generalize (if stricmp cmd "LIST".toList = 0 ∨ stricmp cmd "VIEW".toList = 0 then CA_AKICK_LIST
      else CA_AKICK) = level at h
    have hakick := akick_checkAccess u env.now st.db (mysqlFindchan st.db chan) level
    generalize checkAccess u env.now st.db (mysqlFindchan st.db chan) level = checked at h hakick
    obtain ⟨allowed, db⟩ := checked
    have hstamped : SameAkicks st { st with db } := ⟨hakick, rfl, rfl⟩
    dsimp only at h
    split_ifs at h with hidentify hmask hregistered hforbidden hdenied hfounder
    · exact .inl (hanswer (.refl _) h (by decide))
    · exact .inl (hanswer (.refl _) h (by decide))
    · exact .inl (hanswer (.refl _) h (by decide))
    · exact .inl (hanswer (.refl _) h (by decide))
    · exact .inl (hanswer hstamped h (by decide))
    · exact .inl (hanswer hstamped h (by decide))
    · exact .inr ⟨chan, _, _, hwords, hregistered, hstamped, runAkick_effect h⟩

end Commands

/-! ### What holds in every state -/

section Kept

variable {max now : ℕ} {st st' : AkickState} {channelId nickId : ℕ} {mask : Option CString} {columns : AkickColumns}
  {p : AkickRow → Bool}

/-- Two entries of a channel that are for the same nick, or for the same mask. -/
def SameTarget (r s : AkickRow) : Prop :=
  r.channelId = s.channelId ∧ (r.nickId ≠ 0 ∧ r.nickId = s.nickId ∨ sameMask r.mask s.mask = true)

/-- The ids are new, no entry is there twice, and no channel has more entries than the limit. -/
structure AkickKept (max : ℕ) (st : AkickState) : Prop where
  targeted : ∀ r ∈ st.db.akick, Targeted r
  nodup : (st.db.akick.map AkickRow.akickId).Nodup
  fresh : ∀ r ∈ st.db.akick, r.akickId < st.nextId
  distinct : ∀ r ∈ st.db.akick, ∀ s ∈ st.db.akick, SameTarget r s → r = s
  limit : ∀ channelId, chanakickCount st.db channelId ≤ max

/-- A services admin, who may use the list of every channel. -/
def listKeeper : AccessUser := ⟨"keeper".toList, 1, 1, NS_IDENTIFIED, [], true⟩

/-- Two nicks and a channel with these entries. -/
def akickSample (akick : List AkickRow) : AkickState where
  db :=
    { nick := [⟨1, "keeper".toList, 0, 0, 0, 0⟩, ⟨2, "bo".toList, 0, 0, 0, 0⟩]
      nickaccess := []
      nicksuspend := []
      suspend := []
      chansuspend := []
      channel := [⟨7, "#a".toList, 1, 0, 0⟩]
      akick
      chanaccess := []
      chanlevel := []
      autojoin := []
      memo := []
      memoinfo := []
      admin := []
      oper := [] }
  columns akickId := ⟨none, [], akickId, 0, []⟩
  nextId := 3

/-- The first entry is for the nick and the second for a mask. -/
def twoEntries : AkickState := akickSample [⟨1, 7, 1, none, 2⟩, ⟨2, 7, 2, some "*!*@b".toList, 0⟩]

theorem akickKept_sample {akick : List AkickRow} (htargeted : ∀ r ∈ akick, Targeted r)
    (hnodup : (akick.map AkickRow.akickId).Nodup) (hfresh : ∀ r ∈ akick, r.akickId < 3)
    (hdistinct : ∀ r ∈ akick, ∀ s ∈ akick, SameTarget r s → r = s) (hlength : akick.length ≤ 20) :
    AkickKept 20 (akickSample akick) :=
  ⟨htargeted, hnodup, hfresh, hdistinct, fun _ ↦ (List.length_filter_le _ _).trans hlength⟩

theorem akickKept_twoEntries : AkickKept 20 twoEntries := by
  refine akickKept_sample (fun r hr ↦ ?_) (by decide) (by decide) (fun r hr s hs hsame ↦ ?_) (by decide)
  · rcases List.mem_cons.mp hr with rfl | hr
    · exact .inl ⟨by decide, rfl⟩
    · rw [List.mem_singleton.mp hr]
      exact .inr ⟨rfl, _, rfl, by decide⟩
  · rcases List.mem_cons.mp hr with rfl | hr <;> rcases List.mem_cons.mp hs with rfl | hs
    · rfl
    · rw [List.mem_singleton.mp hs] at hsame
      exact absurd hsame (by unfold SameTarget; decide)
    · rw [List.mem_singleton.mp hr] at hsame
      exact absurd hsame (by unfold SameTarget; decide)
    · rw [List.mem_singleton.mp hr, List.mem_singleton.mp hs]

theorem AkickKept.congr (h : AkickKept max st) (hakick : st'.db.akick = st.db.akick) (hnextId : st'.nextId = st.nextId) :
    AkickKept max st' where
  targeted := hakick ▸ h.targeted
  nodup := hakick ▸ h.nodup
  fresh := by
    rw [hakick, hnextId]
    exact h.fresh
  distinct := by
    rw [hakick]
    exact h.distinct
  limit := fun channelId ↦ by
    rw [chanakickCount, listedAkicks, hakick]
    exact h.limit channelId

theorem AkickKept.filter (h : AkickKept max st) (hakick : st'.db.akick = st.db.akick.filter p)
    (hnextId : st'.nextId = st.nextId) : AkickKept max st' where
  targeted := by
    rw [hakick]
    exact fun r hr ↦ h.targeted r (List.mem_of_mem_filter hr)
  nodup := by
    rw [hakick]
    exact h.nodup.sublist (List.filter_sublist.map _)
  fresh := by
    rw [hakick, hnextId]
    exact fun r hr ↦ h.fresh r (List.mem_of_mem_filter hr)
  distinct := by
    rw [hakick]
    exact fun r hr s hs ↦ h.distinct r (List.mem_of_mem_filter hr) s (List.mem_of_mem_filter hs)
  limit := fun channelId ↦ by
    have hle : (listedAkicks st'.db channelId).length ≤ (listedAkicks st.db channelId).length := by
      rw [listedAkicks, listedAkicks, hakick]
      exact (List.filter_sublist.filter _).length_le
    exact hle.trans (h.limit channelId)

theorem sameMask_comm (a b : Option CString) : sameMask a b = sameMask b a := by
  cases a with
  | none => cases b <;> rfl
  | some a =>
    cases b with
    | none => rfl
    | some b =>
      rw [sameMask, sameMask, sameName, sameName, Bool.eq_iff_iff, beq_iff_eq, beq_iff_eq, stricmp_eq_zero_iff,
        stricmp_eq_zero_iff, eq_comm]

theorem sameMask_none (a : Option CString) : sameMask a none = false := by cases a <;> rfl

theorem length_eq_of_sameMask {a b : CString} (h : sameMask (some a) (some b) = true) : a.length = b.length := by
  rw [sameMask, sameName, beq_iff_eq, stricmp_eq_zero_iff] at h
  rw [← List.length_map (f := Char.toLower), h, List.length_map]

theorem akickForbidden_of_mask {db : Database} {mask : CString} (h : (akickTarget db mask).1 = 0) :
    akickForbidden db mask = false := by
  rw [akickTarget] at h
  rw [akickForbidden]
  cases hfind : mysqlFindnickinfo db mask with
  | none => rfl
  | some ni =>
    rw [hfind] at h
    dsimp only at h
    split_ifs at h with hid
    · exact absurd h hid
    · simp only [Option.any_some, hid, false_and, decide_false]

/-- ADD makes services exit exactly for a mask that is too long for the column when the list has an entry for as much of
it as the column takes. -/
theorem akickAdd_exits_iff {env : AkickEnv} (h : AkickKept env.csAutokickMax.toNat st) (u : AccessUser) (mask : CString)
    (reason : Option CString) : doAkickAdd env u st channelId mask reason = none ↔
      (akickTarget st.db mask).1 = 0 ∧ chanakickCount st.db channelId < env.csAutokickMax.toNat ∧
        255 < (splitUsermask mask).join.length ∧
        ∃ r ∈ listedAkicks st.db channelId, sameMask r.mask (some ((splitUsermask mask).join.take 255)) = true := by
  set m := (splitUsermask mask).join
  have hcases := akickTarget_cases st.db mask
  constructor
  · intro hnone
    rw [doAkickAdd] at hnone
    dsimp only at hnone
    split_ifs at hnone with hforbidden hexists hlimit
    rw [Option.map_eq_none_iff, insertAkick] at hnone
    split_ifs at hnone with hunique
    obtain ⟨r, hr, hconflict⟩ := List.any_eq_true.mp hunique
    rw [Bool.and_eq_true, decide_eq_true_iff] at hconflict
    obtain ⟨hchannel, hsame⟩ := hconflict
    rcases hcases with ⟨-, hmask⟩ | ⟨hnick, hmask⟩
    · rw [hmask, maskColumn, Option.map_none, sameMask_none] at hsame
      cases hsame
    · rw [hmask, maskColumn, Option.map_some] at hsame
      refine ⟨hnick, Nat.lt_of_not_le hlimit, ?_, r, List.mem_filter.mpr ⟨hr, decide_eq_true hchannel⟩, hsame⟩
      -- a mask that fits would have been found by the SELECT
      by_contra hshort
      rw [List.take_of_length_le (Nat.le_of_not_lt hshort)] at hsame
      have hzero : r.nickId = 0 := by
        rcases h.targeted r hr with ⟨-, hnull⟩ | ⟨hzero, -⟩
        · rw [hnull] at hsame
          cases hsame
        · exact hzero
      refine hexists (List.any_eq_true.mpr ⟨r, hr, ?_⟩)
      rw [hnick, hmask, hsame, Bool.or_true, Bool.and_true]
      exact decide_eq_true ⟨hchannel, hzero⟩
  · rintro ⟨hnick, hroom, hlong, r, hr, hsame⟩
    obtain ⟨hne, -⟩ | ⟨-, hmask⟩ := hcases
    · exact absurd hnick hne
    obtain ⟨hrow, hchannel⟩ := akickNumbering.mem_listed.mp hr
    have hexists : ¬ akickExists st.db channelId (akickTarget st.db mask).1 (akickTarget st.db mask).2 = true := by
      rw [hnick, hmask, akickExists, List.any_eq_true]
      rintro ⟨s, hs, hfound⟩
      have hfound : sameMask s.mask (some m) = true := by
        rw [Bool.and_eq_true] at hfound
        exact hfound.2
      rcases h.targeted s hs with ⟨-, hnull⟩ | ⟨-, t, ht, hfits⟩
      · rw [hnull] at hfound
        cases hfound
      · rw [ht] at hfound
        have hlength := length_eq_of_sameMask hfound
        omega
    rw [doAkickAdd, if_neg (by rw [akickForbidden_of_mask hnick]; exact Bool.false_ne_true)]
    dsimp only
    rw [if_neg hexists, if_neg (Nat.not_le_of_lt hroom), insertAkick, if_pos, Option.map_none]
    refine List.any_eq_true.mpr ⟨r, hrow, ?_⟩
    rw [hmask, maskColumn, Option.map_some, hsame, Bool.and_true]
    exact decide_eq_true hchannel

theorem akickAdd_exits_iff_long : doAkickAdd ⟨20, 5⟩ listKeeper
    (akickSample [⟨1, 7, 1, some (List.replicate 255 'x'), 0⟩]) 7 (List.replicate 300 'x') none = none := by
  have hkept : AkickKept 20 (akickSample [⟨1, 7, 1, some (List.replicate 255 'x'), 0⟩]) := by
    refine akickKept_sample (fun r hr ↦ ?_) (by decide) (by decide) (fun r hr s hs _ ↦ ?_) (by decide)
    · rw [List.mem_singleton.mp hr]
      exact .inr ⟨rfl, _, rfl, by decide +kernel⟩
    · rw [List.mem_singleton.mp hr, List.mem_singleton.mp hs]
  have hkept : AkickKept (AkickEnv.mk 20 5).csAutokickMax.toNat
      (akickSample [⟨1, 7, 1, some (List.replicate 255 'x'), 0⟩]) := hkept
  exact (akickAdd_exits_iff hkept listKeeper (List.replicate 300 'x') none).mpr
    ⟨by decide +kernel, by decide +kernel, by decide +kernel, _, List.mem_singleton_self _, by decide +kernel⟩

theorem listed_akickNumbering (db : Database) (channelId : ℕ) :
    akickNumbering.listed channelId db.akick = listedAkicks db channelId := rfl

theorem akick_renumberAkicks (st : AkickState) (channelId : ℕ) : (renumberAkicks st channelId).db.akick =
    akickNumbering.renumber (akicksByTime st channelId) st.db.akick := rfl

/-- Numbering anew changes numbers only. -/
theorem renumberRow_akick (sorted : List AkickRow) (r : AkickRow) :
    ∃ idx, akickNumbering.renumberRow sorted r = { r with idx } := by
  rw [Numbering.renumberRow]
  split_ifs
  · exact ⟨_, rfl⟩
  · exact ⟨r.idx, rfl⟩

theorem AkickKept.renumber (h : AkickKept max st) (channelId : ℕ) : AkickKept max (renumberAkicks st channelId) := by
  have hakick := akick_renumberAkicks st channelId
  have hid (r : AkickRow) : (akickNumbering.renumberRow (akicksByTime st channelId) r).akickId = r.akickId := by
    obtain ⟨idx, heq⟩ := renumberRow_akick (akicksByTime st channelId) r
    rw [heq]
  refine ⟨?_, ?_, ?_, ?_, fun k ↦ ?_⟩
  · intro r hr
    rw [hakick] at hr
    obtain ⟨s, hs, rfl⟩ := List.mem_map.mp hr
    obtain ⟨idx, heq⟩ := renumberRow_akick (akicksByTime st channelId) s
    rw [heq]
    exact h.targeted s hs
  · rw [hakick, Numbering.renumber, List.map_map]
    have hsame : (AkickRow.akickId ∘ akickNumbering.renumberRow (akicksByTime st channelId)) = AkickRow.akickId :=
      funext hid
    rw [hsame]
    exact h.nodup
  · intro r hr
    rw [hakick] at hr
    obtain ⟨s, hs, rfl⟩ := List.mem_map.mp hr
    rw [hid]
    exact h.fresh s hs
  · intro r hr s hs hsame
    rw [hakick] at hr hs
    obtain ⟨r, hrow, rfl⟩ := List.mem_map.mp hr
    obtain ⟨s, hrow', rfl⟩ := List.mem_map.mp hs
    have hrs : r = s := by
      refine h.distinct r hrow s hrow' ?_
      obtain ⟨i, hi⟩ := renumberRow_akick (akicksByTime st channelId) r
      obtain ⟨j, hj⟩ := renumberRow_akick (akicksByTime st channelId) s
      rw [hi, hj] at hsame
      exact hsame
    rw [hrs]
  · rw [chanakickCount, ← listed_akickNumbering, hakick, Numbering.listed_renumber, List.length_map]
    exact h.limit k

theorem AkickKept.adds (h : AkickKept max st) (hadds : Adds max now st st' channelId nickId mask columns) :
    AkickKept max st' where
  targeted := by
    intro r hr
    rw [hadds.akick, List.mem_append, List.mem_singleton] at hr
    rcases hr with hr | rfl
    · exact h.targeted r hr
    · exact hadds.target
  nodup := by
    rw [hadds.akick, List.map_append, List.map_singleton]
    refine List.nodup_append.mpr ⟨h.nodup, List.nodup_singleton _, fun i hi j hj ↦ ?_⟩
    obtain ⟨r, hr, rfl⟩ := List.mem_map.mp hi
    rw [List.mem_singleton.mp hj]
    exact (h.fresh r hr).ne
  fresh := by
    intro r hr
    rw [hadds.akick, List.mem_append, List.mem_singleton] at hr
    rw [hadds.nextId]
    rcases hr with hr | rfl
    · exact (h.fresh r hr).trans (Nat.lt_succ_self _)
    · exact Nat.lt_succ_self _
  distinct := by
    -- the new entry is for no target that the channel has already
    have hnew (r : AkickRow) (hr : r ∈ st.db.akick) :
        ¬ SameTarget r ⟨st.nextId, channelId, chanakickCount st.db channelId + 1, maskColumn mask, nickId⟩ := by
      rintro ⟨hchannel, ⟨hne, hnick⟩ | hmask⟩
      · refine hadds.new (List.any_eq_true.mpr ⟨r, hr, ?_⟩)
        dsimp only at hchannel hnick
        have hid : nickId ≠ 0 := hnick ▸ hne
        simp [hchannel, hnick, hid]
      · have hnone := hadds.unique r hr hchannel
        rw [hnone] at hmask
        cases hmask
    have hcomm {r s : AkickRow} (h : SameTarget r s) : SameTarget s r := by
      obtain ⟨hchannel, ⟨hne, hnick⟩ | hmask⟩ := h
      · exact ⟨hchannel.symm, .inl ⟨hnick ▸ hne, hnick.symm⟩⟩
      · exact ⟨hchannel.symm, .inr (sameMask_comm r.mask s.mask ▸ hmask)⟩
    intro r hr s hs hsame
    rw [hadds.akick, List.mem_append, List.mem_singleton] at hr hs
    rcases hr with hr | rfl <;> rcases hs with hs | rfl
    · exact h.distinct r hr s hs hsame
    · exact absurd hsame (hnew r hr)
    · exact absurd (hcomm hsame) (hnew s hs)
    · rfl
  limit := by
    intro k
    have hroom := hadds.room
    rw [chanakickCount, listedAkicks, hadds.akick, List.filter_append, List.length_append]
    by_cases hk : channelId = k
    · rw [List.filter_cons_of_pos (by simpa using hk), List.filter_nil, List.length_singleton, ← hk]
      exact hroom
    · rw [List.filter_cons_of_neg (by simpa using hk), List.filter_nil, List.length_nil, Nat.add_zero]
      exact h.limit k

end Kept

/-! ### Channels and nicks that are dropped -/

section Drops

theorem akick_renumberAutojoins (ids : List ℕ) (db : Database) : (ids.foldl renumberAutojoins db).akick = db.akick := by
  induction ids generalizing db with
  | nil => rfl
  | cons id ids ih => exact ih (renumberAutojoins db id)

theorem channel_renumberAutojoins (ids : List ℕ) (db : Database) :
    (ids.foldl renumberAutojoins db).channel = db.channel := by
  induction ids generalizing db with
  | nil => rfl
  | cons id ids ih => exact ih (renumberAutojoins db id)

theorem akick_mysqlDelchan (db : Database) (channelId : ℕ) :
    (mysqlDelchan db channelId).akick = db.akick.filter (·.channelId ≠ channelId) := by
  rw [mysqlDelchan, akick_renumberAutojoins]
  rfl

/-- Only the lists of some channels are gone, and with them the channels. -/
def DropsLists (db db' : Database) : Prop :=
  ∃ ids : List ℕ, db'.akick = db.akick.filter (·.channelId ∉ ids) ∧
    ∀ c ∈ db'.channel, c.channelId ∉ ids ∧ ∃ c₀ ∈ db.channel, c₀.channelId = c.channelId

theorem DropsLists.refl (db : Database) : DropsLists db db :=
  ⟨[], by simp, fun c hc ↦ ⟨List.not_mem_nil, c, hc, rfl⟩⟩

theorem DropsLists.trans {db db' db'' : Database} (h : DropsLists db db') (h' : DropsLists db' db'') :
    DropsLists db db'' := by
  obtain ⟨ids, hakick, hchannel⟩ := h
  obtain ⟨ids', hakick', hchannel'⟩ := h'
  refine ⟨ids' ++ ids, ?_, fun c hc ↦ ?_⟩
  · rw [hakick', hakick, List.filter_filter]
    exact List.filter_congr fun r _ ↦ by simp [List.mem_append, not_or]
  · obtain ⟨hnot', c', hc', hid'⟩ := hchannel' c hc
    obtain ⟨hnot, c₀, hc₀, hid⟩ := hchannel c' hc'
    rw [hid'] at hnot hid
    exact ⟨fun hmem ↦ (List.mem_append.mp hmem).elim hnot' hnot, c₀, hc₀, hid⟩

theorem dropsLists_mysqlDelchan (db : Database) (channelId : ℕ) : DropsLists db (mysqlDelchan db channelId) := by
  refine ⟨[channelId], by rw [akick_mysqlDelchan]; simp, fun c hc ↦ ?_⟩
  have hchannel : (mysqlDelchan db channelId).channel = db.channel.filter (·.channelId ≠ channelId) := by
    rw [mysqlDelchan, channel_renumberAutojoins]
    rfl
  rw [hchannel, List.mem_filter, decide_eq_true_iff] at hc
  exact ⟨fun hmem ↦ hc.2 (List.mem_singleton.mp hmem), c, hc.1, rfl⟩

theorem dropsLists_transferFoundership (db : Database) (nickId channelId successorId : ℕ) :
    DropsLists db (transferFoundership db nickId channelId successorId).1 := by
  refine ⟨[], by simp [transferFoundership], fun c hc ↦ ⟨List.not_mem_nil, ?_⟩⟩
  obtain ⟨c₀, hc₀, rfl⟩ := List.mem_map.mp hc
  refine ⟨c₀, hc₀, ?_⟩
  split_ifs <;> rfl

theorem dropsLists_succeedLoop (nickId i rows : ℕ) (chans : List ChannelRow) (db : Database) :
    DropsLists db (succeedLoop nickId i rows chans db) := by
  induction chans generalizing i rows db with
  | nil => exact .refl _
  | cons c chans ih =>
    rw [succeedLoop]
    split_ifs
    · exact (dropsLists_mysqlDelchan db c.channelId).trans (ih ..)
    · exact (dropsLists_transferFoundership db nickId c.channelId c.successor).trans (ih ..)
    · exact .refl _

theorem dropsLists_delchans (db : Database) (chans : List ChannelRow) : DropsLists db (delchans db chans) := by
  induction chans generalizing db with
  | nil => exact .refl _
  | cons c chans ih => exact (dropsLists_mysqlDelchan db c.channelId).trans (ih _)

/-- Dropping a nick drops some channels, and deletes the entries of the nick. -/
theorem dropsLists_passChannels (db : Database) (nickId : ℕ) : DropsLists db (passChannels db nickId) :=
  (dropsLists_succeedLoop nickId 0 _ _ db).trans (dropsLists_delchans _ _)

theorem akick_csMysqlRemoveNick (db : Database) (nickId : ℕ) :
    (csMysqlRemoveNick db nickId).akick = (passChannels db nickId).akick.filter (·.nickId ≠ nickId) := rfl

end Drops

/-! ### Runs -/

section Runs

variable {csAutokickMax : BitVec 32} {st st' : AkickState} {m : AkickMessage}

/-- Every step keeps the entries apart and the lists short. -/
theorem receive_kept (h : AkickKept csAutokickMax.toNat st) (hstep : st.receive csAutokickMax m = some st') :
    AkickKept csAutokickMax.toNat st' := by
  cases m with
  | akick now u line =>
    obtain ⟨⟨reply, _⟩, hakick, rfl⟩ := Option.map_eq_some_iff.mp hstep
    rcases doAkick_effect hakick with ⟨-, hsame⟩ | ⟨chan, -, st₁, -, -, hsame, heffect⟩
    · exact h.congr hsame.akick hsame.nextId
    · have h₁ := h.congr hsame.akick hsame.nextId
      cases heffect with
      | same hreply hsame => exact h₁.congr hsame.akick hsame.nextId
      | adds hadds => exact h₁.adds hadds
      | deletes hreply hdel =>
        rw [hdel.state]
        refine AkickKept.renumber ?_ _
        exact h₁.filter rfl rfl
  | used akickId now lastMatched => exact Option.some.inj hstep ▸ h.congr rfl rfl
  | delchan channelId =>
    refine Option.some.inj hstep ▸ h.filter (akick_mysqlDelchan st.db channelId) rfl
  | removeNick nickId =>
    obtain ⟨ids, hakick, -⟩ := dropsLists_passChannels st.db nickId
    have hboth := akick_csMysqlRemoveNick st.db nickId
    rw [hakick, List.filter_filter] at hboth
    exact Option.some.inj hstep ▸ h.filter hboth rfl
  | write db => exact Option.some.inj hstep ▸ h.congr rfl rfl

theorem akickKept_of_empty (hempty : st.db.akick = []) : AkickKept csAutokickMax.toNat st where
  targeted := by
    rw [hempty]
    exact fun _ hr ↦ absurd hr List.not_mem_nil
  nodup := by
    rw [hempty]
    exact List.nodup_nil
  fresh := by
    rw [hempty]
    exact fun _ hr ↦ absurd hr List.not_mem_nil
  distinct := by
    rw [hempty]
    exact fun _ hr ↦ absurd hr List.not_mem_nil
  limit channelId := by
    rw [chanakickCount, listedAkicks, hempty]
    exact Nat.zero_le _

/-- From an empty table on, in every state of every run: the ids of the entries differ, no channel has two entries for
the same nick or the same mask, and none has more entries than the limit. -/
theorem akick_run (hempty : st.db.akick = []) (messages : List AkickMessage)
    (hrun : messages.foldlM (AkickState.receive csAutokickMax) st = some st') : AkickKept csAutokickMax.toNat st' :=
  (alongM_true st messages).of_foldlM (fun _ _ _ hs _ hstep ↦ receive_kept hs hstep) (akickKept_of_empty hempty) hrun

/-- An entry for a nick and one for a mask. -/
def twoAdds : List AkickMessage :=
  [.akick 5 listKeeper "#a ADD bo".toList, .akick 6 listKeeper "#a ADD *!*@b".toList]

theorem akick_run_twoAdds : ∃ st', twoAdds.foldlM (AkickState.receive 20) (akickSample []) = some st' ∧
    AkickKept 20 st' := by
  have hsome : (twoAdds.foldlM (AkickState.receive 20) (akickSample [])).isSome = true := by decide +kernel
  obtain ⟨st', hrun⟩ := Option.isSome_iff_exists.mp hsome
  have hempty : (akickSample []).db.akick = [] := rfl
  exact ⟨st', hrun, akick_run hempty twoAdds hrun⟩

end Runs

end BlitzedServices.ChanServ
