import BlitzedServices.Channels.Bans
import BlitzedServices.OperServ.Clearmodes

/-!
# The array of bans

`newbans` is an array of pointers to `Ban` records. `-b` looks for the first entry with the mask, takes it out of the
array and frees its mask, unless it was the last entry. `BanArray.remove` is this branch of `do_cmode`, where a read
of a freed mask has no result, and `doCmodeUnban` the whole call for one mask: what it does to the rest of the channel
is `doCmode`.

`HoldsBans` lists the bans in an array. `BanArray.remove_holds` says that one of them is taken out, that the records of the
others stay as they are, and that nothing freed is read.
-/

set_option autoImplicit false
set_option relaxedAutoImplicit false

namespace BlitzedServices.Channels

open Lib ChanServ
open OperServ (checkModes_plain)

/-- A ban, with the time it was set. -/
structure Ban where
  mask : CString
  time : ℤ
  deriving DecidableEq

/-- The `Ban` records, as long as their masks are not freed, and the pointers in `newbans`. -/
structure BanArray where
  heap : ℕ → Option Ban
  newbans : List ℕ

/-- The search for a mask: the entries before it, and those from it on. -/
def findMask (heap : ℕ → Option Ban) (mask : CString) : List ℕ → Option (List ℕ × List ℕ)
  | [] => some ([], [])
  | b :: bs =>
    (heap b).bind fun ban ↦
      if ban.mask = mask then some ([], b :: bs)
      else (findMask heap mask bs).map fun found ↦ (b :: found.1, found.2)

/-- The branch of `-b`. The mask of the last entry is not freed. -/
def BanArray.remove (a : BanArray) (mask : CString) : Option BanArray :=
  (findMask a.heap mask a.newbans).map fun
    | (_, []) => a
    | (before, b :: behind) =>
      { heap := if behind = [] then a.heap else Function.update a.heap b none
        newbans := before ++ behind }

/-- A channel with its array of bans. -/
structure BanChannel where
  chan : Channel
  array : BanArray

/-- `do_cmode` for `-b` and a mask, in the name of ChanServ: the channel, `lastmodes` and what is sent. -/
def doCmodeUnban (context : ModeContext) (lastmodes : CString) (c : BanChannel) (mask : CString) :
    Option (BanChannel × CString × List Sent) :=
  let result := doCmode context.env context.now context.row s_ChanServ lastmodes c.chan ['-', 'b'] [mask]
  (c.array.remove mask).map fun array ↦ (⟨result.1, array⟩, result.2.1, result.2.2)

/-- A channel whose bans are removed one by one, with `lastmodes` and what has been sent. -/
structure UnsetState where
  c : BanChannel
  lastmodes : CString
  sent : List Sent

/-- A line for the servers that removes a ban, and `do_cmode` for services themselves. -/
def unsetBan (context : ModeContext) (st : UnsetState) (mask : CString) : Option UnsetState :=
  (doCmodeUnban context st.lastmodes st.c mask).map fun (c, lastmodes, sent) ↦
    ⟨c, lastmodes, st.sent ++ .mode ⟨['-', 'b'], [mask]⟩ :: sent⟩

/-- The bans in an array, with their addresses. -/
structure HoldsBans (a : BanArray) (bans : List (ℕ × Ban)) : Prop where
  newbans : a.newbans = bans.map Prod.fst
  heap : ∀ x ∈ bans, a.heap x.1 = some x.2
  nodup : (bans.map Prod.fst).Nodup

/-- The channel record lists the masks of the array. -/
def BanChannel.Lists (c : BanChannel) (bans : List (ℕ × Ban)) : Prop :=
  HoldsBans c.array bans ∧ c.chan.newbans = bans.map fun x ↦ x.2.mask

/-- The changes of bans in what is sent. -/
def sentChanges (sent : List Sent) : List BanChange :=
  (modeLines sent).flatMap fun line ↦ banChanges line.letters true line.params

/-! ### One ban is taken out -/

section Remove

variable {a : BanArray} {pre post : List (ℕ × Ban)} {x : ℕ × Ban} {mask : CString}

/-- The search stops at the first ban with the mask. -/
theorem findMask_eq (hheap : ∀ y ∈ pre ++ x :: post, a.heap y.1 = some y.2) (hpre : ∀ y ∈ pre, y.2.mask ≠ mask)
    (hx : x.2.mask = mask) :
    findMask a.heap mask ((pre ++ x :: post).map Prod.fst) =
      some (pre.map Prod.fst, (x :: post).map Prod.fst) := by
  induction pre with
  | nil =>
    rw [List.nil_append, List.map_cons, findMask, hheap x (List.mem_cons_self ..), Option.bind_some, if_pos hx]
    rfl
  | cons y pre ih =>
    have hy := hheap y (List.mem_cons_self ..)
    have hrest := ih (fun z hz ↦ hheap z (List.mem_cons_of_mem _ hz)) fun z hz ↦ hpre z (List.mem_cons_of_mem _ hz)
    rw [List.cons_append, List.map_cons, findMask, hy, Option.bind_some, if_neg (hpre y (List.mem_cons_self ..)),
      hrest]
    rfl

/-- The first ban with the mask is taken out; the records of all others stay. -/
theorem BanArray.remove_holds (h : HoldsBans a (pre ++ x :: post)) (hpre : ∀ y ∈ pre, y.2.mask ≠ mask)
    (hx : x.2.mask = mask) :
    ∃ a', a.remove mask = some a' ∧ HoldsBans a' (pre ++ post) ∧ ∀ b, b ≠ x.1 → a'.heap b = a.heap b := by
  have hfound := findMask_eq h.heap hpre hx
  rw [← h.newbans] at hfound
  have hnodup := h.nodup
  rw [List.map_append, List.map_cons, List.nodup_middle, List.nodup_cons, ← List.map_append] at hnodup
  have hframe {b : ℕ} (hb : b ≠ x.1) :
      (if post.map Prod.fst = [] then a.heap else Function.update a.heap x.1 none) b = a.heap b := by
    split_ifs
    · rfl
    · exact Function.update_of_ne hb _ _
  refine ⟨_, by rw [BanArray.remove, hfound]; rfl, ⟨List.map_append.symm, ?_, hnodup.2⟩, fun b hb ↦ hframe hb⟩
  intro y hy
  have hyx : y.1 ≠ x.1 := ne_of_mem_of_not_mem (List.mem_map_of_mem hy) hnodup.1
  have hmem : y ∈ pre ++ x :: post := by
    rcases List.mem_append.mp hy with hy | hy
    · exact List.mem_append_left _ hy
    · exact List.mem_append_right _ (List.mem_cons_of_mem _ hy)
  exact (hframe hyx).trans (h.heap y hmem)

end Remove

/-! ### Lines that remove a ban -/

section Unset

variable {st : UnsetState} {post : List (ℕ × Ban)} {x : ℕ × Ban}

theorem sentChanges_append (sent more : List Sent) :
    sentChanges (sent ++ more) = sentChanges sent ++ sentChanges more := by
  rw [sentChanges, modeLines_append, List.flatMap_append, sentChanges, sentChanges]

theorem sentChanges_unban (mask : CString) (sent : List Sent) :
    sentChanges (.mode ⟨['-', 'b'], [mask]⟩ :: sent) = (false, mask) :: sentChanges sent := by
  simp [sentChanges, modeLines, banChanges]

/-- The lines of `check_modes` change no bans. -/
theorem sentChanges_checkModes (env : CmodeEnv) (now : ℤ) (row : Option MlockRow) (c : Channel) :
    sentChanges (checkModes env now row c).2 = [] := by
  rw [sentChanges, List.flatMap_eq_nil_iff]
  intro line hline
  apply banChanges_eq_nil
  intro hb
  exact checkModes_plain hline 'b' hb (.inl rfl)

/-- The list of masks after the line of `do_cmode`. -/
theorem newbans_unban (context : ModeContext) (lastmodes : CString) (c : Channel) (mask : CString) :
    (doCmode context.env context.now context.row s_ChanServ lastmodes c ['-', 'b'] [mask]).1.newbans =
      c.newbans.erase mask := by
  rw [doCmode_newbans context (by simp [UnkeyBehindBans])]
  rfl

/-- A ban that has no other with its mask before it is removed, and a line says so. -/
theorem unsetBan_lists (context : ModeContext) {pre : List (ℕ × Ban)} (h : st.c.Lists (pre ++ x :: post)) (hpre : ∀ y ∈ pre, y.2.mask ≠ x.2.mask) :
    ∃ st', unsetBan context st x.2.mask = some st' ∧ st'.c.Lists (pre ++ post) ∧
      (∀ b, b ≠ x.1 → st'.c.array.heap b = st.c.array.heap b) ∧
      sentChanges st'.sent = sentChanges st.sent ++ [(false, x.2.mask)] := by
  rcases BanArray.remove_holds h.1 hpre rfl with ⟨array, hremove, hholds, hframe⟩
  refine ⟨_, by rw [unsetBan, doCmodeUnban, hremove]; rfl, ⟨hholds, ?_⟩, hframe, ?_⟩
  · show (doCmode context.env context.now context.row s_ChanServ st.lastmodes st.c.chan ['-', 'b'] [x.2.mask]).1.newbans = _
    have hnot : x.2.mask ∉ pre.map fun y ↦ y.2.mask := by
      intro hmem
      rcases List.mem_map.mp hmem with ⟨y, hy, heq⟩
      exact hpre y hy heq
    rw [newbans_unban, h.2, List.map_append, List.map_cons, List.erase_append_right _ hnot, List.erase_cons_head, List.map_append]
  · rw [sentChanges_append, sentChanges_unban, doCmode]
    dsimp only
    rw [sentChanges_checkModes]

end Unset

end BlitzedServices.Channels
