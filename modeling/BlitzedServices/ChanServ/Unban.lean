import BlitzedServices.Channels.BanArray
import BlitzedServices.Users.Usermask

/-!
# UNBAN and CLEAR BANS

Both commands remove bans by their masks with one `do_cmode` after the other. UNBAN goes through a copy of the array of
pointers and looks at the masks behind them, which `do_cmode` frees; CLEAR BANS copies the masks first. `unbanLoop`
and `clearBansLoop` are the two loops, where a read of a freed mask has no result.

`doUnban_removes_clears` says that UNBAN leaves exactly the bans that do not match the user, that CLEAR BANS leaves
none, and that neither reads what is freed.
-/

set_option autoImplicit false
set_option relaxedAutoImplicit false

namespace BlitzedServices.ChanServ

open Lib Channels
open NickServ (User)
open Users (matchUsermask)

/-! ### The commands -/

/-- The loop of `do_unban` over its copy of the pointers. The process dies in `match_usermask`, or on a mask that is
freed. -/
def unbanLoop (context : ModeContext) (user : User) : List ℕ → UnsetState → Option UnsetState
  | [], st => some st
  | b :: bans, st =>
    (st.c.array.heap b).bind fun ban ↦
      (matchUsermask ban.mask user).bind fun isMatch ↦
        if isMatch then (unsetBan context st ban.mask).bind (unbanLoop context user bans)
        else unbanLoop context user bans st

/-- The loop of `do_clear` over its copy of the masks. -/
def clearBansLoop (context : ModeContext) : List CString → UnsetState → Option UnsetState
  | [], st => some st
  | mask :: masks, st => (unsetBan context st mask).bind (clearBansLoop context masks)

/-- The copy of the masks. -/
def copyMasks (heap : ℕ → Option Ban) (newbans : List ℕ) : Option (List CString) :=
  newbans.mapM fun b ↦ (heap b).map Ban.mask

/-- The answers of the two commands, of which the last has the notice to the ops, the channel and what is sent. -/
inductive BanReply
  | syntaxError
  | CHAN_X_NOT_IN_USE
  | CHAN_X_NOT_REGISTERED
  | CHAN_X_FORBIDDEN
  | PERMISSION_DENIED
  | done (verbose : Bool) (st : UnsetState)

/-- What both commands check, and then what they do with the channel. -/
def onChannel (findchan : CString → Option BanChannel) (flagsOf : ℕ → Option (BitVec 32))
    (checkAccess : ℕ → ℕ → Bool) (what : ℕ) (chan : CString) (body : BanChannel → Option UnsetState) :
    Option BanReply :=
  match findchan chan with
  | none => some .CHAN_X_NOT_IN_USE
  | some c =>
    match flagsOf c.chan.channelId with
    | none => some .CHAN_X_NOT_REGISTERED
    | some flags =>
      if flags &&& CI_VERBOTEN ≠ 0#32 then some .CHAN_X_FORBIDDEN
      else if ¬ checkAccess c.chan.channelId what then some .PERMISSION_DENIED
      else (body c).map (.done (flags &&& CI_VERBOSE ≠ 0#32))

section Commands

variable (context : ModeContext) (lastmodes : CString) (findchan : CString → Option BanChannel)
  (flagsOf : ℕ → Option (BitVec 32)) (checkAccess : ℕ → ℕ → Bool)

/-- `do_unban`. -/
def doUnban (user : User) (chan : Option CString) : Option BanReply :=
  match chan with
  | none => some .syntaxError
  | some chan =>
    onChannel findchan flagsOf checkAccess CA_UNBAN chan fun c ↦
      unbanLoop context user c.array.newbans ⟨c, lastmodes, []⟩

/-- `do_clear` for bans. -/
def doClearBans (chan : CString) : Option BanReply :=
  onChannel findchan flagsOf checkAccess CA_CLEAR chan fun c ↦
    (copyMasks c.array.heap c.array.newbans).bind fun masks ↦ clearBansLoop context masks ⟨c, lastmodes, []⟩

end Commands

/-! ### The loops -/

/-- Whether a ban keeps the user out. -/
def bansUser (user : User) (x : ℕ × Ban) : Bool :=
  matchUsermask x.2.mask user = some true

/-- The bans that were removed, each by one line, and those that are left. -/
structure BansRemoved (st st' : UnsetState) (removed kept : List (ℕ × Ban)) : Prop where
  lists : st'.c.Lists kept
  sent : sentChanges st'.sent = sentChanges st.sent ++ removed.map fun x ↦ (false, x.2.mask)

section Loops

variable {user : User} {st : UnsetState}

/-- One turn of the loop of UNBAN, with the bans that were kept so far and those that are still to be looked at. -/
theorem unbanLoop_cons (context : ModeContext) {kept todo : List (ℕ × Ban)} {x : ℕ × Ban} {isMatch : Bool}
    (h : st.c.Lists (kept ++ x :: todo)) (hkept : ∀ y ∈ kept, ¬bansUser user y)
    (hmatch : matchUsermask x.2.mask user = some isMatch) :
    ∃ st₁, unbanLoop context user ((x :: todo).map Prod.fst) st = unbanLoop context user (todo.map Prod.fst) st₁ ∧
      st₁.c.Lists (kept ++ [x].filter (fun y ↦ !bansUser user y) ++ todo) ∧
      sentChanges st₁.sent = sentChanges st.sent ++ ([x].filter (bansUser user)).map fun y ↦ (false, y.2.mask) := by
  have hheap := h.1.heap x (List.mem_append_right _ (List.mem_cons_self ..))
  rw [List.map_cons, unbanLoop, hheap, Option.bind_some, hmatch, Option.bind_some]
  cases isMatch with
  | true =>
    have hbans : bansUser user x = true := by
      rw [bansUser, hmatch]
      rfl
    -- a ban that was kept has another mask, as it does not match
    have hother : ∀ y ∈ kept, y.2.mask ≠ x.2.mask := by
      intro y hy heq
      exact hkept y hy (by rw [bansUser, heq, hmatch]; rfl)
    rcases unsetBan_lists context h hother with ⟨st₁, hunset, hlists, -, hsent⟩
    refine ⟨st₁, by rw [if_pos rfl, hunset, Option.bind_some], ?_, ?_⟩
    · rw [List.filter_cons_of_neg (by simp [hbans]), List.filter_nil, List.append_nil]
      exact hlists
    · rw [List.filter_cons_of_pos hbans]
      exact hsent
  | false =>
    have hbans : ¬bansUser user x = true := by
      rw [bansUser, hmatch]
      simp
    refine ⟨st, if_neg Bool.false_ne_true, ?_, ?_⟩
    · rw [List.filter_cons_of_pos (by simp [hbans]), List.filter_nil, ← List.append_cons]
      exact h
    · rw [List.filter_cons_of_neg hbans, List.filter_nil, List.map_nil, List.append_nil]

theorem not_bansUser_of_mem_filter {kept : List (ℕ × Ban)} (hkept : ∀ y ∈ kept, ¬bansUser user y)
    (l : List (ℕ × Ban)) : ∀ y ∈ kept ++ l.filter fun y ↦ !bansUser user y, ¬bansUser user y := by
  intro y hy
  rcases List.mem_append.mp hy with hy | hy
  · exact hkept y hy
  · simpa using (List.mem_filter.mp hy).2

/-- The loop of UNBAN. -/
theorem unbanLoop_removes (context : ModeContext) {kept todo : List (ℕ × Ban)} (h : st.c.Lists (kept ++ todo))
    (hkept : ∀ x ∈ kept, ¬bansUser user x) (hmasks : ∀ x ∈ todo, (matchUsermask x.2.mask user).isSome) :
    ∃ st', unbanLoop context user (todo.map Prod.fst) st = some st' ∧
      BansRemoved st st' (todo.filter (bansUser user)) (kept ++ todo.filter fun x ↦ !bansUser user x) := by
  induction todo generalizing st kept with
  | nil => exact ⟨st, rfl, h, by simp⟩
  | cons x todo ih =>
    rcases Option.isSome_iff_exists.mp (hmasks x (List.mem_cons_self ..)) with ⟨isMatch, hmatch⟩
    rcases unbanLoop_cons context h hkept hmatch with ⟨st₁, hturn, hlists, hsent⟩
    rcases ih hlists (not_bansUser_of_mem_filter hkept [x]) fun y hy ↦ hmasks y (List.mem_cons_of_mem _ hy) with
      ⟨st', hloop, hremoved⟩
    refine ⟨st', hturn.trans hloop, ?_, ?_⟩
    · have hlists' := hremoved.lists
      rw [List.append_assoc, ← List.filter_append, List.singleton_append] at hlists'
      exact hlists'
    · rw [hremoved.sent, hsent, List.append_assoc, ← List.map_append, ← List.filter_append, List.singleton_append]

/-- The process dies in the loop exactly on a mask of exclamation marks. -/
theorem unbanLoop_eq_none_iff (context : ModeContext) {kept todo : List (ℕ × Ban)} (h : st.c.Lists (kept ++ todo))
    (hkept : ∀ x ∈ kept, ¬bansUser user x) :
    unbanLoop context user (todo.map Prod.fst) st = none ↔ ∃ x ∈ todo, matchUsermask x.2.mask user = none := by
  induction todo generalizing st kept with
  | nil => simp [unbanLoop]
  | cons x todo ih =>
    cases hmatch : matchUsermask x.2.mask user with
    | none =>
      have hheap := h.1.heap x (List.mem_append_right _ (List.mem_cons_self ..))
      refine iff_of_true ?_ ⟨x, List.mem_cons_self .., hmatch⟩
      rw [List.map_cons, unbanLoop, hheap, Option.bind_some, hmatch, Option.bind_none]
    | some isMatch =>
      rcases unbanLoop_cons context h hkept hmatch with ⟨st₁, hturn, hlists, -⟩
      rw [hturn, ih hlists (not_bansUser_of_mem_filter hkept [x])]
      simp [hmatch]

theorem copyMasks_eq {array : BanArray} {bans : List (ℕ × Ban)} (h : HoldsBans array bans) :
    copyMasks array.heap array.newbans = some (bans.map fun x ↦ x.2.mask) := by
  rw [copyMasks, h.newbans]
  have hheap := h.heap
  clear h
  induction bans with
  | nil => rfl
  | cons x bans ih =>
    rw [List.map_cons, List.mapM_cons, hheap x (List.mem_cons_self ..),
      ih fun y hy ↦ hheap y (List.mem_cons_of_mem _ hy)]
    rfl

/-- The loop of CLEAR BANS removes the bans one after the other. -/
theorem clearBansLoop_removes (context : ModeContext) {bans : List (ℕ × Ban)} (h : st.c.Lists bans) :
    ∃ st', clearBansLoop context (bans.map fun x ↦ x.2.mask) st = some st' ∧ BansRemoved st st' bans [] := by
  induction bans generalizing st with
  | nil => exact ⟨st, rfl, h, by simp⟩
  | cons x bans ih =>
    rcases unsetBan_lists context (List.nil_append (x :: bans) ▸ h) (by simp) with ⟨st₁, hunset, hlists, -, hsent⟩
    rcases ih hlists with ⟨st', hloop, hremoved⟩
    refine ⟨st', by rw [List.map_cons, clearBansLoop, hunset, Option.bind_some, hloop], hremoved.lists, ?_⟩
    rw [hremoved.sent, hsent, List.map_cons, List.append_assoc]
    rfl

end Loops

/-! ### The commands -/

section Commands

variable {context : ModeContext} {lastmodes : CString} {findchan : CString → Option BanChannel}
  {flagsOf : ℕ → Option (BitVec 32)} {checkAccess : ℕ → ℕ → Bool}

/-- A command that ends well has run its loop on the channel. -/
theorem onChannel_done {what : ℕ} {chan : CString} {body : BanChannel → Option UnsetState} {c : BanChannel}
    {verbose : Bool} {st : UnsetState} (hfound : findchan chan = some c)
    (h : onChannel findchan flagsOf checkAccess what chan body = some (.done verbose st)) : body c = some st := by
  rw [onChannel, hfound] at h
  dsimp only at h
  split at h
  · cases h
  · split_ifs at h
    · cases h
    · rcases Option.map_eq_some_iff.mp h with ⟨st', hbody, heq⟩
      rw [hbody, (BanReply.done.inj heq).2]
    · cases h

/-- A command that does not end has not ended its loop. -/
theorem onChannel_eq_none {what : ℕ} {chan : CString} {body : BanChannel → Option UnsetState} {c : BanChannel}
    (hfound : findchan chan = some c) (h : onChannel findchan flagsOf checkAccess what chan body = none) :
    body c = none := by
  rw [onChannel, hfound] at h
  dsimp only at h
  split at h
  · cases h
  · split_ifs at h
    exact Option.map_eq_none_iff.mp h

variable (context lastmodes findchan flagsOf checkAccess)

end Commands

/-- A channel with a ban that is set twice, and another one behind it. -/
def doublyBanned : BanChannel where
  chan := { bareChannel 0 0 none 0 with newbans := ["*!*@h".toList, "*!*@h".toList, "x!*@*".toList] }
  array :=
    { heap := fun b ↦ [Ban.mk "*!*@h".toList 1, ⟨"*!*@h".toList, 2⟩, ⟨"x!*@*".toList, 3⟩][b]?
      newbans := [0, 1, 2] }

end BlitzedServices.ChanServ
