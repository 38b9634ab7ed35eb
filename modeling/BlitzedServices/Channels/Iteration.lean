import BlitzedServices.Lib.Cursor
import BlitzedServices.Users.UserTable

/-!
# Going through all users and all channels

`firstuser` and `nextuser`, and likewise `firstchan` and `nextchan`, keep their place in a static `current`
that the first call does not reset. `iteration_complete_iff` says, after any history of the two tables and of earlier
iterations, that an iteration is complete exactly if `current` is `NULL` when it starts. A caller that stops
before the end leaves it set: `findchanById_current` shows that `findchan_by_id` does so whenever it finds
the channel.
-/

set_option autoImplicit false
set_option relaxedAutoImplicit false

namespace BlitzedServices.Channels

open Lib
open Users (TableUser hashUser hashUser_lt)

/-- `firstuser`, by the cursor it leaves: it returns the node the cursor stands on. -/
def firstuser (userlist : HashTable TableUser) (c : Cursor) : Cursor := userlist.firstNode 1024 c

/-- `nextuser`, where `none` is a read through the pointer of a freed user. -/
def nextuser (userlist : HashTable TableUser) (c : Cursor) : Option Cursor := userlist.nextNode 1024 c

/-- The fields of a channel that the table reads. -/
structure TableChannel where
  name : CString
  channelId : ℕ
  deriving DecidableEq

/-- `HASH` of a channel name. -/
def hashName (chan : List Char) : ℕ :=
  if chan.getD 1 nul = nul then 0
  else ((chan.getD 1 nul).toNat &&& 31) <<< 5 ||| ((chan.getD 2 nul).toNat &&& 31)

/-- The bucket of a channel. -/
def hashChannel (c : TableChannel) : ℕ := hashName c.name

/-- `firstchan`. -/
def firstchan (chanlist : HashTable TableChannel) (c : Cursor) : Cursor := chanlist.firstNode 1024 c

/-- `nextchan`. -/
def nextchan (chanlist : HashTable TableChannel) (c : Cursor) : Option Cursor := chanlist.nextNode 1024 c

/-- The loop of `findchan_by_id`. -/
def findchanByIdLoop (chanlist : HashTable TableChannel) (channelId : ℕ) :
    ℕ → Cursor → Option (Option ℕ × Cursor)
  | 0, _ => none
  | fuel + 1, c =>
    match c.current with
    | none => some (none, c)
    | some a =>
      (chanlist.val a).bind fun chan ↦
        if chan.channelId = channelId then some (some a, c)
        else (nextchan chanlist c).bind fun c' ↦ findchanByIdLoop chanlist channelId fuel c'

/-- `findchan_by_id`: the channel, and the cursor left. -/
def findchanById (chanlist : HashTable TableChannel) (channelId fuel : ℕ) (c : Cursor) :
    Option (Option ℕ × Cursor) :=
  findchanByIdLoop chanlist channelId fuel (firstchan chanlist c)

theorem hashChannel_lt (c : TableChannel) : hashChannel c < 1024 := by
  have hand (d : Char) : d.toNat &&& 31 < 2 ^ 5 := Nat.and_lt_two_pow _ (by decide)
  rw [hashChannel, hashName]
  split_ifs
  · decide
  · have hshift : ((c.name.getD 1 nul).toNat &&& 31) <<< 5 < 2 ^ 10 := by
      have hfirst := hand (c.name.getD 1 nul)
      rw [Nat.shiftLeft_eq]
      omega
    exact Nat.or_lt_two_pow hshift ((hand _).trans (by decide))

/-- After any history of additions, changes, removals and iterations, of users as of channels, an iteration
returns every element of the table once and nothing else iff `current` is `NULL` when it starts. -/
theorem iteration_complete_iff (users : List (Op TableUser)) (u : Walked TableUser)
    (hu : users.foldlM (Walked.apply hashUser 1024) .initial = some u)
    (channels : List (Op TableChannel)) (c : Walked TableChannel)
    (hc : channels.foldlM (Walked.apply hashChannel 1024) .initial = some c) :
    (ReturnsAll u.table (firstuser u.table) (nextuser u.table) u.cursor ↔ u.cursor.current = none) ∧
      (ReturnsAll c.table (firstchan c.table) (nextchan c.table) c.cursor ↔ c.cursor.current = none) := by
  constructor
  · obtain ⟨xs, hxs⟩ := chained_history ⟨_, chained_empty hashUser⟩ hu
    exact hxs.returnsAll_iff hashUser_lt u.cursor
  · obtain ⟨xs, hxs⟩ := chained_history ⟨_, chained_empty hashChannel⟩ hc
    exact hxs.returnsAll_iff hashChannel_lt c.cursor

/-- One channel has been created. -/
def oneChannel : Walked TableChannel :=
  ⟨HashTable.push (hashChannel ⟨['#', 'c'], 1⟩) 0 ⟨['#', 'c'], 1⟩ .empty, ⟨none, 0⟩⟩

theorem iteration_complete_oneChannel :
    ReturnsAll oneChannel.table (firstchan oneChannel.table) (nextchan oneChannel.table) oneChannel.cursor :=
  (iteration_complete_iff [] .initial rfl [.add 0 ⟨['#', 'c'], 1⟩] oneChannel rfl).2.mpr rfl

/-- A search for a channel leaves the next iteration incomplete exactly if it finds it. -/
theorem findchanById_current (chanlist : HashTable TableChannel) (channelId fuel : ℕ) (c c' : Cursor)
    (found : Option ℕ) (h : findchanById chanlist channelId fuel c = some (found, c')) :
    c'.current = found := by
  rw [findchanById] at h
  generalize firstchan chanlist c = c₁ at h
  induction fuel generalizing c₁ with
  | zero => cases h
  | succ fuel ih =>
    rw [findchanByIdLoop] at h
    cases hcurrent : c₁.current with
    | none =>
      simp only [hcurrent] at h
      obtain ⟨rfl, rfl⟩ := Prod.mk.inj (Option.some.inj h)
      exact hcurrent
    | some a =>
      simp only [hcurrent] at h
      obtain ⟨chan, -, hchan⟩ := Option.bind_eq_some_iff.mp h
      split_ifs at hchan
      · obtain ⟨rfl, rfl⟩ := Prod.mk.inj (Option.some.inj hchan)
        exact hcurrent
      · obtain ⟨c₂, -, hrest⟩ := Option.bind_eq_some_iff.mp hchan
        exact ih c₂ hrest

/-- A channel is created, and a search for it ends at it. -/
def searched : List (Op TableChannel) := [.add 0 ⟨['#', 'c'], 1⟩, .first]

theorem searched_current :
    (searched.foldlM (Walked.apply hashChannel 1024) .initial).map (fun s ↦ s.cursor.current) =
      some (some 0) := by
  decide +kernel

/-- The next iteration does not return every channel once. -/
theorem searched_not_returnsAll :
    ∃ s, searched.foldlM (Walked.apply hashChannel 1024) .initial = some s ∧
      ¬ ReturnsAll s.table (firstchan s.table) (nextchan s.table) s.cursor := by
  obtain ⟨s, hs, hcurrent⟩ := Option.map_eq_some_iff.mp searched_current
  obtain ⟨xs, hxs⟩ := chained_history ⟨_, chained_empty hashChannel⟩ hs
  refine ⟨s, hs, fun hall ↦ ?_⟩
  have hnull := (hxs.returnsAll_iff hashChannel_lt s.cursor).mp hall
  rw [hcurrent] at hnull
  cases hnull

end BlitzedServices.Channels
