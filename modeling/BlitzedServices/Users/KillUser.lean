import BlitzedServices.Lib.CursorLoop
import BlitzedServices.Users.UserTable

/-!
# Users killed by services

`kill_user` sends a KILL and then handles it as if the server had sent it: `do_kill` searches the nick and
frees the record. Two loops kill the users they come to. `killWhere` is both of them, with the condition and
the kill as parameters; `Online.Resting.killWhere_eq` says that it kills exactly the users who meet the
condition, each once, in the order of the table, and touches no record that was freed.
-/

set_option autoImplicit false
set_option relaxedAutoImplicit false

namespace BlitzedServices.Users

open Lib Misc

/-- A KILL that is sent. -/
structure Kill where
  source : CString
  nick : CString
  reason : CString
  deriving DecidableEq

/-- The users who are online, the place of `firstuser` and `nextuser` among them, and the KILLs that were
sent. A record points to the username and the host, which lie elsewhere. -/
structure Online where
  table : UserTable
  cursor : Cursor
  username : ℕ → CString
  host : ℕ → CString
  sent : List Kill

/-- `do_kill`, where `none` is an access to a freed record. -/
def doKill (nick : List Char) (s : Online) : Option Online :=
  match finduser s.table nick with
  | none => some s
  | some a => (deleteUser a s.table).map fun table ↦ { s with table }

/-- The KILL of `kill_user`, without a source from the server itself. -/
def killLine (serverName : CString) (source : Option CString) (user reason : CString) : Kill where
  source := if source.getD [] = [] then serverName else source.getD []
  nick := user
  reason := strscpy reason 1024

/-- `kill_user`. -/
def killUser (serverName : CString) (source : Option CString) (user reason : CString) (s : Online) :
    Option Online :=
  if user = [] then some s
  else doKill user { s with sent := s.sent ++ [killLine serverName source user reason] }

/-- One round of a loop that kills, with the number of kills so far. -/
def killIf (hit : Online → ℕ → TableUser → Option Bool) (kill : ℕ → CString → Online → Option Online) (a : ℕ)
    (s : Online × ℕ) : Option (Online × ℕ) :=
  (s.1.table.userlist.val a).bind fun user ↦ (hit s.1 a user).bind fun hit ↦
    if hit then (kill (s.2 + 1) user.nick s.1).map fun s' ↦ (s', s.2 + 1) else some s

/-- A loop that kills the users who meet a condition. `nextuser` is called before the kill. -/
def killWhere (hit : Online → ℕ → TableUser → Option Bool) (kill : ℕ → CString → Online → Option Online)
    (s : Online) : Option (Online × ℕ) :=
  let table (s : Online × ℕ) := s.1.table.userlist
  (walkAll 1024 table (thenBody 1024 table (killIf hit kill)) s.cursor (s, 0)).map fun r ↦
    ({ r.2.1 with cursor := r.1 }, r.2.2)

/-- The table is sound and everybody has a nick. -/
structure Nicked (table : UserTable) : Prop where
  sound : Sound table
  nicks : ∀ a user, table.userlist.val a = some user → user.nick ≠ [] ∧ nul ∉ user.nick

/-- No loop over the users is under way. -/
structure Online.Resting (s : Online) : Prop where
  nicked : Nicked s.table
  ended : s.cursor.current = none

/-- The users of the table who meet a condition. -/
def Online.those (s : Online) (p : ℕ → TableUser → Bool) : List (ℕ × TableUser) :=
  (s.table.userlist.toList 1024).filter fun x ↦ p x.1 x.2

/-- These users are gone, each after a KILL of his own, and nothing else has changed. `n` users were killed
before. -/
structure Gone (line : ℕ → CString → Kill) (s : Online) (l : List (ℕ × TableUser)) (n : ℕ) (s' : Online) :
    Prop where
  sound : Sound s'.table
  val : ∀ a, s'.table.userlist.val a = if a ∈ l.map Prod.fst then none else s.table.userlist.val a
  sent : s'.sent = s.sent ++ (l.zipIdx (n + 1)).map fun x ↦ line x.2 x.1.2.nick
  cursor : s'.cursor = s.cursor
  username : s'.username = s.username
  host : s'.host = s.host

/-- These users were killed, each once, and nobody else. -/
structure Killed (s : Online) (l : List (ℕ × TableUser)) (s' : Online) : Prop where
  nodup : l.Nodup
  online : ∀ a user, (a, user) ∈ l → s.table.userlist.val a = some user
  val : ∀ a, s'.table.userlist.val a = if a ∈ l.map Prod.fst then none else s.table.userlist.val a
  sent : s'.sent.map Kill.nick = s.sent.map Kill.nick ++ l.map fun x ↦ x.2.nick

theorem Killed.refl (s : Online) : Killed s [] s where
  nodup := List.nodup_nil
  online := fun _ _ h ↦ absurd h List.not_mem_nil
  val := fun _ ↦ rfl
  sent := (List.append_nil _).symm

/-- Who was killed can be told from the table. -/
theorem Killed.mem_iff {s s' : Online} {l : List (ℕ × TableUser)} (h : Killed s l s') {a : ℕ}
    {user : TableUser} :
    (a, user) ∈ l ↔ s.table.userlist.val a = some user ∧ s'.table.userlist.val a = none := by
  constructor
  · intro hmem
    refine ⟨h.online a user hmem, ?_⟩
    rw [h.val, if_pos (List.mem_map_of_mem hmem)]
  · rintro ⟨huser, hnone⟩
    rw [h.val] at hnone
    split_ifs at hnone with hmem
    · rcases List.mem_map.mp hmem with ⟨⟨b, other⟩, hb, rfl⟩
      obtain rfl := Option.some.inj ((h.online _ _ hb).symm.trans huser)
      exact hb
    · rw [huser] at hnone
      cases hnone

/-- Whoever was not killed is still there. -/
theorem Killed.val_eq_some_iff {s s' : Online} {l : List (ℕ × TableUser)} (h : Killed s l s') {a : ℕ}
    {user : TableUser} :
    s'.table.userlist.val a = some user ↔ s.table.userlist.val a = some user ∧ (a, user) ∉ l := by
  rw [h.mem_iff, h.val]
  split_ifs with hmem
  · simp
  · refine ⟨fun huser ↦ ⟨huser, fun hboth ↦ ?_⟩, And.left⟩
    rw [hboth.2] at huser
    cases huser

theorem Killed.trans {s s' s'' : Online} {l l' : List (ℕ × TableUser)} (h : Killed s l s')
    (h' : Killed s' l' s'') : Killed s (l ++ l') s'' where
  nodup := by
    refine List.nodup_append.mpr ⟨h.nodup, h'.nodup, ?_⟩
    rintro ⟨a, user⟩ hmem _ hmem' rfl
    have hnone := (h.mem_iff.mp hmem).2
    rw [h'.online a user hmem'] at hnone
    cases hnone
  online := by
    intro a user hmem
    rcases List.mem_append.mp hmem with hmem | hmem
    · exact h.online a user hmem
    · have huser := h'.online a user hmem
      rw [h.val] at huser
      split_ifs at huser
      exact huser
  val := by
    intro a
    rw [h'.val, h.val, List.map_append]
    by_cases hl : a ∈ l.map Prod.fst
    · rw [if_pos hl, ite_self, if_pos (List.mem_append_left _ hl)]
    · rw [if_neg hl]
      refine if_congr ⟨List.mem_append_right _, fun hmem ↦ ?_⟩ rfl rfl
      exact (List.mem_append.mp hmem).resolve_left hl
  sent := by
    rw [h'.sent, h.sent, List.map_append, List.append_assoc]

/-! ### One kill -/

section Kills

variable {s s' s'' : Online} {a n : ℕ} {user : TableUser} {l : List (ℕ × TableUser)} {line : ℕ → CString → Kill}

theorem Gone.refl (h : Sound s.table) (n : ℕ) : Gone line s [] n s where
  sound := h
  val := fun _ ↦ rfl
  sent := (List.append_nil _).symm
  cursor := rfl
  username := rfl
  host := rfl

theorem Gone.cons (h : Gone line s [(a, user)] n s') (h' : Gone line s' l (n + 1) s'') :
    Gone line s ((a, user) :: l) n s'' where
  sound := h'.sound
  val := by
    intro b
    rw [h'.val, h.val, List.map_cons, List.map_cons, List.map_nil]
    by_cases hb : b = a
    · simp [hb]
    · rw [if_neg (mt List.mem_singleton.mp hb)]
      exact if_congr (by simp [hb]) rfl rfl
  sent := by
    rw [h'.sent, h.sent, List.append_assoc]
    rfl
  cursor := h'.cursor.trans h.cursor
  username := h'.username.trans h.username
  host := h'.host.trans h.host

/-- A user is found by his own nick. -/
theorem Sound.finduser_self {table : UserTable} (h : Sound table)
    (huser : table.userlist.val a = some user) (hnul : nul ∉ user.nick) :
    finduser table user.nick = some a := by
  refine (h.finduser_eq_some_iff user.nick a).mpr ⟨user, huser, rfl, ?_⟩
  have htext : strAt user.nick 0 = user.nick := by
    rw [strAt, List.drop_zero, List.takeWhile_eq_self_iff]
    intro c hc
    simpa using fun h : c = nul ↦ hnul (h ▸ hc)
  rw [htext, ircStricmp_eq_zero_iff]

/-- `kill_user` frees the user's record. -/
theorem killUser_eq (serverName : CString) (source : Option CString) (reason : CString)
    (hsound : Sound s.table) (huser : s.table.userlist.val a = some user)
    (hnick : user.nick ≠ [] ∧ nul ∉ user.nick) :
    ∃ table, deleteUser a s.table = some table ∧
      killUser serverName source user.nick reason s =
        some { s with table := table, sent := s.sent ++ [killLine serverName source user.nick reason] } := by
  cases hdelete : deleteUser a s.table with
  | none =>
    rw [deleteUser, huser] at hdelete
    cases hdelete
  | some table =>
    refine ⟨table, rfl, ?_⟩
    rw [killUser, if_neg hnick.1, doKill, hsound.finduser_self huser hnick.2]
    dsimp only
    rw [hdelete, Option.map_some]

end Kills

/-! ### The loop -/

theorem Nicked.deleteUser {table table' : UserTable} {a : ℕ} (h : Nicked table)
    (htable : deleteUser a table = some table') : Nicked table' where
  sound := h.sound.deleteUser htable
  nicks := by
    intro b user huser
    rw [deleteUser_val htable, Function.update_apply] at huser
    split_ifs at huser
    exact h.nicks b user huser

section Loop

/-- The kill of a loop. -/
def killAs (serverName : CString) (source : Option CString) (reason : ℕ → CString) (n : ℕ) (nick : CString) :
    Online → Option Online :=
  killUser serverName source nick (reason n)

theorem treatsNode_killIf (serverName : CString) (source : Option CString) (reason : ℕ → CString)
    (hit : Online → ℕ → TableUser → Option Bool) : TreatsNode hashUser (fun s : Online × ℕ ↦ s.1.table.userlist)
    (fun s ↦ Nicked s.1.table) (killIf hit (killAs serverName source reason)) := by
  intro s s' xs pre post a user hinv hxs hbucket hbody
  have hval : s.1.table.userlist.val a = some user :=
    hxs.val_eq (hbucket ▸ List.mem_append_right _ List.mem_cons_self)
  rw [killIf, hval, Option.bind_some] at hbody
  rcases Option.bind_eq_some_iff.mp hbody with ⟨hits, -, hrest⟩
  rcases killUser_eq serverName source (reason (s.2 + 1)) hinv.sound hval (hinv.nicks a user hval) with
    ⟨table, htable, hkill⟩
  cases hits with
  | false =>
    obtain rfl := Option.some.inj hrest
    refine ⟨hinv, [(a, user)], ?_⟩
    rw [List.append_assoc, List.singleton_append, ← hbucket, Function.update_eq_self]
    exact hxs
  | true =>
    rw [if_pos rfl, killAs, hkill] at hrest
    obtain rfl := Option.some.inj hrest
    refine ⟨hinv.deleteUser htable, [], ?_⟩
    rw [deleteUser, hval] at htable
    obtain rfl := Option.some.inj htable
    rw [List.append_nil]
    exact hxs.unlink hbucket

variable {s : Online} {hit : Online → ℕ → TableUser → Option Bool} {p : ℕ → TableUser → Bool}

/-- The rounds of the loop over some users. -/
theorem foldlM_killIf (serverName : CString) (source : Option CString) (reason : ℕ → CString) (s : Online)
    (l : List (ℕ × TableUser)) (n : ℕ) (hinv : Nicked s.table) (hnodup : (l.map Prod.fst).Nodup)
    (hval : ∀ x ∈ l, s.table.userlist.val x.1 = some x.2)
    (hhit : ∀ s' : Online, s'.host = s.host → s'.username = s.username →
      ∀ a user, hit s' a user = some (p a user)) :
    ∃ s', (l.map Prod.fst).foldlM (fun s a ↦ killIf hit (killAs serverName source reason) a s) (s, n) =
        some (s', n + (l.filter fun x ↦ p x.1 x.2).length) ∧ Nicked s'.table ∧
      Gone (fun i nick ↦ killLine serverName source nick (reason i)) s (l.filter fun x ↦ p x.1 x.2) n s' := by
  induction l generalizing s n with
  | nil => exact ⟨s, rfl, hinv, .refl hinv.sound n⟩
  | cons x l ih =>
    rcases x with ⟨a, user⟩
    rw [List.map_cons, List.nodup_cons] at hnodup
    have huser := hval (a, user) List.mem_cons_self
    have hround : killIf hit (killAs serverName source reason) a (s, n) =
        if p a user then (killAs serverName source reason (n + 1) user.nick s).map fun s' ↦ (s', n + 1)
        else some (s, n) := by
      rw [killIf, huser, Option.bind_some, hhit s rfl rfl, Option.bind_some]
    rw [List.map_cons, List.foldlM_cons, hround]
    by_cases hp : p a user = true
    · have hfilter : ((a, user) :: l).filter (fun x ↦ p x.1 x.2) = (a, user) :: l.filter fun x ↦ p x.1 x.2 :=
        List.filter_cons_of_pos hp
      rcases killUser_eq serverName source (reason (n + 1)) hinv.sound huser (hinv.nicks a user huser) with
        ⟨table, htable, hkill⟩
      have hgone : Gone (fun i nick ↦ killLine serverName source nick (reason i)) s [(a, user)] n
          { s with
            table := table
            sent := s.sent ++ [killLine serverName source user.nick (reason (n + 1))] } := by
        constructor
        · exact hinv.sound.deleteUser htable
        · intro b
          show table.userlist.val b = _
          rw [deleteUser_val htable, Function.update_apply]
          simp
        · rfl
        · rfl
        · rfl
        · rfl
      have hrest : ∀ x ∈ l, table.userlist.val x.1 = some x.2 := by
        intro x hx
        have hne : x.1 ≠ a := ne_of_mem_of_not_mem (List.mem_map_of_mem hx) hnodup.1
        rw [deleteUser_val htable, Function.update_of_ne hne]
        exact hval x (List.mem_cons_of_mem _ hx)
      let s₁ : Online := { s with
        table := table
        sent := s.sent ++ [killLine serverName source user.nick (reason (n + 1))] }
      rcases ih s₁ (n + 1) (hinv.deleteUser htable) hnodup.2 hrest hhit with
        ⟨s', hfold, hinv', hgone'⟩
      refine ⟨s', ?_, hinv', ?_⟩
      · rw [if_pos hp, killAs, hkill, hfilter, List.length_cons]
        refine hfold.trans (congrArg (fun k ↦ some (s', k)) ?_)
        omega
      · rw [hfilter]
        exact hgone.cons hgone'
    · have hfilter : ((a, user) :: l).filter (fun x ↦ p x.1 x.2) = l.filter fun x ↦ p x.1 x.2 :=
        List.filter_cons_of_neg hp
      rcases ih s n hinv hnodup.2 (fun x hx ↦ hval x (List.mem_cons_of_mem _ hx)) hhit with
        ⟨s', hfold, hinv', hgone⟩
      refine ⟨s', ?_, hinv', ?_⟩
      · rw [if_neg hp, hfilter]
        exact hfold
      · rw [hfilter]
        exact hgone

/-- The loop kills everybody who meets the condition and nobody else, and leaves the table at rest. -/
theorem Online.Resting.killWhere_gone (h : s.Resting) (serverName : CString) (source : Option CString)
    (reason : ℕ → CString)
    (hhit : ∀ s' : Online, s'.host = s.host → s'.username = s.username →
      ∀ a user, hit s' a user = some (p a user)) :
    ∃ s', killWhere hit (killAs serverName source reason) s = some (s', (s.those p).length) ∧ s'.Resting ∧
      Gone (fun i nick ↦ killLine serverName source nick (reason i)) s (s.those p) 0
        { s' with cursor := s.cursor } := by
  rcases h.nicked.sound.chained with ⟨xs, hxs⟩
  have hval : ∀ x ∈ s.table.userlist.toList 1024, s.table.userlist.val x.1 = some x.2 := by
    intro x hx
    exact (hxs.mem_toList hashUser_lt).mp hx
  rcases foldlM_killIf serverName source reason s _ 0 h.nicked (hxs.nodup_toList 1024) hval hhit with
    ⟨s', hfold, hinv', hgone⟩
  have htreats := treatsNode_killIf serverName source reason hit
  have hwalk := Chained.walkAll_eq (s := (s, 0)) hxs h.nicked htreats.stepsOn_thenBody htreats
    (m := 1024) h.ended
  refine ⟨{ s' with cursor := ⟨none, 1024⟩ }, ?_, ?_, ?_⟩
  · rw [killWhere]
    dsimp only
    rw [hwalk, hfold, Nat.zero_add, Option.map_some, Option.map_some]
    rw [Online.those]
  · exact ⟨hinv', rfl⟩
  · exact ⟨hgone.sound, hgone.val, hgone.sent, rfl, hgone.username, hgone.host⟩

theorem Online.Resting.mem_those (h : s.Resting) {a : ℕ} {user : TableUser} :
    (a, user) ∈ s.those p ↔ s.table.userlist.val a = some user ∧ p a user = true := by
  rcases h.nicked.sound.chained with ⟨xs, hxs⟩
  rw [Online.those, List.mem_filter, hxs.mem_toList hashUser_lt]

theorem Online.Resting.killWhere_eq (h : s.Resting) (serverName : CString) (source : Option CString)
    (reason : ℕ → CString)
    (hhit : ∀ s' : Online, s'.host = s.host → s'.username = s.username →
      ∀ a user, hit s' a user = some (p a user)) :
    ∃ s', killWhere hit (killAs serverName source reason) s = some (s', (s.those p).length) ∧ s'.Resting ∧
      Killed s (s.those p) s' ∧ s'.host = s.host := by
  rcases h.killWhere_gone serverName source reason hhit with ⟨s', hwalk, hrest, hgone⟩
  rcases h.nicked.sound.chained with ⟨xs, hxs⟩
  refine ⟨s', hwalk, hrest, ?_, hgone.host⟩
  constructor
  · exact (List.Nodup.of_map _ (hxs.nodup_toList 1024)).filter _
  · intro a user hmem
    exact (h.mem_those.mp hmem).1
  · exact hgone.val
  · have hnick : (Kill.nick ∘ fun x : (ℕ × TableUser) × ℕ ↦
        killLine serverName source x.1.2.nick (reason x.2)) =
        (fun x : ℕ × TableUser ↦ x.2.nick) ∘ Prod.fst := rfl
    have hsent := congrArg (List.map Kill.nick) hgone.sent
    rw [List.map_append, List.map_map, hnick, ← List.map_map, List.zipIdx_map_fst] at hsent
    exact hsent

end Loop

/-- The user `[a` is on one host, and everybody else on another. -/
def onHosts (table : UserTable) : Online where
  table := table
  cursor := ⟨none, 0⟩
  username := fun _ ↦ "user".toList
  host := fun a ↦ if a = 0 then "a.example".toList else "b.example".toList
  sent := []

theorem val_bracketUser {b : ℕ} {user : TableUser} (h : bracketUser.userlist.val b = some user) :
    b = 0 ∧ user = ⟨['[', 'a'], 0⟩ := by
  rw [show bracketUser.userlist.val = Function.update (fun _ ↦ none) 0 (some ⟨['[', 'a'], 0⟩) from val_push ..,
    Function.update_apply] at h
  split_ifs at h with hb
  exact ⟨hb, (Option.some.inj h).symm⟩

theorem resting_bracketUser : (onHosts bracketUser).Resting where
  nicked := by
    refine ⟨reached_bracketUser.sound, fun b user h ↦ ?_⟩
    rw [(val_bracketUser h).2]
    decide
  ended := rfl

end BlitzedServices.Users
