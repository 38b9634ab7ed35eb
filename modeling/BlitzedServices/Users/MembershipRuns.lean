import BlitzedServices.Lib.PartialRuns
import BlitzedServices.Users.Membership

/-!
# Runs of messages for users and channels

`membership_run` is the invariant of the network over whole runs: as long as nobody joins a channel he is on, MODE gives
ops and voice to users on the channel only, and the other conditions of `Meets` hold, both lists of every membership
agree, and no handler follows a pointer to what is freed. A `+o` for somebody who is not on the channel is enough to
break it (`strangerOp_dangles`): his record is freed when he quits, the pointer in the list of ops is not.
-/

set_option autoImplicit false
set_option relaxedAutoImplicit false

namespace BlitzedServices.Users

open Lib Misc Channels ChanServ

/-! ### The table of users -/

section Tables

variable {table table' : UserTable} {a : ℕ} {user : TableUser}

/-- A record is written whose nick nobody else has. -/
theorem Nicked.write (h : Nicked table) (hchained : ∃ xs, Chained hashUser table'.userlist xs)
    (hval : table'.userlist.val = Function.update table.userlist.val a (some user))
    (hfree : ∀ b other, b ≠ a → table.userlist.val b = some other → ¬ IrcEquiv other.nick user.nick)
    (hnick : user.nick ≠ [] ∧ nul ∉ user.nick) : Nicked table' where
  sound := ⟨hchained, hval ▸ distinct_update h.sound.distinct hfree⟩
  nicks := by
    intro b other hother
    rw [hval, Function.update_apply] at hother
    split_ifs at hother
    · obtain rfl := Option.some.inj hother
      exact hnick
    · exact h.nicks b other hother

/-- Modes do not matter. -/
theorem Nicked.setMode (h : Nicked table) (a : ℕ) (f : BitVec 32 → BitVec 32) : Nicked (table.setMode a f) := by
  have hhash (user : TableUser) : hashUser { user with mode := f user.mode } = hashUser user := rfl
  have hold (b : ℕ) (other : TableUser) (hother : (table.setMode a f).userlist.val b = some other) :
      ∃ user, table.userlist.val b = some user ∧ other.nick = user.nick := by
    rw [UserTable.setMode, val_modifyVal, Function.update_apply] at hother
    split_ifs at hother with hb
    · obtain ⟨user, huser, rfl⟩ := Option.map_eq_some_iff.mp hother
      exact ⟨user, hb ▸ huser, rfl⟩
    · exact ⟨other, hother, rfl⟩
  obtain ⟨xs, hxs⟩ := h.sound.chained
  refine ⟨⟨⟨_, hxs.modifyVal hhash a⟩, fun b c one other hone hother hequiv ↦ ?_⟩, fun b other hother ↦ ?_⟩
  · obtain ⟨user, huser, hnick⟩ := hold b one hone
    obtain ⟨user', huser', hnick'⟩ := hold c other hother
    rw [hnick, hnick'] at hequiv
    exact h.sound.distinct b c user user' huser huser' hequiv
  · obtain ⟨user, huser, hnick⟩ := hold b other hother
    rw [hnick]
    exact h.nicks b user huser

theorem isSome_setMode (table : UserTable) (a : ℕ) (f : BitVec 32 → BitVec 32) (b : ℕ) :
    ((table.setMode a f).userlist.val b).isSome = (table.userlist.val b).isSome := by
  rw [UserTable.setMode, val_modifyVal, Function.update_apply]
  split_ifs with hb
  · rw [hb, Option.isSome_map]
  · rfl

theorem Nicked.markIdentified (h : Nicked table) (a : ℕ) (identified : Bool) :
    Nicked (markIdentified a identified table) := by
  rw [Users.markIdentified]
  split_ifs
  · exact h.setMode a _
  · exact h

theorem isSome_markIdentified (table : UserTable) (a : ℕ) (identified : Bool) (b : ℕ) :
    ((markIdentified a identified table).userlist.val b).isSome = (table.userlist.val b).isSome := by
  rw [Users.markIdentified]
  split_ifs
  · exact isSome_setMode table a _ b
  · rfl

theorem strscpy_nick {nick : CString} (h : nick ≠ [] ∧ nul ∉ nick) :
    strscpy nick Users.NICKMAX ≠ [] ∧ nul ∉ strscpy nick Users.NICKMAX := by
  refine ⟨fun hnil ↦ ?_, fun hmem ↦ h.2 (List.mem_of_mem_take hmem)⟩
  rw [strscpy, List.take_eq_nil_iff] at hnil
  exact hnil.elim (by decide) h.1

/-- The string at the front of a buffer finds whom the buffer finds. -/
theorem finduser_strAt (h : Nicked table) {nick : List Char} (hfind : finduser table nick = some a) :
    finduser table (strAt nick 0) = some a ∧ nul ∉ strAt nick 0 := by
  have hnul : nul ∉ strAt nick 0 := by
    rw [strAt]
    exact fun hmem ↦ by simpa using List.mem_takeWhile_imp hmem
  have htext : strAt (strAt nick 0) 0 = strAt nick 0 := by
    conv_lhs => rw [strAt, List.drop_zero]
    rw [List.takeWhile_eq_self_iff]
    intro c hc
    simpa using fun h : c = nul ↦ hnul (h ▸ hc)
  obtain ⟨user, hval, hhash, hcmp⟩ := (h.sound.finduser_eq_some_iff nick a).mp hfind
  have hne : strAt nick 0 ≠ [] := by
    intro hnil
    rw [hnil, ircStricmp_eq_zero_iff] at hcmp
    exact (h.nicks a user hval).1 (List.map_eq_nil_iff.mp hcmp)
  refine ⟨(h.sound.finduser_eq_some_iff _ a).mpr ⟨user, hval, hhash.trans (hashNick_strAt hne), ?_⟩, hnul⟩
  rw [htext]
  exact hcmp

end Tables

section Retable

variable {s : Network} {table : UserTable}

/-- Nobody who is on a channel goes offline. -/
theorem Consistent.retable (h : Consistent s) (hnicked : Nicked table)
    (honline : ∀ user, s.chans user ≠ [] → (table.userlist.val user).isSome = true) : Consistent { s with table } :=
  ⟨hnicked, h.kempt, h.mirrored, honline⟩

end Retable

/-! ### NICK, QUIT and KILL -/

section Users

variable {s : Network}

/-- A NICK message brings a nick that nobody else has, and a new user's record is put where nothing is. -/
def Network.NickMeets (s : Network) (source : List Char) (nick : CString) (a : ℕ) (admitted : Bool) : Prop :=
  (nick ≠ [] ∧ nul ∉ nick) ∧
    if strAt source 0 = [] then
      admitted = true → s.table.userlist.heap a = none ∧
        ∀ b user, s.table.userlist.val b = some user → ¬ IrcEquiv user.nick (strscpy nick Users.NICKMAX)
    else
      ∀ c, finduser s.table source = some c →
        ∀ b user, b ≠ c → s.table.userlist.val b = some user → ¬ IrcEquiv user.nick (strscpy nick Users.NICKMAX)

theorem newUser_spec (h : Consistent s) {nick : CString} (hnick : nick ≠ [] ∧ nul ∉ nick) {a : ℕ}
    (hheap : s.table.userlist.heap a = none)
    (hfree : ∀ b user, s.table.userlist.val b = some user → ¬ IrcEquiv user.nick (strscpy nick Users.NICKMAX))
    (identified : Bool) :
    ∃ table, newUser a nick s.table = some table ∧
      Consistent { s with
        table := markIdentified a identified table
        chans := Function.update s.chans a [] } := by
  have hoffline : s.chans a = [] := by
    by_contra hne
    have honline := h.online a hne
    rw [Network.isOnline, heap_eq_none_of_val hheap] at honline
    cases honline
  have hnew : ∃ table, newUser a nick s.table = some table := by
    rw [newUser, hheap]
    exact ⟨_, rfl⟩
  obtain ⟨table, htable⟩ := hnew
  obtain ⟨xs, hxs⟩ := h.nicked.sound.chained
  have hval := newUser_val htable
  have hnicked : Nicked table :=
    h.nicked.write (newUser_chained hxs htable) hval (fun b other _ hother ↦ hfree b other hother) (strscpy_nick hnick)
  refine ⟨table, htable, ?_⟩
  rw [← hoffline, Function.update_eq_self]
  refine h.retable (hnicked.markIdentified a identified) fun user hchans ↦ ?_
  rw [isSome_markIdentified, hval, Function.update_apply]
  split_ifs
  · rfl
  · exact h.online user hchans

theorem changeUserNick_spec (h : Consistent s) {nick : CString} (hnick : nick ≠ [] ∧ nul ∉ nick) {a : ℕ}
    (honline : s.isOnline a = true)
    (hfree : ∀ b user, b ≠ a → s.table.userlist.val b = some user →
      ¬ IrcEquiv user.nick (strscpy nick Users.NICKMAX)) (identified : Bool) :
    ∃ table, changeUserNick a nick s.table = some table ∧
      Consistent { s with table := markIdentified a identified table } := by
  obtain ⟨record, hrecord⟩ := Option.isSome_iff_exists.mp honline
  have hchange : ∃ table, changeUserNick a nick s.table = some table := by
    rw [changeUserNick, hrecord]
    exact ⟨_, rfl⟩
  obtain ⟨table, htable⟩ := hchange
  obtain ⟨xs, hxs⟩ := h.nicked.sound.chained
  obtain ⟨user, -, hval⟩ := changeUserNick_val htable
  have hnicked : Nicked table :=
    h.nicked.write (changeUserNick_chained hxs htable) hval hfree (strscpy_nick hnick)
  refine ⟨table, htable, h.retable (hnicked.markIdentified a identified) fun user hchans ↦ ?_⟩
  rw [isSome_markIdentified, hval, Function.update_apply]
  split_ifs
  · rfl
  · exact h.online user hchans

theorem finduser_isOnline (h : Consistent s) {nick : List Char} {user : UserId}
    (hfind : finduser s.table nick = some user) : s.isOnline user = true := by
  obtain ⟨record, hrecord, -⟩ := (h.nicked.sound.finduser_eq_some_iff nick user).mp hfind
  rw [Network.isOnline, hrecord]
  rfl

theorem doNick_spec (h : Consistent s) {source : List Char} {nick : CString} {a : ℕ} {admitted : Bool}
    (hmeets : s.NickMeets source nick a admitted) (identified : Bool) :
    ∃ s', s.doNick source nick a admitted identified = some s' ∧ Consistent s' := by
  obtain ⟨hnick, hmeets⟩ := hmeets
  by_cases hsource : strAt source 0 = []
  · rw [if_pos hsource] at hmeets
    by_cases hadmitted : admitted = true
    · obtain ⟨hheap, hfree⟩ := hmeets hadmitted
      obtain ⟨table, htable, hconsistent⟩ := newUser_spec h hnick hheap hfree identified
      refine ⟨_, ?_, hconsistent⟩
      rw [Network.doNick, Users.doNick, if_pos hsource, if_pos hadmitted, if_pos ⟨hsource, hadmitted⟩, htable,
        Option.map_some, Option.map_some]
    · refine ⟨s, ?_, h⟩
      rw [Network.doNick, Users.doNick, if_pos hsource, if_neg hadmitted, if_neg fun hboth ↦ hadmitted hboth.2,
        Option.map_some]
  · rw [if_neg hsource] at hmeets
    rw [Network.doNick, Users.doNick, if_neg hsource, if_neg fun hboth ↦ hsource hboth.1]
    cases hfind : finduser s.table source with
    | none => exact ⟨s, rfl, h⟩
    | some b =>
      obtain ⟨table, htable, hconsistent⟩ :=
        changeUserNick_spec h hnick (finduser_isOnline h hfind) (hmeets b hfind) identified
      exact ⟨_, by dsimp only; rw [htable, Option.map_some, Option.map_some], hconsistent⟩

theorem doUmode_spec (h : Consistent s) (source : List Char) (nick modes : CString) :
    ∃ table, doUmode source nick modes s.table = some table ∧ Consistent { s with table } := by
  rw [doUmode]
  split_ifs
  · exact ⟨_, rfl, h⟩
  · cases hfind : finduser s.table source with
    | none => exact ⟨_, rfl, h⟩
    | some a =>
      obtain ⟨user, huser, -⟩ := (h.nicked.sound.finduser_eq_some_iff source a).mp hfind
      dsimp only
      refine ⟨_, by rw [huser, Option.map_some], ?_⟩
      let mode (_ : BitVec 32) := (umodeLoop modes true user.mode s.table.opcnt).1
      have hnicked := h.nicked.setMode a mode
      refine h.retable ⟨⟨hnicked.sound.chained, hnicked.sound.distinct⟩, hnicked.nicks⟩ fun u hu ↦ ?_
      exact (isSome_setMode s.table a mode u).trans (h.online u hu)

theorem deleteUser_spec (h : Consistent s) (env : NetworkEnv) {user : UserId} (honline : s.isOnline user = true) :
    ∃ s', s.deleteUser env user = some s' ∧ Consistent s' := by
  obtain ⟨s₁, hs₁, hconsistent, htable, hchans⟩ := leaveAll_spec h env user
  obtain ⟨record, hrecord⟩ := Option.isSome_iff_exists.mp honline
  have hdelete : ∃ table, Users.deleteUser user s₁.table = some table := by
    rw [Users.deleteUser, htable, hrecord]
    exact ⟨_, rfl⟩
  obtain ⟨table, hdeleted⟩ := hdelete
  refine ⟨{ s₁ with table }, by rw [Network.deleteUser, hs₁, Option.bind_some, hdeleted, Option.map_some], ?_⟩
  refine hconsistent.retable (hconsistent.nicked.deleteUser hdeleted) fun u hu ↦ ?_
  have hne : u ≠ user := by
    rintro rfl
    rw [hchans, Function.update_self] at hu
    exact hu rfl
  rw [deleteUser_val hdeleted, Function.update_of_ne hne]
  exact hconsistent.online u hu

theorem doQuit_spec (h : Consistent s) (env : NetworkEnv) (source : List Char) :
    ∃ s', s.doQuit env source = some s' ∧ Consistent s' := by
  rw [Network.doQuit]
  cases hfind : finduser s.table source with
  | none => exact ⟨s, rfl, h⟩
  | some user => exact deleteUser_spec h env (finduser_isOnline h hfind)

end Users

/-! ### JOIN, PART and KICK -/

section Channels

variable {s : Network} {env : NetworkEnv} {user : UserId}

/-- A turn of JOIN in which the user joins a channel, and not `0`. -/
def Network.JoinMeets (env : NetworkEnv) (user : UserId) (s : Network) (chan : List Char) : Prop :=
  chan.head? ≠ some '0' → env.checkKick user (strAt chan 0) = none → s.MayEnter env user chan

/-- A ban names nobody. -/
theorem namesMembers_ban (cenv : CmodeEnv) (source : CString) (users : List UserId) (st : CmodeState) :
    NamesMembers cenv source users st ['+', 'b'] :=
  ⟨fun hc ↦ absurd hc (by decide), fun hc ↦ absurd hc (by decide), trivial⟩

theorem namesMembers_kick (s : Network) (env : NetworkEnv) (chan : List Char) (mask : CString) :
    s.NamesMembers env s_ChanServ chan ['+', 'b'] [mask] :=
  fun _ _ _ _ ↦ namesMembers_ban _ _ _ _

theorem isOnline_of_table {s' : Network} (htable : s'.table = s.table) (honline : s.isOnline user = true) :
    s'.isOnline user = true := (isOnline_congr htable user).trans honline

theorem joinChannel_spec (h : Consistent s) (honline : s.isOnline user = true) {chan : List Char}
    (hmeets : s.JoinMeets env user chan) :
    ∃ s', s.joinChannel env user chan = some s' ∧ Consistent s' ∧ s'.table = s.table := by
  rw [Network.joinChannel]
  by_cases hzero : chan.head? = some '0'
  · obtain ⟨s', hs', hconsistent, htable, -⟩ := leaveAll_spec h env user
    exact ⟨s', by rw [if_pos hzero, hs'], hconsistent, htable⟩
  · rw [if_neg hzero]
    cases hkick : env.checkKick user (strAt chan 0) with
    | some mask =>
      obtain ⟨s', hs', hstays⟩ := doCmode_stays h (namesMembers_kick s env (strAt chan 0) mask)
      exact ⟨s', hs', hstays.consistent, hstays.table⟩
    | none =>
      have hmay := hmeets hzero hkick
      obtain ⟨a, c, s', hs', hadded⟩ := chanAdduser_added h hmay
      exact ⟨s'.enter user chan, by dsimp only; rw [hs', Option.map_some],
        (hadded.enter h honline hmay.named).2, hadded.table⟩

theorem doJoin_spec (h : Consistent s) {source : List Char} {channels : CString}
    (hmeets : ∀ user, finduser s.table source = some user →
      AlongM (Network.joinChannel env user) (Network.JoinMeets env user) s (turns ',' channels)) :
    ∃ s', s.doJoin env source channels = some s' ∧ Consistent s' := by
  rw [Network.doJoin]
  cases hfind : finduser s.table source with
  | none => exact ⟨s, rfl, h⟩
  | some user =>
    have honline := finduser_isOnline h hfind
    have hstep (t : Network) (chan : List Char) (ht : Consistent t ∧ t.isOnline user = true)
        (hok : t.JoinMeets env user chan) :
        ∃ t', t.joinChannel env user chan = some t' ∧ Consistent t' ∧ t'.isOnline user = true := by
      obtain ⟨t', ht', hconsistent, htable⟩ := joinChannel_spec ht.1 ht.2 hok
      exact ⟨t', ht', hconsistent, isOnline_of_table htable ht.2⟩
    obtain ⟨s', hs', hconsistent, -⟩ := (hmeets user hfind).invariant hstep ⟨h, honline⟩
    exact ⟨s', hs', hconsistent⟩

theorem doPart_spec (h : Consistent s) (source : List Char) (channels : CString) :
    ∃ s', s.doPart env source channels = some s' ∧ Consistent s' := by
  rw [Network.doPart]
  cases hfind : finduser s.table source with
  | none => exact ⟨s, rfl, h⟩
  | some user =>
    refine (alongM_true s (turns ',' channels)).invariant (fun t chan ht _ ↦ ?_) h
    obtain ⟨t', ht', hconsistent, -⟩ := leave_spec ht env user (strAt chan 0)
    exact ⟨t', ht', hconsistent⟩

theorem doKick_spec (h : Consistent s) (channel nicks : CString) :
    ∃ s', s.doKick env channel nicks = some s' ∧ Consistent s' := by
  refine (alongM_true s (turns ',' nicks)).invariant (fun t nick ht _ ↦ ?_) h
  rw [Network.kickNick]
  cases finduser t.table nick with
  | none => exact ⟨t, rfl, ht⟩
  | some user =>
    obtain ⟨t', ht', hconsistent, -⟩ := leave_spec ht env user channel
    exact ⟨t', ht', hconsistent⟩

end Channels

/-! ### SJOIN -/

section Sjoin

variable {s : Network} {env : NetworkEnv} {user : UserId} {source channel : CString}

/-- A turn of SJOIN: there is room in `modebuf`, and whoever joins may enter. -/
def Network.SjoinMeets (env : NetworkEnv) (channel : CString) (s : Network × ℕ) (entry : List Char) : Prop :=
  (prefixesOf (strAt entry 0)).length + 1 < MODEBUF ∧
    ∀ user, finduser s.1.table (entry.dropWhile isPrefix) = some user → env.checkKick user channel = none →
      s.1.MayEnter env user channel

/-- The modes at the end of SJOIN: there are some, they name users on the channel, and their parameters fit. -/
def Network.SjoinModesMeet (env : NetworkEnv) (source channel : CString) (args : List CString) (s : Network × ℕ) :
    Prop :=
  ∀ modestr more, args = modestr :: more → s.2 ≠ 0 → modestr ≠ [] ∧
    s.1.NamesMembers env source channel modestr more.dropLast ∧
    ∀ a c, s.1.findchan channel = some a → s.1.chanlist.val a = some c →
      overreads (s.1.cmodeEnv env c.chan.name) source
        ⟨c.chan, true, more.dropLast.length, more.dropLast.take 2⟩ modestr = false

/-- A line all of whose parameters name users on the channel, or nobody. -/
theorem namesMembers_of_params {cenv : CmodeEnv} {users : List UserId} {st : CmodeState} {modestr : CString}
    (hnul : ∀ p ∈ st.av, nul ∉ p) (hmem : ∀ p ∈ st.av, ∀ u, cenv.finduser p = some u → u ∈ users)
    (hac : st.ac ≤ st.av.length) : NamesMembers cenv source users st modestr := by
  induction modestr generalizing st with
  | nil => trivial
  | cons c modestr ih =>
    constructor
    · intro _ hsome
      have hne : st.av ≠ [] := by
        rintro hnil
        rw [hnil] at hac
        exact absurd hsome (not_lt.mpr hac)
      have hhead : st.av.headD [] ∈ st.av := by
        obtain ⟨p, av, hav⟩ := List.exists_cons_of_ne_nil hne
        rw [hav]
        exact List.mem_cons_self
      exact ⟨hnul _ hhead, fun _ u hfind _ ↦ hmem _ hhead u hfind⟩
    · -- the letter moves the parameters on, or leaves them
      have hmoved : (cmodeStep cenv source st c).av ⊆ st.av ∧
          (cmodeStep cenv source st c).ac ≤ (cmodeStep cenv source st c).av.length := by
        by_cases htakes : hasParam st.add c
        · have hconsumes : Consumes (fun st ↦ cmodeStep cenv source st c) (c != 'k' || st.add) st :=
            consumes_cmodeStep cenv source htakes rfl
          rw [hconsumes.ac]
          by_cases hsome : 0 < st.ac
          · rw [(hconsumes.taken hsome).2]
            split_ifs
            · refine ⟨List.tail_subset _, ?_⟩
              rw [List.length_tail]
              omega
            · exact ⟨List.Subset.refl _, by omega⟩
          · rw [(hconsumes.skipped (by omega)).2]
            exact ⟨List.Subset.refl _, by omega⟩
        · rw [Bool.not_eq_true] at htakes
          obtain ⟨-, hac', hav'⟩ := cmodeStep_other cenv source htakes
          rw [hac', hav']
          exact ⟨List.Subset.refl _, hac⟩
      exact ih (fun p hp ↦ hnul p (hmoved.1 hp)) (fun p hp ↦ hmem p (hmoved.1 hp)) hmoved.2

theorem sjoinUser_spec (h : Consistent s) (honline : s.isOnline user = true) (hmay : s.MayEnter env user channel)
    {nick : List Char} (hfind : finduser s.table nick = some user) (modestr : CString) (modecnt : ℕ) :
    ∃ s', s.sjoinUser env source channel modestr (strAt nick 0) modecnt user = some s' ∧ Consistent s' ∧
      s'.table = s.table := by
  obtain ⟨a, c, s₁, hs₁, hadded⟩ := chanAdduser_added h hmay
  obtain ⟨hfound, hconsistent⟩ := hadded.enter h honline hmay.named
  have htable : (s₁.enter user channel).table = s.table := hadded.table
  rw [Network.sjoinUser, hs₁, Option.bind_some, hfound]
  dsimp only [Option.isNone_some]
  rw [if_neg Bool.false_ne_true]
  split_ifs
  · obtain ⟨hnick, hnul⟩ := finduser_strAt h.nicked hfind
    have hparams : ∀ p ∈ [strAt nick 0, strAt nick 0].take modecnt, p = strAt nick 0 := by
      intro p hp
      simpa using List.mem_of_mem_take hp
    have hnames : (s₁.enter user channel).NamesMembers env source channel modestr
        ([strAt nick 0, strAt nick 0].take modecnt) := by
      intro b d hb hd
      have hba : b = a := Option.some.inj (hb.symm.trans hfound)
      have hdc : d = c := by
        have hval : s₁.chanlist.val b = some c := by rw [hadded.val, hba, Function.update_self]
        exact Option.some.inj (hd.symm.trans hval)
      refine namesMembers_of_params (fun p hp ↦ ?_) (fun p hp u hu ↦ ?_) le_rfl
      · rw [hparams p hp]
        exact hnul
      · rw [hparams p hp] at hu
        have huser : u = user := by
          have hsame : finduser (s₁.enter user channel).table (strAt nick 0) = some u := hu
          rw [htable, hnick] at hsame
          exact (Option.some.inj hsame).symm
        rw [huser, hdc, hadded.users]
        exact List.mem_cons_self
    obtain ⟨s', hs', hstays⟩ := doCmode_stays hconsistent hnames
    exact ⟨s', hs', hstays.consistent, hstays.table.trans htable⟩
  · exact ⟨_, rfl, hconsistent, htable⟩

theorem network_sjoinNick_spec {t : Network × ℕ} (h : Consistent t.1) {entry : List Char}
    (hmeets : Network.SjoinMeets env channel t entry) :
    ∃ t', Network.sjoinNick env source channel t entry = some t' ∧ Consistent t'.1 := by
  obtain ⟨hroom, hmay⟩ := hmeets
  rw [Network.sjoinNick, modebuf, if_pos hroom, Option.bind_some]
  dsimp only
  cases hfind : finduser t.1.table (entry.dropWhile isPrefix) with
  | none => exact ⟨t, rfl, h⟩
  | some user =>
    dsimp only
    cases hkick : env.checkKick user channel with
    | some mask =>
      obtain ⟨s', hs', hstays⟩ := doCmode_stays h (namesMembers_kick t.1 env channel mask)
      exact ⟨(s', t.2), congrArg (Option.map fun s' ↦ (s', t.2)) hs', hstays.consistent⟩
    | none =>
      obtain ⟨s', hs', hconsistent, -⟩ :=
        sjoinUser_spec h (finduser_isOnline h hfind) (hmay user hfind hkick) hfind _ _
      exact ⟨(s', t.2 + 1), congrArg (Option.map fun s' ↦ (s', t.2 + 1)) hs', hconsistent⟩

theorem network_sjoinModes_spec {t : Network × ℕ} (h : Consistent t.1) {args : List CString}
    (hmeets : Network.SjoinModesMeet env source channel args t) :
    ∃ s', Network.sjoinModes env source channel args t = some s' ∧ Consistent s' := by
  by_cases hjoins : t.2 = 0
  · cases args with
    | nil => exact ⟨t.1, rfl, h⟩
    | cons modestr more => exact ⟨t.1, by rw [Network.sjoinModes.eq_def]; exact if_pos hjoins, h⟩
  · match args with
    | [] => exact ⟨t.1, rfl, h⟩
    | [] :: more => exact absurd rfl (hmeets [] more rfl hjoins).1
    | [c] :: more => exact ⟨t.1, by rw [Network.sjoinModes.eq_def]; exact if_neg hjoins, h⟩
    | (c :: d :: modestr) :: more =>
      obtain ⟨-, hnames, hfit⟩ := hmeets (c :: d :: modestr) more rfl hjoins
      rw [Network.sjoinModes.eq_def]
      dsimp only
      rw [if_neg hjoins]
      cases hfind : t.1.findchan channel with
      | none => exact ⟨t.1, rfl, h⟩
      | some a =>
        obtain ⟨chan, hval, -⟩ := findchan_eq_some h.kempt hfind
        obtain ⟨s', hs', hstays⟩ := doCmode_stays h hnames
        refine ⟨s', ?_, hstays.consistent⟩
        dsimp only
        rw [hval, Option.bind_some, hfit a chan hfind hval, if_neg Bool.false_ne_true, hs']

/-- All that SJOIN needs. -/
def Network.SjoinLineMeets (env : NetworkEnv) (source : CString) (av : List CString) (s : Network) : Prop :=
  ∃ channel args, sjoinParams av = some (channel, args) ∧
    AlongM (Network.sjoinNick env source channel) (Network.SjoinMeets env channel) (s, 0) (sjoinNicks source args) ∧
    ∀ t, (sjoinNicks source args).foldlM (Network.sjoinNick env source channel) (s, 0) = some t →
      Network.SjoinModesMeet env source channel args t

theorem doSjoin_spec (h : Consistent s) {av : List CString} (hmeets : s.SjoinLineMeets env source av) :
    ∃ s', s.doSjoin env source av = some s' ∧ Consistent s' := by
  obtain ⟨channel, args, hparams, halong, hmodes⟩ := hmeets
  have hstep (t : Network × ℕ) (entry : List Char) (ht : Consistent t.1) (hok : Network.SjoinMeets env channel t entry) :
      ∃ t', Network.sjoinNick env source channel t entry = some t' ∧ Consistent t'.1 :=
    network_sjoinNick_spec ht hok
  obtain ⟨t, ht, hconsistent⟩ := halong.invariant hstep h
  obtain ⟨s', hs', hend⟩ := network_sjoinModes_spec hconsistent (hmodes t ht)
  refine ⟨s', ?_, hend⟩
  rw [Network.doSjoin, hparams, Option.bind_some]
  dsimp only
  rw [ht, Option.bind_some, hs']

end Sjoin

/-! ### Runs -/

/-- What a message must meet when it comes. -/
def Network.Meets (s : Network) : NetworkMessage → Prop
  | .nick source nick a admitted _ => s.NickMeets source nick a admitted
  | .join env source channels => ∀ user, finduser s.table source = some user →
      AlongM (Network.joinChannel env user) (Network.JoinMeets env user) s (turns ',' channels)
  | .sjoin env source av => s.SjoinLineMeets env source av
  | .mode env source chan modestr params => s.NamesMembers env source chan modestr params
  | .umode .. | .quit .. | .kill .. | .part .. | .kick .. => True

theorem receive_spec {s : Network} (h : Consistent s) {m : NetworkMessage} (hmeets : s.Meets m) :
    ∃ s', s.receive m = some s' ∧ Consistent s' := by
  cases m with
  | nick source nick a admitted identified => exact doNick_spec h hmeets identified
  | umode source nick modes =>
    obtain ⟨table, htable, hconsistent⟩ := doUmode_spec h source nick modes
    exact ⟨_, by rw [Network.receive, htable, Option.map_some], hconsistent⟩
  | quit env source => exact doQuit_spec h env source
  | kill env nick => exact doQuit_spec h env nick
  | join env source channels => exact doJoin_spec h hmeets
  | sjoin env source av => exact doSjoin_spec h hmeets
  | part env source channels => exact doPart_spec h source channels
  | kick env channel nicks => exact doKick_spec h channel nicks
  | mode env source chan modestr params =>
    obtain ⟨s', hs', hstays⟩ := doCmode_stays h hmeets
    exact ⟨s', hs', hstays.consistent⟩

theorem consistent_initial (maxusercnt : ℤ) : Consistent (.initial maxusercnt) where
  nicked := ⟨⟨⟨_, chained_empty hashUser⟩, fun _ _ _ _ hval ↦ nomatch hval⟩, fun _ _ hval ↦ nomatch hval⟩
  kempt := ⟨⟨_, chained_empty hashLimit⟩, fun _ _ _ _ hval ↦ (nomatch hval), fun _ _ hval ↦ (nomatch hval),
    fun _ _ hval ↦ nomatch hval⟩
  mirrored := by
    have husers : (Network.initial maxusercnt).usersOn = fun _ ↦ [] := by
      ext1 p
      cases p <;> rfl
    rw [husers]
    exact mirrored_empty
  online := fun _ hne ↦ absurd rfl hne

/-- In every state of a run whose messages meet their conditions a channel is in the list of a user exactly when the user
is in the list of the channel, both once, and the rest of `Consistent` holds; and every message is handled to its end. -/
theorem membership_run (maxusercnt : ℤ) (messages : List NetworkMessage)
    (h : AlongM Network.receive Network.Meets (.initial maxusercnt) messages) :
    ∀ before, before <+: messages →
      ∃ s, before.foldlM Network.receive (.initial maxusercnt) = some s ∧ Consistent s := by
  rintro before ⟨rest, rfl⟩
  exact h.of_append.invariant (fun _ _ hs hok ↦ receive_spec hs hok) (consistent_initial maxusercnt)

/-- A rest of the program that bans nobody, locks nothing and lets everybody have ops. -/
def laxEnv : NetworkEnv where
  serverName := ['s']
  now := 0
  channelId _ := 0
  row _ := none
  auto _ := ⟨0, 0, 0, 0⟩
  checkKick _ _ := none
  shouldOp _ _ := false
  shouldVoice _ _ := false
  checkValidOp _ _ _ := true
  malloc _ := 0

/-- Two users come, and one of them joins a channel. -/
def arrivals : List NetworkMessage :=
  [.nick [] ['a', 'l'] 1 true false, .nick [] ['b', 'o'] 2 true false, .join laxEnv ['a', 'l'] ['#', 'a']]

/-- The network after the first messages. -/
def Network.after (messages : List NetworkMessage) : Network :=
  (messages.foldlM Network.receive (.initial 0)).getD (.initial 0)

theorem arrivals_meet : AlongM Network.receive Network.Meets (.initial 0) arrivals := by
  have hfirst (b : ℕ) (user : TableUser) (hval : (Network.after (arrivals.take 1)).table.userlist.val b = some user) :
      user = ⟨['a', 'l'], 0⟩ := by
    have hupdate : (Network.after (arrivals.take 1)).table.userlist.val b =
        Function.update (UserTable.initial 0).userlist.val 1 (some ⟨['a', 'l'], 0⟩) b :=
      congrFun (val_push ..) b
    rw [hupdate, Function.update_apply] at hval
    split_ifs at hval
    · exact (Option.some.inj hval).symm
    · cases hval
  have hnew : (Network.initial 0).receive (.nick [] ['a', 'l'] 1 true false) =
      some (Network.after (arrivals.take 1)) := rfl
  have hnew' : (Network.after (arrivals.take 1)).receive (.nick [] ['b', 'o'] 2 true false) =
      some (Network.after (arrivals.take 2)) := rfl
  refine .cons ⟨by decide, fun _ ↦ ⟨rfl, fun _ _ hval ↦ nomatch hval⟩⟩ hnew
    (.cons ⟨by decide, fun _ ↦ ⟨rfl, fun b user hval ↦ ?_⟩⟩ hnew' ⟨?_, fun _ _ ↦ trivial⟩)
  · rw [hfirst b user hval]
    decide +kernel
  · intro user huser
    have hal : finduser (Network.after (arrivals.take 2)).table ['a', 'l'] = some 1 := by decide +kernel
    obtain rfl := Option.some.inj (hal.symm.trans huser)
    have hturns : turns ',' ['#', 'a'] = [['#', 'a', nul]] := by decide +kernel
    rw [hturns]
    have hnone : (Network.after (arrivals.take 2)).findchan ['#', 'a', nul] = none := by decide +kernel
    refine ⟨fun _ _ ↦ ⟨by decide +kernel, by decide +kernel, fun a hfound ↦ ?_, fun _ ↦ rfl⟩, fun _ _ ↦ trivial⟩
    rw [hnone] at hfound
    cases hfound

theorem consistent_arrivals :
    arrivals.foldlM Network.receive (.initial 0) = some (Network.after arrivals) ∧ Consistent (Network.after arrivals) := by
  obtain ⟨s, hs, hconsistent⟩ :=
    arrivals_meet.invariant (fun _ _ hs hok ↦ receive_spec hs hok) (consistent_initial 0)
  rw [Network.after, hs]
  exact ⟨rfl, hconsistent⟩

theorem membership_run_arrivals :
    ∃ s, arrivals.foldlM Network.receive (.initial 0) = some s ∧ Consistent s :=
  membership_run 0 arrivals arrivals_meet arrivals List.prefix_rfl

end BlitzedServices.Users
