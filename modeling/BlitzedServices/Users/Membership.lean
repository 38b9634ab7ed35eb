import BlitzedServices.Lib.Mirror
import BlitzedServices.Users.Ranks

/-!
# The two lists of a membership

`Consistent` is what the handlers keep: a channel is in the list of a user exactly when the user is in the list of the
channel, each once; every user in a list is online; a channel has users, its ops and voices are among them, and no two
channels have the same name. The lemmas say what joining a channel, leaving some channels and a MODE line do to it.
-/

set_option autoImplicit false
set_option relaxedAutoImplicit false

namespace BlitzedServices.Users

open Lib Misc Channels ChanServ

/-! ### Names -/

theorem ircTolower_eq_nul_iff (c : Char) : ircTolower c = nul ↔ c = nul := by
  have hnul : nul.toNat = 0 := rfl
  rw [← Char.toNat_inj, ← Char.toNat_inj, toNat_ircTolower, hnul]
  by_cases hc : 65 ≤ c.toNat ∧ c.toNat ≤ 93
  · rw [if_pos hc]
    omega
  · rw [if_neg hc]

/-- The case mapping keeps the bucket. -/
theorem hashName_map (chan : List Char) : hashName (chan.map ircTolower) = hashName chan := by
  have hget (i : ℕ) : (chan.map ircTolower).getD i nul = ircTolower (chan.getD i nul) := by
    rw [← ircTolower_nul, List.getD_map, ircTolower_nul]
  rw [hashName, hashName, hget, hget, ircTolower_and, ircTolower_and]
  simp only [ircTolower_eq_nul_iff]

theorem hashName_of_ircStricmp {s t : CString} (h : ircStricmp s t = 0) : hashName s = hashName t := by
  rw [← hashName_map s, ← hashName_map t, ircEquiv_of_ircStricmp h]

/-- What follows a name in a buffer does not matter, unless the name is empty. -/
theorem hashName_strAt {chan : List Char} (h : strAt chan 0 ≠ []) : hashName (strAt chan 0) = hashName chan := by
  rw [strAt, List.drop_zero] at h ⊢
  rcases chan with _ | ⟨c, _ | ⟨d, chan⟩⟩
  · rfl
  · by_cases hc : c = nul <;> simp [hc, hashName] at h ⊢
  · by_cases hc : c = nul
    · exact absurd (by simp [hc]) h
    · by_cases hd : d = nul
      · simp [hc, hd, hashName]
      · cases chan with
        | nil => simp [hc, hd]
        | cons e chan => by_cases he : e = nul <;> simp [hc, hd, he, hashName]

/-! ### What the handlers keep -/

/-- The users on the channel that an entry points to. -/
def Network.usersOn (s : Network) (p : Option ℕ) : List UserId :=
  ((p.bind s.chanlist.val).map fun c ↦ c.chan.users).getD []

/-- No two channels have the same name. -/
def DistinctNames (val : ℕ → Option LimitChannel) : Prop :=
  ∀ a b c d, val a = some c → val b = some d → ircStricmp c.chan.name d.chan.name = 0 → a = b

/-- The table of channels: chains, names, users and ranks. -/
structure Kempt (chanlist : HashTable LimitChannel) : Prop where
  chained : ∃ xs, Chained hashLimit chanlist xs
  distinct : DistinctNames chanlist.val
  occupied : ∀ a c, chanlist.val a = some c → c.chan.users ≠ []
  ranked : ∀ a c, chanlist.val a = some c → Ranked c.chan

/-- Users, channels and who is where. -/
structure Consistent (s : Network) : Prop where
  nicked : Nicked s.table
  kempt : Kempt s.chanlist
  mirrored : Mirrored s.chans s.usersOn
  online : ∀ user, s.chans user ≠ [] → s.isOnline user = true

section Basics

variable {s : Network} {chan : List Char} {a : ℕ} {c c' : LimitChannel}

theorem usersOn_some (s : Network) (a : ℕ) : s.usersOn (some a) = ((s.chanlist.val a).map fun c ↦ c.chan.users).getD [] :=
  rfl

theorem usersOn_of_val (h : s.chanlist.val a = some c) : s.usersOn (some a) = c.chan.users := by
  rw [usersOn_some, h]
  rfl

/-- An entry of a user points to a channel he is on. -/
theorem Consistent.exists_chan (h : Consistent s) {user : UserId} {p : Option ℕ} (hp : p ∈ s.chans user) :
    ∃ a c, p = some a ∧ s.chanlist.val a = some c ∧ user ∈ c.chan.users := by
  have hmem := (h.mirrored.mem_iff user p).mp hp
  cases p with
  | none => exact absurd hmem List.not_mem_nil
  | some a =>
    rw [usersOn_some] at hmem
    cases hval : s.chanlist.val a with
    | none =>
      rw [hval] at hmem
      exact absurd hmem List.not_mem_nil
    | some c =>
      rw [hval] at hmem
      exact ⟨a, c, rfl, hval, hmem⟩

/-- Whoever is on a channel is online. -/
theorem Consistent.online_of_mem (h : Consistent s) (hval : s.chanlist.val a = some c) {user : UserId}
    (hmem : user ∈ c.chan.users) : s.isOnline user = true := by
  refine h.online user (List.ne_nil_of_mem ((h.mirrored.mem_iff user (some a)).mpr ?_))
  rwa [usersOn_of_val hval]

theorem findchan_eq_some (h : Kempt s.chanlist) (hfind : s.findchan chan = some a) :
    ∃ c, s.chanlist.val a = some c ∧ ircStricmp c.chan.name (strAt chan 0) = 0 := by
  obtain ⟨xs, hxs⟩ := h.chained
  rw [Network.findchan, (hxs.linked (hashName chan)).toList_eq, Option.map_eq_some_iff] at hfind
  obtain ⟨⟨_, c⟩, hfind, rfl⟩ := hfind
  exact ⟨c, (hxs.mem_iff.mp (List.mem_of_find?_eq_some hfind)).1, by simpa using List.find?_some hfind⟩

/-- A channel is found by its name. -/
theorem findchan_isSome (hxs : ∃ xs, Chained hashLimit s.chanlist xs) (hchan : strAt chan 0 ≠ [])
    (hval : s.chanlist.val a = some c) (hname : ircStricmp c.chan.name (strAt chan 0) = 0) :
    (s.findchan chan).isSome := by
  obtain ⟨xs, hxs⟩ := hxs
  have hhash : hashLimit c = hashName chan := (hashName_of_ircStricmp hname).trans (hashName_strAt hchan)
  rw [Network.findchan, (hxs.linked (hashName chan)).toList_eq, Option.isSome_map, List.find?_isSome]
  exact ⟨(a, c), hxs.mem_iff.mpr ⟨hval, hhash⟩, by simpa using hname⟩

theorem ircStricmp_left {r t u : CString} (h : ircStricmp r u = 0) (h' : ircStricmp t u = 0) : ircStricmp r t = 0 := by
  rw [ircStricmp_eq_zero_iff] at h h' ⊢
  rw [h, h']

theorem findchan_eq (h : ∃ xs, Chained hashLimit s.chanlist xs)
    (hdistinct : DistinctNames s.chanlist.val)
    (hchan : strAt chan 0 ≠ []) (hval : s.chanlist.val a = some c)
    (hname : ircStricmp c.chan.name (strAt chan 0) = 0) : s.findchan chan = some a := by
  obtain ⟨b, hfind⟩ := Option.isSome_iff_exists.mp (findchan_isSome h hchan hval hname)
  obtain ⟨xs, hxs⟩ := h
  have hfound := hfind
  rw [Network.findchan, (hxs.linked (hashName chan)).toList_eq, Option.map_eq_some_iff] at hfound
  obtain ⟨⟨_, d⟩, hfound, rfl⟩ := hfound
  have hd := (hxs.mem_iff.mp (List.mem_of_find?_eq_some hfound)).1
  have hother : ircStricmp d.chan.name (strAt chan 0) = 0 := by simpa using List.find?_some hfound
  rw [hfind, hdistinct _ a d c hd hval (ircStricmp_left hother hname)]

theorem val_setChan (hval : s.chanlist.val a = some c) (c' : LimitChannel) :
    (s.setChan a c').chanlist.val = Function.update s.chanlist.val a (some c') := by
  rw [Network.setChan, val_modifyVal, hval]
  rfl

theorem chained_setChan (hxs : ∃ xs, Chained hashLimit s.chanlist xs) (hval : s.chanlist.val a = some c)
    (hname : c'.chan.name = c.chan.name) : ∃ ys, Chained hashLimit (s.setChan a c').chanlist ys := by
  obtain ⟨xs, hxs⟩ := hxs
  obtain ⟨pre, post, hbucket⟩ := hxs.exists_bucket hval
  exact ⟨_, hxs.setVal (congrArg hashName hname) hbucket⟩

/-- One record of the table is written. -/
theorem usersOn_update {s' : Network} {o : Option LimitChannel}
    (hval : s'.chanlist.val = Function.update s.chanlist.val a o) :
    s'.usersOn = Function.update s.usersOn (some a) ((o.map fun c ↦ c.chan.users).getD []) := by
  ext1 p
  cases p with
  | none => rw [Function.update_of_ne (Option.some_ne_none a).symm]; rfl
  | some b =>
    rw [usersOn_some, hval]
    by_cases hb : b = a
    · rw [hb, Function.update_self, Function.update_self]
    · rw [Function.update_of_ne hb, Function.update_of_ne fun h ↦ hb (Option.some.inj h)]
      rfl

/-- A record is written whose name no other channel has. -/
theorem DistinctNames.write {val : ℕ → Option LimitChannel} (h : DistinctNames val)
    (hname : ∀ b d, b ≠ a → val b = some d → ircStricmp c'.chan.name d.chan.name ≠ 0) :
    DistinctNames (Function.update val a (some c')) := by
  intro b b' d d' hd hd' heq
  rw [Function.update_apply] at hd hd'
  split_ifs at hd hd' with hb hb' hb'
  · exact hb.trans hb'.symm
  · obtain rfl := Option.some.inj hd
    exact absurd heq (hname b' d' hb' hd')
  · obtain rfl := Option.some.inj hd'
    rw [ircStricmp_eq_zero_iff, eq_comm, ← ircStricmp_eq_zero_iff] at heq
    exact absurd heq (hname b d hb hd)
  · exact h b b' d d' hd hd' heq

/-- A record is written that keeps the name of the old one, or has a new one. -/
theorem Kempt.write (h : Kempt s.chanlist) {chanlist : HashTable LimitChannel}
    (hchained : ∃ xs, Chained hashLimit chanlist xs)
    (hval : chanlist.val = Function.update s.chanlist.val a (some c'))
    (hname : ∀ b d, b ≠ a → s.chanlist.val b = some d → ircStricmp c'.chan.name d.chan.name ≠ 0)
    (hoccupied : c'.chan.users ≠ []) (hranked : Ranked c'.chan) : Kempt chanlist where
  chained := hchained
  distinct := hval ▸ h.distinct.write hname
  occupied := by
    intro b d hd
    rw [hval, Function.update_apply] at hd
    split_ifs at hd
    · obtain rfl := Option.some.inj hd
      exact hoccupied
    · exact h.occupied b d hd
  ranked := by
    intro b d hd
    rw [hval, Function.update_apply] at hd
    split_ifs at hd
    · obtain rfl := Option.some.inj hd
      exact hranked
    · exact h.ranked b d hd

/-- The names of the other channels differ from that of a record. -/
theorem Kempt.other_name (h : Kempt s.chanlist) (hval : s.chanlist.val a = some c)
    (hname : c'.chan.name = c.chan.name) :
    ∀ b d, b ≠ a → s.chanlist.val b = some d → ircStricmp c'.chan.name d.chan.name ≠ 0 := by
  intro b d hb hd heq
  rw [hname] at heq
  exact hb (h.distinct a b c d hval hd heq).symm

end Basics

/-! ### MODE -/

section Mode

variable {s : Network} {env : NetworkEnv} {source modestr : CString} {chan : List Char} {params : List CString}

/-- A MODE line for a channel gives ops and voice to users on it. -/
def Network.NamesMembers (s : Network) (env : NetworkEnv) (source : CString) (chan : List Char) (modestr : CString)
    (params : List CString) : Prop :=
  ∀ a c, s.findchan chan = some a → s.chanlist.val a = some c →
    Users.NamesMembers (s.cmodeEnv env c.chan.name) source c.chan.users ⟨c.chan, true, params.length, params⟩ modestr

theorem findsByNick_cmodeEnv (h : Nicked s.table) (env : NetworkEnv) (name : CString) :
    FindsByNick (s.cmodeEnv env name) := by
  intro nick user hnul hfind
  obtain ⟨record, hval, -, hcmp⟩ := (h.sound.finduser_eq_some_iff nick user).mp hfind
  have htext : strAt nick 0 = nick := by
    rw [strAt, List.drop_zero, List.takeWhile_eq_self_iff]
    intro c hc
    simpa using fun h : c = nul ↦ hnul (h ▸ hc)
  have hnick : (s.cmodeEnv env name).nickOf user = record.nick := by
    show ((s.table.userlist.val user).map TableUser.nick).getD [] = _
    rw [hval]
    rfl
  rw [hnick]
  rwa [htext] at hcmp

/-- What a handler does that changes a record but nobody's place. -/
structure Stays (s s' : Network) : Prop where
  consistent : Consistent s'
  table : s'.table = s.table
  chans : s'.chans = s.chans

theorem Stays.refl (h : Consistent s) : Stays s s := ⟨h, rfl, rfl⟩

/-- A MODE line that names users on the channel keeps everything in its place. -/
theorem doCmode_stays (h : Consistent s) (hnames : s.NamesMembers env source chan modestr params) :
    ∃ s', s.doCmode env source chan modestr params = some s' ∧ Stays s s' := by
  rw [Network.doCmode]
  cases hfind : s.findchan chan with
  | none => exact ⟨s, rfl, .refl h⟩
  | some a =>
    obtain ⟨c, hval, -⟩ := findchan_eq_some h.kempt hfind
    have hnames := hnames a c hfind hval
    have hfinds := findsByNick_cmodeEnv h.nicked env c.chan.name
    have hreads : cmodeReadable s.isOnline (s.cmodeEnv env c.chan.name) source
        ⟨c.chan, true, params.length, params⟩ modestr = true :=
      cmodeReadable_of_online hfinds (fun user hmem ↦ h.online_of_mem hval hmem) (h.kempt.ranked a c hval) hnames
    have hkept := doCmode_kept hfinds env.now (env.row c.chan.channelId) s.lastmodes hnames
    dsimp only
    rw [hval, Option.bind_some, if_pos hreads]
    generalize ChanServ.doCmode (s.cmodeEnv env c.chan.name) env.now (env.row c.chan.channelId) source s.lastmodes
      c.chan modestr params = result at hkept ⊢
    have hval' := val_setChan hval { c with chan := result.1 }
    refine ⟨_, rfl, ⟨h.nicked, ?_, ?_, h.online⟩, rfl, rfl⟩
    · refine h.kempt.write (chained_setChan h.kempt.chained hval hkept.name) hval'
        (h.kempt.other_name hval hkept.name) ?_ (hkept.ranked (h.kempt.ranked a c hval))
      rw [hkept.users]
      exact h.kempt.occupied a c hval
    · have husers : Network.usersOn (s.setChan a { c with chan := result.1 }) = s.usersOn := by
        rw [usersOn_update hval', Option.map_some, Option.getD_some, hkept.users, ← usersOn_of_val hval,
          Function.update_eq_self]
      exact husers ▸ h.mirrored

end Mode

/-! ### Entering -/

section Entering

variable {s s' : Network} {env : NetworkEnv} {user : UserId} {chan : List Char} {a : ℕ} {c : LimitChannel}

/-- A user may be put on the channel: its name is not empty and fits in a record, he is not on it yet, and when it is new
its record is put where nothing is. -/
structure Network.MayEnter (s : Network) (env : NetworkEnv) (user : UserId) (chan : List Char) : Prop where
  named : strAt chan 0 ≠ []
  short : (strAt chan 0).length < CHANMAX
  outside : ∀ a, s.findchan chan = some a → user ∉ s.usersOn (some a)
  fresh : s.findchan chan = none → s.chanlist.heap (env.malloc (strAt chan 0)) = none

/-- What `chan_adduser` leaves: the user is at the front of the list of the one channel of this name. -/
structure Added (s : Network) (user : UserId) (chan : List Char) (a : ℕ) (c : LimitChannel) (s' : Network) : Prop where
  table : s'.table = s.table
  chans : s'.chans = s.chans
  chained : ∃ xs, Chained hashLimit s'.chanlist xs
  val : s'.chanlist.val = Function.update s.chanlist.val a (some c)
  users : c.chan.users = user :: s.usersOn (some a)
  outside : user ∉ s.usersOn (some a)
  ranked : Ranked c.chan
  name : ircStricmp c.chan.name (strAt chan 0) = 0
  others : ∀ b d, b ≠ a → s.chanlist.val b = some d → ircStricmp c.chan.name d.chan.name ≠ 0

theorem listUser_frame (env : NetworkEnv) (user : UserId) (name : CString) (chan : Channel) :
    (listUser env user name chan).name = chan.name ∧ (listUser env user name chan).users = user :: chan.users := by
  rw [listUser]
  split_ifs <;> exact ⟨rfl, rfl⟩

theorem Ranked.listUser {chan : Channel} (h : Ranked chan) (hnew : user ∉ chan.users) (env : NetworkEnv)
    (name : CString) : Ranked (listUser env user name chan) := by
  have hops : chan.chanops ⊆ user :: chan.users := fun _ hop ↦ List.mem_cons_of_mem user (h.chanops_subset hop)
  have hvoiced : chan.voices ⊆ user :: chan.users := fun _ hop ↦ List.mem_cons_of_mem user (h.voices_subset hop)
  have hself : user ∈ user :: chan.users := List.mem_cons_self
  rw [Users.listUser]
  split_ifs
  · exact ⟨List.nodup_cons.mpr ⟨fun hop ↦ hnew (h.chanops_subset hop), h.chanops_nodup⟩,
      List.cons_subset.mpr ⟨hself, hops⟩, h.voices_nodup, hvoiced⟩
  · exact ⟨h.chanops_nodup, hops, List.nodup_cons.mpr ⟨fun hop ↦ hnew (h.voices_subset hop), h.voices_nodup⟩,
      List.cons_subset.mpr ⟨hself, hvoiced⟩⟩
  · exact ⟨h.chanops_nodup, hops, h.voices_nodup, hvoiced⟩

theorem heap_eq_none_of_val {α : Type} {t : HashTable α} {a : ℕ} (h : t.heap a = none) : t.val a = none := by
  show (t.heap a).map Node.val = none
  rw [h]
  rfl

/-- A new channel has the name it was asked for, and nobody on it. -/
theorem createChan_spec (h : Consistent s) (hmay : s.MayEnter env user chan) (hnone : s.findchan chan = none) :
    ∃ s' c, s.createChan env chan = some s' ∧ s'.table = s.table ∧ s'.chans = s.chans ∧
      (∃ xs, Chained hashLimit s'.chanlist xs) ∧
      s'.chanlist.val = Function.update s.chanlist.val (env.malloc (strAt chan 0)) (some c) ∧
      members c.chan = (strAt chan 0, [], [], []) := by
  have hheap := hmay.fresh hnone
  generalize ha : env.malloc (strAt chan 0) = a at hheap ⊢
  let c := newChannel env (strAt chan 0)
  have hcut : strscpy (strAt chan 0) CHANMAX = strAt chan 0 :=
    List.take_of_length_le (by have := hmay.short; omega)
  have hmembers : members c.chan = (strAt chan 0, [], [], []) := by
    show (strscpy (strAt chan 0) CHANMAX, [], [], []) = _
    rw [hcut]
  have hname : c.chan.name = strAt chan 0 := congrArg Prod.fst hmembers
  obtain ⟨xs, hxs⟩ := h.kempt.chained
  let s₁ : Network := { s with chanlist := s.chanlist.push (hashLimit c) a c }
  have hchained : ∃ xs, Chained hashLimit s₁.chanlist xs := ⟨_, hxs.push hheap c⟩
  have hval : s₁.chanlist.val = Function.update s.chanlist.val a (some c) := val_push ..
  have hself : s₁.chanlist.val a = some c := by rw [hval, Function.update_self]
  have hequal : ircStricmp c.chan.name (strAt chan 0) = 0 := by rw [hname, ircStricmp_eq_zero_iff]
  have hother : ∀ b d, b ≠ a → s.chanlist.val b = some d → ircStricmp c.chan.name d.chan.name ≠ 0 := by
    intro b d _ hd heq
    rw [hname, ircStricmp_eq_zero_iff, eq_comm, ← ircStricmp_eq_zero_iff] at heq
    have hsome := findchan_isSome h.kempt.chained hmay.named hd heq
    rw [hnone] at hsome
    cases hsome
  have hfound : s₁.findchan chan = some a :=
    findchan_eq hchained (hval ▸ h.kempt.distinct.write hother) hmay.named hself hequal
  let c' : LimitChannel := { c with
    chan := (ChanServ.checkModes (s₁.cmodeEnv env c.chan.name) env.now (env.row c.chan.channelId) c.chan).1 }
  have hchecked : members c'.chan = members c.chan := members_checkModes env.now (env.row c.chan.channelId) c.chan
  have hcheck : s₁.checkModes env chan = s₁.setChan a c' := by
    rw [Network.checkModes, hfound]
    dsimp only
    rw [hself]
  refine ⟨s₁.setChan a c', c', ?_, rfl, rfl, chained_setChan hchained hself (congrArg Prod.fst hchecked), ?_,
    hchecked.trans hmembers⟩
  · rw [Network.createChan, ha, hheap]
    exact congrArg some hcheck
  · rw [val_setChan hself, hval, Function.update_idem]

/-- A user who may enter a channel is put in its lists. -/
theorem chanAdduser_added (h : Consistent s) (hmay : s.MayEnter env user chan) :
    ∃ a c s', s.chanAdduser env user chan = some s' ∧ Added s user chan a c s' := by
  cases hfind : s.findchan chan with
  | some a =>
    obtain ⟨c, hval, hname⟩ := findchan_eq_some h.kempt hfind
    have hframe := listUser_frame env user (strAt chan 0) c.chan
    have houtside := hmay.outside a hfind
    rw [usersOn_of_val hval] at houtside
    let c' : LimitChannel := { c with chan := listUser env user (strAt chan 0) c.chan }
    refine ⟨a, c', s.setChan a c', ?_, ?_⟩
    · rw [Network.chanAdduser, hfind]
      dsimp only
      rw [Network.addToLists, hval, Option.map_some]
    · exact
        { table := rfl
          chans := rfl
          chained := chained_setChan h.kempt.chained hval hframe.1
          val := val_setChan hval _
          users := by rw [usersOn_of_val hval]; exact hframe.2
          outside := hmay.outside a hfind
          ranked := (h.kempt.ranked a c hval).listUser houtside env _
          name := by rw [hframe.1]; exact hname
          others := h.kempt.other_name hval hframe.1 }
  | none =>
    obtain ⟨s₁, c, hcreate, htable, hchans, hchained, hval, hmembers⟩ := createChan_spec h hmay hfind
    have hnew := heap_eq_none_of_val (hmay.fresh hfind)
    have hself : s₁.chanlist.val (env.malloc (strAt chan 0)) = some c := by rw [hval, Function.update_self]
    have hnobody : s.usersOn (some (env.malloc (strAt chan 0))) = [] := by
      rw [usersOn_some, hnew]
      rfl
    simp only [members, Prod.mk.injEq] at hmembers
    obtain ⟨hname, husers, hchanops, hvoices⟩ := hmembers
    have hframe := listUser_frame env user (strAt chan 0) c.chan
    have hranked : Ranked c.chan :=
      ⟨hchanops ▸ List.nodup_nil, hchanops ▸ List.nil_subset _, hvoices ▸ List.nodup_nil, hvoices ▸ List.nil_subset _⟩
    let c' : LimitChannel := { c with chan := listUser env user (strAt chan 0) c.chan }
    refine ⟨env.malloc (strAt chan 0), c', s₁.setChan (env.malloc (strAt chan 0)) c', ?_, ?_⟩
    · rw [Network.chanAdduser, hfind]
      dsimp only
      rw [hcreate, Option.bind_some, Network.addToLists, hself, Option.map_some]
    · exact
        { table := htable
          chans := hchans
          chained := chained_setChan hchained hself hframe.1
          val := by rw [val_setChan hself, hval, Function.update_idem]
          users := by rw [hnobody, ← husers]; exact hframe.2
          outside := by rw [hnobody]; exact List.not_mem_nil
          ranked := hranked.listUser (husers ▸ List.not_mem_nil) env _
          name := by rw [hframe.1, hname, ircStricmp_eq_zero_iff]
          others := by
            intro b d _ hd heq
            rw [hframe.1, hname, ircStricmp_eq_zero_iff, eq_comm, ← ircStricmp_eq_zero_iff] at heq
            have hsome := findchan_isSome h.kempt.chained hmay.named hd heq
            rw [hfind] at hsome
            cases hsome }

theorem isOnline_congr (htable : s'.table = s.table) (u : UserId) : s'.isOnline u = s.isOnline u := by
  rw [Network.isOnline, Network.isOnline, htable]

/-- With the entry in his own list the user is on the channel, and `findchan` finds it. -/
theorem Added.enter (hadded : Added s user chan a c s') (h : Consistent s) (honline : s.isOnline user = true)
    (hchan : strAt chan 0 ≠ []) : s'.findchan chan = some a ∧ Consistent (s'.enter user chan) := by
  have hkempt : Kempt s'.chanlist :=
    h.kempt.write hadded.chained hadded.val hadded.others (by rw [hadded.users]; exact List.cons_ne_nil _ _)
      hadded.ranked
  have hself : s'.chanlist.val a = some c := by rw [hadded.val, Function.update_self]
  have hfound := findchan_eq hkempt.chained hkempt.distinct hchan hself hadded.name
  refine ⟨hfound, ?_⟩
  have hchans : (s'.enter user chan).chans = Function.update s.chans user (some a :: s.chans user) := by
    show Function.update s'.chans user (s'.findchan chan :: s'.chans user) = _
    rw [hfound, hadded.chans]
  have husers : (s'.enter user chan).usersOn = Function.update s.usersOn (some a) (user :: s.usersOn (some a)) := by
    refine (usersOn_update hadded.val).trans ?_
    rw [Option.map_some, Option.getD_some, hadded.users]
  refine ⟨hadded.table ▸ h.nicked, hkempt, ?_, ?_⟩
  · rw [hchans, husers]
    exact h.mirrored.add hadded.outside
  · intro u hu
    have hsame : (s'.enter user chan).isOnline u = s.isOnline u := isOnline_congr hadded.table u
    rw [hchans] at hu
    rw [hsame]
    by_cases huser : u = user
    · rw [huser]
      exact honline
    · rw [Function.update_of_ne huser] at hu
      exact h.online u hu

end Entering

/-! ### Leaving -/

section Leaving

variable {s s' s'' : Network} {env : NetworkEnv} {user : UserId} {a : ℕ} {c : LimitChannel} {l : List (Option ℕ)}

/-- A record without a user: it is gone when he was the last one. -/
structure Without (user : UserId) (old new : Option LimitChannel) : Prop where
  emptied : new = none → ∀ c, old = some c → c.chan.users.erase user = []
  rest : ∀ c', new = some c' → c'.chan.users ≠ [] ∧
    ∃ c, old = some c ∧ members c'.chan = members (unlistUser user c.chan)

/-- A user was taken out of the channels of some entries, and the entries are still there. -/
structure Left (user : UserId) (l : List (Option ℕ)) (s s' : Network) : Prop where
  table : s'.table = s.table
  chans : s'.chans = s.chans
  chained : ∃ xs, Chained hashLimit s'.chanlist xs
  here : ∀ b, some b ∈ l → Without user (s.chanlist.val b) (s'.chanlist.val b)
  elsewhere : ∀ b, some b ∉ l → s'.chanlist.val b = s.chanlist.val b

theorem members_checkAutolimit (now : ℤ) (allowRaise : Bool) (c : LimitChannel) :
    members (checkAutolimit now allowRaise c).chan.chan = members c.chan := by
  rw [checkAutolimit]
  split_ifs <;> rfl

theorem chanDeluser_left (env : NetworkEnv) (user : UserId) (hchained : ∃ xs, Chained hashLimit s.chanlist xs)
    (hval : s.chanlist.val a = some c) :
    ∃ s', s.chanDeluser env user a = some s' ∧ Left user [some a] s s' := by
  have helsewhere {chanlist : HashTable LimitChannel} {o : Option LimitChannel}
      (h : chanlist.val = Function.update s.chanlist.val a o) (b : ℕ) (hb : some b ∉ [some a]) :
      chanlist.val b = s.chanlist.val b := by
    rw [h, Function.update_of_ne]
    rintro rfl
    exact hb List.mem_cons_self
  rw [Network.chanDeluser, hval, Option.map_some]
  refine ⟨_, rfl, ?_⟩
  dsimp only
  split_ifs with hempty
  · obtain ⟨xs, hxs⟩ := hchained
    obtain ⟨pre, post, hbucket⟩ := hxs.exists_bucket hval
    have hval' : (s.chanlist.unlink (hashLimit c) a).val = Function.update s.chanlist.val a none := val_unlink ..
    refine ⟨rfl, rfl, ⟨_, hxs.unlink hbucket⟩, fun b hb ↦ ?_, helsewhere hval'⟩
    obtain rfl := Option.some.inj (List.mem_singleton.mp hb)
    rw [hval', Function.update_self, hval]
    refine ⟨fun _ d hd ↦ ?_, fun _ hnone ↦ nomatch hnone⟩
    obtain rfl := Option.some.inj hd
    exact hempty
  · have hmembers := members_checkAutolimit env.now false { c with chan := unlistUser user c.chan }
    have hval' := val_setChan hval (checkAutolimit env.now false { c with chan := unlistUser user c.chan }).chan
    refine ⟨rfl, rfl, chained_setChan hchained hval (congrArg Prod.fst hmembers), fun b hb ↦ ?_, helsewhere hval'⟩
    obtain rfl := Option.some.inj (List.mem_singleton.mp hb)
    rw [hval', Function.update_self, hval]
    refine ⟨fun hnone ↦ (nomatch hnone), fun d hd ↦ ?_⟩
    obtain rfl := Option.some.inj hd
    have husers : (checkAutolimit env.now false { c with chan := unlistUser user c.chan }).chan.chan.users =
        (unlistUser user c.chan).users := congrArg (fun m ↦ m.2.1) hmembers
    exact ⟨husers ▸ hempty, c, rfl, hmembers⟩

/-- A user leaves one channel, and then the channels of other entries. -/
theorem Left.cons {p : Option ℕ} (h : Left user [p] s s') (h' : Left user l s' s'') (hp : p ∉ l) :
    Left user (p :: l) s s'' where
  table := h'.table.trans h.table
  chans := h'.chans.trans h.chans
  chained := h'.chained
  here := by
    intro b hb
    by_cases hbl : some b ∈ l
    · rw [← h.elsewhere b fun hbp ↦ hp (List.mem_singleton.mp hbp ▸ hbl)]
      exact h'.here b hbl
    · rw [h'.elsewhere b hbl]
      exact h.here b (List.mem_singleton.mpr ((List.mem_cons.mp hb).resolve_right hbl))
  elsewhere := by
    intro b hb
    rw [List.mem_cons, not_or] at hb
    rw [h'.elsewhere b hb.2, h.elsewhere b fun hbp ↦ hb.1 (List.mem_singleton.mp hbp)]

/-- The loop over entries takes the user out of the channel of each. -/
theorem foldlM_leaveEntry (env : NetworkEnv) (user : UserId) (hchained : ∃ xs, Chained hashLimit s.chanlist xs)
    (hnodup : l.Nodup) (hl : ∀ p ∈ l, ∃ a c, p = some a ∧ s.chanlist.val a = some c) :
    ∃ s', l.foldlM (Network.leaveEntry env user) s = some s' ∧ Left user l s s' := by
  induction l generalizing s with
  | nil =>
    exact ⟨s, rfl, rfl, rfl, hchained, fun _ hb ↦ absurd hb List.not_mem_nil, fun _ _ ↦ rfl⟩
  | cons p l ih =>
    obtain ⟨a, c, rfl, hval⟩ := hl p List.mem_cons_self
    rw [List.nodup_cons] at hnodup
    obtain ⟨s₁, hs₁, hleft⟩ := chanDeluser_left env user hchained hval
    obtain ⟨s₂, hs₂, hleft'⟩ := ih hleft.chained hnodup.2 fun q hq ↦ by
      obtain ⟨b, d, rfl, hd⟩ := hl q (List.mem_cons_of_mem _ hq)
      refine ⟨b, d, rfl, ?_⟩
      rw [hleft.elsewhere b fun hba ↦ hnodup.1 (List.mem_singleton.mp hba ▸ hq)]
      exact hd
    refine ⟨s₂, ?_, hleft.cons hleft' hnodup.1⟩
    rw [List.foldlM_cons, Network.leaveEntry, Option.bind_some, hs₁]
    exact hs₂

theorem Left.usersOn (h : Left user l s s') (p : Option ℕ) :
    s'.usersOn p = if p ∈ l then (s.usersOn p).erase user else s.usersOn p := by
  cases p with
  | none => split_ifs <;> rfl
  | some b =>
    rw [usersOn_some, usersOn_some]
    split_ifs with hb
    · obtain ⟨hemptied, hrest⟩ := h.here b hb
      cases hnew : s'.chanlist.val b with
      | none =>
        cases hold : s.chanlist.val b with
        | none => rfl
        | some c => exact (hemptied hnew c hold).symm
      | some c' =>
        obtain ⟨-, c, hold, hmembers⟩ := hrest c' hnew
        rw [hold]
        exact congrArg (fun m ↦ m.2.1) hmembers
    · rw [h.elsewhere b hb]

theorem Ranked.unlistUser {chan : Channel} (h : Ranked chan) (user : UserId) : Ranked (unlistUser user chan) := by
  have hsubset {list : List UserId} (hnodup : list.Nodup) (hlist : list ⊆ chan.users) :
      list.erase user ⊆ chan.users.erase user := by
    intro u hu
    have hne : u ≠ user := by
      rintro rfl
      exact hnodup.not_mem_erase hu
    exact (List.mem_erase_of_ne hne).mpr (hlist (List.mem_of_mem_erase hu))
  exact ⟨h.chanops_nodup.erase user, hsubset h.chanops_nodup h.chanops_subset, h.voices_nodup.erase user,
    hsubset h.voices_nodup h.voices_subset⟩

/-- A channel that is left over was there before. -/
theorem Left.exists_old (h : Left user l s s') {b : ℕ} {d : LimitChannel} (hd : s'.chanlist.val b = some d) :
    ∃ c, s.chanlist.val b = some c ∧ d.chan.name = c.chan.name := by
  by_cases hb : some b ∈ l
  · obtain ⟨-, c, hold, hmembers⟩ := (h.here b hb).rest d hd
    exact ⟨c, hold, congrArg Prod.fst hmembers⟩
  · rw [h.elsewhere b hb] at hd
    exact ⟨d, hd, rfl⟩

theorem Left.kempt (h : Left user l s s') (hs : Kempt s.chanlist) : Kempt s'.chanlist where
  chained := h.chained
  distinct := by
    intro a b c d hc hd heq
    obtain ⟨c', hc', hname⟩ := h.exists_old hc
    obtain ⟨d', hd', hname'⟩ := h.exists_old hd
    rw [hname, hname'] at heq
    exact hs.distinct a b c' d' hc' hd' heq
  occupied := by
    intro b d hd
    by_cases hb : some b ∈ l
    · exact ((h.here b hb).rest d hd).1
    · rw [h.elsewhere b hb] at hd
      exact hs.occupied b d hd
  ranked := by
    intro b d hd
    by_cases hb : some b ∈ l
    · obtain ⟨-, c, hold, hmembers⟩ := (h.here b hb).rest d hd
      exact (Kept.of_members hmembers).ranked ((hs.ranked b c hold).unlistUser user)
    · rw [h.elsewhere b hb] at hd
      exact hs.ranked b d hd

/-- The entries of the user are taken out as well. -/
theorem Left.consistent (h : Left user l s s') (hs : Consistent s) {entries : List (Option ℕ)}
    (hsubset : entries ⊆ s.chans user) (hmirrored : Mirrored (Function.update s.chans user entries) s'.usersOn) :
    Consistent { s' with chans := Function.update s'.chans user entries } := by
  refine ⟨h.table ▸ hs.nicked, h.kempt hs.kempt, h.chans ▸ hmirrored, fun u hu ↦ ?_⟩
  have hsame : s'.isOnline u = s.isOnline u := isOnline_congr h.table u
  show s'.isOnline u = true
  rw [hsame]
  refine hs.online u fun hnil ↦ hu ?_
  show Function.update s'.chans user entries u = []
  by_cases huser : u = user
  · rw [huser] at hnil ⊢
    rw [hnil] at hsubset
    rw [Function.update_self]
    exact List.subset_nil.mp hsubset
  · rw [Function.update_of_ne huser, h.chans]
    exact hnil

/-- The loop over all channels of a user takes him out of all. -/
theorem leaveAll_spec (h : Consistent s) (env : NetworkEnv) (user : UserId) :
    ∃ s', s.leaveAll env user = some s' ∧ Consistent s' ∧ s'.table = s.table ∧
      s'.chans = Function.update s.chans user [] := by
  have hl : ∀ p ∈ s.chans user, ∃ a c, p = some a ∧ s.chanlist.val a = some c := by
    intro p hp
    obtain ⟨a, c, hpa, hval, -⟩ := h.exists_chan hp
    exact ⟨a, c, hpa, hval⟩
  obtain ⟨s', hs', hleft⟩ :=
    foldlM_leaveEntry env user h.kempt.chained (h.mirrored.left_nodup user) hl
  have husers : s'.usersOn = fun p ↦ (s.usersOn p).erase user := by
    ext1 p
    rw [hleft.usersOn]
    split_ifs with hp
    · rfl
    · exact (h.mirrored.erase_of_notMem hp).symm
  refine ⟨{ s' with chans := Function.update s'.chans user [] }, ?_, ?_, hleft.table, by rw [hleft.chans]⟩
  · rw [Network.leaveAll, hs', Option.map_some]
  · exact hleft.consistent h (List.nil_subset _) (husers ▸ h.mirrored.removeAll user)

/-- The loop that looks for a channel by its name follows the pointers of the entries. -/
theorem entryNamed_cases (s : Network) (name : CString)
    (hl : ∀ p ∈ l, ∃ a c, p = some a ∧ s.chanlist.val a = some c) :
    (s.entryNamed name l = some none ∧ ∀ a c, some a ∈ l → s.chanlist.val a = some c → stricmp name c.chan.name ≠ 0) ∨
      ∃ a c, s.entryNamed name l = some (some a) ∧ some a ∈ l ∧ s.chanlist.val a = some c ∧
        stricmp name c.chan.name = 0 := by
  induction l with
  | nil => exact .inl ⟨rfl, fun _ _ hmem ↦ absurd hmem List.not_mem_nil⟩
  | cons p l ih =>
    obtain ⟨a, c, rfl, hval⟩ := hl p List.mem_cons_self
    have hstep : s.entryNamed name (some a :: l) =
        if stricmp name c.chan.name = 0 then some (some a) else s.entryNamed name l := by
      rw [Network.entryNamed, Option.bind_some, hval, Option.bind_some]
    rw [hstep]
    split_ifs with hname
    · exact .inr ⟨a, c, rfl, List.mem_cons_self, hval, hname⟩
    · rcases ih fun q hq ↦ hl q (List.mem_cons_of_mem _ hq) with ⟨hnone, hother⟩ | ⟨b, d, hb, hmem, hd, heq⟩
      · refine .inl ⟨hnone, fun b d hb hd ↦ ?_⟩
        rcases List.mem_cons.mp hb with hba | hb
        · obtain rfl := Option.some.inj hba
          rw [hval] at hd
          obtain rfl := Option.some.inj hd
          exact hname
        · exact hother b d hb hd
      · exact .inr ⟨b, d, hb, List.mem_cons_of_mem _ hmem, hd, heq⟩

/-- A user who leaves a channel is taken out of it, and everybody else stays where he is. -/
theorem leave_spec (h : Consistent s) (env : NetworkEnv) (user : UserId) (name : CString) :
    ∃ s', s.leave env user name = some s' ∧ Consistent s' ∧ s'.table = s.table := by
  have hl : ∀ p ∈ s.chans user, ∃ a c, p = some a ∧ s.chanlist.val a = some c := by
    intro p hp
    obtain ⟨a, c, hpa, hval, -⟩ := h.exists_chan hp
    exact ⟨a, c, hpa, hval⟩
  rcases entryNamed_cases s name hl with ⟨hnone, -⟩ | ⟨a, c, hsome, hmem, hval, -⟩
  · exact ⟨s, by rw [Network.leave, hnone]; rfl, h, rfl⟩
  · obtain ⟨s', hs', hleft⟩ := chanDeluser_left env user h.kempt.chained hval
    have husers : s'.usersOn = Function.update s.usersOn (some a) ((s.usersOn (some a)).erase user) := by
      ext1 p
      rw [hleft.usersOn]
      split_ifs with hp
      · obtain rfl := List.mem_singleton.mp hp
        rw [Function.update_self]
      · rw [Function.update_of_ne fun hpa ↦ hp (List.mem_singleton.mpr hpa)]
    refine ⟨{ s' with chans := Function.update s'.chans user ((s'.chans user).erase (some a)) }, ?_, ?_, hleft.table⟩
    · rw [Network.leave, hsome, Option.bind_some]
      dsimp only
      rw [hs', Option.map_some]
    · refine hleft.consistent h (hleft.chans ▸ fun _ hp ↦ List.mem_of_mem_erase hp) ?_
      rw [husers, hleft.chans]
      exact h.mirrored.remove user (some a)

end Leaving

end BlitzedServices.Users
