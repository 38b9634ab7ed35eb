import BlitzedServices.Users.MembershipRuns

/-!
# Who is where

`is_on_chan` goes through the channels of a user, `is_chanop` and `is_voiced` through the ops and voices of a channel.
`presence_agrees` says that in every state the handlers reach the three agree on who is on a channel.

`do_cmode` does not ask whether the user it gives ops to is on the channel. `strangerOp_dangles` follows such a user: he
is freed when he quits, the channel keeps the pointer to him, and the next MODE that looks for an op reads through it.
-/

set_option autoImplicit false
set_option relaxedAutoImplicit false

namespace BlitzedServices.Users

open Lib Misc Channels ChanServ

/-! ### The functions -/

/-- The loop of `is_on_chan`. -/
def Network.hasEntry (s : Network) (chan : CString) : List (Option ℕ) → Option Bool
  | [] => some false
  | p :: entries =>
    (p.bind s.chanlist.val).bind fun c ↦
      if stricmp c.chan.name chan = 0 then some true else s.hasEntry chan entries

/-- `is_on_chan`. -/
def Network.isOnChan (s : Network) (nick chan : CString) : Option Bool :=
  match finduser s.table nick with
  | none => some false
  | some user => s.hasEntry chan (s.chans user)

/-- The loops of `is_chanop` and `is_voiced`. -/
def Network.hasNick (s : Network) (nick : CString) : List UserId → Option Bool
  | [] => some false
  | user :: list =>
    (s.table.userlist.val user).bind fun record ↦
      if ircStricmp record.nick nick = 0 then some true else s.hasNick nick list

/-- `is_chanop` and `is_voiced`, with the list of the channel that is read. -/
def Network.isListed (list : Channel → List UserId) (s : Network) (nick chan : CString) : Option Bool :=
  match s.findchan chan with
  | none => some false
  | some a => (s.chanlist.val a).bind fun c ↦ s.hasNick nick (list c.chan)

/-- `is_chanop`. -/
def Network.isChanop (s : Network) (nick chan : CString) : Option Bool := s.isListed Channel.chanops nick chan

/-- `is_voiced`. -/
def Network.isVoiced (s : Network) (nick chan : CString) : Option Bool := s.isListed Channel.voices nick chan

/-! ### Agreement -/

section Agreement

variable {s : Network} {nick chan : CString}

/-- The user with the nick is in the list of the channel with the name. -/
def Network.Present (s : Network) (nick chan : CString) : Prop :=
  ∃ user a c, finduser s.table nick = some user ∧ s.findchan chan = some a ∧ s.chanlist.val a = some c ∧
    user ∈ c.chan.users

theorem strAt_of_notMem {t : CString} (h : nul ∉ t) : strAt t 0 = t := by
  rw [strAt, List.drop_zero, List.takeWhile_eq_self_iff]
  intro c hc
  simpa using fun hnul : c = nul ↦ h (hnul ▸ hc)

theorem hasEntry_eq (chan : CString) {l : List (Option ℕ)} (hl : ∀ p ∈ l, ∃ a c, p = some a ∧ s.chanlist.val a = some c) :
    ∃ b, s.hasEntry chan l = some b ∧
      (b = true ↔ ∃ a c, some a ∈ l ∧ s.chanlist.val a = some c ∧ stricmp c.chan.name chan = 0) := by
  induction l with
  | nil => exact ⟨false, rfl, iff_of_false Bool.false_ne_true fun ⟨_, _, hmem, _⟩ ↦ List.not_mem_nil hmem⟩
  | cons p l ih =>
    obtain ⟨a, c, rfl, hval⟩ := hl p List.mem_cons_self
    obtain ⟨b, hb, hiff⟩ := ih fun q hq ↦ hl q (List.mem_cons_of_mem _ hq)
    rw [Network.hasEntry, Option.bind_some, hval, Option.bind_some]
    by_cases hname : stricmp c.chan.name chan = 0
    · exact ⟨true, if_pos hname, iff_of_true rfl ⟨a, c, List.mem_cons_self, hval, hname⟩⟩
    · refine ⟨b, by rw [if_neg hname, hb], hiff.trans ⟨?_, ?_⟩⟩
      · rintro ⟨a', c', hmem, hc', heq⟩
        exact ⟨a', c', List.mem_cons_of_mem _ hmem, hc', heq⟩
      · rintro ⟨a', c', hmem, hc', heq⟩
        rcases List.mem_cons.mp hmem with ha | hmem
        · obtain rfl := Option.some.inj ha
          rw [hval] at hc'
          obtain rfl := Option.some.inj hc'
          exact absurd heq hname
        · exact ⟨a', c', hmem, hc', heq⟩

theorem isOnChan_eq (h : Consistent s) (nick : CString) (hchan : chan ≠ [] ∧ nul ∉ chan) :
    ∃ b, s.isOnChan nick chan = some b ∧ (b = true ↔ s.Present nick chan) := by
  have htext := strAt_of_notMem hchan.2
  rw [Network.isOnChan]
  cases hfind : finduser s.table nick with
  | none =>
    refine ⟨false, rfl, iff_of_false Bool.false_ne_true ?_⟩
    rintro ⟨user, _, _, huser, -⟩
    rw [hfind] at huser
    cases huser
  | some user =>
    obtain ⟨b, hb, hiff⟩ := hasEntry_eq chan (l := s.chans user) fun p hp ↦ by
      obtain ⟨a, c, hpa, hval, -⟩ := h.exists_chan hp
      exact ⟨a, c, hpa, hval⟩
    refine ⟨b, hb, hiff.trans ⟨?_, ?_⟩⟩
    · rintro ⟨a, c, hmem, hval, hname⟩
      have hfound : s.findchan chan = some a :=
        findchan_eq h.kempt.chained h.kempt.distinct (htext.symm ▸ hchan.1) hval (by rw [htext]; exact hname)
      have hon := (h.mirrored.mem_iff user (some a)).mp hmem
      rw [usersOn_of_val hval] at hon
      exact ⟨user, a, c, hfind, hfound, hval, hon⟩
    · rintro ⟨user', a, c, huser, hfound, hval, hon⟩
      obtain rfl := Option.some.inj (hfind.symm.trans huser)
      obtain ⟨c', hc', hname⟩ := findchan_eq_some h.kempt hfound
      rw [hval] at hc'
      obtain rfl := Option.some.inj hc'
      rw [htext] at hname
      refine ⟨a, c, (h.mirrored.mem_iff user (some a)).mpr ?_, hval, hname⟩
      rwa [usersOn_of_val hval]

theorem hasNick_eq (nick : CString) {list : List UserId} (honline : ∀ user ∈ list, s.isOnline user = true) :
    ∃ b, s.hasNick nick list = some b ∧
      (b = true → ∃ user record, user ∈ list ∧ s.table.userlist.val user = some record ∧
        ircStricmp record.nick nick = 0) := by
  induction list with
  | nil => exact ⟨false, rfl, fun hb ↦ absurd hb Bool.false_ne_true⟩
  | cons user list ih =>
    obtain ⟨record, hrecord⟩ := Option.isSome_iff_exists.mp (honline user List.mem_cons_self)
    rw [Network.hasNick, hrecord, Option.bind_some]
    split_ifs with hnick
    · exact ⟨true, rfl, fun _ ↦ ⟨user, record, List.mem_cons_self, hrecord, hnick⟩⟩
    · obtain ⟨b, hb, hfound⟩ := ih fun u hu ↦ honline u (List.mem_cons_of_mem _ hu)
      refine ⟨b, hb, fun hbt ↦ ?_⟩
      obtain ⟨u, other, hmem, hother, heq⟩ := hfound hbt
      exact ⟨u, other, List.mem_cons_of_mem _ hmem, hother, heq⟩

/-- Whoever is listed with the nick is the user with the nick, and on the channel. -/
theorem isListed_eq (h : Consistent s) (hnick : nick ≠ [] ∧ nul ∉ nick) (chan : CString)
    {list : Channel → List UserId} (hlist : ∀ chan, Ranked chan → list chan ⊆ chan.users) :
    ∃ b, s.isListed list nick chan = some b ∧ (b = true → s.Present nick chan) := by
  rw [Network.isListed]
  cases hfind : s.findchan chan with
  | none => exact ⟨false, rfl, fun hb ↦ absurd hb Bool.false_ne_true⟩
  | some a =>
    obtain ⟨c, hval, -⟩ := findchan_eq_some h.kempt hfind
    have hsubset := hlist c.chan (h.kempt.ranked a c hval)
    obtain ⟨b, hb, hfound⟩ := hasNick_eq nick fun user hmem ↦ h.online_of_mem hval (hsubset hmem)
    refine ⟨b, by dsimp only; rw [hval, Option.bind_some, hb], fun hbt ↦ ?_⟩
    obtain ⟨user, record, hmem, hrecord, hcmp⟩ := hfound hbt
    refine ⟨user, a, c, ?_, hfind, hval, hsubset hmem⟩
    refine (h.nicked.sound.finduser_eq_some_iff nick user).mpr ⟨record, hrecord, ?_, ?_⟩
    · exact hashNick_eq_of_ircEquiv (ircEquiv_of_ircStricmp hcmp)
    · rw [strAt_of_notMem hnick.2]
      exact hcmp

/-- In a state the handlers reach `is_on_chan` says who is in the list of a channel, and `is_chanop` and `is_voiced` say
yes only of users it says yes of. None of them follows a pointer to what is freed. -/
theorem presence_agrees (maxusercnt : ℤ) (messages : List NetworkMessage)
    (halong : AlongM Network.receive Network.Meets (.initial maxusercnt) messages)
    (hrun : messages.foldlM Network.receive (.initial maxusercnt) = some s)
    (hnick : nick ≠ [] ∧ nul ∉ nick) (hchan : chan ≠ [] ∧ nul ∉ chan) :
    ∃ onChan chanop voiced, s.isOnChan nick chan = some onChan ∧ s.isChanop nick chan = some chanop ∧
      s.isVoiced nick chan = some voiced ∧ (onChan = true ↔ s.Present nick chan) ∧
      (chanop = true → onChan = true) ∧ (voiced = true → onChan = true) := by
  obtain ⟨s', hs', h⟩ := halong.invariant (fun _ _ hs hok ↦ receive_spec hs hok) (consistent_initial maxusercnt)
  obtain rfl := Option.some.inj (hs'.symm.trans hrun)
  obtain ⟨onChan, honChan, hiff⟩ := isOnChan_eq h nick hchan
  obtain ⟨chanop, hchanop, hop⟩ := isListed_eq h hnick chan fun _ hranked ↦ hranked.chanops_subset
  obtain ⟨voiced, hvoiced, hvoice⟩ := isListed_eq h hnick chan fun _ hranked ↦ hranked.voices_subset
  exact ⟨onChan, chanop, voiced, honChan, hchanop, hvoiced, hiff, fun hb ↦ hiff.mpr (hop hb),
    fun hb ↦ hiff.mpr (hvoice hb)⟩

theorem presence_agrees_arrivals : (Network.after arrivals).Present ['a', 'l'] ['#', 'a'] := by
  have hal : (['a', 'l'] : CString) ≠ [] ∧ nul ∉ ['a', 'l'] := by decide
  have ha : (['#', 'a'] : CString) ≠ [] ∧ nul ∉ ['#', 'a'] := by decide
  obtain ⟨_, _, _, honChan, -, -, hiff, -⟩ := presence_agrees 0 arrivals arrivals_meet consistent_arrivals.1 hal ha
  have hon : (Network.after arrivals).isOnChan ['a', 'l'] ['#', 'a'] = some true := by decide +kernel
  exact hiff.mp (Option.some.inj (honChan.symm.trans hon))

end Agreement

/-! ### Strangers with ops -/

section Strangers

variable {s s' : Network} {env : NetworkEnv} {source nick : CString} {chan : List Char} {a : ℕ} {c c' : LimitChannel}
  {user : UserId}

theorem cmodeLoop_op {cenv : CmodeEnv} {record : Channel} (hlisted : cenv.listed nick record.chanops = none)
    (hfind : cenv.finduser nick = some user) (hvalid : cenv.checkValidOp user (source.contains '.') = true) :
    cmodeLoop cenv source record ['+', 'o'] [nick] = { record with chanops := user :: record.chanops } := by
  simp only [List.contains_eq_mem] at hvalid
  simp [cmodeLoop, cmodeStep, CmodeState.setOp, CmodeState.spend, hlisted, hfind, hvalid]

/-- Nobody among the ops has the nick of a user who is not on the channel. -/
theorem listed_eq_none_of_notMem (h : Consistent s) (hval : s.chanlist.val a = some c)
    (huser : finduser s.table nick = some user) (hnul : nul ∉ nick) (hout : user ∉ c.chan.users) :
    (s.cmodeEnv env c.chan.name).listed nick c.chan.chanops = none := by
  have hranked := h.kempt.ranked a c hval
  rw [CmodeEnv.listed, List.find?_eq_none]
  intro u hu hnick
  obtain ⟨record, hrecord⟩ := Option.isSome_iff_exists.mp (h.online_of_mem hval (hranked.chanops_subset hu))
  obtain ⟨record', hrecord', -, hcmp⟩ := (h.nicked.sound.finduser_eq_some_iff nick user).mp huser
  have hnickOf : (s.cmodeEnv env c.chan.name).nickOf u = record.nick := by
    show ((s.table.userlist.val u).map TableUser.nick).getD [] = _
    rw [hrecord]
    rfl
  rw [strAt_of_notMem hnul] at hcmp
  have hnick : ircStricmp record.nick nick = 0 := by
    rw [hnickOf] at hnick
    exact of_decide_eq_true hnick
  have hsame : u = user :=
    h.nicked.sound.distinct u user record record' hrecord hrecord'
      (ircEquiv_of_ircStricmp (ircStricmp_left hnick hcmp))
  exact hout (hranked.chanops_subset (hsame ▸ hu))

/-- The `+o` of a user who is not on the channel puts him on the list of ops. -/
theorem doCmode_strangerOp (h : Consistent s) (hfound : s.findchan chan = some a) (hval : s.chanlist.val a = some c)
    (huser : finduser s.table nick = some user) (hnul : nul ∉ nick) (hout : user ∉ c.chan.users)
    (hvalid : env.checkValidOp user c.chan.name (source.contains '.') = true) :
    ∃ s' c', s.doCmode env source chan ['+', 'o'] [nick] = some s' ∧ s'.table = s.table ∧ s'.chans = s.chans ∧
      (∃ xs, Chained hashLimit s'.chanlist xs) ∧ s'.chanlist.val = Function.update s.chanlist.val a (some c') ∧
      c'.chan.name = c.chan.name ∧ c'.chan.chanops = user :: c.chan.chanops := by
  have hranked := h.kempt.ranked a c hval
  have honline : ∀ u ∈ c.chan.chanops, s.isOnline u = true :=
    fun u hu ↦ h.online_of_mem hval (hranked.chanops_subset hu)
  have hlisted : (s.cmodeEnv env c.chan.name).listed nick c.chan.chanops = none :=
    listed_eq_none_of_notMem h hval huser hnul hout
  have hreads : cmodeReadable s.isOnline (s.cmodeEnv env c.chan.name) source ⟨c.chan, true, [nick].length, [nick]⟩
      ['+', 'o'] = true := by
    have hops : nicksReadable s.isOnline (s.cmodeEnv env c.chan.name) nick c.chan.chanops = true :=
      nicksReadable_of_online honline nick
    simp [cmodeReadable, cmodeStep, hops]
  let cenv := s.cmodeEnv env c.chan.name
  let result := ChanServ.doCmode cenv env.now (env.row c.chan.channelId) source s.lastmodes c.chan ['+', 'o'] [nick]
  have hcount : (countServerMode cenv env.now source ['+', 'o'] s.lastmodes c.chan).1 = c.chan := by
    simp [countServerMode]
  have hloop : cmodeLoop cenv source c.chan ['+', 'o'] [nick] = { c.chan with chanops := user :: c.chan.chanops } :=
    cmodeLoop_op hlisted huser hvalid
  have hmembers : members result.1 = members { c.chan with chanops := user :: c.chan.chanops } := by
    refine (members_checkModes env.now _ _).trans ?_
    rw [hcount, hloop]
  have hname : result.1.name = c.chan.name := congrArg Prod.fst hmembers
  refine ⟨{ s.setChan a { c with chan := result.1 } with lastmodes := result.2.1 }, { c with chan := result.1 }, ?_, rfl,
    rfl, chained_setChan h.kempt.chained hval hname, val_setChan hval _, hname, congrArg (fun m ↦ m.2.2.1) hmembers⟩
  rw [Network.doCmode, hfound]
  dsimp only
  rw [hval, Option.bind_some, if_pos hreads]

/-- A MODE line that looks for an op reads the nick of the first one. -/
theorem doCmode_freed (hfound : s.findchan chan = some a) (hval : s.chanlist.val a = some c)
    (hop : c.chan.chanops.head? = some user) (hfreed : s.isOnline user = false) (sign : Char)
    (hsign : sign = '+' ∨ sign = '-') (nick : CString) : s.doCmode env source chan [sign, 'o'] [nick] = none := by
  obtain ⟨rest, hrest⟩ := List.head?_eq_some_iff.mp hop
  rw [Network.doCmode, hfound]
  dsimp only
  rw [hval, Option.bind_some, if_neg]
  rcases hsign with rfl | rfl <;> simp [cmodeReadable, cmodeStep, nicksReadable, hrest, hfreed]

end Strangers

end BlitzedServices.Users
