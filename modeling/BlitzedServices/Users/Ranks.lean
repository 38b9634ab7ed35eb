import BlitzedServices.Users.Network

/-!
# Ops and voices

`do_cmode` puts whoever `finduser` finds on the list of ops or of voices, on the channel or not. `Ranked` says that
both lists are part of the users of the channel, each user once. A MODE line keeps this if the nicks it gives ops or
voice to are those of users on the channel (`doCmode_ranked`), and then it follows no pointer to a freed user
(`cmodeReadable_of_online`).
-/

set_option autoImplicit false
set_option relaxedAutoImplicit false

namespace BlitzedServices.Users

open Lib Channels ChanServ

/-- Ops and voices are users of the channel, each once. -/
structure Ranked (chan : Channel) : Prop where
  chanops_nodup : chan.chanops.Nodup
  chanops_subset : chan.chanops ⊆ chan.users
  voices_nodup : chan.voices.Nodup
  voices_subset : chan.voices ⊆ chan.users

/-- The name and the lists of users of a record. -/
def members (chan : Channel) : CString × List UserId × List UserId × List UserId :=
  (chan.name, chan.users, chan.chanops, chan.voices)

/-- The name and the users stay, and so does `Ranked`. -/
structure Kept (chan chan' : Channel) : Prop where
  name : chan'.name = chan.name
  users : chan'.users = chan.users
  ranked : Ranked chan → Ranked chan'

section Kept

variable {chan chan' chan'' : Channel}

theorem Kept.refl (chan : Channel) : Kept chan chan := ⟨rfl, rfl, id⟩

theorem Kept.trans (h : Kept chan chan') (h' : Kept chan' chan'') : Kept chan chan'' :=
  ⟨h'.name.trans h.name, h'.users.trans h.users, fun hranked ↦ h'.ranked (h.ranked hranked)⟩

theorem Kept.of_members (h : members chan' = members chan) : Kept chan chan' := by
  rw [members, members, Prod.mk.injEq, Prod.mk.injEq, Prod.mk.injEq] at h
  obtain ⟨hname, husers, hchanops, hvoices⟩ := h
  refine ⟨hname, husers, fun ⟨hopsOnce, hops, hvoicesOnce, hvoiced⟩ ↦ ?_⟩
  constructor
  · rwa [hchanops]
  · rwa [hchanops, husers]
  · rwa [hvoices]
  · rwa [hvoices, husers]

theorem Kept.eraseOp (chan : Channel) (user : UserId) : Kept chan { chan with chanops := chan.chanops.erase user } :=
  ⟨rfl, rfl, fun h ↦
    ⟨h.chanops_nodup.erase user, fun _ hop ↦ h.chanops_subset (List.mem_of_mem_erase hop), h.voices_nodup,
      h.voices_subset⟩⟩

theorem Kept.eraseVoice (chan : Channel) (user : UserId) : Kept chan { chan with voices := chan.voices.erase user } :=
  ⟨rfl, rfl, fun h ↦
    ⟨h.chanops_nodup, h.chanops_subset, h.voices_nodup.erase user,
      fun _ hvoiced ↦ h.voices_subset (List.mem_of_mem_erase hvoiced)⟩⟩

theorem Kept.addOp {user : UserId} (hnew : user ∉ chan.chanops) (hmem : user ∈ chan.users) :
    Kept chan { chan with chanops := user :: chan.chanops } :=
  ⟨rfl, rfl, fun h ↦
    ⟨List.nodup_cons.mpr ⟨hnew, h.chanops_nodup⟩, List.cons_subset.mpr ⟨hmem, h.chanops_subset⟩, h.voices_nodup,
      h.voices_subset⟩⟩

theorem Kept.addVoice {user : UserId} (hnew : user ∉ chan.voices) (hmem : user ∈ chan.users) :
    Kept chan { chan with voices := user :: chan.voices } :=
  ⟨rfl, rfl, fun h ↦
    ⟨h.chanops_nodup, h.chanops_subset, List.nodup_cons.mpr ⟨hnew, h.voices_nodup⟩,
      List.cons_subset.mpr ⟨hmem, h.voices_subset⟩⟩⟩

end Kept

/-! ### One letter -/

/-- A letter that gives ops or voice names one of the users, unless nobody has the nick or `check_valid_op` refuses him
ops. -/
def NamesMember (env : CmodeEnv) (source : CString) (users : List UserId) (st : CmodeState) (c : Char) : Prop :=
  (c = 'o' ∨ c = 'v') → 0 < st.ac → nul ∉ st.av.headD [] ∧
    (st.add = true → ∀ user, env.finduser (st.av.headD []) = some user →
      (c = 'o' → env.checkValidOp user (source.contains '.') = true) → user ∈ users)

/-- All letters that give ops or voice name one of the users. -/
def NamesMembers (env : CmodeEnv) (source : CString) (users : List UserId) : CmodeState → CString → Prop
  | _, [] => True
  | st, c :: modestr =>
    NamesMember env source users st c ∧ NamesMembers env source users (cmodeStep env source st c) modestr

/-- `finduser` finds a user by his nick. -/
def FindsByNick (env : CmodeEnv) : Prop :=
  ∀ nick user, nul ∉ nick → env.finduser nick = some user → stricmp (env.nickOf user) nick = 0

section Letters

variable {env : CmodeEnv} {source : CString} {st : CmodeState}

theorem notMem_of_not_listed {nick : CString} {list : List UserId} {user : UserId}
    (hlisted : env.listed nick list = none) (hnick : stricmp (env.nickOf user) nick = 0) : user ∉ list := by
  intro hmem
  rw [CmodeEnv.listed, List.find?_eq_none] at hlisted
  exact hlisted user hmem (by simpa using hnick)

theorem kept_setOp (hfind : FindsByNick env) (h : NamesMember env source st.chan.users st 'o') :
    Kept st.chan (st.setOp env source).chan := by
  have hnames := h (.inl rfl)
  rcases st with ⟨chan, add, ac, av⟩
  by_cases hac : ac - 1 < 0
  · simpa [CmodeState.setOp, CmodeState.spend, hac] using Kept.refl chan
  obtain ⟨hnul, hmember⟩ := hnames (by dsimp only; omega)
  cases hlisted : env.listed (av.headD []) chan.chanops with
  | some user =>
    cases add with
    | true =>
      simpa [CmodeState.setOp, CmodeState.spend, hac, hlisted, -List.headD_eq_head?_getD] using Kept.refl chan
    | false =>
      simpa [CmodeState.setOp, CmodeState.spend, hac, hlisted, -List.headD_eq_head?_getD] using
        Kept.eraseOp chan user
  | none =>
    cases add with
    | false =>
      simpa [CmodeState.setOp, CmodeState.spend, hac, hlisted, -List.headD_eq_head?_getD] using Kept.refl chan
    | true =>
      cases hfound : env.finduser (av.headD []) with
      | none =>
        simpa [CmodeState.setOp, CmodeState.spend, hac, hlisted, hfound, -List.headD_eq_head?_getD] using
          Kept.refl chan
      | some user =>
        by_cases hvalid : env.checkValidOp user (source.contains '.') = true
        · have hkept : Kept chan { chan with chanops := user :: chan.chanops } :=
            .addOp (notMem_of_not_listed hlisted (hfind _ user hnul hfound)) (hmember rfl user hfound fun _ ↦ hvalid)
          rw [CmodeState.setOp]
          simpa only [CmodeState.spend, hac, hlisted, hfound, hvalid, if_true, if_false] using hkept
        · rw [CmodeState.setOp]
          simpa only [CmodeState.spend, hac, hlisted, hfound, hvalid, if_true, if_false, Bool.false_eq_true] using
            Kept.refl chan

theorem kept_setVoice (hfind : FindsByNick env) (h : NamesMember env source st.chan.users st 'v') :
    Kept st.chan (st.setVoice env).chan := by
  have hnames := h (.inr rfl)
  rcases st with ⟨chan, add, ac, av⟩
  by_cases hac : ac - 1 < 0
  · simpa [CmodeState.setVoice, CmodeState.spend, hac] using Kept.refl chan
  obtain ⟨hnul, hmember⟩ := hnames (by dsimp only; omega)
  cases hlisted : env.listed (av.headD []) chan.voices with
  | some user =>
    cases add with
    | true =>
      simpa [CmodeState.setVoice, CmodeState.spend, hac, hlisted, -List.headD_eq_head?_getD] using Kept.refl chan
    | false =>
      simpa [CmodeState.setVoice, CmodeState.spend, hac, hlisted, -List.headD_eq_head?_getD] using
        Kept.eraseVoice chan user
  | none =>
    cases add with
    | false =>
      simpa [CmodeState.setVoice, CmodeState.spend, hac, hlisted, -List.headD_eq_head?_getD] using Kept.refl chan
    | true =>
      cases hfound : env.finduser (av.headD []) with
      | none =>
        simpa [CmodeState.setVoice, CmodeState.spend, hac, hlisted, hfound, -List.headD_eq_head?_getD] using
          Kept.refl chan
      | some user =>
        have hkept : Kept chan { chan with voices := user :: chan.voices } :=
          .addVoice (notMem_of_not_listed hlisted (hfind _ user hnul hfound))
            (hmember rfl user hfound fun hc ↦ absurd hc (by decide))
        simpa [CmodeState.setVoice, CmodeState.spend, hac, hlisted, hfound, -List.headD_eq_head?_getD] using hkept

theorem members_setKey (st : CmodeState) : members st.setKey.chan = members st.chan := by
  rcases st with ⟨chan, add, ac, av⟩
  by_cases hac : ac - 1 < 0
  · simp [CmodeState.setKey, CmodeState.spend, hac]
  · cases add <;> simp [CmodeState.setKey, CmodeState.spend, hac, members, Channel.withoutKey]

theorem members_setLimit (st : CmodeState) : members st.setLimit.chan = members st.chan := by
  rcases st with ⟨chan, add, ac, av⟩
  by_cases hac : ac - 1 < 0
  · cases add <;> simp [CmodeState.setLimit, CmodeState.spend, hac, members]
  · cases add <;> simp [CmodeState.setLimit, CmodeState.spend, hac, members]

theorem members_setBan (st : CmodeState) : members st.setBan.chan = members st.chan := by
  rcases st with ⟨chan, add, ac, av⟩
  by_cases hac : ac - 1 < 0
  · simp [CmodeState.setBan, CmodeState.spend, hac]
  · simp [CmodeState.setBan, CmodeState.spend, hac, members]

theorem kept_cmodeStep (hfind : FindsByNick env) {c : Char} (h : NamesMember env source st.chan.users st c) :
    Kept st.chan (cmodeStep env source st c).chan := by
  rw [cmodeStep]
  split_ifs with hplus hminus hk hl hb ho hv
  · exact .refl _
  · exact .refl _
  · exact .of_members (members_setKey st)
  · exact .of_members (members_setLimit st)
  · exact .of_members (members_setBan st)
  · subst ho
    exact kept_setOp hfind h
  · subst hv
    exact kept_setVoice hfind h
  · cases flagOf c with
    | none => exact .refl _
    | some flag => exact .of_members rfl

/-- The loop variables but for the channel. -/
def place (st : CmodeState) : Bool × ℤ × List CString := (st.add, st.ac, st.av)

/-- Where a letter moves to does not depend on the channel. -/
theorem place_cmodeStep {st' : CmodeState} (h : place st' = place st) (c : Char) :
    place (cmodeStep env source st' c) = place (cmodeStep env source st c) := by
  simp only [place, Prod.mk.injEq] at h ⊢
  obtain ⟨hadd, hac, hav⟩ := h
  by_cases htakes : hasParam st.add c
  · have hone : Consumes (fun st ↦ cmodeStep env source st c) (c != 'k' || st.add) st :=
      consumes_cmodeStep env source htakes rfl
    have htwo := consumes_cmodeStep env source htakes hadd
    refine ⟨by rw [hone.add, htwo.add, hadd], by rw [hone.ac, htwo.ac, hac], ?_⟩
    by_cases hsome : 0 < st.ac
    · rw [(hone.taken hsome).2, (htwo.taken (hac ▸ hsome)).2, hav]
    · rw [(hone.skipped (by omega)).2, (htwo.skipped (by omega)).2, hav]
  · rw [Bool.not_eq_true] at htakes
    obtain ⟨hadd₁, hac₁, hav₁⟩ := cmodeStep_other env source htakes
    obtain ⟨hadd₂, hac₂, hav₂⟩ := cmodeStep_other env source (hadd ▸ htakes)
    rw [hadd₁, hac₁, hav₁, hadd₂, hac₂, hav₂, hadd, hac, hav]
    exact ⟨rfl, rfl, rfl⟩

end Letters

/-! ### A line -/

section Lines

variable {env : CmodeEnv} {source modestr : CString} {users : List UserId} {chan : Channel} {params : List CString}

theorem namesMembers_congr {st st' : CmodeState} (hplace : place st' = place st)
    (h : NamesMembers env source users st modestr) : NamesMembers env source users st' modestr := by
  induction modestr generalizing st st' with
  | nil => trivial
  | cons c modestr ih =>
    refine ⟨?_, ih (place_cmodeStep hplace c) h.2⟩
    have hfirst := h.1
    simp only [place, Prod.mk.injEq] at hplace
    obtain ⟨hadd, hac, hav⟩ := hplace
    rwa [NamesMember, ← hadd, ← hac, ← hav] at hfirst

theorem kept_foldl_cmodeStep (hfind : FindsByNick env) {st : CmodeState}
    (h : NamesMembers env source st.chan.users st modestr) :
    Kept st.chan (modestr.foldl (cmodeStep env source) st).chan := by
  induction modestr generalizing st with
  | nil => exact .refl _
  | cons c modestr ih =>
    have hstep := kept_cmodeStep hfind h.1
    exact hstep.trans (ih (hstep.users ▸ h.2))

theorem members_checkModes (now : ℤ) (row : Option MlockRow) (chan : Channel) :
    members (checkModes env now row chan).1 = members chan :=
  checkModes_keeps members (fun now c ↦ by rw [countCall]; split_ifs <;> rfl) (fun _ _ _ _ ↦ rfl) env now row chan

theorem members_countServerMode (now : ℤ) (lastmodes : CString) (chan : Channel) :
    members (countServerMode env now source modestr lastmodes chan).1 = members chan := by
  rw [countServerMode]
  split_ifs <;> rfl

/-- A line that names users on the channel keeps the lists. -/
theorem doCmode_kept (hfind : FindsByNick env) (now : ℤ) (row : Option MlockRow) (lastmodes : CString)
    (h : NamesMembers env source chan.users ⟨chan, true, params.length, params⟩ modestr) :
    Kept chan (doCmode env now row source lastmodes chan modestr params).1 := by
  have hcount : Kept chan (countServerMode env now source modestr lastmodes chan).1 :=
    .of_members (members_countServerMode now lastmodes chan)
  let st : CmodeState := ⟨(countServerMode env now source modestr lastmodes chan).1, true, params.length, params⟩
  have hplace : place st = place ⟨chan, true, params.length, params⟩ := rfl
  have hnames : NamesMembers env source st.chan.users st modestr := by
    rw [hcount.users]
    exact namesMembers_congr hplace h
  have hloop : Kept st.chan (modestr.foldl (cmodeStep env source) st).chan := kept_foldl_cmodeStep hfind hnames
  exact (hcount.trans hloop).trans (.of_members (members_checkModes now row _))

theorem nicksReadable_of_online {isOnline : UserId → Bool} {list : List UserId}
    (h : ∀ user ∈ list, isOnline user = true) (nick : CString) : nicksReadable isOnline env nick list = true := by
  induction list with
  | nil => rfl
  | cons user list ih =>
    rw [nicksReadable, h user List.mem_cons_self, ih fun u hu ↦ h u (List.mem_cons_of_mem user hu), Bool.or_true,
      Bool.and_true]

/-- Such a line reads nicks of users on the channel only. -/
theorem cmodeReadable_of_online {isOnline : UserId → Bool} (hfind : FindsByNick env) {st : CmodeState}
    (honline : ∀ user ∈ st.chan.users, isOnline user = true) (hranked : Ranked st.chan)
    (h : NamesMembers env source st.chan.users st modestr) :
    cmodeReadable isOnline env source st modestr = true := by
  induction modestr generalizing st with
  | nil => rfl
  | cons c modestr ih =>
    have hstep := kept_cmodeStep hfind h.1
    rw [cmodeReadable, ih (hstep.users ▸ honline) (hstep.ranked hranked) (hstep.users ▸ h.2),
      nicksReadable_of_online fun user hop ↦ honline user (hranked.chanops_subset hop),
      nicksReadable_of_online fun user hvoiced ↦ honline user (hranked.voices_subset hvoiced)]
    split_ifs <;> rfl

end Lines

end BlitzedServices.Users
