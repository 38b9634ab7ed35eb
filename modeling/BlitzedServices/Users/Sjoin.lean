import BlitzedServices.ChanServ.ModeStrings
import BlitzedServices.Channels.Parameters
import BlitzedServices.Lib.Separated

/-!
# SJOIN

`do_sjoin` reads the nicks of a line one after the other. The prefixes of a nick become mode letters in `modebuf`,
which holds two, and whoever is online and not kicked is put on the channel and given his modes with `do_cmode`.
Then the modes of the channel are set. The creation time gets the pointer to the timestamp, not the number.

`doSjoin` is `none` where the code writes or reads outside of its arrays or follows a null pointer.
`doSjoin_right_iff` says when it does what it is for.
-/

set_option autoImplicit false
set_option relaxedAutoImplicit false

namespace BlitzedServices.Users

open Lib Channels ChanServ

/-! ### The state -/

def CHANMAX : ℕ := 200

/-- `sizeof(modebuf)`. -/
def MODEBUF : ℕ := 4

/-- A pointer to a text, with the number that it is as an integer. -/
structure CPointer where
  address : ℤ
  text : CString

/-- What `do_sjoin` reads of the rest of the program: the time, the lock and the id of the channel, the mask for
which `check_kick` bans a user, `check_should_op` and `check_should_voice`. Two users who are online have different
nicks. -/
structure SjoinEnv extends CmodeEnv where
  now : ℤ
  row : Option MlockRow
  channelId : ℕ
  checkKick : UserId → Option CString
  shouldOp : UserId → Bool
  shouldVoice : UserId → Bool
  finduser_eq : ∀ nick user other, finduser nick = some user → stricmp (nickOf other) nick = 0 → other = user

/-- A channel record with its creation time. -/
structure ChannelRecord where
  chan : Channel
  creationTime : ℤ

/-- What `findchan` finds for the channel, the `lastmodes` of `do_cmode`, the users who have an entry for the
channel in their `chans`, and `joins`. -/
structure SjoinState where
  found : Option ChannelRecord
  lastmodes : CString
  chans : List UserId
  joins : ℕ

/-- The users on the channel. -/
def SjoinState.users (st : SjoinState) : List UserId :=
  (st.found.map fun record ↦ record.chan.users).getD []

/-- The users with ops. -/
def SjoinState.chanops (st : SjoinState) : List UserId :=
  (st.found.map fun record ↦ record.chan.chanops).getD []

/-- The users with voice. -/
def SjoinState.voices (st : SjoinState) : List UserId :=
  (st.found.map fun record ↦ record.chan.voices).getD []

/-! ### The code -/

/-- `do_cmode` for the channel. -/
def SjoinState.cmode (env : SjoinEnv) (source modestr : CString) (params : List CString) (st : SjoinState) :
    SjoinState :=
  match st.found with
  | none => st
  | some record =>
    let result := doCmode env.toCmodeEnv env.now env.row source st.lastmodes record.chan modestr params
    { st with found := some { record with chan := result.1 }, lastmodes := result.2.1 }

/-- The record of a new channel, with the locked modes. -/
def newRecord (env : SjoinEnv) (channel : CString) : ChannelRecord where
  chan := (checkModes env.toCmodeEnv env.now env.row
    { name := strscpy channel CHANMAX
      channelId := env.channelId
      mode := 0
      limit := 0
      key := none
      newbans := []
      users := []
      chanops := []
      voices := []
      serverModetime := 0
      chanservModetime := 0
      serverModecount := 0
      chanservModecount := 0
      bouncyModes := false
      bouncyModes_eq := rfl }).1
  creationTime := env.now

/-- The end of `chan_adduser`: the user gets into the lists. -/
def addToLists (env : SjoinEnv) (user : UserId) (chan : Channel) : Channel :=
  let chan :=
    if env.shouldOp user then { chan with chanops := user :: chan.chanops }
    else if env.shouldVoice user then { chan with voices := user :: chan.voices }
    else chan
  { chan with users := user :: chan.users }

/-- `chan_adduser`, and the `findchan` that comes after it. A new channel has its name cut to the buffer and is not
found by a longer one. -/
def chanAdduser (env : SjoinEnv) (user : UserId) (channel : CString) (st : SjoinState) : SjoinState :=
  let record := st.found.getD (newRecord env channel)
  if st.found.isSome ∨ stricmp (strscpy channel CHANMAX) channel = 0 then
    { st with found := some { record with chan := addToLists env user record.chan } }
  else { st with found := none }

/-- A character that the loop over the prefixes takes. -/
def isPrefix (c : Char) : Bool :=
  c == '@' || c == '+'

/-- The prefixes of a nick in the list. -/
def prefixesOf (entry : CString) : CString :=
  entry.takeWhile isPrefix

/-- The nick behind the prefixes. -/
def nickIn (entry : CString) : CString :=
  entry.dropWhile isPrefix

/-- `modebuf` with a letter for each prefix and the NUL, when it holds them. -/
def modebuf (entry : CString) : Option CString :=
  if (prefixesOf entry).length + 1 < MODEBUF then
    some ('+' :: (prefixesOf entry).map fun c ↦ if c = '@' then 'o' else 'v')
  else none

/-- The user joins, and gets the modes in `modebuf`. -/
def joinUser (env : SjoinEnv) (source channel modestr nick : CString) (modecnt : ℕ) (ts : CPointer) (user : UserId)
    (st : SjoinState) : Option SjoinState :=
  let st := chanAdduser env user channel st
  match st.found with
  | none => none
  | some record =>
    let st :=
      { st with
        found := some { record with creationTime := ts.address }
        chans := user :: st.chans
        joins := st.joins + 1 }
    -- Both slots behind `modebuf` hold the nick.
    if 0 < modecnt then some (st.cmode env source modestr ([nick, nick].take modecnt)) else some st

/-- One turn of the loop over the nicks. -/
def sjoinNick (env : SjoinEnv) (source channel : CString) (ts : CPointer) (st : SjoinState) (entry : CString) :
    Option SjoinState :=
  match modebuf entry with
  | none => none
  | some modestr =>
    let nick := nickIn entry
    match env.finduser nick with
    | none => some st
    | some user =>
      match env.checkKick user with
      | some mask => some (st.cmode env s_ChanServ ['+', 'b'] [mask])
      | none => joinUser env source channel modestr nick (prefixesOf entry).length ts user st

/-- A letter of the loop of `do_cmode` reads a parameter behind the last. -/
def overreads (env : CmodeEnv) (source : CString) : CmodeState → CString → Bool
  | _, [] => false
  | st, c :: modestr =>
    ((c == 'b' || c == 'o' || c == 'v' || ((c == 'k' || c == 'l') && st.add)) && decide (0 < st.ac) &&
      st.av.isEmpty) || overreads env source (cmodeStep env source st c) modestr

/-- The end of `do_sjoin`: the modes of the channel. `av_cmode` has room for two parameters. -/
def sjoinModes (env : SjoinEnv) (source : CString) (args : List CPointer) (st : SjoinState) : Option SjoinState :=
  if st.joins = 0 then some st
  else
    match args with
    | [] => some st
    | modes :: more =>
      match modes.text with
      | [] => none
      | [_] => some st
      | modestr =>
        let params := (more.dropLast).map CPointer.text
        match st.found with
        | none => some st
        | some record =>
          if overreads env.toCmodeEnv source ⟨record.chan, true, params.length, params.take 2⟩ modestr then none
          else some (st.cmode env source modestr params)

/-- `do_sjoin`. -/
def doSjoin (env : SjoinEnv) (source : CString) (av : List CPointer) (st : SjoinState) : Option SjoinState :=
  match av with
  | first :: second :: rest =>
    -- In the plain format the time of the join comes first.
    let av := if second.text.head?.any Char.isDigit then second :: rest else first :: second :: rest
    match av with
    | ts :: channel :: args =>
      let listing := if 4 ≤ av.length then (args.getLast?.map CPointer.text).getD [] else source
      ((Separated.fields ' ' listing).foldlM (sjoinNick env source channel.text ts) { st with joins := 0 }).bind
        (sjoinModes env source args)
    | _ => none
  | _ => none

/-! ### What `do_cmode` does to the lists -/

/-- The same users, and no fewer ops and voices. -/
structure Grew (chan chan' : Channel) : Prop where
  users : chan'.users = chan.users
  chanops : ∀ user ∈ chan.chanops, user ∈ chan'.chanops
  voices : ∀ user ∈ chan.voices, user ∈ chan'.voices

section Grew

variable {chan chan' : Channel}

theorem Grew.refl (chan : Channel) : Grew chan chan := ⟨rfl, fun _ ↦ id, fun _ ↦ id⟩

theorem Grew.trans {chan'' : Channel} (h : Grew chan chan') (h' : Grew chan' chan'') : Grew chan chan'' where
  users := h'.users.trans h.users
  chanops user hu := h'.chanops user (h.chanops user hu)
  voices user hu := h'.voices user (h.voices user hu)

/-- The bans do not matter. -/
theorem Grew.of_lists (h : Channel.lists chan' = Channel.lists chan) : Grew chan chan' := by
  rw [Channel.lists, Channel.lists, Prod.mk.injEq, Prod.mk.injEq, Prod.mk.injEq] at h
  obtain ⟨-, husers, hchanops, hvoices⟩ := h
  refine ⟨husers, fun user hu ↦ ?_, fun user hu ↦ ?_⟩
  · rw [hchanops]
    exact hu
  · rw [hvoices]
    exact hu

theorem grew_setOp (env : CmodeEnv) (source : CString) {st : CmodeState} (hadd : st.add = true) :
    Grew st.chan (st.setOp env source).chan := by
  rw [CmodeState.setOp]
  dsimp only [CmodeState.spend]
  split_ifs
  · exact .refl _
  · cases env.listed (st.av.headD []) st.chan.chanops with
    | some user => exact .refl _
    | none =>
      dsimp only
      cases env.finduser (st.av.headD []) with
      | none => exact .refl _
      | some user =>
        dsimp only
        split_ifs
        · exact ⟨rfl, fun _ hu ↦ List.mem_cons_of_mem _ hu, fun _ ↦ id⟩
        · exact .refl _

theorem grew_setVoice (env : CmodeEnv) {st : CmodeState} (hadd : st.add = true) :
    Grew st.chan (st.setVoice env).chan := by
  rw [CmodeState.setVoice]
  dsimp only [CmodeState.spend]
  split_ifs
  · exact .refl _
  · cases env.listed (st.av.headD []) st.chan.voices with
    | some user => exact .refl _
    | none =>
      dsimp only
      cases env.finduser (st.av.headD []) with
      | none => exact .refl _
      | some user => exact ⟨rfl, fun _ ↦ id, fun _ hu ↦ List.mem_cons_of_mem _ hu⟩

theorem lists_cmodeSetKey (st : CmodeState) : Channel.lists st.setKey.chan = Channel.lists st.chan := by
  rcases st with ⟨chan, add, ac, av⟩
  by_cases hac : ac - 1 < 0
  · simp [CmodeState.setKey, CmodeState.spend, hac]
  · cases add <;> simp [CmodeState.setKey, CmodeState.spend, hac, Channel.lists, Channel.withoutKey]

theorem lists_setLimit (st : CmodeState) : Channel.lists st.setLimit.chan = Channel.lists st.chan := by
  rcases st with ⟨chan, add, ac, av⟩
  by_cases hac : ac - 1 < 0
  · cases add <;> simp [CmodeState.setLimit, CmodeState.spend, hac, Channel.lists]
  · cases add <;> simp [CmodeState.setLimit, CmodeState.spend, hac, Channel.lists]

theorem grew_setBan (st : CmodeState) : Grew st.chan st.setBan.chan := by
  rcases st with ⟨chan, add, ac, av⟩
  by_cases hac : ac - 1 < 0
  · constructor <;> simp [CmodeState.setBan, CmodeState.spend, hac]
  · constructor <;> simp [CmodeState.setBan, CmodeState.spend, hac]

/-- A letter under the sign `+`. -/
theorem grew_cmodeStep (env : CmodeEnv) (source : CString) {st : CmodeState} {c : Char} (hadd : st.add = true)
    (hminus : c ≠ '-') :
    Grew st.chan (cmodeStep env source st c).chan ∧ (cmodeStep env source st c).add = true := by
  have hkept {st' : CmodeState} (hlists : Channel.lists st'.chan = Channel.lists st.chan)
      (hsign : st'.add = true) :
      Grew st.chan st'.chan ∧ st'.add = true := ⟨.of_lists hlists, hsign⟩
  rw [cmodeStep, if_neg hminus]
  split_ifs
  · exact hkept rfl rfl
  · exact hkept (lists_cmodeSetKey st) ((consumes_setKey st).add.trans hadd)
  · exact hkept (lists_setLimit st) ((consumes_setLimit hadd).add.trans hadd)
  · exact ⟨grew_setBan st, (consumes_setBan st).add.trans hadd⟩
  · exact ⟨grew_setOp env source hadd, (consumes_setOp env source st).add.trans hadd⟩
  · exact ⟨grew_setVoice env hadd, (consumes_setVoice env st).add.trans hadd⟩
  · cases flagOf c with
    | none => exact hkept rfl hadd
    | some flag => exact hkept rfl hadd

theorem grew_cmodeLoop (env : CmodeEnv) (source : CString) {modestr : CString} (hminus : '-' ∉ modestr)
    (st : CmodeState) (hadd : st.add = true) : Grew st.chan (modestr.foldl (cmodeStep env source) st).chan := by
  induction modestr generalizing st with
  | nil => exact .refl _
  | cons c modestr ih =>
    obtain ⟨hgrew, hadd'⟩ := grew_cmodeStep env source hadd (List.ne_of_not_mem_cons hminus).symm
    exact hgrew.trans (ih (List.not_mem_of_not_mem_cons hminus) _ hadd')

theorem lists_countServerMode (env : CmodeEnv) (now : ℤ) (source modestr lastmodes : CString) (chan : Channel) :
    Channel.lists (countServerMode env now source modestr lastmodes chan).1 = Channel.lists chan := by
  rw [countServerMode]
  split_ifs <;> rfl

theorem grew_doCmode (env : CmodeEnv) (now : ℤ) (row : Option MlockRow) (source lastmodes : CString)
    {modestr : CString} (hminus : '-' ∉ modestr) (params : List CString) :
    Grew chan (doCmode env now row source lastmodes chan modestr params).1 := by
  rw [doCmode]
  exact ((Grew.of_lists (lists_countServerMode env now source modestr lastmodes chan)).trans
    (grew_cmodeLoop env source hminus ⟨_, true, params.length, params⟩ rfl)).trans (.of_lists lists_checkModes)

end Grew

/-! ### The modes of one user -/

section Gives

variable {env : CmodeEnv} {nick source : CString} {user : UserId}

theorem mem_of_listed (honly : ∀ other, stricmp (env.nickOf other) nick = 0 → other = user)
    {list : List UserId} {other : UserId} (h : env.listed nick list = some other) : user ∈ list := by
  have hname : stricmp (env.nickOf other) nick = 0 := by simpa using List.find?_some h
  rw [← honly other hname]
  exact List.mem_of_find?_eq_some h

/-- `+o` for the nick of a user. -/
theorem mem_setOp (honly : ∀ other, stricmp (env.nickOf other) nick = 0 → other = user)
    (hfind : env.finduser nick = some user) (hvalid : env.checkValidOp user (source.contains '.') = true)
    {st : CmodeState} (hadd : st.add = true) (hac : 0 < st.ac) (hav : st.av.headD [] = nick) :
    user ∈ (st.setOp env source).chan.chanops := by
  rcases st with ⟨chan, add, ac, av⟩
  rcases hadd with rfl
  rcases hav with rfl
  have hcount : ¬ ac - 1 < 0 := by
    dsimp only at hac
    omega
  cases hlisted : env.listed (av.headD []) chan.chanops with
  | some other =>
    have hmem := mem_of_listed honly hlisted
    simp [CmodeState.setOp, CmodeState.spend, hcount, hlisted, hmem, -List.headD_eq_head?_getD]
  | none =>
    simp [CmodeState.setOp, CmodeState.spend, hcount, hlisted, hfind, hvalid, -List.headD_eq_head?_getD,
      -List.contains_eq_mem]

/-- `+v` for the nick of a user. -/
theorem mem_setVoice (honly : ∀ other, stricmp (env.nickOf other) nick = 0 → other = user)
    (hfind : env.finduser nick = some user) {st : CmodeState} (hadd : st.add = true) (hac : 0 < st.ac)
    (hav : st.av.headD [] = nick) : user ∈ (st.setVoice env).chan.voices := by
  rcases st with ⟨chan, add, ac, av⟩
  rcases hadd with rfl
  rcases hav with rfl
  have hcount : ¬ ac - 1 < 0 := by
    dsimp only at hac
    omega
  cases hlisted : env.listed (av.headD []) chan.voices with
  | some other =>
    have hmem := mem_of_listed honly hlisted
    simp [CmodeState.setVoice, CmodeState.spend, hcount, hlisted, hmem, -List.headD_eq_head?_getD]
  | none => simp [CmodeState.setVoice, CmodeState.spend, hcount, hlisted, hfind, -List.headD_eq_head?_getD]

/-- Letters `o` and `v`, each with the nick for its parameter. -/
theorem mem_cmodeLoop (honly : ∀ other, stricmp (env.nickOf other) nick = 0 → other = user)
    (hfind : env.finduser nick = some user) {letters : CString} (hletters : ∀ c ∈ letters, c = 'o' ∨ c = 'v')
    {st : CmodeState} (hadd : st.add = true) (hac : st.ac = letters.length)
    (hav : st.av = List.replicate letters.length nick) :
    ('o' ∈ letters → env.checkValidOp user (source.contains '.') = true →
        user ∈ (letters.foldl (cmodeStep env source) st).chan.chanops) ∧
      ('v' ∈ letters → user ∈ (letters.foldl (cmodeStep env source) st).chan.voices) := by
  induction letters generalizing st with
  | nil => exact ⟨fun h ↦ absurd h List.not_mem_nil, fun h ↦ absurd h List.not_mem_nil⟩
  | cons c letters ih =>
    have hpos : 0 < st.ac := by
      rw [hac, List.length_cons]
      omega
    have hhead : st.av.headD [] = nick := by
      rw [hav, List.length_cons, List.replicate_succ, List.headD_cons]
    have hplain (d : Char) (hd : d ∈ letters) : d ≠ '-' := by
      rintro rfl
      rcases hletters '-' (List.mem_cons_of_mem _ hd) with h | h <;> cases h
    have hgrew (st' : CmodeState) (hadd' : st'.add = true) :
        Grew st'.chan (letters.foldl (cmodeStep env source) st').chan :=
      grew_cmodeLoop env source (fun h ↦ hplain '-' h rfl) st' hadd'
    have hletters' (d : Char) (hd : d ∈ letters) := hletters d (List.mem_cons_of_mem _ hd)
    -- Either branch moves on to the next parameter.
    have hnext {branch : CmodeState → CmodeState} (hbranch : Consumes branch true st) :=
      ih hletters' (hbranch.add.trans hadd)
        (by rw [hbranch.ac, hac, List.length_cons]; omega)
        (by rw [(hbranch.taken hpos).2, if_pos rfl, hav, List.length_cons, List.replicate_succ, List.tail_cons])
    rw [List.foldl_cons]
    rcases hletters c List.mem_cons_self with rfl | rfl
    · obtain ⟨hops, hvoices⟩ := hnext (consumes_setOp env source st)
      have hadd' := (consumes_setOp env source st).add.trans hadd
      refine ⟨fun _ hvalid ↦ ?_, fun hv ↦ ?_⟩
      · exact (hgrew _ hadd').chanops user (mem_setOp honly hfind hvalid hadd hpos hhead)
      · rcases List.mem_cons.mp hv with h | h
        · cases h
        · exact hvoices h
    · obtain ⟨hops, hvoices⟩ := hnext (consumes_setVoice env st)
      have hadd' := (consumes_setVoice env st).add.trans hadd
      refine ⟨fun ho hvalid ↦ ?_, fun _ ↦ ?_⟩
      · rcases List.mem_cons.mp ho with h | h
        · cases h
        · exact hops h hvalid
      · exact (hgrew _ hadd').voices user (mem_setVoice honly hfind hadd hpos hhead)

/-- A line of such letters. -/
theorem mem_doCmode (source : CString) (honly : ∀ other, stricmp (env.nickOf other) nick = 0 → other = user)
    (hfind : env.finduser nick = some user) {letters : CString} (hletters : ∀ c ∈ letters, c = 'o' ∨ c = 'v')
    (now : ℤ) (row : Option MlockRow) (lastmodes : CString) (chan : Channel) :
    ('o' ∈ letters → env.checkValidOp user (source.contains '.') = true → user ∈
        (doCmode env now row source lastmodes chan ('+' :: letters) (List.replicate letters.length nick)).1.chanops) ∧
      ('v' ∈ letters → user ∈
        (doCmode env now row source lastmodes chan ('+' :: letters) (List.replicate letters.length nick)).1.voices) := by
  rw [doCmode]
  generalize (countServerMode env now source ('+' :: letters) lastmodes chan).1 = counted
  generalize hstart : CmodeState.mk counted true letters.length (List.replicate letters.length nick) = st
  have hadd : st.add = true := congrArg CmodeState.add hstart.symm
  have hac : st.ac = letters.length := congrArg CmodeState.ac hstart.symm
  have hav : st.av = List.replicate letters.length nick := congrArg CmodeState.av hstart.symm
  have hmarked : ('o' ∈ letters → env.checkValidOp user (source.contains '.') = true →
        user ∈ (letters.foldl (cmodeStep env source) st).chan.chanops) ∧
      ('v' ∈ letters → user ∈ (letters.foldl (cmodeStep env source) st).chan.voices) :=
    mem_cmodeLoop honly hfind hletters hadd hac hav
  have hloop : cmodeLoop env source counted ('+' :: letters) (List.replicate letters.length nick) =
      (letters.foldl (cmodeStep env source) st).chan := by
    rw [cmodeLoop, List.length_replicate, ← hstart]
    rfl
  have hgrew (c : Channel) : Grew c (checkModes env now row c).1 := Grew.of_lists lists_checkModes
  dsimp only
  refine ⟨fun ho hvalid ↦ (hgrew _).chanops user ?_, fun hv ↦ (hgrew _).voices user ?_⟩
  · rw [hloop]
    exact hmarked.1 ho hvalid
  · rw [hloop]
    exact hmarked.2 hv

end Gives

/-! ### What the loop does -/

/-- The user of an entry of the list, when he is online and not kicked. -/
def admitted (env : SjoinEnv) (entry : CString) : Option UserId :=
  (env.finduser (nickIn entry)).filter fun user ↦ (env.checkKick user).isNone

/-- What a part of the loop does in which these users join. -/
structure Went (address : ℤ) (joiners : List UserId) (st st' : SjoinState) : Prop where
  users : st'.users = joiners.reverse ++ st.users
  chans : st'.chans = joiners.reverse ++ st.chans
  joins : st'.joins = st.joins + joiners.length
  chanops : ∀ user ∈ st.chanops, user ∈ st'.chanops
  voices : ∀ user ∈ st.voices, user ∈ st'.voices
  time : st'.found.map ChannelRecord.creationTime =
    if joiners = [] then st.found.map ChannelRecord.creationTime else some address

/-- The modes that an entry asks for are those of its user. -/
structure Marked (env : SjoinEnv) (source entry : CString) (st : SjoinState) : Prop where
  op : ∀ user, admitted env entry = some user → '@' ∈ prefixesOf entry →
    env.checkValidOp user (source.contains '.') = true → user ∈ st.chanops
  voice : ∀ user, admitted env entry = some user → '+' ∈ prefixesOf entry → user ∈ st.voices

section Loop

variable {env : SjoinEnv} {source channel : CString} {ts : CPointer} {entry : CString} {st st' : SjoinState}
  {address : ℤ}

theorem Went.refl (address : ℤ) (st : SjoinState) : Went address [] st st :=
  ⟨rfl, rfl, rfl, fun _ ↦ id, fun _ ↦ id, rfl⟩

theorem Went.trans {st'' : SjoinState} {joiners joiners' : List UserId} (h : Went address joiners st st')
    (h' : Went address joiners' st' st'') : Went address (joiners ++ joiners') st st'' where
  users := by rw [h'.users, h.users, List.reverse_append, List.append_assoc]
  chans := by rw [h'.chans, h.chans, List.reverse_append, List.append_assoc]
  joins := by rw [h'.joins, h.joins, List.length_append, Nat.add_assoc]
  chanops user hu := h'.chanops user (h.chanops user hu)
  voices user hu := h'.voices user (h.voices user hu)
  time := by
    rw [h'.time, h.time]
    cases joiners' with
    | nil => rw [if_pos rfl, List.append_nil]
    | cons user joiners' =>
      have hne : joiners ++ user :: joiners' ≠ [] := by simp
      rw [if_neg (List.cons_ne_nil _ _), if_neg hne]

theorem Marked.of_went {joiners : List UserId} (h : Marked env source entry st) (hwent : Went address joiners st st') :
    Marked env source entry st' where
  op user huser hprefix hvalid := hwent.chanops user (h.op user huser hprefix hvalid)
  voice user huser hprefix := hwent.voices user (h.voice user huser hprefix)

theorem went_cmode (address : ℤ) (source : CString) {modestr : CString} (hminus : '-' ∉ modestr)
    (params : List CString) (st : SjoinState) : Went address [] st (st.cmode env source modestr params) := by
  rcases st with ⟨found, lastmodes, chans, joins⟩
  cases found with
  | none => exact .refl address _
  | some record =>
    have hgrew : Grew record.chan _ := grew_doCmode env.toCmodeEnv env.now env.row source lastmodes hminus params
    exact ⟨hgrew.users, rfl, rfl, hgrew.chanops, hgrew.voices, rfl⟩

theorem lists_newRecord (env : SjoinEnv) (channel : CString) :
    Channel.lists (newRecord env channel).chan = ([], [], [], []) := lists_checkModes

theorem addToLists_lists (env : SjoinEnv) (user : UserId) (chan : Channel) :
    (addToLists env user chan).users = user :: chan.users ∧
      (∀ other ∈ chan.chanops, other ∈ (addToLists env user chan).chanops) ∧
      ∀ other ∈ chan.voices, other ∈ (addToLists env user chan).voices := by
  cases hop : env.shouldOp user with
  | true => simp +contextual [addToLists, hop]
  | false => cases hvoice : env.shouldVoice user <;> simp +contextual [addToLists, hop, hvoice]

/-- The record that `chan_adduser` leaves. -/
theorem chanAdduser_found {user : UserId} {record : ChannelRecord}
    (h : (chanAdduser env user channel st).found = some record) :
    record.chan.users = user :: st.users ∧ (∀ other ∈ st.chanops, other ∈ record.chan.chanops) ∧
      ∀ other ∈ st.voices, other ∈ record.chan.voices := by
  have hbefore : (st.found.getD (newRecord env channel)).chan.users = st.users ∧
      (∀ other ∈ st.chanops, other ∈ (st.found.getD (newRecord env channel)).chan.chanops) ∧
      ∀ other ∈ st.voices, other ∈ (st.found.getD (newRecord env channel)).chan.voices := by
    rcases st with ⟨found, lastmodes, chans, joins⟩
    cases found with
    | none =>
      have hlists := lists_newRecord env channel
      rw [Channel.lists, Prod.mk.injEq, Prod.mk.injEq] at hlists
      refine ⟨hlists.2.1, fun other ho ↦ ?_, fun other ho ↦ ?_⟩
      · cases ho
      · cases ho
    | some record => exact ⟨rfl, fun _ ↦ id, fun _ ↦ id⟩
  obtain ⟨husers, hchanops, hvoices⟩ := hbefore
  obtain ⟨husers', hchanops', hvoices'⟩ := addToLists_lists env user (st.found.getD (newRecord env channel)).chan
  rw [chanAdduser] at h
  split_ifs at h with hfound
  dsimp only at h
  rw [Option.some.injEq] at h
  subst h
  exact ⟨husers'.trans (congrArg (user :: ·) husers), fun other ho ↦ hchanops' other (hchanops other ho),
    fun other ho ↦ hvoices' other (hvoices other ho)⟩

theorem chanAdduser_isSome (env : SjoinEnv) (channel : CString) (st : SjoinState) (user : UserId) :
    (chanAdduser env user channel st).found.isSome = true ↔ st.found.isSome = true ∨ channel.length < CHANMAX := by
  have hcut : stricmp (strscpy channel CHANMAX) channel = 0 ↔ channel.length < CHANMAX := by
    rw [stricmp_eq_zero_iff, strscpy]
    constructor
    · intro h
      have hlength := congrArg List.length h
      rw [List.length_map, List.length_map, List.length_take] at hlength
      rw [CHANMAX] at hlength ⊢
      omega
    · intro h
      rw [List.take_of_length_le (Nat.le_sub_one_of_lt h)]
  rw [← hcut, chanAdduser]
  split_ifs with hfound
  · exact iff_of_true rfl hfound
  · exact iff_of_false Bool.false_ne_true hfound

theorem chanAdduser_frame (env : SjoinEnv) (channel : CString) (st : SjoinState) (user : UserId) :
    (chanAdduser env user channel st).chans = st.chans ∧ (chanAdduser env user channel st).joins = st.joins := by
  rw [chanAdduser]
  split_ifs
  · exact ⟨rfl, rfl⟩
  · exact ⟨rfl, rfl⟩

/-- A user who joins is on the channel and has the modes of his prefixes. -/
theorem joinUser_spec {user : UserId} {nick entry : CString} (hfind : env.finduser nick = some user)
    (hlength : (prefixesOf entry).length ≤ 2)
    (h : joinUser env source channel ('+' :: (prefixesOf entry).map fun c ↦ if c = '@' then 'o' else 'v') nick
      (prefixesOf entry).length ts user st = some st') :
    Went ts.address [user] st st' ∧
      ('@' ∈ prefixesOf entry → env.checkValidOp user (source.contains '.') = true → user ∈ st'.chanops) ∧
      ('+' ∈ prefixesOf entry → user ∈ st'.voices) := by
  generalize hletters : (prefixesOf entry).map (fun c ↦ if c = '@' then 'o' else 'v') = letters at h
  obtain ⟨hchans, hjoins⟩ := chanAdduser_frame env channel st user
  rw [joinUser] at h
  cases hfound : (chanAdduser env user channel st).found with
  | none =>
    rw [hfound] at h
    cases h
  | some record =>
    obtain ⟨husers, hchanops, hvoices⟩ := chanAdduser_found hfound
    have hjoined : Went ts.address [user] st
        { chanAdduser env user channel st with
          found := some { record with creationTime := ts.address }
          chans := user :: (chanAdduser env user channel st).chans
          joins := (chanAdduser env user channel st).joins + 1 } := by
      refine ⟨husers, congrArg (user :: ·) hchans, congrArg (· + 1) hjoins, hchanops, hvoices, ?_⟩
      rw [if_neg (List.cons_ne_nil _ _)]
      rfl
    rw [hfound] at h
    dsimp only at h hjoined
    split_ifs at h with hmodes
    · rw [← Option.some.inj h]
      have honly (other : UserId) (hother : stricmp (env.nickOf other) nick = 0) : other = user :=
        env.finduser_eq nick user other hfind hother
      have hkinds : ∀ c ∈ letters, c = 'o' ∨ c = 'v' := by
        rw [← hletters]
        exact List.forall_mem_map.mpr fun c _ ↦ (ite_eq_or_eq _ _ _)
      have hslots : [nick, nick].take (prefixesOf entry).length = List.replicate letters.length nick := by
        rw [← hletters, List.length_map]
        exact List.take_replicate ..|>.trans (by rw [Nat.min_eq_left hlength])
      have hminus : '-' ∉ '+' :: letters := by
        rintro (_ | ⟨_, hmem⟩)
        rcases hkinds '-' hmem with hc | hc <;> cases hc
      have hmarks := mem_doCmode source honly hfind hkinds env.now env.row
        (chanAdduser env user channel st).lastmodes record.chan
      have hat (hmem : '@' ∈ prefixesOf entry) : 'o' ∈ letters := by
        rw [← hletters]
        exact List.mem_map.mpr ⟨'@', hmem, rfl⟩
      have hplus (hmem : '+' ∈ prefixesOf entry) : 'v' ∈ letters := by
        rw [← hletters]
        exact List.mem_map.mpr ⟨'+', hmem, rfl⟩
      rw [hslots]
      refine ⟨hjoined.trans (went_cmode _ source hminus _ _), fun hmem hvalid ↦ ?_, fun hmem ↦ ?_⟩
      · exact hmarks.1 (hat hmem) hvalid
      · exact hmarks.2 (hplus hmem)
    · have hnil : prefixesOf entry = [] := List.eq_nil_of_length_eq_zero (Nat.eq_zero_of_not_pos hmodes)
      rw [← Option.some.inj h, hnil]
      exact ⟨hjoined, fun hat ↦ absurd hat List.not_mem_nil, fun hplus ↦ absurd hplus List.not_mem_nil⟩

/-- What an entry does, when nothing goes wrong. -/
theorem sjoinNick_spec (h : sjoinNick env source channel ts st entry = some st') :
    (prefixesOf entry).length ≤ 2 ∧ Went ts.address (admitted env entry).toList st st' ∧
      Marked env source entry st' := by
  rw [sjoinNick] at h
  cases hbuf : modebuf entry with
  | none =>
    rw [hbuf] at h
    cases h
  | some modestr =>
    have hletters : (prefixesOf entry).length ≤ 2 ∧
        modestr = '+' :: (prefixesOf entry).map fun c ↦ if c = '@' then 'o' else 'v' := by
      rw [modebuf, MODEBUF] at hbuf
      split_ifs at hbuf with hlength
      exact ⟨by omega, (Option.some.inj hbuf).symm⟩
    obtain ⟨htwo, hmodestr⟩ := hletters
    refine ⟨htwo, ?_⟩
    rw [hbuf] at h
    dsimp only at h
    cases hfind : env.finduser (nickIn entry) with
    | none =>
      have hnone : admitted env entry = none := by rw [admitted, hfind]; rfl
      rw [hfind] at h
      rw [hnone, ← Option.some.inj h]
      refine ⟨.refl _ _, fun user huser ↦ ?_, fun user huser ↦ ?_⟩
      · rw [hnone] at huser
        cases huser
      · rw [hnone] at huser
        cases huser
    | some user =>
      rw [hfind] at h
      dsimp only at h
      cases hkick : env.checkKick user with
      | some mask =>
        have hnone : admitted env entry = none := by
          rw [admitted, hfind, Option.filter_some, if_neg (by simp [hkick])]
        rw [hkick] at h
        rw [hnone, ← Option.some.inj h]
        refine ⟨went_cmode _ _ (by decide) _ _, fun user huser ↦ ?_, fun user huser ↦ ?_⟩
        · rw [hnone] at huser
          cases huser
        · rw [hnone] at huser
          cases huser
      | none =>
        have hsome : admitted env entry = some user := by
          rw [admitted, hfind, Option.filter_some, if_pos (by simp [hkick])]
        rw [hkick, hmodestr] at h
        dsimp only at h
        obtain ⟨hwent, hop, hvoice⟩ := joinUser_spec hfind htwo h
        rw [hsome]
        refine ⟨hwent, fun other hother ↦ ?_, fun other hother ↦ ?_⟩
        · rw [← Option.some.inj (hsome.symm.trans hother)]
          exact hop
        · rw [← Option.some.inj (hsome.symm.trans hother)]
          exact hvoice

/-- When an entry goes well. -/
theorem sjoinNick_isSome (env : SjoinEnv) (source channel : CString) (ts : CPointer) (st : SjoinState)
    (entry : CString) :
    (sjoinNick env source channel ts st entry).isSome = true ↔ (prefixesOf entry).length ≤ 2 ∧
      (admitted env entry ≠ none → st.found.isSome = true ∨ channel.length < CHANMAX) := by
  rw [sjoinNick]
  by_cases htwo : (prefixesOf entry).length ≤ 2
  · have hbuf : modebuf entry = some ('+' :: (prefixesOf entry).map fun c ↦ if c = '@' then 'o' else 'v') := by
      refine if_pos ?_
      unfold MODEBUF
      omega
    rw [hbuf]
    dsimp only
    cases hfind : env.finduser (nickIn entry) with
    | none =>
      have hnone : admitted env entry = none := by rw [admitted, hfind]; rfl
      exact iff_of_true rfl ⟨htwo, fun h ↦ absurd hnone h⟩
    | some user =>
      dsimp only
      cases hkick : env.checkKick user with
      | some mask =>
        have hnone : admitted env entry = none := by
          rw [admitted, hfind, Option.filter_some, if_neg (by simp [hkick])]
        exact iff_of_true rfl ⟨htwo, fun h ↦ absurd hnone h⟩
      | none =>
        have hsome : admitted env entry ≠ none := by
          rw [admitted, hfind, Option.filter_some, if_pos (by simp [hkick])]
          exact Option.some_ne_none user
        have hadded := chanAdduser_isSome env channel st user
        dsimp only
        rw [joinUser]
        cases hfound : (chanAdduser env user channel st).found with
        | none =>
          rw [hfound] at hadded
          refine iff_of_false Bool.false_ne_true fun h ↦ ?_
          exact Bool.false_ne_true (hadded.mpr (h.2 hsome))
        | some record =>
          rw [hfound] at hadded
          refine iff_of_true ?_ ⟨htwo, fun _ ↦ hadded.mp rfl⟩
          dsimp only
          split_ifs <;> rfl
  · have hbuf : modebuf entry = none := by
      refine if_neg ?_
      unfold MODEBUF
      omega
    rw [hbuf]
    exact iff_of_false Bool.false_ne_true fun h ↦ htwo h.1

/-- The users who join. -/
def joinersOf (env : SjoinEnv) (entries : List CString) : List UserId :=
  entries.filterMap (admitted env)

/-- The whole loop. -/
theorem sjoinNicks_spec {entries : List CString}
    (h : entries.foldlM (sjoinNick env source channel ts) st = some st') :
    Went ts.address (joinersOf env entries) st st' ∧ ∀ entry ∈ entries, Marked env source entry st' := by
  induction entries generalizing st with
  | nil =>
    rw [List.foldlM_nil] at h
    rw [← Option.some.inj h]
    exact ⟨.refl _ _, fun entry hentry ↦ absurd hentry List.not_mem_nil⟩
  | cons entry entries ih =>
    rw [List.foldlM_cons] at h
    obtain ⟨st₁, hfirst, hrest⟩ := Option.bind_eq_some_iff.mp h
    obtain ⟨-, hwent, hmarked⟩ := sjoinNick_spec hfirst
    obtain ⟨hwent', hmarked'⟩ := ih hrest
    have hjoiners : joinersOf env (entry :: entries) = (admitted env entry).toList ++ joinersOf env entries := by
      rw [joinersOf, joinersOf, List.filterMap_cons]
      cases admitted env entry <;> rfl
    rw [hjoiners]
    refine ⟨hwent.trans hwent', fun other hother ↦ ?_⟩
    rcases List.mem_cons.mp hother with rfl | hother
    · exact hmarked.of_went hwent'
    · exact hmarked' other hother

/-- When the loop goes well. -/
theorem sjoinNicks_isSome (env : SjoinEnv) (source channel : CString) (ts : CPointer) (st : SjoinState)
    (entries : List CString) :
    (entries.foldlM (sjoinNick env source channel ts) st).isSome = true ↔
      (∀ entry ∈ entries, (prefixesOf entry).length ≤ 2) ∧
        (joinersOf env entries ≠ [] → st.found.isSome = true ∨ channel.length < CHANMAX) := by
  induction entries generalizing st with
  | nil => exact iff_of_true rfl ⟨fun entry hentry ↦ absurd hentry List.not_mem_nil, fun h ↦ absurd rfl h⟩
  | cons entry entries ih =>
    rw [List.foldlM_cons, List.forall_mem_cons]
    cases hfirst : sjoinNick env source channel ts st entry with
    | none =>
      have hbad : ¬ ((prefixesOf entry).length ≤ 2 ∧
          (admitted env entry ≠ none → st.found.isSome = true ∨ channel.length < CHANMAX)) := by
        rw [← sjoinNick_isSome env source channel ts st entry, hfirst]
        exact Bool.false_ne_true
      refine iff_of_false Bool.false_ne_true fun h ↦ hbad ⟨h.1.1, fun hsome ↦ h.2 ?_⟩
      obtain ⟨user, huser⟩ := Option.ne_none_iff_exists'.mp hsome
      rw [joinersOf, List.filterMap_cons_some huser]
      exact List.cons_ne_nil _ _
    | some st₁ =>
      obtain ⟨htwo, hfound⟩ := (sjoinNick_isSome _ _ _ _ _ _).mp (by rw [hfirst]; rfl)
      have htime := (sjoinNick_spec hfirst).2.1.time
      show (entries.foldlM (sjoinNick env source channel ts) st₁).isSome = true ↔ _
      rw [ih]
      cases hadmitted : admitted env entry with
      | none =>
        have hsame : st₁.found.isSome = st.found.isSome := by
          rw [hadmitted, Option.toList_none, if_pos rfl] at htime
          rw [← Option.isSome_map, htime, Option.isSome_map]
        rw [hsame, joinersOf, joinersOf, List.filterMap_cons_none hadmitted]
        exact ⟨fun h ↦ ⟨⟨htwo, h.1⟩, h.2⟩, fun h ↦ ⟨h.1.2, h.2⟩⟩
      | some user =>
        have hthere : st₁.found.isSome = true := by
          rw [hadmitted, Option.toList_some, if_neg (List.cons_ne_nil _ _)] at htime
          rw [← Option.isSome_map, htime]
          rfl
        refine ⟨fun h ↦ ⟨⟨htwo, h.1⟩, fun _ ↦ hfound ?_⟩, fun h ↦ ⟨h.1.2, fun _ ↦ .inl hthere⟩⟩
        rw [hadmitted]
        exact Option.some_ne_none user

end Loop

/-! ### Messages -/

/-- The end of a line from a server: the modes that are set, with at most a limit and a key, and the list. -/
structure Burst where
  modes : CPointer
  letters : CString
  modes_eq : modes.text = '+' :: letters
  plus : '-' ∉ letters
  params : List CPointer
  params_le : params.length ≤ 2
  users : CPointer

/-- An SJOIN message. A server sends a list, in the plain format behind the time of the join; from a client the source
is the nick. -/
structure SjoinMessage where
  source : CString
  joined : Option CPointer
  ts : CPointer
  ts_digit : ts.text.head?.any Char.isDigit = true
  channel : CPointer
  channel_digit : channel.text.head?.any Char.isDigit = false
  burst : Option Burst

/-- The parameters behind the channel. -/
def Burst.args (burst : Burst) : List CPointer :=
  burst.modes :: (burst.params ++ [burst.users])

/-- The parameters. -/
def SjoinMessage.av (msg : SjoinMessage) : List CPointer :=
  msg.joined.toList ++ msg.ts :: msg.channel :: (msg.burst.map Burst.args).getD []

/-- The entries of the list. -/
def SjoinMessage.entries (msg : SjoinMessage) : List CString :=
  Separated.fields ' ' ((msg.burst.map fun burst ↦ burst.users.text).getD msg.source)

/-- The creation time of the channel. -/
def SjoinMessage.timestamp (msg : SjoinMessage) : ℤ :=
  strtol msg.ts.text

section Message

variable {env : SjoinEnv} {source : CString} {msg : SjoinMessage} {st st' : SjoinState}

/-- The plain format loses its first parameter. -/
theorem doSjoin_eq (env : SjoinEnv) (msg : SjoinMessage) (st : SjoinState) :
    doSjoin env msg.source msg.av st =
      (msg.entries.foldlM (sjoinNick env msg.source msg.channel.text msg.ts) { st with joins := 0 }).bind
        (sjoinModes env msg.source ((msg.burst.map Burst.args).getD [])) := by
  have hdigit := msg.ts_digit
  have hchannel := msg.channel_digit
  have hlisting : (if 4 ≤ (msg.ts :: msg.channel :: (msg.burst.map Burst.args).getD []).length then
      ((((msg.burst.map Burst.args).getD []).getLast?).map CPointer.text).getD [] else msg.source) =
      (msg.burst.map fun burst ↦ burst.users.text).getD msg.source := by
    cases msg.burst with
    | none => rfl
    | some burst =>
      have hlength : 4 ≤ (msg.ts :: msg.channel :: burst.args).length := by
        simp only [Burst.args, List.length_cons, List.length_append, List.length_nil]
        omega
      have hlast : burst.args.getLast? = some burst.users := by
        rw [Burst.args, ← List.cons_append, List.getLast?_concat]
      simp only [Option.map_some, Option.getD_some, if_pos hlength, hlast]
  rw [SjoinMessage.entries, ← hlisting, SjoinMessage.av]
  cases msg.joined with
  | none =>
    simp only [Option.toList_none, List.nil_append, doSjoin, hchannel, Bool.false_eq_true, if_false]
  | some joined =>
    simp only [Option.toList_some, List.singleton_append, doSjoin, hdigit, if_true]

/-- No parameter is read that is not there. -/
theorem overreads_eq_false (env : CmodeEnv) (source modestr : CString) {st : CmodeState}
    (h : st.ac ≤ st.av.length) : overreads env source st modestr = false := by
  induction modestr generalizing st with
  | nil => rfl
  | cons c modestr ih =>
    have hnext : (cmodeStep env source st c).ac ≤ (cmodeStep env source st c).av.length := by
      by_cases htakes : hasParam st.add c = true
      · have hconsumes := consumes_cmodeStep env source htakes rfl
        have hac := hconsumes.ac
        by_cases hpos : 0 < st.ac
        · have hav := (hconsumes.taken hpos).2
          have htail : st.av.tail.length = st.av.length - 1 := List.length_tail
          rw [hac, hav]
          split_ifs <;> omega
        · have hav := (hconsumes.skipped (not_lt.mp hpos)).2
          rw [hac, hav]
          omega
      · obtain ⟨-, hac, hav⟩ := cmodeStep_other env source (Bool.not_eq_true _ ▸ htakes)
        rw [hac, hav]
        exact h
    rw [overreads, ih hnext, Bool.or_false, Bool.and_eq_false_iff, Bool.and_eq_false_iff]
    by_cases hpos : 0 < st.ac
    · refine .inr ?_
      cases hav : st.av with
      | nil =>
        rw [hav, List.length_nil] at h
        omega
      | cons param av => rfl
    · exact .inl (.inr (decide_eq_false hpos))

/-- The modes of the channel change neither the users on it nor its creation time. -/
theorem sjoinModes_spec (env : SjoinEnv) (source : CString) (burst : Option Burst) (address : ℤ) (st : SjoinState) :
    ∃ st', sjoinModes env source ((burst.map Burst.args).getD []) st = some st' ∧ Went address [] st st' := by
  have hsame := Went.refl address st
  unfold sjoinModes
  split_ifs
  · exact ⟨st, rfl, hsame⟩
  · cases burst with
    | none => exact ⟨st, rfl, hsame⟩
    | some burst =>
      have hparams : (burst.params ++ [burst.users]).dropLast = burst.params := List.dropLast_concat
      have hminus : '-' ∉ '+' :: burst.letters := by
        rintro (_ | ⟨_, hmem⟩)
        exact burst.plus hmem
      have hcount : (burst.params.map CPointer.text).take 2 = burst.params.map CPointer.text := by
        rw [List.take_of_length_le]
        rw [List.length_map]
        exact burst.params_le
      dsimp only [Option.map_some, Option.getD_some, Burst.args]
      rw [burst.modes_eq, hparams]
      cases hletters : burst.letters with
      | nil => exact ⟨st, rfl, hsame⟩
      | cons c letters =>
        rw [hletters] at hminus
        dsimp only
        cases hfound : st.found with
        | none => exact ⟨st, rfl, hsame⟩
        | some record =>
          dsimp only
          rw [hcount, overreads_eq_false env.toCmodeEnv source _ (le_refl _), if_neg Bool.false_ne_true]
          exact ⟨_, rfl, went_cmode address source hminus _ _⟩

/-! ### What should hold, and when it does -/

/-- Everybody who may join is added once, to the channel and to his own list, and nobody else; his prefixes are
honoured; and the creation time of the channel is the timestamp. -/
structure SjoinRight (env : SjoinEnv) (msg : SjoinMessage) (st st' : SjoinState) : Prop where
  users : ∀ user, st'.users.count user = st.users.count user + if user ∈ joinersOf env msg.entries then 1 else 0
  chans : ∀ user, st'.chans.count user = st.chans.count user + if user ∈ joinersOf env msg.entries then 1 else 0
  marked : ∀ entry ∈ msg.entries, Marked env msg.source entry st'
  created : ∀ record, st'.found = some record → record.creationTime = msg.timestamp

/-- No nick has more than two prefixes and none who joins is listed twice. When somebody joins, the name of a new
channel fits its buffer and the address of the timestamp is its number; otherwise a channel that is there has that
creation time already. -/
structure SjoinMeets (env : SjoinEnv) (msg : SjoinMessage) (st : SjoinState) : Prop where
  prefixes : ∀ entry ∈ msg.entries, (prefixesOf entry).length ≤ 2
  once : (joinersOf env msg.entries).Nodup
  named : joinersOf env msg.entries ≠ [] → st.found.isSome = true ∨ msg.channel.text.length < CHANMAX
  stamped : joinersOf env msg.entries ≠ [] → msg.ts.address = msg.timestamp
  unjoined : joinersOf env msg.entries = [] →
    ∀ record, st.found = some record → record.creationTime = msg.timestamp

/-- Counts of users who join once each. -/
theorem count_joined_iff {joiners before after : List UserId} (h : after = joiners.reverse ++ before) :
    (∀ user, after.count user = before.count user + if user ∈ joiners then 1 else 0) ↔ joiners.Nodup := by
  have hcount (user : UserId) : after.count user = before.count user + joiners.count user := by
    rw [h, List.count_append, List.count_reverse, Nat.add_comm]
  rw [List.nodup_iff_count_le_one]
  refine forall_congr' fun user ↦ ?_
  rw [hcount, Nat.add_left_cancel_iff]
  by_cases hmem : user ∈ joiners
  · have hpos := List.count_pos_iff.mpr hmem
    rw [if_pos hmem]
    omega
  · rw [if_neg hmem, List.count_eq_zero_of_not_mem hmem]
    omega

/-- The line is right exactly when it meets this. -/
theorem sjoinRight_iff :
    (∃ st', doSjoin env msg.source msg.av st = some st' ∧ SjoinRight env msg st st') ↔
      SjoinMeets env msg st := by
  have hsome := sjoinNicks_isSome env msg.source msg.channel.text msg.ts { st with joins := 0 } msg.entries
  rw [doSjoin_eq]
  cases hloop : msg.entries.foldlM (sjoinNick env msg.source msg.channel.text msg.ts) { st with joins := 0 } with
  | none =>
    rw [hloop] at hsome
    refine iff_of_false ?_ fun h ↦ Bool.false_ne_true (hsome.mpr ⟨h.prefixes, h.named⟩)
    rintro ⟨st', hst', -⟩
    cases hst'
  | some st₁ =>
    rw [hloop] at hsome
    obtain ⟨hprefixes, hnamed⟩ := hsome.mp rfl
    obtain ⟨hwent₁, hmarked⟩ := sjoinNicks_spec hloop
    obtain ⟨st₂, hmodes, hwent₂⟩ := sjoinModes_spec env msg.source msg.burst msg.ts.address st₁
    have hwent := hwent₁.trans hwent₂
    rw [List.append_nil] at hwent
    have hend : (some st₁).bind (sjoinModes env msg.source ((msg.burst.map Burst.args).getD [])) = some st₂ :=
      hmodes
    have htime (h : joinersOf env msg.entries ≠ []) :
        st₂.found.map ChannelRecord.creationTime = some msg.ts.address := by
      rw [hwent.time, if_neg h]
    rw [hend]
    constructor
    · rintro ⟨st', hst', hright⟩
      rcases Option.some.inj hst' with rfl
      refine ⟨hprefixes, (count_joined_iff hwent.users).mp hright.users, hnamed, fun hsome ↦ ?_, fun hnone record hr ↦ ?_⟩
      · obtain ⟨record, hrecord, haddress⟩ := Option.map_eq_some_iff.mp (htime hsome)
        exact haddress.symm.trans (hright.created record hrecord)
      · have hkept := hwent.time
        dsimp only at hkept
        rw [if_pos hnone, hr] at hkept
        obtain ⟨record', hrecord', hsame⟩ := Option.map_eq_some_iff.mp hkept
        exact hsame.symm.trans (hright.created record' hrecord')
    · intro h
      refine ⟨st₂, rfl, (count_joined_iff hwent.users).mpr h.once, (count_joined_iff hwent.chans).mpr h.once,
        fun entry hentry ↦ (hmarked entry hentry).of_went hwent₂, fun record hr ↦ ?_⟩
      by_cases hnone : joinersOf env msg.entries = []
      · have hkept := hwent.time
        dsimp only at hkept
        rw [if_pos hnone, hr, Option.map_some] at hkept
        obtain ⟨record', hrecord', hsame⟩ := Option.map_eq_some_iff.mp hkept.symm
        exact hsame.symm.trans (h.unjoined hnone record' hrecord')
      · have hthere := htime hnone
        rw [hr, Option.map_some, Option.some.injEq] at hthere
        exact hthere.trans (h.stamped hnone)

/-- For every message, `do_sjoin` stays within its arrays, adds each user who may join once and nobody else, honours
the prefixes and sets the creation time exactly when the message meets this. -/
theorem doSjoin_right_iff (env : SjoinEnv) (msg : SjoinMessage) (st : SjoinState) :
    (∃ st', doSjoin env msg.source msg.av st = some st' ∧ SjoinRight env msg st st') ↔ SjoinMeets env msg st :=
  sjoinRight_iff

end Message

/-- `alice` is online, and may join and have ops. -/
def openChannel : SjoinEnv where
  serverName := "services.example".toList
  nickOf user := if user = 1 then "alice".toList else []
  finduser nick := if nick = "alice".toList then some 1 else none
  checkValidOp _ _ := true
  now := 1000000007
  row := none
  channelId := 0
  checkKick _ := none
  shouldOp _ := false
  shouldVoice _ := false
  finduser_eq nick user other hfind hname := by
    split_ifs at hfind with hnick
    subst hnick
    split_ifs at hname with hother
    · exact hother.trans (Option.some.inj hfind)
    · exact absurd hname (by decide)

/-- A server's line with a list. The timestamp is at address 0x80c0000. -/
def aliceJoins (users : String) : SjoinMessage where
  source := "irc.example".toList
  joined := none
  ts := ⟨135004160, "1000000000".toList⟩
  ts_digit := by decide
  channel := ⟨135004171, "#x".toList⟩
  channel_digit := by decide
  burst := some
    { modes := ⟨135004174, "+".toList⟩
      letters := []
      modes_eq := rfl
      plus := List.not_mem_nil
      params := []
      params_le := Nat.zero_le 2
      users := ⟨135004177, users.toList⟩ }

/-- The creation time of a new channel is the address. -/
theorem aliceJoins_not_stamped :
    ¬ ∀ env (msg : SjoinMessage) st, (∀ user ∈ joinersOf env msg.entries, user ∉ st.users) →
      ∃ st', doSjoin env msg.source msg.av st = some st' ∧ SjoinRight env msg st st' := by
  intro h
  have hmeets := sjoinRight_iff.mp (h openChannel (aliceJoins "@alice") ⟨none, [], [], 0⟩
    fun user _ ↦ List.not_mem_nil)
  have hstamped := hmeets.stamped (by decide +kernel)
  revert hstamped
  decide +kernel

/-- Three prefixes do not fit `modebuf`. -/
example : (doSjoin openChannel "irc.example".toList (aliceJoins "@+@alice").av ⟨none, [], [], 0⟩).isNone = true := by
  decide +kernel

end BlitzedServices.Users
