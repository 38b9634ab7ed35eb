import BlitzedServices.Lib.CString

/-!
# Channel records and the letters of a MODE line

The channel record of `services.h` with what MODE messages read and write: the mode word, limit and
key, the bans, the three user lists and the counters that detect bouncing modes. `cmodeStep` is one
letter of the loop of `do_cmode` and `cmodeLoop` the whole loop; the mode-lock check that ends
`do_cmode` is in `ChanServ.CheckModes`.

The ten modes without a parameter are the entries of `flagTable`: one case each in the source, with
the same body.
-/

set_option autoImplicit false
set_option relaxedAutoImplicit false

namespace BlitzedServices.Channels

open Lib

/-! ### Channel modes -/

def CMODE_i : BitVec 32 := 0x00000001#32
def CMODE_m : BitVec 32 := 0x00000002#32
def CMODE_n : BitVec 32 := 0x00000004#32
def CMODE_p : BitVec 32 := 0x00000008#32
def CMODE_s : BitVec 32 := 0x00000010#32
def CMODE_t : BitVec 32 := 0x00000020#32
def CMODE_k : BitVec 32 := 0x00000040#32
def CMODE_l : BitVec 32 := 0x00000080#32
def CMODE_R : BitVec 32 := 0x00000100#32
def CMODE_c : BitVec 32 := 0x00000400#32
def CMODE_O : BitVec 32 := 0x00000800#32
def CMODE_M : BitVec 32 := 0x00001000#32

/-- The modes without a parameter, in the order `check_modes` tests them. -/
def flagTable : List (Char × BitVec 32) :=
  [('i', CMODE_i), ('m', CMODE_m), ('M', CMODE_M), ('n', CMODE_n), ('p', CMODE_p),
    ('s', CMODE_s), ('t', CMODE_t), ('c', CMODE_c), ('O', CMODE_O), ('R', CMODE_R)]

/-- The flag of a mode letter. -/
def flagOf (modechar : Char) : Option (BitVec 32) :=
  flagTable.lookup modechar

/-! ### Channel records -/

/-- A pointer to the record of an online user. -/
abbrev UserId := ℕ

/-- The channel record. No code sets `bouncy_modes`: the assignment in `check_modes` is commented
out, and new records are zeroed. -/
structure Channel where
  name : CString
  channelId : ℕ
  mode : BitVec 32
  limit : BitVec 32
  key : Option CString
  newbans : List CString
  users : List UserId
  chanops : List UserId
  voices : List UserId
  serverModetime : ℤ
  chanservModetime : ℤ
  serverModecount : BitVec 16
  chanservModecount : BitVec 16
  bouncyModes : Bool
  bouncyModes_eq : bouncyModes = false

/-- The channel without a key. -/
def Channel.withoutKey (chan : Channel) : Channel :=
  { chan with key := none }

/-- What `do_cmode` reads of the rest of the program: the name of the services server, the nick a
user record holds, `finduser`, and `check_valid_op` for this channel. -/
structure CmodeEnv where
  serverName : CString
  nickOf : UserId → CString
  finduser : CString → Option UserId
  checkValidOp : UserId → Bool → Bool

/-- The entry of a list whose user has the nick, as the loops over `chanops` and `voices` find it. -/
def CmodeEnv.listed (env : CmodeEnv) (nick : CString) (list : List UserId) : Option UserId :=
  list.find? fun user ↦ stricmp (env.nickOf user) nick = 0

/-! ### The loop over the mode letters -/

/-- The count of equal mode changes by servers in one second, with `lastmodes`, the letters counted.
Changes with `b`, `o` or `v` and those of services are not counted. -/
def countServerMode (env : CmodeEnv) (now : ℤ) (source modestr lastmodes : CString) (chan : Channel) :
    Channel × CString :=
  if source.contains '.' ∧ source ≠ env.serverName ∧
      ¬ modestr.any fun c ↦ c == 'b' || c == 'o' || c == 'v' then
    if now ≠ chan.serverModetime ∨ modestr ≠ lastmodes then
      ({ chan with serverModecount := 1, serverModetime := now }, strscpy modestr 40)
    else ({ chan with serverModecount := chan.serverModecount + 1 }, lastmodes)
  else (chan, lastmodes)

/-- The variables of the loop: the sign, the parameters counted and those left. -/
structure CmodeState where
  chan : Channel
  add : Bool
  ac : ℤ
  av : List CString

/-- `--ac`. -/
def CmodeState.spend (st : CmodeState) : CmodeState :=
  { st with ac := st.ac - 1 }

/-- A mode without a parameter. -/
def CmodeState.setFlag (st : CmodeState) (flag : BitVec 32) : CmodeState :=
  { st with chan :=
    { st.chan with mode := if st.add then st.chan.mode ||| flag else st.chan.mode &&& ~~~flag } }

/-- `+k` and `-k`. Only `+k` moves on to the next parameter. -/
def CmodeState.setKey (st : CmodeState) : CmodeState :=
  let st := st.spend
  if st.ac < 0 then st
  else if st.add then
    { st with chan := { st.chan with key := some (st.av.headD []) }, av := st.av.tail }
  else { st with chan := st.chan.withoutKey }

/-- `+l` and `-l`. Only `+l` takes a parameter. -/
def CmodeState.setLimit (st : CmodeState) : CmodeState :=
  if st.add then
    let st := st.spend
    if st.ac < 0 then st
    else
      { st with
        chan := { st.chan with limit := (strtoul (st.av.headD [])).setWidth 32 }
        av := st.av.tail }
  else { st with chan := { st.chan with limit := 0 } }

/-- `+b` and `-b`. -/
def CmodeState.setBan (st : CmodeState) : CmodeState :=
  let st := st.spend
  if st.ac < 0 then st
  else
    let mask := st.av.headD []
    { st with
      chan := { st.chan with newbans :=
        if st.add then st.chan.newbans ++ [mask] else st.chan.newbans.erase mask }
      av := st.av.tail }

/-- `+o` and `-o`. A user who is online is listed whether or not he is on the channel. -/
def CmodeState.setOp (st : CmodeState) (env : CmodeEnv) (source : CString) : CmodeState :=
  let st := st.spend
  if st.ac < 0 then st
  else
    let nick := st.av.headD []
    let st := { st with av := st.av.tail }
    match env.listed nick st.chan.chanops with
    | some user =>
      if st.add then st
      else { st with chan := { st.chan with chanops := st.chan.chanops.erase user } }
    | none =>
      if st.add then
        match env.finduser nick with
        | none => st
        | some user =>
          if env.checkValidOp user (source.contains '.') then
            { st with chan := { st.chan with chanops := user :: st.chan.chanops } }
          else st
      else st

/-- `+v` and `-v`. A user who is online is listed whether or not he is on the channel. -/
def CmodeState.setVoice (st : CmodeState) (env : CmodeEnv) : CmodeState :=
  let st := st.spend
  if st.ac < 0 then st
  else
    let nick := st.av.headD []
    let st := { st with av := st.av.tail }
    match env.listed nick st.chan.voices with
    | some user =>
      if st.add then st
      else { st with chan := { st.chan with voices := st.chan.voices.erase user } }
    | none =>
      if st.add then
        match env.finduser nick with
        | none => st
        | some user => { st with chan := { st.chan with voices := user :: st.chan.voices } }
      else st

/-- One letter of a MODE line. -/
def cmodeStep (env : CmodeEnv) (source : CString) (st : CmodeState) (modechar : Char) :
    CmodeState :=
  if modechar = '+' then { st with add := true }
  else if modechar = '-' then { st with add := false }
  else if modechar = 'k' then st.setKey
  else if modechar = 'l' then st.setLimit
  else if modechar = 'b' then st.setBan
  else if modechar = 'o' then st.setOp env source
  else if modechar = 'v' then st.setVoice env
  else
    match flagOf modechar with
    | some flag => st.setFlag flag
    | none => st

/-- The loop of `do_cmode` over the letters of `modestr`, with the parameters after it. -/
def cmodeLoop (env : CmodeEnv) (source : CString) (chan : Channel) (modestr : CString)
    (params : List CString) : Channel :=
  (modestr.foldl (cmodeStep env source) ⟨chan, true, params.length, params⟩).chan

/-- `-k` with its parameter removes the key and nothing else. -/
theorem cmodeLoop_minus_k (env : CmodeEnv) (source : CString) (chan : Channel) (key : CString) :
    cmodeLoop env source chan ['-', 'k'] [key] = chan.withoutKey := by
  simp [cmodeLoop, cmodeStep, CmodeState.setKey, CmodeState.spend]

end BlitzedServices.Channels
