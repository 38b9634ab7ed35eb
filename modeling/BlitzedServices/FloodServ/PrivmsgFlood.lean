import BlitzedServices.Akill.AddAkill
import BlitzedServices.Misc.IrcCase

/-!
# FloodServ

`privmsg_flood` hears the messages on the monitored channels. It keeps a record for each text, counts how
often the text is said and from which hosts, warns the speaker with a kill or sets an akill on every host
of the record, and forgets the texts that are too old. `privmsgFlood_cases` says what one message can do:
nothing, record its text, or repeat the text of one record.
-/

set_option autoImplicit false
set_option relaxedAutoImplicit false

namespace BlitzedServices.FloodServ

open Lib Misc Akill
open NickServ (User NICKMAX)

/-- A host that said a text, and the nick that said it first. -/
structure Flooders where
  nick : CString
  host : CString
  akilled : Bool

/-- A text that is watched: who said it, when it was recorded, and how often it was said. -/
structure TxtFloods where
  flooder : List Flooders
  txtbuffer : CString
  time : ℤ
  repeats : BitVec 32
  warned : Bool
  chanid : ℕ

/-- The directives, which `SET` may change between two messages. -/
structure Settings where
  floodServAkillExpiry : ℤ
  floodServAkillReason : CString
  floodServTFNumLines : ℤ
  floodServTFSec : ℤ
  floodServTFNLWarned : ℤ
  floodServTFSecWarned : ℤ
  floodServWarnFirst : Bool
  floodServWarnMsg : CString
  immediatelySendAkill : Bool
  wallOSAkill : Bool

/-- What a message reads of a channel. -/
structure Channel where
  name : CString
  channelId : ℕ
  floodserv : ℤ

/-- A PRIVMSG with what its handler finds: the users and the channels, the akills, the directives, and
what the clock says when the handler starts, when it expires texts, and when it records or adds something. -/
structure Privmsg where
  source : CString
  target : CString
  text : CString
  users : List User
  chanlist : List Channel
  akills : List AkillRow
  settings : Settings
  now : ℤ
  expireNow : ℤ
  addNow : ℤ

/-- The calls that change something outside the list of texts, and the one that records a text. -/
inductive Call where
  | addFloodtxt (buf : CString) (id : ℕ)
  | killUser (user reason : CString)
  | addAkill (mask reason : CString) (expires : ℤ)
  | wallopsDetected (text chan nick username host : CString) (repeats sec : ℤ)
  | wallopsAkill (mask : CString) (expires : ℤ)
  deriving DecidableEq

/-- `s_FloodServ`. -/
def sFloodServ : CString := "FloodServ".toList

/-- `finduser`. -/
def finduser (users : List User) (nick : CString) : Option User :=
  users.find? fun u ↦ ircStricmp u.nick nick = 0

/-- `findchan`. -/
def findchan (chanlist : List Channel) (chan : CString) : Option Channel :=
  chanlist.find? fun c ↦ ircStricmp c.name chan = 0

/-- `strstrip`. A `char` is signed, so that the characters from `0x80` on are not above the space. -/
def strstrip (s : CString) : CString :=
  s.filter fun c ↦ 0x20 < c.toNat ∧ c.toNat < 0x80

/-- `add_floodtxt_user`. -/
def addFloodtxtUser (u : User) (flooder : List Flooders) : List Flooders :=
  if flooder.any fun f ↦ stricmp u.host f.host = 0 then flooder
  else ⟨strscpy u.nick NICKMAX, u.host, false⟩ :: flooder

/-- The text is too old. -/
def TxtFloods.isExpired (txt : TxtFloods) (m : Privmsg) : Bool :=
  (!txt.warned && txt.time + m.settings.floodServTFSec < m.expireNow) ||
    (txt.warned && txt.time + m.settings.floodServTFSecWarned < m.expireNow)

/-- `expire_floodtxt`. -/
def expireFloodtxt (m : Privmsg) (flood : List TxtFloods) : List TxtFloods :=
  flood.filter fun txt ↦ !txt.isExpired m

/-- The mask of the akill on a host. A host is shorter than a line of the server, so that the buffer
holds the mask. -/
def akillMask (host : CString) : CString :=
  '*' :: '@' :: host

/-- `fs_add_akill` for one host that has no akill of this text yet, and the akills after it. The hosts of a
text differ, so that none of the users it kills is killed for a second host. -/
def akillFlooder (m : Privmsg) (expires : ℤ) (fpnt : Flooders) (akills : List AkillRow) :
    List Call × List AkillRow :=
  let buf := akillMask fpnt.host
  let reason := m.settings.floodServAkillReason
  let added := addAkill buf reason sFloodServ m.addNow expires akills
  let kills :=
    if added.1 ∨ m.settings.immediatelySendAkill then []
    else (m.users.filter fun u ↦ stricmp u.host fpnt.host = 0).map fun u ↦ .killUser u.nick reason
  -- The text of the expiry is made with the user that the loop ended on, a pointer to none: services may
  -- end here. What they do if they do not is in the model.
  let wallops := if m.settings.wallOSAkill then [.wallopsAkill buf expires] else []
  (.addAkill buf reason expires :: (kills ++ wallops), added.2)

/-- The calls of `fs_add_akill`. -/
def akillCalls (m : Privmsg) (expires : ℤ) : List Flooders → List AkillRow → List Call
  | [], _ => []
  | fpnt :: flooder, akills =>
    if fpnt.akilled then akillCalls m expires flooder akills
    else
      (akillFlooder m expires fpnt akills).1 ++
        akillCalls m expires flooder (akillFlooder m expires fpnt akills).2

/-- `fs_add_akill`. -/
def fsAddAkill (m : Privmsg) (expires : ℤ) (txt : TxtFloods) : List Call × TxtFloods :=
  (akillCalls m expires txt.flooder m.akills,
    { txt with flooder := txt.flooder.map fun f ↦ { f with akilled := true } })

/-- `privmsg_flood` once it has found the record of its text. -/
def repeatText (m : Privmsg) (u : User) (txt : TxtFloods) : List Call × TxtFloods :=
  let txt := { txt with flooder := addFloodtxtUser u txt.flooder, repeats := txt.repeats + 1 }
  if m.settings.floodServTFNumLines ≤ txt.repeats.toInt then
    let expires := m.settings.floodServAkillExpiry + m.now
    if m.now ≤ txt.time + m.settings.floodServTFSec then
      if m.settings.floodServWarnFirst ∧ ¬ txt.warned then
        ([.wallopsDetected m.text m.target u.nick u.username u.host txt.repeats.toInt
            m.settings.floodServTFSec,
          .killUser m.source m.settings.floodServWarnMsg],
          { txt with warned := true })
      else fsAddAkill m expires txt
    else if m.now ≤ txt.time + m.settings.floodServTFSecWarned ∧ txt.warned ∧
        m.settings.floodServTFNLWarned ≤ txt.repeats.toInt then
      fsAddAkill m expires txt
    else ([], txt)
  else ([], txt)

/-- `add_floodtxt`. -/
def addFloodtxt (m : Privmsg) (u : User) (buf : CString) (id : ℕ) (flood : List TxtFloods) :
    List TxtFloods :=
  { flooder := addFloodtxtUser u [], txtbuffer := buf, time := m.addNow, repeats := 1,
    warned := false, chanid := id } :: flood

/-- The record is the one of a text on a channel. -/
def TxtFloods.isOf (txt : TxtFloods) (id : ℕ) (text : CString) : Bool :=
  txt.chanid = id ∧ stricmp text txt.txtbuffer = 0

/-- The walk of `privmsg_flood` through the records. -/
def walkFlood (m : Privmsg) (u : User) (id : ℕ) : List TxtFloods → Option (List Call × List TxtFloods)
  | [] => none
  | txt :: flood =>
    if txt.isOf id (strstrip m.text) then
      some ((repeatText m u txt).1, (repeatText m u txt).2 :: flood)
    else (walkFlood m u id flood).map fun r ↦ (r.1, txt :: r.2)

/-- `privmsg_flood`. -/
def privmsgFlood (m : Privmsg) (flood : List TxtFloods) : List Call × List TxtFloods :=
  match finduser m.users m.source, findchan m.chanlist m.target with
  | some u, some chan =>
    if u.oper then ([], flood)
    else
      let flood := expireFloodtxt m flood
      if chan.floodserv = 0 then ([], flood)
      else
        match walkFlood m u chan.channelId flood with
        | some r => r
        | none =>
          ([.addFloodtxt (strstrip m.text) chan.channelId],
            addFloodtxt m u (strstrip m.text) chan.channelId flood)
  | _, _ => ([], flood)

/-! ### What one message can do -/

/-- The speaker and the channel of a message that FloodServ watches: he is no oper, and the channel is
monitored. -/
def Privmsg.watched (m : Privmsg) : Option (User × Channel) :=
  match finduser m.users m.source, findchan m.chanlist m.target with
  | some u, some chan => if u.oper ∨ chan.floodserv = 0 then none else some (u, chan)
  | _, _ => none

/-- The walk finds no record of the text, or it repeats the text of the first. -/
theorem walkFlood_cases (m : Privmsg) (u : User) (id : ℕ) (flood : List TxtFloods) :
    (walkFlood m u id flood = none ∧ ∀ txt ∈ flood, txt.isOf id (strstrip m.text) = false) ∨
      ∃ l txt r, flood = l ++ txt :: r ∧ txt.isOf id (strstrip m.text) = true ∧
        walkFlood m u id flood = some ((repeatText m u txt).1, l ++ (repeatText m u txt).2 :: r) := by
  induction flood with
  | nil => exact .inl ⟨rfl, fun txt htxt ↦ absurd htxt List.not_mem_nil⟩
  | cons txt flood ih =>
    by_cases hof : txt.isOf id (strstrip m.text) = true
    · exact .inr ⟨[], txt, flood, rfl, hof, by rw [walkFlood, if_pos hof, List.nil_append]⟩
    · rcases ih with ⟨hnone, hflood⟩ | ⟨l, txt', r, rfl, hof', hsome⟩
      · refine .inl ⟨by rw [walkFlood, if_neg hof, hnone, Option.map_none], ?_⟩
        simpa [hof] using hflood
      · refine .inr ⟨txt :: l, txt', r, rfl, hof', ?_⟩
        rw [walkFlood, if_neg hof, hsome, Option.map_some, List.cons_append]

/-- A message is not watched, or records its text, or repeats the text of one record. -/
theorem privmsgFlood_cases (m : Privmsg) (flood : List TxtFloods) :
    (m.watched = none ∧ (privmsgFlood m flood).1 = [] ∧ (privmsgFlood m flood).2.Sublist flood) ∨
      ∃ u chan, m.watched = some (u, chan) ∧
        ((∀ txt ∈ expireFloodtxt m flood, txt.isOf chan.channelId (strstrip m.text) = false) ∧
            privmsgFlood m flood =
              ([.addFloodtxt (strstrip m.text) chan.channelId],
                addFloodtxt m u (strstrip m.text) chan.channelId (expireFloodtxt m flood)) ∨
          ∃ l txt r, expireFloodtxt m flood = l ++ txt :: r ∧
            txt.isOf chan.channelId (strstrip m.text) = true ∧
            privmsgFlood m flood =
              ((repeatText m u txt).1, l ++ (repeatText m u txt).2 :: r)) := by
  have hexpire : (expireFloodtxt m flood).Sublist flood := List.filter_sublist
  cases huser : finduser m.users m.source with
  | none => simp [Privmsg.watched, privmsgFlood, huser]
  | some u =>
    cases hchan : findchan m.chanlist m.target with
    | none => simp [Privmsg.watched, privmsgFlood, huser, hchan]
    | some chan =>
      by_cases hoper : u.oper = true
      · simp [Privmsg.watched, privmsgFlood, huser, hchan, hoper]
      · by_cases hfloodserv : chan.floodserv = 0
        · simpa [Privmsg.watched, privmsgFlood, huser, hchan, hoper, hfloodserv] using hexpire
        · have hwatched : m.watched = some (u, chan) := by
            simp [Privmsg.watched, huser, hchan, hoper, hfloodserv]
          refine .inr ⟨u, chan, hwatched, ?_⟩
          rcases walkFlood_cases m u chan.channelId (expireFloodtxt m flood) with
            ⟨hnone, hflood⟩ | ⟨l, txt, r, hsplit, hof, hsome⟩
          · exact .inl ⟨hflood, by simp [privmsgFlood, huser, hchan, hoper, hfloodserv, hnone]⟩
          · exact .inr ⟨l, txt, r, hsplit, hof,
              by simp [privmsgFlood, huser, hchan, hoper, hfloodserv, hsome]⟩

/-! ### What a repeated text leads to -/

/-- The hosts of a record differ. -/
def HostsDiffer (flooder : List Flooders) : Prop :=
  flooder.Pairwise fun f g ↦ stricmp f.host g.host ≠ 0

theorem mem_addFloodtxtUser_of_mem {u : User} {flooder : List Flooders} {f : Flooders}
    (hf : f ∈ flooder) : f ∈ addFloodtxtUser u flooder := by
  rw [addFloodtxtUser]
  split_ifs
  · exact hf
  · exact List.mem_cons_of_mem _ hf

theorem host_of_mem_addFloodtxtUser {u : User} {flooder : List Flooders} {f : Flooders}
    (hf : f ∈ addFloodtxtUser u flooder) : f ∈ flooder ∨ (f.host = u.host ∧ f.akilled = false) := by
  rw [addFloodtxtUser] at hf
  split_ifs at hf
  · exact .inl hf
  · rcases List.mem_cons.mp hf with rfl | hf
    · exact .inr ⟨rfl, rfl⟩
    · exact .inl hf

theorem HostsDiffer.addFloodtxtUser {u : User} {flooder : List Flooders} (h : HostsDiffer flooder) :
    HostsDiffer (addFloodtxtUser u flooder) := by
  rw [FloodServ.addFloodtxtUser]
  split_ifs with hany
  · exact h
  · refine List.pairwise_cons.mpr ⟨fun g hg hsame ↦ hany ?_, h⟩
    exact List.any_eq_true.mpr ⟨g, hg, decide_eq_true hsame⟩

theorem HostsDiffer.map {flooder : List Flooders} (h : HostsDiffer flooder)
    (f : Flooders → Flooders) (hf : ∀ x, (f x).host = x.host) : HostsDiffer (flooder.map f) := by
  rw [HostsDiffer, List.pairwise_map]
  simp only [hf]
  exact h

end BlitzedServices.FloodServ
