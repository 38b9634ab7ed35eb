import BlitzedServices.FloodServ.PrivmsgFlood
import BlitzedServices.Lib.Runs

/-!
# What FloodServ punishes

A run of messages leaves a log of what each of them led to. `sayings` reads from it how a text was said on
a channel since it was last recorded, and `Policy` is what must hold of that: enough lines in a short time,
a warning first, akills only on hosts that said the text, and one akill a host. The record that
`privmsg_flood` keeps of the text knows enough of the sayings (`Tracks`), and `policy_sayings` follows for
every run by one step for each message.
-/

set_option autoImplicit false
set_option relaxedAutoImplicit false

namespace BlitzedServices.FloodServ

open Lib Misc Akill
open NickServ (User)

/-- A message and the calls that it led to. -/
structure Event where
  msg : Privmsg
  calls : List Call

/-- One message, with the log of all of them. -/
def step (s : List TxtFloods × List Event) (m : Privmsg) : List TxtFloods × List Event :=
  ((privmsgFlood m s.1).2, s.2 ++ [⟨m, (privmsgFlood m s.1).1⟩])

/-- The messages from the start of services on. -/
def run (ms : List Privmsg) : List TxtFloods × List Event :=
  ms.foldl step ([], [])

/-- The clock does not go back: not while a message is handled, and not from one to the next. -/
structure NonDecreasing (ms : List Privmsg) : Prop where
  handler : ∀ m ∈ ms, m.now ≤ m.expireNow ∧ m.expireNow ≤ m.addNow
  messages : ms.Pairwise fun m m' ↦ m.addNow ≤ m'.now

/-- The message says the text on the channel: what is left of it without its spaces is the text, in small
or capital letters. -/
def Privmsg.carries (m : Privmsg) (id : ℕ) (text : CString) : Bool :=
  m.watched.any fun x ↦ x.2.channelId = id ∧ stricmp (strstrip m.text) text = 0

/-- The host of the speaker. -/
def Privmsg.host (m : Privmsg) : Option CString :=
  m.watched.map fun x ↦ x.1.host

/-- The call records the text. -/
def Call.records (id : ℕ) (text : CString) : Call → Bool
  | .addFloodtxt buf id' => id' = id ∧ stricmp buf text = 0
  | _ => false

/-- The call kills somebody or adds an akill. -/
def Call.punishes : Call → Bool
  | .killUser _ _ => true
  | .addAkill _ _ _ => true
  | _ => false

/-- The host in the mask of an akill. -/
def Call.akilledHost : Call → Option CString
  | .addAkill mask _ _ => some (mask.drop 2)
  | _ => none

/-- The kills and akills. -/
def Event.punished (e : Event) : List Call :=
  e.calls.filter Call.punishes

/-- A warning: one kill, of the speaker. -/
def Event.warning (e : Event) : List Call :=
  [.killUser e.msg.source e.msg.settings.floodServWarnMsg]

/-- The hosts that get an akill. -/
def Event.akilledHosts (e : Event) : List CString :=
  e.calls.filterMap Call.akilledHost

/-- How the text was said on the channel since it was last recorded. -/
def sayings (id : ℕ) (text : CString) (log : List Event) : List Event :=
  log.foldl (fun said e ↦
    if e.calls.any (Call.records id text) then [e]
    else if e.msg.carries id text then said ++ [e]
    else said) []

/-- When the text was recorded. -/
def recordedAt (said : List Event) : ℤ :=
  (said.head?.map fun e ↦ e.msg.addNow).getD 0

/-- Somebody may be killed or get an akill at a saying of the text, after the ones before it. -/
structure Allowed (before : List Event) (e : Event) : Prop where
  lines : e.msg.settings.floodServTFNumLines ≤ (before ++ [e]).length
  soon : e.msg.now ≤ recordedAt (before ++ [e]) + e.msg.settings.floodServTFSec ∨
    (∃ e' ∈ before, e'.punished = e'.warning) ∧
      e.msg.settings.floodServTFNLWarned ≤ ((before ++ [e]).countP fun e' ↦
        e'.msg.now ≤ recordedAt (before ++ [e]) + e.msg.settings.floodServTFSecWarned : ℕ)

/-- The policy, for the sayings of a text since it was recorded. -/
structure Policy (said : List Event) : Prop where
  allowed : ∀ before e after, said = before ++ e :: after → e.punished ≠ [] → Allowed before e
  first : ∀ before e after, said = before ++ e :: after → e.punished ≠ [] →
    (∀ e' ∈ before, e'.punished = []) → e.msg.settings.floodServWarnFirst = true →
      e.punished = e.warning
  hosts : ∀ before e after, said = before ++ e :: after → ∀ host ∈ e.akilledHosts,
    ∃ e' ∈ before ++ [e], ∃ h, e'.msg.host = some h ∧ stricmp h host = 0
  once : (said.flatMap Event.akilledHosts).Pairwise fun h h' ↦ stricmp h h' ≠ 0

/-! ### The sayings of a text -/

theorem stricmp_comm {s t : CString} : stricmp s t = 0 ↔ stricmp t s = 0 := by
  rw [stricmp_eq_zero_iff, stricmp_eq_zero_iff, eq_comm]

theorem stricmp_congr {s t : CString} (h : stricmp s t = 0) (r : CString) :
    stricmp r s = 0 ↔ stricmp r t = 0 := by
  rw [stricmp_eq_zero_iff] at h
  rw [stricmp_eq_zero_iff, stricmp_eq_zero_iff, h]

theorem sayings_append_singleton (id : ℕ) (text : CString) (log : List Event) (e : Event) :
    sayings id text (log ++ [e]) =
      if e.calls.any (Call.records id text) then [e]
      else if e.msg.carries id text then sayings id text log ++ [e]
      else sayings id text log := by
  rw [sayings, List.foldl_append]
  rfl

/-- The same text in other letters has the same sayings. -/
theorem sayings_congr {id : ℕ} {text text' : CString} (h : stricmp text text' = 0)
    (log : List Event) : sayings id text log = sayings id text' log := by
  have hrecords : Call.records id text = Call.records id text' := by
    ext c
    cases c <;> simp [Call.records, stricmp_congr h]
  have hcarries (m : Privmsg) : m.carries id text = m.carries id text' := by
    simp [Privmsg.carries, stricmp_congr h]
  simp only [sayings, hrecords, hcarries]

/-- A message that does not say the text leaves its sayings as they are, if it does not record it. -/
theorem sayings_of_not_carries {id : ℕ} {text : CString} {log : List Event} {e : Event}
    (hrecords : e.calls.any (Call.records id text) = false) (hcarries : e.msg.carries id text = false) :
    sayings id text (log ++ [e]) = sayings id text log := by
  simp [sayings_append_singleton, hrecords, hcarries]

theorem carries_eq {m : Privmsg} {x : User × Channel} (hwatched : m.watched = some x) (id : ℕ)
    (text : CString) :
    m.carries id text = decide (x.2.channelId = id ∧ stricmp (strstrip m.text) text = 0) := by
  rw [Privmsg.carries, hwatched, Option.any_some]

/-! ### The calls of an akill -/

section AkillCalls

variable (m : Privmsg) (expires : ℤ)

theorem filterMap_akillFlooder (fpnt : Flooders) (akills : List AkillRow) :
    (akillFlooder m expires fpnt akills).1.filterMap Call.akilledHost = [fpnt.host] := by
  have hkills (p : Prop) [Decidable p] (l : List User) (reason : CString) :
      (if p then [] else l.map fun u : User ↦ Call.killUser u.nick reason).filterMap
        Call.akilledHost = [] := by
    split_ifs
    · rfl
    · simp [List.filterMap_map, Call.akilledHost, Function.comp_def]
  have hwallops (b : Bool) (mask : CString) :
      (if b then [Call.wallopsAkill mask expires] else []).filterMap Call.akilledHost = [] := by
    cases b <;> rfl
  rw [akillFlooder]
  simp only [List.filterMap_cons, List.filterMap_append, hkills, hwallops]
  rfl

/-- Each host of the record that has no akill gets one, in the order of the list. -/
theorem filterMap_akillCalls (flooder : List Flooders) (akills : List AkillRow) :
    (akillCalls m expires flooder akills).filterMap Call.akilledHost =
      (flooder.filter fun f ↦ !f.akilled).map Flooders.host := by
  induction flooder generalizing akills with
  | nil => rfl
  | cons fpnt flooder ih =>
    by_cases hakilled : fpnt.akilled = true
    · rw [akillCalls, if_pos hakilled, ih, List.filter_cons_of_neg (by simp [hakilled])]
    · rw [akillCalls, if_neg hakilled, List.filterMap_append, filterMap_akillFlooder, ih,
        List.filter_cons_of_pos (by simp [hakilled])]
      rfl

theorem any_records_akillCalls (id : ℕ) (text : CString) (flooder : List Flooders)
    (akills : List AkillRow) :
    (akillCalls m expires flooder akills).any (Call.records id text) = false := by
  induction flooder generalizing akills with
  | nil => rfl
  | cons fpnt flooder ih =>
    rw [akillCalls]
    split_ifs
    · exact ih akills
    · rw [List.any_append, ih, Bool.or_false, akillFlooder]
      split_ifs <;> simp [Call.records]

end AkillCalls

/-- What the handler does at a repeated text: only count it, warn, or add akills. -/
theorem repeatText_cases (m : Privmsg) (u : User) (txt : TxtFloods) :
    let txt' := { txt with flooder := addFloodtxtUser u txt.flooder, repeats := txt.repeats + 1 }
    repeatText m u txt = ([], txt') ∨
      m.settings.floodServTFNumLines ≤ txt'.repeats.toInt ∧
        (m.now ≤ txt.time + m.settings.floodServTFSec ∧
            repeatText m u txt =
              ([.wallopsDetected m.text m.target u.nick u.username u.host txt'.repeats.toInt
                  m.settings.floodServTFSec,
                .killUser m.source m.settings.floodServWarnMsg],
                { txt' with warned := true }) ∨
          (m.settings.floodServWarnFirst = true → txt.warned = true) ∧
            (m.now ≤ txt.time + m.settings.floodServTFSec ∨
              m.now ≤ txt.time + m.settings.floodServTFSecWarned ∧ txt.warned = true ∧
                m.settings.floodServTFNLWarned ≤ txt'.repeats.toInt) ∧
            repeatText m u txt = fsAddAkill m (m.settings.floodServAkillExpiry + m.now) txt') := by
  intro txt'
  by_cases hlines : m.settings.floodServTFNumLines ≤ txt'.repeats.toInt
  · by_cases hsoon : m.now ≤ txt.time + m.settings.floodServTFSec
    · by_cases hwarn : m.settings.floodServWarnFirst = true ∧ ¬ txt.warned = true
      · exact .inr ⟨hlines, .inl ⟨hsoon, by simp only [repeatText, txt', if_pos hlines, if_pos hsoon, if_pos hwarn]⟩⟩
      · refine .inr ⟨hlines, .inr ⟨fun hfirst ↦ ?_, .inl hsoon, ?_⟩⟩
        · by_contra hwarned
          exact hwarn ⟨hfirst, hwarned⟩
        · simp only [repeatText, txt', if_pos hlines, if_pos hsoon, if_neg hwarn]
    · by_cases hlate : m.now ≤ txt.time + m.settings.floodServTFSecWarned ∧ txt.warned = true ∧
          m.settings.floodServTFNLWarned ≤ txt'.repeats.toInt
      · refine .inr ⟨hlines, .inr ⟨fun _ ↦ hlate.2.1, .inr hlate, ?_⟩⟩
        simp only [repeatText, txt', if_pos hlines, if_neg hsoon, if_pos hlate]
      · exact .inl (by simp only [repeatText, txt', if_pos hlines, if_neg hsoon, if_neg hlate])
  · exact .inl (by simp only [repeatText, txt', if_neg hlines])

/-! ### The record of a text -/

/-- The record knows the sayings of its text. -/
structure Tracks (txt : TxtFloods) (said : List Event) : Prop where
  said_ne : said ≠ []
  repeats : txt.repeats = BitVec.ofNat 32 said.length
  time : txt.time = recordedAt said
  warned : txt.warned = true → ∃ e ∈ said, e.punished = e.warning
  hosts : ∀ f ∈ txt.flooder, ∃ e ∈ said, ∃ h, e.msg.host = some h ∧ stricmp h f.host = 0
  akilled : ∀ h ∈ said.flatMap Event.akilledHosts, ∃ f ∈ txt.flooder, f.host = h ∧ f.akilled = true
  differ : HostsDiffer txt.flooder

theorem toInt_ofNat_le (n : ℕ) : (BitVec.ofNat 32 n).toInt ≤ n := by
  have hmod : n % 2 ^ 32 ≤ n := Nat.mod_le n _
  rw [BitVec.toInt_eq_toNat_cond, BitVec.toNat_ofNat]
  split_ifs <;> omega

theorem recordedAt_append {said : List Event} (hsaid : said ≠ []) (e : Event) :
    recordedAt (said ++ [e]) = recordedAt said := by
  rw [recordedAt, recordedAt, List.head?_append_of_ne_nil _ hsaid]

variable {txt : TxtFloods} {said : List Event} {e : Event} {u : User}

/-- Each host of the record said the text, the one that is added too. -/
theorem Tracks.hosts_append (h : Tracks txt said) (hhost : e.msg.host = some u.host) {f : Flooders}
    (hf : f ∈ addFloodtxtUser u txt.flooder) :
    ∃ e' ∈ said ++ [e], ∃ host, e'.msg.host = some host ∧ stricmp host f.host = 0 := by
  rcases host_of_mem_addFloodtxtUser hf with hf | ⟨hf, -⟩
  · rcases h.hosts f hf with ⟨e', he', hsame⟩
    exact ⟨e', List.mem_append_left _ he', hsame⟩
  · refine ⟨e, List.mem_append_right _ List.mem_cons_self, u.host, hhost, ?_⟩
    rw [hf, stricmp_eq_zero_iff]

theorem Tracks.repeats_append (h : Tracks txt said) :
    txt.repeats + 1 = BitVec.ofNat 32 (said ++ [e]).length := by
  rw [h.repeats, List.length_append, List.length_singleton, BitVec.ofNat_add]
  rfl

/-- The record after its text was said once more. -/
theorem Tracks.heard (h : Tracks txt said) (hhost : e.msg.host = some u.host)
    (hakills : e.akilledHosts = []) :
    Tracks { txt with flooder := addFloodtxtUser u txt.flooder, repeats := txt.repeats + 1 }
      (said ++ [e]) where
  said_ne := List.append_ne_nil_of_left_ne_nil h.said_ne _
  repeats := h.repeats_append
  time := by rw [recordedAt_append h.said_ne, h.time]
  warned hwarned := by
    rcases h.warned hwarned with ⟨e', he', hwarning⟩
    exact ⟨e', List.mem_append_left _ he', hwarning⟩
  hosts f hf := h.hosts_append hhost hf
  akilled host hmem := by
    rw [List.flatMap_append, List.flatMap_singleton, hakills, List.append_nil] at hmem
    rcases h.akilled host hmem with ⟨f, hf, hakilled⟩
    exact ⟨f, mem_addFloodtxtUser_of_mem hf, hakilled⟩
  differ := h.differ.addFloodtxtUser

/-- What the last saying has to meet for the policy. -/
theorem Policy.append (h : Policy said)
    (hallowed : e.punished ≠ [] → Allowed said e)
    (hfirst : e.punished ≠ [] → (∀ e' ∈ said, e'.punished = []) →
      e.msg.settings.floodServWarnFirst = true → e.punished = e.warning)
    (hhosts : ∀ host ∈ e.akilledHosts,
      ∃ e' ∈ said ++ [e], ∃ h, e'.msg.host = some h ∧ stricmp h host = 0)
    (honce : (said.flatMap Event.akilledHosts ++ e.akilledHosts).Pairwise
      fun h h' ↦ stricmp h h' ≠ 0) :
    Policy (said ++ [e]) := by
  have hsplit {before after : List Event} {e' : Event} (heq : said ++ [e] = before ++ e' :: after) :
      (before = said ∧ e' = e) ∨ ∃ after', said = before ++ e' :: after' := by
    rcases List.eq_nil_or_concat after with rfl | ⟨after', e'', rfl⟩
    · rcases List.append_inj' heq rfl with ⟨hbefore, he⟩
      exact .inl ⟨hbefore.symm, (List.cons.inj he).1.symm⟩
    · rw [List.concat_eq_append, ← List.cons_append, ← List.append_assoc] at heq
      exact .inr ⟨after', (List.append_inj' heq rfl).1⟩
  constructor
  · intro before e' after heq
    rcases hsplit heq with ⟨rfl, rfl⟩ | ⟨after', hsaid⟩
    · exact hallowed
    · exact h.allowed before e' after' hsaid
  · intro before e' after heq
    rcases hsplit heq with ⟨rfl, rfl⟩ | ⟨after', hsaid⟩
    · exact hfirst
    · exact h.first before e' after' hsaid
  · intro before e' after heq
    rcases hsplit heq with ⟨rfl, rfl⟩ | ⟨after', hsaid⟩
    · exact hhosts
    · exact h.hosts before e' after' hsaid
  · rw [List.flatMap_append, List.flatMap_singleton]
    exact honce

/-- A saying that leads to no kill and no akill. -/
theorem Policy.append_of_punished_eq (h : Policy said) (hpunished : e.punished = []) :
    Policy (said ++ [e]) := by
  have hakills : e.akilledHosts = [] := by
    refine List.filterMap_eq_nil_iff.mpr fun c hc ↦ ?_
    have hnot := List.filter_eq_nil_iff.mp hpunished c hc
    cases c <;> simp [Call.punishes, Call.akilledHost] at hnot ⊢
  refine h.append (fun hne ↦ absurd hpunished hne) (fun hne ↦ absurd hpunished hne) ?_ ?_
  · rw [hakills]
    exact fun host hhost ↦ absurd hhost List.not_mem_nil
  · rw [hakills, List.append_nil]
    exact h.once

/-- The record and the sayings of its text after the text was said once more. -/
theorem Tracks.repeatText {m : Privmsg} {chan : Channel} (h : Tracks txt said) (hpolicy : Policy said)
    (hwatched : m.watched = some (u, chan)) (hclock : ∀ e' ∈ said, e'.msg.now ≤ m.now) :
    Tracks (repeatText m u txt).2 (said ++ [⟨m, (repeatText m u txt).1⟩]) ∧
      Policy (said ++ [⟨m, (repeatText m u txt).1⟩]) := by
  have hhost : m.host = some u.host := by rw [Privmsg.host, hwatched, Option.map_some]
  have hlength (e : Event) : (txt.repeats + 1).toInt ≤ ((said ++ [e]).length : ℕ) := by
    rw [h.repeats_append]
    exact toInt_ofNat_le _
  rcases repeatText_cases m u txt with hnone | ⟨hlines, ⟨hsoon, hwarn⟩ | ⟨hfirst, hages, hakill⟩⟩
  · rw [hnone]
    exact ⟨h.heard hhost rfl, hpolicy.append_of_punished_eq rfl⟩
  · rw [hwarn]
    set e : Event := ⟨m, _⟩
    have hallowed : Allowed said e := by
      constructor
      · exact hlines.trans (hlength e)
      · rw [recordedAt_append h.said_ne, ← h.time]
        exact .inl hsoon
    have htracks : Tracks _ (said ++ [e]) := h.heard hhost rfl
    refine ⟨{ htracks with warned := fun _ ↦ ⟨e, by simp, rfl⟩ }, ?_⟩
    refine hpolicy.append (fun _ ↦ hallowed) (fun _ _ _ ↦ rfl) ?_ ?_
    · exact fun host hmem ↦ absurd hmem List.not_mem_nil
    · show (said.flatMap Event.akilledHosts ++ []).Pairwise _
      rw [List.append_nil]
      exact hpolicy.once
  · rw [hakill]
    set flooder := addFloodtxtUser u txt.flooder with hflooder
    set e : Event := ⟨m, _⟩
    have hakilled : e.akilledHosts = (flooder.filter fun f ↦ !f.akilled).map Flooders.host :=
      filterMap_akillCalls m _ flooder m.akills
    have hdiffer : HostsDiffer flooder := h.differ.addFloodtxtUser
    refine ⟨?_, hpolicy.append (fun _ ↦ ?_) ?_ ?_ ?_⟩
    · exact
        { said_ne := List.append_ne_nil_of_left_ne_nil h.said_ne _
          repeats := h.repeats_append
          time := by rw [recordedAt_append h.said_ne, ← h.time]; rfl
          warned := fun hwarned ↦ by
            rcases h.warned hwarned with ⟨e', he', hwarning⟩
            exact ⟨e', List.mem_append_left _ he', hwarning⟩
          hosts := fun f hf ↦ by
            rcases List.mem_map.mp hf with ⟨g, hg, rfl⟩
            exact h.hosts_append (f := g) hhost hg
          akilled := fun host hmem ↦ by
            rw [List.flatMap_append, List.flatMap_singleton, hakilled, List.mem_append] at hmem
            have hmem : ∃ f ∈ flooder, f.host = host := by
              rcases hmem with hmem | hmem
              · rcases h.akilled host hmem with ⟨f, hf, hhost, -⟩
                exact ⟨f, mem_addFloodtxtUser_of_mem hf, hhost⟩
              · rcases List.mem_map.mp hmem with ⟨f, hf, hhost⟩
                exact ⟨f, List.mem_of_mem_filter hf, hhost⟩
            rcases hmem with ⟨f, hf, hhost⟩
            exact ⟨_, List.mem_map_of_mem hf, hhost, rfl⟩
          differ := hdiffer.map _ fun _ ↦ rfl }
    · constructor
      · exact hlines.trans (hlength e)
      · rw [recordedAt_append h.said_ne, ← h.time]
        rcases hages with hsoon | ⟨hlate, hwarned, hrepeats⟩
        · exact .inl hsoon
        · refine .inr ⟨h.warned hwarned, hrepeats.trans ((hlength e).trans (le_of_eq ?_))⟩
          -- The clock has not gone back: every saying lies before the last one.
          have hall : ∀ e' ∈ said ++ [e],
              decide (e'.msg.now ≤ txt.time + e.msg.settings.floodServTFSecWarned) = true := by
            intro e' he'
            rcases List.mem_append.mp he' with he' | he'
            · exact decide_eq_true ((hclock e' he').trans hlate)
            · rw [List.mem_singleton.mp he']
              exact decide_eq_true hlate
          rw [List.countP_eq_length.mpr hall]
    · intro _ hunpunished hwarnFirst
      rcases h.warned (hfirst hwarnFirst) with ⟨e', he', hwarning⟩
      rw [hunpunished e' he'] at hwarning
      exact absurd hwarning (List.cons_ne_nil _ _).symm
    · intro host hmem
      rw [hakilled] at hmem
      rcases List.mem_map.mp hmem with ⟨f, hf, rfl⟩
      exact h.hosts_append hhost (List.mem_of_mem_filter hf)
    · refine List.pairwise_append.mpr ⟨hpolicy.once, ?_, fun host hold host' hnew ↦ ?_⟩
      · rw [hakilled, List.pairwise_map]
        exact hdiffer.sublist List.filter_sublist
      · rw [hakilled] at hnew
        rcases h.akilled host hold with ⟨f, hf, rfl, hakilledf⟩
        rcases List.mem_map.mp hnew with ⟨g, hg, rfl⟩
        rcases List.mem_filter.mp hg with ⟨hg, hakilledg⟩
        have hne : f ≠ g := by
          rintro rfl
          simp [hakilledf] at hakilledg
        have hsymm : Std.Symm fun f g : Flooders ↦ stricmp f.host g.host ≠ 0 :=
          ⟨fun _ _ hxy hyx ↦ hxy (stricmp_comm.mp hyx)⟩
        exact hdiffer.forall (mem_addFloodtxtUser_of_mem hf) hg hne

/-! ### Runs -/

/-- The channel and the text of a record. -/
def TxtFloods.key (txt : TxtFloods) : ℕ × CString :=
  (txt.chanid, txt.txtbuffer)

/-- The keys of two different texts. -/
def KeysDiffer (a b : ℕ × CString) : Prop :=
  ¬ (a.1 = b.1 ∧ stricmp a.2 b.2 = 0)

/-- The sayings of the text of a record. -/
def TxtFloods.sayings (txt : TxtFloods) (log : List Event) : List Event :=
  FloodServ.sayings txt.chanid txt.txtbuffer log

/-- What holds after every message. -/
structure Watching (s : List TxtFloods × List Event) : Prop where
  tracks : ∀ txt ∈ s.1, Tracks txt (txt.sayings s.2)
  distinct : (s.1.map TxtFloods.key).Pairwise KeysDiffer
  policy : ∀ id text, Policy (sayings id text s.2)

theorem mem_of_mem_sayings {id : ℕ} {text : CString} {log : List Event} {e : Event}
    (he : e ∈ sayings id text log) : e ∈ log := by
  induction log using List.reverseRecOn with
  | nil => exact he
  | append_singleton log e' ih =>
    rw [sayings_append_singleton] at he
    rw [List.mem_append]
    split_ifs at he
    · exact .inr he
    · exact (List.mem_append.mp he).imp_left ih
    · exact .inl (ih he)

theorem run_append_singleton (ms : List Privmsg) (m : Privmsg) :
    run (ms ++ [m]) = step (run ms) m := by
  rw [run, List.foldl_append]
  rfl

theorem map_msg_run (ms : List Privmsg) : (run ms).2.map Event.msg = ms := by
  induction ms using List.reverseRecOn with
  | nil => rfl
  | append_singleton ms m ih => rw [run_append_singleton, step, List.map_append, ih]; rfl

theorem policy_nil : Policy [] where
  allowed _ _ _ h := absurd h.symm (List.append_ne_nil_of_right_ne_nil _ (List.cons_ne_nil _ _))
  first _ _ _ h := absurd h.symm (List.append_ne_nil_of_right_ne_nil _ (List.cons_ne_nil _ _))
  hosts _ _ _ h := absurd h.symm (List.append_ne_nil_of_right_ne_nil _ (List.cons_ne_nil _ _))
  once := List.Pairwise.nil

theorem any_records_repeatText (m : Privmsg) (u : User) (txt : TxtFloods) (id : ℕ) (text : CString) :
    (repeatText m u txt).1.any (Call.records id text) = false := by
  rcases repeatText_cases m u txt with hnone | ⟨-, ⟨-, hwarn⟩ | ⟨-, -, hakill⟩⟩
  · rw [hnone]
    rfl
  · rw [hwarn]
    rfl
  · rw [hakill]
    exact any_records_akillCalls m _ id text _ _

theorem key_repeatText (m : Privmsg) (u : User) (txt : TxtFloods) :
    (repeatText m u txt).2.key = txt.key := by
  rcases repeatText_cases m u txt with hnone | ⟨-, ⟨-, hwarn⟩ | ⟨-, -, hakill⟩⟩
  · rw [hnone]
    rfl
  · rw [hwarn]
    rfl
  · rw [hakill]
    rfl

/-- Whether a watched message says the text of a record. -/
theorem carries_key {m : Privmsg} {x : User × Channel} (hwatched : m.watched = some x) (txt : TxtFloods) :
    m.carries txt.chanid txt.txtbuffer = txt.isOf x.2.channelId (strstrip m.text) := by
  rw [carries_eq hwatched, TxtFloods.isOf]
  exact decide_eq_decide.mpr (and_congr_left' eq_comm)

section Step

variable {s : List TxtFloods × List Event} {m : Privmsg} {chan : Channel}

/-- A message that is not watched. -/
theorem Watching.ignored (h : Watching s) (hwatched : m.watched = none) {flood : List TxtFloods}
    (hflood : flood.Sublist s.1) : Watching (flood, s.2 ++ [⟨m, []⟩]) := by
  have hsayings (id : ℕ) (text : CString) :
      sayings id text (s.2 ++ [⟨m, []⟩]) = sayings id text s.2 :=
    sayings_of_not_carries rfl (by rw [Privmsg.carries, hwatched, Option.any_none])
  constructor
  · intro txt htxt
    rw [TxtFloods.sayings, hsayings]
    exact h.tracks txt (hflood.subset htxt)
  · exact h.distinct.sublist (hflood.map _)
  · intro id text
    rw [hsayings]
    exact h.policy id text

/-- A message whose text is recorded. -/
theorem Watching.recorded (h : Watching s) (hwatched : m.watched = some (u, chan))
    {flood : List TxtFloods} (hflood : flood.Sublist s.1)
    (hnew : ∀ txt ∈ flood, txt.isOf chan.channelId (strstrip m.text) = false) :
    Watching (addFloodtxt m u (strstrip m.text) chan.channelId flood,
      s.2 ++ [⟨m, [.addFloodtxt (strstrip m.text) chan.channelId]⟩]) := by
  set e : Event := ⟨m, _⟩
  have hrecords (id : ℕ) (text : CString) :
      e.calls.any (Call.records id text) = m.carries id text := by
    rw [carries_eq hwatched]
    simp [e, Call.records]
  constructor
  · intro txt htxt
    rcases List.mem_cons.mp htxt with rfl | htxt
    · have hcarries : m.carries chan.channelId (strstrip m.text) = true := by
        rw [carries_eq hwatched, decide_eq_true_eq, stricmp_eq_zero_iff]
        exact ⟨rfl, rfl⟩
      rw [TxtFloods.sayings, sayings_append_singleton, if_pos ((hrecords _ _).trans hcarries)]
      exact
        { said_ne := List.cons_ne_nil _ _
          repeats := rfl
          time := rfl
          warned := fun hwarned ↦ absurd hwarned Bool.false_ne_true
          hosts := fun f hf ↦ by
            rw [List.mem_singleton.mp hf]
            refine ⟨e, List.mem_cons_self, u.host, ?_, by rw [stricmp_eq_zero_iff]⟩
            show m.host = _
            rw [Privmsg.host, hwatched, Option.map_some]
          akilled := fun host hhost ↦ absurd hhost List.not_mem_nil
          differ := List.pairwise_singleton _ _ }
    · have hcarries : m.carries txt.chanid txt.txtbuffer = false := by
        rw [carries_key hwatched, hnew txt htxt]
      rw [TxtFloods.sayings, sayings_of_not_carries ((hrecords _ _).trans hcarries) hcarries]
      exact h.tracks txt (hflood.subset htxt)
  · refine List.pairwise_cons.mpr ⟨fun key hkey ⟨hid, htext⟩ ↦ ?_, h.distinct.sublist (hflood.map _)⟩
    rcases List.mem_map.mp hkey with ⟨txt, htxt, rfl⟩
    have hof : txt.isOf chan.channelId (strstrip m.text) = true :=
      decide_eq_true ⟨hid.symm, htext⟩
    rw [hnew txt htxt] at hof
    exact Bool.false_ne_true hof
  · intro id text
    by_cases hcarries : m.carries id text = true
    · rw [sayings_append_singleton, if_pos ((hrecords id text).trans hcarries)]
      exact policy_nil.append_of_punished_eq rfl
    · rw [Bool.not_eq_true] at hcarries
      rw [sayings_of_not_carries ((hrecords id text).trans hcarries) hcarries]
      exact h.policy id text

/-- A message that repeats the text of a record. -/
theorem Watching.repeated (h : Watching s) (hwatched : m.watched = some (u, chan))
    (hclock : ∀ e ∈ s.2, e.msg.now ≤ m.now) {l r : List TxtFloods} {txt : TxtFloods}
    (hflood : (l ++ txt :: r).Sublist s.1)
    (hof : txt.isOf chan.channelId (strstrip m.text) = true) :
    Watching (l ++ (repeatText m u txt).2 :: r, s.2 ++ [⟨m, (repeatText m u txt).1⟩]) := by
  set e : Event := ⟨m, (repeatText m u txt).1⟩ with he
  have hrecords (id : ℕ) (text : CString) : e.calls.any (Call.records id text) = false :=
    any_records_repeatText m u txt id text
  have hdistinct : ((l ++ txt :: r).map TxtFloods.key).Pairwise KeysDiffer :=
    h.distinct.sublist (hflood.map _)
  have hkey : txt.chanid = chan.channelId ∧ stricmp (strstrip m.text) txt.txtbuffer = 0 :=
    of_decide_eq_true hof
  have hstep := (h.tracks txt (hflood.subset (by simp))).repeatText
    (h.policy txt.chanid txt.txtbuffer) hwatched fun e' he' ↦ hclock e' (mem_of_mem_sayings he')
  have hsayings {id : ℕ} {text : CString} (hcarries : m.carries id text = true) :
      sayings id text (s.2 ++ [e]) = txt.sayings s.2 ++ [e] := by
    rw [sayings_append_singleton, hrecords, if_neg Bool.false_ne_true, if_pos hcarries]
    rw [carries_eq hwatched, decide_eq_true_eq] at hcarries
    have hsame : stricmp text txt.txtbuffer = 0 :=
      (stricmp_congr hkey.2 _).mp (stricmp_comm.mp hcarries.2)
    rw [← hcarries.1, ← hkey.1, sayings_congr hsame]
    rfl
  -- The text of every other record is another one.
  have hother {txt' : TxtFloods} (htxt' : txt' ∈ l ++ r) :
      m.carries txt'.chanid txt'.txtbuffer = false := by
    rw [carries_key hwatched]
    by_contra hof'
    have hkey' : txt'.chanid = chan.channelId ∧ stricmp (strstrip m.text) txt'.txtbuffer = 0 := by
      simpa [TxtFloods.isOf] using hof'
    have hsame : stricmp txt'.txtbuffer txt.txtbuffer = 0 :=
      (stricmp_congr hkey.2 _).mp (stricmp_comm.mp hkey'.2)
    rw [List.map_append, List.map_cons, List.pairwise_append, List.pairwise_cons] at hdistinct
    rcases List.mem_append.mp htxt' with hl | hr
    · exact hdistinct.2.2 _ (List.mem_map_of_mem hl) _ List.mem_cons_self
        ⟨hkey'.1.trans hkey.1.symm, hsame⟩
    · exact hdistinct.2.1.1 _ (List.mem_map_of_mem hr)
        ⟨hkey.1.trans hkey'.1.symm, stricmp_comm.mp hsame⟩
  have hkeep {txt' : TxtFloods} (htxt' : txt' ∈ l ++ r) : Tracks txt' (txt'.sayings (s.2 ++ [e])) := by
    rw [TxtFloods.sayings, sayings_of_not_carries (hrecords _ _) (hother htxt')]
    refine h.tracks txt' (hflood.subset ?_)
    rcases List.mem_append.mp htxt' with hl | hr
    · exact List.mem_append_left _ hl
    · exact List.mem_append_right _ (List.mem_cons_of_mem _ hr)
  constructor
  · intro txt' htxt'
    rcases List.mem_append.mp htxt' with hl | htxt'
    · exact hkeep (List.mem_append_left _ hl)
    · rcases List.mem_cons.mp htxt' with rfl | hr
      · have hsame := Prod.mk.inj (key_repeatText m u txt)
        rw [TxtFloods.sayings, hsame.1, hsame.2, hsayings ((carries_key hwatched txt).trans hof)]
        exact hstep.1
      · exact hkeep (List.mem_append_right _ hr)
  · have hmap : (l ++ (repeatText m u txt).2 :: r).map TxtFloods.key =
        (l ++ txt :: r).map TxtFloods.key := by
      rw [List.map_append, List.map_append, List.map_cons, List.map_cons, key_repeatText]
    rw [hmap]
    exact hdistinct
  · intro id text
    by_cases hcarries : m.carries id text = true
    · rw [hsayings hcarries]
      exact hstep.2
    · rw [Bool.not_eq_true] at hcarries
      rw [sayings_of_not_carries (hrecords id text) hcarries]
      exact h.policy id text

end Step

/-- One message. -/
theorem Watching.step {s : List TxtFloods × List Event} (h : Watching s) {m : Privmsg}
    (hclock : ∀ e ∈ s.2, e.msg.now ≤ m.now) : Watching (step s m) := by
  rw [FloodServ.step]
  rcases privmsgFlood_cases m s.1 with
    ⟨hwatched, hcalls, hflood⟩ | ⟨u, chan, hwatched, ⟨hnew, hresult⟩ | ⟨l, txt, r, hsplit, hof, hresult⟩⟩
  · rw [hcalls]
    exact h.ignored hwatched hflood
  · rw [hresult]
    exact h.recorded hwatched List.filter_sublist hnew
  · rw [hresult]
    refine h.repeated hwatched hclock ?_ hof
    rw [← hsplit]
    exact List.filter_sublist

/-- Every run. -/
theorem watching_run {ms : List Privmsg} (hclock : NonDecreasing ms) : Watching (run ms) := by
  induction ms using List.reverseRecOn with
  | nil =>
    exact
      { tracks := fun txt htxt ↦ absurd htxt List.not_mem_nil
        distinct := List.Pairwise.nil
        policy := fun _ _ ↦ policy_nil }
  | append_singleton ms m ih =>
    have hmessages := List.pairwise_append.mp hclock.messages
    have hms : NonDecreasing ms :=
      ⟨fun m' hm' ↦ hclock.handler m' (List.mem_append_left _ hm'), hmessages.1⟩
    rw [run_append_singleton]
    refine (ih hms).step fun e he ↦ ?_
    have hmem : e.msg ∈ ms := by
      rw [← map_msg_run ms]
      exact List.mem_map_of_mem he
    have hhandler := hms.handler _ hmem
    exact (hhandler.1.trans hhandler.2).trans (hmessages.2.2 _ hmem m List.mem_cons_self)

/-- A message that kills somebody or adds an akill is the last of the sayings of a text. -/
theorem exists_sayings_of_punished (m : Privmsg) (s : List TxtFloods × List Event)
    (hpunished : (⟨m, (privmsgFlood m s.1).1⟩ : Event).punished ≠ []) :
    ∃ id text, sayings id text (step s m).2 =
      sayings id text s.2 ++ [⟨m, (privmsgFlood m s.1).1⟩] := by
  rcases privmsgFlood_cases m s.1 with
    ⟨-, hcalls, -⟩ | ⟨u, chan, hwatched, ⟨-, hresult⟩ | ⟨l, txt, r, -, hof, hresult⟩⟩
  · rw [hcalls] at hpunished
    exact absurd rfl hpunished
  · rw [hresult] at hpunished
    exact absurd rfl hpunished
  · refine ⟨txt.chanid, txt.txtbuffer, ?_⟩
    have hcarries : m.carries txt.chanid txt.txtbuffer = true := (carries_key hwatched txt).trans hof
    rw [step, sayings_append_singleton, hresult, any_records_repeatText,
      if_neg Bool.false_ne_true, if_pos hcarries]

/-- Whenever somebody is killed or gets an akill in a run, it is for a text, the last saying of which led to
it; and the sayings of every text since it was recorded keep the policy. -/
theorem policy_sayings {ms : List Privmsg} (hclock : NonDecreasing ms) :
    (∀ id text, Policy (sayings id text (run ms).2)) ∧
      ∀ log e log', (run ms).2 = log ++ e :: log' → e.punished ≠ [] →
        ∃ id text said, sayings id text (log ++ [e]) = said ++ [e] ∧ Policy (said ++ [e]) := by
  refine ⟨(watching_run hclock).policy, ?_⟩
  induction ms using List.reverseRecOn with
  | nil =>
    intro log e log' hlog
    exact absurd hlog.symm (List.append_ne_nil_of_right_ne_nil _ (List.cons_ne_nil _ _))
  | append_singleton ms m ih =>
    have hms : NonDecreasing ms :=
      ⟨fun m' hm' ↦ hclock.handler m' (List.mem_append_left _ hm'),
        (List.pairwise_append.mp hclock.messages).1⟩
    intro log e log' hlog hpunished
    have hstep := run_append_singleton ms m
    rcases List.eq_nil_or_concat log' with rfl | ⟨log'', e', rfl⟩
    · have hlast := hlog
      rw [hstep, step] at hlast
      rcases List.append_inj' hlast rfl with ⟨hbefore, he⟩
      rw [← (List.cons.inj he).1] at hpunished ⊢
      rcases exists_sayings_of_punished m (run ms) hpunished with ⟨id, text, hsayings⟩
      have hpolicy := (watching_run hclock).policy id text
      rw [hstep, hsayings] at hpolicy
      rw [← hbefore]
      exact ⟨id, text, _, hsayings, hpolicy⟩
    · rw [hstep, step, List.concat_eq_append, ← List.cons_append, ← List.append_assoc] at hlog
      exact ih hms log e log'' (List.append_inj' hlog rfl).1 hpunished

/-! ### A flood -/

section Flood

/-- Two lines in five seconds, three in twenty after a warning. -/
def defaultSettings : Settings where
  floodServAkillExpiry := 3600
  floodServAkillReason := "Flooding".toList
  floodServTFNumLines := 2
  floodServTFSec := 5
  floodServTFNLWarned := 3
  floodServTFSecWarned := 20
  floodServWarnFirst := true
  floodServWarnMsg := "Do not flood".toList
  immediatelySendAkill := true
  wallOSAkill := false

/-- A user who is no oper. -/
def flooder (nick host : CString) : User :=
  ⟨0, nick, "user".toList, host, 0, 0, 0, 0, false, 0⟩

/-- A line on a monitored channel. -/
def line (source : CString) (t : ℤ) : Privmsg where
  source := source
  target := "#a".toList
  text := "Buy it".toList
  users := [flooder "eve".toList "eve.example".toList, flooder "mal".toList "mal.example".toList]
  chanlist := [⟨"#a".toList, 7, 1⟩]
  akills := []
  settings := defaultSettings
  now := t
  expireNow := t
  addNow := t

/-- Two users say the same text: the second line is warned for, the third gets both hosts an akill. -/
def flood : List Privmsg :=
  [line "eve".toList 0, line "mal".toList 3, line "eve".toList 4]

theorem policy_flood :
    ((run flood).2.map Event.akilledHosts = [[], [], ["mal.example".toList, "eve.example".toList]]) ∧
      Policy (sayings 7 "BUYIT".toList (run flood).2) := by
  refine ⟨by decide +kernel, (policy_sayings ?_).1 7 _⟩
  constructor
  · intro m hm
    fin_cases hm <;> exact ⟨le_rfl, le_rfl⟩
  · simp [flood, line]

end Flood

end BlitzedServices.FloodServ
