import BlitzedServices.FloodServ.PrivmsgFlood
import BlitzedServices.Users.KillUser

/-!
# The users that FloodServ kills

`fs_add_akill` with the table of the users. Where the akills are not sent at once it goes through all users
for each host and kills those who are on it; the pointer of that loop is then taken for the user in whose
language a WALLOPS is written, but it is unset if no loop has run yet and `NULL` after one. `fsAddAkill_serves_iff`
says for which records all of this comes out right.
-/

set_option autoImplicit false
set_option relaxedAutoImplicit false

namespace BlitzedServices.FloodServ

open Lib Misc Akill Users
open Mysql (sameName)

/-- The pointer `u`, which `fs_add_akill` declares without a value. -/
inductive UserPointer where
  | unset
  | null
  | user (a : ℕ)

/-- What `fs_add_akill` works on: the users, the akills, its pointer, and the WALLOPS that were sent. -/
structure AkillState where
  online : Online
  akills : List AkillRow
  u : UserPointer
  wallops : List (CString × ℤ)

/-- `expires_in_lang` reads the record it is given, which must be one of a user. -/
def expiresInLang (s : AkillState) : Option TableUser :=
  match s.u with
  | .user a => s.online.table.userlist.val a
  | _ => none

/-- The loop over the users for a host. -/
def killHost (serverName reason host : CString) (s : Online) : Option Online :=
  (killWhere (fun s a _ ↦ some (stricmp (s.host a) host = 0))
    (killAs serverName (some sFloodServ) fun _ ↦ reason) s).map Prod.fst

/-- `fs_add_akill` for a host that is not marked. -/
def addOffender (conf : Settings) (serverName : CString) (now expires : ℤ) (fpnt : Flooders) (s : AkillState) :
    Option AkillState :=
  let buf := akillMask fpnt.host
  let added := addAkill buf conf.floodServAkillReason sFloodServ now expires s.akills
  let s := { s with akills := added.2 }
  let walked :=
    if added.1 = false ∧ conf.immediatelySendAkill = false then
      (killHost serverName conf.floodServAkillReason fpnt.host s.online).map fun online ↦
        { s with online := online, u := .null }
    else some s
  walked.bind fun s ↦
    if conf.wallOSAkill then
      (expiresInLang s).map fun _ ↦ { s with wallops := s.wallops ++ [(buf, expires)] }
    else some s

/-- The loop of `fs_add_akill` over the hosts, where `none` is an access through a pointer that is not one
to a user. -/
def addOffenders (conf : Settings) (serverName : CString) (now expires : ℤ) (flooder : List Flooders)
    (s : AkillState) : Option AkillState :=
  flooder.foldlM (fun s fpnt ↦
    if fpnt.akilled then some s else addOffender conf serverName now expires fpnt s) s

/-- `fs_add_akill`: what it works on, and the marked hosts. -/
def fsAddAkillUsers (conf : Settings) (serverName : CString) (now expires : ℤ) (flooder : List Flooders)
    (online : Online) (akills : List AkillRow) : Option (AkillState × List Flooders) :=
  (addOffenders conf serverName now expires flooder ⟨online, akills, .unset, []⟩).map fun s ↦
    (s, flooder.map fun f ↦ { f with akilled := true })

/-! ### What `fs_add_akill` is for -/

/-- The host is not marked, and has no akill. -/
def newlyAkilled (akills : List AkillRow) (f : Flooders) : Bool :=
  !f.akilled && !akills.any fun r ↦ sameName r.mask (strlower (akillMask f.host))

/-- The hosts without akill get one each, everybody on them is killed unless the akills are sent at once, and
all hosts are marked. -/
structure AkillsOffenders (conf : Settings) (flooder : List Flooders) (online : Online) (akills : List AkillRow)
    (s : AkillState) (flooder' : List Flooders) : Prop where
  akilled : ∃ rows, s.akills = akills ++ rows ∧
    rows.map AkillRow.mask = (flooder.filter (newlyAkilled akills)).map fun f ↦ strlower (akillMask f.host)
  killed : conf.immediatelySendAkill = false → ∃ l, Killed online l s.online ∧
    ∀ a user, (a, user) ∈ l ↔ online.table.userlist.val a = some user ∧
      ∃ f ∈ flooder, newlyAkilled akills f = true ∧ stricmp (online.host a) f.host = 0
  marked : flooder' = flooder.map fun f ↦ { f with akilled := true }

/-- It ends, without a step through a bad pointer, and has done what it is for. -/
def Serves (conf : Settings) (flooder : List Flooders) (online : Online) (akills : List AkillRow)
    (r : Option (AkillState × List Flooders)) : Prop :=
  ∃ s flooder', r = some (s, flooder') ∧ AkillsOffenders conf flooder online akills s flooder'

/-- Nothing has to be announced that takes a user's language. -/
def Unannounced (conf : Settings) (flooder : List Flooders) : Prop :=
  conf.wallOSAkill = true → ∀ f ∈ flooder, f.akilled = true

/-- The akills that are added have room. -/
def HasRoom (flooder : List Flooders) (akills : List AkillRow) : Prop :=
  flooder.countP (newlyAkilled akills) = 0 ∨ akills.length + flooder.countP (newlyAkilled akills) ≤ maxAkills

/-- A host is unmarked and has an akill, but comes when the list is full. -/
def ComesLate (flooder : List Flooders) (akills : List AkillRow) (f : Flooders) : Prop :=
  ∃ pre post, flooder = pre ++ f :: post ∧ f.akilled = false ∧ newlyAkilled akills f = false ∧
    maxAkills ≤ akills.length + pre.countP (newlyAkilled akills)

/-! ### The hosts that are struck -/

/-- The loop over the users is run for a host: it is not marked, and new, or the list is full when its turn
comes. -/
def Struck (new : Flooders → Bool) (k : ℕ) (flooder : List Flooders) (f : Flooders) : Prop :=
  ∃ pre post, flooder = pre ++ f :: post ∧ f.akilled = false ∧
    (new f = true ∨ maxAkills ≤ k + pre.countP new)

section Struck

variable {new new' : Flooders → Bool} {k : ℕ} {g f : Flooders} {flooder : List Flooders}

theorem struck_nil : ¬ Struck new k [] f := by
  rintro ⟨pre, post, h, -⟩
  exact List.cons_ne_nil _ _ (List.append_eq_nil_iff.mp h.symm).2

theorem struck_cons : Struck new k (g :: flooder) f ↔
    (f = g ∧ g.akilled = false ∧ (new g = true ∨ maxAkills ≤ k)) ∨
      Struck new (k + if new g then 1 else 0) flooder f := by
  constructor
  · rintro ⟨pre, post, hsplit, hmark, hturn⟩
    cases pre with
    | nil =>
      obtain ⟨rfl, rfl⟩ := List.cons.inj hsplit
      exact .inl ⟨rfl, hmark, hturn⟩
    | cons h pre =>
      obtain ⟨rfl, rfl⟩ := List.cons.inj hsplit
      refine .inr ⟨pre, post, rfl, hmark, hturn.imp_right fun hfull ↦ ?_⟩
      rw [List.countP_cons] at hfull
      omega
  · rintro (⟨rfl, hmark, hturn⟩ | ⟨pre, post, rfl, hmark, hturn⟩)
    · exact ⟨[], flooder, rfl, hmark, hturn⟩
    · refine ⟨g :: pre, post, rfl, hmark, hturn.imp_right fun hfull ↦ ?_⟩
      rw [List.countP_cons]
      omega

theorem struck_congr (h : ∀ f ∈ flooder, new f = new' f) : Struck new k flooder f ↔ Struck new' k flooder f := by
  have himp {new new' : Flooders → Bool} (h : ∀ f ∈ flooder, new f = new' f) (hs : Struck new k flooder f) :
      Struck new' k flooder f := by
    rcases hs with ⟨pre, post, rfl, hmark, hturn⟩
    refine ⟨pre, post, rfl, hmark, hturn.imp (fun hnew ↦ ?_) fun hfull ↦ ?_⟩
    · rw [← h f (List.mem_append_right _ List.mem_cons_self), hnew]
    · have hcount : pre.countP new = pre.countP new' :=
        List.countP_congr fun g hg ↦ by rw [h g (List.mem_append_left _ hg)]
      rwa [← hcount]
  exact ⟨himp h, himp fun f hf ↦ (h f hf).symm⟩

/-- Once the list is full it stays full. -/
theorem struck_full {k' : ℕ} (hk : maxAkills ≤ k) (hk' : maxAkills ≤ k') :
    Struck new k flooder f ↔ Struck new k' flooder f := by
  have himp {k k' : ℕ} (hk' : maxAkills ≤ k') (hs : Struck new k flooder f) : Struck new k' flooder f := by
    rcases hs with ⟨pre, post, hsplit, hmark, -⟩
    exact ⟨pre, post, hsplit, hmark, .inr (by omega)⟩
  exact ⟨himp hk', himp hk⟩

end Struck

/-! ### The loop over the hosts -/

section Offenders

variable {conf : Settings} {serverName : CString} {now expires : ℤ} {f g : Flooders} {flooder : List Flooders}
  {akills : List AkillRow} {s : AkillState}

theorem strlower_akillMask (host : CString) : strlower (akillMask host) = akillMask (strlower host) := rfl

/-- What `add_akill` does for a host that is not marked. -/
theorem addAkill_offender (akills : List AkillRow) (now expires : ℤ) (reason : CString)
    (hmark : f.akilled = false) :
    (maxAkills ≤ akills.length ∧
      addAkill (akillMask f.host) reason sFloodServ now expires akills = (false, akills)) ∨
    (akills.length < maxAkills ∧ newlyAkilled akills f = false ∧
      addAkill (akillMask f.host) reason sFloodServ now expires akills = (true, akills)) ∨
    akills.length < maxAkills ∧ newlyAkilled akills f = true ∧
      ∃ r, addAkill (akillMask f.host) reason sFloodServ now expires akills = (false, akills ++ [r]) ∧
        r.mask = strlower (akillMask f.host) := by
  dsimp only [addAkill]
  rw [newlyAkilled, hmark]
  split_ifs with hfull hany
  · exact .inl ⟨hfull, rfl⟩
  · exact .inr (.inl ⟨not_le.mp hfull, by simp [hany], rfl⟩)
  · exact .inr (.inr ⟨not_le.mp hfull, by simpa using hany, _, rfl, rfl⟩)

/-- The akill of one host is none of another. -/
theorem newlyAkilled_append {r : AkillRow} (hr : r.mask = strlower (akillMask f.host))
    (hdiffer : stricmp f.host g.host ≠ 0) : newlyAkilled (akills ++ [r]) g = newlyAkilled akills g := by
  have hother : sameName r.mask (strlower (akillMask g.host)) = false := by
    by_contra hsame
    rw [Bool.not_eq_false, sameName_iff_strlower, hr, strlower_strlower, strlower_strlower, strlower_akillMask,
      strlower_akillMask] at hsame
    refine hdiffer ((stricmp_eq_zero_iff _ _).mpr ?_)
    simpa [akillMask, strlower] using hsame
  rw [newlyAkilled, newlyAkilled, List.any_append, List.any_cons, List.any_nil, hother, Bool.or_false,
    Bool.or_false]

/-- What happens for one host. -/
theorem addOffender_eq (hwall : conf.wallOSAkill = false) (hrest : s.online.Resting) (serverName : CString)
    (now expires : ℤ) (f : Flooders) :
    let added := addAkill (akillMask f.host) conf.floodServAkillReason sFloodServ now expires s.akills
    ∃ s' l, addOffender conf serverName now expires f s = some s' ∧ s'.akills = added.2 ∧ s'.online.Resting ∧
      s'.online.host = s.online.host ∧ Killed s.online l s'.online ∧
      ∀ a user, (a, user) ∈ l ↔ s.online.table.userlist.val a = some user ∧
        (added.1 = false ∧ conf.immediatelySendAkill = false) ∧ stricmp (s.online.host a) f.host = 0 := by
  intro added
  by_cases hkill : added.1 = false ∧ conf.immediatelySendAkill = false
  · have hhit : ∀ s' : Online, s'.host = s.online.host → s'.username = s.online.username →
        ∀ (a : ℕ) (_ : TableUser), some (decide (stricmp (s'.host a) f.host = 0)) =
          some (decide (stricmp (s.online.host a) f.host = 0)) := by
      intro s' hhost _ a _
      rw [hhost]
    rcases hrest.killWhere_eq serverName (some sFloodServ) (fun _ ↦ conf.floodServAkillReason) hhit with
      ⟨online, hwalk, hrest', hkilled, hhost⟩
    refine ⟨{ s with akills := added.2, online := online, u := .null }, _, ?_, rfl, hrest', hhost, hkilled, ?_⟩
    · unfold addOffender
      simp only [hwall]
      rw [if_pos hkill, killHost, hwalk]
      rfl
    · intro a user
      rw [hrest.mem_those, and_iff_right hkill, decide_eq_true_iff]
  · refine ⟨{ s with akills := added.2 }, [], ?_, rfl, hrest, rfl, .refl _, ?_⟩
    · unfold addOffender
      simp only [hwall]
      rw [if_neg hkill]
      rfl
    · intro a user
      exact iff_of_false List.not_mem_nil fun h ↦ hkill h.2.1

/-- The host is struck if and only if `add_akill` does not say that it has an akill. -/
theorem addAkill_fst_iff (reason : CString) (hmark : f.akilled = false) :
    (addAkill (akillMask f.host) reason sFloodServ now expires akills).1 = false ↔
      newlyAkilled akills f = true ∨ maxAkills ≤ akills.length := by
  rcases addAkill_offender akills now expires reason hmark with
    ⟨hfull, heq⟩ | ⟨hroom, hold, heq⟩ | ⟨hroom, hnew, r, heq, -⟩
  · rw [heq]
    exact iff_of_true rfl (.inr hfull)
  · rw [heq, hold]
    refine iff_of_false Bool.noConfusion fun h ↦ h.elim Bool.noConfusion fun hfull ↦ ?_
    exact absurd hroom (not_lt.mpr hfull)
  · rw [heq]
    exact iff_of_true rfl (.inl hnew)

/-- The rest of the hosts are struck as they were before the akill of this one. -/
theorem struck_rest (reason : CString) (hmark : g.akilled = false)
    (hdiffer : ∀ f ∈ flooder, stricmp g.host f.host ≠ 0) :
    let after := (addAkill (akillMask g.host) reason sFloodServ now expires akills).2
    Struck (newlyAkilled after) after.length flooder f ↔
      Struck (newlyAkilled akills) (akills.length + if newlyAkilled akills g then 1 else 0) flooder f := by
  intro after
  rcases addAkill_offender akills now expires reason hmark with
    ⟨hfull, heq⟩ | ⟨-, hold, heq⟩ | ⟨-, hnew, r, heq, hr⟩
  · rw [show after = akills from congrArg Prod.snd heq]
    exact struck_full hfull (by omega)
  · rw [show after = akills from congrArg Prod.snd heq, hold]
    rfl
  · rw [show after = akills ++ [r] from congrArg Prod.snd heq, hnew, List.length_append]
    exact struck_congr fun f hf ↦ newlyAkilled_append hr (hdiffer f hf)

/-- The akills that are added after this one. -/
theorem rows_cons (reason : CString) (hmark : g.akilled = false)
    (hdiffer : ∀ f ∈ flooder, stricmp g.host f.host ≠ 0) {final rows : List AkillRow} :
    let after := (addAkill (akillMask g.host) reason sFloodServ now expires akills).2
    final = after ++ rows →
    rows.map AkillRow.mask = ((flooder.filter (newlyAkilled after)).take (maxAkills - after.length)).map
      (fun f ↦ strlower (akillMask f.host)) →
    ∃ rows', final = akills ++ rows' ∧ rows'.map AkillRow.mask =
      (((g :: flooder).filter (newlyAkilled akills)).take (maxAkills - akills.length)).map
        fun f ↦ strlower (akillMask f.host) := by
  intro after hfinal hrows
  rcases addAkill_offender akills now expires reason hmark with
    ⟨hfull, heq⟩ | ⟨hroom, hold, heq⟩ | ⟨hroom, hnew, r, heq, hr⟩
  · rw [show after = akills from congrArg Prod.snd heq] at hfinal hrows
    refine ⟨rows, hfinal, ?_⟩
    have hzero : maxAkills - akills.length = 0 := by omega
    rw [hrows, hzero, List.take_zero, List.take_zero]
  · rw [show after = akills from congrArg Prod.snd heq] at hfinal hrows
    refine ⟨rows, hfinal, ?_⟩
    rw [hrows, List.filter_cons_of_neg (by simp [hold])]
  · have hafter : after = akills ++ [r] := congrArg Prod.snd heq
    have hfilter : flooder.filter (newlyAkilled after) = flooder.filter (newlyAkilled akills) := by
      rw [hafter]
      exact List.filter_congr fun f hf ↦ newlyAkilled_append hr (hdiffer f hf)
    have hone : maxAkills - akills.length = maxAkills - after.length + 1 := by
      rw [hafter, List.length_append, List.length_singleton]
      omega
    refine ⟨r :: rows, by rw [hfinal, hafter, List.append_assoc, List.singleton_append], ?_⟩
    rw [List.filter_cons_of_pos hnew, hone, List.take_succ_cons, List.map_cons, List.map_cons, hrows, hfilter, hr]

/-- What the loop does: as many of the new hosts as there is room for get an akill, and the users on the
hosts that are struck are killed. -/
theorem addOffenders_eq (hwall : Unannounced conf flooder) (hdiffer : HostsDiffer flooder)
    (hrest : s.online.Resting) (serverName : CString) (now expires : ℤ) :
    ∃ s' l, addOffenders conf serverName now expires flooder s = some s' ∧
      (∃ rows, s'.akills = s.akills ++ rows ∧ rows.map AkillRow.mask =
        ((flooder.filter (newlyAkilled s.akills)).take (maxAkills - s.akills.length)).map
          fun f ↦ strlower (akillMask f.host)) ∧
      Killed s.online l s'.online ∧
      ∀ a user, (a, user) ∈ l ↔ s.online.table.userlist.val a = some user ∧
        conf.immediatelySendAkill = false ∧ ∃ f, Struck (newlyAkilled s.akills) s.akills.length flooder f ∧
          stricmp (s.online.host a) f.host = 0 := by
  induction flooder generalizing s with
  | nil =>
    refine ⟨s, [], rfl, ⟨[], (List.append_nil _).symm, by simp⟩, .refl _, fun a user ↦ ?_⟩
    refine iff_of_false List.not_mem_nil ?_
    rintro ⟨-, -, f, hstruck, -⟩
    exact struck_nil hstruck
  | cons g flooder ih =>
    rw [HostsDiffer, List.pairwise_cons] at hdiffer
    have hwall' : Unannounced conf flooder := fun h f hf ↦ hwall h f (List.mem_cons_of_mem _ hf)
    rw [addOffenders, List.foldlM_cons]
    cases hmark : g.akilled with
    | true =>
      have hold : newlyAkilled s.akills g = false := by rw [newlyAkilled, hmark]; rfl
      rcases ih hwall' hdiffer.2 hrest with ⟨s', l, hloop, hrows, hkilled, hl⟩
      refine ⟨s', l, hloop, ?_, hkilled, fun a user ↦ ?_⟩
      · rw [List.filter_cons_of_neg (by simp [hold])]
        exact hrows
      · rw [hl]
        refine and_congr_right fun _ ↦ and_congr_right fun _ ↦ exists_congr fun f ↦ and_congr_left fun _ ↦ ?_
        rw [struck_cons, hold]
        exact (or_iff_right fun h ↦ Bool.noConfusion (hmark.symm.trans h.2.1)).symm
    | false =>
      have hquiet : conf.wallOSAkill = false := by
        by_contra hloud
        have hall := hwall (Bool.not_eq_false _ ▸ hloud) g List.mem_cons_self
        rw [hmark] at hall
        cases hall
      rcases addOffender_eq hquiet hrest serverName now expires g with
        ⟨s₁, l₁, hstep, hakills, hrest₁, hhost, hkilled₁, hl₁⟩
      rcases ih hwall' hdiffer.2 hrest₁ with ⟨s', l, hloop, ⟨rows, hrows, hmasks⟩, hkilled, hl⟩
      rw [hakills] at hrows hmasks hl
      refine ⟨s', l₁ ++ l, ?_, rows_cons _ hmark hdiffer.1 hrows hmasks, hkilled₁.trans hkilled, fun a user ↦ ?_⟩
      · simp only [Bool.false_eq_true, if_false, Option.bind_eq_bind, hstep, Option.bind_some]
        exact hloop
      · have hrow : (∃ f, Struck (newlyAkilled s.akills) s.akills.length (g :: flooder) f ∧
            stricmp (s.online.host a) f.host = 0) ↔
            ((newlyAkilled s.akills g = true ∨ maxAkills ≤ s.akills.length) ∧
              stricmp (s.online.host a) g.host = 0) ∨
            ∃ f, Struck (newlyAkilled s.akills) (s.akills.length + if newlyAkilled s.akills g then 1 else 0)
              flooder f ∧ stricmp (s.online.host a) f.host = 0 := by
          simp only [struck_cons, or_and_right, exists_or, hmark, true_and, and_assoc, exists_eq_left]
        have hlater : (a, user) ∈ l ↔ (s.online.table.userlist.val a = some user ∧ (a, user) ∉ l₁) ∧
            conf.immediatelySendAkill = false ∧ ∃ f, Struck (newlyAkilled s.akills)
              (s.akills.length + if newlyAkilled s.akills g then 1 else 0) flooder f ∧
                stricmp (s.online.host a) f.host = 0 := by
          rw [hl, hhost, hkilled₁.val_eq_some_iff]
          refine and_congr_right fun _ ↦ and_congr_right fun _ ↦ exists_congr fun f ↦ and_congr_left fun _ ↦ ?_
          exact struck_rest _ hmark hdiffer.1
        have hfirst := hl₁ a user
        rw [addAkill_fst_iff _ hmark] at hfirst
        rw [List.mem_append, hlater, hrow]
        constructor
        · rintro (hmem | ⟨⟨huser, -⟩, himmediate, hstruck⟩)
          · rcases hfirst.mp hmem with ⟨huser, ⟨hnow, himmediate⟩, hhost⟩
            exact ⟨huser, himmediate, .inl ⟨hnow, hhost⟩⟩
          · exact ⟨huser, himmediate, .inr hstruck⟩
        · rintro ⟨huser, himmediate, ⟨hnow, hhost⟩ | hstruck⟩
          · exact .inl (hfirst.mpr ⟨huser, ⟨hnow, himmediate⟩, hhost⟩)
          · by_cases hmem : (a, user) ∈ l₁
            · exact .inl hmem
            · exact .inr ⟨⟨huser, hmem⟩, himmediate, hstruck⟩

/-- With `WallOSAkill` the first host that is not marked leads to a read through a bad pointer. -/
theorem addOffenders_eq_none (hwall : conf.wallOSAkill = true) (hu : ∀ a, s.u ≠ .user a)
    (hunmarked : ∃ f ∈ flooder, f.akilled = false) (serverName : CString) (now expires : ℤ) :
    addOffenders conf serverName now expires flooder s = none := by
  have hread (s : AkillState) (hu : ∀ a, s.u ≠ .user a) : expiresInLang s = none := by
    rw [expiresInLang]
    cases hpointer : s.u with
    | unset => rfl
    | null => rfl
    | user a => exact absurd hpointer (hu a)
  have hstep (f : Flooders) : addOffender conf serverName now expires f s = none := by
    unfold addOffender
    simp only [hwall, if_true]
    split_ifs
    · cases killHost serverName conf.floodServAkillReason f.host s.online with
      | none => rfl
      | some online =>
        rw [Option.map_some, Option.bind_some, hread _ fun a ↦ UserPointer.noConfusion]
        rfl
    · rw [Option.bind_some, hread]
      · rfl
      · exact hu
  induction flooder with
  | nil =>
    rcases hunmarked with ⟨f, hf, -⟩
    cases hf
  | cons g flooder ih =>
    rw [addOffenders, List.foldlM_cons]
    cases hmark : g.akilled with
    | false =>
      rw [if_neg Bool.false_ne_true, hstep]
      rfl
    | true =>
      refine ih ?_
      rcases hunmarked with ⟨f, hf, hfmark⟩
      rcases List.mem_cons.mp hf with rfl | hf
      · rw [hmark] at hfmark
        cases hfmark
      · exact ⟨f, hf, hfmark⟩

theorem HostsDiffer.eq_of_host (h : HostsDiffer flooder) (hf : f ∈ flooder) (hg : g ∈ flooder)
    (hhost : stricmp f.host g.host = 0) : f = g := by
  by_contra hne
  have hsymm : Std.Symm fun f g : Flooders ↦ stricmp f.host g.host ≠ 0 := by
    refine ⟨fun f g hfg hgf ↦ ?_⟩
    exact hfg ((stricmp_eq_zero_iff _ _).mpr ((stricmp_eq_zero_iff _ _).mp hgf).symm)
  exact List.Pairwise.forall h hf hg hne hhost

/-- As many rows as there are new hosts. -/
theorem akilled_iff {rows final : List AkillRow} (hfinal : final = akills ++ rows)
    (hrows : rows.map AkillRow.mask =
      ((flooder.filter (newlyAkilled akills)).take (maxAkills - akills.length)).map
        fun f ↦ strlower (akillMask f.host)) :
    (∃ rows, final = akills ++ rows ∧ rows.map AkillRow.mask =
      (flooder.filter (newlyAkilled akills)).map fun f ↦ strlower (akillMask f.host)) ↔
      HasRoom flooder akills := by
  rw [HasRoom, List.countP_eq_length_filter]
  constructor
  · rintro ⟨rows', hfinal', hrows'⟩
    obtain rfl := List.append_cancel_left (hfinal.symm.trans hfinal')
    have hlength := congrArg List.length (hrows.symm.trans hrows')
    rw [List.length_map, List.length_map, List.length_take] at hlength
    omega
  · intro hroom
    refine ⟨rows, hfinal, ?_⟩
    rw [hrows, List.take_of_length_le (by omega)]

/-- For every record, whose hosts differ, and every setting: the new hosts get their akills, everybody on them
is killed and nobody else, and no bad pointer is followed, if and only if nothing is announced, the akills
have room, and nobody is online on a host that has an akill and comes when the list is full. -/
theorem fsAddAkill_serves_iff (conf : Settings) (serverName : CString) (now expires : ℤ) {online : Online}
    (hdiffer : HostsDiffer flooder) (hrest : online.Resting) (akills : List AkillRow) :
    Serves conf flooder online akills (fsAddAkillUsers conf serverName now expires flooder online akills) ↔
      Unannounced conf flooder ∧ HasRoom flooder akills ∧
        (conf.immediatelySendAkill = false → ∀ f, ComesLate flooder akills f → ∀ a user,
          online.table.userlist.val a = some user → stricmp (online.host a) f.host ≠ 0) := by
  by_cases hwall : Unannounced conf flooder
  · rw [and_iff_right hwall]
    rcases addOffenders_eq (s := ⟨online, akills, .unset, []⟩) hwall hdiffer hrest serverName now expires with
      ⟨s, l, hloop, ⟨rows, hfinal, hrows⟩, hkilled, hl⟩
    dsimp only at hfinal hrows hkilled hl
    rw [fsAddAkillUsers, hloop, Option.map_some, ← akilled_iff hfinal hrows]
    constructor
    · rintro ⟨_, _, hsome, hserves⟩
      obtain ⟨rfl, rfl⟩ := Prod.mk.inj (Option.some.inj hsome)
      refine ⟨hserves.akilled, fun himmediate f hlate a user huser hhost ↦ ?_⟩
      rcases hlate with ⟨pre, post, hsplit, hmark, hold, hfull⟩
      rcases hserves.killed himmediate with ⟨l', hkilled', hl'⟩
      have hmem : (a, user) ∈ l :=
        (hl a user).mpr ⟨huser, himmediate, f, ⟨pre, post, hsplit, hmark, .inr hfull⟩, hhost⟩
      have hmem' := hkilled'.mem_iff.mpr (hkilled.mem_iff.mp hmem)
      rcases ((hl' a user).mp hmem').2 with ⟨g, hg, hnew, hghost⟩
      have hf : f ∈ flooder := hsplit ▸ List.mem_append_right _ List.mem_cons_self
      have hsame : stricmp f.host g.host = 0 := by
        rw [stricmp_eq_zero_iff] at hhost hghost ⊢
        exact hhost.symm.trans hghost
      rw [hdiffer.eq_of_host hf hg hsame, hnew] at hold
      cases hold
    · rintro ⟨hakilled, hlate⟩
      refine ⟨s, _, rfl, hakilled, fun himmediate ↦ ⟨l, hkilled, fun a user ↦ ?_⟩, rfl⟩
      rw [hl, and_iff_right himmediate]
      refine and_congr_right fun huser ↦ ⟨?_, ?_⟩
      · rintro ⟨f, ⟨pre, post, hsplit, hmark, hturn⟩, hhost⟩
        refine ⟨f, hsplit ▸ List.mem_append_right _ List.mem_cons_self, ?_, hhost⟩
        by_contra hold
        have hfull := hturn.resolve_left hold
        exact hlate himmediate f ⟨pre, post, hsplit, hmark, Bool.not_eq_true _ ▸ hold, hfull⟩ a user huser hhost
      · rintro ⟨f, hf, hnew, hhost⟩
        rcases List.append_of_mem hf with ⟨pre, post, hsplit⟩
        have hmark : f.akilled = false := by
          rw [newlyAkilled, Bool.and_eq_true, Bool.not_eq_true'] at hnew
          exact hnew.1
        exact ⟨f, ⟨pre, post, hsplit, hmark, .inl hnew⟩, hhost⟩
  · refine iff_of_false ?_ fun h ↦ hwall h.1
    rintro ⟨s, flooder', hsome, -⟩
    simp only [Unannounced, Classical.not_imp, not_forall, Bool.not_eq_true] at hwall
    rcases hwall with ⟨hloud, f, hf, hmark⟩
    rw [fsAddAkillUsers, addOffenders_eq_none hloud (fun a ↦ UserPointer.noConfusion) ⟨f, hf, hmark⟩] at hsome
    cases hsome

end Offenders

/-- Akills are neither sent at once nor announced. -/
def quietSettings : Settings where
  floodServAkillExpiry := 3600
  floodServAkillReason := "Flooding".toList
  floodServTFNumLines := 3
  floodServTFSec := 10
  floodServTFNLWarned := 2
  floodServTFSecWarned := 60
  floodServWarnFirst := true
  floodServWarnMsg := "Do not flood".toList
  immediatelySendAkill := false
  wallOSAkill := false

/-- A host that said a text. -/
def oneFlooder : List Flooders :=
  [⟨"[a".toList, "a.example".toList, false⟩]

theorem fsAddAkill_serves_quiet : Serves quietSettings oneFlooder (onHosts bracketUser) []
    (fsAddAkillUsers quietSettings "services.example".toList 1000 4600 oneFlooder (onHosts bracketUser) []) := by
  refine (fsAddAkill_serves_iff _ _ _ _ (List.pairwise_singleton _ _) resting_bracketUser _).mpr ⟨?_, ?_, ?_⟩
  · exact fun h ↦ Bool.noConfusion h
  · exact .inr (by decide +kernel)
  · rintro - f ⟨pre, post, hsplit, -, -, hfull⟩
    have hlength := congrArg List.length hsplit
    rw [List.length_singleton, List.length_append, List.length_cons] at hlength
    have hcount := (List.countP_le_length (p := newlyAkilled []) (l := pre)).trans (show pre.length ≤ 0 by omega)
    rw [List.length_nil, maxAkills] at hfull
    omega

/-- The akill on the host of `[a` is to be announced. -/
theorem not_fsAddAkill_serves : ¬ ∀ (conf : Settings) (flooder : List Flooders) (online : Online)
    (akills : List AkillRow), HostsDiffer flooder → online.Resting → Serves conf flooder online akills
      (fsAddAkillUsers conf "services.example".toList 1000 4600 flooder online akills) := by
  intro h
  rcases h { quietSettings with wallOSAkill := true } oneFlooder (onHosts bracketUser) []
    (List.pairwise_singleton _ _) resting_bracketUser with ⟨s, flooder', hsome, -⟩
  have hunmarked : ∃ f ∈ oneFlooder, f.akilled = false := ⟨_, List.mem_cons_self, rfl⟩
  rw [fsAddAkillUsers, addOffenders_eq_none rfl (fun a ↦ UserPointer.noConfusion) hunmarked] at hsome
  cases hsome

end BlitzedServices.FloodServ
