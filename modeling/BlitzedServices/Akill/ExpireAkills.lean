import BlitzedServices.Akill.ListAkills
import BlitzedServices.Lib.Separated

/-!
# Expired akills and the network

A server keeps the K-line of an akill until services take it back. `expire_akills` deletes the expired akills
with one query, and sends an UNKLINE for them in the loop that announces them, which `WallAkillExpire` turns
on. Without the directive the table and the network agree only as long as nothing has expired.
-/

set_option autoImplicit false
set_option relaxedAutoImplicit false

namespace BlitzedServices.Akill

open Lib Lib.Separated

/-- What `expire_akills` tells of an akill. -/
inductive ExpireCall where
  | wallops (mask : CString)
  | log (mask : CString)
  | snoop (mask : CString)
  | unkline (username host : CString)
  deriving DecidableEq

/-- The condition of both queries. -/
def AkillRow.Expired (now : ℤ) (r : AkillRow) : Prop :=
  r.expires ≠ 0 ∧ r.expires < now

instance (now : ℤ) (r : AkillRow) : Decidable (r.Expired now) :=
  inferInstanceAs (Decidable (_ ∧ _))

/-- A row in the loop of `expire_akills`. The mask is cut at its first `@`. -/
def announceExpired (mask : CString) : List ExpireCall :=
  [.wallops mask, .log mask, .snoop mask] ++
    if '@' ∈ mask then [.unkline (field '@' mask) (strlower (behind '@' mask))] else []

/-- `expire_akills`: the calls, and the akills after it. -/
def expireAkillsCalls (noexpire wallAkillExpire : Bool) (now : ℤ) (akills : List AkillRow) :
    List ExpireCall × List AkillRow :=
  (if noexpire then []
    else if wallAkillExpire then
      (akills.filter fun r ↦ r.Expired now).flatMap fun r ↦ announceExpired r.mask
    else [],
    expireAkills noexpire now akills)

/-- An UNKLINE for the parts of the mask is among the calls. Hosts are in small letters. -/
def Unklined (calls : List ExpireCall) (mask : CString) : Prop :=
  ∃ username host, mask = username ++ '@' :: host ∧ '@' ∉ username ∧
    .unkline username (strlower host) ∈ calls

/-- The table has lost the expired akills, and the network their K-lines. -/
structure AgreesWithNetwork (now : ℤ) (before : List AkillRow) (after : List ExpireCall × List AkillRow) :
    Prop where
  gone : after.2 = before.filter fun r ↦ ¬ r.Expired now
  unklined : ∀ r ∈ before, r.Expired now → Unklined after.1 r.mask
  only : ∀ username host, .unkline username host ∈ after.1 →
    ∃ r ∈ before, r.Expired now ∧ ∃ host', r.mask = username ++ '@' :: host' ∧ host = strlower host'

/-! ### The calls of a row -/

theorem mask_eq_field {mask : CString} (hat : '@' ∈ mask) :
    mask = field '@' mask ++ '@' :: behind '@' mask ∧ '@' ∉ field '@' mask := by
  rcases exists_field '@' mask with ⟨b, hmask, hend, hbehind, hnot⟩
  refine ⟨?_, hnot⟩
  cases b with
  | nil =>
    rw [List.append_nil] at hmask
    exact absurd (hmask ▸ hat) hnot
  | cons c b =>
    obtain rfl : c = '@' := hend c rfl
    rw [hbehind]
    exact hmask

theorem unkline_mem_announceExpired {mask username host : CString} :
    .unkline username host ∈ announceExpired mask ↔
      '@' ∈ mask ∧ username = field '@' mask ∧ host = strlower (behind '@' mask) := by
  by_cases hat : '@' ∈ mask
  · simp [announceExpired, hat]
  · simp [announceExpired, hat]

theorem unkline_mem_expireAkillsCalls {wall : Bool} {now : ℤ} {akills : List AkillRow}
    {username host : CString} :
    .unkline username host ∈ (expireAkillsCalls false wall now akills).1 ↔
      wall = true ∧ ∃ r ∈ akills, r.Expired now ∧ '@' ∈ r.mask ∧ username = field '@' r.mask ∧
        host = strlower (behind '@' r.mask) := by
  cases wall with
  | false => simp [expireAkillsCalls]
  | true => simp [expireAkillsCalls, unkline_mem_announceExpired, and_assoc]

/-- Every akill that is added keeps an `@` in the masks. -/
theorem at_mem_addAkill {mask reason who : CString} {now expiry : ℤ} {akills : List AkillRow}
    (hmask : '@' ∈ mask) (h : ∀ r ∈ akills, '@' ∈ r.mask) :
    ∀ r ∈ (addAkill mask reason who now expiry akills).2, '@' ∈ r.mask := by
  intro r hr
  dsimp only [addAkill] at hr
  split_ifs at hr
  · exact h r hr
  · exact h r hr
  · rcases List.mem_append.mp hr with hr | hr
    · exact h r hr
    · rw [List.mem_singleton.mp hr]
      exact at_mem_strlower.mpr hmask

/-! ### When table and network agree -/

/-- The table and the network agree if and only if each expired akill has an `@`, and `WallAkillExpire` is
set if there is one. -/
theorem expireAkills_agrees_iff (wall : Bool) (now : ℤ) (akills : List AkillRow) :
    AgreesWithNetwork now akills (expireAkillsCalls false wall now akills) ↔
      ∀ r ∈ akills, r.Expired now → wall = true ∧ '@' ∈ r.mask := by
  constructor
  · intro h r hr hexpired
    rcases h.unklined r hr hexpired with ⟨username, host, hmask, -, hcall⟩
    refine ⟨(unkline_mem_expireAkillsCalls.mp hcall).1, ?_⟩
    rw [hmask]
    exact List.mem_append_right _ List.mem_cons_self
  · intro h
    constructor
    · rfl
    · intro r hr hexpired
      rcases h r hr hexpired with ⟨hwall, hat⟩
      rcases mask_eq_field hat with ⟨hmask, hnot⟩
      exact ⟨_, _, hmask, hnot,
        unkline_mem_expireAkillsCalls.mpr ⟨hwall, r, hr, hexpired, hat, rfl, rfl⟩⟩
    · intro username host hcall
      rcases (unkline_mem_expireAkillsCalls.mp hcall).2 with ⟨r, hr, hexpired, hat, rfl, rfl⟩
      exact ⟨r, hr, hexpired, _, (mask_eq_field hat).1, rfl⟩

/-- An akill that expires at 100 is deleted, and its K-line stays. -/
theorem not_expireAkills_agrees : ¬ ∀ (wall : Bool) (now : ℤ) (akills : List AkillRow),
    AgreesWithNetwork now akills (expireAkillsCalls false wall now akills) := by
  intro h
  have hagrees := h false 200 [⟨1, "*@example.org".toList, [], [], 50, 100⟩]
  rcases hagrees.unklined _ List.mem_cons_self (by decide) with ⟨username, host, -, -, hcall⟩
  cases hcall

end BlitzedServices.Akill
