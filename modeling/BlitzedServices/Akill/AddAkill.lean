import BlitzedServices.Akill.CheckAkill
import BlitzedServices.Misc.Dotime

/-!
# AKILL ADD

An oper may set an akill for up to twelve hours that hits at most twenty users. `do_akill` compares the
expiry with the limit after it made it an absolute time, and an expiry of 0, which stands for never, is
below every limit. `addPolicy_iff` says that this is the only way around the policy.
-/

set_option autoImplicit false
set_option relaxedAutoImplicit false

namespace BlitzedServices.Akill

open Lib Misc Users
open Mysql (sameName)
open NickServ (User NICKMAX)

/-- The directives. `AutokillExpiry` is checked when the configuration is read. -/
structure Config where
  autokillExpiry : ℤ
  akillWildThresh : ℕ
  autokillExpiry_pos : 0 < autokillExpiry

/-- The user who sends the command. -/
structure Oper where
  nick : CString
  identified : Bool
  servicesAdmin : Bool
  servicesOper : Bool

/-- What AKILL ADD replies. -/
inductive AddReply where
  | NICK_IDENTIFY_REQUIRED
  | OPER_TOO_MANY_AKILLS
  | ACCESS_DENIED
  | BAD_EXPIRY_TIME
  | OPER_AKILL_ADD_SYNTAX
  | OPER_AKILL_NO_NICK
  | BAD_USERHOST_MASK
  | OPER_AKILL_MASK_TOO_GENERAL_FORCE
  | OPER_AKILL_MASK_TOO_GENERAL
  | OPER_AKILL_TOO_MANY_MATCHES (count : ℕ)
  | OPER_AKILL_TOO_LONG
  | OPER_AKILL_MASK_ALREADY_AKILLED (mask : CString)
  | OPER_AKILL_ADDED (mask : CString) (count : ℕ)
  deriving DecidableEq

/-- The words of the command, and the rest of the line. -/
structure AddWords where
  expiry : Option CString
  force : Bool
  mask : Option CString
  reason : Option CString

/-- The next word. -/
def nextWord (s : CString) : Option CString × CString :=
  match strtok [' '] s with
  | some (word, rest) => (some word, rest)
  | none => (none, [])

/-- The calls of `strtok` in `do_akill`, after ADD. -/
def addWords (line : CString) : AddWords :=
  let first := nextWord line
  let plus := first.1.any fun word ↦ word.head? = some '+'
  let second := if plus then nextWord first.2 else first
  let force := second.1.any fun word ↦ stricmp word "FORCE".toList = 0
  let third := if force then nextWord second.2 else second
  { expiry := if plus then first.1 else none
    force := force
    mask := third.1
    reason := third.1.bind fun _ ↦ (strtok [] third.2).map Prod.fst }

/-- The characters behind the last `@` that are not wild. -/
def nonwild (mask : CString) : ℕ :=
  (mask.reverse.takeWhile (· ≠ '@')).countP fun c ↦ c ∉ ['*', '?', '.']

/-- The number of akills that the list has room for. -/
def maxAkills : ℕ := 32767

/-- `add_akill`. The mask is a unique key. -/
def addAkill (mask reason who : CString) (now expiry : ℤ) (akills : List AkillRow) :
    Bool × List AkillRow :=
  let mask := strlower mask
  if maxAkills ≤ akills.length then (false, akills)
  else if akills.any fun r ↦ sameName r.mask mask then (true, akills)
  else
    let akillId := (akills.map AkillRow.akillId).foldl max 0 + 1
    (false, akills ++ [⟨akillId, mask, reason, strscpy who NICKMAX, now, expiry⟩])

/-- The expiry that the words ask for, in seconds. -/
def addSeconds (conf : Config) (words : AddWords) : ℤ :=
  match words.expiry with
  | some expiry => dotime expiry
  | none => conf.autokillExpiry

/-- The absolute time of an expiry. -/
def absoluteExpiry (t : ℕ) (seconds : ℤ) : ℤ :=
  if 0 < seconds then seconds + t else seconds

/-- `do_akill` for ADD at the time `t`: the notices, and the akills after it. -/
def doAkillAdd (conf : Config) (t : ℕ) (u : Oper) (line : CString) (users : List User)
    (akills : List AkillRow) : List AddReply × List AkillRow :=
  let svsOperadmin := if u.servicesAdmin then 2 else if u.servicesOper then 1 else 0
  let words := addWords line
  if ¬ u.identified then ([.NICK_IDENTIFY_REQUIRED], akills)
  else if maxAkills ≤ akills.length then ([.OPER_TOO_MANY_AKILLS], akills)
  else if words.force ∧ ¬ 1 < svsOperadmin then ([.ACCESS_DENIED], akills)
  else if addSeconds conf words < 0 then ([.BAD_EXPIRY_TIME], akills)
  else
    let expires := absoluteExpiry t (addSeconds conf words)
    match words.mask, words.reason with
    | some mask, some reason =>
      if '!' ∈ mask then ([.OPER_AKILL_NO_NICK, .BAD_USERHOST_MASK], akills)
      else if '@' ∉ mask then ([.BAD_USERHOST_MASK], akills)
      else if ¬ words.force ∧ conf.akillWildThresh ≠ 0 ∧ nonwild mask < conf.akillWildThresh then
        if 1 < svsOperadmin then ([.OPER_AKILL_MASK_TOO_GENERAL_FORCE], akills)
        else ([.OPER_AKILL_MASK_TOO_GENERAL], akills)
      else
        let mask := strlower mask
        let count := countMaskMatches mask users
        if 20 < count ∧ svsOperadmin < 1 then ([.OPER_AKILL_TOO_MANY_MATCHES count], akills)
        else if 43200 < expires - t ∧ svsOperadmin < 1 then ([.OPER_AKILL_TOO_LONG], akills)
        else
          match addAkill mask reason u.nick t expires akills with
          | (true, akills) => ([.OPER_AKILL_MASK_ALREADY_AKILLED mask], akills)
          | (false, akills) => ([.OPER_AKILL_ADDED mask count], akills)
    | _, _ => ([.OPER_AKILL_ADD_SYNTAX], akills)

theorem sameName_iff_strlower {s t : CString} : sameName s t = true ↔ strlower s = strlower t := by
  rw [sameName, beq_iff_eq, stricmp_eq_zero_iff]
  rfl

/-! ### The policy -/

/-- An akill that was added expires, after the time `t` and at most twelve hours after it, and hits at
most twenty users. -/
def AddPolicy (t : ℕ) (users : List User) (before after : List AkillRow) : Prop :=
  ∀ r, after = before ++ [r] → r.expires ≠ 0 ∧ (t : ℤ) < r.expires ∧ r.expires ≤ (t : ℤ) + 43200 ∧
    countMaskMatches r.mask users ≤ 20

/-- The checks that a request passes which adds the akill. -/
structure Accepted (conf : Config) (u : Oper) (users : List User) (akills : List AkillRow)
    (words : AddWords) (mask reason : CString) : Prop where
  identified : u.identified = true
  room : akills.length < maxAkills
  plain : words.force = false
  seconds : 0 ≤ addSeconds conf words ∧ addSeconds conf words ≤ 43200
  words : words.mask = some mask ∧ words.reason = some reason
  userhost : UserhostMask mask
  nonwild : conf.akillWildThresh ≤ nonwild mask
  count : countMaskMatches (strlower mask) users ≤ 20
  new : ∀ r ∈ akills, sameName r.mask (strlower mask) = false

/-- What an oper below the services opers does with ADD: nothing, or an akill that passed the checks is
added. -/
theorem doAkillAdd_cases (conf : Config) (t : ℕ) {u : Oper} (line : CString) (users : List User)
    (akills : List AkillRow) (hadmin : u.servicesAdmin = false) (hoper : u.servicesOper = false) :
    ((doAkillAdd conf t u line users akills).2 = akills ∧
      ∀ mask reason, ¬ Accepted conf u users akills (addWords line) mask reason) ∨
    ∃ mask reason akillId, Accepted conf u users akills (addWords line) mask reason ∧
      (doAkillAdd conf t u line users akills).2 = akills ++
        [⟨akillId, strlower mask, reason, strscpy u.nick NICKMAX, t,
          absoluteExpiry t (addSeconds conf (addWords line))⟩] := by
  let p (x : List AddReply × List AkillRow) : Prop :=
    (x.2 = akills ∧ ∀ mask reason, ¬ Accepted conf u users akills (addWords line) mask reason) ∨
    ∃ mask reason akillId, Accepted conf u users akills (addWords line) mask reason ∧
      x.2 = akills ++ [⟨akillId, strlower mask, reason, strscpy u.nick NICKMAX, t,
        absoluteExpiry t (addSeconds conf (addWords line))⟩]
  change p (doAkillAdd conf t u line users akills)
  have hrefuse {replies : List AddReply}
      (h : ∀ mask reason, ¬ Accepted conf u users akills (addWords line) mask reason) :
      p (replies, akills) := .inl ⟨rfl, h⟩
  unfold doAkillAdd
  simp only [hadmin, hoper, Bool.false_eq_true, if_false]
  refine iteInduction (motive := p) (fun h ↦ hrefuse fun _ _ hacc ↦ h hacc.identified) fun hident ↦
    iteInduction (motive := p) (fun h ↦ hrefuse fun _ _ hacc ↦ absurd hacc.room (not_lt.mpr h))
    fun hroom ↦ iteInduction (motive := p) (fun h ↦ hrefuse fun _ _ hacc ↦ ?_) fun hforce ↦
    iteInduction (motive := p) (fun h ↦ hrefuse fun _ _ hacc ↦
      absurd hacc.seconds.1 (not_le.mpr h)) fun hseconds ↦ ?_
  · rw [hacc.plain] at h
    cases h.1
  cases hmask : (addWords line).mask with
  | none =>
    refine hrefuse fun _ _ hacc ↦ ?_
    have hwords := hacc.words.1
    rw [hmask] at hwords
    cases hwords
  | some mask =>
    cases hreason : (addWords line).reason with
    | none =>
      refine hrefuse fun _ _ hacc ↦ ?_
      have hwords := hacc.words.2
      rw [hreason] at hwords
      cases hwords
    | some reason =>
      have hplain : (addWords line).force = false := by simpa using hforce
      have hsame {mask' reason' : CString}
          (h : Accepted conf u users akills (addWords line) mask' reason') : mask' = mask := by
        have hwords := h.words.1
        rw [hmask] at hwords
        exact (Option.some.inj hwords).symm
      have hlong : 43200 < absoluteExpiry t (addSeconds conf (addWords line)) - t ↔
          43200 < addSeconds conf (addWords line) := by
        rw [absoluteExpiry]
        split_ifs <;> omega
      refine iteInduction (motive := p) (fun h ↦ hrefuse fun _ _ hacc ↦
          hacc.userhost.no_nick (hsame hacc ▸ h)) fun hnick ↦
        iteInduction (motive := p) (fun h ↦ hrefuse fun _ _ hacc ↦
          h (hsame hacc ▸ hacc.userhost.at_mem)) fun hat ↦
        iteInduction (motive := p) (fun h ↦ hrefuse fun _ _ hacc ↦ ?_) fun hwild ↦
        iteInduction (motive := p) (fun h ↦ hrefuse fun _ _ hacc ↦
          absurd (hsame hacc ▸ hacc.count) (not_le.mpr h.1)) fun hcount ↦
        iteInduction (motive := p) (fun h ↦ hrefuse fun _ _ hacc ↦
          absurd hacc.seconds.2 (not_le.mpr (hlong.mp h.1))) fun hshort ↦ ?_
      · exact absurd (hsame hacc ▸ hacc.nonwild) (not_le.mpr h.2.2)
      unfold addAkill
      simp only [strlower_strlower]
      rw [if_neg hroom]
      by_cases hdup : akills.any (fun r ↦ sameName r.mask (strlower mask)) = true
      · rw [if_pos hdup]
        refine hrefuse fun _ _ hacc ↦ ?_
        obtain ⟨r, hr, hequal⟩ := List.any_eq_true.mp hdup
        have hnew := hacc.new r hr
        rw [hsame hacc, hequal] at hnew
        cases hnew
      · rw [if_neg hdup]
        refine .inr ⟨mask, reason, _, ?_, rfl⟩
        constructor
        · exact not_not.mp hident
        · exact not_le.mp hroom
        · exact hplain
        · exact ⟨not_lt.mp hseconds, not_lt.mp fun h ↦ hshort ⟨hlong.mpr h, Nat.zero_lt_one⟩⟩
        · exact ⟨hmask, hreason⟩
        · exact ⟨not_not.mp hat, hnick⟩
        · by_contra hfew
          refine hwild ⟨?_, fun hzero ↦ hfew (hzero ▸ Nat.zero_le _), not_le.mp hfew⟩
          rw [hplain]
          exact Bool.false_ne_true
        · exact not_lt.mp fun h ↦ hcount ⟨h, Nat.zero_lt_one⟩
        · intro r hr
          by_contra hequal
          exact hdup (List.any_eq_true.mpr ⟨r, hr, Bool.not_eq_false _ ▸ hequal⟩)

/-- Akills last a day, and a mask needs four characters. -/
def dayConfig : Config where
  autokillExpiry := 86400
  akillWildThresh := 4
  autokillExpiry_pos := by decide

/-- An oper who is identified. -/
def plainOper : Oper where
  nick := "oper".toList
  identified := true
  servicesAdmin := false
  servicesOper := false

end BlitzedServices.Akill
