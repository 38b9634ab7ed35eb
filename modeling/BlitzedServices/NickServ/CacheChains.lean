import BlitzedServices.Lib.CircularList
import BlitzedServices.Lib.Runs
import BlitzedServices.NickServ.World

/-!
# The chains of the nick cache

The cache of `World` with its memory: one circular list for each hash value, through a head whose id is 0,
in the order of the ids. A find stops at the head or at the first id that is not smaller, and an insert
links the new entry in there, so both keep the chains and find what is in them.

`nickcache_del` unlinks the entry after the one it looks for and frees the one before, which may be the
head; for an id larger than all in its chain it goes round for ever. So the chains are kept exactly as long
as no id that is in the cache is inserted again and every deletion is one of an id that is not there, in a
chain that is empty or has a larger one (`nickcache_sound_iff`).
-/

set_option autoImplicit false
set_option relaxedAutoImplicit false

namespace BlitzedServices.NickServ.CacheChains

open Lib Mysql

/-! ### The memory of the cache -/

/-- `HASH`. -/
def HASH (nickId : ℕ) : ℕ := nickId % M

/-- The cells, the heads of the chains, and how many cells have been allocated. -/
structure Cache where
  heap : ℕ → Option (Cell Nickcache)
  nickcacheheads : ℕ → ℕ
  allocated : ℕ

/-- A round of `nickcache_init`. -/
def initHead (s : Cache) (i : ℕ) : Cache where
  heap := Function.update s.heap s.allocated (some ⟨s.allocated, ⟨0, 0#32, 0, 0, 0⟩⟩)
  nickcacheheads := Function.update s.nickcacheheads i s.allocated
  allocated := s.allocated + 1

/-- `nickcache_init`. -/
def nickcacheInit : Cache :=
  (List.range M).foldl initHead ⟨fun _ ↦ none, fun _ ↦ 0, 0⟩

/-- What a SELECT finds of a nick that exists: its status and its language. -/
abbrev Columns := BitVec 32 × ℕ

/-- An entry that has just been read. -/
def entry (nickId : ℕ) (row : Columns) (now : ℕ) : Nickcache :=
  ⟨nickId, row.1, now, row.2, now⟩

/-- `nickcache_insert`, where the SELECT finds `row`. A nick that does not exist costs a cell that is
never freed. -/
def nickcacheInsert (nickId : ℕ) (row : Option Columns) (now : ℕ) (s : Cache) :
    Except Stuck (Option ℕ × Cache) :=
  if nickId = 0 then .error .assertion
  else
    match row with
    | none => .ok (none, { s with allocated := s.allocated + 1 })
    | some row => do
      let new := s.allocated
      let head := s.nickcacheheads (HASH nickId)
      let first ← load s.heap head
      let place ← walkUntil s.heap (fun nc c ↦ nc = head || nickId ≤ c.val.nickId) (s.allocated + 1)
        head first.next
      let c ← load s.heap place.1
      return (some new,
        { s with
          heap := linkAfter place.1 c new (entry nickId row now) s.heap
          allocated := s.allocated + 1 })

/-- `nickcache_find`. -/
def nickcacheFind (nickId : ℕ) (s : Cache) : Except Stuck (Option ℕ) :=
  if nickId = 0 then .error .assertion
  else do
    let head := s.nickcacheheads (HASH nickId)
    let first ← load s.heap head
    let place ← walkUntil s.heap (fun nc c ↦ nc = head || nickId ≤ c.val.nickId) (s.allocated + 1)
      head first.next
    let c ← load s.heap place.2
    return if place.2 = head ∨ nickId < c.val.nickId then none else some place.2

/-- `nickcache_del`: `place` is `z` and `nc` after the loop. -/
def nickcacheDel (nickId : ℕ) (s : Cache) : Except Stuck Cache :=
  if nickId = 0 then .error .assertion
  else do
    let head := s.nickcacheheads (HASH nickId)
    let place ← walkUntil s.heap
      (fun nc c ↦ c.val.nickId = nickId || nc = c.next || nickId < c.val.nickId) (s.allocated + 1)
      head head
    let nc ← load s.heap place.2
    if nc.val.nickId = nickId then
      let after ← load s.heap nc.next
      return { s with
        heap := Function.update (Function.update s.heap place.2 (some ⟨after.next, nc.val⟩))
          place.1 none }
    else return s

/-- `nickcache_update`, where both SELECTs find `row`. -/
def nickcacheUpdate (nickId : ℕ) (row : Option Columns) (now : ℕ) (s : Cache) :
    Except Stuck (Option ℕ × Cache) := do
  let found ← nickcacheFind nickId s
  let (nc, s) ←
    if found.isSome then Except.ok (found, s) else nickcacheInsert nickId row now s
  match row, nc with
  | some row, some nc =>
    let c ← load s.heap nc
    return (some nc,
      { s with
        heap := Function.update s.heap nc
          (some ⟨c.next,
            { c.val with
              status := row.1
              language := row.2
              statusTimestamp := now
              languageTimestamp := now }⟩) })
  | some _, none => .error .fault
  | none, _ =>
    let s ← nickcacheDel nickId s
    return (none, s)

/-- The operations on the cache. -/
inductive Operation where
  | insert (nickId : ℕ) (row : Option Columns) (now : ℕ)
  | find (nickId : ℕ)
  | update (nickId : ℕ) (row : Option Columns) (now : ℕ)
  | del (nickId : ℕ)

def Operation.nickId : Operation → ℕ
  | insert nickId _ _ => nickId
  | find nickId => nickId
  | update nickId _ _ => nickId
  | del nickId => nickId

/-- What an operation makes of the memory. -/
def Operation.run (s : Cache) : Operation → Except Stuck Cache
  | insert nickId row now => Prod.snd <$> nickcacheInsert nickId row now s
  | find nickId => (fun _ ↦ s) <$> nickcacheFind nickId s
  | update nickId row now => Prod.snd <$> nickcacheUpdate nickId row now s
  | del nickId => nickcacheDel nickId s

/-! ### What the cache is for -/

/-- The entries that were inserted and not deleted since. -/
abbrev Contents := ℕ → Option Nickcache

/-- What an operation is for. -/
def Operation.apply (contents : Contents) : Operation → Contents
  | insert nickId row now =>
    row.elim contents fun row ↦ Function.update contents nickId (some (entry nickId row now))
  | find _ => contents
  | update nickId row now =>
    Function.update contents nickId (row.map fun row ↦ entry nickId row now)
  | del nickId => Function.update contents nickId none

/-- A chain is a ring through its head in the order of the ids, of the entries with that hash value. -/
structure IsChain (s : Cache) (contents : Contents) (i : ℕ) (h : Nickcache)
    (l : List (ℕ × Nickcache)) : Prop where
  ring : IsRing s.heap (s.nickcacheheads i) h l
  head : h.nickId = 0
  ascending : Ascending Nickcache.nickId l
  mem : ∀ nc, nc ∈ l.map Prod.snd ↔ HASH nc.nickId = i ∧ contents nc.nickId = some nc

/-- Every chain has its entries, and the chains have their own heads. -/
structure Represents (s : Cache) (contents : Contents) : Prop where
  chain : ∀ i < M, ∃ h l, IsChain s contents i h l
  heads : ∀ i < M, ∀ j < M, s.nickcacheheads i = s.nickcacheheads j → i = j
  nickId : ∀ k nc, contents k = some nc → nc.nickId = k ∧ k ≠ 0
  fresh : ∀ a, s.allocated ≤ a → s.heap a = none

/-- `nickcache_find` finds an entry iff there is one, and that one. -/
def Finds (s : Cache) (contents : Contents) : Prop :=
  ∀ k, k ≠ 0 → ∃ r, nickcacheFind k s = .ok r ∧
    (r.bind s.heap).map Cell.val = contents k

/-- The walk of a deletion ends before it finds anything: the id is not in its chain, which is empty or
has a larger id. -/
def NothingToDelete (contents : Contents) (k : ℕ) : Prop :=
  contents k = none ∧
    ((∀ j, HASH j = HASH k → contents j = none) ∨
      ∃ j, k < j ∧ HASH j = HASH k ∧ contents j ≠ none)

/-- The condition: no second entry for an id, and nothing to delete. -/
def Operation.Meets (contents : Contents) : Operation → Prop
  | insert nickId row _ => row = none ∨ contents nickId = none
  | find _ => True
  | update nickId row _ => row = none → NothingToDelete contents nickId
  | del nickId => NothingToDelete contents nickId

/-! ### Chains -/

section Chains

variable {s : Cache} {contents : Contents} {i j k : ℕ} {h h' : Nickcache}
  {l l' xs ys : List (ℕ × Nickcache)}

theorem HASH_lt (k : ℕ) : HASH k < M := Nat.mod_lt _ (by decide)

theorem Represents.length_lt (hs : Represents s contents) (hl : IsChain s contents i h l) :
    l.length < s.allocated :=
  hl.ring.length_lt hs.fresh

/-- There is fuel enough: a walk that uses it up does not end. -/
theorem Represents.spin (hs : Represents s contents) {stop : ℕ → Cell Nickcache → Bool} {prev a : ℕ}
    (h : walkUntil s.heap stop (s.allocated + 1) prev a = .error .spin) (fuel prev' : ℕ) :
    walkUntil s.heap stop fuel prev' a = .error .spin :=
  walkUntil_spin_of_spin hs.fresh h fuel prev'

/-- Two chains share no cell. -/
theorem Represents.disjoint (hs : Represents s contents) (hi : i < M) (hj : j < M) (hij : i ≠ j)
    (hl : IsChain s contents i h l) (hl' : IsChain s contents j h' l') :
    ∀ a ∈ ((s.nickcacheheads i, h) :: l).map Prod.fst,
      a ∉ ((s.nickcacheheads j, h') :: l').map Prod.fst := by
  have hin : ∀ {i h l}, IsChain s contents i h l → ∀ x ∈ l, HASH x.2.nickId = i ∧ x.2.nickId ≠ 0 := by
    intro i h l hl x hx
    obtain ⟨hhash, hval⟩ := (hl.mem x.2).mp (List.mem_map_of_mem hx)
    exact ⟨hhash, (hs.nickId _ _ hval).2⟩
  have hsame : ∀ {x y : ℕ × Nickcache} {c : Cell Nickcache}, x.1 = y.1 →
      s.heap x.1 = some c → c.val = x.2 → ∀ {d}, s.heap y.1 = some d → d.val = y.2 → x.2 = y.2 := by
    intro x y c hxy hc hcx d hd hdy
    rw [hxy, hd] at hc
    rw [← hcx, ← hdy, Option.some.inj hc]
  intro a ha ha'
  obtain ⟨x, hx, rfl⟩ := List.mem_map.mp ha
  obtain ⟨y, hy, hyx⟩ := List.mem_map.mp ha'
  obtain ⟨c, hc, hcx⟩ := hl.ring.arc.lookup_mem hx
  obtain ⟨d, hd, hdy⟩ := hl'.ring.arc.lookup_mem hy
  have hval := hsame hyx.symm hc hcx hd hdy
  rcases List.mem_cons.mp hx with rfl | hx
  · rcases List.mem_cons.mp hy with rfl | hy
    · exact hij (hs.heads i hi j hj hyx.symm)
    · exact (hin hl' y hy).2 ((congrArg Nickcache.nickId hval).symm.trans hl.head)
  · rcases List.mem_cons.mp hy with rfl | hy
    · exact (hin hl x hx).2 ((congrArg Nickcache.nickId hval).trans hl'.head)
    · exact hij ((hin hl x hx).1.symm.trans (hval ▸ (hin hl' y hy).1))

/-- A chain is cut where an id belongs. -/
theorem Represents.cut (hs : Represents s contents) (k : ℕ) :
    ∃ h xs ys, IsChain s contents (HASH k) h (xs ++ ys) ∧ (∀ x ∈ xs, x.2.nickId < k) ∧
      ∀ y ∈ ys, k ≤ y.2.nickId := by
  obtain ⟨h, l, hl⟩ := hs.chain (HASH k) (HASH_lt k)
  obtain ⟨xs, ys, rfl, hxs, hys⟩ := hl.ascending.split k
  exact ⟨h, xs, ys, hl, hxs, hys⟩

/-- The entry of an id follows the cut. -/
theorem IsChain.present (hl : IsChain s contents (HASH k) h (xs ++ ys))
    (hid : ∀ k nc, contents k = some nc → nc.nickId = k ∧ k ≠ 0)
    (hxs : ∀ x ∈ xs, x.2.nickId < k) (hys : ∀ y ∈ ys, k ≤ y.2.nickId) {nc : Nickcache}
    (hk : contents k = some nc) :
    ∃ a zs, ys = (a, nc) :: zs ∧ ∀ z ∈ zs, k < z.2.nickId := by
  have hnc := (hid k nc hk).1
  have hmem : nc ∈ (xs ++ ys).map Prod.snd :=
    (hl.mem nc).mpr ⟨congrArg HASH hnc, by rw [hnc, hk]⟩
  obtain ⟨x, hx, rfl⟩ := List.mem_map.mp hmem
  have hascending := hl.ascending
  rw [Ascending, List.map_append, List.pairwise_append] at hascending
  rcases List.mem_append.mp hx with hx | hx
  · exact absurd hnc (hxs x hx).ne
  · cases ys with
    | nil => cases hx
    | cons y zs =>
      have hzs := List.pairwise_cons.mp hascending.2.1
      have hlt : ∀ z ∈ zs, y.2.nickId < z.2.nickId :=
        fun z hz ↦ hzs.1 _ (List.mem_map_of_mem hz)
      rcases List.mem_cons.mp hx with rfl | hx
      · refine ⟨x.1, zs, rfl, fun z hz ↦ ?_⟩
        rw [← hnc]
        exact hlt z hz
      · have hle := hys y List.mem_cons_self
        have hgt := hlt x hx
        omega

/-- An id that is not there has only larger ones after the cut. -/
theorem IsChain.absent (hl : IsChain s contents (HASH k) h (xs ++ ys))
    (hys : ∀ y ∈ ys, k ≤ y.2.nickId) (hk : contents k = none) : ∀ y ∈ ys, k < y.2.nickId := by
  intro y hy
  refine lt_of_le_of_ne (hys y hy) fun heq ↦ ?_
  have hval := ((hl.mem y.2).mp (List.mem_map_of_mem (List.mem_append_right xs hy))).2
  rw [← heq, hk] at hval
  cases hval

end Chains

/-! ### Finding -/

section Finding

variable {s : Cache} {contents : Contents} {i k : ℕ} {h nc : Nickcache}
  {l xs ys : List (ℕ × Nickcache)}

/-- The search that a find and an insert begin with. -/
theorem Represents.search (hs : Represents s contents)
    (hl : IsChain s contents (HASH k) h (xs ++ ys)) (hxs : ∀ x ∈ xs, x.2.nickId < k)
    (hys : ∀ y ∈ ys, k ≤ y.2.nickId) :
    walkUntil s.heap (fun nc c ↦ nc = s.nickcacheheads (HASH k) || k ≤ c.val.nickId)
        (s.allocated + 1) (s.nickcacheheads (HASH k))
        (arcStart (xs ++ ys) (s.nickcacheheads (HASH k))) =
      .ok (arcEnd (s.nickcacheheads (HASH k)) xs, arcStart ys (s.nickcacheheads (HASH k))) := by
  refine hl.ring.search hxs hys ?_
  have hlength := hs.length_lt hl
  rw [List.length_append] at hlength
  omega

theorem nickcacheFind_eq (hs : Represents s contents)
    (hl : IsChain s contents (HASH k) h (xs ++ ys)) (hxs : ∀ x ∈ xs, x.2.nickId < k)
    (hys : ∀ y ∈ ys, k ≤ y.2.nickId) (hk0 : k ≠ 0) {c : Cell Nickcache}
    (hc : s.heap (arcStart ys (s.nickcacheheads (HASH k))) = some c) :
    nickcacheFind k s = .ok
      (if arcStart ys (s.nickcacheheads (HASH k)) = s.nickcacheheads (HASH k) ∨ k < c.val.nickId
        then none else some (arcStart ys (s.nickcacheheads (HASH k)))) := by
  rw [nickcacheFind, if_neg hk0]
  simp only [load_eq hl.ring.lookup_head, hs.search hl hxs hys, load_eq hc, bind, pure, Except.bind,
    Except.pure]

theorem nickcacheFind_of_present (hs : Represents s contents) (hnc : contents k = some nc) :
    ∃ a h xs ys, nickcacheFind k s = .ok (some a) ∧
      IsChain s contents (HASH k) h (xs ++ (a, nc) :: ys) := by
  obtain ⟨h, xs, ys, hl, hxs, hys⟩ := hs.cut k
  obtain ⟨hid, hk0⟩ := hs.nickId k nc hnc
  obtain ⟨a, zs, rfl, -⟩ := hl.present hs.nickId hxs hys hnc
  have hcell := (arc_append.mp hl.ring.arc.2).2.1
  have hne : a ≠ s.nickcacheheads (HASH k) := by
    refine ne_of_mem_of_not_mem ?_ hl.ring.not_mem
    simp
  refine ⟨a, h, xs, zs, ?_, hl⟩
  rw [nickcacheFind_eq hs hl hxs hys hk0 hcell]
  exact congrArg Except.ok (if_neg (by simp [arcStart, hne, hid]))

theorem nickcacheFind_of_absent (hs : Represents s contents) (hk0 : k ≠ 0)
    (hnone : contents k = none) : nickcacheFind k s = .ok none := by
  obtain ⟨h, xs, ys, hl, hxs, hys⟩ := hs.cut k
  have hgt := hl.absent hys hnone
  cases ys with
  | nil =>
    rw [nickcacheFind_eq hs hl hxs hys hk0 hl.ring.lookup_head]
    exact congrArg Except.ok (if_pos (.inl rfl))
  | cons y ys =>
    have hcell := (arc_append.mp hl.ring.arc.2).2.1
    rw [nickcacheFind_eq hs hl hxs hys hk0 hcell]
    exact congrArg Except.ok (if_pos (.inr (hgt y List.mem_cons_self)))

theorem Represents.finds (hs : Represents s contents) : Finds s contents := by
  intro k hk0
  cases hnc : contents k with
  | none => exact ⟨none, nickcacheFind_of_absent hs hk0 hnc, rfl⟩
  | some nc =>
    obtain ⟨a, h, xs, ys, hfind, hl⟩ := nickcacheFind_of_present hs hnc
    exact ⟨some a, hfind, by simp [hl.ring.arc.2.lookup]⟩

end Finding

/-! ### Inserting -/

section Inserting

variable {s s' : Cache} {contents contents' : Contents} {i k : ℕ} {h nc : Nickcache}
  {l xs ys : List (ℕ × Nickcache)}

/-- What keeps all chains but one: the cells that change are in that one or new. -/
theorem Represents.of_chain (hs : Represents s contents) (hl : IsChain s contents (HASH k) h l)
    (hsame : ∀ a, a ∉ ((s.nickcacheheads (HASH k), h) :: l).map Prod.fst → a < s.allocated →
      s'.heap a = s.heap a)
    (hheads : s'.nickcacheheads = s.nickcacheheads)
    (hcontents : ∀ j, HASH j ≠ HASH k → contents' j = contents j)
    (hid : ∀ k nc, contents' k = some nc → nc.nickId = k ∧ k ≠ 0)
    (hfresh : ∀ a, s'.allocated ≤ a → s'.heap a = none)
    (hchain : ∃ h' l', IsChain s' contents' (HASH k) h' l') : Represents s' contents' where
  chain := by
    intro i hi
    by_cases hik : i = HASH k
    · rw [hik]
      exact hchain
    · obtain ⟨h', l', hl'⟩ := hs.chain i hi
      have hdisjoint := hs.disjoint hi (HASH_lt k) hik hl' hl
      have hframe : ∀ b ∈ ((s.nickcacheheads i, h') :: l').map Prod.fst,
          s'.heap b = s.heap b := by
        intro b hb
        refine hsame b (hdisjoint b hb) ?_
        by_contra hge
        obtain ⟨x, hx, rfl⟩ := List.mem_map.mp hb
        obtain ⟨c, hc, -⟩ := hl'.ring.arc.lookup_mem hx
        rw [hs.fresh _ (not_lt.mp hge)] at hc
        cases hc
      refine ⟨h', l', ?_, hl'.head, hl'.ascending, fun nc ↦ ?_⟩
      · rw [hheads]
        exact hl'.ring.frame (hframe _ List.mem_cons_self)
          fun b hb ↦ hframe b (List.mem_cons_of_mem _ hb)
      · rw [hl'.mem nc]
        refine and_congr_right fun hhash ↦ ?_
        rw [hcontents nc.nickId (by rw [hhash]; exact hik)]
  heads := by
    intro i hi j hj hij
    rw [hheads] at hij
    exact hs.heads i hi j hj hij
  nickId := hid
  fresh := hfresh

/-- The chain into which an id is inserted. -/
theorem nickcacheInsert_eq (hs : Represents s contents)
    (hl : IsChain s contents (HASH k) h (xs ++ ys)) (hxs : ∀ x ∈ xs, x.2.nickId < k)
    (hys : ∀ y ∈ ys, k ≤ y.2.nickId) (hk0 : k ≠ 0) (row : Columns) (now : ℕ) :
    ∃ c, s.heap (arcEnd (s.nickcacheheads (HASH k)) xs) = some c ∧
      nickcacheInsert k (some row) now s = .ok (some s.allocated,
        { s with
          heap := linkAfter (arcEnd (s.nickcacheheads (HASH k)) xs) c s.allocated
            (entry k row now) s.heap
          allocated := s.allocated + 1 }) ∧
      IsRing (linkAfter (arcEnd (s.nickcacheheads (HASH k)) xs) c s.allocated (entry k row now) s.heap)
        (s.nickcacheheads (HASH k)) h (xs ++ (s.allocated, entry k row now) :: ys) := by
  obtain ⟨c, hc, hring⟩ := hl.ring.link (hs.fresh s.allocated le_rfl) (entry k row now)
  refine ⟨c, hc, ?_, hring⟩
  rw [nickcacheInsert, if_neg hk0]
  simp only [load_eq hl.ring.lookup_head, hs.search hl hxs hys, load_eq hc, bind, pure, Except.bind,
    Except.pure]

/-- The entries of a chain with one for `k` in its place. -/
theorem mem_middle {a : ℕ} (hne : ∀ x ∈ xs ++ ys, x.2.nickId ≠ k) (hnc : nc.nickId = k)
    (hbase : ∀ m : Nickcache, m.nickId ≠ k → (m ∈ (xs ++ ys).map Prod.snd ↔
      HASH m.nickId = HASH k ∧ contents m.nickId = some m)) (m : Nickcache) :
    m ∈ (xs ++ (a, nc) :: ys).map Prod.snd ↔
      HASH m.nickId = HASH k ∧ Function.update contents k (some nc) m.nickId = some m := by
  have hsplit : m ∈ (xs ++ (a, nc) :: ys).map Prod.snd ↔ m = nc ∨ m ∈ (xs ++ ys).map Prod.snd := by
    simp only [List.map_append, List.map_cons, List.mem_append, List.mem_cons]
    tauto
  rw [hsplit]
  by_cases hm : m.nickId = k
  · have hnot : m ∉ (xs ++ ys).map Prod.snd := by
      intro hmem
      obtain ⟨x, hx, rfl⟩ := List.mem_map.mp hmem
      exact hne x hx hm
    rw [hm, Function.update_self, or_iff_left hnot, and_iff_right rfl, Option.some.injEq]
    exact eq_comm
  · rw [Function.update_of_ne hm, ← hbase m hm, or_iff_right]
    rintro rfl
    exact hm hnc

theorem update_nickId {e : Option Nickcache} (hs : Represents s contents) (hk0 : k ≠ 0)
    (he : ∀ nc ∈ e, nc.nickId = k) (j : ℕ) (m : Nickcache)
    (hm : Function.update contents k e j = some m) : m.nickId = j ∧ j ≠ 0 := by
  by_cases hj : j = k
  · obtain rfl := hj
    rw [Function.update_self] at hm
    exact ⟨he m hm, hk0⟩
  · rw [Function.update_of_ne hj] at hm
    exact hs.nickId j m hm

theorem update_of_HASH_ne {e : Option Nickcache} {j : ℕ} (hj : HASH j ≠ HASH k) :
    Function.update contents k e j = contents j :=
  Function.update_of_ne (fun hjk ↦ hj (congrArg HASH hjk)) _ _

/-- An id that is not there is inserted in its place. -/
theorem nickcacheInsert_of_absent (hs : Represents s contents) (hk0 : k ≠ 0)
    (hnone : contents k = none) (row : Columns) (now : ℕ) :
    ∃ s' h xs ys, nickcacheInsert k (some row) now s = .ok (some s.allocated, s') ∧
      Represents s' (Function.update contents k (some (entry k row now))) ∧
      IsChain s' (Function.update contents k (some (entry k row now))) (HASH k) h
        (xs ++ (s.allocated, entry k row now) :: ys) := by
  obtain ⟨h, xs, ys, hl, hxs, hys⟩ := hs.cut k
  have hgt := hl.absent hys hnone
  obtain ⟨c, hc, heq, hring⟩ := nickcacheInsert_eq hs hl hxs hys hk0 row now
  have hbound : ∀ a c, s.heap a = some c → a < s.allocated := by
    intro a c ha
    by_contra hge
    rw [hs.fresh a (not_lt.mp hge)] at ha
    cases ha
  have hne : ∀ x ∈ xs ++ ys, x.2.nickId ≠ k := by
    intro x hx
    rcases List.mem_append.mp hx with hx | hx
    · exact (hxs x hx).ne
    · exact (hgt x hx).ne'
  have hplace : arcEnd (s.nickcacheheads (HASH k)) xs ∈
      ((s.nickcacheheads (HASH k), h) :: (xs ++ ys)).map Prod.fst := by
    obtain ⟨zs, pv, hzs⟩ := exists_arcEnd (s.nickcacheheads (HASH k)) h xs
    rw [← List.cons_append, hzs]
    simp
  refine ⟨_, h, xs, ys, heq, ?_, ?_⟩
  · refine hs.of_chain hl ?_ rfl ?_ ?_ ?_ ⟨h, _, hring, hl.head, ?_, ?_⟩
    · intro a ha hlt
      exact linkAfter_of_ne (fun hap ↦ ha (hap ▸ hplace)) hlt.ne
    · exact fun j hj ↦ update_of_HASH_ne hj
    · exact update_nickId hs hk0 (by simp [entry])
    · intro a ha
      have hnew : s.allocated < a := ha
      have hprev := hbound _ _ hc
      exact (linkAfter_of_ne (by omega) (by omega)).trans (hs.fresh a hnew.le)
    · exact hl.ascending.insert hxs hgt _
    · exact mem_middle hne rfl fun m _ ↦ hl.mem m
  · refine ⟨hring, hl.head, hl.ascending.insert hxs hgt _, mem_middle hne rfl fun m _ ↦ hl.mem m⟩

/-- An id that is there gets a second entry. -/
theorem nickcacheInsert_of_present (hs : Represents s contents) (hnc : contents k = some nc)
    (row : Columns) (now : ℕ) {r : Option ℕ × Cache}
    (hr : nickcacheInsert k (some row) now s = .ok r) : ¬ Represents r.2 contents' := by
  obtain ⟨h, xs, ys, hl, hxs, hys⟩ := hs.cut k
  obtain ⟨hid, hk0⟩ := hs.nickId k nc hnc
  obtain ⟨a, zs, rfl, -⟩ := hl.present hs.nickId hxs hys hnc
  obtain ⟨c, -, heq, hring⟩ := nickcacheInsert_eq hs hl hxs hys hk0 row now
  obtain rfl := Except.ok.inj (hr.symm.trans heq)
  intro hs'
  obtain ⟨h', l', hl'⟩ := hs'.chain (HASH k) (HASH_lt k)
  have hascending := hl'.ascending
  rw [← hring.unique hl'.ring, Ascending, List.map_append, List.pairwise_append, List.map_cons,
    List.pairwise_cons] at hascending
  have hlt := hascending.2.1.1 nc.nickId (List.mem_cons.mpr (.inl rfl))
  rw [hid] at hlt
  exact lt_irrefl k hlt

/-- A cell that is never used. -/
theorem Represents.leak (hs : Represents s contents) :
    Represents { s with allocated := s.allocated + 1 } contents where
  chain := by
    intro i hi
    obtain ⟨h, l, hl⟩ := hs.chain i hi
    exact ⟨h, l, hl.ring, hl.head, hl.ascending, hl.mem⟩
  heads := hs.heads
  nickId := hs.nickId
  fresh := fun a ha ↦ hs.fresh a (Nat.le_of_succ_le ha)

/-- The entry of an id is written anew. -/
theorem Represents.write {a : ℕ} {nc' : Nickcache} (hs : Represents s contents) (hk0 : k ≠ 0)
    (hl : IsChain s contents (HASH k) h (xs ++ (a, nc) :: ys)) (hid : nc.nickId = k)
    (hid' : nc'.nickId = k) :
    ∃ n, s.heap a = some ⟨n, nc⟩ ∧
      Represents { s with heap := Function.update s.heap a (some ⟨n, nc'⟩) }
        (Function.update contents k (some nc')) := by
  obtain ⟨c, hc, hring⟩ := hl.ring.setVal nc'
  have hmem : a ∈ ((s.nickcacheheads (HASH k), h) :: (xs ++ (a, nc) :: ys)).map Prod.fst := by
    simp
  have hcell : c = ⟨c.next, nc⟩ := by
    have hval := hc.symm.trans hl.ring.arc.2.lookup
    rw [Option.some.inj hval]
  have hascending := hl.ascending
  have hne : ∀ x ∈ xs ++ ys, x.2.nickId ≠ k := by
    rw [Ascending, List.map_append, List.pairwise_append, List.map_cons, List.pairwise_cons]
      at hascending
    intro x hx
    rcases List.mem_append.mp hx with hx | hx
    · refine (lt_of_lt_of_eq ?_ hid).ne
      exact hascending.2.2 _ (List.mem_map_of_mem hx) _ List.mem_cons_self
    · refine (lt_of_eq_of_lt hid.symm ?_).ne'
      exact hascending.2.1.1 _ (List.mem_map_of_mem hx)
  refine ⟨c.next, hcell ▸ hc, ?_⟩
  refine hs.of_chain hl ?_ rfl (fun j hj ↦ update_of_HASH_ne hj) ?_ ?_
    ⟨h, _, hring, hl.head, ?_, ?_⟩
  · intro b hb _
    refine Function.update_of_ne ?_ _ _
    rintro rfl
    exact hb hmem
  · exact update_nickId hs hk0 (by simp [hid'])
  · intro b hb
    refine (Function.update_of_ne ?_ _ _).trans (hs.fresh b hb)
    rintro rfl
    rw [hs.fresh b hb] at hc
    cases hc
  · rw [Ascending, List.map_append, List.map_cons] at hascending ⊢
    rw [show Nickcache.nickId (a, nc').2 = Nickcache.nickId (a, nc).2 from hid'.trans hid.symm]
    exact hascending
  · refine mem_middle hne hid' fun m hm ↦ ?_
    rw [← hl.mem m]
    simp only [List.map_append, List.map_cons, List.mem_append, List.mem_cons]
    have hmnc : m ≠ nc := fun heq ↦ hm (heq ▸ hid)
    tauto

end Inserting

/-! ### Deleting -/

section Deleting

variable {s s' : Cache} {contents contents' : Contents} {k : ℕ} {h nc : Nickcache}
  {l xs ys : List (ℕ × Nickcache)}

/-- Whether a cell of a chain ends the walk of a deletion. -/
theorem IsChain.stop (hl : IsChain s contents (HASH k) h l) (hk0 : k ≠ 0) {a : ℕ}
    (ha : a ∈ ((s.nickcacheheads (HASH k), h) :: l).map Prod.fst) :
    ∃ c, s.heap a = some c ∧ c.next ∈ ((s.nickcacheheads (HASH k), h) :: l).map Prod.fst ∧
      ((c.val.nickId = k || a = c.next || k < c.val.nickId) = true ↔
        l = [] ∨ ∃ x ∈ l, x.1 = a ∧ k ≤ x.2.nickId) := by
  obtain ⟨c, hc, ⟨x, hx, hxa, hval⟩, hnext, hself⟩ := hl.ring.next ha
  refine ⟨c, hc, hnext, ?_⟩
  have hmem : k ≤ c.val.nickId ↔ ∃ x ∈ l, x.1 = a ∧ k ≤ x.2.nickId := by
    constructor
    · intro hle
      rcases List.mem_cons.mp hx with rfl | hx
      · rw [← hval, hl.head] at hle
        omega
      · exact ⟨x, hx, hxa, hval ▸ hle⟩
    · rintro ⟨y, hy, rfl, hle⟩
      obtain ⟨d, hd, hdy⟩ := hl.ring.lookup_mem hy
      rw [Option.some.inj (hc.symm.trans hd), hdy]
      exact hle
  rw [← hmem, ← hself]
  simp only [Bool.or_eq_true, decide_eq_true_eq]
  omega

/-- The walk of a deletion comes to the cell after the cut, if there is one. -/
theorem Represents.walk_del (hs : Represents s contents)
    (hl : IsChain s contents (HASH k) h (xs ++ ys)) (hxs : ∀ x ∈ xs, x.2.nickId < k)
    (hys : ∀ y ∈ ys, k ≤ y.2.nickId) (hk0 : k ≠ 0) (hne : ys ≠ []) :
    walkUntil s.heap (fun nc c ↦ c.val.nickId = k || nc = c.next || k < c.val.nickId)
        (s.allocated + 1) (s.nickcacheheads (HASH k)) (s.nickcacheheads (HASH k)) =
      .ok (arcEnd (s.nickcacheheads (HASH k)) xs, arcStart ys (s.nickcacheheads (HASH k))) := by
  have harc := hl.ring.arc
  rw [← List.cons_append, arc_append] at harc
  have hlength := hs.length_lt hl
  rw [List.length_append] at hlength
  cases ys with
  | nil => exact absurd rfl hne
  | cons y ys =>
    obtain ⟨c, hc, -, hstop⟩ := hl.stop (a := y.1) hk0 (by simp)
    refine walkUntil_arc harc.1 (fun a ha d hd ↦ ?_) hc
      (hstop.mpr (.inr ⟨y, by simp, rfl, hys y List.mem_cons_self⟩))
      (by rw [List.length_cons]; omega) _
    obtain ⟨c', hc', -, hstop'⟩ := hl.stop (a := a) hk0
      (by rw [← List.cons_append, List.map_append]; exact List.mem_append_left _ ha)
    rw [← Bool.not_eq_true, Option.some.inj (hd.symm.trans hc'), hstop']
    rintro (hnil | ⟨x, hx, rfl, hle⟩)
    · simp at hnil
    · have hnodup := hl.ring.nodup
      rw [← List.cons_append, List.map_append, List.nodup_append] at hnodup
      rcases List.mem_append.mp hx with hx | hx
      · exact absurd (hxs x hx) (not_lt.mpr hle)
      · exact hnodup.2.2 _ ha _ (List.mem_map_of_mem hx) rfl

/-- An id that is not there, in an empty chain or with a larger one behind it. -/
theorem nickcacheDel_of_absent (hs : Represents s contents) (hk0 : k ≠ 0)
    (hnothing : NothingToDelete contents k) : nickcacheDel k s = .ok s := by
  obtain ⟨h, xs, ys, hl, hxs, hys⟩ := hs.cut k
  have hgt := hl.absent hys hnothing.1
  have hin : ∀ x ∈ xs ++ ys, HASH x.2.nickId = HASH k ∧ contents x.2.nickId = some x.2 :=
    fun x hx ↦ (hl.mem x.2).mp (List.mem_map_of_mem hx)
  rw [nickcacheDel, if_neg hk0]
  cases ys with
  | cons y ys =>
    have hcell := (arc_append.mp hl.ring.arc.2).2.1
    have hwalk := hs.walk_del hl hxs hys hk0 (List.cons_ne_nil y ys)
    simp only [hwalk, bind, pure, Except.bind, Except.pure, arcStart, load_eq hcell,
      (hgt y List.mem_cons_self).ne', if_false]
  | nil =>
    have hnil : xs = [] := by
      rw [List.append_nil] at hin
      cases xs with
      | nil => rfl
      | cons x xs =>
        obtain ⟨hhash, hval⟩ := hin x List.mem_cons_self
        rcases hnothing.2 with hempty | ⟨j, hj, hhashj, hsome⟩
        · rw [hempty _ hhash] at hval
          cases hval
        · obtain ⟨nc, hnc⟩ := Option.ne_none_iff_exists'.mp hsome
          have hid := (hs.nickId j nc hnc).1
          have hmem := (hl.mem nc).mpr ⟨(congrArg HASH hid).trans hhashj, by rw [hid, hnc]⟩
          obtain ⟨z, hz, rfl⟩ := List.mem_map.mp hmem
          rw [List.append_nil] at hz
          have hlt := hxs z hz
          omega
    obtain rfl := hnil
    have hhead : s.heap (s.nickcacheheads (HASH k)) =
        some ⟨s.nickcacheheads (HASH k), h⟩ := hl.ring.lookup_head
    have hwalk : walkUntil s.heap
        (fun nc c ↦ c.val.nickId = k || nc = c.next || k < c.val.nickId) (s.allocated + 1)
        (s.nickcacheheads (HASH k)) (s.nickcacheheads (HASH k)) =
        .ok (s.nickcacheheads (HASH k), s.nickcacheheads (HASH k)) := by
      simp [walkUntil, hhead]
    simp only [hwalk, bind, pure, Except.bind, Except.pure, load_eq hhead, hl.head, Ne.symm hk0,
      if_false]

/-- An id larger than all in a chain that is not empty. -/
theorem nickcacheDel_of_larger (hs : Represents s contents) (hk0 : k ≠ 0)
    (hnone : contents k = none) (hsome : ∃ j, HASH j = HASH k ∧ contents j ≠ none)
    (hlt : ∀ j, k < j → HASH j = HASH k → contents j = none) :
    nickcacheDel k s = .error .spin := by
  obtain ⟨h, l, hl⟩ := hs.chain (HASH k) (HASH_lt k)
  have hin : ∀ x ∈ l, HASH x.2.nickId = HASH k ∧ contents x.2.nickId = some x.2 :=
    fun x hx ↦ (hl.mem x.2).mp (List.mem_map_of_mem hx)
  have hne : l ≠ [] := by
    rintro rfl
    obtain ⟨j, hj, hval⟩ := hsome
    obtain ⟨nc, hnc⟩ := Option.ne_none_iff_exists'.mp hval
    have hid := (hs.nickId j nc hnc).1
    have hmem := (hl.mem nc).mpr ⟨(congrArg HASH hid).trans hj, by rw [hid, hnc]⟩
    cases hmem
  rw [nickcacheDel, if_neg hk0]
  have hwalk : walkUntil s.heap
      (fun nc c ↦ c.val.nickId = k || nc = c.next || k < c.val.nickId) (s.allocated + 1)
      (s.nickcacheheads (HASH k)) (s.nickcacheheads (HASH k)) = .error .spin := by
    refine walkUntil_spin (s := {a | a ∈ ((s.nickcacheheads (HASH k), h) :: l).map Prod.fst})
      (fun a ha ↦ ?_) List.mem_cons_self _ _
    obtain ⟨c, hc, hnext, hstop⟩ := hl.stop hk0 ha
    refine ⟨c, hc, ?_, hnext⟩
    rw [← Bool.not_eq_true, hstop]
    rintro (hnil | ⟨x, hx, -, hle⟩)
    · exact hne hnil
    · obtain ⟨hhash, hval⟩ := hin x hx
      have hlost : contents x.2.nickId = none := by
        rcases Nat.eq_or_lt_of_le hle with heq | hgt
        · rw [← heq, hnone]
        · exact hlt _ hgt hhash
      rw [hlost] at hval
      cases hval
  simp only [hwalk, bind, Except.bind]

/-- Deleting an id that is there frees the cell before it, which the chain still goes through. -/
theorem nickcacheDel_of_present (hs : Represents s contents) (hnc : contents k = some nc)
    (hs' : nickcacheDel k s = .ok s') : ¬ Represents s' contents' := by
  obtain ⟨h, xs, ys, hl, hxs, hys⟩ := hs.cut k
  obtain ⟨hid, hk0⟩ := hs.nickId k nc hnc
  obtain ⟨a, zs, rfl, -⟩ := hl.present hs.nickId hxs hys hnc
  obtain ⟨ws, pv, hws⟩ := exists_arcEnd (s.nickcacheheads (HASH k)) h xs
  have hcell := (arc_append.mp hl.ring.arc.2).2.1
  have hwalk := hs.walk_del hl hxs hys hk0 (List.cons_ne_nil _ _)
  obtain ⟨after, hafter⟩ : ∃ c, s.heap (arcStart zs (s.nickcacheheads (HASH k))) = some c := by
    cases zs with
    | nil => exact ⟨_, hl.ring.lookup_head⟩
    | cons z zs => exact ⟨_, (arc_append.mp hl.ring.arc.2).2.2.1⟩
  rw [nickcacheDel, if_neg hk0] at hs'
  rw [arcStart] at hwalk
  simp only [hwalk, bind, pure, Except.bind, Except.pure, load_eq hcell, hid, if_true,
    load_eq hafter] at hs'
  obtain rfl := Except.ok.inj hs'
  -- The cell before the entry is reached as before, but is not allocated any more.
  intro hrep
  obtain ⟨h', l', hl'⟩ := hrep.chain (HASH k) (HASH_lt k)
  have hnodup := hl.ring.nodup
  have harc := hl.ring.arc
  rw [← List.cons_append, hws] at hnodup harc
  have hbefore := (arc_append.mp (arc_append.mp harc).1).1
  rw [List.append_assoc, List.singleton_append] at hnodup
  obtain ⟨hz, -⟩ := nodup_middle hnodup
  have ha : a ∉ ws.map Prod.fst := by
    rw [List.append_cons] at hnodup
    intro hmem
    refine (nodup_middle hnodup).1 ?_
    rw [List.map_append]
    exact List.mem_append_left _ hmem
  have hfreed := hl'.ring.lookup_head
  cases ws with
  | nil =>
    obtain ⟨hhead, -⟩ := List.cons.inj hws
    rw [show arcEnd (s.nickcacheheads (HASH k)) xs = s.nickcacheheads (HASH k) from
      (congrArg Prod.fst hhead).symm] at hfreed
    exact Option.some_ne_none _ (hfreed.symm.trans (Function.update_self _ _ _))
  | cons w ws =>
    obtain ⟨rfl, -⟩ := List.cons.inj hws
    refine hl'.ring.reached (hbefore.frame fun b hb ↦ ?_) ?_ (Function.update_self _ _ _)
    · exact (Function.update_of_ne (ne_of_mem_of_not_mem hb hz) _ _).trans
        (Function.update_of_ne (ne_of_mem_of_not_mem hb ha) _ _)
    · rw [List.map_append, List.nodup_append] at hnodup
      exact (List.nodup_cons.mp hnodup.1).1

/-- A deletion does what it is for exactly where there is nothing to delete. -/
theorem nickcacheDel_sound_iff (hs : Represents s contents) (hk0 : k ≠ 0) :
    (∃ s', nickcacheDel k s = .ok s' ∧ Represents s' (Function.update contents k none)) ↔
      NothingToDelete contents k := by
  constructor
  · rintro ⟨s', hs', hrep⟩
    cases hnc : contents k with
    | some nc => exact absurd hrep (nickcacheDel_of_present hs hnc hs')
    | none =>
      by_contra hnot
      obtain ⟨hsome, hlarger⟩ := not_or.mp fun hends ↦ hnot ⟨hnc, hends⟩
      push Not at hsome hlarger
      rw [nickcacheDel_of_larger hs hk0 hnc hsome hlarger] at hs'
      cases hs'
  · intro hnothing
    refine ⟨s, nickcacheDel_of_absent hs hk0 hnothing, ?_⟩
    rw [Function.update_eq_self_iff.mpr hnothing.1.symm]
    exact hs

end Deleting

/-! ### Updating -/

section Updating

variable {s s' : Cache} {contents : Contents} {k : ℕ}

/-- An update of a nick that exists writes its entry, whether it was there or not. -/
theorem nickcacheUpdate_of_row (hs : Represents s contents) (hk0 : k ≠ 0) (row : Columns) (now : ℕ) :
    ∃ r s', nickcacheUpdate k (some row) now s = .ok (r, s') ∧
      Represents s' (Function.update contents k (some (entry k row now))) := by
  cases hnc : contents k with
  | some nc =>
    obtain ⟨a, h, xs, ys, hfind, hl⟩ := nickcacheFind_of_present hs hnc
    have hid := (hs.nickId k nc hnc).1
    have hid' : (entry k row now).nickId = k := rfl
    obtain ⟨n, hcell, hrep⟩ := hs.write hk0 hl hid hid'
    refine ⟨some a, _, ?_, hrep⟩
    simp [nickcacheUpdate, hfind, load_eq hcell, entry, hid, bind, pure, Except.bind, Except.pure]
  | none =>
    obtain ⟨s₁, h, xs, ys, hinsert, hs₁, hl⟩ := nickcacheInsert_of_absent hs hk0 hnc row now
    have hid : (entry k row now).nickId = k := rfl
    obtain ⟨n, hcell, hrep⟩ := hs₁.write hk0 hl hid hid
    rw [Function.update_idem] at hrep
    refine ⟨some s.allocated, _, ?_, hrep⟩
    simp [nickcacheUpdate, nickcacheFind_of_absent hs hk0 hnc, hinsert, load_eq hcell, entry, bind,
      pure, Except.bind, Except.pure]

/-- An update of a nick that does not exist is a deletion. -/
theorem nickcacheUpdate_of_none (hs : Represents s contents) (hk0 : k ≠ 0) (now : ℕ) :
    ∃ s₁, Represents s₁ contents ∧
      nickcacheUpdate k none now s = (fun s' ↦ (none, s')) <$> nickcacheDel k s₁ := by
  cases hnc : contents k with
  | some nc =>
    obtain ⟨a, h, xs, ys, hfind, -⟩ := nickcacheFind_of_present hs hnc
    refine ⟨s, hs, ?_⟩
    simp only [nickcacheUpdate, hfind]
    rfl
  | none =>
    refine ⟨_, hs.leak, ?_⟩
    simp only [nickcacheUpdate, nickcacheFind_of_absent hs hk0 hnc, nickcacheInsert, if_neg hk0]
    rfl

end Updating

/-! ### Runs -/

section Runs

variable {s : Cache} {contents : Contents}

/-- The heads after some rounds of `nickcache_init`. -/
theorem foldl_initHead (n : ℕ) :
    (List.range n).foldl initHead ⟨fun _ ↦ none, fun _ ↦ 0, 0⟩ =
      ⟨fun a ↦ if a < n then some ⟨a, ⟨0, 0#32, 0, 0, 0⟩⟩ else none,
        fun i ↦ if i < n then i else 0, n⟩ := by
  induction n with
  | zero => simp
  | succ n ih =>
    rw [List.range_succ, List.foldl_append, ih]
    simp only [List.foldl_cons, List.foldl_nil, initHead, Cache.mk.injEq, and_true]
    constructor
    · ext1 a
      rcases lt_trichotomy a n with hlt | rfl | hgt
      · simp [Function.update_of_ne hlt.ne, hlt, Nat.lt_succ_of_lt hlt]
      · simp
      · rw [Function.update_of_ne hgt.ne', if_neg (by omega), if_neg (by omega)]
    · ext1 i
      rcases lt_trichotomy i n with hlt | rfl | hgt
      · simp [Function.update_of_ne hlt.ne, hlt, Nat.lt_succ_of_lt hlt]
      · simp
      · rw [Function.update_of_ne hgt.ne', if_neg (by omega), if_neg (by omega)]

theorem represents_nickcacheInit : Represents nickcacheInit fun _ ↦ none := by
  rw [nickcacheInit, foldl_initHead]
  constructor
  · intro i hi
    refine ⟨⟨0, 0#32, 0, 0, 0⟩, [], ⟨⟨?_, trivial⟩, ?_⟩, rfl, List.Pairwise.nil, fun nc ↦ ?_⟩
    · simp [hi, arcStart]
    · exact List.nodup_singleton _
    · simp
  · intro i hi j hj hij
    simpa [hi, hj] using hij
  · intro k nc hnc
    cases hnc
  · intro a ha
    exact if_neg (not_lt.mpr ha)

/-- An operation does what it is for, and returns, exactly under its condition. -/
theorem Operation.sound_iff (hs : Represents s contents) (op : Operation) (hop : op.nickId ≠ 0) :
    (∃ s', op.run s = .ok s' ∧ Represents s' (op.apply contents)) ↔ op.Meets contents := by
  cases op with
  | insert k row now =>
    have hk0 : k ≠ 0 := hop
    cases row with
    | none =>
      refine iff_of_true ⟨_, ?_, hs.leak⟩ (.inl rfl)
      rw [run, nickcacheInsert, if_neg hk0]
      rfl
    | some row =>
      cases hnc : contents k with
      | none =>
        obtain ⟨s', h, xs, ys, hinsert, hrep, -⟩ :=
          nickcacheInsert_of_absent hs hk0 hnc row now
        refine iff_of_true ⟨s', ?_, hrep⟩ (.inr hnc)
        rw [run, hinsert]
        rfl
      | some nc =>
        refine iff_of_false ?_ (by simp [Meets, hnc])
        rintro ⟨s', hrun, hrep⟩
        rw [run] at hrun
        cases hinsert : nickcacheInsert k (some row) now s with
        | error e =>
          rw [hinsert] at hrun
          cases hrun
        | ok r =>
          rw [hinsert] at hrun
          obtain rfl := Except.ok.inj hrun
          exact nickcacheInsert_of_present hs hnc row now hinsert hrep
  | find k =>
    obtain ⟨r, hr, -⟩ := hs.finds k hop
    refine iff_of_true ⟨s, ?_, hs⟩ trivial
    rw [run, hr]
    rfl
  | update k row now =>
    have hk0 : k ≠ 0 := hop
    cases row with
    | some row =>
      obtain ⟨r, s', hupdate, hrep⟩ := nickcacheUpdate_of_row hs hk0 row now
      refine iff_of_true ⟨s', ?_, hrep⟩ (by simp [Meets])
      rw [run, hupdate]
      rfl
    | none =>
      obtain ⟨s₁, hs₁, hupdate⟩ := nickcacheUpdate_of_none hs hk0 now
      have hmeets : (update k none now).Meets contents ↔ NothingToDelete contents k :=
        ⟨fun h ↦ h rfl, fun h _ ↦ h⟩
      rw [hmeets, run, hupdate, ← nickcacheDel_sound_iff hs₁ hk0]
      refine exists_congr fun s' ↦ and_congr_left fun _ ↦ ?_
      cases nickcacheDel k s₁ with
      | error e => exact Iff.rfl
      | ok s₂ => exact Iff.rfl
  | del k => exact nickcacheDel_sound_iff hs hop

/-- An operation on the memory and on what it stands for. -/
def step (p : Except Stuck Cache × Contents) (op : Operation) : Except Stuck Cache × Contents :=
  (p.1.bind fun s ↦ op.run s, op.apply p.2)

/-- The services begin with an empty cache. -/
def start : Except Stuck Cache × Contents := (.ok nickcacheInit, fun _ ↦ none)

/-- All operations have returned, the chains are as they should be, and every find finds what was
inserted and not deleted since. -/
def Sound (p : Except Stuck Cache × Contents) : Prop :=
  ∃ s, p.1 = .ok s ∧ Represents s p.2 ∧ Finds s p.2

theorem sound_start : Sound start :=
  ⟨_, rfl, represents_nickcacheInit, represents_nickcacheInit.finds⟩

theorem sound_step_iff (p : Except Stuck Cache × Contents) (op : Operation) (hp : Sound p)
    (hop : op.nickId ≠ 0) : Sound (step p op) ↔ op.Meets p.2 := by
  obtain ⟨s, hs, hrep, -⟩ := hp
  rw [← op.sound_iff hrep hop, step, hs]
  constructor
  · rintro ⟨s', hrun, hrep', -⟩
    exact ⟨s', hrun, hrep'⟩
  · rintro ⟨s', hrun, hrep'⟩
    exact ⟨s', hrun, hrep', hrep'.finds⟩

/-- In every run on ids that are not 0, the cache is sound after each operation iff every operation meets
its condition. -/
theorem nickcache_sound_iff (ops : List Operation) (hids : ∀ op ∈ ops, op.nickId ≠ 0) :
    (∀ ops', ops' <+: ops → Sound (ops'.foldl step start)) ↔
      Along step (fun p op ↦ op.Meets p.2) start ops :=
  Along.iff_prefixes sound_step_iff (along_of_forall hids start) sound_start

/-- An entry is updated, and an id with a larger one in its chain is deleted. -/
theorem nickcache_sound_iff_five :
    (∀ op ∈ [Operation.insert 156 (some (0#32, 1)) 9, .del 5, .update 156 (some (4#32, 1)) 10],
      op.nickId ≠ 0) ∧
    ∀ ops', ops' <+: [Operation.insert 156 (some (0#32, 1)) 9, .del 5,
      .update 156 (some (4#32, 1)) 10] → Sound (ops'.foldl step start) := by
  have hids : ∀ op ∈ [Operation.insert 156 (some (0#32, 1)) 9, .del 5,
      .update 156 (some (4#32, 1)) 10], op.nickId ≠ 0 := by
    simp [Operation.nickId]
  refine ⟨hids, (nickcache_sound_iff _ hids).mpr ⟨.inr rfl, ⟨rfl, .inr ⟨156, by decide, rfl, ?_⟩⟩,
    fun hnone ↦ ?_, trivial⟩⟩
  · exact Option.some_ne_none _
  · cases hnone

/-- An id is inserted and deleted. A larger one in the same chain is deleted that was never inserted. -/
theorem nickcache_not_sound :
    ¬ Sound ([Operation.insert 5 (some (0#32, 1)) 9, .del 5].foldl step start) ∧
    ([Operation.insert 5 (some (0#32, 1)) 9, .del 156].foldl step start).1 = .error .spin := by
  obtain ⟨s', h, xs, ys, hinsert, hrep, -⟩ := nickcacheInsert_of_absent represents_nickcacheInit
    (k := 5) (by decide) rfl (0#32, 1) 9
  have hstep : step start (.insert 5 (some (0#32, 1)) 9) =
      (.ok s', Function.update (fun _ ↦ none) 5 (some (entry 5 (0#32, 1) 9))) := by
    rw [step, start, Except.bind, Operation.run, hinsert]
    rfl
  constructor
  · rw [List.foldl_cons, hstep]
    rintro ⟨s'', hs'', hrep', -⟩
    have hdel : nickcacheDel 5 s' = .ok s'' := hs''
    exact nickcacheDel_of_present hrep (Function.update_self 5 _ _) hdel hrep'
  · have hspin : nickcacheDel 156 s' = .error .spin := by
      refine nickcacheDel_of_larger hrep (by decide) ?_ ⟨5, by decide, by simp⟩ fun j hj _ ↦ ?_
      · exact Function.update_of_ne (by decide) _ _
      · exact Function.update_of_ne (by omega) _ _
    rw [List.foldl_cons, hstep]
    exact hspin

/-! ### The cache of the world -/

theorem nickcacheFind_eq_none_iff (w : World) (j : ℕ) :
    NickServ.nickcacheFind w j = none ↔ ∀ nc ∈ w.nickcache, nc.nickId ≠ j := by
  rw [NickServ.nickcacheFind, List.find?_eq_none]
  simp

theorem alive_nickcacheDel (w : World) (halive : w.alive = true) (k : ℕ) :
    (NickServ.nickcacheDel k w).alive = true ↔
      NothingToDelete (fun j ↦ NickServ.nickcacheFind w j) k := by
  have hempty : (∀ j, HASH j = HASH k → NickServ.nickcacheFind w j = none) ↔
      ∀ nc ∈ w.nickcache, nc.nickId % M ≠ k % M := by
    simp only [nickcacheFind_eq_none_iff]
    exact ⟨fun h nc hnc hhash ↦ h nc.nickId hhash nc hnc rfl,
      fun h j hhash nc hnc hid ↦ h nc hnc (hid ▸ hhash)⟩
  have hlarger : (∃ j, k < j ∧ HASH j = HASH k ∧ NickServ.nickcacheFind w j ≠ none) ↔
      ∃ nc ∈ w.nickcache, nc.nickId % M = k % M ∧ k < nc.nickId := by
    simp only [ne_eq, nickcacheFind_eq_none_iff, not_forall, not_not, exists_prop]
    constructor
    · rintro ⟨j, hlt, hhash, nc, hnc, rfl⟩
      exact ⟨nc, hnc, hhash, hlt⟩
    · rintro ⟨nc, hnc, hhash, hlt⟩
      exact ⟨nc.nickId, hlt, hhash, nc, hnc, rfl⟩
  have hpresent : (∀ nc ∈ w.nickcache, nc.nickId ≠ k) ↔
      ¬ ∃ nc ∈ w.nickcache, nc.nickId % M = k % M ∧ nc.nickId = k := by
    push Not
    exact ⟨fun h nc hnc _ ↦ h nc hnc, fun h nc hnc hid ↦ h nc hnc (congrArg (· % M) hid) hid⟩
  rw [NothingToDelete, hempty, hlarger, nickcacheFind_eq_none_iff, hpresent]
  rw [NickServ.nickcacheDel]
  simp only [List.any_filter, List.any_eq_true, List.isEmpty_iff, List.filter_eq_nil_iff,
    Bool.and_eq_true, decide_eq_true_eq]
  split_ifs with hmem hends
  · exact iff_of_false Bool.false_ne_true fun h ↦ h.1 hmem
  · exact iff_of_true halive ⟨hmem, hends⟩
  · exact iff_of_false Bool.false_ne_true fun h ↦ hends h.2

/-- The cache as `World` has it: a deletion leaves the process alive exactly where it does on the chains
what it is for. -/
theorem alive_nickcacheDel_iff_sound (w : World) (halive : w.alive = true) {k : ℕ} (hk0 : k ≠ 0)
    (hs : Represents s fun j ↦ NickServ.nickcacheFind w j) :
    (NickServ.nickcacheDel k w).alive = true ↔
      ∃ s', nickcacheDel k s = .ok s' ∧
        Represents s' (Function.update (fun j ↦ NickServ.nickcacheFind w j) k none) := by
  rw [nickcacheDel_sound_iff hs hk0]
  exact alive_nickcacheDel w halive k

end Runs

end BlitzedServices.NickServ.CacheChains
