import BlitzedServices.Lib.SiblingForest
import BlitzedServices.Lib.LinkedList
import BlitzedServices.Lib.CString

/-!
# The tree of servers

Servers are on a doubly linked list and form a tree by their hub, first child and next sibling; `findserver`
remembers the server it found last. `do_server` hangs a new server behind the last child of its hub, and
`do_squit` frees everything behind a server, takes it from the children of its hub and frees it.

A read through a pointer to a freed server is the outcome `none`. A server without a hub is not freed by its
SQUIT, although everything behind it is, and keeps the pointer to its first child; a server that is announced
by its own name can become its own hub. `servers_run` shows that there are no other ways to lose the tree.
-/

set_option autoImplicit false
set_option relaxedAutoImplicit false

namespace BlitzedServices.Servers

open Lib

/-- A server. -/
structure Server where
  hub : Option ℕ
  child : Option ℕ
  sibling : Option ℕ
  name : CString

/-- The server list, the server last returned by `findserver` and the number of servers. -/
structure Network where
  serverlist : LinkedList Server
  lastserver : Option ℕ
  servercnt : BitVec 16

/-- No server is known. -/
def Network.initial : Network := ⟨.empty, none, 0⟩

/-- A server that is read through a pointer. -/
def Network.val (s : Network) (a : ℕ) : Option Server := s.serverlist.val a

/-- A server that is written through a pointer. -/
def Network.write (a : ℕ) (f : Server → Server) (s : Network) : Network :=
  { s with serverlist := s.serverlist.modifyVal f a }

/-- `new_server` with its record at an address, where `none` is an address in use. -/
def newServer (a : ℕ) (servername : CString) (s : Network) : Option Network :=
  match s.serverlist.heap a with
  | some _ => none
  | none =>
    some { s with
      servercnt := s.servercnt + 1
      serverlist := s.serverlist.push a ⟨none, none, none, servername⟩ }

/-- `delete_server`. -/
def deleteServer (a : ℕ) (s : Network) : Network where
  lastserver := if s.lastserver = some a then none else s.lastserver
  servercnt := s.servercnt - 1
  serverlist := s.serverlist.unlink a

/-- The walk of `findserver` over the list. -/
def searchServer (servername : CString) (s : Network) : Option ℕ × Network :=
  match s.serverlist.toList.find? fun x ↦ stricmp servername x.2.name = 0 with
  | some (a, _) => (some a, { s with lastserver := some a })
  | none => (none, s)

/-- `findserver`. -/
def findserver (servername : CString) (s : Network) : Option (Option ℕ × Network) :=
  match s.lastserver with
  | none => some (searchServer servername s)
  | some a =>
    (s.val a).map fun last ↦
      if stricmp servername last.name = 0 then (some a, s) else searchServer servername s

/-- `while (tmpserver->sibling) tmpserver = tmpserver->sibling`. -/
def lastSibling (s : Network) : ℕ → ℕ → Option ℕ
  | 0, _ => none
  | fuel + 1, t =>
    (s.val t).bind fun tmpserver ↦
      match tmpserver.sibling with
      | none => some t
      | some next => lastSibling s fuel next

/-- The new server is hung behind the children of its hub. -/
def linkServer (a hub : ℕ) (s : Network) : Option Network :=
  let s := s.write a fun server ↦ { server with hub := some hub }
  (s.val hub).bind fun hubserver ↦
    match hubserver.child with
    | none => some (s.write hub fun server ↦ { server with child := some a })
    | some child =>
      (lastSibling s (s.serverlist.nodes + 1) child).map fun t ↦
        s.write t fun server ↦ { server with sibling := some a }

/-- `do_server` with the record of the new server at an address. -/
def doServer (source servername : CString) (a : ℕ) (s : Network) : Option Network :=
  (newServer a servername s).bind fun s ↦
    if source = [] then some s
    else
      (findserver source s).bind fun (hub, s) ↦
        match hub with
        | none => some s
        | some hub => linkServer a hub s

/-- The loop of `recursive_squit` from a pointer on. -/
def recursiveSquit : ℕ → Option ℕ → Network → Option Network
  | 0, _, _ => none
  | _ + 1, none, s => some s
  | fuel + 1, some a, s =>
    (s.val a).bind fun server ↦
      (if server.child.isSome then recursiveSquit fuel server.child s else some s).bind fun s ↦
        (s.val a).bind fun server ↦ recursiveSquit fuel server.sibling (deleteServer a s)

/-- The search of `do_squit` for the server before the one that quits. -/
def unchain (a : ℕ) (sibling : Option ℕ) (s : Network) : ℕ → ℕ → Option Network
  | 0, _ => none
  | fuel + 1, t =>
    (s.val t).bind fun tmpserver ↦
      match tmpserver.sibling with
      | none => some s
      | some next =>
        if next = a then some (s.write t fun server ↦ { server with sibling := sibling })
        else unchain a sibling s fuel next

/-- The server is taken from the children of its hub and deleted. -/
def unlinkServer (a hub : ℕ) (sibling : Option ℕ) (s : Network) : Option Network :=
  (s.val hub).bind fun hubserver ↦
    (if hubserver.child = some a then
      some (s.write hub fun server ↦ { server with child := sibling })
    else hubserver.child.bind fun child ↦ unchain a sibling s (s.serverlist.nodes + 1) child).map
      (deleteServer a)

/-- `do_squit`. -/
def doSquit (servername : CString) (s : Network) : Option Network :=
  (findserver servername s).bind fun (found, s) ↦
    match found with
    | none => some s
    | some a =>
      (s.val a).bind fun server ↦
        (recursiveSquit (s.serverlist.nodes + 1) server.child s).bind fun s ↦
          (s.val a).bind fun server ↦
            match server.hub with
            | none => some s
            | some hub => unlinkServer a hub server.sibling s

/-- The messages of a run, and the searches that other messages make. -/
inductive ServerMessage where
  | server (source servername : CString) (a : ℕ)
  | squit (servername : CString)
  | find (servername : CString)

/-- One message. -/
def receive (s : Network) : ServerMessage → Option Network
  | .server source servername a => doServer source servername a s
  | .squit servername => doSquit servername s
  | .find servername => (findserver servername s).map Prod.snd

/-! ### The pointers of the tree -/

/-- The tree pointers of a server. -/
def Server.links (v : Server) : TreeNode := ⟨v.hub, v.child, v.sibling⟩

/-- The tree pointers of all servers. -/
def Network.links (s : Network) (a : ℕ) : Option TreeNode := (s.val a).map Server.links

/-- The list has the allocated servers. -/
structure OnList (s : Network) (xs : List (ℕ × Server)) : Prop where
  linked : Linked id s.serverlist xs
  mem_iff : ∀ a v, (a, v) ∈ xs ↔ s.val a = some v

/-- The servers are the nodes of the list and form a forest, and the server last found is among them. -/
structure Sound (s : Network) : Prop where
  onList : ∃ xs, OnList s xs
  forest : ∃ rank, Forest s.links rank ∧ ∀ a, (s.val a).isSome → rank a < s.serverlist.nodes
  cached : ∀ a, s.lastserver = some a → (s.val a).isSome

section Lists

variable {s s' : Network} {a b h t : ℕ} {v w : Server} {xs : List (ℕ × Server)} {name : CString}

theorem links_eq_some_iff {n : TreeNode} : s.links a = some n ↔ ∃ v, s.val a = some v ∧ v.links = n :=
  Option.map_eq_some_iff

theorem links_eq_none_iff : s.links a = none ↔ s.val a = none := Option.map_eq_none_iff

theorem links_of_val (hv : s.val a = some v) : s.links a = some v.links := by
  rw [Network.links, hv, Option.map_some]

@[simp] theorem isSome_links : (s.links a).isSome = (s.val a).isSome := Option.isSome_map

theorem val_congr (hsame : s.serverlist = s'.serverlist) : s.val = s'.val := by
  ext1 b
  rw [Network.val, Network.val, hsame]

theorem links_congr (hsame : s.serverlist = s'.serverlist) : s.links = s'.links := by
  ext1 b
  rw [Network.links, Network.links, val_congr hsame]

theorem OnList.congr (hxs : OnList s' xs) (hsame : s.serverlist = s'.serverlist) : OnList s xs where
  linked := hsame ▸ hxs.linked
  mem_iff a v := by rw [val_congr hsame, hxs.mem_iff]

theorem onList_mem (hxs : OnList s xs) (ha : (s.val a).isSome) : a ∈ xs.map Prod.fst := by
  obtain ⟨v, hv⟩ := Option.isSome_iff_exists.mp ha
  exact List.mem_map.mpr ⟨(a, v), (hxs.mem_iff a v).mpr hv, rfl⟩

/-- Different servers are no more than have been allocated. -/
theorem OnList.length_le (hxs : OnList s xs) {l : List ℕ} (hnodup : l.Nodup)
    (hl : ∀ a ∈ l, (s.val a).isSome) : l.length ≤ s.serverlist.nodes := by
  have hsub : l ⊆ xs.map Prod.fst := fun a ha ↦ onList_mem hxs (hl a ha)
  have hlength := (hnodup.subperm hsub).length_le
  rw [List.length_map] at hlength
  exact hlength.trans hxs.linked.length_le

/-- What `new_server` does. -/
theorem newServer_eq_some (hs' : newServer a name s = some s') :
    s.serverlist.heap a = none ∧
      s' = { s with
        servercnt := s.servercnt + 1
        serverlist := s.serverlist.push a ⟨none, none, none, name⟩ } := by
  rw [newServer] at hs'
  cases hheap : s.serverlist.heap a with
  | some node =>
    rw [hheap] at hs'
    cases hs'
  | none =>
    rw [hheap] at hs'
    exact ⟨rfl, (Option.some.inj hs').symm⟩

theorem newServer_val (hs' : newServer a name s = some s') :
    s'.val = Function.update s.val a (some ⟨none, none, none, name⟩) := by
  obtain ⟨-, rfl⟩ := newServer_eq_some hs'
  exact s.serverlist.val_push a _

theorem newServer_onList (hxs : OnList s xs) (hs' : newServer a name s = some s') :
    OnList s' ((a, ⟨none, none, none, name⟩) :: xs) := by
  have hval := newServer_val hs'
  obtain ⟨hheap, rfl⟩ := newServer_eq_some hs'
  have ha : s.val a = none := congrArg (Option.map Node.val) hheap
  refine ⟨hxs.linked.push hheap _, fun b w ↦ ?_⟩
  rw [hval, List.mem_cons, hxs.mem_iff, Prod.mk.injEq]
  by_cases hb : b = a
  · rw [hb, Function.update_self, ha]
    simp [eq_comm]
  · rw [Function.update_of_ne hb]
    exact or_iff_right fun h ↦ hb h.1

theorem write_val (a : ℕ) (f : Server → Server) (s : Network) :
    (s.write a f).val = Function.update s.val a ((s.val a).map f) :=
  s.serverlist.val_modifyVal a f

theorem write_onList (hxs : OnList s xs) (a : ℕ) (f : Server → Server) :
    OnList (s.write a f) (xs.map (mapVal f a)) := by
  refine ⟨hxs.linked.modifyVal f a, fun b w ↦ ?_⟩
  rw [write_val, List.mem_map]
  by_cases hb : b = a
  · rw [hb, Function.update_self, Option.map_eq_some_iff]
    constructor
    · rintro ⟨⟨c, u⟩, hmem, heq⟩
      obtain rfl : c = a := (mapVal_fst f a (c, u)).symm.trans (congrArg Prod.fst heq)
      rw [mapVal, if_pos rfl] at heq
      exact ⟨u, (hxs.mem_iff c u).mp hmem, congrArg Prod.snd heq⟩
    · rintro ⟨u, hu, rfl⟩
      exact ⟨(a, u), (hxs.mem_iff a u).mpr hu, if_pos rfl⟩
  · rw [Function.update_of_ne hb, ← hxs.mem_iff]
    constructor
    · rintro ⟨⟨c, u⟩, hmem, heq⟩
      have hc : c = b := (mapVal_fst f a (c, u)).symm.trans (congrArg Prod.fst heq)
      rw [mapVal, if_neg (hc ▸ hb)] at heq
      exact heq ▸ hmem
    · exact fun hmem ↦ ⟨(b, w), hmem, if_neg hb⟩

theorem deleteServer_val (a : ℕ) (s : Network) :
    (deleteServer a s).val = Function.update s.val a none :=
  s.serverlist.val_unlink a

theorem deleteServer_onList (hxs : OnList s xs) (ha : (s.val a).isSome) :
    ∃ ys, OnList (deleteServer a s) ys := by
  obtain ⟨v, hv⟩ := Option.isSome_iff_exists.mp ha
  obtain ⟨pre, post, rfl⟩ := List.append_of_mem ((hxs.mem_iff a v).mpr hv)
  have hnot := hxs.linked.nodup_middle.1
  refine ⟨pre ++ post, hxs.linked.unlink, fun b w ↦ ?_⟩
  rw [deleteServer_val]
  by_cases hb : b = a
  · rw [hb, Function.update_self]
    refine iff_of_false (fun hmem ↦ ?_) (Option.some_ne_none w).symm
    rcases List.mem_append.mp hmem with hpre | hpost
    · exact hnot.1 (List.mem_map_of_mem hpre)
    · exact hnot.2 (List.mem_map_of_mem hpost)
  · rw [Function.update_of_ne hb, ← hxs.mem_iff, List.mem_append, List.mem_append, List.mem_cons]
    have hhead : (b, w) ≠ (a, v) := fun heq ↦ hb (congrArg Prod.fst heq)
    rw [or_iff_right hhead]

end Lists

/-! ### Finding servers -/

section Finding

variable {s s' : Network} {xs : List (ℕ × Server)} {name : CString} {found : Option ℕ}

/-- A search finds a server of that name on the list if there is one, and none otherwise. It changes nothing
but the server last found. -/
structure Finds (s : Network) (name : CString) (found : Option ℕ) (s' : Network) : Prop where
  serverlist : s'.serverlist = s.serverlist
  cached : ∀ a, s'.lastserver = some a → (s.val a).isSome
  some_iff : ∀ a, found = some a → ∃ v, s.val a = some v ∧ stricmp name v.name = 0
  none_iff : found = none → ∀ a v, s.val a = some v → stricmp name v.name ≠ 0

theorem finds_searchServer (hxs : OnList s xs) (hcached : ∀ a, s.lastserver = some a → (s.val a).isSome)
    (name : CString) : Finds s name (searchServer name s).1 (searchServer name s).2 := by
  rw [searchServer, hxs.linked.toList_eq]
  cases hfind : xs.find? fun x ↦ stricmp name x.2.name = 0 with
  | none =>
    refine ⟨rfl, hcached, fun a ha ↦ (nomatch ha), fun _ a v hv ↦ ?_⟩
    have hall := List.find?_eq_none.mp hfind (a, v) ((hxs.mem_iff a v).mpr hv)
    simpa using hall
  | some x =>
    obtain ⟨a, v⟩ := x
    have hval : s.val a = some v := (hxs.mem_iff a v).mp (List.mem_of_find?_eq_some hfind)
    have hname : stricmp name v.name = 0 := by simpa using List.find?_some hfind
    refine ⟨rfl, fun b hb ↦ ?_, fun b hb ↦ ?_, fun hnone ↦ (nomatch hnone)⟩
    · obtain rfl := Option.some.inj hb
      rw [hval]
      rfl
    · obtain rfl := Option.some.inj hb
      exact ⟨v, hval, hname⟩

theorem findserver_spec (hxs : OnList s xs) (hcached : ∀ a, s.lastserver = some a → (s.val a).isSome)
    (name : CString) : ∃ found s', findserver name s = some (found, s') ∧ Finds s name found s' := by
  have hsearch := finds_searchServer hxs hcached name
  rw [findserver]
  cases hlast : s.lastserver with
  | none => exact ⟨_, _, rfl, hsearch⟩
  | some a =>
    obtain ⟨v, hv⟩ := Option.isSome_iff_exists.mp (hcached a hlast)
    dsimp only
    rw [hv, Option.map_some]
    split_ifs with hname
    · refine ⟨_, _, rfl, rfl, hcached, fun b hb ↦ ?_, fun hnone ↦ (nomatch hnone)⟩
      obtain rfl := Option.some.inj hb
      exact ⟨v, hv, hname⟩
    · exact ⟨_, _, rfl, hsearch⟩

theorem Finds.sound (hfinds : Finds s name found s') (hs : Sound s) : Sound s' := by
  obtain ⟨xs, hxs⟩ := hs.onList
  refine ⟨⟨xs, hxs.congr hfinds.serverlist⟩, ?_, fun b hb ↦ ?_⟩
  · rw [links_congr hfinds.serverlist, val_congr hfinds.serverlist, hfinds.serverlist]
    exact hs.forest
  · rw [val_congr hfinds.serverlist]
    exact hfinds.cached b hb

end Finding

/-! ### New servers -/

section Linking

variable {s s' s₂ : Network} {a h t : ℕ} {v : Server} {xs : List (ℕ × Server)} {name : CString}

/-- The walk to the last sibling comes to the end of the chain. -/
theorem lastSibling_chain {cs : List ℕ} {c : ℕ} (hchain : Chain s.links (some c) (c :: cs)) (fuel : ℕ)
    (hfuel : cs.length < fuel) : ∃ pre t, c :: cs = pre ++ [t] ∧ lastSibling s fuel c = some t := by
  induction cs generalizing c fuel with
  | nil =>
    obtain ⟨-, n, hn, hend⟩ := hchain
    obtain ⟨v, hv, rfl⟩ := links_eq_some_iff.mp hn
    obtain ⟨fuel, rfl⟩ : ∃ k, fuel = k + 1 := ⟨fuel - 1, by simp at hfuel; omega⟩
    have hsibling : v.sibling = none := hend
    refine ⟨[], c, rfl, ?_⟩
    rw [lastSibling, hv, Option.bind_some]
    simp only [hsibling]
  | cons d cs ih =>
    obtain ⟨-, n, hn, hnext, hrest⟩ := hchain
    obtain ⟨v, hv, rfl⟩ := links_eq_some_iff.mp hn
    rw [List.length_cons] at hfuel
    obtain ⟨fuel, rfl⟩ : ∃ k, fuel = k + 1 := ⟨fuel - 1, by omega⟩
    obtain ⟨pre, t, hsplit, hlast⟩ := ih (c := d) ⟨rfl, hrest⟩ fuel (by omega)
    have hsibling : v.sibling = some d := hnext
    refine ⟨c :: pre, t, by rw [hsplit, List.cons_append], ?_⟩
    rw [lastSibling, hv, Option.bind_some]
    simp only [hsibling]
    exact hlast

theorem newServer_links (hs' : newServer a name s = some s') :
    s'.links = Function.update s.links a (some ⟨none, none, none⟩) := by
  ext1 b
  rw [Network.links, newServer_val hs']
  by_cases hb : b = a
  · rw [hb, Function.update_self, Function.update_self]
    rfl
  · rw [Function.update_of_ne hb, Function.update_of_ne hb]
    rfl

theorem write_links (a : ℕ) (f : Server → Server) (s : Network) :
    (s.write a f).links = Function.update s.links a ((s.val a).map fun v ↦ (f v).links) := by
  ext1 b
  rw [Network.links, write_val]
  by_cases hb : b = a
  · rw [hb, Function.update_self, Function.update_self, Option.map_map]
    rfl
  · rw [Function.update_of_ne hb, Function.update_of_ne hb]
    rfl

/-- A new server that hangs nowhere. -/
theorem newServer_sound (hs : Sound s) (hs' : newServer a name s = some s') : Sound s' := by
  obtain ⟨xs, hxs⟩ := hs.onList
  obtain ⟨rank, hforest, hrank⟩ := hs.forest
  have hval := newServer_val hs'
  have hlinks := newServer_links hs'
  have hlisted := newServer_onList hxs hs'
  obtain ⟨hheap, rfl⟩ := newServer_eq_some hs'
  have ha : s.val a = none := congrArg (Option.map Node.val) hheap
  refine ⟨⟨_, hlisted⟩, ⟨Function.update rank a s.serverlist.nodes, ?_, fun b hb ↦ ?_⟩, fun b hb ↦ ?_⟩
  · rw [hlinks]
    exact hforest.addRoot (links_eq_none_iff.mpr ha) _
  · show Function.update rank a s.serverlist.nodes b < s.serverlist.nodes + 1
    by_cases hba : b = a
    · rw [hba, Function.update_self]
      exact Nat.lt_succ_self _
    · rw [hval, Function.update_of_ne hba] at hb
      rw [Function.update_of_ne hba]
      exact Nat.lt_succ_of_lt (hrank b hb)
  · rw [hval]
    have hsome := hs.cached b hb
    rwa [Function.update_of_ne]
    rintro rfl
    rw [ha] at hsome
    cases hsome

theorem write_isSome (a : ℕ) (f : Server → Server) (s : Network) (b : ℕ) :
    ((s.write a f).val b).isSome = (s.val b).isSome := by
  rw [write_val]
  by_cases hb : b = a
  · rw [hb, Function.update_self, Option.isSome_map]
  · rw [Function.update_of_ne hb]

/-- Two writes to the tree after a new server, where the second leads to it, keep the forest. -/
theorem sound_of_linked (hs : Sound s) (hs' : newServer a name s = some s') (hhub : (s.val h).isSome)
    (hsame : s₂.serverlist = s'.serverlist) (hlast : ∀ b, s₂.lastserver = some b → (s'.val b).isSome)
    (f : Server → Server) (hv : s.val t = some v) (hkeeps : Keeps h t v.links (f v).links)
    (hchain : ∀ w, Function.update s.links t (some (f v).links) h = some w →
      ∃ cs, Chain (Function.update (Function.update s.links a (some ⟨some h, none, none⟩)) t
          (some (f v).links)) w.child cs ∧ ∀ c, c ∈ cs ↔ ParentOf s.links c h ∨ c = a) :
    Sound ((s₂.write a fun server ↦ { server with hub := some h }).write t f) := by
  obtain ⟨xs, hxs⟩ := hs.onList
  obtain ⟨rank, hforest, hrank⟩ := hs.forest
  have hval : s₂.val = Function.update s.val a (some ⟨none, none, none, name⟩) :=
    (val_congr hsame).trans (newServer_val hs')
  have hlisted := (newServer_onList hxs hs').congr hsame
  obtain ⟨hheap, rfl⟩ := newServer_eq_some hs'
  have ha : s.val a = none := congrArg (Option.map Node.val) hheap
  have hta : t ≠ a := by
    rintro rfl
    rw [ha] at hv
    cases hv
  have hlinks : ((s₂.write a fun server ↦ { server with hub := some h }).write t f).links =
      Function.update (Function.update s.links a (some ⟨some h, none, none⟩)) t (some (f v).links) := by
    have hother : (s₂.write a fun server ↦ { server with hub := some h }).val t = some v := by
      rw [write_val, Function.update_of_ne hta, hval, Function.update_of_ne hta, hv]
    rw [write_links, hother, write_links, hval, Function.update_self, links_congr hsame,
      newServer_links hs', Function.update_idem]
    rfl
  refine ⟨⟨_, write_onList (write_onList hlisted a _) t f⟩,
    ⟨Function.update rank a s.serverlist.nodes, ?_, fun b hb ↦ ?_⟩, fun b hb ↦ ?_⟩
  · rw [hlinks]
    refine hforest.addLeafAt (fun b hb ↦ hrank b ?_) (links_eq_none_iff.mpr ha) ?_ (links_of_val hv) hkeeps hchain
    · rwa [isSome_links] at hb
    · rwa [isSome_links]
  · show Function.update rank a s.serverlist.nodes b < s₂.serverlist.nodes
    rw [hsame]
    show Function.update rank a s.serverlist.nodes b < s.serverlist.nodes + 1
    by_cases hba : b = a
    · rw [hba, Function.update_self]
      exact Nat.lt_succ_self _
    · rw [write_isSome, write_isSome, hval, Function.update_of_ne hba] at hb
      rw [Function.update_of_ne hba]
      exact Nat.lt_succ_of_lt (hrank b hb)
  · rw [write_isSome, write_isSome, val_congr hsame]
    exact hlast b hb

/-- A new server behind the last child of its hub. -/
theorem linkServer_sound (hs : Sound s) (hs' : newServer a name s = some s') (hhub : (s.val h).isSome)
    (hsame : s₂.serverlist = s'.serverlist) (hlast : ∀ b, s₂.lastserver = some b → (s'.val b).isSome) :
    ∃ s₃, linkServer a h s₂ = some s₃ ∧ Sound s₃ := by
  obtain ⟨xs, hxs⟩ := hs.onList
  obtain ⟨rank, hforest, -⟩ := hs.forest
  obtain ⟨v, hv⟩ := Option.isSome_iff_exists.mp hhub
  have hval : s₂.val = Function.update s.val a (some ⟨none, none, none, name⟩) :=
    (val_congr hsame).trans (newServer_val hs')
  have hlinks : s₂.links = Function.update s.links a (some ⟨none, none, none⟩) :=
    (links_congr hsame).trans (newServer_links hs')
  have hheap := (newServer_eq_some hs').1
  have ha : s.val a = none := congrArg (Option.map Node.val) hheap
  have hne {b : ℕ} (hb : (s.val b).isSome) : b ≠ a := by
    rintro rfl
    rw [ha] at hb
    cases hb
  have hread : (s₂.write a fun server ↦ { server with hub := some h }).val h = some v := by
    rw [write_val, Function.update_of_ne (hne hhub), hval, Function.update_of_ne (hne hhub), hv]
  have hwritten : (s₂.write a fun server ↦ { server with hub := some h }).links =
      Function.update s.links a (some ⟨some h, none, none⟩) := by
    rw [write_links, hval, Function.update_self, hlinks, Function.update_idem]
    rfl
  obtain ⟨cs, hchain, hmem⟩ := hforest.children h v.links (links_of_val hv)
  rw [linkServer, hread, Option.bind_some]
  cases hchild : v.child with
  | none =>
    refine ⟨_, rfl, sound_of_linked hs hs' hhub hsame hlast _ hv ⟨rfl, fun hne ↦ absurd rfl hne, fun _ ↦ rfl⟩ ?_⟩
    intro w hw
    rw [Function.update_self] at hw
    obtain rfl := Option.some.inj hw
    have hend : Chain s.links v.links.child [] := hchild
    have hnoChild : cs = [] := hchain.unique hend
    refine ⟨[a], ⟨rfl, ⟨some h, none, none⟩, ?_, rfl⟩, fun c ↦ ?_⟩
    · rw [Function.update_of_ne (hne hhub).symm, Function.update_self]
    · rw [List.mem_singleton, ← hmem, hnoChild]
      exact (or_iff_right List.not_mem_nil).symm
  | some child =>
    have hsomeChild : v.links.child = some child := hchild
    rw [hsomeChild] at hchain
    have hmoved : Chain (s₂.write a fun server ↦ { server with hub := some h }).links (some child) cs := by
      refine hchain.congr fun c hc w hw ↦ ⟨w, ?_, rfl⟩
      rw [hwritten, Function.update_of_ne (hne ?_), hw]
      rw [← isSome_links, hw]
      rfl
    have hhead : ∃ rest, cs = child :: rest := by
      cases cs with
      | nil => exact absurd hchain (Option.some_ne_none child)
      | cons c rest => exact ⟨rest, by rw [Option.some.inj hchain.1]⟩
    obtain ⟨rest, rfl⟩ := hhead
    have hshort : rest.length < s₂.serverlist.nodes + 1 := by
      have hlength := ((newServer_onList hxs hs').congr hsame).length_le hchain.nodup fun c hc ↦ ?_
      · rw [List.length_cons] at hlength
        omega
      · obtain ⟨w, hw, -⟩ := (hmem c).mp hc
        have hsome : (s.val c).isSome := by
          rw [← isSome_links, hw]
          rfl
        rwa [hval, Function.update_of_ne (hne hsome)]
    obtain ⟨pre, t, hsplit, hlastSibling⟩ := lastSibling_chain hmoved (s₂.serverlist.nodes + 1) hshort
    have hparent : ParentOf s.links t h := (hmem t).mp (by rw [hsplit]; simp)
    obtain ⟨n, hn, hnh⟩ := id hparent
    obtain ⟨u, hu, rfl⟩ := links_eq_some_iff.mp hn
    have hht : h ≠ t := by
      rintro rfl
      exact absurd (hforest.rank_lt h h hparent) (lt_irrefl _)
    have hta : t ≠ a := hne (by rw [hu]; rfl)
    have hlastSibling : lastSibling (s₂.write a fun server ↦ { server with hub := some h })
        ((s₂.write a fun server ↦ { server with hub := some h }).serverlist.nodes + 1) child = some t :=
      hlastSibling
    dsimp only
    rw [hlastSibling, Option.map_some]
    refine ⟨_, rfl, sound_of_linked hs hs' hhub hsame hlast _ hu
      ⟨rfl, fun _ ↦ rfl, fun hnot ↦ absurd hnh hnot⟩ ?_⟩
    intro w hw
    rw [Function.update_of_ne hht, links_of_val hv] at hw
    obtain rfl := Option.some.inj hw
    rw [hsomeChild]
    rw [hsplit] at hmoved hmem
    rw [hwritten] at hmoved
    refine ⟨pre ++ [t, a], hmoved.append (fun d hd w hw ↦ ⟨w, ?_, rfl⟩) ⟨_, Function.update_self .., rfl⟩
      ⟨⟨some h, none, none⟩, ?_, rfl⟩, fun c ↦ ?_⟩
    · have hdt : d ≠ t := by
        rintro rfl
        exact (List.nodup_append.mp hmoved.nodup).2.2 d hd d (List.mem_singleton_self d) rfl
      rw [Function.update_of_ne hdt, hw]
    · rw [Function.update_of_ne hta.symm, Function.update_self]
    · rw [← hmem]
      simp [or_assoc]

/-- The server is not announced by itself, unless the server last found has its name. -/
def NotItsOwnHub (s : Network) (source servername : CString) : Prop :=
  source = [] ∨ stricmp source servername ≠ 0 ∨
    ∃ c v, s.lastserver = some c ∧ s.val c = some v ∧ stricmp source v.name = 0

/-- Then the hub is a server that was known before. -/
theorem hub_isSome (hs : Sound s) (hs' : newServer a name s = some s') {source : CString}
    (hsource : source ≠ []) (hown : NotItsOwnHub s source name)
    (hfound : findserver source s' = some (some h, s₂)) : (s.val h).isSome := by
  have hlast : s'.lastserver = s.lastserver := by
    obtain ⟨-, rfl⟩ := newServer_eq_some hs'
    rfl
  have hval := newServer_val hs'
  have ha : s.val a = none := congrArg (Option.map Node.val) (newServer_eq_some hs').1
  obtain ⟨xs, hxs⟩ := hs.onList
  obtain ⟨found, s₃, heq, hfinds⟩ :=
    findserver_spec (newServer_onList hxs hs') (newServer_sound hs hs').cached source
  rw [hfound] at heq
  obtain ⟨rfl, rfl⟩ := Prod.mk.inj (Option.some.inj heq)
  obtain ⟨v, hv, hmatch⟩ := hfinds.some_iff h rfl
  by_contra hunknown
  have hha : h = a := by
    by_contra hha
    rw [hval, Function.update_of_ne hha] at hv
    exact hunknown (by rw [hv]; rfl)
  subst hha
  rcases hown with hnil | hname | ⟨c, w, hc, hw, hknown⟩
  · exact hsource hnil
  · rw [hval, Function.update_self] at hv
    obtain rfl := Option.some.inj hv
    exact hname hmatch
  · have hch : c ≠ h := by
      rintro rfl
      rw [ha] at hw
      cases hw
    rw [findserver, hlast, hc] at hfound
    dsimp only at hfound
    rw [hval, Function.update_of_ne hch, hw, Option.map_some, if_pos hknown] at hfound
    obtain ⟨heq, -⟩ := Prod.mk.inj (Option.some.inj hfound)
    exact hch (Option.some.inj heq)

/-- `do_server` keeps the forest. -/
theorem doServer_sound (hs : Sound s) (hfree : s.serverlist.heap a = none) {source : CString}
    (hown : NotItsOwnHub s source name) : ∃ s', doServer source name a s = some s' ∧ Sound s' := by
  obtain ⟨s', hs'⟩ : ∃ s', newServer a name s = some s' := by
    rw [newServer, hfree]
    exact ⟨_, rfl⟩
  have hsound := newServer_sound hs hs'
  rw [doServer, hs', Option.bind_some]
  split_ifs with hsource
  · exact ⟨s', rfl, hsound⟩
  · obtain ⟨xs, hxs⟩ := hsound.onList
    obtain ⟨found, s₂, hfound, hfinds⟩ := findserver_spec hxs hsound.cached source
    rw [hfound, Option.bind_some]
    cases found with
    | none =>
      exact ⟨s₂, rfl, hfinds.sound hsound⟩
    | some hub =>
      exact linkServer_sound hs hs' (hub_isSome hs hs' hsource hown hfound) hfinds.serverlist hfinds.cached

end Linking

/-! ### Servers that quit -/

section Squitting

open Relation

variable {s s' s₂ : Network} {a b h t : ℕ} {v : Server} {xs : List (ℕ × Server)} {name : CString} {l : List ℕ}

/-- The servers are deleted one after the other. -/
def squitted (l : List ℕ) (s : Network) : Network := l.foldl (fun s a ↦ deleteServer a s) s

@[simp] theorem squitted_nodes (l : List ℕ) (s : Network) :
    (squitted l s).serverlist.nodes = s.serverlist.nodes := by
  induction l generalizing s with
  | nil => rfl
  | cons a l ih => exact (ih (deleteServer a s)).trans (s.serverlist.unlink_nodes a)

theorem squitted_val (hb : b ∉ l) : (squitted l s).val b = s.val b := by
  induction l generalizing s with
  | nil => rfl
  | cons a l ih =>
    obtain ⟨hba, hb⟩ := not_or.mp (List.mem_cons.not.mp hb)
    show (squitted l (deleteServer a s)).val b = s.val b
    rw [ih hb, deleteServer_val, Function.update_of_ne hba]

theorem squitted_val_mem (hb : b ∈ l) : (squitted l s).val b = none := by
  induction l generalizing s with
  | nil => exact absurd hb List.not_mem_nil
  | cons a l ih =>
    show (squitted l (deleteServer a s)).val b = none
    by_cases hl : b ∈ l
    · exact ih hl
    · obtain rfl := (List.mem_cons.mp hb).resolve_right hl
      rw [squitted_val hl, deleteServer_val, Function.update_self]

theorem deleteServer_cached (hcached : ∀ b, s.lastserver = some b → (s.val b).isSome) (a : ℕ) :
    ∀ b, (deleteServer a s).lastserver = some b → ((deleteServer a s).val b).isSome := by
  intro b hb
  have hlast : (if s.lastserver = some a then none else s.lastserver) = some b := hb
  split_ifs at hlast with hsa
  have hba : b ≠ a := by
    rintro rfl
    exact hsa hlast
  rw [deleteServer_val, Function.update_of_ne hba]
  exact hcached b hlast

theorem squitted_spec (hxs : OnList s xs) (hcached : ∀ b, s.lastserver = some b → (s.val b).isSome)
    (hnodup : l.Nodup) (hl : ∀ b ∈ l, (s.val b).isSome) :
    (∃ ys, OnList (squitted l s) ys) ∧
      ∀ b, (squitted l s).lastserver = some b → ((squitted l s).val b).isSome := by
  induction l generalizing s xs with
  | nil => exact ⟨⟨xs, hxs⟩, hcached⟩
  | cons a l ih =>
    obtain ⟨hal, hnodup⟩ := List.nodup_cons.mp hnodup
    obtain ⟨ha, hl⟩ := List.forall_mem_cons.mp hl
    obtain ⟨ys, hys⟩ := deleteServer_onList hxs ha
    refine ih hys (deleteServer_cached hcached a) hnodup fun b hb ↦ ?_
    rw [deleteServer_val, Function.update_of_ne]
    · exact hl b hb
    · rintro rfl
      exact hal hb

/-- `recursive_squit` deletes what hangs under a pointer. -/
theorem recursiveSquit_below {val : ℕ → Option TreeNode} {p : Option ℕ} (hbelow : Below val p l)
    (hnodup : l.Nodup) (hval : ∀ b ∈ l, s.links b = val b) (fuel : ℕ) (hfuel : l.length < fuel) :
    recursiveSquit fuel p s = some (squitted l s) := by
  induction hbelow generalizing s fuel with
  | nil =>
    obtain ⟨fuel, rfl⟩ : ∃ k, fuel = k + 1 := ⟨fuel - 1, by simp at hfuel; omega⟩
    rfl
  | @cons a n inner rest hn hinner hrest ihinner ihrest =>
    rw [List.length_append, List.length_cons] at hfuel
    obtain ⟨fuel, rfl⟩ : ∃ k, fuel = k + 1 := ⟨fuel - 1, by omega⟩
    rw [List.nodup_middle, List.nodup_cons, List.mem_append, not_or] at hnodup
    obtain ⟨⟨hainner, harest⟩, hnodup⟩ := hnodup
    obtain ⟨hnodupInner, hnodupRest, hapart⟩ := List.nodup_append.mp hnodup
    obtain ⟨v, hv, rfl⟩ := links_eq_some_iff.mp ((hval a (by simp)).trans hn)
    have hfirst : (if v.child.isSome then recursiveSquit fuel v.child s else some s) =
        some (squitted inner s) := by
      split_ifs with hchild
      · exact ihinner hnodupInner (fun b hb ↦ hval b (List.mem_append_left _ hb)) fuel (by omega)
      · have hnone : v.links.child = none := Option.not_isSome_iff_eq_none.mp hchild
        rw [hnone] at hinner
        cases hinner
        rfl
    have hsecond : recursiveSquit fuel v.sibling (deleteServer a (squitted inner s)) =
        some (squitted rest (deleteServer a (squitted inner s))) := by
      refine ihrest hnodupRest (fun b hb ↦ ?_) fuel (by omega)
      have hba : b ≠ a := by
        rintro rfl
        exact harest hb
      have hbinner : b ∉ inner := fun hmem ↦ hapart b hmem b hb rfl
      rw [Network.links, deleteServer_val, Function.update_of_ne hba, squitted_val hbinner]
      exact hval b (List.mem_append_right _ (List.mem_cons_of_mem _ hb))
    rw [recursiveSquit, hv, Option.bind_some, hfirst, Option.bind_some, squitted_val hainner, hv,
      Option.bind_some, hsecond, squitted, squitted, squitted, List.foldl_append, List.foldl_cons]

/-- The search comes to the server before the one that quits. -/
theorem unchain_chain {pre post : List ℕ} {c : ℕ} {sibling : Option ℕ}
    (hchain : Chain s.links (some c) (pre ++ t :: a :: post)) (fuel : ℕ) (hfuel : pre.length < fuel) :
    unchain a sibling s fuel c = some (s.write t fun server ↦ { server with sibling := sibling }) := by
  have hnodup := hchain.nodup
  induction pre generalizing c fuel with
  | nil =>
    obtain ⟨fuel, rfl⟩ : ∃ k, fuel = k + 1 := ⟨fuel - 1, by simp at hfuel; omega⟩
    obtain ⟨htc, n, hn, hnext, -⟩ := hchain
    obtain rfl := Option.some.inj htc
    obtain ⟨v, hv, rfl⟩ := links_eq_some_iff.mp hn
    have hsibling : v.sibling = some a := hnext
    rw [unchain, hv, Option.bind_some]
    simp only [hsibling, if_true]
  | cons d pre ih =>
    rw [List.length_cons] at hfuel
    obtain ⟨fuel, rfl⟩ : ∃ k, fuel = k + 1 := ⟨fuel - 1, by omega⟩
    obtain ⟨hdc, n, hn, hrest⟩ := hchain
    obtain rfl := Option.some.inj hdc
    obtain ⟨v, hv, rfl⟩ := links_eq_some_iff.mp hn
    rw [List.cons_append, List.nodup_cons] at hnodup
    obtain ⟨next, hnext⟩ : ∃ next, v.links.sibling = some next := by
      cases pre with
      | nil => exact ⟨t, hrest.1⟩
      | cons e pre => exact ⟨e, hrest.1⟩
    rw [hnext] at hrest
    have hna : next ≠ a := by
      rintro rfl
      have hnodup := hnodup.2
      cases pre with
      | nil =>
        obtain rfl := Option.some.inj hrest.1
        simp at hnodup
      | cons e pre =>
        obtain rfl := Option.some.inj hrest.1
        simp at hnodup
    have hsibling : v.sibling = some next := hnext
    rw [unchain, hv, Option.bind_some]
    simp only [hsibling, if_neg hna]
    exact ih hrest fuel (by omega) hnodup.2

/-- Exactly a server and the servers behind it are removed. -/
structure RemovesExactly (s : Network) (a : ℕ) (s' : Network) : Prop where
  isSome_iff : ∀ b, (s'.val b).isSome ↔ (s.val b).isSome ∧ ¬ ReflTransGen (ParentOf s.links) b a
  kept : ∀ b v', s'.val b = some v' → ∃ v, s.val b = some v ∧ v'.name = v.name ∧ v'.hub = v.hub

/-- After the servers behind it a server is deleted, and a write leads past it. -/
theorem removesExactly_of_unlinked (hs : Sound s) (hl : ∀ b, b ∈ l ↔ TransGen (ParentOf s.links) b a)
    (hnodup : l.Nodup) (ha : ParentOf s.links a h) {x : ℕ} {w : Server} (hx : s.val x = some w)
    (hxa : ¬ ReflTransGen (ParentOf s.links) x a) (f : Server → Server)
    (hname : (f w).name = w.name) (hkeeps : Keeps h x w.links (f w).links)
    (hchain : ∀ val', val' x = some (f w).links →
      (∀ b, ¬ ReflTransGen (ParentOf s.links) b a → b ≠ x → val' b = s.links b) → ∀ n, val' h = some n →
        ∃ cs, Chain val' n.child cs ∧ ∀ c, c ∈ cs ↔ ParentOf s.links c h ∧ c ≠ a) :
    Sound (deleteServer a ((squitted l s).write x f)) ∧
      RemovesExactly s a (deleteServer a ((squitted l s).write x f)) := by
  obtain ⟨xs, hxs⟩ := hs.onList
  obtain ⟨rank, hforest, hrank⟩ := hs.forest
  have hbelow (b : ℕ) : ReflTransGen (ParentOf s.links) b a ↔ b = a ∨ b ∈ l := by
    rw [hl, reflTransGen_iff_eq_or_transGen, eq_comm]
  have hsomeOf (b : ℕ) (hb : b ∈ l) : (s.val b).isSome := by
    obtain ⟨c, ⟨n, hn, -⟩, -⟩ := TransGen.head'_iff.mp ((hl b).mp hb)
    rw [← isSome_links, hn]
    rfl
  have hasome : (s.val a).isSome := by
    obtain ⟨n, hn, -⟩ := id ha
    rw [← isSome_links, hn]
    rfl
  rw [hbelow, not_or] at hxa
  have hal : a ∉ l := fun hmem ↦ hforest.acyclic a ((hl a).mp hmem)
  have hgone (b : ℕ) (hb : ReflTransGen (ParentOf s.links) b a) :
      (deleteServer a ((squitted l s).write x f)).val b = none := by
    rw [deleteServer_val]
    rcases (hbelow b).mp hb with rfl | hbl
    · exact Function.update_self ..
    · have hba : b ≠ a := by
        rintro rfl
        exact hal hbl
      have hbx : b ≠ x := by
        rintro rfl
        exact hxa.2 hbl
      rw [Function.update_of_ne hba, write_val, Function.update_of_ne hbx, squitted_val_mem hbl]
  have hself : (deleteServer a ((squitted l s).write x f)).val x = some (f w) := by
    rw [deleteServer_val, Function.update_of_ne hxa.1, write_val, Function.update_self,
      squitted_val hxa.2, hx, Option.map_some]
  have hsame (b : ℕ) (hb : ¬ ReflTransGen (ParentOf s.links) b a) (hbx : b ≠ x) :
      (deleteServer a ((squitted l s).write x f)).val b = s.val b := by
    rw [hbelow, not_or] at hb
    rw [deleteServer_val, Function.update_of_ne hb.1, write_val, Function.update_of_ne hbx, squitted_val hb.2]
  have hlinks (b : ℕ) (hb : ¬ ReflTransGen (ParentOf s.links) b a) (hbx : b ≠ x) :
      (deleteServer a ((squitted l s).write x f)).links b = s.links b :=
    congrArg (Option.map Server.links) (hsame b hb hbx)
  have hisSome (b : ℕ) : ((deleteServer a ((squitted l s).write x f)).val b).isSome ↔
      (s.val b).isSome ∧ ¬ ReflTransGen (ParentOf s.links) b a := by
    by_cases hb : ReflTransGen (ParentOf s.links) b a
    · rw [hgone b hb]
      exact iff_of_false Bool.false_ne_true fun h ↦ h.2 hb
    · rw [and_iff_left hb]
      by_cases hbx : b = x
      · rw [hbx, hself, hx]
        rfl
      · rw [hsame b hb hbx]
  obtain ⟨⟨ys, hys⟩, hcached⟩ := squitted_spec hxs hs.cached hnodup hsomeOf
  constructor
  · constructor
    · refine deleteServer_onList (write_onList hys x f) ?_
      rw [write_isSome, squitted_val hal]
      exact hasome
    · refine ⟨rank, ?_, fun b hb ↦ ?_⟩
      · refine hforest.removeAt ha (fun b hb ↦ ?_) (links_of_val hx) (links_of_val hself) hkeeps hlinks
          (hchain _ (links_of_val hself) hlinks)
        exact links_eq_none_iff.mpr (hgone b hb)
      · have hnodes : (deleteServer a ((squitted l s).write x f)).serverlist.nodes = s.serverlist.nodes :=
          (LinkedList.unlink_nodes a _).trans (squitted_nodes l s)
        rw [hnodes]
        exact hrank b ((hisSome b).mp hb).1
    · refine deleteServer_cached (fun b hb ↦ ?_) a
      rw [write_isSome]
      exact hcached b hb
  · refine ⟨hisSome, fun b v' hv' ↦ ?_⟩
    have hb := ((hisSome b).mp (by rw [hv']; rfl)).2
    by_cases hbx : b = x
    · subst hbx
      obtain rfl := Option.some.inj (hself.symm.trans hv')
      exact ⟨w, hx, hname, hkeeps.parent⟩
    · exact ⟨v', (hsame b hb hbx).symm.trans hv', rfl, rfl⟩

/-- What hangs under a server are those behind it. -/
theorem Sound.exists_below (hs : Sound s) (hv : s.val a = some v) :
    ∃ l, Below s.links v.child l ∧ l.Nodup ∧ (∀ b, b ∈ l ↔ TransGen (ParentOf s.links) b a) ∧
      l.length ≤ s.serverlist.nodes := by
  obtain ⟨xs, hxs⟩ := hs.onList
  obtain ⟨rank, hforest, hrank⟩ := hs.forest
  obtain ⟨l, hbelow, hnodup, hl⟩ := hforest.exists_below (n := s.serverlist.nodes)
    (fun b hb ↦ hrank b (by rwa [isSome_links] at hb)) (links_of_val hv)
  refine ⟨l, hbelow, hnodup, hl, hxs.length_le hnodup fun b hb ↦ ?_⟩
  obtain ⟨c, ⟨n, hn, -⟩, -⟩ := TransGen.head'_iff.mp ((hl b).mp hb)
  rw [← isSome_links, hn]
  rfl

/-- A server with a hub is removed with the servers behind it. -/
theorem squit_sound (hs : Sound s) (hv : s.val a = some v) (hhub : v.hub = some h) :
    ∃ l s', recursiveSquit (s.serverlist.nodes + 1) v.child s = some (squitted l s) ∧
      (squitted l s).val a = some v ∧ unlinkServer a h v.sibling (squitted l s) = some s' ∧
      Sound s' ∧ RemovesExactly s a s' := by
  obtain ⟨xs, hxs⟩ := hs.onList
  obtain ⟨rank, hforest, hrank⟩ := hs.forest
  have ha : ParentOf s.links a h := ⟨v.links, links_of_val hv, hhub⟩
  obtain ⟨l, hbelow, hnodup, hl, hlength⟩ := hs.exists_below hv
  have hal : a ∉ l := fun hmem ↦ hforest.acyclic a ((hl a).mp hmem)
  have hha : ¬ ReflTransGen (ParentOf s.links) h a :=
    fun hmem ↦ hforest.acyclic a (TransGen.head' ha hmem)
  have hhl : h ∉ l := fun hmem ↦ hha ((hl h).mp hmem).to_reflTransGen
  obtain ⟨u, hu⟩ := Option.isSome_iff_exists.mp (hforest.parent_isSome a h ha)
  obtain ⟨hub, hhubval, rfl⟩ := links_eq_some_iff.mp hu
  obtain ⟨cs, hcs, hmem⟩ := hforest.children h hub.links hu
  obtain ⟨pre, post, rfl⟩ := List.append_of_mem ((hmem a).mpr ha)
  have hapart (c : ℕ) (hc : ParentOf s.links c h) (hca : c ≠ a) : ¬ ReflTransGen (ParentOf s.links) c a :=
    fun hmem ↦ hca (hforest.siblings_disjoint hc ha .refl hmem)
  have hrec := recursiveSquit_below hbelow hnodup (fun _ _ ↦ rfl) (s.serverlist.nodes + 1) (by omega)
  have hnotMem (c : ℕ) (hc : ParentOf s.links c h) : c ∉ l := by
    intro hcl
    by_cases hca : c = a
    · exact hal (hca ▸ hcl)
    · exact hapart c hc hca ((hl c).mp hcl).to_reflTransGen
  have hne (c : ℕ) (hc : ParentOf s.links c h) : h ≠ c := by
    rintro rfl
    exact lt_irrefl _ (hforest.rank_lt h h hc)
  have hread : (squitted l s).val h = some hub := (squitted_val hhl).trans hhubval
  refine ⟨l, ?_⟩
  rw [unlinkServer, hread, Option.bind_some]
  have hnodupcs := hcs.nodup
  rcases List.eq_nil_or_concat pre with rfl | ⟨pre, t, rfl⟩
  · obtain ⟨hfirst, n, hn, hrest⟩ := hcs
    obtain rfl := Option.some.inj ((links_of_val hv).symm.trans hn)
    have hfirst : hub.child = some a := hfirst
    rw [if_pos hfirst, Option.map_some]
    refine ⟨_, hrec, (squitted_val hal).trans hv, rfl, ?_⟩
    refine removesExactly_of_unlinked hs hl hnodup ha hhubval hha _ rfl
      ⟨rfl, fun hne ↦ absurd rfl hne, fun _ ↦ rfl⟩ fun val' hself hsame n hn ↦ ?_
    obtain rfl := Option.some.inj (hself.symm.trans hn)
    obtain ⟨hapost, -⟩ := List.nodup_cons.mp hnodupcs
    refine ⟨post, hrest.congr fun c hc w hw ↦ ⟨w, ?_, rfl⟩, fun c ↦ ?_⟩
    · have hch := (hmem c).mp (List.mem_cons_of_mem _ hc)
      have hca : c ≠ a := by
        rintro rfl
        exact hapost hc
      rw [hsame c (hapart c hch hca) (hne c hch).symm, hw]
    · rw [← hmem, List.nil_append, List.mem_cons]
      constructor
      · intro hc
        refine ⟨.inr hc, ?_⟩
        rintro rfl
        exact hapost hc
      · rintro ⟨hc, hca⟩
        exact hc.resolve_left hca
  · rw [List.concat_eq_append, List.append_assoc, List.singleton_append] at hcs hmem hnodupcs
    have ht : ParentOf s.links t h := (hmem t).mp (by simp)
    obtain ⟨n, hn, hnh⟩ := id ht
    obtain ⟨w, hw, rfl⟩ := links_eq_some_iff.mp hn
    rw [List.nodup_append] at hnodupcs
    obtain ⟨-, hnoduptail, hdisjoint⟩ := hnodupcs
    have hta : t ≠ a := by
      rintro rfl
      simp at hnoduptail
    obtain ⟨c, hc⟩ : ∃ c, hub.links.child = some c := by
      cases pre with
      | nil => exact ⟨t, hcs.1⟩
      | cons c pre => exact ⟨c, hcs.1⟩
    have hca : c ≠ a := by
      cases pre with
      | nil =>
        obtain rfl := Option.some.inj (hc.symm.trans hcs.1)
        exact hta
      | cons d pre =>
        obtain rfl := Option.some.inj (hc.symm.trans hcs.1)
        exact hdisjoint c (List.mem_cons_self ..) a (by simp)
    have hchild : hub.child = some c := hc
    rw [hc] at hcs
    have hmoved : Chain (squitted l s).links (some c) (pre ++ t :: a :: post) := by
      refine hcs.congr fun d hd u hu ↦ ⟨u, ?_, rfl⟩
      rw [Network.links, squitted_val (hnotMem d ((hmem d).mp hd))]
      exact hu
    have hshort : pre.length < (squitted l s).serverlist.nodes + 1 := by
      have hlength := hxs.length_le hcs.nodup fun d hd ↦ ?_
      · rw [squitted_nodes]
        rw [List.length_append] at hlength
        omega
      · obtain ⟨u, hu, -⟩ := (hmem d).mp hd
        rw [← isSome_links, hu]
        rfl
    rw [hchild, if_neg fun heq ↦ hca (Option.some.inj heq), Option.bind_some,
      unchain_chain hmoved _ hshort, Option.map_some]
    refine ⟨_, hrec, (squitted_val hal).trans hv, rfl, ?_⟩
    refine removesExactly_of_unlinked hs hl hnodup ha hw (hapart t ht hta) _ rfl
      ⟨rfl, fun _ ↦ rfl, fun hnot ↦ absurd hnh hnot⟩ fun val' hself hsame n hn ↦ ?_
    rw [hsame h hha (hne t ht), hu] at hn
    obtain rfl := Option.some.inj hn
    rw [hc]
    refine ⟨pre ++ t :: post, hcs.bypass (links_of_val hv) (fun d hd u hu ↦ ⟨u, ?_, rfl⟩) ⟨_, hself, rfl⟩,
      fun d ↦ ?_⟩
    · have hdh : ParentOf s.links d h := (hmem d).mp (by
        rcases List.mem_append.mp hd with hd | hd
        · exact List.mem_append_left _ hd
        · simp [hd])
      have hda : d ≠ a ∧ d ≠ t := by
        rw [List.nodup_cons, List.nodup_cons] at hnoduptail
        rcases List.mem_append.mp hd with hd | hd
        · exact ⟨hdisjoint d hd a (by simp), hdisjoint d hd t (by simp)⟩
        · constructor
          · rintro rfl
            exact hnoduptail.2.1 hd
          · rintro rfl
            exact hnoduptail.1 (List.mem_cons_of_mem _ hd)
      rw [hsame d (hapart d hdh hda.1) hda.2, hu]
    · rw [← hmem, List.mem_append, List.mem_append, List.mem_cons, List.mem_cons, List.mem_cons]
      constructor
      · intro hd
        refine ⟨by tauto, ?_⟩
        rintro rfl
        rw [List.nodup_cons, List.nodup_cons] at hnoduptail
        rcases hd with hd | hd | hd
        · exact hdisjoint d hd d (by simp) rfl
        · exact hta hd.symm
        · exact hnoduptail.2.1 hd
      · rintro ⟨hd, hda⟩
        tauto

/-- A server without a hub stays when the servers behind it are removed. -/
theorem squit_root (hs : Sound s) (hv : s.val a = some v) :
    ∃ l, recursiveSquit (s.serverlist.nodes + 1) v.child s = some (squitted l s) ∧
      (squitted l s).val a = some v := by
  obtain ⟨xs, hxs⟩ := hs.onList
  obtain ⟨rank, hforest, hrank⟩ := hs.forest
  obtain ⟨l, hbelow, hnodup, hl, hlength⟩ := hs.exists_below hv
  have hal : a ∉ l := fun hmem ↦ hforest.acyclic a ((hl a).mp hmem)
  refine ⟨l, ?_, (squitted_val hal).trans hv⟩
  exact recursiveSquit_below hbelow hnodup (fun _ _ ↦ rfl) (s.serverlist.nodes + 1) (by omega)

/-- The server that a name denotes has a hub. -/
def NamesServerWithHub (s : Network) (name : CString) : Prop :=
  ∀ a s₂, findserver name s = some (some a, s₂) → ∃ v, s.val a = some v ∧ v.hub.isSome

/-- The SQUIT of a server removes exactly it and the servers behind it, and of an unknown name nothing. -/
def SquitRight (s : Network) (name : CString) : Prop :=
  ∃ s', doSquit name s = some s' ∧ ∀ found s₂, findserver name s = some (found, s₂) →
    match found with
    | none => s'.val = s.val
    | some a => RemovesExactly s a s'

/-- `do_squit` frees no server twice. A server without a hub stays on the list. -/
theorem doSquit_spec (hs : Sound s) (name : CString) :
    ∃ s', doSquit name s = some s' ∧ (NamesServerWithHub s name → Sound s') ∧
      (SquitRight s name ↔ NamesServerWithHub s name) := by
  obtain ⟨xs, hxs⟩ := hs.onList
  obtain ⟨found, s₂, hfound, hfinds⟩ := findserver_spec hxs hs.cached name
  have hs₂ := hfinds.sound hs
  cases found with
  | none =>
    have hquit : doSquit name s = some s₂ := by rw [doSquit, hfound, Option.bind_some]
    refine ⟨s₂, hquit, fun _ ↦ hs₂, iff_of_true ⟨s₂, hquit, fun found s₃ heq ↦ ?_⟩ fun a s₃ heq ↦ ?_⟩
    · rw [hfound] at heq
      obtain ⟨rfl, rfl⟩ := Prod.mk.inj (Option.some.inj heq)
      exact val_congr hfinds.serverlist
    · rw [hfound] at heq
      cases (Prod.mk.inj (Option.some.inj heq)).1
  | some a =>
    obtain ⟨v, hv, -⟩ := hfinds.some_iff a rfl
    rw [← val_congr hfinds.serverlist] at hv
    have hnames : NamesServerWithHub s name ↔ v.hub.isSome := by
      constructor
      · intro hnames
        obtain ⟨w, hw, hhub⟩ := hnames a s₂ hfound
        rw [← val_congr hfinds.serverlist, hv] at hw
        obtain rfl := Option.some.inj hw
        exact hhub
      · rintro hhub b s₃ heq
        rw [hfound] at heq
        obtain ⟨hab, -⟩ := Prod.mk.inj (Option.some.inj heq)
        obtain rfl := Option.some.inj hab
        exact ⟨v, (congrFun (val_congr hfinds.serverlist) a).symm.trans hv, hhub⟩
    have hright {s' : Network} (hquit : doSquit name s = some s') :
        SquitRight s name ↔ RemovesExactly s₂ a s' := by
      have hmoved : RemovesExactly s₂ a s' ↔ RemovesExactly s a s' := by
        constructor
        · rintro ⟨hisSome, hkept⟩
          rw [val_congr hfinds.serverlist, links_congr hfinds.serverlist] at hisSome
          rw [val_congr hfinds.serverlist] at hkept
          exact ⟨hisSome, hkept⟩
        · rintro ⟨hisSome, hkept⟩
          rw [← val_congr hfinds.serverlist, ← links_congr hfinds.serverlist] at hisSome
          rw [← val_congr hfinds.serverlist] at hkept
          exact ⟨hisSome, hkept⟩
      rw [hmoved]
      constructor
      · rintro ⟨s₃, hquit', hexact⟩
        obtain rfl := Option.some.inj (hquit.symm.trans hquit')
        exact hexact (some a) s₂ hfound
      · intro hexact
        refine ⟨s', hquit, fun found s₃ heq ↦ ?_⟩
        rw [hfound] at heq
        obtain ⟨rfl, -⟩ := Prod.mk.inj (Option.some.inj heq)
        exact hexact
    cases hhub : v.hub with
    | some h =>
      obtain ⟨l, s', hrec, hread, hunlink, hsound, hexact⟩ := squit_sound hs₂ hv hhub
      have hquit : doSquit name s = some s' := by
        rw [doSquit, hfound, Option.bind_some]
        dsimp only
        rw [hv, Option.bind_some, hrec, Option.bind_some, hread, Option.bind_some]
        simp only [hhub]
        exact hunlink
      refine ⟨s', hquit, fun _ ↦ hsound, iff_of_true ((hright hquit).mpr hexact) (hnames.mpr ?_)⟩
      rw [hhub]
      rfl
    | none =>
      obtain ⟨l, hrec, hread⟩ := squit_root hs₂ hv
      have hquit : doSquit name s = some (squitted l s₂) := by
        rw [doSquit, hfound, Option.bind_some]
        dsimp only
        rw [hv, Option.bind_some, hrec, Option.bind_some, hread, Option.bind_some]
        simp only [hhub]
      have hnot : ¬ NamesServerWithHub s name := by
        rw [hnames, hhub]
        exact Bool.false_ne_true
      refine ⟨_, hquit, fun hmeets ↦ absurd hmeets hnot, iff_of_false (fun hexact ↦ ?_) hnot⟩
      have hisSome := (((hright hquit).mp hexact).isSome_iff a).mp (by rw [hread]; rfl)
      exact hisSome.2 .refl

end Squitting

/-! ### Runs -/

section Runs

open Relation

variable {s s' : Network} {messages : List ServerMessage}

/-- The known servers are those of the list, and their pointers are those of a forest. -/
structure ServerForest (s : Network) : Prop where
  onList : ∃ xs, OnList s xs
  hub_isSome : ∀ c a, ParentOf s.links c a → (s.val a).isSome
  children : ∀ a v, s.val a = some v →
    ∃ cs, Chain s.links v.child cs ∧ ∀ c, c ∈ cs ↔ ParentOf s.links c a
  roots : ∀ a v, s.val a = some v → v.hub = none → v.sibling = none
  acyclic : ∀ a, ¬ TransGen (ParentOf s.links) a a

theorem Sound.serverForest (hs : Sound s) : ServerForest s := by
  obtain ⟨rank, hforest, -⟩ := hs.forest
  refine ⟨hs.onList, fun c a hca ↦ ?_, fun a v hv ↦ ?_, fun a v hv ↦ ?_, hforest.acyclic⟩
  · rw [← isSome_links]
    exact hforest.parent_isSome c a hca
  · exact hforest.children a v.links (links_of_val hv)
  · exact hforest.roots a v.links (links_of_val hv)

theorem sound_initial : Sound Network.initial := by
  have hnone (a : ℕ) : Network.initial.val a = none := rfl
  refine ⟨⟨[], ⟨linked_empty, fun a v ↦ ?_⟩⟩, ⟨fun _ ↦ 0, ?_, fun a ha ↦ ?_⟩, fun a ha ↦ ?_⟩
  · rw [hnone]
    exact iff_of_false List.not_mem_nil (Option.some_ne_none v).symm
  · constructor
    · rintro c a ⟨w, hw, -⟩
      cases hw
    · rintro c a ⟨w, hw, -⟩
      cases hw
    · intro a v hv
      cases hv
    · intro a v hv
      cases hv
  · rw [hnone] at ha
    cases ha
  · cases ha

/-- The record of a new server is at a free address. -/
def Allocates (s : Network) : ServerMessage → Prop
  | .server _ _ a => s.serverlist.heap a = none
  | .squit _ => True
  | .find _ => True

/-- No server is announced by itself, and none without a hub quits. -/
def Meets (s : Network) : ServerMessage → Prop
  | .server source servername _ => NotItsOwnHub s source servername
  | .squit servername => NamesServerWithHub s servername
  | .find _ => True

/-- The messages of a run meet the condition when their turn comes. -/
def MeetsAlong : Network → List ServerMessage → Prop
  | _, [] => True
  | s, m :: messages =>
    Allocates s m ∧ Meets s m ∧ ∀ s', receive s m = some s' → MeetsAlong s' messages

/-- Every message keeps the forest. -/
theorem receive_sound (hs : Sound s) {m : ServerMessage} (hfree : Allocates s m) (hmeets : Meets s m) :
    ∃ s', receive s m = some s' ∧ Sound s' := by
  cases m with
  | server source servername a => exact doServer_sound hs hfree hmeets
  | squit servername =>
    obtain ⟨s', hquit, hsound, -⟩ := doSquit_spec hs servername
    exact ⟨s', hquit, hsound hmeets⟩
  | find servername =>
    obtain ⟨xs, hxs⟩ := hs.onList
    obtain ⟨found, s', hfound, hfinds⟩ := findserver_spec hxs hs.cached servername
    refine ⟨s', ?_, hfinds.sound hs⟩
    rw [receive, hfound, Option.map_some]

theorem run_sound (hs : Sound s) (hmeets : MeetsAlong s messages) {before : List ServerMessage}
    (hbefore : before <+: messages) : ∃ s', before.foldlM receive s = some s' ∧ Sound s' := by
  induction before generalizing s messages with
  | nil => exact ⟨s, rfl, hs⟩
  | cons m before ih =>
    cases messages with
    | nil => exact absurd (List.prefix_nil.mp hbefore) (List.cons_ne_nil m before)
    | cons m' messages =>
      obtain ⟨rfl, htail⟩ := List.cons_prefix_cons.mp hbefore
      obtain ⟨hfree, hmeets, hrest⟩ := hmeets
      obtain ⟨s₁, hreceive, hsound⟩ := receive_sound hs hfree hmeets
      obtain ⟨s', hrun, hsound'⟩ := ih hsound (hrest s₁ hreceive) htail
      refine ⟨s', ?_, hsound'⟩
      rw [List.foldlM_cons, hreceive]
      exact hrun

/-- In every state of a run from the start whose messages announce no server by itself and make no server
without a hub quit, the servers of the list are a forest, `findserver` finds a name iff a server of the list
has it, and a SQUIT removes exactly what it should iff the server it names has a hub. -/
theorem servers_run (hmeets : MeetsAlong .initial messages) (before : List ServerMessage)
    (hbefore : before <+: messages) :
    ∃ s, before.foldlM receive .initial = some s ∧ ServerForest s ∧
      (∀ name, ∃ found s', findserver name s = some (found, s') ∧ Finds s name found s') ∧
      ∀ name, SquitRight s name ↔ NamesServerWithHub s name := by
  obtain ⟨s, hrun, hs⟩ := run_sound sound_initial hmeets hbefore
  obtain ⟨xs, hxs⟩ := hs.onList
  refine ⟨s, hrun, hs.serverForest, findserver_spec hxs hs.cached, fun name ↦ ?_⟩
  obtain ⟨-, -, -, hright⟩ := doSquit_spec hs name
  exact hright

/-- A leaf is linked to a hub and quits. -/
def leafQuits : List ServerMessage := [.server [] ['h'] 0, .server ['h'] ['l'] 1, .squit ['l']]

theorem servers_run_leafQuits :
    ∃ s, leafQuits.foldlM receive .initial = some s ∧ ServerForest s ∧
      (∀ name, ∃ found s', findserver name s = some (found, s') ∧ Finds s name found s') ∧
      ∀ name, SquitRight s name ↔ NamesServerWithHub s name := by
  have hmeets : MeetsAlong .initial leafQuits := by
    refine ⟨rfl, .inl rfl, fun s₁ h₁ ↦ ?_⟩
    obtain rfl := Option.some.inj h₁
    refine ⟨rfl, .inr (.inl (by decide)), fun s₂ h₂ ↦ ?_⟩
    obtain rfl := Option.some.inj h₂
    refine ⟨trivial, fun a s₃ hfound ↦ ?_, fun _ _ ↦ trivial⟩
    obtain ⟨hfound, -⟩ := Prod.mk.inj (Option.some.inj hfound)
    obtain rfl := Option.some.inj hfound
    exact ⟨_, rfl, rfl⟩
  exact servers_run hmeets leafQuits List.prefix_rfl

/-- Our hub stays on the list when it quits, and a server that is announced by itself is its own hub. -/
theorem servers_lost :
    (∃ s, [ServerMessage.server [] ['h'] 0].foldlM receive .initial = some s ∧ ¬ SquitRight s ['h']) ∧
      ∃ s, [ServerMessage.server ['x'] ['x'] 0].foldlM receive .initial = some s ∧ ¬ ServerForest s := by
  constructor
  · refine ⟨_, rfl, ?_⟩
    rintro ⟨s', hquit, hexact⟩
    obtain rfl := Option.some.inj hquit
    exact (((hexact (some 0) _ rfl).isSome_iff 0).mp rfl).2 .refl
  · refine ⟨_, rfl, fun hforest ↦ hforest.acyclic 0 (.single ⟨_, rfl, rfl⟩)⟩

end Runs

end BlitzedServices.Servers
