/-
# `Lib.FileStore` — a tree of names over shared nodes

A store maps locations, lists of name keys from the root, to directory
entries and entries to nodes; several entries may share one node (hard
links).  Contents and metadata belong to the node, so a change made through
one name is seen through every other.  Nodes are numbered in the order of
their creation and never reused.

A location is observed through `look`: the entry, its node and the number of
other entries that share it.  The rewriting rules say what each operation
does to `look` at every location; whether an operation is permitted is for
the client to say.

## The invariant

`Rooted`: every entry stands in a directory that is there.  `alloc`, `link`,
`unlink`, `rename` and `amend` keep it under the conditions that an operating
system checks.  The one that needs an argument is `rename` of a subtree, where
what moved stands below its new place and everything else where it stood.
-/
import NamiSync.Lib.Dict

namespace FileStore

/-- A directory entry: the name as spelled, and the node behind it. -/
structure Entry (N : Type) where
  name : N
  node : Nat
  deriving DecidableEq

structure Node (B M : Type) where
  isDirectory : Bool
  content : List B
  info : M
  deriving DecidableEq

/-- Entries by location, nodes by number; every entry has a node. -/
structure Store (K N B M : Type) [DecidableEq K] where
  entries : Dict (List K) (Entry N)
  nodes : List (Node B M)
  linked : ∀ loc entry, entries.get? loc = some entry → entry.node < nodes.length

/-- What can be observed at a location. -/
structure Look (N B M : Type) where
  name : N
  node : Nat
  isDirectory : Bool
  content : List B
  info : M
  others : Nat
  deriving DecidableEq

namespace Look

variable {N B M : Type}

/-- What a look at a node is after the node has become `n`. -/
def withNode (l : Look N B M) (n : Node B M) : Look N B M :=
  { l with isDirectory := n.isDirectory, content := n.content, info := n.info }

def toNode (l : Look N B M) : Node B M := ⟨l.isDirectory, l.content, l.info⟩

end Look

namespace Store

variable {K N B M : Type} [DecidableEq K] {s : Store K N B M} {loc loc' src dst : List K}
  {l l' : Look N B M}

def empty : Store K N B M := ⟨.empty, [], fun _ _ h => absurd h (by simp)⟩

/-- The number of entries of a node. -/
def linkCount (s : Store K N B M) (node : Nat) : Nat :=
  s.entries.entries.countP fun e => e.2.node = node

def look (s : Store K N B M) (loc : List K) : Option (Look N B M) :=
  match s.entries.get? loc with
  | none => none
  | some entry =>
      match s.nodes[entry.node]? with
      | none => none
      | some node =>
          some ⟨entry.name, entry.node, node.isDirectory, node.content, node.info,
            s.linkCount entry.node - 1⟩

/-! ## Looking

A look reads the entry at a place and the node behind it.  Its count of links is
not stored: it is how many places have that node. -/

theorem linkCount_pos {entry : Entry N} (h : s.entries.get? loc = some entry) :
    0 < s.linkCount entry.node :=
  List.countP_pos_iff.2 ⟨(loc, entry), Dict.get?_eq_some.1 h, by simp⟩

theorem look_eq_none : s.look loc = none ↔ s.entries.get? loc = none := by
  unfold look
  cases h : s.entries.get? loc with
  | none => simp
  | some entry =>
      have hlt := s.linked loc entry h
      simp [List.getElem?_eq_getElem hlt]

theorem look_eq_some :
    s.look loc = some l ↔
      s.entries.get? loc = some ⟨l.name, l.node⟩ ∧ s.nodes[l.node]? = some l.toNode ∧
        s.linkCount l.node = l.others + 1 := by
  constructor
  · intro h
    unfold look at h
    split at h
    · exact absurd h (by simp)
    · next entry hentry =>
        split at h
        · exact absurd h (by simp)
        · next node hnode =>
            obtain rfl := Option.some.inj h
            exact ⟨hentry, hnode, (Nat.sub_add_cancel (linkCount_pos hentry)).symm⟩
  · rintro ⟨hentry, hnode, hlinks⟩
    unfold look
    rw [hentry]
    simp only [hnode, hlinks, Look.toNode, Nat.add_sub_cancel]

theorem node_lt (h : s.look loc = some l) : l.node < s.nodes.length :=
  s.linked loc _ (look_eq_some.1 h).1

/-! ## Changing a node

A node is seen from all its places, so a change at one is a change at each. -/

/-- Change the node with number `node`. -/
def amend (s : Store K N B M) (node : Nat) (f : Node B M → Node B M) : Store K N B M where
  entries := s.entries
  nodes := s.nodes.modify node f
  linked := by
    intro loc entry h
    rw [List.length_modify]
    exact s.linked loc entry h

theorem look_amend (s : Store K N B M) (node : Nat) (f : Node B M → Node B M) (loc : List K) :
    (s.amend node f).look loc =
      (s.look loc).map fun l => if l.node = node then l.withNode (f l.toNode) else l := by
  cases h : s.look loc with
  | none =>
      rw [look_eq_none] at h
      exact look_eq_none.2 h
  | some l =>
      obtain ⟨hentry, hnode, hlinks⟩ := look_eq_some.1 h
      rw [Option.map_some, look_eq_some]
      by_cases heq : l.node = node
      · rw [if_pos heq]
        refine ⟨hentry, ?_, hlinks⟩
        have : (s.nodes.modify node f)[l.node]? = some (f l.toNode) := by
          rw [heq, List.getElem?_modify_eq, ← heq, hnode]
          rfl
        exact this
      · rw [if_neg heq]
        refine ⟨hentry, ?_, hlinks⟩
        have : (s.nodes.modify node f)[l.node]? = s.nodes[l.node]? :=
          List.getElem?_modify_ne _ _ (Ne.symm heq)
        exact this.trans hnode

/-! ## Entries

A new node has no place yet, and a link gives it one more.  The counts change
for that node and for no other. -/

/-- A new node under a free location. -/
def alloc (s : Store K N B M) (loc : List K) (name : N) (node : Node B M) : Store K N B M where
  entries := s.entries.set loc ⟨name, s.nodes.length⟩
  nodes := s.nodes ++ [node]
  linked := by
    intro loc' entry h
    rw [List.length_append, List.length_singleton]
    rw [Dict.get?_set] at h
    split at h
    · obtain rfl := Option.some.inj h
      exact Nat.lt_succ_self _
    · exact Nat.lt_succ_of_lt (s.linked loc' entry h)

/-- What is set where nothing was is counted besides the rest. -/
theorem countP_set (d : Dict (List K) (Entry N)) (entry : Entry N) (h : d.get? loc = none)
    (node : Nat) :
    (d.set loc entry).entries.countP (fun e => e.2.node = node) =
      d.entries.countP (fun e => e.2.node = node) + if entry.node = node then 1 else 0 := by
  have hfresh : loc ∉ d.entries.map Prod.fst := by
    intro hmem
    obtain ⟨⟨key, value⟩, he, rfl⟩ := List.mem_map.1 hmem
    rw [Dict.get?_eq_some.2 he] at h
    exact absurd h (by simp)
  have hentries : (d.set loc entry).entries = d.entries ++ [(loc, entry)] :=
    Dict.assign_of_not_mem hfresh
  rw [hentries, List.countP_append, List.countP_singleton]
  simp

theorem linkCount_fresh (s : Store K N B M) : s.linkCount s.nodes.length = 0 := by
  refine List.countP_eq_zero.2 ?_
  rintro ⟨loc, entry⟩ hmem
  have hlt := s.linked loc entry (Dict.get?_eq_some.2 hmem)
  simp only [decide_eq_true_eq]
  omega

theorem look_alloc (name : N) (node : Node B M) (hfree : s.look loc = none) (loc' : List K) :
    (s.alloc loc name node).look loc' =
      if loc' = loc then
        some ⟨name, s.nodes.length, node.isDirectory, node.content, node.info, 0⟩
      else s.look loc' := by
  rw [look_eq_none] at hfree
  have hcount (n : Nat) : (s.alloc loc name node).linkCount n =
      s.linkCount n + if s.nodes.length = n then 1 else 0 := countP_set _ _ hfree n
  split
  · next heq =>
      rw [look_eq_some]
      refine ⟨by rw [heq]; exact Dict.get?_set_self _ _ _, ?_, ?_⟩
      · simp [alloc, Look.toNode]
      · rw [hcount, linkCount_fresh, if_pos rfl]
  · next hne =>
      have hget : (s.alloc loc name node).entries.get? loc' = s.entries.get? loc' :=
        Dict.get?_set_ne _ _ hne
      cases h : s.look loc' with
      | none =>
          rw [look_eq_none] at h ⊢
          rw [hget, h]
      | some l =>
          have hlt := node_lt h
          obtain ⟨hentry, hnode, hlinks⟩ := look_eq_some.1 h
          rw [look_eq_some, hget, hcount, if_neg (by omega)]
          refine ⟨hentry, ?_, hlinks⟩
          have : (s.nodes ++ [node])[l.node]? = s.nodes[l.node]? :=
            List.getElem?_append_left hlt
          exact this.trans hnode

/-- A second entry for the node at `src`. -/
def link (s : Store K N B M) (src dst : List K) (name : N) : Store K N B M :=
  match h : s.entries.get? src with
  | none => s
  | some entry =>
      { entries := s.entries.set dst ⟨name, entry.node⟩
        nodes := s.nodes
        linked := by
          intro loc other hother
          rw [Dict.get?_set] at hother
          split at hother
          · obtain rfl := Option.some.inj hother
            exact s.linked src entry h
          · exact s.linked loc other hother }

theorem link_fields (name : N) (hsrc : s.look src = some l) :
    (s.link src dst name).entries = s.entries.set dst ⟨name, l.node⟩ ∧
      (s.link src dst name).nodes = s.nodes := by
  obtain ⟨hentry, -, -⟩ := look_eq_some.1 hsrc
  unfold link
  split
  · next h => exact absurd (h.symm.trans hentry) (by simp)
  · next entry h =>
      obtain rfl := Option.some.inj (h.symm.trans hentry)
      exact ⟨rfl, rfl⟩

theorem linkCount_link (name : N) (hsrc : s.look src = some l) (hfree : s.look dst = none)
    (n : Nat) :
    (s.link src dst name).linkCount n = s.linkCount n + if l.node = n then 1 else 0 := by
  rw [linkCount, (link_fields name hsrc).1]
  exact countP_set _ _ (look_eq_none.1 hfree) n

theorem look_link (name : N) (hsrc : s.look src = some l) (hfree : s.look dst = none)
    (loc : List K) :
    (s.link src dst name).look loc =
      if loc = dst then some { l with name := name, others := l.others + 1 }
      else (s.look loc).map fun k =>
        if k.node = l.node then { k with others := k.others + 1 } else k := by
  obtain ⟨hentry, hnode, hlinks⟩ := look_eq_some.1 hsrc
  have hfields : (s.link src dst name).entries = s.entries.set dst ⟨name, l.node⟩ ∧
      (s.link src dst name).nodes = s.nodes := link_fields name hsrc
  obtain ⟨hentries, hnodes⟩ := hfields
  have hcount := linkCount_link name hsrc hfree
  have hget (loc : List K) : (s.link src dst name).entries.get? loc =
      if loc = dst then some ⟨name, l.node⟩ else s.entries.get? loc := by
    rw [hentries]
    exact Dict.get?_set _ _ _ _
  split
  · next h =>
      rw [look_eq_some, hget, if_pos h, hnodes, hcount, if_pos rfl]
      exact ⟨rfl, hnode, by rw [hlinks]⟩
  · next h =>
      cases hloc : s.look loc with
      | none =>
          rw [look_eq_none] at hloc
          rw [Option.map_none, look_eq_none, hget, if_neg h, hloc]
      | some k =>
          obtain ⟨hentry', hnode', hlinks'⟩ := look_eq_some.1 hloc
          rw [Option.map_some, look_eq_some, hget, if_neg h, hnodes]
          by_cases hk : k.node = l.node
          · simp only [if_pos hk]
            refine ⟨hentry', hnode', ?_⟩
            rw [hcount, if_pos hk.symm, hlinks']
          · simp only [if_neg hk]
            refine ⟨hentry', hnode', ?_⟩
            rw [hcount, if_neg (Ne.symm hk), hlinks', Nat.add_zero]

def unlink (s : Store K N B M) (loc : List K) : Store K N B M where
  entries := s.entries.pop loc
  nodes := s.nodes
  linked := by
    intro loc' entry h
    rw [Dict.get?_pop] at h
    split at h
    · exact absurd h (by simp)
    · exact s.linked loc' entry h

theorem linkCount_unlink (h : s.look loc = some l) (n : Nat) :
    (s.unlink loc).linkCount n + (if l.node = n then 1 else 0) = s.linkCount n := by
  classical
  obtain ⟨hentry, -, -⟩ := look_eq_some.1 h
  have hmem := Dict.get?_eq_some.1 hentry
  have hperm := (List.perm_cons_erase hmem).countP_eq fun e => decide (e.2.node = n)
  have herase : s.entries.entries.filter (fun e => e.1 ≠ loc) =
      s.entries.entries.erase (loc, ⟨l.name, l.node⟩) := by
    rw [(List.Nodup.of_map _ s.entries.nodup).erase_eq_filter]
    refine List.filter_congr fun e he => ?_
    by_cases hkey : e.1 = loc
    · obtain rfl : e = (loc, ⟨l.name, l.node⟩) := by
        have := Dict.get?_eq_some.2 (show (e.1, e.2) ∈ s.entries.entries from he)
        rw [hkey, hentry] at this
        exact Prod.ext hkey (Option.some.inj this).symm
      simp
    · have hne : e ≠ (loc, ⟨l.name, l.node⟩) := fun heq => hkey (by rw [heq])
      simp [hkey, hne]
  have hcount : (s.unlink loc).linkCount n =
      (s.entries.entries.filter fun e => e.1 ≠ loc).countP fun e => e.2.node = n := rfl
  rw [hcount, herase, linkCount, hperm, List.countP_cons]
  simp

theorem look_unlink (h : s.look loc = some l) (loc' : List K) :
    (s.unlink loc).look loc' =
      if loc' = loc then none
      else (s.look loc').map fun k =>
        if k.node = l.node then { k with others := k.others - 1 } else k := by
  have hcount := linkCount_unlink h
  have hget (loc' : List K) : (s.unlink loc).entries.get? loc' =
      if loc' = loc then none else s.entries.get? loc' := Dict.get?_pop _ _ _
  split
  · next heq =>
      rw [look_eq_none, hget, if_pos heq]
  · next hne =>
      cases hloc : s.look loc' with
      | none =>
          rw [look_eq_none] at hloc
          rw [Option.map_none, look_eq_none, hget, if_neg hne, hloc]
      | some k =>
          obtain ⟨hentry', hnode', hlinks'⟩ := look_eq_some.1 hloc
          have hk := hcount k.node
          have hkept : (s.unlink loc).entries.get? loc' = some ⟨k.name, k.node⟩ := by
            rw [hget, if_neg hne]
            exact hentry'
          have hpos : 0 < (s.unlink loc).linkCount k.node := linkCount_pos hkept
          rw [Option.map_some, look_eq_some, hget, if_neg hne]
          by_cases heq : k.node = l.node
          · simp only [if_pos heq]
            rw [if_pos heq.symm] at hk
            exact ⟨hentry', hnode', by omega⟩
          · simp only [if_neg heq]
            rw [if_neg (Ne.symm heq)] at hk
            exact ⟨hentry', hnode', by omega⟩

/-! ## Renaming

A rename moves a whole subtree: every place at or below the source is relocated
to below the target.  This is one to one, which is why no entry is lost when the
target was vacant. -/

/-- Where the entry at `loc` is once what was at `src` is at `dst`. -/
def relocated (src dst loc : List K) : List K :=
  if src <+: loc then dst ++ loc.drop src.length else loc

theorem relocated_append (src dst rest : List K) :
    relocated src dst (src ++ rest) = dst ++ rest := by
  rw [relocated, if_pos (List.prefix_append _ _), List.drop_left]

/-- The entries that a renaming keeps: what is at or below `dst` gives way. -/
def keptBy (src dst : List K) (e : List K × Entry N) : Bool := src <+: e.1 ∨ ¬ dst <+: e.1

theorem relocated_inj {e e' : List K × Entry N} (he : keptBy src dst e = true)
    (he' : keptBy src dst e' = true) (h : relocated src dst e.1 = relocated src dst e'.1) :
    e.1 = e'.1 := by
  simp only [keptBy, decide_eq_true_eq] at he he'
  unfold relocated at h
  split at h
  · next hsrc =>
      obtain ⟨rest, hrest⟩ := hsrc
      split at h
      · next hsrc' =>
          obtain ⟨rest', hrest'⟩ := hsrc'
          rw [← hrest, ← hrest', List.drop_left, List.drop_left] at h
          rw [← hrest, ← hrest', List.append_cancel_left h]
      · next hsrc' => exact absurd (h ▸ List.prefix_append _ _) (he'.resolve_left hsrc')
  · next hsrc =>
      split at h
      · next hsrc' => exact absurd (h ▸ List.prefix_append _ _) (he.resolve_left hsrc)
      · exact h

/-- The entry at `src` moves to `dst` under a new name, and what is below it
along with it; what was at or below `dst` is gone. -/
def rename (s : Store K N B M) (src dst : List K) (name : N) : Store K N B M where
  entries :=
    { entries := (s.entries.entries.filter (keptBy src dst)).map fun e =>
        (relocated src dst e.1, if e.1 = src then { e.2 with name := name } else e.2)
      nodup := by
        rw [List.map_map]
        refine List.Nodup.map_on ?_ ((List.Nodup.of_map _ s.entries.nodup).filter _)
        intro e he e' he' heq
        rw [List.mem_filter] at he he'
        have hkey := relocated_inj he.2 he'.2 heq
        exact List.inj_on_of_nodup_map s.entries.nodup he.1 he'.1 hkey }
  nodes := s.nodes
  linked := by
    intro loc entry h
    obtain ⟨e, he, heq⟩ := List.mem_map.1 (Dict.get?_eq_some.1 h)
    have hlt := s.linked e.1 e.2 (Dict.get?_eq_some.2 (List.mem_filter.1 he).1)
    obtain ⟨-, rfl⟩ := Prod.mk.inj heq
    split
    · exact hlt
    · exact hlt

theorem get?_rename (s : Store K N B M) (src dst : List K) (name : N) (loc : List K) :
    (s.rename src dst name).entries.get? loc =
      if dst <+: loc then
        (s.entries.get? (src ++ loc.drop dst.length)).map fun entry =>
          if loc = dst then { entry with name := name } else entry
      else if src <+: loc then none else s.entries.get? loc := by
  have hmem (entry : Entry N) : (s.rename src dst name).entries.get? loc = some entry ↔
      ∃ e ∈ s.entries.entries, keptBy src dst e = true ∧ relocated src dst e.1 = loc ∧
        (if e.1 = src then { e.2 with name := name } else e.2) = entry := by
    rw [Dict.get?_eq_some]
    simp only [rename, List.mem_map, List.mem_filter, Prod.mk.injEq, and_assoc]
  apply Option.ext
  intro entry
  rw [hmem]
  constructor
  · rintro ⟨⟨key, old⟩, he, hkept, rfl, rfl⟩
    simp only [keptBy, decide_eq_true_eq] at hkept
    by_cases hsrc : src <+: key
    · obtain ⟨rest, rfl⟩ := hsrc
      rw [relocated_append, if_pos (List.prefix_append _ _), List.drop_left,
        Dict.get?_eq_some.2 he]
      simp
    · have hstay : relocated src dst key = key := if_neg hsrc
      rw [hstay, if_neg (hkept.resolve_left hsrc), if_neg hsrc, Dict.get?_eq_some.2 he, if_neg]
      rintro rfl
      exact hsrc List.prefix_rfl
  · intro h
    split at h
    · next hdst =>
        obtain ⟨rest, rfl⟩ := hdst
        rw [List.drop_left] at h
        obtain ⟨old, hold, rfl⟩ := Option.map_eq_some_iff.1 h
        refine ⟨(src ++ rest, old), Dict.get?_eq_some.1 hold, ?_, relocated_append _ _ _, ?_⟩
        · simp [keptBy]
        · simp
    · next hdst =>
        split at h
        · exact absurd h (by simp)
        · next hsrc =>
            refine ⟨(loc, entry), Dict.get?_eq_some.1 h, ?_, if_neg hsrc, ?_⟩
            · simp [keptBy, hdst]
            · rw [if_neg]
              rintro rfl
              exact hsrc List.prefix_rfl

/-- Nothing is at or below `dst` but what moves. -/
def Vacant (s : Store K N B M) (src dst : List K) : Prop :=
  ∀ loc, dst <+: loc → ¬ src <+: loc → s.look loc = none

instance (s : Store K N B M) (src dst : List K) : Decidable (s.Vacant src dst) :=
  decidable_of_iff (∀ e ∈ s.entries.entries, dst <+: e.1 → src <+: e.1) (by
    constructor
    · intro h loc hdst hsrc
      rw [look_eq_none]
      cases hget : s.entries.get? loc with
      | none => rfl
      | some entry => exact absurd (h _ (Dict.get?_eq_some.1 hget) hdst) hsrc
    · intro h e he hdst
      by_contra hsrc
      have hnone := look_eq_none.1 (h e.1 hdst hsrc)
      rw [Dict.get?_eq_some.2 (show (e.1, e.2) ∈ s.entries.entries from he)] at hnone
      exact absurd hnone (by simp))

theorem linkCount_rename (name : N) (hfree : s.Vacant src dst) (n : Nat) :
    (s.rename src dst name).linkCount n = s.linkCount n := by
  have hall : s.entries.entries.filter (keptBy src dst) = s.entries.entries := by
    refine List.filter_eq_self.2 fun e he => ?_
    simp only [keptBy, decide_eq_true_eq]
    by_contra hnot
    rw [not_or, not_not] at hnot
    have hnone := look_eq_none.1 (hfree e.1 hnot.2 hnot.1)
    rw [Dict.get?_eq_some.2 (show (e.1, e.2) ∈ s.entries.entries from he)] at hnone
    exact absurd hnone (by simp)
  simp only [linkCount, rename, hall, List.countP_map]
  refine List.countP_congr fun e _ => ?_
  simp only [Function.comp_apply]
  split <;> rfl

theorem look_rename (name : N) (hfree : s.Vacant src dst) (loc : List K) :
    (s.rename src dst name).look loc =
      if dst <+: loc then
        (s.look (src ++ loc.drop dst.length)).map fun l =>
          if loc = dst then { l with name := name } else l
      else if src <+: loc then none else s.look loc := by
  have hcount := linkCount_rename name hfree
  have hget := get?_rename s src dst name loc
  split
  · next hdst =>
      rw [if_pos hdst] at hget
      cases hold : s.look (src ++ loc.drop dst.length) with
      | none =>
          rw [look_eq_none] at hold
          rw [Option.map_none, look_eq_none, hget, hold, Option.map_none]
      | some l =>
          obtain ⟨hentry, hnode, hlinks⟩ := look_eq_some.1 hold
          rw [hentry, Option.map_some] at hget
          rw [Option.map_some, look_eq_some, hget, hcount]
          split
          · exact ⟨rfl, hnode, hlinks⟩
          · exact ⟨rfl, hnode, hlinks⟩
  · next hdst =>
      rw [if_neg hdst] at hget
      split
      · next hsrc =>
          rw [if_pos hsrc] at hget
          rw [look_eq_none, hget]
      · next hsrc =>
          rw [if_neg hsrc] at hget
          cases hold : s.look loc with
          | none =>
              rw [look_eq_none] at hold ⊢
              rw [hget, hold]
          | some l =>
              obtain ⟨hentry, hnode, hlinks⟩ := look_eq_some.1 hold
              rw [look_eq_some, hget, hcount]
              exact ⟨hentry, hnode, hlinks⟩

/-! ## Trees

A store is rooted when what is above an entry is a directory.  Each operation
keeps this under the condition that the operating system checks. -/

def HasFolder (s : Store K N B M) (loc : List K) : Prop :=
  ∃ folder, s.look loc = some folder ∧ folder.isDirectory = true

/-- Every entry below the top stands in a directory. -/
def Rooted (s : Store K N B M) : Prop :=
  ∀ loc l, s.look loc = some l → loc.dropLast ≠ [] → s.HasFolder loc.dropLast

theorem HasFolder.map {s' : Store K N B M} {g : Look N B M → Look N B M}
    (h : s.HasFolder loc) (hlook : s'.look loc = (s.look loc).map g)
    (hg : ∀ l, (g l).isDirectory = l.isDirectory) : s'.HasFolder loc := by
  obtain ⟨folder, hfolder, hdirectory⟩ := h
  rw [hfolder] at hlook
  exact ⟨g folder, hlook, (hg folder).trans hdirectory⟩

/-- Nothing is below what is no directory. -/
theorem Rooted.below (h : s.Rooted) (hloc : loc ≠ []) (hno : ¬ s.HasFolder loc) {rest : List K}
    (hrest : rest ≠ []) : s.look (loc ++ rest) = none := by
  induction rest generalizing loc with
  | nil => exact absurd rfl hrest
  | cons key rest ih =>
      have hone : s.look (loc ++ [key]) = none := by
        by_contra hsome
        obtain ⟨l, hl⟩ := Option.ne_none_iff_exists'.1 hsome
        have hparent := h _ _ hl
        rw [List.dropLast_concat] at hparent
        exact hno (hparent hloc)
      rw [List.append_cons]
      by_cases hend : rest = []
      · rw [hend, List.append_nil]
        exact hone
      · refine ih (by simp) (fun ⟨folder, hfolder, _⟩ => ?_) hend
        rw [hone] at hfolder
        cases hfolder

/-- Changing nodes leaves a tree a tree, if directories stay directories. -/
theorem Rooted.amend (h : s.Rooted) (node : Nat) (f : Node B M → Node B M)
    (hf : ∀ n, (f n).isDirectory = n.isDirectory) : (s.amend node f).Rooted := by
  intro loc l hl hloc
  have hlook := look_amend s node f
  rw [hlook] at hl
  obtain ⟨l', hl', -⟩ := Option.map_eq_some_iff.1 hl
  refine (h loc l' hl' hloc).map (hlook _) fun k => ?_
  split
  · exact hf k.toNode
  · rfl

theorem Rooted.alloc (h : s.Rooted) {name : N} {node : Node B M} (hfree : s.look loc = none)
    (hparent : loc.dropLast ≠ [] → s.HasFolder loc.dropLast) :
    (s.alloc loc name node).Rooted := by
  have hkept : ∀ place, s.HasFolder place → (s.alloc loc name node).HasFolder place := by
    rintro place ⟨folder, hfolder, hdirectory⟩
    refine ⟨folder, ?_, hdirectory⟩
    rw [look_alloc _ _ hfree, if_neg fun heq => by rw [heq, hfree] at hfolder; cases hfolder]
    exact hfolder
  intro place l hl hplace
  rw [look_alloc _ _ hfree] at hl
  split at hl
  · next heq =>
      subst heq
      exact hkept _ (hparent hplace)
  · exact hkept _ (h place l hl hplace)

theorem Rooted.link (h : s.Rooted) (name : N) (hsrc : s.look src = some l)
    (hfree : s.look dst = none) (hparent : dst.dropLast ≠ [] → s.HasFolder dst.dropLast) :
    (s.link src dst name).Rooted := by
  have hkept : ∀ place, s.HasFolder place → (s.link src dst name).HasFolder place := by
    intro place hfolder
    refine hfolder.map (g := fun k =>
      if k.node = l.node then { k with others := k.others + 1 } else k) ?_ fun k => ?_
    · rw [look_link _ hsrc hfree, if_neg]
      rintro rfl
      obtain ⟨folder, hfolder, -⟩ := hfolder
      rw [hfree] at hfolder
      cases hfolder
    · split <;> rfl
  intro place l' hl' hplace
  rw [look_link _ hsrc hfree] at hl'
  split at hl'
  · next heq =>
      subst heq
      exact hkept _ (hparent hplace)
  · obtain ⟨k, hk, -⟩ := Option.map_eq_some_iff.1 hl'
    exact hkept _ (h place k hk hplace)

/-- What has nothing below it can go. -/
theorem Rooted.unlink (h : s.Rooted) (hl : s.look loc = some l)
    (hbelow : ∀ key, s.look (loc ++ [key]) = none) : (s.unlink loc).Rooted := by
  intro place l' hl' hplace
  rw [look_unlink hl] at hl'
  split at hl'
  · cases hl'
  · obtain ⟨k, hk, -⟩ := Option.map_eq_some_iff.1 hl'
    have hne : place.dropLast ≠ loc := by
      intro heq
      have hnonempty : place ≠ [] := fun hnil => hplace (by rw [hnil]; rfl)
      have hnone := hbelow (place.getLast hnonempty)
      rw [← heq, List.dropLast_append_getLast, hk] at hnone
      cases hnone
    refine (h place k hk hplace).map (g := fun k =>
      if k.node = l.node then { k with others := k.others - 1 } else k) ?_ fun k => ?_
    · rw [look_unlink hl, if_neg hne]
    · split <;> rfl

/-- A subtree moves to a vacant place in a directory outside of it. -/
theorem Rooted.rename (h : s.Rooted) (name : N) (hfree : s.Vacant src dst) (hsrc : src ≠ [])
    (hdst : dst ≠ []) (hout : src ≠ dst → ¬ src <+: dst)
    (hparent : dst.dropLast ≠ [] → s.HasFolder dst.dropLast) :
    (s.rename src dst name).Rooted := by
  have hlook := look_rename (s := s) name hfree
  -- A directory that is neither moved nor overwritten stays.
  have hstay : ∀ place, s.HasFolder place → ¬ dst <+: place → ¬ src <+: place →
      (s.rename src dst name).HasFolder place := by
    intro place hfolder hbelow hmoved
    refine hfolder.map (g := id) ?_ fun _ => rfl
    rw [hlook, if_neg hbelow, if_neg hmoved, Option.map_id, id]
  -- A directory that is moved stands at its new place.
  have hmove :
      ∀ rest, s.HasFolder (src ++ rest) → (s.rename src dst name).HasFolder (dst ++ rest) := by
    rintro rest ⟨folder, hfolder, hdirectory⟩
    have hnew := hlook (dst ++ rest)
    rw [if_pos (List.prefix_append _ _), List.drop_left, hfolder] at hnew
    refine ⟨_, hnew, ?_⟩
    split <;> exact hdirectory
  intro place l hl hplace
  rw [hlook] at hl
  split at hl
  · next hbelow =>
      obtain ⟨rest, rfl⟩ := hbelow
      rw [List.drop_left] at hl
      obtain ⟨k, hk, -⟩ := Option.map_eq_some_iff.1 hl
      by_cases hend : rest = []
      · subst hend
        rw [List.append_nil] at hplace ⊢
        have hshort : ¬ dst <+: dst.dropLast := by
          intro hpre
          have hlength := hpre.length_le
          rw [List.length_dropLast] at hlength
          have := List.length_pos_iff.2 hdst
          omega
        by_cases hsame : src = dst
        · subst hsame
          exact hstay _ (hparent hplace) hshort hshort
        · exact hstay _ (hparent hplace) hshort fun hpre =>
            hout hsame (hpre.trans (List.dropLast_prefix dst))
      · have hold : (src ++ rest).dropLast = src ++ rest.dropLast :=
          List.dropLast_append_of_ne_nil hend
        have hnew : (dst ++ rest).dropLast = dst ++ rest.dropLast :=
          List.dropLast_append_of_ne_nil hend
        have htop : src ++ rest.dropLast ≠ [] := by simp [hsrc]
        rw [hnew]
        exact hmove _ (hold ▸ h _ k hk (hold ▸ htop))
  · next hbelow =>
      split at hl
      · cases hl
      · next hmoved =>
          have hup : ∀ p : List K, ¬ p <+: place → ¬ p <+: place.dropLast := fun p hno hpre =>
            hno (hpre.trans (List.dropLast_prefix place))
          exact hstay _ (h place l hl hplace) (hup _ hbelow) (hup _ hmoved)

end Store

end FileStore
