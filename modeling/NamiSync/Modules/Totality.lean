/-
# `Modules.Totality` — when a full scan returns

The walk over a directory tree ends, and raises if it comes to a stat result
that no record can be built of: the creation time, the inode number and the
link count may be anything, the modification time, the size of a file and the
attributes may not be negative.  A scan that returns as complete has recorded
the tree.

## What is proved

    scan_total : a full scan of a tree returns if and only if everything it
      comes to can be recorded; and if it returns as complete, it has recorded
      every entry that is neither ignored nor in an ignored directory

`Recordable` is about the answers of the operating system, not about the
scan: `Comes` follows the walk through the answers without building records.

## What it is not

The exceptions of a checkpoint are left out, and so is what another program
does to the tree during the scan: an answer is given once for each entry.
-/
import Mathlib.Algebra.Order.BigOperators.Group.List
import Mathlib.Algebra.Order.Ring.Nat
import NamiSync.Modules.Walk

namespace NamiSync

/-! ## Trees

A backend that answers from a finite tree.  The trees here may hold any times
and any identities, since these are what a scan can fail on. -/

/-- A directory, with what its entries hold. -/
inductive FolderTree
  | folder (listing : WalkListing FolderTree)

namespace FolderTree

def listing : FolderTree → WalkListing FolderTree
  | .folder listing => listing

mutual

/-- How many directories a tree can hold. -/
def weight : FolderTree → Nat
  | .folder listing => 1 + weightListing listing

def weightListing : WalkListing FolderTree → Nat
  | ⟨entries, _⟩ => weightAll entries

def weightAll : List (WalkEntry FolderTree) → Nat
  | [] => 0
  | entry :: rest => weightEntry entry + weightAll rest

def weightEntry : WalkEntry FolderTree → Nat
  | ⟨_, _, _, _, _, below⟩ => weight below

end

theorem weightAll_eq (entries : List (WalkEntry FolderTree)) :
    weightAll entries = (entries.map fun entry => weight entry.below).sum := by
  induction entries with
  | nil => rfl
  | cons entry rest ih =>
      rw [weightAll, ih, List.map_cons, List.sum_cons]
      cases entry
      rw [weightEntry]

theorem weight_listing (tree : FolderTree) :
    (tree.listing.entries.map fun entry => weight entry.below).sum < tree.weight := by
  cases tree with
  | folder listing =>
      cases listing with
      | mk entries failure =>
          rw [weight, weightListing, ← weightAll_eq]
          show weightAll entries < 1 + weightAll entries
          omega

end FolderTree

/-- A `ScannerBackend` over a tree. -/
structure TreeBackend where
  resolveRoot : Root → Except OsError Root
  volumeSnapshot : Except OsError VolumeSnapshot
  rootLstat : Except OsError RawStat
  tree : FolderTree

def TreeBackend.walk (backend : TreeBackend) : WalkBackend FolderTree where
  resolveRoot := backend.resolveRoot
  volumeSnapshot := backend.volumeSnapshot
  rootLstat := backend.rootLstat
  root := backend.tree
  scandir := FolderTree.listing

section Scan

variable [Unicode]

/-- The end of `scan`, from the collision warnings on. -/
def ScanState.scanResult (state : ScanState) (root : Root) (volume : VolumeSnapshot)
    (ignores : IgnoreSet) : ScanResult :=
  let state := state.appendCollisionWarnings.appendIdentityWarnings
  { root := root
    volumeId := some volume.volumeId
    volumeEvidence := some volume.evidence
    profile := volume.profile
    files := sortedBy (fun record => recordKey record.relPath) state.files
    directories :=
      sortedBy (fun record => toLex (record.key, record.relPath.text)) state.directories
    unsupported := sortedBy (fun record => recordKey record.relPath) state.unsupported
    warnings := sortedBy warningSortKey state.warnings
    ignoreSnapshot := ignores
    scope := .full
    complete := state.complete }

/-- `scan` with a full scope; there is no answer if a walk of so many rounds
has not ended. -/
def fullScan {ν : Type} (nt : Bool) (backend : WalkBackend ν) (rounds : Nat) (root : Root)
    (ignores : IgnoreSet) : Option (Except ValueError ScanResult) :=
  match backend.resolveRoot root with
  | .error error => some (.ok (offlineResult root ignores error .rootUnavailable))
  | .ok resolved =>
      match backend.volumeSnapshot with
      | .error error => some (.ok (offlineResult resolved ignores error .volumeUnavailable))
      | .ok volume =>
          match walkFull nt volume ignores backend rounds with
          | (_, .error error) => some (.error error)
          | (walk, .ok []) => some (.ok (walk.state.scanResult resolved volume ignores))
          | (_, .ok (_ :: _)) => none

/-! ## What the walk comes to

A walk can raise, since a record refuses a stat that it cannot hold.  `Comes`
lists the entries that the walk gets to record, and asks nothing of the rest. -/

section Comes

variable {ν : Type} (volume : VolumeSnapshot) (ignores : IgnoreSet)

/-- What an entry puts on the list, if these identities are visited. -/
def WalkEntry.opens (relativeDirectory : RootedPath) (entry : WalkEntry ν)
    (visited : List FileIdentity) : List (WalkItem ν) :=
  match entry.recorded volume ignores relativeDirectory with
  | some (path, .directory, stat) =>
      if ∃ identity ∈ stat.identity volume, identity ∈ visited then []
      else [⟨entry.below, some path, stat.identity volume⟩]
  | some (_, .file, _) | none => []

def opensAll (relativeDirectory : RootedPath) :
    List (WalkEntry ν) → List FileIdentity → List (WalkItem ν)
  | [], _ => []
  | entry :: rest, visited =>
      let items := entry.opens volume ignores relativeDirectory visited
      items ++ opensAll relativeDirectory rest (visited ++ identities items)

/-- The directories that a listing puts on the list, in the order of the
walk. -/
def WalkListing.opens (listing : WalkListing ν) (relativeDirectory : RootedPath)
    (visited : List FileIdentity) : List (WalkItem ν) :=
  opensAll volume ignores relativeDirectory (sortedBy WalkEntry.sortKey listing.yielded) visited

/-- The walk with this list comes to an entry that is to be recorded with the
kind and the stat result. -/
inductive Comes (scandir : ν → WalkListing ν) :
    List (WalkItem ν) → List FileIdentity → EntryKind → RawStat → Prop
  | here {item : WalkItem ν} {pending : List (WalkItem ν)} {visited : List FileIdentity}
      {entry : WalkEntry ν} {path : RelPath} {kind : EntryKind} {stat : RawStat}
      (hentry : entry ∈ (scandir item.node).yielded)
      (hrecorded : entry.recorded volume ignores item.relPath = some (path, kind, stat)) :
      Comes scandir (item :: pending) visited kind stat
  | later {item : WalkItem ν} {pending : List (WalkItem ν)} {visited : List FileIdentity}
      {kind : EntryKind} {stat : RawStat}
      (h : Comes scandir
        ((scandir item.node).opens volume ignores item.relPath visited ++ pending)
        (visited ++ identities ((scandir item.node).opens volume ignores item.relPath visited))
        kind stat) :
      Comes scandir (item :: pending) visited kind stat

end Comes

/-- The root directory and all that the walk comes to can be recorded. -/
def Recordable (backend : TreeBackend) (root : Root) (ignores : IgnoreSet) : Prop :=
  ∀ resolved, backend.resolveRoot root = .ok resolved →
    ∀ volume, backend.volumeSnapshot = .ok volume →
      ∀ rootStat, backend.rootLstat = .ok rootStat → rootStat.Representable .directory ∧
        ∀ kind stat, Comes volume ignores FolderTree.listing
          [⟨backend.tree, none, rootStat.identity volume⟩] (rootStat.identity volume).toList kind
          stat → stat.Representable kind

section Walks

variable {ν : Type} {nt : Bool} {volume : VolumeSnapshot} {ignores : IgnoreSet}
  {relativeDirectory : RootedPath} {entry : WalkEntry ν} {state later : ScanState}
  {children : List (WalkItem ν)}

theorem EntryStep.opens
    (h : EntryStep volume ignores relativeDirectory entry state later (.ok children)) :
    children = entry.opens volume ignores relativeDirectory state.visited := by
  unfold WalkEntry.opens
  cases h with
  | aside _ _ _ _ hrecorded _ =>
      cases hsome : entry.recorded volume ignores relativeDirectory with
      | none => rfl
      | some found =>
          obtain ⟨path, kind, stat⟩ := found
          obtain ⟨-, rfl⟩ := hrecorded path kind stat hsome
          rfl
  | duplicate path stat snapshot hrecorded _ hidentity hvisited =>
      rw [hidentity] at hvisited
      rw [hrecorded]
      exact (if_pos hvisited).symm
  | opened path stat snapshot _ _ hrecorded _ hidentity hfresh =>
      rw [hidentity] at hfresh
      rw [hrecorded]
      refine (if_neg ?_).symm
      rintro ⟨identity, hmem, hvisited⟩
      exact hfresh identity hmem hvisited

theorem walkEntries_opens {entries : List (WalkEntry ν)}
    (h : walkEntries nt volume ignores relativeDirectory entries state = (later, .ok children)) :
    children = opensAll volume ignores relativeDirectory entries state.visited := by
  induction entries generalizing state children with
  | nil =>
      obtain ⟨-, hnil⟩ := Prod.mk.inj h
      exact (Except.ok.inj hnil).symm
  | cons entry rest ih =>
      have hstep := @walkEntry_step ν _ nt volume ignores relativeDirectory entry state
      unfold walkEntries at h
      cases hentry : walkEntry nt volume ignores relativeDirectory entry state with
      | mk mid result =>
          rw [hentry] at h hstep
          cases result with
          | error error => exact absurd (Prod.mk.inj h).2 (by simp)
          | ok items =>
              dsimp only at h
              cases hrest : walkEntries nt volume ignores relativeDirectory rest mid with
              | mk last more =>
                  rw [hrest] at h
                  cases more with
                  | error error => exact absurd (Prod.mk.inj h).2 (by simp)
                  | ok more =>
                      obtain ⟨rfl, hall⟩ := Prod.mk.inj h
                      rw [← Except.ok.inj hall, ih hrest, hstep.listing.visited_eq, hstep.opens,
                        opensAll]

theorem walkListing_opens {listing : WalkListing ν}
    (h : walkListing nt volume ignores listing relativeDirectory state = (later, .ok children)) :
    children = listing.opens volume ignores relativeDirectory state.visited := by
  have hopens := walkEntries_opens h
  rw [hopens]
  unfold WalkListing.opens
  split <;> rfl

/-! ## The rounds of a walk

The weight of the pending directories falls in every round, so the loop ends
within the fuel that the weight of the tree gives. -/

section Weights

variable {scandir : ν → WalkListing ν} {weight : ν → Nat}
  (hweight : ∀ node, ((scandir node).entries.map fun entry => weight entry.below).sum < weight node)

omit [Unicode] in
theorem yielded_sum_le (listing : WalkListing ν) :
    (listing.yielded.map fun entry => weight entry.below).sum ≤
      (listing.entries.map fun entry => weight entry.below).sum := by
  unfold WalkListing.yielded
  split
  · exact le_refl _
  · exact ((List.take_sublist _ _).map _).sum_le_sum fun _ _ => Nat.zero_le _

theorem opensAll_sum_le (entries : List (WalkEntry ν)) (visited : List FileIdentity) :
    ((opensAll volume ignores relativeDirectory entries visited).map
      fun item => weight item.node).sum ≤ (entries.map fun entry => weight entry.below).sum := by
  induction entries generalizing visited with
  | nil => exact le_refl 0
  | cons entry rest ih =>
      have hfirst : ((entry.opens volume ignores relativeDirectory visited).map
          fun item => weight item.node).sum ≤ weight entry.below := by
        unfold WalkEntry.opens
        split
        · split
          · exact Nat.zero_le _
          · simp
        · exact Nat.zero_le _
        · exact Nat.zero_le _
      rw [opensAll, List.map_append, List.sum_append, List.map_cons, List.sum_cons]
      exact Nat.add_le_add hfirst (ih _)

include hweight in
/-- A round puts on less than it takes off. -/
theorem opens_weight (item : WalkItem ν) (visited : List FileIdentity) :
    (((scandir item.node).opens volume ignores item.relPath visited).map
      fun item => weight item.node).sum < weight item.node := by
  have hperm := (sortedBy_perm WalkEntry.sortKey (scandir item.node).yielded).map
    fun entry => weight entry.below
  have hopens := @opensAll_sum_le _ ν volume ignores item.relPath weight
    (sortedBy WalkEntry.sortKey (scandir item.node).yielded) visited
  rw [hperm.sum_eq] at hopens
  exact (hopens.trans (yielded_sum_le _)).trans_lt (hweight item.node)

/-- What comes up with a list comes up in its first listing or later. -/
theorem comes_cons {item : WalkItem ν} {pending : List (WalkItem ν)}
    {visited : List FileIdentity} {kind : EntryKind} {stat : RawStat} :
    Comes volume ignores scandir (item :: pending) visited kind stat ↔
      (∃ entry ∈ (scandir item.node).yielded, ∃ path,
        entry.recorded volume ignores item.relPath = some (path, kind, stat)) ∨
      Comes volume ignores scandir
        ((scandir item.node).opens volume ignores item.relPath visited ++ pending)
        (visited ++ identities ((scandir item.node).opens volume ignores item.relPath visited)) kind
        stat := by
  constructor
  · intro h
    cases h with
    | here hentry hrecorded => exact Or.inl ⟨_, hentry, _, hrecorded⟩
    | later h => exact Or.inr h
  · rintro (⟨entry, hentry, path, hrecorded⟩ | h)
    · exact .here hentry hrecorded
    · exact .later h

include hweight in
/-- The walk of a tree ends, and returns if and only if all that it comes to
can be recorded. -/
theorem walkPending_total {rounds : Nat} {pending : List (WalkItem ν)} {walk : WalkState ν}
    (hrounds : (pending.map fun item => weight item.node).sum ≤ rounds) :
    ((∃ last, walkPending nt volume ignores scandir rounds pending walk = (last, .ok [])) ∧
      ∀ kind stat, Comes volume ignores scandir pending walk.state.visited kind stat →
        stat.Representable kind) ∨
    ((∃ last error, walkPending nt volume ignores scandir rounds pending walk =
        (last, .error error)) ∧
      ∃ kind stat, Comes volume ignores scandir pending walk.state.visited kind stat ∧
        ¬ stat.Representable kind) := by
  induction rounds generalizing pending walk with
  | zero =>
      cases pending with
      | nil => exact Or.inl ⟨⟨walk, rfl⟩, fun _ _ h => nomatch h⟩
      | cons item pending =>
          have hpos := Nat.zero_lt_of_lt (hweight item.node)
          rw [List.map_cons, List.sum_cons] at hrounds
          omega
  | succ rounds ih =>
      cases pending with
      | nil => exact Or.inl ⟨⟨walk, rfl⟩, fun _ _ h => nomatch h⟩
      | cons item pending =>
          unfold walkPending
          rcases @walkListing_cases ν _ nt volume ignores item.relPath (scandir item.node)
              walk.state with
            ⟨state, children, heq, hstep, -⟩ | ⟨state, error, heq, entry, hentry, path, kind, stat,
              hrecorded, hbad⟩
          · rw [heq]
            have hopens := walkListing_opens heq
            have hvisited := hstep.visited_eq
            have hlighter : (children.map fun item => weight item.node).sum < weight item.node := by
              rw [hopens]
              exact opens_weight hweight item walk.state.visited
            have hleft : ((children ++ pending).map fun item => weight item.node).sum ≤ rounds := by
              rw [List.map_cons, List.sum_cons] at hrounds
              rw [List.map_append, List.sum_append]
              omega
            rcases @ih (children ++ pending) ⟨state, walk.listed ++ [item]⟩ hleft with
              ⟨hends, hall⟩ | ⟨hraises, kind, stat, hcomes, hbad⟩
            · refine Or.inl ⟨hends, fun kind stat hcomes => ?_⟩
              rcases comes_cons.1 hcomes with ⟨entry, hentry, path, hrecorded⟩ | hlater
              · exact hstep.representable entry hentry path kind stat hrecorded
              · rw [← hopens, ← hvisited] at hlater
                exact hall kind stat hlater
            · refine Or.inr ⟨hraises, kind, stat, comes_cons.2 (Or.inr ?_), hbad⟩
              rw [← hopens, ← hvisited]
              exact hcomes
          · rw [heq]
            exact Or.inr ⟨⟨_, _, rfl⟩, kind, stat,
              comes_cons.2 (Or.inl ⟨entry, hentry, path, hrecorded⟩), hbad⟩

end Weights

/-! ## What a complete walk has recorded

The invariant of the loop is that of `Modules.ScanCoverage`, for a backend that
can fail: what is behind the finished directories has been recorded. -/

/-- The entry at this chain of names is ignored. -/
def WalkEntry.IgnoredAt (ignores : IgnoreSet) (names : List Str) (entry : WalkEntry ν) : Prop :=
  ∃ (path : RelPath) (isDirectory : Bool), path.components = names ∧
    entry.isDir = .ok isDirectory ∧ ignores.excludes path isDirectory = true

/-- The entries below the root that no ignored directory holds; what is known
not to be a directory holds nothing. -/
inductive Holds (scandir : ν → WalkListing ν) (ignores : IgnoreSet) (root : ν) :
    List Str → WalkEntry ν → Prop
  | top {entry : WalkEntry ν} (h : entry ∈ (scandir root).entries) :
      Holds scandir ignores root [entry.name.text] entry
  | inside {names : List Str} {parent entry : WalkEntry ν}
      (hparent : Holds scandir ignores root names parent)
      (hkept : ¬ parent.IgnoredAt ignores names) (hdir : parent.isDir ≠ .ok false)
      (h : entry ∈ (scandir parent.below).entries) :
      Holds scandir ignores root (names ++ [entry.name.text]) entry

/-- Every directory that was listed is done. -/
structure WalkDone (scandir : ν → WalkListing ν) (ignores : IgnoreSet) (root : ν)
    (pending : List (WalkItem ν)) (walk : WalkState ν) : Prop where
  root : ∃ item ∈ walk.listed ++ pending, item.node = root ∧ item.relPath = none
  done : ∀ item ∈ walk.listed, ∀ entry ∈ (scandir item.node).entries,
    entry.Done ignores walk.state (walk.listed ++ pending) item.relPath

variable {scandir : ν → WalkListing ν} {root : ν}

theorem WalkDone.round {item : WalkItem ν} {pending : List (WalkItem ν)} {walk : WalkState ν}
    (h : WalkDone scandir ignores root (item :: pending) walk)
    (hstep : ListingStep volume ignores item.relPath (scandir item.node).yielded walk.state later
      children)
    (hcomplete : later.complete = true)
    (hyielded : (scandir item.node).yielded = (scandir item.node).entries) :
    WalkDone scandir ignores root (children ++ pending) ⟨later, walk.listed ++ [item]⟩ := by
  have hmore : walk.listed ++ item :: pending ⊆ walk.listed ++ [item] ++ (children ++ pending) := by
    intro other hother
    simp only [List.mem_append, List.mem_cons] at hother ⊢
    tauto
  constructor
  · obtain ⟨top, htop, hroot⟩ := h.root
    exact ⟨top, hmore htop, hroot⟩
  · intro listed hlisted entry hentry
    rcases List.mem_append.1 hlisted with hlisted | hlisted
    · exact (h.done listed hlisted entry hentry).mono hstep.extended hmore
    · rw [List.mem_singleton.1 hlisted] at hentry ⊢
      rw [← hyielded] at hentry
      refine (hstep.done hcomplete entry hentry).mono (ScanState.Extends.refl _) ?_
      intro child hchild
      simp only [List.mem_append]
      tauto

theorem WalkDone.run {rounds : Nat} {pending left : List (WalkItem ν)} {walk last : WalkState ν}
    (h : walk.state.complete = true → WalkDone scandir ignores root pending walk)
    (hwalk : walkPending nt volume ignores scandir rounds pending walk = (last, .ok left))
    (hcomplete : last.state.complete = true) : WalkDone scandir ignores root left last := by
  induction rounds generalizing pending walk with
  | zero =>
      obtain ⟨rfl, hleft⟩ := Prod.mk.inj hwalk
      obtain rfl := Except.ok.inj hleft
      exact h hcomplete
  | succ rounds ih =>
      cases pending with
      | nil =>
          obtain ⟨rfl, hleft⟩ := Prod.mk.inj hwalk
          obtain rfl := Except.ok.inj hleft
          exact h hcomplete
      | cons item pending =>
          unfold walkPending at hwalk
          rcases @walkListing_cases ν _ nt volume ignores item.relPath (scandir item.node)
              walk.state with
            ⟨state, children, heq, hstep, hyielded⟩ | ⟨state, error, heq, -⟩
          · rw [heq] at hwalk
            refine ih (fun hnow => ?_) hwalk
            exact (h (hstep.extended.complete hnow)).round hstep hnow (hyielded hnow)
          · rw [heq] at hwalk
            exact absurd (Prod.mk.inj hwalk).2 (by simp)

/-- Once nothing is pending, every entry is done with its directory. -/
theorem WalkDone.holds {walk : WalkState ν} (h : WalkDone scandir ignores root [] walk)
    {names : List Str} {entry : WalkEntry ν} (hholds : Holds scandir ignores root names entry) :
    ∃ item ∈ walk.listed, item.relPath.components ++ [entry.name.text] = names ∧
      entry.Done ignores walk.state walk.listed item.relPath := by
  obtain ⟨htop, hdone⟩ := h
  rw [List.append_nil] at htop hdone
  induction hholds with
  | top h =>
      obtain ⟨item, hitem, rfl, hpath⟩ := htop
      refine ⟨item, hitem, ?_, hdone item hitem _ h⟩
      rw [hpath]
      rfl
  | inside hparent hkept hdir h ih =>
      obtain ⟨item, -, hnames, path, hpath, hcase⟩ := ih
      rw [hnames] at hpath
      rcases hcase with ⟨isDirectory, hkind, hout⟩ | ⟨hkind, -⟩ | ⟨-, -, child, hchild, hnode, hrel⟩
      · exact absurd ⟨path, isDirectory, hpath, hkind, hout⟩ hkept
      · exact absurd hkind hdir
      · refine ⟨child, hchild, ?_, hdone child hchild _ (hnode ▸ h)⟩
        rw [hrel]
        exact congrArg (· ++ _) hpath

/-- An entry that is done and not ignored is recorded. -/
theorem WalkDone.recorded {walk : WalkState ν} (h : WalkDone scandir ignores root [] walk)
    {names : List Str} {entry : WalkEntry ν} (hholds : Holds scandir ignores root names entry)
    (hkept : ¬ entry.IgnoredAt ignores names) :
    ∃ path : RelPath, path.components = names ∧ path ∈ walk.state.recordedPaths := by
  obtain ⟨item, -, hnames, path, hpath, hcase⟩ := h.holds hholds
  rw [hnames] at hpath
  refine ⟨path, hpath, ?_⟩
  unfold ScanState.recordedPaths
  rcases hcase with ⟨isDirectory, hkind, hout⟩ | ⟨-, hleaf⟩ | ⟨-, hhas, -⟩
  · exact absurd ⟨path, isDirectory, hpath, hkind, hout⟩ hkept
  · rcases hleaf with ⟨record, hrecord, rfl⟩ | ⟨record, hrecord, rfl⟩
    · exact List.mem_append_left _ (List.mem_append_left _ (List.mem_map.2 ⟨record, hrecord, rfl⟩))
    · exact List.mem_append_right _ (List.mem_map.2 ⟨record, hrecord, rfl⟩)
  · obtain ⟨record, hrecord, hrel⟩ := hhas
    exact List.mem_append_left _ (List.mem_append_right _
      (List.mem_filterMap.2 ⟨record, hrecord, hrel⟩))

theorem complete_of_scanResult {state : ScanState} {resolved : Root}
    (h : (state.scanResult resolved volume ignores).complete = true) : state.complete = true := by
  have hboth : (state.complete && (collisions state.recordedPaths).isEmpty) = true := h
  exact (Bool.and_eq_true_iff.1 hboth).1

theorem mem_paths_scanResult {state : ScanState} {resolved : Root} {path : RelPath}
    (h : path ∈ state.recordedPaths) :
    path ∈ (state.scanResult resolved volume ignores).paths := by
  simpa [ScanResult.paths, ScanState.scanResult, ScanState.recordedPaths,
    ScanState.appendCollisionWarnings, ScanState.appendIdentityWarnings] using h

end Walks

/-- The walk of a tree from its root. -/
theorem walkFull_total (nt : Bool) (volume : VolumeSnapshot) (ignores : IgnoreSet)
    (backend : TreeBackend) {rootStat : RawStat} (hroot : backend.rootLstat = .ok rootStat) :
    ((∃ walk, walkFull nt volume ignores backend.walk backend.tree.weight = (walk, .ok []) ∧
        (walk.state.complete = true →
          WalkDone FolderTree.listing ignores backend.tree [] walk)) ∧
      rootStat.Representable .directory ∧
        ∀ kind stat, Comes volume ignores FolderTree.listing
          [⟨backend.tree, none, rootStat.identity volume⟩] (rootStat.identity volume).toList kind
          stat → stat.Representable kind) ∨
    ((∃ walk error, walkFull nt volume ignores backend.walk backend.tree.weight =
        (walk, .error error)) ∧
      ¬ (rootStat.Representable .directory ∧
        ∀ kind stat, Comes volume ignores FolderTree.listing
          [⟨backend.tree, none, rootStat.identity volume⟩] (rootStat.identity volume).toList kind
          stat → stat.Representable kind)) := by
  have hlstat : backend.walk.rootLstat = .ok rootStat := hroot
  unfold walkFull
  rw [hlstat]
  dsimp only
  rcases scanned_cases nt volume rootStat .directory with
    ⟨hfits, snapshot, hscanned, hidentity⟩ | ⟨hfits, error, hscanned⟩
  · rw [hscanned]
    dsimp only
    have hrounds : ([(⟨backend.tree, none, snapshot.fileIdentity⟩ : WalkItem FolderTree)].map
        fun item => item.node.weight).sum ≤ backend.tree.weight := by simp
    have hvisited : ((ScanState.addDirectory {} none snapshot).visit
        snapshot.fileIdentity).visited = (rootStat.identity volume).toList := by
      rw [hidentity]
      rfl
    have htotal := @walkPending_total _ FolderTree nt volume ignores FolderTree.listing
      FolderTree.weight FolderTree.weight_listing backend.tree.weight
      [⟨backend.tree, none, snapshot.fileIdentity⟩]
      { state := (ScanState.addDirectory {} none snapshot).visit snapshot.fileIdentity } hrounds
    dsimp only at htotal
    rw [hvisited] at htotal
    rcases htotal with ⟨⟨walk, hwalk⟩, hall⟩ | ⟨hraises, kind, stat, hcomes, hbad⟩
    · refine Or.inl ⟨⟨walk, hwalk, WalkDone.run (fun _ => ?_) hwalk⟩, hfits, ?_⟩
      · exact ⟨⟨_, List.mem_singleton_self _, rfl, rfl⟩, fun _ h => absurd h List.not_mem_nil⟩
      · rw [← hidentity] at hall ⊢
        exact hall
    · refine Or.inr ⟨hraises, fun h => hbad (h.2 kind stat ?_)⟩
      rw [← hidentity] at hcomes ⊢
      exact hcomes
  · rw [hscanned]
    exact Or.inr ⟨⟨_, _, rfl⟩, fun h => hfits h.1⟩

/-- A scan of a tree returns, and where it says that it is complete it has
recorded every entry that is not ignored and in no ignored directory, if and
only if the root and all that the walk comes to can be recorded. -/
theorem scan_total (nt : Bool) (backend : TreeBackend) (root : Root) (ignores : IgnoreSet) :
    (∃ result, fullScan nt backend.walk backend.tree.weight root ignores = some (.ok result) ∧
      (result.complete = true → ∀ names entry,
        Holds FolderTree.listing ignores backend.tree names entry →
          ¬ entry.IgnoredAt ignores names →
            ∃ path : RelPath, path.components = names ∧ path ∈ result.paths)) ↔
      Recordable backend root ignores := by
  have hresolves : backend.walk.resolveRoot root = backend.resolveRoot root := rfl
  have hsnapshot : backend.walk.volumeSnapshot = backend.volumeSnapshot := rfl
  unfold fullScan Recordable
  rw [hresolves, hsnapshot]
  cases backend.resolveRoot root with
  | error error =>
      refine ⟨fun _ _ h => absurd h (by simp), fun _ => ⟨_, rfl, fun hcomplete => ?_⟩⟩
      exact absurd hcomplete Bool.false_ne_true
  | ok resolved =>
      cases backend.volumeSnapshot with
      | error error =>
          refine ⟨fun _ _ _ _ h => absurd h (by simp), fun _ => ⟨_, rfl, fun hcomplete => ?_⟩⟩
          exact absurd hcomplete Bool.false_ne_true
      | ok volume =>
          cases hroot : backend.rootLstat with
          | error error =>
              have hlstat : backend.walk.rootLstat = .error error := hroot
              unfold walkFull
              rw [hlstat]
              refine ⟨fun _ _ _ _ _ _ h => absurd h (by simp),
                fun _ => ⟨_, rfl, fun hcomplete => ?_⟩⟩
              exact absurd (complete_of_scanResult hcomplete) Bool.false_ne_true
          | ok rootStat =>
              dsimp only
              -- The walk returns and has met only what can be recorded, or it raises and has not.
              rcases walkFull_total nt volume ignores backend hroot with
                ⟨⟨walk, hwalk, hdone⟩, hall⟩ | ⟨⟨walk, error, hwalk⟩, hbad⟩
              · rw [hwalk]
                constructor
                · rintro - _ - other hother stat hstat
                  obtain rfl := Except.ok.inj hother
                  obtain rfl := Except.ok.inj hstat
                  exact hall
                · intro _
                  refine ⟨_, rfl, fun hcomplete names entry hholds hkept => ?_⟩
                  have hwalked := complete_of_scanResult hcomplete
                  obtain ⟨path, hpath, hrecorded⟩ := (hdone hwalked).recorded hholds hkept
                  exact ⟨path, hpath, mem_paths_scanResult hrecorded⟩
              · rw [hwalk]
                constructor
                · rintro ⟨_, h, -⟩
                  exact absurd h (by simp)
                · intro h
                  exact absurd (h resolved rfl volume rfl rootStat rfl) hbad

end Scan

/-! ## A file older than the epoch

Its time is negative, which no record takes. -/

section Sample

local instance ancientUnicode : Unicode := asciiUnicode

def ancientStat (mode : FileMode) (ino mtimeNs : Int) : RawStat where
  mode := mode
  size := 0
  mtimeNs := mtimeNs
  ino := ino
  nlink := 1
  fileAttributes := some 0x20
  birthtimeNs := some (-1)

/-- The file was last written a moment before 1970. -/
def ancientBackend : TreeBackend where
  resolveRoot := .ok
  volumeSnapshot := .ok { volumeId := volumeA, evidence := {}, profile := ntfsProfile }
  rootLstat := .ok (ancientStat .directory 5 1700000000000000000)
  tree := .folder
    { entries :=
        [{ name := ⟨str "old.txt", by decide⟩
           isDir := .ok false
           isFile := .ok true
           stat := .ok (ancientStat .regular 6 (-100))
           lstat := .ok (ancientStat .regular 6 (-100))
           below := .folder ⟨[], none⟩ }]
      failure := none }

/-- The scan ends, and not with a result. -/
theorem ancient_answered :
    (fullScan true ancientBackend.walk ancientBackend.tree.weight dataRoot {}).any
      (fun answer => !answer.isOk) = true := by
  decide +kernel

theorem scan_raises :
    ∃ error, fullScan true ancientBackend.walk ancientBackend.tree.weight dataRoot {} =
      some (.error error) := by
  have hanswered := ancient_answered
  cases hscan : fullScan true ancientBackend.walk ancientBackend.tree.weight dataRoot {} with
  | none =>
      rw [hscan] at hanswered
      exact absurd hanswered Bool.false_ne_true
  | some answer =>
      cases answer with
      | error error => exact ⟨error, rfl⟩
      | ok result =>
          rw [hscan] at hanswered
          exact absurd hanswered Bool.false_ne_true

end Sample

end NamiSync
