/-
# `Modules.ScanTree` — what a scan records is a tree

The walk reaches an entry through its directory, which it has recorded by
then, so the parents of whatever a scan records are recorded too.  This
holds of an incomplete scan as well.  A complete scan has moreover seen a
valid path in every directory it recorded.

## What is proved

    scan_tree       each entry a scan records is in the tree, was not to be
                    ignored, and has its parents recorded as directories
    scan_directory  in a directory that a complete scan records every name
                    makes a path

The first is what `ScanResult.Rooted` asks, and the planner's results take
`Rooted` as a hypothesis on their scans: here it is discharged.

## The argument

`WalkTree` holds before each round: what is recorded is in the tree with its
parents recorded, and so is what is on the work list.  One entry, one
listing, one round and the whole walk have one lemma each, in that order.
-/
import NamiSync.Modules.FilterFrame
import NamiSync.Modules.ScanCoverage

namespace NamiSync

section ScanTree

variable [Unicode]

/-- The scan recorded the parents of every entry as directories. -/
def ScanResult.Rooted (scan : ScanResult) : Prop :=
  ∀ path ∈ scan.entryPaths, ∀ parent ∈ path.parents,
    some parent ∈ scan.directories.map DirRecord.relPath

/-! ## One entry

The other direction of the coverage: what is recorded was in the tree.  An entry
adds at most one record, at the path of the directory and its name. -/

namespace ScanState

variable {state : ScanState} {path : RelPath}

theorem mem_addFile {relPath : RelPath} {snapshot : FileStat} :
    path ∈ (state.addFile relPath snapshot).recordedPaths ↔
      path ∈ state.recordedPaths ∨ path = relPath := by
  simp [recordedPaths, addFile, or_left_comm, or_comm]

theorem mem_addDirectory {relPath : RelPath} {snapshot : FileStat} :
    path ∈ (state.addDirectory (some relPath) snapshot).recordedPaths ↔
      path ∈ state.recordedPaths ∨ path = relPath := by
  simp [recordedPaths, addDirectory, or_left_comm, or_comm]

theorem mem_addUnsupported {relPath : RelPath} {reason : UnsupportedReason}
    {kind : Option EntryKind} :
    path ∈ (state.addUnsupported relPath reason kind).recordedPaths ↔
      path ∈ state.recordedPaths ∨ path = relPath := by
  simp [recordedPaths, addUnsupported, or_assoc]

theorem hasDirectory_addDirectory (snapshot : FileStat) :
    (state.addDirectory (some path) snapshot).HasDirectory path :=
  ⟨_, List.mem_append_right _ (List.mem_singleton_self _), rfl⟩

end ScanState

section Entries

variable {volume : VolumeSnapshot} {ignores : IgnoreSet} {directory : RootedPath}

/-- Whatever comes of an ordinary entry is recorded at its own path. -/
theorem scanOrdinary_new {entry : Entry} {relPath path : RelPath} {isDirectory : Bool}
    {stat : StatResult} {state : ScanState}
    (h : path ∈ (scanOrdinary volume entry relPath isDirectory stat state).1.recordedPaths) :
    path ∈ state.recordedPaths ∨ path = relPath := by
  unfold scanOrdinary at h
  dsimp only at h
  split at h
  · split at h
    · exact ScanState.mem_addDirectory.1 h
    · exact ScanState.mem_addDirectory.1 h
  · split at h
    · exact ScanState.mem_addFile.1 h
    · exact ScanState.mem_addUnsupported.1 h
    · exact ScanState.mem_addUnsupported.1 h

theorem scanOrdinary_opened {entry : Entry} {relPath : RelPath} {isDirectory : Bool}
    {stat : StatResult} {state : ScanState} {item : Folder × RootedPath}
    (h : item ∈ (scanOrdinary volume entry relPath isDirectory stat state).2) :
    item = (entry.folder, some relPath) ∧
      (scanOrdinary volume entry relPath isDirectory stat state).1.HasDirectory relPath := by
  unfold scanOrdinary at h ⊢
  dsimp only at h ⊢
  split at h
  · next hdir =>
      rw [if_pos hdir]
      split at h
      · exact absurd h List.not_mem_nil
      · next hfresh =>
          rw [if_neg hfresh]
          exact ⟨List.mem_singleton.1 h, ScanState.hasDirectory_addDirectory _⟩
  · split at h <;> exact absurd h List.not_mem_nil

/-- What is recorded for an entry has the candidate as its path, and is not
left out by the ignore set. -/
theorem scanEntry_new {entry : Entry} {path : RelPath} {state : ScanState}
    (h : path ∈ (scanEntry volume ignores directory entry state).1.recordedPaths) :
    path ∈ state.recordedPaths ∨
      validateRelativePath (candidatePath directory entry.name) = .ok path ∧
        entry.ignoredAt ignores path = false := by
  unfold scanEntry at h
  dsimp only at h
  split at h
  · exact Or.inl h
  · next relPath hpath =>
      split at h
      · next error hdir =>
          refine (ScanState.mem_addUnsupported.1 h).imp_right fun heq => ?_
          rw [heq, Entry.ignoredAt, hdir]
          exact ⟨hpath, rfl⟩
      · next isDirectory hdir =>
          split at h
          · exact Or.inl h
          · next hin =>
              have hkept : path = relPath →
                  validateRelativePath (candidatePath directory entry.name) = .ok path ∧
                    entry.ignoredAt ignores path = false := by
                intro heq
                rw [heq, Entry.ignoredAt, hdir]
                exact ⟨hpath, by simpa using hin⟩
              split at h
              · exact (ScanState.mem_addUnsupported.1 h).imp_right hkept
              · split at h
                · cases isDirectory <;> exact (ScanState.mem_addUnsupported.1 h).imp_right hkept
                · split at h
                  · cases isDirectory <;> exact (ScanState.mem_addUnsupported.1 h).imp_right hkept
                  · exact (scanOrdinary_new h).imp_right hkept

theorem scanEntry_opened {entry : Entry} {state : ScanState} {item : Folder × RootedPath}
    (h : item ∈ (scanEntry volume ignores directory entry state).2) :
    ∃ path, item = (entry.folder, some path) ∧
      validateRelativePath (candidatePath directory entry.name) = .ok path ∧
        (scanEntry volume ignores directory entry state).1.HasDirectory path := by
  unfold scanEntry at h ⊢
  dsimp only at h ⊢
  split at h
  · exact absurd h List.not_mem_nil
  · next relPath hpath =>
      split at h
      · exact absurd h List.not_mem_nil
      · next isDirectory hdir =>
          split at h
          · exact absurd h List.not_mem_nil
          · next hin =>
              split at h
              · exact absurd h List.not_mem_nil
              · next stat hstat =>
                  split at h
                  · exact absurd h List.not_mem_nil
                  · next hplace =>
                      split at h
                      · exact absurd h List.not_mem_nil
                      · next hreparse =>
                          rw [if_neg hin, if_neg hplace, if_neg hreparse]
                          obtain ⟨heq, hhas⟩ := scanOrdinary_opened h
                          exact ⟨relPath, heq, hpath, hhas⟩

/-- An entry without a valid path makes the scan incomplete. -/
theorem scanEntry_named {entry : Entry} {state : ScanState}
    (h : (scanEntry volume ignores directory entry state).1.complete = true) :
    ∃ path, validateRelativePath (candidatePath directory entry.name) = .ok path := by
  unfold scanEntry at h
  dsimp only at h
  split at h
  · exact absurd h Bool.false_ne_true
  · next path hpath => exact ⟨path, hpath⟩

/-! ## One directory

The body over a listing that may be cut short by a fault, and still records only
what was yielded. -/

theorem scanEntries_new {entries : List Entry} {path : RelPath} {state : ScanState}
    (h : path ∈ (scanEntries volume ignores directory entries state).1.recordedPaths) :
    path ∈ state.recordedPaths ∨ ∃ entry ∈ entries,
      validateRelativePath (candidatePath directory entry.name) = .ok path ∧
        entry.ignoredAt ignores path = false := by
  induction entries generalizing state with
  | nil => exact Or.inl h
  | cons entry rest ih =>
      rcases ih h with hbefore | ⟨other, hother, hnew⟩
      · exact (scanEntry_new hbefore).imp_right fun hnew => ⟨entry, List.mem_cons_self, hnew⟩
      · exact Or.inr ⟨other, List.mem_cons_of_mem _ hother, hnew⟩

theorem scanEntries_opened {entries : List Entry} {state : ScanState} {item : Folder × RootedPath}
    (h : item ∈ (scanEntries volume ignores directory entries state).2) :
    ∃ entry ∈ entries, ∃ path, item = (entry.folder, some path) ∧
      validateRelativePath (candidatePath directory entry.name) = .ok path ∧
        (scanEntries volume ignores directory entries state).1.HasDirectory path := by
  induction entries generalizing state with
  | nil => exact absurd h List.not_mem_nil
  | cons entry rest ih =>
      rcases List.mem_append.1 h with hhere | hlater
      · obtain ⟨path, heq, hpath, hhas⟩ := scanEntry_opened hhere
        exact ⟨entry, List.mem_cons_self, path, heq, hpath, hhas.mono (scanEntries_extends ..)⟩
      · obtain ⟨other, hother, hrest⟩ := ih hlater
        exact ⟨other, List.mem_cons_of_mem _ hother, hrest⟩

theorem scanEntries_named {entries : List Entry} {state : ScanState}
    (h : (scanEntries volume ignores directory entries state).1.complete = true) :
    ∀ entry ∈ entries, ∃ path,
      validateRelativePath (candidatePath directory entry.name) = .ok path := by
  induction entries generalizing state with
  | nil => exact fun _ h => absurd h List.not_mem_nil
  | cons entry rest ih =>
      intro other hother
      rcases List.mem_cons.1 hother with rfl | hother
      · exact scanEntry_named ((scanEntries_extends ..).complete h)
      · exact ih h other hother

omit [Unicode] in
theorem mem_yielded {folder : Folder} {entry : Entry} (h : entry ∈ folder.yielded) :
    entry ∈ folder.entries := by
  unfold Folder.yielded at h
  split at h
  · exact h
  · exact List.mem_of_mem_take h

theorem scanFolder_new {folder : Folder} {path : RelPath} {state : ScanState}
    (h : path ∈ (scanFolder volume ignores folder directory state).1.recordedPaths) :
    path ∈ state.recordedPaths ∨ ∃ entry ∈ folder.entries,
      validateRelativePath (candidatePath directory entry.name) = .ok path ∧
        entry.ignoredAt ignores path = false := by
  unfold scanFolder at h
  rcases scanEntries_new h with hbefore | ⟨entry, hentry, hnew⟩
  · refine Or.inl ?_
    split at hbefore <;> exact hbefore
  · exact Or.inr ⟨entry, mem_yielded (mem_sortedBy.1 hentry), hnew⟩

theorem scanFolder_opened {folder : Folder} {state : ScanState} {item : Folder × RootedPath}
    (h : item ∈ (scanFolder volume ignores folder directory state).2) :
    ∃ entry ∈ folder.entries, ∃ path, item = (entry.folder, some path) ∧
      validateRelativePath (candidatePath directory entry.name) = .ok path ∧
        (scanFolder volume ignores folder directory state).1.HasDirectory path := by
  obtain ⟨entry, hentry, hrest⟩ := scanEntries_opened h
  exact ⟨entry, mem_yielded (mem_sortedBy.1 hentry), hrest⟩

/-- A directory that a complete scan went through holds only valid names. -/
theorem scanFolder_named {folder : Folder} {state : ScanState}
    (h : (scanFolder volume ignores folder directory state).1.complete = true) :
    ∀ entry ∈ folder.entries, ∃ path,
      validateRelativePath (candidatePath directory entry.name) = .ok path := by
  unfold scanFolder at h
  cases hfailure : folder.failure with
  | some failure =>
      rw [hfailure] at h
      exact absurd ((scanEntries_extends ..).complete h) Bool.false_ne_true
  | none =>
      rw [hfailure] at h
      intro entry hentry
      refine scanEntries_named h entry (mem_sortedBy.2 ?_)
      rwa [Folder.yielded, hfailure]

end Entries

/-! ## The walk

Every pending directory is a directory of the tree, so what a round records is
an entry of it. -/

/-- An item of the work list is a directory of the tree, recorded like its
parents. -/
def OpenedAt (tree : Tree) (state : ScanState) (item : Folder × RootedPath) : Prop :=
  match item.2 with
  | none => item.1 = tree.root
  | some path => (∃ entry, tree.root.Has path.components entry ∧ entry.folder = item.1) ∧
      state.HasDirectory path ∧ ∀ parent ∈ path.parents, state.HasDirectory parent

/-- What holds of the records during the walk. -/
structure WalkTree (tree : Tree) (ignores : IgnoreSet) (pending : Pending) (state : ScanState) :
    Prop where
  opened : ∀ item ∈ pending, OpenedAt tree state item
  rooted : ∀ path ∈ state.recordedPaths, ∀ parent ∈ path.parents, state.HasDirectory parent
  kept : ∀ path ∈ state.recordedPaths,
    ∃ entry, tree.root.Has path.components entry ∧ entry.ignoredAt ignores path = false

/-- A valid name in an opened directory is a path of the tree. -/
theorem OpenedAt.child {tree : Tree} {state : ScanState} {folder : Folder}
    {directory : RootedPath} (h : OpenedAt tree state (folder, directory)) {entry : Entry}
    (hentry : entry ∈ folder.entries) {path : RelPath}
    (hpath : validateRelativePath (candidatePath directory entry.name) = .ok path) :
    path.components = directory.components ++ [entry.name] ∧
      tree.root.Has path.components entry ∧
        ∀ parent ∈ path.parents, state.HasDirectory parent := by
  cases directory with
  | none =>
      obtain rfl : folder = tree.root := h
      have hnames := components_of_candidate (tree.root_listing.no_separator entry hentry) hpath
      refine ⟨hnames, hnames ▸ .top hentry, fun parent hparent => ?_⟩
      rw [RelPath.parents_of_singleton hnames] at hparent
      exact absurd hparent List.not_mem_nil
  | some above =>
      obtain ⟨⟨opened, hopened, rfl⟩, hhere, habove⟩ := h
      have hnames := components_of_candidate
        ((tree.listing _ _ hopened).no_separator entry hentry) hpath
      refine ⟨hnames, hnames ▸ .inside hopened hentry, fun parent hparent => ?_⟩
      rw [RelPath.parents_of_append hnames] at hparent
      rcases List.mem_cons.1 hparent with rfl | hparent
      · exact hhere
      · exact habove parent hparent

theorem OpenedAt.mono {tree : Tree} {before after : ScanState} {item : Folder × RootedPath}
    (h : OpenedAt tree before item) (hext : before.Extends after) : OpenedAt tree after item := by
  obtain ⟨folder, directory⟩ := item
  cases directory with
  | none => exact h
  | some path =>
      obtain ⟨hentry, hhere, habove⟩ := h
      exact ⟨hentry, hhere.mono hext, fun parent hparent => (habove parent hparent).mono hext⟩

theorem WalkTree.step {tree : Tree} {ignores : IgnoreSet} {volume : VolumeSnapshot}
    {folder : Folder} {directory : RootedPath} {pending : Pending} {state : ScanState}
    (hinv : WalkTree tree ignores ((folder, directory) :: pending) state) :
    WalkTree tree ignores ((scanFolder volume ignores folder directory state).2 ++ pending)
      (scanFolder volume ignores folder directory state).1 := by
  have hat := hinv.opened _ List.mem_cons_self
  have hext := scanFolder_extends volume ignores folder directory state
  refine { opened := ?_, rooted := ?_, kept := ?_ }
  · intro item hitem
    rcases List.mem_append.1 hitem with hnew | hitem
    · obtain ⟨entry, hentry, path, rfl, hpath, hhas⟩ := scanFolder_opened hnew
      obtain ⟨-, hin, habove⟩ := hat.child hentry hpath
      exact ⟨⟨entry, hin, rfl⟩, hhas, fun parent hparent => (habove parent hparent).mono hext⟩
    · exact (hinv.opened item (List.mem_cons_of_mem _ hitem)).mono hext
  · intro path hmem parent hparent
    rcases scanFolder_new hmem with hbefore | ⟨entry, hentry, hpath, -⟩
    · exact (hinv.rooted path hbefore parent hparent).mono hext
    · exact ((hat.child hentry hpath).2.2 parent hparent).mono hext
  · intro path hmem
    rcases scanFolder_new hmem with hbefore | ⟨entry, hentry, hpath, hin⟩
    · exact hinv.kept path hbefore
    · exact ⟨entry, (hat.child hentry hpath).2.1, hin⟩

theorem WalkTree.run {tree : Tree} {ignores : IgnoreSet} {volume : VolumeSnapshot} {fuel : Nat}
    {pending : Pending} {state : ScanState} (hinv : WalkTree tree ignores pending state) :
    WalkTree tree ignores (scanPending volume ignores fuel pending state).2
      (scanPending volume ignores fuel pending state).1 := by
  induction fuel generalizing pending state with
  | zero => exact hinv
  | succ fuel ih =>
      cases pending with
      | nil => exact hinv
      | cons item pending => exact ih hinv.step

/-- The start of the walk. -/
theorem WalkTree.init (tree : Tree) (ignores : IgnoreSet) (snapshot : FileStat) :
    WalkTree tree ignores [(tree.root, none)]
      ((ScanState.addDirectory {} none snapshot).visit snapshot.fileIdentity) where
  opened := by
    intro item hitem
    obtain rfl := List.mem_singleton.1 hitem
    rfl
  rooted := fun path hmem => absurd hmem List.not_mem_nil
  kept := fun path hmem => absurd hmem List.not_mem_nil

theorem scanFull_tree (volume : VolumeSnapshot) (ignores : IgnoreSet) (backend : ScannerBackend) :
    ∃ pending, WalkTree backend.tree ignores pending (scanFull volume ignores backend) := by
  unfold scanFull
  cases backend.rootLstat with
  | error error =>
      exact ⟨[], fun _ h => absurd h List.not_mem_nil, fun _ h => absurd h List.not_mem_nil,
        fun _ h => absurd h List.not_mem_nil⟩
  | ok stat => exact ⟨_, (WalkTree.init backend.tree ignores _).run⟩

/-! ## Names in a complete walk

When the walk is complete every entry that was yielded has a name that the
model of a path accepts. -/

/-- Every name in the directory makes a path. -/
def FolderNamed (folder : Folder) (path : RelPath) : Prop :=
  ∀ entry ∈ folder.entries, ∃ child : RelPath, child.components = path.components ++ [entry.name]

/-- What is recorded as a directory and not on the work list is named. -/
def WalkNamed (tree : Tree) (pending : Pending) (state : ScanState) : Prop :=
  ∀ (path : RelPath) (entry : Entry), tree.root.Has path.components entry →
    state.HasDirectory path → (entry.folder, some path) ∈ pending ∨ FolderNamed entry.folder path

theorem WalkNamed.step {tree : Tree} {ignores : IgnoreSet} {volume : VolumeSnapshot}
    {folder : Folder} {directory : RootedPath} {pending : Pending} {state : ScanState}
    (hinv : WalkInv tree ignores ((folder, directory) :: pending) state)
    (hnamed : WalkNamed tree ((folder, directory) :: pending) state)
    (hcomplete : (scanFolder volume ignores folder directory state).1.complete = true) :
    WalkNamed tree ((scanFolder volume ignores folder directory state).2 ++ pending)
      (scanFolder volume ignores folder directory state).1 := by
  have hat := hinv.opened _ List.mem_cons_self
  have hscan := scanFolder_listing hat.listing hcomplete
  rintro path entry hhas ⟨record, hrecord, hrel⟩
  rcases hscan.directories record hrecord with hold | ⟨e, he, p, hp, hpath, _, _, hchild⟩
  · rcases hnamed path entry hhas ⟨record, hold, hrel⟩ with hpending | hdone
    · rcases List.mem_cons.1 hpending with heq | hpending
      · obtain ⟨rfl, rfl⟩ := Prod.mk.inj heq
        refine Or.inr fun child hchild => ?_
        obtain ⟨below, hbelow⟩ := scanFolder_named hcomplete child hchild
        exact ⟨below, components_of_candidate (hat.listing.no_separator child hchild) hbelow⟩
      · exact Or.inl (List.mem_append_right _ hpending)
    · exact Or.inr hdone
  · obtain rfl : p = path := Option.some.inj (hp.symm.trans hrel)
    obtain rfl : e = entry := Tree.has_unique (hpath ▸ hat.has he) hhas
    exact Or.inl (List.mem_append_left _ hchild)

theorem WalkNamed.run {tree : Tree} {ignores : IgnoreSet} {volume : VolumeSnapshot} {fuel : Nat}
    {pending : Pending} {state : ScanState} (hinv : WalkInv tree ignores pending state)
    (hnamed : WalkNamed tree pending state)
    (hcomplete : (scanPending volume ignores fuel pending state).1.complete = true) :
    WalkNamed tree (scanPending volume ignores fuel pending state).2
      (scanPending volume ignores fuel pending state).1 := by
  induction fuel generalizing pending state with
  | zero => exact hnamed
  | succ fuel ih =>
      cases pending with
      | nil => exact hnamed
      | cons item pending =>
          have hround : (scanFolder volume ignores item.1 item.2 state).1.complete = true :=
            (scanPending_extends ..).complete hcomplete
          exact ih (hinv.step hround) (hnamed.step hinv hround) hcomplete

theorem scanFull_named {volume : VolumeSnapshot} {ignores : IgnoreSet} {backend : ScannerBackend}
    (hcomplete : (scanFull volume ignores backend).complete = true) :
    WalkNamed backend.tree [] (scanFull volume ignores backend) := by
  unfold scanFull at hcomplete ⊢
  cases hroot : backend.rootLstat with
  | error error =>
      rw [hroot] at hcomplete
      exact absurd hcomplete Bool.false_ne_true
  | ok stat =>
      rw [hroot] at hcomplete
      dsimp only at hcomplete ⊢
      have hnamed : WalkNamed backend.tree [(backend.tree.root, none)]
          ((ScanState.addDirectory {} none (toStat stat .directory volume)).visit
            (toStat stat .directory volume).fileIdentity) := by
        rintro path entry _ ⟨record, hrecord, hrel⟩
        obtain rfl := List.mem_singleton.1 hrecord
        exact absurd hrel (by simp)
      have hrun := hnamed.run (WalkInv.init backend.tree ignores _) hcomplete
      rwa [scanPending_done (by simp [Pending.weight])] at hrun

/-! ## The result

The two lists of the result, traced to the tree. -/

/-- What a scan says about the tree, complete or not: an entry that it
records is there, was not to be ignored, and has its parents recorded. -/
theorem scan_tree {backend : ScannerBackend} {root : Root} {ignores : IgnoreSet} :
    (scan backend root ignores).Rooted ∧
      ∀ path ∈ (scan backend root ignores).entryPaths,
        ∃ entry, backend.tree.root.Has path.components entry ∧
          entry.ignoredAt ignores path = false := by
  unfold scan
  cases backend.resolveRoot root with
  | error error =>
      exact ⟨fun _ h => absurd h List.not_mem_nil, fun _ h => absurd h List.not_mem_nil⟩
  | ok resolved =>
      cases backend.volumeSnapshot with
      | error error =>
          exact ⟨fun _ h => absurd h List.not_mem_nil, fun _ h => absurd h List.not_mem_nil⟩
      | ok volume =>
          obtain ⟨pending, hwalk⟩ := scanFull_tree volume ignores backend
          have hrecorded : ∀ path, path ∈ (scanFull volume ignores backend).recordedPaths →
              (∀ parent ∈ path.parents,
                (scanFull volume ignores backend).HasDirectory parent) ∧
              ∃ entry, backend.tree.root.Has path.components entry ∧
                entry.ignoredAt ignores path = false :=
            fun path hmem => ⟨hwalk.rooted path hmem, hwalk.kept path hmem⟩
          dsimp only
          constructor
          · intro path hpath parent hparent
            obtain ⟨record, hrecord, hrel⟩ := (hrecorded path (by
              simpa [ScanResult.entryPaths, ScanState.recordedPaths,
                ScanState.appendCollisionWarnings, ScanState.appendIdentityWarnings]
                using hpath)).1 parent hparent
            exact List.mem_map.2 ⟨record, mem_sortedBy.2 hrecord, hrel⟩
          · intro path hpath
            exact (hrecorded path (by
              simpa [ScanResult.entryPaths, ScanState.recordedPaths,
                ScanState.appendCollisionWarnings, ScanState.appendIdentityWarnings]
                using hpath)).2

/-- What a complete scan says of the directories it records: none is
ignored, and every name in one makes a path. -/
theorem scan_directory {backend : ScannerBackend} {root : Root} {ignores : IgnoreSet}
    (hcomplete : (scan backend root ignores).complete = true) {record : DirRecord}
    (hrecord : record ∈ (scan backend root ignores).directories) {path : RelPath}
    (hpath : record.relPath = some path) :
    ignores.excludes path true = false ∧
      ∀ entry, backend.tree.root.Has path.components entry → FolderNamed entry.folder path := by
  unfold scan at hcomplete hrecord
  cases hroot : backend.resolveRoot root with
  | error error =>
      rw [hroot] at hrecord
      exact absurd hrecord List.not_mem_nil
  | ok resolved =>
      cases hvolume : backend.volumeSnapshot with
      | error error =>
          rw [hroot, hvolume] at hrecord
          exact absurd hrecord List.not_mem_nil
      | ok volume =>
          rw [hroot, hvolume] at hcomplete hrecord
          have hwalked := (Bool.and_eq_true_iff.1 hcomplete).1
          have hlisted : record ∈ (scanFull volume ignores backend).directories :=
            mem_sortedBy.1 hrecord
          refine ⟨((scanFull_walk hwalked).directories record hlisted path hpath).2.1, ?_⟩
          intro entry hentry
          exact (scanFull_named hwalked path entry hentry ⟨record, hlisted, hpath⟩).resolve_left
            List.not_mem_nil

end ScanTree

end NamiSync
