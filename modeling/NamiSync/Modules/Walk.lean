/-
# `Modules.Walk` — the full walk over whatever a backend answers

`scan` with a full scope and `_scan_full` of `modules/scanner.py`, over a
graph of directories: what an entry names may be listed once more below
itself.  Stat results are what the operating system reports, and where no
record can be built of one, the `ValueError` of its constructor ends the
walk.

## What is proved

    walk_terminates : over a graph of directories with finitely many inode
      numbers, after as many rounds as there are numbers, and one more, the
      walk has nothing left to list or has raised; it has listed no identity
      twice, and if it is still complete it has recorded none twice

on a volume with stable identities.

## The argument

The measure is the number of identities not visited.  A round takes one item
off the list and puts on at most as many as it takes identities off the
unvisited ones (`ListingStep.measure`), since the loop body looks an identity
up before it opens a directory.  A volume without identities would have no
such bound; there the source lists nothing below the root twice only because
the tree is one, which is `Modules.Totality`.
-/
import Mathlib.Data.Finset.Card
import NamiSync.Modules.ScanCoverage
import NamiSync.Modules.StatSnapshot

namespace NamiSync

/-! ## What a backend answers

The backend is a function from directories to listings.  Nothing says that it
comes from a tree: a listing may break off, an entry may fail to be examined,
and a directory may hold itself. -/

/-- The name of a directory entry. -/
structure EntryName where
  text : Str
  no_separator : backslash ∉ text ∧ slash ∉ text
  deriving DecidableEq

/-- What the calls on one directory entry return; `below` is what its path
names. -/
structure WalkEntry (ν : Type) where
  name : EntryName
  isDir : Except OsError Bool
  isFile : Except OsError Bool
  stat : Except OsError RawStat
  lstat : Except OsError RawStat
  below : ν

/-- What `scandir` holds, and after how many entries it raises. -/
structure WalkListing (ν : Type) where
  entries : List (WalkEntry ν)
  failure : Option (Nat × OsError)

/-- A `ScannerBackend`; a directory is a `ν`. -/
structure WalkBackend (ν : Type) where
  resolveRoot : Root → Except OsError Root
  volumeSnapshot : Except OsError VolumeSnapshot
  rootLstat : Except OsError RawStat
  root : ν
  scandir : ν → WalkListing ν

/-- The entries that are yielded. -/
def WalkListing.yielded {ν : Type} (listing : WalkListing ν) : List (WalkEntry ν) :=
  match listing.failure with
  | none => listing.entries
  | some (n, _) => listing.entries.take n

section Walk

variable {ν : Type}

/-- `entry.stat(...)`, and `lstat` where the volume has identities but the
directory entry brings none. -/
def WalkEntry.entryStat (volume : VolumeSnapshot) (entry : WalkEntry ν) :
    Except OsError RawStat :=
  match entry.stat with
  | .error error => .error error
  | .ok stat =>
      if volume.profile.stableFileIdentity && decide (stat.ino ≤ 0) then entry.lstat else .ok stat

variable [Unicode]

/-- An item of `pending`, with the identity that was found for it. -/
structure WalkItem (ν : Type) where
  node : ν
  relPath : RootedPath
  identity : Option FileIdentity

/-- The lists and locals of `_scan_full`, and the directories it has called
`scandir` on. -/
structure WalkState (ν : Type) where
  state : ScanState := {}
  listed : List (WalkItem ν) := []

variable (nt : Bool) (volume : VolumeSnapshot) (ignores : IgnoreSet)

/-- `_entry_sort_key`. -/
def WalkEntry.sortKey (entry : WalkEntry ν) : Nat ×ₗ (Str ×ₗ Str) :=
  match validateRelativePath entry.name.text with
  | .ok path => toLex (0, toLex (path.key, entry.name.text))
  | .error _ => toLex (1, toLex (asciiText entry.name.text, []))

/-! ## `_scan_full`

The walk as the source has it, over such a backend: the loop over the pending
directories, the loop over a listing, and the body for one entry. -/

/-- The end of the loop body, for an entry that is neither ignored, a
placeholder nor a reparse point. -/
def walkOrdinary (entry : WalkEntry ν) (relPath : RelPath) (isDirectory : Bool) (stat : RawStat)
    (state : ScanState) : ScanState × Except ValueError (List (WalkItem ν)) :=
  if isDirectory then
    match stat.scanned nt volume .directory with
    | .error error => (state, .error error)
    | .ok snapshot =>
        let state := state.addDirectory (some relPath) snapshot
        if ∃ identity ∈ snapshot.fileIdentity, identity ∈ state.visited then
          ((state.warn .duplicateIdentity (some (some relPath))
            (str "directory identity already visited")).incomplete, .ok [])
        else
          (state.visit snapshot.fileIdentity,
            .ok [⟨entry.below, some relPath, snapshot.fileIdentity⟩])
  else
    match entry.isFile with
    | .ok true =>
        match stat.scanned nt volume .file with
        | .error error => (state, .error error)
        | .ok snapshot => (state.addFile relPath snapshot, .ok [])
    | .ok false =>
        (((state.addUnsupported relPath .unknownType none).warn .unknownType
          (some (some relPath)) []).incomplete, .ok [])
    | .error error =>
        ((((state.warn error.warningCode (some (some relPath)) error.text).addUnsupported
          relPath .unknownType none).warn .unknownType (some (some relPath)) []).incomplete, .ok [])

/-- The body of the loop over one listing. -/
def walkEntry (relativeDirectory : RootedPath) (entry : WalkEntry ν) (state : ScanState) :
    ScanState × Except ValueError (List (WalkItem ν)) :=
  let candidate := candidatePath relativeDirectory entry.name.text
  match validateRelativePath candidate with
  | .error error =>
      ((state.warn .pathUnrepresentable (relativeDirectory.map some)
        (asciiText candidate ++ str ": " ++ str error.message)).incomplete, .ok [])
  | .ok relPath =>
      match entry.isDir with
      | .error error =>
          (((state.warn error.warningCode (some (some relPath)) error.text).addUnsupported
            relPath error.unsupportedReason none).incomplete, .ok [])
      | .ok isDirectory =>
          let kind := if isDirectory then EntryKind.directory else .file
          if ignores.excludes relPath isDirectory then (state, .ok [])
          else
            match entry.entryStat volume with
            | .error error =>
                (((state.warn error.warningCode (some (some relPath)) error.text).addUnsupported
                  relPath error.unsupportedReason
                  (if isDirectory then some .directory else none)).incomplete, .ok [])
            | .ok stat =>
                if stat.placeholder then
                  let state := (state.addUnsupported relPath .placeholder (some kind)).warn
                    .placeholder (some (some relPath)) []
                  (if isDirectory then state.incomplete else state, .ok [])
                else if stat.reparse then
                  let state := (state.addUnsupported relPath .reparsePoint (some kind)).warn
                    .reparsePoint (some (some relPath)) []
                  (if isDirectory then state.incomplete else state, .ok [])
                else walkOrdinary nt volume entry relPath isDirectory stat state

/-- The loop over one listing; the result is `child_directories`. -/
def walkEntries (relativeDirectory : RootedPath) :
    List (WalkEntry ν) → ScanState → ScanState × Except ValueError (List (WalkItem ν))
  | [], state => (state, .ok [])
  | entry :: rest, state =>
      match walkEntry nt volume ignores relativeDirectory entry state with
      | (state, .error error) => (state, .error error)
      | (state, .ok children) =>
          match walkEntries relativeDirectory rest state with
          | (state, .error error) => (state, .error error)
          | (state, .ok later) => (state, .ok (children ++ later))

/-- One round of `while pending`. -/
def walkListing (listing : WalkListing ν) (relativeDirectory : RootedPath) (state : ScanState) :
    ScanState × Except ValueError (List (WalkItem ν)) :=
  let state :=
    match listing.failure with
    | none => state
    | some (_, error) =>
        (state.warn .enumerationError (some relativeDirectory) error.text).incomplete
  walkEntries nt volume ignores relativeDirectory (sortedBy WalkEntry.sortKey listing.yielded) state

/-- `while pending`, for so many rounds: what is pending then.  The head of
the list is the end of the source's stack. -/
def walkPending (scandir : ν → WalkListing ν) :
    Nat → List (WalkItem ν) → WalkState ν → WalkState ν × Except ValueError (List (WalkItem ν))
  | 0, pending, walk => (walk, .ok pending)
  | _, [], walk => (walk, .ok [])
  | rounds + 1, item :: pending, walk =>
      match walkListing nt volume ignores (scandir item.node) item.relPath walk.state with
      | (state, .error error) => (⟨state, walk.listed ++ [item]⟩, .error error)
      | (state, .ok children) =>
          walkPending scandir rounds (children ++ pending) ⟨state, walk.listed ++ [item]⟩

/-- `_scan_full`, for so many rounds. -/
def walkFull (backend : WalkBackend ν) (rounds : Nat) :
    WalkState ν × Except ValueError (List (WalkItem ν)) :=
  match backend.rootLstat with
  | .error error =>
      ({ state := (ScanState.warn {} .rootUnavailable none error.text).incomplete }, .ok [])
  | .ok stat =>
      match stat.scanned nt volume .directory with
      | .error error => ({}, .error error)
      | .ok snapshot =>
          walkPending nt volume ignores backend.scandir rounds
            [⟨backend.root, none, snapshot.fileIdentity⟩]
            { state := (ScanState.addDirectory {} none snapshot).visit snapshot.fileIdentity }

/-! ## What comes of an entry -/

omit [Unicode] in
theorem VolumeSnapshot.serial_ne (volume : VolumeSnapshot) : volume.volumeId.serial ≠ [] :=
  volume.volumeId.serial_ne

/-- The identity that `_to_stat` finds. -/
def RawStat.identity (volume : VolumeSnapshot) (stat : RawStat) : Option FileIdentity :=
  if volume.profile.stableFileIdentity ∧ 0 < stat.ino then
    some ⟨volume.volumeId.serial, stat.ino.toNat, volume.serial_ne⟩
  else none

/-- A record of the kind can be built of the stat result. -/
def RawStat.Representable (stat : RawStat) (kind : EntryKind) : Prop :=
  0 ≤ stat.attributes ∧ 0 ≤ stat.mtimeNs ∧ (kind = .file → 0 ≤ stat.size)

/-- The path, the kind and the stat result that are to be recorded of an
entry as a file or as a directory, if they are. -/
def WalkEntry.recorded (relativeDirectory : RootedPath) (entry : WalkEntry ν) :
    Option (RelPath × EntryKind × RawStat) :=
  match validateRelativePath (candidatePath relativeDirectory entry.name.text), entry.isDir with
  | .error _, _ | _, .error _ => none
  | .ok relPath, .ok isDirectory =>
      if ignores.excludes relPath isDirectory then none
      else
        match entry.entryStat volume with
        | .error _ => none
        | .ok stat =>
            if stat.placeholder || stat.reparse then none
            else if isDirectory then some (relPath, .directory, stat)
            else if entry.isFile = .ok true then some (relPath, .file, stat)
            else none

omit [Unicode] in
theorem scannedIdentity_eq (stat : RawStat) :
    stat.scannedIdentity volume = .ok (stat.identity volume) := by
  unfold RawStat.scannedIdentity RawStat.identity
  split
  · next hstable =>
      split
      · next hino => rw [if_neg fun h => absurd h.2 (by omega)]
      · next hino =>
          rw [if_pos ⟨hstable, by omega⟩]
          exact Checked.map_eq_ok.2 ⟨_, (FileIdentity.checked_eq_ok volume.volumeId.serial_ne).2
            ⟨by omega, rfl⟩, rfl⟩
  · next hstable => rw [if_neg fun h => hstable h.1]

omit [Unicode] in
/-- `_to_stat` on what can be recorded, and on what cannot. -/
theorem scanned_cases (stat : RawStat) (kind : EntryKind) :
    (stat.Representable kind ∧ ∃ snapshot, stat.scanned nt volume kind = .ok snapshot ∧
      snapshot.fileIdentity = stat.identity volume) ∨
    (¬ stat.Representable kind ∧ ∃ error, stat.scanned nt volume kind = .error error) := by
  have hscanned : stat.scanned nt volume kind =
      (MetadataSnapshot.checked stat.attributes (stat.scannedCreatedNs nt) >>= fun metadata =>
        FileStat.checked kind (if kind = .file then stat.size else 0) stat.mtimeNs
          (stat.identity volume) (max 1 stat.nlink) metadata) := by
    unfold RawStat.scanned
    rw [scannedIdentity_eq, Checked.ok_bind]
  have hcreated : CreatedRepresentable (stat.scannedCreatedNs nt) := by
    intro created h
    exact of_decide_eq_true (Option.filter_eq_some_iff.1 h).2
  cases hresult : stat.scanned nt volume kind with
  | ok snapshot =>
      rw [hscanned] at hresult
      obtain ⟨metadata, hmetadata, hstat⟩ := Checked.bind_eq_ok.1 hresult
      obtain ⟨hattributes, -, -⟩ := MetadataSnapshot.checked_eq_ok.1 hmetadata
      obtain ⟨⟨hsize, hmtime, -⟩, -, -, -, hidentity, -, -⟩ := FileStat.checked_eq_ok.1 hstat
      refine Or.inl ⟨⟨hattributes, hmtime, fun hkind => ?_⟩, snapshot, rfl, hidentity⟩
      rwa [if_pos hkind] at hsize
  | error error =>
      refine Or.inr ⟨?_, error, rfl⟩
      rintro ⟨hattributes, hmtime, hsize⟩
      have hsize' : 0 ≤ if kind = .file then stat.size else 0 := by
        split
        · next hkind => exact hsize hkind
        · exact le_refl 0
      have hmetadata := MetadataSnapshot.checked_eq_ok.2 ⟨hattributes, hcreated, rfl⟩
      rw [hscanned, hmetadata, Checked.ok_bind] at hresult
      unfold FileStat.checked at hresult
      rw [if_neg (by omega), dif_neg (by omega)] at hresult
      exact absurd hresult (by simp)

/-! ## One entry

What the body does with an entry, told apart by what the entry answered. -/

/-- What the loop body does with an entry. -/
inductive EntryStep (relativeDirectory : RootedPath) (entry : WalkEntry ν) (state : ScanState) :
    ScanState → Except ValueError (List (WalkItem ν)) → Prop
  | aside (later : ScanState) (hextends : state.Extends later)
      (hdirectories : later.directories = state.directories)
      (hvisited : later.visited = state.visited)
      (hrecorded : ∀ path kind stat,
        entry.recorded volume ignores relativeDirectory = some (path, kind, stat) →
          stat.Representable kind ∧ kind = .file)
      (hresolved : later.complete = true →
        ∃ path : RelPath, path.components = relativeDirectory.components ++ [entry.name.text] ∧
          ((∃ isDirectory, entry.isDir = .ok isDirectory ∧
              ignores.excludes path isDirectory = true) ∨
            entry.isDir = .ok false ∧ later.HasLeaf path)) :
      EntryStep relativeDirectory entry state later (.ok [])
  | duplicate (path : RelPath) (stat : RawStat) (snapshot : FileStat)
      (hrecorded : entry.recorded volume ignores relativeDirectory = some (path, .directory, stat))
      (hrepresentable : stat.Representable .directory)
      (hidentity : snapshot.fileIdentity = stat.identity volume)
      (hvisited : ∃ identity ∈ snapshot.fileIdentity, identity ∈ state.visited) :
      EntryStep relativeDirectory entry state
        (((state.addDirectory (some path) snapshot).warn .duplicateIdentity (some (some path))
          (str "directory identity already visited")).incomplete) (.ok [])
  | opened (path : RelPath) (stat : RawStat) (snapshot : FileStat)
      (hpath : path.components = relativeDirectory.components ++ [entry.name.text])
      (hdir : entry.isDir = .ok true)
      (hrecorded : entry.recorded volume ignores relativeDirectory = some (path, .directory, stat))
      (hrepresentable : stat.Representable .directory)
      (hidentity : snapshot.fileIdentity = stat.identity volume)
      (hfresh : ∀ identity ∈ snapshot.fileIdentity, identity ∉ state.visited) :
      EntryStep relativeDirectory entry state
        ((state.addDirectory (some path) snapshot).visit snapshot.fileIdentity)
        (.ok [⟨entry.below, some path, stat.identity volume⟩])
  | raised (path : RelPath) (kind : EntryKind) (stat : RawStat) (error : ValueError)
      (hrecorded : entry.recorded volume ignores relativeDirectory = some (path, kind, stat))
      (hrepresentable : ¬ stat.Representable kind) :
      EntryStep relativeDirectory entry state state (.error error)

variable {nt volume ignores} {relativeDirectory : RootedPath} {entry : WalkEntry ν}
  {state : ScanState}

/-- An ordinary entry. -/
theorem walkOrdinary_step {path : RelPath} {isDirectory : Bool} {stat : RawStat}
    (hpath : path.components = relativeDirectory.components ++ [entry.name.text])
    (hdir : entry.isDir = .ok isDirectory)
    (hrecorded : entry.recorded volume ignores relativeDirectory =
      if isDirectory then some (path, .directory, stat)
      else if entry.isFile = .ok true then some (path, .file, stat)
      else none) :
    EntryStep volume ignores relativeDirectory entry state
      (walkOrdinary nt volume entry path isDirectory stat state).1
      (walkOrdinary nt volume entry path isDirectory stat state).2 := by
  have hself := ScanState.Extends.refl state
  unfold walkOrdinary
  cases isDirectory with
  | true =>
      rw [if_pos rfl] at hrecorded
      rw [if_pos rfl]
      rcases scanned_cases nt volume stat .directory with
        ⟨hfits, snapshot, hscanned, hidentity⟩ | ⟨hfits, error, hscanned⟩
      · rw [hscanned]
        dsimp only
        split
        · -- Its identity is known, so the directory is recorded but not opened again.
          next hvisited => exact .duplicate path stat snapshot hrecorded hfits hidentity hvisited
        · next hfresh =>
            rw [hidentity]
            rw [hidentity] at hfresh
            have hstep := EntryStep.opened path stat snapshot hpath hdir hrecorded hfits hidentity
              (by simpa [hidentity, ScanState.addDirectory] using hfresh)
            rwa [hidentity] at hstep
      · rw [hscanned]
        exact .raised path .directory stat error hrecorded hfits
  | false =>
      rw [if_neg Bool.false_ne_true] at hrecorded
      rw [if_neg Bool.false_ne_true]
      cases hfile : entry.isFile with
      | error error =>
          rw [hfile, if_neg (by simp)] at hrecorded
          refine .aside _ (((hself.warn _ _ _).addUnsupported _ _ _).warn _ _ _).incomplete rfl rfl
            ?_ fun hcomplete => absurd hcomplete Bool.false_ne_true
          intro _ _ _ hsome
          rw [hrecorded] at hsome
          exact absurd hsome (by simp)
      | ok isFile =>
          cases isFile with
          | false =>
              rw [hfile, if_neg (by simp)] at hrecorded
              refine .aside _ ((hself.addUnsupported _ _ _).warn _ _ _).incomplete rfl rfl
                ?_ fun hcomplete => absurd hcomplete Bool.false_ne_true
              intro _ _ _ hsome
              rw [hrecorded] at hsome
              exact absurd hsome (by simp)
          | true =>
              rw [hfile, if_pos rfl] at hrecorded
              rcases scanned_cases nt volume stat .file with
                ⟨hfits, snapshot, hscanned, hidentity⟩ | ⟨hfits, error, hscanned⟩
              · simp only [hscanned]
                refine .aside _ (hself.addFile path snapshot) rfl rfl ?_ fun _ => ?_
                · intro _ _ _ hsome
                  rw [hrecorded] at hsome
                  obtain ⟨rfl, rfl, rfl⟩ := by simpa using hsome
                  exact ⟨hfits, rfl⟩
                · refine ⟨path, hpath, Or.inr ⟨hdir, Or.inl ⟨_, List.mem_append_right _
                    (List.mem_singleton_self _), rfl⟩⟩⟩
              · simp only [hscanned]
                exact .raised path .file stat error hrecorded hfits

/-- Any entry. -/
theorem walkEntry_step :
    EntryStep volume ignores relativeDirectory entry state
      (walkEntry nt volume ignores relativeDirectory entry state).1
      (walkEntry nt volume ignores relativeDirectory entry state).2 := by
  have hself := ScanState.Extends.refl state
  have unrecorded (hnone : entry.recorded volume ignores relativeDirectory = none) :
      ∀ path kind stat, entry.recorded volume ignores relativeDirectory = some (path, kind, stat) →
        stat.Representable kind ∧ kind = .file := by
    intro _ _ _ hsome
    rw [hnone] at hsome
    exact absurd hsome (by simp)
  unfold walkEntry
  dsimp only
  cases hpath : validateRelativePath (candidatePath relativeDirectory entry.name.text) with
  | error error =>
      exact .aside _ (hself.warn _ _ _).incomplete rfl rfl
        (unrecorded (by simp [WalkEntry.recorded, hpath]))
        fun hcomplete => absurd hcomplete Bool.false_ne_true
  | ok path =>
      have hcomponents := components_of_candidate entry.name.no_separator hpath
      cases hdir : entry.isDir with
      | error error =>
          exact .aside _ ((hself.warn _ _ _).addUnsupported _ _ _).incomplete rfl rfl
            (unrecorded (by simp [WalkEntry.recorded, hpath, hdir]))
            fun hcomplete => absurd hcomplete Bool.false_ne_true
      | ok isDirectory =>
          dsimp only
          split
          · next hout =>
              exact .aside _ hself rfl rfl
                (unrecorded (by simp [WalkEntry.recorded, hpath, hdir, hout]))
                fun _ => ⟨path, hcomponents, Or.inl ⟨isDirectory, hdir, hout⟩⟩
          · next hin =>
              cases hstat : entry.entryStat volume with
              | error error =>
                  exact .aside _ ((hself.warn _ _ _).addUnsupported _ _ _).incomplete rfl rfl
                    (unrecorded (by simp [WalkEntry.recorded, hpath, hdir, hin, hstat]))
                    fun hcomplete => absurd hcomplete Bool.false_ne_true
              | ok stat =>
                  -- a placeholder or a reparse point is not complete if it is a directory
                  have hmarked (hset : (stat.placeholder || stat.reparse) = true)
                      (reason : UnsupportedReason) (kind : EntryKind) (code : ScanWarningCode) :
                      EntryStep volume ignores relativeDirectory entry state
                        (if isDirectory then
                          ((state.addUnsupported path reason (some kind)).warn code
                            (some (some path)) []).incomplete
                        else
                          (state.addUnsupported path reason (some kind)).warn code
                            (some (some path)) []) (.ok []) := by
                    have hnone := unrecorded (by
                      simp [WalkEntry.recorded, hpath, hdir, hin, hstat]
                      intro hplaceholder hreparse
                      simp [hplaceholder, hreparse] at hset)
                    cases isDirectory with
                    | true =>
                        exact .aside _ ((hself.addUnsupported _ _ _).warn _ _ _).incomplete rfl rfl
                          hnone fun hcomplete => absurd hcomplete Bool.false_ne_true
                    | false =>
                        exact .aside _ ((hself.addUnsupported _ _ _).warn _ _ _) rfl rfl hnone
                          fun _ => ⟨path, hcomponents, Or.inr ⟨hdir, Or.inr ⟨_,
                            List.mem_append_right _ (List.mem_singleton_self _), rfl⟩⟩⟩
                  dsimp only
                  split
                  · next hplaceholder => exact hmarked (by rw [hplaceholder]; rfl) _ _ _
                  · next hplaceholder =>
                      split
                      · next hreparse => exact hmarked (by rw [hreparse, Bool.or_true]) _ _ _
                      · next hreparse =>
                          refine walkOrdinary_step hcomponents hdir ?_
                          simp [WalkEntry.recorded, hpath, hdir, hin, hstat, hplaceholder, hreparse]

/-! ## One listing

The body over a listing.  A listing that breaks off is walked as far as
it came, and the scan is incomplete. -/

/-- The identities that are still to be listed. -/
def identities (items : List (WalkItem ν)) : List FileIdentity := items.filterMap WalkItem.identity

/-- The walk has dealt with the entry: it is ignored, it is recorded and not
a directory, or it is recorded and opened. -/
def WalkEntry.Done (ignores : IgnoreSet) (state : ScanState) (opened : List (WalkItem ν))
    (relativeDirectory : RootedPath) (entry : WalkEntry ν) : Prop :=
  ∃ path : RelPath, path.components = relativeDirectory.components ++ [entry.name.text] ∧
    ((∃ isDirectory, entry.isDir = .ok isDirectory ∧ ignores.excludes path isDirectory = true) ∨
      (entry.isDir = .ok false ∧ state.HasLeaf path) ∨
      (entry.isDir = .ok true ∧ state.HasDirectory path ∧
        ∃ item ∈ opened, item.node = entry.below ∧ item.relPath = some path))

theorem WalkEntry.Done.mono {before after : ScanState} {few many : List (WalkItem ν)}
    (h : entry.Done ignores before few relativeDirectory) (hstate : before.Extends after)
    (hopened : few ⊆ many) : entry.Done ignores after many relativeDirectory := by
  obtain ⟨path, hpath, hout | ⟨hdir, hleaf⟩ | ⟨hdir, hhas, item, hitem, hnode⟩⟩ := h
  · exact ⟨path, hpath, Or.inl hout⟩
  · exact ⟨path, hpath, Or.inr (Or.inl ⟨hdir, hleaf.mono hstate⟩)⟩
  · exact ⟨path, hpath, Or.inr (Or.inr ⟨hdir, hhas.mono hstate, item, hopened hitem, hnode⟩)⟩

/-- What a part of a listing adds to the walk. -/
structure ListingStep (volume : VolumeSnapshot) (ignores : IgnoreSet)
    (relativeDirectory : RootedPath) (entries : List (WalkEntry ν)) (before after : ScanState)
    (children : List (WalkItem ν)) : Prop where
  extended : before.Extends after
  visited_eq : after.visited = before.visited ++ identities children
  nodup : before.visited.Nodup → after.visited.Nodup
  recorded_visited : after.complete = true →
    before.directories.filterMap DirRecord.fileIdentity = before.visited →
      after.directories.filterMap DirRecord.fileIdentity = after.visited
  opened : ∀ child ∈ children, ∃ entry ∈ entries, ∃ path stat,
    entry.recorded volume ignores relativeDirectory = some (path, .directory, stat) ∧
      child = ⟨entry.below, some path, stat.identity volume⟩
  representable : ∀ entry ∈ entries, ∀ path kind stat,
    entry.recorded volume ignores relativeDirectory = some (path, kind, stat) →
      stat.Representable kind
  done : after.complete = true →
    ∀ entry ∈ entries, entry.Done ignores after children relativeDirectory

theorem ListingStep.append {first rest : List (WalkEntry ν)} {before mid after : ScanState}
    {children later : List (WalkItem ν)}
    (h : ListingStep volume ignores relativeDirectory first before mid children)
    (h' : ListingStep volume ignores relativeDirectory rest mid after later) :
    ListingStep volume ignores relativeDirectory (first ++ rest) before after
      (children ++ later) where
  extended := h.extended.trans h'.extended
  visited_eq := by
    rw [h'.visited_eq, h.visited_eq, identities, identities, identities, List.filterMap_append,
      List.append_assoc]
  nodup := fun hnodup => h'.nodup (h.nodup hnodup)
  recorded_visited := fun hcomplete hbefore =>
    h'.recorded_visited hcomplete (h.recorded_visited (h'.extended.complete hcomplete) hbefore)
  opened := by
    intro child hchild
    rcases List.mem_append.1 hchild with hchild | hchild
    · obtain ⟨entry, hentry, hrest⟩ := h.opened child hchild
      exact ⟨entry, List.mem_append_left _ hentry, hrest⟩
    · obtain ⟨entry, hentry, hrest⟩ := h'.opened child hchild
      exact ⟨entry, List.mem_append_right _ hentry, hrest⟩
  representable := by
    intro entry hentry
    rcases List.mem_append.1 hentry with hentry | hentry
    · exact h.representable entry hentry
    · exact h'.representable entry hentry
  done := by
    intro hcomplete entry hentry
    rcases List.mem_append.1 hentry with hentry | hentry
    · exact (h.done (h'.extended.complete hcomplete) entry hentry).mono h'.extended
        (List.subset_append_left _ _)
    · exact (h'.done hcomplete entry hentry).mono (ScanState.Extends.refl _)
        (List.subset_append_right _ _)

/-- One entry, if it does not raise. -/
theorem EntryStep.listing {later : ScanState} {children : List (WalkItem ν)}
    (h : EntryStep volume ignores relativeDirectory entry state later (.ok children)) :
    ListingStep volume ignores relativeDirectory [entry] state later children := by
  have hself := ScanState.Extends.refl state
  cases h with
  | aside _ hextends hdirectories hvisited hrecorded hresolved =>
      constructor
      · exact hextends
      · rw [hvisited]
        exact (List.append_nil _).symm
      · intro hnodup
        rwa [hvisited]
      · intro _ hbefore
        rwa [hdirectories, hvisited]
      · exact fun _ h => absurd h List.not_mem_nil
      · intro other hother path kind stat hsome
        rw [List.mem_singleton.1 hother] at hsome
        exact (hrecorded path kind stat hsome).1
      · intro hcomplete other hother
        rw [List.mem_singleton.1 hother]
        obtain ⟨path, hpath, hcase⟩ := hresolved hcomplete
        exact ⟨path, hpath, hcase.imp_right Or.inl⟩
  -- A duplicate is no longer complete, which settles what is asked of a complete state.
  | duplicate path stat snapshot hrecorded hrepresentable hidentity hvisited =>
      constructor
      · exact ((hself.addDirectory _ _).warn _ _ _).incomplete
      · exact (List.append_nil _).symm
      · exact id
      · exact fun hcomplete => absurd hcomplete Bool.false_ne_true
      · exact fun _ h => absurd h List.not_mem_nil
      · intro other hother path kind stat hsome
        rw [List.mem_singleton.1 hother, hrecorded] at hsome
        obtain ⟨rfl, rfl, rfl⟩ := by simpa using hsome
        exact hrepresentable
      · exact fun hcomplete => absurd hcomplete Bool.false_ne_true
  | opened path stat snapshot hpath hdir hrecorded hrepresentable hidentity hfresh =>
      have hadded : identities [(⟨entry.below, some path, stat.identity volume⟩ : WalkItem ν)] =
          snapshot.fileIdentity.toList := by
        rw [hidentity]
        cases stat.identity volume <;> simp [identities]
      constructor
      · exact (hself.addDirectory _ _).visit _
      · rw [hadded]
        rfl
      · intro hnodup
        refine List.nodup_append.2 ⟨hnodup, ?_, ?_⟩
        · cases snapshot.fileIdentity <;> simp
        · intro seen hseen identity hmem heq
          rw [heq] at hseen
          exact hfresh identity (by simpa using hmem) hseen
      · intro _ hbefore
        simp only [ScanState.visit, ScanState.addDirectory, List.filterMap_append, hbefore]
        cases snapshot.fileIdentity <;> simp
      · intro child hchild
        exact ⟨entry, List.mem_singleton_self _, path, stat, hrecorded, List.mem_singleton.1 hchild⟩
      · intro other hother path kind stat hsome
        rw [List.mem_singleton.1 hother, hrecorded] at hsome
        obtain ⟨rfl, rfl, rfl⟩ := by simpa using hsome
        exact hrepresentable
      · intro _ other hother
        rw [List.mem_singleton.1 hother]
        exact ⟨path, hpath, Or.inr (Or.inr ⟨hdir,
          ⟨_, List.mem_append_right _ (List.mem_singleton_self _), rfl⟩, _,
          List.mem_singleton_self _, rfl, rfl⟩)⟩

/-- A listing is walked, or it holds an entry that cannot be recorded. -/
theorem walkEntries_cases (entries : List (WalkEntry ν)) (state : ScanState) :
    (∃ later children, walkEntries nt volume ignores relativeDirectory entries state =
        (later, .ok children) ∧
      ListingStep volume ignores relativeDirectory entries state later children) ∨
    (∃ later error, walkEntries nt volume ignores relativeDirectory entries state =
        (later, .error error) ∧
      ∃ entry ∈ entries, ∃ path kind stat,
        entry.recorded volume ignores relativeDirectory = some (path, kind, stat) ∧
          ¬ stat.Representable kind) := by
  induction entries generalizing state with
  | nil =>
      refine Or.inl ⟨state, [], rfl, ScanState.Extends.refl _, (List.append_nil _).symm, id,
        fun _ => id, ?_, ?_, ?_⟩
      · exact fun _ h => absurd h List.not_mem_nil
      · exact fun _ h => absurd h List.not_mem_nil
      · exact fun _ _ h => absurd h List.not_mem_nil
  | cons entry rest ih =>
      have hstep := @walkEntry_step ν _ nt volume ignores relativeDirectory entry state
      unfold walkEntries
      cases hentry : walkEntry nt volume ignores relativeDirectory entry state with
      | mk mid result =>
          rw [hentry] at hstep
          cases result with
          | error error =>
              cases hstep with
              | raised path kind stat _ hrecorded hrepresentable =>
                  exact Or.inr ⟨_, _, rfl, entry, List.mem_cons_self, path, kind, stat, hrecorded,
                    hrepresentable⟩
          | ok children =>
              dsimp only
              rcases ih mid with ⟨later, more, heq, hlisting⟩ |
                ⟨later, error, heq, other, hother, hbad⟩
              · rw [heq]
                exact Or.inl ⟨_, _, rfl, hstep.listing.append hlisting⟩
              · rw [heq]
                exact Or.inr ⟨_, _, rfl, other, List.mem_cons_of_mem _ hother, hbad⟩

theorem ListingStep.congr {entries same : List (WalkEntry ν)} {before before' after : ScanState}
    {children : List (WalkItem ν)}
    (h : ListingStep volume ignores relativeDirectory entries before after children)
    (hsame : ∀ entry, entry ∈ same ↔ entry ∈ entries) (hextends : before'.Extends before)
    (hdirectories : before.directories = before'.directories)
    (hvisited : before.visited = before'.visited) :
    ListingStep volume ignores relativeDirectory same before' after children where
  extended := hextends.trans h.extended
  visited_eq := hvisited ▸ h.visited_eq
  nodup := hvisited ▸ h.nodup
  recorded_visited := hvisited ▸ hdirectories ▸ h.recorded_visited
  opened := by
    intro child hchild
    obtain ⟨entry, hentry, hrest⟩ := h.opened child hchild
    exact ⟨entry, (hsame entry).2 hentry, hrest⟩
  representable := fun entry hentry => h.representable entry ((hsame entry).1 hentry)
  done := fun hcomplete entry hentry => h.done hcomplete entry ((hsame entry).1 hentry)

/-- A listing that raises leaves the scan incomplete. -/
theorem walkListing_cases (listing : WalkListing ν) (state : ScanState) :
    (∃ later children, walkListing nt volume ignores listing relativeDirectory state =
        (later, .ok children) ∧
      ListingStep volume ignores relativeDirectory listing.yielded state later children ∧
      (later.complete = true → listing.yielded = listing.entries)) ∨
    (∃ later error, walkListing nt volume ignores listing relativeDirectory state =
        (later, .error error) ∧
      ∃ entry ∈ listing.yielded, ∃ path kind stat,
        entry.recorded volume ignores relativeDirectory = some (path, kind, stat) ∧
          ¬ stat.Representable kind) := by
  have hsame : ∀ entry, entry ∈ listing.yielded ↔
      entry ∈ sortedBy WalkEntry.sortKey listing.yielded := fun _ => mem_sortedBy.symm
  have hself := ScanState.Extends.refl state
  unfold walkListing
  cases hfailure : listing.failure with
  | none =>
      rcases @walkEntries_cases ν _ nt volume ignores relativeDirectory
          (sortedBy WalkEntry.sortKey listing.yielded) state with
        ⟨later, children, heq, hstep⟩ | ⟨later, error, heq, entry, hentry, hbad⟩
      · refine Or.inl ⟨later, children, heq, hstep.congr hsame hself rfl rfl, fun _ => ?_⟩
        rw [WalkListing.yielded, hfailure]
      · exact Or.inr ⟨later, error, heq, entry, (hsame entry).2 hentry, hbad⟩
  | some failure =>
      obtain ⟨n, raised⟩ := failure
      rcases @walkEntries_cases ν _ nt volume ignores relativeDirectory
          (sortedBy WalkEntry.sortKey listing.yielded)
          (state.warn .enumerationError (some relativeDirectory) raised.text).incomplete with
        ⟨later, children, heq, hstep⟩ | ⟨later, error, heq, entry, hentry, hbad⟩
      · refine Or.inl ⟨later, children, heq,
          hstep.congr hsame (hself.warn _ _ _).incomplete rfl rfl, fun hcomplete => ?_⟩
        exact absurd (hstep.extended.complete hcomplete) Bool.false_ne_true
      · exact Or.inr ⟨later, error, heq, entry, (hsame entry).2 hentry, hbad⟩

/-! ## The walk

A directory is opened only while its identity is unvisited, and is marked when
it is opened.  So the unvisited identities are fewer after every directory that
is opened, and each is listed once. -/

/-- A directory is listed once for its identity, and what is visited is
listed or still to be listed. -/
structure Once (pending : List (WalkItem ν)) (walk : WalkState ν) : Prop where
  visited_perm : walk.state.visited.Perm (identities (walk.listed ++ pending))
  visited_nodup : walk.state.visited.Nodup

theorem Once.listed_nodup {pending : List (WalkItem ν)} {walk : WalkState ν}
    (h : Once pending walk) : (identities walk.listed).Nodup := by
  have hboth := h.visited_perm.nodup h.visited_nodup
  rw [identities, List.filterMap_append] at hboth
  exact (List.nodup_append.1 hboth).1

/-- A round opens directories that were not visited, and marks them. -/
theorem Once.round {item : WalkItem ν} {pending children : List (WalkItem ν)} {walk : WalkState ν}
    {entries : List (WalkEntry ν)} {later : ScanState} (h : Once (item :: pending) walk)
    (hstep : ListingStep volume ignores relativeDirectory entries walk.state later children) :
    Once (children ++ pending) ⟨later, walk.listed ++ [item]⟩ where
  visited_perm := by
    rw [hstep.visited_eq]
    have hold := h.visited_perm.append_right (identities children)
    refine hold.trans ?_
    simp only [identities, ← List.filterMap_append]
    refine List.Perm.filterMap _ ?_
    simp only [List.append_assoc, List.cons_append]
    exact (List.Perm.cons item List.perm_append_comm).append_left walk.listed
  visited_nodup := hstep.nodup h.visited_nodup

/-- An item that a listing adds was found in one of its directories. -/
theorem recorded_directory {path : RelPath} {stat : RawStat}
    (h : entry.recorded volume ignores relativeDirectory = some (path, .directory, stat)) :
    entry.isDir = .ok true ∧ entry.entryStat volume = .ok stat := by
  unfold WalkEntry.recorded at h
  split at h
  · exact absurd h (by simp)
  · exact absurd h (by simp)
  · next isDirectory hdir =>
      split at h
      · exact absurd h (by simp)
      · split at h
        · exact absurd h (by simp)
        · next hstat =>
            split at h
            · exact absurd h (by simp)
            · split at h
              · next htrue =>
                  obtain ⟨-, -, rfl⟩ := by simpa using h
                  rw [htrue] at hdir
                  exact ⟨hdir, hstat⟩
              · split at h <;> exact absurd h (by simp)

omit [Unicode] in
theorem mem_entries_of_yielded {listing : WalkListing ν} (h : entry ∈ listing.yielded) :
    entry ∈ listing.entries := by
  unfold WalkListing.yielded at h
  split at h
  · exact h
  · exact List.mem_of_mem_take h

/-- The directories of the graph have their inode numbers among these. -/
def KnownInodes (volume : VolumeSnapshot) (scandir : ν → WalkListing ν) (inos : List Int) : Prop :=
  ∀ node, ∀ entry ∈ (scandir node).entries, entry.isDir = .ok true →
    ∀ stat, entry.entryStat volume = .ok stat → 0 < stat.ino ∧ stat.ino ∈ inos

/-- The identities with these inode numbers. -/
def volumeIdentities (volume : VolumeSnapshot) (inos : List Int) : Finset FileIdentity :=
  (inos.map fun ino =>
    (⟨volume.volumeId.serial, ino.toNat, volume.serial_ne⟩ : FileIdentity)).toFinset

omit [Unicode] in
/-- No more identities are unvisited than the volume has inodes. -/
theorem unvisited_card (inos : List Int) (visited : Finset FileIdentity) :
    (volumeIdentities volume inos \ visited).card ≤ inos.length :=
  (Finset.card_le_card Finset.sdiff_subset).trans
    ((List.toFinset_card_le _).trans (List.length_map _).le)

section Known

variable {scandir : ν → WalkListing ν} {inos : List Int}
  (hstable : volume.profile.stableFileIdentity = true)
  (hknown : KnownInodes volume scandir inos)

include hstable hknown

/-- What a listing adds has identities of the volume. -/
theorem ListingStep.known {node : ν} {before after : ScanState} {children : List (WalkItem ν)}
    (h : ListingStep volume ignores relativeDirectory (scandir node).yielded before after
      children) :
    (identities children).length = children.length ∧
      ∀ identity ∈ identities children, identity ∈ volumeIdentities volume inos := by
  have hchild : ∀ child ∈ children,
      ∃ identity ∈ volumeIdentities volume inos, child.identity = some identity := by
    intro child hchild
    obtain ⟨entry, hentry, path, stat, hrecorded, rfl⟩ := h.opened child hchild
    obtain ⟨hdir, hstat⟩ := recorded_directory hrecorded
    obtain ⟨hpos, hino⟩ := hknown node entry (mem_entries_of_yielded hentry) hdir stat hstat
    refine ⟨_, List.mem_toFinset.2 (List.mem_map.2 ⟨stat.ino, hino, rfl⟩), ?_⟩
    exact if_pos ⟨hstable, hpos⟩
  constructor
  · rw [identities, List.filterMap_length_eq_length]
    intro child hmem
    obtain ⟨identity, -, heq⟩ := hchild child hmem
    rw [heq]
    rfl
  · intro identity hmem
    obtain ⟨child, hmem, heq⟩ := List.mem_filterMap.1 hmem
    obtain ⟨known, hin, hsome⟩ := hchild child hmem
    obtain rfl := Option.some.inj (hsome.symm.trans heq)
    exact hin

/-- Each item that a listing adds takes an identity that was not visited. -/
theorem ListingStep.measure {node : ν} {before after : ScanState} {children : List (WalkItem ν)}
    (h : ListingStep volume ignores relativeDirectory (scandir node).yielded before after children)
    (hnodup : before.visited.Nodup) :
    (volumeIdentities volume inos \ after.visited.toFinset).card + children.length =
      (volumeIdentities volume inos \ before.visited.toFinset).card := by
  obtain ⟨hlength, hin⟩ := h.known hstable hknown
  have hafter := h.nodup hnodup
  rw [h.visited_eq] at hafter
  obtain ⟨-, hchildren, hdisjoint⟩ := List.nodup_append.1 hafter
  have hsubset : (identities children).toFinset ⊆
      volumeIdentities volume inos \ before.visited.toFinset := by
    intro identity hmem
    rw [List.mem_toFinset] at hmem
    refine Finset.mem_sdiff.2 ⟨hin identity hmem, fun hvisited => ?_⟩
    exact hdisjoint identity (List.mem_toFinset.1 hvisited) identity hmem rfl
  have hcard : (identities children).toFinset.card = children.length := by
    rw [List.toFinset_card_of_nodup hchildren, hlength]
  rw [h.visited_eq, List.toFinset_append, ← Finset.sup_eq_union, ← sdiff_sdiff, ← hcard]
  exact Finset.card_sdiff_add_card_eq_card hsubset

/-- Each round takes an item off the list, and puts on as many as it takes
identities off the unvisited ones. -/
theorem walkPending_ends {rounds : Nat} {pending : List (WalkItem ν)} {walk : WalkState ν}
    (honce : Once pending walk)
    (hrecorded : walk.state.complete = true →
      walk.state.directories.filterMap DirRecord.fileIdentity = walk.state.visited)
    (hrounds : (volumeIdentities volume inos \ walk.state.visited.toFinset).card +
      pending.length ≤ rounds) :
    ∃ later result, walkPending nt volume ignores scandir rounds pending walk = (later, result) ∧
      (identities later.listed).Nodup ∧
      (result = .ok [] ∧ (later.state.complete = true →
          (later.state.directories.filterMap DirRecord.fileIdentity).Nodup) ∨
        ∃ error, result = .error error) := by
  induction rounds generalizing pending walk with
  | zero =>
      obtain rfl : pending = [] := List.length_eq_zero_iff.1 (by omega)
      refine ⟨walk, .ok [], rfl, honce.listed_nodup, Or.inl ⟨rfl, fun hcomplete => ?_⟩⟩
      rw [hrecorded hcomplete]
      exact honce.visited_nodup
  | succ rounds ih =>
      cases pending with
      | nil =>
          refine ⟨walk, .ok [], rfl, honce.listed_nodup, Or.inl ⟨rfl, fun hcomplete => ?_⟩⟩
          rw [hrecorded hcomplete]
          exact honce.visited_nodup
      | cons item pending =>
          unfold walkPending
          rcases @walkListing_cases ν _ nt volume ignores item.relPath (scandir item.node)
              walk.state with
            ⟨state, children, heq, hstep, -⟩ | ⟨state, error, heq, -⟩
          · have hmeasure := hstep.measure hstable hknown honce.visited_nodup
            rw [heq]
            refine ih (honce.round hstep) (fun hcomplete => ?_) ?_
            · exact hstep.recorded_visited hcomplete
                (hrecorded (hstep.extended.complete hcomplete))
            · rw [List.length_append]
              rw [List.length_cons] at hrounds
              show (volumeIdentities volume inos \ state.visited.toFinset).card + _ ≤ rounds
              omega
          · rw [heq]
            refine ⟨_, _, rfl, ?_, Or.inr ⟨error, rfl⟩⟩
            have hitem : (walk.listed ++ [item]) ++ pending = walk.listed ++ item :: pending := by
              rw [List.append_assoc, List.singleton_append]
            have hlisted : Once pending ⟨walk.state, walk.listed ++ [item]⟩ :=
              ⟨hitem ▸ honce.visited_perm, honce.visited_nodup⟩
            exact hlisted.listed_nodup

end Known

/-- In a graph of directories with finitely many inode numbers the walk ends:
it has nothing left to list, or it has raised.  It lists no identity twice,
and it is not complete if it came to one twice. -/
theorem walk_terminates (nt : Bool) (volume : VolumeSnapshot) (ignores : IgnoreSet)
    (backend : WalkBackend ν) (inos : List Int)
    (hstable : volume.profile.stableFileIdentity = true)
    (hknown : KnownInodes volume backend.scandir inos) (rounds : Nat)
    (hrounds : inos.length + 1 ≤ rounds) :
    ∃ walk result, walkFull nt volume ignores backend rounds = (walk, result) ∧
      (identities walk.listed).Nodup ∧
      (result = .ok [] ∧ (walk.state.complete = true →
          (walk.state.directories.filterMap DirRecord.fileIdentity).Nodup) ∨
        ∃ error, result = .error error) := by
  unfold walkFull
  cases backend.rootLstat with
  | error error =>
      exact ⟨_, _, rfl, List.nodup_nil, Or.inl ⟨rfl, fun _ => List.nodup_nil⟩⟩
  | ok stat =>
      dsimp only
      cases stat.scanned nt volume .directory with
      | error error => exact ⟨_, _, rfl, List.nodup_nil, Or.inr ⟨error, rfl⟩⟩
      | ok snapshot =>
          have hvisited : ((ScanState.addDirectory {} none snapshot).visit
              snapshot.fileIdentity).visited = snapshot.fileIdentity.toList := rfl
          refine walkPending_ends hstable hknown ⟨?_, ?_⟩ (fun _ => ?_) ?_
          · rw [hvisited]
            cases snapshot.fileIdentity <;> simp [identities]
          · rw [hvisited]
            cases snapshot.fileIdentity <;> simp
          · rw [hvisited]
            cases h : snapshot.fileIdentity <;>
              simp [ScanState.visit, ScanState.addDirectory, h]
          · exact (Nat.add_le_add_right (unvisited_card inos _) 1).trans hrounds

end Walk

/-! ## A directory that holds itself

The walk meets the directory again below itself and does not open it. -/

section Sample

local instance loopUnicode : Unicode := asciiUnicode

def loopVolume : VolumeSnapshot where
  volumeId := volumeA
  evidence := { label := none, deviceId := none }
  profile := ntfsProfile

def loopStat : RawStat where
  mode := .directory
  size := 0
  mtimeNs := 1700000000000000000
  ino := 5
  nlink := 1
  fileAttributes := some 0x10
  birthtimeNs := some 1690000000000000000

def loopEntry : WalkEntry Unit where
  name := ⟨str "loop", by decide⟩
  isDir := .ok true
  isFile := .ok false
  stat := .ok loopStat
  lstat := .ok loopStat
  below := ()

def loopBackend : WalkBackend Unit where
  resolveRoot := .ok
  volumeSnapshot := .ok loopVolume
  rootLstat := .ok loopStat
  root := ()
  scandir _ := ⟨[loopEntry], none⟩

theorem loop_known : KnownInodes loopVolume loopBackend.scandir [5] := by
  intro _ entry hentry _ stat hstat
  rw [List.mem_singleton.1 hentry] at hstat
  have hloop : loopEntry.entryStat loopVolume = .ok loopStat := by decide +kernel
  obtain rfl := Except.ok.inj (hloop.symm.trans hstat)
  exact ⟨by decide, by decide⟩

theorem walk_terminates_loop :
    ∃ walk result, walkFull true loopVolume {} loopBackend 2 = (walk, result) ∧
      (identities walk.listed).Nodup ∧
      (result = .ok [] ∧ (walk.state.complete = true →
          (walk.state.directories.filterMap DirRecord.fileIdentity).Nodup) ∨
        ∃ error, result = .error error) :=
  walk_terminates true loopVolume {} loopBackend [5] rfl loop_known 2 (le_refl 2)

example : (walkFull true loopVolume {} loopBackend 2).1.state.complete = false := by
  decide +kernel

end Sample

end NamiSync
