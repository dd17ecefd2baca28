/-
# `Modules.Scanner` — the walking scanner

`modules/scanner.py` over a directory tree in which any enumeration and any
`is_dir`, `is_file`, `stat` or `lstat` call may raise.  The tree holds what
really exists; a failing enumeration yields only its first entries.  A
checkpoint that raises ends the scan without a result and is left out.

## Two models of one walk

Here the directories are a tree that is really there, and what the scan
missed can be told from what it saw; `Modules.ScanTree` and
`Modules.ScanCoverage` are about this model.  `Modules.Walk` has the same loop
over a graph, in which a path may name a directory met before, with the stat
results as the operating system gives them; the theorems about ending and
raising are there.  Both follow `_scan_full` line by line.

The work list `pending` is a list with its head where the source's stack has
its end, so `pending.extend(reversed(children))` is an append in front.
-/
import NamiSync.Core.RawStat

namespace NamiSync

/-- The fields of `os.stat_result` that are read. -/
structure StatResult where
  size : Nat
  mtimeNs : Nat
  ino : Nat
  nlink : Nat := 1
  fileAttributes : Nat := 0
  reparseTag : Nat := 0
  birthtimeNs : Option Int := none
  ctimeNs : Int := 0
  deriving DecidableEq

/-- What the calls on one directory entry return.  `failure` is the point at
which enumerating it as a directory raises. -/
structure EntryInfo where
  name : Str
  isDir : Except OsError Bool
  isFile : Except OsError Bool
  stat : Except OsError StatResult
  lstat : Except OsError StatResult
  failure : Option (Nat × OsError) := none

inductive Entry
  | node (info : EntryInfo) (children : List Entry)

namespace Entry

def info : Entry → EntryInfo
  | .node info _ => info

def children : Entry → List Entry
  | .node _ children => children

abbrev name (entry : Entry) : Str := entry.info.name

end Entry

/-- A directory that can be enumerated: all its entries, and after how many
of them `scandir` raises. -/
structure Folder where
  entries : List Entry
  failure : Option (Nat × OsError)

def Entry.folder (entry : Entry) : Folder := ⟨entry.children, entry.info.failure⟩

/-- The entries `scandir` yields. -/
def Folder.yielded (folder : Folder) : List Entry :=
  match folder.failure with
  | none => folder.entries
  | some (n, _) => folder.entries.take n

/-- `root.Has names entry`: the entry at that chain of names. -/
inductive Folder.Has (root : Folder) : List Str → Entry → Prop
  | top {entry : Entry} (h : entry ∈ root.entries) : Has root [entry.name] entry
  | inside {names : List Str} {parent entry : Entry} (hparent : Has root names parent)
      (h : entry ∈ parent.children) : Has root (names ++ [entry.name]) entry

/-- What makes entries a directory listing: distinct names without
separators. -/
structure IsListing (entries : List Entry) : Prop where
  distinct : (entries.map Entry.name).Nodup
  no_separator : ∀ entry ∈ entries, backslash ∉ entry.name ∧ slash ∉ entry.name

/-- A directory tree: listings all the way down, and what is known not to be
a directory has nothing below it. -/
structure Tree where
  root : Folder
  root_listing : IsListing root.entries
  listing : ∀ names entry, root.Has names entry → IsListing entry.children
  leaf : ∀ names entry, root.Has names entry → entry.info.isDir = .ok false →
    entry.children = []

/-- `VolumeSnapshot`. -/
structure VolumeSnapshot where
  volumeId : VolumeId
  evidence : VolumeEvidence
  profile : CapabilityProfile
  deriving DecidableEq

/-- What a `ScannerBackend` answers for one root. -/
structure ScannerBackend where
  resolveRoot : Root → Except OsError Root
  volumeSnapshot : Except OsError VolumeSnapshot
  rootLstat : Except OsError StatResult
  tree : Tree

/-! ## Stat results -/

def fileAttributeReparsePoint : Nat := 0x00000400
def fileAttributeOffline : Nat := 0x00001000
def fileAttributeRecallOnOpen : Nat := 0x00040000
def fileAttributeRecallOnDataAccess : Nat := 0x00400000

/-- `_created_ns`, on Windows. -/
def createdNs (stat : StatResult) : Option Nat :=
  let value := stat.birthtimeNs.getD stat.ctimeNs
  if 0 ≤ value then some value.toNat else none

/-- `_file_identity`. -/
def fileIdentity (stat : StatResult) (volume : VolumeSnapshot) : Option FileIdentity :=
  if volume.profile.stableFileIdentity then
    if stat.ino = 0 then none
    else
      some
        { volumeSerial := volume.volumeId.serial
          fileIndex := stat.ino
          volumeSerial_ne := volume.volumeId.serial_ne }
  else none

/-- `_to_stat`. -/
def toStat (stat : StatResult) (kind : EntryKind) (volume : VolumeSnapshot) : FileStat where
  kind := kind
  size := if kind = .file then stat.size else 0
  mtimeNs := stat.mtimeNs
  fileIdentity := fileIdentity stat volume
  nlink := max 1 stat.nlink
  metadata := ⟨stat.fileAttributes, createdNs stat⟩
  nlink_pos := by omega

/-- `_is_placeholder`. -/
def isPlaceholder (stat : StatResult) : Bool :=
  stat.fileAttributes &&& fileAttributeReparsePoint ≠ 0 &&
    stat.fileAttributes &&&
      (fileAttributeOffline ||| fileAttributeRecallOnOpen ||| fileAttributeRecallOnDataAccess) ≠ 0

/-- `_is_reparse`. -/
def isReparse (stat : StatResult) : Bool :=
  stat.fileAttributes &&& fileAttributeReparsePoint ≠ 0 || stat.reparseTag ≠ 0

/-- `_error_code`. -/
def OsError.warningCode (error : OsError) : ScanWarningCode :=
  match error.kind with
  | .permission => .accessDenied
  | .fileNotFound => .disappeared
  | .other => .enumerationError

/-- `_unsupported_error`. -/
def OsError.unsupportedReason (error : OsError) : UnsupportedReason :=
  match error.kind with
  | .permission => .accessDenied
  | .fileNotFound => .disappeared
  | .other => .unknownType

section Scanner

variable [Unicode]

/-- `_entry_sort_key`. -/
def entrySortKey (entry : Entry) : Nat ×ₗ (Str ×ₗ Str) :=
  match validateRelativePath entry.name with
  | .ok path => toLex (0, toLex (path.key, entry.name))
  | .error _ => toLex (1, toLex (asciiText entry.name, []))

/-! ## `_scan_full` -/

/-- The lists `_scan_full` appends to, and its two locals. -/
structure ScanState where
  files : List FileRecord := []
  directories : List DirRecord := []
  unsupported : List UnsupportedRecord := []
  warnings : List ScanWarning := []
  visited : List FileIdentity := []
  complete : Bool := true

namespace ScanState

def warn (state : ScanState) (code : ScanWarningCode) (relPath : Option RootedPath)
    (detail : Str) : ScanState :=
  { state with warnings := state.warnings ++ [⟨code, relPath, detail⟩] }

def addUnsupported (state : ScanState) (relPath : RelPath) (reason : UnsupportedReason)
    (kind : Option EntryKind) : ScanState :=
  { state with unsupported := state.unsupported ++ [⟨relPath, reason, kind⟩] }

def incomplete (state : ScanState) : ScanState := { state with complete := false }

/-- `directories.append(DirRecord(...))`. -/
def addDirectory (state : ScanState) (relPath : RootedPath) (snapshot : FileStat) : ScanState :=
  { state with
    directories := state.directories ++
      [{ relPath := relPath
         mtimeNs := snapshot.mtimeNs
         metadata := snapshot.metadata
         fileIdentity := snapshot.fileIdentity
         nlink := snapshot.nlink
         nlink_pos := snapshot.nlink_pos }] }

/-- `files.append(FileRecord(...))`. -/
def addFile (state : ScanState) (relPath : RelPath) (snapshot : FileStat) : ScanState :=
  { state with
    files := state.files ++
      [{ relPath := relPath
         size := snapshot.size
         mtimeNs := snapshot.mtimeNs
         fileIdentity := snapshot.fileIdentity
         nlink := snapshot.nlink
         metadata := snapshot.metadata
         nlink_pos := snapshot.nlink_pos }] }

def visit (state : ScanState) (identity : Option FileIdentity) : ScanState :=
  { state with visited := state.visited ++ identity.toList }

end ScanState

/-- The directories of one listing that are still to be walked. -/
abbrev Pending := List (Folder × RootedPath)

/-- `candidate`. -/
def candidatePath (relativeDirectory : RootedPath) (name : Str) : Str :=
  match relativeDirectory with
  | none => name
  | some directory => directory.text ++ backslash :: name

/-- `entry.stat(...)`, and `lstat` when the volume has identities but the
directory entry brings none. -/
def entryStat (volume : VolumeSnapshot) (entry : Entry) : Except OsError StatResult :=
  match entry.info.stat with
  | .error error => .error error
  | .ok stat =>
      if volume.profile.stableFileIdentity && stat.ino = 0 then entry.info.lstat else .ok stat

/-- The end of the loop body, for an entry that is neither ignored, a
placeholder nor a reparse point. -/
def scanOrdinary (volume : VolumeSnapshot) (entry : Entry) (relPath : RelPath)
    (isDirectory : Bool) (stat : StatResult) (state : ScanState) : ScanState × Pending :=
  if isDirectory then
    let snapshot := toStat stat .directory volume
    let state := state.addDirectory (some relPath) snapshot
    if ∃ identity ∈ snapshot.fileIdentity, identity ∈ state.visited then
      ((state.warn .duplicateIdentity (some (some relPath))
        (str "directory identity already visited")).incomplete, [])
    else (state.visit snapshot.fileIdentity, [(entry.folder, some relPath)])
  else
    match entry.info.isFile with
    | .ok true => (state.addFile relPath (toStat stat .file volume), [])
    | .ok false =>
        (((state.addUnsupported relPath .unknownType none).warn .unknownType
          (some (some relPath)) []).incomplete, [])
    | .error error =>
        ((((state.warn error.warningCode (some (some relPath)) error.text).addUnsupported
          relPath .unknownType none).warn .unknownType (some (some relPath)) []).incomplete, [])

/-- The body of the loop over one listing. -/
def scanEntry (volume : VolumeSnapshot) (ignores : IgnoreSet) (relativeDirectory : RootedPath)
    (entry : Entry) (state : ScanState) : ScanState × Pending :=
  let candidate := candidatePath relativeDirectory entry.name
  match validateRelativePath candidate with
  | .error error =>
      ((state.warn .pathUnrepresentable (relativeDirectory.map some)
        (asciiText candidate ++ str ": " ++ str error.message)).incomplete, [])
  | .ok relPath =>
      match entry.info.isDir with
      | .error error =>
          (((state.warn error.warningCode (some (some relPath)) error.text).addUnsupported
            relPath error.unsupportedReason none).incomplete, [])
      | .ok isDirectory =>
          let kind := if isDirectory then EntryKind.directory else .file
          if ignores.excludes relPath isDirectory then (state, [])
          else
            match entryStat volume entry with
            | .error error =>
                (((state.warn error.warningCode (some (some relPath)) error.text).addUnsupported
                  relPath error.unsupportedReason
                  (if isDirectory then some .directory else none)).incomplete, [])
            | .ok stat =>
                if isPlaceholder stat then
                  let state := (state.addUnsupported relPath .placeholder (some kind)).warn
                    .placeholder (some (some relPath)) []
                  (if isDirectory then state.incomplete else state, [])
                else if isReparse stat then
                  let state := (state.addUnsupported relPath .reparsePoint (some kind)).warn
                    .reparsePoint (some (some relPath)) []
                  (if isDirectory then state.incomplete else state, [])
                else scanOrdinary volume entry relPath isDirectory stat state

/-- The loop over one listing; the second component is `child_directories`. -/
def scanEntries (volume : VolumeSnapshot) (ignores : IgnoreSet) (relativeDirectory : RootedPath) :
    List Entry → ScanState → ScanState × Pending
  | [], state => (state, [])
  | entry :: rest, state =>
      let (state, children) := scanEntry volume ignores relativeDirectory entry state
      let (state, later) := scanEntries volume ignores relativeDirectory rest state
      (state, children ++ later)

/-- One round of `while pending`. -/
def scanFolder (volume : VolumeSnapshot) (ignores : IgnoreSet) (folder : Folder)
    (relativeDirectory : RootedPath) (state : ScanState) : ScanState × Pending :=
  let state :=
    match folder.failure with
    | none => state
    | some (_, error) =>
        (state.warn .enumerationError (some relativeDirectory) error.text).incomplete
  scanEntries volume ignores relativeDirectory (sortedBy entrySortKey folder.yielded) state

/-- `while pending`.  The head of the list is the end of the source's stack,
so its `extend(reversed(...))` is an append. -/
def scanPending (volume : VolumeSnapshot) (ignores : IgnoreSet) :
    Nat → Pending → ScanState → ScanState × Pending
  | 0, pending, state => (state, pending)
  | _, [], state => (state, [])
  | fuel + 1, (folder, relativeDirectory) :: pending, state =>
      let (state, children) := scanFolder volume ignores folder relativeDirectory state
      scanPending volume ignores fuel (children ++ pending) state

mutual

/-- How many directories a subtree can hold. -/
def Entry.weight : Entry → Nat
  | .node _ children => 1 + Entry.weightAll children

def Entry.weightAll : List Entry → Nat
  | [] => 0
  | entry :: rest => entry.weight + Entry.weightAll rest

end

def Folder.weight (folder : Folder) : Nat := 1 + Entry.weightAll folder.entries

/-- `_scan_full`. -/
def scanFull (volume : VolumeSnapshot) (ignores : IgnoreSet) (backend : ScannerBackend) :
    ScanState :=
  match backend.rootLstat with
  | .error error => (ScanState.warn {} .rootUnavailable none error.text).incomplete
  | .ok stat =>
      let snapshot := toStat stat .directory volume
      let state := (ScanState.addDirectory {} none snapshot).visit snapshot.fileIdentity
      (scanPending volume ignores backend.tree.root.weight [(backend.tree.root, none)] state).1

/-! ## `scan` -/

/-- The paths `_append_collision_warnings` groups, in its order. -/
def ScanState.recordedPaths (state : ScanState) : List RelPath :=
  state.files.map FileRecord.relPath ++ state.directories.filterMap DirRecord.relPath ++
    state.unsupported.map UnsupportedRecord.relPath

/-- The distinct spellings of a key, sorted. -/
def spellings (paths : List RelPath) (key : Str) : List RelPath :=
  sortedBy RelPath.text (paths.filter (·.key = key)).dedup

/-- The groups of `_append_collision_warnings` with more than one spelling;
a dictionary keeps its keys in the order of their first insertion. -/
def collisions (paths : List RelPath) : List (List RelPath) :=
  (((paths.map RelPath.key).reverse.dedup.reverse).map (spellings paths)).filter
    fun distinct => 1 < distinct.length

/-- `_append_collision_warnings`. -/
def ScanState.appendCollisionWarnings (state : ScanState) : ScanState :=
  { state with
    warnings := state.warnings ++ (collisions state.recordedPaths).map fun distinct =>
      { code := .caseCollision
        relPath := some distinct.head?
        detail := (str " | ").intercalate (distinct.map RelPath.text) }
    complete := state.complete && (collisions state.recordedPaths).isEmpty }

/-- `_append_identity_warnings`. -/
def ScanState.appendIdentityWarnings (state : ScanState) : ScanState :=
  let multiLink := (state.files.filter fun record => 1 < record.nlink).map fun record =>
    { code := .multiLink, relPath := some (some record.relPath), detail := decimal record.nlink
      : ScanWarning }
  let identified : List (FileIdentity × RootedPath) :=
    state.files.filterMap (fun record => record.fileIdentity.map (·, some record.relPath)) ++
      state.directories.filterMap (fun record => record.fileIdentity.map (·, record.relPath))
  let identities := (identified.map Prod.fst).reverse.dedup.reverse
  let groups := (identities.map fun identity =>
    sortedBy RootedPath.text ((identified.filter (·.1 = identity)).map Prod.snd)).filter
      fun paths => 1 < paths.length
  { state with
    warnings := state.warnings ++ multiLink ++ groups.map fun paths =>
      { code := .duplicateIdentity
        relPath := paths.head?
        detail := (str " | ").intercalate (paths.map RootedPath.text) } }

/-- `_warning_sort_key`. -/
def warningSortKey (warning : ScanWarning) : Str ×ₗ (Str ×ₗ Str) :=
  toLex (warning.code.value, toLex ((warning.relPath.map RootedPath.key).getD [], warning.detail))

/-- `_offline_result`. -/
def offlineResult (root : Root) (ignores : IgnoreSet) (error : OsError) (code : ScanWarningCode) :
    ScanResult where
  root := root
  volumeId := none
  volumeEvidence := none
  profile :=
    { fsType := str "UNKNOWN"
      mtimeGranularityNs := 2000000000
      stableFileIdentity := false
      incursSeekPenalty := none
      maxPath := 32767
      supportsAds := false
      supportsHardlinks := false }
  files := []
  directories := []
  unsupported := []
  warnings := [⟨code, none, error.text⟩]
  ignoreSnapshot := ignores
  scope := .full
  complete := false

/-- `WalkingScanner.scan` with a full scope. -/
def scan (backend : ScannerBackend) (root : Root) (ignores : IgnoreSet) : ScanResult :=
  match backend.resolveRoot root with
  | .error error => offlineResult root ignores error .rootUnavailable
  | .ok resolved =>
      match backend.volumeSnapshot with
      | .error error => offlineResult resolved ignores error .volumeUnavailable
      | .ok volume =>
          let walked := scanFull volume ignores backend
          let state := walked.appendCollisionWarnings.appendIdentityWarnings
          { root := resolved
            volumeId := some volume.volumeId
            volumeEvidence := some volume.evidence
            profile := volume.profile
            files := sortedBy (fun record => recordKey record.relPath) state.files
            directories :=
              sortedBy (fun record => toLex (record.key, record.relPath.text)) state.directories
            unsupported := sortedBy (fun record => recordKey record.relPath) state.unsupported
            warnings := sortedBy warningSortKey state.warnings
            ignoreSnapshot := ignores
            scope := .full
            complete := state.complete }

end Scanner

end NamiSync
