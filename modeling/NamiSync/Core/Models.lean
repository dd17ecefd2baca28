/-
# `Core.Models` — filesystem observations

The immutable records of `core/models.py`.  A record's `rel_path_key` is
checked against its path when it is built, so here it is computed; the other
`__post_init__` checks are fields or types.  Times before the epoch, which
the source refuses to record, are excluded by `Nat`.

## How a check becomes a field

A `__post_init__` that raises is a field of the structure: a `FileStat` with a
link count of zero cannot be built, so no function over it has that case.
Where a source function builds a record from outside data and may raise, the
checked constructor is in `Core.RawStat` or next to the reader.
-/
import NamiSync.Core.Pathing

namespace NamiSync

inductive EntryKind
  | file | directory
  deriving DecidableEq, Repr

structure VolumeId where
  serial : Str
  fsType : Str
  serial_ne : serial ≠ [] := by decide
  fsType_ne : fsType ≠ [] := by decide
  deriving DecidableEq

structure VolumeEvidence where
  label : Option Str := none
  deviceId : Option Str := none
  cloneAmbiguous : Bool := false
  deriving DecidableEq

structure CapabilityProfile where
  fsType : Str
  mtimeGranularityNs : Nat
  stableFileIdentity : Bool
  incursSeekPenalty : Option Bool
  maxPath : Nat
  supportsAds : Bool
  supportsHardlinks : Bool
  granularity_pos : 0 < mtimeGranularityNs := by decide
  maxPath_pos : 0 < maxPath := by decide
  deriving DecidableEq

structure FileIdentity where
  volumeSerial : Str
  fileIndex : Nat
  volumeSerial_ne : volumeSerial ≠ [] := by decide
  deriving DecidableEq

structure MetadataSnapshot where
  attributes : Nat
  createdNs : Option Nat
  deriving DecidableEq

structure FileStat where
  kind : EntryKind
  size : Nat
  mtimeNs : Nat
  fileIdentity : Option FileIdentity
  nlink : Nat
  metadata : MetadataSnapshot
  nlink_pos : 0 < nlink := by first | exact Nat.one_pos | decide
  deriving DecidableEq

structure Root where
  path : Str
  rootId : Str
  path_ne : path ≠ [] := by decide
  path_no_nul : 0 ∉ path := by decide
  rootId_ne : rootId ≠ [] := by decide
  deriving DecidableEq

section Records

variable [Unicode]

/-- A path that may be the root itself, which the source writes `""`. -/
abbrev RootedPath := Option RelPath

namespace RootedPath

def text : RootedPath → Str
  | none => []
  | some path => path.text

/-- `normalize_relative_path(value, allow_root=True)`. -/
def key : RootedPath → Str
  | none => []
  | some path => path.key

end RootedPath

/-- The sort key `(item.rel_path_key, item.rel_path)`. -/
def recordKey (path : RelPath) : Str ×ₗ Str := toLex (path.key, path.text)

structure FileRecord where
  relPath : RelPath
  size : Nat
  mtimeNs : Nat
  fileIdentity : Option FileIdentity
  nlink : Nat
  metadata : MetadataSnapshot
  nlink_pos : 0 < nlink := by first | exact Nat.one_pos | decide
  deriving DecidableEq

abbrev FileRecord.key (record : FileRecord) : Str := record.relPath.key

def FileRecord.stat (record : FileRecord) : FileStat where
  kind := .file
  size := record.size
  mtimeNs := record.mtimeNs
  fileIdentity := record.fileIdentity
  nlink := record.nlink
  metadata := record.metadata
  nlink_pos := record.nlink_pos

structure DirRecord where
  relPath : RootedPath
  mtimeNs : Nat
  metadata : MetadataSnapshot
  fileIdentity : Option FileIdentity
  nlink : Nat := 1
  nlink_pos : 0 < nlink := by first | exact Nat.one_pos | decide
  deriving DecidableEq

abbrev DirRecord.key (record : DirRecord) : Str := record.relPath.key

def DirRecord.stat (record : DirRecord) : FileStat where
  kind := .directory
  size := 0
  mtimeNs := record.mtimeNs
  fileIdentity := record.fileIdentity
  nlink := record.nlink
  metadata := record.metadata
  nlink_pos := record.nlink_pos

inductive UnsupportedReason
  | placeholder | reparsePoint | accessDenied | disappeared | unknownType
  deriving DecidableEq, Repr

structure UnsupportedRecord where
  relPath : RelPath
  reason : UnsupportedReason
  kind : Option EntryKind := none
  deriving DecidableEq

abbrev UnsupportedRecord.key (record : UnsupportedRecord) : Str := record.relPath.key

inductive ScanWarningCode
  | rootUnavailable | volumeUnavailable | accessDenied | disappeared | enumerationError
  | pathUnrepresentable | caseCollision | duplicateIdentity | multiLink | placeholder
  | reparsePoint | unknownType
  deriving DecidableEq, Repr

/-- `code.value`. -/
def ScanWarningCode.value : ScanWarningCode → Str
  | rootUnavailable => str "root_unavailable"
  | volumeUnavailable => str "volume_unavailable"
  | accessDenied => str "access_denied"
  | disappeared => str "disappeared"
  | enumerationError => str "enumeration_error"
  | pathUnrepresentable => str "path_unrepresentable"
  | caseCollision => str "case_collision"
  | duplicateIdentity => str "duplicate_identity"
  | multiLink => str "multi_link"
  | placeholder => str "placeholder"
  | reparsePoint => str "reparse_point"
  | unknownType => str "unknown_type"

/-- `ScanWarning`; the outer `none` is a warning without a path. -/
structure ScanWarning where
  code : ScanWarningCode
  relPath : Option RootedPath
  detail : Str := []
  deriving DecidableEq

inductive ScanScope
  | full
  | paths (selected : List RelPath)
  deriving DecidableEq

/-! ## `IgnoreSet` -/

def isLowerHex (c : CodePoint) : Bool := (0x30 ≤ c && c ≤ 0x39) || (0x61 ≤ c && c ≤ 0x66)

/-- `owned_temp_run_id`: the generated temp grammar
`.+\.synctmp-<32 hex>-<32 hex>`, read from the end; `.` stops at a newline. -/
def ownedTempRunId (name : Str) : Option Str :=
  let stem := name.take (name.length - 74)
  let tail := name.drop (name.length - 74)
  let runId := (tail.drop 9).take 32
  if 74 < name.length ∧ 0x0A ∉ stem ∧ tail.take 9 = str ".synctmp-" ∧ runId.all isLowerHex ∧
      (tail.drop 41).head? = some 0x2D ∧ (tail.drop 42).all isLowerHex then
    some runId
  else none

structure IgnoreSet where
  exactPathKeys : List Str := []
  exactNames : List Str := [str "DESKTOP.INI", str "THUMBS.DB"]
  excludeOwnedTemps : Bool := true
  excludeSyncTrash : Bool := true
  deriving DecidableEq

/-- The key of the trash directory. -/
def syncTrashKey : Str := str ".SYNCTRASH"

/-- `IgnoreSet.excludes`. -/
def IgnoreSet.excludes (ignores : IgnoreSet) (relPath : RelPath) (isDirectory : Bool) : Bool :=
  if relPath.key ∈ ignores.exactPathKeys then true
  else if uppercaseOneCodepoint relPath.name ∈ ignores.exactNames then true
  else if ignores.excludeSyncTrash && sameOrDescendant relPath.key syncTrashKey then true
  else ignores.excludeOwnedTemps && !isDirectory && (ownedTempRunId relPath.name).isSome

/-- Only the temp grammar looks past the key, and it spares directories. -/
theorem IgnoreSet.excludes_directory_congr (ignores : IgnoreSet) {p q : RelPath}
    (h : p.key = q.key) : ignores.excludes p true = ignores.excludes q true := by
  unfold IgnoreSet.excludes
  rw [h, RelPath.key_name h]
  simp

structure ScanResult where
  root : Root
  volumeId : Option VolumeId
  volumeEvidence : Option VolumeEvidence
  profile : CapabilityProfile
  files : List FileRecord
  directories : List DirRecord
  unsupported : List UnsupportedRecord
  warnings : List ScanWarning
  ignoreSnapshot : IgnoreSet
  scope : ScanScope
  complete : Bool

def ScanResult.isFullScan (result : ScanResult) : Bool :=
  match result.scope with
  | .full => true
  | .paths _ => false

end Records

/-! ## Two volumes

What the samples of the later modules are made of: two volumes of one profile,
and a complete scan that finds files. -/

section Sample

def ntfsProfile : CapabilityProfile where
  fsType := str "NTFS"
  mtimeGranularityNs := 100
  stableFileIdentity := true
  incursSeekPenalty := none
  maxPath := 32767
  supportsAds := true
  supportsHardlinks := true
  maxPath_pos := Nat.succ_pos 32766

def ntfsVolume (serial : Str) (serial_ne : serial ≠ []) : VolumeId where
  serial := serial
  fsType := str "NTFS"
  serial_ne := serial_ne

def volumeA : VolumeId := ntfsVolume (str "0A") (by decide)

def volumeB : VolumeId := ntfsVolume (str "0B") (by decide)

def VolumeId.identity (volume : VolumeId) (fileIndex : Nat) : FileIdentity where
  volumeSerial := volume.serial
  fileIndex := fileIndex
  volumeSerial_ne := volume.serial_ne

def sampleRoot : Root where
  path := str "C"
  rootId := str "root"

def dataRoot : Root where
  path := str "c:\\data"
  rootId := str "source"

def copyRoot : Root where
  path := str "d:\\copy"
  rootId := str "target"

variable [Unicode]

def sampleScan (volumeId : Option VolumeId) (files : List FileRecord) : ScanResult where
  root := sampleRoot
  volumeId := volumeId
  volumeEvidence := none
  profile := ntfsProfile
  files := files
  directories := []
  unsupported := []
  warnings := []
  ignoreSnapshot := {}
  scope := .full
  complete := true

end Sample

end NamiSync
