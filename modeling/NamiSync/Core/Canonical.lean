/-
# `Core.Canonical` — the plan as it is fingerprinted

The constructors of `core/planning.py` check a path but keep the text they
were given, so a plan may spell its paths with either slash.  Here are the
dataclasses with those texts, what `asdict` and `_primitive` make of them,
and the digests over the canonical bytes.  A frozen set is the list of its
members in the order of iteration.

## How it is used

`PlanRecord.payload` is the text of a plan without its fingerprint, as a `Json`
value; the fingerprint and the selection digest are SHA-256 of its canonical
bytes.  `Core.CanonicalText` shows that the bytes tell the record, and
`Workflows.Commitment` what follows for a commitment.
-/
import NamiSync.Core.Attestation
import NamiSync.Core.JsonText
import NamiSync.Core.Planning

namespace NamiSync

/-! ## The values of the enumerations -/

def EntryKind.value : EntryKind → Str
  | file => str "file"
  | directory => str "directory"

def DeletionPolicy.value : DeletionPolicy → Str
  | trash => str "trash"
  | additive => str "additive"
  | mirror => str "mirror"

def OperationKind.value : OperationKind → Str
  | copy => str "copy"
  | update => str "update"
  | move => str "move"
  | moveUpdate => str "move_update"
  | recase => str "recase"
  | mkdir => str "mkdir"
  | trash => str "trash"
  | delete => str "delete"
  | noop => str "noop"

def OperationReason.value : OperationReason → Str
  | sourceOnly => str "source_only"
  | metadataChanged => str "metadata_changed"
  | metadataMatch => str "metadata_match"
  | identityRename => str "identity_rename"
  | identityRenameChanged => str "identity_rename_changed"
  | requiredDirectory => str "required_directory"
  | emptyDirectory => str "empty_directory"
  | targetOnly => str "target_only"
  | directoryCleanup => str "directory_cleanup"
  | unsupported => str "unsupported"
  | caseMismatch => str "case_mismatch"
  | unicodeNormalizationMismatch => str "unicode_normalization_mismatch"
  | caseCollision => str "case_collision"
  | typeCollision => str "type_collision"
  | policyCollision => str "policy_collision"

/-- `EntryKind(value)`, and so for the other enumerations. -/
def EntryKind.ofValue (value : Str) : Option EntryKind :=
  [file, directory].find? fun kind => kind.value = value

def DeletionPolicy.ofValue (value : Str) : Option DeletionPolicy :=
  [trash, additive, mirror].find? fun policy => policy.value = value

def OperationKind.ofValue (value : Str) : Option OperationKind :=
  [copy, update, move, moveUpdate, recase, mkdir, trash, delete, noop].find? fun kind =>
    kind.value = value

def OperationReason.ofValue (value : Str) : Option OperationReason :=
  [sourceOnly, metadataChanged, metadataMatch, identityRename, identityRenameChanged,
    requiredDirectory, emptyDirectory, targetOnly, directoryCleanup, unsupported, caseMismatch,
    unicodeNormalizationMismatch, caseCollision, typeCollision, policyCollision].find?
      fun reason => reason.value = value

def BlockedReason.ofValue (value : Str) : Option BlockedReason :=
  [unsupported, caseMismatch, caseCollision, typeCollision, destinationCollision,
    blockedDependency].find? fun reason => reason.value = value

theorem EntryKind.ofValue_value (kind : EntryKind) : ofValue kind.value = some kind := by
  cases kind <;> decide

theorem DeletionPolicy.ofValue_value (policy : DeletionPolicy) :
    ofValue policy.value = some policy := by
  cases policy <;> decide

theorem OperationKind.ofValue_value (kind : OperationKind) : ofValue kind.value = some kind := by
  cases kind <;> decide

theorem OperationReason.ofValue_value (reason : OperationReason) :
    ofValue reason.value = some reason := by
  cases reason <;> decide

theorem BlockedReason.ofValue_value (reason : BlockedReason) :
    ofValue reason.value = some reason := by
  cases reason <;> decide

/-- What can be read from its value has a value of its own. -/
theorem injective_of_ofValue {α : Type} {value : α → Str} {ofValue : Str → Option α}
    (h : ∀ a, ofValue (value a) = some a) : Function.Injective value := fun a b hab =>
  Option.some.inj ((h a).symm.trans ((congrArg ofValue hab).trans (h b)))

/-! ## The dataclasses

The records with their paths as texts, as a payload has them;
`OperationRecord.operation` gives back the operation of the model. -/

section Records

variable [Unicode]

/-- A path as it was given: `validate_relative_path` accepts its text. -/
structure PathText where
  text : Str
  path : RelPath
  valid : validateRelativePath text = .ok path

theorem PathText.text_injective : Function.Injective PathText.text := by
  rintro ⟨text, path, valid⟩ ⟨text', path', valid'⟩ h
  obtain rfl : text = text' := h
  obtain rfl : path = path' := Except.ok.inj (valid.symm.trans valid')
  rfl

/-- The fields of a `PlanOperation`. -/
structure OperationRecord where
  opId : OpId
  kind : OperationKind
  sourceRelPath : Option PathText
  targetRelPath : PathText
  sourceExpected : Option FileStat
  targetExpected : Option FileStat
  intended : Option FileStat
  priorTargetRelPath : Option PathText := none
  priorTargetExpected : Option FileStat := none
  metadata : Option MetadataSnapshot := none
  contentBytes : Nat := 0
  dependencies : List OpId := []
  reason : OperationReason := .sourceOnly
  blockedReason : Option BlockedReason := none
  dependencies_nodup : dependencies.Nodup := by first | exact List.nodup_nil | simp

/-- The operation, with its paths canonical. -/
def OperationRecord.operation (record : OperationRecord) : PlanOperation where
  opId := record.opId
  kind := record.kind
  sourceRelPath := record.sourceRelPath.map PathText.path
  targetRelPath := record.targetRelPath.path
  sourceExpected := record.sourceExpected
  targetExpected := record.targetExpected
  intended := record.intended
  priorTargetRelPath := record.priorTargetRelPath.map PathText.path
  priorTargetExpected := record.priorTargetExpected
  metadata := record.metadata
  contentBytes := record.contentBytes
  dependencies := record.dependencies
  reason := record.reason
  blockedReason := record.blockedReason
  dependencies_nodup := record.dependencies_nodup

/-- The fields of a `DestinationAssignment`; its keys are those of its
paths. -/
structure DestinationRecord where
  sourceRelPath : PathText
  targetRelPath : PathText
  groupId : Option Str := none
  conflict : Option Str := none

structure AssignmentRecord where
  policyName : Str
  policyVersion : Str
  items : List DestinationRecord

/-- The fields of a `Plan`. -/
structure PlanRecord where
  sourceRoot : Root
  targetRoot : Root
  sourceVolumeId : Option VolumeId
  targetVolumeId : Option VolumeId
  sourceVolumeEvidence : Option VolumeEvidence
  targetVolumeEvidence : Option VolumeEvidence
  sourceProfile : CapabilityProfile
  targetProfile : CapabilityProfile
  sourceComplete : Bool
  targetComplete : Bool
  operations : List OperationRecord
  assignment : AssignmentRecord
  preservation : PreservationPolicy
  filterSnapshot : FilterSet
  deletionPolicy : DeletionPolicy
  trashOnUpdate : Bool
  policyFingerprint : Str
  workerCount : Nat
  requiredVolumes : List VolumeId
  requiredBytes : Nat
  fingerprint : Str
  workerCount_pos : 0 < workerCount
  requiredVolumes_nodup : requiredVolumes.Nodup
  checked : checkOperations [] (operations.map OperationRecord.operation) = none

/-- Equal in every field but the fingerprint. -/
def PlanRecord.SameContent (plan other : PlanRecord) : Prop :=
  { plan with requiredVolumes := [], fingerprint := [], requiredVolumes_nodup := List.nodup_nil } =
      { other with
        requiredVolumes := [], fingerprint := [], requiredVolumes_nodup := List.nodup_nil } ∧
    ∀ volume, volume ∈ plan.requiredVolumes ↔ volume ∈ other.requiredVolumes

end Records

/-! ## `_primitive`

One definition for each dataclass, its fields under their names in the source. -/

section Primitives

variable [Unicode]

def FileIdentity.primitive (identity : FileIdentity) : Json :=
  .object
    [(str "volume_serial", .string identity.volumeSerial),
     (str "file_index", .int identity.fileIndex)]

def MetadataSnapshot.primitive (metadata : MetadataSnapshot) : Json :=
  .object
    [(str "attributes", .int metadata.attributes),
     (str "created_ns", Json.optional .int metadata.createdNs)]

def FileStat.primitive (stat : FileStat) : Json :=
  .object
    [(str "kind", .string stat.kind.value),
     (str "size", .int stat.size),
     (str "mtime_ns", .int stat.mtimeNs),
     (str "file_identity", Json.optional FileIdentity.primitive stat.fileIdentity),
     (str "nlink", .int stat.nlink),
     (str "metadata", stat.metadata.primitive)]

def OperationRecord.primitive (operation : OperationRecord) : Json :=
  .object
    [(str "op_id", .string operation.opId.text),
     (str "kind", .string operation.kind.value),
     (str "source_rel_path",
       Json.optional (fun path => .string path.text) operation.sourceRelPath),
     (str "target_rel_path", .string operation.targetRelPath.text),
     (str "source_expected", Json.optional FileStat.primitive operation.sourceExpected),
     (str "target_expected", Json.optional FileStat.primitive operation.targetExpected),
     (str "intended", Json.optional FileStat.primitive operation.intended),
     (str "prior_target_rel_path",
       Json.optional (fun path => .string path.text) operation.priorTargetRelPath),
     (str "prior_target_expected", Json.optional FileStat.primitive operation.priorTargetExpected),
     (str "metadata", Json.optional MetadataSnapshot.primitive operation.metadata),
     (str "content_bytes", .int operation.contentBytes),
     (str "dependencies", .array (operation.dependencies.map fun id => .string id.text)),
     (str "reason", .string operation.reason.value),
     (str "blocked_reason",
       Json.optional (fun reason => .string reason.value) operation.blockedReason)]

def DestinationRecord.primitive (item : DestinationRecord) : Json :=
  .object
    [(str "source_rel_path", .string item.sourceRelPath.text),
     (str "source_rel_path_key", .string item.sourceRelPath.path.key),
     (str "target_rel_path", .string item.targetRelPath.text),
     (str "target_rel_path_key", .string item.targetRelPath.path.key),
     (str "group_id", Json.optional .string item.groupId),
     (str "conflict", Json.optional .string item.conflict)]

def AssignmentRecord.primitive (assignment : AssignmentRecord) : Json :=
  .object
    [(str "policy_name", .string assignment.policyName),
     (str "policy_version", .string assignment.policyVersion),
     (str "items", .array (assignment.items.map DestinationRecord.primitive))]

def Root.primitive (root : Root) : Json :=
  .object [(str "path", .string root.path), (str "root_id", .string root.rootId)]

def VolumeId.primitive (volume : VolumeId) : Json :=
  .object [(str "serial", .string volume.serial), (str "fs_type", .string volume.fsType)]

def VolumeEvidence.primitive (evidence : VolumeEvidence) : Json :=
  .object
    [(str "label", Json.optional .string evidence.label),
     (str "device_id", Json.optional .string evidence.deviceId),
     (str "clone_ambiguous", .bool evidence.cloneAmbiguous)]

def CapabilityProfile.primitive (profile : CapabilityProfile) : Json :=
  .object
    [(str "fs_type", .string profile.fsType),
     (str "mtime_granularity_ns", .int profile.mtimeGranularityNs),
     (str "stable_file_identity", .bool profile.stableFileIdentity),
     (str "incurs_seek_penalty", Json.optional .bool profile.incursSeekPenalty),
     (str "max_path", .int profile.maxPath),
     (str "supports_ads", .bool profile.supportsAds),
     (str "supports_hardlinks", .bool profile.supportsHardlinks)]

def PreservationPolicy.primitive (preservation : PreservationPolicy) : Json :=
  .object
    [(str "preserve_ads", .bool preservation.preserveAds),
     (str "preserve_created", .bool preservation.preserveCreated),
     (str "preserve_acl", .bool preservation.preserveAcl)]

def FilterSet.primitive (filters : FilterSet) : Json :=
  .object [(str "patterns", .array (filters.patterns.map .string))]

/-- A frozen set: its members sorted by their texts. -/
def primitiveSet (members : List Json) : Json := .array (sortedBy Json.dumps members)

/-- `_primitive(asdict(plan))` without the fingerprint. -/
def PlanRecord.payload (plan : PlanRecord) : Json :=
  .object
    [(str "source_root", plan.sourceRoot.primitive),
     (str "target_root", plan.targetRoot.primitive),
     (str "source_volume_id", Json.optional VolumeId.primitive plan.sourceVolumeId),
     (str "target_volume_id", Json.optional VolumeId.primitive plan.targetVolumeId),
     (str "source_volume_evidence",
       Json.optional VolumeEvidence.primitive plan.sourceVolumeEvidence),
     (str "target_volume_evidence",
       Json.optional VolumeEvidence.primitive plan.targetVolumeEvidence),
     (str "source_profile", plan.sourceProfile.primitive),
     (str "target_profile", plan.targetProfile.primitive),
     (str "source_complete", .bool plan.sourceComplete),
     (str "target_complete", .bool plan.targetComplete),
     (str "operations", .array (plan.operations.map OperationRecord.primitive)),
     (str "assignment", plan.assignment.primitive),
     (str "preservation", plan.preservation.primitive),
     (str "filter_snapshot", plan.filterSnapshot.primitive),
     (str "deletion_policy", .string plan.deletionPolicy.value),
     (str "trash_on_update", .bool plan.trashOnUpdate),
     (str "policy_fingerprint", .string plan.policyFingerprint),
     (str "worker_count", .int plan.workerCount),
     (str "required_volumes", primitiveSet (plan.requiredVolumes.map VolumeId.primitive)),
     (str "required_bytes", .int plan.requiredBytes)]

theorem payload_fingerprinted (plan : PlanRecord) (fingerprint : Str) :
    { plan with fingerprint := fingerprint }.payload = plan.payload := rfl

/-- `sorted(str(item) for item in selection)`. -/
def selectionPayload (selection : List Str) : Json := .array ((sortedBy id selection).map .string)

end Primitives

/-! ## Digests -/

/-- `bytes.hex()`. -/
def hexText (bytes : List UInt8) : Str := bytes.flatMap fun byte => hexDigits 2 byte.toNat

section Digests

variable [Unicode] [Sha256]

/-- `plan_fingerprint`. -/
def planFingerprint (plan : PlanRecord) : Str := hexText (Sha256.digest plan.payload.canonicalBytes)

/-- `selection_digest`. -/
def selectionDigest (selection : List Str) : List UInt8 :=
  Sha256.digest (selectionPayload selection).canonicalBytes

end Digests

end NamiSync
