/-
# `Workflows.Payloads` — what the dispatcher carries for a workflow

`workflows/payloads.py`: a request is written as canonical JSON and read back
by the constructors, which check every value again.  A reader converts what
it is given (`str`, `int`, `bool`); where it would have to convert a value
that no writer puts there, a container to its `repr` or a text to a number,
the conversion is left open.

## Writers and readers

A writer cannot fail, except that a request with another destination policy
than the identity cannot be written.  A reader goes through the constructors,
in the order of the source, and what it raises is `PayloadError`: the source's
`ValueError`, `KeyError` or `TypeError`.  `outside` marks the conversions that
are left open, and the round trip never meets it.
-/
import Mathlib.Data.List.Dedup
import NamiSync.Workflows.Commitment

namespace NamiSync

/-! ## Identifiers and bytes -/

/-- `re_fullmatch_op_id` and `_FIXED_ID`, with the number that is written. -/
def fixedId (text : Str) : Option (Fin (16 ^ 32)) := do
  let value ← hexValues text
  if h : value < 16 ^ 32 then
    if text.length = 32 ∧ text.all (fun c => c.val < 0x41 || 0x61 ≤ c.val) then some ⟨value, h⟩
    else none
  else none

def isAsciiSpace (c : CodePoint) : Bool := c.val = 0x20 || (0x09 ≤ c.val && c.val ≤ 0x0D)

/-- `bytes.fromhex`: white space may stand between the bytes. -/
def bytesFromHex : Str → Option (List UInt8)
  | [] => some []
  | c :: rest =>
      if isAsciiSpace c then bytesFromHex rest
      else match rest with
        | [] => none
        | d :: rest => do
            let high ← hexValue c
            let low ← hexValue d
            let bytes ← bytesFromHex rest
            some (UInt8.ofNat (high * 16 + low) :: bytes)

def Outcome.value : Outcome → Str
  | succeeded => str "succeeded"
  | skipped => str "skipped"
  | failed => str "failed"
  | canceled => str "canceled"
  | deferred => str "deferred"
  | blocked => str "blocked"

def Outcome.ofValue (value : Str) : Option Outcome :=
  [succeeded, skipped, failed, canceled, deferred, blocked].find? fun outcome =>
    outcome.value = value

/-! ## The constructors -/

/-- What a reader raises.  A message is without the values it quotes; the
conversions left open are `outside`. -/
inductive PayloadError
  | key (name : String)
  | type
  | value (message : String)
  | outside
  deriving DecidableEq, Repr

/-- A value that is there, or a `ValueError`. -/
def orValueError {α : Type} (message : String) : Option α → Except PayloadError α
  | some a => .ok a
  | none => .error (.value message)

def VolumeId.ofPayload (serial fsType : Str) : Except PayloadError VolumeId :=
  if h : serial ≠ [] ∧ fsType ≠ [] then .ok ⟨serial, fsType, h.1, h.2⟩
  else .error (.value "volume identity requires serial and filesystem type")

def CapabilityProfile.ofPayload (fsType : Str) (mtimeGranularityNs : Nat)
    (stableFileIdentity : Bool) (incursSeekPenalty : Option Bool) (maxPath : Nat)
    (supportsAds supportsHardlinks : Bool) : Except PayloadError CapabilityProfile :=
  if hgranularity : 0 < mtimeGranularityNs then
    if hpath : 0 < maxPath then
      .ok ⟨fsType, mtimeGranularityNs, stableFileIdentity, incursSeekPenalty, maxPath, supportsAds,
        supportsHardlinks, hgranularity, hpath⟩
    else .error (.value "maximum path must be positive")
  else .error (.value "mtime granularity must be positive")

def FileIdentity.ofPayload (volumeSerial : Str) (fileIndex : Nat) :
    Except PayloadError FileIdentity :=
  if h : volumeSerial ≠ [] then .ok ⟨volumeSerial, fileIndex, h⟩
  else .error (.value "invalid file identity")

def FileStat.ofPayload (kind : EntryKind) (size mtimeNs : Nat) (fileIdentity : Option FileIdentity)
    (nlink : Nat) (metadata : MetadataSnapshot) : Except PayloadError FileStat :=
  if h : 0 < nlink then .ok ⟨kind, size, mtimeNs, fileIdentity, nlink, metadata, h⟩
  else .error (.value "link count must be positive")

def Root.ofPayload (path rootId : Str) : Except PayloadError Root :=
  if hpath : path ≠ [] ∧ 0 ∉ path then
    if hid : rootId ≠ [] then .ok ⟨path, rootId, hpath.1, hpath.2, hid⟩
    else .error (.value "root id is required")
  else .error (.value "root path is invalid")

section Constructors

variable [Unicode]

/-- `FilterSet.__post_init__`. -/
def FilterSet.make (patterns : List Str) : FilterSet where
  patterns := sortedBy id (patterns.map canonicalText).dedup
  sorted := by
    have hsorted : (sortedBy id (patterns.map canonicalText).dedup).Pairwise (· ≤ ·) :=
      haveI : Std.Total fun a b : Str => id a ≤ id b := ⟨fun a b => le_total a b⟩
      haveI : IsTrans Str fun a b => id a ≤ id b := ⟨fun _ _ _ => le_trans⟩
      List.pairwise_insertionSort _ _
    have hnodup : (sortedBy id (patterns.map canonicalText).dedup).Nodup :=
      (List.perm_insertionSort _ _).nodup_iff.2 (List.nodup_dedup _)
    exact (hsorted.and hnodup).imp fun h => lt_of_le_of_ne h.1 h.2
  no_slash := by
    intro pattern hpattern hslash
    obtain ⟨text, -, rfl⟩ := List.mem_map.1 (List.mem_dedup.1 (mem_sortedBy.1 hpattern))
    exact (mem_canonicalText hslash).1 rfl

def PathText.ofPayload (text : Str) : Except PayloadError PathText :=
  match h : validateRelativePath text with
  | .ok path => .ok ⟨text, path, h⟩
  | .error error => .error (.value error.message)

/-- A path that may be missing. -/
def PathText.ofPayloadOptional : Option Str → Except PayloadError (Option PathText)
  | none => .ok none
  | some text => some <$> PathText.ofPayload text

/-- `PlanOperation.__post_init__`. -/
def OperationRecord.ofPayload (opId : Str) (kind : OperationKind) (sourceRelPath : Option Str)
    (targetRelPath : Str) (sourceExpected targetExpected intended : Option FileStat)
    (priorTargetRelPath : Option Str) (priorTargetExpected : Option FileStat)
    (metadata : Option MetadataSnapshot) (contentBytes : Nat) (dependencies : List OpId)
    (reason : OperationReason) (blockedReason : Option BlockedReason) :
    Except PayloadError OperationRecord := do
  let opId ← orValueError "operation id must be 32 lowercase hexadecimal characters" (fixedId opId)
  let sourceRelPath ← PathText.ofPayloadOptional sourceRelPath
  let targetRelPath ← PathText.ofPayload targetRelPath
  let priorTargetRelPath ← PathText.ofPayloadOptional priorTargetRelPath
  if h : dependencies.Nodup then
    .ok
      { opId := opId
        kind := kind
        sourceRelPath := sourceRelPath
        targetRelPath := targetRelPath
        sourceExpected := sourceExpected
        targetExpected := targetExpected
        intended := intended
        priorTargetRelPath := priorTargetRelPath
        priorTargetExpected := priorTargetExpected
        metadata := metadata
        contentBytes := contentBytes
        dependencies := dependencies
        reason := reason
        blockedReason := blockedReason
        dependencies_nodup := h }
  else .error (.value "operation dependencies must be unique")

/-- `DestinationAssignment.__post_init__`. -/
def DestinationRecord.ofPayload (sourceRelPath sourceKey targetRelPath targetKey : Str)
    (groupId conflict : Option Str) : Except PayloadError DestinationRecord := do
  let source ← PathText.ofPayload sourceRelPath
  if sourceKey ≠ source.path.key then .error (.value "source assignment key is not canonical")
  else
    let target ← PathText.ofPayload targetRelPath
    if targetKey ≠ target.path.key then .error (.value "target assignment key is not canonical")
    else .ok ⟨source, target, groupId, conflict⟩

def Commitment.ofPayload (planFingerprint : Str) (selectionDigest : List UInt8)
    (committedAt : Datetime) : Except PayloadError Commitment :=
  if hfingerprint : planFingerprint ≠ [] then
    if hdigest : selectionDigest.length = 32 then
      if committedAt.offset ≠ none then
        if hutc : committedAt.offset = some 0 then
          .ok ⟨planFingerprint, selectionDigest, committedAt, hfingerprint, hdigest, hutc⟩
        else .error (.value "commitment timestamp must be UTC")
      else .error (.value "commitment timestamp must be timezone-aware")
    else .error (.value "commitment selection digest must contain 32 bytes")
  else .error (.value "commitment plan fingerprint is required")

/-- `ExecutionSet.__post_init__`. -/
def ExecutionRecord.ofPayload (plan : PlanRecord) (selection : List OpId) (runId : RunId)
    (status : Dict OpId Outcome) (commitment : Option Commitment) :
    Except PayloadError ExecutionRecord :=
  if hknown : ∀ id ∈ selection.dedup, id ∈ plan.operations.map OperationRecord.opId then
    if hstatus : ∀ id ∈ status.keys, id ∈ selection.dedup then
      .ok
        { plan := plan
          selection := selection.dedup
          runId := runId
          status := status
          commitment := commitment
          selection_nodup := List.nodup_dedup _
          selection_known := hknown
          status_selected := hstatus }
    else .error (.value "status contains unselected operation ids")
  else .error (.value "selection contains unknown operation ids")

end Constructors

namespace Payloads

/-! ## Reading a value -/

/-- `_mapping`. -/
def mapping : Json → Except PayloadError (List (Str × Json))
  | .object fields => .ok fields
  | _ => .error (.value "workflow payload object is malformed")

/-- `_list`. -/
def list : Json → Except PayloadError (List Json)
  | .array items => .ok items
  | _ => .error (.value "workflow payload list is malformed")

/-- `item[name]`. -/
def required (name : String) (item : List (Str × Json)) : Except PayloadError Json :=
  match Dict.lookup (str name) item with
  | some value => .ok value
  | none => .error (.key name)

/-- `item.get(name)`. -/
def get (name : String) (item : List (Str × Json)) : Json :=
  (Dict.lookup (str name) item).getD .null

/-- `str(value)`. -/
def textOf : Json → Except PayloadError Str
  | .string value => .ok value
  | .int value => .ok (decimal value)
  | .bool true => .ok (str "True")
  | .bool false => .ok (str "False")
  | .null => .ok (str "None")
  | .array _ | .object _ => .error .outside

/-- `int(value)`. -/
def intOf : Json → Except PayloadError Nat
  | .int value => .ok value
  | .bool value => .ok value.toNat
  | .string _ => .error .outside
  | .null | .array _ | .object _ => .error .type

/-- `bool(value)`. -/
def boolOf : Json → Bool
  | .bool value => value
  | .int value => value ≠ 0
  | .string value => !value.isEmpty
  | .array items => !items.isEmpty
  | .object fields => !fields.isEmpty
  | .null => false

/-- `None if value is None else decode(value)`. -/
def optional {α : Type} (decode : Json → Except PayloadError α) : Json →
    Except PayloadError (Option α)
  | .null => .ok none
  | value => some <$> decode value

/-- `EntryKind(str(value))`, and so for the other enumerations. -/
def member {α : Type} (name : String) (ofValue : Str → Option α) (value : Json) :
    Except PayloadError α := do
  let text ← textOf value
  orValueError ("is not a valid " ++ name) (ofValue text)

/-- `OpId(str(value))`.  An id that no operation has is refused, by whichever
check comes to it. -/
def opId (message : String) (value : Json) : Except PayloadError OpId := do
  let text ← textOf value
  orValueError message (fixedId text)

/-- `datetime.fromisoformat(str(value))`. -/
def time (value : Json) : Except PayloadError Datetime := do
  let text ← textOf value
  orValueError "Invalid isoformat string" (Datetime.fromisoformat text)

/-! ## The parts of a plan -/

section Parts

variable [Unicode]

/-- `_volume`. -/
def volume (value : Option VolumeId) : Json := Json.optional VolumeId.primitive value

/-- `_decode_volume`. -/
def decodeVolume : Json → Except PayloadError (Option VolumeId) :=
  optional fun value => do
    let item ← mapping value
    let serial ← required "serial" item >>= textOf
    let fsType ← required "fs_type" item >>= textOf
    VolumeId.ofPayload serial fsType

/-- `_evidence`. -/
def evidence (value : Option VolumeEvidence) : Json := Json.optional VolumeEvidence.primitive value

/-- `_decode_evidence`. -/
def decodeEvidence : Json → Except PayloadError (Option VolumeEvidence) :=
  optional fun value => do
    let item ← mapping value
    let label ← optional textOf (get "label" item)
    let deviceId ← optional textOf (get "device_id" item)
    let cloneAmbiguous ← required "clone_ambiguous" item
    .ok ⟨label, deviceId, boolOf cloneAmbiguous⟩

/-- `_profile`. -/
def profile (value : CapabilityProfile) : Json := value.primitive

/-- `_decode_profile`. -/
def decodeProfile (value : Json) : Except PayloadError CapabilityProfile := do
  let item ← mapping value
  let fsType ← required "fs_type" item >>= textOf
  let mtimeGranularityNs ← required "mtime_granularity_ns" item >>= intOf
  let stableFileIdentity ← required "stable_file_identity" item
  let seek ← optional (fun seek => .ok (boolOf seek)) (get "incurs_seek_penalty" item)
  let maxPath ← required "max_path" item >>= intOf
  let supportsAds ← required "supports_ads" item
  let supportsHardlinks ← required "supports_hardlinks" item
  CapabilityProfile.ofPayload fsType mtimeGranularityNs (boolOf stableFileIdentity) seek maxPath
    (boolOf supportsAds) (boolOf supportsHardlinks)

/-- `MetadataSnapshot(...)` of its payload. -/
def decodeMetadata (value : Json) : Except PayloadError MetadataSnapshot := do
  let item ← mapping value
  let attributes ← required "attributes" item >>= intOf
  let createdNs ← optional intOf (get "created_ns" item)
  .ok ⟨attributes, createdNs⟩

/-- `_stat`. -/
def stat (value : Option FileStat) : Json :=
  Json.optional
    (fun value : FileStat => .object
      [(str "kind", .string value.kind.value),
       (str "size", .int value.size),
       (str "mtime_ns", .int value.mtimeNs),
       (str "identity", Json.optional FileIdentity.primitive value.fileIdentity),
       (str "nlink", .int value.nlink),
       (str "metadata", value.metadata.primitive)])
    value

/-- `FileIdentity(...)` of its payload. -/
def decodeIdentity (value : Json) : Except PayloadError FileIdentity := do
  let item ← mapping value
  let volumeSerial ← required "volume_serial" item >>= textOf
  let fileIndex ← required "file_index" item >>= intOf
  FileIdentity.ofPayload volumeSerial fileIndex

/-- `_decode_stat`. -/
def decodeStat : Json → Except PayloadError (Option FileStat) :=
  optional fun value => do
    let item ← mapping value
    let identity ← optional decodeIdentity (get "identity" item)
    let metadata ← required "metadata" item
    let kind ← required "kind" item >>= member "EntryKind" EntryKind.ofValue
    let size ← required "size" item >>= intOf
    let mtimeNs ← required "mtime_ns" item >>= intOf
    let nlink ← required "nlink" item >>= intOf
    let metadata ← decodeMetadata metadata
    FileStat.ofPayload kind size mtimeNs identity nlink metadata

/-- `_operation`. -/
def operation (value : OperationRecord) : Json :=
  .object
    [(str "op_id", .string value.opId.text),
     (str "kind", .string value.kind.value),
     (str "source_rel_path", Json.optional (fun path => .string path.text) value.sourceRelPath),
     (str "target_rel_path", .string value.targetRelPath.text),
     (str "source_expected", stat value.sourceExpected),
     (str "target_expected", stat value.targetExpected),
     (str "intended", stat value.intended),
     (str "prior_target_rel_path",
       Json.optional (fun path => .string path.text) value.priorTargetRelPath),
     (str "prior_target_expected", stat value.priorTargetExpected),
     (str "metadata", Json.optional MetadataSnapshot.primitive value.metadata),
     (str "content_bytes", .int value.contentBytes),
     (str "dependencies", .array (value.dependencies.map fun id => .string id.text)),
     (str "reason", .string value.reason.value),
     (str "blocked_reason",
       Json.optional (fun reason => .string reason.value) value.blockedReason)]

/-- `_decode_operation`. -/
def decodeOperation (value : Json) : Except PayloadError OperationRecord := do
  let item ← mapping value
  let metadata ← optional decodeMetadata (get "metadata" item)
  let opIdText ← required "op_id" item >>= textOf
  let kind ← required "kind" item >>= member "OperationKind" OperationKind.ofValue
  let sourceRelPath ← optional textOf (get "source_rel_path" item)
  let targetRelPath ← required "target_rel_path" item >>= textOf
  let sourceExpected ← decodeStat (get "source_expected" item)
  let targetExpected ← decodeStat (get "target_expected" item)
  let intended ← decodeStat (get "intended" item)
  let priorTargetRelPath ← optional textOf (get "prior_target_rel_path" item)
  let priorTargetExpected ← decodeStat (get "prior_target_expected" item)
  let contentBytes ← required "content_bytes" item >>= intOf
  let dependencies ← required "dependencies" item >>= list
  let dependencies ← dependencies.mapM (opId "operations must be dependency ordered")
  let reason ← required "reason" item >>= member "OperationReason" OperationReason.ofValue
  let blockedReason ← optional (member "BlockedReason" BlockedReason.ofValue)
    (get "blocked_reason" item)
  OperationRecord.ofPayload opIdText kind sourceRelPath targetRelPath sourceExpected targetExpected
    intended priorTargetRelPath priorTargetExpected metadata contentBytes dependencies reason
    blockedReason

/-- `PreservationPolicy(...)` of its payload. -/
def decodePreservation (item : List (Str × Json)) : Except PayloadError PreservationPolicy := do
  let preserveAds ← required "preserve_ads" item
  let preserveCreated ← required "preserve_created" item
  let preserveAcl ← required "preserve_acl" item
  .ok ⟨boolOf preserveAds, boolOf preserveCreated, boolOf preserveAcl⟩

/-- `Root(...)` of its payload. -/
def decodeRoot (item : List (Str × Json)) : Except PayloadError Root := do
  let path ← required "path" item >>= textOf
  let rootId ← required "root_id" item >>= textOf
  Root.ofPayload path rootId

/-- `DestinationAssignment(...)` of its payload. -/
def decodeDestination (value : Json) : Except PayloadError DestinationRecord := do
  let item ← mapping value
  let sourceRelPath ← required "source_rel_path" item >>= textOf
  let sourceKey ← required "source_rel_path_key" item >>= textOf
  let targetRelPath ← required "target_rel_path" item >>= textOf
  let targetKey ← required "target_rel_path_key" item >>= textOf
  let groupId ← optional textOf (get "group_id" item)
  let conflict ← optional textOf (get "conflict" item)
  DestinationRecord.ofPayload sourceRelPath sourceKey targetRelPath targetKey groupId conflict

/-- `Assignment(...)` of its payload. -/
def decodeAssignment (item : List (Str × Json)) : Except PayloadError AssignmentRecord := do
  let policyName ← required "policy_name" item >>= textOf
  let policyVersion ← required "policy_version" item >>= textOf
  let items ← required "items" item >>= list
  let items ← items.mapM decodeDestination
  .ok ⟨policyName, policyVersion, items⟩

/-- `FilterSet(...)` of its patterns. -/
def decodeFilters (value : Json) : Except PayloadError FilterSet := do
  let patterns ← list value
  let patterns ← patterns.mapM textOf
  .ok (FilterSet.make patterns)

/-- The order of `VolumeId`. -/
def volumeOrder (value : VolumeId) : Str ×ₗ Str := toLex (value.serial, value.fsType)

/-- `_plan`. -/
def plan (value : PlanRecord) : Json :=
  .object
    [(str "source_root", value.sourceRoot.primitive),
     (str "target_root", value.targetRoot.primitive),
     (str "source_volume_id", volume value.sourceVolumeId),
     (str "target_volume_id", volume value.targetVolumeId),
     (str "source_volume_evidence", evidence value.sourceVolumeEvidence),
     (str "target_volume_evidence", evidence value.targetVolumeEvidence),
     (str "source_profile", profile value.sourceProfile),
     (str "target_profile", profile value.targetProfile),
     (str "source_complete", .bool value.sourceComplete),
     (str "target_complete", .bool value.targetComplete),
     (str "operations", .array (value.operations.map operation)),
     (str "assignment", value.assignment.primitive),
     (str "preservation", value.preservation.primitive),
     (str "filters", .array (value.filterSnapshot.patterns.map .string)),
     (str "deletion_policy", .string value.deletionPolicy.value),
     (str "trash_on_update", .bool value.trashOnUpdate),
     (str "policy_fingerprint", .string value.policyFingerprint),
     (str "worker_count", .int value.workerCount),
     (str "required_volumes",
       .array ((sortedBy volumeOrder value.requiredVolumes).map fun item => volume (some item))),
     (str "required_bytes", .int value.requiredBytes),
     (str "fingerprint", .string value.fingerprint)]

/-- `_decode_plan`, with `Plan.__post_init__`. -/
def decodePlan (value : Json) : Except PayloadError PlanRecord := do
  let item ← mapping value
  let sourceRoot ← required "source_root" item >>= mapping
  let targetRoot ← required "target_root" item >>= mapping
  let assignment ← required "assignment" item >>= mapping
  let preservation ← required "preservation" item >>= mapping
  let requiredVolumes ← required "required_volumes" item >>= list
  let requiredVolumes ← requiredVolumes.mapM decodeVolume
  let sourceRoot ← decodeRoot sourceRoot
  let targetRoot ← decodeRoot targetRoot
  let sourceVolumeId ← decodeVolume (get "source_volume_id" item)
  let targetVolumeId ← decodeVolume (get "target_volume_id" item)
  let sourceVolumeEvidence ← decodeEvidence (get "source_volume_evidence" item)
  let targetVolumeEvidence ← decodeEvidence (get "target_volume_evidence" item)
  let sourceProfile ← required "source_profile" item >>= decodeProfile
  let targetProfile ← required "target_profile" item >>= decodeProfile
  let sourceComplete ← required "source_complete" item
  let targetComplete ← required "target_complete" item
  let operations ← required "operations" item >>= list
  let operations ← operations.mapM decodeOperation
  let assignment ← decodeAssignment assignment
  let preservation ← decodePreservation preservation
  let filterSnapshot ← required "filters" item >>= decodeFilters
  let deletionPolicy ← required "deletion_policy" item >>=
    member "DeletionPolicy" DeletionPolicy.ofValue
  let trashOnUpdate ← required "trash_on_update" item
  let policyFingerprint ← required "policy_fingerprint" item >>= textOf
  let workerCount ← required "worker_count" item >>= intOf
  let requiredBytes ← required "required_bytes" item >>= intOf
  let fingerprint ← required "fingerprint" item >>= textOf
  if hcount : 0 < workerCount then
    match hchecked : checkOperations [] (operations.map OperationRecord.operation) with
    | some .duplicateOperationId => .error (.value "duplicate operation id")
    | some _ => .error (.value "operations must be dependency ordered")
    | none =>
        .ok
          { sourceRoot := sourceRoot
            targetRoot := targetRoot
            sourceVolumeId := sourceVolumeId
            targetVolumeId := targetVolumeId
            sourceVolumeEvidence := sourceVolumeEvidence
            targetVolumeEvidence := targetVolumeEvidence
            sourceProfile := sourceProfile
            targetProfile := targetProfile
            sourceComplete := boolOf sourceComplete
            targetComplete := boolOf targetComplete
            operations := operations
            assignment := assignment
            preservation := preservation
            filterSnapshot := filterSnapshot
            deletionPolicy := deletionPolicy
            trashOnUpdate := boolOf trashOnUpdate
            policyFingerprint := policyFingerprint
            workerCount := workerCount
            requiredVolumes := (requiredVolumes.filterMap id).dedup
            requiredBytes := requiredBytes
            fingerprint := fingerprint
            workerCount_pos := hcount
            requiredVolumes_nodup := List.nodup_dedup _
            checked := hchecked }
  else .error (.value "invalid plan capacity snapshot")

end Parts

/-! ## Requests -/

/-- `_payload`. -/
def payload (bytes : List UInt8) (expectedKind : Str) :
    Except PayloadError (List (Str × Json)) := do
  let value ← orValueError "workflow payload is not valid UTF-8 JSON"
    ((decodeUtf8 bytes).bind Json.loads)
  let item ← mapping value
  match get "schema_version" item with
  | .int 1 | .bool true =>
      match get "kind" item with
      | .string kind =>
          if kind = expectedKind then .ok item
          else .error (.value "workflow payload kind does not match registration")
      | _ => .error (.value "workflow payload kind does not match registration")
  | _ => .error (.value "unsupported workflow payload schema")

end Payloads

/-- The identity policy, under some name and version. -/
def identityPolicyNamed (policy : PolicyName) [Unicode] : DestinationPolicy where
  policy := policy
  assign records _ :=
    { policy := policy
      items := (sortedBy (fun record => recordKey record.relPath) records).map fun record =>
        { sourceRelPath := record.relPath, targetRelPath := record.relPath } }

section Requests

variable [Unicode]

/-- `isinstance(policy, IdentityDestinationPolicy)`. -/
def DestinationPolicy.IsIdentity (policy : DestinationPolicy) : Prop :=
  policy = identityPolicyNamed policy.policy

structure PlanRequest where
  requestId : Str
  sourcePath : Str
  targetPath : Str
  options : SyncOptions

structure ExecutionRequest where
  executionSet : ExecutionRecord
  startedAt : Option Datetime := none

open Payloads

/-- What `encode_plan_request` writes. -/
def PlanRequest.payload (request : PlanRequest) : Json :=
  .object
    [(str "schema_version", .int 1),
     (str "kind", .string (str "plan")),
     (str "request_id", .string request.requestId),
     (str "source_path", .string request.sourcePath),
     (str "target_path", .string request.targetPath),
     (str "options", .object
       [(str "deletion_policy", .string request.options.deletionPolicy.value),
        (str "preservation", request.options.preservation.primitive),
        (str "filters", .array (request.options.filters.patterns.map .string)),
        (str "worker_count", .int request.options.workerCount),
        (str "trash_on_update", .bool request.options.trashOnUpdate),
        (str "propagate_source_casing", .bool request.options.propagateSourceCasing),
        (str "internal_mirror_authorized", .bool request.options.internalMirrorAuthorized)])]

/-- `encode_plan_request`. -/
def encodePlanRequest (request : PlanRequest)
    [Decidable request.options.destinationPolicy.IsIdentity] :
    Except PayloadError (List UInt8) :=
  if request.options.destinationPolicy.IsIdentity then .ok request.payload.canonicalBytes
  else .error (.value "M0 workflow payloads support only the identity destination policy")

/-- `decode_plan_request`, with `SyncOptions.__post_init__`. -/
def decodePlanRequest (bytes : List UInt8) : Except PayloadError PlanRequest := do
  let item ← payload bytes (str "plan")
  let options ← required "options" item >>= mapping
  let preservation ← required "preservation" options >>= mapping
  let requestId ← required "request_id" item >>= textOf
  let sourcePath ← required "source_path" item >>= textOf
  let targetPath ← required "target_path" item >>= textOf
  let deletionPolicy ← required "deletion_policy" options >>=
    member "DeletionPolicy" DeletionPolicy.ofValue
  let preservation ← decodePreservation preservation
  let filters ← required "filters" options >>= decodeFilters
  let workerCount ← required "worker_count" options >>= intOf
  let trashOnUpdate ← required "trash_on_update" options
  let propagateSourceCasing ← required "propagate_source_casing" options
  let internalMirrorAuthorized ← required "internal_mirror_authorized" options
  if hcount : 0 < workerCount then
    if hmirror : deletionPolicy = .mirror → boolOf internalMirrorAuthorized = true then
      .ok
        { requestId := requestId
          sourcePath := sourcePath
          targetPath := targetPath
          options :=
            { deletionPolicy := deletionPolicy
              preservation := preservation
              filters := filters
              destinationPolicy := identityDestinationPolicy
              workerCount := workerCount
              trashOnUpdate := boolOf trashOnUpdate
              propagateSourceCasing := boolOf propagateSourceCasing
              internalMirrorAuthorized := boolOf internalMirrorAuthorized
              workerCount_pos := hcount
              mirror_authorized := hmirror } }
    else .error (.value "mirror deletion requires explicit internal authorization")
  else .error (.value "worker count must be positive")

/-- The payload of a commitment. -/
def Commitment.payload (commitment : Commitment) : Json :=
  .object
    [(str "plan_fingerprint", .string commitment.planFingerprint),
     (str "selection_digest", .string (hexText commitment.selectionDigest)),
     (str "committed_at", .string commitment.committedAt.isoformat)]

/-- What `encode_execution_request` writes. -/
def ExecutionRequest.payload (request : ExecutionRequest) : Json :=
  .object
    [(str "schema_version", .int 1),
     (str "kind", .string (str "execute")),
     (str "plan", Payloads.plan request.executionSet.plan),
     (str "selection", selectionPayload (request.executionSet.selection.map OpId.text)),
     (str "run_id", .string (hexDigits 32 request.executionSet.runId)),
     (str "status",
       .object ((sortedBy Prod.fst request.executionSet.status.entries).map fun entry =>
         (entry.1.text, .string entry.2.value))),
     (str "commitment", Json.optional Commitment.payload request.executionSet.commitment),
     (str "started_at", Json.optional (fun time => .string time.isoformat) request.startedAt)]

/-- `encode_execution_request`. -/
def encodeExecutionRequest (request : ExecutionRequest) : List UInt8 :=
  request.payload.canonicalBytes

/-- `Commitment(...)` of its payload. -/
def decodeCommitment (value : Json) : Except PayloadError Commitment := do
  let item ← mapping value
  let planFingerprint ← required "plan_fingerprint" item >>= textOf
  let selectionDigest ← required "selection_digest" item >>= textOf
  let selectionDigest ← orValueError "non-hexadecimal number found in fromhex() arg"
    (bytesFromHex selectionDigest)
  let committedAt ← required "committed_at" item >>= time
  Commitment.ofPayload planFingerprint selectionDigest committedAt

/-- An entry of the status. -/
def decodeStatusEntry (entry : Str × Json) : Except PayloadError (OpId × Outcome) := do
  let outcome ← member "Outcome" Outcome.ofValue entry.2
  let id ← orValueError "status contains unselected operation ids" (fixedId entry.1)
  .ok (id, outcome)

/-- A dictionary of pairs. -/
def statusOf (entries : List (OpId × Outcome)) : Dict OpId Outcome :=
  entries.foldl (fun status entry => status.set entry.1 entry.2) .empty

/-- `decode_execution_request`. -/
def decodeExecutionRequest (bytes : List UInt8) : Except PayloadError ExecutionRequest := do
  let item ← Payloads.payload bytes (str "execute")
  let commitment ← optional decodeCommitment (get "commitment" item)
  let status ← required "status" item >>= mapping
  let plan ← required "plan" item >>= decodePlan
  let selection ← required "selection" item >>= list
  let selection ← selection.mapM (opId "selection contains unknown operation ids")
  let runId ← required "run_id" item >>= textOf
  let runId ← orValueError "run id must contain exactly 32 lowercase hex digits" (fixedId runId)
  let status ← status.mapM decodeStatusEntry
  let executionSet ← ExecutionRecord.ofPayload plan selection runId (statusOf status) commitment
  let startedAt ← optional time (get "started_at" item)
  .ok ⟨executionSet, startedAt⟩

end Requests

end NamiSync
