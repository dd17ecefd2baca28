/-
# `Modules.Planner` — the pure planner

`modules/planner.py`.  The loop over the assigned files never reads what it
has accumulated, so it is a map; the directory loops do, and are folds.  A
`_group_by_key` dictionary is its lookup function.

## How the loops are written

    the loop over …            is a …   because it reads …
    required directories       fold     the directories created so far
    assigned files             map      the tables of the survey only
    removals, unsupported      map      what the assigned files have claimed
    directories to clean up    fold     the directories cleaned up so far

`Survey` holds the tables, computed once, in the order of the source.  A
`PlannerError` is a text with the message of the source.
-/
import Mathlib.Data.List.Dedup
import NamiSync.Core.Planning
import NamiSync.Lib.Dict

namespace NamiSync

/-- `_metadata_equal`. -/
def metadataEqual (source target : FileStat) (granularityNs : Nat) : Bool :=
  source.size = target.size &&
    (source.mtimeNs ≤ target.mtimeNs + granularityNs &&
      target.mtimeNs ≤ source.mtimeNs + granularityNs) &&
    source.metadata.attributes = target.metadata.attributes

section Planner

variable [Unicode]

/-- `_identity_counts(records).get(identity)`. -/
def identityCount (records : List FileRecord) (identity : FileIdentity) : Nat :=
  (records.filter fun record => record.fileIdentity = some identity).length

/-- `_normalization_signature`. -/
def normalizationSignature (path : RelPath) : RootedPath × Str :=
  (path.parent, Unicode.nfc path.name)

/-- The records of a listing that `_group_by_key` puts under one key. -/
def filesAt (records : List FileRecord) (key : Str) : List FileRecord :=
  sortedBy (fun record => record.relPath.text) (records.filter (·.key = key))

def directoriesAt (records : List DirRecord) (key : Str) : List DirRecord :=
  sortedBy (fun record => record.relPath.text) (records.filter (·.key = key))

/-- The immutable tables `plan` computes before its loops. -/
structure Survey where
  source : ScanResult
  target : ScanResult
  correspondence : MappingSnapshot
  options : SyncOptions
  sourceFiles : List FileRecord
  targetFiles : List FileRecord
  sourceDirs : List DirRecord
  targetDirs : List DirRecord
  assignment : Assignment

/-- The sort key of the directory listings. -/
def directoryKey (record : DirRecord) : Nat ×ₗ (Str ×ₗ Str) :=
  toLex ((record.relPath.map RelPath.depth).getD 0, toLex (record.key, record.relPath.text))

def survey (source target : ScanResult) (correspondence : MappingSnapshot)
    (options : SyncOptions) : Survey :=
  let files (scan : ScanResult) :=
    (sortedBy (fun record => recordKey record.relPath) scan.files).filter
      fun record => !options.filters.excludes record.relPath
  { source := source
    target := target
    correspondence := correspondence
    options := options
    sourceFiles := files source
    targetFiles := files target
    sourceDirs := (sortedBy directoryKey source.directories).filter fun record =>
      match record.relPath with
      | none => false
      | some path => !options.filters.excludes path
    targetDirs := (sortedBy directoryKey target.directories).filter (·.relPath.isSome)
    assignment := options.destinationPolicy.assign (files source) target }

namespace Survey

variable (survey : Survey)

/-- The loop of `_validate_assignment`; `seen` are the sources assigned so
far. -/
def validateItems (sources : List RelPath) :
    List RelPath → List DestinationAssignment → Option PlanError
  | seen, [] => if ∃ path ∈ sources, path ∉ seen then some .sourceUnassigned else none
  | seen, item :: rest =>
      if item.sourceRelPath ∉ sources then some .unknownSource
      else if item.sourceRelPath ∈ seen then some .sourceAssignedTwice
      else validateItems sources (item.sourceRelPath :: seen) rest

/-- `_validate_assignment`. -/
def validateAssignment : Option PlanError :=
  validateItems (survey.sourceFiles.map FileRecord.relPath) [] survey.assignment.items

def granularity : Nat :=
  max survey.source.profile.mtimeGranularityNs survey.target.profile.mtimeGranularityNs

/-- `assigned_target_groups[key]`. -/
def assignedTo (key : Str) : List DestinationAssignment :=
  survey.assignment.items.filter (·.targetKey = key)

/-- `_normalization_pairs(...).get(item)`. -/
def normalizationPair (item : DestinationAssignment) : Option FileRecord :=
  let matched (key : Str) : Bool := !(filesAt survey.targetFiles key).isEmpty
  let signature := normalizationSignature item.targetRelPath
  let desired := survey.assignment.items.filter fun other =>
    !matched other.targetKey && normalizationSignature other.targetRelPath = signature
  let targets := survey.targetFiles.filter fun record =>
    !(survey.assignment.items.any fun other =>
        other.targetKey = record.key && matched other.targetKey) &&
      normalizationSignature record.relPath = signature
  if matched item.targetKey then none
  else
    match desired, targets with
    | [_], [target] => if item.targetRelPath = target.relPath then none else some target
    | _, _ => none

/-- `required_directory_paths`. -/
def requiredDirectoryPaths : List RelPath :=
  (survey.sourceDirs.filterMap DirRecord.relPath ++
    survey.assignment.items.flatMap fun item => item.targetRelPath.parents).dedup

end Survey

/-- `_blocked_operation`. -/
def blockedOperation [Digest] (kind : OperationKind) (sourceRelPath : Option RelPath)
    (targetRelPath : RelPath) (sourceExpected targetExpected intended : Option FileStat)
    (reason : OperationReason) (blockedReason : BlockedReason)
    (dependency : Option PlanOperation) : PlanOperation where
  opId := deterministicOperationId kind sourceRelPath targetRelPath none reason
  kind := kind
  sourceRelPath := sourceRelPath
  targetRelPath := targetRelPath
  sourceExpected := sourceExpected
  targetExpected := targetExpected
  intended := intended
  metadata := intended.map FileStat.metadata
  dependencies := (dependency.map PlanOperation.opId).toList
  reason := reason
  blockedReason := some blockedReason
  dependencies_nodup := by cases dependency <;> simp

/-! ## Directories to create -/

/-- `created_directories`: the operations by directory key. -/
abbrev Created := Dict Str PlanOperation

/-- `_nearest_created_parent`. -/
def nearestCreatedParent (path : RelPath) (created : Created) : Option PlanOperation :=
  path.parents.findSome? fun parent => created.get? parent.key

/-- The operation for a required directory that the target does not have. -/
def Survey.mkdirOperation [Digest] (survey : Survey) (created : Created)
    (directoryPath : RelPath) : PlanOperation :=
  let existingFiles := filesAt survey.targetFiles directoryPath.key
  let candidates := directoriesAt survey.sourceDirs directoryPath.key
  let sourceDirectory :=
    match candidates with
    | [only] => some only
    | _ => none
  let parentOperation := nearestCreatedParent directoryPath created
  let targetExpected :=
    match existingFiles with
    | [only] => some only.stat
    | _ => none
  let collision (sourceRelPath : RelPath) (directory : Option DirRecord) :=
    blockedOperation .mkdir (some sourceRelPath) directoryPath (directory.map DirRecord.stat)
      targetExpected (directory.map DirRecord.stat)
      (if existingFiles.isEmpty then .policyCollision else .typeCollision)
      (if existingFiles.isEmpty then .destinationCollision else .typeCollision) parentOperation
  match sourceDirectory with
  | none => collision directoryPath none
  | some directory =>
      let sourceRelPath := directory.relPath.getD directoryPath
      if existingFiles.isEmpty then
        { opId := deterministicOperationId .mkdir (some sourceRelPath) directoryPath none
            .requiredDirectory
          kind := .mkdir
          sourceRelPath := some sourceRelPath
          targetRelPath := directoryPath
          sourceExpected := some directory.stat
          targetExpected := none
          intended := some directory.stat
          metadata := some directory.metadata
          dependencies := (parentOperation.map PlanOperation.opId).toList
          reason := .requiredDirectory
          dependencies_nodup := by cases parentOperation <;> simp }
      else collision sourceRelPath (some directory)

/-- The loop over the required directories. -/
def Survey.mkdirLoop [Digest] (survey : Survey) :
    List RelPath → Created → List PlanOperation × Created
  | [], created => ([], created)
  | path :: rest, created =>
      if (directoriesAt survey.targetDirs path.key).isEmpty then
        let operation := survey.mkdirOperation created path
        let (operations, created) := survey.mkdirLoop rest (created.set path.key operation)
        (operation :: operations, created)
      else survey.mkdirLoop rest created

/-- `mkdir_operations` and `created_directories`. -/
def Survey.mkdirs [Digest] (survey : Survey) : List PlanOperation × Created :=
  survey.mkdirLoop
    (sortedBy (fun path => toLex (path.depth, recordKey path)) survey.requiredDirectoryPaths) .empty

/-! ## Content -/

/-- What one assigned file adds to the plan. -/
structure ContentStep where
  operation : PlanOperation
  claimedTargetKey : Option Str := none
  movedFromKey : Option Str := none

/-- `_move_pair`. -/
def Survey.movePair (survey : Survey) (record : FileRecord) (desiredKey : Str) :
    Option (MappingPair × FileRecord) :=
  match record.fileIdentity, survey.source.volumeId, survey.target.volumeId with
  | some identity, some sourceVolume, some targetVolume =>
      let correspondence := survey.correspondence
      if record.nlink ≠ 1 ∨ survey.source.profile.stableFileIdentity = false ∨
          survey.target.profile.stableFileIdentity = false ∨
          correspondence.sourceVolumeId ≠ some sourceVolume ∨
          correspondence.targetVolumeId ≠ some targetVolume ∨
          identity.volumeSerial ≠ sourceVolume.serial ∨
          identityCount survey.sourceFiles identity ≠ 1 ∨
          identity ∈ correspondence.disqualifiedSourceIdentities ∨
          record.key ∈ correspondence.ambiguousSourceKeys then none
      else
        match correspondence.pairs.filter (·.sourceIdentity = identity) with
        | [pair] =>
            if pair.targetKey = desiredKey ∨
                ∃ item ∈ survey.assignment.items, item.targetKey = pair.targetKey then none
            else
              match filesAt survey.targetFiles pair.targetKey with
              | [oldTarget] =>
                  match oldTarget.fileIdentity with
                  | none => none
                  | some oldIdentity =>
                      if oldTarget.nlink ≠ 1 ∨ oldIdentity.volumeSerial ≠ targetVolume.serial ∨
                          identityCount survey.targetFiles oldIdentity ≠ 1 ∨
                          oldIdentity ∈ correspondence.disqualifiedTargetIdentities ∨
                          (∃ expected ∈ pair.targetIdentity, oldIdentity ≠ expected) then none
                      else some (pair, oldTarget)
              | _ => none
        | _ => none
  | _, _, _ => none

/-- The branch of the loop for a target file at the desired key, or paired
with it by normalization. -/
def Survey.matchedStep [Digest] (survey : Survey) (item : DestinationAssignment)
    (source target : FileRecord) (normalizationMismatch : Bool)
    (dependency : Option PlanOperation) : ContentStep :=
  let same := metadataEqual source.stat target.stat survey.granularity
  let kind := if same then OperationKind.noop else .update
  let finish (kind : OperationKind) (targetPath : RelPath) (prior : Option FileRecord)
      (intended : FileStat) (reason : OperationReason) : ContentStep :=
    { operation :=
        { opId := deterministicOperationId kind (some source.relPath) targetPath
            (prior.map FileRecord.relPath) reason
          kind := kind
          sourceRelPath := some source.relPath
          targetRelPath := targetPath
          sourceExpected := some source.stat
          targetExpected := some target.stat
          intended := some intended
          priorTargetRelPath := prior.map FileRecord.relPath
          priorTargetExpected := prior.map FileRecord.stat
          metadata := some intended.metadata
          contentBytes := if kind = .update then source.size else 0
          dependencies := (dependency.map PlanOperation.opId).toList
          reason := reason
          dependencies_nodup := by cases dependency <;> simp }
      claimedTargetKey := some target.key }
  if normalizationMismatch then
    finish kind target.relPath none source.stat .unicodeNormalizationMismatch
  else if item.targetRelPath ≠ target.relPath then
    if survey.options.propagateSourceCasing && item.targetRelPath.name ≠ target.relPath.name then
      let targetPath := target.relPath.withName item.targetRelPath
      if same then finish .recase targetPath (some target) target.stat .caseMismatch
      else finish kind targetPath none source.stat .caseMismatch
    else finish kind target.relPath none source.stat .caseMismatch
  else
    finish kind item.targetRelPath none source.stat
      (if same then .metadataMatch else .metadataChanged)

/-- The branch of the loop for a source file without a target counterpart. -/
def Survey.unmatchedStep [Digest] (survey : Survey) (item : DestinationAssignment)
    (source : FileRecord) (dependency : Option PlanOperation) : ContentStep :=
  match survey.movePair source item.targetKey with
  | some (pair, oldTarget) =>
      let same := metadataEqual source.stat oldTarget.stat survey.granularity
      let kind := if same then OperationKind.move else .moveUpdate
      let reason := if same then OperationReason.identityRename else .identityRenameChanged
      { operation :=
          { opId := deterministicOperationId kind (some source.relPath) item.targetRelPath
              (some pair.targetRelPath) reason
            kind := kind
            sourceRelPath := some source.relPath
            targetRelPath := item.targetRelPath
            sourceExpected := some source.stat
            targetExpected := none
            intended := some source.stat
            priorTargetRelPath := some pair.targetRelPath
            priorTargetExpected := some oldTarget.stat
            metadata := some source.metadata
            contentBytes := if same then 0 else source.size
            dependencies := (dependency.map PlanOperation.opId).toList
            reason := reason
            dependencies_nodup := by cases dependency <;> simp }
        claimedTargetKey := some item.targetKey
        movedFromKey := some pair.targetKey }
  | none =>
      { operation :=
          { opId := deterministicOperationId .copy (some source.relPath) item.targetRelPath none
              .sourceOnly
            kind := .copy
            sourceRelPath := some source.relPath
            targetRelPath := item.targetRelPath
            sourceExpected := some source.stat
            targetExpected := none
            intended := some source.stat
            metadata := some source.metadata
            contentBytes := source.size
            dependencies := (dependency.map PlanOperation.opId).toList
            reason := .sourceOnly
            dependencies_nodup := by cases dependency <;> simp }
        claimedTargetKey := some item.targetKey }

/-- The body of the loop over the assigned files.  `source_files_by_key` has
the item's source: `_validate_assignment` has seen to that. -/
def Survey.contentStep [Digest] (survey : Survey) (created : Created)
    (item : DestinationAssignment) : Option ContentStep :=
  let sourceValues := filesAt survey.sourceFiles item.sourceKey
  match sourceValues with
  | [] => none
  | source :: _ =>
      let direct := filesAt survey.targetFiles item.targetKey
      let normalizationTarget := survey.normalizationPair item
      let normalizationMismatch := direct.isEmpty && normalizationTarget.isSome
      let targetValues := if normalizationMismatch then normalizationTarget.toList else direct
      let targetDirectories := directoriesAt survey.targetDirs item.targetKey
      let parentOperation := nearestCreatedParent item.targetRelPath created
      let collision := 1 < (survey.assignedTo item.targetKey).length || item.conflict.isSome
      let caseCollision := 1 < sourceValues.length || 1 < targetValues.length
      let blocked (targetExpected : Option FileStat) (reason : OperationReason)
          (blockedReason : BlockedReason) : PlanOperation :=
        blockedOperation .copy (some source.relPath) item.targetRelPath (some source.stat)
          targetExpected (some source.stat) reason blockedReason parentOperation
      some <|
        if caseCollision || collision then
          { operation :=
              blocked
                (match targetValues with
                  | [only] => some only.stat
                  | _ => none)
                (if caseCollision then .caseCollision else .policyCollision)
                (if caseCollision then .caseCollision else .destinationCollision)
            claimedTargetKey := some item.targetKey }
        else if !targetDirectories.isEmpty then
          { operation :=
              blocked
                (match targetDirectories with
                  | [only] => some only.stat
                  | _ => none)
                .typeCollision .typeCollision
            claimedTargetKey := some item.targetKey }
        else if parentOperation.any PlanOperation.blocked then
          { operation := blocked none .sourceOnly .blockedDependency }
        else
          match targetValues with
          | target :: _ =>
              survey.matchedStep item source target normalizationMismatch parentOperation
          | [] => survey.unmatchedStep item source parentOperation

/-- `content_operations` with what each claims. -/
def Survey.contentSteps [Digest] (survey : Survey) (created : Created) : List ContentStep :=
  (sortedBy (fun item => toLex (item.targetKey,
      toLex (item.targetRelPath.text, item.sourceRelPath.text))) survey.assignment.items).filterMap
    (survey.contentStep created)

/-! ## Removals -/

def Survey.removalOperation [Digest] (kind : OperationKind) (record : FileRecord) :
    PlanOperation where
  opId := deterministicOperationId kind none record.relPath none .targetOnly
  kind := kind
  sourceRelPath := none
  targetRelPath := record.relPath
  sourceExpected := none
  targetExpected := some record.stat
  intended := none
  reason := .targetOnly

/-- `removal_operations`. -/
def Survey.removals [Digest] (survey : Survey) (claimed movedFrom : List Str) :
    List PlanOperation :=
  match survey.options.deletionPolicy with
  | .additive => []
  | policy =>
      (survey.targetFiles.filter fun record =>
          decide (record.key ∉ claimed) && decide (record.key ∉ movedFrom)).map
        (Survey.removalOperation (if policy = .trash then .trash else .delete))

/-- `blocked_operations`: the unsupported paths of both sides. -/
def Survey.unsupportedOperations [Digest] (survey : Survey) : List PlanOperation :=
  let visible := (survey.source.unsupported ++ survey.target.unsupported).filter
    fun record => !survey.options.filters.excludes record.relPath
  (sortedBy recordKey (visible.map UnsupportedRecord.relPath).dedup).map fun path =>
    blockedOperation .noop (some path) path none none none .unsupported .unsupported none

/-! ## Directory cleanup -/

/-- Whether the cleanup loop leaves a target directory alone, given the keys
it has cleaned up so far. -/
def Survey.keepsDirectory (survey : Survey) (removedFileKeys : List Str)
    (cleaned : Dict Str PlanOperation) (directory : RelPath) : Bool :=
  let desired := survey.requiredDirectoryPaths.map RelPath.key
  let filters := survey.options.filters
  let paths := survey.target.files.map FileRecord.relPath ++
    survey.target.directories.filterMap DirRecord.relPath
  let excludedChild := paths.any fun path =>
    decide (path ≠ directory) && isBelow path.key directory.key && filters.excludes path
  let unsupportedChild := survey.target.unsupported.any fun record =>
    isBelow record.key directory.key
  let remainingFile := survey.target.files.any fun record =>
    isBelow record.key directory.key && decide (record.key ∉ removedFileKeys)
  let remainingDirectory := (survey.targetDirs.filterMap DirRecord.relPath).any fun child =>
    decide (child.parent = some directory) && !cleaned.contains child.key &&
      decide (child.key ∉ desired)
  survey.options.deletionPolicy = .additive || directory.key ∈ desired ||
    filters.excludes directory || excludedChild || unsupportedChild || remainingFile ||
    remainingDirectory

/-- `removal_by_path`: the operation that takes a file away, by its path. -/
def removalByPath (operations : List PlanOperation) : Dict RelPath PlanOperation :=
  operations.foldl
    (fun removals operation =>
      operation.destructivePaths.foldl (fun removals path => removals.set path operation) removals)
    .empty

def Survey.cleanupOperation [Digest] (removals : Dict RelPath PlanOperation)
    (cleaned : Dict Str PlanOperation) (directory : DirRecord) (path : RelPath) :
    PlanOperation :=
  let below := (removals.entries.filter fun item =>
    decide (item.1 = path) || isBelow item.1.key path.key).map (·.2.opId)
  let children := (cleaned.values.filter fun cleanup =>
    cleanup.targetRelPath.parent = some path).map PlanOperation.opId
  { opId := deterministicOperationId .delete none path none .directoryCleanup
    kind := .delete
    sourceRelPath := none
    targetRelPath := path
    sourceExpected := none
    targetExpected := some directory.stat
    intended := none
    dependencies := sortedBy id (below ++ children).dedup
    reason := .directoryCleanup
    dependencies_nodup :=
      (List.perm_insertionSort _ _).nodup_iff.2 (List.nodup_dedup _) }

/-- The cleanup loop; `cleaned` is `cleanup_by_key`. -/
def Survey.cleanupLoop [Digest] (survey : Survey) (removedFileKeys : List Str)
    (removals : Dict RelPath PlanOperation) :
    List DirRecord → Dict Str PlanOperation → List PlanOperation
  | [], _ => []
  | directory :: rest, cleaned =>
      match directory.relPath with
      | none => survey.cleanupLoop removedFileKeys removals rest cleaned
      | some path =>
          if survey.keepsDirectory removedFileKeys cleaned path then
            survey.cleanupLoop removedFileKeys removals rest cleaned
          else
            let cleanup := Survey.cleanupOperation removals cleaned directory path
            cleanup ::
              survey.cleanupLoop removedFileKeys removals rest (cleaned.set path.key cleanup)

/-- The order of the cleanup loop: deepest first. -/
def cleanupKey (record : DirRecord) : Int ×ₗ (Str ×ₗ Str) :=
  toLex (-((record.relPath.map RelPath.depth).getD 0 : Nat),
    toLex (record.key, record.relPath.text))

/-! ## `plan` -/

/-- The operations of the plan, in order. -/
def Survey.operations [Digest] (survey : Survey) : List PlanOperation :=
  let (mkdirs, created) := survey.mkdirs
  let steps := survey.contentSteps created
  let content := steps.map ContentStep.operation
  let movedFrom := steps.filterMap ContentStep.movedFromKey
  let removals := survey.removals (steps.filterMap ContentStep.claimedTargetKey) movedFrom
  let cleanups := survey.cleanupLoop (movedFrom ++ removals.map PlanOperation.targetKey)
    (removalByPath (content ++ removals)) (sortedBy cleanupKey survey.targetDirs) .empty
  mkdirs ++ content ++ removals ++ survey.unsupportedOperations ++ cleanups

/-- `plan`. -/
def plan [Digest] (source target : ScanResult) (correspondence : MappingSnapshot)
    (options : SyncOptions) (scope : Scope) : Except PlanError Plan :=
  if scope ≠ .everything then .error .scopeNotImplemented
  else
    let survey := survey source target correspondence options
    match survey.validateAssignment with
    | some error => .error error
    | none =>
        match hchecked : checkOperations [] survey.operations with
        | some error => .error error
        | none =>
            .ok
              { sourceRoot := source.root
                targetRoot := target.root
                sourceVolumeId := source.volumeId
                targetVolumeId := target.volumeId
                sourceVolumeEvidence := source.volumeEvidence
                targetVolumeEvidence := target.volumeEvidence
                sourceProfile := source.profile
                targetProfile := target.profile
                sourceComplete := source.complete && source.isFullScan
                targetComplete := target.complete && target.isFullScan
                operations := survey.operations
                assignment := survey.assignment
                preservation := options.preservation
                filterSnapshot := options.filters
                deletionPolicy := options.deletionPolicy
                trashOnUpdate := options.trashOnUpdate
                policyFingerprint := policyFingerprint options
                workerCount := options.workerCount
                requiredVolumes := (source.volumeId.toList ++ target.volumeId.toList).dedup
                requiredBytes := calculateRequiredBytes survey.operations target.profile
                  options.trashOnUpdate
                checked := hchecked }

end Planner

end NamiSync
