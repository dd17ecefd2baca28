/-
# `Modules.Observation` — what is looked at before an execution

`observe` of `modules/preflight.py` over its two collaborators, and the
paths it asks them about.  Only the remaining operations are observed.  The
run id of an execution set is an argument here, an exception of a
collaborator is its text, and the time of the observation is left out.

Subjects are dictionary keys, so two spellings of one path are one subject.
The parents are a set of *texts*: two spellings of one directory are two.

## What is not here

What the two collaborators do: an observation is made over any
`ObservationFileSystem` and any `SettingsReader`, which answer or raise.  The
one that reads a real tree is `localObservationFileSystem` of
`Modules.OrphanedTemps`, as far as the credit for temps needs it.
-/
import NamiSync.Modules.Preflight

namespace NamiSync

/-- The part of `ObservationFileSystem` that `observe` uses. -/
structure ObservationFileSystem [Unicode] where
  stat : Root → Str → CapabilityProfile → Except Str StatObservation
  observeRoot : Root → Except Str RootObservation
  freeSpace : Root → Except Str Nat
  reclaimableTempBytes : Root → List RootedPath → Str → Except Str Nat
  observeTrash : Root → Option VolumeId → Except Str TrashObservation

/-- `SettingsReader`. -/
structure SettingsReader [Unicode] where
  readFilters : Except Str FilterSet
  readPolicyFingerprint : Except Str Fingerprint

/-- `ObservedWorld` with the parents it was made for, which the judgment
does not read. -/
structure ScopedWorld [Unicode] extends ObservedWorld where
  targetParentPaths : List RootedPath

section Subjects

variable [Unicode]

/-- The two sets that `_operation_subjects` fills. -/
structure Subjects where
  subjects : Dict Subject (Root × Str × CapabilityProfile) := .empty
  targetParents : List RootedPath := []

/-- A source path of an operation. -/
def Subjects.addSource (plan : Plan) (state : Subjects) (path : RelPath) : Subjects :=
  { state with
    subjects := state.subjects.set (plan.sourceSubject path)
      (plan.sourceRoot, path.text, plan.sourceProfile) }

/-- A target path of an operation, and its parent. -/
def Subjects.addTarget (plan : Plan) (state : Subjects) (path : RelPath) : Subjects :=
  let subjects := state.subjects.set (plan.targetSubject path)
    (plan.targetRoot, path.text, plan.targetProfile)
  { subjects :=
      match path.parent with
      | none => subjects
      | some parent => subjects.setDefault (plan.targetSubject parent)
          (plan.targetRoot, parent.text, plan.targetProfile)
    targetParents := state.targetParents.insert path.parent }

/-- The body of the loop of `_operation_subjects`. -/
def Subjects.addOperation (plan : Plan) (state : Subjects) (operation : PlanOperation) :
    Subjects :=
  let state :=
    match operation.sourceRelPath with
    | none => state
    | some path => state.addSource plan path
  let state := state.addTarget plan operation.targetRelPath
  match operation.priorTargetRelPath with
  | none => state
  | some path => state.addTarget plan path

/-- `_operation_subjects`. -/
def operationSubjects (xset : ExecutionSet) : Subjects :=
  xset.remaining.foldl (Subjects.addOperation xset.plan) {}

/-- `except (OSError, ...) as error`. -/
def orElse {α : Type} (result : Except Str α) (fallback : Str → α) : α :=
  match result with
  | .ok value => value
  | .error error => fallback error

/-- `observe`. -/
def observe (xset : ExecutionSet) (fs : ObservationFileSystem) (settings : SettingsReader)
    (runId : Str) : ScopedWorld :=
  let plan := xset.plan
  let scope := operationSubjects xset
  let entries := sortedBy (fun entry => toLex (entry.1.rootId, entry.1.relPathKey))
    scope.subjects.entries
  let observeRoot (root : Root) : RootObservation :=
    orElse (fs.observeRoot root) fun error =>
      { resolvedPath := none, volumeId := none, volumeEvidence := none, error := some error }
  let current : FilterSet × Fingerprint × Option Str :=
    orElse
      (do
        let filters ← settings.readFilters
        let fingerprint ← settings.readPolicyFingerprint
        return (filters, fingerprint, none))
      fun error => (plan.filterSnapshot, plan.policyFingerprint, some error)
  { stats := entries.foldl (fun stats entry =>
        stats.set entry.1 (orElse (fs.stat entry.2.1 entry.2.2.1 entry.2.2.2) fun error =>
          { stat := none, error := some error })) .empty
    paths := entries.foldl (fun paths entry => paths.set entry.1 entry.2.2.1) .empty
    roots := (Dict.empty.set plan.sourceRoot.rootId (observeRoot plan.sourceRoot)).set
      plan.targetRoot.rootId (observeRoot plan.targetRoot)
    freeSpace := (fs.freeSpace plan.targetRoot).toOption
    reclaimableTempBytes :=
      orElse (fs.reclaimableTempBytes plan.targetRoot scope.targetParents runId) fun _ => 0
    trash :=
      if xset.needsTrash then
        some (orElse (fs.observeTrash plan.targetRoot plan.targetVolumeId) fun error =>
          { resolvedPath := none, available := false, contained := false, sameVolume := false,
            writable := false, reparseSafe := false, error := some error })
      else none
    currentFilters := current.1
    currentPolicyFingerprint := current.2.1
    settingsError := current.2.2
    targetParentPaths := scope.targetParents }

/-! ## The parents -/

theorem nodup_addOperation {plan : Plan} {state : Subjects} (operation : PlanOperation)
    (h : state.targetParents.Nodup) : (state.addOperation plan operation).targetParents.Nodup := by
  have htarget : ∀ {state : Subjects} (path : RelPath), state.targetParents.Nodup →
      (state.addTarget plan path).targetParents.Nodup := fun path h => h.insert
  unfold Subjects.addOperation
  cases operation.sourceRelPath <;> cases operation.priorTargetRelPath
  · exact htarget _ h
  · exact htarget _ (htarget _ h)
  · exact htarget _ h
  · exact htarget _ (htarget _ h)

theorem nodup_targetParents (xset : ExecutionSet) :
    (operationSubjects xset).targetParents.Nodup := by
  have hfold : ∀ (operations : List PlanOperation) (state : Subjects),
      state.targetParents.Nodup →
      (operations.foldl (Subjects.addOperation xset.plan) state).targetParents.Nodup := by
    intro operations
    induction operations with
    | nil => exact fun _ h => h
    | cons operation rest ih => exact fun state h => ih _ (nodup_addOperation operation h)
  exact hfold _ _ List.nodup_nil

end Subjects

end NamiSync
