/-
# `Core.Planning` — operations, policies and the plan

`core/planning.py`: what an operation says, the policies a plan is made
under, the quarantine around blocked correspondence, and the plan record,
whose `__post_init__` (distinct ids, dependencies first) is a field.

## The quarantine

A blocked operation keeps its target, and everything at, above and below it,
out of what may be taken away.  `quarantined_of_blocked_target` is the one fact
that the results about deletions use.

`Plan` carries that its ids are distinct and that dependencies come first, so
`Plan.eq_of_opId` and `Plan.dependency_known` need no hypothesis.
-/
import NamiSync.Core.Models

namespace NamiSync

/-- 32 lowercase hexadecimal digits, which compare as the number they write. -/
abbrev OpId := Fin (16 ^ 32)

instance opId_neZero : NeZero (16 ^ 32) := ⟨by decide⟩

instance opId_lawful : LawfulBEq OpId := inferInstance

/-- `str(op_id)`. -/
def OpId.text (id : OpId) : Str := hexDigits 32 id

/-- `str(op_id)` as the id of an item. -/
def OpId.itemId (id : OpId) : String := render id.text

theorem OpId.itemId_inj {a b : OpId} (h : a.itemId = b.itemId) : a = b :=
  Fin.val_injective (hexDigits_inj a.isLt b.isLt
    (render_inj (fun _ => hexDigits_lt) (fun _ => hexDigits_lt) h))

/-- A `sha256(...).hexdigest()`. -/
abbrev Fingerprint := Str

inductive DeletionPolicy
  | trash | additive | mirror
  deriving DecidableEq, Repr

inductive OperationKind
  | copy | update | move | moveUpdate | recase | mkdir | trash | delete | noop
  deriving DecidableEq, Repr

inductive OperationReason
  | sourceOnly | metadataChanged | metadataMatch | identityRename | identityRenameChanged
  | requiredDirectory | emptyDirectory | targetOnly | directoryCleanup | unsupported
  | caseMismatch | unicodeNormalizationMismatch | caseCollision | typeCollision
  | policyCollision
  deriving DecidableEq, Repr

inductive BlockedReason
  | unsupported | caseMismatch | caseCollision | typeCollision | destinationCollision
  | blockedDependency
  deriving DecidableEq, Repr

/-- `blocked_reason.value`. -/
def BlockedReason.value : BlockedReason → Str
  | unsupported => str "unsupported"
  | caseMismatch => str "case_mismatch"
  | caseCollision => str "case_collision"
  | typeCollision => str "type_collision"
  | destinationCollision => str "destination_collision"
  | blockedDependency => str "blocked_dependency"

structure PreservationPolicy where
  preserveAds : Bool := false
  preserveCreated : Bool := true
  preserveAcl : Bool := false
  deriving DecidableEq

/-- The name and version under which a policy is fingerprinted. -/
structure PolicyName where
  name : Str
  version : Str
  deriving DecidableEq

inductive Scope
  | everything
  | pattern (value : Str)
  | explicit (candidateIds : List Str)
  | recordedRun (token : Str)
  deriving DecidableEq

theorem noPatterns_sorted : ([] : List Str).Pairwise (· < ·) := List.Pairwise.nil

theorem noPatterns_no_slash : ∀ pattern ∈ ([] : List Str), slash ∉ pattern := by decide

section Filters

variable [Unicode]

/-- `FilterSet`, its patterns sorted, distinct and spelled with `\`. -/
structure FilterSet where
  patterns : List Str := []
  sorted : patterns.Pairwise (· < ·) := by first | exact noPatterns_sorted | decide
  no_slash : ∀ pattern ∈ patterns, slash ∉ pattern := by
    first | exact noPatterns_no_slash | decide

/-- `FilterSet.excludes`: a path is out when a pattern matches its key or
the key of one of its parents. -/
def FilterSet.excludes (filters : FilterSet) (relPath : RelPath) : Bool :=
  let candidateKeys := relPath.key :: relPath.parents.map RelPath.key
  filters.patterns.any fun pattern =>
    candidateKeys.any fun candidate => fnmatchcase candidate (uppercaseOneCodepoint pattern)

theorem FilterSet.excludes_congr (filters : FilterSet) {p q : RelPath} (h : p.key = q.key) :
    filters.excludes p = filters.excludes q := by
  unfold FilterSet.excludes
  rw [h, RelPath.map_key_parents h]

/-- A path that is not filtered out is in a folder that is not. -/
theorem FilterSet.excludes_parent (filters : FilterSet) {path parent : RelPath}
    (h : filters.excludes path = false) (hparent : parent ∈ path.parents) :
    filters.excludes parent = false := by
  unfold FilterSet.excludes at h ⊢
  simp only [List.any_eq_false] at h ⊢
  intro pattern hpattern hany
  obtain ⟨candidate, hcandidate, hmatch⟩ := List.any_eq_true.1 hany
  refine h pattern hpattern (List.any_eq_true.2 ⟨candidate, List.mem_cons_of_mem _ ?_, hmatch⟩)
  rcases List.mem_cons.1 hcandidate with rfl | hcandidate
  · exact List.mem_map_of_mem hparent
  · obtain ⟨above, habove, rfl⟩ := List.mem_map.1 hcandidate
    exact List.mem_map_of_mem (RelPath.parents_trans hparent habove)

end Filters

theorem trash_authorized : DeletionPolicy.trash = .mirror → false = true := by decide

section Destinations

variable [Unicode]

structure DestinationAssignment where
  sourceRelPath : RelPath
  targetRelPath : RelPath
  groupId : Option Str := none
  conflict : Option Str := none
  deriving DecidableEq

abbrev DestinationAssignment.sourceKey (item : DestinationAssignment) : Str :=
  item.sourceRelPath.key

abbrev DestinationAssignment.targetKey (item : DestinationAssignment) : Str :=
  item.targetRelPath.key

structure Assignment where
  policy : PolicyName
  items : List DestinationAssignment

/-- `DestinationPolicy`; the planner always passes an empty `meta`. -/
structure DestinationPolicy where
  policy : PolicyName
  assign : List FileRecord → ScanResult → Assignment

/-- `IdentityDestinationPolicy`. -/
def identityDestinationPolicy : DestinationPolicy where
  policy := ⟨str "identity", str "1"⟩
  assign records _ :=
    { policy := ⟨str "identity", str "1"⟩
      items := (sortedBy (fun record => recordKey record.relPath) records).map fun record =>
        { sourceRelPath := record.relPath, targetRelPath := record.relPath } }

structure SyncOptions where
  deletionPolicy : DeletionPolicy := .trash
  preservation : PreservationPolicy := {}
  filters : FilterSet := {}
  destinationPolicy : DestinationPolicy := identityDestinationPolicy
  workerCount : Nat := 1
  trashOnUpdate : Bool := true
  propagateSourceCasing : Bool := false
  internalMirrorAuthorized : Bool := false
  workerCount_pos : 0 < workerCount := by first | exact Nat.one_pos | decide
  mirror_authorized : deletionPolicy = .mirror → internalMirrorAuthorized = true := by
    first | exact trash_authorized | decide

structure MappingPair where
  sourceRelPathKey : Str
  targetRelPath : RelPath
  sourceIdentity : FileIdentity
  targetIdentity : Option FileIdentity
  deriving DecidableEq

abbrev MappingPair.targetKey (pair : MappingPair) : Str := pair.targetRelPath.key

structure MappingSnapshot where
  sourceVolumeId : Option VolumeId := none
  targetVolumeId : Option VolumeId := none
  pairs : List MappingPair := []
  ambiguousSourceKeys : List Str := []
  disqualifiedSourceIdentities : List FileIdentity := []
  disqualifiedTargetIdentities : List FileIdentity := []
  deriving DecidableEq

end Destinations

section Operations

variable [Unicode]

structure PlanOperation where
  opId : OpId
  kind : OperationKind
  sourceRelPath : Option RelPath
  targetRelPath : RelPath
  sourceExpected : Option FileStat
  targetExpected : Option FileStat
  intended : Option FileStat
  priorTargetRelPath : Option RelPath := none
  priorTargetExpected : Option FileStat := none
  metadata : Option MetadataSnapshot := none
  contentBytes : Nat := 0
  dependencies : List OpId := []
  reason : OperationReason := .sourceOnly
  blockedReason : Option BlockedReason := none
  dependencies_nodup : dependencies.Nodup := by first | exact List.nodup_nil | simp
  deriving DecidableEq

namespace PlanOperation

def blocked (operation : PlanOperation) : Bool := operation.blockedReason.isSome

abbrev targetKey (operation : PlanOperation) : Str := operation.targetRelPath.key

end PlanOperation

/-- The hash functions of the plan.  `operation` is the first 32 digits of
the SHA-256 of the canonical JSON of an intent, `policy` the SHA-256 of that
of a policy payload. -/
class Digest where
  operation : OperationKind → Option Str → Str → Option Str → OperationReason → OpId
  policy : DeletionPolicy → PreservationPolicy → List Str → PolicyName → Nat → Bool → Bool →
    Fingerprint

/-- `deterministic_operation_id`. -/
def deterministicOperationId [Digest] (kind : OperationKind) (sourceRelPath : Option RelPath)
    (targetRelPath : RelPath) (priorTargetRelPath : Option RelPath) (reason : OperationReason) :
    OpId :=
  Digest.operation kind (sourceRelPath.map RelPath.text) targetRelPath.text
    (priorTargetRelPath.map RelPath.text) reason

/-- `policy_fingerprint`. -/
def policyFingerprint [Digest] (options : SyncOptions) : Fingerprint :=
  Digest.policy options.deletionPolicy options.preservation options.filters.patterns
    options.destinationPolicy.policy options.workerCount options.trashOnUpdate
    options.propagateSourceCasing

/-- `calculate_required_bytes`. -/
def calculateRequiredBytes (operations : List PlanOperation) (targetProfile : CapabilityProfile)
    (trashOnUpdate : Bool) : Nat :=
  (operations.map fun operation =>
    if operation.blocked then 0
    else
      (if operation.kind ∈ [.copy, .update, .moveUpdate] then operation.contentBytes else 0) +
      (if trashOnUpdate && !targetProfile.supportsHardlinks &&
          operation.kind ∈ [.update, .moveUpdate] then
        match operation.targetExpected.or operation.priorTargetExpected with
        | some displaced => displaced.size
        | none => 0
      else 0)).sum

/-- What `plan` raises. -/
inductive PlanError
  | scopeNotImplemented | unknownSource | sourceAssignedTwice | sourceUnassigned
  | duplicateOperationId | notDependencyOrdered
  deriving DecidableEq, Repr

/-- The loop of `Plan.__post_init__` over the operations. -/
def checkOperations (knownIds : List OpId) : List PlanOperation → Option PlanError
  | [] => none
  | operation :: rest =>
      if operation.opId ∈ knownIds then some .duplicateOperationId
      else if operation.dependencies.any (fun dependency => decide (dependency ∉ knownIds)) then
        some .notDependencyOrdered
      else checkOperations (operation.opId :: knownIds) rest

theorem checkOperations_cons {knownIds : List OpId} {operation : PlanOperation}
    {rest : List PlanOperation} :
    checkOperations knownIds (operation :: rest) = none ↔
      operation.opId ∉ knownIds ∧ (∀ dependency ∈ operation.dependencies, dependency ∈ knownIds) ∧
        checkOperations (operation.opId :: knownIds) rest = none := by
  rw [checkOperations]
  split
  · next h => simp [h]
  · next h =>
      split
      · next hdep =>
          obtain ⟨dependency, hmem, hnot⟩ := List.any_eq_true.1 hdep
          constructor
          · intro hnone
            exact absurd hnone (by simp)
          · rintro ⟨_, hall, _⟩
            exact absurd (hall dependency hmem) (of_decide_eq_true hnot)
      · next hdep =>
          have hall : ∀ dependency ∈ operation.dependencies, dependency ∈ knownIds := by
            simpa using hdep
          exact ⟨fun hrest => ⟨h, hall, hrest⟩, fun hboth => hboth.2.2⟩

theorem nodup_of_checkOperations {knownIds : List OpId} {operations : List PlanOperation}
    (h : checkOperations knownIds operations = none) :
    (operations.map PlanOperation.opId).Nodup ∧
      ∀ operation ∈ operations, operation.opId ∉ knownIds := by
  induction operations generalizing knownIds with
  | nil => simp
  | cons operation rest ih =>
      obtain ⟨hfresh, _, hrest⟩ := checkOperations_cons.1 h
      obtain ⟨hnodup, hnot⟩ := ih hrest
      constructor
      · rw [List.map_cons, List.nodup_cons]
        refine ⟨?_, hnodup⟩
        intro hmem
        obtain ⟨other, hother, hid⟩ := List.mem_map.1 hmem
        exact hnot other hother (by rw [hid]; exact List.mem_cons_self)
      · intro other hother
        rcases List.mem_cons.1 hother with rfl | hother
        · exact hfresh
        · intro hknown
          exact hnot other hother (List.mem_cons_of_mem _ hknown)

theorem known_of_checkOperations {knownIds : List OpId} {operations : List PlanOperation}
    (h : checkOperations knownIds operations = none) {operation : PlanOperation}
    (hmem : operation ∈ operations) {dependency : OpId}
    (hdep : dependency ∈ operation.dependencies) :
    dependency ∈ knownIds ∨ dependency ∈ operations.map PlanOperation.opId := by
  induction operations generalizing knownIds with
  | nil => exact absurd hmem List.not_mem_nil
  | cons first rest ih =>
      obtain ⟨_, hknown, hrest⟩ := checkOperations_cons.1 h
      rcases List.mem_cons.1 hmem with rfl | hmem
      · exact Or.inl (hknown dependency hdep)
      · rcases ih hrest hmem with hin | hin
        · rcases List.mem_cons.1 hin with rfl | hin
          · exact Or.inr List.mem_cons_self
          · exact Or.inl hin
        · exact Or.inr (List.mem_cons_of_mem _ hin)

structure Plan where
  sourceRoot : Root
  targetRoot : Root
  sourceVolumeId : Option VolumeId
  targetVolumeId : Option VolumeId
  sourceVolumeEvidence : Option VolumeEvidence
  targetVolumeEvidence : Option VolumeEvidence
  sourceProfile : CapabilityProfile
  targetProfile : CapabilityProfile
  sourceComplete : Bool
  targetComplete : Bool
  operations : List PlanOperation
  assignment : Assignment
  preservation : PreservationPolicy
  filterSnapshot : FilterSet
  deletionPolicy : DeletionPolicy
  trashOnUpdate : Bool
  policyFingerprint : Fingerprint
  workerCount : Nat
  requiredVolumes : List VolumeId
  requiredBytes : Nat
  checked : checkOperations [] operations = none

/-- In a plan an id names one operation. -/
theorem Plan.eq_of_opId {plan : Plan} {a b : PlanOperation} (ha : a ∈ plan.operations)
    (hb : b ∈ plan.operations) (h : a.opId = b.opId) : a = b :=
  List.inj_on_of_nodup_map (nodup_of_checkOperations plan.checked).1 ha hb h

/-- A dependency is an operation of the plan. -/
theorem Plan.dependency_known {plan : Plan} {operation : PlanOperation}
    (hmem : operation ∈ plan.operations) {dependency : OpId}
    (hdep : dependency ∈ operation.dependencies) :
    dependency ∈ plan.operations.map PlanOperation.opId :=
  (known_of_checkOperations plan.checked hmem hdep).resolve_left List.not_mem_nil

/-! ## Quarantine -/

def insideAnyRegion (path : Str) (regions : List Str) : Bool :=
  regions.any fun region => sameOrDescendant path region

/-- The keys named on the source side by blocked operations. -/
def blockedSourcePaths (operations : List PlanOperation) : List Str :=
  (operations.filter PlanOperation.blocked).filterMap fun operation =>
    operation.sourceRelPath.map RelPath.key

/-- The keys named on the target side by blocked operations. -/
def blockedTargetPaths (operations : List PlanOperation) : List Str :=
  (operations.filter PlanOperation.blocked).flatMap fun operation =>
    operation.targetKey :: (operation.priorTargetRelPath.map RelPath.key).toList

/-- The paths whose present content an operation takes away. -/
def PlanOperation.destructivePaths (operation : PlanOperation) : List RelPath :=
  match operation.kind with
  | .trash | .delete => [operation.targetRelPath]
  | .move | .moveUpdate => operation.priorTargetRelPath.toList
  | _ => []

/-- The loop body of `quarantined_operation_ids`. -/
def PlanOperation.quarantined (operations : List PlanOperation) (operation : PlanOperation) :
    Bool :=
  !operation.blocked &&
    ((operation.sourceRelPath.any fun source =>
        insideAnyRegion source.key (blockedSourcePaths operations)) ||
      insideAnyRegion operation.targetKey (blockedTargetPaths operations) ||
      (operation.priorTargetRelPath.any fun prior =>
        insideAnyRegion prior.key (blockedTargetPaths operations)) ||
      operation.destructivePaths.any fun destructive =>
        (blockedTargetPaths operations).any fun blocked =>
          sameOrDescendant blocked destructive.key)

/-- `quarantined_operation_ids`. -/
def quarantinedOperationIds (operations : List PlanOperation) : List OpId :=
  (operations.filter (PlanOperation.quarantined operations)).map PlanOperation.opId

theorem mem_blockedTargetPaths {operations : List PlanOperation} {operation : PlanOperation}
    (hmem : operation ∈ operations) (hblocked : operation.blocked = true) :
    operation.targetKey ∈ blockedTargetPaths operations :=
  List.mem_flatMap.2 ⟨operation, List.mem_filter.2 ⟨hmem, hblocked⟩, List.mem_cons_self⟩

/-- A nonblocked operation that takes something away at the target of a
blocked one is quarantined. -/
theorem quarantined_of_blocked_target {operations : List PlanOperation}
    {operation blocker : PlanOperation} {path : RelPath} (hfree : operation.blocked = false)
    (hpath : path ∈ operation.destructivePaths) (hmem : blocker ∈ operations)
    (hblocked : blocker.blocked = true) (hkey : blocker.targetKey = path.key) :
    operation.quarantined operations = true := by
  have hregion : (operation.destructivePaths.any fun destructive =>
      (blockedTargetPaths operations).any fun blocked =>
        sameOrDescendant blocked destructive.key) = true :=
    List.any_eq_true.2 ⟨path, hpath, List.any_eq_true.2
      ⟨blocker.targetKey, mem_blockedTargetPaths hmem hblocked, by rw [hkey]; simp⟩⟩
  unfold PlanOperation.quarantined
  rw [hfree, hregion]
  simp

end Operations

end NamiSync
