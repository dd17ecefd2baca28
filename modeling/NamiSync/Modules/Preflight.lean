/-
# `Modules.Preflight` — the judgment before an execution

`preflight` of `modules/preflight.py`: a pure function of an execution set
and an observed world, which collects every refusal.  Each loop or block of
the source that appends refusals is a function that returns what it appends.

## How it is used

`mem_verdict` says where a refusal of a verdict comes from, one disjunct for
each function here, and `judgesPlan_cases` sorts the refusals that concern the
plan and its selection by operation.  `Workflows.SafeSubset` and
`Modules.Drift` need no more than these two.

Refusals are made unique and sorted at the end.  A detail `None` sorts as an
empty text here, where the source would raise a `TypeError` on comparing it
with a text; no collaborator under `src/` produces such a pair.
-/
import NamiSync.Core.Execution
import NamiSync.Core.Preflight
import NamiSync.Lib.Checked

namespace NamiSync

section Judgment

variable [Unicode]

/-- `_paths_overlap`. -/
def pathsOverlap [OsPath] (first second : Str) : Bool :=
  let firstNorm := OsPath.normcase (OsPath.abspath first)
  let secondNorm := OsPath.normcase (OsPath.abspath second)
  match OsPath.commonpath firstNorm secondNorm with
  | none => false
  | some common => OsPath.normcase common ∈ [firstNorm, secondNorm]

/-- The code of an entry that is expected and absent. -/
def absentCode (sourceSubject : Bool) : RefusalCode :=
  if sourceSubject then .sourceDrift else .targetDrift

/-- The comparisons at the end of `_add_stat_refusals`. -/
def matchRefusals (opId : OpId) (subject : Subject) (actual expected : FileStat)
    (granularityNs : Nat) : List Refusal :=
  let refusal code : Refusal := { code := code, opId := some opId, subject := some subject }
  (if actual.kind ≠ expected.kind then [refusal .typeChanged] else []) ++
  (if expected.fileIdentity.isSome ∧ actual.fileIdentity ≠ expected.fileIdentity then
    [refusal .identityChanged] else []) ++
  (if actual.size ≠ expected.size then [refusal .sizeChanged] else []) ++
  (if granularityNs < ((actual.mtimeNs : Int) - expected.mtimeNs).natAbs then
    [refusal .mtimeChanged] else []) ++
  (if actual.metadata ≠ expected.metadata ∨ actual.nlink ≠ expected.nlink then
    [refusal .metadataChanged] else [])

/-- `_add_stat_refusals`. -/
def addStatRefusals (operation : PlanOperation) (subject : Subject)
    (observation : Option StatObservation) (expected : Option FileStat) (sourceSubject : Bool)
    (granularityNs : Nat) : List Refusal :=
  let refusal code : Refusal :=
    { code := code, opId := some operation.opId, subject := some subject }
  match observation with
  | none => [{ refusal .observationUnavailable with detail := some (str "missing observation") }]
  | some observation =>
      match observation.error with
      | some error => [{ refusal .observationUnavailable with detail := some error }]
      | none =>
          (if observation.contained then [] else [refusal .pathEscape]) ++
          (if observation.representable then [] else [refusal .pathUnrepresentable]) ++
          match expected, observation.stat with
          | none, none => []
          | none, some _ => [refusal .destinationAppeared]
          | some _, none =>
              [{ refusal (absentCode sourceSubject) with
                  detail := some (str "expected entry is absent") }]
          | some expected, some actual =>
              matchRefusals operation.opId subject actual expected granularityNs

/-- The loop over the two roots. -/
def rootRefusals (expected : Option VolumeId) (observed : Option RootObservation) :
    List Refusal :=
  match observed with
  | none => [{ code := .rootUnavailable, detail := some (str "missing root observation") }]
  | some observed =>
      if observed.error.isSome ∨ observed.resolvedPath = none then
        [{ code := .rootUnavailable, detail := observed.error }]
      else
        (match observed.volumeEvidence with
          | some evidence =>
              if evidence.cloneAmbiguous then [{ code := .volumeCloneAmbiguous }] else []
          | none => []) ++
        (if expected = none ∨ observed.volumeId ≠ expected then [{ code := .rootChanged }] else [])

/-- Two resolved roots that overlap. -/
def overlapRefusals [OsPath] (source target : Option RootObservation) : List Refusal :=
  match source.bind (·.resolvedPath), target.bind (·.resolvedPath) with
  | some first, some second =>
      if pathsOverlap first second then [{ code := .rootsOverlap }] else []
  | _, _ => []

/-- The filters and options the plan was made under. -/
def settingsRefusals (plan : Plan) (world : ObservedWorld) : List Refusal :=
  (if world.currentFilters.patterns ≠ plan.filterSnapshot.patterns then
    [{ code := .filterDrift }] else []) ++
  (if world.currentPolicyFingerprint ≠ plan.policyFingerprint then
    [{ code := .optionsDrift }] else []) ++
  (match world.settingsError with
    | some error =>
        [{ code := .observationUnavailable,
           detail := some (str "semantic settings unavailable: " ++ error) }]
    | none => [])

/-- What an incomplete scan says against an operation. -/
def scanRefusals (plan : Plan) (operation : PlanOperation) : List Refusal :=
  if operation.kind ∈ [.move, .moveUpdate, .trash, .delete] then
    (if plan.sourceComplete then [] else
      [{ code := .incompleteSourceScan, opId := some operation.opId }]) ++
    (if plan.targetComplete then [] else
      [{ code := .incompleteTargetScan, opId := some operation.opId }])
  else []

/-- A blocked or quarantined operation. -/
def blockedRefusals (plan : Plan) (operation : PlanOperation) : List Refusal :=
  match operation.blockedReason with
  | some reason =>
      [{ code := .operationBlocked, opId := some operation.opId, detail := some reason.value }]
  | none =>
      if operation.opId ∈ quarantinedOperationIds plan.operations then
        [{ code := .blockedCorrespondence, opId := some operation.opId }]
      else []

/-- `unavailable`. -/
def Outcome.unavailable (outcome : Outcome) : Bool :=
  outcome ∈ [.failed, .canceled, .deferred, .blocked]

/-- The body of the loop over the dependencies of an operation. -/
def dependencyRefusals (xset : ExecutionSet) (operation : PlanOperation) (dependency : OpId) :
    List Refusal :=
  let unavailable : Refusal :=
    { code := .dependencyUnavailable, opId := some operation.opId, detail := some dependency.text }
  if dependency ∉ xset.selection then
    [{ code := .selectionNotClosed, opId := some operation.opId, detail := some dependency.text }]
  else
    let dependencyStatus := xset.status.get? dependency
    let dependencyOperation := xset.plan.operations.find? (·.opId = dependency)
    if dependencyStatus.any Outcome.unavailable ∨
        dependencyOperation.any PlanOperation.blocked then [unavailable]
    else if dependencyStatus = none ∧
        dependency ∉ xset.remaining.map PlanOperation.opId then [unavailable]
    else []

def Plan.sourceSubject (plan : Plan) (path : RelPath) : Subject :=
  ⟨plan.sourceRoot.rootId, path.key⟩

def Plan.targetSubject (plan : Plan) (path : RelPath) : Subject :=
  ⟨plan.targetRoot.rootId, path.key⟩

/-- The stats of the source, the target and the prior target. -/
def statRefusals (plan : Plan) (world : ObservedWorld) (operation : PlanOperation) :
    List Refusal :=
  (match operation.sourceRelPath, operation.sourceExpected with
    | some path, some expected =>
        addStatRefusals operation (plan.sourceSubject path)
          (world.stats.get? (plan.sourceSubject path)) (some expected) true
          plan.sourceProfile.mtimeGranularityNs
    | _, _ => []) ++
  addStatRefusals operation (plan.targetSubject operation.targetRelPath)
    (world.stats.get? (plan.targetSubject operation.targetRelPath)) operation.targetExpected false
    plan.targetProfile.mtimeGranularityNs ++
  (match operation.priorTargetRelPath with
    | some path =>
        addStatRefusals operation (plan.targetSubject path)
          (world.stats.get? (plan.targetSubject path)) operation.priorTargetExpected false
          plan.targetProfile.mtimeGranularityNs
    | none => [])

/-- The body of the loop over the remaining operations. -/
def operationRefusals (xset : ExecutionSet) (world : ObservedWorld) (operation : PlanOperation) :
    List Refusal :=
  scanRefusals xset.plan operation ++ blockedRefusals xset.plan operation ++
    operation.dependencies.flatMap (dependencyRefusals xset operation) ++
    statRefusals xset.plan world operation

/-- `direct_target_subjects` after the loop. -/
def directTargetSubjects (xset : ExecutionSet) : List Subject :=
  xset.remaining.flatMap fun operation =>
    xset.plan.targetSubject operation.targetRelPath ::
      (operation.priorTargetRelPath.map xset.plan.targetSubject).toList

/-- `created_directory_keys`. -/
def createdDirectoryKeys (xset : ExecutionSet) : List Str :=
  (xset.remaining.filter (·.kind = .mkdir)).map PlanOperation.targetKey

/-- The body of the loop over `world.paths`; the key of the path is needed
only when the parent is absent. -/
def parentRefusals (xset : ExecutionSet) (world : ObservedWorld) (subject : Subject)
    (relPath : Str) : Except PathValidationError (List Refusal) :=
  if subject.rootId ≠ xset.plan.targetRoot.rootId ∨ subject ∈ directTargetSubjects xset then
    .ok []
  else
    let refusal code : Refusal := { code := code, subject := some subject }
    match world.stats.get? subject with
    | none =>
        .ok [{ refusal .observationUnavailable with
          detail := some (str "missing parent observation") }]
    | some observation =>
        match observation.error with
        | some error => .ok [{ refusal .observationUnavailable with detail := some error }]
        | none =>
            let before :=
              (if observation.contained then [] else [refusal .pathEscape]) ++
              (if observation.representable then [] else [refusal .pathUnrepresentable])
            match observation.stat with
            | none => do
                let path ← validateRelativePath relPath
                if path.key ∈ createdDirectoryKeys xset then return before
                else
                  return before ++
                    [{ refusal .targetDrift with detail := some (str "required parent is absent") }]
            | some stat =>
                if stat.kind = .directory then .ok before
                else
                  .ok (before ++ [{ refusal .typeChanged with
                    detail := some (str "required parent is not a directory") }])

/-- The free space of the target. -/
def spaceRefusals (xset : ExecutionSet) (world : ObservedWorld) : List Refusal :=
  let requiredBytes :=
    calculateRequiredBytes xset.remaining xset.plan.targetProfile xset.plan.trashOnUpdate
  match world.freeSpace with
  | none =>
      [{ code := .observationUnavailable, detail := some (str "target free space unavailable") }]
  | some freeSpace =>
      if freeSpace + world.reclaimableTempBytes < requiredBytes then
        [{ code := .insufficientSpace,
           detail := some (str "required=" ++ decimal requiredBytes ++ str "; available=" ++
             decimal (freeSpace + world.reclaimableTempBytes)) }]
      else []

/-- `needs_trash`. -/
def ExecutionSet.needsTrash (xset : ExecutionSet) : Bool :=
  xset.remaining.any fun operation =>
    operation.kind = .trash ||
      (xset.plan.trashOnUpdate && decide (operation.kind ∈ [.update, .moveUpdate]))

/-- The trash directory of the target. -/
def trashRefusals (xset : ExecutionSet) (world : ObservedWorld) : List Refusal :=
  if xset.needsTrash then
    match world.trash with
    | none => [{ code := .trashUnavailable, detail := some (str "missing trash observation") }]
    | some trash =>
        (if trash.available then [] else
          [{ code := .trashUnavailable, detail := trash.error }]) ++
        (if trash.contained then [] else [{ code := .trashEscape }]) ++
        (if trash.sameVolume then [] else [{ code := .trashOffVolume }]) ++
        (if trash.writable then [] else [{ code := .trashNotWritable }]) ++
        (if trash.reparseSafe then [] else [{ code := .trashReparse }])
  else []

/-- The sort key of a refusal.  A detail `None` counts as empty: the source
cannot compare it with a text. -/
def Refusal.sortKey (refusal : Refusal) : Str ×ₗ Str ×ₗ Str ×ₗ Str ×ₗ Str :=
  let subject := refusal.subject.getD ⟨[], []⟩
  toLex (refusal.code.value, toLex ((refusal.opId.map OpId.text).getD [],
    toLex (subject.rootId, toLex (subject.relPathKey, refusal.detail.getD []))))

/-- `unique`, in the order of the first insertions, then `ordered`. -/
def orderedRefusals (refusals : List Refusal) : List Refusal :=
  sortedBy Refusal.sortKey refusals.eraseDups

/-- `preflight`.  It raises where a parent path has no key. -/
def preflight [OsPath] (xset : ExecutionSet) (world : ObservedWorld) :
    Except PathValidationError Verdict := do
  let plan := xset.plan
  let sourceRoot := world.roots.get? plan.sourceRoot.rootId
  let targetRoot := world.roots.get? plan.targetRoot.rootId
  let parents ← world.paths.entries.mapM fun entry => parentRefusals xset world entry.1 entry.2
  let refusals :=
    rootRefusals plan.sourceVolumeId sourceRoot ++ rootRefusals plan.targetVolumeId targetRoot ++
      overlapRefusals sourceRoot targetRoot ++ settingsRefusals plan world ++
      xset.remaining.flatMap (operationRefusals xset world) ++ parents.flatten ++
      spaceRefusals xset world ++ trashRefusals xset world
  let ordered := orderedRefusals refusals
  return { ok := ordered.isEmpty, refusals := ordered, observed := world, agree := rfl }

end Judgment

/-! ## Where a refusal comes from -/

/-- The code concerns the plan and its selection, whatever is observed. -/
@[simp] def RefusalCode.judgesPlan : RefusalCode → Bool
  | operationBlocked | blockedCorrespondence | selectionNotClosed | dependencyUnavailable
  | incompleteSourceScan | incompleteTargetScan => true
  | _ => false

/-- Every refusal comes from an observation. -/
def Observed (refusals : List Refusal) : Prop :=
  ∀ refusal ∈ refusals, refusal.code.judgesPlan = false

@[simp] theorem observed_nil : Observed [] := fun _ h => absurd h List.not_mem_nil

@[simp] theorem observed_singleton {refusal : Refusal} :
    Observed [refusal] ↔ refusal.code.judgesPlan = false := by
  simp [Observed]

@[simp] theorem observed_append {a b : List Refusal} :
    Observed (a ++ b) ↔ Observed a ∧ Observed b :=
  List.forall_mem_append

@[simp] theorem observed_ite {c : Prop} [Decidable c] {a b : List Refusal} :
    Observed (if c then a else b) ↔ (c → Observed a) ∧ (¬ c → Observed b) := by
  split
  · next h => simp [h]
  · next h => simp [h]

theorem observed_match (opId : OpId) (subject : Subject) (actual expected : FileStat)
    (granularityNs : Nat) :
    Observed (matchRefusals opId subject actual expected granularityNs) := by
  simp [matchRefusals]

theorem observed_roots (expected : Option VolumeId) (observed : Option RootObservation) :
    Observed (rootRefusals expected observed) := by
  unfold rootRefusals
  cases observed with
  | none => simp
  | some observed =>
      cases hevidence : observed.volumeEvidence <;> simp [hevidence]

theorem observed_overlap [OsPath] (source target : Option RootObservation) :
    Observed (overlapRefusals source target) := by
  unfold overlapRefusals
  split <;> simp

section Sources

variable [Unicode]

theorem observed_addStat (operation : PlanOperation) (subject : Subject)
    (observation : Option StatObservation) (expected : Option FileStat) (sourceSubject : Bool)
    (granularityNs : Nat) :
    Observed (addStatRefusals operation subject observation expected sourceSubject
      granularityNs) := by
  unfold addStatRefusals
  cases observation with
  | none => simp
  | some observation =>
      cases herror : observation.error with
      | some error => simp [herror]
      | none =>
          cases expected with
          | none =>
              cases hstat : observation.stat <;>
                simp [herror, hstat]
          | some expected =>
              cases hstat : observation.stat with
              | none =>
                  cases sourceSubject <;>
                    simp [herror, hstat, absentCode]
              | some actual =>
                  simp [herror, hstat, observed_match]

theorem observed_settings (plan : Plan) (world : ObservedWorld) :
    Observed (settingsRefusals plan world) := by
  unfold settingsRefusals
  cases world.settingsError <;> simp

theorem observed_stats (plan : Plan) (world : ObservedWorld) (operation : PlanOperation) :
    Observed (statRefusals plan world operation) := by
  unfold statRefusals
  refine observed_append.2 ⟨observed_append.2 ⟨?_, observed_addStat _ _ _ _ _ _⟩, ?_⟩
  · split
    · exact observed_addStat _ _ _ _ _ _
    · exact observed_nil
  · split
    · exact observed_addStat _ _ _ _ _ _
    · exact observed_nil

theorem observed_space (xset : ExecutionSet) (world : ObservedWorld) :
    Observed (spaceRefusals xset world) := by
  unfold spaceRefusals
  cases world.freeSpace <;> simp

theorem observed_trash (xset : ExecutionSet) (world : ObservedWorld) :
    Observed (trashRefusals xset world) := by
  unfold trashRefusals
  cases world.trash <;> simp

theorem observed_parent {xset : ExecutionSet} {world : ObservedWorld} {subject : Subject}
    {relPath : Str} {refusals : List Refusal}
    (h : parentRefusals xset world subject relPath = .ok refusals) : Observed refusals := by
  unfold parentRefusals at h
  split at h
  · obtain rfl := Except.ok.inj h
    exact observed_nil
  · dsimp only at h
    split at h
    · obtain rfl := Except.ok.inj h
      simp
    · split at h
      · obtain rfl := Except.ok.inj h
        simp
      · split at h
        · cases hpath : validateRelativePath relPath with
          | error e =>
              rw [hpath] at h
              exact absurd h (by simp [bind, Except.bind])
          | ok path =>
              rw [hpath] at h
              simp only [bind, Except.bind, pure, Except.pure] at h
              split at h <;> obtain rfl := Except.ok.inj h <;> simp
        · split at h <;> obtain rfl := Except.ok.inj h <;> simp

/-- Where the refusals of a verdict come from. -/
theorem mem_verdict [OsPath] {xset : ExecutionSet} {world : ObservedWorld} {verdict : Verdict}
    (h : preflight xset world = .ok verdict) {refusal : Refusal} :
    refusal ∈ verdict.refusals ↔
      refusal ∈ rootRefusals xset.plan.sourceVolumeId
          (world.roots.get? xset.plan.sourceRoot.rootId) ∨
        refusal ∈ rootRefusals xset.plan.targetVolumeId
          (world.roots.get? xset.plan.targetRoot.rootId) ∨
        refusal ∈ overlapRefusals (world.roots.get? xset.plan.sourceRoot.rootId)
          (world.roots.get? xset.plan.targetRoot.rootId) ∨
        refusal ∈ settingsRefusals xset.plan world ∨
        (∃ operation ∈ xset.remaining, refusal ∈ operationRefusals xset world operation) ∨
        (∃ parents, (world.paths.entries.mapM fun entry =>
          parentRefusals xset world entry.1 entry.2) = .ok parents ∧ refusal ∈ parents.flatten) ∨
        refusal ∈ spaceRefusals xset world ∨ refusal ∈ trashRefusals xset world := by
  unfold preflight at h
  obtain ⟨parents, hparents, h⟩ := Checked.bind_eq_ok.1 h
  obtain rfl := Except.ok.inj h
  simp only [orderedRefusals, mem_sortedBy, List.mem_eraseDups, List.mem_append, or_assoc,
    List.mem_flatMap, hparents, Except.ok.injEq, exists_eq_left']

/-- What a parent is refused for comes from an observation, and names no
operation. -/
theorem mem_parents {xset : ExecutionSet} {world : ObservedWorld} {parents : List (List Refusal)}
    (h : (world.paths.entries.mapM fun entry => parentRefusals xset world entry.1 entry.2) =
      .ok parents) {refusal : Refusal} (hmem : refusal ∈ parents.flatten) :
    ∃ subject relPath refusals, parentRefusals xset world subject relPath = .ok refusals ∧
      refusal ∈ refusals := by
  obtain ⟨refusals, hrefusals, hin⟩ := List.mem_flatten.1 hmem
  obtain ⟨entry, -, hentry⟩ := Checked.mem_of_mapM h refusals hrefusals
  exact ⟨entry.1, entry.2, refusals, hentry, hin⟩

/-- A refusal that concerns the plan is made for a remaining operation, for
its scans, its own state or one of its dependencies. -/
theorem judgesPlan_cases [OsPath] {xset : ExecutionSet} {world : ObservedWorld}
    {verdict : Verdict} (h : preflight xset world = .ok verdict) {refusal : Refusal}
    (hmem : refusal ∈ verdict.refusals) (hplan : refusal.code.judgesPlan = true) :
    ∃ operation ∈ xset.remaining, refusal ∈ scanRefusals xset.plan operation ∨
      refusal ∈ blockedRefusals xset.plan operation ∨
        ∃ dependency ∈ operation.dependencies,
          refusal ∈ dependencyRefusals xset operation dependency := by
  have other : ∀ {refusals : List Refusal}, Observed refusals → refusal ∉ refusals :=
    fun hobserved hin => absurd (hplan.symm.trans (hobserved refusal hin)) Bool.noConfusion
  rcases (mem_verdict h).1 hmem with hin | hin | hin | hin | ⟨operation, hop, hin⟩ |
    ⟨parents, hparents, hin⟩ | hin | hin
  · exact absurd hin (other (observed_roots _ _))
  · exact absurd hin (other (observed_roots _ _))
  · exact absurd hin (other (observed_overlap _ _))
  · exact absurd hin (other (observed_settings _ _))
  · simp only [operationRefusals, List.mem_append, other (observed_stats _ _ _), or_false,
      List.mem_flatMap] at hin
    rcases hin with (hscan | hblocked) | hdependency
    · exact ⟨operation, hop, Or.inl hscan⟩
    · exact ⟨operation, hop, Or.inr (Or.inl hblocked)⟩
    · exact ⟨operation, hop, Or.inr (Or.inr hdependency)⟩
  · obtain ⟨subject, relPath, refusals, hparent, hin⟩ := mem_parents hparents hin
    exact absurd hin (other (observed_parent hparent))
  · exact absurd hin (other (observed_space _ _))
  · exact absurd hin (other (observed_trash _ _))

end Sources

end NamiSync
