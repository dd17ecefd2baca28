/-
# `Workflows.Selection` — the safe subset of a plan

`derive_execution_selection`: what is blocked, quarantined or unsafe after
an incomplete scan is excluded, and with it whatever depends on it.

A pass of `while changed` that changes something excludes an operation more,
so one round more than there are operations is enough fuel; that one pass
already suffices is `Workflows.SafeSubset`.  The lemmas here say what each
loop excludes, and that none takes an exclusion back.
-/
import NamiSync.Core.Evidence
import NamiSync.Core.Planning
import NamiSync.Lib.Dict

namespace NamiSync

/-- The `reason` string of an exclusion: a blocked reason or an
`ExclusionReason`. -/
inductive ExclusionReason
  | blocked (reason : BlockedReason)
  | blockedCorrespondence | blockedDependency | incompleteScan
  deriving DecidableEq

inductive ScanSide
  | source | target
  deriving DecidableEq

/-- The `detail` mapping. -/
inductive ExclusionDetail
  | empty
  | incompleteSides (sides : List ScanSide)
  | excludedDependencies (dependencies : List OpId)
  deriving DecidableEq

structure OperationExclusion where
  opId : OpId
  outcome : Outcome
  reason : ExclusionReason
  detail : ExclusionDetail := .empty
  deriving DecidableEq

structure ExecutionSelection where
  selection : List OpId
  exclusions : List OperationExclusion
  deriving DecidableEq

/-- `_INCOMPLETE_SCAN_UNSAFE`. -/
def OperationKind.incompleteScanUnsafe (kind : OperationKind) : Bool :=
  kind ∈ [.move, .moveUpdate, .trash, .delete]

/-- `exclusions`, by operation id. -/
abbrev Exclusions := Dict OpId OperationExclusion

def Exclusions.add (exclusions : Exclusions) (exclusion : OperationExclusion) : Exclusions :=
  exclusions.set exclusion.opId exclusion

namespace Exclusions

/-- Every exclusion of `before` is in `after`. -/
def Within (before after : Exclusions) : Prop :=
  ∀ id, before.contains id = true → after.contains id = true

theorem Within.refl (exclusions : Exclusions) : Within exclusions exclusions := fun _ h => h

theorem Within.trans {a b c : Exclusions} (hab : Within a b) (hbc : Within b c) : Within a c :=
  fun id h => hbc id (hab id h)

theorem contains_add {exclusions : Exclusions} {exclusion : OperationExclusion} {id : OpId} :
    (exclusions.add exclusion).contains id = true ↔
      id = exclusion.opId ∨ exclusions.contains id = true := by
  simp only [add, Dict.contains, Dict.get?_set]
  split
  · next h => simp [h]
  · next h => simp [h]

theorem within_add (exclusions : Exclusions) (exclusion : OperationExclusion) :
    Within exclusions (exclusions.add exclusion) :=
  fun _ h => contains_add.2 (Or.inr h)

end Exclusions

section Selection

variable [Unicode]

/-- The body of the loop over blocked operations. -/
def excludeBlocked (exclusions : Exclusions) (operation : PlanOperation) : Exclusions :=
  match operation.blockedReason with
  | none => exclusions
  | some reason => exclusions.add ⟨operation.opId, .blocked, .blocked reason, .empty⟩

/-- The body of the loop over quarantined operations. -/
def excludeQuarantined (quarantined : List OpId) (exclusions : Exclusions)
    (operation : PlanOperation) : Exclusions :=
  if operation.opId ∈ quarantined then
    exclusions.add ⟨operation.opId, .deferred, .blockedCorrespondence, .empty⟩
  else exclusions

/-- `incomplete_sides`. -/
def Plan.incompleteSides (plan : Plan) : List ScanSide :=
  (if plan.sourceComplete then [] else [.source]) ++
    (if plan.targetComplete then [] else [.target])

/-- The body of the loop that withholds moves and removals after an
incomplete scan. -/
def excludeIncomplete (sides : List ScanSide) (exclusions : Exclusions)
    (operation : PlanOperation) : Exclusions :=
  if !sides.isEmpty && !exclusions.contains operation.opId &&
      operation.kind.incompleteScanUnsafe then
    exclusions.add ⟨operation.opId, .deferred, .incompleteScan, .incompleteSides sides⟩
  else exclusions

/-- The body of the loop over the operations inside `while changed`. -/
def excludeDependent (exclusions : Exclusions) (operation : PlanOperation) : Exclusions :=
  if exclusions.contains operation.opId then exclusions
  else
    let excludedDependencies := operation.dependencies.filter fun id => exclusions.contains id
    if excludedDependencies.isEmpty then exclusions
    else
      let reasons := excludedDependencies.filterMap exclusions.get?
      exclusions.add
        { opId := operation.opId
          outcome := .deferred
          reason := if reasons.all (·.reason = .incompleteScan) then .incompleteScan
            else .blockedDependency
          detail := .excludedDependencies excludedDependencies }

/-- `while changed`: a pass that changes nothing ends it. -/
def dependencyLoop (operations : List PlanOperation) : Nat → Exclusions → Exclusions
  | 0, exclusions => exclusions
  | fuel + 1, exclusions =>
      let next := operations.foldl excludeDependent exclusions
      if next.entries.length = exclusions.entries.length then next
      else dependencyLoop operations fuel next

/-- The exclusions of a plan.  A pass that changes something excludes one
more operation, so one round more than operations is enough fuel. -/
def Plan.exclusions (plan : Plan) : Exclusions :=
  let blocked := plan.operations.foldl excludeBlocked .empty
  let quarantined := plan.operations.foldl
    (excludeQuarantined (quarantinedOperationIds plan.operations)) blocked
  let withheld := plan.operations.foldl (excludeIncomplete plan.incompleteSides) quarantined
  dependencyLoop plan.operations (plan.operations.length + 1) withheld

/-- `derive_execution_selection`. -/
def deriveExecutionSelection (plan : Plan) : ExecutionSelection where
  selection := (plan.operations.filter fun operation =>
    !plan.exclusions.contains operation.opId).map PlanOperation.opId
  exclusions := plan.operations.filterMap fun operation => plan.exclusions.get? operation.opId

/-! ## What is selected -/

/-- A loop whose body only adds exclusions only adds exclusions. -/
theorem within_foldl {body : Exclusions → PlanOperation → Exclusions}
    (hbody : ∀ exclusions operation, Exclusions.Within exclusions (body exclusions operation))
    (operations : List PlanOperation) (exclusions : Exclusions) :
    exclusions.Within (operations.foldl body exclusions) := by
  induction operations generalizing exclusions with
  | nil => exact .refl exclusions
  | cons operation rest ih => exact (hbody exclusions operation).trans (ih _)

/-- An operation that the body excludes is excluded after the loop. -/
theorem contains_foldl {body : Exclusions → PlanOperation → Exclusions}
    (hbody : ∀ exclusions operation, Exclusions.Within exclusions (body exclusions operation))
    {operations : List PlanOperation} {operation : PlanOperation} (hmem : operation ∈ operations)
    (hout : ∀ exclusions, (body exclusions operation).contains operation.opId = true)
    (exclusions : Exclusions) :
    (operations.foldl body exclusions).contains operation.opId = true := by
  induction operations generalizing exclusions with
  | nil => exact absurd hmem List.not_mem_nil
  | cons first rest ih =>
      rcases List.mem_cons.1 hmem with rfl | hmem
      · exact within_foldl hbody rest _ _ (hout exclusions)
      · exact ih hmem _

theorem within_excludeBlocked (exclusions : Exclusions) (operation : PlanOperation) :
    exclusions.Within (excludeBlocked exclusions operation) := by
  unfold excludeBlocked
  split
  · exact .refl _
  · exact exclusions.within_add _

theorem within_excludeQuarantined (quarantined : List OpId) (exclusions : Exclusions)
    (operation : PlanOperation) :
    exclusions.Within (excludeQuarantined quarantined exclusions operation) := by
  unfold excludeQuarantined
  split
  · exact exclusions.within_add _
  · exact .refl _

theorem within_excludeIncomplete (sides : List ScanSide) (exclusions : Exclusions)
    (operation : PlanOperation) :
    exclusions.Within (excludeIncomplete sides exclusions operation) := by
  unfold excludeIncomplete
  split
  · exact exclusions.within_add _
  · exact .refl _

theorem within_excludeDependent (exclusions : Exclusions) (operation : PlanOperation) :
    exclusions.Within (excludeDependent exclusions operation) := by
  unfold excludeDependent
  split
  · exact .refl _
  · dsimp only
    split
    · exact .refl _
    · exact exclusions.within_add _

theorem within_dependencyLoop (operations : List PlanOperation) (fuel : Nat)
    (exclusions : Exclusions) : exclusions.Within (dependencyLoop operations fuel exclusions) := by
  induction fuel generalizing exclusions with
  | zero => exact .refl _
  | succ fuel ih =>
      have hpass := within_foldl within_excludeDependent operations exclusions
      unfold dependencyLoop
      dsimp only
      split
      · exact hpass
      · exact hpass.trans (ih _)

theorem excludeBlocked_contains {operation : PlanOperation} (h : operation.blocked = true)
    (exclusions : Exclusions) :
    (excludeBlocked exclusions operation).contains operation.opId = true := by
  obtain ⟨reason, hreason⟩ := Option.isSome_iff_exists.1 h
  unfold excludeBlocked
  rw [hreason]
  exact Exclusions.contains_add.2 (Or.inl rfl)

theorem excludeQuarantined_contains {quarantined : List OpId} {operation : PlanOperation}
    (h : operation.opId ∈ quarantined) (exclusions : Exclusions) :
    (excludeQuarantined quarantined exclusions operation).contains operation.opId = true := by
  unfold excludeQuarantined
  rw [if_pos h]
  exact Exclusions.contains_add.2 (Or.inl rfl)

theorem excludeIncomplete_contains {sides : List ScanSide} {operation : PlanOperation}
    (hsides : sides.isEmpty = false) (hrisky : operation.kind.incompleteScanUnsafe = true)
    (exclusions : Exclusions) :
    (excludeIncomplete sides exclusions operation).contains operation.opId = true := by
  unfold excludeIncomplete
  rw [hsides, hrisky]
  cases hin : exclusions.contains operation.opId with
  | true => simpa using hin
  | false => exact Exclusions.contains_add.2 (Or.inl rfl)

/-- A selected operation is neither blocked nor quarantined, and what it may
take away is only taken after two complete scans. -/
theorem selected_cases {plan : Plan} {operation : PlanOperation}
    (hmem : operation ∈ plan.operations)
    (hselected : operation.opId ∈ (deriveExecutionSelection plan).selection) :
    operation.blocked = false ∧ operation.quarantined plan.operations = false ∧
      (operation.kind.incompleteScanUnsafe = true →
        plan.sourceComplete = true ∧ plan.targetComplete = true) := by
  obtain ⟨other, hother, hid⟩ := List.mem_map.1 hselected
  obtain ⟨hother, hfree⟩ := List.mem_filter.1 hother
  obtain rfl := plan.eq_of_opId hother hmem hid
  unfold Plan.exclusions at hfree
  dsimp only at hfree
  -- What one of the loops excludes stays excluded in the later ones.
  have hdependent (exclusions : Exclusions)
      (h : exclusions.contains other.opId = true) :
      ¬ (!(dependencyLoop plan.operations (plan.operations.length + 1) exclusions).contains
        other.opId) = true := by
    rw [within_dependencyLoop _ _ _ _ h]
    exact Bool.false_ne_true
  have hincomplete (exclusions : Exclusions) :
      exclusions.Within
        (plan.operations.foldl (excludeIncomplete plan.incompleteSides) exclusions) :=
    within_foldl (within_excludeIncomplete _) _ _
  have hquarantined (exclusions : Exclusions) :
      exclusions.Within (plan.operations.foldl
        (excludeQuarantined (quarantinedOperationIds plan.operations)) exclusions) :=
    within_foldl (within_excludeQuarantined _) _ _
  refine ⟨?_, ?_, ?_⟩
  · by_contra h
    have hin := contains_foldl within_excludeBlocked hmem
      (excludeBlocked_contains (by simpa using h)) .empty
    exact hdependent _ (hincomplete _ _ (hquarantined _ _ hin)) hfree
  · by_contra h
    have hid : other.opId ∈ quarantinedOperationIds plan.operations :=
      List.mem_map.2 ⟨other, List.mem_filter.2 ⟨hmem, by simpa using h⟩, rfl⟩
    have hin := contains_foldl (within_excludeQuarantined _) hmem
      (excludeQuarantined_contains hid) (plan.operations.foldl excludeBlocked .empty)
    exact hdependent _ (hincomplete _ _ hin) hfree
  · intro hrisky
    by_contra h
    have hsides : plan.incompleteSides.isEmpty = false := by
      unfold Plan.incompleteSides
      cases hs : plan.sourceComplete with
      | false => simp
      | true =>
          cases ht : plan.targetComplete with
          | false => simp
          | true => exact absurd ⟨hs, ht⟩ h
    refine hdependent _ ?_ hfree
    exact contains_foldl (within_excludeIncomplete _) hmem
      (excludeIncomplete_contains hsides hrisky) _

end Selection

end NamiSync
