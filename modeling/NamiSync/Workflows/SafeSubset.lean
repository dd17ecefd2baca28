/-
# `Workflows.SafeSubset` — the selection is the greatest safe subset

The exclusions of a plan are the operations no safe selection can hold: the
first three loops exclude what is barred itself, and one pass over
dependency-ordered operations already excludes everything that needs an
excluded operation.  So the selection is the greatest safe set of operations,
and `preflight`, which judges the plan on its own, finds nothing in it.

## What is proved

    selection_greatest_safe : the selection is the greatest set of operations
      that is closed under dependencies and holds nothing barred; selection
      and exclusions are the operations of the plan, each once; and in no world
      does `preflight` refuse a selected operation with one of the six codes
      that judge the plan

`Plan.Barred` is about the plan: blocked, quarantined, or of a kind that an
incomplete scan makes unsafe.

## The argument

`Lib.Closure` reduces this to two properties of the exclusions: they are sound
(only what is barred or needs something lost is excluded) and saturated
(whatever needs an excluded operation is).  The first is an invariant of the
four loops, the second follows from the order of the operations.
-/
import NamiSync.Lib.Closure
import NamiSync.Modules.Preflight
import NamiSync.Workflows.Selection

namespace NamiSync

section SafeSubset

variable [Unicode]

/-- The id names no operation of the plan, or one that must not run whatever
else is selected. -/
inductive Plan.Barred (plan : Plan) : OpId → Prop
  | unknown {id : OpId} : id ∉ plan.operations.map PlanOperation.opId → Barred plan id
  | blocked {operation : PlanOperation} : operation ∈ plan.operations →
      operation.blocked = true → Barred plan operation.opId
  | quarantined {operation : PlanOperation} : operation ∈ plan.operations →
      operation.opId ∈ quarantinedOperationIds plan.operations → Barred plan operation.opId
  | incomplete {operation : PlanOperation} : operation ∈ plan.operations →
      operation.kind ∈ [.move, .moveUpdate, .trash, .delete] →
      plan.sourceComplete = false ∨ plan.targetComplete = false → Barred plan operation.opId

/-- The operation `id` depends on `dependency`. -/
def Plan.Needs (plan : Plan) (id dependency : OpId) : Prop :=
  ∃ operation ∈ plan.operations, operation.opId = id ∧ dependency ∈ operation.dependencies

/-! ## What the loops keep

The exclusions are made by four loops, each of which adds one after another.  A
property of exclusions that each addition keeps holds of all. -/

/-- What holds of no exclusions, and is kept by the bodies of the four loops,
holds of the exclusions of the plan. -/
theorem Plan.exclusions_induction (plan : Plan) {I : Exclusions → Prop} (hempty : I .empty)
    (hblocked : ∀ exclusions, ∀ operation ∈ plan.operations, I exclusions →
      I (excludeBlocked exclusions operation))
    (hquarantined : ∀ exclusions, ∀ operation ∈ plan.operations, I exclusions →
      I (excludeQuarantined (quarantinedOperationIds plan.operations) exclusions operation))
    (hincomplete : ∀ exclusions, ∀ operation ∈ plan.operations, I exclusions →
      I (excludeIncomplete plan.incompleteSides exclusions operation))
    (hdependent : ∀ exclusions, ∀ operation ∈ plan.operations, I exclusions →
      I (excludeDependent exclusions operation)) :
    I plan.exclusions := by
  have loop : ∀ (body : Exclusions → PlanOperation → Exclusions),
      (∀ exclusions, ∀ operation ∈ plan.operations, I exclusions → I (body exclusions operation)) →
      ∀ exclusions, I exclusions → I (plan.operations.foldl body exclusions) := by
    intro body hbody exclusions h
    exact List.foldlRecOn plan.operations body h
      (fun e he operation hop => hbody e operation hop he)
  have passes : ∀ (fuel : Nat) (exclusions : Exclusions), I exclusions →
      I (dependencyLoop plan.operations fuel exclusions) := by
    intro fuel
    induction fuel with
    | zero => exact fun _ h => h
    | succ fuel ih =>
        intro exclusions h
        have hpass := loop _ hdependent exclusions h
        unfold dependencyLoop
        dsimp only
        split
        · exact hpass
        · exact ih _ hpass
  exact passes _ _ (loop _ hincomplete _ (loop _ hquarantined _ (loop _ hblocked _ hempty)))

/-- Every exclusion stands under its own id. -/
def Exclusions.Keyed (exclusions : Exclusions) : Prop :=
  ∀ id exclusion, exclusions.get? id = some exclusion → exclusion.opId = id

omit [Unicode] in
theorem Exclusions.Keyed.add {exclusions : Exclusions} (h : exclusions.Keyed)
    (exclusion : OperationExclusion) : (exclusions.add exclusion).Keyed := by
  intro id other hget
  unfold Exclusions.add at hget
  rw [Dict.get?_set] at hget
  split at hget
  · next hid =>
      obtain rfl := Option.some.inj hget
      exact hid.symm
  · exact h id other hget

theorem Plan.keyed_exclusions (plan : Plan) : plan.exclusions.Keyed := by
  refine plan.exclusions_induction ?_ ?_ ?_ ?_ ?_
  · intro id exclusion h
    exact absurd h (by simp)
  · intro exclusions operation _ h
    unfold excludeBlocked
    split
    · exact h
    · exact h.add _
  · intro exclusions operation _ h
    unfold excludeQuarantined
    split
    · exact h.add _
    · exact h
  · intro exclusions operation _ h
    unfold excludeIncomplete
    split
    · exact h.add _
    · exact h
  · intro exclusions operation _ h
    unfold excludeDependent
    split
    · exact h
    · dsimp only
      split
      · exact h
      · exact h.add _

/-! ## Exclusions are of lost operations

Soundness: what is excluded could not have been kept in any safe selection. -/

/-- Only lost operations are excluded. -/
def Plan.Sound (plan : Plan) (exclusions : Exclusions) : Prop :=
  ∀ id, exclusions.contains id = true → Closure.Lost plan.Barred plan.Needs id

theorem Plan.Sound.add {plan : Plan} {exclusions : Exclusions} (h : plan.Sound exclusions)
    {exclusion : OperationExclusion} (hlost : Closure.Lost plan.Barred plan.Needs exclusion.opId) :
    plan.Sound (exclusions.add exclusion) := by
  intro id hid
  rcases Exclusions.contains_add.1 hid with rfl | hid
  · exact hlost
  · exact h id hid

theorem Plan.incompleteSides_ne {plan : Plan} (h : plan.incompleteSides.isEmpty = false) :
    plan.sourceComplete = false ∨ plan.targetComplete = false := by
  unfold Plan.incompleteSides at h
  cases hsource : plan.sourceComplete with
  | false => exact Or.inl rfl
  | true =>
      cases htarget : plan.targetComplete with
      | false => exact Or.inr rfl
      | true => exact absurd h (by simp [hsource, htarget])

theorem Plan.sound_exclusions (plan : Plan) : plan.Sound plan.exclusions := by
  refine plan.exclusions_induction ?_ ?_ ?_ ?_ ?_
  · intro id h
    exact absurd h (by simp [Dict.contains])
  · intro exclusions operation hop h
    unfold excludeBlocked
    split
    · exact h
    · next reason hreason =>
        exact h.add (.bad (.blocked hop (by simp [PlanOperation.blocked, hreason])))
  · intro exclusions operation hop h
    unfold excludeQuarantined
    split
    · next hin => exact h.add (.bad (.quarantined hop hin))
    · exact h
  · intro exclusions operation hop h
    unfold excludeIncomplete
    split
    · next hboth =>
        simp only [Bool.and_eq_true, Bool.not_eq_true', OperationKind.incompleteScanUnsafe,
          decide_eq_true_eq] at hboth
        exact h.add (.bad (.incomplete hop hboth.2 (Plan.incompleteSides_ne hboth.1.1)))
    · exact h
  · intro exclusions operation hop h
    unfold excludeDependent
    split
    · exact h
    · dsimp only
      split
      · exact h
      · next hsome =>
          have hne : (operation.dependencies.filter fun id => exclusions.contains id) ≠ [] :=
            fun hnil => hsome (by rw [hnil]; rfl)
          obtain ⟨dependency, hmem⟩ := List.exists_mem_of_ne_nil _ hne
          obtain ⟨hdep, hexcluded⟩ := List.mem_filter.1 hmem
          exact h.add (.needs ⟨operation, hop, rfl, hdep⟩ (h dependency hexcluded))

/-! ## Exclusions are closed under need

The loop over the dependencies is repeated until a pass adds nothing; then it is
closed, and it stops because each pass before has added something. -/

/-- Whatever needs an excluded operation is excluded. -/
def Saturated (operations : List PlanOperation) (exclusions : Exclusions) : Prop :=
  ∀ operation ∈ operations, ∀ dependency ∈ operation.dependencies,
    exclusions.contains dependency = true → exclusions.contains operation.opId = true

theorem contains_excludeDependent {exclusions : Exclusions} {operation : PlanOperation} {id : OpId}
    (h : (excludeDependent exclusions operation).contains id = true) :
    id = operation.opId ∨ exclusions.contains id = true := by
  unfold excludeDependent at h
  split at h
  · exact Or.inr h
  · dsimp only at h
    split at h
    · exact Or.inr h
    · exact Exclusions.contains_add.1 h

theorem excludeDependent_contains {exclusions : Exclusions} {operation : PlanOperation}
    {dependency : OpId} (hdep : dependency ∈ operation.dependencies)
    (h : exclusions.contains dependency = true) :
    (excludeDependent exclusions operation).contains operation.opId = true := by
  unfold excludeDependent
  split
  · next hin => exact hin
  · dsimp only
    split
    · next hnone =>
        rw [List.isEmpty_iff, List.filter_eq_nil_iff] at hnone
        exact absurd h (hnone dependency hdep)
    · exact Exclusions.contains_add.2 (Or.inl rfl)

/-- A pass excludes operations of the list only. -/
theorem contains_pass {operations : List PlanOperation} {exclusions : Exclusions} {id : OpId}
    (h : (operations.foldl excludeDependent exclusions).contains id = true) :
    exclusions.contains id = true ∨ id ∈ operations.map PlanOperation.opId := by
  induction operations generalizing exclusions with
  | nil => exact Or.inl h
  | cons operation rest ih =>
      rcases ih h with hin | hin
      · rcases contains_excludeDependent hin with rfl | hin
        · exact Or.inr List.mem_cons_self
        · exact Or.inl hin
      · exact Or.inr (List.mem_cons_of_mem _ hin)

/-- One pass over dependency-ordered operations saturates: what an operation
needs comes before it, so it is decided when the pass reaches the
operation. -/
theorem saturated_pass {knownIds : List OpId} {operations : List PlanOperation}
    (h : checkOperations knownIds operations = none) (exclusions : Exclusions) :
    Saturated operations (operations.foldl excludeDependent exclusions) := by
  induction operations generalizing knownIds exclusions with
  | nil => exact fun _ hop => absurd hop List.not_mem_nil
  | cons first rest ih =>
      obtain ⟨hfresh, hknown, hrest⟩ := checkOperations_cons.1 h
      intro operation hop dependency hdep hin
      rcases List.mem_cons.1 hop with rfl | hop
      · have hdecided : (excludeDependent exclusions operation).contains dependency = true := by
          have hpass : (rest.foldl excludeDependent
              (excludeDependent exclusions operation)).contains dependency = true := hin
          rcases contains_pass hpass with hin | hlater
          · exact hin
          · obtain ⟨other, hother, rfl⟩ := List.mem_map.1 hlater
            have hnew := (nodup_of_checkOperations hrest).2 other hother
            exact absurd (List.mem_cons_of_mem _ (hknown _ hdep)) hnew
        have hbefore : exclusions.contains dependency = true := by
          rcases contains_excludeDependent hdecided with heq | hin
          · exact absurd (hknown dependency hdep) (heq ▸ hfresh)
          · exact hin
        exact within_foldl within_excludeDependent rest _ _
          (excludeDependent_contains hdep hbefore)
      · exact ih hrest _ operation hop dependency hdep hin

theorem Plan.saturated_exclusions (plan : Plan) : Saturated plan.operations plan.exclusions := by
  have hpass : ∀ (fuel : Nat) (exclusions : Exclusions),
      Saturated plan.operations (dependencyLoop plan.operations (fuel + 1) exclusions) := by
    intro fuel
    induction fuel with
    | zero =>
        intro exclusions
        simp only [dependencyLoop, ite_self]
        exact saturated_pass plan.checked exclusions
    | succ fuel ih =>
        intro exclusions
        rw [dependencyLoop]
        split
        · exact saturated_pass plan.checked exclusions
        · exact ih _
  exact hpass _ _

/-- The exclusions are where `while changed` ends: another pass changes
nothing. -/
theorem Plan.exclusions_settled (plan : Plan) :
    plan.operations.foldl excludeDependent plan.exclusions = plan.exclusions := by
  have hbody : ∀ operation ∈ plan.operations,
      excludeDependent plan.exclusions operation = plan.exclusions := by
    intro operation hop
    unfold excludeDependent
    split
    · rfl
    · next hfree =>
        dsimp only
        split
        · rfl
        · next hsome =>
            refine absurd ?_ hsome
            rw [List.isEmpty_iff, List.filter_eq_nil_iff]
            intro dependency hdep hin
            exact hfree (plan.saturated_exclusions operation hop dependency hdep hin)
  exact List.foldlRecOn (motive := fun exclusions => exclusions = plan.exclusions)
    plan.operations excludeDependent rfl (fun e he operation hop => by rw [he, hbody operation hop])

/-! ## The selection

Closed and sound together give the greatest safe selection. -/

theorem Plan.mem_selection {plan : Plan} {id : OpId} :
    id ∈ (deriveExecutionSelection plan).selection ↔
      id ∈ plan.operations.map PlanOperation.opId ∧ plan.exclusions.contains id = false := by
  simp only [deriveExecutionSelection, List.mem_map, List.mem_filter, Bool.not_eq_true']
  constructor
  · rintro ⟨operation, ⟨hop, hfree⟩, rfl⟩
    exact ⟨⟨operation, hop, rfl⟩, hfree⟩
  · rintro ⟨⟨operation, hop, rfl⟩, hfree⟩
    exact ⟨operation, ⟨hop, hfree⟩, rfl⟩

/-- What is barred is excluded. -/
theorem Plan.not_barred {plan : Plan} {id : OpId}
    (h : id ∈ (deriveExecutionSelection plan).selection) : ¬ plan.Barred id := by
  intro hbarred
  cases hbarred with
  | unknown hnot => exact hnot (Plan.mem_selection.1 h).1
  | blocked hop hblocked => exact absurd (selected_cases hop h).1 (by simp [hblocked])
  | quarantined hop hin =>
      obtain ⟨other, hother, hid⟩ := List.mem_map.1 hin
      obtain ⟨hother, hquarantined⟩ := List.mem_filter.1 hother
      obtain rfl := plan.eq_of_opId hother hop hid
      exact absurd (selected_cases hop h).2.1 (by simp [hquarantined])
  | incomplete hop hkind hside =>
      have hcomplete := (selected_cases hop h).2.2
        (by simpa [OperationKind.incompleteScanUnsafe] using hkind)
      rcases hside with hside | hside
      · exact absurd hcomplete.1 (by simp [hside])
      · exact absurd hcomplete.2 (by simp [hside])

theorem Plan.selection_greatest (plan : Plan) :
    IsGreatest {kept | Closure.Safe plan.Barred plan.Needs kept}
      {id | id ∈ (deriveExecutionSelection plan).selection} := by
  have heq : {id | id ∈ (deriveExecutionSelection plan).selection} =
      {id | ¬ (id ∉ plan.operations.map PlanOperation.opId ∨
        plan.exclusions.contains id = true)} := by
    ext id
    simp [Plan.mem_selection]
  rw [heq]
  refine Closure.isGreatest_of_excluded ?_ ?_ ?_
  · rintro id (hunknown | hin)
    · exact .bad (.unknown hunknown)
    · exact plan.sound_exclusions id hin
  · intro id hbarred
    by_contra hfree
    refine Plan.not_barred (Plan.mem_selection.2 ?_) hbarred
    simpa using hfree
  · rintro _ dependency ⟨operation, hop, rfl, hdep⟩ (hunknown | hin)
    · exact absurd (Plan.dependency_known hop hdep) hunknown
    · exact Or.inr (plan.saturated_exclusions operation hop dependency hdep hin)

theorem Plan.selection_partition (plan : Plan) :
    ((deriveExecutionSelection plan).selection ++
      (deriveExecutionSelection plan).exclusions.map OperationExclusion.opId).Perm
        (plan.operations.map PlanOperation.opId) := by
  have hexcluded : ∀ operations : List PlanOperation,
      (operations.filterMap fun operation => plan.exclusions.get? operation.opId).map
        OperationExclusion.opId =
      (operations.filter fun operation => plan.exclusions.contains operation.opId).map
        PlanOperation.opId := by
    intro operations
    induction operations with
    | nil => rfl
    | cons operation rest ih =>
        cases hget : plan.exclusions.get? operation.opId with
        | none => simp [Dict.contains, hget, ih]
        | some exclusion =>
            simp [Dict.contains, hget, ih, plan.keyed_exclusions _ _ hget]
  simp only [deriveExecutionSelection, hexcluded, ← List.map_append]
  refine List.Perm.map _ ?_
  exact List.perm_append_comm.trans (List.filter_append_perm
    (fun operation : PlanOperation => plan.exclusions.contains operation.opId) _)

/-! ## The judgment of preflight

The six codes that concern the plan and its scans read the selection only, and
find nothing in a safe one. -/

/-- The execution set of the derived selection, before anything ran. -/
def Plan.executionSet (plan : Plan) : ExecutionSet where
  plan := plan
  selection := (deriveExecutionSelection plan).selection
  selection_known := fun _ hid => (Plan.mem_selection.1 hid).1

theorem Plan.mem_remaining {plan : Plan} {operation : PlanOperation} :
    operation ∈ plan.executionSet.remaining ↔ operation ∈ plan.operations ∧
      operation.opId ∈ (deriveExecutionSelection plan).selection := by
  have hstatus : plan.executionSet.status.contains operation.opId = false := rfl
  simp only [ExecutionSet.remaining, List.mem_filter, Bool.and_eq_true, decide_eq_true_eq, hstatus,
    Bool.not_false, and_true]
  exact Iff.rfl

section Accepted

variable {plan : Plan} {operation : PlanOperation}

theorem scanRefusals_selected (hop : operation ∈ plan.operations)
    (hselected : operation.opId ∈ (deriveExecutionSelection plan).selection) :
    scanRefusals plan operation = [] := by
  unfold scanRefusals
  split
  · next hkind =>
      have hcomplete := (selected_cases hop hselected).2.2
        (by simpa [OperationKind.incompleteScanUnsafe] using hkind)
      simp [hcomplete]
  · rfl

theorem blockedRefusals_selected (hop : operation ∈ plan.operations)
    (hselected : operation.opId ∈ (deriveExecutionSelection plan).selection) :
    blockedRefusals plan operation = [] := by
  have hfree := (selected_cases hop hselected).1
  have hin : operation.opId ∉ quarantinedOperationIds plan.operations :=
    fun hin => Plan.not_barred hselected (.quarantined hop hin)
  unfold blockedRefusals
  cases hreason : operation.blockedReason with
  | some reason => exact absurd hfree (by simp [PlanOperation.blocked, hreason])
  | none => simp [hin]

theorem dependencyRefusals_selected (hop : operation ∈ plan.operations)
    (hselected : operation.opId ∈ (deriveExecutionSelection plan).selection)
    {dependency : OpId} (hdep : dependency ∈ operation.dependencies) :
    dependencyRefusals plan.executionSet operation dependency = [] := by
  have hin : dependency ∈ (deriveExecutionSelection plan).selection :=
    plan.selection_greatest.1.closed _ hselected _ ⟨operation, hop, rfl, hdep⟩
  have hfree : ∀ other, plan.operations.find? (·.opId = dependency) = some other →
      other.blocked = false := by
    intro other hfind
    have hid : other.opId = dependency := by simpa using List.find?_some hfind
    exact (selected_cases (List.mem_of_find?_eq_some hfind) (hid ▸ hin)).1
  have hremaining : dependency ∈ plan.executionSet.remaining.map PlanOperation.opId := by
    obtain ⟨other, hother, rfl⟩ := List.mem_map.1 (Plan.mem_selection.1 hin).1
    exact List.mem_map.2 ⟨other, Plan.mem_remaining.2 ⟨hother, hin⟩, rfl⟩
  have hstatus : plan.executionSet.status.get? dependency = none := rfl
  have hunblocked : (plan.operations.find? (·.opId = dependency)).any PlanOperation.blocked =
      false := by
    cases hfind : plan.operations.find? (·.opId = dependency) with
    | none => rfl
    | some other => simpa using hfree other hfind
  have hselection : plan.executionSet.selection = (deriveExecutionSelection plan).selection := rfl
  have hplan : plan.executionSet.plan = plan := rfl
  unfold dependencyRefusals
  rw [if_neg (by rw [hselection]; exact fun hnot => hnot hin), hplan, hstatus]
  dsimp only
  rw [hunblocked]
  simp [hremaining]

end Accepted

/-- The selection is the greatest set of operations that is closed under
dependencies and holds nothing barred; with the exclusions it partitions the
plan; and `preflight` refuses none of it on account of the plan, whatever the
observed world. -/
theorem selection_greatest_safe [OsPath] (plan : Plan) :
    IsGreatest {kept | Closure.Safe plan.Barred plan.Needs kept}
        {id | id ∈ (deriveExecutionSelection plan).selection} ∧
      (((deriveExecutionSelection plan).selection ++
          (deriveExecutionSelection plan).exclusions.map OperationExclusion.opId).Perm
            (plan.operations.map PlanOperation.opId) ∧
        ((deriveExecutionSelection plan).exclusions.map OperationExclusion.opId).Nodup) ∧
      ∀ world verdict, preflight plan.executionSet world = .ok verdict →
        ∀ refusal ∈ verdict.refusals, refusal.code ∉ [.operationBlocked, .blockedCorrespondence,
          .selectionNotClosed, .dependencyUnavailable, .incompleteSourceScan,
          .incompleteTargetScan] := by
  refine ⟨plan.selection_greatest, ⟨plan.selection_partition, ?_⟩, ?_⟩
  · have hnodup := (nodup_of_checkOperations plan.checked).1
    exact (plan.selection_partition.nodup_iff.2 hnodup).of_append_right
  · intro world verdict hverdict refusal hmem hcode
    have hplan : refusal.code.judgesPlan = true := by
      simp only [List.mem_cons, List.not_mem_nil, or_false] at hcode
      rcases hcode with h | h | h | h | h | h <;> rw [h] <;> rfl
    obtain ⟨operation, hremaining, hcases⟩ := judgesPlan_cases hverdict hmem hplan
    obtain ⟨hop, hselected⟩ := Plan.mem_remaining.1 hremaining
    rcases hcases with h | h | ⟨dependency, hdep, h⟩
    · exact absurd (scanRefusals_selected hop hselected ▸ h) List.not_mem_nil
    · exact absurd (blockedRefusals_selected hop hselected ▸ h) List.not_mem_nil
    · exact absurd (dependencyRefusals_selected hop hselected hdep ▸ h) List.not_mem_nil

end SafeSubset

end NamiSync
