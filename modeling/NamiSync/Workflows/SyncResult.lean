/-
# `Workflows.SyncResult` — the operations of the result of `run_execution`

`_exclusion_items` and `_merge_operation_results`: what was executed and what
the selection left out, in the order of the plan.  Where both lists answer
for distinct operations of the plan, the merge has one item for each.

`mergeOperationResults_ids` is used by `Workflows.OutcomesOnce` for the last
call of a chain.  Items with an id that the plan does not have keep their
order behind the others, as in the source.
-/
import NamiSync.Modules.Executor.Execute
import NamiSync.Workflows.SafeSubset

namespace NamiSync

/-- `reason` as the string it is. -/
def ExclusionReason.value : ExclusionReason → String
  | blocked reason => render reason.value
  | blockedCorrespondence => "blocked-correspondence"
  | blockedDependency => "blocked-dependency"
  | incompleteScan => "incomplete-scan"

def ScanSide.value : ScanSide → String
  | source => "source"
  | target => "target"

/-- `str` of a tuple of strings without quotes. -/
def tupleText : List String → String
  | [] => "()"
  | [text] => "('" ++ text ++ "',)"
  | texts => "('" ++ String.intercalate "', '" texts ++ "')"

def ExclusionDetail.entries : ExclusionDetail → List (String × String)
  | empty => []
  | incompleteSides sides => [("incomplete_sides", tupleText (sides.map ScanSide.value))]
  | excludedDependencies dependencies =>
      [("excluded_dependencies", tupleText (dependencies.map OpId.itemId))]

section SyncResult

variable [Unicode]

theorem operationKind_ne (operation : PlanOperation) : render operation.kind.value ≠ "" :=
  Executor.kindValue_ne _

/-- The item of an exclusion. -/
def exclusionItem (operation : PlanOperation) (exclusion : OperationExclusion) : ItemOutcome where
  itemId := exclusion.opId.itemId
  kind := render operation.kind.value
  path := render operation.targetRelPath.text
  outcome := exclusion.outcome
  reason := some exclusion.reason.value
  detail := exclusion.detail.entries
  itemId_ne := Executor.itemId_ne _
  kind_ne := operationKind_ne operation

/-- `_exclusion_items`; `none` is the `KeyError` of an operation that the plan
does not have. -/
def exclusionItems (plan : Plan) (decision : ExecutionSelection) (selection : List OpId) :
    Option (List ItemOutcome) :=
  (decision.exclusions.filter fun exclusion => exclusion.opId ∉ selection).mapM fun exclusion =>
    (plan.operations.find? (·.opId = exclusion.opId)).map (exclusionItem · exclusion)

/-- `by_id`: of two items with one id, the later. -/
def byItemId (items : List ItemOutcome) : Dict String ItemOutcome :=
  items.foldl (fun byId item => byId.set item.itemId item) .empty

/-- `ordered`, with what is left of `by_id`. -/
def popOrdered : List PlanOperation → Dict String ItemOutcome →
    List ItemOutcome × Dict String ItemOutcome
  | [], byId => ([], byId)
  | operation :: operations, byId =>
      match byId.get? operation.opId.itemId with
      | some item =>
          let rest := popOrdered operations (byId.pop operation.opId.itemId)
          (item :: rest.1, rest.2)
      | none => popOrdered operations byId

/-- `_merge_operation_results`. -/
def mergeOperationResults (plan : Plan) (executed excluded : List ItemOutcome) :
    List ItemOutcome :=
  let ordered := popOrdered plan.operations (byItemId (executed ++ excluded))
  ordered.1 ++ ordered.2.values

/-- The operations of the result, once `execute` has returned. -/
def executionOperations (xset : ExecutionSet) (result : OperationResult) :
    Option (List ItemOutcome) :=
  (exclusionItems xset.plan (deriveExecutionSelection xset.plan) xset.selection).map
    (mergeOperationResults xset.plan result.operations)

/-! ## The merge

`pop` takes each item once, so the merged list has the items of the plan in its
order and each at most once. -/

omit [Unicode] in
theorem byItemId_append_singleton (items : List ItemOutcome) (item : ItemOutcome) :
    byItemId (items ++ [item]) = (byItemId items).set item.itemId item := by
  unfold byItemId
  rw [List.foldl_append]
  rfl

omit [Unicode] in
/-- Every item stands under its own id. -/
theorem itemId_byItemId (items : List ItemOutcome) (key : String) (item : ItemOutcome)
    (h : (byItemId items).get? key = some item) : item.itemId = key ∧ item ∈ items := by
  induction items using List.reverseRecOn with
  | nil => cases h
  | append_singleton items last ih =>
      rw [byItemId_append_singleton, Dict.get?_set] at h
      split at h
      · next hkey =>
          obtain rfl := Option.some.inj h
          exact ⟨hkey.symm, List.mem_append_right _ (List.mem_singleton.2 rfl)⟩
      · obtain ⟨hkey, hmem⟩ := ih h
        exact ⟨hkey, List.mem_append_left _ hmem⟩

omit [Unicode] in
theorem byItemId_contains (items : List ItemOutcome) (key : String) :
    (byItemId items).contains key = true ↔ key ∈ items.map (·.itemId) := by
  induction items using List.reverseRecOn with
  | nil => simp [byItemId, Dict.contains]
  | append_singleton items last ih =>
      rw [byItemId_append_singleton, List.map_append, List.mem_append, ← ih, Dict.contains,
        Dict.contains, Dict.get?_set]
      split
      · next hkey => simp [hkey]
      · next hkey => simp [hkey]

/-- What is taken is what is there, in the order of the operations; the rest
stands under other ids. -/
theorem popOrdered_eq {operations : List PlanOperation}
    (hnodup : (operations.map PlanOperation.opId).Nodup) (byId : Dict String ItemOutcome) :
    (popOrdered operations byId).1 =
        operations.filterMap (fun operation => byId.get? operation.opId.itemId) ∧
      ∀ key, (popOrdered operations byId).2.get? key =
        if key ∈ operations.map (·.opId.itemId) then none else byId.get? key := by
  induction operations generalizing byId with
  | nil => exact ⟨rfl, fun key => by simp [popOrdered]⟩
  | cons first rest ih =>
      obtain ⟨hfresh, hrest⟩ := List.nodup_cons.1 hnodup
      have hother : ∀ operation ∈ rest, operation.opId.itemId ≠ first.opId.itemId := by
        intro operation hmem heq
        exact hfresh (OpId.itemId_inj heq ▸ List.mem_map_of_mem hmem)
      unfold popOrdered
      rw [List.filterMap_cons]
      split
      · next item hget =>
          obtain ⟨htaken, hleft⟩ := ih hrest (byId.pop first.opId.itemId)
          rw [hget]
          refine ⟨?_, fun key => ?_⟩
          · show item :: _ = item :: _
            rw [htaken]
            refine congrArg (item :: ·) (List.filterMap_congr fun operation hmem => ?_)
            exact Dict.get?_pop_ne _ (hother operation hmem)
          · show (popOrdered rest _).2.get? key = _
            rw [hleft, Dict.get?_pop]
            simp only [List.map_cons, List.mem_cons]
            split <;> split <;> simp_all
      · next hget =>
          obtain ⟨htaken, hleft⟩ := ih hrest byId
          rw [hget]
          refine ⟨htaken, fun key => ?_⟩
          rw [hleft]
          simp only [List.map_cons, List.mem_cons]
          split
          · next hmem => rw [if_pos (Or.inr hmem)]
          · next hmem =>
              split
              · next hkey => rw [hkey.resolve_right hmem, hget]
              · rfl

/-- Two lists that answer for operations of the plan are merged into one item
for each, in the order of the plan. -/
theorem mergeOperationResults_ids {plan : Plan} {executed excluded : List ItemOutcome}
    {p q : PlanOperation → Bool}
    (hexecuted : executed.map (·.itemId) = (plan.operations.filter p).map (·.opId.itemId))
    (hexcluded : excluded.map (·.itemId) = (plan.operations.filter q).map (·.opId.itemId)) :
    (mergeOperationResults plan executed excluded).map (·.itemId) =
      (plan.operations.filter fun operation => p operation || q operation).map
        (·.opId.itemId) := by
  have hnodup := (nodup_of_checkOperations plan.checked).1
  obtain ⟨htaken, hleft⟩ := popOrdered_eq hnodup (byItemId (executed ++ excluded))
  -- What the dictionary has: the executed items and the excluded ones.
  have hcontains : ∀ key, (byItemId (executed ++ excluded)).contains key = true ↔
      ∃ operation ∈ plan.operations, (p operation || q operation) = true ∧
        operation.opId.itemId = key := by
    intro key
    rw [byItemId_contains, List.map_append, hexecuted, hexcluded, ← List.map_append, List.mem_map]
    simp only [List.mem_append, List.mem_filter, Bool.or_eq_true]
    constructor
    · rintro ⟨operation, hmem | hmem, hkey⟩
      · exact ⟨operation, hmem.1, Or.inl hmem.2, hkey⟩
      · exact ⟨operation, hmem.1, Or.inr hmem.2, hkey⟩
    · rintro ⟨operation, hmem, hp | hq, hkey⟩
      · exact ⟨operation, Or.inl ⟨hmem, hp⟩, hkey⟩
      · exact ⟨operation, Or.inr ⟨hmem, hq⟩, hkey⟩
  -- All of them are operations of the plan, so the loop leaves nothing behind.
  have hnone : (popOrdered plan.operations (byItemId (executed ++ excluded))).2.isEmpty = true := by
    refine Dict.isEmpty_of_get? fun key => ?_
    rw [hleft]
    split
    · rfl
    · next hout =>
        rw [← Option.not_isSome_iff_eq_none]
        intro hsome
        obtain ⟨operation, hmem, -, hkey⟩ := (hcontains key).1 hsome
        exact hout (hkey ▸ List.mem_map_of_mem hmem)
  have hvalues : (popOrdered plan.operations (byItemId (executed ++ excluded))).2.values = [] := by
    show List.map _ _ = []
    rw [List.isEmpty_iff.1 hnone, List.map_nil]
  show ((popOrdered plan.operations (byItemId (executed ++ excluded))).1 ++
    (popOrdered plan.operations (byItemId (executed ++ excluded))).2.values).map _ = _
  rw [hvalues, List.append_nil, htaken, List.map_filterMap, ← List.filterMap_eq_map',
    List.filterMap_filter]
  refine List.filterMap_congr fun operation hmem => ?_
  cases hget : (byItemId (executed ++ excluded)).get? operation.opId.itemId with
  | some item =>
      have hin : (p operation || q operation) = true := by
        obtain ⟨other, hother, hpq, hkey⟩ := (hcontains operation.opId.itemId).1
          (by rw [Dict.contains, hget]; rfl)
        rwa [plan.eq_of_opId hother hmem (OpId.itemId_inj hkey)] at hpq
      rw [if_pos hin, Option.map_some, (itemId_byItemId _ _ _ hget).1]
  | none =>
      rw [if_neg, Option.map_none]
      intro hpq
      have hin := (hcontains operation.opId.itemId).2 ⟨operation, hmem, hpq, rfl⟩
      rw [Dict.contains, hget] at hin
      cases hin

/-- Every exclusion that was not selected after all has its item. -/
theorem exclusionItems_eq (plan : Plan) (selection : List OpId) :
    ∃ items, exclusionItems plan (deriveExecutionSelection plan) selection = some items ∧
      items.map (·.itemId) = (plan.operations.filter fun operation =>
        plan.exclusions.contains operation.opId && !decide (operation.opId ∈ selection)).map
          (·.opId.itemId) := by
  have hall : ∀ operations : List PlanOperation,
      (∀ operation ∈ operations, operation ∈ plan.operations) →
      ∃ items, ((operations.filterMap fun operation => plan.exclusions.get? operation.opId).filter
          fun exclusion => decide (exclusion.opId ∉ selection)).mapM (fun exclusion =>
            (plan.operations.find? (·.opId = exclusion.opId)).map (exclusionItem · exclusion)) =
          some items ∧
        items.map (·.itemId) = (operations.filter fun operation =>
          plan.exclusions.contains operation.opId && !decide (operation.opId ∈ selection)).map
            (·.opId.itemId) := by
    intro operations
    induction operations with
    | nil => exact fun _ => ⟨[], rfl, rfl⟩
    | cons first rest ih =>
        intro h
        obtain ⟨items, hitems, hids⟩ := ih fun operation hmem => h operation
          (List.mem_cons_of_mem _ hmem)
        rw [List.filterMap_cons, List.filter_cons]
        cases hget : plan.exclusions.get? first.opId with
        | none => exact ⟨items, hitems, by simpa [Dict.contains, hget] using hids⟩
        | some exclusion =>
            have hid := plan.keyed_exclusions _ _ hget
            by_cases hselected : first.opId ∈ selection
            · refine ⟨items, ?_, by simpa [Dict.contains, hget, hselected] using hids⟩
              rw [List.filter_cons_of_neg (by simp [hid, hselected])]
              exact hitems
            · have hfind :
                  plan.operations.find? (fun operation => operation.opId = exclusion.opId) =
                  some first := by
                have hsome : (plan.operations.find?
                    fun operation => operation.opId = exclusion.opId).isSome = true :=
                  List.find?_isSome.2 ⟨first, h first List.mem_cons_self, by simp [hid]⟩
                obtain ⟨found, hfound⟩ := Option.isSome_iff_exists.1 hsome
                have hmem := List.mem_of_find?_eq_some hfound
                have heq := List.find?_some hfound
                rw [hfound, plan.eq_of_opId hmem (h first List.mem_cons_self)
                  ((of_decide_eq_true heq).trans hid)]
              refine ⟨exclusionItem first exclusion :: items, ?_, ?_⟩
              · rw [List.filter_cons_of_pos (by simp [hid, hselected]), List.mapM_cons, hfind,
                  hitems]
                rfl
              · simp [Dict.contains, hget, hselected, hids, exclusionItem, hid]
  exact hall plan.operations fun _ h => h

end SyncResult

end NamiSync
