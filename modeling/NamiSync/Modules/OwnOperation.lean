/-
# `Modules.OwnOperation` — one operation for each source file

The loop over the assigned files looks a file up by its key and goes on with
the first one that has the key.  A file that is alone with its key is
reported by its own operation; of several that share one, the first is
reported several times and the others not at all.

## What is proved

    own_operation_iff : under the identity policy, a source file that the
      filters let through is reported by exactly one operation of a plan, if
      and only if no other source file has its key

`Reports` compares the operation's source path with the file's spelling, and
its evidence with the file's stat: an operation about another spelling of the
key is not about the file.

## The argument

Only the loop over the assigned files reports source files
(`reporting_step`); a step is about the first file with the item's key
(`contentStep_reports`); and the items are the source files once each
(`Survey.Identity`).
-/
import NamiSync.Lib.Checked
import NamiSync.Modules.MovePlan

namespace NamiSync

section Planning

variable [Unicode]

/-- The kinds of the operations about a file of the source. -/
def OperationKind.ofFile (kind : OperationKind) : Bool :=
  kind ∈ [.copy, .update, .move, .moveUpdate, .recase, .noop]

/-- The operation is about a source file, as the scan saw it. -/
def PlanOperation.Reports (operation : PlanOperation) (record : FileRecord) : Prop :=
  operation.kind.ofFile = true ∧ operation.sourceRelPath = some record.relPath ∧
    operation.sourceExpected = some record.stat

instance (operation : PlanOperation) (record : FileRecord) :
    Decidable (operation.Reports record) := inferInstanceAs (Decidable (_ ∧ _))

theorem two_at {records : List FileRecord} {a b : FileRecord} (ha : a ∈ records)
    (hb : b ∈ records) (hkey : a.key = b.key) (hne : a ≠ b) :
    1 < (filesAt records b.key).length := by
  have hina : a ∈ filesAt records b.key := mem_filesAt_iff.2 ⟨ha, hkey⟩
  have hinb : b ∈ filesAt records b.key := mem_filesAt_iff.2 ⟨hb, rfl⟩
  match hat : filesAt records b.key with
  | [] =>
      rw [hat] at hina
      exact absurd hina List.not_mem_nil
  | [only] =>
      rw [hat, List.mem_singleton] at hina hinb
      exact absurd (hina.trans hinb.symm) hne
  | _ :: _ :: _ => simp

/-! ## What validation promises

The assignment was validated before the loop: every item has a source file, and
no two items name one file. -/

theorem plan_valid [Digest] {source target : ScanResult} {correspondence : MappingSnapshot}
    {options : SyncOptions} {scope : Scope} {result : Plan}
    (h : plan source target correspondence options scope = .ok result) :
    (survey source target correspondence options).validateAssignment = none := by
  unfold plan at h
  split at h
  · exact absurd h (by simp)
  · dsimp only at h
    split at h
    · exact absurd h (by simp)
    · assumption

section Validation

variable {survey : Survey}

/-- The loop lets each source through once. -/
theorem validateItems_eq_none {sources seen : List RelPath} {items : List DestinationAssignment}
    (h : Survey.validateItems sources seen items = none) :
    (items.map DestinationAssignment.sourceRelPath).Nodup ∧
      ∀ item ∈ items, item.sourceRelPath ∈ sources ∧ item.sourceRelPath ∉ seen := by
  induction items generalizing seen with
  | nil => exact ⟨List.nodup_nil, fun _ hmem => absurd hmem List.not_mem_nil⟩
  | cons first rest ih =>
      rw [Survey.validateItems] at h
      split at h
      · exact absurd h (by simp)
      · next hknown =>
          split at h
          · exact absurd h (by simp)
          · next hfresh =>
              obtain ⟨hnodup, hrest⟩ := ih h
              constructor
              · rw [List.map_cons, List.nodup_cons]
                refine ⟨?_, hnodup⟩
                intro hmem
                obtain ⟨other, hother, hsame⟩ := List.mem_map.1 hmem
                exact (hrest other hother).2 (by rw [hsame]; exact List.mem_cons_self)
              · intro item hitem
                rcases List.mem_cons.1 hitem with rfl | hitem
                · exact ⟨not_not.1 hknown, hfresh⟩
                · obtain ⟨hin, hnot⟩ := hrest item hitem
                  exact ⟨hin, fun hseen => hnot (List.mem_cons_of_mem _ hseen)⟩

theorem items_nodup (h : survey.validateAssignment = none) :
    (survey.assignment.items.map DestinationAssignment.sourceRelPath).Nodup :=
  (validateItems_eq_none h).1

theorem item_source (h : survey.validateAssignment = none) {item : DestinationAssignment}
    (hitem : item ∈ survey.assignment.items) :
    ∃ record ∈ survey.sourceFiles, record.relPath = item.sourceRelPath :=
  List.mem_map.1 ((validateItems_eq_none h).2 item hitem).1

/-- A file that is assigned its own path, once, has the path for itself. -/
theorem Survey.Identity.sourceFiles_nodup (h : survey.Identity)
    (hvalid : survey.validateAssignment = none) :
    (survey.sourceFiles.map FileRecord.relPath).Nodup := by
  have hnodup := items_nodup hvalid
  rw [h.items_eq, List.map_map] at hnodup
  exact ((List.perm_insertionSort _ _).map _).nodup_iff.1 hnodup

end Validation

variable [Digest]

/-! ## The operations of a plan

`Plans` lists where an operation of a plan can come from. -/

namespace Survey

variable (survey : Survey)

/-- The steps of the loop over the assigned files. -/
def steps : List ContentStep := survey.contentSteps survey.mkdirs.2

/-- `moved_from_keys`. -/
def movedFrom : List Str := survey.steps.filterMap ContentStep.movedFromKey

/-- `removal_operations` of the plan. -/
def removalOperations : List PlanOperation :=
  survey.removals (survey.steps.filterMap ContentStep.claimedTargetKey) survey.movedFrom

/-- `removed_file_keys`. -/
def removedFileKeys : List Str :=
  survey.movedFrom ++ survey.removalOperations.map PlanOperation.targetKey

/-- `removal_by_path` of the plan. -/
def takenAway : Dict RelPath PlanOperation :=
  removalByPath (survey.steps.map ContentStep.operation ++ survey.removalOperations)

/-- `cleanup_operations`. -/
def cleanups : List PlanOperation :=
  survey.cleanupLoop survey.removedFileKeys survey.takenAway
    (sortedBy cleanupKey survey.targetDirs) .empty

theorem operations_eq : survey.operations =
    survey.mkdirs.1 ++ survey.steps.map ContentStep.operation ++ survey.removalOperations ++
      survey.unsupportedOperations ++ survey.cleanups := rfl

/-- The loop that an operation of the plan comes from. -/
inductive Plans (operation : PlanOperation) : Prop
  | mkdir (hmkdir : operation ∈ survey.mkdirs.1)
  | content (item : DestinationAssignment) (hitem : item ∈ survey.assignment.items)
      (step : ContentStep) (hcase : survey.contentStep survey.mkdirs.2 item = some step)
      (hstep : step.operation = operation)
  | removal (kind : OperationKind) (record : FileRecord) (hrecord : record ∈ survey.targetFiles)
      (hkind : kind = if survey.options.deletionPolicy = .trash then .trash else .delete)
      (hremoval : operation = removalOperation kind record)
  | unsupported (record : UnsupportedRecord)
      (hrecord : record ∈ survey.source.unsupported ++ survey.target.unsupported)
      (hin : survey.options.filters.excludes record.relPath = false)
      (hblocked : operation = blockedOperation .noop (some record.relPath) record.relPath none none
        none .unsupported .unsupported none)
  | cleanup (directory : DirRecord) (hdirectory : directory ∈ survey.targetDirs) (path : RelPath)
      (hpath : directory.relPath = some path) (before : Dict Str PlanOperation)
      (hkeep : survey.keepsDirectory survey.removedFileKeys before path = false)
      (hcleanup : operation = cleanupOperation survey.takenAway before directory path)

variable {survey}

theorem plans_of_mem {operation : PlanOperation} (h : operation ∈ survey.operations) :
    survey.Plans operation := by
  rw [operations_eq] at h
  simp only [List.mem_append] at h
  rcases h with (((h | h) | h) | h) | h
  · exact .mkdir h
  · obtain ⟨step, hstep, rfl⟩ := List.mem_map.1 h
    obtain ⟨item, hitem, hcase⟩ := mem_contentSteps hstep
    exact .content item hitem step hcase rfl
  · unfold removalOperations removals at h
    split at h
    · exact absurd h List.not_mem_nil
    · obtain ⟨record, hrecord, rfl⟩ := List.mem_map.1 h
      exact .removal _ record (List.mem_filter.1 hrecord).1 rfl rfl
  · obtain ⟨path, hpath, rfl⟩ := List.mem_map.1 h
    rw [mem_sortedBy, List.mem_dedup] at hpath
    obtain ⟨record, hrecord, rfl⟩ := List.mem_map.1 hpath
    obtain ⟨hrecord, hin⟩ := List.mem_filter.1 hrecord
    exact .unsupported record hrecord (by simpa using hin) rfl
  · obtain ⟨directory, hdirectory, path, before, hpath, hkeep, rfl⟩ := mem_cleanupLoop h
    exact .cleanup directory (mem_sortedBy.1 hdirectory) path hpath before hkeep rfl

end Survey

/-! ## What a step reports

A step is about the first file under the key of its item, whichever spelling the
item has. -/

section Steps

variable {survey : Survey} {created : Created} {item : DestinationAssignment}
  {source target : FileRecord} {dependency : Option PlanOperation} {step : ContentStep}

theorem matchedStep_reports {mismatch : Bool} :
    (survey.matchedStep item source target mismatch dependency).operation.Reports source := by
  unfold Survey.matchedStep
  dsimp only
  cases metadataEqual source.stat target.stat survey.granularity <;>
    split <;> try (split <;> try split) <;> exact ⟨rfl, rfl, rfl⟩

theorem unmatchedStep_reports :
    (survey.unmatchedStep item source dependency).operation.Reports source := by
  unfold Survey.unmatchedStep
  split
  · next pair oldTarget _ =>
      dsimp only
      refine ⟨?_, rfl, rfl⟩
      cases metadataEqual source.stat oldTarget.stat survey.granularity <;> rfl
  · exact ⟨rfl, rfl, rfl⟩

/-- What the loop makes of an item whose key the source file has first. -/
inductive StepFrom (survey : Survey) (created : Created) (item : DestinationAssignment)
    (source : FileRecord) : ContentStep → Prop
  | blocked (targetExpected : Option FileStat) (reason : OperationReason)
      (blockedReason : BlockedReason) (claimed : Option Str)
      (hreason : reason ∈ [.caseCollision, .policyCollision, .typeCollision, .sourceOnly]) :
      StepFrom survey created item source
        ⟨blockedOperation .copy (some source.relPath) item.targetRelPath (some source.stat)
          targetExpected (some source.stat) reason blockedReason
          (nearestCreatedParent item.targetRelPath created), claimed, none⟩
  | matched (target : FileRecord) (mismatch : Bool) :
      StepFrom survey created item source (survey.matchedStep item source target mismatch
        (nearestCreatedParent item.targetRelPath created))
  | unmatched :
      StepFrom survey created item source (survey.unmatchedStep item source
        (nearestCreatedParent item.targetRelPath created))

theorem contentStep_from (h : survey.contentStep created item = some step) :
    ∃ source, (filesAt survey.sourceFiles item.sourceKey).head? = some source ∧
      StepFrom survey created item source step := by
  unfold Survey.contentStep at h
  dsimp only at h
  split at h
  · exact absurd h (by simp)
  · next source rest hsource =>
      refine ⟨source, by rw [hsource]; rfl, ?_⟩
      obtain rfl := Option.some.inj h
      generalize hmismatch : ((filesAt survey.targetFiles item.targetKey).isEmpty &&
        (survey.normalizationPair item).isSome) = mismatch
      generalize (if mismatch = true then (survey.normalizationPair item).toList
        else filesAt survey.targetFiles item.targetKey) = values
      split
      · refine .blocked _ _ _ _ ?_
        split <;> simp
      · split
        · exact .blocked _ _ _ _ (by simp)
        · split
          · exact .blocked _ _ _ _ (by simp)
          · split
            · exact .matched _ _
            · exact .unmatched

/-- A step is about the first source file with the item's key. -/
theorem contentStep_reports (h : survey.contentStep created item = some step) :
    ∃ source, (filesAt survey.sourceFiles item.sourceKey).head? = some source ∧
      step.operation.Reports source := by
  obtain ⟨source, hsource, hfrom⟩ := contentStep_from h
  refine ⟨source, hsource, ?_⟩
  cases hfrom with
  | blocked => exact ⟨rfl, rfl, rfl⟩
  | matched => exact matchedStep_reports
  | unmatched => exact unmatchedStep_reports

/-- Two source files with the item's key block it, where it is. -/
theorem contentStep_crowded (h : survey.contentStep created item = some step)
    (hcrowded : 1 < (filesAt survey.sourceFiles item.sourceKey).length) :
    step.operation.kind = .copy ∧ step.operation.targetRelPath = item.targetRelPath ∧
      step.operation.priorTargetRelPath = none ∧ step.operation.reason = .caseCollision := by
  unfold Survey.contentStep at h
  dsimp only at h
  split at h
  · exact absurd h (by simp)
  · obtain rfl := Option.some.inj h
    simp [hcrowded, blockedOperation]

/-- Only the loop over the assigned files reports source files. -/
theorem reporting_step {operation : PlanOperation} {record : FileRecord}
    (h : operation ∈ survey.operations) (hreports : operation.Reports record) :
    ∃ step ∈ survey.contentSteps survey.mkdirs.2, step.operation = operation := by
  obtain ⟨hkind, hsource, hexpected⟩ := hreports
  cases Survey.plans_of_mem h with
  | mkdir hmkdir =>
      rw [mem_mkdirs hmkdir] at hkind
      exact absurd hkind Bool.false_ne_true
  | content item hitem step hcase hstep =>
      exact ⟨step, List.mem_filterMap.2 ⟨item, mem_sortedBy.2 hitem, hcase⟩, hstep⟩
  | removal kind record _ _ hremoval =>
      rw [hremoval] at hsource
      exact absurd hsource (by simp [Survey.removalOperation])
  | unsupported record _ _ hblocked =>
      rw [hblocked] at hexpected
      exact absurd hexpected (by simp [blockedOperation])
  | cleanup directory _ path _ before _ hcleanup =>
      rw [hcleanup] at hsource
      exact absurd hsource (by simp [Survey.cleanupOperation])

end Steps

/-! ## One operation

Under the identity policy each file with a key is an item, and the steps of all
these items are about the first of the files. -/

section Identity

variable {survey : Survey}

/-- Under the identity policy a reporting step is the step of some file with
the key of the reported one, which is the first with that key. -/
theorem Survey.Identity.reporting_file (h : survey.Identity)
    (hnodup : (survey.sourceFiles.map FileRecord.relPath).Nodup) {operation : PlanOperation}
    {record : FileRecord} (hmem : operation ∈ survey.operations)
    (hreports : operation.Reports record) (hrecord : record ∈ survey.sourceFiles) :
    ∃ other ∈ survey.sourceFiles, other.key = record.key ∧
      (filesAt survey.sourceFiles record.key).head? = some record ∧
      ∃ step, survey.contentStep survey.mkdirs.2 (identityItem other) = some step ∧
        step.operation = operation := by
  obtain ⟨step, hstep, rfl⟩ := reporting_step hmem hreports
  obtain ⟨item, hitem, hcase⟩ := mem_contentSteps hstep
  obtain ⟨other, hother, rfl⟩ := h.mem_items.1 hitem
  obtain ⟨first, hfirst, hof⟩ := contentStep_reports hcase
  have hpath : first.relPath = record.relPath :=
    Option.some.inj (hof.2.1.symm.trans hreports.2.1)
  obtain ⟨hmem, hkey⟩ := mem_filesAt_iff.1 (List.mem_of_mem_head? hfirst)
  obtain rfl := List.inj_on_of_nodup_map hnodup hmem hrecord hpath
  have hfirst : (filesAt survey.sourceFiles other.key).head? = some first := hfirst
  rw [← show first.key = other.key from hkey] at hfirst
  exact ⟨other, hother, hkey.symm, hfirst, step, hcase, rfl⟩

/-- The step of a file under the identity policy. -/
theorem Survey.Identity.step_of (h : survey.Identity) {record : FileRecord}
    (hrecord : record ∈ survey.sourceFiles) :
    ∃ step, survey.contentStep survey.mkdirs.2 (identityItem record) = some step ∧
      step.operation ∈ survey.operations := by
  have hitem := h.mem_items.2 ⟨record, hrecord, rfl⟩
  obtain ⟨step, hstep, hcase⟩ := contentSteps_covers hitem hrecord rfl
  exact ⟨step, hcase, step_mem_operations hstep⟩

end Identity

/-- A source file that the filters let through has exactly one operation,
just when it is alone with its key. -/
theorem own_operation_iff {source target : ScanResult} {correspondence : MappingSnapshot}
    {options : SyncOptions} {scope : Scope} {result : Plan}
    (hpolicy : options.destinationPolicy = identityDestinationPolicy)
    (hplan : plan source target correspondence options scope = .ok result)
    {record : FileRecord} (hrecord : record ∈ source.files)
    (hin : options.filters.excludes record.relPath = false) :
    (∃! operation, operation ∈ result.operations ∧ operation.Reports record) ↔
      ∀ other ∈ source.files, other.key = record.key → other = record := by
  have hvalid := plan_valid hplan
  rw [(plan_eq_ok hplan).1]
  have hidentity : (survey source target correspondence options).Identity := by
    unfold Survey.Identity
    rw [← hpolicy]
    rfl
  have hfile {other : FileRecord} (hother : other ∈ source.files) (hkey : other.key = record.key) :
      other ∈ (survey source target correspondence options).sourceFiles :=
    mem_sourceFiles.2 ⟨hother, by rw [options.filters.excludes_congr hkey, hin]⟩
  have hrecord' := hfile hrecord rfl
  have hlisted {other : FileRecord}
      (hother : other ∈ (survey source target correspondence options).sourceFiles) :
      other ∈ source.files := (mem_sourceFiles.1 hother).1
  generalize survey source target correspondence options = tables at *
  have hnodup := hidentity.sourceFiles_nodup hvalid
  constructor
  · rintro ⟨operation, ⟨hmem, hreports⟩, hunique⟩ other hother hkey
    obtain ⟨-, -, -, hhead, -⟩ := hidentity.reporting_file hnodup hmem hreports hrecord'
    by_contra hne
    -- Both files are blocked, and both blocks are about the first one.
    have hcrowded := two_at (hfile hother hkey) hrecord' hkey hne
    have hblocks {found : FileRecord} (hfound : found ∈ tables.sourceFiles)
        (hfoundkey : found.key = record.key) : operation.targetRelPath = found.relPath := by
      obtain ⟨step, hcase, hin⟩ := hidentity.step_of hfound
      have hsourceKey : (identityItem found).sourceKey = record.key := hfoundkey
      obtain ⟨first, hfirst, hof⟩ := contentStep_reports hcase
      rw [hsourceKey, hhead] at hfirst
      obtain rfl := Option.some.inj hfirst
      rw [← hunique step.operation ⟨hin, hof⟩]
      exact (contentStep_crowded hcase (by rw [hsourceKey]; exact hcrowded)).2.1
    refine hne (List.inj_on_of_nodup_map hnodup (hfile hother hkey) hrecord' ?_)
    rw [← hblocks (hfile hother hkey) hkey, hblocks hrecord' rfl]
  · intro halone
    obtain ⟨step, hcase, hmem⟩ := hidentity.step_of hrecord'
    obtain ⟨first, hfirst, hof⟩ := contentStep_reports hcase
    obtain ⟨hfirstmem, hkey⟩ := mem_filesAt_iff.1 (List.mem_of_mem_head? hfirst)
    obtain rfl := halone first (hlisted hfirstmem) hkey
    refine ⟨step.operation, ⟨hmem, hof⟩, ?_⟩
    rintro operation ⟨hoperation, hreports⟩
    obtain ⟨other, hother, hsame, -, step', hcase', rfl⟩ :=
      hidentity.reporting_file hnodup hoperation hreports hrecord'
    obtain rfl := halone other (hlisted hother) hsame
    rw [Option.some.inj (hcase'.symm.trans hcase)]

end Planning

/-! Two source files whose names differ in case, and one on its own. -/

section Sample

local instance ownUnicode : Unicode := asciiUnicode

/-- The digests of the operations and of the default options. -/
local instance ownDigest : Digest where
  operation _ _ target _ _ :=
    if target = str "A" then 0x0a572ba9d0442bb5e7107a1a7a2a44e5
    else if target = str "a" then 0x6287b3a040a93b3ea94d9a6f3f9303cd
    else 0xfd879c3a8f964e842e9473af43d88256
  policy _ _ _ _ _ _ _ := str "b76cbc151bb77cf44410d52a81920a1d43824e657978598268e9074d4a4605ff"

def ownRecord (name : Str) (hname : IsComponent name) : FileRecord where
  relPath := .single name hname
  size := 3
  mtimeNs := 1700000000000000000
  fileIdentity := none
  nlink := 1
  metadata := ⟨0x20, none⟩

/-- A scan of a volume that gives no identities. -/
abbrev ownScan (files : List FileRecord) : ScanResult := sampleScan none files

def upperA : FileRecord := ownRecord (str "A") (by decide +kernel)

def lowerA : FileRecord := ownRecord (str "a") (by decide +kernel)

def lowerB : FileRecord := ownRecord (str "b") (by decide +kernel)

def crowdedPlan : Plan :=
  (plan (ownScan [upperA, lowerA, lowerB]) (ownScan []) {} {} .everything).toOption.get
    (by decide +kernel)

theorem crowded_planned :
    plan (ownScan [upperA, lowerA, lowerB]) (ownScan []) {} {} .everything = .ok crowdedPlan :=
  Checked.ok_of_get _

/-- The file on its own has its operation. -/
theorem own_operation_of_lowerB :
    ∃! operation, operation ∈ crowdedPlan.operations ∧ operation.Reports lowerB :=
  (@own_operation_iff _ _ _ _ _ _ _ _ rfl crowded_planned lowerB (by simp [sampleScan]) rfl).2
    (by decide +kernel)

/-- The second file of a key has none. -/
theorem lowerA_unreported :
    ¬ ∃ operation ∈ crowdedPlan.operations, operation.Reports lowerA := by
  decide +kernel

theorem file_without_operation :
    ¬ ∀ (source target : ScanResult) (correspondence : MappingSnapshot) (options : SyncOptions)
        (scope : Scope) (result : Plan),
      options.destinationPolicy = identityDestinationPolicy →
      plan source target correspondence options scope = .ok result →
      ∀ record ∈ source.files, options.filters.excludes record.relPath = false →
        ∃! operation, operation ∈ result.operations ∧ operation.Reports record := by
  intro h
  obtain ⟨operation, ⟨hmem, hreports⟩, -⟩ := h (ownScan [upperA, lowerA, lowerB]) (ownScan []) {}
    {} .everything crowdedPlan rfl crowded_planned lowerA (by simp [sampleScan]) rfl
  exact lowerA_unreported ⟨operation, hmem, hreports⟩

end Sample

end NamiSync
