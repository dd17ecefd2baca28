/-
# `Modules.MovePlan` — when the planner moves a file

A source file without a counterpart on the target is moved when `_move_pair`
finds the copy it had under another name, and copied otherwise.

## What is proved

`Unmatched.renames_iff`: a source file at a free path is renamed on the target
exactly when its copy is found (`movePair`) and no file of the target has its
name up to normalization.  `HadCopy.movePair_isSome` says when a copy is
found: the ledger does not disqualify the identity, and no source file has
the old name.

These are facts about one call of `plan`.  Which ledgers a history of runs
leaves behind is `Workflows.Renames`.
-/
import NamiSync.Modules.PlanShape

namespace NamiSync

variable [Unicode]

/-- The kinds that rename on the target. -/
def OperationKind.renames (kind : OperationKind) : Bool := kind ∈ [.move, .moveUpdate]

/-- What a scan and a mapping snapshot say of a file that had a copy under
another name. -/
structure HadCopy (survey : Survey) (record : FileRecord) (desiredKey : Str) (pair : MappingPair)
    (copy : FileRecord) (identity copyIdentity : FileIdentity) : Prop where
  identity_eq : record.fileIdentity = some identity
  nlink_eq : record.nlink = 1
  alone : identityCount survey.sourceFiles identity = 1
  stable : survey.source.profile.stableFileIdentity = true ∧
    survey.target.profile.stableFileIdentity = true
  sourceVolume : ∃ volume, survey.source.volumeId = some volume ∧
    survey.correspondence.sourceVolumeId = some volume ∧ identity.volumeSerial = volume.serial
  targetVolume : ∃ volume, survey.target.volumeId = some volume ∧
    survey.correspondence.targetVolumeId = some volume ∧ copyIdentity.volumeSerial = volume.serial
  unambiguous : record.key ∉ survey.correspondence.ambiguousSourceKeys
  pairs_eq : survey.correspondence.pairs.filter (·.sourceIdentity = identity) = [pair]
  pair_identity : ∀ expected ∈ pair.targetIdentity, copyIdentity = expected
  renamed : pair.targetKey ≠ desiredKey
  copy_eq : filesAt survey.targetFiles pair.targetKey = [copy]
  copyIdentity_eq : copy.fileIdentity = some copyIdentity
  copyNlink_eq : copy.nlink = 1
  copyAlone : identityCount survey.targetFiles copyIdentity = 1

/-- The copy is found unless the ledger disqualifies one of the identities,
or another file is to take the old name. -/
theorem HadCopy.movePair_isSome {survey : Survey} {record copy : FileRecord} {desiredKey : Str}
    {pair : MappingPair} {identity copyIdentity : FileIdentity}
    (h : HadCopy survey record desiredKey pair copy identity copyIdentity) :
    (survey.movePair record desiredKey).isSome = true ↔
      identity ∉ survey.correspondence.disqualifiedSourceIdentities ∧
        copyIdentity ∉ survey.correspondence.disqualifiedTargetIdentities ∧
          ∀ item ∈ survey.assignment.items, item.targetKey ≠ pair.targetKey := by
  obtain ⟨sourceVolume, hsource, hsourceMapping, hsourceSerial⟩ := h.sourceVolume
  obtain ⟨targetVolume, htarget, htargetMapping, htargetSerial⟩ := h.targetVolume
  obtain ⟨hsourceStable, htargetStable⟩ := h.stable
  have hpair : ¬ ∃ expected ∈ pair.targetIdentity, copyIdentity ≠ expected := by
    rintro ⟨expected, hmem, hne⟩
    exact hne (h.pair_identity expected hmem)
  unfold Survey.movePair
  simp only [h.identity_eq, hsource, htarget, h.nlink_eq, hsourceStable, htargetStable,
    hsourceMapping, htargetMapping, hsourceSerial, h.alone, h.unambiguous, h.pairs_eq, h.renamed,
    h.copy_eq, h.copyIdentity_eq, h.copyNlink_eq, htargetSerial, h.copyAlone, hpair]
  by_cases hidentity : identity ∈ survey.correspondence.disqualifiedSourceIdentities
  · simp [hidentity]
  by_cases htaken : ∃ item ∈ survey.assignment.items, item.targetKey = pair.targetKey
  · obtain ⟨item, hitem, hkey⟩ := htaken
    constructor
    · intro hsome
      have hblocked : ∃ item ∈ survey.assignment.items, item.targetKey = pair.targetKey :=
        ⟨item, hitem, hkey⟩
      simp [hidentity, hblocked] at hsome
    · rintro ⟨-, -, hfree⟩
      exact absurd hkey (hfree item hitem)
  · have hfree : ∀ item ∈ survey.assignment.items, item.targetKey ≠ pair.targetKey :=
      fun item hitem hkey => htaken ⟨item, hitem, hkey⟩
    by_cases hcopy : copyIdentity ∈ survey.correspondence.disqualifiedTargetIdentities
    · simp [hidentity, htaken, hcopy]
    · simp only [hidentity, htaken, hcopy]
      simpa using hfree

/-- The pair of a copy that is found is the only one with the identity. -/
theorem movePair_pair {survey : Survey} {record copy : FileRecord} {desiredKey : Str}
    {pair : MappingPair} (h : survey.movePair record desiredKey = some (pair, copy)) :
    ∃ identity, record.fileIdentity = some identity ∧
      survey.correspondence.pairs.filter (·.sourceIdentity = identity) = [pair] := by
  unfold Survey.movePair at h
  split at h
  · next identity _ _ hidentity _ _ =>
      dsimp only at h
      split at h
      · exact absurd h (by simp)
      · split at h
        · next only hpairs =>
            split at h
            · exact absurd h (by simp)
            · split at h
              · split at h
                · exact absurd h (by simp)
                · split at h
                  · exact absurd h (by simp)
                  · obtain ⟨rfl, -⟩ := Prod.mk.inj (Option.some.inj h)
                    exact ⟨identity, hidentity, hpairs⟩
              · exact absurd h (by simp)
        · exact absurd h (by simp)
  · exact absurd h (by simp)

/-! ## A file whose new path is free

Under the identity policy the item of a file is unique, so the step of the loop
that plans it can be named. -/

/-- The assignment that the identity policy makes of a file. -/
def identityItem (record : FileRecord) : DestinationAssignment :=
  ⟨record.relPath, record.relPath, none, none⟩

/-- The survey assigns every file its own path. -/
def Survey.Identity (survey : Survey) : Prop :=
  survey.assignment = identityDestinationPolicy.assign survey.sourceFiles survey.target

namespace Survey.Identity

variable {survey : Survey} (h : survey.Identity)

include h

theorem items_eq : survey.assignment.items =
    (sortedBy (fun record => recordKey record.relPath) survey.sourceFiles).map identityItem := by
  rw [h]
  rfl

theorem mem_items {item : DestinationAssignment} :
    item ∈ survey.assignment.items ↔ ∃ record ∈ survey.sourceFiles, identityItem record = item := by
  rw [h.items_eq, List.mem_map]
  simp only [mem_sortedBy]

/-- A file alone at its key is alone to be assigned the key. -/
theorem assignedTo_eq {record : FileRecord}
    (hsource : filesAt survey.sourceFiles record.key = [record]) :
    survey.assignedTo record.key = [identityItem record] := by
  have hfilter : (survey.sourceFiles.filter (·.key = record.key)).Perm [record] := by
    rw [← hsource]
    exact (List.perm_insertionSort _ _).symm
  have hsorted : ((sortedBy (fun record => recordKey record.relPath) survey.sourceFiles).filter
      (·.key = record.key)).Perm [record] :=
    ((List.perm_insertionSort _ _).filter _).trans hfilter
  unfold Survey.assignedTo
  rw [h.items_eq, List.filter_map]
  exact congrArg (List.map identityItem) (List.perm_singleton.1 hsorted)

end Survey.Identity

/-- A source file that has its path for itself, which on the target is
free. -/
structure Unmatched (survey : Survey) (record : FileRecord) : Prop where
  identityPolicy : survey.assignment =
    identityDestinationPolicy.assign survey.sourceFiles survey.target
  source_eq : filesAt survey.sourceFiles record.key = [record]
  targetFiles_eq : filesAt survey.targetFiles record.key = []
  targetDirs_eq : directoriesAt survey.targetDirs record.key = []
  folders : ∀ parent ∈ record.relPath.parents, filesAt survey.targetFiles parent.key = [] ∧
    ∃ directory, directoriesAt survey.sourceDirs parent.key = [directory]

namespace Unmatched

variable {survey : Survey} {record : FileRecord} (h : Unmatched survey record)

include h

theorem items_eq : survey.assignment.items =
    (sortedBy (fun record => recordKey record.relPath) survey.sourceFiles).map identityItem :=
  Survey.Identity.items_eq h.identityPolicy

theorem mem_items {item : DestinationAssignment} (hitem : item ∈ survey.assignment.items) :
    ∃ other ∈ survey.sourceFiles, item = identityItem other := by
  obtain ⟨other, hother, rfl⟩ := (Survey.Identity.mem_items h.identityPolicy).1 hitem
  exact ⟨other, hother, rfl⟩

theorem eq_of_key {other : FileRecord} (hother : other ∈ survey.sourceFiles)
    (hkey : other.key = record.key) : other = record := by
  have hmem : other ∈ filesAt survey.sourceFiles record.key := mem_filesAt_iff.2 ⟨hother, hkey⟩
  rw [h.source_eq] at hmem
  exact List.mem_singleton.1 hmem

theorem mem_sourceFiles : record ∈ survey.sourceFiles := by
  have hmem : record ∈ filesAt survey.sourceFiles record.key := by
    rw [h.source_eq]
    exact List.mem_singleton_self record
  exact (mem_filesAt_iff.1 hmem).1

theorem item_mem : identityItem record ∈ survey.assignment.items := by
  rw [h.items_eq]
  exact List.mem_map_of_mem (mem_sortedBy.2 h.mem_sourceFiles)

theorem assignedTo_eq : survey.assignedTo record.key = [identityItem record] :=
  Survey.Identity.assignedTo_eq h.identityPolicy h.source_eq

end Unmatched

/-! ## Steps that rename

Which steps make an operation that renames, and which paths they put in it. -/

variable [Digest]

theorem matchedStep_kind (survey : Survey) (item : DestinationAssignment)
    (source target : FileRecord) (mismatch : Bool) (dependency : Option PlanOperation) :
    (survey.matchedStep item source target mismatch dependency).operation.kind.renames = false := by
  unfold Survey.matchedStep
  dsimp only
  cases metadataEqual source.stat target.stat survey.granularity <;>
    split <;> try (split <;> try split) <;> rfl

/-- A step that renames is for a file whose copy was found. -/
theorem contentStep_renames {survey : Survey} {created : Created} {item : DestinationAssignment}
    {step : ContentStep} (h : survey.contentStep created item = some step)
    (hkind : step.operation.kind.renames = true) :
    ∃ record ∈ filesAt survey.sourceFiles item.sourceKey, ∃ pair copy,
      survey.movePair record item.targetKey = some (pair, copy) ∧
        step.operation.sourceRelPath = some record.relPath ∧
        step.operation.sourceExpected = some record.stat ∧
        step.operation.targetRelPath = item.targetRelPath ∧
        step.operation.priorTargetRelPath = some pair.targetRelPath ∧
        survey.normalizationPair item = none := by
  cases contentStep_branch h with
  | blocked _ _ hcopy =>
      rw [hcopy] at hkind
      exact absurd hkind Bool.false_ne_true
  | matched source target mismatch _ _ hstep =>
      rw [hstep, matchedStep_kind] at hkind
      exact absurd hkind Bool.false_ne_true
  | unmatched source hclear _ hpair hstep =>
      have hmem : source ∈ filesAt survey.sourceFiles item.sourceKey := by
        rw [hclear.source_eq]
        exact List.mem_cons_self
      refine ⟨source, hmem, ?_⟩
      subst hstep
      revert hkind
      unfold Survey.unmatchedStep
      cases hmove : survey.movePair source item.targetKey with
      | none =>
          intro hkind
          exact absurd hkind Bool.false_ne_true
      | some found =>
          intro _
          exact ⟨found.1, found.2, rfl, rfl, rfl, rfl, rfl, hpair⟩

theorem unmatchedStep_renames {survey : Survey} {item : DestinationAssignment}
    {source : FileRecord} {dependency : Option PlanOperation}
    (h : (survey.movePair source item.targetKey).isSome = true) :
    (survey.unmatchedStep item source dependency).operation.kind.renames = true ∧
      (survey.unmatchedStep item source dependency).operation.sourceRelPath =
        some source.relPath := by
  obtain ⟨found, hfound⟩ := Option.isSome_iff_exists.1 h
  unfold Survey.unmatchedStep
  rw [hfound]
  dsimp only
  refine ⟨?_, rfl⟩
  split <;> rfl

theorem removal_kind {survey : Survey} {claimed movedFrom : List Str} {operation : PlanOperation}
    (h : operation ∈ survey.removals claimed movedFrom) : operation.kind.renames = false := by
  unfold Survey.removals at h
  split at h
  · exact absurd h List.not_mem_nil
  · obtain ⟨record, -, rfl⟩ := List.mem_map.1 h
    show (if survey.options.deletionPolicy = .trash then OperationKind.trash
      else .delete).renames = false
    split <;> rfl

theorem unsupportedOperation_kind {survey : Survey} {operation : PlanOperation}
    (h : operation ∈ survey.unsupportedOperations) : operation.kind.renames = false := by
  obtain ⟨path, -, rfl⟩ := List.mem_map.1 h
  rfl

/-- Only the loop over the assigned files plans renames. -/
theorem renaming_step {survey : Survey} {operation : PlanOperation}
    (h : operation ∈ survey.operations) (hkind : operation.kind.renames = true) :
    ∃ step ∈ survey.contentSteps survey.mkdirs.2, step.operation = operation := by
  unfold Survey.operations at h
  dsimp only at h
  simp only [List.mem_append] at h
  rcases h with (((h | h) | h) | h) | h
  · rw [mem_mkdirs h] at hkind
    exact absurd hkind Bool.false_ne_true
  · exact List.mem_map.1 h
  · rw [removal_kind h] at hkind
    exact absurd hkind Bool.false_ne_true
  · rw [unsupportedOperation_kind h] at hkind
    exact absurd hkind Bool.false_ne_true
  · obtain ⟨directory, -, path, before, -, -, rfl⟩ := mem_cleanupLoop h
    exact absurd hkind Bool.false_ne_true

theorem step_mem_operations {survey : Survey} {step : ContentStep}
    (h : step ∈ survey.contentSteps survey.mkdirs.2) : step.operation ∈ survey.operations := by
  unfold Survey.operations
  dsimp only
  simp only [List.mem_append]
  exact Or.inl (Or.inl (Or.inl (Or.inr (List.mem_map_of_mem h))))

/-! ## Folders that can be made

The new path's folders are directories, or are made by the plan, so nothing
blocks the operation. -/

theorem mem_created {survey : Survey} {paths : List RelPath} {created : Created} {key : Str}
    {operation : PlanOperation} (h : (survey.mkdirLoop paths created).2.get? key = some operation) :
    created.get? key = some operation ∨
      ∃ path, path.key = key ∧ ∃ before, operation = survey.mkdirOperation before path := by
  induction paths generalizing created with
  | nil => exact Or.inl h
  | cons path rest ih =>
      unfold Survey.mkdirLoop at h
      split at h
      · rcases ih h with hset | hrest
        · rw [Dict.get?_set] at hset
          split at hset
          · next hkey =>
              obtain rfl := Option.some.inj hset
              exact Or.inr ⟨path, hkey.symm, created, rfl⟩
          · exact Or.inl hset
        · exact Or.inr hrest
      · exact ih h

/-- A required directory that the source has, and no target file is in the
way of, is not blocked. -/
theorem mkdirOperation_free {survey : Survey} {created : Created} {path : RelPath}
    {directory : DirRecord} (hfile : filesAt survey.targetFiles path.key = [])
    (hsource : directoriesAt survey.sourceDirs path.key = [directory]) :
    (survey.mkdirOperation created path).blocked = false := by
  unfold Survey.mkdirOperation
  dsimp only
  rw [hsource, hfile]
  rfl

/-- The folders above a path can be made. -/
theorem nearestCreatedParent_free {survey : Survey} {path : RelPath}
    (h : ∀ parent ∈ path.parents, filesAt survey.targetFiles parent.key = [] ∧
      ∃ directory, directoriesAt survey.sourceDirs parent.key = [directory]) :
    (nearestCreatedParent path survey.mkdirs.2).any PlanOperation.blocked = false := by
  cases hnearest : nearestCreatedParent path survey.mkdirs.2 with
  | none => rfl
  | some operation =>
      obtain ⟨parent, hparent, hget⟩ := List.exists_of_findSome?_eq_some hnearest
      obtain ⟨hfile, directory, hsource⟩ := h parent hparent
      rcases mem_created hget with hempty | ⟨made, hkey, before, rfl⟩
      · exact absurd hempty (by simp)
      · rw [← hkey] at hfile hsource
        exact mkdirOperation_free hfile hsource

/-- The file is moved when its copy is found, unless another name of the
target is its own up to normalization. -/
theorem Unmatched.renames_iff {survey : Survey} {record : FileRecord}
    (h : Unmatched survey record) :
    (∃ operation ∈ survey.operations, operation.sourceRelPath = some record.relPath ∧
        operation.kind.renames = true) ↔
      survey.normalizationPair (identityItem record) = none ∧
        (survey.movePair record record.key).isSome = true := by
  constructor
  · rintro ⟨operation, hmem, hpath, hkind⟩
    obtain ⟨step, hstep, rfl⟩ := renaming_step hmem hkind
    obtain ⟨item, hitem, hcontent⟩ := mem_contentSteps hstep
    obtain ⟨other, hother, pair, copy, hmove, hsource, -, -, -, hpair⟩ :=
      contentStep_renames hcontent hkind
    obtain ⟨owner, howner, rfl⟩ := h.mem_items hitem
    obtain ⟨hotherMem, hotherKey⟩ := mem_filesAt_iff.1 hother
    have hsame : other.relPath = record.relPath := Option.some.inj (hsource.symm.trans hpath)
    obtain rfl := h.eq_of_key hotherMem (congrArg RelPath.key hsame)
    obtain rfl := h.eq_of_key howner hotherKey.symm
    exact ⟨hpair, Option.isSome_iff_exists.2 ⟨_, hmove⟩⟩
  · rintro ⟨hpair, hmove⟩
    have hstep : survey.contentStep survey.mkdirs.2 (identityItem record) =
        some (survey.unmatchedStep (identityItem record) record
          (nearestCreatedParent record.relPath survey.mkdirs.2)) :=
      contentStep_unmatched
        ⟨h.source_eq, (congrArg List.length h.assignedTo_eq).le, rfl, h.targetDirs_eq,
          nearestCreatedParent_free h.folders⟩ h.targetFiles_eq hpair
    have hmem : survey.unmatchedStep (identityItem record) record
        (nearestCreatedParent record.relPath survey.mkdirs.2) ∈
          survey.contentSteps survey.mkdirs.2 :=
      List.mem_filterMap.2 ⟨_, mem_sortedBy.2 h.item_mem, hstep⟩
    obtain ⟨hkind, hpath⟩ := unmatchedStep_renames (show (survey.movePair record
      (identityItem record).targetKey).isSome = true from hmove)
    exact ⟨_, step_mem_operations hmem, hpath, hkind⟩

end NamiSync
