/-
# `Modules.FilterFrame` — a plan keeps out of what is filtered out

Whether a path is filtered out depends on its key and the keys above it, so
neither another spelling nor an ancestor of a visible path is.  Every path of
an operation is the path of a visible record, another spelling of one, or
above one.

## What is proved

    filter_frame : for every filter set and every plan
      two spellings of a path are both filtered out or neither,
      so is whatever is below a path that is filtered out,
      no operation names a path that is filtered out, and
      no directory is cleaned up that has something filtered out below it

The wildcards are `fnmatch`'s, in `Core.Text` and `Core.Models`; nothing here
depends on more than that a filter looks at folded texts.
-/
import NamiSync.Modules.Claimed
import NamiSync.Modules.PlanTotal

namespace NamiSync

section Planning

variable [Unicode]

/-- What is below a path that is filtered out is filtered out. -/
theorem FilterSet.excludes_below (filters : FilterSet) {path below : RelPath}
    (hbelow : isBelow below.key path.key = true) (h : filters.excludes path = true) :
    filters.excludes below = true := by
  obtain ⟨parent, hparent, hkey⟩ := RelPath.parent_of_isBelow hbelow
  cases hvisible : filters.excludes below with
  | true => rfl
  | false =>
      have hfree := filters.excludes_parent hvisible hparent
      rw [filters.excludes_congr hkey, h] at hfree
      exact hfree.symm

/-- The paths an operation names. -/
def PlanOperation.paths (operation : PlanOperation) : List RelPath :=
  operation.sourceRelPath.toList ++ [operation.targetRelPath] ++
    operation.priorTargetRelPath.toList

/-- The paths of a scan's entries, readable or not. -/
def ScanResult.entryPaths (scan : ScanResult) : List RelPath :=
  scan.files.map FileRecord.relPath ++ scan.directories.filterMap DirRecord.relPath ++
    scan.unsupported.map UnsupportedRecord.relPath

/-- No path of the operation is filtered out. -/
def PlanOperation.Visible (filters : FilterSet) (operation : PlanOperation) : Prop :=
  ∀ path ∈ operation.paths, filters.excludes path = false

theorem PlanOperation.visible_iff {filters : FilterSet} {operation : PlanOperation} :
    operation.Visible filters ↔
      (∀ path ∈ operation.sourceRelPath, filters.excludes path = false) ∧
        filters.excludes operation.targetRelPath = false ∧
        ∀ path ∈ operation.priorTargetRelPath, filters.excludes path = false := by
  simp [PlanOperation.Visible, PlanOperation.paths, or_imp, forall_and]

section Tables

/-- The listings of a survey, without what is filtered out. -/
structure Survey.Filtered (survey : Survey) (filters : FilterSet) : Prop where
  sourceFiles : ∀ record ∈ survey.sourceFiles, filters.excludes record.relPath = false
  targetFiles : ∀ record ∈ survey.targetFiles, filters.excludes record.relPath = false
  sourceDirs : ∀ record ∈ survey.sourceDirs, ∃ path, record.relPath = some path ∧
    filters.excludes path = false

/-! ## The filtered survey

The filter is applied to the records of both sides before anything else.  The
tables of the filtered survey are those of the records that are left. -/

theorem survey_filtered {source target : ScanResult} {correspondence : MappingSnapshot}
    {options : SyncOptions} :
    (survey source target correspondence options).Filtered options.filters where
  sourceFiles record hrecord := (mem_sourceFiles.1 hrecord).2
  targetFiles record hrecord := (mem_targetFiles.1 hrecord).2
  sourceDirs record hrecord := by
    have hvisible := (List.mem_filter.1 hrecord).2
    cases hpath : record.relPath with
    | none =>
        rw [hpath] at hvisible
        exact absurd hvisible Bool.false_ne_true
    | some path => exact ⟨path, rfl, ((mem_sourceDirs hpath).1 hrecord).2⟩

variable {survey : Survey} {filters : FilterSet} (h : survey.Filtered filters)

include h

theorem Survey.Filtered.of_filesAt {key : Str} {path : RelPath} {record : FileRecord}
    (hrecord : record ∈ filesAt survey.targetFiles key) (hpath : path.key = key) :
    filters.excludes path = false := by
  obtain ⟨hmem, hkey⟩ := mem_filesAt_iff.1 hrecord
  rw [filters.excludes_congr (hpath.trans hkey.symm)]
  exact h.targetFiles record hmem

theorem Survey.Filtered.required (hidentity : survey.Identity) {path : RelPath}
    (hpath : path ∈ survey.requiredDirectoryPaths) : filters.excludes path = false := by
  unfold Survey.requiredDirectoryPaths at hpath
  rw [List.mem_dedup, List.mem_append] at hpath
  rcases hpath with hdirectory | habove
  · obtain ⟨record, hrecord, hsome⟩ := List.mem_filterMap.1 hdirectory
    obtain ⟨found, hfound, hvisible⟩ := h.sourceDirs record hrecord
    obtain rfl := Option.some.inj (hfound.symm.trans hsome)
    exact hvisible
  · obtain ⟨item, hitem, hparent⟩ := List.mem_flatMap.1 habove
    obtain ⟨record, hrecord, rfl⟩ := hidentity.mem_items.1 hitem
    exact filters.excludes_parent (h.sourceFiles record hrecord) hparent

variable [Digest]

theorem Survey.Filtered.mkdirs (hidentity : survey.Identity) {operation : PlanOperation}
    (hoperation : operation ∈ survey.mkdirs.1) : operation.Visible filters := by
  obtain ⟨path, hpath, before, rfl⟩ := mem_mkdirLoop hoperation
  have hvisible := h.required hidentity (mem_sortedBy.1 hpath)
  have hsource : ∀ directory ∈ directoriesAt survey.sourceDirs path.key,
      filters.excludes (directory.relPath.getD path) = false := by
    intro directory hdirectory
    obtain ⟨found, hfound, hsee⟩ := h.sourceDirs directory (mem_directoriesAt_iff.1 hdirectory).1
    rw [hfound]
    exact hsee
  refine PlanOperation.visible_iff.2 ⟨?_, ?_, ?_⟩
  · unfold Survey.mkdirOperation
    dsimp only
    intro named hnamed
    split at hnamed
    · obtain rfl := Option.some.inj hnamed
      exact hvisible
    · next directory hdirectory =>
        have hlisted : directory ∈ directoriesAt survey.sourceDirs path.key := by
          split at hdirectory
          · next hone =>
              rw [hone]
              exact List.mem_singleton.2 (Option.some.inj hdirectory).symm
          · exact absurd hdirectory (by simp)
        split at hnamed <;> obtain rfl := Option.some.inj hnamed <;>
          exact hsource directory hlisted
  · rw [(mkdirOperation_kind survey before path).2]
    exact hvisible
  · unfold Survey.mkdirOperation
    dsimp only
    intro named hnamed
    split at hnamed
    · exact absurd hnamed (by simp [blockedOperation])
    · split at hnamed
      · exact absurd hnamed (by simp)
      · exact absurd hnamed (by simp [blockedOperation])

/-! ## The paths of an operation

Which paths an operation can name, list by list.  Each comes from a record that
the filter has let through, or is above one. -/

omit h in
/-- A step for a file with a counterpart stays at the counterpart's key. -/
theorem matchedStep_paths (item : DestinationAssignment) (source target : FileRecord)
    {mismatch : Bool} (dependency : Option PlanOperation)
    (hkey : mismatch = false → item.targetKey = target.key) :
    (survey.matchedStep item source target mismatch dependency).operation.targetKey = target.key ∧
      ∀ path ∈ (survey.matchedStep item source target mismatch
        dependency).operation.priorTargetRelPath, path = target.relPath := by
  unfold Survey.matchedStep
  dsimp only
  cases mismatch with
  | true => exact ⟨rfl, fun path hpath => absurd hpath (by simp)⟩
  | false =>
      have hkey := hkey rfl
      rw [if_neg Bool.false_ne_true]
      split
      · split
        · split
          · exact ⟨RelPath.key_withName hkey, fun path hpath => (Option.some.inj hpath).symm⟩
          · exact ⟨RelPath.key_withName hkey, fun path hpath => absurd hpath (by simp)⟩
        · exact ⟨rfl, fun path hpath => absurd hpath (by simp)⟩
      · exact ⟨hkey, fun path hpath => absurd hpath (by simp)⟩

omit h in
theorem unmatchedStep_paths (item : DestinationAssignment) (source : FileRecord)
    (dependency : Option PlanOperation) :
    (survey.unmatchedStep item source dependency).operation.targetRelPath = item.targetRelPath ∧
      ∀ path ∈ (survey.unmatchedStep item source dependency).operation.priorTargetRelPath,
        ∃ pair oldTarget, survey.movePair source item.targetKey = some (pair, oldTarget) ∧
          path = pair.targetRelPath := by
  unfold Survey.unmatchedStep
  split
  · next pair oldTarget hmove =>
      exact ⟨rfl, fun path hpath => ⟨pair, oldTarget, hmove, (Option.some.inj hpath).symm⟩⟩
  · exact ⟨rfl, fun path hpath => absurd hpath (by simp)⟩

omit h in
/-- A blocked file is named where it was to go, and nowhere else. -/
theorem contentStep_blocked_prior {created : Created} {item : DestinationAssignment}
    {step : ContentStep} (hcase : survey.contentStep created item = some step)
    (hblocked : step.operation.blocked = true) : step.operation.priorTargetRelPath = none := by
  obtain ⟨source, -, hfrom⟩ := contentStep_from hcase
  cases hfrom with
  | blocked => rfl
  | matched =>
      rw [matchedStep_unblocked] at hblocked
      exact absurd hblocked Bool.false_ne_true
  | unmatched =>
      revert hblocked
      unfold Survey.unmatchedStep
      split
      · intro hblocked
        exact absurd hblocked Bool.false_ne_true
      · intro _
        rfl

theorem Survey.Filtered.content (hidentity : survey.Identity) {created : Created}
    {item : DestinationAssignment} (hitem : item ∈ survey.assignment.items) {step : ContentStep}
    (hcase : survey.contentStep created item = some step) : step.operation.Visible filters := by
  obtain ⟨record, hrecord, rfl⟩ := hidentity.mem_items.1 hitem
  have hvisible : filters.excludes (identityItem record).targetRelPath = false :=
    h.sourceFiles record hrecord
  refine PlanOperation.visible_iff.2 ⟨?_, ?_⟩
  · obtain ⟨source, hsource, -, hnamed, -⟩ := contentStep_reports hcase
    intro path hpath
    obtain rfl := Option.some.inj (hnamed.symm.trans hpath)
    exact h.sourceFiles source (mem_filesAt_iff.1 (List.mem_of_mem_head? hsource)).1
  · cases contentStep_branch hcase with
    | blocked hblocked htarget _ =>
        rw [htarget]
        refine ⟨hvisible, fun path hpath => ?_⟩
        rw [contentStep_blocked_prior hcase hblocked] at hpath
        exact absurd hpath (by simp)
    | matched source target mismatch _ htarget hstep =>
        subst hstep
        have hsees : target ∈ survey.targetFiles ∧
            (mismatch = false → (identityItem record).targetKey = target.key) := by
          cases htarget with
          | direct hdirect =>
              have hat : target ∈ filesAt survey.targetFiles (identityItem record).targetKey := by
                rw [hdirect]
                exact List.mem_singleton_self target
              obtain ⟨hmem, hkey⟩ := mem_filesAt_iff.1 hat
              exact ⟨hmem, fun _ => hkey.symm⟩
          | paired _ hpair =>
              exact ⟨(normalizationPair_spec hpair).1, fun h => absurd h.symm Bool.false_ne_true⟩
        obtain ⟨hkey, hprior⟩ := @matchedStep_paths _ survey _ (identityItem record) source
          target mismatch (nearestCreatedParent (identityItem record).targetRelPath created) hsees.2
        refine ⟨?_, fun path hpath => ?_⟩
        · rw [filters.excludes_congr hkey]
          exact h.targetFiles target hsees.1
        · rw [hprior path hpath]
          exact h.targetFiles target hsees.1
    | unmatched source _ _ _ hstep =>
        subst hstep
        obtain ⟨htarget, hprior⟩ := @unmatchedStep_paths _ survey _ (identityItem record)
          source (nearestCreatedParent (identityItem record).targetRelPath created)
        rw [htarget]
        refine ⟨hvisible, fun path hpath => ?_⟩
        obtain ⟨pair, oldTarget, hmove, rfl⟩ := hprior path hpath
        refine @Survey.Filtered.of_filesAt _ _ _ h _ _ oldTarget ?_ rfl
        rw [(movePair_spec hmove).1]
        exact List.mem_singleton_self oldTarget

end Tables

/-- A directory that is cleaned up has nothing below it that is filtered out
or was not readable. -/
theorem keepsDirectory_visible {survey : Survey} {removed : List Str}
    {cleaned : Dict Str PlanOperation} {directory : RelPath}
    (h : survey.keepsDirectory removed cleaned directory = false) {path : RelPath}
    (hpath : path ∈ survey.target.entryPaths) (hbelow : isBelow path.key directory.key = true) :
    survey.options.filters.excludes path = false := by
  unfold Survey.keepsDirectory at h
  simp only [Bool.or_eq_false_iff] at h
  obtain ⟨⟨⟨⟨-, hexcluded⟩, hunsupported⟩, -⟩, -⟩ := h
  unfold ScanResult.entryPaths at hpath
  rcases List.mem_append.1 hpath with hlisted | hunreadable
  · have hnot := List.any_eq_false.1 hexcluded path hlisted
    have hne : path ≠ directory := by
      rintro rfl
      obtain ⟨rest, hrest, hparts⟩ := isBelow_iff.1 hbelow
      exact hrest (List.self_eq_append_right.1 hparts)
    simpa [hne, hbelow] using hnot
  · obtain ⟨record, hrecord, rfl⟩ := List.mem_map.1 hunreadable
    exact absurd hbelow (List.any_eq_false.1 hunsupported record hrecord)

variable [Digest]

theorem mkdirs_reason {survey : Survey} {operation : PlanOperation}
    (h : operation ∈ survey.mkdirs.1) : operation.reason ≠ .directoryCleanup := by
  obtain ⟨path, -, before, rfl⟩ := mem_mkdirLoop h
  unfold Survey.mkdirOperation
  dsimp only
  split
  · unfold blockedOperation
    split <;> simp
  · split
    · simp
    · unfold blockedOperation
      split <;> simp

theorem contentStep_reason {survey : Survey} {created : Created} {item : DestinationAssignment}
    {step : ContentStep} (h : survey.contentStep created item = some step) :
    step.operation.reason ≠ .directoryCleanup := by
  intro hreason
  have hgroup := (contentStep_group h).group_eq
  unfold PlanOperation.intent Intent.group at hgroup
  rw [hreason] at hgroup
  cases hkind : step.operation.kind <;> rw [hkind] at hgroup <;> simp at hgroup

/-- **The filters are a frame.**  Spelling does not matter to them, nor does
depth; no operation names a path that is filtered out, and no directory is
cleaned up over an entry that is. -/
theorem filter_frame {source target : ScanResult} {correspondence : MappingSnapshot}
    {options : SyncOptions} {scope : Scope} {result : Plan}
    (hpolicy : options.destinationPolicy = identityDestinationPolicy)
    (hplan : plan source target correspondence options scope = .ok result) :
    (∀ (filters : FilterSet) (p q : RelPath), p.key = q.key →
      filters.excludes p = filters.excludes q) ∧
    (∀ (filters : FilterSet) (path below : RelPath), isBelow below.key path.key = true →
      filters.excludes path = true → filters.excludes below = true) ∧
    (∀ operation ∈ result.operations, operation.Visible options.filters) ∧
    ∀ operation ∈ result.operations, operation.reason = .directoryCleanup →
      ∀ path ∈ target.entryPaths, isBelow path.key operation.targetKey = true →
        options.filters.excludes path = false := by
  have hidentity : (survey source target correspondence options).Identity := by
    unfold Survey.Identity
    rw [← hpolicy]
    rfl
  have hfiltered := @survey_filtered _ source target correspondence options
  rw [(plan_eq_ok hplan).1]
  have hoptions : (survey source target correspondence options).options = options := rfl
  have htarget : (survey source target correspondence options).target = target := rfl
  -- From here on only the tables matter, whose records have passed the filter.
  generalize survey source target correspondence options = tables at *
  refine ⟨fun filters p q => filters.excludes_congr,
    fun filters path below => filters.excludes_below, ?_, ?_⟩
  · intro operation hmem
    cases Survey.plans_of_mem hmem with
    | mkdir hmkdir => exact hfiltered.mkdirs hidentity hmkdir
    | content item hitem step hcase hstep =>
        subst hstep
        exact hfiltered.content hidentity hitem hcase
    | removal kind record hrecord _ hremoval =>
        subst hremoval
        refine PlanOperation.visible_iff.2 ⟨?_, hfiltered.targetFiles record hrecord, ?_⟩
        · exact fun path hpath => absurd hpath (by simp [Survey.removalOperation])
        · exact fun path hpath => absurd hpath (by simp [Survey.removalOperation])
    | unsupported record _ hin hblocked =>
        subst hblocked
        rw [hoptions] at hin
        refine PlanOperation.visible_iff.2 ⟨fun path hpath => ?_, hin,
          fun path hpath => absurd hpath (by simp [blockedOperation])⟩
        obtain rfl := Option.some.inj hpath
        exact hin
    | cleanup directory _ path _ before hkeep hcleanup =>
        subst hcleanup
        have hin := (keepsDirectory_eq_false hkeep).2
        rw [hoptions] at hin
        refine PlanOperation.visible_iff.2 ⟨?_, hin, ?_⟩
        · exact fun path hpath => absurd hpath (by simp [Survey.cleanupOperation])
        · exact fun path hpath => absurd hpath (by simp [Survey.cleanupOperation])
  · intro operation hmem hreason path hpath hbelow
    cases Survey.plans_of_mem hmem with
    | mkdir hmkdir => exact absurd hreason (mkdirs_reason hmkdir)
    | content item _ step hcase hstep =>
        subst hstep
        exact absurd hreason (contentStep_reason hcase)
    | removal kind record _ _ hremoval =>
        subst hremoval
        exact absurd hreason (by simp [Survey.removalOperation])
    | unsupported record _ _ hblocked =>
        subst hblocked
        exact absurd hreason (by simp [blockedOperation])
    | cleanup directory _ folder _ before hkeep hcleanup =>
        subst hcleanup
        rw [← hoptions]
        exact keepsDirectory_visible hkeep (by rw [htarget]; exact hpath) hbelow

end Planning

/-! A file whose name is filtered out, and another one. -/

section Sample

local instance hiddenUnicode : Unicode := asciiUnicode

/-- The digests of the operation and of the options. -/
local instance hiddenDigest : Digest where
  operation _ _ _ _ _ := 0x2ddcd263b61e29e144f8f1cfcb4ecb53
  policy _ _ _ _ _ _ _ := str "39f69bc8792d2bf10503ab9f56a62b89f83737082f327bfb63f1c5c676848447"

def hiddenOptions : SyncOptions where
  filters := { patterns := [str "b*"] }

def hiddenPlan : Plan :=
  (plan (ownScan [upperA, lowerB]) (ownScan []) {} hiddenOptions .everything).toOption.get
    (by decide +kernel)

theorem hidden_planned :
    plan (ownScan [upperA, lowerB]) (ownScan []) {} hiddenOptions .everything = .ok hiddenPlan :=
  Checked.ok_of_get _

theorem hidden_file :
    hiddenOptions.filters.excludes lowerB.relPath = true ∧
      ∀ operation ∈ hiddenPlan.operations, operation.Visible hiddenOptions.filters :=
  ⟨by decide +kernel, (filter_frame rfl hidden_planned).2.2.1⟩

end Sample

end NamiSync
