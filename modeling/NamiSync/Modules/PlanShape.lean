/-
# `Modules.PlanShape` — where the operations of a plan come from

One inversion per loop of the planner: what an operation of each group is,
and which input makes the group contain an operation.

## How it is used

The results about plans start from an operation `operation ∈ result.operations`
and want to know where it comes from, or from a record and want to know which
operation it gets.  The first is a `mem_` lemma for each loop, the second a
`_covers` lemma; the loop over the assigned files has six branches, told
apart by `ContentBranch` with the guards of each.  Nothing above unfolds
`contentStep`, and a change of one branch in the source is a change of one
constructor here.
-/
import NamiSync.Modules.Planner

namespace NamiSync

variable [Unicode]

/-! ## Records under a key

The planner groups the records of a scan by their key; a key that has several
records is a collision. -/

theorem mem_filesAt_iff {records : List FileRecord} {key : Str} {record : FileRecord} :
    record ∈ filesAt records key ↔ record ∈ records ∧ record.key = key := by
  simp [filesAt, List.mem_filter]

theorem mem_directoriesAt_iff {records : List DirRecord} {key : Str} {record : DirRecord} :
    record ∈ directoriesAt records key ↔ record ∈ records ∧ record.key = key := by
  simp [directoriesAt, List.mem_filter]

/-! ## The survey

What the tables of a survey contain, in terms of the two scans and of the
destination assignment. -/

section Survey

variable {source target : ScanResult} {correspondence : MappingSnapshot} {options : SyncOptions}

theorem mem_sourceFiles {record : FileRecord} :
    record ∈ (survey source target correspondence options).sourceFiles ↔
      record ∈ source.files ∧ options.filters.excludes record.relPath = false := by
  simp [survey, List.mem_filter]

theorem mem_targetFiles {record : FileRecord} :
    record ∈ (survey source target correspondence options).targetFiles ↔
      record ∈ target.files ∧ options.filters.excludes record.relPath = false := by
  simp [survey, List.mem_filter]

theorem mem_sourceDirs {record : DirRecord} {path : RelPath} (hpath : record.relPath = some path) :
    record ∈ (survey source target correspondence options).sourceDirs ↔
      record ∈ source.directories ∧ options.filters.excludes path = false := by
  simp [survey, List.mem_filter, hpath]

theorem mem_targetDirs {record : DirRecord} :
    record ∈ (survey source target correspondence options).targetDirs ↔
      record ∈ target.directories ∧ record.relPath.isSome = true := by
  simp [survey, List.mem_filter]

/-- Under the identity policy every source file is assigned its own path. -/
theorem mem_items_identity (hpolicy : options.destinationPolicy = identityDestinationPolicy)
    {record : FileRecord}
    (hrecord : record ∈ (survey source target correspondence options).sourceFiles) :
    ∃ item ∈ (survey source target correspondence options).assignment.items,
      item.sourceRelPath = record.relPath ∧ item.targetRelPath = record.relPath := by
  refine ⟨⟨record.relPath, record.relPath, none, none⟩, ?_, rfl, rfl⟩
  simp only [survey, hpolicy, identityDestinationPolicy, List.mem_map, mem_sortedBy]
  exact ⟨record, hrecord, rfl⟩

end Survey

variable [Digest]

/-! ## Directories to create

A loop over the required directories that accumulates the operations made so
far.  What it makes is a MKDIR of a required directory, and it has one for each
directory that the target lacks. -/

theorem mkdirOperation_kind (survey : Survey) (created : Created) (path : RelPath) :
    (survey.mkdirOperation created path).kind = .mkdir ∧
      (survey.mkdirOperation created path).targetRelPath = path := by
  unfold Survey.mkdirOperation
  dsimp only
  split
  · exact ⟨rfl, rfl⟩
  · split <;> exact ⟨rfl, rfl⟩

/-- A target file in the place of a required directory blocks it. -/
theorem mkdirOperation_blocked {survey : Survey} {created : Created} {path : RelPath}
    (hfile : filesAt survey.targetFiles path.key ≠ []) :
    (survey.mkdirOperation created path).blocked = true := by
  unfold Survey.mkdirOperation
  dsimp only
  split
  · rfl
  · rw [if_neg (by simpa using hfile)]
    rfl

theorem mem_mkdirLoop {survey : Survey} {paths : List RelPath} {created : Created}
    {operation : PlanOperation} (h : operation ∈ (survey.mkdirLoop paths created).1) :
    ∃ path ∈ paths, ∃ before, operation = survey.mkdirOperation before path := by
  induction paths generalizing created with
  | nil => exact absurd h List.not_mem_nil
  | cons path rest ih =>
      unfold Survey.mkdirLoop at h
      split at h
      · rcases List.mem_cons.1 h with rfl | h
        · exact ⟨path, List.mem_cons_self, created, rfl⟩
        · obtain ⟨p, hp, hrest⟩ := ih h
          exact ⟨p, List.mem_cons_of_mem _ hp, hrest⟩
      · obtain ⟨p, hp, hrest⟩ := ih h
        exact ⟨p, List.mem_cons_of_mem _ hp, hrest⟩

theorem mkdirLoop_covers {survey : Survey} {paths : List RelPath} {created : Created}
    {path : RelPath} (hpath : path ∈ paths)
    (hfree : directoriesAt survey.targetDirs path.key = []) :
    ∃ before, survey.mkdirOperation before path ∈ (survey.mkdirLoop paths created).1 := by
  induction paths generalizing created with
  | nil => exact absurd hpath List.not_mem_nil
  | cons first rest ih =>
      unfold Survey.mkdirLoop
      rcases List.mem_cons.1 hpath with rfl | hpath
      · rw [hfree]
        exact ⟨created, List.mem_cons_self⟩
      · split
        · obtain ⟨before, hbefore⟩ := ih hpath
          exact ⟨before, List.mem_cons_of_mem _ hbefore⟩
        · exact ih hpath

theorem mem_mkdirs {survey : Survey} {operation : PlanOperation}
    (h : operation ∈ survey.mkdirs.1) :
    operation.kind = .mkdir := by
  obtain ⟨path, _, before, rfl⟩ := mem_mkdirLoop h
  exact (mkdirOperation_kind survey before path).1

theorem mkdirs_covers {survey : Survey} {path : RelPath}
    (hpath : path ∈ survey.requiredDirectoryPaths)
    (hfree : directoriesAt survey.targetDirs path.key = []) :
    ∃ before, survey.mkdirOperation before path ∈ survey.mkdirs.1 :=
  mkdirLoop_covers (mem_sortedBy.2 hpath) hfree

/-! ## Content

The main loop of the planner.  `ContentBranch` lists the ways through its body,
one constructor for a branch of the source, with what was tested on the way. -/

/-- What the loop does with an assigned file. -/
inductive ContentMove (survey : Survey) (item : DestinationAssignment) (step : ContentStep) : Prop
  | blocked (hblocked : step.operation.blocked = true)
      (htarget : step.operation.targetRelPath = item.targetRelPath)
      (hkind : step.operation.kind = .copy)
  | matched (target : FileRecord) (mismatch : Bool) (hkind : step.operation.destructivePaths = [])
      (htarget : if mismatch then survey.normalizationPair item = some target
        else target ∈ filesAt survey.targetFiles item.targetKey)
      (hempty : mismatch = true → filesAt survey.targetFiles item.targetKey = [])
      (hclaim : step.claimedTargetKey = some target.key)
      (hdirs : directoriesAt survey.targetDirs item.targetKey = [])
  | moved (source : FileRecord) (pair : MappingPair) (oldTarget : FileRecord)
      (hmove : survey.movePair source item.targetKey = some (pair, oldTarget))
      (hdestroys : step.operation.destructivePaths = [pair.targetRelPath])
      (hempty : filesAt survey.targetFiles item.targetKey = [])
      (hdirs : directoriesAt survey.targetDirs item.targetKey = [])
  | copied (hkind : step.operation.kind = .copy)
      (hempty : filesAt survey.targetFiles item.targetKey = [])
      (hdirs : directoriesAt survey.targetDirs item.targetKey = [])

theorem matchedStep_spec (survey : Survey) (item : DestinationAssignment)
    (source target : FileRecord) (mismatch : Bool) (dependency : Option PlanOperation) :
    (survey.matchedStep item source target mismatch dependency).operation.destructivePaths = [] ∧
      (survey.matchedStep item source target mismatch dependency).claimedTargetKey =
        some target.key := by
  unfold Survey.matchedStep
  dsimp only
  cases metadataEqual source.stat target.stat survey.granularity <;>
    split <;> try (split <;> try split) <;> exact ⟨rfl, rfl⟩

/-- An assigned file that the loop does not hold back. -/
structure Survey.Clear (survey : Survey) (created : Created) (item : DestinationAssignment)
    (source : FileRecord) : Prop where
  source_eq : filesAt survey.sourceFiles item.sourceKey = [source]
  assigned : (survey.assignedTo item.targetKey).length ≤ 1
  conflict_eq : item.conflict = none
  targetDirs_eq : directoriesAt survey.targetDirs item.targetKey = []
  parent_free : (nearestCreatedParent item.targetRelPath created).any PlanOperation.blocked = false

/-- The target file that the loop compares an assigned file with, and
whether it was found by its normalized name. -/
inductive Survey.Counterpart (survey : Survey) (item : DestinationAssignment)
    (target : FileRecord) : Bool → Prop
  | direct (hdirect : filesAt survey.targetFiles item.targetKey = [target]) :
      survey.Counterpart item target false
  | paired (hempty : filesAt survey.targetFiles item.targetKey = [])
      (hpair : survey.normalizationPair item = some target) : survey.Counterpart item target true

/-- The branch of the loop that a step comes from. -/
inductive ContentBranch (survey : Survey) (created : Created) (item : DestinationAssignment)
    (step : ContentStep) : Prop
  | blocked (hblocked : step.operation.blocked = true)
      (htarget : step.operation.targetRelPath = item.targetRelPath)
      (hkind : step.operation.kind = .copy)
  | matched (source target : FileRecord) (mismatch : Bool)
      (hclear : survey.Clear created item source)
      (htarget : survey.Counterpart item target mismatch)
      (hstep : step = survey.matchedStep item source target mismatch
        (nearestCreatedParent item.targetRelPath created))
  | unmatched (source : FileRecord) (hclear : survey.Clear created item source)
      (hempty : filesAt survey.targetFiles item.targetKey = [])
      (hpair : survey.normalizationPair item = none)
      (hstep : step = survey.unmatchedStep item source
        (nearestCreatedParent item.targetRelPath created))

theorem contentStep_branch {survey : Survey} {created : Created} {item : DestinationAssignment}
    {step : ContentStep} (h : survey.contentStep created item = some step) :
    ContentBranch survey created item step := by
  unfold Survey.contentStep at h
  dsimp only at h
  split at h
  · exact absurd h (by simp)
  · next source rest hsource =>
      obtain rfl := Option.some.inj h
      generalize hmismatch : ((filesAt survey.targetFiles item.targetKey).isEmpty &&
        (survey.normalizationPair item).isSome) = mismatch
      generalize hvalues : (if mismatch = true then (survey.normalizationPair item).toList
        else filesAt survey.targetFiles item.targetKey) = values
      split
      · exact .blocked rfl rfl rfl
      · next hcollision =>
          split
          · exact .blocked rfl rfl rfl
          · next hdirs =>
              split
              · exact .blocked rfl rfl rfl
              · next hparent =>
                  rw [hsource] at hcollision
                  simp only [Bool.or_eq_true, decide_eq_true_eq, not_or, List.length_cons,
                    Option.isSome_iff_ne_none, not_not, not_lt] at hcollision
                  obtain ⟨⟨hrest, hone⟩, hassigned, hconflict⟩ := hcollision
                  obtain rfl : rest = [] := List.length_eq_zero_iff.1 (by omega)
                  have hclear : survey.Clear created item source :=
                    ⟨hsource, hassigned, hconflict, by simpa using hdirs, by simpa using hparent⟩
                  cases values with
                  | cons target more =>
                      obtain rfl : more = [] := List.length_eq_zero_iff.1
                        (by simpa using hone)
                      refine .matched source target mismatch hclear ?_ rfl
                      cases mismatch with
                      | true =>
                          obtain ⟨hempty, hsome⟩ := Bool.and_eq_true_iff.1 hmismatch
                          obtain ⟨paired, hpaired⟩ := Option.isSome_iff_exists.1 hsome
                          rw [if_pos rfl, hpaired] at hvalues
                          obtain rfl := (List.cons.inj hvalues).1
                          exact .paired (List.isEmpty_iff.1 hempty) hpaired
                      | false => exact .direct hvalues
                  | nil =>
                      -- An empty list of values has no direct match and no pair.
                      refine .unmatched source hclear ?_ ?_ rfl
                      · cases mismatch with
                        | true => simpa using (Bool.and_eq_true_iff.1 hmismatch).1
                        | false => exact hvalues
                      · cases mismatch with
                        | true => simpa using hvalues
                        | false =>
                            rw [if_neg Bool.false_ne_true] at hvalues
                            rw [hvalues] at hmismatch
                            simpa using hmismatch

/-- A file that is not held back and has a counterpart is compared with it. -/
theorem contentStep_matched {survey : Survey} {created : Created} {item : DestinationAssignment}
    {source target : FileRecord} {mismatch : Bool} (hclear : survey.Clear created item source)
    (htarget : survey.Counterpart item target mismatch) :
    survey.contentStep created item = some (survey.matchedStep item source target mismatch
      (nearestCreatedParent item.targetRelPath created)) := by
  unfold Survey.contentStep
  have hassigned := hclear.assigned
  rw [hclear.source_eq]
  cases htarget with
  | direct hdirect =>
      simp [hdirect, hclear.conflict_eq, hclear.targetDirs_eq, hclear.parent_free,
        Nat.not_lt.2 hassigned]
  | paired hempty hpair =>
      simp [hempty, hpair, hclear.conflict_eq, hclear.targetDirs_eq, hclear.parent_free,
        Nat.not_lt.2 hassigned]

/-- A file that is not held back and has no counterpart is moved or copied. -/
theorem contentStep_unmatched {survey : Survey} {created : Created} {item : DestinationAssignment}
    {source : FileRecord} (hclear : survey.Clear created item source)
    (hempty : filesAt survey.targetFiles item.targetKey = [])
    (hpair : survey.normalizationPair item = none) :
    survey.contentStep created item = some (survey.unmatchedStep item source
      (nearestCreatedParent item.targetRelPath created)) := by
  unfold Survey.contentStep
  have hassigned := hclear.assigned
  rw [hclear.source_eq]
  simp [hempty, hpair, hclear.conflict_eq, hclear.targetDirs_eq, hclear.parent_free,
    Nat.not_lt.2 hassigned]

theorem contentStep_cases {survey : Survey} {created : Created} {item : DestinationAssignment}
    {step : ContentStep} (h : survey.contentStep created item = some step) :
    ContentMove survey item step := by
  cases contentStep_branch h with
  | blocked hblocked htarget hkind => exact .blocked hblocked htarget hkind
  | matched source target mismatch hclear htarget hstep =>
      obtain ⟨hkind, hclaim⟩ := matchedStep_spec survey item source target mismatch
        (nearestCreatedParent item.targetRelPath created)
      subst hstep
      refine .matched target mismatch hkind ?_ ?_ hclaim hclear.targetDirs_eq
      · cases htarget with
        | direct hdirect =>
            rw [if_neg Bool.false_ne_true, hdirect]
            exact List.mem_cons_self
        | paired _ hpair => rwa [if_pos rfl]
      · intro hmismatch
        cases htarget with
        | direct _ => exact absurd hmismatch Bool.false_ne_true
        | paired hempty _ => exact hempty
  | unmatched source hclear hempty _ hstep =>
      subst hstep
      unfold Survey.unmatchedStep
      split
      · next pair oldTarget hmove =>
          refine .moved source pair oldTarget hmove ?_ hempty hclear.targetDirs_eq
          dsimp only [PlanOperation.destructivePaths]
          cases metadataEqual source.stat oldTarget.stat survey.granularity <;> rfl
      · exact .copied rfl hempty hclear.targetDirs_eq

theorem mem_contentSteps {survey : Survey} {created : Created} {step : ContentStep}
    (h : step ∈ survey.contentSteps created) :
    ∃ item ∈ survey.assignment.items, survey.contentStep created item = some step := by
  obtain ⟨item, hitem, hstep⟩ := List.mem_filterMap.1 h
  exact ⟨item, mem_sortedBy.1 hitem, hstep⟩

/-- An item whose source file is known has its step. -/
theorem contentSteps_covers {survey : Survey} {created : Created} {item : DestinationAssignment}
    (hitem : item ∈ survey.assignment.items) {record : FileRecord}
    (hrecord : record ∈ survey.sourceFiles) (hkey : record.key = item.sourceKey) :
    ∃ step ∈ survey.contentSteps created, survey.contentStep created item = some step := by
  have hmem : record ∈ filesAt survey.sourceFiles item.sourceKey :=
    mem_filesAt_iff.2 ⟨hrecord, hkey⟩
  have hsome : (survey.contentStep created item).isSome = true := by
    unfold Survey.contentStep
    dsimp only
    split
    · next hnil =>
        rw [hnil] at hmem
        exact absurd hmem List.not_mem_nil
    · rfl
  obtain ⟨step, hstep⟩ := Option.isSome_iff_exists.1 hsome
  exact ⟨step, List.mem_filterMap.2 ⟨item, mem_sortedBy.2 hitem, hstep⟩, hstep⟩

omit [Digest] in
/-- A move takes a single target file that no source file is assigned to. -/
theorem movePair_spec {survey : Survey} {record : FileRecord} {desiredKey : Str}
    {pair : MappingPair} {oldTarget : FileRecord}
    (h : survey.movePair record desiredKey = some (pair, oldTarget)) :
    filesAt survey.targetFiles pair.targetKey = [oldTarget] ∧
      ∀ item ∈ survey.assignment.items, item.targetKey ≠ pair.targetKey := by
  unfold Survey.movePair at h
  split at h
  · dsimp only at h
    split at h
    · exact absurd h (by simp)
    · split at h
      · next only _ =>
          split at h
          · exact absurd h (by simp)
          · next hfree =>
              split at h
              · next old hold =>
                  split at h
                  · exact absurd h (by simp)
                  · split at h
                    · exact absurd h (by simp)
                    · obtain ⟨rfl, rfl⟩ := Prod.mk.inj (Option.some.inj h)
                      refine ⟨hold, ?_⟩
                      intro item hitem hkey
                      exact hfree (Or.inr ⟨item, hitem, hkey⟩)
              · exact absurd h (by simp)
      · exact absurd h (by simp)
  · exact absurd h (by simp)

/-! ## Removals, unsupported paths, cleanup

The three tails of the plan.  Each is made of what the target scan lists and
the content has not taken up. -/

theorem mem_removals {survey : Survey} {claimed movedFrom : List Str} {operation : PlanOperation}
    (h : operation ∈ survey.removals claimed movedFrom) :
    ∃ record ∈ survey.targetFiles, record.key ∉ claimed ∧ record.key ∉ movedFrom ∧
      operation.targetRelPath = record.relPath ∧ operation.destructivePaths = [record.relPath] := by
  unfold Survey.removals at h
  split at h
  · exact absurd h List.not_mem_nil
  · obtain ⟨record, hrecord, rfl⟩ := List.mem_map.1 h
    obtain ⟨hrecord, hfree⟩ := List.mem_filter.1 hrecord
    simp only [Bool.and_eq_true, decide_eq_true_eq] at hfree
    refine ⟨record, hrecord, hfree.1, hfree.2, rfl, ?_⟩
    by_cases htrash : survey.options.deletionPolicy = .trash
    · rw [if_pos htrash]
      rfl
    · rw [if_neg htrash]
      rfl

theorem mem_unsupportedOperations {survey : Survey} {operation : PlanOperation}
    (h : operation ∈ survey.unsupportedOperations) : operation.blocked = true := by
  obtain ⟨path, _, rfl⟩ := List.mem_map.1 h
  rfl

theorem unsupportedOperations_covers {survey : Survey} {record : UnsupportedRecord}
    (hrecord : record ∈ survey.source.unsupported ++ survey.target.unsupported)
    (hin : survey.options.filters.excludes record.relPath = false) :
    ∃ operation ∈ survey.unsupportedOperations,
      operation.blocked = true ∧ operation.targetRelPath = record.relPath := by
  refine ⟨_, List.mem_map.2 ⟨record.relPath, ?_, rfl⟩, rfl, rfl⟩
  rw [mem_sortedBy, List.mem_dedup]
  exact List.mem_map.2 ⟨record, List.mem_filter.2 ⟨hrecord, by simp [hin]⟩, rfl⟩

theorem mem_cleanupLoop {survey : Survey} {removed : List Str}
    {removals : Dict RelPath PlanOperation} {directories : List DirRecord}
    {cleaned : Dict Str PlanOperation} {operation : PlanOperation}
    (h : operation ∈ survey.cleanupLoop removed removals directories cleaned) :
    ∃ directory ∈ directories, ∃ path before, directory.relPath = some path ∧
      survey.keepsDirectory removed before path = false ∧
      operation = Survey.cleanupOperation removals before directory path := by
  induction directories generalizing cleaned with
  | nil => exact absurd h List.not_mem_nil
  | cons directory rest ih =>
      unfold Survey.cleanupLoop at h
      split at h
      · obtain ⟨d, hd, hrest⟩ := ih h
        exact ⟨d, List.mem_cons_of_mem _ hd, hrest⟩
      · next path hpath =>
          split at h
          · obtain ⟨d, hd, hrest⟩ := ih h
            exact ⟨d, List.mem_cons_of_mem _ hd, hrest⟩
          · next hkeep =>
              rcases List.mem_cons.1 h with rfl | h
              · exact ⟨directory, List.mem_cons_self, path, cleaned, hpath, by simpa using hkeep,
                  rfl⟩
              · obtain ⟨d, hd, hrest⟩ := ih h
                exact ⟨d, List.mem_cons_of_mem _ hd, hrest⟩

omit [Digest] in
/-- A directory that is cleaned up is neither required nor filtered out. -/
theorem keepsDirectory_eq_false {survey : Survey} {removed : List Str}
    {cleaned : Dict Str PlanOperation} {path : RelPath}
    (h : survey.keepsDirectory removed cleaned path = false) :
    (∀ required ∈ survey.requiredDirectoryPaths, required.key ≠ path.key) ∧
      survey.options.filters.excludes path = false := by
  unfold Survey.keepsDirectory at h
  simp only [Bool.or_eq_false_iff] at h
  obtain ⟨⟨⟨⟨⟨⟨_, hdesired⟩, hfilter⟩, _⟩, _⟩, _⟩, _⟩ := h
  refine ⟨?_, hfilter⟩
  intro required hrequired hkey
  rw [decide_eq_false_iff_not] at hdesired
  exact hdesired (List.mem_map.2 ⟨required, hrequired, hkey⟩)

/-! ## The plan

A plan is made when the checks of its constructor pass, and then it consists of
the five lists, in this order. -/

/-- The result of `plan` is what its survey yields. -/
theorem plan_eq_ok {source target : ScanResult} {correspondence : MappingSnapshot}
    {options : SyncOptions} {scope : Scope} {result : Plan}
    (h : plan source target correspondence options scope = .ok result) :
    result.operations = (survey source target correspondence options).operations ∧
      result.sourceComplete = (source.complete && source.isFullScan) ∧
      result.targetComplete = (target.complete && target.isFullScan) := by
  unfold plan at h
  split at h
  · exact absurd h (by simp)
  · dsimp only at h
    split at h
    · exact absurd h (by simp)
    · split at h
      · exact absurd h (by simp)
      · obtain rfl := Except.ok.inj h
        exact ⟨rfl, rfl, rfl⟩

end NamiSync
