/-
# `Workflows.Emptied` — directories that a plan cleans up

A directory is cleaned up when the scan of the target records nothing in it
that the plan leaves there.  What the scan records is then gone once the
dependencies of the cleanup have succeeded, and no other operation needs the
directory.  What the ignore set hides from the scan is on the disk all the
same, and is not taken away.

The trash is the other place to look at: with a scan that does not ignore it,
a trash directory can be cleaned up after files that went into it.

## What is proved

    cleanup_empties_iff : a cleanup empties its directory exactly when the
      directory holds nothing at its top that the scan ignored, and none of its
      dependencies puts something into the trash below it

and no operation keeps, creates or moves anything at or below a directory that
is cleaned up, whatever the scan ignored.  `hidden_file_survives` is a
directory with a `Thumbs.db`.

## What it is not

A state of the disk: `Empties` is about the tree of the scan and what the
operations take away from it and put into it.  What others put there in the
meantime is found by the executor, which removes an empty directory only.
-/
import NamiSync.Workflows.Counterparts
import NamiSync.Workflows.ParentChains

namespace NamiSync

open Listing

section Emptied

variable [Unicode]

/-! ## What operations do to the target

The plan as a whole, in terms of places: which path an operation fills, which it
takes away, and which it needs. -/

/-- The path an operation leaves something at. -/
def PlanOperation.placedPath (operation : PlanOperation) : Option RelPath :=
  match operation.kind with
  | .copy | .update | .move | .moveUpdate | .recase | .mkdir => some operation.targetRelPath
  | .trash | .delete | .noop => none

theorem placedPath_eq_some {operation : PlanOperation} {path : RelPath}
    (h : operation.placedPath = some path) : operation.targetRelPath = path ∧
      operation.kind ≠ .trash ∧ operation.kind ≠ .delete ∧ operation.kind ≠ .noop := by
  unfold PlanOperation.placedPath at h
  cases hkind : operation.kind <;> rw [hkind] at h <;> simp_all

/-- The paths whose content an operation puts into the trash. -/
def PlanOperation.trashedPaths (trashOnUpdate : Bool) (operation : PlanOperation) :
    List RelPath :=
  match operation.kind with
  | .trash => [operation.targetRelPath]
  | .moveUpdate => operation.priorTargetRelPath.toList
  | .update => if trashOnUpdate then [operation.targetRelPath] else []
  | _ => []

/-- The operation takes away the entry that the scan recorded under one of
its destructive paths. -/
def PlanOperation.TakesAway (scanned : ScanResult) (operation : PlanOperation)
    (path : RelPath) : Prop :=
  path ∈ scanned.entryPaths ∧ ∃ gone ∈ operation.destructivePaths, gone.key = path.key

/-- `trash_destination` of a path lies below the directory. -/
def AboveTrash (runId : Str) (directory path : RelPath) : Prop :=
  ∃ rest, rest ≠ [] ∧
    syncTrashKey :: uppercaseOneCodepoint runId :: path.keyParts = directory.keyParts ++ rest

/-- The directory is not empty once the operations of a set have succeeded
on the tree and nothing else has changed. -/
inductive Occupied (tree : Tree) (scanned : ScanResult) (done : Set PlanOperation)
    (trashOnUpdate : Bool) (runId : Str) (directory : RelPath) : Prop
  | kept (path : RelPath) (entry : Entry)
      (hin : path.components = directory.components ++ [entry.name])
      (hhas : tree.root.Has path.components entry)
      (hstays : ∀ operation ∈ done, ¬ operation.TakesAway scanned path)
  | unnamed (entry : Entry) (hhas : tree.root.Has (directory.components ++ [entry.name]) entry)
      (hname : ∀ path : RelPath, path.components ≠ directory.components ++ [entry.name])
  | placed (operation : PlanOperation) (hdone : operation ∈ done) (path : RelPath)
      (hplaced : operation.placedPath = some path) (hin : isBelow path.key directory.key = true)
  | trashed (operation : PlanOperation) (hdone : operation ∈ done) (path : RelPath)
      (htrashed : path ∈ operation.trashedPaths trashOnUpdate)
      (hin : AboveTrash runId directory path)

/-- The transitive dependencies of an operation of a plan. -/
def Plan.transitiveDependencies (plan : Plan) (operation : PlanOperation) : Set PlanOperation :=
  {needed | Relation.TransGen
    (NeededBy PlanOperation.opId PlanOperation.dependencies plan.operations) operation needed}

/-- The operation keeps, creates or moves something at its target. -/
def PlanOperation.Uses (operation : PlanOperation) : Prop :=
  operation.blocked = false ∧ operation.kind ≠ .trash ∧ operation.kind ≠ .delete

variable [Digest] {source target : ScanResult} {correspondence : MappingSnapshot}
  {options : SyncOptions}

/-- Once the dependencies of a cleanup have succeeded its directory is empty,
and no other operation keeps, creates or moves anything at or below it. -/
def Plan.Empties (plan : Plan) (tree : Tree) (scanned : ScanResult) (runId : Str)
    (cleanup : PlanOperation) : Prop :=
  ¬ Occupied tree scanned (plan.transitiveDependencies cleanup) plan.trashOnUpdate runId
      cleanup.targetRelPath ∧
    ∀ operation ∈ plan.operations, operation.Uses →
      sameOrDescendant operation.targetKey cleanup.targetKey = false

/-! ## No other operation needs the directory

A directory gets a cleanup only when no key that is kept lies below it. -/

omit [Digest] in
/-- What is below a directory that is not required has no required parent. -/
theorem not_below_of_parents {survey : Survey} {directory path : RelPath}
    (hfree : ∀ required ∈ survey.requiredDirectoryPaths, required.key ≠ directory.key)
    (hparents : ∀ parent ∈ path.parents, parent ∈ survey.requiredDirectoryPaths) :
    isBelow path.key directory.key = false := by
  cases hbelow : isBelow path.key directory.key with
  | false => rfl
  | true =>
      obtain ⟨parent, hparent, hkey⟩ := RelPath.parent_of_isBelow hbelow
      exact absurd hkey (hfree parent (hparents parent hparent))

omit [Digest] in
theorem item_parents {survey : Survey} {item : DestinationAssignment}
    (hitem : item ∈ survey.assignment.items) :
    ∀ parent ∈ item.targetRelPath.parents, parent ∈ survey.requiredDirectoryPaths := by
  intro parent hparent
  unfold Survey.requiredDirectoryPaths
  rw [List.mem_dedup, List.mem_append]
  exact Or.inr (List.mem_flatMap.2 ⟨item, hitem, hparent⟩)

omit [Digest] in
/-- A counterpart found by its normalized name is in the directory that the
file is assigned to. -/
theorem parents_of_signature {p q : RelPath}
    (h : normalizationSignature p = normalizationSignature q) : p.parents = q.parents := by
  have hparent : p.parent = q.parent := congrArg Prod.fst h
  rw [RelPath.parents_eq, RelPath.parents_eq, hparent]

section Apart

variable {directory : RelPath} {operation : PlanOperation}

/-- Every operation that puts or keeps something below a directory requires
the directory. -/
theorem target_not_below (hrooted : source.Rooted)
    (hfree : ∀ required ∈ (survey source target correspondence options).requiredDirectoryPaths,
      required.key ≠ directory.key)
    (hmem : operation ∈ (survey source target correspondence options).operations)
    (htrash : operation.kind ≠ .trash) (hdelete : operation.kind ≠ .delete)
    (hnoop : operation.kind = .noop → operation.blocked = false) :
    isBelow operation.targetKey directory.key = false := by
  cases Survey.plans_of_mem hmem with
  | mkdir hmkdir =>
      obtain ⟨path, hpath, before, rfl⟩ := mem_mkdirLoop hmkdir
      refine not_below_of_parents hfree fun parent hparent => ?_
      rw [(mkdirOperation_kind _ before path).2] at hparent
      exact required_closed hrooted (mem_sortedBy.1 hpath) hparent
  | content item hitem step hcase hstep =>
      subst hstep
      have hassigned := not_below_of_parents hfree (item_parents hitem)
      cases contentStep_branch hcase with
      | blocked _ htarget _ => rwa [PlanOperation.targetKey, htarget]
      | matched found counterpart mismatch hclear htarget hmatched =>
          subst hmatched
          cases htarget with
          | direct hdirect =>
              have hat : counterpart ∈ filesAt
                  (survey source target correspondence options).targetFiles item.targetKey := by
                rw [hdirect]
                exact List.mem_singleton_self counterpart
              have hkey : item.targetKey = counterpart.key := (mem_filesAt_iff.1 hat).2.symm
              rw [(matchedStep_paths item found counterpart _ fun _ => hkey).1, ← hkey]
              exact hassigned
          | paired _ hpair =>
              have hsignature := (normalizationPair_spec hpair).2.2.1
              rw [(matchedStep_paths item found counterpart _
                fun h => absurd h.symm Bool.false_ne_true).1]
              refine not_below_of_parents hfree fun parent hparent => ?_
              rw [parents_of_signature hsignature] at hparent
              exact item_parents hitem parent hparent
      | unmatched found _ _ _ hunmatched =>
          subst hunmatched
          rw [PlanOperation.targetKey, (unmatchedStep_paths item found _).1]
          exact hassigned
  | removal kind record _ hkind hremoval =>
      subst hremoval
      rw [show (Survey.removalOperation kind record).kind = kind from rfl] at htrash hdelete
      split_ifs at hkind
      · exact absurd hkind htrash
      · exact absurd hkind hdelete
  | unsupported record _ _ hblocked =>
      subst hblocked
      exact absurd (hnoop rfl) (by simp [PlanOperation.blocked, blockedOperation])
  | cleanup _ _ path _ before _ hcleanup =>
      subst hcleanup
      exact absurd rfl hdelete

/-- Nor does an operation that is not blocked use the directory's own
place. -/
theorem target_ne_directory {tree : Tree} {ignores : IgnoreSet}
    (hcovers : Covers tree ignores target)
    {record : DirRecord} (hrecord : record ∈ target.directories)
    (hpath : record.relPath = some directory)
    (hfree : ∀ required ∈ (survey source target correspondence options).requiredDirectoryPaths,
      required.key ≠ directory.key)
    (hmem : operation ∈ (survey source target correspondence options).operations)
    (huses : operation.Uses) : operation.targetKey ≠ directory.key := by
  intro hsame
  obtain ⟨hunblocked, htrash, hdelete⟩ := huses
  have hlisted : record ∈ (survey source target correspondence options).targetDirs :=
    mem_targetDirs.2 ⟨hrecord, by rw [hpath]; rfl⟩
  have hkey : record.key = directory.key := by rw [DirRecord.key, hpath]; rfl
  -- A file is assigned no place that the target has a directory at.
  have hclear : ∀ {item : DestinationAssignment} {found : FileRecord},
      (survey source target correspondence options).Clear
        (survey source target correspondence options).mkdirs.2 item found →
      item.targetKey ≠ directory.key := by
    intro item found hclear hitem
    have hat : record ∈ directoriesAt
        (survey source target correspondence options).targetDirs item.targetKey :=
      mem_directoriesAt_iff.2 ⟨hlisted, hkey.trans hitem.symm⟩
    rw [hclear.targetDirs_eq] at hat
    exact absurd hat List.not_mem_nil
  cases Survey.plans_of_mem hmem with
  | mkdir hmkdir =>
      obtain ⟨path, hrequired, before, rfl⟩ := mem_mkdirLoop hmkdir
      rw [PlanOperation.targetKey, (mkdirOperation_kind _ before path).2] at hsame
      exact hfree path (mem_sortedBy.1 hrequired) hsame
  | content item hitem step hcase hstep =>
      subst hstep
      cases contentStep_branch hcase with
      | blocked hblocked _ _ => exact absurd (hblocked.symm.trans hunblocked) (by simp)
      | matched found counterpart mismatch hc htarget hmatched =>
          subst hmatched
          cases htarget with
          | direct hdirect =>
              have hat : counterpart ∈ filesAt
                  (survey source target correspondence options).targetFiles item.targetKey := by
                rw [hdirect]
                exact List.mem_singleton_self counterpart
              have hsameKey : item.targetKey = counterpart.key := (mem_filesAt_iff.1 hat).2.symm
              rw [(matchedStep_paths item found counterpart _ fun _ => hsameKey).1] at hsame
              exact hclear hc (hsameKey.trans hsame)
          | paired _ hpair =>
              rw [(matchedStep_paths item found counterpart _
                fun h => absurd h.symm Bool.false_ne_true).1] at hsame
              have hfile := (mem_targetFiles.1 (normalizationPair_spec hpair).1).1
              -- A file and a directory of one spelling are one entry.
              have hspelled : counterpart.relPath = directory :=
                hcovers.spelled _
                  (List.mem_append_left _ (List.mem_append_left _ (List.mem_map_of_mem hfile))) _
                  (List.mem_append_left _ (List.mem_append_right _
                    (List.mem_filterMap.2 ⟨record, hrecord, hpath⟩))) hsame
              obtain ⟨⟨entry, hentry, hnot⟩, -⟩ := hcovers.files _ hfile
              obtain ⟨⟨other, hother, hdir⟩, -⟩ := hcovers.directories _ hrecord _ hpath
              rw [hspelled] at hentry
              obtain rfl := Tree.has_unique hentry hother
              rw [hdir] at hnot
              exact absurd (Except.ok.inj hnot) (by simp)
      | unmatched found hc _ _ hunmatched =>
          subst hunmatched
          rw [PlanOperation.targetKey, (unmatchedStep_paths item found _).1] at hsame
          exact hclear hc hsame
  | removal kind record _ hkind hremoval =>
      subst hremoval
      rw [show (Survey.removalOperation kind record).kind = kind from rfl] at htrash hdelete
      split_ifs at hkind
      · exact htrash hkind
      · exact hdelete hkind
  | unsupported record _ _ hblocked =>
      subst hblocked
      exact absurd hunblocked (by simp [PlanOperation.blocked, blockedOperation])
  | cleanup _ _ path _ before _ hcleanup =>
      subst hcleanup
      exact hdelete rfl

end Apart

/-! ## What the scan records is taken away

Every record below the directory has an operation that removes or moves it, and
the cleanup depends on that operation. -/

omit [Unicode] [Digest] in
/-- What stands below an entry is one of its children. -/
theorem child_of_has {tree : Tree} {names : List Str} {parent entry : Entry}
    (hparent : tree.root.Has names parent) (h : tree.root.Has (names ++ [entry.name]) entry) :
    entry ∈ parent.children := by
  generalize hchain : names ++ [entry.name] = chain at h
  cases h with
  | top hroot =>
      have hlen := congrArg List.length hchain
      have hpos := List.length_pos_iff.2 hparent.ne_nil
      simp only [List.length_append, List.length_singleton] at hlen
      omega
  | inside hother hmem =>
      obtain ⟨rfl, -⟩ := List.append_inj' hchain rfl
      rwa [Tree.has_unique hparent hother]

omit [Digest] in
theorem foldl_set_get {paths : List RelPath} {operation : PlanOperation}
    {before : Dict RelPath PlanOperation} {path : RelPath} :
    (paths.foldl (fun removals path => removals.set path operation) before).get? path =
      if path ∈ paths then some operation else before.get? path := by
  induction paths generalizing before with
  | nil => rfl
  | cons first rest ih =>
      rw [List.foldl_cons, ih, Dict.get?_set]
      by_cases hrest : path ∈ rest
      · simp [hrest]
      · simp [hrest, List.mem_cons]

omit [Digest] in
/-- `removal_by_path` finds an operation for each path that is taken away. -/
theorem removalByPath_find {operations : List PlanOperation} {path : RelPath}
    (h : ∃ operation ∈ operations, path ∈ operation.destructivePaths) :
    ∃ operation ∈ operations, (removalByPath operations).get? path = some operation ∧
      path ∈ operation.destructivePaths := by
  have hfold : ∀ (operations : List PlanOperation) (before : Dict RelPath PlanOperation),
      let after := operations.foldl (fun removals operation =>
        operation.destructivePaths.foldl
          (fun removals path => removals.set path operation) removals) before
      (∃ operation ∈ operations, after.get? path = some operation ∧
        path ∈ operation.destructivePaths) ∨
      after.get? path = before.get? path ∧
        ∀ operation ∈ operations, path ∉ operation.destructivePaths := by
    intro operations
    induction operations with
    | nil => exact fun before => Or.inr ⟨rfl, fun _ h => absurd h List.not_mem_nil⟩
    | cons first rest ih =>
        intro before
        dsimp only
        rw [List.foldl_cons]
        rcases ih (first.destructivePaths.foldl
          (fun removals path => removals.set path first) before) with
          ⟨operation, hmem, hget, hpath⟩ | ⟨hget, hnone⟩
        · exact Or.inl ⟨operation, List.mem_cons_of_mem _ hmem, hget, hpath⟩
        · rw [foldl_set_get] at hget
          by_cases hfirst : path ∈ first.destructivePaths
          · rw [if_pos hfirst] at hget
            exact Or.inl ⟨first, List.mem_cons_self, hget, hfirst⟩
          · rw [if_neg hfirst] at hget
            exact Or.inr ⟨hget, List.forall_mem_cons.2 ⟨hfirst, hnone⟩⟩
  obtain ⟨operation, hmem, hpath⟩ := h
  exact (hfold operations .empty).resolve_right fun hnone => hnone.2 operation hmem hpath

/-- What the cleanup loop has cleaned up: cleanups of the plan, under their
keys. -/
def Cleaned (survey : Survey) (cleaned : Dict Str PlanOperation) : Prop :=
  ∀ key operation, cleaned.get? key = some operation → operation ∈ survey.cleanups ∧
    operation.targetKey = key ∧ operation.destructivePaths = [operation.targetRelPath] ∧
      some operation.targetRelPath ∈ survey.targetDirs.map DirRecord.relPath

theorem cleanupLoop_cleaned {survey : Survey} {directories : List DirRecord}
    {cleaned : Dict Str PlanOperation} (hdirs : directories ⊆ survey.targetDirs)
    (hemits : ∀ operation ∈ survey.cleanupLoop survey.removedFileKeys survey.takenAway directories
      cleaned, operation ∈ survey.cleanups)
    (hcleaned : Cleaned survey cleaned) {operation : PlanOperation}
    (h : operation ∈ survey.cleanupLoop survey.removedFileKeys survey.takenAway directories
      cleaned) :
    ∃ record ∈ survey.targetDirs, ∃ path before, record.relPath = some path ∧
      survey.keepsDirectory survey.removedFileKeys before path = false ∧
      operation = Survey.cleanupOperation survey.takenAway before record path ∧
      Cleaned survey before := by
  induction directories generalizing cleaned with
  | nil => exact absurd h List.not_mem_nil
  | cons record rest ih =>
      have hrest : rest ⊆ survey.targetDirs := fun _ hmem => hdirs (List.mem_cons_of_mem _ hmem)
      cases hpath : record.relPath with
      | none =>
          simp only [Survey.cleanupLoop, hpath] at h hemits
          exact ih hrest hemits hcleaned h
      | some path =>
          simp only [Survey.cleanupLoop, hpath] at h hemits
          by_cases hkeep : survey.keepsDirectory survey.removedFileKeys cleaned path = true
          · rw [if_pos hkeep] at h hemits
            exact ih hrest hemits hcleaned h
          · rw [if_neg hkeep] at h hemits
            rcases List.mem_cons.1 h with rfl | hlater
            · exact ⟨record, hdirs List.mem_cons_self, path, cleaned, hpath, by simpa using hkeep,
                rfl, hcleaned⟩
            · refine ih hrest (fun other hother => hemits other (List.mem_cons_of_mem _ hother))
                ?_ hlater
              intro key other hget
              rw [Dict.get?_set] at hget
              split at hget
              · next hkey =>
                  obtain rfl := Option.some.inj hget
                  exact ⟨hemits _ List.mem_cons_self, hkey.symm, rfl,
                    List.mem_map.2 ⟨record, hdirs List.mem_cons_self, hpath⟩⟩
              · exact hcleaned key other hget

theorem mem_cleanups {survey : Survey} {operation : PlanOperation}
    (h : operation ∈ survey.cleanups) :
    ∃ record ∈ survey.targetDirs, ∃ path before, record.relPath = some path ∧
      survey.keepsDirectory survey.removedFileKeys before path = false ∧
      operation = Survey.cleanupOperation survey.takenAway before record path ∧
      Cleaned survey before :=
  cleanupLoop_cleaned (fun _ hmem => mem_sortedBy.1 hmem) (fun _ hmem => hmem)
    (fun key other hget => absurd hget (by simp)) h

/-- A key that a step moves from is a path that its operation takes away. -/
theorem movedFromKey_destructive {survey : Survey} {created : Created}
    {item : DestinationAssignment} {step : ContentStep} {key : Str}
    (hcase : survey.contentStep created item = some step) (h : step.movedFromKey = some key) :
    ∃ gone ∈ step.operation.destructivePaths, gone.key = key := by
  obtain ⟨found, -, hfrom⟩ := contentStep_from hcase
  cases hfrom with
  | blocked => exact absurd h (by simp)
  | matched counterpart mismatch =>
      revert h
      unfold Survey.matchedStep
      dsimp only
      split
      · intro h
        exact absurd h (by simp)
      · split
        · split
          · split <;> exact fun h => absurd h (by simp)
          · exact fun h => absurd h (by simp)
        · exact fun h => absurd h (by simp)
  | unmatched =>
      revert h
      unfold Survey.unmatchedStep
      split
      · next pair old _ =>
          intro h
          refine ⟨pair.targetRelPath, ?_, Option.some.inj h⟩
          dsimp only [PlanOperation.destructivePaths]
          cases metadataEqual found.stat old.stat survey.granularity <;>
            exact List.mem_singleton_self _
      · exact fun h => absurd h (by simp)

/-- A file below a directory that is cleaned up is taken away by one of the
dependencies. -/
theorem removal_dependency {survey : Survey} {before : Dict Str PlanOperation}
    {record : DirRecord} {directory : RelPath}
    (hkeep : survey.keepsDirectory survey.removedFileKeys before directory = false)
    {file : FileRecord} (hfile : file ∈ survey.target.files)
    (hbelow : isBelow file.key directory.key = true) :
    ∃ operation ∈ survey.operations, operation.opId ∈
        (Survey.cleanupOperation survey.takenAway before record directory).dependencies ∧
      ∃ gone ∈ operation.destructivePaths, gone.key = file.key := by
  have hremoved : file.key ∈ survey.removedFileKeys := by
    unfold Survey.keepsDirectory at hkeep
    simp only [Bool.or_eq_false_iff] at hkeep
    obtain ⟨⟨-, hremaining⟩, -⟩ := hkeep
    have hnot := List.any_eq_false.1 hremaining file hfile
    simpa [hbelow] using hnot
  have htaken : ∃ gone : RelPath, gone.key = file.key ∧
      ∃ operation ∈ survey.steps.map ContentStep.operation ++ survey.removalOperations,
        gone ∈ operation.destructivePaths := by
    rcases List.mem_append.1 hremoved with hmoved | hremoval
    · obtain ⟨step, hstep, hkey⟩ := List.mem_filterMap.1 hmoved
      obtain ⟨item, -, hcase⟩ := mem_contentSteps hstep
      obtain ⟨gone, hgone, hsame⟩ := movedFromKey_destructive hcase hkey
      exact ⟨gone, hsame, step.operation, List.mem_append_left _ (List.mem_map_of_mem hstep), hgone⟩
    · obtain ⟨operation, hmem, hkey⟩ := List.mem_map.1 hremoval
      obtain ⟨removed, -, -, -, htarget, hdestroys⟩ := mem_removals hmem
      refine ⟨operation.targetRelPath, hkey, operation, List.mem_append_right _ hmem, ?_⟩
      rw [hdestroys, htarget]
      exact List.mem_singleton_self _
  obtain ⟨gone, hkey, hsome⟩ := htaken
  obtain ⟨operation, hmem, hget, hgone⟩ := removalByPath_find hsome
  refine ⟨operation, ?_, ?_, gone, hgone, hkey⟩
  · rw [Survey.operations_eq]
    rcases List.mem_append.1 hmem with hcontent | hremoval
    · simp [hcontent]
    · simp [hremoval]
  · refine mem_sortedBy.2 (List.mem_dedup.2 (List.mem_append_left _ (List.mem_map.2
      ⟨(gone, operation), List.mem_filter.2 ⟨Dict.get?_eq_some.1 hget, ?_⟩, rfl⟩)))
    rw [Bool.or_eq_true]
    exact Or.inr (by rw [hkey]; exact hbelow)

/-- A directory in a directory that is cleaned up is cleaned up before, and
that cleanup is a dependency. -/
theorem child_dependency (hrooted : source.Rooted)
    (hspelled : ∀ p ∈ target.entryPaths, ∀ q ∈ target.entryPaths, p.key = q.key → p = q)
    {before : Dict Str PlanOperation}
    (hcleaned : Cleaned (survey source target correspondence options) before)
    {record child : DirRecord} {directory path : RelPath}
    (hkeep : (survey source target correspondence options).keepsDirectory
      (survey source target correspondence options).removedFileKeys before directory = false)
    (hchild : child ∈ target.directories) (hpath : child.relPath = some path)
    (hparent : path.parent = some directory) :
    ∃ operation ∈ (survey source target correspondence options).operations,
      operation.opId ∈ (Survey.cleanupOperation
        (survey source target correspondence options).takenAway before record
          directory).dependencies ∧
      ∃ gone ∈ operation.destructivePaths, gone.key = path.key := by
  have hlisted : child ∈ (survey source target correspondence options).targetDirs :=
    mem_targetDirs.2 ⟨hchild, by rw [hpath]; rfl⟩
  have hfree := (keepsDirectory_eq_false hkeep).1
  have hcontains : before.contains path.key = true := by
    unfold Survey.keepsDirectory at hkeep
    simp only [Bool.or_eq_false_iff] at hkeep
    obtain ⟨-, hremaining⟩ := hkeep
    have hnot := List.any_eq_false.1 hremaining path (List.mem_filterMap.2 ⟨child, hlisted, hpath⟩)
    simp only [hparent, decide_true, Bool.true_and, Bool.and_eq_true, Bool.not_eq_true',
      decide_eq_true_eq, not_and, not_not] at hnot
    cases hcontains : before.contains path.key with
    | true => rfl
    | false =>
        obtain ⟨required, hrequired, hkey⟩ := List.mem_map.1 (hnot hcontains)
        -- The directory of a required directory is required.
        have hin : directory.key ∈ (survey source target correspondence
            options).requiredDirectoryPaths.map RelPath.key := by
          have hbelow : isBelow required.key directory.key = true := by
            rw [hkey]
            refine RelPath.isBelow_parent ?_
            rw [RelPath.parents_eq, hparent]
            exact List.mem_cons_self
          obtain ⟨above, habove, hsame⟩ := RelPath.parent_of_isBelow hbelow
          exact List.mem_map.2 ⟨above, required_closed hrooted hrequired habove, hsame⟩
        obtain ⟨above, habove, hsame⟩ := List.mem_map.1 hin
        exact absurd hsame (hfree above habove)
  obtain ⟨operation, hget⟩ := Option.isSome_iff_exists.1 hcontains
  obtain ⟨hcleanup, hkey, hdestroys, hdirectory⟩ := hcleaned _ _ hget
  obtain ⟨other, hother, hrel⟩ := List.mem_map.1 hdirectory
  have hlists : ∀ (record : DirRecord) (path : RelPath), record ∈ target.directories →
      record.relPath = some path → path ∈ target.entryPaths := fun record path hmem hrel =>
    List.mem_append_left _ (List.mem_append_right _ (List.mem_filterMap.2 ⟨record, hmem, hrel⟩))
  have hsame : operation.targetRelPath = path :=
    hspelled _ (hlists other _ (mem_targetDirs.1 hother).1 hrel) _ (hlists child _ hchild hpath)
      hkey
  refine ⟨operation, ?_, ?_, path, ?_, rfl⟩
  · rw [Survey.operations_eq]
    exact List.mem_append_right _ hcleanup
  · refine mem_sortedBy.2 (List.mem_dedup.2 (List.mem_append_right _ (List.mem_map.2
      ⟨operation, List.mem_filter.2 ⟨List.mem_map.2 ⟨(path.key, operation),
        Dict.get?_eq_some.1 hget, rfl⟩, ?_⟩, rfl⟩)))
    rw [hsame, hparent]
    exact decide_eq_true rfl
  · rw [hdestroys, hsame]
    exact List.mem_singleton_self _

/-! ## The cleanup

So what is left below the directory is what the scan did not record, and that is
what it has ignored. -/

theorem cleanup_of_reason {survey : Survey} {operation : PlanOperation}
    (hmem : operation ∈ survey.operations) (hreason : operation.reason = .directoryCleanup) :
    operation ∈ survey.cleanups := by
  rw [Survey.operations_eq] at hmem
  simp only [List.mem_append] at hmem
  rcases hmem with (((h | h) | h) | h) | h
  · exact absurd hreason (mkdirs_reason h)
  · obtain ⟨step, hstep, rfl⟩ := List.mem_map.1 h
    obtain ⟨item, -, hcase⟩ := mem_contentSteps hstep
    exact absurd hreason (contentStep_reason hcase)
  · unfold Survey.removalOperations Survey.removals at h
    split at h
    · exact absurd h List.not_mem_nil
    · obtain ⟨record, -, rfl⟩ := List.mem_map.1 h
      exact absurd hreason (by simp [Survey.removalOperation])
  · obtain ⟨path, -, rfl⟩ := List.mem_map.1 h
    exact absurd hreason (by simp [blockedOperation])
  · exact h

omit [Digest] in
theorem parent_of_append {path directory : RelPath} {name : Str}
    (h : path.components = directory.components ++ [name]) : path.parent = some directory := by
  have hparents := RelPath.parents_of_append h
  rw [RelPath.parents_eq] at hparents
  cases hparent : path.parent with
  | none =>
      rw [hparent] at hparents
      exact absurd hparents.symm (List.cons_ne_nil _ _)
  | some parent =>
      rw [hparent] at hparents
      rw [(List.cons.inj hparents).1]

section Cleanup

variable {sourceBackend targetBackend : ScannerBackend} {sourceRoot targetRoot : Root}
  {sourceIgnores targetIgnores : IgnoreSet} {scope : Scope} {result : Plan}
  {cleanup : PlanOperation}

/-- What the scan of the target does not hide from the plan is taken away
before the cleanup. -/
theorem visible_taken (hcomplete : (scan targetBackend targetRoot targetIgnores).complete = true)
    (hplan : plan (scan sourceBackend sourceRoot sourceIgnores)
      (scan targetBackend targetRoot targetIgnores) correspondence options scope = .ok result)
    (hmem : cleanup ∈ result.operations) (hreason : cleanup.reason = .directoryCleanup)
    {path : RelPath} {entry : Entry}
    (hin : path.components = cleanup.targetRelPath.components ++ [entry.name])
    (hhas : targetBackend.tree.root.Has path.components entry)
    (hseen : entry.ignoredAt targetIgnores path = false) :
    ∃ operation ∈ result.transitiveDependencies cleanup,
      operation.TakesAway (scan targetBackend targetRoot targetIgnores) path := by
  have hcovers := scan_covers hcomplete
  rw [(plan_eq_ok hplan).1] at hmem
  obtain ⟨record, hrecord, directory, before, hrel, hkeep, rfl, hcleaned⟩ :=
    mem_cleanups (cleanup_of_reason hmem hreason)
  have hlisted := (mem_targetDirs.1 hrecord).1
  have hin : path.components = directory.components ++ [entry.name] := hin
  have hparents := RelPath.parents_of_append hin
  have hbelow : isBelow path.key directory.key = true :=
    RelPath.isBelow_parent (by rw [hparents]; exact List.mem_cons_self)
  have hvisible : Visible targetIgnores path := by
    intro parent hparent
    rw [hparents] at hparent
    rcases List.mem_cons.1 hparent with rfl | hparent
    · exact (scan_directory hcomplete hlisted hrel).1
    · exact (hcovers.directories record hlisted directory hrel).2 parent hparent
  -- A dependency that takes the path away is a transitive one.
  have hfound : path ∈ (scan targetBackend targetRoot targetIgnores).entryPaths →
      (∃ operation ∈ (survey (scan sourceBackend sourceRoot sourceIgnores)
        (scan targetBackend targetRoot targetIgnores) correspondence options).operations,
        operation.opId ∈ (Survey.cleanupOperation (survey (scan sourceBackend sourceRoot
          sourceIgnores) (scan targetBackend targetRoot targetIgnores) correspondence
            options).takenAway before record directory).dependencies ∧
        ∃ gone ∈ operation.destructivePaths, gone.key = path.key) →
      ∃ operation ∈ result.transitiveDependencies (Survey.cleanupOperation (survey
        (scan sourceBackend sourceRoot sourceIgnores) (scan targetBackend targetRoot targetIgnores)
          correspondence options).takenAway before record directory),
        operation.TakesAway (scan targetBackend targetRoot targetIgnores) path := by
    rintro hentry ⟨operation, hoperation, hneeded, hgone⟩
    refine ⟨operation, .single ⟨?_, hneeded⟩, hentry, hgone⟩
    rwa [(plan_eq_ok hplan).1]
  rcases hcovers.seen path entry hhas hvisible hseen with ⟨file, hfile, rfl⟩ |
    ⟨child, hchild, hpath⟩ | ⟨unread, hunread, rfl⟩
  · exact hfound (List.mem_append_left _ (List.mem_append_left _ (List.mem_map_of_mem hfile)))
      (removal_dependency hkeep hfile hbelow)
  · exact hfound (List.mem_append_left _ (List.mem_append_right _
      (List.mem_filterMap.2 ⟨child, hchild, hpath⟩)))
      (child_dependency scan_tree.1 hcovers.spelled hcleaned hkeep hchild hpath
        (parent_of_append hin))
  · unfold Survey.keepsDirectory at hkeep
    simp only [Bool.or_eq_false_iff] at hkeep
    obtain ⟨⟨⟨-, hunsupported⟩, -⟩, -⟩ := hkeep
    exact absurd hbelow (List.any_eq_false.1 hunsupported unread hunread)

omit [Digest] in
/-- What the ignore set hides from the scan is taken away by no operation. -/
theorem hidden_stays {path : RelPath} {entry : Entry}
    (hhas : targetBackend.tree.root.Has path.components entry)
    (hhidden : entry.ignoredAt targetIgnores path = true) (operation : PlanOperation) :
    ¬ operation.TakesAway (scan targetBackend targetRoot targetIgnores) path := by
  rintro ⟨hentry, -⟩
  obtain ⟨other, hother, hseen⟩ := scan_tree.2 path hentry
  rw [Tree.has_unique hother hhas, hhidden] at hseen
  exact absurd hseen (by simp)

/-- **Cleanup of directories that end up empty.**  A cleanup finds its
directory empty exactly when the directory holds nothing that the ignore set
hides from the scan, and is not above a place in the trash that one of its
dependencies fills. -/
theorem cleanup_empties_iff
    (hcomplete : (scan targetBackend targetRoot targetIgnores).complete = true)
    (hplan : plan (scan sourceBackend sourceRoot sourceIgnores)
      (scan targetBackend targetRoot targetIgnores) correspondence options scope = .ok result)
    (hmem : cleanup ∈ result.operations) (hreason : cleanup.reason = .directoryCleanup)
    (runId : Str) :
    result.Empties targetBackend.tree (scan targetBackend targetRoot targetIgnores) runId cleanup ↔
      (∀ (path : RelPath) (entry : Entry),
        path.components = cleanup.targetRelPath.components ++ [entry.name] →
        targetBackend.tree.root.Has path.components entry →
        entry.ignoredAt targetIgnores path = false) ∧
      ∀ operation ∈ result.transitiveDependencies cleanup,
        ∀ path ∈ operation.trashedPaths result.trashOnUpdate,
          ¬ AboveTrash runId cleanup.targetRelPath path := by
  have hcovers := scan_covers hcomplete
  have hops := (plan_eq_ok hplan).1
  have hsurvey := hmem
  rw [hops] at hsurvey
  obtain ⟨record, hrecord, directory, before, hrel, hkeep, heq, -⟩ :=
    mem_cleanups (cleanup_of_reason hsurvey hreason)
  have hdirectory : cleanup.targetRelPath = directory := by rw [heq]; rfl
  have hlisted := (mem_targetDirs.1 hrecord).1
  have hfree := (keepsDirectory_eq_false hkeep).1
  constructor
  · -- What is hidden, or trashed into it, would occupy the directory.
    rintro ⟨hempty, -⟩
    constructor
    · intro path entry hin hhas
      by_contra hhidden
      exact hempty (.kept path entry hin hhas fun operation _ =>
        hidden_stays hhas (by simpa using hhidden) operation)
    · exact fun operation hdone path htrashed hin =>
        hempty (.trashed operation hdone path htrashed hin)
  · rintro ⟨hshown, htrash⟩
    constructor
    · intro hoccupied
      -- What could occupy it: an entry that stays, one the scan did not name, a file that an
      -- operation places, and one that is trashed into it.
      cases hoccupied with
      | kept path entry hin hhas hstays =>
          obtain ⟨operation, hdone, htakes⟩ :=
            visible_taken hcomplete hplan hmem hreason hin hhas (hshown path entry hin hhas)
          exact hstays operation hdone htakes
      | unnamed entry hhas hname =>
          rw [hdirectory] at hhas hname
          obtain ⟨⟨folder, hfolder, -⟩, -⟩ := hcovers.directories record hlisted directory hrel
          obtain ⟨path, hpath⟩ := (scan_directory hcomplete hlisted hrel).2 folder hfolder entry
            (child_of_has hfolder hhas)
          exact hname path hpath
      | placed operation hdone path hplaced hin =>
          have hoperation : operation ∈ result.operations := by
            cases hdone with
            | single hstep => exact hstep.1
            | tail _ hstep => exact hstep.1
          rw [hops] at hoperation
          obtain ⟨htarget, hkinds⟩ := placedPath_eq_some hplaced
          have happart := target_not_below scan_tree.1 hfree hoperation hkinds.1 hkinds.2.1
            fun hnoop => absurd hnoop hkinds.2.2
          rw [PlanOperation.targetKey, htarget, ← hdirectory] at happart
          rw [hin] at happart
          exact absurd happart (by simp)
      | trashed operation hdone path htrashed hin => exact htrash operation hdone path htrashed hin
    · intro operation hoperation huses
      rw [hops] at hoperation
      rw [PlanOperation.targetKey, PlanOperation.targetKey, hdirectory, sameOrDescendant,
        Bool.or_eq_false_iff]
      refine ⟨decide_eq_false ?_, ?_⟩
      · exact target_ne_directory hcovers hlisted hrel hfree hoperation huses
      · exact target_not_below scan_tree.1 hfree hoperation huses.2.1 huses.2.2 fun _ => huses.1

end Cleanup

end Emptied

/-! ## A directory with a hidden file

The target holds a directory `d` that the source lacks.  Empty, it is
cleaned up; with a `Thumbs.db` in it, the plan is the same. -/

section Sample

local instance emptiedUnicode : Unicode := asciiUnicode

/-- The digests of the cleanup and of the default options. -/
local instance emptiedDigest : Digest where
  operation _ _ _ _ _ := 0xd127cadee6229f27df35b26e2889b384
  policy _ _ _ _ _ _ _ := str "b76cbc151bb77cf44410d52a81920a1d43824e657978598268e9074d4a4605ff"

def folderEntry (children : List Entry) : Entry :=
  .node
    { name := str "d"
      isDir := .ok true
      isFile := .ok false
      stat := .ok { size := 0, mtimeNs := 1000, ino := 8, fileAttributes := 0x10 }
      lstat := .ok { size := 0, mtimeNs := 1000, ino := 8, fileAttributes := 0x10 } }
    children

/-- One directory of files. -/
def folderTree (children : List Entry) (listing : IsListing children)
    (leaf : ∀ entry ∈ children, entry.children = []) : Tree :=
  have hall : ∀ names entry, (Folder.mk [folderEntry children] none).Has names entry →
      entry = folderEntry children ∨ entry ∈ children := by
    intro names entry hhas
    induction hhas with
    | top h => exact Or.inl (List.mem_singleton.1 h)
    | inside _ h ih =>
        rcases ih with rfl | hmem
        · exact Or.inr h
        · rw [leaf _ hmem] at h
          exact absurd h List.not_mem_nil
  { root := ⟨[folderEntry children], none⟩
    root_listing := ⟨List.nodup_singleton _, by simp [Entry.name, Entry.info, folderEntry]; decide⟩
    listing := by
      intro names entry hhas
      rcases hall names entry hhas with rfl | hmem
      · exact listing
      · rw [leaf _ hmem]
        exact ⟨List.nodup_nil, by simp⟩
    leaf := by
      intro names entry hhas hdir
      rcases hall names entry hhas with rfl | hmem
      · exact absurd (Except.ok.inj hdir) (by simp)
      · exact leaf _ hmem }

def noFiles : ScannerBackend :=
  flatBackend (flatTree [] ⟨by decide, by decide⟩ (by decide)) volumeA

def emptyFolder : ScannerBackend :=
  flatBackend (folderTree [] ⟨by decide, by decide⟩ (by decide)) volumeB

def thumbs : Entry := plainFile "Thumbs.db" 9 0x26

def hiddenFolder : ScannerBackend :=
  flatBackend (folderTree [thumbs] ⟨by decide, by decide⟩ (by decide)) volumeB

def folderPath : RelPath := .single (str "d") (by decide +kernel)

def thumbsPath : RelPath := ⟨[str "d", str "Thumbs.db"], by decide, by decide +kernel⟩

def emptyFolderPlan : Plan :=
  (plan (scan noFiles sampleRoot {}) (scan emptyFolder sampleRoot {}) {} {}
    .everything).toOption.get (by decide +kernel)

def hiddenFolderPlan : Plan :=
  (plan (scan noFiles sampleRoot {}) (scan hiddenFolder sampleRoot {}) {} {}
    .everything).toOption.get (by decide +kernel)

def emptyFolderCleanup : PlanOperation := emptyFolderPlan.operations.get ⟨0, by decide +kernel⟩

def hiddenFolderCleanup : PlanOperation := hiddenFolderPlan.operations.get ⟨0, by decide +kernel⟩

/-- What depends on nothing directly has no transitive dependencies. -/
theorem transitiveDependencies_nil {plan : Plan} {operation needed : PlanOperation}
    (hnil : operation.dependencies = []) : needed ∉ plan.transitiveDependencies operation := by
  intro hneeded
  induction hneeded with
  | single hstep =>
      have hin := hstep.2
      rw [hnil] at hin
      exact absurd hin List.not_mem_nil
  | tail _ _ ih => exact ih

theorem folderTree_has (children : List Entry) (listing : IsListing children)
    (leaf : ∀ entry ∈ children, entry.children = []) :
    (folderTree children listing leaf).root.Has [str "d"] (folderEntry children) :=
  @Folder.Has.top (folderTree children listing leaf).root (folderEntry children)
    (List.mem_singleton_self _)

theorem empty_folder_empties :
    emptyFolderPlan.Empties emptyFolder.tree (scan emptyFolder sampleRoot {}) (str "0")
      emptyFolderCleanup := by
  have hplan : plan (scan noFiles sampleRoot {}) (scan emptyFolder sampleRoot {}) {} {}
      .everything = .ok emptyFolderPlan := Checked.ok_of_get _
  have hmem : emptyFolderCleanup ∈ emptyFolderPlan.operations := List.get_mem _ _
  refine (cleanup_empties_iff (by decide +kernel) hplan hmem (by decide +kernel) _).2 ⟨?_, ?_⟩
  · intro path entry hin hhas
    have htarget : emptyFolderCleanup.targetRelPath = folderPath := by decide +kernel
    have hfolder : emptyFolder.tree.root.Has folderPath.components (folderEntry []) :=
      folderTree_has [] ⟨by decide, by decide⟩ (by decide)
    rw [hin, htarget] at hhas
    exact absurd (child_of_has hfolder hhas) List.not_mem_nil
  · exact fun operation hneeded =>
      absurd hneeded (transitiveDependencies_nil (by decide +kernel))

theorem hidden_file_survives :
    ¬ ∀ (sourceBackend targetBackend : ScannerBackend) (sourceRoot targetRoot : Root)
        (sourceIgnores targetIgnores : IgnoreSet) (correspondence : MappingSnapshot)
        (options : SyncOptions) (scope : Scope) (result : Plan) (cleanup : PlanOperation)
        (runId : Str),
      (scan targetBackend targetRoot targetIgnores).complete = true →
      plan (scan sourceBackend sourceRoot sourceIgnores)
        (scan targetBackend targetRoot targetIgnores) correspondence options scope = .ok result →
      cleanup ∈ result.operations → cleanup.reason = .directoryCleanup →
      result.Empties targetBackend.tree (scan targetBackend targetRoot targetIgnores) runId
        cleanup := by
  intro h
  have hplan : plan (scan noFiles sampleRoot {}) (scan hiddenFolder sampleRoot {}) {} {}
      .everything = .ok hiddenFolderPlan := Checked.ok_of_get _
  have hmem : hiddenFolderCleanup ∈ hiddenFolderPlan.operations := List.get_mem _ _
  have hempties := h noFiles hiddenFolder sampleRoot sampleRoot {} {} {} {} .everything
    hiddenFolderPlan hiddenFolderCleanup [] (by decide +kernel) hplan hmem (by decide +kernel)
  have htarget : hiddenFolderCleanup.targetRelPath = folderPath := by decide +kernel
  have hfolder : hiddenFolder.tree.root.Has [str "d"] (folderEntry [thumbs]) :=
    folderTree_has [thumbs] ⟨by decide, by decide⟩ (by decide)
  have hthumbs : hiddenFolder.tree.root.Has thumbsPath.components thumbs :=
    .inside hfolder (List.mem_singleton_self _)
  refine hempties.1 (.kept thumbsPath thumbs ?_ hthumbs fun operation hneeded => ?_)
  · rw [htarget]
    rfl
  · exact absurd hneeded (transitiveDependencies_nil (by decide +kernel))

end Sample

end NamiSync
