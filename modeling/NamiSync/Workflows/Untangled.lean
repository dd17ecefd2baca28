/-
# `Workflows.Untangled` — the operations of a plan stay out of each other's way

What a run of `execute` rests on is read off the plan that it runs: for a
plan of two complete scans, no place that a selected operation fills is above
one that another one fills, nothing that is moved away or removed is at or
above such a place, and neither the temps nor the trash are among them.

The exception is the target file that both a move and a normalized name lay
hands on; a plan with one is left out.  Nothing is said about incomplete
scans.

## What is proved

    planned_apart : the operations of a selection of such a plan are
      `Untangled` for every run whose temps no scan lists

    trash_policy_conserves : if moreover the plan mirrors no deletion and backs
      up what it updates, then in every state of every sequence of calls of
      `execute` that `Begins`, whatever fails, the source is as it was, the
      bytes of each file of the target are those of some file that is not a
      temp, no file is torn, and what has succeeded has delivered

`Untangled` has two parts: `Apart`, which is what `Modules.Executor` asks, and
that no operation touches a place that another one fills, be it with a copy,
with a file that is moved, in the trash, or as a temp (`places`).

## The hypotheses

* Two complete scans that leave the trash out, from any directory trees.
* The identity policy, and a ledger that names a target file once.
* No contested target file, in the sense of `Modules.Claimed`.
* `RunUnseen`: no scan lists a name that a temp of this run could have.  Run
  ids are random, so this is about leftovers of the same run only.
* For the second result, `Begins` of `Modules.Executor.Conservation`.

## The argument

    where a file is placed     `PlacedBy`, one step of the loop over the files
    what is taken away         `removed_cases`, a claimed file or a directory
    what is above a place      `directory_above`, only directories that stay

Two operations place files at different keys (`placed_once`), and a place is
not above another, since above it are directories (`placed_apart`).  What is
taken away is claimed by one operation, so by `Modules.Claimed` it is no place
of another one, nor above it (`removed_apart`).  The trash begins with a
component that no listed path begins with, and a temp's name is longer than
any place it could be above.  `Reviewed` collects the hypotheses; the last
section goes through the pairs of places and operations with these facts.
-/
import NamiSync.Core.PathLaws
import NamiSync.Modules.Executor.Conservation
import NamiSync.Modules.Executor.TempNames
import NamiSync.Workflows.Emptied

namespace NamiSync

open Executor Listing

section Untangled

variable [Unicode]

/-! ## Two listings

What the two scans of a run say, taken together with the trees they are of: a
name is listed once, with its kind, and what is listed is not in the trash. -/

/-- The files and directories of a scan. -/
def ScanResult.listed (scan : ScanResult) : List RelPath :=
  scan.files.map FileRecord.relPath ++ scan.directories.filterMap DirRecord.relPath

/-- Two listings that tell files from directories and leave the trash out. -/
structure Listings (source target : ScanResult) : Prop where
  sourceRooted : source.Rooted
  targetRooted : target.Rooted
  sourceCovers : ∃ tree ignores, Covers tree ignores source
  targetCovers : ∃ tree ignores, Covers tree ignores target
  untrashed : ∀ path ∈ source.listed ++ target.listed,
    sameOrDescendant path.key syncTrashKey = false

/-- No scan lists a name that a temp of the run could have. -/
def RunUnseen (runId : RunId) (source target : ScanResult) : Prop :=
  ∀ path ∈ source.listed ++ target.listed, ∀ (name : Str) (opId : OpId),
    uppercaseOneCodepoint (name ++ tempSuffix runId opId) ∉ path.keyParts

section Listed

variable {source target : ScanResult} {path : RelPath}

theorem mem_listed : path ∈ source.listed ↔ (∃ record ∈ source.files, record.relPath = path) ∨
    ∃ record ∈ source.directories, record.relPath = some path := by
  rw [ScanResult.listed, List.mem_append, List.mem_map, List.mem_filterMap]

/-- What a complete scan lists is not ignored. -/
theorem listed_seen {backend : ScannerBackend} {root : Root} {ignores : IgnoreSet}
    (hcomplete : (scan backend root ignores).complete = true)
    (h : path ∈ (scan backend root ignores).listed) :
    ∃ isDirectory, ignores.excludes path isDirectory = false := by
  have hcovers := scan_covers hcomplete
  have hentry : path ∈ (scan backend root ignores).entryPaths := List.mem_append_left _ h
  obtain ⟨entry, hentry, hseen⟩ := scan_tree.2 path hentry
  have hkind : ∃ isDirectory, entry.info.isDir = .ok isDirectory := by
    rcases mem_listed.1 h with ⟨record, hrecord, rfl⟩ | ⟨record, hrecord, hpath⟩
    · obtain ⟨⟨other, hother, hfile⟩, -⟩ := hcovers.files record hrecord
      exact ⟨false, Tree.has_unique hother hentry ▸ hfile⟩
    · obtain ⟨⟨other, hother, hdirectory⟩, -⟩ := hcovers.directories record hrecord path hpath
      exact ⟨true, Tree.has_unique hother hentry ▸ hdirectory⟩
  obtain ⟨isDirectory, hdir⟩ := hkind
  refine ⟨isDirectory, ?_⟩
  unfold Entry.ignoredAt at hseen
  rw [hdir] at hseen
  exact hseen

theorem not_in_trash {ignores : IgnoreSet} (htrash : ignores.excludeSyncTrash = true)
    {isDirectory : Bool} (h : ignores.excludes path isDirectory = false) :
    sameOrDescendant path.key syncTrashKey = false := by
  unfold IgnoreSet.excludes at h
  rw [htrash] at h
  cases hin : sameOrDescendant path.key syncTrashKey with
  | false => rfl
  | true =>
      rw [hin] at h
      split at h
      · cases h
      · split at h
        · cases h
        · cases h

/-- What two complete scans give the planner. -/
theorem listings_scan {sourceBackend targetBackend : ScannerBackend} {sourceRoot targetRoot : Root}
    {sourceIgnores targetIgnores : IgnoreSet}
    (hsource : (scan sourceBackend sourceRoot sourceIgnores).complete = true)
    (htarget : (scan targetBackend targetRoot targetIgnores).complete = true)
    (hsourceTrash : sourceIgnores.excludeSyncTrash = true)
    (htargetTrash : targetIgnores.excludeSyncTrash = true) :
    Listings (scan sourceBackend sourceRoot sourceIgnores)
      (scan targetBackend targetRoot targetIgnores) where
  sourceRooted := scan_tree.1
  targetRooted := scan_tree.1
  sourceCovers := ⟨_, _, scan_covers hsource⟩
  targetCovers := ⟨_, _, scan_covers htarget⟩
  untrashed path hpath := by
    rcases List.mem_append.1 hpath with h | h
    · obtain ⟨isDirectory, hseen⟩ := listed_seen hsource h
      exact not_in_trash hsourceTrash hseen
    · obtain ⟨isDirectory, hseen⟩ := listed_seen htarget h
      exact not_in_trash htargetTrash hseen

theorem RelPath.key_ne_nil (path : RelPath) : path.key ≠ [] := by
  intro hkey
  have htext : path.text = [] := List.map_eq_nil_iff.1 hkey
  have hparts : path.components = [[]] := by
    rw [← path.splitOn_text, htext]
    rfl
  exact (path.valid [] (by rw [hparts]; exact List.mem_cons_self)).ne_nil rfl

/-- A directory with the key of a path is not the root. -/
theorem DirRecord.path_of_key {directory : DirRecord} (h : directory.key = path.key) :
    ∃ other, directory.relPath = some other ∧ other.key = path.key := by
  cases hpath : directory.relPath with
  | none =>
      rw [DirRecord.key, hpath] at h
      exact absurd h.symm path.key_ne_nil
  | some other =>
      rw [DirRecord.key, hpath] at h
      exact ⟨other, rfl, h⟩

/-- No file and directory of a listing have one key. -/
theorem Covers.file_ne_directory {tree : Tree} {ignores : IgnoreSet} {result : ScanResult}
    (h : Covers tree ignores result) {record : FileRecord} (hrecord : record ∈ result.files)
    {directory : DirRecord} (hdirectory : directory ∈ result.directories) :
    directory.key ≠ record.key := by
  intro hkey
  obtain ⟨path, hpath, hsame⟩ := DirRecord.path_of_key hkey
  exact h.no_directory hrecord hdirectory hpath hsame

/-- Files of one key have one path. -/
theorem Covers.spelled_files {tree : Tree} {ignores : IgnoreSet} {result : ScanResult}
    (h : Covers tree ignores result) {a b : FileRecord} (ha : a ∈ result.files)
    (hb : b ∈ result.files) (hkey : a.key = b.key) : a.relPath = b.relPath :=
  h.spelled _ (List.mem_append_left _ (List.mem_append_left _ (List.mem_map_of_mem ha))) _
    (List.mem_append_left _ (List.mem_append_left _ (List.mem_map_of_mem hb))) hkey

/-- So a path with the key of a file names it. -/
theorem Covers.names {tree : Tree} {ignores : IgnoreSet} {result : ScanResult}
    (h : Covers tree ignores result) {record : FileRecord} (hrecord : record ∈ result.files)
    (hkey : record.key = path.key) : NamesFile result.files path record := by
  refine ⟨hrecord, or_iff_not_imp_left.2 fun hne => ⟨hkey, fun other hother hpath => hne ?_⟩⟩
  have hsame : other.key = record.key := (congrArg RelPath.key hpath).trans hkey.symm
  rw [← h.spelled_files hother hrecord hsame, hpath]

/-- What is above a listed path is a directory. -/
theorem ScanResult.Rooted.directory (h : source.Rooted) (hpath : path ∈ source.listed)
    {parent : RelPath} (hparent : parent ∈ path.parents) :
    ∃ directory ∈ source.directories, directory.key = parent.key := by
  obtain ⟨directory, hdirectory, hrel⟩ :=
    List.mem_map.1 (h path (List.mem_append_left _ hpath) parent hparent)
  refine ⟨directory, hdirectory, ?_⟩
  rw [DirRecord.key, hrel]
  rfl

end Listed

/-! ## Places

The names that a run makes up, next to the names that the scans have listed.  A
temp stands beside its target, a place in the trash below a folder of the run. -/

section Places

variable {path place : RelPath}

/-- A prefix is the place itself, or above it. -/
theorem above_cases (h : loc path <+: loc place) :
    path.key = place.key ∨ isBelow place.key path.key = true := by
  have hsame := sameOrDescendant_iff.2 h
  rw [sameOrDescendant, Bool.or_eq_true, decide_eq_true_eq] at hsame
  exact hsame.imp_left Eq.symm

/-- The parts of the key of a temp. -/
theorem loc_ownedTemp (target : RelPath) (runId : RunId) (opId : OpId) :
    loc (ownedTemp target runId opId) =
      (loc target).dropLast ++ [uppercaseOneCodepoint (target.name ++ tempSuffix runId opId)] := by
  show (target.components.dropLast ++ [target.name ++ tempSuffix runId opId]).map
    uppercaseOneCodepoint = _
  rw [List.map_append, List.map_dropLast]
  rfl

theorem loc_name (target : RelPath) :
    loc target = (loc target).dropLast ++ [uppercaseOneCodepoint target.name] := by
  have hlast : (loc target).getLast target.keyParts_ne_nil = uppercaseOneCodepoint target.name :=
    List.getLast_map target.keyParts_ne_nil
  rw [← hlast, List.dropLast_append_getLast]

/-- What is at or above a temp is the temp, or above the place that the temp
is for. -/
theorem above_temp {target : RelPath} {runId : RunId} {opId : OpId}
    (h : loc path <+: loc (ownedTemp target runId opId)) :
    loc path = loc (ownedTemp target runId opId) ∨ isBelow target.key path.key = true := by
  rw [loc_ownedTemp] at h ⊢
  rcases List.prefix_concat_iff.1 h with hall | habove
  · exact Or.inl hall
  · right
    obtain ⟨rest, hrest⟩ := habove
    refine isBelow_iff.2 ⟨rest ++ [(loc target).getLast target.keyParts_ne_nil], by simp, ?_⟩
    rw [← List.append_assoc, hrest, List.dropLast_append_getLast]

theorem loc_trashPath (runId : RunId) (path : RelPath) :
    loc (trashPath runId path) = uppercaseOneCodepoint (str ".synctrash") ::
      uppercaseOneCodepoint (hexDigits 32 runId) :: loc path := rfl

/-- The temp of a copy in the trash stands where the temp of the file does,
below the trash of the run. -/
theorem loc_backupTemp (target : RelPath) (runId : RunId) (opId : OpId) :
    loc (ownedTemp (trashPath runId target) runId opId) =
      uppercaseOneCodepoint (str ".synctrash") :: uppercaseOneCodepoint (hexDigits 32 runId) ::
        loc (ownedTemp target runId opId) := by
  have hname : (trashPath runId target).name = target.name := by
    show (str ".synctrash" :: hexDigits 32 runId :: target.components).getLast _ = _
    rw [List.getLast_cons (List.cons_ne_nil _ _), List.getLast_cons target.ne_nil]
    rfl
  rw [loc_ownedTemp, loc_ownedTemp, loc_trashPath, hname, List.dropLast_cons_of_ne_nil
    (List.cons_ne_nil _ _), List.dropLast_cons_of_ne_nil target.keyParts_ne_nil]
  rfl

end Places

/-! ## Where the operations of a plan place files

For each operation that fills its target: the item of the destination it comes
from, and what the scans have there. -/

section Placing

variable [Digest] {tables : Survey} {operation : PlanOperation}

/-- What a step of the loop over the assigned files places: a file where
there is none, or one that takes its counterpart's place. -/
inductive Placing (tables : Survey) (operation : PlanOperation) (item : DestinationAssignment) :
    Prop
  | fresh (htarget : operation.targetRelPath = item.targetRelPath)
      (hempty : filesAt tables.targetFiles item.targetKey = [])
      (hkind : operation.kind ∈ [.copy, .move, .moveUpdate])
  | found (counterpart : FileRecord) (mismatch : Bool)
      (hfound : tables.Counterpart item counterpart mismatch)
      (htarget : operation.targetKey = counterpart.key)
      (hprior : ∀ path ∈ operation.priorTargetRelPath, path.key = counterpart.key)
      (hclaimed : ∃ path ∈ operation.claimedPaths, path.key = counterpart.key)
      (hexpected : operation.targetExpected = some counterpart.stat)
      (hdestroys : operation.destructivePaths = [])

/-- The step that an operation for a file is from. -/
structure PlacedBy (tables : Survey) (operation : PlanOperation) (item : DestinationAssignment)
    (source : FileRecord) (step : ContentStep) : Prop where
  stepOf : StepOf tables item source step
  operation_eq : step.operation = operation
  reports : operation.sourceExpected = some source.stat
  places : Placing tables operation item

theorem matchedStep_expected (survey : Survey) (item : DestinationAssignment)
    (source target : FileRecord) (mismatch : Bool) (dependency : Option PlanOperation) :
    (survey.matchedStep item source target mismatch dependency).operation.targetExpected =
      some target.stat := by
  unfold Survey.matchedStep
  dsimp only
  cases metadataEqual source.stat target.stat survey.granularity <;>
    split <;> try (split <;> try split) <;> rfl

theorem unmatchedStep_kinds (survey : Survey) (item : DestinationAssignment) (source : FileRecord)
    (dependency : Option PlanOperation) :
    (survey.unmatchedStep item source dependency).operation.kind ∈ [.copy, .move, .moveUpdate] := by
  unfold Survey.unmatchedStep
  split
  · dsimp only
    split <;> simp
  · simp

omit [Digest] in
/-- A counterpart is a target file; found by key it has the item's. -/
theorem Survey.Counterpart.spec {item : DestinationAssignment} {target : FileRecord}
    {mismatch : Bool} (h : tables.Counterpart item target mismatch) :
    target ∈ tables.targetFiles ∧ (mismatch = false → item.targetKey = target.key) := by
  cases h with
  | direct hdirect =>
      have hat : target ∈ filesAt tables.targetFiles item.targetKey := by
        rw [hdirect]
        exact List.mem_singleton_self target
      obtain ⟨hmem, hkey⟩ := mem_filesAt_iff.1 hat
      exact ⟨hmem, fun _ => hkey.symm⟩
  | paired _ hpair =>
      exact ⟨(normalizationPair_spec hpair).1, fun h => absurd h.symm Bool.false_ne_true⟩

/-- Every operation that is not blocked, neither removes nor makes a
directory, is from a step of the loop. -/
theorem placed_of_mem (hmem : operation ∈ tables.operations) (hfree : operation.blocked = false)
    (hkind : operation.kind ∉ [.mkdir, .trash, .delete]) :
    ∃ item source step, PlacedBy tables operation item source step := by
  cases Survey.plans_of_mem hmem with
  | mkdir hmkdir =>
      rw [mem_mkdirs hmkdir] at hkind
      exact absurd List.mem_cons_self hkind
  | content item hitem step hcase hstep =>
      subst hstep
      cases contentStep_branch hcase with
      | blocked hblocked _ _ => exact absurd (hblocked.symm.trans hfree) (by simp)
      | matched source target mismatch hclear htarget hmatched =>
          obtain ⟨htargetMem, hkey⟩ := htarget.spec
          refine ⟨item, source, step, ⟨hitem, hcase, hclear⟩, rfl, ?_, ?_⟩
          · rw [hmatched]
            exact matchedStep_reports.2.2
          · obtain ⟨path, hpath, hsame, -⟩ := matchedStep_claimed tables
              (nearestCreatedParent item.targetRelPath tables.mkdirs.2) hkey
            refine .found target mismatch htarget ?_ ?_ ⟨path, ?_, hsame⟩ ?_ ?_
            · rw [hmatched]
              exact (matchedStep_paths item source target _ hkey).1
            · intro prior hprior
              rw [hmatched] at hprior
              exact congrArg RelPath.key
                ((matchedStep_paths item source target _ hkey).2 prior hprior)
            · rw [hmatched, hpath]
              exact List.mem_singleton_self path
            · rw [hmatched]
              exact matchedStep_expected ..
            · rw [hmatched]
              exact (matchedStep_spec ..).1
      | unmatched source hclear hempty hpair hunmatched =>
          refine ⟨item, source, step, ⟨hitem, hcase, hclear⟩, rfl, ?_, .fresh ?_ hempty ?_⟩
          · rw [hunmatched]
            exact unmatchedStep_reports.2.2
          · rw [hunmatched]
            exact (unmatchedStep_paths ..).1
          · rw [hunmatched]
            exact unmatchedStep_kinds ..
  | removal kind record _ hremoval hremovalEq =>
      subst hremovalEq
      rw [show (Survey.removalOperation kind record).kind = kind from rfl, hremoval] at hkind
      refine absurd ?_ hkind
      split <;> simp
  | unsupported record _ _ hblocked =>
      subst hblocked
      exact absurd hfree (by simp [PlanOperation.blocked, blockedOperation])
  | cleanup _ _ path _ before _ hcleanup =>
      subst hcleanup
      exact absurd (by simp [Survey.cleanupOperation]) hkind

end Placing

/-! ## What is above a place

Only directories are, either listed ones or those the plan makes. -/

section Above

variable [Digest] {source target : ScanResult} {correspondence : MappingSnapshot}
  {options : SyncOptions} {scope : Scope} {result : Plan} {operation other : PlanOperation}
  {item : DestinationAssignment} {record : FileRecord} {step : ContentStep}

/-- An operation of a plan that its selection holds. -/
def Plan.Selects (plan : Plan) (operation : PlanOperation) : Prop :=
  operation ∈ plan.operations ∧ operation.opId ∈ (deriveExecutionSelection plan).selection

/-- What a source file brings about. -/
theorem content_kind {tables : Survey} {created : Created}
    (hcase : tables.contentStep created item = some step) :
    step.operation.kind ∉ [.mkdir, .trash, .delete] := by
  cases contentStep_branch hcase with
  | blocked _ _ hcopy =>
      rw [hcopy]
      decide
  | matched source target mismatch _ _ hmatched =>
      rw [hmatched]
      rcases matchedStep_kinds tables item source target mismatch
        (nearestCreatedParent item.targetRelPath created) with h | h | h <;> (rw [h]; decide)
  | unmatched source _ _ _ hunmatched =>
      have hkinds := unmatchedStep_kinds tables item source
        (nearestCreatedParent item.targetRelPath created)
      rw [← hunmatched] at hkinds
      intro hmem
      cases hkind : step.operation.kind <;> rw [hkind] at hkinds hmem
      all_goals first | exact absurd hkinds (by decide) | exact absurd hmem (by decide)

theorem mkdir_of_kind {tables : Survey} (hmem : operation ∈ tables.operations)
    (hkind : operation.kind = .mkdir) : operation ∈ tables.mkdirs.1 := by
  cases Survey.plans_of_mem hmem with
  | mkdir hmkdir => exact hmkdir
  | content item _ step hcase hstep =>
      subst hstep
      exact absurd (by rw [hkind]; decide) (content_kind hcase)
  | removal kind record _ hremoval hremovalEq =>
      subst hremovalEq
      rw [show (Survey.removalOperation kind record).kind = kind from rfl, hremoval] at hkind
      split at hkind <;> cases hkind
  | unsupported record _ _ hblocked =>
      subst hblocked
      cases hkind
  | cleanup _ _ path _ before _ hcleanup =>
      subst hcleanup
      cases hkind

/-- Without the mirror policy only directories are deleted. -/
theorem deleted_directory {tables : Survey} (hmem : operation ∈ tables.operations)
    (hkind : operation.kind = .delete) (hpolicy : tables.options.deletionPolicy ≠ .mirror)
    {expected : FileStat} (hexpected : expected ∈ operation.targetExpected) :
    expected.kind = .directory := by
  rw [Survey.operations_eq] at hmem
  simp only [List.mem_append] at hmem
  rcases hmem with (((h | h) | h) | h) | h
  · rw [mem_mkdirs h] at hkind
    cases hkind
  · obtain ⟨step, hstep, rfl⟩ := List.mem_map.1 h
    obtain ⟨item, -, hcase⟩ := mem_contentSteps hstep
    exact absurd (by rw [hkind]; decide) (content_kind hcase)
  · unfold Survey.removalOperations Survey.removals at h
    split at h
    · exact absurd h List.not_mem_nil
    · next hadditive =>
        obtain ⟨record, -, rfl⟩ := List.mem_map.1 h
        have htrash : tables.options.deletionPolicy = .trash := by
          cases hcase : tables.options.deletionPolicy with
          | additive => exact absurd hcase hadditive
          | mirror => exact absurd hcase hpolicy
          | trash => rfl
        rw [htrash] at hkind
        cases hkind
  · obtain ⟨path, -, rfl⟩ := List.mem_map.1 h
    cases hkind
  · obtain ⟨directory, -, path, before, -, -, rfl, -⟩ := mem_cleanups h
    obtain rfl := Option.some.inj hexpected
    rfl

/-- A folder that is made was missing, and the source has it. -/
theorem made_spec {tables : Survey} {folder : PlanOperation} (hmem : folder ∈ tables.mkdirs.1)
    (hfree : folder.blocked = false) :
    filesAt tables.targetFiles folder.targetKey = [] ∧
      ∃ directory ∈ tables.sourceDirs, directory.key = folder.targetKey := by
  obtain ⟨path, -, before, rfl⟩ := mem_mkdirLoop hmem
  rw [mkdirOperation_blocked_eq] at hfree
  unfold Survey.obstructs at hfree
  rw [Bool.or_eq_false_iff, Bool.not_eq_false', List.isEmpty_iff, decide_eq_false_iff_not,
    not_not] at hfree
  rw [PlanOperation.targetKey, (mkdirOperation_kind ..).2]
  obtain ⟨directory, hdirectory⟩ :=
    List.exists_mem_of_length_pos (by rw [hfree.2]; exact Nat.one_pos)
  obtain ⟨hlisted, hkey⟩ := mem_directoriesAt_iff.1 hdirectory
  exact ⟨hfree.1, directory, hlisted, hkey⟩

variable (hlist : Listings source target)
  (hplan : plan source target correspondence options scope = .ok result)

include hlist hplan

/-- Above what a selected operation places are folders: of the target, or of
the source where the target has nothing. -/
theorem directory_above (hselected : result.Selects operation)
    (hplaced : PlacedBy (survey source target correspondence options) operation item record step)
    {parent : RelPath} (hparent : parent ∈ operation.targetRelPath.parents) :
    (∃ directory ∈ target.directories, directory.key = parent.key) ∨
      filesAt (survey source target correspondence options).targetFiles parent.key = [] ∧
        ∃ directory ∈ source.directories, directory.key = parent.key := by
  cases hplaced.places with
  | fresh _ _ hkind =>
      have hkind : operation.kind ∈ [.mkdir, .copy, .move, .moveUpdate] :=
        List.mem_cons_of_mem _ hkind
      rcases parent_chain hlist.sourceRooted hplan hselected.1 hselected.2 hkind hparent with
        ⟨directory, hdirectory, hkey, -⟩ | ⟨folder, hfolder, hmkdir, hkey, hchosen, -⟩
      · exact Or.inl ⟨directory, hdirectory, hkey⟩
      · right
        have hfree := (selected_cases hfolder hchosen).1
        rw [(plan_eq_ok hplan).1] at hfolder
        obtain ⟨hempty, directory, hdirectory, hsame⟩ :=
          made_spec (mkdir_of_kind hfolder hmkdir) hfree
        rw [hkey] at hempty hsame
        obtain ⟨path, hpath, -⟩ := DirRecord.path_of_key hsame
        exact ⟨hempty, directory, ((mem_sourceDirs hpath).1 hdirectory).1, hsame⟩
  | found counterpart mismatch hfound htarget =>
      left
      have hfile := (mem_targetFiles.1 hfound.spec.1).1
      obtain ⟨above, habove, hkey⟩ := RelPath.parent_of_key htarget hparent
      obtain ⟨directory, hdirectory, hsame⟩ :=
        hlist.targetRooted.directory (mem_listed.2 (Or.inl ⟨counterpart, hfile, rfl⟩)) habove
      exact ⟨directory, hdirectory, hsame.trans hkey⟩

/-- So no target file is above it. -/
theorem no_file_above (hselected : result.Selects operation)
    (hplaced : PlacedBy (survey source target correspondence options) operation item record step)
    {file : FileRecord}
    (hfile : file ∈ (survey source target correspondence options).targetFiles) :
    isBelow operation.targetKey file.key = false := by
  by_contra hbelow
  rw [Bool.not_eq_false] at hbelow
  obtain ⟨parent, hparent, hkey⟩ := RelPath.parent_of_isBelow hbelow
  rcases directory_above hlist hplan hselected hplaced hparent with
    ⟨directory, hdirectory, hsame⟩ | ⟨hempty, -⟩
  · obtain ⟨tree, ignores, hcovers⟩ := hlist.targetCovers
    exact hcovers.file_ne_directory (mem_targetFiles.1 hfile).1 hdirectory (hsame.trans hkey)
  · have hat : file ∈ filesAt
        (survey source target correspondence options).targetFiles parent.key :=
      mem_filesAt_iff.2 ⟨hfile, hkey.symm⟩
    rw [hempty] at hat
    exact absurd hat List.not_mem_nil

omit hplan in
theorem no_directory_at
    (hplaced : PlacedBy (survey source target correspondence options) operation item record step)
    {directory : DirRecord} (hdirectory : directory ∈ target.directories) :
    directory.key ≠ operation.targetKey := by
  intro hkey
  cases hplaced.places with
  | fresh htarget _ _ =>
      obtain ⟨path, hpath, -⟩ := DirRecord.path_of_key hkey
      have hat : directory ∈ directoriesAt
          (survey source target correspondence options).targetDirs item.targetKey := by
        refine mem_directoriesAt_iff.2 ⟨mem_targetDirs.2 ⟨hdirectory, by rw [hpath]; rfl⟩, ?_⟩
        rw [hkey, PlanOperation.targetKey, htarget]
      rw [hplaced.stepOf.clear.targetDirs_eq] at hat
      exact absurd hat List.not_mem_nil
  | found counterpart mismatch hfound htarget =>
      obtain ⟨tree, ignores, hcovers⟩ := hlist.targetCovers
      exact hcovers.file_ne_directory (mem_targetFiles.1 hfound.spec.1).1 hdirectory
        (hkey.trans htarget)

end Above

/-! ## Places under the identity policy

An item has the path of its source file, so two operations at one place are of
one source file, and there is one operation of it. -/

section Identity

variable [Digest] {source target : ScanResult} {correspondence : MappingSnapshot}
  {options : SyncOptions} {scope : Scope} {result : Plan} {operation other : PlanOperation}
  {item item' : DestinationAssignment} {record record' : FileRecord} {step step' : ContentStep}

section Tables

variable {tables : Survey} (hidentity : tables.Identity)

include hidentity

/-- Operations for one key are one operation. -/
theorem PlacedBy.eq_of_item (hp : PlacedBy tables operation item record step)
    (hq : PlacedBy tables other item' record' step') (hkey : item.targetKey = item'.targetKey) :
    operation = other := by
  have hitem := (hidentity.proceeds hp.stepOf.item_mem hp.stepOf.clear).1
  have hitem' := (hidentity.proceeds hq.stepOf.item_mem hq.stepOf.clear).1
  have hsource : filesAt tables.sourceFiles item'.sourceKey = [record] := by
    have hsame : item'.sourceKey = item.sourceKey := by
      have hback := hkey.symm
      rw [hitem, hitem'] at hback ⊢
      exact hback
    rw [hsame]
    exact hp.stepOf.clear.source_eq
  have heq : item = item' := hitem.trans (hidentity.item_eq hq.stepOf.item_mem hsource).symm
  have hstep := hp.stepOf.step_eq
  rw [heq, hq.stepOf.step_eq] at hstep
  rw [← hp.operation_eq, ← hq.operation_eq, Option.some.inj hstep]

/-- What is placed where the target has nothing is a source file's own. -/
theorem PlacedBy.source_key (hp : PlacedBy tables operation item record step)
    (htarget : operation.targetRelPath = item.targetRelPath) :
    operation.targetKey = record.key := by
  rw [PlanOperation.targetKey, htarget,
    (hidentity.proceeds hp.stepOf.item_mem hp.stepOf.clear).1]
  rfl

end Tables

variable (hlist : Listings source target)
  (hplan : plan source target correspondence options scope = .ok result)
  (hidentity : (survey source target correspondence options).Identity)

include hlist hidentity

/-- Two operations do not place files at one key. -/
theorem placed_once
    (hp : PlacedBy (survey source target correspondence options) operation item record step)
    (hq : PlacedBy (survey source target correspondence options) other item' record' step')
    (hkey : operation.targetKey = other.targetKey) : operation = other := by
  have hunlike : ∀ {key : Str} {file : FileRecord},
      filesAt (survey source target correspondence options).targetFiles key = [] →
      file ∈ (survey source target correspondence options).targetFiles → file.key ≠ key := by
    intro key file hempty hfile hsame
    have hat := mem_filesAt_iff.2 ⟨hfile, hsame⟩
    rw [hempty] at hat
    exact absurd hat List.not_mem_nil
  cases hp.places with
  | fresh htarget hempty _ =>
      have hitemKey : operation.targetKey = item.targetKey := congrArg RelPath.key htarget
      cases hq.places with
      | fresh htarget' _ _ =>
          have hitemKey' : other.targetKey = item'.targetKey := congrArg RelPath.key htarget'
          exact hp.eq_of_item hidentity hq (hitemKey.symm.trans (hkey.trans hitemKey'))
      | found counterpart _ hfound htarget' =>
          exact absurd (htarget'.symm.trans (hkey.symm.trans hitemKey))
            (hunlike hempty hfound.spec.1)
  | found counterpart mismatch hfound htarget =>
      cases hq.places with
      | fresh htarget' hempty _ =>
          have hitemKey' : other.targetKey = item'.targetKey := congrArg RelPath.key htarget'
          exact absurd (htarget.symm.trans (hkey.trans hitemKey'))
            (hunlike hempty hfound.spec.1)
      | found counterpart' mismatch' hfound' htarget' =>
          have hsame : counterpart.key = counterpart'.key :=
            htarget.symm.trans (hkey.trans htarget')
          cases mismatch with
          | false =>
              have hitemKey := hfound.spec.2 rfl
              cases mismatch' with
              | false =>
                  exact hp.eq_of_item hidentity hq
                    (hitemKey.trans (hsame.trans (hfound'.spec.2 rfl).symm))
              | true =>
                  cases hfound' with
                  | paired _ hpair =>
                      exact absurd (hitemKey.trans hsame)
                        ((normalizationPair_spec hpair).2.2.2.1 item hp.stepOf.item_mem)
          | true =>
              cases hfound with
              | paired hempty hpair =>
                  obtain ⟨hmem, -, hsignature, hunassigned, honly⟩ := normalizationPair_spec hpair
                  cases mismatch' with
                  | false =>
                      exact absurd ((hfound'.spec.2 rfl).trans hsame.symm)
                        (hunassigned item' hq.stepOf.item_mem)
                  | true =>
                      cases hfound' with
                      | paired hempty' hpair' =>
                          obtain ⟨hmem', -, hsignature', -, -⟩ := normalizationPair_spec hpair'
                          obtain ⟨tree, ignores, hcovers⟩ := hlist.targetCovers
                          have hpath := hcovers.spelled_files (mem_targetFiles.1 hmem).1
                            (mem_targetFiles.1 hmem').1 hsame
                          have hitem : item' = item := honly item' hq.stepOf.item_mem hempty'
                            (by rw [← hsignature, ← hsignature', hpath]) hp.stepOf.item_mem
                          exact hp.eq_of_item hidentity hq (by rw [hitem])

include hplan

/-- And none places one above that of another. -/
theorem placed_apart (hp : PlacedBy (survey source target correspondence options) operation item
      record step)
    (hselected : result.Selects other)
    (hq : PlacedBy (survey source target correspondence options) other item' record' step') :
    isBelow other.targetKey operation.targetKey = false := by
  by_contra hbelow
  rw [Bool.not_eq_false] at hbelow
  obtain ⟨parent, hparent, hkey⟩ := RelPath.parent_of_isBelow hbelow
  rcases directory_above hlist hplan hselected hq hparent with
    ⟨directory, hdirectory, hsame⟩ | ⟨hempty, directory, hdirectory, hsame⟩
  · exact no_directory_at hlist hp hdirectory (hsame.trans hkey)
  · cases hp.places with
    | fresh htarget _ _ =>
        obtain ⟨tree, ignores, hcovers⟩ := hlist.sourceCovers
        have hfile := (mem_sourceFiles.1 hp.stepOf.mem_sourceFiles).1
        exact hcovers.file_ne_directory hfile hdirectory
          (hsame.trans (hkey.trans (hp.source_key hidentity htarget)))
    | found counterpart _ hfound htarget =>
        have hat := mem_filesAt_iff.2 ⟨hfound.spec.1, htarget.symm.trans hkey.symm⟩
        rw [hempty] at hat
        exact absurd hat List.not_mem_nil

end Identity

/-! ## What is taken away

What is trashed, deleted or moved is listed on the target, and no operation that
fills a place claims it except its own. -/

section Removed

variable [Digest] {source target : ScanResult} {correspondence : MappingSnapshot}
  {options : SyncOptions} {scope : Scope} {result : Plan} {operation other : PlanOperation}
  {item : DestinationAssignment} {record : FileRecord} {step : ContentStep} {removed : RelPath}

omit [Digest] in
theorem claimed_of_destructive (hremoved : removed ∈ operation.destructivePaths)
    (hreason : operation.reason ≠ .directoryCleanup) : removed ∈ operation.claimedPaths := by
  unfold PlanOperation.destructivePaths at hremoved
  unfold PlanOperation.claimedPaths
  cases hkind : operation.kind <;> rw [hkind] at hremoved
  case trash => rwa [if_neg hreason]
  case delete => rwa [if_neg hreason]
  case move => exact hremoved
  case moveUpdate => exact hremoved
  all_goals exact absurd hremoved List.not_mem_nil

/-- What an operation takes away is a target file that it claims, or a
directory that nothing needs; only deletions take directories. -/
theorem removed_cases {tree : Tree} {ignores : IgnoreSet} (hcovers : Covers tree ignores target)
    (hmem : operation ∈ (survey source target correspondence options).operations)
    (hfree : operation.blocked = false) (hremoved : removed ∈ operation.destructivePaths) :
    (∃ file ∈ (survey source target correspondence options).targetFiles,
        file.key = removed.key ∧ operation.Claims target.files file) ∨
      operation.kind = .delete ∧ ∃ directory ∈ target.directories,
        directory.relPath = some removed ∧
          ∀ path ∈ (survey source target correspondence options).requiredDirectoryPaths,
            path.key ≠ removed.key := by
  by_cases hreason : operation.reason = .directoryCleanup
  · obtain ⟨directory, hdirectory, path, before, hpath, hkeep, rfl, -⟩ :=
      mem_cleanups (cleanup_of_reason hmem hreason)
    obtain rfl := List.mem_singleton.1 hremoved
    exact Or.inr ⟨rfl, directory, (mem_targetDirs.1 hdirectory).1, hpath,
      (keepsDirectory_eq_false hkeep).1⟩
  · have hclaimed := claimed_of_destructive hremoved hreason
    have hclaims {file : FileRecord}
        (hfile : file ∈ (survey source target correspondence options).targetFiles)
        (hkey : file.key = removed.key) : operation.Claims target.files file :=
      ⟨hfree, removed, hclaimed, hcovers.names (mem_targetFiles.1 hfile).1 hkey⟩
    cases removal_cases hmem hfree hremoved with
    | file file hfile hpath _ =>
        have hkey : file.key = removed.key := congrArg RelPath.key hpath
        exact Or.inl ⟨file, hfile, hkey, hclaims hfile hkey⟩
    | moved file hfile hkey _ => exact Or.inl ⟨file, hfile, hkey, hclaims hfile hkey⟩
    | directory directory hkind hdirectory hpath hrequired _ =>
        exact Or.inr ⟨hkind, directory, (mem_targetDirs.1 hdirectory).1, hpath, hrequired⟩

/-- What places something removes nothing of its own place. -/
theorem PlacedBy.uses (hfree : operation.blocked = false)
    (hp : PlacedBy (survey source target correspondence options) operation item record step) :
    operation.Uses := by
  refine ⟨hfree, fun hkind => ?_, fun hkind => ?_⟩ <;>
  · cases hp.places with
    | fresh _ _ hkinds =>
        rw [hkind] at hkinds
        exact absurd hkinds (by decide)
    | found _ _ _ _ _ _ _ hdestroys =>
        unfold PlanOperation.destructivePaths at hdestroys
        rw [hkind] at hdestroys
        cases hdestroys

variable (hlist : Listings source target)
  (hplan : plan source target correspondence options scope = .ok result)
  (hidentity : (survey source target correspondence options).Identity)
  (hdistinct : (correspondence.pairs.map MappingPair.targetKey).Nodup)
  (huncontested : ¬ ∃ moved paired file,
    (survey source target correspondence options).Contested moved paired file)

include hlist hplan

/-- A path that is taken away is spelled like a listed one. -/
theorem removed_listed (hselected : result.Selects operation)
    (hremoved : removed ∈ operation.destructivePaths) :
    ∃ path ∈ target.listed, path.key = removed.key := by
  obtain ⟨tree, ignores, hcovers⟩ := hlist.targetCovers
  have hmem : operation ∈ (survey source target correspondence options).operations :=
    (plan_eq_ok hplan).1 ▸ hselected.1
  have hfree := (selected_cases hselected.1 hselected.2).1
  rcases removed_cases hcovers hmem hfree hremoved with ⟨file, hfile, hkey, -⟩ |
    ⟨-, directory, hdirectory, hpath, -⟩
  · exact ⟨file.relPath, mem_listed.2 (Or.inl ⟨file, (mem_targetFiles.1 hfile).1, rfl⟩), hkey⟩
  · exact ⟨removed, mem_listed.2 (Or.inr ⟨directory, hdirectory, hpath⟩), rfl⟩

include hidentity hdistinct huncontested

/-- Nothing that is taken away is at or above a place that is filled. -/
theorem removed_apart (hselected : result.Selects other)
    (hremoved : removed ∈ other.destructivePaths) (hchosen : result.Selects operation)
    (hp : PlacedBy (survey source target correspondence options) operation item record step) :
    ¬ loc removed <+: loc operation.targetRelPath := by
  obtain ⟨tree, ignores, hcovers⟩ := hlist.targetCovers
  have hoperations := (plan_eq_ok hplan).1
  have hfree := (selected_cases hselected.1 hselected.2).1
  have hfree' := (selected_cases hchosen.1 hchosen.2).1
  have hmem : other ∈ (survey source target correspondence options).operations :=
    hoperations ▸ hselected.1
  have hmem' : operation ∈ (survey source target correspondence options).operations :=
    hoperations ▸ hchosen.1
  intro habove
  rcases removed_cases hcovers hmem hfree hremoved with ⟨file, hfile, hkey, hclaims⟩ |
    ⟨-, directory, hdirectory, hpath, hrequired⟩
  · rcases above_cases habove with hsame | hbelow
    · have htarget : file.key = operation.targetKey := hkey.trans hsame
      cases hp.places with
      | fresh hitem hempty _ =>
          have hat := mem_filesAt_iff.2 ⟨hfile, htarget.trans (congrArg RelPath.key hitem)⟩
          have hnil : filesAt (survey source target correspondence options).targetFiles
            item.targetKey = [] := hempty
          rw [show item.targetRelPath.key = item.targetKey from rfl, hnil] at hat
          exact absurd hat List.not_mem_nil
      | found counterpart mismatch hfound hcounterpart _ hclaimed _ hdestroys =>
          -- Both operations claim the file.
          obtain ⟨path, hpath, hpathKey⟩ := hclaimed
          have hclaims' : operation.Claims target.files file :=
            ⟨hfree', path, hpath, hcovers.names (mem_targetFiles.1 hfile).1
              (htarget.trans (hcounterpart.trans hpathKey.symm))⟩
          have heq := (hidentity.claimed_once hdistinct
            (fun hid => result.eq_of_opId hselected.1 hchosen.1 hid)
            (claim_cases survey_lists hmem hclaims)
            (claim_cases survey_lists hmem' hclaims')).resolve_right huncontested
          rw [heq, hdestroys] at hremoved
          exact absurd hremoved List.not_mem_nil
    · rw [show operation.targetRelPath.key = operation.targetKey from rfl, ← hkey,
        no_file_above hlist hplan hchosen hp hfile] at hbelow
      cases hbelow
  · have huses := hp.uses hfree'
    rcases above_cases habove with hsame | hbelow
    · exact target_ne_directory hcovers hdirectory hpath hrequired hmem' huses hsame.symm
    · have happart := target_not_below hlist.sourceRooted hrequired hmem' huses.2.1 huses.2.2
        fun _ => huses.1
      rw [show operation.targetRelPath.key = operation.targetKey from rfl, happart] at hbelow
      cases hbelow

/-- Nor is it below such a place. -/
theorem placed_not_above (hselected : result.Selects other)
    (hremoved : removed ∈ other.destructivePaths) (hchosen : result.Selects operation)
    (hp : PlacedBy (survey source target correspondence options) operation item record step) :
    ¬ loc operation.targetRelPath <+: loc removed := by
  intro habove
  rcases above_cases habove with hsame | hbelow
  · refine removed_apart hlist hplan hidentity hdistinct huncontested hselected hremoved
      hchosen hp ?_
    rw [loc, RelPath.key_eq_iff.1 hsame.symm]
  · obtain ⟨path, hpath, hkey⟩ := removed_listed hlist hplan hselected hremoved
    rw [← hkey] at hbelow
    obtain ⟨parent, hparent, hparentKey⟩ := RelPath.parent_of_isBelow hbelow
    obtain ⟨directory, hdirectory, hdirectoryKey⟩ := hlist.targetRooted.directory hpath hparent
    exact no_directory_at hlist hp hdirectory (hdirectoryKey.trans hparentKey)

/-- No file that is taken away by another operation is at or above one that
an operation puts into the trash. -/
theorem removals_apart (hselected : result.Selects other) (hchosen : result.Selects operation)
    (hne : operation ≠ other) (hkind : other.kind ≠ .delete) (hkind' : operation.kind ≠ .delete)
    (hremoved : removed ∈ other.destructivePaths) {gone : RelPath}
    (hgone : gone ∈ operation.destructivePaths) : ¬ loc removed <+: loc gone := by
  obtain ⟨tree, ignores, hcovers⟩ := hlist.targetCovers
  have hoperations := (plan_eq_ok hplan).1
  have hmem : other ∈ (survey source target correspondence options).operations :=
    hoperations ▸ hselected.1
  have hmem' : operation ∈ (survey source target correspondence options).operations :=
    hoperations ▸ hchosen.1
  obtain ⟨file, hfile, hkey, hclaims⟩ := (removed_cases hcovers hmem
    (selected_cases hselected.1 hselected.2).1 hremoved).resolve_right fun h => hkind h.1
  obtain ⟨file', hfile', hkey', hclaims'⟩ := (removed_cases hcovers hmem'
    (selected_cases hchosen.1 hchosen.2).1 hgone).resolve_right fun h => hkind' h.1
  intro habove
  rcases above_cases habove with hsame | hbelow
  · -- Both operations claim the file.
    have hpath : file.relPath = file'.relPath := hcovers.spelled_files (mem_targetFiles.1 hfile).1
      (mem_targetFiles.1 hfile').1 (hkey.trans (hsame.trans hkey'.symm))
    have hclaims'' : operation.Claims target.files file := by
      obtain ⟨hfree, path, hclaimed, -, hnames⟩ := hclaims'
      refine ⟨hfree, path, hclaimed, (mem_targetFiles.1 hfile).1, ?_⟩
      rwa [FileRecord.key, hpath]
    exact hne ((hidentity.claimed_once hdistinct
      (fun hid => result.eq_of_opId hselected.1 hchosen.1 hid)
      (claim_cases survey_lists hmem hclaims)
      (claim_cases survey_lists hmem' hclaims'')).resolve_right huncontested).symm
  · -- What is above a target file is a directory.
    rw [← hkey, ← hkey'] at hbelow
    obtain ⟨parent, hparent, hparentKey⟩ := RelPath.parent_of_isBelow hbelow
    obtain ⟨directory, hdirectory, hdirectoryKey⟩ := hlist.targetRooted.directory
      (mem_listed.2 (Or.inl ⟨file', (mem_targetFiles.1 hfile').1, rfl⟩)) hparent
    exact hcovers.file_ne_directory (mem_targetFiles.1 hfile).1 hdirectory
      (hdirectoryKey.trans hparentKey)

end Removed

/-! ## Temps and the trash

The scan ignores the trash, and `RunUnseen` says that no listed name is a temp of
the run.  So nothing listed is there, or above or below it. -/

section Apart

variable {source target : ScanResult} {path : RelPath} {place : List Str}

/-- A path that is spelled like a listed one. -/
def Listed (source target : ScanResult) (path : RelPath) : Prop :=
  ∃ other ∈ source.listed ++ target.listed, other.key = path.key

omit [Unicode] in
theorem head_of_below {first : Str} {rest : List Str} (h : first :: rest <+: place) :
    place.head? = some first := by
  obtain ⟨more, rfl⟩ := h
  rfl

omit [Unicode] in
theorem head_of_above {first : Str} {rest : List Str} (hne : place ≠ [])
    (h : place <+: first :: rest) : place.head? = some first := by
  obtain ⟨more, hmore⟩ := h
  cases place with
  | nil => exact absurd rfl hne
  | cons other others => rw [List.head?_cons, (List.cons.inj hmore).1]

/-- The trash directory. -/
def trashRoot : RelPath :=
  ⟨[str ".synctrash"], List.cons_ne_nil _ _,
    fun _ h => List.mem_singleton.1 h ▸ isComponent_syncTrash⟩

variable (hupper : uppercaseOneCodepoint (str ".synctrash") = syncTrashKey)

include hupper

/-- No listed path begins with the trash. -/
theorem Listings.not_trash (hlist : Listings source target) (h : Listed source target path) :
    (loc path).head? ≠ some (uppercaseOneCodepoint (str ".synctrash")) := by
  intro hhead
  obtain ⟨other, hother, hkey⟩ := h
  have hroot : trashRoot.key = syncTrashKey := by
    rw [RelPath.key_eq_join, ← hupper]
    rfl
  have hin : sameOrDescendant other.key trashRoot.key = true := by
    rw [sameOrDescendant_iff, RelPath.key_eq_iff.1 hkey]
    obtain ⟨first, rest, hparts⟩ := List.exists_cons_of_ne_nil path.keyParts_ne_nil
    rw [loc, hparts, List.head?_cons] at hhead
    exact ⟨rest, by rw [hparts, Option.some.inj hhead]; rfl⟩
  rw [hroot, hlist.untrashed other hother] at hin
  cases hin

theorem Listings.trash_not_above (hlist : Listings source target) (h : Listed source target path)
    (runId : RunId) (other : RelPath) : ¬ loc (trashPath runId other) <+: loc path := fun habove =>
  hlist.not_trash hupper h (head_of_below habove)

theorem Listings.not_above_trash (hlist : Listings source target) (h : Listed source target path)
    (rest : List Str) : ¬ loc path <+: uppercaseOneCodepoint (str ".synctrash") :: rest :=
  fun habove => hlist.not_trash hupper h (head_of_above path.keyParts_ne_nil habove)

/-- The trash is not above a temp beside a listed path. -/
theorem Listings.trash_not_above_temp (hlist : Listings source target)
    (h : Listed source target path) (runId : RunId) (opId : OpId) (second : Str) (rest : List Str) :
    ¬ uppercaseOneCodepoint (str ".synctrash") :: second :: rest <+:
      loc (ownedTemp path runId opId) := by
  intro habove
  obtain ⟨more, hmore⟩ := habove
  have hdrop : uppercaseOneCodepoint (str ".synctrash") :: (second :: (rest ++ more)).dropLast =
      (loc path).dropLast := by
    have hboth := congrArg List.dropLast hmore
    rwa [loc_ownedTemp, List.dropLast_concat, List.cons_append, List.cons_append,
      List.dropLast_cons_of_ne_nil (List.cons_ne_nil _ _)] at hboth
  exact hlist.not_trash hupper h (head_of_below (hdrop ▸ List.dropLast_prefix _))

/-- Nor is such a temp above the trash: it stands beside a listed path, and its
name is longer than that of the trash. -/
theorem Listings.temp_not_above_trash (hlist : Listings source target)
    (h : Listed source target path) (runId : RunId) (opId : OpId) (rest : List Str) :
    ¬ loc (ownedTemp path runId opId) <+: uppercaseOneCodepoint (str ".synctrash") :: rest := by
  intro habove
  have hhead : (loc (ownedTemp path runId opId)).head? =
      some (uppercaseOneCodepoint (str ".synctrash")) :=
    head_of_above (ownedTemp path runId opId).keyParts_ne_nil habove
  rw [loc_ownedTemp] at hhead
  cases hparts : (loc path).dropLast with
  | nil =>
      rw [hparts] at hhead
      have hname : uppercaseOneCodepoint (path.name ++ tempSuffix runId opId) =
          uppercaseOneCodepoint (str ".synctrash") := Option.some.inj hhead
      have hlength := congrArg List.length hname
      have hshort : (str ".synctrash").length = 10 := by decide
      rw [uppercaseOneCodepoint, uppercaseOneCodepoint, List.length_map, List.length_map,
        List.length_append, length_tempSuffix, hshort] at hlength
      omega
  | cons first others =>
      rw [hparts] at hhead
      have hfirst : first = uppercaseOneCodepoint (str ".synctrash") := Option.some.inj hhead
      have hbelow : uppercaseOneCodepoint (str ".synctrash") :: others <+: loc path := by
        rw [← hfirst, ← hparts]
        exact List.dropLast_prefix _
      exact hlist.not_trash hupper h (head_of_below hbelow)

omit hupper in
/-- A temp of the run is at or above no listed path. -/
theorem RunUnseen.not_above {runId : RunId} (hunseen : RunUnseen runId source target)
    (h : Listed source target path) (other : RelPath) (opId : OpId) :
    ¬ loc (ownedTemp other runId opId) <+: loc path := by
  rintro ⟨rest, hrest⟩
  obtain ⟨listed, hlisted, hkey⟩ := h
  refine hunseen listed hlisted other.name opId ?_
  rw [RelPath.key_eq_iff.1 hkey, ← loc, ← hrest, loc_ownedTemp]
  simp

end Apart

/-! ## The run of a plan

The facts of the plan, restated for the selected operations of a set and in the
words of the executor. -/

namespace Executor

/-- The paths where an operation puts a file, or finds the one that is to
stay. -/
def fillsOf (runId : RunId) (operation : PlanOperation) : List RelPath :=
  match operation.kind with
  | .copy => [operation.targetRelPath, tempOf runId operation]
  | .update =>
      [operation.targetRelPath, tempOf runId operation, trashPath runId operation.targetRelPath,
        ownedTemp (trashPath runId operation.targetRelPath) runId operation.opId]
  | .moveUpdate =>
      [operation.targetRelPath, tempOf runId operation] ++
        operation.priorTargetRelPath.toList.map (trashPath runId)
  | .move | .recase | .noop => [operation.targetRelPath]
  | .trash => [trashPath runId operation.targetRelPath]
  | .mkdir | .delete => []

/-- The file at `old` goes into the trash. -/
inductive Discarded (operation : PlanOperation) : RelPath → Prop
  | updated (hkind : operation.kind = .update) : Discarded operation operation.targetRelPath
  | removed {old : RelPath} (hkind : operation.kind ≠ .delete)
      (hremoved : old ∈ operation.destructivePaths) : Discarded operation old

/-- A place that an operation fills, by what it is for. -/
inductive FillsAt (runId : RunId) (operation : PlanOperation) : RelPath → Prop
  | target {path : RelPath} (hkind : operation.kind ∉ [.mkdir, .trash, .delete])
      (hplace : loc path = loc operation.targetRelPath) : FillsAt runId operation path
  | temp (hcounts : countsBytes operation.kind = true) :
      FillsAt runId operation (tempOf runId operation)
  | trash {old : RelPath} (h : Discarded operation old) :
      FillsAt runId operation (trashPath runId old)
  | backup (hkind : operation.kind = .update) : FillsAt runId operation
      (ownedTemp (trashPath runId operation.targetRelPath) runId operation.opId)

end Executor

section Run

theorem counts_kind {operation : PlanOperation} (hcounts : countsBytes operation.kind = true) :
    operation.kind ∉ [.mkdir, .trash, .delete] := by
  intro hmem
  cases hkind : operation.kind <;> rw [hkind] at hcounts hmem
  all_goals first | exact absurd hcounts (by decide) | exact absurd hmem (by decide)

theorem destroys_target {operation : PlanOperation}
    (hkind : operation.kind = .trash ∨ operation.kind = .delete) :
    operation.targetRelPath ∈ operation.destructivePaths := by
  unfold PlanOperation.destructivePaths
  rcases hkind with hkind | hkind <;> (rw [hkind]; exact List.mem_singleton_self _)

theorem destroys_prior {operation : PlanOperation} {old : RelPath}
    (hkind : operation.kind = .move ∨ operation.kind = .moveUpdate)
    (hprior : operation.priorTargetRelPath = some old) : old ∈ operation.destructivePaths := by
  unfold PlanOperation.destructivePaths
  rcases hkind with hkind | hkind <;> (rw [hkind, hprior]; exact List.mem_singleton_self old)

variable [Digest]

/-- A run of a selection of a plan of two complete scans, under the identity
policy and with a ledger that names a target file once; no file of the target
is contested, and no listed name is one of the run's temps. -/
structure Reviewed (source target : ScanResult) (correspondence : MappingSnapshot)
    (options : SyncOptions) (xset : ExecutionSet) (runId : RunId) : Prop where
  listings : Listings source target
  unseen : RunUnseen runId source target
  planned : plan source target correspondence options .everything = .ok xset.plan
  identity : options.destinationPolicy = identityDestinationPolicy
  distinct : (correspondence.pairs.map MappingPair.targetKey).Nodup
  uncontested : ¬ ∃ moved paired file,
    (survey source target correspondence options).Contested moved paired file
  selected : ∀ id ∈ xset.selection, id ∈ (deriveExecutionSelection xset.plan).selection

namespace Reviewed

variable {source target : ScanResult} {correspondence : MappingSnapshot} {options : SyncOptions}
  {xset : ExecutionSet} {runId : RunId} {operation other : PlanOperation} {removed : RelPath}
  (h : Reviewed source target correspondence options xset runId)

include h

theorem survey_identity : (survey source target correspondence options).Identity := by
  unfold Survey.Identity
  rw [← h.identity]
  rfl

theorem selects (hchosen : Chosen xset operation) : xset.plan.Selects operation :=
  ⟨hchosen.1, h.selected _ hchosen.2⟩

/-- An operation that places a file. -/
theorem placed (hchosen : Chosen xset operation)
    (hkind : operation.kind ∉ [.mkdir, .trash, .delete]) : ∃ item record step,
      PlacedBy (survey source target correspondence options) operation item record step :=
  placed_of_mem ((plan_eq_ok h.planned).1 ▸ hchosen.1)
    (selected_cases hchosen.1 (h.selected _ hchosen.2)).1 hkind

theorem listed (hchosen : Chosen xset operation)
    (hkind : operation.kind ∉ [.mkdir, .trash, .delete]) :
    Listed source target operation.targetRelPath := by
  obtain ⟨item, record, step, hplaced⟩ := h.placed hchosen hkind
  cases hplaced.places with
  | fresh htarget _ _ =>
      have hfile := (mem_sourceFiles.1 hplaced.stepOf.mem_sourceFiles).1
      exact ⟨record.relPath, List.mem_append_left _ (mem_listed.2 (Or.inl ⟨record, hfile, rfl⟩)),
        (hplaced.source_key h.survey_identity htarget).symm⟩
  | found counterpart _ hfound htarget =>
      have hfile := (mem_targetFiles.1 hfound.spec.1).1
      exact ⟨counterpart.relPath,
        List.mem_append_right _ (mem_listed.2 (Or.inl ⟨counterpart, hfile, rfl⟩)), htarget.symm⟩

theorem removed_listed (hchosen : Chosen xset operation)
    (hremoved : removed ∈ operation.destructivePaths) : Listed source target removed := by
  obtain ⟨path, hpath, hkey⟩ :=
    NamiSync.removed_listed h.listings h.planned (h.selects hchosen) hremoved
  exact ⟨path, List.mem_append_right _ hpath, hkey⟩

/-- Places that two operations fill are not one above the other. -/
theorem places_apart (hchosen : Chosen xset operation)
    (hkind : operation.kind ∉ [.mkdir, .trash, .delete]) (hother : Chosen xset other)
    (hkind' : other.kind ∉ [.mkdir, .trash, .delete]) (hne : operation ≠ other) :
    ¬ loc operation.targetRelPath <+: loc other.targetRelPath := by
  obtain ⟨item, record, step, hplaced⟩ := h.placed hchosen hkind
  obtain ⟨item', record', step', hplaced'⟩ := h.placed hother hkind'
  intro habove
  rcases above_cases habove with hsame | hbelow
  · exact hne (placed_once h.listings h.survey_identity hplaced hplaced' hsame)
  · have happart := placed_apart h.listings h.planned h.survey_identity hplaced (h.selects hother)
      hplaced'
    rw [show other.targetRelPath.key = other.targetKey from rfl,
      show operation.targetRelPath.key = operation.targetKey from rfl, happart] at hbelow
    cases hbelow

theorem removed_apart (hother : Chosen xset other) (hremoved : removed ∈ other.destructivePaths)
    (hchosen : Chosen xset operation) (hkind : operation.kind ∉ [.mkdir, .trash, .delete]) :
    ¬ loc removed <+: loc operation.targetRelPath := by
  obtain ⟨item, record, step, hplaced⟩ := h.placed hchosen hkind
  exact NamiSync.removed_apart h.listings h.planned h.survey_identity h.distinct h.uncontested
    (h.selects hother) hremoved (h.selects hchosen) hplaced

theorem not_above_removed (hother : Chosen xset other) (hremoved : removed ∈ other.destructivePaths)
    (hchosen : Chosen xset operation) (hkind : operation.kind ∉ [.mkdir, .trash, .delete]) :
    ¬ loc operation.targetRelPath <+: loc removed := by
  obtain ⟨item, record, step, hplaced⟩ := h.placed hchosen hkind
  exact placed_not_above h.listings h.planned h.survey_identity h.distinct h.uncontested
    (h.selects hother) hremoved (h.selects hchosen) hplaced

/-- A listed path that is not above where an operation copies to is not above
its temp. -/
theorem not_above_temp {path : RelPath} (hlisted : Listed source target path)
    (habove : ¬ loc path <+: loc operation.targetRelPath) :
    ¬ loc path <+: loc (tempOf runId operation) := by
  intro hprefix
  rcases above_temp hprefix with heq | hbelow
  · exact h.unseen.not_above hlisted operation.targetRelPath operation.opId
      (by rw [heq])
  · obtain ⟨rest, -, hparts⟩ := isBelow_iff.1 hbelow
    exact habove ⟨rest, hparts.symm⟩

theorem recase_prior (hchosen : Chosen xset operation) (hkind : operation.kind = .recase)
    {old : RelPath} (hprior : operation.priorTargetRelPath = some old) :
    old.key = operation.targetKey := by
  obtain ⟨item, record, step, hplaced⟩ := h.placed hchosen (by rw [hkind]; decide)
  cases hplaced.places with
  | fresh _ _ hkinds =>
      rw [hkind] at hkinds
      exact absurd hkinds (by decide)
  | found counterpart _ _ htarget hold => exact (hold old hprior).trans htarget.symm

variable (hupper : uppercaseOneCodepoint (str ".synctrash") = syncTrashKey)

include hupper

/-- A listed path that is not above where the run copies to is not above a
temp, and neither is its place in the trash. -/
theorem not_above_isTemp {path : RelPath} (hlisted : Listed source target path)
    (habove : ∀ operation, Chosen xset operation → countsBytes operation.kind = true →
      ¬ loc path <+: loc operation.targetRelPath) {place : List Str}
    (htemp : IsTemp xset runId place) :
    ¬ loc path <+: place ∧ ¬ loc (trashPath runId path) <+: place := by
  cases htemp with
  | @own operation hchosen hkind =>
      have hown := h.listed hchosen (counts_kind hkind)
      exact ⟨h.not_above_temp hlisted (habove operation hchosen hkind),
        h.listings.trash_not_above_temp hupper hown runId operation.opId _ _⟩
  | @backup operation hchosen hkind =>
      have hcounts : countsBytes operation.kind = true := by rw [hkind]; rfl
      rw [loc_backupTemp]
      refine ⟨h.listings.not_above_trash hupper hlisted _, fun hprefix => ?_⟩
      rw [loc_trashPath, List.cons_prefix_cons, List.cons_prefix_cons] at hprefix
      exact h.not_above_temp hlisted (habove operation hchosen hcounts) hprefix.2.2

/-- Where an operation moves a file to, nothing is given up. -/
theorem not_above_condemned (hchosen : Chosen xset operation)
    (hkind : operation.kind = .move ∨ operation.kind = .recase) {place : List Str}
    (hcondemned : Condemned xset runId place) : ¬ loc operation.targetRelPath <+: place := by
  have hplaces : operation.kind ∉ [.mkdir, .trash, .delete] := by
    rcases hkind with hkind | hkind <;> (rw [hkind]; decide)
  have hne {other : PlanOperation} (hcounts : countsBytes other.kind = true) :
      operation ≠ other := by
    rintro rfl
    rcases hkind with hkind | hkind <;> (rw [hkind] at hcounts; cases hcounts)
  cases hcondemned with
  | temp htemp =>
      refine (h.not_above_isTemp hupper (h.listed hchosen hplaces) ?_ htemp).1
      exact fun other hother hcounts =>
        h.places_apart hchosen hplaces hother (counts_kind hcounts) (hne hcounts)
  | delete hother hdelete =>
      exact h.not_above_removed hother (destroys_target (Or.inr hdelete)) hchosen hplaces
  | @update other hother hupdate _ =>
      have hcounts : countsBytes other.kind = true := by rw [hupdate]; rfl
      exact h.places_apart hchosen hplaces hother (counts_kind hcounts) (hne hcounts)

/-- Nor in the trash. -/
theorem trash_not_above_condemned (hchosen : Chosen xset operation)
    (hremoved : removed ∈ operation.destructivePaths) {place : List Str}
    (hcondemned : Condemned xset runId place) : ¬ loc (trashPath runId removed) <+: place := by
  cases hcondemned with
  | temp htemp =>
      refine (h.not_above_isTemp hupper (h.removed_listed hchosen hremoved) ?_ htemp).2
      exact fun other hother hcounts =>
        h.removed_apart hchosen hremoved hother (counts_kind hcounts)
  | delete hother hdelete =>
      exact h.listings.trash_not_above hupper
        (h.removed_listed hother (destroys_target (Or.inr hdelete))) runId removed
  | @update other hother hupdate _ =>
      exact h.listings.trash_not_above hupper (h.listed hother (by rw [hupdate]; decide)) runId
        removed

/-- What a selected operation moves away, and where to. -/
theorem moves_apart {old new : RelPath} (hmoves : Moves xset runId old new)
    (hne : loc old ≠ loc new) : ¬ loc old <+: loc new ∧
      (∀ place, IsTemp xset runId place → ¬ loc old <+: place) ∧
      ∀ place, Condemned xset runId place → ¬ loc new <+: place := by
  have haway : ∀ {operation : PlanOperation} {removed : RelPath}, Chosen xset operation →
      removed ∈ operation.destructivePaths →
      ∀ place, IsTemp xset runId place → ¬ loc removed <+: place := by
    intro operation removed hchosen hremoved place htemp
    refine (h.not_above_isTemp hupper (h.removed_listed hchosen hremoved) ?_ htemp).1
    exact fun other hother hcounts => h.removed_apart hchosen hremoved hother (counts_kind hcounts)
  cases hmoves with
  | @move operation _ hchosen hkind hold =>
      rcases hkind with hkind | hkind
      · have hremoved := destroys_prior (Or.inl hkind) hold
        exact ⟨h.removed_apart hchosen hremoved hchosen (by rw [hkind]; decide),
          haway hchosen hremoved, fun place =>
            h.not_above_condemned hupper hchosen (Or.inl hkind)⟩
      · exact absurd (RelPath.key_eq_iff.1 (h.recase_prior hchosen hkind hold)) hne
  | @prior operation _ hchosen hkind hold =>
      have hremoved := destroys_prior (Or.inr hkind) hold
      exact ⟨h.listings.not_above_trash hupper (h.removed_listed hchosen hremoved) _,
        haway hchosen hremoved, fun place => h.trash_not_above_condemned hupper hchosen hremoved⟩
  | @trash operation hchosen hkind =>
      have hremoved : operation.targetRelPath ∈ operation.destructivePaths :=
        destroys_target (Or.inl hkind)
      exact ⟨h.listings.not_above_trash hupper (h.removed_listed hchosen hremoved) _,
        haway hchosen hremoved, fun place => h.trash_not_above_condemned hupper hchosen hremoved⟩

/-! ### Where one operation works and what another one fills

The places of two operations are compared kind by kind: a target with a target,
a temp with a temp, a backup with a backup, and each of them with what the other
operation takes away. -/

omit h hupper [Digest] in
theorem filled_of_mem {path : RelPath} (hpath : path ∈ fillsOf runId operation) :
    FillsAt runId operation path := by
  unfold fillsOf at hpath
  cases hkind : operation.kind <;> rw [hkind] at hpath <;>
    simp only [List.mem_cons, List.not_mem_nil, or_false, List.mem_append, List.mem_map,
      Option.mem_toList] at hpath
  case copy =>
    rcases hpath with rfl | rfl
    · exact .target (by rw [hkind]; decide) rfl
    · exact .temp (by rw [hkind]; rfl)
  case update =>
    rcases hpath with rfl | rfl | rfl | rfl
    · exact .target (by rw [hkind]; decide) rfl
    · exact .temp (by rw [hkind]; rfl)
    · exact .trash (.updated hkind)
    · exact .backup hkind
  case moveUpdate =>
    rcases hpath with (rfl | rfl) | ⟨old, hold, rfl⟩
    · exact .target (by rw [hkind]; decide) rfl
    · exact .temp (by rw [hkind]; rfl)
    · exact .trash (.removed (by rw [hkind]; decide) (destroys_prior (Or.inr hkind) hold))
  case trash =>
    obtain rfl := hpath
    exact .trash (.removed (by rw [hkind]; decide) (destroys_target (Or.inl hkind)))
  case move | recase | noop =>
    obtain rfl := hpath
    exact .target (by rw [hkind]; decide) rfl

omit hupper in
/-- An operation works where it fills a place, and where it takes one away. -/
theorem filled_or_removed (hchosen : Chosen xset operation) {path : RelPath}
    (hpath : path ∈ placesOf runId operation) :
    FillsAt runId operation path ∨ path ∈ operation.destructivePaths := by
  by_cases hfills : path ∈ fillsOf runId operation
  · exact Or.inl (filled_of_mem hfills)
  · unfold placesOf at hpath
    unfold fillsOf at hfills
    cases hkind : operation.kind <;> rw [hkind] at hpath hfills <;>
      simp only [List.mem_cons, List.not_mem_nil, or_false, List.mem_append, List.mem_flatMap,
        List.mem_map, Option.mem_toList] at hpath hfills
    case copy | update => exact absurd hpath hfills
    case moveUpdate =>
      rcases hpath with hown | ⟨old, hold, rfl | rfl⟩
      · exact absurd (Or.inl hown) hfills
      · exact Or.inr (destroys_prior (Or.inr hkind) hold)
      · exact absurd (Or.inr ⟨old, hold, rfl⟩) hfills
    case move =>
      exact Or.inr (destroys_prior (Or.inl hkind) (hpath.resolve_left hfills))
    case recase =>
      have hold := h.recase_prior hchosen hkind (hpath.resolve_left hfills)
      exact Or.inl (.target (by rw [hkind]; decide) (RelPath.key_eq_iff.1 hold))
    case trash =>
      obtain rfl := hpath.resolve_right hfills
      exact Or.inr (destroys_target (Or.inl hkind))
    case delete =>
      obtain rfl := hpath
      exact Or.inr (destroys_target (Or.inr hkind))

omit hupper in
theorem discarded_listed (hchosen : Chosen xset operation) {old : RelPath}
    (hold : Discarded operation old) : Listed source target old := by
  cases hold with
  | updated hkind => exact h.listed hchosen (by rw [hkind]; decide)
  | removed _ hremoved => exact h.removed_listed hchosen hremoved

omit hupper in
/-- Two operations discard files that are not one above the other. -/
theorem discarded_apart (hother : Chosen xset other) (hchosen : Chosen xset operation)
    (hne : operation ≠ other) {old new : RelPath} (hold : Discarded other old)
    (hnew : Discarded operation new) : ¬ loc old <+: loc new := by
  cases hold with
  | updated hkind =>
      have hplace : other.kind ∉ [.mkdir, .trash, .delete] := by rw [hkind]; decide
      cases hnew with
      | updated hkind' =>
          exact h.places_apart hother hplace hchosen (by rw [hkind']; decide) hne.symm
      | removed _ hremoved => exact h.not_above_removed hchosen hremoved hother hplace
  | removed hkind hremoved =>
      cases hnew with
      | updated hkind' => exact h.removed_apart hother hremoved hchosen (by rw [hkind']; decide)
      | removed hkind' hgone =>
          exact NamiSync.removals_apart h.listings h.planned h.survey_identity h.distinct
            h.uncontested (h.selects hother) (h.selects hchosen) hne hkind hkind' hremoved hgone

/-- A listed path is above what an operation fills only above its target. -/
theorem listed_not_above {path place : RelPath} (hlisted : Listed source target path)
    (habove : operation.kind ∉ [.mkdir, .trash, .delete] →
      ¬ loc path <+: loc operation.targetRelPath)
    (hfilled : FillsAt runId operation place) : ¬ loc path <+: loc place := by
  cases hfilled with
  | target hkind hplace =>
      rw [hplace]
      exact habove hkind
  | temp hcounts => exact h.not_above_temp hlisted (habove (counts_kind hcounts))
  | trash _ => exact h.listings.not_above_trash hupper hlisted _
  | backup hkind =>
      rw [loc_backupTemp]
      exact h.listings.not_above_trash hupper hlisted _

/-- Where one operation discards a file, another fills nothing. -/
theorem discarded_not_above (hother : Chosen xset other) (hchosen : Chosen xset operation)
    (hne : operation ≠ other) {old place : RelPath} (hold : Discarded other old)
    (hfilled : FillsAt runId operation place) : ¬ loc (trashPath runId old) <+: loc place := by
  cases hfilled with
  | target hkind hplace =>
      rw [hplace]
      exact h.listings.trash_not_above hupper (h.listed hchosen hkind) runId old
  | temp hcounts =>
      exact h.listings.trash_not_above_temp hupper (h.listed hchosen (counts_kind hcounts)) runId
        operation.opId _ _
  | trash hnew =>
      rw [loc_trashPath, loc_trashPath, List.cons_prefix_cons, List.cons_prefix_cons]
      exact fun habove => h.discarded_apart hother hchosen hne hold hnew habove.2.2
  | backup hkind =>
      rw [loc_trashPath, loc_backupTemp, List.cons_prefix_cons, List.cons_prefix_cons]
      exact fun habove => h.not_above_temp (h.discarded_listed hother hold)
        (h.discarded_apart hother hchosen hne hold (.updated hkind)) habove.2.2

omit hupper in
/-- Temps of two operations are not one above the other: equal ones would
stand beside one place. -/
theorem temps_apart (hother : Chosen xset other) (hcounts : countsBytes other.kind = true)
    (hchosen : Chosen xset operation) (hcounts' : countsBytes operation.kind = true)
    (hne : operation ≠ other) : ¬ loc (tempOf runId other) <+: loc (tempOf runId operation) := by
  intro habove
  rcases above_temp habove with heq | hbelow
  · rw [loc_ownedTemp, tempOf, loc_ownedTemp] at heq
    obtain ⟨hfolder, hlast⟩ := List.append_inj' heq rfl
    have hnames := List.singleton_inj.1 hlast
    rw [uppercaseOneCodepoint, uppercaseOneCodepoint, List.map_append, List.map_append] at hnames
    obtain ⟨hname, -⟩ := List.append_inj' hnames
      (by rw [List.length_map, List.length_map, length_tempSuffix, length_tempSuffix])
    refine h.places_apart hother (counts_kind hcounts) hchosen (counts_kind hcounts') hne.symm ?_
    rw [loc_name other.targetRelPath, loc_name operation.targetRelPath, hfolder,
      uppercaseOneCodepoint, uppercaseOneCodepoint, hname]
  · obtain ⟨rest, -, hparts⟩ := isBelow_iff.1 hbelow
    exact h.unseen.not_above (h.listed hchosen (counts_kind hcounts')) other.targetRelPath
      other.opId ⟨rest, hparts.symm⟩

/-- A temp of one operation is above nothing that another one fills. -/
theorem temp_not_above (hother : Chosen xset other) (hcounts : countsBytes other.kind = true)
    (hchosen : Chosen xset operation) (hne : operation ≠ other) {place : RelPath}
    (hfilled : FillsAt runId operation place) : ¬ loc (tempOf runId other) <+: loc place := by
  have hlisted := h.listed hother (counts_kind hcounts)
  cases hfilled with
  | target hkind hplace =>
      rw [hplace]
      exact h.unseen.not_above (h.listed hchosen hkind) other.targetRelPath other.opId
  | temp hcounts' => exact h.temps_apart hother hcounts hchosen hcounts' hne
  | trash _ => exact h.listings.temp_not_above_trash hupper hlisted runId other.opId _
  | backup hkind =>
      rw [loc_backupTemp]
      exact h.listings.temp_not_above_trash hupper hlisted runId other.opId _

/-- Nor is its temp in the trash. -/
theorem backup_not_above (hother : Chosen xset other) (hkind : other.kind = .update)
    (hchosen : Chosen xset operation) (hne : operation ≠ other) {place : RelPath}
    (hfilled : FillsAt runId operation place) :
    ¬ loc (ownedTemp (trashPath runId other.targetRelPath) runId other.opId) <+: loc place := by
  cases hfilled with
  | target hplaces hplace =>
      rw [hplace]
      exact h.unseen.not_above (h.listed hchosen hplaces) _ other.opId
  | temp hcounts =>
      rw [loc_backupTemp]
      exact h.listings.trash_not_above_temp hupper (h.listed hchosen (counts_kind hcounts)) runId
        operation.opId _ _
  | trash hnew =>
      rw [loc_backupTemp, loc_trashPath, List.cons_prefix_cons, List.cons_prefix_cons]
      exact fun habove => h.unseen.not_above (h.discarded_listed hchosen hnew)
        other.targetRelPath other.opId habove.2.2
  | backup hkind' =>
      rw [loc_backupTemp, loc_backupTemp, List.cons_prefix_cons, List.cons_prefix_cons]
      exact fun habove => h.temps_apart hother (by rw [hkind]; rfl) hchosen (by rw [hkind']; rfl)
        hne habove.2.2

/-- No other operation works at or above a place that a selected one fills. -/
theorem untouched (hchosen : Chosen xset operation) (hother : Chosen xset other)
    (hne : operation ≠ other) {place : RelPath} (hfilled : FillsAt runId operation place) :
    ¬ Touches runId other (loc place) := by
  rintro ⟨path, hpath, habove⟩
  rcases h.filled_or_removed hother hpath with hwork | hremoved
  · cases hwork with
    | target hkind hplace =>
        rw [hplace] at habove
        exact h.listed_not_above hupper (h.listed hother hkind)
          (fun hkind' => h.places_apart hother hkind hchosen hkind' hne.symm) hfilled habove
    | temp hcounts => exact h.temp_not_above hupper hother hcounts hchosen hne hfilled habove
    | trash hold => exact h.discarded_not_above hupper hother hchosen hne hold hfilled habove
    | backup hkind => exact h.backup_not_above hupper hother hkind hchosen hne hfilled habove
  · exact h.listed_not_above hupper (h.removed_listed hother hremoved)
      (h.removed_apart hother hremoved hchosen) hfilled habove

omit hupper in
theorem update_expected (hchosen : Chosen xset operation) (hkind : operation.kind = .update)
    {expected : FileStat} (hexpected : expected ∈ operation.targetExpected) :
    expected.kind = .file := by
  obtain ⟨item, record, step, hplaced⟩ := h.placed hchosen (by rw [hkind]; decide)
  cases hplaced.places with
  | fresh _ _ hkinds =>
      rw [hkind] at hkinds
      exact absurd hkinds (by decide)
  | found counterpart _ _ _ _ _ hstat _ =>
      rw [hstat] at hexpected
      obtain rfl := Option.some.inj hexpected
      rfl

/-- What the executor needs of the operations of a run. -/
theorem apart : Apart xset runId where
  moves old new hmoves hne := h.moves_apart hupper hmoves hne
  targets operation hchosen hcounts htemp := by
    have hlisted := h.listed hchosen (counts_kind hcounts)
    generalize hplace : loc operation.targetRelPath = place at htemp
    cases htemp with
    | @own other hother hkind =>
        exact h.unseen.not_above hlisted other.targetRelPath other.opId
          (by rw [hplace]; exact List.prefix_rfl)
    | backup hother hkind =>
        rw [loc_backupTemp] at hplace
        exact h.listings.not_above_trash hupper hlisted _ (by rw [hplace])
  backups operation hchosen hkind htrash hcondemned := by
    have hcounts : countsBytes operation.kind = true := by rw [hkind]; rfl
    have hlisted := h.listed hchosen (counts_kind hcounts)
    generalize hplace : loc (trashPath runId operation.targetRelPath) = place at hcondemned
    cases hcondemned with
    | temp htemp =>
        cases htemp with
        | @own other hother hkind' =>
            have habove : loc (trashPath runId operation.targetRelPath) <+:
                loc (tempOf runId other) := hplace ▸ List.prefix_rfl
            exact h.listings.trash_not_above_temp hupper (h.listed hother (counts_kind hkind'))
              runId other.opId _ _ habove
        | @backup other hother hkind' =>
            rw [loc_backupTemp, loc_trashPath] at hplace
            obtain ⟨-, -, hsame⟩ : _ ∧ _ ∧ loc operation.targetRelPath = _ := by
              simpa only [List.cons.injEq] using hplace
            exact h.unseen.not_above hlisted other.targetRelPath other.opId (by rw [hsame])
    | delete hother hdelete _ =>
        exact h.listings.trash_not_above hupper
          (h.removed_listed hother (destroys_target (Or.inr hdelete))) runId
          operation.targetRelPath (by rw [hplace])
    | update hother hupdate _ =>
        exact h.listings.trash_not_above hupper (h.listed hother (by rw [hupdate]; decide)) runId
          operation.targetRelPath (by rw [hplace])
  replaced operation old hchosen hkind hprior :=
    h.removed_apart hchosen (destroys_prior (Or.inr hkind) hprior) hchosen (by rw [hkind]; decide)
  others operation other hchosen hother hne hcounts :=
    h.untouched hupper hchosen hother hne (.target (counts_kind hcounts) rfl)
  files operation hchosen hcounts expected hexpected := by
    obtain ⟨item, record, step, hplaced⟩ := h.placed hchosen (counts_kind hcounts)
    rw [hplaced.reports] at hexpected
    obtain rfl := Option.some.inj hexpected
    rfl
  displaced operation hchosen hkind expected hexpected := h.update_expected hchosen hkind hexpected

omit hupper in
theorem trash_eq : xset.plan.trashOnUpdate = options.trashOnUpdate := by
  have hplan := h.planned
  unfold plan at hplan
  split at hplan
  · cases hplan
  · dsimp only at hplan
    split at hplan
    · cases hplan
    · split at hplan
      · cases hplan
      · rw [← Except.ok.inj hplan]

omit hupper in
/-- Where a plan deletes nothing but directories and backs up what it updates,
no file is given up. -/
theorem condemned_temp (hpolicy : options.deletionPolicy ≠ .mirror)
    (hbackup : options.trashOnUpdate = true) {place : List Str}
    (hcondemned : Condemned xset runId place) : IsTemp xset runId place := by
  cases hcondemned with
  | temp htemp => exact htemp
  | @delete operation hchosen hkind hfile =>
      obtain ⟨expected, hexpected, hnot⟩ := hfile
      exact absurd (deleted_directory ((plan_eq_ok h.planned).1 ▸ hchosen.1) hkind hpolicy
        hexpected) hnot
  | update hchosen hkind hkeep =>
      rw [h.trash_eq, hbackup] at hkeep
      cases hkeep

end Reviewed

end Run

/-! ## From the scans to the run

A set that was reviewed against complete scans has what the lemmas above ask. -/

section Scanned

variable [Digest] {sourceBackend targetBackend : ScannerBackend} {sourceRoot targetRoot : Root}
  {sourceIgnores targetIgnores : IgnoreSet} {correspondence : MappingSnapshot}
  {options : SyncOptions} {xset : ExecutionSet} {runId : RunId}
  (hsource : (scan sourceBackend sourceRoot sourceIgnores).complete = true)
  (htarget : (scan targetBackend targetRoot targetIgnores).complete = true)
  (hsourceTrash : sourceIgnores.excludeSyncTrash = true)
  (htargetTrash : targetIgnores.excludeSyncTrash = true)
  (hplan : plan (scan sourceBackend sourceRoot sourceIgnores)
    (scan targetBackend targetRoot targetIgnores) correspondence options .everything =
      .ok xset.plan)
  (hidentity : options.destinationPolicy = identityDestinationPolicy)
  (hdistinct : (correspondence.pairs.map MappingPair.targetKey).Nodup)
  (huncontested : ¬ ∃ moved paired file,
    (survey (scan sourceBackend sourceRoot sourceIgnores)
      (scan targetBackend targetRoot targetIgnores) correspondence options).Contested
        moved paired file)
  (hselected : ∀ id ∈ xset.selection, id ∈ (deriveExecutionSelection xset.plan).selection)
  (hunseen : RunUnseen runId (scan sourceBackend sourceRoot sourceIgnores)
    (scan targetBackend targetRoot targetIgnores))
  (hupper : uppercaseOneCodepoint (str ".synctrash") = syncTrashKey)

include hsource htarget hsourceTrash htargetTrash hplan hidentity hdistinct huncontested
  hselected hunseen

theorem reviewed_scans : Reviewed (scan sourceBackend sourceRoot sourceIgnores)
    (scan targetBackend targetRoot targetIgnores) correspondence options xset runId :=
  ⟨listings_scan hsource htarget hsourceTrash htargetTrash, hunseen, hplan, hidentity, hdistinct,
    huncontested, hselected⟩

include hupper

/-- **Under the trash policy nothing is lost.**  Of a plan that mirrors no
deletion and backs up what it updates, however the calls of `execute` go, in
every state that they leave behind the source is as it was, the bytes of every
file of the target are still there, no file is torn, and what has succeeded
has delivered. -/
theorem trash_policy_conserves [Host] [Sha256] {world : World}
    (hpolicy : options.deletionPolicy ≠ .mirror) (hbackup : options.trashOnUpdate = true)
    (hbegins : Begins xset runId world) (calls : List (ExecutorPolicies × Faulty.Env machine)) :
    ∀ run ∈ callsOf xset runId calls world, ∀ later ∈ leftBehind run,
      later.source = world.source ∧
        (∀ place file, ¬ IsTemp xset runId place → world.target.fileAt place = some file →
            ∃ home kept, ¬ IsTemp xset runId home ∧ later.target.fileAt home = some kept ∧
              kept.2 = file.2) ∧
        (∀ place file, ¬ IsTemp xset runId place → later.target.fileAt place = some file →
          Known xset runId world file.2) ∧
        ∀ operation, Chosen xset operation → countsBytes operation.kind = true →
          later.status.get? operation.opId = some .succeeded →
            Delivered world operation later.target := by
  have hreviewed := reviewed_scans hsource htarget hsourceTrash htargetTrash hplan hidentity
    hdistinct huncontested hselected hunseen
  intro run hrun later hlater
  have hsound := calls_sound (hreviewed.apart hupper) calls hbegins.sound run hrun later hlater
  refine ⟨hsound.source, fun place file hplace hfile => ?_, hsound.intact.whole, hsound.delivered⟩
  have hkept : ¬ Condemned xset runId place := fun hcondemned =>
    hplace (hreviewed.condemned_temp hpolicy hbackup hcondemned)
  obtain ⟨home, kept, hhome, hkept, hbytes⟩ := hsound.intact.held place file hkept hfile
  exact ⟨home, kept, not_temp_of_not_condemned hhome, hkept, hbytes⟩

end Scanned

end Untangled

/-! A file that the source has in a newer version, and an update of it whose
first attempt is disturbed. -/

section Sample

local instance revisedUnicode : Unicode := creditedUnicode

local instance revisedHost : Host := creditedHost

local instance revisedSha : Sha256 := creditedDigest

/-- The digests of the update and of the copy. -/
local instance revisedDigest : Digest where
  operation kind _ _ _ _ :=
    match kind with
    | .update => 0xfa2c8f90b072050ae07e046b2f99c00b
    | _ => 0x55e308fd9970467a94d6f1d6524f8190
  policy _ _ _ _ _ _ _ := str "b76cbc151bb77cf44410d52a81920a1d43824e657978598268e9074d4a4605ff"

/-- A file that its volume gives no identity. -/
def datedFile (name : Str) (size mtimeNs : Nat) : Entry :=
  let stat : StatResult :=
    { size := size
      mtimeNs := mtimeNs
      ino := 0
      fileAttributes := 0x20
      birthtimeNs := some mtimeNs }
  .node
    { name := name
      isDir := .ok false
      isFile := .ok true
      stat := .ok stat
      lstat := .ok stat }
    []

def revisedSource : ScannerBackend :=
  flatBackend
    (flatTree [datedFile (str "notes") 3 1690000000000000000]
      ⟨List.nodup_singleton _, by decide +kernel⟩ (by decide))
    volumeA

def revisedTarget : ScannerBackend :=
  flatBackend
    (flatTree [datedFile (str "notes") 2 1680000000000000000]
      ⟨List.nodup_singleton _, by decide +kernel⟩ (by decide))
    volumeB

def revisedPlan : Except PlanError Plan :=
  plan (scan revisedSource sampleRoot {}) (scan revisedTarget sampleRoot {}) {} {} .everything

theorem derived_known (result : Plan) : ∀ id ∈ (deriveExecutionSelection result).selection,
    id ∈ result.operations.map PlanOperation.opId := by
  intro id hid
  obtain ⟨operation, hmem, rfl⟩ := List.mem_map.1 hid
  exact List.mem_map_of_mem (List.mem_filter.1 hmem).1

theorem revised_ok : revisedPlan.toOption.isSome = true := by
  decide +kernel

def revisedSet : ExecutionSet where
  plan := revisedPlan.toOption.get revised_ok
  selection := (deriveExecutionSelection (revisedPlan.toOption.get revised_ok)).selection
  selection_known := derived_known _

theorem revised_planned : plan (scan revisedSource sampleRoot {}) (scan revisedTarget sampleRoot {})
    {} {} .everything = .ok revisedSet.plan :=
  Checked.ok_of_get revised_ok

/-- Without a ledger no file has moved. -/
theorem first_uncontested (source target : ScanResult) : ¬ ∃ moved paired file,
    (survey source target {} {}).Contested moved paired file := by
  rintro ⟨moved, paired, file, hcontested⟩
  obtain ⟨pair, hmove⟩ := hcontested.moves
  obtain ⟨identity, -, -, hpair, -⟩ := movePair_alone hmove
  exact List.not_mem_nil hpair

/-- The names are too short for a temp's. -/
theorem short_unseen {runId : RunId} {source target : ScanResult}
    (h : ∀ path ∈ source.listed ++ target.listed, ∀ part ∈ path.keyParts, part.length < 74) :
    RunUnseen runId source target := by
  intro path hpath name opId hname
  have hshort := h path hpath _ hname
  rw [uppercaseOneCodepoint, List.length_map, List.length_append, length_tempSuffix] at hshort
  omega

theorem revised_unseen :
    RunUnseen 7 (scan revisedSource sampleRoot {}) (scan revisedTarget sampleRoot {}) :=
  short_unseen (by decide +kernel)

theorem revised_begins : Begins revisedSet 7 replacedWorld where
  rooted := replaced_begins.rooted
  temps temp place file other htemp hne hfile hother := by
    obtain ⟨sight, hlook, -⟩ := Disk.fileAt_eq_some.1 hfile
    obtain ⟨other, hlook', -⟩ := Disk.fileAt_eq_some.1 hother
    exact absurd ((look_replaced hlook').trans (look_replaced hlook).symm) hne
  succeeded operation hchosen hcounts hstatus := by cases hstatus

theorem trash_policy_conserves_revised :
    ((callsOf revisedSet 7 replacedCalls replacedWorld).map fun run =>
      run.1.toOption.map (·.status)) = [some .completed] ∧
    ∀ run ∈ callsOf revisedSet 7 replacedCalls replacedWorld, ∀ later ∈ leftBehind run,
      later.source = replacedWorld.source ∧
        (∀ place file, ¬ IsTemp revisedSet 7 place →
          replacedWorld.target.fileAt place = some file →
            ∃ home kept, ¬ IsTemp revisedSet 7 home ∧ later.target.fileAt home = some kept ∧
              kept.2 = file.2) ∧
        (∀ place file, ¬ IsTemp revisedSet 7 place → later.target.fileAt place = some file →
          Known revisedSet 7 replacedWorld file.2) ∧
        ∀ operation, Chosen revisedSet operation → countsBytes operation.kind = true →
          later.status.get? operation.opId = some .succeeded →
            Delivered replacedWorld operation later.target :=
  ⟨by decide +kernel, trash_policy_conserves (by decide +kernel) (by decide +kernel) rfl rfl
    revised_planned rfl List.nodup_nil (first_uncontested _ _) (fun _ h => h) revised_unseen
    (by decide +kernel) (by decide) rfl revised_begins replacedCalls⟩

end Sample

end NamiSync
