/-
# `Modules.Claimed` — which operation has which target file

An operation names a target file by path, or by key where it gives the file
another case.  Exact keys, normalized names, moves and removals each exclude
one another, with one gap: `_move_pair` knows the keys that files are
assigned to, not the files that `_normalization_pairs` has handed out.

## What is proved

    target_claimed_once_iff : in a plan under the identity policy, each target
      file is claimed by one nonblocked operation at most, if and only if no
      target file is `Contested`

`Contested` is about the scans and the snapshot: one source file was renamed
from the file, and another source file has its name up to normalization.
`accent_claimed_twice` is such a plan.

## The argument

Three ways to hold a target file (`Holding`), and removal: ten pairs.  A
removal excludes the rest by the claimed keys.  Two of one way are one source
file, since keys, normalized names and identities each have to be unique to
count.  By key and by normalized name exclude each other because a normalized
name is looked for among files that have no counterpart.  By key and renamed
exclude each other because a move takes no file whose key is assigned.  What
is left is the pair of `Contested`.
-/
import NamiSync.Lib.Checked
import NamiSync.Modules.MovePlan

namespace NamiSync

section Planning

variable [Unicode]

/-- The paths at which an operation keeps, updates, recases, moves away or
removes a target file. -/
def PlanOperation.claimedPaths (operation : PlanOperation) : List RelPath :=
  match operation.kind with
  | .noop | .update => [operation.targetRelPath]
  | .recase | .move | .moveUpdate => operation.priorTargetRelPath.toList
  | .trash | .delete =>
      if operation.reason = .directoryCleanup then [] else [operation.targetRelPath]
  | .copy | .mkdir => []

/-- The file of a listing that a path names: the one with the path, or
where there is none, the one with its key. -/
def NamesFile (files : List FileRecord) (path : RelPath) (record : FileRecord) : Prop :=
  record ∈ files ∧
    (record.relPath = path ∨ record.key = path.key ∧ ∀ other ∈ files, other.relPath ≠ path)

/-- A nonblocked operation claims a target file. -/
def PlanOperation.Claims (files : List FileRecord) (operation : PlanOperation)
    (record : FileRecord) : Prop :=
  operation.blocked = false ∧ ∃ path ∈ operation.claimedPaths, NamesFile files path record

instance (files : List FileRecord) (path : RelPath) (record : FileRecord) :
    Decidable (NamesFile files path record) := inferInstanceAs (Decidable (_ ∧ _))

instance (files : List FileRecord) (operation : PlanOperation) (record : FileRecord) :
    Decidable (operation.Claims files record) := inferInstanceAs (Decidable (_ ∧ _))

section Naming

variable {files : List FileRecord} {path : RelPath} {record target : FileRecord}

/-! ## What a claim names

An operation claims the target file that it changes, moves or takes away.  A
claim is of a record, and two spellings of one path claim the same file. -/

theorem NamesFile.key_eq (h : NamesFile files path record) : record.key = path.key := by
  rcases h.2 with hpath | ⟨hkey, _⟩
  · exact congrArg RelPath.key hpath
  · exact hkey

theorem NamesFile.path_eq (h : NamesFile files target.relPath record) (htarget : target ∈ files) :
    record.relPath = target.relPath := by
  rcases h.2 with hpath | ⟨_, hnone⟩
  · exact hpath
  · exact absurd rfl (hnone target htarget)

end Naming

/-- The planner sees the files of a listing, up to whole keys. -/
structure Survey.Lists (survey : Survey) (files : List FileRecord) : Prop where
  listed : ∀ record ∈ survey.targetFiles, record ∈ files
  whole : ∀ record ∈ files, ∀ target ∈ survey.targetFiles, record.key = target.key →
    record ∈ survey.targetFiles

theorem survey_lists {source target : ScanResult} {correspondence : MappingSnapshot}
    {options : SyncOptions} : (survey source target correspondence options).Lists target.files where
  listed record hrecord := (mem_targetFiles.1 hrecord).1
  whole record hrecord other hother hkey := by
    have hvisible := (mem_targetFiles.1 hother).2
    exact mem_targetFiles.2 ⟨hrecord, by rw [options.filters.excludes_congr hkey, hvisible]⟩

/-! ## Folders that cannot be made

A target file in the way of a folder blocks everything below it; a blocked
operation claims nothing. -/

/-- The target lacks a folder. -/
def Survey.lacks (survey : Survey) (path : RelPath) : Bool :=
  (directoriesAt survey.targetDirs path.key).isEmpty

/-- A lacking folder cannot be made: a target file is in its place, or the
source does not have the folder exactly once. -/
def Survey.obstructs (survey : Survey) (path : RelPath) : Bool :=
  !(filesAt survey.targetFiles path.key).isEmpty ||
    decide ((directoriesAt survey.sourceDirs path.key).length ≠ 1)

/-- The nearest folder above a path that the target lacks cannot be made. -/
def Survey.shut (survey : Survey) (path : RelPath) : Bool :=
  (path.parents.find? survey.lacks).any survey.obstructs

section Folders

variable [Digest] {survey : Survey}

theorem mkdirOperation_blocked_eq (created : Created) (path : RelPath) :
    (survey.mkdirOperation created path).blocked = survey.obstructs path := by
  unfold Survey.mkdirOperation Survey.obstructs
  dsimp only
  cases hdirs : directoriesAt survey.sourceDirs path.key with
  | nil => simp [blockedOperation, PlanOperation.blocked]
  | cons directory rest =>
      cases rest with
      | nil =>
          by_cases hfiles : filesAt survey.targetFiles path.key = []
          · simp [hfiles, PlanOperation.blocked]
          · simp [hfiles, blockedOperation, PlanOperation.blocked]
      | cons other rest => simp [blockedOperation, PlanOperation.blocked]

/-- The loop over the required directories finds each lacking one, and
only those. -/
theorem mkdirLoop_get? {paths : List RelPath} {created : Created} {path : RelPath} :
    ((survey.mkdirLoop paths created).2.get? path.key).map PlanOperation.blocked =
      if survey.lacks path = true ∧ ∃ made ∈ paths, made.key = path.key then
        some (survey.obstructs path)
      else (created.get? path.key).map PlanOperation.blocked := by
  induction paths generalizing created with
  | nil => simp [Survey.mkdirLoop]
  | cons first rest ih =>
      unfold Survey.mkdirLoop
      by_cases hkey : first.key = path.key
      · have hlacks : survey.lacks path = (directoriesAt survey.targetDirs first.key).isEmpty := by
          rw [Survey.lacks, hkey]
        have hobstructs : survey.obstructs first = survey.obstructs path := by
          rw [Survey.obstructs, Survey.obstructs, hkey]
        rw [← hlacks]
        cases hfree : survey.lacks path with
        | false =>
            rw [if_neg Bool.false_ne_true, ih]
            simp [hfree]
        | true =>
            rw [if_pos rfl]
            dsimp only
            rw [ih]
            simp [hfree, hkey, mkdirOperation_blocked_eq, hobstructs]
      · split
        · dsimp only
          rw [ih, Dict.get?_set_ne _ _ (Ne.symm hkey)]
          simp [hkey]
        · rw [ih]
          simp [hkey]

/-- What the loop over the assigned files inherits is a matter of the two
listings. -/
theorem nearestCreatedParent_blocked {path : RelPath}
    (hrequired : ∀ parent ∈ path.parents, parent ∈ survey.requiredDirectoryPaths) :
    (nearestCreatedParent path survey.mkdirs.2).any PlanOperation.blocked = survey.shut path := by
  unfold nearestCreatedParent Survey.shut
  revert hrequired
  induction path.parents with
  | nil =>
      intro _
      rfl
  | cons parent rest ih =>
      intro hrequired
      have hget := @mkdirLoop_get? _ _ survey
        (sortedBy (fun path => toLex (path.depth, recordKey path)) survey.requiredDirectoryPaths)
        .empty parent
      have hmem : ∃ made ∈ sortedBy (fun path => toLex (path.depth, recordKey path))
          survey.requiredDirectoryPaths, made.key = parent.key :=
        ⟨parent, mem_sortedBy.2 (hrequired parent List.mem_cons_self), rfl⟩
      have hrest := ih fun above habove => hrequired above (List.mem_cons_of_mem _ habove)
      rw [List.findSome?_cons, List.find?_cons]
      cases hlacks : survey.lacks parent with
      | true =>
          rw [if_pos ⟨hlacks, hmem⟩] at hget
          obtain ⟨operation, hoperation, hblocked⟩ := Option.map_eq_some_iff.1 hget
          rw [show survey.mkdirs.2.get? parent.key = some operation from hoperation]
          exact hblocked
      | false =>
          rw [if_neg (by simp [hlacks]), Dict.get?_empty] at hget
          have hnone : survey.mkdirs.2.get? parent.key = none := Option.map_eq_none_iff.1 hget
          rw [hnone]
          exact hrest

end Folders

/-! ## What the matchings exclude

A file is found by its key, by its normal form, or by its identity.  Each search
is exclusive in itself; this section says which pairs of them exclude each
other. -/

section Matchings

variable {survey : Survey}

/-- A file found by its normalized name is alone with the name, and no file
is assigned its key. -/
theorem normalizationPair_spec {item : DestinationAssignment} {target : FileRecord}
    (h : survey.normalizationPair item = some target) :
    target ∈ survey.targetFiles ∧ filesAt survey.targetFiles item.targetKey = [] ∧
      normalizationSignature target.relPath = normalizationSignature item.targetRelPath ∧
      (∀ other ∈ survey.assignment.items, other.targetKey ≠ target.key) ∧
      ∀ other ∈ survey.assignment.items, filesAt survey.targetFiles other.targetKey = [] →
        normalizationSignature other.targetRelPath = normalizationSignature item.targetRelPath →
        item ∈ survey.assignment.items → other = item := by
  unfold Survey.normalizationPair at h
  dsimp only at h
  split at h
  · exact absurd h (by simp)
  · next hunmatched =>
      split at h
      · next only found hdesired htargets =>
          split at h
          · exact absurd h (by simp)
          · obtain rfl := Option.some.inj h
            have hempty : filesAt survey.targetFiles item.targetKey = [] := by
              simpa using hunmatched
            have hmem : found ∈ [found] := List.mem_singleton_self found
            rw [← htargets, List.mem_filter] at hmem
            obtain ⟨hfound, hfree⟩ := hmem
            simp only [Bool.and_eq_true, Bool.not_eq_true', decide_eq_true_eq] at hfree
            obtain ⟨hunassigned, hsignature⟩ := hfree
            refine ⟨hfound, hempty, hsignature, ?_, ?_⟩
            · intro other hother hkey
              rw [List.any_eq_false] at hunassigned
              refine hunassigned other hother ?_
              have hat : found ∈ filesAt survey.targetFiles other.targetKey :=
                mem_filesAt_iff.2 ⟨hfound, hkey.symm⟩
              simp [hkey, List.ne_nil_of_mem (hkey ▸ hat)]
            · intro other hother hother_empty hsame hitem
              have hone {i : DestinationAssignment} (hi : i ∈ survey.assignment.items)
                  (hiempty : filesAt survey.targetFiles i.targetKey = [])
                  (hisame : normalizationSignature i.targetRelPath =
                    normalizationSignature item.targetRelPath) : i = only := by
                have hin : i ∈ [only] := by
                  rw [← hdesired, List.mem_filter]
                  exact ⟨hi, by simp [hiempty, hisame]⟩
                exact List.mem_singleton.1 hin
              rw [hone hother hother_empty hsame, hone hitem hempty rfl]
      · exact absurd h (by simp)

/-- A file that is moved is the only one with its identity. -/
theorem movePair_alone {record copy : FileRecord} {desiredKey : Str} {pair : MappingPair}
    (h : survey.movePair record desiredKey = some (pair, copy)) :
    ∃ identity, record.fileIdentity = some identity ∧ pair.sourceIdentity = identity ∧
      pair ∈ survey.correspondence.pairs ∧ identityCount survey.sourceFiles identity = 1 := by
  obtain ⟨identity, hidentity, hpairs⟩ := movePair_pair h
  have hpair : pair ∈ survey.correspondence.pairs.filter (·.sourceIdentity = identity) := by
    rw [hpairs]
    exact List.mem_singleton_self pair
  obtain ⟨hmem, hsource⟩ := List.mem_filter.1 hpair
  refine ⟨identity, hidentity, of_decide_eq_true hsource, hmem, ?_⟩
  unfold Survey.movePair at h
  rw [hidentity] at h
  split at h
  · next found _ _ hfound _ _ =>
      obtain rfl := Option.some.inj hfound
      dsimp only at h
      split at h
      · exact absurd h (by simp)
      · next hguards =>
          simp only [not_or, ne_eq, not_not] at hguards
          exact hguards.2.2.2.2.2.2.1
  · exact absurd h (by simp)

theorem eq_of_identityCount {records : List FileRecord} {identity : FileIdentity}
    {a b : FileRecord} (hcount : identityCount records identity = 1) (ha : a ∈ records)
    (hb : b ∈ records) (hida : a.fileIdentity = some identity)
    (hidb : b.fileIdentity = some identity) : a = b := by
  obtain ⟨only, honly⟩ := List.length_eq_one_iff.1 hcount
  have hin {c : FileRecord} (hc : c ∈ records) (hid : c.fileIdentity = some identity) :
      c = only := by
    have hmem : c ∈ [only] := by
      rw [← honly]
      exact List.mem_filter.2 ⟨hc, by simp [hid]⟩
    exact List.mem_singleton.1 hmem
  rw [hin ha hida, hin hb hidb]

end Matchings

/-! ## How an operation comes to claim a file

One case for each way to claim, with the search that has led to it. -/

variable [Digest]

/-- The step of an assigned file that is not held back. -/
structure StepOf (survey : Survey) (item : DestinationAssignment) (source : FileRecord)
    (step : ContentStep) : Prop where
  item_mem : item ∈ survey.assignment.items
  step_eq : survey.contentStep survey.mkdirs.2 item = some step
  clear : survey.Clear survey.mkdirs.2 item source

/-- How an assigned file has its target file: by key, by its normalized
name, or from before it was renamed. -/
inductive Holding (survey : Survey) (item : DestinationAssignment) (source : FileRecord)
    (step : ContentStep) (record : FileRecord) : Prop
  | direct (hclaim : step.claimedTargetKey = some record.key) (hkey : item.targetKey = record.key)
  | paired (target : FileRecord) (hclaim : step.claimedTargetKey = some record.key)
      (hpair : survey.normalizationPair item = some target)
      (hpath : record.relPath = target.relPath)
  | moved (pair : MappingPair) (copy : FileRecord)
      (hmovedFrom : step.movedFromKey = some record.key)
      (hempty : filesAt survey.targetFiles item.targetKey = [])
      (hunpaired : survey.normalizationPair item = none)
      (hmove : survey.movePair source item.targetKey = some (pair, copy))
      (hkey : pair.targetKey = record.key)

/-- The loop over the assigned files claims a target file, or the last loop
removes it. -/
inductive ClaimCase (survey : Survey) (operation : PlanOperation) (record : FileRecord) : Prop
  | assigned (item : DestinationAssignment) (source : FileRecord) (step : ContentStep)
      (hstep : StepOf survey item source step) (hoperation : step.operation = operation)
      (hholds : Holding survey item source step record)
  | removed (hid : operation.opId = deterministicOperationId
        (if survey.options.deletionPolicy = .trash then .trash else .delete) none record.relPath
        none .targetOnly)
      (hfree : ∀ step ∈ survey.contentSteps survey.mkdirs.2,
        step.claimedTargetKey ≠ some record.key ∧ step.movedFromKey ≠ some record.key)

section Cases

variable {survey : Survey} {files : List FileRecord} {operation : PlanOperation}
  {record : FileRecord}

theorem matchedStep_claimed (survey : Survey) {item : DestinationAssignment}
    {source target : FileRecord} {mismatch : Bool} (dependency : Option PlanOperation)
    (hkey : mismatch = false → item.targetKey = target.key) :
    ∃ path, (survey.matchedStep item source target mismatch dependency).operation.claimedPaths =
        [path] ∧ path.key = target.key ∧ (mismatch = true → path = target.relPath) := by
  unfold Survey.matchedStep
  dsimp only
  cases mismatch with
  | true =>
      refine ⟨target.relPath, ?_, rfl, fun _ => rfl⟩
      cases metadataEqual source.stat target.stat survey.granularity <;> rfl
  | false =>
      have hkey := hkey rfl
      rw [if_neg Bool.false_ne_true]
      split
      · split
        · -- A recased file is claimed where it was, an updated one under its new name.
          cases metadataEqual source.stat target.stat survey.granularity with
          | true => exact ⟨target.relPath, rfl, rfl, fun h => absurd h Bool.false_ne_true⟩
          | false =>
              exact ⟨target.relPath.withName item.targetRelPath, rfl, RelPath.key_withName hkey,
                fun h => absurd h Bool.false_ne_true⟩
        · refine ⟨target.relPath, ?_, rfl, fun h => absurd h Bool.false_ne_true⟩
          cases metadataEqual source.stat target.stat survey.granularity <;> rfl
      · refine ⟨item.targetRelPath, ?_, hkey, fun h => absurd h Bool.false_ne_true⟩
        cases metadataEqual source.stat target.stat survey.granularity <;> rfl

theorem unmatchedStep_claimed {item : DestinationAssignment} {source : FileRecord}
    {dependency : Option PlanOperation} {path : RelPath}
    (h : path ∈ (survey.unmatchedStep item source dependency).operation.claimedPaths) :
    ∃ pair copy, survey.movePair source item.targetKey = some (pair, copy) ∧
      path = pair.targetRelPath ∧
      (survey.unmatchedStep item source dependency).movedFromKey = some pair.targetKey := by
  unfold Survey.unmatchedStep at h ⊢
  split at h
  · next pair copy hmove =>
      refine ⟨pair, copy, hmove, ?_, rfl⟩
      dsimp only [PlanOperation.claimedPaths] at h
      cases hsame : metadataEqual source.stat copy.stat survey.granularity <;>
        simpa [hsame] using h
  · exact absurd h List.not_mem_nil

theorem matchedStep_unblocked (survey : Survey) (item : DestinationAssignment)
    (source target : FileRecord) (mismatch : Bool) (dependency : Option PlanOperation) :
    (survey.matchedStep item source target mismatch dependency).operation.blocked = false := by
  unfold Survey.matchedStep
  dsimp only
  cases metadataEqual source.stat target.stat survey.granularity <;>
    split <;> try (split <;> try split) <;> rfl

theorem unmatchedStep_moves {item : DestinationAssignment} {source copy : FileRecord}
    {pair : MappingPair} (hmove : survey.movePair source item.targetKey = some (pair, copy))
    (dependency : Option PlanOperation) :
    (survey.unmatchedStep item source dependency).operation.blocked = false ∧
      (survey.unmatchedStep item source dependency).operation.claimedPaths =
        [pair.targetRelPath] := by
  unfold Survey.unmatchedStep
  rw [hmove]
  dsimp only
  cases metadataEqual source.stat copy.stat survey.granularity with
  | true => exact ⟨rfl, rfl⟩
  | false => exact ⟨rfl, rfl⟩

theorem claim_cases (hlists : survey.Lists files) (hmem : operation ∈ survey.operations)
    (h : operation.Claims files record) : ClaimCase survey operation record := by
  obtain ⟨hfree, path, hpath, hnames⟩ := h
  unfold Survey.operations at hmem
  simp only [List.mem_append] at hmem
  obtain (((hmkdir | hcontent) | hremoval) | hunsupported) | hcleanup := hmem
  · simp [PlanOperation.claimedPaths, mem_mkdirs hmkdir] at hpath
  · -- The content is where a file can be found in three ways, one for each branch.
    obtain ⟨step, hstep, rfl⟩ := List.mem_map.1 hcontent
    obtain ⟨item, hitem, hcase⟩ := mem_contentSteps hstep
    cases contentStep_branch hcase with
    | blocked hblocked _ _ => exact absurd (hblocked.symm.trans hfree) (by simp)
    | matched source target mismatch hclear htarget hmatched =>
        have hclaim : step.claimedTargetKey = some target.key := by
          rw [hmatched]
          exact (matchedStep_spec ..).2
        cases htarget with
        | direct hdirect =>
            have hat : target ∈ filesAt survey.targetFiles item.targetKey := by
              rw [hdirect]
              exact List.mem_singleton_self target
            have hkey : item.targetKey = target.key := (mem_filesAt_iff.1 hat).2.symm
            obtain ⟨claimed, hclaimed, hsame, -⟩ := matchedStep_claimed survey
              (nearestCreatedParent item.targetRelPath survey.mkdirs.2) fun _ => hkey
            rw [hmatched, hclaimed] at hpath
            obtain rfl := List.mem_singleton.1 hpath
            have hrecord : record.key = target.key := hnames.key_eq.trans hsame
            exact .assigned item source step ⟨hitem, hcase, hclear⟩ rfl
              (.direct (hrecord ▸ hclaim) (hkey.trans hrecord.symm))
        | paired hempty hpair =>
            obtain ⟨claimed, hclaimed, -, hexact⟩ := matchedStep_claimed survey
              (nearestCreatedParent item.targetRelPath survey.mkdirs.2)
              fun h : true = false => absurd h.symm Bool.false_ne_true
            rw [hmatched, hclaimed] at hpath
            obtain rfl := List.mem_singleton.1 hpath
            rw [hexact rfl] at hnames
            have hrecord := hnames.path_eq (hlists.listed target (normalizationPair_spec hpair).1)
            have hkey : record.key = target.key := congrArg RelPath.key hrecord
            exact .assigned item source step ⟨hitem, hcase, hclear⟩ rfl
              (.paired target (hkey ▸ hclaim) hpair hrecord)
    | unmatched source hclear hempty hunpaired hunmatched =>
        rw [hunmatched] at hpath
        obtain ⟨pair, copy, hmove, rfl, hmovedFrom⟩ := unmatchedStep_claimed hpath
        have hkey := hnames.key_eq
        refine .assigned item source step ⟨hitem, hcase, hclear⟩ rfl
          (.moved pair copy ?_ hempty hunpaired hmove hkey.symm)
        rw [hunmatched, hmovedFrom, hkey]
  · unfold Survey.removals at hremoval
    split at hremoval
    · exact absurd hremoval List.not_mem_nil
    · obtain ⟨target, htarget, rfl⟩ := List.mem_map.1 hremoval
      obtain ⟨hlisted, hunclaimed⟩ := List.mem_filter.1 htarget
      simp only [Bool.and_eq_true, decide_eq_true_eq, List.mem_filterMap, not_exists, not_and]
        at hunclaimed
      -- A removal names its target, whether it trashes or deletes.
      have hclaimed : path = target.relPath := by
        revert hpath
        unfold Survey.removalOperation PlanOperation.claimedPaths
        dsimp only
        split <;> simp
      rw [hclaimed] at hnames
      have hrecord := hnames.path_eq (hlists.listed target hlisted)
      have hkey : record.key = target.key := congrArg RelPath.key hrecord
      refine .removed ?_ fun step hstep => ?_
      · rw [hrecord]
        rfl
      · rw [hkey]
        exact ⟨hunclaimed.1 step hstep, hunclaimed.2 step hstep⟩
  · exact absurd ((mem_unsupportedOperations hunsupported).symm.trans hfree) (by simp)
  · obtain ⟨directory, -, removed, before, -, -, rfl⟩ := mem_cleanupLoop hcleanup
    exact absurd hpath (by simp [PlanOperation.claimedPaths, Survey.cleanupOperation])

end Cases

/-! ## Contested files

The pair that is left: one item finds a file by its normal form, another one by
its identity.  The result is that this pair, and no other, makes a file claimed
twice. -/

omit [Digest] in
/-- Nothing holds a source file back: it is alone at its key, no directory is
in its place, and the folder above it can be made. -/
structure Survey.Proceeds (survey : Survey) (record : FileRecord) : Prop where
  source_eq : filesAt survey.sourceFiles record.key = [record]
  targetDirs_eq : directoriesAt survey.targetDirs record.key = []
  reachable : survey.shut record.relPath = false

omit [Digest] in
/-- A target file that one source file was renamed from, and that is another
one's counterpart by its normalized name. -/
structure Survey.Contested (survey : Survey) (moved paired target : FileRecord) : Prop where
  moved_proceeds : survey.Proceeds moved
  paired_proceeds : survey.Proceeds paired
  empty : filesAt survey.targetFiles moved.key = []
  unpaired : survey.normalizationPair (identityItem moved) = none
  moves : ∃ pair, survey.movePair moved moved.key = some (pair, target)
  pairs : survey.normalizationPair (identityItem paired) = some target

section Contest

variable {survey : Survey} {files : List FileRecord} {record : FileRecord}

omit [Digest] in
/-- The item of a file that is alone at its key. -/
theorem Survey.Identity.item_eq (h : survey.Identity) {item : DestinationAssignment}
    (hitem : item ∈ survey.assignment.items) {source : FileRecord}
    (hsource : filesAt survey.sourceFiles item.sourceKey = [source]) :
    item = identityItem source := by
  obtain ⟨owner, howner, rfl⟩ := h.mem_items.1 hitem
  have hmem : owner ∈ filesAt survey.sourceFiles (identityItem owner).sourceKey :=
    mem_filesAt_iff.2 ⟨howner, rfl⟩
  rw [hsource] at hmem
  rw [List.mem_singleton.1 hmem]

theorem Survey.Identity.clear_iff (h : survey.Identity) {source : FileRecord} :
    survey.Clear survey.mkdirs.2 (identityItem source) source ↔ survey.Proceeds source := by
  have hblocked (hsource : filesAt survey.sourceFiles source.key = [source]) :
      (nearestCreatedParent source.relPath survey.mkdirs.2).any PlanOperation.blocked =
        survey.shut source.relPath := by
    refine nearestCreatedParent_blocked fun parent hparent => ?_
    have hat : source ∈ filesAt survey.sourceFiles source.key := by
      rw [hsource]
      exact List.mem_singleton_self source
    have hitem : identityItem source ∈ survey.assignment.items :=
      h.mem_items.2 ⟨source, (mem_filesAt_iff.1 hat).1, rfl⟩
    rw [Survey.requiredDirectoryPaths, List.mem_dedup, List.mem_append]
    exact Or.inr (List.mem_flatMap.2 ⟨_, hitem, hparent⟩)
  constructor
  · intro hclear
    exact ⟨hclear.source_eq, hclear.targetDirs_eq,
      (hblocked hclear.source_eq).symm.trans hclear.parent_free⟩
  · intro hproceeds
    exact ⟨hproceeds.source_eq, (congrArg List.length (h.assignedTo_eq hproceeds.source_eq)).le,
      rfl, hproceeds.targetDirs_eq, (hblocked hproceeds.source_eq).trans hproceeds.reachable⟩

theorem Survey.Identity.proceeds (h : survey.Identity) {item : DestinationAssignment}
    (hitem : item ∈ survey.assignment.items) {source : FileRecord}
    (hclear : survey.Clear survey.mkdirs.2 item source) :
    item = identityItem source ∧ survey.Proceeds source := by
  obtain rfl := h.item_eq hitem hclear.source_eq
  exact ⟨rfl, h.clear_iff.1 hclear⟩

omit [Digest] in
/-- The file that a move takes is the one that a normalized name finds. -/
theorem contested_of {item other : DestinationAssignment} {pair : MappingPair}
    {source copy owner target : FileRecord}
    (hitem : item = identityItem source ∧ survey.Proceeds source)
    (hother : other = identityItem owner ∧ survey.Proceeds owner)
    (hempty : filesAt survey.targetFiles item.targetKey = [])
    (hunpaired : survey.normalizationPair item = none)
    (hmove : survey.movePair source item.targetKey = some (pair, copy))
    (hpair : survey.normalizationPair other = some target) (hkey : pair.targetKey = target.key) :
    survey.Contested source owner target := by
  obtain ⟨rfl, hproceeds⟩ := hitem
  obtain ⟨rfl, hstands⟩ := hother
  have hat : target ∈ filesAt survey.targetFiles pair.targetKey :=
    mem_filesAt_iff.2 ⟨(normalizationPair_spec hpair).1, hkey.symm⟩
  rw [(movePair_spec hmove).1] at hat
  obtain rfl := List.mem_singleton.1 hat
  exact ⟨hproceeds, hstands, hempty, hunpaired, ⟨pair, hmove⟩, hpair⟩

omit [Digest] in
/-- Two moves that take one file are of one source file. -/
theorem moved_eq (hdistinct : (survey.correspondence.pairs.map MappingPair.targetKey).Nodup)
    {a b copyA copyB : FileRecord} {keyA keyB : Str} {pairA pairB : MappingPair}
    (ha : a ∈ survey.sourceFiles) (hb : b ∈ survey.sourceFiles)
    (hmoveA : survey.movePair a keyA = some (pairA, copyA))
    (hmoveB : survey.movePair b keyB = some (pairB, copyB))
    (hkey : pairA.targetKey = pairB.targetKey) : a = b := by
  obtain ⟨identityA, hidA, hsourceA, hmemA, hcountA⟩ := movePair_alone hmoveA
  obtain ⟨identityB, hidB, hsourceB, hmemB, -⟩ := movePair_alone hmoveB
  have hpair : pairA = pairB := List.inj_on_of_nodup_map hdistinct hmemA hmemB hkey
  have hidentity : identityB = identityA := by rw [← hsourceA, ← hsourceB, hpair]
  exact eq_of_identityCount hcountA ha hb hidA (hidB.trans (congrArg some hidentity))

theorem StepOf.mem_sourceFiles {item : DestinationAssignment} {source : FileRecord}
    {step : ContentStep} (h : StepOf survey item source step) : source ∈ survey.sourceFiles := by
  have hat : source ∈ filesAt survey.sourceFiles item.sourceKey := by
    rw [h.clear.source_eq]
    exact List.mem_singleton_self source
  exact (mem_filesAt_iff.1 hat).1

theorem StepOf.mem_contentSteps {item : DestinationAssignment} {source : FileRecord}
    {step : ContentStep} (h : StepOf survey item source step) :
    step ∈ survey.contentSteps survey.mkdirs.2 :=
  List.mem_filterMap.2 ⟨item, mem_sortedBy.2 h.item_mem, h.step_eq⟩

/-- Two assigned files that have one target file are the same, or it is
contested. -/
theorem Survey.Identity.holds_once (h : survey.Identity)
    (hdistinct : (survey.correspondence.pairs.map MappingPair.targetKey).Nodup)
    {i j : DestinationAssignment} {a b : FileRecord} {s t : ContentStep}
    (hi : StepOf survey i a s) (hj : StepOf survey j b t) (hp : Holding survey i a s record)
    (hq : Holding survey j b t record) :
    i = j ∨ ∃ moved paired target, survey.Contested moved paired target := by
  have hproceeds := h.proceeds hi.item_mem hi.clear
  have hproceeds' := h.proceeds hj.item_mem hj.clear
  cases hp with
  | direct _ hkey =>
      cases hq with
      | direct _ hkey' =>
          -- Both are assigned the key of the file, and one source file has it.
          have hsource : filesAt survey.sourceFiles j.sourceKey = [a] := by
            have hsame : j.sourceKey = i.sourceKey := by
              rw [hproceeds.1, hproceeds'.1] at *
              exact hkey'.trans hkey.symm
            rw [hsame]
            exact hi.clear.source_eq
          exact Or.inl (hproceeds.1.trans (h.item_eq hj.item_mem hsource).symm)
      | paired target _ hpair hpath =>
          have hrecord : record.key = target.key := congrArg RelPath.key hpath
          exact absurd (hkey.trans hrecord)
            ((normalizationPair_spec hpair).2.2.2.1 i hi.item_mem)
      | moved pair copy _ _ _ hmove hkey' =>
          exact absurd (hkey.trans hkey'.symm) ((movePair_spec hmove).2 i hi.item_mem)
  | paired target _ hpair hpath =>
      have hrecord : record.key = target.key := congrArg RelPath.key hpath
      obtain ⟨-, hempty, hsignature, hunassigned, honly⟩ := normalizationPair_spec hpair
      cases hq with
      | direct _ hkey => exact absurd (hkey.trans hrecord) (hunassigned j hj.item_mem)
      | paired target' _ hpair' hpath' =>
          obtain ⟨-, hempty', hsignature', -, -⟩ := normalizationPair_spec hpair'
          have hsame : normalizationSignature j.targetRelPath =
              normalizationSignature i.targetRelPath := by
            rw [← hsignature, ← hsignature', ← hpath, ← hpath']
          exact Or.inl (honly j hj.item_mem hempty' hsame hi.item_mem).symm
      | moved pair copy _ hempty' hunpaired hmove hkey =>
          exact Or.inr ⟨b, a, target, contested_of hproceeds' hproceeds hempty' hunpaired hmove
            hpair (hkey.trans hrecord)⟩
  | moved pair copy _ hempty hunpaired hmove hkey =>
      cases hq with
      | direct _ hkey' =>
          exact absurd (hkey'.trans hkey.symm) ((movePair_spec hmove).2 j hj.item_mem)
      | paired target _ hpair hpath =>
          have hrecord : record.key = target.key := congrArg RelPath.key hpath
          exact Or.inr ⟨a, b, target, contested_of hproceeds hproceeds' hempty hunpaired hmove
            hpair (hkey.trans hrecord)⟩
      | moved pair' copy' _ _ _ hmove' hkey' =>
          have hsame : a = b := moved_eq hdistinct hi.mem_sourceFiles hj.mem_sourceFiles hmove
            hmove' (hkey.trans hkey'.symm)
          exact Or.inl (by rw [hproceeds.1, hproceeds'.1, hsame])

/-- Two operations with one target file are the same, or the file is
contested. -/
theorem Survey.Identity.claimed_once (h : survey.Identity)
    (hdistinct : (survey.correspondence.pairs.map MappingPair.targetKey).Nodup)
    {p q : PlanOperation} (hids : p.opId = q.opId → p = q) (hp : ClaimCase survey p record)
    (hq : ClaimCase survey q record) :
    p = q ∨ ∃ moved paired target, survey.Contested moved paired target := by
  have hunremoved {i : DestinationAssignment} {a : FileRecord} {s : ContentStep}
      (hi : StepOf survey i a s) (hholds : Holding survey i a s record)
      (hfree : ∀ step ∈ survey.contentSteps survey.mkdirs.2,
        step.claimedTargetKey ≠ some record.key ∧ step.movedFromKey ≠ some record.key) : False := by
    obtain ⟨hunclaimed, hunmoved⟩ := hfree s hi.mem_contentSteps
    cases hholds with
    | direct hclaim _ => exact hunclaimed hclaim
    | paired _ hclaim _ _ => exact hunclaimed hclaim
    | moved _ _ hmovedFrom _ _ _ _ => exact hunmoved hmovedFrom
  cases hp with
  | assigned i a s hi hsp hholds =>
      cases hq with
      | assigned j b t hj htq hholds' =>
          refine (h.holds_once hdistinct hi hj hholds hholds').imp_left fun hij => ?_
          have hstep := hi.step_eq
          rw [hij, hj.step_eq] at hstep
          rw [← hsp, ← htq, Option.some.inj hstep]
      | removed _ hfree => exact (hunremoved hi hholds hfree).elim
  | removed hid hfree =>
      cases hq with
      | assigned j b t hj _ hholds => exact (hunremoved hj hholds hfree).elim
      | removed hid' _ => exact Or.inl (hids (hid.trans hid'.symm))

/-- The two operations of a contested file. -/
theorem Survey.Identity.contested_twice (h : survey.Identity) (hlists : survey.Lists files)
    {moved paired target : FileRecord} (hcontest : survey.Contested moved paired target) :
    ∃ p ∈ survey.operations, ∃ q ∈ survey.operations,
      p.Claims files target ∧ q.Claims files target ∧ p ≠ q := by
  obtain ⟨pair, hmove⟩ := hcontest.moves
  obtain ⟨htarget, hempty, -⟩ := normalizationPair_spec hcontest.pairs
  have hmoved := contentStep_unmatched (h.clear_iff.2 hcontest.moved_proceeds) hcontest.empty
    hcontest.unpaired
  have hpaired := contentStep_matched (h.clear_iff.2 hcontest.paired_proceeds)
    (.paired hempty hcontest.pairs)
  have hstep {record : FileRecord} {step : ContentStep} (hproceeds : survey.Proceeds record)
      (hcase : survey.contentStep survey.mkdirs.2 (identityItem record) = some step) :
      step.operation ∈ survey.operations := by
    have hat : record ∈ filesAt survey.sourceFiles record.key := by
      rw [hproceeds.source_eq]
      exact List.mem_singleton_self record
    have hitem := h.mem_items.2 ⟨record, (mem_filesAt_iff.1 hat).1, rfl⟩
    exact step_mem_operations (List.mem_filterMap.2 ⟨_, mem_sortedBy.2 hitem, hcase⟩)
  have hlisted : target ∈ files := hlists.listed target htarget
  have hat : target ∈ filesAt survey.targetFiles pair.targetKey := by
    rw [(movePair_spec hmove).1]
    exact List.mem_singleton_self target
  have hkey : target.key = pair.targetKey := (mem_filesAt_iff.1 hat).2
  -- The ledger's path names the file: no other one has its key.
  have hnames : NamesFile files pair.targetRelPath target := by
    refine ⟨hlisted, or_iff_not_imp_left.2 fun hne => ⟨hkey, fun other hother hpath => hne ?_⟩⟩
    have hsame : other.key = target.key := (congrArg RelPath.key hpath).trans hkey.symm
    have hother : other ∈ filesAt survey.targetFiles pair.targetKey :=
      mem_filesAt_iff.2 ⟨hlists.whole other hother target htarget hsame, hsame.trans hkey⟩
    rw [(movePair_spec hmove).1] at hother
    rw [← List.mem_singleton.1 hother, hpath]
  obtain ⟨hunblocked, hclaimed⟩ := unmatchedStep_moves
    (show survey.movePair moved (identityItem moved).targetKey = some (pair, target) from hmove)
    (nearestCreatedParent (identityItem moved).targetRelPath survey.mkdirs.2)
  obtain ⟨path, hpath, -, hexact⟩ := matchedStep_claimed survey
    (nearestCreatedParent (identityItem paired).targetRelPath survey.mkdirs.2)
    fun h : true = false => absurd h.symm Bool.false_ne_true
  refine ⟨_, hstep hcontest.moved_proceeds hmoved, _, hstep hcontest.paired_proceeds hpaired,
    ⟨hunblocked, pair.targetRelPath, ?_, hnames⟩,
    ⟨matchedStep_unblocked .., path, ?_, hlisted, Or.inl (hexact rfl).symm⟩, ?_⟩
  · rw [hclaimed]
    exact List.mem_singleton_self _
  · rw [hpath]
    exact List.mem_singleton_self _
  · intro heq
    have hkind := congrArg (fun operation => operation.kind.renames) heq
    rw [matchedStep_kind, (unmatchedStep_renames (Option.isSome_of_eq_some hmove)).1] at hkind
    exact absurd hkind (by simp)

end Contest

/-- Each target file is claimed by at most one nonblocked operation, exactly
when none is contested. -/
theorem target_claimed_once_iff {source target : ScanResult} {correspondence : MappingSnapshot}
    {options : SyncOptions} {scope : Scope} {result : Plan}
    (hpolicy : options.destinationPolicy = identityDestinationPolicy)
    (hdistinct : (correspondence.pairs.map MappingPair.targetKey).Nodup)
    (hplan : plan source target correspondence options scope = .ok result) :
    (∀ record ∈ target.files, ∀ p ∈ result.operations, ∀ q ∈ result.operations,
        p.Claims target.files record → q.Claims target.files record → p = q) ↔
      ¬ ∃ moved paired record,
        (survey source target correspondence options).Contested moved paired record := by
  have hidentity : (survey source target correspondence options).Identity := by
    unfold Survey.Identity
    rw [← hpolicy]
    rfl
  have hoperations := (plan_eq_ok hplan).1
  constructor
  · rintro honce ⟨moved, paired, record, hcontest⟩
    obtain ⟨p, hp, q, hq, hpc, hqc, hne⟩ := hidentity.contested_twice survey_lists hcontest
    obtain ⟨path, -, hnames⟩ := hpc.2
    exact hne (honce record hnames.1 p (hoperations ▸ hp) q (hoperations ▸ hq) hpc hqc)
  · intro hnone record _ p hp q hq hpc hqc
    have hids : p.opId = q.opId → p = q := result.eq_of_opId hp hq
    rw [hoperations] at hp hq
    exact (hidentity.claimed_once hdistinct hids (claim_cases survey_lists hp hpc)
      (claim_cases survey_lists hq hqc)).resolve_right hnone

end Planning

/-! A file was copied under a decomposed name and then renamed to `n`; a new
file has the composed name. -/

section Sample

/-- ASCII with one accented letter. -/
local instance accentUnicode : Unicode where
  upper c := if c = 0xE9 then [0xC9] else asciiUnicode.upper c
  nfc value := if value = [0x65, 0x301] then [0xE9] else value
  upper_ne_nil := by
    intro c
    split
    · simp
    · exact asciiUnicode.upper_ne_nil c
  upper_backslash := by decide
  eq_backslash_of_upper := by
    intro c h
    split at h
    · exact absurd h (by decide)
    · exact asciiUnicode.eq_backslash_of_upper c h

/-- The digests of the two operations and of the default options. -/
local instance accentDigest : Digest where
  operation kind _ _ _ _ :=
    if kind = .move then 0x1742c10e9a948dd9ac335800f99f9c9f
    else 0x836d40fb568afbd43ba7aa01cf75a0c1
  policy _ _ _ _ _ _ _ := str "b76cbc151bb77cf44410d52a81920a1d43824e657978598268e9074d4a4605ff"

def accentRecord (name : Str) (hname : IsComponent name) (identity : FileIdentity) :
    FileRecord where
  relPath := .single name hname
  size := 3
  mtimeNs := 1700000000000000000
  fileIdentity := some identity
  nlink := 1
  metadata := ⟨0x20, none⟩

def accentRenamed : FileRecord := accentRecord (str "n") (by decide +kernel) (volumeA.identity 7)

def accentComposed : FileRecord := accentRecord [0xE9] (by decide +kernel) (volumeA.identity 9)

def accentDecomposed : FileRecord :=
  accentRecord [0x65, 0x301] (by decide +kernel) (volumeB.identity 8)

def accentSource : ScanResult := sampleScan (some volumeA) [accentRenamed, accentComposed]

def accentTarget : ScanResult := sampleScan (some volumeB) [accentDecomposed]

/-- The ledger's only pair: the renamed file and its copy. -/
def accentSnapshot : MappingSnapshot where
  sourceVolumeId := accentSource.volumeId
  targetVolumeId := accentTarget.volumeId
  pairs :=
    [{ sourceRelPathKey := accentDecomposed.key
       targetRelPath := accentDecomposed.relPath
       sourceIdentity := volumeA.identity 7
       targetIdentity := some (volumeB.identity 8) }]

def accentPlan : Plan :=
  (plan accentSource accentTarget accentSnapshot {} .everything).toOption.get (by decide +kernel)

theorem accent_planned :
    plan accentSource accentTarget accentSnapshot {} .everything = .ok accentPlan :=
  Checked.ok_of_get _

theorem accent_claimed_twice :
    ¬ ∀ record ∈ accentTarget.files, ∀ p ∈ accentPlan.operations, ∀ q ∈ accentPlan.operations,
      p.Claims accentTarget.files record → q.Claims accentTarget.files record → p = q := by
  decide +kernel

theorem accent_contested :
    ∃ moved paired record,
      (survey accentSource accentTarget accentSnapshot {}).Contested moved paired record := by
  by_contra hnone
  exact accent_claimed_twice
    ((target_claimed_once_iff rfl (by decide +kernel) accent_planned).2 hnone)

/-- One file is moved away, the other one kept at the same place. -/
theorem target_claimed_twice :
    ¬ ∀ (source target : ScanResult) (correspondence : MappingSnapshot) (options : SyncOptions)
        (scope : Scope) (result : Plan),
      options.destinationPolicy = identityDestinationPolicy →
      (correspondence.pairs.map MappingPair.targetKey).Nodup →
      plan source target correspondence options scope = .ok result →
      ∀ record ∈ target.files, ∀ p ∈ result.operations, ∀ q ∈ result.operations,
        p.Claims target.files record → q.Claims target.files record → p = q := by
  intro h
  exact accent_claimed_twice (h accentSource accentTarget accentSnapshot {} .everything accentPlan
    rfl (by decide +kernel) accent_planned)

end Sample

end NamiSync
