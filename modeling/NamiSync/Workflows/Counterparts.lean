/-
# `Workflows.Counterparts` — no deletion past a source counterpart

Scanner, planner, quarantine and selection together: a selected operation
takes nothing away at the key of an entry that exists under the source
root, readable or not.  After two complete scans the entry is recorded; a
recorded file claims the key, a recorded directory requires it, and what is
unsupported or of the wrong type blocks the region around it.

## What is proved

    counterpart_kept : a path that a selected operation takes away has another
      key than any entry of the source tree that is not ignored

for all trees, scan faults, filters, policies of deletion, snapshots and
selections; the destination policy is the identity.

## The argument

An operation that takes something away is selected after two complete scans
only (`selected_cases`), so the entry is recorded.  Were its key the removed
one: if a file, the item at the key is blocked (`blocked_by_file`); if a
directory, it is required, or the removed file blocks it
(`blocked_by_directory`); if unsupported, it is blocked anyway.  A blocked
operation at the key quarantines the removal, which then is not selected.
-/
import NamiSync.Modules.PlanShape
import NamiSync.Modules.ScanCoverage
import NamiSync.Workflows.Selection

namespace NamiSync

section Counterparts

variable [Unicode]

/-- Ignored parents are seen on both sides. -/
theorem Visible.congr {ignores : IgnoreSet} {p q : RelPath} (hkey : p.key = q.key)
    (h : Visible ignores p) : Visible ignores q := by
  intro parent hparent
  have hmem : parent.key ∈ p.parents.map RelPath.key := by
    rw [RelPath.map_key_parents hkey]
    exact List.mem_map.2 ⟨parent, hparent, rfl⟩
  obtain ⟨other, hother, hsame⟩ := List.mem_map.1 hmem
  rw [← ignores.excludes_directory_congr hsame]
  exact h other hother

/-- In a complete result no file and directory share a key. -/
theorem Covers.no_directory {tree : Tree} {ignores : IgnoreSet} {result : ScanResult}
    (h : Covers tree ignores result) {record : FileRecord} (hrecord : record ∈ result.files)
    {directory : DirRecord} (hdirectory : directory ∈ result.directories) {path : RelPath}
    (hpath : directory.relPath = some path) : path.key ≠ record.key := by
  intro hkey
  have hsame : path = record.relPath := by
    refine h.spelled path ?_ record.relPath ?_ hkey
    · simp only [ScanResult.paths, List.mem_append, List.mem_filterMap]
      exact Or.inl (Or.inr ⟨directory, hdirectory, hpath⟩)
    · simp only [ScanResult.paths, List.mem_append, List.mem_map]
      exact Or.inl (Or.inl ⟨record, hrecord, rfl⟩)
  obtain ⟨⟨file, hfile, hnot⟩, _⟩ := h.files record hrecord
  obtain ⟨⟨folder, hfolder, his⟩, _⟩ := h.directories directory hdirectory path hpath
  rw [hsame] at hfolder
  obtain rfl := Tree.has_unique hfile hfolder
  rw [hnot] at his
  exact Bool.false_ne_true (Except.ok.inj his)

variable [Digest]

/-- What a nonblocked operation of a plan takes away: a target file that no
source file claims, the old place of a move, or a directory. -/
inductive Removal (survey : Survey) (operation : PlanOperation) (removed : RelPath) : Prop
  | file (record : FileRecord) (hrecord : record ∈ survey.targetFiles)
      (hpath : record.relPath = removed)
      (hclaim : ∀ step ∈ survey.contentSteps survey.mkdirs.2,
        step.claimedTargetKey ≠ some removed.key)
  | moved (record : FileRecord) (hrecord : record ∈ survey.targetFiles)
      (hkey : record.key = removed.key)
      (hassigned : ∀ item ∈ survey.assignment.items, item.targetKey ≠ removed.key)
  | directory (record : DirRecord) (hkind : operation.kind = .delete)
      (hrecord : record ∈ survey.targetDirs) (hpath : record.relPath = some removed)
      (hrequired : ∀ path ∈ survey.requiredDirectoryPaths, path.key ≠ removed.key)
      (hin : survey.options.filters.excludes removed = false)

theorem removal_cases {survey : Survey} {operation : PlanOperation}
    (hmem : operation ∈ survey.operations) (hfree : operation.blocked = false)
    {removed : RelPath} (hremoved : removed ∈ operation.destructivePaths) :
    Removal survey operation removed := by
  unfold Survey.operations at hmem
  simp only [List.mem_append] at hmem
  obtain (((hmkdir | hcontent) | hremoval) | hunsupported) | hcleanup := hmem
  · simp [PlanOperation.destructivePaths, mem_mkdirs hmkdir] at hremoved
  · obtain ⟨step, hstep, rfl⟩ := List.mem_map.1 hcontent
    obtain ⟨item, _, hcase⟩ := mem_contentSteps hstep
    cases contentStep_cases hcase with
    | blocked hblocked _ _ =>
        rw [hfree] at hblocked
        exact absurd hblocked Bool.false_ne_true
    | matched _ _ hkind _ _ _ _ =>
        rw [hkind] at hremoved
        exact absurd hremoved List.not_mem_nil
    | copied hkind _ _ => simp [PlanOperation.destructivePaths, hkind] at hremoved
    | moved _ pair oldTarget hmove hdestroys _ _ =>
        rw [hdestroys, List.mem_singleton] at hremoved
        obtain ⟨hfiles, hassigned⟩ := movePair_spec hmove
        have hold : oldTarget ∈ filesAt survey.targetFiles pair.targetKey := by
          rw [hfiles]
          exact List.mem_singleton_self _
        obtain ⟨hold, hkey⟩ := mem_filesAt_iff.1 hold
        rw [hremoved]
        exact .moved oldTarget hold hkey hassigned
  · obtain ⟨record, hrecord, hclaim, _, _, hdestroys⟩ := mem_removals hremoval
    rw [hdestroys, List.mem_singleton] at hremoved
    refine .file record hrecord hremoved.symm ?_
    intro step hstep hclaimed
    exact hclaim (List.mem_filterMap.2 ⟨step, hstep, by rw [hclaimed, hremoved]⟩)
  · rw [mem_unsupportedOperations hunsupported] at hfree
    exact absurd hfree.symm Bool.false_ne_true
  · obtain ⟨record, hrecord, path, before, hpath, hkeep, rfl⟩ := mem_cleanupLoop hcleanup
    obtain rfl := List.mem_singleton.1 hremoved
    obtain ⟨hrequired, hin⟩ := keepsDirectory_eq_false hkeep
    exact .directory record rfl (mem_sortedBy.1 hrecord) hpath hrequired hin

section Tables

variable {source target : ScanResult} {correspondence : MappingSnapshot} {options : SyncOptions}

/-- A removed key belongs to a visible target entry that the filters let
through. -/
theorem Removal.visible {tree : Tree} {ignores : IgnoreSet} {operation : PlanOperation}
    {removed : RelPath}
    (h : Removal (survey source target correspondence options) operation removed)
    (hcovers : Covers tree ignores target) :
    Visible ignores removed ∧ options.filters.excludes removed = false := by
  cases h with
  | file record hrecord hpath _ =>
      obtain ⟨hrecord, hin⟩ := mem_targetFiles.1 hrecord
      rw [← hpath]
      exact ⟨(hcovers.files record hrecord).2, hin⟩
  | moved record hrecord hkey _ =>
      obtain ⟨hrecord, hin⟩ := mem_targetFiles.1 hrecord
      rw [options.filters.excludes_congr hkey] at hin
      exact ⟨(hcovers.files record hrecord).2.congr hkey, hin⟩
  | directory record _ hrecord hpath _ hin =>
      exact ⟨(hcovers.directories record (mem_targetDirs.1 hrecord).1 removed hpath).2, hin⟩

/-- A step for an item at the removed key is blocked: unblocked, it would
claim the target file, need the key free of directories, or be assigned. -/
theorem Removal.blocks_step {tables : Survey} {operation : PlanOperation} {removed : RelPath}
    (h : Removal tables operation removed)
    {item : DestinationAssignment} (hitem : item ∈ tables.assignment.items)
    (hkey : item.targetKey = removed.key) {step : ContentStep}
    (hstep : step ∈ tables.contentSteps tables.mkdirs.2)
    (hcase : ContentMove tables item step) :
    step.operation.blocked = true ∧ step.operation.targetKey = removed.key := by
  have hfile (hempty : filesAt tables.targetFiles item.targetKey = [])
      (hdirs : directoriesAt tables.targetDirs item.targetKey = []) : False := by
    cases h with
    | file record hrecord hpath _ =>
        have hin : record ∈ filesAt tables.targetFiles item.targetKey :=
          mem_filesAt_iff.2 ⟨hrecord, by rw [FileRecord.key, hpath, hkey]⟩
        rw [hempty] at hin
        exact absurd hin List.not_mem_nil
    | moved _ _ _ hassigned => exact hassigned item hitem hkey
    | directory record _ hrecord hpath _ _ =>
        have hin : record ∈ directoriesAt tables.targetDirs item.targetKey :=
          mem_directoriesAt_iff.2 ⟨hrecord, by rw [DirRecord.key, hpath, hkey]; rfl⟩
        rw [hdirs] at hin
        exact absurd hin List.not_mem_nil
  cases hcase with
  | blocked hblocked hpath _ =>
      refine ⟨hblocked, ?_⟩
      rw [PlanOperation.targetKey, hpath]
      exact hkey
  | moved _ _ _ _ _ hempty hdirs => exact absurd (hfile hempty hdirs) not_false
  | copied _ hempty hdirs => exact absurd (hfile hempty hdirs) not_false
  | matched found mismatch _ hfound hempty hclaim hdirs =>
      exfalso
      cases mismatch with
      | true => exact hfile (hempty rfl) hdirs
      | false =>
          -- The file found at the key is the one the step claims.
          have hfoundkey := (mem_filesAt_iff.1 hfound).2
          cases h with
          | file _ _ _ hclaims => exact hclaims step hstep (by rw [hclaim, hfoundkey, hkey])
          | moved _ _ _ hassigned => exact hassigned item hitem hkey
          | directory record _ hrecord hpath _ _ =>
              have hin : record ∈ directoriesAt tables.targetDirs item.targetKey :=
                mem_directoriesAt_iff.2 ⟨hrecord, by rw [DirRecord.key, hpath, hkey]; rfl⟩
              rw [hdirs] at hin
              exact absurd hin List.not_mem_nil

/-- At the key of a source file stands a blocked operation. -/
theorem Removal.blocked_by_file {operation : PlanOperation} {kept : FileRecord}
    {removed : RelPath}
    (hpolicy : options.destinationPolicy = identityDestinationPolicy)
    (hkept : kept ∈ (survey source target correspondence options).sourceFiles)
    (hkey : kept.key = removed.key)
    (h : Removal (survey source target correspondence options) operation removed) :
    ∃ blocker ∈ (survey source target correspondence options).operations,
      blocker.blocked = true ∧ blocker.targetKey = removed.key := by
  generalize hsurvey : survey source target correspondence options = tables at hkept h ⊢
  obtain ⟨item, hitem, hsource, htarget⟩ := mem_items_identity hpolicy (hsurvey ▸ hkept)
  rw [hsurvey] at hitem
  obtain ⟨step, hstep, hcase⟩ : ∃ step ∈ tables.contentSteps tables.mkdirs.2,
      tables.contentStep tables.mkdirs.2 item = some step :=
    contentSteps_covers hitem hkept (by rw [DestinationAssignment.sourceKey, hsource])
  have hblocks := h.blocks_step hitem (by rw [DestinationAssignment.targetKey, htarget, ← hkey])
    hstep (contentStep_cases hcase)
  refine ⟨step.operation, ?_, hblocks⟩
  unfold Survey.operations
  simp only [List.mem_append]
  exact Or.inl (Or.inl (Or.inl (Or.inr (List.mem_map.2 ⟨step, hstep, rfl⟩))))

/-- At the key of a source directory stands a blocked operation, if a target
file is removed there. -/
theorem Removal.blocked_by_directory {tree : Tree} {ignores : IgnoreSet} {kept removed : RelPath}
    {operation : PlanOperation} {record : DirRecord} (hcovers : Covers tree ignores target)
    (hrecord : record ∈ (survey source target correspondence options).sourceDirs)
    (hpath : record.relPath = some kept) (hkey : kept.key = removed.key)
    (h : Removal (survey source target correspondence options) operation removed) :
    ∃ blocker ∈ (survey source target correspondence options).operations,
      blocker.blocked = true ∧ blocker.targetKey = removed.key := by
  have hrequired : kept ∈ (survey source target correspondence options).requiredDirectoryPaths := by
    unfold Survey.requiredDirectoryPaths
    rw [List.mem_dedup, List.mem_append]
    exact Or.inl (List.mem_filterMap.2 ⟨record, hrecord, hpath⟩)
  have hfile {file : FileRecord}
      (hfile : file ∈ (survey source target correspondence options).targetFiles)
      (hfilekey : file.key = kept.key) :
      ∃ blocker ∈ (survey source target correspondence options).operations,
        blocker.blocked = true ∧ blocker.targetKey = removed.key := by
    have hfree : directoriesAt (survey source target correspondence options).targetDirs kept.key =
        [] := by
      rw [List.eq_nil_iff_forall_not_mem]
      intro directory hdirectory
      obtain ⟨hdirectory, hdirkey⟩ := mem_directoriesAt_iff.1 hdirectory
      obtain ⟨hdirectory, hsome⟩ := mem_targetDirs.1 hdirectory
      obtain ⟨path, hdirpath⟩ := Option.isSome_iff_exists.1 hsome
      refine hcovers.no_directory (mem_targetFiles.1 hfile).1 hdirectory hdirpath ?_
      rw [hfilekey, ← hdirkey, DirRecord.key, hdirpath]
      rfl
    obtain ⟨before, hblocker⟩ := mkdirs_covers hrequired hfree
    have hplace : filesAt (survey source target correspondence options).targetFiles kept.key ≠ [] :=
      List.ne_nil_of_mem (mem_filesAt_iff.2 ⟨hfile, hfilekey⟩)
    refine ⟨Survey.mkdirOperation _ before kept, ?_, mkdirOperation_blocked hplace, ?_⟩
    · unfold Survey.operations
      simp only [List.mem_append]
      exact Or.inl (Or.inl (Or.inl (Or.inl hblocker)))
    · rw [PlanOperation.targetKey, (mkdirOperation_kind _ before kept).2]
      exact hkey
  cases h with
  | file other hother hotherpath _ =>
      exact hfile hother (by rw [FileRecord.key, hotherpath, hkey])
  | moved other hother hotherkey _ => exact hfile hother (by rw [hotherkey, hkey])
  | directory _ _ _ _ hunwanted _ => exact absurd hkey (hunwanted kept hrequired)

end Tables

/-- **No deletion past a counterpart.**  Whatever the two trees, the faults
of the scans, the filters, the correspondence and the deletion policy are:
a selected operation takes nothing away at the key of an entry that exists
under the source root and is not ignored. -/
theorem counterpart_kept {source target : ScannerBackend} {sourceRoot targetRoot : Root}
    {ignores : IgnoreSet} {correspondence : MappingSnapshot} {options : SyncOptions}
    {scope : Scope} {result : Plan}
    (hpolicy : options.destinationPolicy = identityDestinationPolicy)
    (hplan : plan (scan source sourceRoot ignores) (scan target targetRoot ignores)
      correspondence options scope = .ok result)
    {operation : PlanOperation} (hmem : operation ∈ result.operations)
    (hselected : operation.opId ∈ (deriveExecutionSelection result).selection)
    {removed : RelPath} (hremoved : removed ∈ operation.destructivePaths)
    {entry : Entry} {kept : RelPath} (hentry : source.tree.root.Has kept.components entry)
    (hin : entry.ignoredAt ignores kept = false) : kept.key ≠ removed.key := by
  intro hkey
  obtain ⟨hoperations, hsource, htarget⟩ := plan_eq_ok hplan
  obtain ⟨hfree, hquarantine, hcomplete⟩ := selected_cases hmem hselected
  -- An operation that destroys is one that needs complete scans.
  have hrisky : operation.kind.incompleteScanUnsafe = true := by
    unfold PlanOperation.destructivePaths at hremoved
    split at hremoved <;> first | (next hkind => rw [hkind]; rfl) | simp at hremoved
  obtain ⟨hsourceComplete, htargetComplete⟩ := hcomplete hrisky
  rw [hsource] at hsourceComplete
  rw [htarget] at htargetComplete
  have hcoversSource := scan_covers (Bool.and_eq_true_iff.1 hsourceComplete).1
  have hcoversTarget := scan_covers (Bool.and_eq_true_iff.1 htargetComplete).1
  have hremoval := removal_cases (hoperations ▸ hmem) hfree hremoved
  obtain ⟨hvisible, hunfiltered⟩ := hremoval.visible hcoversTarget
  have hkeptUnfiltered : options.filters.excludes kept = false := by
    rw [options.filters.excludes_congr hkey]
    exact hunfiltered
  -- The entry of the source was recorded, and whichever record it is, it blocks the key.
  obtain ⟨blocker, hblocker, hblocked, hblockerKey⟩ : ∃ blocker ∈ result.operations,
      blocker.blocked = true ∧ blocker.targetKey = removed.key := by
    rw [hoperations]
    obtain ⟨record, hrecord, rfl⟩ | ⟨record, hrecord, hpath⟩ | ⟨record, hrecord, rfl⟩ :=
      hcoversSource.seen kept entry hentry (hvisible.congr hkey.symm) hin
    · exact hremoval.blocked_by_file hpolicy (mem_sourceFiles.2 ⟨hrecord, hkeptUnfiltered⟩) hkey
    · exact hremoval.blocked_by_directory hcoversTarget
        ((mem_sourceDirs hpath).2 ⟨hrecord, hkeptUnfiltered⟩) hpath hkey
    · generalize hsurvey : survey (scan source sourceRoot ignores) (scan target targetRoot ignores)
        correspondence options = tables
      have hrecord : record ∈ tables.source.unsupported ++ tables.target.unsupported := by
        rw [← hsurvey]
        exact List.mem_append_left _ hrecord
      have hfilters : tables.options.filters.excludes record.relPath = false := by
        rw [← hsurvey]
        exact hkeptUnfiltered
      obtain ⟨blocker, hblocker, hblocked, hpath⟩ :=
        unsupportedOperations_covers hrecord hfilters
      refine ⟨blocker, ?_, hblocked, by rw [PlanOperation.targetKey, hpath]; exact hkey⟩
      unfold Survey.operations
      simp only [List.mem_append]
      exact Or.inl (Or.inr hblocker)
  have hcaught := quarantined_of_blocked_target hfree hremoved hblocker hblocked hblockerKey
  rw [hquarantine] at hcaught
  exact Bool.false_ne_true hcaught

end Counterparts

/-! ## A placeholder and a stale file

The source holds one cloud placeholder, `Keep`; the target holds `keep` and
`old`.  Both target files are planned for the trash, and only `old` is
selected. -/

section Placeholder

local instance : Unicode := asciiUnicode

/-- The digests of the three operations of the plan and of the default
options. -/
local instance : Digest where
  operation kind _ target _ _ :=
    if kind = .noop then 0x03db9560e7ca0d2171ceb27c8666497a
    else if target = str "old" then 0x623396096113ea7e83cf503451b70da7
    else 0xb1cee0d42e5e7047535686da3cd690bd
  policy _ _ _ _ _ _ _ := str "b76cbc151bb77cf44410d52a81920a1d43824e657978598268e9074d4a4605ff"

def plainFile (name : String) (ino attributes : Nat) : Entry :=
  .node
    { name := str name
      isDir := .ok false
      isFile := .ok true
      stat := .ok { size := 3, mtimeNs := 1000, ino := ino, fileAttributes := attributes }
      lstat := .ok { size := 3, mtimeNs := 1000, ino := ino, fileAttributes := attributes } }
    []

/-- A tree of files. -/
def flatTree (entries : List Entry) (listing : IsListing entries)
    (leaf : ∀ entry ∈ entries, entry.children = []) : Tree :=
  have hleaf : ∀ names entry, (Folder.mk entries none).Has names entry → entry.children = [] := by
    intro names entry hhas
    induction hhas with
    | top h => exact leaf _ h
    | inside _ h ih =>
        rw [ih] at h
        exact absurd h List.not_mem_nil
  { root := ⟨entries, none⟩
    root_listing := listing
    listing := by
      intro names entry hhas
      rw [hleaf names entry hhas]
      exact ⟨List.nodup_nil, by simp⟩
    leaf := fun names entry hhas _ => hleaf names entry hhas }

def flatBackend (tree : Tree) (volumeId : VolumeId) : ScannerBackend where
  resolveRoot root := .ok root
  volumeSnapshot := .ok { volumeId := volumeId, evidence := {}, profile := ntfsProfile }
  rootLstat := .ok { size := 0, mtimeNs := 1000, ino := 5, fileAttributes := 0x10 }
  tree := tree

def placeholderSource : ScannerBackend :=
  flatBackend (flatTree [plainFile "Keep" 7 0x1400] ⟨by decide, by decide⟩ (by decide)) volumeA

def staleTarget : ScannerBackend :=
  flatBackend
    (flatTree [plainFile "keep" 8 0x20, plainFile "old" 9 0x20] ⟨by decide, by decide⟩ (by decide))
    volumeB

def keptPath : RelPath := .single (str "Keep") (by decide +kernel)

def stalePath : RelPath := .single (str "old") (by decide +kernel)

def placeholderPlan : Except PlanError Plan :=
  plan (scan placeholderSource sampleRoot {}) (scan staleTarget sampleRoot {}) {} {} .everything

/-- A selected operation takes the path away. -/
def Plan.takes (result : Plan) (path : RelPath) (operation : PlanOperation) : Bool :=
  decide (operation.opId ∈ (deriveExecutionSelection result).selection) &&
    decide (path ∈ operation.destructivePaths)

theorem counterpart_kept_placeholder :
    ∃ result operation, placeholderPlan = .ok result ∧ operation ∈ result.operations ∧
      operation.opId ∈ (deriveExecutionSelection result).selection ∧
      stalePath ∈ operation.destructivePaths ∧ keptPath.key ≠ stalePath.key := by
  have hrun : (match placeholderPlan with
      | .ok result => result.operations.any (result.takes stalePath)
      | .error _ => false) = true := by
    decide +kernel
  split at hrun
  · next result hplan =>
      obtain ⟨operation, hmem, htakes⟩ := List.any_eq_true.1 hrun
      simp only [Plan.takes, Bool.and_eq_true, decide_eq_true_eq] at htakes
      have hroot : plainFile "Keep" 7 0x1400 ∈ placeholderSource.tree.root.entries :=
        List.mem_cons_self
      have hentry : placeholderSource.tree.root.Has keptPath.components
          (plainFile "Keep" 7 0x1400) := Folder.Has.top hroot
      exact ⟨result, operation, hplan, hmem, htakes.1, htakes.2,
        counterpart_kept rfl hplan hmem htakes.1 htakes.2 hentry (by decide +kernel)⟩
  · exact absurd hrun Bool.false_ne_true

end Placeholder

end NamiSync
