/-
# `Workflows.Renames` — what the planner is told about a renamed file

A history of recorded runs keeps one correspondence for a file, so the
snapshot has one pair for it.  Whether the planner may use the pair depends
on the rows that carry the file's identity: `_record_move` writes a source row
at the new name and leaves the one at the old name as it was.

## What is proved

    History.renames_detected : after every history of runs of a tracked file, a
      rename of the source file is planned as a rename of its copy, exactly when
      the ledger has each of the two identities in one row, no source file has
      the old name, and no target file has the new one up to normalization

`CarriedOnce` is about the inventory; a run that renames the copy breaks it,
since the row at the old source name stays.  So the first rename is detected
and the second is not (`second_rename_undetected`): the file is copied again.

## The argument

`Db.Tracked` gives the correspondence after each run, so the snapshot has one
pair for the file (`Tracked.pairs`).  With it the planner's side is
`Modules.MovePlan`: the copy is found unless one of the conditions fails.
-/
import NamiSync.Db.Repositories
import NamiSync.Db.Tracked
import NamiSync.Modules.MovePlan

namespace NamiSync

section Renames

variable [Unicode]

/-! ## Listings

A scan with distinct keys, seen through the planner's tables. -/

omit [Unicode] in
theorem filter_sorted_filter {α β : Type} [LinearOrder β] {key : α → β} {values : List α}
    {p q : α → Bool} {a : α} (h : values.filter p = [a]) (hq : q a = true) :
    ((sortedBy key values).filter q).filter p = [a] := by
  have hperm : ((values.filter q).filter p).Perm [a] := by
    rw [List.filter_comm, h, List.filter_singleton, hq]
    exact List.Perm.refl _
  exact List.perm_singleton.1
    ((((List.perm_insertionSort _ _).filter q).filter p).trans hperm)

theorem filesAt_eq {files : List FileRecord} {filters : FilterSet} {key : Str} {record : FileRecord}
    (h : files.filter (·.key = key) = [record]) (hin : filters.excludes record.relPath = false) :
    filesAt ((sortedBy (fun record => recordKey record.relPath) files).filter
      fun record => !filters.excludes record.relPath) key = [record] := by
  unfold filesAt
  rw [filter_sorted_filter h (by rw [hin]; rfl)]
  rfl

theorem identityCount_eq {files : List FileRecord} {filters : FilterSet}
    {identity : FileIdentity} {record : FileRecord}
    (h : files.filter (·.fileIdentity = some identity) = [record])
    (hin : filters.excludes record.relPath = false) :
    identityCount ((sortedBy (fun record => recordKey record.relPath) files).filter
      fun record => !filters.excludes record.relPath) identity = 1 := by
  unfold identityCount
  rw [filter_sorted_filter h (by rw [hin]; rfl)]
  rfl

theorem directoriesAt_eq {directories : List DirRecord} {filters : FilterSet}
    {directory : DirRecord} {path : RelPath}
    (h : directories.filter (·.key = path.key) = [directory])
    (hpath : directory.relPath = some path) (hin : filters.excludes path = false) :
    directoriesAt ((sortedBy directoryKey directories).filter fun record =>
      match record.relPath with
      | none => false
      | some path => !filters.excludes path) path.key = [directory] := by
  unfold directoriesAt
  rw [filter_sorted_filter h (by simp only [hpath, hin]; rfl)]
  rfl

/-! ## The snapshot

What the ledger says to the planner: the pairs of the correspondence with their
paths.  A pair is left out when an identity of it is disqualified, that is when
a second row of the location carries it, or a row with several links;
`CarriedOnce` says that neither is the case. -/

namespace MainLedger

variable {ledger : MainLedger} {locationId : Nat} {identity : FileIdentity}

/-- At most one row of the location carries the identity, and none of them
says that the file has other names. -/
def CarriedOnce (ledger : MainLedger) (locationId : Nat) (identity : FileIdentity) : Prop :=
  (ledger.carriers locationId identity).length ≤ 1 ∧
    ∀ row ∈ ledger.carriers locationId identity, ∀ stat ∈ row.observed, stat.nlink ≤ 1

theorem disqualifies_eq_false :
    ledger.disqualifies locationId identity = false ↔ ledger.CarriedOnce locationId identity := by
  simp only [disqualifies, CarriedOnce, Bool.or_eq_false_iff, decide_eq_false_iff_not,
    List.any_eq_false, Bool.not_eq_true, Option.any_eq_false, Option.mem_def, Nat.not_lt]

theorem mem_disqualifiedIdentities :
    identity ∈ ledger.disqualifiedIdentities locationId ↔
      ¬ ledger.CarriedOnce locationId identity := by
  rw [← disqualifies_eq_false, Bool.not_eq_false]
  unfold disqualifiedIdentities
  rw [List.mem_filter, List.mem_dedup, and_iff_right_iff_imp]
  intro h
  -- A group that is disqualified has a row.
  have hne : ledger.carriers locationId identity ≠ [] := by
    intro hnil
    simp [disqualifies, hnil] at h
  obtain ⟨row, hrow⟩ := List.exists_mem_of_ne_nil _ hne
  obtain ⟨hmem, hcarries⟩ := List.mem_filter.1 hrow
  simp only [Bool.and_eq_true, decide_eq_true_eq, Option.any_eq_true] at hcarries
  obtain ⟨hloc, stat, hstat, hidentity⟩ := hcarries
  refine List.mem_filterMap.2 ⟨row, List.mem_filter.2 ⟨hmem, by simpa using hloc⟩, ?_⟩
  rw [hstat]
  simpa using hidentity

theorem mappingSnapshot_spec {mappingId : Nat} {snapshot : MappingSnapshot}
    (h : ledger.mappingSnapshot mappingId = some snapshot) :
    ∃ mapping, ledger.mappings.get? mappingId = some mapping ∧
      snapshot.sourceVolumeId = ledger.locations.get? mapping.sourceLocationId ∧
      snapshot.targetVolumeId = ledger.locations.get? mapping.targetLocationId ∧
      snapshot.pairs = ledger.mappingPairs mappingId ∧ snapshot.ambiguousSourceKeys = [] ∧
      snapshot.disqualifiedSourceIdentities =
        ledger.disqualifiedIdentities mapping.sourceLocationId ∧
      snapshot.disqualifiedTargetIdentities =
        ledger.disqualifiedIdentities mapping.targetLocationId := by
  obtain ⟨mapping, hmapping, h⟩ := Option.bind_eq_some_iff.1 h
  split at h
  · exact absurd h (by simp)
  · obtain ⟨sourceVolume, hsource, h⟩ := Option.bind_eq_some_iff.1 h
    obtain ⟨targetVolume, htarget, h⟩ := Option.bind_eq_some_iff.1 h
    obtain rfl := Option.some.inj h
    exact ⟨mapping, hmapping, hsource.symm, htarget.symm, rfl, rfl, rfl, rfl⟩

/-- A key names one row of a location. -/
theorem find_of_sits {i : Nat} {path : RelPath} (h : ledger.Sits i locationId path) :
    ∃ row, ledger.inventory.find? (·.id = i) = some row ∧ row.relPath = path := by
  obtain ⟨row, hrow, rfl, -, rfl⟩ := h
  cases hfind : ledger.inventory.find? (·.id = row.id) with
  | none => exact absurd (List.find?_eq_none.1 hfind row hrow) (by simp)
  | some found =>
      have hid : found.id = row.id := by simpa using List.find?_some hfind
      exact ⟨found, rfl, congrArg InventoryRow.relPath
        (ledger.inventory_keyed.eq_of_id (List.mem_of_find?_eq_some hfind) hrow hid)⟩

/-- No pair stands in the ledger twice. -/
theorem correspondence_nodup : ledger.correspondence.Nodup :=
  ledger.correspondence_distinct.imp fun h heq => (h (congrArg _ heq)).1 (congrArg _ heq)

end MainLedger

open MainLedger SyncRunRecorder

namespace TrackedFile

variable {file : TrackedFile} {ledger : MainLedger} {sourcePath targetPath : RelPath}
  {copyIdentity : Option FileIdentity}

/-- The pair that the planner gets for a tracked file. -/
def snapshotPair (file : TrackedFile) (sourcePath targetPath : RelPath)
    (copyIdentity : Option FileIdentity) : MappingPair where
  sourceRelPathKey := sourcePath.key
  targetRelPath := targetPath
  sourceIdentity := file.identity
  targetIdentity := copyIdentity

theorem Tracked.pairs (h : file.Tracked ledger sourcePath targetPath copyIdentity) :
    (ledger.mappingPairs file.mappingId).filter (·.sourceIdentity = file.identity) =
      [file.snapshotPair sourcePath targetPath copyIdentity] := by
  obtain ⟨pair, hmem, ⟨hmapping, hidentity⟩, hsource, htarget, hcopy, honly⟩ := h
  have halone : ledger.correspondence.filter
      (fun other => decide (other.sourceIdentity = file.identity) &&
        decide (other.mappingId = file.mappingId)) = [pair] := by
    refine List.perm_singleton.1 ((List.perm_ext_iff_of_nodup
      (correspondence_nodup.filter _) (List.nodup_singleton _)).2 fun other => ?_)
    rw [List.mem_filter, List.mem_singleton, Bool.and_eq_true, decide_eq_true_eq, decide_eq_true_eq]
    constructor
    · rintro ⟨hother, hown, hof⟩
      exact honly other hother ⟨hof, hown⟩
    · rintro rfl
      exact ⟨hmem, hidentity, hmapping⟩
  obtain ⟨source, hfindSource, hsourcePath⟩ := find_of_sits hsource
  obtain ⟨target, hfindTarget, htargetPath⟩ := find_of_sits htarget
  have hjoined : ledger.joined pair = some (source, target) := by
    unfold joined
    rw [hfindSource, hfindTarget]
  refine List.perm_singleton.1 (((List.perm_insertionSort _ _).filter _).trans (List.Perm.of_eq ?_))
  rw [List.filter_filterMap]
  have hrow : ∀ other, (ledger.pairRow other).filter (·.sourceIdentity = file.identity) =
      if decide (other.sourceIdentity = file.identity) then ledger.pairRow other else none := by
    intro other
    unfold pairRow
    cases ledger.joined other with
    | none => simp
    | some rows =>
        by_cases hown : other.sourceIdentity = file.identity
        · simp [Option.filter, hown]
        · simp [Option.filter, hown]
  rw [List.filterMap_congr fun other _ => hrow other, ← List.filterMap_filter, List.filter_filter,
    halone]
  simp [pairRow, hjoined, hsourcePath, htargetPath, hidentity, hcopy, snapshotPair]

/-- The locations are those of the mapping. -/
theorem Tracked.locations (h : file.Tracked ledger sourcePath targetPath copyIdentity)
    {mapping : MappingRow} (hmapping : ledger.mappings.get? file.mappingId = some mapping) :
    mapping.sourceLocationId = file.sourceLocationId ∧
      mapping.targetLocationId = file.targetLocationId := by
  obtain ⟨pair, hmem, ⟨hown, -⟩, ⟨source, hsource, hsid, hsloc, -⟩,
    ⟨target, htarget, htid, htloc, -⟩, -, -⟩ := h
  obtain ⟨joined, hjoined, ⟨source', hsource', hsid', hsloc'⟩, target', htarget', htid', htloc'⟩ :=
    ledger.correspondence_joins pair hmem
  rw [hown, hmapping] at hjoined
  obtain rfl := Option.some.inj hjoined
  obtain rfl := ledger.inventory_keyed.eq_of_id hsource hsource' (hsid.trans hsid'.symm)
  obtain rfl := ledger.inventory_keyed.eq_of_id htarget htarget' (htid.trans htid'.symm)
  exact ⟨hsloc'.symm.trans hsloc, htloc'.symm.trans htloc⟩

/-! ## The next rename

One plan from one ledger.  `Renamed` is what the two scans show: the file under
another key and nowhere else, its copy where the ledger has it, and a free place
at the new path. -/

/-- The scans after a rename: the file is alone with its identity and its
link, its copy is where it was, and the new path is free on the target. -/
structure Renamed (file : TrackedFile) (ledger : MainLedger) (options : SyncOptions)
    (source target : ScanResult) (record copy : FileRecord) (targetPath : RelPath)
    (copyIdentity : FileIdentity) : Prop where
  identityPolicy : options.destinationPolicy = identityDestinationPolicy
  stable : source.profile.stableFileIdentity = true ∧ target.profile.stableFileIdentity = true
  sourceVolume : ∃ volume, source.volumeId = some volume ∧
    ledger.locations.get? file.sourceLocationId = some volume ∧
    file.identity.volumeSerial = volume.serial
  targetVolume : ∃ volume, target.volumeId = some volume ∧
    ledger.locations.get? file.targetLocationId = some volume ∧
    copyIdentity.volumeSerial = volume.serial
  visible : options.filters.excludes record.relPath = false
  identity_eq : record.fileIdentity = some file.identity
  nlink_eq : record.nlink = 1
  key_alone : source.files.filter (·.key = record.key) = [record]
  identity_alone : source.files.filter (·.fileIdentity = some file.identity) = [record]
  renamed : record.key ≠ targetPath.key
  copyVisible : options.filters.excludes copy.relPath = false
  copyIdentity_eq : copy.fileIdentity = some copyIdentity
  copyNlink_eq : copy.nlink = 1
  copyKey_alone : target.files.filter (·.key = targetPath.key) = [copy]
  copyIdentity_alone : target.files.filter (·.fileIdentity = some copyIdentity) = [copy]
  freeOfFiles : ∀ other ∈ target.files, other.key ≠ record.key
  freeOfDirectories : ∀ other ∈ target.directories, other.key ≠ record.key
  folders : ∀ parent ∈ record.relPath.parents, (∀ other ∈ target.files, other.key ≠ parent.key) ∧
    ∃ directory, source.directories.filter (·.key = parent.key) = [directory] ∧
      directory.relPath = some parent

namespace Renamed

variable {options : SyncOptions} {source target : ScanResult} {record copy : FileRecord}
  {snapshot : MappingSnapshot}

/-- The planner finds the new path free. -/
theorem unmatched {identity : FileIdentity}
    (h : Renamed file ledger options source target record copy targetPath identity) :
    Unmatched (survey source target snapshot options) record where
  identityPolicy := by
    have hpolicy := h.identityPolicy
    simp only [survey, hpolicy]
  source_eq := filesAt_eq h.key_alone h.visible
  targetFiles_eq := by
    refine List.eq_nil_iff_forall_not_mem.2 fun other hother => ?_
    obtain ⟨hmem, hkey⟩ := mem_filesAt_iff.1 hother
    exact h.freeOfFiles other (mem_targetFiles.1 hmem).1 hkey
  targetDirs_eq := by
    refine List.eq_nil_iff_forall_not_mem.2 fun other hother => ?_
    obtain ⟨hmem, hkey⟩ := mem_directoriesAt_iff.1 hother
    exact h.freeOfDirectories other (mem_targetDirs.1 hmem).1 hkey
  folders := by
    intro parent hparent
    obtain ⟨hfiles, directory, hdirectory, hpath⟩ := h.folders parent hparent
    constructor
    · refine List.eq_nil_iff_forall_not_mem.2 fun other hother => ?_
      obtain ⟨hmem, hkey⟩ := mem_filesAt_iff.1 hother
      exact hfiles other (mem_targetFiles.1 hmem).1 hkey
    · exact ⟨directory, directoriesAt_eq hdirectory hpath
        (options.filters.excludes_parent h.visible hparent)⟩

/-- The planner finds the copy under the name that the snapshot has. -/
theorem hadCopy {identity : FileIdentity}
    (h : Renamed file ledger options source target record copy targetPath identity)
    (htracked : file.Tracked ledger sourcePath targetPath (some identity))
    (hsnapshot : ledger.mappingSnapshot file.mappingId = some snapshot) :
    HadCopy (survey source target snapshot options) record record.key
      (file.snapshotPair sourcePath targetPath (some identity)) copy file.identity identity := by
  obtain ⟨sourceVolume, hsource, hsourceLocation, hsourceSerial⟩ := h.sourceVolume
  obtain ⟨targetVolume, htarget, htargetLocation, htargetSerial⟩ := h.targetVolume
  obtain ⟨mapping, hmapping, hsourceVolume, htargetVolume, hpairs, hambiguous, -, -⟩ :=
    mappingSnapshot_spec hsnapshot
  obtain ⟨hsourceEq, htargetEq⟩ := htracked.locations hmapping
  exact {
    identity_eq := h.identity_eq
    nlink_eq := h.nlink_eq
    alone := identityCount_eq h.identity_alone h.visible
    stable := h.stable
    sourceVolume := ⟨sourceVolume, hsource,
      by rw [← hsourceLocation, ← hsourceEq]; exact hsourceVolume, hsourceSerial⟩
    targetVolume := ⟨targetVolume, htarget,
      by rw [← htargetLocation, ← htargetEq]; exact htargetVolume, htargetSerial⟩
    unambiguous := by
      rw [show (survey source target snapshot options).correspondence = snapshot from rfl,
        hambiguous]
      exact List.not_mem_nil
    pairs_eq := by
      rw [show (survey source target snapshot options).correspondence = snapshot from rfl, hpairs]
      exact htracked.pairs
    pair_identity := fun expected hexpected => Option.some.inj hexpected
    renamed := h.renamed.symm
    copy_eq := filesAt_eq h.copyKey_alone h.copyVisible
    copyIdentity_eq := h.copyIdentity_eq
    copyNlink_eq := h.copyNlink_eq
    copyAlone := identityCount_eq h.copyIdentity_alone h.copyVisible }

end Renamed

/-! ## Histories

Any number of runs, each planned from the ledger that the run before has left.
What is tracked along them is that a correspondence pairs rows which stand where
the snapshot says; the next rename is then that of the section before. -/

variable [PayloadHash] {later : MainLedger}

/-- A recorded run: the calls of its operations, one of which publishes the
file.  Each operation is recorded once, and no other names a path that the
file or its copy had or gets. -/
structure Run (file : TrackedFile) (ledger later : MainLedger) where
  recorder : SyncRunRecorder
  before : List (RecordCall × Utc)
  call : RecordCall
  time : Utc
  after : List (RecordCall × Utc)
  operation : PlanOperation
  sourcePath : RelPath
  published : FileStat
  context : validateRunContext ledger recorder.command = .ok ()
  mapping_eq : recorder.command.mappingId = file.mappingId
  source_eq : recorder.command.sourceLocationId = file.sourceLocationId
  target_eq : recorder.command.targetLocationId = file.targetLocationId
  fresh : ∀ row ∈ ledger.operations, row.runId ≠ recorder.runRowId
  recorded : recorder.recordAll ledger (before ++ (call, time) :: after) = .ok later
  operation_mem : operation ∈ recorder.command.plan.operations
  opId_eq : operation.opId = call.op
  kind_eq : operation.kind = call.kind
  path_eq : operation.sourceRelPath = some sourcePath
  identity_eq : operation.sourceExpected.bind FileStat.fileIdentity = some file.identity
  published_eq : call.published = some published
  spared : file.AllSpared recorder call.op
    [(file.sourceLocationId, sourcePath.key), (file.targetLocationId, (call.origin operation).key),
      (file.targetLocationId, operation.targetRelPath.key)] (before ++ after)

/-- The plan of the run was made with the snapshot of the ledger. -/
def Run.Planned [Digest] (run : Run file ledger later) : Prop :=
  ∃ source target snapshot options scope, ledger.mappingSnapshot file.mappingId = some snapshot ∧
    plan source target snapshot options scope = .ok run.recorder.command.plan

/-- What runs leave of a file that is copied once, and then kept or renamed
with a run after every rename that renames the copy: the ledger, the paths of
the file and its copy, and the identity of the copy. -/
inductive History [Digest] (file : TrackedFile) :
    MainLedger → RelPath → RelPath → Option FileIdentity → Prop
  | copied {ledger later : MainLedger} (run : Run file ledger later)
      (hkind : run.operation.kind = .copy)
      (hnew : ∀ pair ∈ ledger.correspondence, ¬ file.Owns pair) :
      History file later run.sourcePath run.operation.targetRelPath run.published.fileIdentity
  | kept {ledger later : MainLedger} {sourcePath targetPath : RelPath}
      {copyIdentity : Option FileIdentity}
      (h : History file ledger sourcePath targetPath copyIdentity) (run : Run file ledger later)
      (hkey : run.sourcePath.key = sourcePath.key) :
      History file later run.sourcePath run.operation.targetRelPath run.published.fileIdentity
  | renamed {ledger later : MainLedger} {sourcePath targetPath : RelPath}
      {copyIdentity : Option FileIdentity}
      (h : History file ledger sourcePath targetPath copyIdentity) (run : Run file ledger later)
      (hplanned : run.Planned) (hkind : run.operation.kind.renames = true) :
      History file later run.sourcePath run.operation.targetRelPath run.published.fileIdentity

/-- The locations of a mapping differ. -/
theorem Run.locations_ne (run : Run file ledger later) :
    run.recorder.command.sourceLocationId ≠ run.recorder.command.targetLocationId := by
  have hcontext := run.context
  unfold validateRunContext at hcontext
  split at hcontext
  · exact absurd hcontext (by simp)
  · next mapping _ =>
      split at hcontext
      · exact absurd hcontext (by simp)
      · split at hcontext
        · exact absurd hcontext (by simp)
        · next hlocations =>
            obtain ⟨hsource, htarget⟩ := not_or.1 hlocations
            rw [← not_not.1 hsource, ← not_not.1 htarget]
            exact mapping.distinct

/-- A run that replaces what there is of the file tracks it. -/
theorem Run.tracked (run : Run file ledger later)
    (h : file.Replaceable ledger run.sourcePath (run.call.origin run.operation)) :
    file.Tracked later run.sourcePath run.operation.targetRelPath run.published.fileIdentity := by
  have hspared := run.spared
  refine h.run run.locations_ne ⟨run.mapping_eq, run.source_eq, run.target_eq⟩ ?_ run.recorded
    run.operation_mem run.opId_eq run.path_eq run.identity_eq run.published_eq ?_ ?_
  · rintro ⟨prior, hprior, hrun, -⟩
    exact run.fresh prior hprior hrun
  · intro call hcall
    obtain ⟨hne, hoperation⟩ := hspared call (List.mem_append_left _ hcall)
    exact ⟨hne, fun operation hmem hid => (hoperation operation hmem hid).mono (by simp)⟩
  · intro call hcall
    obtain ⟨hne, hoperation⟩ := hspared call (List.mem_append_right _ hcall)
    exact ⟨hne, fun operation hmem hid => (hoperation operation hmem hid).mono (by simp)⟩

/-- The pair of a move is the file's. -/
theorem Run.origin_eq [Digest] {sourcePath targetPath : RelPath} (run : Run file ledger later)
    (htracked : file.Tracked ledger sourcePath targetPath copyIdentity) (hplanned : run.Planned)
    (hkind : run.operation.kind.renames = true) :
    run.call.origin run.operation = targetPath := by
  obtain ⟨source, target, snapshot, options, scope, hsnapshot, hplan⟩ := hplanned
  have hmem := run.operation_mem
  rw [(plan_eq_ok hplan).1] at hmem
  obtain ⟨step, hstep, hoperation⟩ := renaming_step hmem hkind
  obtain ⟨item, -, hcontent⟩ := mem_contentSteps hstep
  rw [← hoperation] at hkind
  obtain ⟨record, -, pair, copy, hmove, -, hexpected, -, hprior, -⟩ :=
    contentStep_renames hcontent hkind
  obtain ⟨identity, hidentity, hpairs⟩ := movePair_pair hmove
  rw [hoperation] at hexpected hprior hkind
  obtain rfl : identity = file.identity := by
    have hmine := run.identity_eq
    rw [hexpected, Option.bind_some] at hmine
    exact Option.some.inj (hidentity.symm.trans hmine)
  have hpair : pair = file.snapshotPair sourcePath targetPath copyIdentity := by
    obtain ⟨mapping, -, -, -, hsnapshotPairs, -⟩ := mappingSnapshot_spec hsnapshot
    have hcorrespondence : (survey source target snapshot options).correspondence = snapshot := rfl
    rw [hcorrespondence, hsnapshotPairs, htracked.pairs] at hpairs
    exact (List.singleton_inj.1 hpairs).symm
  have horigin : run.call.origin run.operation =
      run.operation.priorTargetRelPath.getD run.operation.targetRelPath := by
    rw [run.kind_eq] at hkind
    cases hcall : run.call with
    | moved op target => rfl
    | recased op target => rfl
    | moveUpdated op attestation => rfl
    | copied op attestation | updated op attestation | mkdir op target | trashed op path target
    | deleted op prior | noop op source target =>
        rw [hcall] at hkind
        exact absurd hkind Bool.false_ne_true
  rw [horigin, hprior, hpair]
  rfl

/-- The file is tracked after every history. -/
theorem History.tracked [Digest] {sourcePath targetPath : RelPath}
    (h : History file ledger sourcePath targetPath copyIdentity) :
    file.Tracked ledger sourcePath targetPath copyIdentity := by
  induction h with
  | copied run _ hnew => exact run.tracked fun pair hpair howns => absurd howns (hnew pair hpair)
  | kept _ run hkey ih => exact run.tracked (ih.replaceable (Or.inl hkey.symm))
  | renamed _ run hplanned hkind ih =>
      refine run.tracked (ih.replaceable (Or.inr ?_))
      rw [run.origin_eq ih hplanned hkind]

/-- After every history, a rename is planned as one exactly if the ledger has
the identities in one row each, no source file has the old name, and no name
on the target is the new one up to normalization. -/
theorem History.renames_detected [Digest] {sourcePath targetPath : RelPath}
    {identity : FileIdentity}
    {options : SyncOptions} {source target : ScanResult} {record copy : FileRecord}
    {snapshot : MappingSnapshot} {scope : Scope} {result : Plan}
    (h : History file ledger sourcePath targetPath (some identity))
    (hrenamed : Renamed file ledger options source target record copy targetPath identity)
    (hsnapshot : ledger.mappingSnapshot file.mappingId = some snapshot)
    (hplan : plan source target snapshot options scope = .ok result) :
    (∃ operation ∈ result.operations, operation.sourceRelPath = some record.relPath ∧
        operation.kind.renames = true) ↔
      ledger.CarriedOnce file.sourceLocationId file.identity ∧
        ledger.CarriedOnce file.targetLocationId identity ∧
        (∀ other ∈ source.files, options.filters.excludes other.relPath = false →
          other.key ≠ targetPath.key) ∧
        (survey source target snapshot options).normalizationPair (identityItem record) = none := by
  have htracked := h.tracked
  have hunmatched : Unmatched (survey source target snapshot options) record :=
    hrenamed.unmatched
  obtain ⟨mapping, hmapping, -, -, -, -, hsourceIds, htargetIds⟩ := mappingSnapshot_spec hsnapshot
  obtain ⟨hsourceEq, htargetEq⟩ := htracked.locations hmapping
  rw [(plan_eq_ok hplan).1, hunmatched.renames_iff,
    (hrenamed.hadCopy htracked hsnapshot).movePair_isSome]
  have hsource : file.identity ∉ (survey source target snapshot
      options).correspondence.disqualifiedSourceIdentities ↔
        ledger.CarriedOnce file.sourceLocationId file.identity := by
    rw [show (survey source target snapshot options).correspondence = snapshot from rfl, hsourceIds,
      hsourceEq, mem_disqualifiedIdentities, not_not]
  have htarget : identity ∉ (survey source target snapshot
      options).correspondence.disqualifiedTargetIdentities ↔
        ledger.CarriedOnce file.targetLocationId identity := by
    rw [show (survey source target snapshot options).correspondence = snapshot from rfl, htargetIds,
      htargetEq, mem_disqualifiedIdentities, not_not]
  -- An item of the identity policy has the path of its file.
  have hassigned : (∀ item ∈ (survey source target snapshot options).assignment.items,
      item.targetKey ≠ (file.snapshotPair sourcePath targetPath (some identity)).targetKey) ↔
        ∀ other ∈ source.files, options.filters.excludes other.relPath = false →
          other.key ≠ targetPath.key := by
    constructor
    · intro hfree other hother hvisible
      exact hfree (identityItem other) (by
        rw [hunmatched.items_eq]
        exact List.mem_map_of_mem (mem_sortedBy.2 (mem_sourceFiles.2 ⟨hother, hvisible⟩)))
    · intro hfree item hitem
      obtain ⟨other, hother, rfl⟩ := hunmatched.mem_items hitem
      obtain ⟨hother, hvisible⟩ := mem_sourceFiles.1 hother
      exact hfree other hother hvisible
  rw [hsource, htarget, hassigned]
  constructor
  · rintro ⟨hpair, hboth, hcopy, hfree⟩
    exact ⟨hboth, hcopy, hfree, hpair⟩
  · rintro ⟨hboth, hcopy, hfree, hpair⟩
    exact ⟨hpair, hboth, hcopy, hfree⟩

end TrackedFile

end Renames

/-! A file is copied as `a`, renamed to `b`, and renamed again to `c`. -/

section Sample

local instance renameUnicode : Unicode := asciiUnicode

/-- The digests of the operations for the three names. -/
local instance renameDigest : Digest where
  operation kind _ target _ _ :=
    match kind with
    | .move => 0x82d767871b0031dbfd458fded723dd32
    | .trash => 0x616fd55f78012cc5def6a168d08d7627
    | _ =>
        if target = str "a" then 0x3c6f3a3319d889fc7c0fa9dd4e881a4b
        else 0x167da62d5499f2364fe04f7ddd049654
  policy _ _ _ _ _ _ _ := str "b76cbc151bb77cf44410d52a81920a1d43824e657978598268e9074d4a4605ff"

local instance renamePayloadHash : PayloadHash where
  call runToken _ _ :=
    if runToken = str "first" then
      str "acf2ea14d0bbec253cba1bbaa18df19acde5794b7075d04772a5d2aa2d287e16"
    else str "e9fc6f5172d4f27b46987f665fc969c536b3f2d0ceee7300b5c9095ae0c62a1b"

def pathA : RelPath := .single (str "a") (by decide +kernel)

def pathB : RelPath := .single (str "b") (by decide +kernel)

def pathC : RelPath := .single (str "c") (by decide +kernel)

def letterFile : TrackedFile := ⟨1, 1, 2, volumeA.identity 7⟩

def copyIdentity : FileIdentity := volumeB.identity 8

def letterRecord (relPath : RelPath) (identity : FileIdentity) : FileRecord where
  relPath := relPath
  size := 3
  mtimeNs := 1700000000000000000
  fileIdentity := some identity
  nlink := 1
  metadata := ⟨0x20, some 1690000000000000000⟩

/-- A scan of a volume that holds the file under one name, or not at all. -/
def letterScan (volume : VolumeId) (identity : FileIdentity) (relPaths : List RelPath) :
    ScanResult :=
  sampleScan (some volume) (relPaths.map fun relPath => letterRecord relPath identity)

abbrev letterSource (relPath : RelPath) : ScanResult :=
  letterScan volumeA letterFile.identity [relPath]

abbrev letterTarget (relPaths : List RelPath) : ScanResult :=
  letterScan volumeB copyIdentity relPaths

/-- The plan for the name, with the snapshot of the ledger. -/
def letterPlan (ledger : MainLedger) (relPath : RelPath) (copies : List RelPath) : Option Plan := do
  let snapshot ← ledger.mappingSnapshot 1
  (plan (letterSource relPath) (letterTarget copies) snapshot {} .everything).toOption

theorem letterPlan_planned {ledger : MainLedger} {relPath : RelPath} {copies : List RelPath}
    {result : Plan} (h : letterPlan ledger relPath copies = some result) :
    ∃ snapshot, ledger.mappingSnapshot 1 = some snapshot ∧
      plan (letterSource relPath) (letterTarget copies) snapshot {} .everything = .ok result := by
  obtain ⟨snapshot, hsnapshot, h⟩ := Option.bind_eq_some_iff.1 h
  refine ⟨snapshot, hsnapshot, ?_⟩
  cases hplan : plan (letterSource relPath) (letterTarget copies) snapshot {} .everything with
  | error error =>
      rw [hplan] at h
      exact absurd h (by simp [Except.toOption])
  | ok planned =>
      rw [hplan] at h
      exact congrArg Except.ok (Option.some.inj h)

def letterRecorder (runToken : String) (htoken : str runToken ≠ []) (runRowId : Nat)
    (result : Plan) : SyncRunRecorder where
  command :=
    { runToken := str runToken
      hostId := 1
      mappingId := 1
      sourceLocationId := 1
      targetLocationId := 2
      plan := result
      selection := result.operations.map PlanOperation.opId
      startedAt := 1704067200000000
      runToken_ne := htoken
      selection_known := fun _ h => h }
  runRowId := runRowId

def copiedPlan : Plan := (letterPlan emptyLedger pathA []).get (by decide +kernel)

def copyStat : FileStat := (letterRecord pathA copyIdentity).stat

def copiedCall : RecordCall :=
  .copied 0x3c6f3a3319d889fc7c0fa9dd4e881a4b
    { content := abcEvidence 1704067200000000
      subject := copyStat }

theorem copiedToken_ne : str "first" ≠ [] := by decide

theorem movedToken_ne : str "second" ≠ [] := by decide

def copiedRecorder : SyncRunRecorder := letterRecorder "first" copiedToken_ne 1 copiedPlan

def copiedLedger : MainLedger :=
  (copiedRecorder.recordAll emptyLedger [(copiedCall, 1704067200000000)]).toOption.get
    (by decide +kernel)

def copyOperation : PlanOperation := copiedPlan.operations.head (by decide +kernel)

def copiedRun : TrackedFile.Run letterFile emptyLedger copiedLedger where
  recorder := copiedRecorder
  before := []
  call := copiedCall
  time := 1704067200000000
  after := []
  operation := copyOperation
  sourcePath := pathA
  published := copyStat
  context := by rfl
  mapping_eq := rfl
  source_eq := rfl
  target_eq := rfl
  fresh := by decide
  recorded := Checked.ok_of_get _
  operation_mem := List.head_mem _
  opId_eq := by decide +kernel
  kind_eq := by decide +kernel
  path_eq := by decide +kernel
  identity_eq := by decide +kernel
  published_eq := rfl
  spared := fun call h => absurd h List.not_mem_nil

theorem copied_history :
    TrackedFile.History letterFile copiedLedger pathA pathA (some copyIdentity) := by
  have htarget : copyOperation.targetRelPath = pathA := by decide +kernel
  have h := TrackedFile.History.copied copiedRun (by decide +kernel)
    fun _ hpair => absurd hpair List.not_mem_nil
  exact htarget ▸ h

/-- A scan after a rename, of the file and its copy under their names. -/
theorem letter_renamed {ledger : MainLedger} {newPath oldPath : RelPath}
    (hsource : ledger.locations.get? 1 = some volumeA)
    (htarget : ledger.locations.get? 2 = some volumeB) (hne : newPath.key ≠ oldPath.key)
    (htop : newPath.parents = []) :
    TrackedFile.Renamed letterFile ledger {} (letterSource newPath) (letterTarget [oldPath])
      (letterRecord newPath letterFile.identity) (letterRecord oldPath copyIdentity) oldPath
      copyIdentity where
  identityPolicy := rfl
  stable := ⟨rfl, rfl⟩
  sourceVolume := ⟨volumeA, rfl, hsource, rfl⟩
  targetVolume := ⟨volumeB, rfl, htarget, rfl⟩
  visible := rfl
  identity_eq := rfl
  nlink_eq := rfl
  key_alone := by simp [letterScan, sampleScan, letterRecord]
  identity_alone := by simp [letterScan, sampleScan, letterRecord]
  renamed := hne
  copyVisible := rfl
  copyIdentity_eq := rfl
  copyNlink_eq := rfl
  copyKey_alone := by simp [letterScan, sampleScan, letterRecord]
  copyIdentity_alone := by simp [letterScan, sampleScan, letterRecord]
  freeOfFiles := by
    intro other hother
    obtain rfl := List.mem_singleton.1 hother
    exact hne.symm
  freeOfDirectories := fun _ h => absurd h List.not_mem_nil
  folders := by
    intro parent hparent
    rw [show (letterRecord newPath letterFile.identity).relPath = newPath from rfl, htop] at hparent
    exact absurd hparent List.not_mem_nil

def movedPlan : Plan := (letterPlan copiedLedger pathB [pathA]).get (by decide +kernel)

def moveOperation : PlanOperation := movedPlan.operations.head (by decide +kernel)

theorem detected_first_rename :
    ∃ operation ∈ movedPlan.operations, operation.sourceRelPath = some pathB ∧
      operation.kind.renames = true := by
  have hmoved : letterPlan copiedLedger pathB [pathA] = some movedPlan := by
    unfold movedPlan
    rw [Option.some_get]
  obtain ⟨snapshot, hsnapshot, hplan⟩ := letterPlan_planned hmoved
  refine (TrackedFile.History.renames_detected copied_history (letter_renamed (by decide +kernel)
    (by decide +kernel) (by decide +kernel) (by decide +kernel)) hsnapshot hplan).2
      ⟨⟨by decide +kernel, by decide +kernel⟩, ⟨by decide +kernel, by decide +kernel⟩, ?_, rfl⟩
  intro other hother _
  obtain rfl := List.mem_singleton.1 hother
  decide +kernel

/-! The second rename: the ledger has the file's identity at `a` and at `b`. -/

def movedRecorder : SyncRunRecorder := letterRecorder "second" movedToken_ne 2 movedPlan

def movedCall : RecordCall := .moved 0x82d767871b0031dbfd458fded723dd32 copyStat

def movedLedger : MainLedger :=
  (movedRecorder.recordAll copiedLedger [(movedCall, 1704070800000000)]).toOption.get
    (by decide +kernel)

def movedRun : TrackedFile.Run letterFile copiedLedger movedLedger where
  recorder := movedRecorder
  before := []
  call := movedCall
  time := 1704070800000000
  after := []
  operation := moveOperation
  sourcePath := pathB
  published := copyStat
  context := by rfl
  mapping_eq := rfl
  source_eq := rfl
  target_eq := rfl
  fresh := by decide +kernel
  recorded := Checked.ok_of_get _
  operation_mem := List.head_mem _
  opId_eq := by decide +kernel
  kind_eq := by decide +kernel
  path_eq := by decide +kernel
  identity_eq := by decide +kernel
  published_eq := rfl
  spared := fun call h => absurd h List.not_mem_nil

theorem moved_history :
    TrackedFile.History letterFile movedLedger pathB pathB (some copyIdentity) := by
  have htarget : moveOperation.targetRelPath = pathB := by decide +kernel
  have hmoved : letterPlan copiedLedger pathB [pathA] = some movedPlan := by
    unfold movedPlan
    rw [Option.some_get]
  obtain ⟨snapshot, hsnapshot, hplan⟩ := letterPlan_planned hmoved
  have h := TrackedFile.History.renamed copied_history movedRun
    ⟨_, _, snapshot, {}, .everything, hsnapshot, hplan⟩ (by decide +kernel)
  exact htarget ▸ h

def copiedAgainPlan : Plan := (letterPlan movedLedger pathC [pathB]).get (by decide +kernel)

theorem second_rename_undetected :
    ∃ snapshot, TrackedFile.History letterFile movedLedger pathB pathB (some copyIdentity) ∧
      movedLedger.mappingSnapshot 1 = some snapshot ∧
      plan (letterSource pathC) (letterTarget [pathB]) snapshot {} .everything =
        .ok copiedAgainPlan ∧
      TrackedFile.Renamed letterFile movedLedger {} (letterSource pathC) (letterTarget [pathB])
        (letterRecord pathC letterFile.identity) (letterRecord pathB copyIdentity) pathB
        copyIdentity ∧
      copiedAgainPlan.operations.map PlanOperation.kind = [.copy, .trash] := by
  have hagain : letterPlan movedLedger pathC [pathB] = some copiedAgainPlan := by
    unfold copiedAgainPlan
    rw [Option.some_get]
  obtain ⟨snapshot, hsnapshot, hplan⟩ := letterPlan_planned hagain
  exact ⟨snapshot, moved_history, hsnapshot, hplan, letter_renamed (by decide +kernel)
    (by decide +kernel) (by decide +kernel) (by decide +kernel), by decide +kernel⟩

end Sample

end NamiSync
