/-
# `Db.Tracked` — the correspondence of one file over a run

A run records its operations one after the other.  The call for one file
leaves the only correspondence with its identity; the calls that spare the
rows of that correspondence keep it.

## What is proved

    Replaceable.run : a run whose calls succeed, one of which publishes the
      file, and whose other calls spare the file's two paths, leaves the file
      `Tracked` between its source path and its new target path

    AllSpared.tracked : a run that spares both paths leaves it tracked as it
      was

`Workflows.Renames` puts these together to whole histories of runs.

## The idea

A file is known to the ledger by its identity.  It is tracked if there is one
correspondence with this identity, and it pairs the row at the file's source
path with the row of its copy.  While a run publishes the file again this
fails for a moment: the call writes the source row under a new path and may
move the target row.  So the invariant before the call is weaker
(`Replaceable`): every correspondence of the file has one of its rows where
the call is going to write, and thus goes.  Calls before the publishing one
keep `Replaceable`, the publishing one turns it into `Tracked`, and the calls
after it keep that.

## What it is not

It says nothing of a run in which a call raises: such a run has no ledger
here.  And `AllSpared` is a condition on the calls, so a run that names the
file twice, or names one of its paths for another file, is not covered.
-/
import NamiSync.Db.Calls

namespace NamiSync

variable [Unicode]

namespace SyncRunRecorder

variable {recorder : SyncRunRecorder} {operation : PlanOperation} {ledger later : MainLedger}
  {call : RecordCall} {time : Utc}

/-- The run has a row for the operation. -/
def Settled (recorder : SyncRunRecorder) (ledger : MainLedger) (op : OpId) : Prop :=
  ∃ prior ∈ ledger.operations, prior.runId = recorder.runRowId ∧ prior.opToken = op

variable [PayloadHash]

/-! ## One command of a run

A command is refused and changes nothing, or it adds a row of `operations` and
applies the call. -/

/-- What `_record` does: nothing for an operation that has a row of the same
payload, and else what the call applies, with the row. -/
theorem record_outcome (h : recorder.record ledger call time = .ok later) :
    call.op ∈ recorder.command.selection ∧ ∃ operation,
      recorder.command.plan.operations.find? (·.opId = call.op) = some operation ∧
      operation.kind = call.kind ∧
      ((∃ prior, ledger.operations.find? (fun prior =>
            prior.runId = recorder.runRowId ∧ prior.opToken = call.op) = some prior ∧
          prior.payloadHash = PayloadHash.call recorder.command.runToken operation call ∧
          later = ledger) ∨
        ledger.operations.find? (fun prior =>
            prior.runId = recorder.runRowId ∧ prior.opToken = call.op) = none ∧
          ∃ applied, recorder.apply ledger operation call time = .ok applied ∧
            later = { applied with operations :=
              applied.operations ++ [recorder.operationRow operation call time] }) := by
  unfold record at h
  split at h
  · exact absurd h (by simp)
  · next hselected =>
      refine ⟨not_not.1 hselected, ?_⟩
      split at h
      · exact absurd h (by simp)
      · next operation hfind =>
          split at h
          · exact absurd h (by simp)
          · next hkind =>
              refine ⟨operation, hfind, not_not.1 hkind, ?_⟩
              dsimp only at h
              split at h
              · next prior hprior =>
                  split at h
                  · exact absurd h (by simp)
                  · next hhash =>
                      exact Or.inl ⟨prior, hprior, not_not.1 hhash, (Except.ok.inj h).symm⟩
              · next hnone =>
                  obtain ⟨applied, happlied, h⟩ := Checked.bind_eq_ok.1 h
                  exact Or.inr ⟨hnone, applied, happlied, (Except.ok.inj h).symm⟩

/-- The same of an operation that has any row. -/
theorem record_cases (h : recorder.record ledger call time = .ok later) :
    ∃ operation ∈ recorder.command.plan.operations, operation.opId = call.op ∧
      operation.kind = call.kind ∧
      (Settled recorder ledger call.op ∧ later = ledger ∨
        ¬ Settled recorder ledger call.op ∧ ∃ applied,
          recorder.apply ledger operation call time = .ok applied ∧
            later = { applied with operations :=
              applied.operations ++ [recorder.operationRow operation call time] }) := by
  obtain ⟨-, operation, hfind, hkind, hcases⟩ := record_outcome h
  have hid : operation.opId = call.op := by simpa using List.find?_some hfind
  refine ⟨operation, List.mem_of_find?_eq_some hfind, hid, hkind, ?_⟩
  rcases hcases with ⟨prior, hprior, -, hsame⟩ | ⟨hnone, happlied⟩
  · have hrow : prior.runId = recorder.runRowId ∧ prior.opToken = call.op := by
      simpa using List.find?_some hprior
    exact Or.inl ⟨⟨prior, List.mem_of_find?_eq_some hprior, hrow⟩, hsame⟩
  · refine Or.inr ⟨?_, happlied⟩
    rintro ⟨prior, hprior, hrow⟩
    exact absurd (List.find?_eq_none.1 hnone prior hprior) (by simpa using hrow)

/-- The calls of a run, one after the other. -/
def recordAll (recorder : SyncRunRecorder) (ledger : MainLedger) :
    List (RecordCall × Utc) → Except RecordingError MainLedger
  | [] => .ok ledger
  | (call, time) :: rest => do
      let ledger ← recorder.record ledger call time
      recorder.recordAll ledger rest

theorem recordAll_append {before after : List (RecordCall × Utc)}
    (h : recorder.recordAll ledger (before ++ after) = .ok later) :
    ∃ mid, recorder.recordAll ledger before = .ok mid ∧
      recorder.recordAll mid after = .ok later := by
  induction before generalizing ledger with
  | nil => exact ⟨ledger, rfl, h⟩
  | cons first rest ih =>
      obtain ⟨next, hnext, h⟩ := Checked.bind_eq_ok.1 h
      obtain ⟨mid, hmid, hafter⟩ := ih h
      exact ⟨mid, Checked.bind_eq_ok.2 ⟨next, hnext, hmid⟩, hafter⟩

/-- What every call keeps, the run keeps. -/
theorem recordAll_preserves {P : MainLedger → Prop} {calls : List (RecordCall × Utc)}
    (hstep : ∀ call ∈ calls, ∀ ledger later, recorder.record ledger call.1 call.2 = .ok later →
      P ledger → P later)
    (h : recorder.recordAll ledger calls = .ok later) (hledger : P ledger) : P later := by
  induction calls generalizing ledger with
  | nil =>
      obtain rfl := Except.ok.inj h
      exact hledger
  | cons first rest ih =>
      obtain ⟨next, hnext, h⟩ := Checked.bind_eq_ok.1 h
      exact ih (fun call hcall => hstep call (List.mem_cons_of_mem _ hcall)) h
        (hstep first List.mem_cons_self ledger next hnext hledger)

/-- A call changes nothing, or what its operation frames. -/
theorem record_frame
    (hne : recorder.command.sourceLocationId ≠ recorder.command.targetLocationId)
    (h : recorder.record ledger call time = .ok later) :
    later = ledger ∨ ∃ operation ∈ recorder.command.plan.operations, operation.opId = call.op ∧
      operation.kind = call.kind ∧ ∃ applied, Frame recorder operation ledger applied ∧
        (∀ target, call.published = some target →
          Publishes recorder operation (call.origin operation) target ledger applied) ∧
        later = { applied with operations :=
          applied.operations ++ [recorder.operationRow operation call time] } := by
  obtain ⟨operation, hmem, hid, hkind, ⟨-, hsame⟩ | ⟨-, applied, happlied, rfl⟩⟩ := record_cases h
  · exact Or.inl hsame
  · obtain ⟨hframe, hpublishes⟩ := apply_spec hne happlied
    exact Or.inr ⟨operation, hmem, hid, hkind, applied, hframe, hpublishes, rfl⟩

end SyncRunRecorder

open SyncRunRecorder

/-! ## The tracked file

What the ledger has of one file of a mapping: its two rows, and the pair of
them.  `Replaceable` is weaker: whatever pair of the file there is, the next
call about the file replaces it. -/

/-- A file of a mapping, by its identity. -/
structure TrackedFile where
  mappingId : Nat
  sourceLocationId : Nat
  targetLocationId : Nat
  identity : FileIdentity

namespace TrackedFile

variable {file : TrackedFile} {recorder : SyncRunRecorder} {operation : PlanOperation}
  {ledger later : MainLedger} {sourcePath targetPath origin : RelPath}
  {copyIdentity : Option FileIdentity}

/-- The correspondence is one of the file. -/
def Owns (file : TrackedFile) (pair : CorrespondenceRow) : Prop :=
  pair.mappingId = file.mappingId ∧ pair.sourceIdentity = file.identity

/-- The file has one correspondence, of the row at its source path and the
row of its copy. -/
structure Pairs (file : TrackedFile) (ledger : MainLedger) (sourcePath targetPath : RelPath)
    (copyIdentity : Option FileIdentity) (pair : CorrespondenceRow) : Prop where
  mem : pair ∈ ledger.correspondence
  owns : file.Owns pair
  source : ledger.Sits pair.sourceInventoryId file.sourceLocationId sourcePath
  target : ledger.Sits pair.targetInventoryId file.targetLocationId targetPath
  copy_eq : pair.targetIdentity = copyIdentity
  only : ∀ other ∈ ledger.correspondence, file.Owns other → other = pair

def Tracked (file : TrackedFile) (ledger : MainLedger) (sourcePath targetPath : RelPath)
    (copyIdentity : Option FileIdentity) : Prop :=
  ∃ pair, file.Pairs ledger sourcePath targetPath copyIdentity pair

/-- Every correspondence of the file has its source row at the source path
or its target row at the origin: a call that publishes the file replaces
it. -/
def Replaceable (file : TrackedFile) (ledger : MainLedger) (sourcePath origin : RelPath) : Prop :=
  ∀ pair ∈ ledger.correspondence, file.Owns pair →
    (∃ path, ledger.Sits pair.sourceInventoryId file.sourceLocationId path ∧
      path.key = sourcePath.key) ∨
    ∃ path, ledger.Sits pair.targetInventoryId file.targetLocationId path ∧ path.key = origin.key

/-- The rows of `operations` do not matter. -/
theorem Tracked.operations (h : file.Tracked ledger sourcePath targetPath copyIdentity)
    (rows : List OperationRow) :
    file.Tracked { ledger with operations := rows } sourcePath targetPath copyIdentity := by
  obtain ⟨pair, hmem, howns, hsource, htarget, hcopy, honly⟩ := h
  exact ⟨pair, hmem, howns, hsource, htarget, hcopy, honly⟩

theorem Tracked.replaceable (h : file.Tracked ledger sourcePath targetPath copyIdentity)
    {path origin : RelPath} (hkey : sourcePath.key = path.key ∨ targetPath.key = origin.key) :
    file.Replaceable ledger path origin := by
  obtain ⟨pair, hpair⟩ := h
  intro other hother howns
  obtain rfl := hpair.only other hother howns
  rcases hkey with hkey | hkey
  · exact Or.inl ⟨sourcePath, hpair.source, hkey⟩
  · exact Or.inr ⟨targetPath, hpair.target, hkey⟩

/-- The operation is not the file's, and names none of the keys. -/
structure Spared (file : TrackedFile) (recorder : SyncRunRecorder) (operation : PlanOperation)
    (keys : List (Nat × Str)) : Prop where
  identity_ne : operation.sourceExpected.bind FileStat.fileIdentity ≠ some file.identity
  names : ∀ key ∈ keys, ¬ Names recorder operation key

theorem Spared.mono {keys fewer : List (Nat × Str)} (h : file.Spared recorder operation keys)
    (hfewer : ∀ key ∈ fewer, key ∈ keys) : file.Spared recorder operation fewer :=
  ⟨h.identity_ne, fun key hkey => h.names key (hfewer key hkey)⟩

/-- A new correspondence is not the file's. -/
theorem Spared.old {keys : List (Nat × Str)} (h : file.Spared recorder operation keys)
    (hframe : Frame recorder operation ledger later) {pair : CorrespondenceRow}
    (hpair : pair ∈ later.correspondence) (howns : file.Owns pair) :
    pair ∈ ledger.correspondence := by
  rcases hframe.new pair hpair with hold | ⟨-, hnew⟩
  · exact hold
  · rw [howns.2] at hnew
    exact absurd hnew h.identity_ne

theorem Spared.tracked
    (h : file.Spared recorder operation
      [(file.sourceLocationId, sourcePath.key), (file.targetLocationId, targetPath.key)])
    (hframe : Frame recorder operation ledger later)
    (htracked : file.Tracked ledger sourcePath targetPath copyIdentity) :
    file.Tracked later sourcePath targetPath copyIdentity := by
  obtain ⟨pair, hpair⟩ := htracked
  have hsource : ¬ Names recorder operation (file.sourceLocationId, sourcePath.key) :=
    h.names _ (by simp)
  have htarget : ¬ Names recorder operation (file.targetLocationId, targetPath.key) :=
    h.names _ (by simp)
  refine ⟨pair, hframe.kept pair hpair.mem ?_, hpair.owns,
    (hframe.sits _ _ _ hsource).2 hpair.source,
    (hframe.sits _ _ _ htarget).2 hpair.target, hpair.copy_eq, ?_⟩
  · intro i locationId path hi hsits
    rcases hi with rfl | rfl
    · obtain ⟨rfl, rfl⟩ := hsits.path_eq hpair.source
      exact hsource
    · obtain ⟨rfl, rfl⟩ := hsits.path_eq hpair.target
      exact htarget
  · intro other hother howns
    exact hpair.only other (h.old hframe hother howns) howns

theorem Spared.replaceable
    (h : file.Spared recorder operation
      [(file.sourceLocationId, sourcePath.key), (file.targetLocationId, origin.key)])
    (hframe : Frame recorder operation ledger later)
    (hreplaceable : file.Replaceable ledger sourcePath origin) :
    file.Replaceable later sourcePath origin := by
  intro pair hpair howns
  rcases hreplaceable pair (h.old hframe hpair howns) howns with
    ⟨path, hsits, hkey⟩ | ⟨path, hsits, hkey⟩
  · refine Or.inl ⟨path, (hframe.sits _ _ _ ?_).2 hsits, hkey⟩
    rw [hkey]
    exact h.names _ (by simp)
  · refine Or.inr ⟨path, (hframe.sits _ _ _ ?_).2 hsits, hkey⟩
    rw [hkey]
    exact h.names _ (by simp)

/-- The recorder writes for the mapping and the locations of the file. -/
structure Records (file : TrackedFile) (recorder : SyncRunRecorder) : Prop where
  mapping_eq : recorder.command.mappingId = file.mappingId
  source_eq : recorder.command.sourceLocationId = file.sourceLocationId
  target_eq : recorder.command.targetLocationId = file.targetLocationId

/-- The call that publishes the file leaves its one correspondence. -/
theorem Replaceable.publish {target : FileStat}
    (h : file.Replaceable ledger sourcePath origin) (hrecords : file.Records recorder)
    (hpath : operation.sourceRelPath = some sourcePath)
    (hidentity : operation.sourceExpected.bind FileStat.fileIdentity = some file.identity)
    (hpublishes : Publishes recorder operation origin target ledger later) :
    file.Tracked later sourcePath operation.targetRelPath target.fileIdentity := by
  obtain ⟨-, hpairing⟩ := hpublishes
  obtain ⟨pair, hpair, hcopy⟩ := hpairing file.identity hidentity
  obtain ⟨path, hpath', hsource⟩ := hpair.source
  obtain rfl := Option.some.inj (hpath.symm.trans hpath')
  have hmine : pair.sourceIdentity = file.identity :=
    (Option.some.inj (hidentity.symm.trans hpair.identity)).symm
  refine ⟨pair, hpair.mem, ⟨hpair.mapping.trans hrecords.mapping_eq, hmine⟩, ?_, ?_, hcopy, ?_⟩
  · rw [← hrecords.source_eq]
    exact hsource
  · rw [← hrecords.target_eq]
    exact hpair.target
  · -- The new pair is the only one of the file.
    intro other hother howns
    rcases hpair.alone other hother (howns.1.trans hrecords.mapping_eq.symm) with
      rfl | ⟨hold, hsourceNe, htargetNe⟩
    · rfl
    · -- An older one had its row in the place of one of the two.
      rcases h other hold howns with ⟨old, hsits, hkey⟩ | ⟨old, hsits, hkey⟩
      · rw [← hrecords.source_eq] at hsits
        exact absurd (hpair.source_same _ _ _ hpath hsits hkey) hsourceNe
      · rw [← hrecords.target_eq] at hsits
        exact absurd (hpair.target_same _ _ hsits hkey) htargetNe

/-! ## Runs

A run that spares the file keeps the fact, call by call; a run that copies the
file establishes it. -/

variable [PayloadHash]

/-- The calls leave the keys and the operation of the file alone. -/
def AllSpared (file : TrackedFile) (recorder : SyncRunRecorder) (op : OpId)
    (keys : List (Nat × Str)) (calls : List (RecordCall × Utc)) : Prop :=
  ∀ call ∈ calls, call.1.op ≠ op ∧ ∀ operation ∈ recorder.command.plan.operations,
    operation.opId = call.1.op → file.Spared recorder operation keys

variable (hne : recorder.command.sourceLocationId ≠ recorder.command.targetLocationId)
  {op : OpId} {keys : List (Nat × Str)} {call : RecordCall} {time : Utc}

include hne

theorem AllSpared.tracked {calls : List (RecordCall × Utc)}
    (hspared : file.AllSpared recorder op
      [(file.sourceLocationId, sourcePath.key), (file.targetLocationId, targetPath.key)] calls)
    (h : recorder.recordAll ledger calls = .ok later)
    (htracked : file.Tracked ledger sourcePath targetPath copyIdentity) :
    file.Tracked later sourcePath targetPath copyIdentity := by
  refine recordAll_preserves
    (P := fun ledger => file.Tracked ledger sourcePath targetPath copyIdentity)
    (fun call hcall ledger later hrecord htracked => ?_) h htracked
  rcases record_frame hne hrecord with rfl | ⟨operation, hmem, hid, -, applied, hframe, -, rfl⟩
  · exact htracked
  · exact (((hspared call hcall).2 operation hmem hid).tracked hframe htracked).operations _

theorem AllSpared.replaceable {calls : List (RecordCall × Utc)}
    (hspared : file.AllSpared recorder op
      [(file.sourceLocationId, sourcePath.key), (file.targetLocationId, origin.key)] calls)
    (h : recorder.recordAll ledger calls = .ok later)
    (hreplaceable : file.Replaceable ledger sourcePath origin) :
    file.Replaceable later sourcePath origin := by
  refine recordAll_preserves (P := fun ledger => file.Replaceable ledger sourcePath origin)
    (fun call hcall ledger later hrecord hreplaceable => ?_) h hreplaceable
  rcases record_frame hne hrecord with rfl | ⟨operation, hmem, hid, -, applied, hframe, -, rfl⟩
  · exact hreplaceable
  · have happlied : file.Replaceable applied sourcePath origin :=
      ((hspared call hcall).2 operation hmem hid).replaceable hframe hreplaceable
    exact happlied

/-- The calls for other operations leave no row for this one. -/
theorem AllSpared.unsettled {calls : List (RecordCall × Utc)}
    (hspared : file.AllSpared recorder op keys calls)
    (h : recorder.recordAll ledger calls = .ok later) (hfresh : ¬ Settled recorder ledger op) :
    ¬ Settled recorder later op := by
  refine recordAll_preserves (P := fun ledger => ¬ Settled recorder ledger op)
    (fun call hcall ledger later hrecord hfresh => ?_) h hfresh
  rcases record_frame hne hrecord with rfl | ⟨operation, hmem, hid, -, applied, hframe, -, rfl⟩
  · exact hfresh
  · rintro ⟨prior, hprior, hrun, hop⟩
    rcases List.mem_append.1 hprior with hold | hnew
    · rw [hframe.operations_eq] at hold
      exact hfresh ⟨prior, hold, hrun, hop⟩
    · rw [List.mem_singleton.1 hnew] at hop
      exact (hspared call hcall).1 hop

/-- A run that publishes the file tracks it afterwards. -/
theorem Replaceable.run {before after : List (RecordCall × Utc)} {target : FileStat}
    (hreplaceable : file.Replaceable ledger sourcePath (call.origin operation))
    (hrecords : file.Records recorder) (hfresh : ¬ Settled recorder ledger call.op)
    (h : recorder.recordAll ledger (before ++ (call, time) :: after) = .ok later)
    (hoperation : operation ∈ recorder.command.plan.operations) (hid : operation.opId = call.op)
    (hpath : operation.sourceRelPath = some sourcePath)
    (hidentity : operation.sourceExpected.bind FileStat.fileIdentity = some file.identity)
    (hpublished : call.published = some target)
    (hbefore : file.AllSpared recorder call.op [(file.sourceLocationId, sourcePath.key),
      (file.targetLocationId, (call.origin operation).key)] before)
    (hafter : file.AllSpared recorder call.op [(file.sourceLocationId, sourcePath.key),
      (file.targetLocationId, operation.targetRelPath.key)] after) :
    file.Tracked later sourcePath operation.targetRelPath target.fileIdentity := by
  -- The calls before the file's own keep what can be replaced, its own call publishes, and
  -- the calls after it keep what was published.
  obtain ⟨mid, hmid, h⟩ := recordAll_append h
  obtain ⟨next, hnext, h⟩ := Checked.bind_eq_ok.1 h
  have hunsettled := hbefore.unsettled hne hmid hfresh
  rcases record_cases hnext with
    ⟨recorded, hrecorded, hrecordedId, -, ⟨hsettled, -⟩ | ⟨-, applied, happlied, rfl⟩⟩
  · exact absurd hsettled hunsettled
  · obtain rfl := recorder.command.plan.eq_of_opId hrecorded hoperation
      (hrecordedId.trans hid.symm)
    have hpublishes := (apply_spec hne happlied).2 target hpublished
    have htracked := (hbefore.replaceable hne hmid hreplaceable).publish hrecords hpath hidentity
      hpublishes
    exact hafter.tracked hne h (htracked.operations _)

end TrackedFile

end NamiSync
