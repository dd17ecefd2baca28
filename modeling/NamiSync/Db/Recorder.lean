/-
# `Db.Recorder` — what a run writes into the ledger

The run-bound half of `db/recorder.py`: `SyncRunRecorder` and the statements
it issues.  A call is one transaction; where it raises, the ledger stays as
it was, which the result type says.

## How a call is built

Each call is a sequence of statements in `Except RecordError`, with the
ledger passed along: the first that raises ends it, and the caller keeps the
ledger it had.  A statement returns a `MainLedger`, whose fields carry what
the schema's constraints promise (keys, foreign keys, the two unique
constraints of `correspondence`), so each statement proves that it keeps
them, and no later proof has to.
-/
import NamiSync.Core.Execution
import NamiSync.Db.Ledger
import NamiSync.Lib.Checked

namespace NamiSync

section Statements

variable [Unicode]

/-- The row that `_upsert_observation` inserts. -/
def insertedRow (locationId hostId : Nat) (scopeToken : Str) (relPath : RelPath) (stat : FileStat)
    (time : Utc) (id : Nat) : InventoryRow where
  id := id
  locationId := locationId
  relPath := relPath
  presence := .present
  observed := some stat
  lastObservedAt := time
  hostId := hostId
  scopeToken := scopeToken

/-- What it makes of a row that is there. -/
def observedRow (hostId : Nat) (scopeToken : Str) (relPath : RelPath) (stat : FileStat)
    (time : Utc) (row : InventoryRow) : InventoryRow :=
  { row with
    relPath := relPath
    presence := .present
    observed := some stat
    lastObservedAt := time
    hostId := hostId
    scopeToken := scopeToken
    reappearedAt := if row.presence = .missing then some time else row.reappearedAt
    missingSince := none
    acknowledgedAt := none
    unsupportedReason := none }

/-- The `UPDATE` at the end of `_move_target_row`. -/
def movedRow (hostId : Nat) (scopeToken : Str) (relPath : RelPath) (stat : FileStat) (time : Utc)
    (row : InventoryRow) : InventoryRow :=
  { row with
    relPath := relPath
    presence := .present
    observed := some stat
    lastObservedAt := time
    hostId := hostId
    scopeToken := scopeToken
    missingSince := none
    acknowledgedAt := none
    reappearedAt := none
    unsupportedReason := none }

/-- `_row_matches_stat`: of an unsupported row no column matches. -/
def rowMatchesStat (row : InventoryRow) (stat : FileStat) : Bool := row.observed = some stat

namespace MainLedger

variable (ledger : MainLedger)

/-- Put other rows in place of the inventory; none disappears or changes its
location. -/
def withInventory (rows : List InventoryRow) (hkeyed : Table.Keyed rows)
    (hkept : ∀ row ∈ ledger.inventory, ∃ row' ∈ rows, row'.id = row.id ∧
      row'.locationId = row.locationId) : MainLedger :=
  { ledger with
    inventory := rows
    inventory_keyed := hkeyed
    correspondence_joins := fun pair hpair =>
      (ledger.correspondence_joins pair hpair).mono fun row hrow _ => hkept row hrow }

/-- `UPDATE inventory … WHERE id = ?` of columns that neither number nor key
depends on. -/
def amendRow (id : Nat) (f : InventoryRow → InventoryRow)
    (hf : ∀ row, (f row).id = row.id ∧ (f row).key = row.key) : MainLedger :=
  ledger.withInventory (Table.change (fun row => row.id = id) f ledger.inventory)
    (ledger.inventory_keyed.change_same (fun row _ _ => (hf row).1) fun row _ _ => (hf row).2) (by
      intro row hrow
      by_cases h : row.id = id
      · exact ⟨f row, Table.mem_change.2 (Or.inl ⟨row, hrow, h, rfl⟩), (hf row).1,
          congrArg Prod.fst (hf row).2⟩
      · exact ⟨row, Table.mem_change.2 (Or.inr ⟨hrow, h⟩), rfl, rfl⟩)

/-- `_upsert_observation`, with the number of the row it leaves. -/
def upsertObservation (locationId hostId : Nat) (scopeToken : Str) (relPath : RelPath)
    (stat : FileStat) (time : Utc) : Nat × MainLedger :=
  let key := (locationId, relPath.key)
  let insert := insertedRow locationId hostId scopeToken relPath stat time
  let update := observedRow hostId scopeToken relPath stat time
  ((Table.upserted key insert update ledger.inventory).id,
    ledger.withInventory (Table.upsert key insert update ledger.inventory)
      (ledger.inventory_keyed.upsert (fun _ => ⟨rfl, rfl⟩) fun old hold =>
        ⟨rfl, Prod.ext (show old.locationId = locationId from congrArg Prod.fst hold) rfl⟩) (by
        intro row hrow
        by_cases h : row.key = key
        · refine ⟨update row, (Table.mem_upsert ledger.inventory_keyed).2 (Or.inl ?_), rfl, rfl⟩
          have hfind := (Table.find_eq_some ledger.inventory_keyed).2 ⟨hrow, h⟩
          rw [Table.upserted, hfind]
        · exact ⟨row, (Table.mem_upsert ledger.inventory_keyed).2 (Or.inr ⟨hrow, h⟩), rfl, rfl⟩))

/-- `_store_attestation`. -/
def storeAttestation (rowId : Nat) (attestation : Attestation) : MainLedger :=
  ledger.amendRow rowId (fun row => { row with attestation := some attestation })
    fun _ => ⟨rfl, rfl⟩

/-- `DELETE FROM inventory WHERE id = ?`, which cascades. -/
def deleteRow (id : Nat) : MainLedger :=
  { ledger with
    inventory := ledger.inventory.filter fun row => row.id ≠ id
    correspondence := ledger.correspondence.filter fun pair =>
      pair.sourceInventoryId ≠ id && pair.targetInventoryId ≠ id
    inventory_keyed := ledger.inventory_keyed.sublist List.filter_sublist
    correspondence_distinct := ledger.correspondence_distinct.sublist List.filter_sublist
    correspondence_joins := by
      intro pair hpair
      obtain ⟨hmem, hne⟩ := List.mem_filter.1 hpair
      simp only [ne_eq, Bool.and_eq_true, decide_eq_true_eq] at hne
      refine (ledger.correspondence_joins pair hmem).mono fun row hrow hid => ?_
      refine ⟨row, List.mem_filter.2 ⟨hrow, ?_⟩, rfl, rfl⟩
      rcases hid with hid | hid
      · simpa [hid] using hne.1
      · simpa [hid] using hne.2 }

/-- No other row has the key that the row with the number is to get. -/
def KeyFree (id : Nat) (relPath : RelPath) : Prop :=
  ∀ row ∈ ledger.inventory, row.id = id → ∀ other ∈ ledger.inventory,
    other.key = (row.locationId, relPath.key) → other.id = id

instance (id : Nat) (relPath : RelPath) : Decidable (ledger.KeyFree id relPath) :=
  inferInstanceAs (Decidable (∀ row ∈ ledger.inventory, _ → ∀ other ∈ ledger.inventory, _ → _))

/-- The end of `_move_target_row` for a row that is there. -/
def moveRow (id hostId : Nat) (scopeToken : Str) (relPath : RelPath) (stat : FileStat)
    (time : Utc) : Except RecordingError MainLedger :=
  if h : ledger.KeyFree id relPath then
    .ok (ledger.withInventory
      (Table.change (fun row => row.id = id) (movedRow hostId scopeToken relPath stat time)
        ledger.inventory)
      (ledger.inventory_keyed.change (fun _ _ _ => rfl) (by
        intro a ha b hb hida hkey
        by_cases hidb : b.id = id
        · exact ledger.inventory_keyed.eq_of_id ha hb (hida.trans hidb.symm)
        · rw [if_neg hidb] at hkey
          exact absurd (h a ha hida b hb hkey.symm) hidb)) (by
        intro row hrow
        by_cases hid : row.id = id
        · exact ⟨_, Table.mem_change.2 (Or.inl ⟨row, hrow, hid, rfl⟩), rfl, rfl⟩
        · exact ⟨row, Table.mem_change.2 (Or.inr ⟨hrow, hid⟩), rfl, rfl⟩))
  else .error (.constraint (str "UNIQUE constraint failed"))

end MainLedger

end Statements

/-! ## A run -/

section Run

variable [Unicode]

/-- `SyncRunCommand`; its digest of the selection is left out. -/
structure SyncRunCommand where
  runToken : Str
  hostId : Nat
  mappingId : Nat
  sourceLocationId : Nat
  targetLocationId : Nat
  plan : Plan
  selection : List OpId
  startedAt : Utc
  runToken_ne : runToken ≠ []
  selection_known : ∀ id ∈ selection, id ∈ plan.operations.map PlanOperation.opId

/-- What `_validate_run_context` raises. -/
inductive MappingValidationError
  | unavailable | locations | sourceVolume | targetVolume
  deriving DecidableEq, Repr

/-- `_same_volume`, of a location's volume. -/
def sameVolume (location volumeId : Option VolumeId) : Bool :=
  volumeId.isSome && decide (location = volumeId)

/-- `_validate_run_context`. -/
def validateRunContext (ledger : MainLedger) (command : SyncRunCommand) :
    Except MappingValidationError Unit :=
  match ledger.mappings.get? command.mappingId with
  | none => .error .unavailable
  | some mapping =>
      if mapping.deletedAt.isSome then .error .unavailable
      else if mapping.sourceLocationId ≠ command.sourceLocationId ∨
          mapping.targetLocationId ≠ command.targetLocationId then .error .locations
      else if sameVolume (ledger.locations.get? command.sourceLocationId)
          command.plan.sourceVolumeId = false then .error .sourceVolume
      else if sameVolume (ledger.locations.get? command.targetLocationId)
          command.plan.targetVolumeId = false then .error .targetVolume
      else .ok ()

/-- The calls of the executor's recorder. -/
inductive RecordCall
  | copied (op : OpId) (attestation : Attestation)
  | updated (op : OpId) (attestation : Attestation)
  | moved (op : OpId) (target : FileStat)
  | recased (op : OpId) (target : FileStat)
  | moveUpdated (op : OpId) (attestation : Attestation)
  | mkdir (op : OpId) (target : FileStat)
  | trashed (op : OpId) (trashRelativePath : RelPath) (target : FileStat)
  | deleted (op : OpId) (prior : FileStat)
  | noop (op : OpId) (source target : FileStat)
  deriving DecidableEq

namespace RecordCall

def op : RecordCall → OpId
  | copied op _ | updated op _ | moved op _ | recased op _ | moveUpdated op _ | mkdir op _
  | trashed op _ _ | deleted op _ | noop op _ _ => op

/-- `expected_kind`. -/
def kind : RecordCall → OperationKind
  | copied _ _ => .copy
  | updated _ _ => .update
  | moved _ _ => .move
  | recased _ _ => .recase
  | moveUpdated _ _ => .moveUpdate
  | mkdir _ _ => .mkdir
  | trashed _ _ _ => .trash
  | deleted _ _ => .delete
  | noop _ _ _ => .noop

def trashRelativePath : RecordCall → Option RelPath
  | trashed _ path _ => some path
  | _ => none

end RecordCall

/-- The hash of what a call says: `_payload_hash` of the run token, the
operation, the evidence and the trash path. -/
class PayloadHash where
  call : Str → PlanOperation → RecordCall → Str

/-- `SyncRunRecorder`. -/
structure SyncRunRecorder where
  command : SyncRunCommand
  runRowId : Nat

namespace SyncRunRecorder

variable (recorder : SyncRunRecorder) (ledger : MainLedger) (operation : PlanOperation)

/-- `_upsert_observation` of a path of the source. -/
def observeSource (relPath : RelPath) (stat : FileStat) (time : Utc) : Nat × MainLedger :=
  ledger.upsertObservation recorder.command.sourceLocationId recorder.command.hostId
    recorder.command.runToken relPath stat time

/-- `_upsert_observation` of a path of the target. -/
def observeTarget (relPath : RelPath) (stat : FileStat) (time : Utc) : Nat × MainLedger :=
  ledger.upsertObservation recorder.command.targetLocationId recorder.command.hostId
    recorder.command.runToken relPath stat time

/-- `_matches_intended`. -/
def matchesIntended (actual : FileStat) : Bool :=
  match operation.intended with
  | none => true
  | some intended =>
      actual.kind = intended.kind && actual.size = intended.size &&
        actual.mtimeNs = intended.mtimeNs

/-- The row that `_record_correspondence` inserts. -/
def correspondenceRow (sourceId targetId : Nat) (identity : FileIdentity) (target : FileStat)
    (time : Utc) : CorrespondenceRow where
  mappingId := recorder.command.mappingId
  sourceInventoryId := sourceId
  targetInventoryId := targetId
  sourceIdentity := identity
  targetIdentity := target.fileIdentity
  lastSeenAt := time
  runToken := recorder.command.runToken
  opToken := operation.opId

/-- `_record_correspondence`. -/
def recordCorrespondence (sourceId targetId : Nat) (source target : FileStat) (time : Utc) :
    Except RecordingError MainLedger :=
  match source.fileIdentity with
  | none => .ok ledger
  | some identity =>
      let pair := recorder.correspondenceRow operation sourceId targetId identity target time
      let replaced (other : CorrespondenceRow) : Bool :=
        other.mappingId = recorder.command.mappingId &&
          (other.sourceInventoryId = sourceId || other.targetInventoryId = targetId)
      if hjoins : Joins ledger.mappings ledger.inventory pair then
        .ok { ledger with
          correspondence := (ledger.correspondence.filter fun other => !replaced other) ++ [pair]
          correspondence_distinct := by
            refine List.pairwise_append.2 ⟨ledger.correspondence_distinct.sublist
              List.filter_sublist, List.pairwise_singleton _ _, ?_⟩
            intro first hfirst last hlast hmapping
            rw [List.mem_singleton.1 hlast] at hmapping ⊢
            have hkept := (List.mem_filter.1 hfirst).2
            simp only [replaced, hmapping, pair, correspondenceRow, decide_true, Bool.true_and,
              Bool.not_or, Bool.and_eq_true, Bool.not_eq_true', decide_eq_false_iff_not] at hkept
            exact hkept
          correspondence_joins := by
            intro other hother
            rcases List.mem_append.1 hother with hkept | hnew
            · exact ledger.correspondence_joins other (List.mem_filter.1 hkept).1
            · rw [List.mem_singleton.1 hnew]
              exact hjoins }
      else .error (.constraint (str "correspondence location mismatch"))

/-- `_record_copy_like`. -/
def recordCopyLike (attestation : Attestation) (time : Utc) : Except RecordingError MainLedger :=
  let incomplete := RecordingError.stale (str "copy evidence is incomplete or not copy-attested")
  match operation.sourceRelPath, operation.sourceExpected with
  | some sourceRelPath, some sourceExpected =>
      if attestation.content.provenance ≠ .copyAttested ∨
          attestation.content.size ≠ attestation.subject.size ∨
          attestation.content.size ≠ sourceExpected.size ∨
          attestation.subject.kind ≠ .file ∨
          matchesIntended operation attestation.subject = false then .error incomplete
      else
        let (sourceId, ledger) := recorder.observeSource ledger sourceRelPath sourceExpected time
        let (targetId, ledger) :=
          recorder.observeTarget ledger operation.targetRelPath attestation.subject time
        recorder.recordCorrespondence (ledger.storeAttestation targetId attestation) operation
          sourceId targetId sourceExpected attestation.subject time
  | _, _ => .error incomplete

/-- The key of a path in the target location. -/
def targetKey (path : RelPath) : Nat × Str := (recorder.command.targetLocationId, path.key)

/-- The row at the path a move comes from. -/
def priorRow : Option InventoryRow :=
  Table.find (recorder.targetKey (operation.priorTargetRelPath.getD operation.targetRelPath))
    ledger.inventory

/-- `_move_target_row` up to the deletion of a row at the destination. -/
def clearDestination : Except RecordingError MainLedger :=
  match Table.find (recorder.targetKey operation.targetRelPath) ledger.inventory with
  | none => .ok ledger
  | some collision =>
      if (recorder.priorRow ledger operation).any fun old => old.id = collision.id then .ok ledger
      else if collision.presence ≠ .missing then
        .error (.stale (str "move destination collides with present ledger evidence"))
      else .ok (ledger.deleteRow collision.id)

/-- The row is there and is not the reviewed one. -/
def priorDiffers : Bool :=
  (recorder.priorRow ledger operation).any fun old =>
    operation.priorTargetExpected.any fun expected => !rowMatchesStat old expected

/-- `_move_target_row`.  The rows are read before anything is deleted. -/
def moveTargetRow (target : FileStat) (time : Utc) : Except RecordingError (Nat × MainLedger) := do
  let cleared ← recorder.clearDestination ledger operation
  if recorder.priorDiffers ledger operation then
    .error (.stale (str "move source ledger evidence differs from the reviewed plan"))
  else
    match recorder.priorRow ledger operation with
    | none => .ok (recorder.observeTarget cleared operation.targetRelPath target time)
    | some old => do
        let moved ← cleared.moveRow old.id recorder.command.hostId recorder.command.runToken
          operation.targetRelPath target time
        return (old.id, moved)

/-- The branch of `_record_move` for a move-update. -/
def attestMove (targetId : Nat) (target : FileStat) (attestation : Option Attestation) :
    Except RecordingError MainLedger :=
  match attestation with
  | none => .ok ledger
  | some attestation =>
      if attestation.content.provenance ≠ .copyAttested ∨ attestation.subject ≠ target then
        .error (.stale (str "move-update attestation is inconsistent"))
      else .ok (ledger.storeAttestation targetId attestation)

/-- `_record_move`. -/
def recordMove (target : FileStat) (attestation : Option Attestation) (time : Utc) :
    Except RecordingError MainLedger :=
  match operation.sourceRelPath, operation.sourceExpected with
  | some sourceRelPath, some sourceExpected =>
      if matchesIntended operation target = false then
        .error (.stale (str "move result differs from reviewed intent"))
      else do
        let (sourceId, ledger) := recorder.observeSource ledger sourceRelPath sourceExpected time
        let (targetId, ledger) ← recorder.moveTargetRow ledger operation target time
        let ledger ← attestMove ledger targetId target attestation
        recorder.recordCorrespondence ledger operation sourceId targetId sourceExpected target time
  | _, _ => .error (.stale (str "move lacks source evidence"))

/-- `_record_absent`. -/
def recordAbsent (prior : FileStat) (time : Utc) : Except RecordingError MainLedger :=
  if operation.targetExpected.any (prior ≠ ·) then
    .error (.stale (str "destructive result differs from reviewed target evidence"))
  else
    let (rowId, ledger) := recorder.observeTarget ledger operation.targetRelPath prior time
    .ok (ledger.amendRow rowId
      (fun row =>
        { row with
          presence := .missing
          missingSince := some time
          scopeToken := recorder.command.runToken })
      fun _ => ⟨rfl, rfl⟩)

/-- `record_mkdir`'s `apply`. -/
def recordMkdir (target : FileStat) (time : Utc) : Except RecordingError MainLedger :=
  if target.kind ≠ .directory then .error (.stale (str "mkdir result is not a directory"))
  else .ok (recorder.observeTarget ledger operation.targetRelPath target time).2

/-- `record_noop`'s `apply`. -/
def recordNoop (source target : FileStat) (time : Utc) : Except RecordingError MainLedger :=
  if operation.sourceExpected ≠ some source ∨ operation.targetExpected ≠ some target then
    .error (.stale (str "no-op live snapshots differ from the reviewed plan"))
  else
    match operation.sourceRelPath with
    | none => .error (.path .empty)
    | some sourceRelPath =>
        let (sourceId, ledger) := recorder.observeSource ledger sourceRelPath source time
        let (targetId, ledger) := recorder.observeTarget ledger operation.targetRelPath target time
        recorder.recordCorrespondence ledger operation sourceId targetId source target time

/-- The `apply` of a call. -/
def apply (call : RecordCall) (time : Utc) : Except RecordingError MainLedger :=
  match call with
  | .copied _ attestation | .updated _ attestation =>
      recorder.recordCopyLike ledger operation attestation time
  | .moved _ target | .recased _ target => recorder.recordMove ledger operation target none time
  | .moveUpdated _ attestation =>
      recorder.recordMove ledger operation attestation.subject (some attestation) time
  | .mkdir _ target => recorder.recordMkdir ledger operation target time
  | .trashed _ _ target => recorder.recordAbsent ledger operation target time
  | .deleted _ prior => recorder.recordAbsent ledger operation prior time
  | .noop _ source target => recorder.recordNoop ledger operation source target time

/-- The row of `operations` that a call leaves. -/
def operationRow [PayloadHash] (call : RecordCall) (time : Utc) : OperationRow where
  runId := recorder.runRowId
  opToken := call.op
  kind := operation.kind
  sourceRelPath := operation.sourceRelPath
  targetRelPath := operation.targetRelPath
  outcome := if operation.kind = .noop then .skipped else .succeeded
  contentBytes := operation.contentBytes
  trashRelPath := call.trashRelativePath
  recordedAt := time
  payloadHash := PayloadHash.call recorder.command.runToken operation call

/-- `_record`. -/
def record [PayloadHash] (call : RecordCall) (time : Utc) : Except RecordingError MainLedger :=
  if call.op ∉ recorder.command.selection then
    .error (.stale (str "operation is not part of the reviewed selection"))
  else
    match recorder.command.plan.operations.find? (·.opId = call.op) with
    | none => .error (.stale (str "recording call does not match its reviewed operation"))
    | some operation =>
        if operation.kind ≠ call.kind then
          .error (.stale (str "recording call does not match its reviewed operation"))
        else
          let row := recorder.operationRow operation call time
          match ledger.operations.find? fun prior =>
              prior.runId = recorder.runRowId ∧ prior.opToken = call.op with
          | some prior =>
              if prior.payloadHash ≠ row.payloadHash then
                .error (.tokenConflict (str "operation token was reused with different evidence"))
              else .ok ledger
          | none => do
              let applied ← recorder.apply ledger operation call time
              return { applied with operations := applied.operations ++ [row] }

end SyncRunRecorder

end Run

end NamiSync
