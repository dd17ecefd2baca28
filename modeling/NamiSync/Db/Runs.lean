/-
# `Db.Runs` — the runs and the commands of the recorder

The unbound half of `db/recorder.py`: `begin_sync_run`, which hands out the
recorder of a run, and `finish_run`.  With `record_*`, `record_inventory` and
`record_integrity` they are the commands of one writer.

## Commands and who can send them

`LedgerCommand` is the union of what a `LedgerRecorder` and the recorders it
hands out can be asked.  A `Recording` is the ledger with the recorders handed
out so far; `Issued` says that the caller has the recorder that a command goes
through.  So a trace of commands is any interleaving of the runs, the
inventories and the verifications of one writer.
-/
import NamiSync.Core.Session
import NamiSync.Db.Inventory
import NamiSync.Lib.Transition

namespace NamiSync

/-- `FinishRunCommand`. -/
structure FinishRunCommand where
  runToken : Str
  status : SessionState
  recording : RecordingStatus
  endedAt : Utc
  runToken_ne : runToken ≠ [] := by decide
  status_terminal : status.isTerminal = true := by first | exact completed_terminal | decide

instance : DecidableEq FinishRunCommand := fun a b =>
  decidable_of_iff
    (a.runToken = b.runToken ∧ a.status = b.status ∧ a.recording = b.recording ∧
     a.endedAt = b.endedAt)
    (by cases a; cases b; simp)

/-- A row of `runs`; the columns that nothing reads, its plan fingerprint and
its selection digest, are left out. -/
structure RunRow where
  id : Nat
  runToken : Str
  hostId : Nat
  mappingId : Nat
  sourceLocationId : Nat
  targetLocationId : Nat
  startedAt : Utc
  startPayloadHash : List UInt8
  endedAt : Option Utc := none
  filesystemStatus : Option SessionState := none
  recordingStatus : Option RecordingStatus := none
  finishPayloadHash : Option (List UInt8) := none
  deriving DecidableEq

instance : Table.Record RunRow Str where
  rowId := RunRow.id
  key := RunRow.runToken

section Runs

variable [Unicode]

deriving instance DecidableEq for FilterSet
deriving instance DecidableEq for Assignment
deriving instance DecidableEq for Plan

instance : DecidableEq SyncRunCommand := fun a b =>
  decidable_of_iff
    (a.runToken = b.runToken ∧ a.hostId = b.hostId ∧ a.mappingId = b.mappingId ∧
     a.sourceLocationId = b.sourceLocationId ∧ a.targetLocationId = b.targetLocationId ∧
     a.plan = b.plan ∧ a.selection = b.selection ∧ a.startedAt = b.startedAt)
    (by cases a; cases b; simp)

deriving instance DecidableEq for SyncRunRecorder

/-- `_payload_hash` of what starts a run, and of what finishes it. -/
class RunHash where
  start : SyncRunCommand → List UInt8
  finish : FinishRunCommand → List UInt8

/-- The ledger with its hosts, its runs and its receipts. -/
structure RunLedger extends IntegrityLedger where
  hosts : List Nat
  runs : List RunRow
  runs_keyed : Table.Keyed runs

/-- What a command raises. -/
inductive CommandError
  | mapping (error : MappingValidationError)
  | recording (error : RecordingError)
  | raised (text : Str)
  deriving DecidableEq

/-- The row that `begin_sync_run` inserts. -/
def startedRow [RunHash] (command : SyncRunCommand) (id : Nat) : RunRow where
  id := id
  runToken := command.runToken
  hostId := command.hostId
  mappingId := command.mappingId
  sourceLocationId := command.sourceLocationId
  targetLocationId := command.targetLocationId
  startedAt := command.startedAt
  startPayloadHash := RunHash.start command

/-- What `finish_run` makes of it. -/
def finishedRow [RunHash] (command : FinishRunCommand) (row : RunRow) : RunRow :=
  { row with
    endedAt := some command.endedAt
    filesystemStatus := some command.status
    recordingStatus := some command.recording
    finishPayloadHash := some (RunHash.finish command) }

namespace RunLedger

variable [RunHash] (ledger : RunLedger)

/-- `INSERT INTO runs`, of a token that no row has. -/
def insertRun (command : SyncRunCommand) : RunLedger :=
  { ledger with
    runs := Table.upsert command.runToken (startedRow command) (fun row => row) ledger.runs
    runs_keyed := ledger.runs_keyed.upsert (fun _ => ⟨rfl, rfl⟩) fun _ hkey => ⟨rfl, hkey⟩ }

/-- `UPDATE runs … WHERE run_token = ?`. -/
def closeRun (command : FinishRunCommand) : RunLedger :=
  { ledger with
    runs := Table.change (fun row => row.runToken = command.runToken) (finishedRow command)
      ledger.runs
    runs_keyed := ledger.runs_keyed.change_same (fun _ _ _ => rfl) fun _ _ _ => rfl }

end RunLedger

/-- `begin_sync_run`.  Its context is checked also where the run is there. -/
def beginSyncRun [RunHash] (command : SyncRunCommand) (ledger : RunLedger) :
    Except CommandError SyncRunRecorder × RunLedger :=
  let startHash := RunHash.start command
  match validateRunContext ledger.main command with
  | .error error => (.error (.mapping error), ledger)
  | .ok () =>
      match Table.find command.runToken ledger.runs with
      | some existing =>
          if existing.startPayloadHash ≠ startHash then
            (.error (.recording (.tokenConflict
              (str "run token was reused with different input"))), ledger)
          else (.ok ⟨command, existing.id⟩, ledger)
      | none =>
          if command.hostId ∉ ledger.hosts then
            (.error (.recording (.constraint (str "FOREIGN KEY constraint failed"))), ledger)
          else (.ok ⟨command, Table.freshId ledger.runs⟩, ledger.insertRun command)

/-- `finish_run`. -/
def finishRun [RunHash] (command : FinishRunCommand) (ledger : RunLedger) :
    Except CommandError RecordDisposition × RunLedger :=
  let finishHash := RunHash.finish command
  match Table.find command.runToken ledger.runs with
  | none => (.error (.raised (str "RecordingError: cannot finish an unknown run")), ledger)
  | some row =>
      if command.endedAt < row.startedAt then
        (.error (.raised (str "RecordingError: run end precedes its actual start")), ledger)
      else
        match row.finishPayloadHash with
        | some prior =>
            if prior ≠ finishHash then
              (.error (.recording (.tokenConflict (str "run finish token payload changed"))),
                ledger)
            else (.ok .noop, ledger)
        | none => (.ok .applied, ledger.closeRun command)

/-! ## Commands -/

/-- The commands of a `LedgerRecorder` and of the recorders it hands out;
an inventory command is an online one. -/
inductive LedgerCommand
  | beginSyncRun (command : SyncRunCommand)
  | record (recorder : SyncRunRecorder) (call : RecordCall)
  | finishRun (command : FinishRunCommand)
  | recordInventory (command : InventoryCommand) (online : command.online = true)
  | recordIntegrity (command : IntegrityRecordCommand)

/-- What a command returns. -/
inductive Reply
  | recorder (recorder : SyncRunRecorder)
  | recorded
  | disposition (disposition : RecordDisposition)
  | reconciled (result : InventoryReconcileResult)

/-- What makes a second command a repetition of the first: the run token, the
run and the operation, the location and the scope, the scope and the item. -/
inductive CommandToken
  | run (runToken : Str)
  | operation (runToken : Str) (op : OpId)
  | finish (runToken : Str)
  | inventory (locationId : Nat) (scopeToken : Str)
  | integrity (scopeToken itemId : Str)
  deriving DecidableEq

namespace LedgerCommand

def token : LedgerCommand → CommandToken
  | beginSyncRun command => .run command.runToken
  | record recorder call => .operation recorder.command.runToken call.op
  | finishRun command => .finish command.runToken
  | recordInventory command _ => .inventory command.locationId command.scopeToken
  | recordIntegrity command => .integrity command.scopeToken command.itemId

variable [PayloadHash] [CommandHash] [InventoryHash] [RunHash]

/-- Send a command when the clock shows `now`. -/
def send (command : LedgerCommand) (now : Utc) (ledger : RunLedger) :
    Except CommandError Reply × RunLedger :=
  match command with
  | beginSyncRun command =>
      let (outcome, later) := NamiSync.beginSyncRun command ledger
      (outcome.map .recorder, later)
  | record recorder call =>
      match recorder.record ledger.main call now with
      | .error error => (.error (.recording error), ledger)
      | .ok main => (.ok .recorded, { ledger with main := main })
  | finishRun command =>
      let (outcome, later) := NamiSync.finishRun command ledger
      (outcome.map .disposition, later)
  | recordInventory command _ =>
      let (outcome, later) := NamiSync.recordInventory command ledger.toIntegrityLedger
      ((outcome.mapError .raised).map .reconciled, { ledger with toIntegrityLedger := later })
  | recordIntegrity command =>
      let (outcome, later) := NamiSync.recordIntegrity command ledger.toIntegrityLedger
      ((outcome.mapError .raised).map .disposition, { ledger with toIntegrityLedger := later })

end LedgerCommand

/-- A ledger with the recorders that were handed out. -/
structure Recording where
  ledger : RunLedger
  recorders : List SyncRunRecorder := []

namespace Recording

variable [PayloadHash] [CommandHash] [InventoryHash] [RunHash]

/-- Who can send the command: a call of a run needs the recorder of the
run. -/
def Issued (recording : Recording) : LedgerCommand → Prop
  | .record recorder _ => recorder ∈ recording.recorders
  | _ => True

instance (recording : Recording) :
    (command : LedgerCommand) → Decidable (recording.Issued command)
  | .record recorder _ => inferInstanceAs (Decidable (recorder ∈ recording.recorders))
  | .beginSyncRun _ | .finishRun _ | .recordInventory _ _ | .recordIntegrity _ => .isTrue trivial

/-- The recorder that a reply hands out. -/
def handedOut : Except CommandError Reply → List SyncRunRecorder
  | .ok (.recorder recorder) => [recorder]
  | _ => []

/-- One command. -/
def step (recording : Recording) (sent : LedgerCommand × Utc) : Option Recording :=
  if recording.Issued sent.1 then
    let (reply, ledger) := sent.1.send sent.2 recording.ledger
    some { ledger := ledger, recorders := handedOut reply ++ recording.recorders }
  else none

/-- The command with its reply. -/
def replies (recording : Recording) (sent : LedgerCommand × Utc) :
    List (LedgerCommand × Except CommandError Reply) :=
  [(sent.1, (sent.1.send sent.2 recording.ledger).1)]

end Recording

end Runs

end NamiSync
