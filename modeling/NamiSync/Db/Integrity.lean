/-
# `Db.Integrity` — evidence for a row

`LedgerRecorder.record_integrity`: a command changes the row it is for, if
that row is still as the command expects, and a receipt keeps it from being
applied twice.

The guards are in the order of the source, and a receipt is looked at first.
`expects` and `settledBy` are predicates of the row found, so that
`Db.EvidenceLaw` can speak of them without the transaction around them.
-/
import NamiSync.Core.Integrity
import NamiSync.Db.Recorder

namespace NamiSync

/-- `_payload_hash` of an integrity command. -/
class CommandHash where
  integrity : IntegrityRecordCommand → List UInt8

/-- A row of `recording_commands` for an integrity command. -/
structure CommandReceipt where
  payloadHash : List UInt8
  disposition : RecordDisposition
  recordedAt : Utc
  deriving DecidableEq

section Integrity

variable [Unicode]

/-- The main ledger with the receipts of its integrity commands. -/
structure IntegrityLedger where
  main : MainLedger
  receipts : Dict Str CommandReceipt := .empty

/-- `_row_matches_attestation`. -/
def rowMatchesAttestation (row : InventoryRow) (attestation : Option Attestation) : Bool :=
  row.attestation = attestation

/-- The `UPDATE` of `_apply_integrity`. -/
def evidencedRow (command : IntegrityRecordCommand) (row : InventoryRow) : InventoryRow :=
  { row with
    attestation := some command.attestation
    lastVerifiedAt :=
      if command.advancesLastVerified then some command.attestation.content.observedAt
      else row.lastVerifiedAt
    reappearedAt := if command.clearReappeared then none else row.reappearedAt }

/-- The guards of `_apply_integrity` on the row it has found. -/
def IntegrityRecordCommand.expects (command : IntegrityRecordCommand) (row : InventoryRow) : Bool :=
  row.locationId = command.locationId && row.relPath.key = command.relPathKey &&
    row.presence = .present && row.scopeToken = command.scopeToken &&
    rowMatchesStat row command.expectedStat && rowMatchesAttestation row command.expectedBaseline

/-- Nothing is left for the command to write. -/
def IntegrityRecordCommand.settledBy (command : IntegrityRecordCommand) (row : InventoryRow) :
    Bool :=
  rowMatchesAttestation row (some command.attestation) &&
    (!command.advancesLastVerified ||
      row.lastVerifiedAt = some command.attestation.content.observedAt) &&
    (!command.clearReappeared || row.reappearedAt = none)

/-- `_apply_integrity`.  The subject of a command has the guarded stat by
construction. -/
def MainLedger.applyIntegrity (ledger : MainLedger) (command : IntegrityRecordCommand) :
    RecordDisposition × MainLedger :=
  match ledger.inventory.find? (·.id = command.rowId) with
  | none => (.stale, ledger)
  | some row =>
      if !command.expects row then (.stale, ledger)
      else if command.settledBy row then (.noop, ledger)
      else (.applied, ledger.amendRow command.rowId (evidencedRow command) fun _ => ⟨rfl, rfl⟩)

/-- The key of a command's receipt. -/
def IntegrityRecordCommand.commandKey (command : IntegrityRecordCommand) : Str :=
  str "integrity:" ++ command.scopeToken ++ str ":" ++ command.itemId

/-- `record_integrity`, when its transaction commits; the error is that of a
`TokenConflictError`. -/
def recordIntegrity [CommandHash] (command : IntegrityRecordCommand) (ledger : IntegrityLedger) :
    Except Str RecordDisposition × IntegrityLedger :=
  let payloadHash := CommandHash.integrity command
  match ledger.receipts.get? command.commandKey with
  | some receipt =>
      if receipt.payloadHash ≠ payloadHash then
        (.error (str "TokenConflictError: recording command token changed payload: " ++
          command.commandKey), ledger)
      else if receipt.disposition = .applied then (.ok .noop, ledger)
      else (.ok receipt.disposition, ledger)
  | none =>
      let (disposition, main) := ledger.main.applyIntegrity command
      (.ok disposition,
        { main := main
          receipts := ledger.receipts.set command.commandKey
            ⟨payloadHash, disposition, command.attestation.content.observedAt⟩ })

end Integrity

end NamiSync
