/-
# `Db.Inventory` — the reconciliation of a scan with the ledger

`LedgerRecorder.record_inventory`: what a scan has seen is upserted in
batches, and a complete scan sweeps what it has not seen.  A command is one
transaction; where it raises, the ledger stays as it was.

A command is one transaction on the tables, so it is a function from ledger to
ledger; the rows are upserted one at a time in the order of the scan, and the
sweep follows in chunks, as in the source.  That the chunks make no difference
is `Lib.Batches`.
-/
import NamiSync.Db.Integrity
import NamiSync.Lib.Batches

namespace NamiSync

open Batches

section Inventory

variable [Unicode]

/-- `InventoryCommand`. -/
structure InventoryCommand where
  locationId : Nat
  hostId : Nat
  scan : ScanResult
  scopeToken : Str
  observedAt : Utc
  online : Bool := true
  ids_pos : 0 < locationId ∧ 0 < hostId := by decide
  scopeToken_ne : scopeToken ≠ [] := by decide

/-- `_payload_hash` of an inventory command. -/
class InventoryHash where
  inventory : InventoryCommand → List UInt8

/-- `InventoryReconcileResult`. -/
structure InventoryReconcileResult where
  disposition : RecordDisposition
  observedCount : Nat
  missingCount : Nat
  deriving DecidableEq

/-! ## The statements -/

/-- The row that the statement for unsupported entries inserts. -/
def unsupportedRow (command : InventoryCommand) (record : UnsupportedRecord) (id : Nat) :
    InventoryRow where
  id := id
  locationId := command.locationId
  relPath := record.relPath
  presence := .unsupported
  observed := none
  lastObservedAt := command.observedAt
  hostId := command.hostId
  scopeToken := command.scopeToken
  unsupportedReason := some record.reason

/-- What it makes of a row that is there; the markers of a reappearance are
not among its columns. -/
def unsupportedAgain (command : InventoryCommand) (record : UnsupportedRecord)
    (row : InventoryRow) : InventoryRow :=
  { row with
    relPath := record.relPath
    presence := .unsupported
    observed := none
    lastObservedAt := command.observedAt
    hostId := command.hostId
    scopeToken := command.scopeToken
    unsupportedReason := some record.reason
    missingSince := none
    acknowledgedAt := none }

/-- What a sweep makes of a row. -/
def missingRow (command : InventoryCommand) (row : InventoryRow) : InventoryRow :=
  { row with
    presence := .missing
    missingSince := row.missingSince.or (some command.observedAt)
    scopeToken := command.scopeToken }

namespace MainLedger

variable (ledger : MainLedger) (command : InventoryCommand)

/-- The upsert of a file or a directory. -/
def observe (seen : RelPath × FileStat) : MainLedger :=
  (ledger.upsertObservation command.locationId command.hostId command.scopeToken seen.1 seen.2
    command.observedAt).2

/-- The upsert of an unsupported entry. -/
def observeUnsupported (record : UnsupportedRecord) : MainLedger :=
  let key := (command.locationId, record.key)
  ledger.withInventory
    (Table.upsert key (unsupportedRow command record) (unsupportedAgain command record)
      ledger.inventory)
    (ledger.inventory_keyed.upsert (fun _ => ⟨rfl, rfl⟩) fun old hold =>
      ⟨rfl, Prod.ext (show old.locationId = command.locationId from congrArg Prod.fst hold) rfl⟩)
    (by
      intro row hrow
      by_cases h : row.key = key
      · refine ⟨unsupportedAgain command record row,
          (Table.mem_upsert ledger.inventory_keyed).2 (Or.inl ?_), rfl, rfl⟩
        have hfind := (Table.find_eq_some ledger.inventory_keyed).2 ⟨hrow, h⟩
        rw [Table.upserted, hfind]
      · exact ⟨row, (Table.mem_upsert ledger.inventory_keyed).2 (Or.inr ⟨hrow, h⟩), rfl, rfl⟩)

/-- `UPDATE inventory SET presence = 'missing' … WHERE`, with its
`rowcount`. -/
def sweep (p : InventoryRow → Bool) : Nat × MainLedger :=
  (ledger.inventory.countP p,
    ledger.withInventory
      (Table.change (fun row => p row = true) (missingRow command) ledger.inventory)
      (ledger.inventory_keyed.change_same (fun _ _ _ => rfl) fun _ _ _ => rfl) (by
        intro row hrow
        by_cases h : p row = true
        · exact ⟨missingRow command row, Table.mem_change.2 (Or.inl ⟨row, hrow, h, rfl⟩), rfl, rfl⟩
        · exact ⟨row, Table.mem_change.2 (Or.inr ⟨hrow, h⟩), rfl, rfl⟩))

end MainLedger

/-! ## The reconciliation -/

namespace ScanResult

variable (scan : ScanResult)

/-- The rows for the files and for the directories below the root. -/
def observations : List (RelPath × FileStat) :=
  (scan.files.map fun record => (record.relPath, record.stat)) ++
    scan.directories.filterMap fun record => record.relPath.map fun path => (path, record.stat)

/-- `observed_keys`. -/
def observedKeys : List Str :=
  (scan.observations.map fun seen => seen.1.key) ++ scan.unsupported.map UnsupportedRecord.key

end ScanResult

namespace InventoryCommand

variable (command : InventoryCommand)

/-- The two sweeps: what a complete full scan has not seen, or what a
complete refresh of selected paths has not. -/
def unseen (row : InventoryRow) : Bool :=
  row.locationId = command.locationId && (row.presence = .present || row.presence = .unsupported) &&
    decide (row.relPath.key ∉ command.scan.observedKeys)

def unseenAmong (keys : List Str) (row : InventoryRow) : Bool :=
  row.locationId = command.locationId && decide (row.relPath.key ∈ keys) && row.presence = .present

/-- The selected keys that were not seen. -/
def absent (selected : List RelPath) : List Str :=
  (selected.map RelPath.key).filter fun key => key ∉ command.scan.observedKeys

/-- `_reconcile_inventory`: the counts and the ledger it leaves.  The table
of current keys takes no key twice. -/
def reconcile (ledger : MainLedger) : Except Str ((Nat × Nat) × MainLedger) :=
  let observed := (batches 400 command.scan.observations).foldl
    (fun ledger batch => batch.foldl (fun ledger seen => ledger.observe command seen) ledger) ledger
  let observed := (batches 400 command.scan.unsupported).foldl
    (fun ledger batch =>
      batch.foldl (fun ledger record => ledger.observeUnsupported command record) ledger) observed
  let count := command.scan.observedKeys.length
  if command.scan.complete && command.scan.isFullScan then
    if command.scan.observedKeys.Nodup then
      let (missing, swept) := observed.sweep command command.unseen
      .ok ((count, missing), swept)
    else .error (str "RecordingError: UNIQUE constraint failed: current_scan_keys.rel_path_key")
  else
    match command.scan.complete, command.scan.scope with
    | true, .paths selected =>
        let (missing, swept) := (batches 400 (command.absent selected)).foldl
          (fun (missing, ledger) chunk =>
            let (more, swept) := ledger.sweep command (command.unseenAmong chunk)
            (missing + more, swept)) (0, observed)
        .ok ((count, missing), swept)
    | _, _ => .ok ((count, 0), observed)

/-- The key of a command's receipt. -/
def commandKey : Str :=
  str "inventory:" ++ decimal command.locationId ++ str ":" ++ command.scopeToken

/-- `_validate_inventory_location`. -/
def validateLocation (ledger : MainLedger) : Except Str Unit :=
  match ledger.locations.get? command.locationId with
  | none => .error (str "RecordingError: inventory location does not exist")
  | some volumeId =>
      if command.scan.volumeId = some volumeId then .ok ()
      else .error (str "StaleRecordingError: scan volume does not match inventory location")

end InventoryCommand

/-- `record_inventory`, when its transaction commits or raises by itself. -/
def recordInventory [InventoryHash] (command : InventoryCommand) (ledger : IntegrityLedger) :
    Except Str InventoryReconcileResult × IntegrityLedger :=
  if !command.online then (.ok ⟨.noop, 0, 0⟩, ledger)
  else
    let payloadHash := InventoryHash.inventory command
    match ledger.receipts.get? command.commandKey with
    | some receipt =>
        if receipt.payloadHash ≠ payloadHash then
          (.error (str "TokenConflictError: recording command token changed payload: " ++
            command.commandKey), ledger)
        else if receipt.disposition = .applied then (.ok ⟨.noop, 0, 0⟩, ledger)
        else (.ok ⟨receipt.disposition, 0, 0⟩, ledger)
    | none =>
        match command.validateLocation ledger.main with
        | .error message => (.error message, ledger)
        | .ok () =>
            match command.reconcile ledger.main with
            | .error message => (.error message, ledger)
            | .ok ((observed, missing), main) =>
                (.ok ⟨.applied, observed, missing⟩,
                  { main := main
                    receipts := ledger.receipts.set command.commandKey
                      ⟨payloadHash, .applied, command.observedAt⟩ })

end Inventory

end NamiSync
