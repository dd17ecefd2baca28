/-
# `Db.Ledger` — the main ledger

The tables of `db/schema.py` that a run of operations reads and writes, with
their keys, their references and the trigger that keeps a correspondence
within the locations of its mapping.  A location carries the volume it is on.

## What is not here

The columns that nothing under the modelled functions reads, and SQLite's own
limits: a number is a `Nat` of any size and a text may hold a lone surrogate,
where the source would raise and roll back.  `Db.History` has both limits
(`bindable`), since there they decide what a caller gets to see.
-/
import NamiSync.Core.Attestation
import NamiSync.Core.Evidence
import NamiSync.Core.Planning
import NamiSync.Lib.Dict
import NamiSync.Lib.Table

namespace NamiSync

/-- `InventoryPresence`. -/
inductive InventoryPresence
  | present | missing | unsupported
  deriving DecidableEq, Repr

/-- What a writer raises: a `StaleRecordingError`, a `TokenConflictError`, a
violated constraint of the schema, or an invalid path. -/
inductive RecordingError
  | stale (detail : Str)
  | tokenConflict (detail : Str)
  | constraint (detail : Str)
  | path (error : PathValidationError)
  deriving DecidableEq

/-- A row of `mappings`. -/
structure MappingRow where
  sourceLocationId : Nat
  targetLocationId : Nat
  deletedAt : Option Utc := none
  distinct : sourceLocationId ≠ targetLocationId := by decide
  deriving DecidableEq

section Rows

variable [Unicode]

/-- A row of `inventory`.  `observed` is the entry kind with the observed
columns; it is `none` where the entry is unsupported and the columns are
null. -/
structure InventoryRow where
  id : Nat
  locationId : Nat
  relPath : RelPath
  presence : InventoryPresence
  observed : Option FileStat
  lastObservedAt : Utc
  hostId : Nat
  scopeToken : Str
  attestation : Option Attestation := none
  lastVerifiedAt : Option Utc := none
  missingSince : Option Utc := none
  acknowledgedAt : Option Utc := none
  reappearedAt : Option Utc := none
  unsupportedReason : Option UnsupportedReason := none
  deriving DecidableEq

abbrev InventoryRow.key (row : InventoryRow) : Nat × Str := (row.locationId, row.relPath.key)

instance : Table.Record InventoryRow (Nat × Str) where
  rowId := InventoryRow.id
  key := InventoryRow.key

/-- A row of `mapping_correspondence`. -/
structure CorrespondenceRow where
  mappingId : Nat
  sourceInventoryId : Nat
  targetInventoryId : Nat
  sourceIdentity : FileIdentity
  targetIdentity : Option FileIdentity
  lastSeenAt : Utc
  runToken : Str
  opToken : OpId
  deriving DecidableEq

/-- A row of `operations`. -/
structure OperationRow where
  runId : Nat
  opToken : OpId
  kind : OperationKind
  sourceRelPath : Option RelPath
  targetRelPath : RelPath
  outcome : Outcome
  contentBytes : Nat
  trashRelPath : Option RelPath
  recordedAt : Utc
  payloadHash : Str
  deriving DecidableEq

/-- The trigger on `mapping_correspondence`: the pair joins a row of the
source location of its mapping with one of the target location. -/
def Joins (mappings : Dict Nat MappingRow) (inventory : List InventoryRow)
    (pair : CorrespondenceRow) : Prop :=
  ∃ mapping ∈ mappings.get? pair.mappingId,
    (∃ source ∈ inventory, source.id = pair.sourceInventoryId ∧
      source.locationId = mapping.sourceLocationId) ∧
    ∃ target ∈ inventory, target.id = pair.targetInventoryId ∧
      target.locationId = mapping.targetLocationId

instance (mappings : Dict Nat MappingRow) (inventory : List InventoryRow)
    (pair : CorrespondenceRow) : Decidable (Joins mappings inventory pair) :=
  inferInstanceAs (Decidable (∃ mapping ∈ mappings.get? pair.mappingId, _ ∧ _))

theorem Joins.mono {mappings : Dict Nat MappingRow} {inventory later : List InventoryRow}
    {pair : CorrespondenceRow} (h : Joins mappings inventory pair)
    (hkept : ∀ row ∈ inventory, row.id = pair.sourceInventoryId ∨ row.id = pair.targetInventoryId →
      ∃ row' ∈ later, row'.id = row.id ∧ row'.locationId = row.locationId) :
    Joins mappings later pair := by
  obtain ⟨mapping, hmapping, ⟨source, hsource, hsid, hsloc⟩, target, htarget, htid, htloc⟩ := h
  obtain ⟨source', hsource', hsid', hsloc'⟩ := hkept source hsource (Or.inl hsid)
  obtain ⟨target', htarget', htid', htloc'⟩ := hkept target htarget (Or.inr htid)
  exact ⟨mapping, hmapping, ⟨source', hsource', hsid'.trans hsid, hsloc'.trans hsloc⟩,
    target', htarget', htid'.trans htid, htloc'.trans htloc⟩

/-- The two keys of `mapping_correspondence`. -/
def Distinct (first second : CorrespondenceRow) : Prop :=
  first.mappingId = second.mappingId →
    first.sourceInventoryId ≠ second.sourceInventoryId ∧
      first.targetInventoryId ≠ second.targetInventoryId

instance (first second : CorrespondenceRow) : Decidable (Distinct first second) :=
  inferInstanceAs (Decidable (_ → _))

structure MainLedger where
  locations : Dict Nat VolumeId
  mappings : Dict Nat MappingRow
  inventory : List InventoryRow
  correspondence : List CorrespondenceRow
  operations : List OperationRow
  inventory_keyed : Table.Keyed inventory
  correspondence_distinct : correspondence.Pairwise Distinct
  correspondence_joins : ∀ pair ∈ correspondence, Joins mappings inventory pair

end Rows

section Sample

variable [Unicode]

/-- A location of one volume is mapped to one of the other. -/
def sampleMapping : MappingRow where
  sourceLocationId := 1
  targetLocationId := 2

/-- Nothing is recorded yet. -/
def emptyLedger : MainLedger where
  locations := (Dict.empty.set 1 volumeA).set 2 volumeB
  mappings := Dict.empty.set 1 sampleMapping
  inventory := []
  correspondence := []
  operations := []
  inventory_keyed := Table.keyed_nil
  correspondence_distinct := List.Pairwise.nil
  correspondence_joins := fun _ h => absurd h List.not_mem_nil

end Sample

end NamiSync
