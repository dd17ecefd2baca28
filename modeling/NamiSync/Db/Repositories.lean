/-
# `Db.Repositories` — the mapping snapshot

`get_mapping_snapshot` of `db/repositories.py`: what the planner is told
about earlier runs of a mapping.

An identity is disqualified when the inventory of the location has it in more
than one row, present or not: a row that a rename has left behind counts.
`Workflows.Renames` has the consequence.
-/
import NamiSync.Db.Ledger

namespace NamiSync

section Snapshot

variable [Unicode]

namespace MainLedger

variable (ledger : MainLedger)

/-- The rows of a location that carry an identity. -/
def carriers (locationId : Nat) (identity : FileIdentity) : List InventoryRow :=
  ledger.inventory.filter fun row =>
    row.locationId = locationId && row.observed.any (·.fileIdentity = some identity)

/-- The `HAVING` of `_disqualified_identities`. -/
def disqualifies (locationId : Nat) (identity : FileIdentity) : Bool :=
  let group := ledger.carriers locationId identity
  1 < group.length || group.any fun row => row.observed.any fun stat => 1 < stat.nlink

/-- `_disqualified_identities`. -/
def disqualifiedIdentities (locationId : Nat) : List FileIdentity :=
  let rows := ledger.inventory.filter fun row => row.locationId = locationId
  (rows.filterMap fun row => row.observed.bind FileStat.fileIdentity).dedup.filter
    (ledger.disqualifies locationId)

/-- A correspondence joined with its two inventory rows. -/
def joined (pair : CorrespondenceRow) : Option (InventoryRow × InventoryRow) :=
  match ledger.inventory.find? (·.id = pair.sourceInventoryId),
      ledger.inventory.find? (·.id = pair.targetInventoryId) with
  | some source, some target => some (source, target)
  | _, _ => none

/-- A row of the query for the pairs of a mapping. -/
def pairRow (pair : CorrespondenceRow) : Option MappingPair :=
  (ledger.joined pair).map fun (source, target) =>
    { sourceRelPathKey := source.relPath.key
      targetRelPath := target.relPath
      sourceIdentity := pair.sourceIdentity
      targetIdentity := pair.targetIdentity }

/-- The pairs of a mapping, in the order of their keys. -/
def mappingPairs (mappingId : Nat) : List MappingPair :=
  let rows := (ledger.correspondence.filter (·.mappingId = mappingId)).filterMap ledger.pairRow
  sortedBy (fun pair => toLex (pair.sourceRelPathKey, pair.targetKey)) rows

/-- `get_mapping_snapshot`; `none` is the `KeyError` of a mapping that is not
active. -/
def mappingSnapshot (mappingId : Nat) : Option MappingSnapshot := do
  let mapping ← ledger.mappings.get? mappingId
  if mapping.deletedAt.isSome then none
  else
    let sourceVolume ← ledger.locations.get? mapping.sourceLocationId
    let targetVolume ← ledger.locations.get? mapping.targetLocationId
    return {
      sourceVolumeId := some sourceVolume
      targetVolumeId := some targetVolume
      pairs := ledger.mappingPairs mappingId
      ambiguousSourceKeys := []
      disqualifiedSourceIdentities := ledger.disqualifiedIdentities mapping.sourceLocationId
      disqualifiedTargetIdentities := ledger.disqualifiedIdentities mapping.targetLocationId }

end MainLedger

end Snapshot

end NamiSync
