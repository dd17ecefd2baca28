/-
# `Db.Statements` — what the recorder's statements leave behind

A row sits at a path of a location under its number.  For each statement,
and then for each call of the recorder: which rows sit where, and which
correspondences are there.  A call moves nothing but the rows at the paths
its operation names.

## The vocabulary

`ledger.Sits i locationId path` is all that the arguments about
correspondences use of a row: its number, its location, its path.  A path has
one row and a row has one path, so a statement is described by which numbers
sit where after it.  Evidence, presence and times do not occur below; they are
the subject of `Db.Reconciled` and `Db.EvidenceLaw`.
-/
import NamiSync.Db.Recorder

namespace NamiSync

section Statements

variable [Unicode]

namespace MainLedger

variable {ledger later : MainLedger} {i locationId : Nat} {path : RelPath}

/-- The row with the number sits at the path of the location. -/
def Sits (ledger : MainLedger) (i locationId : Nat) (path : RelPath) : Prop :=
  ∃ row ∈ ledger.inventory, row.id = i ∧ row.locationId = locationId ∧ row.relPath = path

/-- A path has one row. -/
theorem Sits.unique {i' : Nat} {path' : RelPath} (h : ledger.Sits i locationId path)
    (h' : ledger.Sits i' locationId path') (hkey : path.key = path'.key) : i = i' := by
  obtain ⟨row, hrow, rfl, hloc, rfl⟩ := h
  obtain ⟨row', hrow', rfl, hloc', rfl⟩ := h'
  have heq : row = row' :=
    ledger.inventory_keyed.eq_of_key hrow hrow' (Prod.ext (hloc.trans hloc'.symm) hkey)
  rw [heq]

/-- A row has one path. -/
theorem Sits.path_eq {locationId' : Nat} {path' : RelPath} (h : ledger.Sits i locationId path)
    (h' : ledger.Sits i locationId' path') : locationId = locationId' ∧ path = path' := by
  obtain ⟨row, hrow, hid, rfl, rfl⟩ := h
  obtain ⟨row', hrow', hid', rfl, rfl⟩ := h'
  obtain rfl := ledger.inventory_keyed.eq_of_id hrow hrow' (hid.trans hid'.symm)
  exact ⟨rfl, rfl⟩

/-- Where the row found at a path sits. -/
theorem sits_of_find {key : Nat × Str} {row : InventoryRow}
    (h : Table.find key ledger.inventory = some row) :
    ledger.Sits row.id row.locationId row.relPath ∧ row.key = key := by
  obtain ⟨hrow, hkey⟩ := (Table.find_eq_some ledger.inventory_keyed).1 h
  exact ⟨⟨row, hrow, rfl, rfl, rfl⟩, hkey⟩

theorem not_sits_of_find {locationId : Nat} {key : Str}
    (h : Table.find (locationId, key) ledger.inventory = none)
    (hsits : ledger.Sits i locationId path) :
    path.key ≠ key := by
  obtain ⟨row, hrow, -, rfl, rfl⟩ := hsits
  intro hkey
  exact Table.find_eq_none.1 h row hrow (Prod.ext rfl hkey)

/-- The statement leaves everything but the inventory as it was. -/
structure Keeps (ledger later : MainLedger) : Prop where
  mappings_eq : later.mappings = ledger.mappings
  operations_eq : later.operations = ledger.operations
  correspondence_eq : later.correspondence = ledger.correspondence

/-- An amended row sits where it sat. -/
theorem sits_amendRow {id : Nat} {f : InventoryRow → InventoryRow}
    {hf : ∀ row, (f row).id = row.id ∧ (f row).key = row.key}
    (hpath : ∀ row, (f row).relPath = row.relPath) :
    (ledger.amendRow id f hf).Sits i locationId path ↔ ledger.Sits i locationId path := by
  have hloc : ∀ row, (f row).locationId = row.locationId := fun row =>
    congrArg Prod.fst (hf row).2
  constructor
  · rintro ⟨row, hrow, rfl, rfl, rfl⟩
    rcases Table.mem_change.1 hrow with ⟨old, hold, -, rfl⟩ | ⟨hrow, -⟩
    · exact ⟨old, hold, (hf old).1.symm, (hloc old).symm, (hpath old).symm⟩
    · exact ⟨row, hrow, rfl, rfl, rfl⟩
  · rintro ⟨row, hrow, rfl, rfl, rfl⟩
    by_cases hid : row.id = id
    · exact ⟨f row, Table.mem_change.2 (Or.inl ⟨row, hrow, hid, rfl⟩), (hf row).1, hloc row,
        hpath row⟩
    · exact ⟨row, Table.mem_change.2 (Or.inr ⟨hrow, hid⟩), rfl, rfl, rfl⟩

section Upsert

variable {location hostId : Nat} {scopeToken : Str} {relPath : RelPath} {stat : FileStat}
  {time : Utc}

/-- After an upsert its row sits at the path, and the others where they
were. -/
theorem sits_upsert :
    (ledger.upsertObservation location hostId scopeToken relPath stat time).2.Sits i locationId
        path ↔
      (i = (ledger.upsertObservation location hostId scopeToken relPath stat time).1 ∧
        locationId = location ∧ path = relPath) ∨
      (ledger.Sits i locationId path ∧ (locationId, path.key) ≠ (location, relPath.key)) := by
  let insert := insertedRow location hostId scopeToken relPath stat time
  let update := observedRow hostId scopeToken relPath stat time
  have hmem : ∀ row : InventoryRow,
      row ∈ (ledger.upsertObservation location hostId scopeToken relPath stat time).2.inventory ↔
        row = Table.upserted (location, relPath.key) insert update ledger.inventory ∨
          (row ∈ ledger.inventory ∧ row.key ≠ (location, relPath.key)) := fun row =>
    Table.mem_upsert ledger.inventory_keyed
  have hrow : (Table.upserted (location, relPath.key) insert update ledger.inventory).locationId =
        location ∧
      (Table.upserted (location, relPath.key) insert update ledger.inventory).relPath =
        relPath := by
    unfold Table.upserted
    cases hfind : Table.find (location, relPath.key) ledger.inventory with
    | none => exact ⟨rfl, rfl⟩
    | some old => exact ⟨congrArg Prod.fst (sits_of_find hfind).2, rfl⟩
  constructor
  · rintro ⟨row, hin, rfl, rfl, rfl⟩
    rcases (hmem row).1 hin with rfl | ⟨hold, hne⟩
    · exact Or.inl ⟨rfl, hrow⟩
    · exact Or.inr ⟨⟨row, hold, rfl, rfl, rfl⟩, hne⟩
  · rintro (⟨rfl, rfl, rfl⟩ | ⟨⟨row, hold, rfl, rfl, rfl⟩, hne⟩)
    · exact ⟨_, (hmem _).2 (Or.inl rfl), rfl, hrow⟩
    · exact ⟨row, (hmem row).2 (Or.inr ⟨hold, hne⟩), rfl, rfl, rfl⟩

theorem sits_upserted :
    (ledger.upsertObservation location hostId scopeToken relPath stat time).2.Sits
      (ledger.upsertObservation location hostId scopeToken relPath stat time).1 location relPath :=
  sits_upsert.2 (Or.inl ⟨rfl, rfl, rfl⟩)

/-- A row that sat at the path keeps its number. -/
theorem upserted_id (h : ledger.Sits i location path) (hkey : path.key = relPath.key) :
    (ledger.upsertObservation location hostId scopeToken relPath stat time).1 = i := by
  obtain ⟨row, hrow, rfl, rfl, rfl⟩ := h
  have hfind : Table.find (row.locationId, relPath.key) ledger.inventory = some row :=
    (Table.find_eq_some ledger.inventory_keyed).2 ⟨hrow, Prod.ext rfl hkey⟩
  simp only [upsertObservation, Table.upserted, hfind]
  rfl

end Upsert

/-- After a deletion the row sits nowhere, and its correspondences are
gone. -/
theorem sits_deleteRow {id : Nat} :
    (ledger.deleteRow id).Sits i locationId path ↔ ledger.Sits i locationId path ∧ i ≠ id := by
  constructor
  · rintro ⟨row, hrow, rfl, rfl, rfl⟩
    obtain ⟨hrow, hne⟩ := List.mem_filter.1 hrow
    exact ⟨⟨row, hrow, rfl, rfl, rfl⟩, by simpa using hne⟩
  · rintro ⟨⟨row, hrow, rfl, rfl, rfl⟩, hne⟩
    exact ⟨row, List.mem_filter.2 ⟨hrow, by simpa using hne⟩, rfl, rfl, rfl⟩

theorem mem_correspondence_deleteRow {id : Nat} {pair : CorrespondenceRow} :
    pair ∈ (ledger.deleteRow id).correspondence ↔
      pair ∈ ledger.correspondence ∧ pair.sourceInventoryId ≠ id ∧ pair.targetInventoryId ≠ id := by
  simp [deleteRow, List.mem_filter]

/-- A moved row sits at its new path. -/
theorem sits_moveRow {id hostId : Nat} {scopeToken : Str} {relPath : RelPath} {stat : FileStat}
    {time : Utc} (h : ledger.moveRow id hostId scopeToken relPath stat time = .ok later) :
    Keeps ledger later ∧ ∀ i locationId path, later.Sits i locationId path ↔
      (i = id ∧ path = relPath ∧ ∃ old, ledger.Sits id locationId old) ∨
        (i ≠ id ∧ ledger.Sits i locationId path) := by
  unfold moveRow at h
  split at h
  · obtain rfl := Except.ok.inj h
    refine ⟨⟨rfl, rfl, rfl⟩, fun i locationId path => ?_⟩
    constructor
    · rintro ⟨row, hrow, rfl, rfl, rfl⟩
      rcases Table.mem_change.1 hrow with ⟨old, hold, hid, rfl⟩ | ⟨hrow, hne⟩
      · exact Or.inl ⟨hid, rfl, old.relPath, old, hold, hid, rfl, rfl⟩
      · exact Or.inr ⟨hne, row, hrow, rfl, rfl, rfl⟩
    · rintro (⟨rfl, rfl, old, row, hrow, hid, rfl, rfl⟩ | ⟨hne, row, hrow, rfl, rfl, rfl⟩)
      · exact ⟨_, Table.mem_change.2 (Or.inl ⟨row, hrow, hid, rfl⟩), hid, rfl, rfl⟩
      · exact ⟨row, Table.mem_change.2 (Or.inr ⟨hrow, hne⟩), rfl, rfl, rfl⟩
  · exact absurd h (by simp)

end MainLedger

end Statements

end NamiSync
