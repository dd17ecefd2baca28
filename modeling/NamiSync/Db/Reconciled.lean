/-
# `Db.Reconciled` — what a reconciliation leaves behind

Each statement works on the row under one key, or sweeps rows that it
selects.  Under distinct keys the row of an entry is the one that its own
upsert has left, so a complete scan and the rows of its location agree.

## What is proved

    inventory_reconciled : after an accepted command for a complete full scan
      the inventory of the location is that of the scan (`Reconciles`); an
      offline location and an incomplete scan make no row missing; every row
      is still there with its number, key and evidence; and the rows of other
      locations are untouched

## The argument

A row is looked up by its key (`rowAt`).  An upsert changes the row at one
key, so after a fold over keys that occur once each row is what its own upsert
made of it (`foldl_under`).  Then the sweep makes missing what the scan did
not show.  `Frames` says what all statements leave alone, and is transitive.
-/
import NamiSync.Db.Inventory

namespace NamiSync

open Batches

section Reconciled

variable [Unicode]

namespace MainLedger

variable {ledger later last : MainLedger} {command : InventoryCommand} {key : Nat × Str}

/-- The row under a key. -/
def rowAt (ledger : MainLedger) (key : Nat × Str) : Option InventoryRow :=
  Table.find key ledger.inventory

/-! ## The row at a path

A location has one row at a key. -/

theorem rowAt_eq_some {row : InventoryRow} :
    ledger.rowAt key = some row ↔ row ∈ ledger.inventory ∧ row.key = key :=
  Table.find_eq_some ledger.inventory_keyed

theorem rowAt_of_mem {row : InventoryRow} (h : row ∈ ledger.inventory) :
    ledger.rowAt row.key = some row := rowAt_eq_some.2 ⟨h, rfl⟩

/-! ## One statement

What each statement does to the row at any path: it writes the one it is about
and leaves all others, and never touches the evidence of a row but to clear it
when the file is another. -/

/-- A row keeps its number, its key and its evidence. -/
structure KeepsEvidence (row row' : InventoryRow) : Prop where
  id_eq : row'.id = row.id
  key_eq : row'.key = row.key
  attestation_eq : row'.attestation = row.attestation
  lastVerifiedAt_eq : row'.lastVerifiedAt = row.lastVerifiedAt

theorem KeepsEvidence.refl (row : InventoryRow) : KeepsEvidence row row := ⟨rfl, rfl, rfl, rfl⟩

theorem KeepsEvidence.trans {row row' row'' : InventoryRow} (h : KeepsEvidence row row')
    (h' : KeepsEvidence row' row'') : KeepsEvidence row row'' :=
  ⟨h'.id_eq.trans h.id_eq, h'.key_eq.trans h.key_eq, h'.attestation_eq.trans h.attestation_eq,
    h'.lastVerifiedAt_eq.trans h.lastVerifiedAt_eq⟩

/-- What no statement of a command changes. -/
structure Frames (command : InventoryCommand) (ledger later : MainLedger) : Prop where
  rows : ∀ row ∈ ledger.inventory, ∃ row' ∈ later.inventory, KeepsEvidence row row'
  elsewhere : ∀ key : Nat × Str, key.1 ≠ command.locationId → later.rowAt key = ledger.rowAt key

namespace Frames

theorem refl : Frames command ledger ledger :=
  ⟨fun row hrow => ⟨row, hrow, .refl row⟩, fun _ _ => rfl⟩

theorem trans (h : Frames command ledger later) (h' : Frames command later last) :
    Frames command ledger last := by
  refine ⟨fun row hrow => ?_, fun key hkey => (h'.elsewhere key hkey).trans (h.elsewhere key hkey)⟩
  obtain ⟨row', hrow', hkeeps⟩ := h.rows row hrow
  obtain ⟨row'', hrow'', hkeeps'⟩ := h'.rows row' hrow'
  exact ⟨row'', hrow'', hkeeps.trans hkeeps'⟩

theorem foldl {α : Type} {step : MainLedger → α → MainLedger}
    (hstep : ∀ ledger a, Frames command ledger (step ledger a)) (entries : List α)
    (ledger : MainLedger) : Frames command ledger (entries.foldl step ledger) := by
  induction entries generalizing ledger with
  | nil => exact refl
  | cons a rest ih => exact (hstep ledger a).trans (ih (step ledger a))

/-- Elsewhere the rows are the same. -/
theorem mem_iff (h : Frames command ledger later) {row : InventoryRow}
    (hne : row.locationId ≠ command.locationId) :
    row ∈ later.inventory ↔ row ∈ ledger.inventory := by
  have helse := h.elsewhere row.key hne
  constructor
  · intro hrow
    rw [rowAt_of_mem hrow] at helse
    exact (rowAt_eq_some.1 helse.symm).1
  · intro hrow
    rw [rowAt_of_mem hrow] at helse
    exact (rowAt_eq_some.1 helse).1

end Frames

/-- The row that an upsert leaves, and the rows under other keys. -/
theorem rowAt_observe (seen : RelPath × FileStat) :
    (ledger.observe command seen).rowAt key =
      if key = (command.locationId, seen.1.key) then
        some (match ledger.rowAt (command.locationId, seen.1.key) with
          | some old =>
              observedRow command.hostId command.scopeToken seen.1 seen.2 command.observedAt old
          | none =>
              insertedRow command.locationId command.hostId command.scopeToken seen.1 seen.2
                command.observedAt (Table.freshId ledger.inventory))
      else ledger.rowAt key := by
  let insert := insertedRow command.locationId command.hostId command.scopeToken seen.1 seen.2
    command.observedAt
  let update := observedRow command.hostId command.scopeToken seen.1 seen.2 command.observedAt
  have hinsert : ∀ n, (insert n).id = n ∧ (insert n).key = (command.locationId, seen.1.key) :=
    fun _ => ⟨rfl, rfl⟩
  have hupdate : ∀ old : InventoryRow, old.key = (command.locationId, seen.1.key) →
      (update old).id = old.id ∧ (update old).key = (command.locationId, seen.1.key) :=
    fun old hold =>
      ⟨rfl, Prod.ext (show old.locationId = command.locationId from congrArg Prod.fst hold) rfl⟩
  refine (Table.find_upsert ledger.inventory_keyed hinsert hupdate key).trans ?_
  unfold rowAt Table.upserted
  cases Table.find (command.locationId, seen.1.key) ledger.inventory <;> rfl

theorem rowAt_observeUnsupported (record : UnsupportedRecord) :
    (ledger.observeUnsupported command record).rowAt key =
      if key = (command.locationId, record.key) then
        some (match ledger.rowAt (command.locationId, record.key) with
          | some old => unsupportedAgain command record old
          | none => unsupportedRow command record (Table.freshId ledger.inventory))
      else ledger.rowAt key := by
  have hinsert : ∀ n, (unsupportedRow command record n).id = n ∧
      (unsupportedRow command record n).key = (command.locationId, record.key) :=
    fun _ => ⟨rfl, rfl⟩
  have hupdate : ∀ old : InventoryRow, old.key = (command.locationId, record.key) →
      (unsupportedAgain command record old).id = old.id ∧
        (unsupportedAgain command record old).key = (command.locationId, record.key) :=
    fun old hold =>
      ⟨rfl, Prod.ext (show old.locationId = command.locationId from congrArg Prod.fst hold) rfl⟩
  refine (Table.find_upsert ledger.inventory_keyed hinsert hupdate key).trans ?_
  unfold rowAt Table.upserted
  cases Table.find (command.locationId, record.key) ledger.inventory <;> rfl

theorem rowAt_sweep (p : InventoryRow → Bool) :
    (ledger.sweep command p).2.rowAt key =
      (ledger.rowAt key).map fun row => if p row = true then missingRow command row else row :=
  Table.find_change fun _ => rfl

/-- An upsert under a key frames, if it keeps the evidence of a row that is
there. -/
theorem frames_of_upsert {relKey : Str} {result : InventoryRow}
    (hrow : ∀ key, later.rowAt key =
      if key = (command.locationId, relKey) then some result else ledger.rowAt key)
    (hkeeps :
      ∀ old, ledger.rowAt (command.locationId, relKey) = some old → KeepsEvidence old result) :
    Frames command ledger later := by
  constructor
  · intro row hmem
    have hat := rowAt_of_mem hmem
    by_cases hkey : row.key = (command.locationId, relKey)
    · have hresult := hrow row.key
      rw [if_pos hkey] at hresult
      rw [hkey] at hat
      exact ⟨result, (rowAt_eq_some.1 hresult).1, hkeeps row hat⟩
    · have hsame := hrow row.key
      rw [if_neg hkey, hat] at hsame
      exact ⟨row, (rowAt_eq_some.1 hsame).1, .refl row⟩
  · intro key hne
    rw [hrow key, if_neg]
    rintro rfl
    exact hne rfl

theorem frames_observe (seen : RelPath × FileStat) :
    Frames command ledger (ledger.observe command seen) := by
  refine frames_of_upsert (fun key => rowAt_observe seen) fun old hold => ?_
  rw [hold]
  have hkey := (rowAt_eq_some.1 hold).2
  exact ⟨rfl, Prod.ext rfl (congrArg Prod.snd hkey).symm, rfl, rfl⟩

theorem frames_observeUnsupported (record : UnsupportedRecord) :
    Frames command ledger (ledger.observeUnsupported command record) := by
  refine frames_of_upsert (fun key => rowAt_observeUnsupported record) fun old hold => ?_
  rw [hold]
  have hkey := (rowAt_eq_some.1 hold).2
  exact ⟨rfl, Prod.ext rfl (congrArg Prod.snd hkey).symm, rfl, rfl⟩

theorem frames_sweep {p : InventoryRow → Bool}
    (hp : ∀ row, p row = true → row.locationId = command.locationId) :
    Frames command ledger (ledger.sweep command p).2 := by
  constructor
  · intro row hmem
    by_cases h : p row = true
    · exact ⟨missingRow command row, Table.mem_change.2 (Or.inl ⟨row, hmem, h, rfl⟩),
        rfl, rfl, rfl, rfl⟩
    · exact ⟨row, Table.mem_change.2 (Or.inr ⟨hmem, h⟩), .refl row⟩
  · intro key hne
    rw [rowAt_sweep]
    cases hat : ledger.rowAt key with
    | none => rfl
    | some row =>
        have hkey := (rowAt_eq_some.1 hat).2
        rw [Option.map_some, if_neg]
        intro h
        exact hne ((congrArg Prod.fst hkey).symm.trans (hp row h))

/-! ## Loops of statements

A statement for each record of the scan, in any order, since no two records
have one key. -/

/-- Statements that each work under the key of their entry, for entries with
distinct keys. -/
theorem foldl_under {α : Type} {keyOf : α → Str} {step : MainLedger → α → MainLedger}
    {P : α → InventoryRow → Prop}
    (hstep : ∀ ledger a,
      (∃ row, (step ledger a).rowAt (command.locationId, keyOf a) = some row ∧ P a row) ∧
        ∀ key, key ≠ (command.locationId, keyOf a) → (step ledger a).rowAt key = ledger.rowAt key)
    {entries : List α} (hnodup : (entries.map keyOf).Nodup) (ledger : MainLedger) :
    (∀ a ∈ entries, ∃ row,
      (entries.foldl step ledger).rowAt (command.locationId, keyOf a) = some row ∧ P a row) ∧
    ∀ key, (∀ a ∈ entries, key ≠ (command.locationId, keyOf a)) →
      (entries.foldl step ledger).rowAt key = ledger.rowAt key := by
  induction entries generalizing ledger with
  | nil => exact ⟨fun a ha => absurd ha List.not_mem_nil, fun _ _ => rfl⟩
  | cons a rest ih =>
      obtain ⟨hfresh, hrest⟩ := List.nodup_cons.1 hnodup
      obtain ⟨⟨row, hrow, hP⟩, hother⟩ := hstep ledger a
      obtain ⟨hlater, huntouched⟩ := ih hrest (step ledger a)
      constructor
      · intro b hb
        rcases List.mem_cons.1 hb with rfl | hb
        · refine ⟨row, ?_, hP⟩
          rw [List.foldl_cons, huntouched _ fun c hc heq => hfresh ?_]
          · exact hrow
          · rw [(Prod.mk.inj heq).2]
            exact List.mem_map_of_mem hc
        · exact hlater b hb
      · intro key hkey
        rw [List.foldl_cons, huntouched key fun b hb => hkey b (List.mem_cons_of_mem _ hb)]
        exact hother key (hkey a List.mem_cons_self)

/-- The row of an entry that was seen. -/
def Shown (seen : RelPath × FileStat) (row : InventoryRow) : Prop :=
  row.presence = .present ∧ row.relPath = seen.1 ∧ row.observed = some seen.2

/-- The row of an entry that is not supported. -/
def Refused (record : UnsupportedRecord) (row : InventoryRow) : Prop :=
  row.presence = .unsupported ∧ row.relPath = record.relPath ∧
    row.unsupportedReason = some record.reason

theorem observe_under (command : InventoryCommand) (ledger : MainLedger)
    (seen : RelPath × FileStat) :
    (∃ row, (ledger.observe command seen).rowAt (command.locationId, seen.1.key) = some row ∧
      Shown seen row) ∧
      ∀ key, key ≠ (command.locationId, seen.1.key) →
        (ledger.observe command seen).rowAt key = ledger.rowAt key := by
  constructor
  · rw [rowAt_observe, if_pos rfl]
    refine ⟨_, rfl, ?_⟩
    split <;> exact ⟨rfl, rfl, rfl⟩
  · intro key hkey
    rw [rowAt_observe, if_neg hkey]

theorem observeUnsupported_under (command : InventoryCommand) (ledger : MainLedger)
    (record : UnsupportedRecord) :
    (∃ row, (ledger.observeUnsupported command record).rowAt (command.locationId, record.key) =
        some row ∧ Refused record row) ∧
      ∀ key, key ≠ (command.locationId, record.key) →
        (ledger.observeUnsupported command record).rowAt key = ledger.rowAt key := by
  constructor
  · rw [rowAt_observeUnsupported, if_pos rfl]
    refine ⟨_, rfl, ?_⟩
    split <;> exact ⟨rfl, rfl, rfl⟩
  · intro key hkey
    rw [rowAt_observeUnsupported, if_neg hkey]

/-- An upsert makes no row missing. -/
theorem missing_of_under {relKey : Str} {P : InventoryRow → Prop}
    (hP : ∀ row, P row → row.presence ≠ .missing)
    (h : (∃ row, later.rowAt (command.locationId, relKey) = some row ∧ P row) ∧
      ∀ key, key ≠ (command.locationId, relKey) → later.rowAt key = ledger.rowAt key)
    {row : InventoryRow} (hrow : row ∈ later.inventory) (hmissing : row.presence = .missing) :
    row ∈ ledger.inventory := by
  obtain ⟨⟨result, hresult, hholds⟩, hother⟩ := h
  have hat := rowAt_of_mem hrow
  by_cases hkey : row.key = (command.locationId, relKey)
  · rw [hkey, hresult] at hat
    obtain rfl := Option.some.inj hat
    exact absurd hmissing (hP result hholds)
  · rw [hother _ hkey] at hat
    exact (rowAt_eq_some.1 hat).1

theorem missing_foldl {α : Type} {step : MainLedger → α → MainLedger}
    (hstep : ∀ ledger a, ∀ row ∈ (step ledger a).inventory, row.presence = .missing →
      row ∈ ledger.inventory) (entries : List α) (ledger : MainLedger) :
    ∀ row ∈ (entries.foldl step ledger).inventory, row.presence = .missing →
      row ∈ ledger.inventory := by
  induction entries generalizing ledger with
  | nil => exact fun row hrow _ => hrow
  | cons a rest ih =>
      exact fun row hrow hmissing =>
        hstep ledger a row (ih (step ledger a) row hrow hmissing) hmissing

end MainLedger

/-! ## The whole reconciliation

First all that was seen, then, for a complete scan, all that was not, in chunks
of the tokens.  The chunks partition the tokens, so each row is met once. -/

namespace InventoryCommand

open MainLedger

variable {command : InventoryCommand} {ledger later : MainLedger}

/-- The ledger after the upserts. -/
def observeAll (command : InventoryCommand) (ledger : MainLedger) : MainLedger :=
  command.scan.unsupported.foldl (fun ledger record => ledger.observeUnsupported command record)
    (command.scan.observations.foldl (fun ledger seen => ledger.observe command seen) ledger)

theorem frames_observeAll : Frames command ledger (command.observeAll ledger) :=
  (Frames.foldl (fun _ seen => frames_observe seen) _ _).trans
    (Frames.foldl (fun _ record => frames_observeUnsupported record) _ _)

theorem missing_observeAll : ∀ row ∈ (command.observeAll ledger).inventory,
    row.presence = .missing → row ∈ ledger.inventory := by
  intro row hrow hmissing
  refine missing_foldl (fun ledger seen row hrow hmissing => ?_) _ _ row
    (missing_foldl (fun ledger record row hrow hmissing => ?_) _ _ row hrow hmissing) hmissing
  · exact missing_of_under (fun row h => by rw [h.1]; decide)
      (observe_under command ledger seen) hrow hmissing
  · exact missing_of_under (fun row h => by rw [h.1]; decide)
      (observeUnsupported_under command ledger record) hrow hmissing

/-- The ledger that a command leaves: the upserts, with one of the sweeps if
the scan is complete. -/
theorem reconcile_cases {counts : Nat × Nat}
    (h : command.reconcile ledger = .ok (counts, later)) :
    (command.scan.complete = true ∧ command.scan.isFullScan = true ∧
      command.scan.observedKeys.Nodup ∧
      later = ((command.observeAll ledger).sweep command command.unseen).2) ∨
    (command.scan.complete = true ∧ command.scan.isFullScan = false ∧ ∃ chunks : List (List Str),
      later = (chunks.foldl (fun (missing, ledger) chunk =>
        (missing + (ledger.sweep command (command.unseenAmong chunk)).1,
          (ledger.sweep command (command.unseenAmong chunk)).2))
        (0, command.observeAll ledger)).2) ∨
    (command.scan.complete = false ∧ later = command.observeAll ledger) := by
  unfold reconcile at h
  dsimp only at h
  rw [foldl_batches (by decide), foldl_batches (by decide)] at h
  split at h
  · next hfull =>
      obtain ⟨hcomplete, hscope⟩ := Bool.and_eq_true_iff.1 hfull
      split at h
      · next hnodup =>
          exact Or.inl ⟨hcomplete, hscope, hnodup, (Prod.mk.inj (Except.ok.inj h)).2.symm⟩
      · exact absurd h (by simp)
  · next hpartial =>
      split at h
      · next selected hcomplete hscope =>
          refine Or.inr (Or.inl ⟨hcomplete, ?_, _, (Prod.mk.inj (Except.ok.inj h)).2.symm⟩)
          unfold ScanResult.isFullScan
          rw [hscope]
      · next hneither =>
          refine Or.inr (Or.inr ⟨?_, (Prod.mk.inj (Except.ok.inj h)).2.symm⟩)
          cases hcomplete : command.scan.complete with
          | false => rfl
          | true =>
              cases hscope : command.scan.scope with
              | full => simp [hcomplete, ScanResult.isFullScan, hscope] at hpartial
              | paths selected => exact absurd hscope (hneither selected hcomplete)

theorem frames_chunks (chunks : List (List Str)) (missing : Nat) (ledger : MainLedger) :
    Frames command ledger (chunks.foldl (fun (missing, ledger) chunk =>
      (missing + (ledger.sweep command (command.unseenAmong chunk)).1,
        (ledger.sweep command (command.unseenAmong chunk)).2)) (missing, ledger)).2 := by
  induction chunks generalizing missing ledger with
  | nil => exact .refl
  | cons chunk rest ih =>
      refine Frames.trans (frames_sweep fun row h => ?_) (ih _ _)
      simp only [unseenAmong, Bool.and_eq_true, decide_eq_true_eq] at h
      exact h.1.1

theorem unseen_location (row : InventoryRow) (h : command.unseen row = true) :
    row.locationId = command.locationId := by
  simp only [unseen, Bool.and_eq_true, decide_eq_true_eq] at h
  exact h.1.1

theorem frames_reconcile {counts : Nat × Nat}
    (h : command.reconcile ledger = .ok (counts, later)) : Frames command ledger later := by
  rcases reconcile_cases h with ⟨-, -, -, rfl⟩ | ⟨-, -, chunks, rfl⟩ | ⟨-, rfl⟩
  · exact frames_observeAll.trans (frames_sweep unseen_location)
  · exact frames_observeAll.trans (frames_chunks chunks 0 _)
  · exact frames_observeAll

/-- After the upserts every entry has its row. -/
theorem rowAt_observeAll (hnodup : command.scan.observedKeys.Nodup) (ledger : MainLedger) :
    (∀ seen ∈ command.scan.observations, ∃ row,
      (command.observeAll ledger).rowAt (command.locationId, seen.1.key) = some row ∧
        Shown seen row) ∧
    ∀ record ∈ command.scan.unsupported, ∃ row,
      (command.observeAll ledger).rowAt (command.locationId, record.key) = some row ∧
        Refused record row := by
  obtain ⟨hseen, hrefused, hdisjoint⟩ := List.nodup_append.1 hnodup
  have hupserts := foldl_under (fun ledger seen => observe_under command ledger seen) hseen ledger
  have hrest :=
    foldl_under (fun ledger record => observeUnsupported_under command ledger record) hrefused
      (command.scan.observations.foldl (fun ledger seen => ledger.observe command seen) ledger)
  refine ⟨fun seen hmem => ?_, hrest.1⟩
  obtain ⟨row, hrow, hshown⟩ := hupserts.1 seen hmem
  refine ⟨row, ?_, hshown⟩
  unfold observeAll
  rw [hrest.2 _ fun record hrecord heq => ?_]
  · exact hrow
  · exact hdisjoint _ (List.mem_map_of_mem hmem) _ (List.mem_map_of_mem hrecord)
      (Prod.mk.inj heq).2

/-- The sweep spares what was seen. -/
theorem rowAt_swept_seen {key : Str} (hkey : key ∈ command.scan.observedKeys) :
    (ledger.sweep command command.unseen).2.rowAt (command.locationId, key) =
      ledger.rowAt (command.locationId, key) := by
  rw [rowAt_sweep]
  cases hat : ledger.rowAt (command.locationId, key) with
  | none => rfl
  | some row =>
      have hrow : row.relPath.key = key := congrArg Prod.snd (rowAt_eq_some.1 hat).2
      have hseen : command.unseen row = false := by
        unfold unseen
        rw [hrow]
        simp [hkey]
      rw [Option.map_some, hseen, if_neg Bool.false_ne_true]

/-- What it has not seen is missing. -/
theorem missing_swept {row : InventoryRow}
    (hrow : row ∈ (ledger.sweep command command.unseen).2.inventory)
    (hlocation : row.locationId = command.locationId)
    (hkey : row.relPath.key ∉ command.scan.observedKeys) : row.presence = .missing := by
  rcases Table.mem_change.1 hrow with ⟨old, -, -, rfl⟩ | ⟨-, hseen⟩
  · rfl
  · cases hpresence : row.presence with
    | missing => rfl
    | present => simp [unseen, hlocation, hkey, hpresence] at hseen
    | unsupported => simp [unseen, hlocation, hkey, hpresence] at hseen

/-! ## The command

With the receipt around it: a command is accepted and then reconciles, or finds
its receipt, or raises and leaves the ledger. -/

/-- The command gets as far as its statements, and they go through. -/
def Takes (command : InventoryCommand) (ledger : IntegrityLedger) : Prop :=
  command.online = true ∧ ledger.receipts.get? command.commandKey = none ∧
    command.validateLocation ledger.main = .ok () ∧
    (command.scan.complete = true → command.scan.isFullScan = true →
      command.scan.observedKeys.Nodup)

/-- A command that is not applied leaves the ledger as it was. -/
theorem recordInventory_cases [InventoryHash] (command : InventoryCommand)
    (ledger : IntegrityLedger) :
    (recordInventory command ledger).2 = ledger ∨
      command.Takes ledger ∧ ∃ counts later, command.reconcile ledger.main = .ok (counts, later) ∧
        (recordInventory command ledger).2.main = later := by
  unfold recordInventory
  cases honline : command.online with
  | false => exact Or.inl rfl
  | true =>
      rw [if_neg (by simp)]
      dsimp only
      split
      · split
        · exact Or.inl rfl
        · split <;> exact Or.inl rfl
      · next hfresh =>
          split
          · exact Or.inl rfl
          · next hlocation =>
              split
              · exact Or.inl rfl
              · next observed missing main hreconcile =>
                  refine Or.inr ⟨⟨honline, hfresh, hlocation, fun hcomplete hfull => ?_⟩,
                    (observed, missing), main, hreconcile, rfl⟩
                  rcases reconcile_cases hreconcile with ⟨-, -, h, -⟩ | ⟨-, h, -⟩ | ⟨h, -⟩
                  · exact h
                  · exact absurd (hfull.symm.trans h) (by simp)
                  · exact absurd (hcomplete.symm.trans h) (by simp)

/-- An online command with a fresh token that is accepted is reconciled. -/
theorem recordInventory_accepted [InventoryHash] {ledger : IntegrityLedger}
    (honline : command.online = true) (hfresh : ledger.receipts.get? command.commandKey = none)
    {result : InventoryReconcileResult} (h : (recordInventory command ledger).1 = .ok result) :
    ∃ counts,
      command.reconcile ledger.main = .ok (counts, (recordInventory command ledger).2.main) := by
  unfold recordInventory at h ⊢
  rw [honline, if_neg (by simp)] at h
  rw [honline, if_neg (by simp)]
  dsimp only at h ⊢
  rw [hfresh] at h ⊢
  dsimp only at h ⊢
  split at h
  · exact absurd h (by simp)
  · split at h
    · exact absurd h (by simp)
    · next observed missing main hreconcile =>
        rw [hreconcile]
        exact ⟨(observed, missing), rfl⟩

end InventoryCommand

/-- The scan shows a file or a directory below the root, with its stat. -/
def ScanResult.Shows (scan : ScanResult) (path : RelPath) (stat : FileStat) : Prop :=
  (∃ record ∈ scan.files, record.relPath = path ∧ record.stat = stat) ∨
    ∃ record ∈ scan.directories, record.relPath = some path ∧ record.stat = stat

theorem ScanResult.mem_observations {scan : ScanResult} {path : RelPath} {stat : FileStat} :
    (path, stat) ∈ scan.observations ↔ scan.Shows path stat := by
  unfold observations Shows
  rw [List.mem_append, List.mem_map, List.mem_filterMap]
  simp only [Prod.mk.injEq, Option.map_eq_some_iff]
  refine or_congr Iff.rfl (exists_congr fun record => and_congr_right fun _ => ?_)
  constructor
  · rintro ⟨_, hpath, rfl, hstat⟩
    exact ⟨hpath, hstat⟩
  · rintro ⟨hpath, hstat⟩
    exact ⟨path, hpath, rfl, hstat⟩

/-- The keys of all records of a scan, that of the root included. -/
def ScanResult.recordKeys (scan : ScanResult) : List Str :=
  scan.files.map FileRecord.key ++ scan.directories.map DirRecord.key ++
    scan.unsupported.map UnsupportedRecord.key

theorem ScanResult.observedKeys_nodup {scan : ScanResult} (h : scan.recordKeys.Nodup) :
    scan.observedKeys.Nodup := by
  refine h.sublist (List.Sublist.append ?_ (List.Sublist.refl _))
  unfold observations
  rw [List.map_append, List.map_map]
  refine List.Sublist.append (List.Sublist.refl _) ?_
  induction scan.directories with
  | nil => exact List.Sublist.refl _
  | cons record rest ih =>
      cases hpath : record.relPath with
      | none =>
          rw [List.filterMap_cons_none (by rw [hpath]; rfl), List.map_cons]
          exact ih.cons _
      | some path =>
          rw [List.filterMap_cons_some (b := (path, record.stat)) (by rw [hpath]; rfl),
            List.map_cons, List.map_cons,
            show record.key = path.key by unfold DirRecord.key; rw [hpath]; rfl]
          exact ih.cons_cons _

/-- The rows of the location of a command agree with its scan. -/
structure Reconciles (command : InventoryCommand) (later : MainLedger) : Prop where
  present : ∀ path observed,
    (∃ row ∈ later.inventory, row.locationId = command.locationId ∧ row.presence = .present ∧
      row.relPath = path ∧ row.observed = observed) ↔
    ∃ stat, observed = some stat ∧ command.scan.Shows path stat
  unsupported : ∀ path reason,
    (∃ row ∈ later.inventory, row.locationId = command.locationId ∧ row.presence = .unsupported ∧
      row.relPath = path ∧ row.unsupportedReason = reason) ↔
    ∃ record ∈ command.scan.unsupported, record.relPath = path ∧ reason = some record.reason
  missing : ∀ row ∈ later.inventory, row.locationId = command.locationId →
    (row.presence = .missing ↔ row.relPath.key ∉ command.scan.observedKeys)

open MainLedger InventoryCommand

theorem reconciles_full {command : InventoryCommand} {ledger later : MainLedger}
    {counts : Nat × Nat} (hnodup : command.scan.observedKeys.Nodup)
    (hcomplete : command.scan.complete = true) (hfull : command.scan.isFullScan = true)
    (h : command.reconcile ledger = .ok (counts, later)) : Reconciles command later := by
  obtain rfl : later = ((command.observeAll ledger).sweep command command.unseen).2 := by
    rcases reconcile_cases h with ⟨-, -, -, hlater⟩ | ⟨-, hpart, -⟩ | ⟨hnot, -⟩
    · exact hlater
    · exact absurd (hfull.symm.trans hpart) (by simp)
    · exact absurd (hcomplete.symm.trans hnot) (by simp)
  obtain ⟨hshown, hrefused⟩ := rowAt_observeAll hnodup ledger
  have hseenKey : ∀ seen ∈ command.scan.observations, seen.1.key ∈ command.scan.observedKeys :=
    fun seen hmem => List.mem_append_left _ (List.mem_map_of_mem hmem)
  have hrefusedKey : ∀ record ∈ command.scan.unsupported,
      record.key ∈ command.scan.observedKeys :=
    fun record hmem => List.mem_append_right _ (List.mem_map_of_mem hmem)
  -- what the row under the key of an entry is
  have hcases : ∀ row ∈ ((command.observeAll ledger).sweep command command.unseen).2.inventory,
      row.locationId = command.locationId → row.relPath.key ∈ command.scan.observedKeys →
      (∃ seen ∈ command.scan.observations, Shown seen row) ∨
        ∃ record ∈ command.scan.unsupported, Refused record row := by
    intro row hrow hlocation hkey
    have hat := rowAt_of_mem hrow
    rw [show row.key = (command.locationId, row.relPath.key) from Prod.ext hlocation rfl,
      rowAt_swept_seen hkey] at hat
    rcases List.mem_append.1 hkey with hmem | hmem
    · obtain ⟨seen, hseen, heq⟩ := List.mem_map.1 hmem
      obtain ⟨other, hother, hholds⟩ := hshown seen hseen
      rw [heq, hat] at hother
      exact Or.inl ⟨seen, hseen, Option.some.inj hother ▸ hholds⟩
    · obtain ⟨record, hrecord, heq⟩ := List.mem_map.1 hmem
      obtain ⟨other, hother, hholds⟩ := hrefused record hrecord
      rw [heq, hat] at hother
      exact Or.inr ⟨record, hrecord, Option.some.inj hother ▸ hholds⟩
  have hseen : ∀ row ∈ ((command.observeAll ledger).sweep command command.unseen).2.inventory,
      row.locationId = command.locationId → row.presence ≠ .missing →
      row.relPath.key ∈ command.scan.observedKeys := by
    intro row hrow hlocation hpresence
    by_contra hkey
    exact hpresence (missing_swept hrow hlocation hkey)
  constructor
  · intro path observed
    constructor
    · rintro ⟨row, hrow, hlocation, hpresence, rfl, rfl⟩
      rcases hcases row hrow hlocation (hseen row hrow hlocation (by rw [hpresence]; decide)) with
        ⟨seen, hmem, -, hpath, hstat⟩ | ⟨record, -, hunsupported, -⟩
      · exact ⟨seen.2, hstat, ScanResult.mem_observations.1 (by rw [hpath]; exact hmem)⟩
      · exact absurd (hpresence.symm.trans hunsupported) (by decide)
    · rintro ⟨stat, rfl, hshows⟩
      have hmem := ScanResult.mem_observations.2 hshows
      obtain ⟨row, hat, hpresence, hpath, hstat⟩ := hshown _ hmem
      rw [← rowAt_swept_seen (hseenKey _ hmem)] at hat
      obtain ⟨hrow, hkey⟩ := rowAt_eq_some.1 hat
      exact ⟨row, hrow, congrArg Prod.fst hkey, hpresence, hpath, hstat⟩
  · intro path reason
    constructor
    · rintro ⟨row, hrow, hlocation, hpresence, rfl, rfl⟩
      rcases hcases row hrow hlocation (hseen row hrow hlocation (by rw [hpresence]; decide)) with
        ⟨seen, -, hpresent, -⟩ | ⟨record, hmem, -, hpath, hreason⟩
      · exact absurd (hpresence.symm.trans hpresent) (by decide)
      · exact ⟨record, hmem, hpath.symm, hreason⟩
    · rintro ⟨record, hmem, rfl, rfl⟩
      obtain ⟨row, hat, hpresence, hpath, hreason⟩ := hrefused record hmem
      rw [← rowAt_swept_seen (hrefusedKey record hmem)] at hat
      obtain ⟨hrow, hkey⟩ := rowAt_eq_some.1 hat
      exact ⟨row, hrow, congrArg Prod.fst hkey, hpresence, hpath, hreason⟩
  · intro row hrow hlocation
    constructor
    · intro hmissing hkey
      rcases hcases row hrow hlocation hkey with ⟨-, -, hpresence, -⟩ | ⟨-, -, hpresence, -⟩
      · exact absurd (hmissing.symm.trans hpresence) (by decide)
      · exact absurd (hmissing.symm.trans hpresence) (by decide)
    · intro hkey
      exact missing_swept hrow hlocation hkey

/-- After an accepted command with a fresh token and a complete full scan,
the rows of its location are those of the scan and the missing ones.  A
command that is offline, or whose scan is incomplete, makes no row missing,
and none touches evidence or another location. -/
theorem inventory_reconciled [InventoryHash] (command : InventoryCommand)
    (ledger : IntegrityLedger) :
    (command.scan.recordKeys.Nodup → command.online = true →
      ledger.receipts.get? command.commandKey = none →
      (∃ result, (recordInventory command ledger).1 = .ok result) →
      command.scan.complete = true → command.scan.isFullScan = true →
      Reconciles command (recordInventory command ledger).2.main) ∧
    (command.online = false ∨ command.scan.complete = false →
      ∀ row ∈ (recordInventory command ledger).2.main.inventory, row.presence = .missing →
        row ∈ ledger.main.inventory) ∧
    (∀ row ∈ ledger.main.inventory, ∃ row' ∈ (recordInventory command ledger).2.main.inventory,
      MainLedger.KeepsEvidence row row') ∧
    ∀ row : InventoryRow, row.locationId ≠ command.locationId →
      (row ∈ (recordInventory command ledger).2.main.inventory ↔ row ∈ ledger.main.inventory) := by
  have hframes : Frames command ledger.main (recordInventory command ledger).2.main := by
    rcases recordInventory_cases command ledger with hsame | ⟨-, counts, later, hreconcile, hmain⟩
    · rw [hsame]
      exact .refl
    · rw [hmain]
      exact frames_reconcile hreconcile
  refine ⟨?_, ?_, hframes.rows, fun row hne => hframes.mem_iff hne⟩
  · rintro hkeys honline hfresh ⟨result, haccepted⟩ hcomplete hfull
    obtain ⟨counts, hreconcile⟩ := recordInventory_accepted honline hfresh haccepted
    exact reconciles_full (ScanResult.observedKeys_nodup hkeys) hcomplete hfull hreconcile
  · intro hpartial row hrow hmissing
    rcases recordInventory_cases command ledger with
      hsame | ⟨htakes, counts, later, hreconcile, hmain⟩
    · rw [hsame] at hrow
      exact hrow
    · have hincomplete := hpartial.resolve_left (by rw [htakes.1]; simp)
      rw [hmain] at hrow
      rcases reconcile_cases hreconcile with ⟨hcomplete, -⟩ | ⟨hcomplete, -⟩ | ⟨-, rfl⟩
      · exact absurd (hincomplete.symm.trans hcomplete) (by simp)
      · exact absurd (hincomplete.symm.trans hcomplete) (by simp)
      · exact missing_observeAll row hrow hmissing

end Reconciled

end NamiSync
