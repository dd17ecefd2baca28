/-
# `Db.EvidenceLaw` — what a command may make of the evidence for a row

`record_integrity` compares the row with the command in the transaction that
writes it.  An established digest is replaced only on request, unless a
verification brings a digest of its own, which neither the command nor the
recorder looks at.  A receipt answers before any guard does.

## What is proved

    evidence_written_lawfully : for a command whose digest agrees with the one
      it expects where it is a verification, an established digest is replaced
      by a rebaseline only, and the time of verification advances on the digest
      the row has only; and a command with a guard that fails changes nothing,
      and is stale where no receipt answers for it

`evidence_law_broken` has the two reasons for the conditions: a verification
that brings another digest replaces the one of the row, and a repeated command
is answered by its receipt although its guards fail by then.
-/
import NamiSync.Db.Integrity

namespace NamiSync

section EvidenceLaw

variable [Unicode]

/-- What a command may do to a row: nothing, or the `UPDATE`, if it is the
command's row and holds the evidence that the command expects. -/
def Evidenced (command : IntegrityRecordCommand) (row row' : InventoryRow) : Prop :=
  row' = row ∨
    (row.id = command.rowId ∧ row.locationId = command.locationId ∧
      row.attestation = command.expectedBaseline ∧ row' = evidencedRow command row)

theorem applyIntegrity_spec (ledger : MainLedger) (command : IntegrityRecordCommand) :
    ∀ row ∈ ledger.inventory,
      ∃ row' ∈ (ledger.applyIntegrity command).2.inventory, Evidenced command row row' := by
  intro row hrow
  unfold MainLedger.applyIntegrity
  cases hfind : ledger.inventory.find? (·.id = command.rowId) with
  | none => exact ⟨row, hrow, Or.inl rfl⟩
  | some found =>
      dsimp only
      split
      · exact ⟨row, hrow, Or.inl rfl⟩
      · next hexpects =>
          split
          · exact ⟨row, hrow, Or.inl rfl⟩
          · by_cases hid : row.id = command.rowId
            · have hfoundId : found.id = command.rowId := by simpa using List.find?_some hfind
              obtain rfl : row = found := ledger.inventory_keyed.eq_of_id hrow
                (List.mem_of_find?_eq_some hfind) (hid.trans hfoundId.symm)
              refine ⟨evidencedRow command row,
                Table.mem_change.2 (Or.inl ⟨row, hrow, hid, rfl⟩), Or.inr ⟨hid, ?_, ?_, rfl⟩⟩
              · simp [IntegrityRecordCommand.expects] at hexpects
                exact hexpects.1.1.1.1.1
              · simp [IntegrityRecordCommand.expects, rowMatchesAttestation] at hexpects
                exact hexpects.2
            · exact ⟨row, Table.mem_change.2 (Or.inr ⟨hrow, hid⟩), Or.inl rfl⟩

theorem recordIntegrity_spec [CommandHash] (command : IntegrityRecordCommand)
    (ledger : IntegrityLedger) :
    ∀ row ∈ ledger.main.inventory,
      ∃ row' ∈ (recordIntegrity command ledger).2.main.inventory, Evidenced command row row' := by
  intro row hrow
  unfold recordIntegrity
  cases ledger.receipts.get? command.commandKey with
  | none => exact applyIntegrity_spec ledger.main command row hrow
  | some receipt =>
      dsimp only
      split
      · exact ⟨row, hrow, Or.inl rfl⟩
      · split
        · exact ⟨row, hrow, Or.inl rfl⟩
        · exact ⟨row, hrow, Or.inl rfl⟩

/-! ## The law

A digest is written under a guard: the row stands as the command expects it.
What may become of a digest is said by `KeepsDigest` and `VerifiesDigest`. -/

/-- The `content_digest` of a row. -/
def InventoryRow.contentDigest (row : InventoryRow) : Option (List UInt8) :=
  row.attestation.map fun attestation => attestation.content.digest

namespace IntegrityRecordCommand

variable (command : IntegrityRecordCommand)

/-- Every guard of the command matches a row. -/
def Guarded (ledger : MainLedger) : Prop :=
  ∃ row ∈ ledger.inventory, row.id = command.rowId ∧ row.locationId = command.locationId ∧
    row.relPath.key = command.relPathKey ∧ row.presence = .present ∧
    row.scopeToken = command.scopeToken ∧ row.observed = some command.expectedStat ∧
    row.attestation = command.expectedBaseline

/-- An established digest is replaced only by a rebaseline. -/
def KeepsDigest (row row' : InventoryRow) : Prop :=
  row.contentDigest.isSome = true → row'.contentDigest ≠ row.contentDigest →
    command.mode = .rebaseline

/-- The time of verification advances only on the digest that the row
has. -/
def VerifiesDigest (row row' : InventoryRow) : Prop :=
  row'.lastVerifiedAt ≠ row.lastVerifiedAt →
    row.contentDigest = some command.attestation.content.digest

/-- The law without regard to receipts and to what a verification brings. -/
def WritesLawfully [CommandHash] (ledger : IntegrityLedger) : Prop :=
  (∀ row ∈ ledger.main.inventory, ∃ row' ∈ (recordIntegrity command ledger).2.main.inventory,
    row'.id = row.id ∧ command.KeepsDigest row row' ∧ command.VerifiesDigest row row') ∧
  (¬ command.Guarded ledger.main →
    (recordIntegrity command ledger).1 = .ok .stale ∧
      (recordIntegrity command ledger).2.main.inventory = ledger.main.inventory)

/-- A verification brings the digest that it expects. -/
def Agrees : Prop :=
  command.mode = .verify → ∀ baseline ∈ command.expectedBaseline,
    command.attestation.content.digest = baseline.content.digest

end IntegrityRecordCommand

variable {command : IntegrityRecordCommand}

theorem keepsDigest_refl {row : InventoryRow} : command.KeepsDigest row row :=
  fun _ hne => absurd rfl hne

theorem verifiesDigest_refl {row : InventoryRow} : command.VerifiesDigest row row :=
  fun hne => absurd rfl hne

theorem Evidenced.id_eq {row row' : InventoryRow} (h : Evidenced command row row') :
    row'.id = row.id := by
  rcases h with rfl | ⟨-, -, -, rfl⟩ <;> rfl

theorem Evidenced.keepsDigest (hagrees : command.Agrees) {row row' : InventoryRow}
    (h : Evidenced command row row') : command.KeepsDigest row row' := by
  rcases h with rfl | ⟨-, -, hexpected, rfl⟩
  · exact keepsDigest_refl
  · intro hsome hne
    unfold InventoryRow.contentDigest at hsome hne
    rw [Option.isSome_map, hexpected] at hsome
    obtain ⟨baseline, hbaseline⟩ := Option.isSome_iff_exists.1 hsome
    cases hmode : command.mode with
    | rebaseline => rfl
    | baseline =>
        rw [command.baseline_none hmode] at hbaseline
        exact absurd hbaseline (by simp)
    | verify =>
        refine absurd ?_ hne
        rw [hexpected, hbaseline]
        exact congrArg some (hagrees hmode baseline hbaseline)

theorem Evidenced.verifiesDigest (hagrees : command.Agrees) {row row' : InventoryRow}
    (h : Evidenced command row row') : command.VerifiesDigest row row' := by
  rcases h with rfl | ⟨-, -, hexpected, rfl⟩
  · exact verifiesDigest_refl
  · intro hne
    have hadvances : command.advancesLastVerified = true := by
      by_contra hnot
      exact hne (if_neg hnot)
    have hmode := command.advances_iff.1 hadvances
    obtain ⟨baseline, hbaseline⟩ := Option.isSome_iff_exists.1 (command.verify_some hmode)
    unfold InventoryRow.contentDigest
    rw [hexpected, hbaseline]
    exact congrArg some (hagrees hmode baseline hbaseline).symm

theorem guarded_of_expects {ledger : MainLedger} {row : InventoryRow}
    (hrow : row ∈ ledger.inventory)
    (hid : row.id = command.rowId) (h : command.expects row = true) : command.Guarded ledger := by
  unfold IntegrityRecordCommand.expects rowMatchesStat rowMatchesAttestation at h
  simp only [Bool.and_eq_true, decide_eq_true_eq] at h
  obtain ⟨⟨⟨⟨⟨hlocation, hkey⟩, hpresence⟩, hscope⟩, hstat⟩, hattestation⟩ := h
  exact ⟨row, hrow, hid, hlocation, hkey, hpresence, hscope, hstat, hattestation⟩

/-- A command with a guard that fails writes nothing. -/
theorem applyIntegrity_stale {ledger : MainLedger} (h : ¬ command.Guarded ledger) :
    ledger.applyIntegrity command = (.stale, ledger) := by
  unfold MainLedger.applyIntegrity
  cases hfind : ledger.inventory.find? (·.id = command.rowId) with
  | none => rfl
  | some row =>
      have hid : row.id = command.rowId := by simpa using List.find?_some hfind
      dsimp only
      cases hexpects : command.expects row with
      | false => exact if_pos rfl
      | true =>
          exact absurd (guarded_of_expects (List.mem_of_find?_eq_some hfind) hid hexpects) h

/-- A receipt keeps the ledger as it is. -/
theorem recordIntegrity_receipt [CommandHash] {ledger : IntegrityLedger} {receipt : CommandReceipt}
    (h : ledger.receipts.get? command.commandKey = some receipt) :
    (recordIntegrity command ledger).2 = ledger := by
  unfold recordIntegrity
  rw [h]
  dsimp only
  split
  · rfl
  · split <;> rfl

theorem recordIntegrity_fresh [CommandHash] {ledger : IntegrityLedger}
    (h : ledger.receipts.get? command.commandKey = none) :
    (recordIntegrity command ledger).1 = .ok (ledger.main.applyIntegrity command).1 ∧
      (recordIntegrity command ledger).2.main = (ledger.main.applyIntegrity command).2 := by
  unfold recordIntegrity
  rw [h]
  exact ⟨rfl, rfl⟩

/-- A command whose guards do not all match leaves the main ledger as it is,
and is stale unless a receipt has answered; any other replaces an
established digest only as a rebaseline, and advances the time of
verification only on the digest of the row, provided that a verification
brings the digest that it expects. -/
theorem evidence_written_lawfully [CommandHash] (command : IntegrityRecordCommand)
    (ledger : IntegrityLedger) :
    (∀ row ∈ ledger.main.inventory, ∃ row' ∈ (recordIntegrity command ledger).2.main.inventory,
      row'.id = row.id ∧ (command.Agrees → command.KeepsDigest row row') ∧
        (command.Agrees → command.VerifiesDigest row row')) ∧
    (¬ command.Guarded ledger.main →
      (ledger.receipts.get? command.commandKey = none →
        (recordIntegrity command ledger).1 = .ok .stale) ∧
      (recordIntegrity command ledger).2.main = ledger.main) := by
  constructor
  · intro row hrow
    obtain ⟨row', hrow', hevidenced⟩ := recordIntegrity_spec command ledger row hrow
    exact ⟨row', hrow', hevidenced.id_eq, fun h => hevidenced.keepsDigest h,
      fun h => hevidenced.verifiesDigest h⟩
  · intro hguard
    have hstale := applyIntegrity_stale hguard
    cases hreceipt : ledger.receipts.get? command.commandKey with
    | none =>
        obtain ⟨hanswer, hmain⟩ := recordIntegrity_fresh hreceipt
        rw [hstale] at hanswer hmain
        exact ⟨fun _ => hanswer, hmain⟩
    | some receipt =>
        exact ⟨fun h => absurd h (by simp), congrArg IntegrityLedger.main
          (recordIntegrity_receipt hreceipt)⟩

end EvidenceLaw

/-! A row gets its baseline twice, and is then verified with a digest of its
own. -/

section Sample

local instance evidenceUnicode : Unicode := asciiUnicode

local instance evidenceHash : CommandHash where
  integrity command :=
    if command.mode = .baseline then
      [56, 55, 68, 83, 58, 118, 80, 102, 170, 204, 121, 112, 157, 80, 232, 122, 114, 82, 185, 7, 48,
        233, 214, 6, 61, 73, 217, 89, 169, 136, 13, 87]
    else
      [188, 227, 163, 219, 211, 167, 56, 177, 247, 9, 18, 75, 155, 20, 221, 246, 58, 109, 219, 154,
        133, 179, 78, 37, 13, 81, 11, 177, 139, 115, 133, 127]

def evidenceStat : FileStat where
  kind := .file
  size := 3
  mtimeNs := 1700000000000000000
  fileIdentity := none
  nlink := 1
  metadata := ⟨0x20, none⟩

def firstEvidence : Attestation where
  content := { abcEvidence 1704067200000000 with provenance := .verifyAttested }
  subject := evidenceStat

def secondEvidence : Attestation where
  content :=
    { digest := [54, 8, 188, 161, 228, 78, 166, 196, 210, 104, 235, 109, 176, 34, 96, 38, 152, 146,
        192, 180, 43, 134, 187, 241, 231, 122, 111, 161, 108, 60, 146, 130]
      size := 3
      provenance := .verifyAttested
      observedAt := 1704067200000000 }
  subject := evidenceStat

/-- A command for the row of the sample. -/
def evidenceCommand (mode : IntegrityMode) (baseline : Option Attestation)
    (attestation : Attestation) (advances : Bool)
    (hguards : evidenceStat.guards attestation.subject)
    (hbaseline : mode = .baseline → baseline = none)
    (hverify : mode = .verify → baseline.isSome = true)
    (hadvances : advances = true ↔ mode = .verify) : IntegrityRecordCommand where
  mode := mode
  itemId := str "i"
  rowId := 1
  locationId := 1
  relPathKey := str "A"
  scopeToken := str "s"
  expectedState := .present
  expectedStat := evidenceStat
  expectedBaseline := baseline
  attestation := attestation
  advancesLastVerified := advances
  clearReappeared := false
  present := rfl
  subject_guarded := hguards
  baseline_none := hbaseline
  verify_some := hverify
  advances_iff := hadvances

def baselineCommand : IntegrityRecordCommand :=
  evidenceCommand .baseline none firstEvidence false (by decide) (by simp) (by simp) (by simp)

def verifyCommand : IntegrityRecordCommand :=
  evidenceCommand .verify (some firstEvidence) secondEvidence true (by decide) (by simp) (by simp)
    (by simp)

/-- The ledger with the row, with or without evidence. -/
def evidenceLedger (attestation : Option Attestation) : IntegrityLedger where
  main :=
    { locations := .empty
      mappings := .empty
      inventory :=
        [{ id := 1
           locationId := 1
           relPath := .single (str "a") (by decide +kernel)
           presence := .present
           observed := some evidenceStat
           lastObservedAt := 1704067200000000
           hostId := 1
           scopeToken := str "s"
           attestation := attestation }]
      correspondence := []
      operations := []
      inventory_keyed := ⟨by simp, by simp⟩
      correspondence_distinct := List.Pairwise.nil
      correspondence_joins := fun _ h => absurd h List.not_mem_nil }

def baselinedLedger : IntegrityLedger :=
  (recordIntegrity baselineCommand (evidenceLedger none)).2

/-- The verification replaces the digest, and the repeated baseline, none of
whose evidence matches any more, is answered by its receipt. -/
theorem evidence_law_broken :
    ¬ verifyCommand.WritesLawfully (evidenceLedger (some firstEvidence)) ∧
      ¬ baselineCommand.WritesLawfully baselinedLedger := by
  constructor
  · rintro ⟨hrows, -⟩
    obtain ⟨row', hrow', -, hkeeps, -⟩ := hrows _ List.mem_cons_self
    have hdigest : ∀ row ∈ (recordIntegrity verifyCommand
        (evidenceLedger (some firstEvidence))).2.main.inventory,
        row.contentDigest = some secondEvidence.content.digest := by decide +kernel
    have hmode := hkeeps rfl (by rw [hdigest row' hrow']; decide)
    exact absurd hmode (by decide)
  · rintro ⟨-, hstale⟩
    have hrows : ∀ row ∈ baselinedLedger.main.inventory,
        row.attestation ≠ baselineCommand.expectedBaseline := by decide +kernel
    have hguard : ¬ baselineCommand.Guarded baselinedLedger.main := by
      rintro ⟨row, hrow, -, -, -, -, -, -, hattestation⟩
      exact hrows row hrow hattestation
    have hnoop : (recordIntegrity baselineCommand baselinedLedger).1.toOption = some .noop := by
      decide +kernel
    rw [(hstale hguard).1] at hnoop
    exact absurd hnoop (by decide)

end Sample

end NamiSync
