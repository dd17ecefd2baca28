/-
# `Workflows.TrustChain` — what the verifier's records may change

The verifier's classification, the checks of a command and the conditional
write of the recorder, put together.  Others may change the ledger at any
time before a row is recorded; the guards of the write are evaluated in its
own transaction, so what they have compared is what the write replaces.

## What is proved

    verification_trusted : every write of any chain of calls on one selection
      does to each row what `Trusted` allows, with the outcomes of the chain

with others changing the ledger before each write as they like.

## The argument

`Modules.VerifierRun` says that a write is a sanctioned command for a row with
one outcome, `Db.EvidenceLaw` what such a command does to a row.  The two meet
in the digest: of a verification the command's digest is the one read, and the
one the row is guarded by.
-/
import NamiSync.Db.EvidenceLaw
import NamiSync.Modules.VerifierRun

namespace NamiSync

section TrustChain

variable [Unicode]

/-- The outcome is that of the row. -/
def IntegrityOutcome.Of (outcome : IntegrityOutcome) (row : InventoryRow) : Prop :=
  outcome.rowId = row.id ∧ outcome.locationId = row.locationId

/-- The results that leave a row as it was. -/
def IntegrityResult.Inert : IntegrityResult → Prop
  | .verified | .baselined => False
  | .mismatched | .modified | .missing | .unsupported | .canceled | .error => True

variable [Sha256]

/-- A row has one outcome. -/
theorem Accounted.outcome_eq {Λ : Type} {mode : IntegrityMode} {recorder : IntegrityRecorder Λ}
    {selection : IntegritySelection} {state : VerifierState Λ}
    (h : Accounted mode recorder selection state) {row : InventoryRow}
    {outcome other : IntegrityOutcome} (houtcome : outcome ∈ state.outcomes)
    (hother : other ∈ state.outcomes) (hof : outcome.Of row) (hofOther : other.Of row) :
    outcome = other := by
  obtain ⟨item, hitem, hid, hrow, hlocation⟩ := h.outcomes_about outcome houtcome
  obtain ⟨item', hitem', hid', hrow', hlocation'⟩ := h.outcomes_about other hother
  have hsame : item = item' := by
    refine List.inj_on_of_nodup_map selection.rows_nodup hitem hitem' (Prod.ext ?_ ?_)
    · exact hlocation.symm.trans ((hof.2.trans hofOther.2.symm).trans hlocation')
    · exact hrow.symm.trans ((hof.1.trans hofOther.1.symm).trans hrow')
  refine List.inj_on_of_nodup_map h.outcomes_nodup houtcome hother ?_
  rw [hid, hid', hsame]

/-- What a record made by a verifier does to a row: the established digest
stays unless the evidence is replaced on request; the row is verified only
where what was read has the digest it held; and an outcome that is no
success leaves it alone. -/
structure Trusted (mode : IntegrityMode) (outcomes : List IntegrityOutcome) (bytes : List UInt8)
    (row row' : InventoryRow) : Prop where
  id_eq : row'.id = row.id
  digest_kept : mode ≠ .rebaseline → ∀ established ∈ row.attestation,
    ∃ attestation ∈ row'.attestation, attestation.content.digest = established.content.digest
  verified : row'.lastVerifiedAt ≠ row.lastVerifiedAt →
    (∃ outcome ∈ outcomes, outcome.Of row ∧ outcome.result = .verified) ∧
      ∃ established ∈ row.attestation, established.content.digest = Sha256.digest bytes
  inert : ∀ outcome ∈ outcomes, outcome.Of row → outcome.result.Inert → row' = row

theorem trusted_unchanged {mode : IntegrityMode} {outcomes : List IntegrityOutcome}
    {bytes : List UInt8} {row : InventoryRow} : Trusted mode outcomes bytes row row where
  id_eq := rfl
  digest_kept := fun _ established hestablished => ⟨established, hestablished, rfl⟩
  verified := fun hchanged => absurd rfl hchanged
  inert := fun _ _ _ _ => rfl

/-- A sanctioned command, carried out on its row. -/
theorem trusted_evidenced {mode : IntegrityMode} {outcomes : List IntegrityOutcome}
    {item : IntegritySelectionItem} {bytes : List UInt8} {result : IntegrityResult}
    {command : IntegrityRecordCommand} (h : Sanctioned mode item bytes result command)
    {row row' : InventoryRow} (hrow : Evidenced command row row') {outcome : IntegrityOutcome}
    (houtcome : outcome ∈ outcomes) (habout : outcome.About item)
    (hresult : outcome.result = result)
    (hunique : ∀ other ∈ outcomes, outcome.Of row → other.Of row → outcome = other) :
    Trusted mode outcomes bytes row row' := by
  rcases hrow with rfl | ⟨hid, hlocation, hexpected, rfl⟩
  · exact trusted_unchanged
  · have hof : outcome.Of row := by
      obtain ⟨-, hrowId, hlocationId⟩ := habout
      exact ⟨hrowId.trans (h.rowId_eq.symm.trans hid.symm),
        hlocationId.trans (h.locationId_eq.symm.trans hlocation.symm)⟩
    refine ⟨rfl, ?_, ?_, ?_⟩
    · intro hmode established hestablished
      rw [hexpected] at hestablished
      exact ⟨command.attestation, rfl, h.keeps hmode established hestablished⟩
    · intro hchanged
      have hadvances : command.advancesLastVerified = true := by
        by_contra hnot
        exact hchanged (if_neg hnot)
      obtain ⟨hverified, hmode, hsome⟩ := h.advances hadvances
      obtain ⟨established, hestablished⟩ := Option.isSome_iff_exists.1 hsome
      refine ⟨⟨outcome, houtcome, hof, hresult.trans hverified⟩, established, ?_, ?_⟩
      · rw [hexpected]
        exact hestablished
      · rw [← h.keeps (by rw [hmode]; simp) established hestablished, h.digest_eq]
    · intro other hother hofOther hinert
      rw [← hunique other hother hof hofOther, hresult] at hinert
      rcases h.result_eq with rfl | rfl
      · exact hinert.elim
      · exact hinert.elim

theorem verification_trusted [CommandHash] (selection : IntegritySelection) (mode : IntegrityMode)
    (calls : List (IntegritySelectionItem → ItemAnswers IntegrityLedger))
    (ledger : IntegrityLedger) :
    ∀ write ∈ (VerifierState.chain selection mode recordIntegrity calls
        { ledger := ledger }).writes,
      ∀ row ∈ write.before.main.inventory, ∃ row' ∈ write.after.main.inventory,
        Trusted mode (VerifierState.chain selection mode recordIntegrity calls
          { ledger := ledger }).outcomes write.bytes row row' := by
  intro write hwrite row hrow
  have haccounted : Accounted mode recordIntegrity selection
      (VerifierState.chain selection mode recordIntegrity calls { ledger := ledger }) :=
    (Accounted.initial ledger).chain calls
  rcases haccounted.writes_fit write hwrite with
    hsame | ⟨command, result, hsanctioned, hafter, outcome, houtcome, habout, hresult⟩
  · rw [hsame]
    exact ⟨row, hrow, trusted_unchanged⟩
  · obtain ⟨row', hrow', hevidenced⟩ := recordIntegrity_spec command write.before row hrow
    refine ⟨row', by rw [hafter]; exact hrow', ?_⟩
    exact trusted_evidenced hsanctioned hevidenced houtcome habout hresult
      fun other hother => haccounted.outcome_eq houtcome hother

end TrustChain

/-! A row with evidence, and the verification of it. -/

section Sample

local instance trustedUnicode : Unicode := asciiUnicode

/-- The digest of the three bytes. -/
local instance trustedSha : Sha256 where
  digest _ := firstEvidence.content.digest
  digest_length _ := rfl

/-- The hash of the command that the run comes to. -/
local instance trustedHash : CommandHash where
  integrity _ := [77, 144, 80, 19, 132, 136, 108, 253, 209, 150, 183, 136, 104, 116, 31, 232, 60,
    92, 55, 171, 25, 63, 173, 115, 24, 245, 84, 44, 22, 217, 88, 152]

theorem trustedItem_ne : str "i" ≠ [] := by decide

theorem trustedPaths_ne : str "A" ≠ [] ∧ str "a" ≠ [] ∧ str "s" ≠ [] := by decide

def trustedItem : IntegritySelectionItem where
  itemId := str "i"
  rowId := 1
  locationId := 1
  root := str "C"
  relPathKey := str "A"
  displayPath := str "a"
  expectedState := .present
  expectedStat := some evidenceStat
  baseline := some firstEvidence
  scopeToken := str "s"
  itemId_ne := trustedItem_ne
  paths_ne := trustedPaths_ne
  baseline_file := by decide

def trustedSelection : IntegritySelection where
  items := [trustedItem]
  itemIds_nodup := by decide
  rows_nodup := by decide
  paths_nodup := by decide

def trustedAnswers : ItemAnswers IntegrityLedger where
  signal := none
  stream :=
    { opened := .ok .windowsUnbuffered
      before := .ok evidenceStat
      chunks := [.chunk [97, 98, 99] none true]
      after := .ok evidenceStat
      observedAt := 1704067200000000 }
  interfere := id

def trustedRun : VerifierState IntegrityLedger :=
  VerifierState.chain trustedSelection .verify recordIntegrity [fun _ => trustedAnswers]
    { ledger := evidenceLedger (some firstEvidence) }

theorem verification_trusted_verified :
    ∃ write ∈ trustedRun.writes, ∃ row ∈ write.before.main.inventory,
      ∃ row' ∈ write.after.main.inventory,
        Trusted .verify trustedRun.outcomes write.bytes row row' ∧
          row'.lastVerifiedAt ≠ row.lastVerifiedAt := by
  have hwrites : trustedRun.writes.length = 1 := by decide +kernel
  have hbefore : trustedRun.writes.all (fun write => write.before.main.inventory.length = 1 ∧
      write.before.main.inventory.all (·.lastVerifiedAt.isNone)) = true := by decide +kernel
  have hafter : trustedRun.writes.all (fun write =>
      write.after.main.inventory.all (·.lastVerifiedAt.isSome)) = true := by decide +kernel
  obtain ⟨write, hsingle⟩ := List.length_eq_one_iff.1 hwrites
  have hmem : write ∈ trustedRun.writes := by
    rw [hsingle]
    exact List.mem_singleton_self write
  obtain ⟨hone, hnone⟩ := of_decide_eq_true (List.all_eq_true.1 hbefore write hmem)
  obtain ⟨row, hrows⟩ := List.length_eq_one_iff.1 hone
  have hrow : row ∈ write.before.main.inventory := by
    rw [hrows]
    exact List.mem_singleton_self row
  obtain ⟨row', hrow', htrusted⟩ := verification_trusted trustedSelection .verify
    [fun _ => trustedAnswers] (evidenceLedger (some firstEvidence)) write hmem row hrow
  refine ⟨write, hmem, row, hrow, row', hrow', htrusted, ?_⟩
  have hunverified := List.all_eq_true.1 hnone row hrow
  have hverified := List.all_eq_true.1 (List.all_eq_true.1 hafter write hmem) row' hrow'
  intro hsame
  rw [hsame, Option.isNone_iff_eq_none.1 hunverified] at hverified
  cases hverified

end Sample

end NamiSync
