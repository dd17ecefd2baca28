/-
# `Core.Integrity` — the vocabulary of verification

`core/integrity.py`: selected rows, outcomes, and the command by which the
verifier asks for evidence to be recorded.  The `__post_init__` checks are
fields; the command, which the verifier builds from what it has read, also
has its checking constructor.

`checked_spec` says what a command that was built asks for: mode, row, location
and expected baseline are those of the item it was built for.
-/
import NamiSync.Core.Attestation
import NamiSync.Core.Evidence
import NamiSync.Lib.Dict

namespace NamiSync

inductive InventoryState
  | present | missing | unsupported
  deriving DecidableEq, Repr

inductive IntegrityResult
  | verified | baselined | mismatched | modified | missing | unsupported | canceled | error
  deriving DecidableEq, Repr

inductive IntegrityMode
  | baseline | verify | rebaseline
  deriving DecidableEq, Repr

inductive IntegrityReason
  | pathInvalid | inventoryMissing | inventoryUnsupported | notFound | unsupportedRead
  | statChanged | readDrift | hashMismatch | baselineExists | readError | recordingStale
  | recordingConflict | recordingError | canceled
  deriving DecidableEq, Repr

inductive ReadStrategy
  | windowsUnbuffered
  deriving DecidableEq, Repr

inductive RecordDisposition
  | applied | noop | stale | conflict
  deriving DecidableEq, Repr

/-- `IntegritySelectionItem`.  The row and the location are named by the
decimal texts of their numbers. -/
structure IntegritySelectionItem where
  itemId : Str
  rowId : Nat
  locationId : Nat
  root : Str
  relPathKey : Str
  displayPath : Str
  expectedState : InventoryState
  expectedStat : Option FileStat
  baseline : Option Attestation
  scopeToken : Str
  reappearedAt : Option Utc := none
  itemId_ne : itemId ≠ [] := by decide
  paths_ne : relPathKey ≠ [] ∧ displayPath ≠ [] ∧ scopeToken ≠ [] := by decide
  present_iff : expectedState = .present ↔ expectedStat.isSome = true := by decide
  baseline_file : ∀ attestation ∈ baseline, attestation.subject.kind = .file ∧
    attestation.content.size = attestation.subject.size := by simp

instance : DecidableEq IntegritySelectionItem := fun a b =>
  decidable_of_iff
    (a.itemId = b.itemId ∧ a.rowId = b.rowId ∧ a.locationId = b.locationId ∧ a.root = b.root ∧
     a.relPathKey = b.relPathKey ∧ a.displayPath = b.displayPath ∧
     a.expectedState = b.expectedState ∧ a.expectedStat = b.expectedStat ∧
     a.baseline = b.baseline ∧ a.scopeToken = b.scopeToken ∧ a.reappearedAt = b.reappearedAt)
    (by cases a; cases b; simp)

/-- The selected rows of `IntegritySelection`. -/
structure IntegritySelection where
  items : List IntegritySelectionItem
  itemIds_nodup : (items.map IntegritySelectionItem.itemId).Nodup
  rows_nodup : (items.map fun item => (item.locationId, item.rowId)).Nodup
  paths_nodup : (items.map fun item => (item.locationId, item.relPathKey)).Nodup

/-- Its continuation: the completed items with the bytes read for each, and
all bytes processed. -/
structure IntegrityContinuation where
  completedBytes : Dict Str Nat := .empty
  processedBytes : Nat := 0

/-- `pending`. -/
def IntegrityContinuation.pending (continuation : IntegrityContinuation)
    (selection : IntegritySelection) : List IntegritySelectionItem :=
  selection.items.filter fun item => !continuation.completedBytes.contains item.itemId

/-- `mark_completed`; the item is one of the selection. -/
def IntegrityContinuation.markCompleted (continuation : IntegrityContinuation) (itemId : Str)
    (bytesRead : Nat) : Except Str IntegrityContinuation :=
  if continuation.completedBytes.contains itemId then
    .error (str "integrity item already completed: " ++ itemId)
  else
    .ok { continuation with completedBytes := continuation.completedBytes.set itemId bytesRead }

structure IntegrityOutcome where
  itemId : Str
  rowId : Nat
  locationId : Nat
  path : Str
  result : IntegrityResult
  reason : Option IntegrityReason := none
  detail : Option Str := none
  readStrategy : Option ReadStrategy := none
  recording : RecordingStatus := .ok
  recordDisposition : Option RecordDisposition := none
  deriving DecidableEq

/-- The recording status that the outcomes of a call determine. -/
def integrityRecording (outcomes : List IntegrityOutcome) : RecordingStatus :=
  if ∃ outcome ∈ outcomes, outcome.recording = .degraded then .degraded else .ok

/-- `IntegrityRunResult`. -/
structure IntegrityRunResult where
  outcomes : List IntegrityOutcome
  recording : RecordingStatus
  recording_eq : recording = integrityRecording outcomes
  deriving DecidableEq

/-- Same kind, size, time and identity. -/
def FileStat.guards (expected subject : FileStat) : Prop :=
  subject.kind = expected.kind ∧ subject.size = expected.size ∧
    subject.mtimeNs = expected.mtimeNs ∧ subject.fileIdentity = expected.fileIdentity

instance (expected subject : FileStat) : Decidable (expected.guards subject) :=
  inferInstanceAs (Decidable (_ ∧ _))

/-- `IntegrityRecordCommand`. -/
structure IntegrityRecordCommand where
  mode : IntegrityMode
  itemId : Str
  rowId : Nat
  locationId : Nat
  relPathKey : Str
  scopeToken : Str
  expectedState : InventoryState
  expectedStat : FileStat
  expectedBaseline : Option Attestation
  attestation : Attestation
  advancesLastVerified : Bool
  clearReappeared : Bool
  present : expectedState = .present
  subject_guarded : expectedStat.guards attestation.subject
  baseline_none : mode = .baseline → expectedBaseline = none
  verify_some : mode = .verify → expectedBaseline.isSome = true
  advances_iff : advancesLastVerified = true ↔ mode = .verify
  deriving DecidableEq

/-- Its constructor; the error is the text of the `ValueError`. -/
def IntegrityRecordCommand.checked (mode : IntegrityMode) (item : IntegritySelectionItem)
    (expectedStat : FileStat) (attestation : Attestation) (advancesLastVerified : Bool) :
    Except Str IntegrityRecordCommand :=
  if hpresent : item.expectedState = .present then
    if hguarded : expectedStat.guards attestation.subject then
      if hbaseline : mode = .baseline → item.baseline = none then
        if hverify : mode = .verify → item.baseline.isSome = true then
          if hadvances : advancesLastVerified = true ↔ mode = .verify then
            .ok
              { mode := mode
                itemId := item.itemId
                rowId := item.rowId
                locationId := item.locationId
                relPathKey := item.relPathKey
                scopeToken := item.scopeToken
                expectedState := item.expectedState
                expectedStat := expectedStat
                expectedBaseline := item.baseline
                attestation := attestation
                advancesLastVerified := advancesLastVerified
                clearReappeared := item.reappearedAt.isSome
                present := hpresent
                subject_guarded := hguarded
                baseline_none := hbaseline
                verify_some := hverify
                advances_iff := hadvances }
          else .error (str "only a prior-evidence verification match advances time")
        else .error (str "verification commands require established evidence")
      else .error (str "baseline commands require no established evidence")
    else .error (str "new attestation must match the guarded kind/size/mtime/identity")
  else .error (str "integrity evidence can be recorded only for present rows")

/-- What a command built for an item asks for. -/
theorem IntegrityRecordCommand.checked_spec {mode : IntegrityMode} {item : IntegritySelectionItem}
    {expectedStat : FileStat} {attestation : Attestation} {advances : Bool}
    {command : IntegrityRecordCommand}
    (h : IntegrityRecordCommand.checked mode item expectedStat attestation advances = .ok command) :
    command.mode = mode ∧ command.rowId = item.rowId ∧ command.locationId = item.locationId ∧
      command.expectedBaseline = item.baseline ∧ command.attestation = attestation := by
  unfold IntegrityRecordCommand.checked at h
  split at h
  · split at h
    · split at h
      · split at h
        · split at h
          · obtain rfl := Except.ok.inj h
            exact ⟨rfl, rfl, rfl, rfl, rfl⟩
          · exact absurd h (by simp)
        · exact absurd h (by simp)
      · exact absurd h (by simp)
    · exact absurd h (by simp)
  · exact absurd h (by simp)

end NamiSync
