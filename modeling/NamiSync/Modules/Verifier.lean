/-
# `Modules.Verifier` — baseline, verify and rebaseline

`modules/verifier.py`.  The reader, the clock and the checkpoints of a call
are its answers for each selected row; the recorder is a function on the
ledger, whatever a ledger is.  Closing a stream raises nothing.

## The ledger is a parameter

A recorder is a function on some type of ledgers.  `Workflows.TrustChain`
puts the recorder of `Db.Integrity` in its place; the results about progress,
continuation and classification hold for any.  Between two rows others may
change the ledger as they like, and a record may fail without effect.

A pause leaves the loop with its continuation, so a chain of calls is a list
of answers, one for each call.
-/
import NamiSync.Core.Integrity
import NamiSync.Core.Session

namespace NamiSync

/-! ## What a call is told -/

/-- What opening or reading a stream raises: a `FileNotFoundError`, an
`UnsupportedVerification`, or any other exception, with its
`_error_detail`. -/
inductive ReadFault
  | notFound (detail : Str)
  | unsupported (detail : Str)
  | other (detail : Str)
  deriving DecidableEq

/-- One step of the loop over `iter_chunks`: the iterator raises, or it
yields a chunk and the checkpoint behind it answers; `due` says whether the
progress interval has passed. -/
inductive ChunkAnswer
  | raised (fault : ReadFault)
  | chunk (bytes : List UInt8) (signal : Option Signal) (due : Bool)
  deriving DecidableEq

/-- A stream and the clock, for one row. -/
structure StreamAnswers where
  opened : Except ReadFault ReadStrategy
  before : Except ReadFault FileStat
  chunks : List ChunkAnswer
  after : Except ReadFault FileStat
  observedAt : Utc

def ChunkAnswer.bytes : ChunkAnswer → List UInt8
  | .raised _ => []
  | .chunk bytes _ _ => bytes

/-- The bytes of a stream that is read to its end. -/
def StreamAnswers.bytes (answers : StreamAnswers) : List UInt8 :=
  answers.chunks.flatMap ChunkAnswer.bytes

/-- The answers for a row: the checkpoint before it, its stream, what others
do to the ledger before the record is made, and whether the transaction
fails. -/
structure ItemAnswers (Λ : Type) where
  signal : Option Signal
  stream : StreamAnswers
  interfere : Λ → Λ
  recorderFault : Option Str := none

/-- `IntegrityRecorder`: a disposition, or the detail of what it raises. -/
abbrev IntegrityRecorder (Λ : Type) :=
  IntegrityRecordCommand → Λ → Except Str RecordDisposition × Λ

/-! ## Progress -/

/-- The counters of a `Progress`. -/
structure ProgressReport where
  itemsDone : Nat
  itemsTotal : Nat
  bytesDone : Nat
  bytesTotal : Nat
  currentPath : Option Str
  deriving DecidableEq

inductive VerifierEvent
  | progress (report : ProgressReport)
  | outcome (outcome : IntegrityOutcome)
  deriving DecidableEq

/-- The continuation, the `_bytes_total` of the reporter, and what has been
emitted. -/
structure VerifierProgress where
  continuation : IntegrityContinuation := {}
  bytesTotal : Nat := 0
  events : List VerifierEvent := []

namespace VerifierProgress

variable (selection : IntegritySelection) (progress : VerifierProgress)

/-- `_ProgressReporter.emit`, once it is due. -/
def report (currentPath : Option Str) : VerifierProgress :=
  { progress with
    events := progress.events ++
      [.progress
        { itemsDone := progress.continuation.completedBytes.keys.length
          itemsTotal := selection.items.length
          bytesDone := progress.continuation.processedBytes
          bytesTotal := progress.bytesTotal
          currentPath := currentPath }] }

/-- `bytes_processed`: a subject that grows raises the total. -/
def bytesProcessed (size : Nat) (currentPath : Str) (due : Bool) : VerifierProgress :=
  let processed := progress.continuation.processedBytes + size
  let progress :=
    { progress with
      continuation := { progress.continuation with processedBytes := processed }
      bytesTotal := max progress.bytesTotal processed }
  if due then progress.report selection (some currentPath) else progress

/-- `_ProgressReporter.__init__`. -/
def begin : VerifierProgress :=
  let sizes := (progress.continuation.pending selection).map fun item =>
    match item.expectedState, item.expectedStat with
    | .present, some stat => stat.size
    | _, _ => 0
  let progress :=
    { progress with bytesTotal := progress.continuation.processedBytes + sizes.sum }
  progress.report selection none

end VerifierProgress

/-! ## One row -/

/-- `_outcome`. -/
def integrityOutcome (item : IntegritySelectionItem) (result : IntegrityResult)
    (reason : Option IntegrityReason := none) (detail : Option Str := none)
    (readStrategy : Option ReadStrategy := none) (recording : RecordingStatus := .ok)
    (recordDisposition : Option RecordDisposition := none) : IntegrityOutcome where
  itemId := item.itemId
  rowId := item.rowId
  locationId := item.locationId
  path := item.displayPath
  result := result
  reason := reason
  detail := detail
  readStrategy := readStrategy
  recording := recording
  recordDisposition := recordDisposition

/-- The `except` branches around the stream. -/
def faultOutcome (item : IntegritySelectionItem) : ReadFault → IntegrityOutcome
  | .notFound detail => integrityOutcome item .missing (some .notFound) (some detail)
  | .unsupported detail => integrityOutcome item .unsupported (some .unsupportedRead) (some detail)
  | .other detail => integrityOutcome item .error (some .readError) (some detail)

/-- `_matches_expected_stat`. -/
def matchesExpectedStat (expected actual : FileStat) : Bool :=
  expected.kind = actual.kind &&
    (expected.size = actual.size && expected.mtimeNs = actual.mtimeNs) &&
    (expected.fileIdentity = none || expected.fileIdentity = actual.fileIdentity)

/-- `_same_open_subject`. -/
def sameOpenSubject (before after : FileStat) : Bool :=
  before.kind = after.kind &&
    (before.size = after.size && before.mtimeNs = after.mtimeNs) &&
    before.fileIdentity = after.fileIdentity

/-- How the classification of a row ends: the checkpoint raises, the row has
its outcome, or evidence is to be recorded first. -/
inductive ItemEnd
  | raised (signal : Signal)
  | settled (outcome : IntegrityOutcome) (bytesRead : Nat)
  | record (result : IntegrityResult) (strategy : ReadStrategy) (command : IntegrityRecordCommand)
      (bytesRead : Nat)

/-- How the loop over the chunks ends. -/
inductive ReadEnd
  | raised (signal : Signal)
  | fault (fault : ReadFault)
  | finished (bytes : List UInt8)

/-- The loop over `iter_chunks`; `bytes` is what the digest has been fed. -/
def readChunks (selection : IntegritySelection) (displayPath : Str) :
    List ChunkAnswer → VerifierProgress → List UInt8 → VerifierProgress × ReadEnd
  | [], progress, bytes => (progress, .finished bytes)
  | .raised fault :: _, progress, _ => (progress, .fault fault)
  | .chunk _ (some signal) _ :: _, progress, _ => (progress, .raised signal)
  | .chunk chunk none due :: rest, progress, bytes =>
      let progress :=
        if chunk = [] then progress
        else progress.bytesProcessed selection chunk.length displayPath due
      readChunks selection displayPath rest progress (bytes ++ chunk)

section Rows

variable [Sha256]

/-- The end of the `with` block, behind the loop: the second stat, the
digest and the command. -/
def concludeRead (item : IntegritySelectionItem) (mode : IntegrityMode) (expectedStat : FileStat)
    (strategy : ReadStrategy) (before : FileStat) (after : Except ReadFault FileStat)
    (observedAt : Utc) (bytes : List UInt8) : ItemEnd :=
  match after with
  | .error fault => .settled (faultOutcome item fault) 0
  | .ok after =>
      let bytesRead := bytes.length
      let actualDigest := Sha256.digest bytes
      if !sameOpenSubject before after then
        .settled (integrityOutcome item .modified (some .readDrift) none (some strategy)) bytesRead
      else if bytesRead ≠ before.size then
        .settled
          (integrityOutcome item .error (some .readError)
            (some (str "read " ++ decimal bytesRead ++ str " bytes from a " ++
              decimal before.size ++ str "-byte subject"))
            (some strategy))
          bytesRead
      else if mode = .verify ∧
          ∃ baseline ∈ item.baseline, actualDigest ≠ baseline.content.digest then
        .settled (integrityOutcome item .mismatched (some .hashMismatch) none (some strategy))
          bytesRead
      else
        let content : ContentEvidence :=
          { digest := actualDigest
            size := bytesRead
            provenance := .verifyAttested
            observedAt := observedAt
            digest_length := Sha256.digest_length bytes }
        let subject :=
          if expectedStat.fileIdentity.isSome then after else { after with fileIdentity := none }
        let result :=
          if mode = .verify ∧ item.baseline.isSome = true then IntegrityResult.verified
          else .baselined
        let commandMode :=
          if mode = .rebaseline then .rebaseline
          else if result = .verified then .verify else IntegrityMode.baseline
        match IntegrityRecordCommand.checked commandMode item expectedStat ⟨content, subject⟩
            (decide (result = .verified)) with
        | .error message =>
            .settled (faultOutcome item (.other (str "ValueError: " ++ message))) 0
        | .ok command => .record result strategy command bytesRead

/-- The `with` block. -/
def readSubject (selection : IntegritySelection) (item : IntegritySelectionItem)
    (mode : IntegrityMode) (expectedStat : FileStat) (answers : StreamAnswers)
    (progress : VerifierProgress) : VerifierProgress × ItemEnd :=
  match answers.opened with
  | .error fault => (progress, .settled (faultOutcome item fault) 0)
  | .ok strategy =>
      match answers.before with
      | .error fault => (progress, .settled (faultOutcome item fault) 0)
      | .ok before =>
          if !matchesExpectedStat expectedStat before ∨
              (mode = .verify ∧
                ∃ baseline ∈ item.baseline, !matchesExpectedStat baseline.subject before) then
            (progress,
              .settled (integrityOutcome item .modified (some .statChanged) none (some strategy)) 0)
          else
            match readChunks selection item.displayPath answers.chunks progress [] with
            | (progress, .raised signal) => (progress, .raised signal)
            | (progress, .fault fault) => (progress, .settled (faultOutcome item fault) 0)
            | (progress, .finished bytes) =>
                (progress, concludeRead item mode expectedStat strategy before answers.after
                  answers.observedAt bytes)

variable [Unicode]

/-- `_process_item` up to the recording. -/
def classifyItem (selection : IntegritySelection) (item : IntegritySelectionItem)
    (mode : IntegrityMode) (answers : StreamAnswers) (progress : VerifierProgress) :
    VerifierProgress × ItemEnd :=
  let settled (result : IntegrityResult) (reason : IntegrityReason) (detail : Option Str) :=
    (progress, ItemEnd.settled (integrityOutcome item result (some reason) detail) 0)
  match validateRelativePath item.displayPath with
  | .error error =>
      settled .error .pathInvalid (some (str "PathValidationError: " ++ str error.message))
  | .ok path =>
      if path.key ≠ item.relPathKey then
        settled .error .pathInvalid
          (some (str "ValueError: display path does not match the selected canonical key"))
      else
        match item.expectedState with
        | .missing => settled .missing .inventoryMissing none
        | .unsupported => settled .unsupported .inventoryUnsupported none
        | .present =>
            if mode = .baseline ∧ item.baseline.isSome = true then
              settled .error .baselineExists none
            else
              match item.expectedStat with
              | none => settled .error .statChanged none
              | some expectedStat => readSubject selection item mode expectedStat answers progress

/-! ## Recording -/

/-- `_record_outcome`, with what the recorder has answered. -/
def recordedOutcome (item : IntegritySelectionItem) (result : IntegrityResult)
    (strategy : ReadStrategy) : Except Str RecordDisposition → IntegrityOutcome
  | .error detail =>
      integrityOutcome item result (some .recordingError) (some detail) (some strategy) .degraded
  | .ok .stale =>
      integrityOutcome item result (some .recordingStale) none (some strategy) .degraded
        (some .stale)
  | .ok .conflict =>
      integrityOutcome item result (some .recordingConflict) none (some strategy) .degraded
        (some .conflict)
  | .ok disposition =>
      integrityOutcome item result none none (some strategy) .ok (some disposition)

/-- A call of the recorder: the row it was for, the bytes that were read for
it, and the ledger before and after. -/
structure IntegrityWrite (Λ : Type) where
  item : IntegritySelectionItem
  bytes : List UInt8
  before : Λ
  after : Λ

/-- The state of a call; `emitted` are the outcomes of this call. -/
structure VerifierState (Λ : Type) extends VerifierProgress where
  ledger : Λ
  emitted : List IntegrityOutcome := []
  writes : List (IntegrityWrite Λ) := []

/-- How a call ends: it returns, the checkpoint has raised, or another error
has. -/
inductive CallEnd
  | returned (result : IntegrityRunResult)
  | raised (signal : Signal)
  | failed (message : Str)
  deriving DecidableEq

namespace VerifierState

variable {Λ : Type} (selection : IntegritySelection) (state : VerifierState Λ)

/-- `_process_item`: the outcome with the bytes read, or what the checkpoint
raises. -/
def processItem (mode : IntegrityMode) (recorder : IntegrityRecorder Λ)
    (item : IntegritySelectionItem) (answers : ItemAnswers Λ) :
    VerifierState Λ × (Signal ⊕ IntegrityOutcome × Nat) :=
  let (progress, ending) :=
    classifyItem selection item mode answers.stream state.toVerifierProgress
  let state := { state with toVerifierProgress := progress }
  match ending with
  | .raised signal => (state, .inl signal)
  | .settled outcome bytesRead => (state, .inr (outcome, bytesRead))
  | .record result strategy command bytesRead =>
      let before := answers.interfere state.ledger
      let (answer, after) : Except Str RecordDisposition × Λ :=
        match answers.recorderFault with
        | some detail => (.error detail, before)
        | none => recorder command before
      ({ state with
          ledger := after
          writes := state.writes ++ [⟨item, answers.stream.bytes, before, after⟩] },
        .inr (recordedOutcome item result strategy answer, bytesRead))

/-- `_emit_and_complete`; the error is the `ValueError` of
`mark_completed`. -/
def emitAndComplete (outcome : IntegrityOutcome) (bytesRead : Nat) (emitProgress : Bool) :
    VerifierState Λ × Option Str :=
  let state := { state with events := state.events ++ [VerifierEvent.outcome outcome] }
  match state.continuation.markCompleted outcome.itemId bytesRead with
  | .error message => (state, some message)
  | .ok continuation =>
      let progress := { state.toVerifierProgress with continuation := continuation }
      let progress :=
        if emitProgress then progress.report selection (some outcome.path) else progress
      ({ state with toVerifierProgress := progress, emitted := state.emitted ++ [outcome] }, none)

/-- The loop over the pending rows. -/
def processPending (mode : IntegrityMode) (recorder : IntegrityRecorder Λ)
    (answers : IntegritySelectionItem → ItemAnswers Λ) :
    List IntegritySelectionItem → VerifierState Λ → VerifierState Λ × CallEnd
  | [], state => (state, .returned ⟨state.emitted, integrityRecording state.emitted, rfl⟩)
  | item :: rest, state =>
      match (answers item).signal with
      | some signal => (state, .raised signal)
      | none =>
          match state.processItem selection mode recorder item (answers item) with
          | (state, .inl signal) => (state, .raised signal)
          | (state, .inr (outcome, bytesRead)) =>
              match state.emitAndComplete selection outcome bytesRead true with
              | (state, some message) => (state, .failed message)
              | (state, none) => processPending mode recorder answers rest state

/-- The `except Canceled` branch: every row that is still pending is
canceled. -/
def cancelPending : List IntegritySelectionItem → VerifierState Λ → VerifierState Λ × CallEnd
  | [], state =>
      ({ state with toVerifierProgress := state.report selection none }, .raised .canceled)
  | item :: rest, state =>
      let outcome := integrityOutcome item .canceled (some .canceled)
      match state.emitAndComplete selection outcome 0 false with
      | (state, some message) => (state, .failed message)
      | (state, none) => cancelPending rest state

/-- `_run`, which `baseline`, `verify` and `rebaseline` call with their
mode. -/
def run (mode : IntegrityMode) (recorder : IntegrityRecorder Λ)
    (answers : IntegritySelectionItem → ItemAnswers Λ) : VerifierState Λ × CallEnd :=
  let state := { state with toVerifierProgress := state.begin selection, emitted := [] }
  match state.processPending selection mode recorder answers
      (state.continuation.pending selection) with
  | (state, .raised .canceled) =>
      state.cancelPending selection (state.continuation.pending selection)
  | (state, ending) => (state, ending)

end VerifierState

end Rows

end NamiSync
