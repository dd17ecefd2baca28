/-
# `Db.History` — the account of a run

`db/history.py`: an observer collects the reliable events of a session and
stores them with the result, in one transaction; the repository reads them
back.  An item is told twice, as it is delivered and with its detail in
normal form, which is what is hashed and stored; so the records of an event
are made over the type of the detail.

## What is not here

The subscription that feeds an observer (`Dispatcher.AuditPump` has that
side), and the reading of several runs at once.  What SQLite refuses to bind
is part of the model: `bindable` decides whether a report can be inserted.
-/
import NamiSync.Core.Events
import NamiSync.Db.Primitive
import NamiSync.Db.Writer
import NamiSync.Lib.Table

namespace NamiSync

/-! ## Values of the enumerations -/

def SessionState.all : List SessionState :=
  [.pending, .running, .pausing, .paused, .canceling, .completed, .failed, .canceled, .refused,
    .interrupted]

def SessionState.value : SessionState → Str
  | pending => str "pending"
  | running => str "running"
  | pausing => str "pausing"
  | paused => str "paused"
  | canceling => str "canceling"
  | completed => str "completed"
  | failed => str "failed"
  | canceled => str "canceled"
  | refused => str "refused"
  | interrupted => str "interrupted"

def SessionState.ofValue (value : Str) : Option SessionState :=
  all.find? fun state => state.value = value

def RecordingStatus.value : RecordingStatus → Str
  | ok => str "ok"
  | degraded => str "degraded"

def RecordingStatus.ofValue (value : Str) : Option RecordingStatus :=
  [ok, degraded].find? fun status => status.value = value

def Disposition.value : Disposition → Str
  | ran => str "ran"
  | unrun => str "unrun"

namespace History

/-! ## Events -/

/-- `ItemOutcome`. -/
structure ItemOutcome (δ : Type) where
  itemId : Str
  kind : Str
  path : Str
  outcome : Outcome
  reason : Option Str
  detail : δ
  itemId_ne : itemId ≠ [] := by decide
  kind_ne : kind ≠ [] := by decide

/-- `FailureDetail`. -/
structure FailureDetail where
  typeName : Str
  message : Str
  deriving DecidableEq

/-- `OperationResult`. -/
structure OperationResult (δ : Type) where
  status : SessionState
  recording : RecordingStatus := .ok
  audit : RecordingStatus := .ok
  disposition : Disposition := .ran
  canceled : Bool := false
  operations : List (ItemOutcome δ) := []
  bytesDone : Nat := 0
  bytesTotal : Nat := 0
  error : Option FailureDetail := none
  terminal : status.isTerminal = true := by
    first | exact completed_terminal | decide
  bytes_le : bytesDone ≤ bytesTotal := by first | exact noBytes_le | decide
  canceled_iff : canceled = decide (status = .canceled) := by
    first | exact completed_not_canceled | exact canceled_canceled | decide
  refused_unrun : status = .refused → disposition = .unrun := by
    first | exact completed_not_refused | decide

inductive EventBody (δ : Type)
  | stateChanged (state : SessionState)
  | phaseChanged (phase : Str)
  | progress (progress : Progress)
  | itemOutcome (item : ItemOutcome δ)
  | gap (firstMissedSeq : Nat)
  | terminal (result : OperationResult δ)

/-- `Envelope`; `time` is the source's `at`, and the schema version is the
constant. -/
structure Envelope (δ : Type) where
  sessionId : Str
  seq : Nat
  time : UtcTime
  body : EventBody δ
  sessionId_ne : sessionId ≠ [] := by decide
  seq_pos : 0 < seq := by first | exact Nat.one_pos | decide

def schemaVersion : Nat := 2

section Map

variable {δ δ' : Type} (f : δ → δ')

def ItemOutcome.map (item : ItemOutcome δ) : ItemOutcome δ' :=
  { item with detail := f item.detail }

def OperationResult.map (result : OperationResult δ) : OperationResult δ' :=
  { result with operations := result.operations.map (ItemOutcome.map f) }

def EventBody.map : EventBody δ → EventBody δ'
  | .stateChanged state => .stateChanged state
  | .phaseChanged phase => .phaseChanged phase
  | .progress value => .progress value
  | .itemOutcome item => .itemOutcome (item.map f)
  | .gap firstMissedSeq => .gap firstMissedSeq
  | .terminal result => .terminal (result.map f)

def Envelope.map (envelope : Envelope δ) : Envelope δ' :=
  { envelope with body := envelope.body.map f }

end Map

/-! ## `_primitive` of the dataclasses -/

def ItemOutcome.primitive (item : ItemOutcome NormalJson) : Json :=
  .object
    [(str "item_id", .string item.itemId),
     (str "kind", .string item.kind),
     (str "path", .string item.path),
     (str "outcome", .string item.outcome.value),
     (str "reason", Json.optional .string item.reason),
     (str "detail", item.detail.value)]

def FailureDetail.primitive (error : FailureDetail) : Json :=
  .object [(str "type_name", .string error.typeName), (str "message", .string error.message)]

def OperationResult.primitive (result : OperationResult NormalJson) : Json :=
  .object
    [(str "status", .string result.status.value),
     (str "recording", .string result.recording.value),
     (str "audit", .string result.audit.value),
     (str "disposition", .string result.disposition.value),
     (str "canceled", .bool result.canceled),
     (str "operations", .array (result.operations.map ItemOutcome.primitive)),
     (str "bytes_done", .int result.bytesDone),
     (str "bytes_total", .int result.bytesTotal),
     (str "error", Json.optional FailureDetail.primitive result.error)]

def EventBody.fields : EventBody NormalJson → List (Str × Json)
  | .stateChanged state => [(str "state", .string state.value)]
  | .phaseChanged phase => [(str "phase", .string phase)]
  | .progress value =>
      [(str "items_done", .int value.itemsDone),
       (str "items_total", Json.optional .int value.itemsTotal),
       (str "bytes_done", .int value.bytesDone),
       (str "bytes_total", Json.optional .int value.bytesTotal),
       (str "current_path", Json.optional (fun path => .string (str path)) value.currentPath)]
  | .itemOutcome item =>
      [(str "item_id", .string item.itemId),
       (str "kind", .string item.kind),
       (str "path", .string item.path),
       (str "outcome", .string item.outcome.value),
       (str "reason", Json.optional .string item.reason),
       (str "detail", item.detail.value)]
  | .gap firstMissedSeq => [(str "first_missed_seq", .int firstMissedSeq)]
  | .terminal result => [(str "result", result.primitive)]

def Envelope.primitive (envelope : Envelope NormalJson) : Json :=
  .object
    [(str "session_id", .string envelope.sessionId),
     (str "seq", .int envelope.seq),
     (str "at", .string (encodeUtc envelope.time)),
     (str "schema_version", .int schemaVersion),
     (str "body", .object envelope.body.fields)]

/-! ## The store

A run and its operations are inserted together or not at all, and the token of a
run is unique. -/

/-- `HistoryContext`. -/
structure Context where
  runToken : Str
  hostKey : Str
  activityKind : Option Str := none
  subjectKind : Option Str := none
  subjectId : Option Str := none
  sourceContext : Option Str := none
  targetContext : Option Str := none
  runToken_ne : runToken ≠ [] := by decide
  hostKey_ne : hostKey ≠ [] := by decide

/-- A row of `history_runs`, without the counts, which are not read. -/
structure RunRow where
  id : Nat
  runToken : Str
  sessionId : Str
  activityKind : Str
  hostKey : Str
  subjectKind : Option Str
  subjectId : Option Str
  sourceContext : Option Str
  targetContext : Option Str
  startedAt : Str
  endedAt : Str
  filesystemStatus : Str
  recordingStatus : Str
  auditStatus : Str
  disposition : Str
  canceled : Bool
  bytesDone : Nat
  bytesTotal : Nat
  errorType : Option Str
  errorMessage : Option Str
  payloadHash : List UInt8
  deriving DecidableEq

/-- A row of `history_operations`. -/
structure OperationRow where
  runId : Nat
  itemOrder : Nat
  eventSeq : Nat
  itemId : Str
  kind : Str
  path : Str
  outcome : Str
  reason : Option Str
  detailJson : Str
  deriving DecidableEq

/-- What can be bound to a statement: text that UTF-8 can hold, and integers
of 64 bits. -/
def bindable (texts : List Str) (numbers : List Nat) : Bool :=
  texts.all (fun text => text.all fun c => !isSurrogate c) && numbers.all (· < 2 ^ 63)

def RunRow.bindable (row : RunRow) : Bool :=
  History.bindable
    ([row.runToken, row.sessionId, row.activityKind, row.hostKey, row.startedAt, row.endedAt] ++
      row.subjectKind.toList ++ row.subjectId.toList ++ row.sourceContext.toList ++
      row.targetContext.toList ++ row.errorType.toList ++ row.errorMessage.toList)
    [row.bytesDone, row.bytesTotal]

def OperationRow.bindable (row : OperationRow) : Bool :=
  History.bindable ([row.itemId, row.kind, row.path, row.detailJson] ++ row.reason.toList)
    [row.itemOrder, row.eventSeq]

/-- The two tables, with their keys. -/
structure Store where
  runs : List RunRow
  operations : List OperationRow
  tokens_nodup : (runs.map RunRow.runToken).Nodup
  ids_nodup : (runs.map RunRow.id).Nodup
  joins : ∀ row ∈ operations, row.runId ∈ runs.map RunRow.id

/-- A database that `initialize_history` has just made. -/
def Store.empty : Store :=
  ⟨[], [], List.nodup_nil, List.nodup_nil, fun _ h => absurd h List.not_mem_nil⟩

inductive HistoryError
  /-- `HistoryIntegrityError`. -/
  | integrity (message : String)
  /-- `TokenConflictError`. -/
  | tokenConflict (message : String)
  /-- `RecordingError`. -/
  | recording (message : String)
  /-- What the binding of a statement raises. -/
  | unbound
  deriving DecidableEq

/-- The number of the next run. -/
def Store.freshId (store : Store) : Nat := (store.runs.map RunRow.id).foldr max 0 + 1

theorem Store.id_lt_freshId {store : Store} {row : RunRow} (h : row ∈ store.runs) :
    row.id < store.freshId := by
  have hle : ∀ numbers : List Nat, ∀ n ∈ numbers, n ≤ numbers.foldr max 0 := by
    intro numbers
    induction numbers with
    | nil => exact fun n hn => absurd hn List.not_mem_nil
    | cons m rest ih =>
        intro n hn
        rw [List.foldr_cons]
        rcases List.mem_cons.1 hn with rfl | hn
        · exact Nat.le_max_left _ _
        · exact (ih n hn).trans (Nat.le_max_right _ _)
  exact Nat.lt_succ_of_le (hle _ _ (List.mem_map_of_mem h))

theorem Store.fresh {store : Store} : store.freshId ∉ store.runs.map RunRow.id := by
  intro hmem
  obtain ⟨row, hrow, heq⟩ := List.mem_map.1 hmem
  have hlt := Store.id_lt_freshId hrow
  omega

theorem Store.nodup_runs {store : Store} {row : RunRow}
    (hrow : row.runToken ∉ store.runs.map RunRow.runToken) :
    ((store.runs ++ [{ row with id := store.freshId }]).map RunRow.runToken).Nodup ∧
      ((store.runs ++ [{ row with id := store.freshId }]).map RunRow.id).Nodup := by
  rw [List.map_append, List.map_append, List.map_singleton, List.map_singleton]
  constructor
  · refine List.nodup_append.2 ⟨store.tokens_nodup, List.nodup_singleton _, ?_⟩
    rintro token htoken other hother rfl
    exact hrow (List.mem_singleton.1 hother ▸ htoken)
  · refine List.nodup_append.2 ⟨store.ids_nodup, List.nodup_singleton _, ?_⟩
    rintro number hnumber other hother rfl
    have hnew : number = store.freshId := List.mem_singleton.1 hother
    exact store.fresh (hnew ▸ hnumber)

/-- The two `INSERT`s; the run gets its number, and the operations get it. -/
def Store.insert (store : Store) (row : RunRow) (operations : List OperationRow) :
    Except HistoryError Store :=
  if hrow : row.runToken ∈ store.runs.map RunRow.runToken then
    .error (.recording "UNIQUE constraint failed: history_runs.run_token")
  else if !row.bindable then .error .unbound
  else if row.endedAt < row.startedAt then
    .error (.recording "CHECK constraint failed: ended_at >= started_at")
  else if ¬ (operations.map OperationRow.itemId).Nodup then
    .error (.recording
      "UNIQUE constraint failed: history_operations.run_id, history_operations.item_id")
  else if !operations.all OperationRow.bindable then .error .unbound
  else
    .ok
      { runs := store.runs ++ [{ row with id := store.freshId }]
        operations := store.operations ++
          operations.map fun operation => { operation with runId := store.freshId }
        tokens_nodup := (store.nodup_runs hrow).1
        ids_nodup := (store.nodup_runs hrow).2
        joins := by
          intro operation hmem
          rw [List.map_append, List.mem_append]
          rcases List.mem_append.1 hmem with hold | hnew
          · exact Or.inl (store.joins operation hold)
          · obtain ⟨added, -, rfl⟩ := List.mem_map.1 hnew
            exact Or.inr (List.mem_singleton_self _) }

/-! ## What an observer stores

The report of a session, as rows; the hash tells a second attempt with the same
report from one with another. -/

/-- The dictionary that `finalize` hashes, with the details in normal form. -/
structure Report where
  runToken : Str
  sessionId : Str
  activityKind : Str
  hostKey : Str
  subjectKind : Option Str
  subjectId : Option Str
  sourceContext : Option Str
  targetContext : Option Str
  startedAt : UtcTime
  result : OperationResult NormalJson
  items : List (Nat × ItemOutcome NormalJson)

namespace Report

def payload (report : Report) : Json :=
  .object
    [(str "run_token", .string report.runToken),
     (str "session_id", .string report.sessionId),
     (str "activity_kind", .string report.activityKind),
     (str "host_key", .string report.hostKey),
     (str "subject_kind", Json.optional .string report.subjectKind),
     (str "subject_id", Json.optional .string report.subjectId),
     (str "source_context", Json.optional .string report.sourceContext),
     (str "target_context", Json.optional .string report.targetContext),
     (str "started_at", .string (encodeUtc report.startedAt)),
     (str "result", report.result.primitive),
     (str "items", .array (report.items.map fun item =>
       .array [.int item.1, item.2.primitive]))]

/-- The values of the first `INSERT`; the run has no number yet. -/
def row (report : Report) (endedAt : UtcTime) (payloadHash : List UInt8) : RunRow where
  id := 0
  runToken := report.runToken
  sessionId := report.sessionId
  activityKind := report.activityKind
  hostKey := report.hostKey
  subjectKind := report.subjectKind
  subjectId := report.subjectId
  sourceContext := report.sourceContext
  targetContext := report.targetContext
  startedAt := encodeUtc report.startedAt
  endedAt := encodeUtc endedAt
  filesystemStatus := report.result.status.value
  recordingStatus := report.result.recording.value
  auditStatus := RecordingStatus.ok.value
  disposition := report.result.disposition.value
  canceled := report.result.canceled
  bytesDone := report.result.bytesDone
  bytesTotal := report.result.bytesTotal
  errorType := report.result.error.map FailureDetail.typeName
  errorMessage := report.result.error.map FailureDetail.message
  payloadHash := payloadHash

/-- The values of the second one. -/
def operations (report : Report) : List OperationRow :=
  report.items.mapIdx fun order item =>
    { runId := 0
      itemOrder := order
      eventSeq := item.1
      itemId := item.2.itemId
      kind := item.2.kind
      path := item.2.path
      outcome := item.2.outcome.value
      reason := item.2.reason
      detailJson := item.2.detail.text }

section Digest

variable [Sha256]

/-- `_hash`. -/
def hash (report : Report) : List UInt8 := Sha256.digest report.payload.canonicalBytes

/-- `apply`, the operation of the transaction. -/
def apply (report : Report) (endedAt : UtcTime) (store : Store) : Except HistoryError Store :=
  match store.runs.find? (·.runToken = report.runToken) with
  | some prior =>
      if prior.payloadHash ≠ report.hash then
        .error (.tokenConflict "history run token payload changed")
      else .ok store
  | none => store.insert (report.row endedAt report.hash) report.operations

end Digest

end Report

/-! ## The observer

It takes the events of one session until it is closed, and then makes the
report. -/

/-- What an observer reads of the `SessionRecord`. -/
structure Session where
  sessionId : Str
  kind : Str
  createdAt : UtcTime
  startedAt : Option UtcTime := none
  sessionId_ne : sessionId ≠ [] := by decide
  kind_ne : kind ≠ [] := by decide

/-- `HistoryObserver`. -/
structure Observer where
  record : Session
  context : Context
  eventHashes : Dict Nat (List UInt8) := .empty
  items : List (Nat × ItemOutcome Detail) := []
  runningAt : Option UtcTime
  closed : Bool := false
  finalized : Bool := false
  finalPayloadHash : Option (List UInt8) := none

/-- `HistoryStore.observer`. -/
def observe (record : Session) (context : Context) : Observer :=
  { record := record, context := context, runningAt := record.startedAt }

/-- `_hash(envelope)`, before the digest. -/
def Envelope.bytes (envelope : Envelope Detail) : List UInt8 :=
  (envelope.map Detail.normal).primitive.canonicalBytes

/-- The bodies that `on_event` takes. -/
def EventBody.reliable {δ : Type} : EventBody δ → Bool
  | .terminal _ | .progress _ => false
  | .stateChanged _ | .phaseChanged _ | .itemOutcome _ | .gap _ => true

def EventBody.item {δ : Type} : EventBody δ → Option (ItemOutcome δ)
  | .itemOutcome item => some item
  | .stateChanged _ | .phaseChanged _ | .progress _ | .gap _ | .terminal _ => none

/-- The body is `StateChanged(RUNNING)`. -/
def EventBody.isRunning {δ : Type} : EventBody δ → Bool
  | .stateChanged state => state = .running
  | .phaseChanged _ | .progress _ | .itemOutcome _ | .gap _ | .terminal _ => false

namespace Observer

/-- The event is the next one. -/
def take (observer : Observer) (envelope : Envelope Detail) (digest : List UInt8) : Observer :=
  { observer with
    eventHashes := observer.eventHashes.set envelope.seq digest
    runningAt :=
      if envelope.body.isRunning && observer.runningAt.isNone then some envelope.time
      else observer.runningAt
    items := observer.items ++ envelope.body.item.toList.map fun item => (envelope.seq, item) }

section Digest

variable [Sha256]

/-- `on_event`; an observer that raises is as it was. -/
def onEvent (observer : Observer) (envelope : Envelope Detail) : Except HistoryError Observer :=
  if observer.closed || observer.finalized then
    .error (.integrity "history observer is not accepting events")
  else if envelope.sessionId ≠ observer.record.sessionId then
    .error (.integrity "event belongs to another session")
  else if !envelope.body.reliable then
    .error (.integrity "history receives reliable preterminal events only")
  else
    let digest := Sha256.digest envelope.bytes
    match observer.eventHashes.get? envelope.seq with
    | some prior =>
        if prior ≠ digest then
          .error (.integrity "event sequence was reused with another payload")
        else .ok observer
    | none =>
        -- `seq < max(event_hashes)`
        if observer.eventHashes.keys.any (envelope.seq < ·) then
          .error (.integrity "reliable events arrived out of order")
        else .ok (observer.take envelope digest)

omit [Sha256] in
/-- `context.activity_kind or record.kind`. -/
def activityKind (observer : Observer) : Str :=
  match observer.context.activityKind with
  | none | some [] => observer.record.kind
  | some kind => kind

omit [Sha256] in
/-- The dictionary for a result. -/
def report (observer : Observer) (result : OperationResult Detail) : Report where
  runToken := observer.context.runToken
  sessionId := observer.record.sessionId
  activityKind := observer.activityKind
  hostKey := observer.context.hostKey
  subjectKind := observer.context.subjectKind
  subjectId := observer.context.subjectId
  sourceContext := observer.context.sourceContext
  targetContext := observer.context.targetContext
  startedAt := observer.runningAt.getD observer.record.createdAt
  result := result.map Detail.normal
  items := observer.items.map fun item => (item.1, item.2.map Detail.normal)

/-- `finalize`, with what the clock says and what SQLite answers. -/
def finalize (observer : Observer) (result : OperationResult Detail) (now : UtcTime)
    (rounds : List WriterRound) (store : Store) : Except HistoryError Unit × Observer × Store :=
  if observer.closed then (.error (.integrity "history observer is closed"), observer, store)
  else
    let report := observer.report result
    if observer.finalized then
      if some report.hash ≠ observer.finalPayloadHash then
        (.error (.tokenConflict "history finalize payload changed"), observer, store)
      else (.ok (), observer, store)
    else if now.before report.startedAt then
      (.error (.recording "history end precedes actual start"), observer, store)
    else
      match transact (report.apply now) (.recording "sqlite3.Error") rounds store with
      | (.error error, store) => (.error error, observer, store)
      | (.ok (), store) =>
          (.ok (), { observer with finalPayloadHash := some report.hash, finalized := true }, store)

omit [Sha256] in
def close (observer : Observer) : Observer := { observer with closed := true }

end Digest

end Observer

/-! ## The repository -/

/-- `HistoryOperationSnapshot`. -/
structure OperationSnapshot where
  itemOrder : Nat
  eventSeq : Nat
  itemId : Str
  kind : Str
  path : Str
  outcome : Outcome
  reason : Option Str
  detail : Json

/-- `HistoryRunSnapshot`. -/
structure RunSnapshot where
  runToken : Str
  sessionId : Str
  activityKind : Str
  hostKey : Str
  subjectKind : Option Str
  subjectId : Option Str
  sourceContext : Option Str
  targetContext : Option Str
  startedAt : UtcTime
  endedAt : UtcTime
  filesystemStatus : SessionState
  recording : RecordingStatus
  audit : RecordingStatus
  disposition : Str
  canceled : Bool
  bytesDone : Nat
  bytesTotal : Nat
  operations : List OperationSnapshot
  errorType : Option Str
  errorMessage : Option Str

def OperationRow.snapshot (row : OperationRow) : Option OperationSnapshot := do
  let outcome ← Outcome.ofValue row.outcome
  let detail ← Json.loads row.detailJson
  some
    { itemOrder := row.itemOrder
      eventSeq := row.eventSeq
      itemId := row.itemId
      kind := row.kind
      path := row.path
      outcome := outcome
      reason := row.reason
      detail := detail }

/-- `HistoryRepository.get`; `none` is the `KeyError` of a token without a
run, and what the decoding of a column raises. -/
def Store.get (store : Store) (runToken : Str) : Option RunSnapshot := do
  let row ← store.runs.find? (·.runToken = runToken)
  let operations ← (sortedBy OperationRow.itemOrder
    (store.operations.filter (·.runId = row.id))).mapM OperationRow.snapshot
  let startedAt ← decodeUtc row.startedAt
  let endedAt ← decodeUtc row.endedAt
  let filesystemStatus ← SessionState.ofValue row.filesystemStatus
  let recording ← RecordingStatus.ofValue row.recordingStatus
  let audit ← RecordingStatus.ofValue row.auditStatus
  some
    { runToken := row.runToken
      sessionId := row.sessionId
      activityKind := row.activityKind
      hostKey := row.hostKey
      subjectKind := row.subjectKind
      subjectId := row.subjectId
      sourceContext := row.sourceContext
      targetContext := row.targetContext
      startedAt := startedAt
      endedAt := endedAt
      filesystemStatus := filesystemStatus
      recording := recording
      audit := audit
      disposition := row.disposition
      canceled := row.canceled
      bytesDone := row.bytesDone
      bytesTotal := row.bytesTotal
      operations := operations
      errorType := row.errorType
      errorMessage := row.errorMessage }

end History

end NamiSync
