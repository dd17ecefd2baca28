/-
# `Core.Session` — the session lifecycle

The lifecycle table, the generic operation result and the session record of
`core/session.py`.  The checks of the three `__post_init__` methods are
fields of the structures, so a record or a result that the source would
refuse to build does not exist here; `replace` becomes a record update that
re-proves the checks it touches.

There is no way out of a terminal state (`requireTransition_terminal`); the
dispatcher's results about sessions that are over rest on this.
-/
import Mathlib.Data.Finset.Basic
import NamiSync.Core.Evidence

namespace NamiSync

/-- `SessionId`: a fresh `uuid4().hex` per admission, so a counter. -/
abbrev SessionId := Nat

inductive SessionState
  | pending | running | pausing | paused | canceling
  | completed | failed | canceled | refused | interrupted
  deriving DecidableEq, Repr

namespace SessionState

def terminalStates : List SessionState := [completed, failed, canceled, refused]

def isTerminal (state : SessionState) : Bool := state ∈ terminalStates

/-- `LEGAL_TRANSITIONS`. -/
def legalTransitions : SessionState → List SessionState
  | pending => [running, canceling, failed]
  | running => [pausing, canceling, completed, failed, canceled, refused]
  | pausing => [paused, canceling, completed, failed, canceled, refused]
  | paused => [pending, canceling]
  | canceling => [completed, failed, canceled, refused]
  | completed | failed | canceled | refused => []
  | interrupted => [pending, canceling]

/-- `require_transition`: `false` is the `IllegalTransition` error. -/
def requireTransition (current requested : SessionState) : Bool :=
  requested ∈ current.legalTransitions

theorem requireTransition_terminal {current requested : SessionState}
    (h : current.isTerminal = true) : current.requireTransition requested = false := by
  cases current <;> first | rfl | exact absurd h (by decide)

end SessionState

/-- What `checkpoint()` may raise: `Canceled` or `PauseRequested`. -/
inductive Signal
  | canceled | pauseRequested
  deriving DecidableEq, Repr

inductive Disposition
  | ran | unrun
  deriving DecidableEq, Repr

structure FailureDetail where
  typeName : String
  message : String
  deriving DecidableEq, Repr

theorem completed_terminal : SessionState.completed.isTerminal = true := rfl

theorem noBytes_le : 0 ≤ 0 := Nat.le_refl 0

theorem completed_not_canceled : false = decide (SessionState.completed = .canceled) := rfl

theorem canceled_canceled : true = decide (SessionState.canceled = .canceled) := rfl

theorem completed_not_refused : SessionState.completed = .refused → Disposition.ran = .unrun := by
  decide

/-- `OperationResult`, with the five checks of its `__post_init__`. -/
structure OperationResult where
  status : SessionState
  recording : RecordingStatus := .ok
  audit : RecordingStatus := .ok
  disposition : Disposition := .ran
  canceled : Bool := false
  operations : List ItemOutcome := []
  bytesDone : Nat := 0
  bytesTotal : Nat := 0
  error : Option FailureDetail := none
  terminal : status.isTerminal = true := by
    first | exact completed_terminal | decide
  bytes_le : bytesDone ≤ bytesTotal := by first | exact noBytes_le | decide
  canceled_iff : canceled = decide (status = .canceled) := by
    first | exact completed_not_canceled | exact canceled_canceled | decide
  refused_unrun : status = .refused → disposition = .unrun := by
    first | exact completed_not_refused | decide
  deriving DecidableEq

/-- `replace(result, audit=audit)`. -/
def OperationResult.withAudit (result : OperationResult) (audit : RecordingStatus) :
    OperationResult :=
  { result with audit := audit }

@[simp] theorem OperationResult.withAudit_status (result : OperationResult)
    (audit : RecordingStatus) : (result.withAudit audit).status = result.status := rfl

/-- `ResourceId`; `space` is the source's `namespace`. -/
structure ResourceId where
  space : String
  key : String
  space_ne : space ≠ "" := by decide
  key_ne : key ≠ "" := by decide

instance : DecidableEq ResourceId := fun a b =>
  decidable_of_iff (a.space = b.space ∧ a.key = b.key) (by cases a; cases b; simp)

/-- `SessionRecord`.  The sorted duplicate-free resource tuple is its finite
set, the opaque workflow payload a byte string, and the timestamps are ticks
of the injected clock. -/
structure SessionRecord where
  sessionId : SessionId
  kind : String
  state : SessionState
  resources : Finset ResourceId
  payload : List UInt8
  supportsPause : Bool
  admissionOrder : Nat
  createdAt : Nat
  startedAt : Option Nat := none
  endedAt : Option Nat := none
  result : Option OperationResult := none
  ended_iff : state.isTerminal = endedAt.isSome := by decide
  result_status : ∀ r ∈ result, r.status = state := by simp

namespace SessionRecord

/-- The `replace` inside `_transition_locked`: `started_at` is set by the
first `RUNNING`, `ended_at` by a terminal state.  Every caller passes
`result=None`. -/
def moveTo (record : SessionRecord) (state : SessionState) (now : Nat) : SessionRecord :=
  { record with
    state := state
    startedAt :=
      if state = .running ∧ record.startedAt = none then some now else record.startedAt
    endedAt := if state.isTerminal then some now else none
    result := none
    ended_iff := by split <;> simp_all
    result_status := by simp }

/-- The `replace` of `_replace_payload`. -/
def withPayload (record : SessionRecord) (payload : List UInt8) : SessionRecord :=
  { record with payload := payload }

/-- The `replace` of `_publish_result`; `none` is the `ValueError` of a
result whose status is not the record's state. -/
def withResult (record : SessionRecord) (result : OperationResult) : Option SessionRecord :=
  if h : result.status = record.state then
    some { record with result := some result, result_status := by simpa using h }
  else none

/-- `Dispatcher._disposition`. -/
def disposition (record : SessionRecord) : Disposition :=
  if record.startedAt.isSome then .ran else .unrun

/-- `Dispatcher._is_settled`. -/
def isSettled (record : SessionRecord) : Bool :=
  record.state.isTerminal && record.result.isSome

@[simp] theorem moveTo_state (record : SessionRecord) (state : SessionState) (now : Nat) :
    (record.moveTo state now).state = state := rfl

@[simp] theorem moveTo_resources (record : SessionRecord) (state : SessionState) (now : Nat) :
    (record.moveTo state now).resources = record.resources := rfl

@[simp] theorem moveTo_sessionId (record : SessionRecord) (state : SessionState) (now : Nat) :
    (record.moveTo state now).sessionId = record.sessionId := rfl

@[simp] theorem withPayload_state (record : SessionRecord) (payload : List UInt8) :
    (record.withPayload payload).state = record.state := rfl

@[simp] theorem withPayload_resources (record : SessionRecord) (payload : List UInt8) :
    (record.withPayload payload).resources = record.resources := rfl

theorem withResult_eq_some {record updated : SessionRecord} {result : OperationResult}
    (h : record.withResult result = some updated) :
    updated.state = record.state ∧ updated.resources = record.resources ∧
      result.status = record.state ∧ updated.result = some result := by
  unfold withResult at h
  split at h
  · next hs =>
      obtain rfl := Option.some.inj h
      exact ⟨rfl, rfl, hs, rfl⟩
  · exact absurd h (by simp)

end SessionRecord

end NamiSync
