/-
# `Dispatcher.State` — the dispatcher's fields, its threads, its callers

The shared fields are those of `Dispatcher.__init__`, under their own names.
A worker thread is a program counter inside `_run_worker`; a caller's thread
is a program counter inside `submit`, a control call or `close`.  One value
of a program counter is one point between two atomic blocks: a
`with self._condition` block, a `hub.emit`, a call of the lock provider, of
a lease, or of the registered workflow.

Per-session objects that outlive their dictionary entry (the `_Control`, the
`EventHub`, the list of item events) are kept apart from the entry: a worker
holds references to them.  The four dictionaries `_records`, `_controls`,
`_hubs` and `_item_events` gain a session in one block and lose it in one
block, except that a finished worker drops the item events early; so
`records` stands for the first three and `itemEvents` for the last.

## What is not here

* Thread scheduling below the block: a block is atomic, because the source
  holds `_condition`, the hub's lock or the provider's lock for the whole of
  it.  Nothing is assumed about which thread moves next.
* The journal and the event store behind the dispatcher.  `store.create` is a
  choice of the environment: it takes the record or raises.
* Time.  A wait that can time out is a block that may be left either way.
-/
import Mathlib.Data.Finset.Basic
import Mathlib.Tactic.Simps.Basic
import NamiSync.Core.Events
import NamiSync.Dispatcher.Contracts
import NamiSync.Lib.Dict

namespace NamiSync

abbrev WorkerId := Nat

abbrev LeaseId := Nat

/-- A lease object of the lock provider.  `owner` is the worker whose
`acquire` returned it. -/
structure Lease where
  owner : WorkerId
  resources : Finset ResourceId
  released : Bool := false
  deriving DecidableEq

/-- What `_run_core` was called with: the invocation with the lease it runs
under, or none. -/
structure Job where
  invocation : Option LeaseId
  disposition : Disposition
  failure : Option FailureDetail
  deriving DecidableEq

/-- Where `_release_custody` returns to: into `_settle`, with the state and
result to settle, or into the `finally` of `_run_worker`. -/
inductive After
  | settle (state : SessionState) (result : Option OperationResult)
  | finish
  deriving DecidableEq

inductive WorkerPc
  | start
  | acquire (record : SessionRecord)
  | store (lease : LeaseId)
  | opening (lease : LeaseId)
  | toRunning (lease : LeaseId)
  | announceRunning (lease : LeaseId) (position : Nat)
  | core (job : Job)
  | work (job : Job)
  | running (lease : LeaseId) (job : Job) (latest : Option Progress)
  | snapshot (job : Job) (latest : Option Progress)
  | releasePop (after : After)
  | releaseLease (lease : LeaseId) (record : Option SessionRecord) (after : After)
  | releaseReserved (record : Option SessionRecord) (after : After)
  | settleTransition (state : SessionState) (result : Option OperationResult)
  | settleEmit (state : SessionState) (result : Option OperationResult) (position : Nat)
  | finalize (result : OperationResult)
  | publish (result : OperationResult)
  | emitTerminal (result : OperationResult)
  | dropItems
  | workerDone
  | announceCanceling (position : Nat)
  | ended

/-- A worker thread.  `admitted` tells the two kinds apart that `_schedule`
launches: a session it admitted from `PENDING`, reserving its resources, or
one that only has to be wound up. -/
structure Worker where
  session : SessionId
  admitted : Bool
  pc : WorkerPc := .start

/-- A thread that called `submit`, a control method or `close`, and has not
returned yet. -/
inductive Client
  | admitPrepare (kind : String) (supportsPause : Bool)
  | admitRegister (kind : String) (supportsPause : Bool) (prepared : PreparedSession)
      (admissionOrder createdAt : Nat)
  | admitEmit (session : SessionId)
  | admitDone
  | announce (session : SessionId) (state : SessionState) (position : Nat)
  | closePop (session : SessionId)
  | returned

structure Dispatcher where
  registry : String → Option WorkflowRegistration
  accepting : Bool := true
  admitting : Nat := 0
  admissionOrder : Nat := 0
  records : Dict SessionId SessionRecord := Dict.empty
  itemEvents : List SessionId := []
  pending : List SessionId := []
  reserved : Finset ResourceId := ∅
  leases : Dict SessionId LeaseId := Dict.empty
  workers : Dict SessionId WorkerId := Dict.empty
  schedulerReturned : Bool := false
  /-- Ticks of the injected clock. -/
  now : Nat := 0
  /-- The next fresh session id, drawn when the session becomes visible. -/
  nextSession : SessionId := 0
  controls : SessionId → Control := fun _ => {}
  /-- The bodies each session's hub has emitted, oldest first. -/
  hubs : SessionId → List EventBody := fun _ => []
  items : SessionId → List ItemOutcome := fun _ => []
  /-- The lock provider's leases, in the order they were granted. -/
  granted : List Lease := []
  /-- History variable, read by no step: the states each record has had. -/
  history : SessionId → List SessionState := fun _ => []
  /-- History variable, read by no step: the sessions `_schedule` admitted
  from `PENDING` whose record has not become `PAUSED` or terminal since. -/
  unsettled : List SessionId := []
  /-- History variable, read by no step: every admission from `PENDING`, in
  order. -/
  admissions : List SessionId := []

/-- The dispatcher with its worker threads and callers. -/
structure System where
  disp : Dispatcher
  threads : List Worker := []
  clients : List Client := []

namespace Dispatcher

/-- `hub.emit(body)`. -/
@[simps]
def emit (d : Dispatcher) (session : SessionId) (body : EventBody) : Dispatcher :=
  { d with hubs := fun s => if s = session then d.hubs s ++ [body] else d.hubs s }

@[simps]
def setControl (d : Dispatcher) (session : SessionId) (control : Control) : Dispatcher :=
  { d with controls := fun s => if s = session then control else d.controls s }

/-- `self._records[session_id] = record`, keeping the state the record has. -/
@[simps]
def setRecord (d : Dispatcher) (session : SessionId) (record : SessionRecord) : Dispatcher :=
  { d with records := d.records.set session record }

/-- A record that is `PAUSED` or terminal has settled its admission. -/
def settles (state : SessionState) : Bool := state = .paused || state.isTerminal

/-- What `_transition_locked` leaves behind when the edge is legal. -/
@[simps]
def moved (d : Dispatcher) (session : SessionId) (record : SessionRecord)
    (state : SessionState) : Dispatcher :=
  { d with
    records := d.records.set session (record.moveTo state d.now)
    history := fun s => if s = session then d.history s ++ [state] else d.history s
    unsettled := if settles state then d.unsettled.filter (· ≠ session) else d.unsettled }

/-- `_transition_locked`.  `none` is the `KeyError` of a closed session or
the `IllegalTransition`; otherwise the new dispatcher and the position of
the transition in the record's history. -/
def transitionLocked (d : Dispatcher) (session : SessionId) (state : SessionState) :
    Option (Dispatcher × Nat) :=
  match d.records.get? session with
  | none => none
  | some record =>
      if record.state.requireTransition state then
        some (d.moved session record state, (d.history session).length)
      else none

end Dispatcher

end NamiSync
