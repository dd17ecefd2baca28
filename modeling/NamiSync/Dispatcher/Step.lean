/-
# `Dispatcher.Step` — one atomic step of a caller, a worker, the scheduler

Each function below takes a thread from one atomic block to the next and is
`none` where the block cannot run.  What the environment decides (the result
of an adapter call, of the lock provider, of the workflow, of the audit
finalization) is an argument of the action.  An exception that the source
lets escape `_run_core` is a jump to the `finally` of `_run_worker`.

A workflow gets `Canceled` and `PauseRequested` from its checkpoint, so it
can raise one of them only after the corresponding request; it may catch the
signal, clean up for any length of time, and raise it again.

## How to read an action

`System.step` dispatches on the thread that moves: a caller in the first
block of its call (`stepCall`), a caller further on (`stepClient`), a worker
(`stepWorker`), or the scheduler (`stepSchedule`).  An action is refused
(`none`) in a state where that thread is not at such a block.  So a run is any
list of actions none of which is refused, and a theorem about every run is one
about every interleaving and every behaviour of the adapters.

## What it is not

* Not a fair scheduler.  A run may leave a thread where it is for ever, and
  every result about runs is a safety result: what is true in each state
  reached, never that a state is reached.
* Not the whole of `shutdown`.  Its wait and its join are points of a run
  (`Dispatcher.Workers`); its cancels are ordinary calls of `cancel`.
-/
import NamiSync.Dispatcher.State

namespace NamiSync

open SessionState

namespace Dispatcher

/-! ## Callers -/

/-- The first block of a call, by the thread that makes it.  `none` is a
call that returns at once: a refused control request, `AdmissionClosed`,
`UnknownWorkflowKind`, `SessionNotFound` or `SessionNotTerminal`. -/
inductive Call
  | submit (kind : String)
  | pause (session : SessionId)
  | resume (session : SessionId)
  | cancel (session : SessionId)
  | close (session : SessionId)

/-- The code of the `ControlResult` a control call returns. -/
def controlCode (d : Dispatcher) (action : ControlAction) (session : SessionId) : ControlCode :=
  match d.records.get? session with
  | none => .notFound
  | some record => controlDecision action record.state record.supportsPause

def beginSubmit (d : Dispatcher) (kind : String) : Option (Dispatcher × Client) :=
  if d.accepting = false then none
  else
    match d.registry kind with
    | none => none
    | some registration =>
        some ({ d with admitting := d.admitting + 1 },
          .admitPrepare kind registration.supportsPause)

def pause (d : Dispatcher) (session : SessionId) : Option (Dispatcher × Client) :=
  if d.controlCode .pause session = .accepted then
    match (d.setControl session (d.controls session).requestPause).transitionLocked
        session .pausing with
    | none => none
    | some (d', position) => some (d', .announce session .pausing position)
  else none

def resume (d : Dispatcher) (session : SessionId) : Option (Dispatcher × Client) :=
  if d.controlCode .resume session = .accepted then
    match (d.setControl session (d.controls session).reset).transitionLocked
        session .pending with
    | none => none
    | some (d', position) =>
        some ({ d' with pending := d'.pending ++ [session] },
          .announce session .pending position)
  else none

/-- The states a cancel has to queue again: no worker is going to pick the
session up by itself. -/
def cancelQueues (state : SessionState) : Bool :=
  state = .pending || state = .paused || state = .interrupted

def cancel (d : Dispatcher) (session : SessionId) : Option (Dispatcher × Client) :=
  match d.records.get? session with
  | none => none
  | some record =>
      if controlDecision .cancel record.state record.supportsPause = .accepted then
        if record.state = .pausing then
          some (d.setControl session (d.controls session).requestCancel, .returned)
        else
          match (d.setControl session (d.controls session).requestCancel).transitionLocked
              session .canceling with
          | none => none
          | some (d', position) =>
              some ({ d' with
                pending :=
                  if cancelQueues record.state ∧ session ∉ d'.pending then
                    d'.pending ++ [session]
                  else d'.pending },
                .announce session .canceling position)
      else none

def close (d : Dispatcher) (session : SessionId) : Option (Dispatcher × Client) :=
  match d.records.get? session with
  | none => none
  | some record => if record.isSettled then some (d, .closePop session) else none

def call (d : Dispatcher) : Call → Option (Dispatcher × Client)
  | .submit kind => d.beginSubmit kind
  | .pause session => d.pause session
  | .resume session => d.resume session
  | .cancel session => d.cancel session
  | .close session => d.close session

/-- What the environment decides for a caller in the middle of its call:
`prepare` returned or raised, the store took the new record or raised. -/
inductive ClientChoice
  | prepared (result : Option PreparedSession)
  | stored (ok : Bool)
  | go

/-- `_admit` up to the record: the adapter's `prepare`, then the admission
order. -/
def admitPrepare (d : Dispatcher) (kind : String) (supportsPause : Bool) :
    Option PreparedSession → Dispatcher × Client
  | none => (d, .admitDone)
  | some prepared =>
      ({ d with admissionOrder := d.admissionOrder + 1 },
        .admitRegister kind supportsPause prepared d.admissionOrder d.now)

/-- The record `_admit` builds. -/
def newRecord (session : SessionId) (kind : String) (supportsPause : Bool)
    (prepared : PreparedSession) (admissionOrder createdAt : Nat) : SessionRecord where
  sessionId := session
  kind := kind
  state := .pending
  resources := prepared.resources
  payload := prepared.payload
  supportsPause := supportsPause
  admissionOrder := admissionOrder
  createdAt := createdAt

/-- The registering block of `_admit`. -/
@[simps]
def registerSession (d : Dispatcher) (record : SessionRecord) : Dispatcher :=
  { d.setControl d.nextSession {} with
    nextSession := d.nextSession + 1
    records := d.records.set d.nextSession record
    itemEvents := d.itemEvents ++ [d.nextSession]
    pending := d.pending ++ [d.nextSession]
    hubs := fun s => if s = d.nextSession then [] else d.hubs s
    items := fun s => if s = d.nextSession then [] else d.items s
    history := fun s => if s = d.nextSession then [.pending] else d.history s }

/-- `_admit` from the store on: registration, unless the store raised or
admission was closed meanwhile. -/
def admitRegister (d : Dispatcher) (kind : String) (supportsPause : Bool)
    (prepared : PreparedSession) (admissionOrder createdAt : Nat) (stored : Bool) :
    Dispatcher × Client :=
  if stored = false ∨ d.accepting = false then (d, .admitDone)
  else
    (d.registerSession
        (newRecord d.nextSession kind supportsPause prepared admissionOrder createdAt),
      .admitEmit d.nextSession)

/-- The second block of `close`; a session closed by another caller in
between is the `KeyError` of `self._hubs.pop`. -/
@[simps]
def closePop (d : Dispatcher) (session : SessionId) : Dispatcher :=
  { d with
    records := d.records.pop session
    itemEvents := d.itemEvents.filter (· ≠ session) }

def clientStep (d : Dispatcher) : Client → ClientChoice → Option (Dispatcher × Client)
  | .admitPrepare kind supportsPause, .prepared result =>
      some (d.admitPrepare kind supportsPause result)
  | .admitRegister kind supportsPause prepared order createdAt, .stored ok =>
      some (d.admitRegister kind supportsPause prepared order createdAt ok)
  | .admitEmit session, .go => some (d.emit session (.stateChanged .pending), .admitDone)
  | .admitDone, .go => some ({ d with admitting := d.admitting - 1 }, .returned)
  | .announce session state _, .go =>
      some (d.emit session (.stateChanged state), .returned)
  | .closePop session, .go => some (d.closePop session, .returned)
  | _, _ => none

/-! ## Workers -/

/-- The provider's answer to `acquire`: a granted lease, the `Canceled` it
may raise once the cancel flag is up, or any other error. -/
inductive AcquireResult
  | granted
  | canceled
  | error (detail : FailureDetail)

/-- How the workflow's `run` ends. -/
inductive RunEnd
  | returned (result : OperationResult)
  | raised (signal : Signal)
  | error (detail : FailureDetail)

/-- What the environment decides for a worker. -/
inductive WorkerChoice
  | go
  | acquired (result : AcquireResult)
  | opened (error : Option FailureDetail)
  | runEmit (body : EventBody)
  | runEnd (ending : RunEnd)
  | snapshot (payload : Except FailureDetail (List UInt8))
  | audited (audit : RecordingStatus)

/-- The bodies workflow code emits: `observed_emit` refuses `Terminal`, and
only the dispatcher announces states. -/
def workflowBody : EventBody → Bool
  | .stateChanged _ | .terminal _ => false
  | _ => true

/-- What `observed_emit` appends to the shared item list. -/
def observedItems : EventBody → List ItemOutcome
  | .itemOutcome item => [item]
  | _ => []

/-- The latest progress after a body, for `run_session`'s abnormal ends. -/
def observedProgress (latest : Option Progress) : EventBody → Option Progress
  | .progress progress => some progress
  | _ => latest

/-- `observed_emit`. -/
@[simps]
def observedEmit (d : Dispatcher) (session : SessionId) (body : EventBody) : Dispatcher :=
  { d.emit session body with
    items := fun s => if s = session then d.items s ++ observedItems body else d.items s }

/-- The unreleased leases of the provider leave these resources free. -/
def grantable (d : Dispatcher) (resources : Finset ResourceId) : Bool :=
  d.granted.all (fun lease => lease.released || decide (Disjoint lease.resources resources))

def failureText : FailureDetail :=
  { typeName := "RuntimeError", message := "registered invocation paused without capability" }

/-- Mark a lease as released: its `release()` has been called. -/
def releaseGranted (granted : List Lease) (lease : LeaseId) : List Lease :=
  granted.modify lease (fun l => { l with released := true })

/-- `_run_worker`, first block. -/
def workerStart (d : Dispatcher) (session : SessionId) : WorkerPc :=
  match d.records.get? session with
  | none => .releasePop .finish
  | some record =>
      if record.state = .canceling then .core ⟨none, record.disposition, none⟩
      else .acquire record

/-- The three outcomes of `self._lock_provider.acquire`. -/
def workerAcquire (d : Dispatcher) (worker : WorkerId) (session : SessionId)
    (record : SessionRecord) : AcquireResult → Option (Dispatcher × WorkerPc)
  | .granted =>
      if d.grantable record.resources then
        some
          ({ d with
              granted := d.granted ++ [{ owner := worker, resources := record.resources }] },
            .store d.granted.length)
      else none
  | .canceled =>
      if (d.controls session).cancel then
        some (d, .core ⟨none, record.disposition, none⟩)
      else none
  | .error detail => some (d, .core ⟨none, .unrun, some detail⟩)

/-- The block that stores the lease and looks at the state again. -/
def workerStore (d : Dispatcher) (session : SessionId) (lease : LeaseId) :
    Dispatcher × WorkerPc :=
  ({ d with leases := d.leases.set session lease },
    match d.records.get? session with
    | none => .releasePop .finish
    | some current =>
        if current.state = .canceling then .core ⟨none, current.disposition, none⟩
        else .opening lease)

def workerOpened (lease : LeaseId) : Option FailureDetail → WorkerPc
  | none => .toRunning lease
  | some detail => .core ⟨none, .unrun, some detail⟩

/-- The block that makes the session `RUNNING`, unless it is being
canceled. -/
def workerToRunning (d : Dispatcher) (session : SessionId) (lease : LeaseId) :
    Dispatcher × WorkerPc :=
  match d.records.get? session with
  | none => (d, .releasePop .finish)
  | some current =>
      if current.state = .canceling then (d, .core ⟨none, current.disposition, none⟩)
      else
        match d.transitionLocked session .running with
        | none => (d, .releasePop .finish)
        | some (d', position) => (d', .announceRunning lease position)

/-- `_run_core` up to `run_session`: the control, the hub and the item list
are looked up, which is a `KeyError` for a closed session. -/
def workerCore (d : Dispatcher) (session : SessionId) (job : Job) : WorkerPc :=
  if (d.records.get? session).isSome ∧ session ∈ d.itemEvents then .work job
  else .releasePop .finish

def settleCanceled (d : Dispatcher) (session : SessionId) (job : Job)
    (latest : Option Progress) : WorkerPc :=
  .releasePop (.settle .canceled (some (canceledResult job.disposition (d.items session) latest)))

def settleFailed (d : Dispatcher) (session : SessionId) (job : Job)
    (latest : Option Progress) (detail : FailureDetail) : WorkerPc :=
  .releasePop (.settle .failed
    (some (failedResult job.disposition (d.items session) latest detail)))

/-- `work` up to the call of `invocation.run`: its own checkpoint, then the
failure it was handed, then the missing invocation.  Nothing shared is read
between the checkpoint and the call, so passing the checkpoint enters the
run. -/
def workerWork (d : Dispatcher) (session : SessionId) (job : Job) : WorkerPc :=
  match (d.controls session).checkpoint with
  | some .canceled => d.settleCanceled session job none
  | some .pauseRequested => .releasePop (.settle .paused none)
  | none =>
      match job.failure with
      | some detail => d.settleFailed session job none detail
      | none =>
          match job.invocation with
          | none => d.settleCanceled session job none
          | some lease => .running lease job none

/-- Whether the session's registration declares a continuation.  Without a
record the pause fails all the same, in `_replace_payload`. -/
def pausable (d : Dispatcher) (session : SessionId) : Bool :=
  match d.records.get? session with
  | none => true
  | some record =>
      match d.registry record.kind with
      | none => false
      | some registration => registration.supportsPause

/-- The end of `invocation.run(context)`, up to `settle`. -/
def workerRunEnd (d : Dispatcher) (session : SessionId) (job : Job)
    (latest : Option Progress) : RunEnd → Option WorkerPc
  | .returned result => some (.releasePop (.settle result.status (some result)))
  | .error detail => some (d.settleFailed session job latest detail)
  | .raised .canceled =>
      if (d.controls session).cancel then some (d.settleCanceled session job latest) else none
  | .raised .pauseRequested =>
      if (d.controls session).pause then
        if d.pausable session then some (.snapshot job latest)
        else some (d.settleFailed session job latest failureText)
      else none

/-- `_replace_payload(session_id, invocation.snapshot())`, then the pause. -/
def workerSnapshot (d : Dispatcher) (session : SessionId) (job : Job)
    (latest : Option Progress) : Except FailureDetail (List UInt8) → Dispatcher × WorkerPc
  | .error detail => (d, d.settleFailed session job latest detail)
  | .ok payload =>
      match d.records.get? session with
      | none => (d, d.settleFailed session job latest ⟨"KeyError", toString session⟩)
      | some record =>
          (d.setRecord session (record.withPayload payload), .releasePop (.settle .paused none))

/-- `_release_custody`, first block. -/
def workerReleasePop (d : Dispatcher) (session : SessionId) (after : After) :
    Dispatcher × WorkerPc :=
  ({ d with leases := d.leases.pop session },
    match d.leases.get? session with
    | none => .releaseReserved (d.records.get? session) after
    | some lease => .releaseLease lease (d.records.get? session) after)

/-- The resources `_release_custody` gives back; nothing for a session that
was closed meanwhile. -/
def recordResources : Option SessionRecord → Finset ResourceId
  | none => ∅
  | some record => record.resources

/-- `_release_custody`, last block, and where it returns to. -/
def workerReleaseReserved (d : Dispatcher) (record : Option SessionRecord) (after : After) :
    Dispatcher × WorkerPc :=
  ({ d with reserved := d.reserved \ recordResources record },
    match after with
    | .settle state result => .settleTransition state result
    | .finish => .workerDone)

/-- The transition inside `_settle`. -/
def workerSettle (d : Dispatcher) (session : SessionId) (state : SessionState)
    (result : Option OperationResult) : Dispatcher × WorkerPc :=
  match d.transitionLocked session state with
  | none => (d, .releasePop .finish)
  | some (d', position) => (d', .settleEmit state result position)

/-- After `_settle` returned: a pause ends `_run_core`, a terminal state
goes on to the audit. -/
def afterSettle : Option OperationResult → WorkerPc
  | none => .releasePop .finish
  | some result => .finalize result

/-- `_publish_result`. -/
def workerPublish (d : Dispatcher) (session : SessionId) (result : OperationResult) :
    Dispatcher × WorkerPc :=
  match d.records.get? session with
  | none => (d, .releasePop .finish)
  | some record =>
      match record.withResult result with
      | none => (d, .releasePop .finish)
      | some updated => (d.setRecord session updated, .emitTerminal result)

/-- The block of `_worker_done`: the worker leaves `_workers`, and a cancel
that was accepted during the pause drain takes effect. -/
def workerDone (d : Dispatcher) (session : SessionId) : Dispatcher × WorkerPc :=
  let d := { d with workers := d.workers.pop session }
  match d.records.get? session with
  | none => (d, .ended)
  | some record =>
      if record.state = .paused ∧ (d.controls session).cancel then
        match d.transitionLocked session .canceling with
        | none => (d, .ended)
        | some (d', position) =>
            ({ d' with pending := d'.pending ++ [session] }, .announceCanceling position)
      else (d, .ended)

def workerStep (d : Dispatcher) (worker : WorkerId) (session : SessionId) :
    WorkerPc → WorkerChoice → Option (Dispatcher × WorkerPc)
  | .start, .go => some (d, d.workerStart session)
  | .acquire record, .acquired result => d.workerAcquire worker session record result
  | .store lease, .go => some (d.workerStore session lease)
  | .opening lease, .opened error => some (d, workerOpened lease error)
  | .toRunning lease, .go => some (d.workerToRunning session lease)
  | .announceRunning lease _, .go =>
      some (d.emit session (.stateChanged .running), .core ⟨some lease, .ran, none⟩)
  | .core job, .go => some (d, d.workerCore session job)
  | .work job, .go => some (d, d.workerWork session job)
  | .running lease job latest, .runEmit body =>
      if workflowBody body then
        some (d.observedEmit session body, .running lease job (observedProgress latest body))
      else none
  | .running _ job latest, .runEnd ending =>
      (d.workerRunEnd session job latest ending).map (fun pc => (d, pc))
  | .snapshot job latest, .snapshot payload =>
      some (d.workerSnapshot session job latest payload)
  | .releasePop after, .go => some (d.workerReleasePop session after)
  | .releaseLease lease record after, .go =>
      some ({ d with granted := releaseGranted d.granted lease }, .releaseReserved record after)
  | .releaseReserved record after, .go => some (d.workerReleaseReserved record after)
  | .settleTransition state result, .go => some (d.workerSettle session state result)
  | .settleEmit state result _, .go =>
      some (d.emit session (.stateChanged state), afterSettle result)
  | .finalize result, .audited audit => some (d, .publish (result.withAudit audit))
  | .publish result, .go => some (d.workerPublish session result)
  | .emitTerminal result, .go => some (d.emit session (.terminal result), .dropItems)
  | .dropItems, .go =>
      some ({ d with itemEvents := d.itemEvents.filter (· ≠ session) }, .releasePop .finish)
  | .workerDone, .go => some (d.workerDone session)
  | .announceCanceling _, .go =>
      some (d.emit session (.stateChanged .canceling), .ended)
  | _, _ => none

/-! ## The scheduler -/

/-- The locals of one pass of `_schedule` over the queue. -/
structure Pass where
  selected : List (SessionId × Bool) := []
  waiting : Finset ResourceId := ∅
  reserved : Finset ResourceId

/-- The body of the `for` loop.  A session that is not `PENDING` is selected
without a reservation. -/
def Pass.visit (records : Dict SessionId SessionRecord) (pass : Pass) (session : SessionId) :
    Pass :=
  match records.get? session with
  | none => { pass with selected := pass.selected ++ [(session, false)] }
  | some record =>
      if record.state ≠ .pending then
        { pass with selected := pass.selected ++ [(session, false)] }
      else if ¬ Disjoint record.resources (pass.reserved ∪ pass.waiting) then
        { pass with waiting := pass.waiting ∪ record.resources }
      else
        { pass with
          reserved := pass.reserved ∪ record.resources
          selected := pass.selected ++ [(session, true)] }

def pass (d : Dispatcher) : Pass :=
  d.pending.foldl (Pass.visit d.records) { reserved := d.reserved }

/-- The selected sessions that still have a record get a worker, in
order. -/
def launchable (d : Dispatcher) : List (SessionId × Bool) :=
  d.pass.selected.filter (fun entry => (d.records.get? entry.1).isSome)

/-- `self._workers[session_id] = worker` for each launch, the first of which
becomes thread number `next`. -/
def register (workers : Dict SessionId WorkerId) (next : WorkerId) :
    List (SessionId × Bool) → Dict SessionId WorkerId
  | [] => workers
  | entry :: rest => register (workers.set entry.1 next) (next + 1) rest

/-- The sessions a pass admits from `PENDING`. -/
def admitted (d : Dispatcher) : List SessionId :=
  (d.launchable.filter (·.2)).map (·.1)

/-- One pass of `_schedule` that does something: it launches workers, or
returns because nothing is left to do.  A pass that selects nothing goes
back to waiting. -/
def schedule (d : Dispatcher) (next : WorkerId) :
    Option (Dispatcher × List (SessionId × Bool)) :=
  if d.schedulerReturned then none
  else if d.pass.selected ≠ [] then
    some ({ d with
      reserved := d.pass.reserved
      pending := d.pending.filter (fun s => s ∉ d.pass.selected.map (·.1))
      workers := register d.workers next d.launchable
      unsettled := d.unsettled ++ d.admitted
      admissions := d.admissions ++ d.admitted }, d.launchable)
  else if d.accepting = false ∧ d.pending = [] ∧ d.workers.isEmpty then
    some ({ d with schedulerReturned := true }, [])
  else none

end Dispatcher

/-! ## The system -/

inductive Action
  /-- A thread calls a public method: the first block of the call. -/
  | call (call : Dispatcher.Call)
  /-- A caller takes its next block. -/
  | client (client : Nat) (choice : Dispatcher.ClientChoice)
  /-- A worker thread takes its next block. -/
  | worker (worker : WorkerId) (choice : Dispatcher.WorkerChoice)
  /-- The scheduler thread runs one pass. -/
  | schedule
  /-- `shutdown` stops admission; the cancels it goes on to make are
  ordinary `cancel` calls. -/
  | stopAccepting
  /-- The clock advances. -/
  | tick

namespace System

def stepCall (s : System) (c : Dispatcher.Call) : Option System :=
  match s.disp.call c with
  | none => none
  | some (d, client) => some { s with disp := d, clients := s.clients ++ [client] }

def stepClient (s : System) (i : Nat) (choice : Dispatcher.ClientChoice) : Option System :=
  match s.clients[i]? with
  | none => none
  | some client =>
      match s.disp.clientStep client choice with
      | none => none
      | some (d, client') => some { s with disp := d, clients := s.clients.set i client' }

def stepWorker (s : System) (w : WorkerId) (choice : Dispatcher.WorkerChoice) : Option System :=
  match s.threads[w]? with
  | none => none
  | some thread =>
      match s.disp.workerStep w thread.session thread.pc choice with
      | none => none
      | some (d, pc) =>
          some { s with disp := d, threads := s.threads.set w { thread with pc := pc } }

def stepSchedule (s : System) : Option System :=
  match s.disp.schedule s.threads.length with
  | none => none
  | some (d, launches) =>
      some { s with
        disp := d
        threads := s.threads ++ launches.map (fun entry => ⟨entry.1, entry.2, .start⟩) }

/-- One atomic step of the whole system. -/
def step (s : System) : Action → Option System
  | .call c => s.stepCall c
  | .client i choice => s.stepClient i choice
  | .worker w choice => s.stepWorker w choice
  | .schedule => s.stepSchedule
  | .stopAccepting => some { s with disp := { s.disp with accepting := false } }
  | .tick => some { s with disp := { s.disp with now := s.disp.now + 1 } }

/-- A dispatcher as `__init__` leaves it. -/
def initial (registry : String → Option WorkflowRegistration) : System :=
  { disp := { registry := registry } }

end System

/-! ## Scripts

Stretches of a run that no other thread has to interrupt. -/

namespace Script

/-- `submit` from end to end, by the caller with number `client`. -/
def submit (client : Nat) (kind : String) (resources : Finset ResourceId) : List Action :=
  [.call (.submit kind), .client client (.prepared (some ⟨[], resources⟩)),
    .client client (.stored true), .client client .go, .client client .go]

/-- A control call that announces a transition, from end to end. -/
def control (client : Nat) (call : Dispatcher.Call) : List Action :=
  [.call call, .client client .go]

/-- `count` blocks of a worker that leave nothing to choose. -/
def blocks (worker : WorkerId) (count : Nat) : List Action :=
  List.replicate count (.worker worker .go)

/-- A worker from its start into the run of its session. -/
def enterRun (worker : WorkerId) : List Action :=
  [.worker worker .go, .worker worker (.acquired .granted), .worker worker .go,
    .worker worker (.opened none)] ++ blocks worker 4

/-- A running worker that meets the pause request, up to its `finally`. -/
def settlePaused (worker : WorkerId) : List Action :=
  [.worker worker (.runEnd (.raised .pauseRequested)), .worker worker (.snapshot (.ok []))] ++
    blocks worker 5

/-- A running worker that meets the cancel request, up to the emit of
`Terminal`. -/
def settleCanceled (worker : WorkerId) : List Action :=
  [.worker worker (.runEnd (.raised .canceled))] ++ blocks worker 5 ++
    [.worker worker (.audited .ok)] ++ blocks worker 2

end Script

end NamiSync
