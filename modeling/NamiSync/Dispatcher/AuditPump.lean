/-
# `Dispatcher.AuditPump` — audit delivery beside the emits

`_AuditPump` of `dispatcher/event_bus.py` with the three kinds of threads
around it: the emits of any thread, which hold the hub's lock from the number
to the offer; the pump's own thread; and the worker that concludes the session
in `run_session`, which settles it, calls `finalize_audit` and then emits
`Terminal`.  One session is concluded by one worker, once.

A program counter is a point between two atomic accesses of the queue or a
flag.  What the environment decides is an argument of the action: whether the
observer raises, and whether a wait for the queue or for the pump times out.

## What is not here

The bound on the length of a wait, and the join of the pump's thread.  A wait
that times out is a choice of the environment at the block where the source
waits, and `close` is followed as far as the `_Stop` it puts.
-/
import NamiSync.Dispatcher.EventBus

namespace NamiSync

/-- What `_AuditPump._queue` holds: an event, a `_Finalize` or a `_Stop`. -/
inductive AuditCommand
  | event (envelope : Envelope)
  | finalize (result : OperationResult)
  | stop
  deriving DecidableEq

/-- A call of the observer that has returned, or raised. -/
inductive ObserverCall
  | onEvent (envelope : Envelope) (returned : Bool)
  | finalize (result : OperationResult) (returned : Bool)
  | close (returned : Bool)
  deriving DecidableEq

/-- An emit of a reliable event that holds the hub's lock: before the check of
`degraded` in `offer`, and at the `put`. -/
inductive Offering
  | sequenced (envelope : Envelope)
  | putting (envelope : Envelope)

/-- The pump's thread, in `_run`. -/
inductive PumpPc
  | get
  | taken (command : AuditCommand)
  | onEvent (envelope : Envelope)
  | finalize (result : OperationResult)
  /-- `observer.close()` after a `finalize` that returned. -/
  | closing
  /-- `command.complete.set()`. -/
  | completing
  /-- `observer.close()` on a `_Stop`. -/
  | stopping
  /-- `self._closed.set()`. -/
  | marking
  | returned

/-- The worker that concludes the session, from `settle` on. -/
inductive ConcludePc
  | running
  /-- `settle` has returned. -/
  | settled (result : OperationResult)
  /-- Past the check of `degraded` in `finalize`, at the `put`. -/
  | putting (result : OperationResult)
  /-- In `command.complete.wait`. -/
  | waiting (result : OperationResult)
  /-- `finalize_audit` has returned. -/
  | audited (result : OperationResult) (audit : RecordingStatus)
  /-- `Terminal` has been emitted. -/
  | concluded (result : OperationResult) (audit : RecordingStatus) (seq : Nat)

structure AuditPump where
  capacity : Nat
  capacity_pos : 0 < capacity
  seq : Nat := 0
  offering : Option Offering := none
  queue : List AuditCommand := []
  degraded : Bool := false
  closed : Bool := false
  /-- `complete` and `succeeded` of the one `_Finalize`. -/
  complete : Bool := false
  succeeded : Bool := false
  pump : PumpPc := .get
  worker : ConcludePc := .running
  /-- History variable, read by no step: every envelope an emit has made. -/
  emitted : List Envelope := []
  /-- History variable, read by no step: the observer's calls. -/
  calls : List ObserverCall := []

namespace AuditPump

def full (audit : AuditPump) : Bool := decide (audit.capacity ≤ audit.queue.length)

/-- The envelope the next emit makes. -/
def envelope (audit : AuditPump) (body : EventBody) : Envelope :=
  ⟨audit.seq + 1, .emitted body, Nat.succ_pos audit.seq⟩

/-- A body that `emit` offers to the audit. -/
def offers (body : EventBody) : Bool := body.deliveryClass = .reliable && !body.isTerminal

/-- An emit up to the offer; only `run_session` emits `Terminal`. -/
def sequence (audit : AuditPump) (body : EventBody) : Option AuditPump :=
  if audit.offering.isSome || body.isTerminal then none
  else
    some { audit with
      seq := audit.seq + 1
      emitted := audit.emitted ++ [audit.envelope body]
      offering := if offers body then some (.sequenced (audit.envelope body)) else none }

/-- `offer`; a `put` on a full queue waits, or times out with `Full`. -/
def offer (audit : AuditPump) : Option AuditPump :=
  match audit.offering with
  | none => none
  | some (.sequenced envelope) =>
      if audit.degraded then some { audit with offering := none }
      else some { audit with offering := some (.putting envelope) }
  | some (.putting envelope) =>
      if audit.full then some { audit with offering := none, degraded := true }
      else some { audit with offering := none, queue := audit.queue ++ [.event envelope] }

/-- What the pump does with the command it has taken. -/
def handle (audit : AuditPump) : AuditCommand → PumpPc
  | .stop => .stopping
  | .finalize result => if audit.degraded then .completing else .finalize result
  | .event envelope => if audit.degraded then .get else .onEvent envelope

/-- `_run`; `returns` says whether the observer's call returns or raises. -/
def run (audit : AuditPump) (returns : Bool) : Option AuditPump :=
  match audit.pump with
  | .get =>
      match audit.queue with
      | [] => none
      | command :: queue => some { audit with queue := queue, pump := .taken command }
  | .taken command => some { audit with pump := audit.handle command }
  | .onEvent envelope =>
      some { audit with
        calls := audit.calls ++ [.onEvent envelope returns]
        degraded := audit.degraded || !returns
        pump := .get }
  | .finalize result =>
      some { audit with
        calls := audit.calls ++ [.finalize result returns]
        degraded := audit.degraded || !returns
        pump := if returns then .closing else .completing }
  | .closing =>
      some { audit with
        calls := audit.calls ++ [.close returns]
        degraded := audit.degraded || !returns
        succeeded := returns
        pump := .completing }
  | .completing => some { audit with complete := true, pump := .marking }
  | .stopping =>
      some { audit with
        calls := audit.calls ++ [.close returns]
        degraded := audit.degraded || !returns
        pump := .marking }
  | .marking => some { audit with closed := true, pump := .returned }
  | .returned => none

/-- The worker's next block in `finalize_audit`, and the emit of `Terminal`
that follows.  `gives_up` is a wait that times out. -/
def conclude (audit : AuditPump) (givesUp : Bool) : Option AuditPump :=
  match audit.worker with
  | .running => none
  | .settled result =>
      if audit.degraded then
        some { audit with
          queue := if audit.full then audit.queue else audit.queue ++ [.stop]
          worker := .audited result .degraded }
      else some { audit with worker := .putting result }
  | .putting result =>
      if audit.full then
        some { audit with degraded := true, worker := .audited result .degraded }
      else
        some { audit with queue := audit.queue ++ [.finalize result], worker := .waiting result }
  | .waiting result =>
      if givesUp then
        some { audit with degraded := true, worker := .audited result .degraded }
      else if audit.complete then
        some { audit with
          worker := .audited result
            (if audit.succeeded && !audit.degraded then .ok else .degraded) }
      else none
  | .audited result status =>
      if audit.offering.isSome then none
      else
        some { audit with
          seq := audit.seq + 1
          emitted := audit.emitted ++ [audit.envelope (.terminal (result.withAudit status))]
          worker := .concluded result status (audit.seq + 1) }
  | .concluded _ _ _ => none

/-- `settle(result.status, result)` has returned. -/
def settle (audit : AuditPump) (result : OperationResult) : Option AuditPump :=
  match audit.worker with
  | .running => some { audit with worker := .settled result }
  | _ => none

/-- `close`: nothing on a closed pump, otherwise a `_Stop`. -/
def close (audit : AuditPump) : AuditPump :=
  if audit.closed then audit
  else if audit.full then { audit with degraded := true }
  else { audit with queue := audit.queue ++ [.stop] }

inductive Action
  /-- Any thread begins an emit. -/
  | sequence (body : EventBody)
  /-- The emitting thread goes on with its offer. -/
  | offer
  | run (returns : Bool)
  | settle (result : OperationResult)
  | conclude (givesUp : Bool)
  /-- Any thread closes the hub. -/
  | close

def step (audit : AuditPump) : Action → Option AuditPump
  | .sequence body => audit.sequence body
  | .offer => audit.offer
  | .run returns => audit.run returns
  | .settle result => audit.settle result
  | .conclude givesUp => audit.conclude givesUp
  | .close => some audit.close

/-- A pump as `__init__` leaves it. -/
def initial (capacity : Nat) (capacity_pos : 0 < capacity) : AuditPump :=
  { capacity := capacity, capacity_pos := capacity_pos }

end AuditPump

end NamiSync
