/-
# `Dispatcher.Moves` — what one step can do, said once

One constructor for each way through each atomic block, with the dispatcher
it leaves spelled out.  Every invariant of the dispatcher is a case analysis
over these three relations and `step_cases`; none of them unfolds the step
functions again.

## Why three relations

`step` is a nest of matches over a program counter, a choice of the
environment and what the dictionaries hold.  An invariant that unfolded it
would split all of them again, mostly to find that nothing relevant changed.
Here each way through a block is a constructor that names its guards as
hypotheses and its dispatcher as an index, so that

    CallMove d c d' client        the first block of call `c`
    ClientMove d c choice d' c'   a later block of a caller
    WorkerMove d w S pc ch d' pc' a block of worker `w` of session `S`

are inverted by `cases`, and a field that no constructor touches is kept by
`cases h <;> rfl`.  The theorems go one way only, from the step to the
relation: the relations are there to be taken apart.  A guard that is left
out here would make every invariant proved over them harder, never false.
-/
import NamiSync.Dispatcher.Step
import NamiSync.Lib.Transition

namespace NamiSync

namespace Dispatcher

/-! ## The transition under the lock

Every block that changes a state goes through `_transition_locked`.  What it
does is said here once for both answers: the record before and after with the
check that passed, or the check that refused. -/

theorem transitionLocked_eq_some {d d' : Dispatcher} {session : SessionId}
    {state : SessionState} {position : Nat}
    (h : d.transitionLocked session state = some (d', position)) :
    ∃ record, d.records.get? session = some record ∧
      record.state.requireTransition state = true ∧
      d' = d.moved session record state ∧ position = (d.history session).length := by
  unfold transitionLocked at h
  split at h
  · exact absurd h (by simp)
  · next record hr =>
      split at h
      · next hlegal =>
          simp only [Option.some.injEq, Prod.mk.injEq] at h
          exact ⟨record, hr, hlegal, h.1.symm, h.2.symm⟩
      · exact absurd h (by simp)

theorem transitionLocked_eq_none {d : Dispatcher} {session : SessionId} {state : SessionState}
    {record : SessionRecord} (hr : d.records.get? session = some record)
    (h : d.transitionLocked session state = none) :
    record.state.requireTransition state = false := by
  simpa [transitionLocked, hr] using h

/-! ## Calls

What a caller does before it waits for anything.  The lemmas `…_move` are the
inversions of the three calls that can be refused, and `call_move` is the one
that the invariants use. -/

/-- The first block of a call that does not return at once. -/
inductive CallMove (d : Dispatcher) : Call → Dispatcher → Client → Prop
  | submit {kind : String} {registration : WorkflowRegistration} :
      d.accepting = true → d.registry kind = some registration →
      CallMove d (.submit kind) { d with admitting := d.admitting + 1 }
        (.admitPrepare kind registration.supportsPause)
  | pause {S : SessionId} {record : SessionRecord} :
      d.records.get? S = some record → record.state = .running →
      record.supportsPause = true →
      CallMove d (.pause S)
        ((d.setControl S (d.controls S).requestPause).moved S record .pausing)
        (.announce S .pausing (d.history S).length)
  | resume {S : SessionId} {record : SessionRecord} :
      d.records.get? S = some record →
      record.state = .paused ∨ record.state = .interrupted →
      CallMove d (.resume S)
        { (d.setControl S {}).moved S record .pending with pending := d.pending ++ [S] }
        (.announce S .pending (d.history S).length)
  | cancelPausing {S : SessionId} {record : SessionRecord} :
      d.records.get? S = some record → record.state = .pausing →
      CallMove d (.cancel S) (d.setControl S (d.controls S).requestCancel) .returned
  | cancel {S : SessionId} {record : SessionRecord} :
      d.records.get? S = some record → record.state.isTerminal = false →
      record.state ≠ .canceling → record.state ≠ .pausing →
      CallMove d (.cancel S)
        { (d.setControl S (d.controls S).requestCancel).moved S record .canceling with
          pending :=
            if cancelQueues record.state ∧ S ∉ d.pending then d.pending ++ [S]
            else d.pending }
        (.announce S .canceling (d.history S).length)
  | close {S : SessionId} {record : SessionRecord} :
      d.records.get? S = some record → record.isSettled = true →
      CallMove d (.close S) d (.closePop S)

theorem pause_move {d d' : Dispatcher} {S : SessionId} {client : Client}
    (h : d.pause S = some (d', client)) : CallMove d (.pause S) d' client := by
  unfold pause controlCode at h
  cases hr : d.records.get? S with
  | none => simp [hr] at h
  | some record =>
      simp only [hr] at h
      split at h
      · next hacc =>
          split at h
          · exact absurd h (by simp)
          · next d'' position ht =>
              obtain ⟨record', hr', -, rfl, rfl⟩ := transitionLocked_eq_some ht
              obtain rfl : record = record' := Option.some.inj (hr.symm.trans hr')
              simp only [Option.some.injEq, Prod.mk.injEq] at h
              obtain ⟨rfl, rfl⟩ := h
              have hrun : record.supportsPause = true ∧ record.state = .running := by
                revert hacc
                unfold controlDecision
                cases record.supportsPause <;> simp
              exact .pause hr hrun.2 hrun.1
      · exact absurd h (by simp)

theorem resume_move {d d' : Dispatcher} {S : SessionId} {client : Client}
    (h : d.resume S = some (d', client)) : CallMove d (.resume S) d' client := by
  unfold resume controlCode at h
  cases hr : d.records.get? S with
  | none => simp [hr] at h
  | some record =>
      simp only [hr] at h
      split at h
      · next hacc =>
          split at h
          · exact absurd h (by simp)
          · next d'' position ht =>
              obtain ⟨record', hr', -, rfl, rfl⟩ := transitionLocked_eq_some ht
              obtain rfl : record = record' := Option.some.inj (hr.symm.trans hr')
              simp only [Option.some.injEq, Prod.mk.injEq] at h
              obtain ⟨rfl, rfl⟩ := h
              have hstate : record.state = .paused ∨ record.state = .interrupted := by
                revert hacc
                unfold controlDecision
                simp only [ite_eq_left_iff, reduceCtorEq, imp_false, not_not, imp_self]
              exact .resume hr hstate
      · exact absurd h (by simp)

theorem cancel_move {d d' : Dispatcher} {S : SessionId} {client : Client}
    (h : d.cancel S = some (d', client)) : CallMove d (.cancel S) d' client := by
  unfold cancel at h
  cases hr : d.records.get? S with
  | none => simp [hr] at h
  | some record =>
      simp only [hr] at h
      split at h
      · next hacc =>
          have hopen : record.state.isTerminal = false ∧ record.state ≠ .canceling := by
            revert hacc
            unfold controlDecision
            simp
          split at h
          · next hp =>
              simp only [Option.some.injEq, Prod.mk.injEq] at h
              obtain ⟨rfl, rfl⟩ := h
              exact .cancelPausing hr hp
          · next hp =>
              split at h
              · exact absurd h (by simp)
              · next d'' position ht =>
                  obtain ⟨record', hr', -, rfl, rfl⟩ := transitionLocked_eq_some ht
                  obtain rfl : record = record' := Option.some.inj (hr.symm.trans hr')
                  simp only [Option.some.injEq, Prod.mk.injEq] at h
                  obtain ⟨rfl, rfl⟩ := h
                  exact .cancel hr hopen.1 hopen.2 hp
      · exact absurd h (by simp)

theorem call_move {d d' : Dispatcher} {c : Call} {client : Client}
    (h : d.call c = some (d', client)) : CallMove d c d' client := by
  cases c with
  | submit kind =>
      simp only [call, beginSubmit] at h
      split at h
      · exact absurd h (by simp)
      · next hacc =>
          split at h
          · exact absurd h (by simp)
          · next registration hreg =>
              simp only [Option.some.injEq, Prod.mk.injEq] at h
              obtain ⟨rfl, rfl⟩ := h
              exact .submit (by simpa using hacc) hreg
  | pause S => exact pause_move h
  | resume S => exact resume_move h
  | cancel S => exact cancel_move h
  | close S =>
      simp only [call, close] at h
      split at h
      · exact absurd h (by simp)
      · next record hr =>
          split at h
          · next hs =>
              simp only [Option.some.injEq, Prod.mk.injEq] at h
              obtain ⟨rfl, rfl⟩ := h
              exact .close hr hs
          · exact absurd h (by simp)

/-! ## Callers in the middle of a call

`submit` takes four blocks: the workflow prepares, the record is registered, the
hub hears of it, and the count of admissions falls again.  A control method has
one block left, which announces the state it has set, and so has `close`. -/

inductive ClientMove (d : Dispatcher) : Client → Dispatcher → Client → Prop
  | prepareFailed {kind : String} {p : Bool} :
      ClientMove d (.admitPrepare kind p) d .admitDone
  | prepared {kind : String} {p : Bool} {prepared : PreparedSession} :
      ClientMove d (.admitPrepare kind p) { d with admissionOrder := d.admissionOrder + 1 }
        (.admitRegister kind p prepared d.admissionOrder d.now)
  | registerFailed {kind : String} {p : Bool} {prepared : PreparedSession} {order at' : Nat} :
      ClientMove d (.admitRegister kind p prepared order at') d .admitDone
  | registered {kind : String} {p : Bool} {prepared : PreparedSession} {order at' : Nat} :
      d.accepting = true →
      ClientMove d (.admitRegister kind p prepared order at')
        (d.registerSession (newRecord d.nextSession kind p prepared order at'))
        (.admitEmit d.nextSession)
  | emitPending {S : SessionId} :
      ClientMove d (.admitEmit S) (d.emit S (.stateChanged .pending)) .admitDone
  | admitDone : ClientMove d .admitDone { d with admitting := d.admitting - 1 } .returned
  | announce {S : SessionId} {state : SessionState} {position : Nat} :
      ClientMove d (.announce S state position) (d.emit S (.stateChanged state)) .returned
  | closePop {S : SessionId} : ClientMove d (.closePop S) (d.closePop S) .returned

theorem client_move {d d' : Dispatcher} {client client' : Client} {choice : ClientChoice}
    (h : d.clientStep client choice = some (d', client')) : ClientMove d client d' client' := by
  cases client <;> cases choice <;> simp only [clientStep, reduceCtorEq, Option.some.injEq] at h
  case admitPrepare.prepared kind p result =>
      cases result <;> simp only [admitPrepare, Prod.mk.injEq] at h <;> obtain ⟨rfl, rfl⟩ := h
      · exact .prepareFailed
      · exact .prepared
  case admitRegister.stored kind p prepared order createdAt ok =>
      unfold admitRegister at h
      split at h <;> simp only [Prod.mk.injEq] at h <;> obtain ⟨rfl, rfl⟩ := h
      · exact .registerFailed
      · next hok =>
          exact .registered (by simpa using (not_or.mp hok).2)
  case admitEmit.go => simp only [Prod.mk.injEq] at h; obtain ⟨rfl, rfl⟩ := h; exact .emitPending
  case admitDone.go => simp only [Prod.mk.injEq] at h; obtain ⟨rfl, rfl⟩ := h; exact .admitDone
  case announce.go => simp only [Prod.mk.injEq] at h; obtain ⟨rfl, rfl⟩ := h; exact .announce
  case closePop.go => simp only [Prod.mk.injEq] at h; obtain ⟨rfl, rfl⟩ := h; exact .closePop

/-! ## Workers

One inversion for each block of a worker's program.  They are kept apart because
an invariant usually needs only the few constructors that touch what it is
about; `worker_move` collects them. -/

/-- A worker's way through one block: worker `w` of session `S`. -/
inductive WorkerMove (d : Dispatcher) (w : WorkerId) (S : SessionId) :
    WorkerPc → Dispatcher → WorkerPc → Prop
  | startGone : d.records.get? S = none → WorkerMove d w S .start d (.releasePop .finish)
  | startCanceling {r : SessionRecord} :
      d.records.get? S = some r → r.state = .canceling →
      WorkerMove d w S .start d (.core ⟨none, r.disposition, none⟩)
  | startAcquire {r : SessionRecord} :
      d.records.get? S = some r → r.state ≠ .canceling →
      WorkerMove d w S .start d (.acquire r)
  | granted {r : SessionRecord} :
      d.grantable r.resources = true →
      WorkerMove d w S (.acquire r)
        { d with granted := d.granted ++ [{ owner := w, resources := r.resources }] }
        (.store d.granted.length)
  | acquireCanceled {r : SessionRecord} :
      (d.controls S).cancel = true →
      WorkerMove d w S (.acquire r) d (.core ⟨none, r.disposition, none⟩)
  | acquireError {r : SessionRecord} {detail : FailureDetail} :
      WorkerMove d w S (.acquire r) d (.core ⟨none, .unrun, some detail⟩)
  | storeGone {l : LeaseId} :
      d.records.get? S = none →
      WorkerMove d w S (.store l) { d with leases := d.leases.set S l } (.releasePop .finish)
  | storeCanceling {l : LeaseId} {r : SessionRecord} :
      d.records.get? S = some r → r.state = .canceling →
      WorkerMove d w S (.store l) { d with leases := d.leases.set S l }
        (.core ⟨none, r.disposition, none⟩)
  | storeOpen {l : LeaseId} {r : SessionRecord} :
      d.records.get? S = some r → r.state ≠ .canceling →
      WorkerMove d w S (.store l) { d with leases := d.leases.set S l } (.opening l)
  | opened {l : LeaseId} : WorkerMove d w S (.opening l) d (.toRunning l)
  | openError {l : LeaseId} {detail : FailureDetail} :
      WorkerMove d w S (.opening l) d (.core ⟨none, .unrun, some detail⟩)
  | runningGone {l : LeaseId} :
      d.records.get? S = none → WorkerMove d w S (.toRunning l) d (.releasePop .finish)
  | runningCanceling {l : LeaseId} {r : SessionRecord} :
      d.records.get? S = some r → r.state = .canceling →
      WorkerMove d w S (.toRunning l) d (.core ⟨none, r.disposition, none⟩)
  | runningIllegal {l : LeaseId} {r : SessionRecord} :
      d.records.get? S = some r → r.state ≠ .canceling →
      r.state.requireTransition .running = false →
      WorkerMove d w S (.toRunning l) d (.releasePop .finish)
  | toRunning {l : LeaseId} {r : SessionRecord} :
      d.records.get? S = some r → r.state.requireTransition .running = true →
      WorkerMove d w S (.toRunning l) (d.moved S r .running)
        (.announceRunning l (d.history S).length)
  | announceRunning {l : LeaseId} {position : Nat} :
      WorkerMove d w S (.announceRunning l position) (d.emit S (.stateChanged .running))
        (.core ⟨some l, .ran, none⟩)
  | core {job : Job} {r : SessionRecord} :
      d.records.get? S = some r → S ∈ d.itemEvents → WorkerMove d w S (.core job) d (.work job)
  | coreGone {job : Job} :
      d.records.get? S = none ∨ S ∉ d.itemEvents →
      WorkerMove d w S (.core job) d (.releasePop .finish)
  | workCanceled {job : Job} :
      (d.controls S).cancel = true →
      WorkerMove d w S (.work job) d (d.settleCanceled S job none)
  | workPaused {job : Job} :
      (d.controls S).cancel = false → (d.controls S).pause = true →
      WorkerMove d w S (.work job) d (.releasePop (.settle .paused none))
  | workFailed {job : Job} {detail : FailureDetail} :
      (d.controls S).checkpoint = none → job.failure = some detail →
      WorkerMove d w S (.work job) d (d.settleFailed S job none detail)
  | workNone {job : Job} :
      (d.controls S).checkpoint = none → job.failure = none → job.invocation = none →
      WorkerMove d w S (.work job) d (d.settleCanceled S job none)
  | enterRun {job : Job} {l : LeaseId} :
      (d.controls S).checkpoint = none → job.failure = none → job.invocation = some l →
      WorkerMove d w S (.work job) d (.running l job none)
  | runEmit {l : LeaseId} {job : Job} {latest : Option Progress} {body : EventBody} :
      workflowBody body = true →
      WorkerMove d w S (.running l job latest) (d.observedEmit S body)
        (.running l job (observedProgress latest body))
  | runReturned {l : LeaseId} {job : Job} {latest : Option Progress} {result : OperationResult} :
      WorkerMove d w S (.running l job latest) d
        (.releasePop (.settle result.status (some result)))
  | runCanceled {l : LeaseId} {job : Job} {latest : Option Progress} :
      (d.controls S).cancel = true →
      WorkerMove d w S (.running l job latest) d (d.settleCanceled S job latest)
  | runFailed {l : LeaseId} {job : Job} {latest : Option Progress} {detail : FailureDetail} :
      WorkerMove d w S (.running l job latest) d (d.settleFailed S job latest detail)
  | runPaused {l : LeaseId} {job : Job} {latest : Option Progress} :
      (d.controls S).pause = true →
      WorkerMove d w S (.running l job latest) d (.snapshot job latest)
  | snapshotFailed {job : Job} {latest : Option Progress} {detail : FailureDetail} :
      WorkerMove d w S (.snapshot job latest) d (d.settleFailed S job latest detail)
  | snapshot {job : Job} {latest : Option Progress} {payload : List UInt8} {r : SessionRecord} :
      d.records.get? S = some r →
      WorkerMove d w S (.snapshot job latest) (d.setRecord S (r.withPayload payload))
        (.releasePop (.settle .paused none))
  | popLease {after : After} {l : LeaseId} :
      d.leases.get? S = some l →
      WorkerMove d w S (.releasePop after) { d with leases := d.leases.pop S }
        (.releaseLease l (d.records.get? S) after)
  | popNone {after : After} :
      d.leases.get? S = none →
      WorkerMove d w S (.releasePop after) { d with leases := d.leases.pop S }
        (.releaseReserved (d.records.get? S) after)
  | releaseLease {l : LeaseId} {r : Option SessionRecord} {after : After} :
      WorkerMove d w S (.releaseLease l r after)
        { d with granted := releaseGranted d.granted l } (.releaseReserved r after)
  | releaseSettle {r : Option SessionRecord} {state : SessionState}
      {result : Option OperationResult} :
      WorkerMove d w S (.releaseReserved r (.settle state result))
        { d with reserved := d.reserved \ recordResources r }
        (.settleTransition state result)
  | releaseFinish {r : Option SessionRecord} :
      WorkerMove d w S (.releaseReserved r .finish)
        { d with reserved := d.reserved \ recordResources r } .workerDone
  | settleFailed {state : SessionState} {result : Option OperationResult} :
      d.transitionLocked S state = none →
      WorkerMove d w S (.settleTransition state result) d (.releasePop .finish)
  | settle {state : SessionState} {result : Option OperationResult} {r : SessionRecord} :
      d.records.get? S = some r → r.state.requireTransition state = true →
      WorkerMove d w S (.settleTransition state result) (d.moved S r state)
        (.settleEmit state result (d.history S).length)
  | settleEmit {state : SessionState} {result : Option OperationResult} {position : Nat} :
      WorkerMove d w S (.settleEmit state result position) (d.emit S (.stateChanged state))
        (afterSettle result)
  | finalize {result : OperationResult} {audit : RecordingStatus} :
      WorkerMove d w S (.finalize result) d (.publish (result.withAudit audit))
  | publishFailed {result : OperationResult} :
      WorkerMove d w S (.publish result) d (.releasePop .finish)
  | publish {result : OperationResult} {r updated : SessionRecord} :
      d.records.get? S = some r → r.withResult result = some updated →
      WorkerMove d w S (.publish result) (d.setRecord S updated) (.emitTerminal result)
  | emitTerminal {result : OperationResult} :
      WorkerMove d w S (.emitTerminal result) (d.emit S (.terminal result)) .dropItems
  | dropItems :
      WorkerMove d w S .dropItems { d with itemEvents := d.itemEvents.filter (· ≠ S) }
        (.releasePop .finish)
  | done :
      (∀ r, d.records.get? S = some r → r.state = .paused → (d.controls S).cancel = false) →
      WorkerMove d w S .workerDone { d with workers := d.workers.pop S } .ended
  | doneCanceling {r : SessionRecord} :
      d.records.get? S = some r → r.state = .paused → (d.controls S).cancel = true →
      WorkerMove d w S .workerDone
        { { d with workers := d.workers.pop S }.moved S r .canceling with
          pending := d.pending ++ [S] }
        (.announceCanceling (d.history S).length)
  | announceCanceling {position : Nat} :
      WorkerMove d w S (.announceCanceling position) (d.emit S (.stateChanged .canceling)) .ended

section
variable {d d' : Dispatcher} {w : WorkerId} {S : SessionId} {pc' : WorkerPc}

theorem start_move (h : (d, d.workerStart S) = (d', pc')) : WorkerMove d w S .start d' pc' := by
  simp only [Prod.mk.injEq] at h
  obtain ⟨rfl, rfl⟩ := h
  unfold workerStart
  split
  · next hr => exact .startGone hr
  · next r hr =>
      split
      · next hc => exact .startCanceling hr hc
      · next hc => exact .startAcquire hr hc

theorem acquire_move {r : SessionRecord} {result : AcquireResult}
    (h : d.workerAcquire w S r result = some (d', pc')) :
    WorkerMove d w S (.acquire r) d' pc' := by
  cases result with
  | granted =>
      simp only [workerAcquire] at h
      split at h
      · next hg =>
          simp only [Option.some.injEq, Prod.mk.injEq] at h
          obtain ⟨rfl, rfl⟩ := h
          exact .granted hg
      · exact absurd h (by simp)
  | canceled =>
      simp only [workerAcquire] at h
      split at h
      · next hc =>
          simp only [Option.some.injEq, Prod.mk.injEq] at h
          obtain ⟨rfl, rfl⟩ := h
          exact .acquireCanceled hc
      · exact absurd h (by simp)
  | error detail =>
      simp only [workerAcquire, Option.some.injEq, Prod.mk.injEq] at h
      obtain ⟨rfl, rfl⟩ := h
      exact .acquireError

theorem store_move {l : LeaseId} (h : d.workerStore S l = (d', pc')) :
    WorkerMove d w S (.store l) d' pc' := by
  simp only [workerStore, Prod.mk.injEq] at h
  obtain ⟨rfl, rfl⟩ := h
  split
  · next hr => exact .storeGone hr
  · next r hr =>
      split
      · next hc => exact .storeCanceling hr hc
      · next hc => exact .storeOpen hr hc

theorem toRunning_move {l : LeaseId} (h : d.workerToRunning S l = (d', pc')) :
    WorkerMove d w S (.toRunning l) d' pc' := by
  unfold workerToRunning at h
  split at h
  · next hr =>
      simp only [Prod.mk.injEq] at h
      obtain ⟨rfl, rfl⟩ := h
      exact .runningGone hr
  · next r hr =>
      split at h
      · next hc =>
          simp only [Prod.mk.injEq] at h
          obtain ⟨rfl, rfl⟩ := h
          exact .runningCanceling hr hc
      · next hc =>
          split at h
          · next ht =>
              simp only [Prod.mk.injEq] at h
              obtain ⟨rfl, rfl⟩ := h
              exact .runningIllegal hr hc (transitionLocked_eq_none hr ht)
          · next d'' position ht =>
              obtain ⟨r', hr', hlegal, rfl, rfl⟩ := transitionLocked_eq_some ht
              obtain rfl : r = r' := Option.some.inj (hr.symm.trans hr')
              simp only [Prod.mk.injEq] at h
              obtain ⟨rfl, rfl⟩ := h
              exact .toRunning hr hlegal

theorem core_move {job : Job} (h : (d, d.workerCore S job) = (d', pc')) :
    WorkerMove d w S (.core job) d' pc' := by
  simp only [Prod.mk.injEq] at h
  obtain ⟨rfl, rfl⟩ := h
  unfold workerCore
  split
  · next hc =>
      obtain ⟨r, hr⟩ := Option.isSome_iff_exists.mp hc.1
      exact .core hr hc.2
  · next hc =>
      refine .coreGone ?_
      by_cases hi : S ∈ d.itemEvents
      · exact Or.inl (by simpa [hi] using hc)
      · exact Or.inr hi

theorem work_move {job : Job} (h : (d, d.workerWork S job) = (d', pc')) :
    WorkerMove d w S (.work job) d' pc' := by
  simp only [Prod.mk.injEq] at h
  obtain ⟨rfl, rfl⟩ := h
  unfold workerWork
  split
  · next hc => exact .workCanceled (Control.checkpoint_eq_canceled.mp hc)
  · next hc =>
      have hp := Control.checkpoint_eq_pauseRequested.mp hc
      exact .workPaused hp.1 hp.2
  · next hc =>
      split
      · next detail hf => exact .workFailed hc hf
      · next hf =>
          split
          · next hi => exact .workNone hc hf hi
          · next l hi => exact .enterRun hc hf hi

theorem runEnd_move {l : LeaseId} {job : Job} {latest : Option Progress} {ending : RunEnd}
    (h : d.workerRunEnd S job latest ending = some pc') :
    WorkerMove d w S (.running l job latest) d pc' := by
  cases ending with
  | returned result =>
      simp only [workerRunEnd, Option.some.injEq] at h
      subst h; exact .runReturned
  | error detail =>
      simp only [workerRunEnd, Option.some.injEq] at h
      subst h; exact .runFailed
  | raised signal =>
      cases signal with
      | canceled =>
          simp only [workerRunEnd] at h
          split at h
          · next hc =>
              simp only [Option.some.injEq] at h
              subst h; exact .runCanceled hc
          · exact absurd h (by simp)
      | pauseRequested =>
          simp only [workerRunEnd] at h
          split at h
          · next hp =>
              split at h <;> simp only [Option.some.injEq] at h <;> subst h
              · exact .runPaused hp
              · exact .runFailed
          · exact absurd h (by simp)

theorem snapshot_move {job : Job} {latest : Option Progress}
    {payload : Except FailureDetail (List UInt8)}
    (h : d.workerSnapshot S job latest payload = (d', pc')) :
    WorkerMove d w S (.snapshot job latest) d' pc' := by
  cases payload with
  | error detail =>
      simp only [workerSnapshot, Prod.mk.injEq] at h
      obtain ⟨rfl, rfl⟩ := h
      exact .snapshotFailed
  | ok payload =>
      simp only [workerSnapshot] at h
      split at h <;> simp only [Prod.mk.injEq] at h <;> obtain ⟨rfl, rfl⟩ := h
      · exact .snapshotFailed
      · next r hr => exact .snapshot hr

theorem releasePop_move {after : After} (h : d.workerReleasePop S after = (d', pc')) :
    WorkerMove d w S (.releasePop after) d' pc' := by
  simp only [workerReleasePop, Prod.mk.injEq] at h
  obtain ⟨rfl, rfl⟩ := h
  split
  · next hl => exact .popNone hl
  · next l hl => exact .popLease hl

theorem releaseReserved_move {r : Option SessionRecord} {after : After}
    (h : d.workerReleaseReserved r after = (d', pc')) :
    WorkerMove d w S (.releaseReserved r after) d' pc' := by
  simp only [workerReleaseReserved, Prod.mk.injEq] at h
  obtain ⟨rfl, rfl⟩ := h
  cases after with
  | settle state result => exact .releaseSettle
  | finish => exact .releaseFinish

theorem settle_move {state : SessionState} {result : Option OperationResult}
    (h : d.workerSettle S state result = (d', pc')) :
    WorkerMove d w S (.settleTransition state result) d' pc' := by
  unfold workerSettle at h
  split at h
  · next ht =>
      simp only [Prod.mk.injEq] at h
      obtain ⟨rfl, rfl⟩ := h
      exact .settleFailed ht
  · next d'' position ht =>
      obtain ⟨r, hr, hlegal, rfl, rfl⟩ := transitionLocked_eq_some ht
      simp only [Prod.mk.injEq] at h
      obtain ⟨rfl, rfl⟩ := h
      exact .settle hr hlegal

theorem publish_move {result : OperationResult} (h : d.workerPublish S result = (d', pc')) :
    WorkerMove d w S (.publish result) d' pc' := by
  unfold workerPublish at h
  split at h
  · simp only [Prod.mk.injEq] at h
    obtain ⟨rfl, rfl⟩ := h
    exact .publishFailed
  · next r hr =>
      split at h <;> simp only [Prod.mk.injEq] at h <;> obtain ⟨rfl, rfl⟩ := h
      · exact .publishFailed
      · next updated hu => exact .publish hr hu

theorem done_move (h : d.workerDone S = (d', pc')) : WorkerMove d w S .workerDone d' pc' := by
  simp only [workerDone] at h
  split at h
  · next hr =>
      simp only [Prod.mk.injEq] at h
      obtain ⟨rfl, rfl⟩ := h
      exact .done (fun r hr' _ => by simp [hr] at hr')
  · next r hr =>
      split at h
      · next hc =>
          split at h
          · next ht =>
              have hill := transitionLocked_eq_none (by exact hr) ht
              rw [hc.1] at hill
              exact absurd hill (by decide)
          · next d'' position ht =>
              obtain ⟨r', hr', -, rfl, rfl⟩ := transitionLocked_eq_some ht
              obtain rfl : r = r' := Option.some.inj (hr.symm.trans hr')
              simp only [Prod.mk.injEq] at h
              obtain ⟨rfl, rfl⟩ := h
              exact .doneCanceling hr hc.1 hc.2
      · next hc =>
          simp only [Prod.mk.injEq] at h
          obtain ⟨rfl, rfl⟩ := h
          refine .done (fun r' hr' hp => ?_)
          obtain rfl : r = r' := Option.some.inj (hr.symm.trans hr')
          simpa [hp] using hc

theorem worker_move {pc : WorkerPc} {choice : WorkerChoice}
    (h : d.workerStep w S pc choice = some (d', pc')) : WorkerMove d w S pc d' pc' := by
  cases pc <;> cases choice <;> simp only [workerStep, reduceCtorEq, Option.some.injEq] at h
  case start.go => exact start_move h
  case acquire.acquired => exact acquire_move h
  case store.go => exact store_move h
  case opening.opened l error =>
      simp only [Prod.mk.injEq] at h
      obtain ⟨rfl, rfl⟩ := h
      cases error
      · exact .opened
      · exact .openError
  case toRunning.go => exact toRunning_move h
  case announceRunning.go =>
      simp only [Prod.mk.injEq] at h
      obtain ⟨rfl, rfl⟩ := h
      exact .announceRunning
  case core.go => exact core_move h
  case work.go => exact work_move h
  case running.runEmit =>
      split at h
      · next hb =>
          simp only [Option.some.injEq, Prod.mk.injEq] at h
          obtain ⟨rfl, rfl⟩ := h
          exact .runEmit hb
      · exact absurd h (by simp)
  case running.runEnd =>
      obtain ⟨pc'', hpc, heq⟩ := Option.map_eq_some_iff.mp h
      simp only [Prod.mk.injEq] at heq
      obtain ⟨rfl, rfl⟩ := heq
      exact runEnd_move hpc
  case snapshot.snapshot => exact snapshot_move h
  case releasePop.go => exact releasePop_move h
  case releaseLease.go =>
      simp only [Prod.mk.injEq] at h
      obtain ⟨rfl, rfl⟩ := h
      exact .releaseLease
  case releaseReserved.go => exact releaseReserved_move h
  case settleTransition.go => exact settle_move h
  case settleEmit.go =>
      simp only [Prod.mk.injEq] at h
      obtain ⟨rfl, rfl⟩ := h
      exact .settleEmit
  case finalize.audited =>
      simp only [Prod.mk.injEq] at h
      obtain ⟨rfl, rfl⟩ := h
      exact .finalize
  case publish.go => exact publish_move h
  case emitTerminal.go =>
      simp only [Prod.mk.injEq] at h
      obtain ⟨rfl, rfl⟩ := h
      exact .emitTerminal
  case dropItems.go =>
      simp only [Prod.mk.injEq] at h
      obtain ⟨rfl, rfl⟩ := h
      exact .dropItems
  case workerDone.go => exact done_move h
  case announceCanceling.go =>
      simp only [Prod.mk.injEq] at h
      obtain ⟨rfl, rfl⟩ := h
      exact .announceCanceling

end

/-! ## The scheduler

A pass visits the queue once and in order.  That what it selects and what it
launches are sublists of the queue is what the order of admission and the
absence of duplicates rest on. -/

/-- A pass that launches workers, or the scheduler's return. -/
theorem schedule_cases {d d' : Dispatcher} {next : WorkerId}
    {launches : List (SessionId × Bool)} (h : d.schedule next = some (d', launches)) :
    (launches = d.launchable ∧
      d' = { d with
        reserved := d.pass.reserved
        pending := d.pending.filter (fun s => s ∉ d.pass.selected.map (·.1))
        workers := register d.workers next d.launchable
        unsettled := d.unsettled ++ d.admitted
        admissions := d.admissions ++ d.admitted }) ∨
    (launches = [] ∧ d.pending = [] ∧ d' = { d with schedulerReturned := true }) := by
  unfold schedule at h
  split at h
  · exact absurd h (by simp)
  · split at h
    · simp only [Option.some.injEq, Prod.mk.injEq] at h
      exact Or.inl ⟨h.2.symm, h.1.symm⟩
    · split at h
      · next hidle =>
          simp only [Option.some.injEq, Prod.mk.injEq] at h
          exact Or.inr ⟨h.2.symm, hidle.2.1, h.1.symm⟩
      · exact absurd h (by simp)

/-- The sessions a pass selects are queued, in the order of the queue. -/
theorem visit_selected_sublist (records : Dict SessionId SessionRecord) (queue : List SessionId)
    (start : Pass) {before : List SessionId}
    (h : (start.selected.map (·.1)).Sublist before) :
    ((queue.foldl (Pass.visit records) start).selected.map (·.1)).Sublist (before ++ queue) := by
  induction queue generalizing start before with
  | nil => simpa using h
  | cons S queue ih =>
      have hvisit : ((Pass.visit records start S).selected.map (·.1)).Sublist (before ++ [S]) := by
        unfold Pass.visit
        split
        · simpa using h.append (List.Sublist.refl [S])
        · split
          · simpa using h.append (List.Sublist.refl [S])
          · split
            · exact h.trans (List.sublist_append_left _ _)
            · simpa using h.append (List.Sublist.refl [S])
      simpa using ih (Pass.visit records start S) hvisit

theorem selected_sublist (d : Dispatcher) :
    (d.pass.selected.map (·.1)).Sublist d.pending := by
  simpa [pass] using visit_selected_sublist d.records d.pending { reserved := d.reserved }
    (List.Sublist.refl _)

theorem launchable_sublist (d : Dispatcher) :
    (d.launchable.map (·.1)).Sublist (d.pass.selected.map (·.1)) :=
  (List.filter_sublist).map _

end Dispatcher

/-! ## One step of the system

The outermost case split: a call of a client, a step of a client that is in
the middle of one, a step of a worker, or a pass of the scheduler.  An
invariant of the system is one lemma for each of the four. -/

open Dispatcher in
/-- Everything a step can do. -/
theorem System.step_cases {s t : System} {a : Action} (h : s.step a = some t) :
    (∃ c d client, a = .call c ∧ CallMove s.disp c d client ∧
      t = { s with disp := d, clients := s.clients ++ [client] }) ∨
    (∃ i choice client d client', a = .client i choice ∧ s.clients[i]? = some client ∧
      ClientMove s.disp client d client' ∧
      t = { s with disp := d, clients := s.clients.set i client' }) ∨
    (∃ w choice thread d pc, a = .worker w choice ∧ s.threads[w]? = some thread ∧
      WorkerMove s.disp w thread.session thread.pc d pc ∧
      t = { s with disp := d, threads := s.threads.set w { thread with pc := pc } }) ∨
    (∃ d launches, a = .schedule ∧
      s.disp.schedule s.threads.length = some (d, launches) ∧
      t = { s with
        disp := d
        threads := s.threads ++ launches.map (fun e => ⟨e.1, e.2, .start⟩) }) ∨
    (a = .stopAccepting ∧ t = { s with disp := { s.disp with accepting := false } }) ∨
    (a = .tick ∧ t = { s with disp := { s.disp with now := s.disp.now + 1 } }) := by
  cases a with
  | call c =>
      simp only [step, stepCall] at h
      split at h
      · exact absurd h (by simp)
      · next d client hc =>
          exact Or.inl ⟨c, d, client, rfl, call_move hc, (Option.some.inj h).symm⟩
  | client i choice =>
      simp only [step, stepClient] at h
      split at h
      · exact absurd h (by simp)
      · next client hi =>
          split at h
          · exact absurd h (by simp)
          · next d client' hc =>
              exact Or.inr (Or.inl
                ⟨i, choice, client, d, client', rfl, hi, client_move hc, (Option.some.inj h).symm⟩)
  | worker w choice =>
      simp only [step, stepWorker] at h
      split at h
      · exact absurd h (by simp)
      · next thread hw =>
          split at h
          · exact absurd h (by simp)
          · next d pc hm =>
              exact Or.inr (Or.inr (Or.inl
                ⟨w, choice, thread, d, pc, rfl, hw, worker_move hm, (Option.some.inj h).symm⟩))
  | schedule =>
      simp only [step, stepSchedule] at h
      split at h
      · exact absurd h (by simp)
      · next d launches hs =>
          exact Or.inr (Or.inr (Or.inr (Or.inl ⟨d, launches, rfl, hs, (Option.some.inj h).symm⟩)))
  | stopAccepting =>
      simp only [step, Option.some.injEq] at h
      exact Or.inr (Or.inr (Or.inr (Or.inr (Or.inl ⟨rfl, h.symm⟩))))
  | tick =>
      simp only [step, Option.some.injEq] at h
      exact Or.inr (Or.inr (Or.inr (Or.inr (Or.inr ⟨rfl, h.symm⟩))))

end NamiSync
