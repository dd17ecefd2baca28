/-
# `Dispatcher.Stages` — which program counters fit which state

A worker is *active* until it has taken the transition that settles its
session.  `PcFits` relates the state of a session's record, its control
flags and the program counter of an active worker.  Each accepted control
call preserves it (`PcFits.paused`, `PcFits.canceled`, `PcFits.flagged`), and
so does each block of the worker itself (`WorkerMove.active_step`).

A session that is canceled after the scheduler took it from the queue gets a
second worker.  The later of the two finds the session terminal, or closed:
it is *stale*, and it can only fail on its way out (`WorkerMove.stale_step`).

## The shape of the argument

`PcFits d S pc` is a table: for each program counter of an active worker, the
states and the flags its session can have.  Three families of lemmas use it.

* From the table: what a counter says about the state (`PcFits.attended`,
  `PcFits.started`, `JobFits.invoked`).
* A control call changes the state under the worker.  The counter stays in a
  row of the table (`PcFits.paused`, `PcFits.canceled`, `PcFits.flagged`).
* The worker's own block moves it to another row, or out of the table by the
  settling transition (`active_step`).  Most blocks change neither the record
  nor the queue (`active_same`); the two that do have a lemma each
  (`active_running`, `active_settles`).

## What it is not

The table says nothing about how many workers stand in it, nor whose lease
they hold.  The first is `Dispatcher.Lifecycle` and `Dispatcher.Headcount`,
the second `Dispatcher.Custody` and `Dispatcher.Returned`.
-/
import NamiSync.Dispatcher.Moves

namespace NamiSync

open SessionState Dispatcher

/-- The state of a session's record, if it has one. -/
def Dispatcher.status (d : Dispatcher) (session : SessionId) : Option SessionState :=
  (d.records.get? session).map (·.state)

namespace Dispatcher

theorem status_eq_some {d : Dispatcher} {S : SessionId} {state : SessionState} :
    d.status S = some state ↔ ∃ r, d.records.get? S = some r ∧ r.state = state := by
  simp [status]

theorem status_of_record {d : Dispatcher} {S : SessionId} {r : SessionRecord}
    (h : d.records.get? S = some r) : d.status S = some r.state := by
  simp [status, h]

@[simp] theorem status_moved_self (d : Dispatcher) (S : SessionId) (r : SessionRecord)
    (state : SessionState) : (d.moved S r state).status S = some state := by
  simp [status]

theorem status_moved_ne (d : Dispatcher) {S T : SessionId} (r : SessionRecord)
    (state : SessionState) (h : T ≠ S) : (d.moved S r state).status T = d.status T := by
  simp [status, Dict.get?_set_ne _ _ h]

end Dispatcher

/-! ## Program counters and states

Which states of a session go with which place in a worker's program. -/

/-- `_release_custody` was called by `_settle`, not by the `finally`. -/
def After.settling : After → Bool
  | .settle _ _ => true
  | .finish => false

/-- The worker has not yet taken the transition that settles its session. -/
def WorkerPc.active : WorkerPc → Bool
  | .releasePop after | .releaseLease _ _ after | .releaseReserved _ after => after.settling
  | .settleEmit _ _ _ | .finalize _ | .publish _ | .emitTerminal _ | .dropItems
  | .workerDone | .announceCanceling _ | .ended => false
  | _ => true

/-- The worker has settled its session in a terminal state and not yet
dropped the item events. -/
def WorkerPc.closing : WorkerPc → Bool
  | .settleEmit _ result _ => result.isSome
  | .finalize _ | .publish _ | .emitTerminal _ | .dropItems => true
  | _ => false

/-- The worker has made the session `RUNNING` and not yet asked to settle it,
or asked for the pause. -/
def WorkerPc.invoked : WorkerPc → Bool
  | .announceRunning _ _ | .running _ _ _ | .snapshot _ _ => true
  | .core job | .work job => job.invocation.isSome
  | _ => false

/-- The worker is inside `invocation.run`. -/
def WorkerPc.inRun : WorkerPc → Bool
  | .running _ _ _ => true
  | _ => false

/-- `_settle(target, result)` finds a legal edge, and carries a result
exactly when the target is terminal. -/
def Settleable (state target : SessionState) (result : Option OperationResult) : Prop :=
  state.requireTransition target = true ∧
    (target = .paused ∧ result = none ∨ target.isTerminal = true ∧ result.isSome = true)

def AfterFits (state : SessionState) : After → Prop
  | .settle target result => Settleable state target result
  | .finish => False

/-- A job with an invocation runs in a session that has been `RUNNING`; one
without is for a session being canceled, or one that never got started. -/
def JobFits (state : SessionState) (job : Job) : Prop :=
  match job.invocation with
  | some _ => job.failure = none ∧ (state = .running ∨ state = .pausing ∨ state = .canceling)
  | none => state = .canceling ∨ state = .pending ∧ job.failure.isSome = true

/-- What the record's state and the flags can be while an active worker of
the session stands at a program counter. -/
def PcFits (state : SessionState) (control : Control) : WorkerPc → Prop
  | .start | .acquire _ | .store _ | .opening _ | .toRunning _ =>
      state = .pending ∨ state = .canceling
  | .announceRunning _ _ => state = .running ∨ state = .pausing ∨ state = .canceling
  | .core job | .work job => JobFits state job
  | .running _ _ _ =>
      state = .running ∨ state = .pausing ∨ state = .canceling ∧ control.pause = false
  | .snapshot _ _ => state = .pausing
  | .releasePop after | .releaseLease _ _ after | .releaseReserved _ after =>
      AfterFits state after
  | .settleTransition target result => Settleable state target result
  | _ => False

/-- What the flags can be in each state.  A dispatcher that was not
restarted has no interrupted sessions. -/
def FlagsFit (state : SessionState) (control : Control) : Prop :=
  match state with
  | .pending | .running => control = {}
  | .canceling => control.cancel = true
  | .interrupted => False
  | _ => True

/-- The states of a session somebody still has to attend to. -/
def attended : SessionState → Bool
  | .pending | .running | .pausing | .canceling => true
  | _ => false

theorem settles_of_settleable {state target : SessionState} {result : Option OperationResult}
    (h : Settleable state target result) : settles target = true := by
  rcases h.2 with ⟨rfl, -⟩ | ⟨ht, -⟩
  · rfl
  · simp [settles, ht]

theorem Settleable.attended {state target : SessionState} {result : Option OperationResult}
    (h : Settleable state target result) : attended state = true := by
  obtain ⟨hlegal, hend⟩ := h
  have ht : target = .paused ∨ target.isTerminal = true := hend.imp And.left And.left
  clear hend
  revert hlegal ht
  cases state <;> cases target <;> decide

theorem JobFits.attended {state : SessionState} {job : Job} (h : JobFits state job) :
    attended state = true := by
  unfold JobFits at h
  split at h
  · rcases h.2 with rfl | rfl | rfl <;> rfl
  · rcases h with rfl | ⟨rfl, -⟩ <;> rfl

theorem AfterFits.attended {state : SessionState} {after : After} (h : AfterFits state after) :
    attended state = true := by
  cases after with
  | settle target result => exact Settleable.attended h
  | finish => exact h.elim

/-- An active worker's session is in one of the four attended states. -/
theorem PcFits.attended {state : SessionState} {control : Control} {pc : WorkerPc}
    (h : PcFits state control pc) : attended state = true := by
  cases pc <;> simp only [PcFits] at h
  case core | work => exact h.attended
  case settleTransition => exact h.attended
  case releasePop | releaseLease | releaseReserved => exact h.attended
  case running => rcases h with rfl | rfl | ⟨rfl, -⟩ <;> rfl
  case announceRunning => rcases h with rfl | rfl | rfl <;> rfl
  case snapshot => subst h; rfl
  all_goals rcases h with rfl | rfl <;> rfl

theorem PcFits.active {state : SessionState} {control : Control} {pc : WorkerPc}
    (h : PcFits state control pc) : pc.active = true := by
  cases pc <;> simp only [PcFits] at h <;> try rfl
  all_goals
    rename_i after
    cases after with
    | settle target result => rfl
    | finish => exact h.elim

theorem FlagsFit.clear {state : SessionState} {control : Control} (h : FlagsFit state control)
    (hst : state = .pending ∨ state = .running) : control = {} := by
  rcases hst with rfl | rfl <;> exact h

theorem flagsFit_of_settles {state : SessionState} {control : Control}
    (h : settles state = true) : FlagsFit state control := by
  cases state <;> trivial

/-- Once a session has been `RUNNING`, any terminal state can settle it. -/
theorem settleable_of_started {state target : SessionState} {result : OperationResult}
    (hst : state = .running ∨ state = .pausing ∨ state = .canceling)
    (ht : target.isTerminal = true) : Settleable state target (some result) := by
  refine ⟨?_, Or.inr ⟨ht, rfl⟩⟩
  revert ht
  rcases hst with rfl | rfl | rfl <;> cases target <;> decide

theorem settleable_paused : Settleable .pausing .paused none :=
  ⟨by decide, Or.inl ⟨rfl, rfl⟩⟩

/-- A job is for a session that has been `RUNNING`, or is canceled, unless it
is still pending. -/
theorem JobFits.started {state : SessionState} {job : Job} (h : JobFits state job)
    (hst : state ≠ .pending) : state = .running ∨ state = .pausing ∨ state = .canceling := by
  unfold JobFits at h
  split at h
  · exact h.2
  · rcases h with hc | ⟨hp, -⟩
    · exact Or.inr (Or.inr hc)
    · exact absurd hp hst

theorem JobFits.invoked {state : SessionState} {job : Job} {lease : LeaseId}
    (h : JobFits state job) (hi : job.invocation = some lease) :
    job.failure = none ∧ (state = .running ∨ state = .pausing ∨ state = .canceling) := by
  simpa [JobFits, hi] using h

theorem JobFits.uninvoked {state : SessionState} {job : Job} (h : JobFits state job)
    (hi : job.invocation = none) :
    state = .canceling ∨ state = .pending ∧ job.failure.isSome = true := by
  simpa [JobFits, hi] using h

theorem JobFits.failed {state : SessionState} {job : Job} {detail : FailureDetail}
    (h : JobFits state job) (hf : job.failure = some detail) :
    state = .canceling ∨ state = .pending := by
  cases hi : job.invocation with
  | some lease => exact absurd hf (by simp [(h.invoked hi).1])
  | none => exact (h.uninvoked hi).imp_right And.left

theorem PcFits.started {state : SessionState} {control : Control} {lease : LeaseId} {job : Job}
    {latest : Option Progress} (h : PcFits state control (.running lease job latest)) :
    state = .running ∨ state = .pausing ∨ state = .canceling :=
  h.imp_right (Or.imp_right And.left)

/-- Only a pause drain shows a worker the pause flag without the cancel
flag. -/
theorem FlagsFit.pausing {state : SessionState} {control : Control} (h : FlagsFit state control)
    (hst : state = .running ∨ state = .pausing ∨ state = .canceling)
    (hc : control.cancel = false) (hp : control.pause = true) : state = .pausing := by
  rcases hst with hst | hst | hst
  · rw [h.clear (Or.inr hst)] at hp
    exact absurd hp (by decide)
  · exact hst
  · rw [hst] at h
    exact absurd (show control.cancel = true from h) (by simp [hc])

/-! ### What comes of a job

What `_run_core` was called with, and where the worker goes from there. -/

section Job

variable {state : SessionState} {control : Control} {job : Job} {lease : LeaseId}
  {latest : Option Progress}

/-- A raised cancel flag is not that of a session still pending. -/
theorem JobFits.canceled (h : JobFits state job) (hflags : FlagsFit state control)
    (hc : control.cancel = true) (result : OperationResult) :
    Settleable state .canceled (some result) := by
  refine settleable_of_started (h.started fun hst => ?_) rfl
  rw [hflags.clear (Or.inl hst)] at hc
  exact absurd hc (by decide)

theorem JobFits.pausing (h : JobFits state job) (hflags : FlagsFit state control)
    (hc : control.cancel = false) (hp : control.pause = true) : state = .pausing := by
  refine hflags.pausing (h.started fun hst => ?_) hc hp
  rw [hflags.clear (Or.inl hst)] at hp
  exact absurd hp (by decide)

/-- Past the checkpoint, a failure is one of a session that never got
started. -/
theorem JobFits.pending {detail : FailureDetail} (h : JobFits state job)
    (hflags : FlagsFit state control) (hcheck : control.checkpoint = none)
    (hf : job.failure = some detail) : state = .pending := by
  have hcan := (Control.checkpoint_eq_none.mp hcheck).1
  rcases h.failed hf with hst | hst
  · rw [hst] at hflags
    exact absurd hcan (by simp [show control.cancel = true from hflags])
  · exact hst

/-- Past the checkpoint, a job without a failure has its invocation. -/
theorem JobFits.not_idle (h : JobFits state job) (hflags : FlagsFit state control)
    (hcheck : control.checkpoint = none) (hf : job.failure = none) : job.invocation ≠ none := by
  intro hi
  have hcan := (Control.checkpoint_eq_none.mp hcheck).1
  rcases h.uninvoked hi with hst | ⟨-, hsome⟩
  · rw [hst] at hflags
    exact absurd hcan (by simp [show control.cancel = true from hflags])
  · exact absurd hsome (by simp [hf])

theorem JobFits.enters (h : JobFits state job) (hcheck : control.checkpoint = none)
    (hi : job.invocation = some lease) : PcFits state control (.running lease job none) :=
  (h.invoked hi).2.imp_right
    (Or.imp_right fun hst => ⟨hst, (Control.checkpoint_eq_none.mp hcheck).2⟩)

/-- A run is asked to pause only during the drain. -/
theorem PcFits.pausing (h : PcFits state control (.running lease job latest))
    (hflags : FlagsFit state control) (hp : control.pause = true) : state = .pausing := by
  rcases h with hst | hst | ⟨-, hno⟩
  · rw [hflags.clear (Or.inr hst)] at hp
    exact absurd hp (by decide)
  · exact hst
  · exact absurd hp (by simp [hno])

end Job

theorem WorkerPc.inRun_eq {pc : WorkerPc} (h : pc.inRun = true) :
    ∃ lease job latest, pc = .running lease job latest := by
  cases pc <;> first | exact ⟨_, _, _, rfl⟩ | exact absurd h Bool.false_ne_true

theorem WorkerPc.inRun_invoked {pc : WorkerPc} (h : pc.inRun = true) : pc.invoked = true := by
  cases pc <;> first | rfl | exact absurd h Bool.false_ne_true

/-! ## Control calls keep the fit

A control call changes the state and the flags under a worker that has not seen
it yet. -/

/-- From a state with no pause request, every edge out of `PENDING`,
`RUNNING` or `CANCELING` that a worker may still ask for stays legal when
the session is `CANCELING`. -/
theorem Settleable.canceled {state target : SessionState} {result : Option OperationResult}
    (h : Settleable state target result) (hp : state ≠ .pausing) :
    Settleable .canceling target result := by
  obtain ⟨hlegal, hend⟩ := h
  have ht : target.isTerminal = true ∧ result.isSome = true := by
    rcases hend with ⟨rfl, -⟩ | ht
    · cases state <;> first | exact absurd hlegal (by decide) | exact absurd rfl hp
    · exact ht
  refine ⟨?_, Or.inr ht⟩
  have := ht.1
  revert this
  cases target <;> decide

theorem Settleable.paused {target : SessionState} {result : Option OperationResult}
    (h : Settleable .running target result) : Settleable .pausing target result := by
  refine ⟨?_, h.2⟩
  have hend := h.2.imp And.left And.left
  revert hend
  cases target <;> decide

/-- An accepted pause. -/
theorem PcFits.paused {control control' : Control} {pc : WorkerPc}
    (h : PcFits .running control pc) : PcFits .pausing control' pc := by
  cases pc <;> simp only [PcFits] at h ⊢ <;> try simp at h ⊢
  case core job | work job =>
      unfold JobFits at h ⊢
      split at h <;> simp_all
  case settleTransition => exact h.paused
  all_goals
    rename_i after
    cases after with
    | settle target result => exact Settleable.paused h
    | finish => exact h.elim

/-- An accepted cancel that makes the session `CANCELING`. -/
theorem PcFits.canceled {state : SessionState} {control : Control} {pc : WorkerPc}
    (h : PcFits state control pc) (hp : state ≠ .pausing) (hf : FlagsFit state control)
    (hc : state ≠ .canceling) : PcFits .canceling control.requestCancel pc := by
  cases pc <;> simp only [PcFits] at h ⊢ <;> try simp at h ⊢
  case core job | work job =>
      unfold JobFits at h ⊢
      split at h <;> simp_all
  case running =>
      rcases h with rfl | rfl | ⟨rfl, -⟩
      · have hflags : control = {} := hf
        rw [hflags]
        rfl
      · exact absurd rfl hp
      · exact absurd rfl hc
  case snapshot => exact absurd h hp
  case settleTransition => exact h.canceled hp
  all_goals
    rename_i after
    cases after with
    | settle target result => exact Settleable.canceled h hp
    | finish => exact h.elim

/-- A cancel accepted during the pause drain only raises a flag. -/
theorem PcFits.flagged {control control' : Control} {pc : WorkerPc}
    (h : PcFits .pausing control pc) : PcFits .pausing control' pc := by
  cases pc <;> simp only [PcFits] at h ⊢ <;> simp_all

/-! ## Stale workers

A worker whose session is over runs on, and every check that it makes finds
that it has nothing to do. -/

def AfterStale : After → Prop
  | .settle target result => target.isTerminal = true ∧ result.isSome = true
  | .finish => False

/-- Where a second worker of a canceled session can still be once the first
has settled it. -/
def Stale (control : Control) (pc : WorkerPc) : Prop :=
  control.cancel = true ∧
    match pc with
    | .start | .acquire _ | .store _ | .opening _ | .toRunning _ => True
    | .core job | .work job => job.invocation = none
    | .releasePop after | .releaseLease _ _ after | .releaseReserved _ after => AfterStale after
    | .settleTransition target result => target.isTerminal = true ∧ result.isSome = true
    | _ => False

theorem Stale.invoked {control : Control} {pc : WorkerPc} (h : Stale control pc) :
    pc.invoked = false := by
  obtain ⟨-, h⟩ := h
  cases pc
  case core job | work job => simp [WorkerPc.invoked, show job.invocation = none from h]
  case announceRunning | running | snapshot => exact h.elim
  all_goals rfl

theorem Settleable.terminal {target : SessionState} {result : Option OperationResult}
    (h : Settleable .canceling target result) :
    target.isTerminal = true ∧ result.isSome = true := by
  rcases h.2 with ⟨rfl, -⟩ | hend
  · exact absurd h.1 (by decide)
  · exact hend

/-- A canceled session's workers that never made it `RUNNING` are stale once
it is over. -/
theorem PcFits.stale {control : Control} {pc : WorkerPc} (h : PcFits .canceling control pc)
    (hi : pc.invoked = false) (hc : control.cancel = true) : Stale control pc := by
  refine ⟨hc, ?_⟩
  cases pc <;> simp only [PcFits] at h <;> try trivial
  case core job | work job => simpa [WorkerPc.invoked] using hi
  case settleTransition => exact Settleable.terminal h
  all_goals
    rename_i after
    cases after with
    | settle target result => exact Settleable.terminal h
    | finish => exact h.elim

theorem PcFits.pending_invoked {control : Control} {pc : WorkerPc}
    (h : PcFits .pending control pc) : pc.invoked = false := by
  cases pc
  case core job | work job =>
      have h : JobFits .pending job := h
      cases hi : job.invocation with
      | none => simp [WorkerPc.invoked, hi]
      | some lease => exact absurd (h.invoked hi).2 (by decide)
  case announceRunning => exact absurd (show _ ∨ _ ∨ _ from h) (by decide)
  case running => exact absurd (PcFits.started h) (by decide)
  case snapshot => exact absurd (show SessionState.pending = .pausing from h) (by decide)
  all_goals rfl

/-- Replacing a record by one that names the same resources. -/
theorem resources_set {records : Dict SessionId SessionRecord} {S T : SessionId}
    {r₀ : SessionRecord} (r₁ : SessionRecord) {r' : SessionRecord}
    (h₀ : records.get? S = some r₀) (hres : r₁.resources = r₀.resources)
    (hset : (records.set S r₁).get? T = some r') :
    ∃ r, records.get? T = some r ∧ r.resources = r'.resources := by
  rw [Dict.get?_set] at hset
  split at hset
  · next hT => exact ⟨r₀, hT ▸ h₀, (hres.symm.trans (congrArg _ (Option.some.inj hset)))⟩
  · exact ⟨r', hset, rfl⟩

/-! ## A worker's block, seen from its session

One block takes the fit to the fit of the next place.  The cases are grouped by
what becomes of the worker: it stays active, or it leaves. -/

namespace Dispatcher.WorkerMove

variable {d d' : Dispatcher} {w : WorkerId} {S T : SessionId} {pc pc' : WorkerPc}

theorem controls_eq (h : WorkerMove d w S pc d' pc') : d'.controls = d.controls := by
  cases h <;> rfl

theorem nextSession_eq (h : WorkerMove d w S pc d' pc') : d'.nextSession = d.nextSession := by
  cases h <;> rfl

/-- A worker touches no other session's record. -/
theorem records_ne (h : WorkerMove d w S pc d' pc') (hT : T ≠ S) :
    d'.records.get? T = d.records.get? T := by
  cases h <;> first | rfl | exact Dict.get?_set_ne _ _ hT

theorem itemEvents_ne (h : WorkerMove d w S pc d' pc') (hT : T ≠ S) :
    T ∈ d'.itemEvents ↔ T ∈ d.itemEvents := by
  cases h <;> first | exact Iff.rfl | simp [hT]

/-- No block changes the resources a record names. -/
theorem resources_step (h : WorkerMove d w S pc d' pc') {r' : SessionRecord}
    (hr : d'.records.get? T = some r') :
    ∃ r, d.records.get? T = some r ∧ r.resources = r'.resources := by
  cases h with
  | toRunning h₀ | settle h₀ | doneCanceling h₀ =>
      exact resources_set (SessionRecord.moveTo _ _ _) h₀ rfl hr
  | @snapshot job latest payload r h₀ => exact resources_set (r.withPayload payload) h₀ rfl hr
  | publish h₀ hu => exact resources_set _ h₀ (SessionRecord.withResult_eq_some hu).2.1 hr
  | _ => exact ⟨r', hr, rfl⟩

/-- A block moves the record along a legal edge, or leaves its state. -/
theorem transition_step (h : WorkerMove d w S pc d' pc') :
    (d'.status S = d.status S ∧ d'.history = d.history) ∨
      ∃ old state, d.status S = some old ∧ old.requireTransition state = true ∧
        d'.status S = some state ∧
          d'.history = fun T => if T = S then d.history T ++ [state] else d.history T := by
  cases h with
  | toRunning hr hlegal | settle hr hlegal =>
      exact Or.inr ⟨_, _, status_of_record hr, hlegal, status_moved_self _ _ _ _, rfl⟩
  | doneCanceling hr hst =>
      refine Or.inr ⟨_, .canceling, hst ▸ status_of_record hr, by decide, ?_, rfl⟩
      simp [status]
  | publish hr hu =>
      refine Or.inl ⟨?_, rfl⟩
      simp [status, hr, (SessionRecord.withResult_eq_some hu).1]
  | snapshot hr =>
      refine Or.inl ⟨?_, rfl⟩
      simp [status, hr]
  | _ => exact Or.inl ⟨rfl, rfl⟩

theorem admissions_eq (h : WorkerMove d w S pc d' pc') : d'.admissions = d.admissions := by
  cases h <;> rfl

theorem pending_step (h : WorkerMove d w S pc d' pc') :
    d'.pending = d.pending ∨ d'.pending = d.pending ++ [S] := by
  cases h with
  | doneCanceling => exact Or.inr rfl
  | _ => exact Or.inl rfl

/-- A worker becomes one that has made its session `RUNNING` only by doing
so, from `PENDING`. -/
theorem invoked_step (h : WorkerMove d w S pc d' pc') (hi : pc'.invoked = true) :
    pc.invoked = true ∨ d.status S = some .pending := by
  cases h with
  | @toRunning l r hr hlegal =>
      have hst : r.state = .pending := by
        revert hlegal
        cases r.state <;> decide
      exact Or.inr (by simp [status, hr, hst])
  | announceRunning | runEmit | runPaused => exact Or.inl rfl
  | core => exact Or.inl hi
  | enterRun hc hf hinv => exact Or.inl (by simp [WorkerPc.invoked, hinv])
  | @settleEmit state result => cases result <;> exact absurd hi Bool.false_ne_true
  | _ => exact absurd hi Bool.false_ne_true

/-- A worker enters its run past a checkpoint that found no cancel. -/
theorem inRun_step (h : WorkerMove d w S pc d' pc') (hr : pc'.inRun = true) :
    pc.inRun = true ∨ (d.controls S).cancel = false := by
  cases h with
  | runEmit => exact Or.inl rfl
  | enterRun hc => exact Or.inr (Control.checkpoint_eq_none.mp hc).1
  | @settleEmit state result => cases result <;> exact absurd hr Bool.false_ne_true
  | _ => exact absurd hr Bool.false_ne_true

/-- What a block of an active worker leaves of its session: the worker is
still active and the fit is kept, or the block was the settling transition. -/
structure ActiveStep (d d' : Dispatcher) (S : SessionId) (r : SessionRecord)
    (pc' : WorkerPc) : Prop where
  pending : d'.pending = d.pending
  itemEvents : d'.itemEvents = d.itemEvents
  record : ∃ r', d'.records.get? S = some r' ∧ FlagsFit r'.state (d.controls S) ∧
    (PcFits r'.state (d.controls S) pc' ∧
        (r'.state = r.state ∨ r.state = .pending ∧ r'.state = .running) ∨
      settles r'.state = true ∧ r.state.requireTransition r'.state = true ∧ ∃ result,
        pc' = .settleEmit r'.state result (d.history S).length ∧
          (result.isSome = true → r'.state.isTerminal = true))

/-- Most blocks change neither the queue nor the record. -/
theorem active_same {e : Dispatcher} {r : SessionRecord} (hr : d.records.get? S = some r)
    (hflags : FlagsFit r.state (d.controls S)) (hpending : e.pending = d.pending)
    (hitems : e.itemEvents = d.itemEvents) (hrecords : e.records = d.records)
    (hfit : PcFits r.state (d.controls S) pc) : ActiveStep d e S r pc :=
  ⟨hpending, hitems, r, hrecords ▸ hr, hflags, Or.inl ⟨hfit, Or.inl rfl⟩⟩

/-- The block that makes the session `RUNNING`. -/
theorem active_running {r : SessionRecord} {l : LeaseId} {position : Nat}
    (hfit : PcFits r.state (d.controls S) (.toRunning l))
    (hflags : FlagsFit r.state (d.controls S))
    (hlegal : r.state.requireTransition .running = true) :
    ActiveStep d (d.moved S r .running) S r (.announceRunning l position) := by
  have hst : r.state = .pending := by
    rcases hfit with hst | hst
    · exact hst
    · exact absurd hlegal (by rw [hst]; decide)
  rw [hst] at hflags
  exact ⟨rfl, rfl, r.moveTo .running d.now, by simp, hflags,
    Or.inl ⟨Or.inl rfl, Or.inr ⟨hst, rfl⟩⟩⟩

/-- The settling transition. -/
theorem active_settles {r : SessionRecord} {state : SessionState}
    {result : Option OperationResult} (hfit : Settleable r.state state result) :
    ActiveStep d (d.moved S r state) S r (.settleEmit state result (d.history S).length) := by
  have hsettles := settles_of_settleable hfit
  refine ⟨rfl, rfl, r.moveTo state d.now, by simp, flagsFit_of_settles hsettles,
    Or.inr ⟨hsettles, hfit.1, result, rfl, fun hsome => ?_⟩⟩
  rcases hfit.2 with ⟨-, hnone⟩ | ⟨ht, -⟩
  · exact absurd hsome (by simp [hnone])
  · exact ht

theorem active_step (h : WorkerMove d w S pc d' pc') {r : SessionRecord}
    (hr : d.records.get? S = some r) (hfit : PcFits r.state (d.controls S) pc)
    (hflags : FlagsFit r.state (d.controls S)) (hitems : S ∈ d.itemEvents) :
    ActiveStep d d' S r pc' := by
  have stay : ∀ {e : Dispatcher} {pc'' : WorkerPc}, e.pending = d.pending →
      e.itemEvents = d.itemEvents → e.records = d.records →
      PcFits r.state (d.controls S) pc'' → ActiveStep d e S r pc'' := active_same hr hflags
  have record_eq : ∀ {r' : SessionRecord}, d.records.get? S = some r' → r' = r :=
    fun h' => Option.some.inj (h'.symm.trans hr)
  cases h with
  -- up to the core
  | startGone hgone | storeGone hgone | runningGone hgone => exact absurd hr (by simp [hgone])
  | startCanceling hr' hc | storeCanceling hr' hc | runningCanceling hr' hc =>
      obtain rfl := record_eq hr'
      exact stay rfl rfl rfl (Or.inl hc)
  | startAcquire hr' hc | storeOpen hr' hc => exact stay rfl rfl rfl hfit
  | granted hg => exact stay rfl rfl rfl hfit
  | opened => exact stay rfl rfl rfl hfit
  | acquireCanceled hc =>
      rcases hfit with hst | hst
      · rw [hst] at hflags
        exact absurd hc (by simp [show d.controls S = {} from hflags])
      · exact stay rfl rfl rfl (Or.inl hst)
  | acquireError | openError =>
      rcases hfit with hst | hst
      · exact stay rfl rfl rfl (Or.inr ⟨hst, rfl⟩)
      · exact stay rfl rfl rfl (Or.inl hst)
  | runningIllegal hr' hc hill =>
      obtain rfl := record_eq hr'
      rcases hfit with hst | hst
      · exact absurd hill (by simp [hst]; decide)
      · exact absurd hst hc
  | toRunning hr' hlegal =>
      obtain rfl := record_eq hr'
      exact active_running hfit hflags hlegal
  | announceRunning => exact stay rfl rfl rfl ⟨rfl, hfit⟩
  -- the core and the run
  | core => exact stay rfl rfl rfl hfit
  | coreGone hgone =>
      rcases hgone with hgone | hgone
      · exact absurd hr (by simp [hgone])
      · exact absurd hitems hgone
  | workCanceled hc => exact stay rfl rfl rfl (JobFits.canceled hfit hflags hc _)
  | workPaused hc hp =>
      exact stay rfl rfl rfl (JobFits.pausing hfit hflags hc hp ▸ settleable_paused)
  | workFailed hc hf =>
      refine stay rfl rfl rfl ?_
      rw [JobFits.pending hfit hflags hc hf]
      exact ⟨by decide, Or.inr ⟨rfl, rfl⟩⟩
  | workNone hc hf hi => exact absurd hi (JobFits.not_idle hfit hflags hc hf)
  | enterRun hc hf hi => exact stay rfl rfl rfl (JobFits.enters hfit hc hi)
  | runEmit => exact stay rfl rfl rfl hfit
  | runReturned =>
      exact stay rfl rfl rfl (settleable_of_started hfit.started (OperationResult.terminal _))
  | runCanceled | runFailed => exact stay rfl rfl rfl (settleable_of_started hfit.started rfl)
  | runPaused hp => exact stay rfl rfl rfl (PcFits.pausing hfit hflags hp)
  | snapshotFailed => exact stay rfl rfl rfl (settleable_of_started (Or.inr (Or.inl hfit)) rfl)
  | @snapshot job latest payload r' hr' =>
      obtain rfl : r' = r := record_eq hr'
      have hst : r'.state = .pausing := hfit
      refine ⟨rfl, rfl, r'.withPayload payload, by simp, hflags, Or.inl ⟨?_, Or.inl rfl⟩⟩
      exact hst ▸ settleable_paused
  -- custody is released, and the session settled
  | popLease | popNone | releaseLease => exact stay rfl rfl rfl hfit
  | releaseSettle => exact stay rfl rfl rfl hfit
  | releaseFinish => exact hfit.elim
  | settleFailed ht => exact absurd (transitionLocked_eq_none hr ht) (by simp [hfit.1])
  | settle hr' hlegal =>
      obtain rfl := record_eq hr'
      exact active_settles hfit
  | settleEmit | finalize | publishFailed | publish | emitTerminal | dropItems | done
  | doneCanceling | announceCanceling => exact hfit.elim

/-- A stale worker changes nothing of its session, and stays stale until it
fails. -/
theorem stale_step (h : WorkerMove d w S pc d' pc')
    (hover : ∀ r, d.records.get? S = some r → r.state.isTerminal = true)
    (hstale : Stale (d.controls S) pc) :
    d'.pending = d.pending ∧ d'.itemEvents = d.itemEvents ∧ d'.records = d.records ∧
      (Stale (d.controls S) pc' ∨ pc' = .releasePop .finish) := by
  obtain ⟨hcan, hpc⟩ := hstale
  have stay : ∀ {e : Dispatcher} {pc'' : WorkerPc}, e.pending = d.pending →
      e.itemEvents = d.itemEvents → e.records = d.records →
      (Stale (d.controls S) pc'' ∨ pc'' = .releasePop .finish) →
      e.pending = d.pending ∧ e.itemEvents = d.itemEvents ∧ e.records = d.records ∧
        (Stale (d.controls S) pc'' ∨ pc'' = .releasePop .finish) :=
    fun hp hi hrec hst => ⟨hp, hi, hrec, hst⟩
  cases h with
  | startGone | storeGone | runningGone | coreGone | runningIllegal | settleFailed =>
      exact stay rfl rfl rfl (Or.inr rfl)
  | startCanceling | storeCanceling | runningCanceling | acquireCanceled | acquireError
  | openError => exact stay rfl rfl rfl (Or.inl ⟨hcan, rfl⟩)
  | startAcquire | storeOpen | granted | opened => exact stay rfl rfl rfl (Or.inl ⟨hcan, trivial⟩)
  | core => exact stay rfl rfl rfl (Or.inl ⟨hcan, hpc⟩)
  | workCanceled => exact stay rfl rfl rfl (Or.inl ⟨hcan, rfl, rfl⟩)
  | workPaused hc => exact absurd hc (by simp [hcan])
  | workFailed hc | workNone hc | enterRun hc =>
      exact absurd (Control.checkpoint_eq_none.mp hc).1 (by simp [hcan])
  | popLease | popNone | releaseLease => exact stay rfl rfl rfl (Or.inl ⟨hcan, hpc⟩)
  | releaseSettle => exact stay rfl rfl rfl (Or.inl ⟨hcan, hpc⟩)
  | @toRunning l r hr hlegal | @settle state result r hr hlegal =>
      exact absurd hlegal (by simp [requireTransition_terminal (hover r hr)])
  | _ => exact hpc.elim

/-- What a worker on its way out leaves of its session: the state it found,
or a pause that turns into the cancel accepted during the drain. -/
structure LeavingStep (d d' : Dispatcher) (S : SessionId) (pc pc' : WorkerPc) : Prop where
  leaving : pc'.active = false
  closing : pc'.closing = true → pc.closing = true
  itemEvents : pc.closing = false → d'.itemEvents = d.itemEvents
  record :
    d'.pending = d.pending ∧ d'.status S = d.status S ∨
      d'.pending = d.pending ++ [S] ∧ d.status S = some .paused ∧
        d'.status S = some .canceling ∧ (d.controls S).cancel = true

theorem leaving_step (h : WorkerMove d w S pc d' pc') (hpc : pc.active = false) :
    LeavingStep d d' S pc pc' := by
  have stay : ∀ {e : Dispatcher} {pc'' : WorkerPc}, pc''.active = false →
      (pc''.closing = true → pc.closing = true) →
      (pc.closing = false → e.itemEvents = d.itemEvents) →
      e.pending = d.pending → e.status S = d.status S → LeavingStep d e S pc pc'' :=
    fun ha hc hi hp hst => ⟨ha, hc, hi, Or.inl ⟨hp, hst⟩⟩
  cases h with
  | settleEmit =>
      rename_i state result position
      cases result with
      | none => exact stay rfl (fun hc => absurd hc Bool.false_ne_true) (fun _ => rfl) rfl rfl
      | some result => exact stay rfl (fun _ => rfl) (fun _ => rfl) rfl rfl
  | finalize => exact stay rfl (fun _ => rfl) (fun _ => rfl) rfl rfl
  | publishFailed => exact stay rfl (fun hc => absurd hc Bool.false_ne_true) (fun _ => rfl) rfl rfl
  | publish hr hu =>
      refine stay rfl (fun _ => rfl) (fun _ => rfl) rfl ?_
      simp [status, hr, (SessionRecord.withResult_eq_some hu).1]
  | emitTerminal => exact stay rfl (fun _ => rfl) (fun _ => rfl) rfl rfl
  | dropItems =>
      exact stay rfl (fun hc => absurd hc Bool.false_ne_true)
        (fun hc => absurd hc Bool.false_ne_true.symm) rfl rfl
  | popLease | popNone | releaseLease =>
      exact stay hpc (fun hc => absurd hc Bool.false_ne_true) (fun _ => rfl) rfl rfl
  | releaseFinish => exact stay rfl (fun hc => absurd hc Bool.false_ne_true) (fun _ => rfl) rfl rfl
  | done => exact stay rfl (fun hc => absurd hc Bool.false_ne_true) (fun _ => rfl) rfl rfl
  | doneCanceling hr hst hcan =>
      refine ⟨rfl, fun hc => absurd hc Bool.false_ne_true, fun _ => rfl, Or.inr ⟨rfl, ?_, ?_, hcan⟩⟩
      · simp [status, hr, hst]
      · simp [status]
  | announceCanceling =>
      exact stay rfl (fun hc => absurd hc Bool.false_ne_true) (fun _ => rfl) rfl rfl
  | _ => exact absurd hpc Bool.false_ne_true.symm

end Dispatcher.WorkerMove

end NamiSync
