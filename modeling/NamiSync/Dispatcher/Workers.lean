/-
# `Dispatcher.Workers` — one live worker for each session

`_schedule` launches a worker for every session it takes from the queue and
writes it over whatever `_workers` held for the session; `_worker_done` pops
that entry, whoever it belongs to.  Two things let a second worker of a
session come to life: a resume, or a cancel, that queues a paused session
whose worker is still in its `finally`, and the cancel of a session that was
taken from the queue, which queues it again.

Along the runs in which no session is launched that has a live worker, or is
over, and in which no worker ends by queueing its own session
(`launchesApart`), `_workers` is exactly the table of the live workers, no
worker asks for an illegal transition, and a complete shutdown leaves no
worker behind.

## What is proved

    one_live_worker : Run step LaunchesApart (initial registry) s →
      OneWorker s ∧ WorkersMapped s ∧ RequestsLegal s ∧
        a `shutdown` that reports completion leaves no worker

## The condition

`launchesApart` is asked of a pass (none of the sessions it launches has a
live worker or is over) and of the block of `_worker_done` that would queue
its own session.  It does not bound the workers of a session, and it says
nothing of callers: a resume may come at any time, as long as the pass that
serves it comes after the first worker's end.  `second_worker` has three runs
that fail it, with the three things that then go wrong.
-/
import NamiSync.Dispatcher.Custody

namespace NamiSync

open SessionState Dispatcher

/-- The thread has been launched and is not at the end of `_worker_done`. -/
def WorkerPc.live : WorkerPc → Bool
  | .ended => false
  | _ => true

/-- The transition the next block of a worker asks `_transition_locked`
for. -/
def Dispatcher.requested (d : Dispatcher) (session : SessionId) : WorkerPc → Option SessionState
  | .toRunning _ => if d.status session = some .canceling then none else some .running
  | .settleTransition state _ => some state
  | .workerDone =>
      if d.status session = some .paused ∧ (d.controls session).cancel then some .canceling
      else none
  | _ => none

/-- A worker of the session is live. -/
def System.liveWorker (s : System) (session : SessionId) : Bool :=
  s.threads.any (fun thread => thread.session = session && thread.pc.live)

/-- A pass of the scheduler launches no session with a live worker and none
that is already terminal, and no worker ends by queueing its own session. -/
def System.launchesApart (s : System) : Action → Bool
  | .schedule =>
      s.disp.launchable.all (fun entry => !s.liveWorker entry.1 &&
        !((s.disp.status entry.1).map isTerminal).getD false)
  | .worker w _ =>
      match s.threads[w]? with
      | some ⟨session, _, .workerDone⟩ =>
          !(s.disp.status session = some .paused && (s.disp.controls session).cancel)
      | _ => true
  | _ => true

def LaunchesApart (s : System) (a : Action) : Prop := s.launchesApart a = true

/-! ## `shutdown`

What the caller of `shutdown` is told, in the words of the source. -/

structure ShutdownResult where
  complete : Bool
  unfinished : List SessionId
  custodyReleased : Bool

namespace Dispatcher

/-- The sessions `shutdown` still waits for. -/
def unfinished (d : Dispatcher) : List SessionId :=
  (d.records.entries.filter (fun entry => !entry.2.isSettled)).map (·.1)

def custodyReleased (d : Dispatcher) : Bool := d.leases.isEmpty && decide (d.reserved = ∅)

/-- The end of `shutdown`: `waited` is the dispatcher in which it leaves its
wait, `joined` the one it finds after it has joined the scheduler thread and
closed the hubs, `unclosed` the sessions whose observer did not finish in
time. -/
def shutdownResult (waited joined : Dispatcher) (unclosed : List SessionId) : ShutdownResult :=
  let allUnfinished := (waited.unfinished ++ unclosed).eraseDups
  { complete := allUnfinished.isEmpty && waited.custodyReleased && joined.schedulerReturned &&
      decide (joined.admitting = 0)
    unfinished := allUnfinished
    custodyReleased := waited.custodyReleased }

theorem shutdownResult_complete {waited joined : Dispatcher} {unclosed : List SessionId}
    (h : (shutdownResult waited joined unclosed).complete = true) :
    joined.schedulerReturned = true := by
  simp only [shutdownResult, Bool.and_eq_true] at h
  exact h.1.2

end Dispatcher

/-! ## What is claimed of a reachable state -/

def OneWorker (s : System) : Prop :=
  ∀ (w₁ w₂ : WorkerId) (t₁ t₂ : Worker), s.threads[w₁]? = some t₁ → s.threads[w₂]? = some t₂ →
    t₁.session = t₂.session → t₁.pc.live = true → t₂.pc.live = true → w₁ = w₂

def WorkersMapped (s : System) : Prop :=
  ∀ (S : SessionId) (w : WorkerId), s.disp.workers.get? S = some w ↔
    ∃ thread, s.threads[w]? = some thread ∧ thread.session = S ∧ thread.pc.live = true

/-- No worker's next block is an `IllegalTransition`. -/
def RequestsLegal (s : System) : Prop :=
  ∀ (w : WorkerId) (thread : Worker) (state : SessionState) (r : SessionRecord),
    s.threads[w]? = some thread → s.disp.requested thread.session thread.pc = some state →
      s.disp.records.get? thread.session = some r → r.state.requireTransition state = true

/-- No thread is left in `_run_worker`. -/
def NoWorker (s : System) : Prop :=
  ∀ (w : WorkerId) (thread : Worker), s.threads[w]? = some thread → thread.pc.live = false

/-! ## The table of the workers

How the table changes: a worker enters it when it is launched and leaves it by
its last block. -/

theorem WorkerPc.active_live {pc : WorkerPc} (h : pc.active = true) : pc.live = true := by
  cases pc <;> first | rfl | exact absurd h Bool.false_ne_true

theorem liveWorker_eq_true {s : System} {S : SessionId} :
    s.liveWorker S = true ↔
      ∃ (w : WorkerId) (thread : Worker), s.threads[w]? = some thread ∧ thread.session = S ∧
        thread.pc.live = true := by
  simp only [System.liveWorker, List.any_eq_true, Bool.and_eq_true, decide_eq_true_eq]
  constructor
  · rintro ⟨thread, hmem, hS, hlive⟩
    obtain ⟨w, hw⟩ := List.getElem?_of_mem hmem
    exact ⟨w, thread, hw, hS, hlive⟩
  · rintro ⟨w, thread, hw, hS, hlive⟩
    exact ⟨thread, List.mem_of_getElem? hw, hS, hlive⟩

namespace Dispatcher

variable {d d' : Dispatcher} {w : WorkerId} {S T : SessionId} {pc pc' : WorkerPc}

/-- A worker leaves `_workers` alone until the block that ends it. -/
theorem WorkerMove.workers_step (h : WorkerMove d w S pc d' pc') :
    d'.workers = d.workers ∧ pc ≠ .workerDone ∨
      d'.workers = d.workers.pop S ∧ pc = .workerDone := by
  cases h with
  | done | doneCanceling => exact Or.inr ⟨rfl, rfl⟩
  | _ => exact Or.inl ⟨rfl, by simp⟩

theorem WorkerMove.was_live (h : WorkerMove d w S pc d' pc') : pc.live = true := by
  cases h <;> rfl

/-- A worker ends in `_worker_done`. -/
theorem WorkerMove.ends_step (h : WorkerMove d w S pc d' pc') :
    pc'.live = true ∨ pc = .workerDone ∨ ∃ position, pc = .announceCanceling position := by
  cases h with
  | done => exact Or.inr (Or.inl rfl)
  | announceCanceling => exact Or.inr (Or.inr ⟨_, rfl⟩)
  | @settleEmit state result => cases result <;> exact Or.inl rfl
  | _ => exact Or.inl rfl

theorem WorkerMove.schedulerReturned_eq (h : WorkerMove d w S pc d' pc') :
    d'.schedulerReturned = d.schedulerReturned := by
  cases h <;> rfl

theorem CallMove.workers_eq {c : Call} {client : Client} (h : CallMove d c d' client) :
    d'.workers = d.workers ∧ d'.schedulerReturned = d.schedulerReturned := by
  cases h <;> exact ⟨rfl, rfl⟩

theorem ClientMove.workers_eq {client client' : Client} (h : ClientMove d client d' client') :
    d'.workers = d.workers ∧ d'.schedulerReturned = d.schedulerReturned := by
  cases h <;> exact ⟨rfl, rfl⟩

/-- The entry of a session after the launches of a pass: the last worker
launched for it, or the one it had. -/
theorem register_get? (workers : Dict SessionId WorkerId) (next : WorkerId)
    (launches : List (SessionId × Bool)) (hnodup : (launches.map (·.1)).Nodup) {w : WorkerId} :
    (register workers next launches).get? S = some w ↔
      (∃ i e, launches[i]? = some e ∧ e.1 = S ∧ w = next + i) ∨
        S ∉ launches.map (·.1) ∧ workers.get? S = some w := by
  induction launches generalizing workers next with
  | nil => simp [register]
  | cons entry rest ih =>
      rw [List.map_cons, List.nodup_cons] at hnodup
      rw [register, ih _ _ hnodup.2, Dict.get?_set]
      constructor
      · rintro (⟨i, e, hi, hS, rfl⟩ | ⟨hnot, hget⟩)
        · exact Or.inl ⟨i + 1, e, by simpa using hi, hS, Nat.add_right_comm _ _ _⟩
        · split at hget
          · next hS => exact Or.inl ⟨0, entry, rfl, hS.symm, (Option.some.inj hget).symm⟩
          · next hS => exact Or.inr ⟨by simp [hnot, hS], hget⟩
      · rintro (⟨i, e, hi, hS, rfl⟩ | ⟨hnot, hget⟩)
        · cases i with
          | zero =>
              obtain rfl : entry = e := Option.some.inj hi
              refine Or.inr ⟨?_, by simp [hS]⟩
              exact hS ▸ hnodup.1
          | succ i =>
              exact Or.inl ⟨i, e, by simpa using hi, hS, (Nat.add_right_comm next 1 i).symm⟩
        · simp only [List.map_cons, List.mem_cons, not_or] at hnot
          exact Or.inr ⟨hnot.2, by rw [if_neg hnot.1, hget]⟩

/-- A pass runs only until the scheduler has returned, and the scheduler
returns only with an empty table. -/
theorem schedule_open {next : WorkerId} {launches : List (SessionId × Bool)}
    (h : d.schedule next = some (d', launches)) :
    d.schedulerReturned = false ∧
      (d'.schedulerReturned = true → d.workers.isEmpty = true ∧ d.accepting = false) := by
  unfold schedule at h
  split at h
  · exact absurd h (by simp)
  · next hret =>
      have hret' : d.schedulerReturned = false := by simpa using hret
      refine ⟨hret', fun hd' => ?_⟩
      split at h
      · simp only [Option.some.injEq, Prod.mk.injEq] at h
        obtain ⟨rfl, -⟩ := h
        exact absurd hd' (by simp [hret'])
      · split at h
        · next hidle => exact ⟨hidle.2.2, hidle.1⟩
        · exact absurd h (by simp)

end Dispatcher

/-! ## Sessions that get over

No call takes a session to a terminal state.  A block of its worker does, and
then this worker is active no more. -/

/-- The session has not been terminal before the step. -/
theorem over_of_nonterminal {status status' : Option SessionState} {state : SessionState}
    (hst : status' = some state) (hn : state.isTerminal = false) (ho : Over status') :
    Over status :=
  absurd (hst ▸ ho) (not_over hn)

namespace Dispatcher

variable {d d' : Dispatcher} {w : WorkerId} {S T : SessionId} {pc pc' : WorkerPc}

/-- A control call takes no session to a terminal state. -/
theorem CallMove.over_step {c : Call} {client : Client} (h : CallMove d c d' client)
    (ho : Over (d'.status T)) : Over (d.status T) := by
  have move : ∀ {S : SessionId} {r : SessionRecord} {state : SessionState} {e : Dispatcher},
      e.records = d.records → state.isTerminal = false → Over ((e.moved S r state).status T) →
        Over (d.status T) := by
    intro S r state e hrec hn hover
    by_cases hT : T = S
    · subst hT
      exact over_of_nonterminal (status_moved_self _ _ _ _) hn hover
    · rw [status_moved_ne _ _ _ hT] at hover
      simpa only [status, hrec] using hover
  cases h with
  | submit | cancelPausing | close => exact ho
  | pause => exact move (e := d.setControl _ _) rfl rfl ho
  | resume => exact move (e := d.setControl _ _) rfl rfl ho
  | cancel => exact move (e := d.setControl _ _) rfl rfl ho

/-- A worker takes its session to a terminal state only by settling it. -/
theorem WorkerMove.over_step (h : WorkerMove d w S pc d' pc') {state : SessionState}
    (hst : d.status S = some state) (hfit : PcFits state (d.controls S) pc)
    (hflags : FlagsFit state (d.controls S)) (hitems : S ∈ d.itemEvents)
    (ho : Over (d'.status S)) : pc'.active = false := by
  obtain ⟨r, hr, rfl⟩ := status_eq_some.mp hst
  obtain ⟨r', hr', -, ⟨hfit', -⟩ | ⟨-, -, result, hpc, -⟩⟩ :=
    (h.active_step hr hfit hflags hitems).record
  · have hlive := attended_not_terminal hfit'.attended
    exact absurd (status_of_record hr' ▸ ho) (not_over hlive)
  · rw [hpc]
    rfl

/-- `_worker_done` ends the worker, unless it queues the session. -/
theorem WorkerMove.done_ends (h : WorkerMove d w S .workerDone d' pc')
    (hguard : ¬ (d.status S = some .paused ∧ (d.controls S).cancel = true)) : pc' = .ended := by
  cases h with
  | done => rfl
  | doneCanceling hr hst hcan => exact absurd ⟨hst ▸ status_of_record hr, hcan⟩ hguard

theorem WorkerMove.announceCanceling_step (h : WorkerMove d w S pc d' pc') {position : Nat}
    (hpc : pc' = .announceCanceling position) :
    pc = .workerDone ∧ d.status S = some .paused ∧ (d.controls S).cancel = true := by
  cases h with
  | doneCanceling hr hst hcan => exact ⟨rfl, hst ▸ status_of_record hr, hcan⟩
  | @settleEmit state result => cases result <;> exact WorkerPc.noConfusion hpc
  | _ => exact WorkerPc.noConfusion hpc

end Dispatcher

/-! ## The invariant

A session has one live worker, and the table has it. -/

structure Sole (s : System) : Prop where
  one : OneWorker s
  mapped : WorkersMapped s
  attending : ∀ (w : WorkerId) (thread : Worker), s.threads[w]? = some thread →
    thread.pc.active = true → ¬ Over (s.disp.status thread.session)
  silent : ∀ (w : WorkerId) (thread : Worker) (position : Nat), s.threads[w]? = some thread →
    thread.pc ≠ .announceCanceling position
  returned : s.disp.schedulerReturned = true → NoWorker s

/-- An active worker fits the state of its session. -/
theorem Sole.fits {s : System} (h : Sole s) (hL : Lifecycle s) {w : WorkerId} {thread : Worker}
    (hw : s.threads[w]? = some thread) (ha : thread.pc.active = true) :
    ∃ state, s.disp.status thread.session = some state ∧
      PcFits state (s.disp.controls thread.session) thread.pc := by
  rcases (hL.session _).working w thread hw rfl ha with hfit | ⟨hover, -⟩
  · exact hfit
  · exact absurd hover (h.attending w thread hw ha)

section
variable {s : System} {d : Dispatcher} {w : WorkerId} {thread : Worker} {pc : WorkerPc}

/-- The threads that are live after a worker's block were so before it. -/
theorem live_before (hw : s.threads[w]? = some thread)
    (hm : WorkerMove s.disp w thread.session thread.pc d pc) {w' : WorkerId} {thread' : Worker}
    (hw' : (s.advance d w thread pc).threads[w']? = some thread')
    (hlive : thread'.pc.live = true) :
    ∃ old, s.threads[w']? = some old ∧ old.session = thread'.session ∧ old.pc.live = true := by
  rcases advance_threads hw' with ⟨rfl, rfl⟩ | ⟨-, hold⟩
  · exact ⟨thread, hw, rfl, hm.was_live⟩
  · exact ⟨thread', hold, rfl, hlive⟩

theorem Sole.worker (h : Sole s) (hL : Lifecycle s) (hw : s.threads[w]? = some thread)
    (hm : WorkerMove s.disp w thread.session thread.pc d pc)
    (hguard : thread.pc = .workerDone →
      ¬ (s.disp.status thread.session = some .paused ∧
        (s.disp.controls thread.session).cancel = true)) :
    Sole (s.advance d w thread pc) := by
  refine ⟨?one, ?mapped, ?attending, ?silent, ?returned⟩
  case one =>
    intro w₁ w₂ t₁ t₂ h₁ h₂ hS hl₁ hl₂
    obtain ⟨o₁, ho₁, hS₁, hlo₁⟩ := live_before hw hm h₁ hl₁
    obtain ⟨o₂, ho₂, hS₂, hlo₂⟩ := live_before hw hm h₂ hl₂
    exact h.one w₁ w₂ o₁ o₂ ho₁ ho₂ (hS₁.trans (hS.trans hS₂.symm)) hlo₁ hlo₂
  case mapped =>
    intro S w'
    rcases hm.workers_step with ⟨hworkers, hpc⟩ | ⟨hworkers, hpc⟩
    · -- the worker stays live, and so does its entry
      have hlive : pc.live = true := by
        rcases hm.ends_step with hlive | hdone | ⟨position, hann⟩
        · exact hlive
        · exact absurd hdone hpc
        · exact absurd hann (h.silent w thread position hw)
      show d.workers.get? S = some w' ↔ _
      rw [hworkers, h.mapped S w']
      constructor
      · rintro ⟨old, hold, hS, hl⟩
        by_cases hww : w' = w
        · subst hww
          obtain rfl : thread = old := Option.some.inj (hw.symm.trans hold)
          refine ⟨{ thread with pc := pc }, ?_, hS, hlive⟩
          simp [System.advance, (List.getElem?_eq_some_iff.mp hw).1]
        · refine ⟨old, ?_, hS, hl⟩
          rw [System.advance, List.getElem?_set_ne (Ne.symm hww)]
          exact hold
      · rintro ⟨new, hnew, hS, hl⟩
        obtain ⟨old, hold, hS', hlo⟩ := live_before hw hm hnew hl
        exact ⟨old, hold, hS'.trans hS, hlo⟩
    · -- the worker ends, and it was the only one of its session
      have hended : pc = .ended := by
        rw [hpc] at hm
        exact hm.done_ends (hguard hpc)
      show d.workers.get? S = some w' ↔ _
      rw [hworkers, Dict.get?_pop]
      constructor
      · intro hget
        split at hget
        · exact absurd hget (by simp)
        · next hS =>
            obtain ⟨old, hold, hSo, hl⟩ := (h.mapped S w').mp hget
            have hww : w' ≠ w := by
              rintro rfl
              obtain rfl : thread = old := Option.some.inj (hw.symm.trans hold)
              exact hS hSo.symm
            refine ⟨old, ?_, hSo, hl⟩
            rw [System.advance, List.getElem?_set_ne (Ne.symm hww)]
            exact hold
      · rintro ⟨new, hnew, hS, hl⟩
        rcases advance_threads hnew with ⟨rfl, rfl⟩ | ⟨hne, hold⟩
        · exact absurd hl (by simp [hended, WorkerPc.live])
        · have hother : S ≠ thread.session := by
            rintro rfl
            exact hne (h.one w' w new thread hold hw hS hl hm.was_live)
          rw [if_neg hother]
          exact (h.mapped S w').mpr ⟨new, hold, hS, hl⟩
  case attending =>
    intro w' thread' hw' ha ho
    rcases advance_threads hw' with ⟨rfl, rfl⟩ | ⟨hne, hold⟩
    · have hactive : thread.pc.active = true := by
        by_contra hcon
        have hleft := (hm.leaving_step (by simpa using hcon)).leaving
        exact absurd ha (by simp [hleft])
      obtain ⟨state, hst, hfit⟩ := h.fits hL hw hactive
      obtain ⟨-, hflags, hitems⟩ := (hL.session _).record state hst
      have hlive := attended_not_terminal hfit.attended
      exact absurd ha (by simp [hm.over_step hst hfit hflags (hitems hlive) ho])
    · have hother : thread'.session ≠ thread.session := fun hS =>
        hne (h.one w' w thread' thread hold hw hS (WorkerPc.active_live ha) hm.was_live)
      refine h.attending w' thread' hold ha ?_
      have heq : d.status thread'.session = s.disp.status thread'.session :=
        congrArg (Option.map SessionRecord.state) (hm.records_ne hother)
      exact heq ▸ ho
  case silent =>
    intro w' thread' position hw' hpc
    rcases advance_threads hw' with ⟨rfl, rfl⟩ | ⟨-, hold⟩
    · obtain ⟨hdone, hst, hcan⟩ := hm.announceCanceling_step hpc
      exact hguard hdone ⟨hst, hcan⟩
    · exact h.silent w' thread' position hold hpc
  case returned =>
    intro hret
    have hnone := h.returned (hm.schedulerReturned_eq.symm.trans hret) w thread hw
    exact absurd hm.was_live (by simp [hnone])

/-- A step that moves no thread. -/
theorem Sole.keep {t : System} (h : Sole s) (hthreads : t.threads = s.threads)
    (hworkers : t.disp.workers = s.disp.workers)
    (hreturned : t.disp.schedulerReturned = s.disp.schedulerReturned)
    (hover : ∀ (w : WorkerId) (thread : Worker), s.threads[w]? = some thread →
      Over (t.disp.status thread.session) → Over (s.disp.status thread.session)) :
    Sole t where
  one w₁ w₂ t₁ t₂ h₁ h₂ := h.one w₁ w₂ t₁ t₂ (hthreads ▸ h₁) (hthreads ▸ h₂)
  mapped S w := by
    rw [hworkers, hthreads]
    exact h.mapped S w
  attending w thread hw ha ho :=
    h.attending w thread (hthreads ▸ hw) ha (hover w thread (hthreads ▸ hw) ho)
  silent w thread position hw := h.silent w thread position (hthreads ▸ hw)
  returned hret w thread hw := h.returned (hreturned ▸ hret) w thread (hthreads ▸ hw)

end

theorem Sole.client {s : System} {i : Nat} {client client' : Client} {d : Dispatcher}
    (h : Sole s) (hL : Lifecycle s) (hi : s.clients[i]? = some client)
    (hm : ClientMove s.disp client d client') :
    Sole { s with disp := d, clients := s.clients.set i client' } := by
  refine h.keep rfl hm.workers_eq.1 hm.workers_eq.2 (fun w thread hw ho => ?_)
  cases hm with
  | prepareFailed | prepared | registerFailed | emitPending | admitDone | announce => exact ho
  | registered =>
      have hne : thread.session ≠ s.disp.nextSession :=
        Nat.ne_of_lt ((hL.session _).known w thread hw rfl)
      simpa [status, Dict.get?_set_ne _ _ hne] using ho
  | @closePop S =>
      by_cases hS : thread.session = S
      · rw [hS]
        exact ((hL.session S).callers (List.mem_of_getElem? hi)).2
      · simpa [status, Dict.get?_pop_ne _ hS] using ho

/-- A launch gives each session of a pass one new thread. -/
theorem launch_index {next : Nat} {launches : List (SessionId × Bool)}
    (hnodup : (launches.map (·.1)).Nodup) {w₁ w₂ : WorkerId} {e₁ e₂ : SessionId × Bool}
    (hle₁ : next ≤ w₁) (hle₂ : next ≤ w₂) (h₁ : launches[w₁ - next]? = some e₁)
    (h₂ : launches[w₂ - next]? = some e₂) (hS : e₁.1 = e₂.1) : w₁ = w₂ := by
  have hlt : w₁ - next < (launches.map (·.1)).length := by
    rw [List.length_map]
    exact (List.getElem?_eq_some_iff.mp h₁).1
  have heq : (launches.map (·.1))[w₁ - next]? = (launches.map (·.1))[w₂ - next]? := by
    simp only [List.getElem?_map, h₁, h₂, Option.map_some]
    exact congrArg some hS
  have hindex : w₁ - next = w₂ - next := (List.getElem?_inj hlt hnodup).mp heq
  calc w₁ = (w₁ - next) + next := (Nat.sub_add_cancel hle₁).symm
    _ = (w₂ - next) + next := by rw [hindex]
    _ = w₂ := Nat.sub_add_cancel hle₂

theorem launch_old {s : System} {d : Dispatcher} {launches : List (SessionId × Bool)}
    {w : WorkerId} {thread : Worker} (h : s.threads[w]? = some thread) :
    (s.launch d launches).threads[w]? = some thread := by
  rw [System.launch, List.getElem?_append_left (List.getElem?_eq_some_iff.mp h).1]
  exact h

theorem launch_new {s : System} {d : Dispatcher} {launches : List (SessionId × Bool)}
    {i : Nat} {e : SessionId × Bool} (h : launches[i]? = some e) :
    (s.launch d launches).threads[s.threads.length + i]? = some ⟨e.1, e.2, .start⟩ := by
  rw [System.launch, List.getElem?_append_right (Nat.le_add_right _ _), Nat.add_sub_cancel_left,
    List.getElem?_map, h]
  rfl

theorem Dispatcher.launchable_record {d : Dispatcher} {e : SessionId × Bool}
    (h : e ∈ d.launchable) : ∃ r, d.records.get? e.1 = some r :=
  Option.isSome_iff_exists.mp (List.mem_filter.mp h).2

theorem Lifecycle.launchable_nodup {s : System} (h : Lifecycle s) :
    (s.disp.launchable.map (·.1)).Nodup :=
  (h.nodup.sublist (selected_sublist s.disp)).sublist (launchable_sublist s.disp)

/-- Sessions without a live worker get one each. -/
theorem Sole.launch {s : System} {d : Dispatcher} {launches : List (SessionId × Bool)}
    (h : Sole s) (hnodup : (launches.map (·.1)).Nodup)
    (hidle : ∀ e ∈ launches, s.liveWorker e.1 = false ∧ ¬ Over (s.disp.status e.1))
    (hworkers : d.workers = register s.disp.workers s.threads.length launches)
    (hstatus : d.status = s.disp.status) (hopen : d.schedulerReturned = false) :
    Sole (s.launch d launches) := by
  -- a live worker from before the pass is of no launched session
  have apart : ∀ {w : WorkerId} {thread : Worker} {i : Nat} {e : SessionId × Bool},
      s.threads[w]? = some thread → launches[i]? = some e → thread.pc.live = true →
        thread.session ≠ e.1 := by
    intro w thread i e hw he hlive hS
    have hnone := (hidle e (List.mem_of_getElem? he)).1
    rw [liveWorker_eq_true.mpr ⟨w, thread, hw, hS, hlive⟩] at hnone
    exact absurd hnone (by decide)
  refine ⟨?one, ?mapped, ?attending, ?silent, ?returned⟩
  case one =>
    intro w₁ w₂ t₁ t₂ h₁ h₂ hS hl₁ hl₂
    rcases launch_threads h₁ with hold₁ | ⟨hle₁, e₁, he₁, rfl⟩
    · rcases launch_threads h₂ with hold₂ | ⟨-, e₂, he₂, rfl⟩
      · exact h.one w₁ w₂ t₁ t₂ hold₁ hold₂ hS hl₁ hl₂
      · exact absurd hS (apart hold₁ he₂ hl₁)
    · rcases launch_threads h₂ with hold₂ | ⟨hle₂, e₂, he₂, rfl⟩
      · exact absurd hS.symm (apart hold₂ he₁ hl₂)
      · exact launch_index hnodup hle₁ hle₂ he₁ he₂ hS
  case mapped =>
    intro S w
    show d.workers.get? S = some w ↔ _
    rw [hworkers, register_get? _ _ _ hnodup]
    constructor
    · rintro (⟨i, e, he, rfl, rfl⟩ | ⟨-, hget⟩)
      · exact ⟨_, launch_new he, rfl, rfl⟩
      · obtain ⟨thread, hw, hS, hl⟩ := (h.mapped S w).mp hget
        exact ⟨thread, launch_old hw, hS, hl⟩
    · rintro ⟨thread, hw, hS, hl⟩
      rcases launch_threads hw with hold | ⟨hle, e, he, rfl⟩
      · refine Or.inr ⟨fun hmem => ?_, (h.mapped S w).mpr ⟨thread, hold, hS, hl⟩⟩
        obtain ⟨e, he, rfl⟩ := List.mem_map.mp hmem
        obtain ⟨i, hi⟩ := List.getElem?_of_mem he
        exact apart hold hi hl hS
      · exact Or.inl ⟨_, e, he, hS, (Nat.add_sub_cancel' hle).symm⟩
  case attending =>
    intro w thread hw ha
    show ¬ Over (d.status thread.session)
    rw [hstatus]
    rcases launch_threads hw with hold | ⟨-, e, he, rfl⟩
    · exact h.attending w thread hold ha
    · exact (hidle e (List.mem_of_getElem? he)).2
  case silent =>
    intro w thread position hw
    rcases launch_threads hw with hold | ⟨-, e, -, rfl⟩
    · exact h.silent w thread position hold
    · exact WorkerPc.noConfusion
  case returned => exact fun hret => absurd hret (by simp [System.launch, hopen])

theorem Sole.schedule {s : System} {d : Dispatcher} {launches : List (SessionId × Bool)}
    (h : Sole s) (hL : Lifecycle s)
    (hm : s.disp.schedule s.threads.length = some (d, launches))
    (hidle : ∀ e ∈ s.disp.launchable, s.liveWorker e.1 = false ∧ ¬ Over (s.disp.status e.1)) :
    Sole (s.launch d launches) := by
  obtain ⟨hopen, hreturn⟩ := schedule_open hm
  rcases schedule_cases hm with ⟨rfl, rfl⟩ | ⟨rfl, -, rfl⟩
  · exact h.launch hL.launchable_nodup hidle rfl rfl hopen
  · -- the scheduler returns with an empty table
    have hempty : ∀ S, s.disp.workers.get? S = none :=
      fun S => Dict.get?_of_isEmpty (hreturn rfl).1 S
    have hnone : NoWorker s := by
      intro w thread hw
      by_contra hl
      have hget := (h.mapped thread.session w).mpr ⟨thread, hw, rfl, by simpa using hl⟩
      exact absurd hget (by simp [hempty])
    have hthreads :
        (s.launch { s.disp with schedulerReturned := true } []).threads = s.threads := by
      simp [System.launch]
    have hkeep :
        Sole { s with
          threads := (s.launch { s.disp with schedulerReturned := true } []).threads } :=
      h.keep hthreads rfl rfl (fun _ _ _ ho => ho)
    exact { hkeep with returned := fun _ w thread hw => hnone w thread (hthreads ▸ hw) }

/-! ## Guarded runs

Under the condition the step lemma closes the induction; without it a second
worker is launched while the first one is still in its last blocks. -/

theorem LaunchesApart.idle {s : System} (h : LaunchesApart s .schedule) {e : SessionId × Bool}
    (he : e ∈ s.disp.launchable) :
    s.liveWorker e.1 = false ∧ ¬ Over (s.disp.status e.1) := by
  have hboth := List.all_eq_true.mp h e he
  simp only [Bool.and_eq_true, Bool.not_eq_true'] at hboth
  refine ⟨hboth.1, fun ho => ?_⟩
  obtain ⟨r, hr⟩ := launchable_record he
  have hterm := ho r.state (status_of_record hr)
  simp [status_of_record hr, hterm] at hboth

theorem Sole.step {s t : System} {a : Action} (h : Sole s) (hL : Lifecycle s)
    (hguard : LaunchesApart s a) (hstep : s.step a = some t) : Sole t := by
  rcases System.step_cases hstep with ⟨c, d, client, -, hm, rfl⟩ |
    ⟨i, choice, client, d, client', -, hi, hm, rfl⟩ |
    ⟨w, choice, thread, d, pc, rfl, hw, hm, rfl⟩ | ⟨d, launches, rfl, hm, rfl⟩ | ⟨-, rfl⟩ | ⟨-, rfl⟩
  · exact h.keep rfl hm.workers_eq.1 hm.workers_eq.2 (fun _ _ _ ho => hm.over_step ho)
  · exact h.client hL hi hm
  · refine h.worker hL hw hm (fun hpc hqueue => ?_)
    obtain ⟨session, admitted, pc₀⟩ := thread
    obtain rfl : pc₀ = .workerDone := hpc
    simp [LaunchesApart, System.launchesApart, hw, hqueue.1, hqueue.2] at hguard
  · exact h.schedule hL hm (fun e he => hguard.idle he)
  · exact h.keep rfl rfl rfl (fun _ _ _ ho => ho)
  · exact h.keep rfl rfl rfl (fun _ _ _ ho => ho)

theorem Sole.initial (registry : String → Option WorkflowRegistration) :
    Sole (System.initial registry) where
  one w₁ w₂ t₁ t₂ h₁ := absurd h₁ (by simp [System.initial])
  mapped S w := by simp [System.initial]
  attending w thread hw := absurd hw (by simp [System.initial])
  silent w thread position hw := absurd hw (by simp [System.initial])
  returned hret := absurd hret (by simp [System.initial])

theorem Sole.run {s t : System} (h : Transition.Run System.step LaunchesApart s t)
    (hs : Lifecycle s ∧ Sole s) : Lifecycle t ∧ Sole t :=
  h.invariant (I := fun s => Lifecycle s ∧ Sole s)
    (fun _ _ _ hI hP hstep => ⟨hI.1.step hstep, hI.2.step hI.1 hP hstep⟩) hs

/-- A worker that fits its session asks for legal transitions only. -/
theorem Sole.legal {s : System} (h : Sole s) (hL : Lifecycle s) : RequestsLegal s := by
  intro w thread state r hw hreq hr
  have hst := status_of_record hr
  -- an active worker fits the record it finds
  have fits : thread.pc.active = true →
      PcFits r.state (s.disp.controls thread.session) thread.pc := by
    intro ha
    obtain ⟨state', hst', hfit⟩ := h.fits hL hw ha
    obtain rfl : r.state = state' := Option.some.inj (hst.symm.trans hst')
    exact hfit
  cases hpc : thread.pc with
  | toRunning lease =>
      rw [hpc] at hreq fits
      simp only [requested] at hreq
      split at hreq
      · exact absurd hreq (by simp)
      · next hcan =>
          obtain rfl := Option.some.inj hreq
          rcases fits rfl with hp | hc
          · rw [hp]
            decide
          · exact absurd (hc ▸ hst) hcan
  | settleTransition target result =>
      rw [hpc] at hreq fits
      obtain rfl : target = state := Option.some.inj hreq
      exact (fits rfl).1
  | workerDone =>
      rw [hpc] at hreq
      simp only [requested] at hreq
      split at hreq
      · next hpaused =>
          obtain rfl := Option.some.inj hreq
          have hstate : r.state = .paused := Option.some.inj (hst.symm.trans hpaused.1)
          rw [hstate]
          decide
      · exact absurd hreq (by simp)
  | _ =>
      rw [hpc] at hreq
      exact absurd hreq (by simp [requested])

/-- Along every run that launches apart, a session has one live worker at
most, `_workers` maps it to that worker, no worker asks for an illegal
transition, and a shutdown that returns `complete` leaves no worker. -/
theorem one_live_worker {registry : String → Option WorkflowRegistration} {s : System}
    (h : Transition.Run System.step LaunchesApart (System.initial registry) s) :
    OneWorker s ∧ WorkersMapped s ∧ RequestsLegal s ∧
      ∀ (t : System) (unclosed : List SessionId), Transition.Run System.step LaunchesApart s t →
        (shutdownResult s.disp t.disp unclosed).complete = true → NoWorker t := by
  obtain ⟨hL, hS⟩ := Sole.run h ⟨Lifecycle.initial registry, Sole.initial registry⟩
  refine ⟨hS.one, hS.mapped, hS.legal hL, fun t unclosed ht hcomplete => ?_⟩
  obtain ⟨-, hS'⟩ := Sole.run ht ⟨hL, hS⟩
  exact hS'.returned (shutdownResult_complete hcomplete)

/-- The rest of a worker whose workflow returns `COMPLETED`, up to the emit
of `Terminal`. -/
def completedRun (worker : WorkerId) (release : Nat) : List Action :=
  [.worker worker (.runEnd (.returned { status := .completed }))] ++
    Script.blocks worker (release + 3) ++ [.worker worker (.audited .ok)] ++
    Script.blocks worker 1

/-- A paused session whose worker has ended is resumed, completes, and the
dispatcher shuts down. -/
def shutdownSystem : System :=
  Transition.outcome System.step System.launchesApart (System.initial pausableRegistry)
    (resumedRun ++ completedRun 1 2 ++ Script.blocks 1 5 ++ [.stopAccepting, .schedule])

theorem one_live_worker_shutdown :
    (shutdownSystem.threads.map (·.session) = [0, 0] ∧
      (shutdownResult shutdownSystem.disp shutdownSystem.disp []).complete = true) ∧
      OneWorker shutdownSystem ∧ WorkersMapped shutdownSystem ∧ RequestsLegal shutdownSystem ∧
      NoWorker shutdownSystem := by
  obtain ⟨hone, hmapped, hlegal, hshutdown⟩ :=
    one_live_worker (Transition.outcome_run (fun _ _ h => h) _ _ :
      Transition.Run System.step LaunchesApart (System.initial pausableRegistry) shutdownSystem)
  have hcomplete : (shutdownResult shutdownSystem.disp shutdownSystem.disp []).complete = true := by
    decide
  exact ⟨⟨by decide, hcomplete⟩, hone, hmapped, hlegal, hshutdown _ [] (.refl _) hcomplete⟩

/-- The session is resumed, and launched again, while the worker that paused
it has its `finally` still to go through. -/
def doubledSystem : System :=
  Transition.outcome System.step (fun _ _ => true) (System.initial pausableRegistry)
    (pausedRun ++ Script.control 2 (.resume 0) ++ [.schedule])

/-- The first worker ends and pops the entry of the second, so the scheduler
returns; the second is in front of the emit of `Terminal` when `shutdown`
finds everything settled. -/
def abandonedSystem : System :=
  Transition.outcome System.step (fun _ _ => true) doubledSystem
    (Script.blocks 0 3 ++ Script.enterRun 1 ++ completedRun 1 2 ++ [.stopAccepting, .schedule])

/-- A session is canceled after it was taken from the queue; its first worker
settles it, and its second asks to settle it again. -/
def resettledSystem : System :=
  Transition.outcome System.step (fun _ _ => true) (System.initial pausableRegistry)
    (Script.submit 0 "sync" {sharedTarget} ++ [.schedule] ++ Script.control 1 (.cancel 0) ++
      Script.blocks 0 6 ++ [.schedule] ++ [.worker 1 .go, .worker 1 (.acquired .canceled)] ++
      Script.blocks 1 4)

theorem second_worker :
    (Transition.AnyRun System.step (System.initial pausableRegistry) doubledSystem ∧
      ¬ OneWorker doubledSystem) ∧
    (Transition.AnyRun System.step (System.initial pausableRegistry) abandonedSystem ∧
      (shutdownResult abandonedSystem.disp abandonedSystem.disp []).complete = true ∧
      ¬ NoWorker abandonedSystem) ∧
    Transition.AnyRun System.step (System.initial pausableRegistry) resettledSystem ∧
      ¬ RequestsLegal resettledSystem := by
  have hdoubled : Transition.AnyRun System.step (System.initial pausableRegistry) doubledSystem :=
    Transition.outcome_run (fun _ _ _ => trivial) _ _
  refine ⟨⟨hdoubled, fun h => ?_⟩,
    ⟨hdoubled.trans (Transition.outcome_run (fun _ _ _ => trivial) _ _), by decide, fun h => ?_⟩,
    Transition.outcome_run (fun _ _ _ => trivial) _ _, fun h => ?_⟩
  · have hlive : ∀ w ∈ [0, 1], (doubledSystem.threads[w]?.map fun t => (t.session, t.pc.live)) =
        some (0, true) := by decide
    obtain ⟨t₁, h₁, heq₁⟩ := Option.map_eq_some_iff.mp (hlive 0 (by simp))
    obtain ⟨t₂, h₂, heq₂⟩ := Option.map_eq_some_iff.mp (hlive 1 (by simp))
    simp only [Prod.mk.injEq] at heq₁ heq₂
    exact absurd (h 0 1 t₁ t₂ h₁ h₂ (heq₁.1.trans heq₂.1.symm) heq₁.2 heq₂.2) (by decide)
  · have hlive : (abandonedSystem.threads[1]?.map (·.pc.live)) = some true := by decide
    obtain ⟨thread, hw, hl⟩ := Option.map_eq_some_iff.mp hlive
    exact absurd hl (by simp [h 1 thread hw])
  · have hreq : (resettledSystem.threads[1]?.map fun t =>
          (t.session, resettledSystem.disp.requested t.session t.pc)) =
        some (0, some .canceled) := by decide
    have hstate : (resettledSystem.disp.records.get? 0).map (·.state) = some .canceled := by decide
    obtain ⟨thread, hw, heq⟩ := Option.map_eq_some_iff.mp hreq
    obtain ⟨r, hr, hst⟩ := Option.map_eq_some_iff.mp hstate
    simp only [Prod.mk.injEq] at heq
    have hlegal := h 1 thread .canceled r hw heq.2 (heq.1 ▸ hr)
    rw [hst] at hlegal
    exact absurd hlegal (by decide)

end NamiSync
