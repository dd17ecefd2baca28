/-
# `Dispatcher.Attendance` — nobody waits for ever

A `PENDING`, `RUNNING`, `PAUSING` or `CANCELING` session is in the queue of a
scheduler that has not returned, or has a worker that has yet to settle it.
A worker that fits its session never leaves it unsettled
(`WorkerMove.active_step`), and a pass that takes a session from the queue
launches a worker for it, so the one way to break this is to queue a session
that nobody will serve: the scheduler returns as soon as the queue and
`_workers` are empty, paused sessions or not, and the cancels of `shutdown`
come after that.

## What is proved

    none_stranded : Run step LeavesPaused (initial registry) s →
      NoneStranded s

This is a safety statement: somebody is there to serve the session.  That it
is served in the end would need a fair scheduler and workflows that return,
and is not stated.  `strandedSystem` shows that the condition is about a run
the program can take: the cancel `shutdown` makes itself queues a paused
session after the scheduler has returned.
-/
import NamiSync.Dispatcher.Cancel
import NamiSync.Dispatcher.Workers

namespace NamiSync

open SessionState Dispatcher

/-- A live worker of the session has not yet settled it. -/
def HasWorker (s : System) (S : SessionId) : Prop :=
  ∃ (w : WorkerId) (thread : Worker), s.threads[w]? = some thread ∧ thread.session = S ∧
    thread.pc.active = true

/-- The session is in the queue of a scheduler that still serves it. -/
def Queueing (s : System) (S : SessionId) : Prop :=
  S ∈ s.disp.pending ∧ s.disp.schedulerReturned = false

/-- Every session somebody has to wind up, or to start, will be. -/
def NoneStranded (s : System) : Prop :=
  ∀ (S : SessionId) (state : SessionState), s.disp.status S = some state →
    state = .pending ∨ state = .canceling → Queueing s S ∨ HasWorker s S

/-- Once the scheduler has returned, no step takes a session out of
`PAUSED`: neither an accepted resume or cancel, nor a `_worker_done` that
finds the cancel flag of its paused session up. -/
def System.leavesPaused (s : System) : Action → Bool
  | .call (.resume S) | .call (.cancel S) =>
      !(s.disp.schedulerReturned && s.disp.status S = some .paused)
  | .worker w _ =>
      match s.threads[w]? with
      | some ⟨session, _, .workerDone⟩ =>
          !(s.disp.schedulerReturned && s.disp.status session = some .paused &&
            (s.disp.controls session).cancel)
      | _ => true
  | _ => true

def LeavesPaused (s : System) (a : Action) : Prop := s.leavesPaused a = true

/-- The invariant. -/
structure Served (s : System) : Prop where
  served : ∀ (S : SessionId) (state : SessionState), s.disp.status S = some state →
    attended state = true → Queueing s S ∨ HasWorker s S
  closed : s.disp.schedulerReturned = true → s.disp.accepting = false

theorem settles_not_attended {state : SessionState} (h : settles state = true) :
    attended state = false := by
  revert h
  cases state <;> decide

/-! ## Workers

A worker that has yet to settle its session serves it, and when it settles it the
session is in a state in which nobody has to. -/

section
variable {s : System} {d : Dispatcher} {w : WorkerId} {thread : Worker} {pc : WorkerPc}

theorem hasWorker_advance_self (hw : s.threads[w]? = some thread) (ha : pc.active = true) :
    HasWorker (s.advance d w thread pc) thread.session := by
  refine ⟨w, { thread with pc := pc }, ?_, rfl, ha⟩
  simp [System.advance, (List.getElem?_eq_some_iff.mp hw).1]

/-- A session keeps its worker when another thread moves. -/
theorem hasWorker_advance (hw : s.threads[w]? = some thread) {T : SessionId}
    (h : HasWorker s T) (hT : T = thread.session → thread.pc.active = false) :
    HasWorker (s.advance d w thread pc) T := by
  obtain ⟨w', thread', hw', hS, ha⟩ := h
  have hne : w' ≠ w := by
    rintro rfl
    obtain rfl : thread = thread' := Option.some.inj (hw.symm.trans hw')
    exact absurd ha (by simp [hT hS.symm])
  refine ⟨w', thread', ?_, hS, ha⟩
  rw [System.advance, List.getElem?_set_ne (Ne.symm hne)]
  exact hw'

/-- Only `_worker_done` queues a session. -/
theorem Dispatcher.WorkerMove.queue_step {S : SessionId} {pc₀ : WorkerPc} {d₀ : Dispatcher}
    (h : WorkerMove d₀ w S pc₀ d pc) :
    d.pending = d₀.pending ∨ pc₀ = .workerDone ∧ d₀.status S = some .paused ∧
      (d₀.controls S).cancel = true ∧ d.pending = d₀.pending ++ [S] := by
  cases h with
  | doneCanceling hr hst hcan => exact Or.inr ⟨rfl, hst ▸ status_of_record hr, hcan, rfl⟩
  | _ => exact Or.inl rfl

theorem Dispatcher.WorkerMove.accepting_eq {S : SessionId} {pc₀ : WorkerPc} {d₀ : Dispatcher}
    (h : WorkerMove d₀ w S pc₀ d pc) : d.accepting = d₀.accepting := by
  cases h <;> rfl

theorem Served.worker (h : Served s) (hL : Lifecycle s) (hw : s.threads[w]? = some thread)
    (hm : WorkerMove s.disp w thread.session thread.pc d pc)
    (hguard : thread.pc = .workerDone → s.disp.status thread.session = some .paused →
      (s.disp.controls thread.session).cancel = true → s.disp.schedulerReturned = false) :
    Served (s.advance d w thread pc) := by
  have queueing : ∀ {T : SessionId}, Queueing s T → Queueing (s.advance d w thread pc) T := by
    intro T hq
    refine ⟨?_, hm.schedulerReturned_eq.trans hq.2⟩
    show T ∈ d.pending
    rcases hm.queue_step with heq | ⟨-, -, -, heq⟩ <;> rw [heq]
    · exact hq.1
    · exact List.mem_append_left _ hq.1
  refine ⟨fun T state hst hatt => ?_, fun hret => ?_⟩
  · by_cases hT : T = thread.session
    · subst hT
      cases ha : thread.pc.active with
      | false =>
          rcases (hm.leaving_step ha).record with ⟨-, hsame⟩ | ⟨hpend, hpaused, -, hcan⟩
          · have hst' : s.disp.status thread.session = some state := hsame ▸ hst
            exact (h.served _ state hst' hatt).imp queueing
              (fun hworker => hasWorker_advance hw hworker (fun _ => ha))
          · -- a late `_worker_done` queues the session it paused
            refine Or.inl ⟨?_, ?_⟩
            · show thread.session ∈ d.pending
              rw [hpend]
              exact List.mem_append_right _ (List.mem_singleton.mpr rfl)
            · refine hm.schedulerReturned_eq.trans (hguard ?_ hpaused hcan)
              rcases hm.queue_step with heq | ⟨hdone, -⟩
              · exact absurd (heq.symm.trans hpend) (by simp)
              · exact hdone
      | true =>
          rcases (hL.session _).working w thread hw rfl ha with ⟨old, hold, hfit⟩ | ⟨hover, hstale⟩
          · obtain ⟨r, hr, rfl⟩ := status_eq_some.mp hold
            obtain ⟨-, hflags, hitems⟩ := (hL.session _).record r.state hold
            have hlive := attended_not_terminal hfit.attended
            obtain ⟨r', hr', -, ⟨hfit', -⟩ | ⟨hsettles, -⟩⟩ :=
              (hm.active_step hr hfit hflags (hitems hlive)).record
            · exact Or.inr (hasWorker_advance_self hw hfit'.active)
            · obtain rfl : r'.state = state :=
                Option.some.inj ((status_of_record hr').symm.trans hst)
              exact absurd hatt (by simp [settles_not_attended hsettles])
          · -- the session is over, and a stale worker leaves it so
            have hterm : ∀ r, s.disp.records.get? thread.session = some r →
                r.state.isTerminal = true :=
              fun r hr => hover r.state (by simp [status_of_record hr])
            obtain ⟨-, -, hrec, -⟩ := hm.stale_step hterm hstale
            have hst' : s.disp.status thread.session = some state := by
              simpa only [status, System.advance, hrec] using hst
            exact absurd (hst' ▸ hover) (not_over (attended_not_terminal hatt))
    · have hst' : s.disp.status T = some state :=
        (hm.status_ne hT).symm.trans hst
      exact (h.served T state hst' hatt).imp queueing
        (fun hworker => hasWorker_advance hw hworker (fun heq => absurd heq hT))
  · exact hm.accepting_eq.trans (h.closed (hm.schedulerReturned_eq.symm.trans hret))

/-! ## Callers and the scheduler

A call that queues a session needs a scheduler that is still there; this is the
condition. -/

/-- A step of a caller, seen from a session that keeps its state. -/
theorem Served.same {t : System} (h : Served s) (hthreads : t.threads = s.threads)
    {T : SessionId} {state : SessionState} (hst : s.disp.status T = some state)
    (hatt : attended state = true) (hpend : T ∈ s.disp.pending → T ∈ t.disp.pending)
    (hreturned : t.disp.schedulerReturned = s.disp.schedulerReturned) :
    Queueing t T ∨ HasWorker t T := by
  refine (h.served T state hst hatt).imp (fun hq => ?_) (fun hworker => ?_)
  · exact ⟨hpend hq.1, hreturned.trans hq.2⟩
  · obtain ⟨w, thread, hw, hrest⟩ := hworker
    exact ⟨w, thread, hthreads ▸ hw, hrest⟩

end

theorem Dispatcher.CallMove.accepting_eq {d d' : Dispatcher} {c : Call} {client : Client}
    (h : CallMove d c d' client) : d'.accepting = d.accepting := by
  cases h <;> rfl

theorem Served.call {s : System} {c : Call} {d : Dispatcher} {client : Client} (h : Served s)
    (hL : Lifecycle s) (hm : CallMove s.disp c d client)
    (hguard : ∀ S, c = .resume S ∨ c = .cancel S → s.disp.status S = some .paused →
      s.disp.schedulerReturned = false) :
    Served (s.calls d client) := by
  refine ⟨fun T state hst hatt => ?_, fun hret => ?_⟩
  · -- a session whose state the call leaves alone
    have others : ∀ {S : SessionId} {r : SessionRecord} {moved : SessionState} {e : Dispatcher},
        T ≠ S → e.records = s.disp.records → (e.moved S r moved).status T = some state →
          s.disp.status T = some state := by
      intro S r moved e hT hrec hmoved
      rw [status_moved_ne _ _ _ hT] at hmoved
      simpa only [status, hrec] using hmoved
    cases hm with
    | submit | cancelPausing | close => exact h.same (t := s.calls _ _) rfl hst hatt id rfl
    | @pause S r hr hrun =>
        by_cases hT : T = S
        · subst hT
          exact h.same (t := s.calls _ _) rfl (hrun ▸ status_of_record hr) rfl id rfl
        · exact h.same (t := s.calls _ _) rfl (others (e := s.disp.setControl _ _) hT rfl hst) hatt
            id rfl
    | @resume S r hr hpaused =>
        by_cases hT : T = S
        · subst hT
          have hstate : s.disp.status T = some .paused := by
            rcases hpaused with hp | hi
            · exact hp ▸ status_of_record hr
            · exact absurd (hi ▸ status_of_record hr) (hL.not_interrupted T)
          refine Or.inl ⟨?_, hguard T (Or.inl rfl) hstate⟩
          exact List.mem_append_right _ (List.mem_singleton.mpr rfl)
        · exact h.same (t := s.calls _ _) rfl (others (e := s.disp.setControl _ _) hT rfl hst) hatt
            (List.mem_append_left _) rfl
    | @cancel S r hr hlive hnc hnp =>
        have hpend : ∀ {X : SessionId}, X ∈ s.disp.pending →
            X ∈ (if cancelQueues r.state ∧ S ∉ s.disp.pending then s.disp.pending ++ [S]
              else s.disp.pending) := by
          intro X hX
          split
          · exact List.mem_append_left _ hX
          · exact hX
        by_cases hT : T = S
        · subst hT
          cases hatt' : attended r.state with
          | true => exact h.same (t := s.calls _ _) rfl (status_of_record hr) hatt' hpend rfl
          | false =>
              have hstate : s.disp.status T = some .paused := by
                have hni := hL.not_interrupted T
                rw [status_of_record hr] at hni ⊢
                revert hlive hatt' hni
                cases r.state <;> decide
              refine Or.inl ⟨?_, hguard T (Or.inr rfl) hstate⟩
              have hqueues : cancelQueues r.state = true := by
                rw [Option.some.inj ((status_of_record hr).symm.trans hstate)]
                rfl
              show T ∈ (if cancelQueues r.state ∧ T ∉ s.disp.pending then s.disp.pending ++ [T]
                else s.disp.pending)
              split
              · exact List.mem_append_right _ (List.mem_singleton.mpr rfl)
              · next hq => exact not_not.mp (fun hnot => hq ⟨hqueues, hnot⟩)
        · exact h.same (t := s.calls _ _) rfl (others (e := s.disp.setControl _ _) hT rfl hst) hatt
            hpend rfl
  · exact hm.accepting_eq.trans (h.closed (hm.workers_eq.2.symm.trans hret))

theorem Served.client {s : System} {i : Nat} {client client' : Client} {d : Dispatcher}
    (h : Served s) (hm : ClientMove s.disp client d client') :
    Served { s with disp := d, clients := s.clients.set i client' } := by
  cases hm with
  | prepareFailed | prepared | registerFailed | emitPending | admitDone | announce =>
      exact ⟨fun T state hst hatt => h.same rfl hst hatt id rfl, h.closed⟩
  | @registered kind p prepared order createdAt hacc =>
      refine ⟨fun T state hst hatt => ?_, h.closed⟩
      by_cases hT : T = s.disp.nextSession
      · subst hT
        refine Or.inl ⟨List.mem_append_right _ (List.mem_singleton.mpr rfl), ?_⟩
        by_contra hret
        exact absurd (h.closed (by simpa using hret)) (by simp [hacc])
      · have hst' : s.disp.status T = some state := by
          simpa [status, Dict.get?_set_ne _ _ hT] using hst
        exact h.same (t := { s with disp := s.disp.registerSession _, clients := _ }) rfl hst' hatt
          (List.mem_append_left _) rfl
  | @closePop S =>
      refine ⟨fun T state hst hatt => ?_, h.closed⟩
      have hT : T ≠ S := by
        rintro rfl
        exact absurd hst (by simp [status])
      exact h.same rfl (by simpa [status, Dict.get?_pop_ne _ hT] using hst) hatt id rfl

theorem HasWorker.launch {s : System} {d : Dispatcher} {launches : List (SessionId × Bool)}
    {T : SessionId} (h : HasWorker s T) : HasWorker (s.launch d launches) T := by
  obtain ⟨w, thread, hw, hrest⟩ := h
  exact ⟨w, thread, launch_old hw, hrest⟩

/-- A pass launches a worker for each session it takes that has a record. -/
theorem launched_hasWorker {s : System} {d : Dispatcher} {T : SessionId}
    (hT : T ∈ s.disp.pass.selected.map (·.1)) (hr : (s.disp.records.get? T).isSome = true) :
    HasWorker (s.launch d s.disp.launchable) T := by
  obtain ⟨e, he, rfl⟩ := List.mem_map.mp hT
  have hmem : e ∈ s.disp.launchable := List.mem_filter.mpr ⟨he, hr⟩
  obtain ⟨i, hi⟩ := List.getElem?_of_mem hmem
  exact ⟨_, _, launch_new hi, rfl, rfl⟩

theorem Served.schedule {s : System} {d : Dispatcher} {launches : List (SessionId × Bool)}
    (h : Served s) (hm : s.disp.schedule s.threads.length = some (d, launches)) :
    Served (s.launch d launches) := by
  obtain ⟨hopen, hreturn⟩ := schedule_open hm
  rcases schedule_cases hm with ⟨rfl, rfl⟩ | ⟨rfl, hempty, rfl⟩
  · refine ⟨fun T state hst hatt => ?_, h.closed⟩
    rcases h.served T state hst hatt with ⟨hq, -⟩ | hworker
    · by_cases hT : T ∈ s.disp.pass.selected.map (·.1)
      · obtain ⟨r, hr, -⟩ := status_eq_some.mp hst
        exact Or.inr (launched_hasWorker hT (by
          have hr' : s.disp.records.get? T = some r := hr
          simp [hr']))
      · exact Or.inl ⟨List.mem_filter.mpr ⟨hq, decide_eq_true hT⟩, hopen⟩
    · exact Or.inr hworker.launch
  · refine ⟨fun T state hst hatt => ?_, fun _ => (hreturn rfl).2⟩
    rcases h.served T state hst hatt with ⟨hq, -⟩ | hworker
    · exact absurd hq (by simp [hempty])
    · exact Or.inr hworker.launch

/-! ## Guarded runs -/

theorem Served.step {s t : System} {a : Action} (h : Served s) (hL : Lifecycle s)
    (hguard : LeavesPaused s a) (hstep : s.step a = some t) : Served t := by
  rcases System.step_cases hstep with ⟨c, d, client, rfl, hm, rfl⟩ |
    ⟨i, choice, client, d, client', -, hi, hm, rfl⟩ |
    ⟨w, choice, thread, d, pc, rfl, hw, hm, rfl⟩ | ⟨d, launches, -, hm, rfl⟩ | ⟨-, rfl⟩ | ⟨-, rfl⟩
  · refine h.call hL hm (fun S hc hst => ?_)
    rcases hc with rfl | rfl <;> simpa [LeavesPaused, System.leavesPaused, hst] using hguard
  · exact h.client hm
  · refine h.worker hL hw hm (fun hpc hst hcan => ?_)
    obtain ⟨session, admitted, pc₀⟩ := thread
    obtain rfl : pc₀ = .workerDone := hpc
    simpa [LeavesPaused, System.leavesPaused, hw, hst, hcan] using hguard
  · exact h.schedule hm
  · exact ⟨fun T state hst hatt => h.same rfl hst hatt id rfl, fun _ => rfl⟩
  · exact ⟨fun T state hst hatt => h.same rfl hst hatt id rfl, h.closed⟩

theorem Served.initial (registry : String → Option WorkflowRegistration) :
    Served (System.initial registry) where
  served S state hst := absurd hst (by simp [System.initial, status])
  closed hret := absurd hret (by simp [System.initial])

theorem Served.reachable {registry : String → Option WorkflowRegistration} {s : System}
    (h : Transition.Run System.step LeavesPaused (System.initial registry) s) : Served s :=
  (h.invariant (I := fun s => Lifecycle s ∧ Served s)
    (fun _ _ _ hI hP hstep => ⟨hI.1.step hstep, hI.2.step hI.1 hP hstep⟩)
    ⟨Lifecycle.initial registry, Served.initial registry⟩).2

/-- Along every run in which no session leaves `PAUSED` after the scheduler
has returned, no session is stranded. -/
theorem none_stranded {registry : String → Option WorkflowRegistration} {s : System}
    (h : Transition.Run System.step LeavesPaused (System.initial registry) s) :
    NoneStranded s := by
  intro S state hst hstate
  refine (Served.reachable h).served S state hst ?_
  rcases hstate with rfl | rfl <;> rfl

/-- A paused session is canceled before the scheduler sees that the
dispatcher has stopped accepting. -/
def servedSystem : System :=
  Transition.outcome System.step System.leavesPaused (System.initial pausableRegistry)
    (pausedRun ++ Script.blocks 0 3 ++ [.stopAccepting] ++ Script.control 2 (.cancel 0))

theorem none_stranded_served :
    (servedSystem.disp.status 0 = some .canceling ∧ servedSystem.disp.pending = [0]) ∧
      NoneStranded servedSystem :=
  ⟨by decide, none_stranded (Transition.outcome_run (fun _ _ h => h) _ _)⟩

/-- `shutdown` stops admission, the scheduler returns, and the cancel that
`shutdown` goes on to make queues the paused session. -/
def strandedSystem : System :=
  Transition.outcome System.step (fun _ _ => true) (System.initial pausableRegistry)
    (pausedRun ++ Script.blocks 0 3 ++ [.stopAccepting, .schedule] ++
      Script.control 2 (.cancel 0))

theorem stranded_run :
    Transition.AnyRun System.step (System.initial pausableRegistry) strandedSystem ∧
      ¬ NoneStranded strandedSystem := by
  refine ⟨Transition.outcome_run (fun _ _ _ => trivial) _ _, fun h => ?_⟩
  have hst : strandedSystem.disp.status 0 = some .canceling := by decide
  have hreturned : strandedSystem.disp.schedulerReturned = true := by decide
  have hended : strandedSystem.threads.all (fun thread => !thread.pc.active) = true := by decide
  rcases h 0 .canceling hst (Or.inr rfl) with ⟨-, hopen⟩ | ⟨w, thread, hw, -, ha⟩
  · exact absurd hreturned (by simp [hopen])
  · have hnot := List.all_eq_true.mp hended thread (List.mem_of_getElem? hw)
    exact absurd ha (by simpa using hnot)

end NamiSync
