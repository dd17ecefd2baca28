/-
# `Dispatcher.Cancel` — an accepted cancel is kept

A cancel that finds `PAUSING` only raises the flag: the worker that drains
the pause publishes `PAUSED` and consults the flag afterwards, in
`_worker_done`.  Until then a resume finds `PAUSED`, is accepted, and resets
the flag (`lost_cancel`).  In every other order the flag stays up, and with
it the cancel: `cancel_stands` is about the runs in which no resume of the
session is accepted inside that window (`SparesDrain`).

The window is the only one: a `PAUSED` session whose flag is up still has
the worker that drained it in front of `_worker_done` (`PauseDrain`).

## What is proved

    cancel_stands : once a cancel of `S` is accepted, every state of a later
      run whose steps spare the drain of `S` has `CancelStands`

that is: `S` is neither `PENDING` nor `RUNNING`, its next checkpoint raises
`Canceled`, no resume of it is accepted and no invocation of it is started
any more.  The condition is about the one session: another one may have its
pause drain interrupted at will.

## The argument

The flag can fall in one block only, the resume of a paused session
(`CallMove.cancel_step`).  `PauseDrain` says that a `PAUSED` session with its
flag up has a worker in front of `_worker_done`, and this is what the
condition forbids a resume to meet.  So along a guarded run no resume of the
session is accepted (`Flagged.no_resume`), and the flag stays.
-/
import NamiSync.Dispatcher.Lifecycle

namespace NamiSync

open SessionState Dispatcher

/-- The worker has not yet gone through `_worker_done`. -/
def WorkerPc.drains : WorkerPc → Bool
  | .announceCanceling _ | .ended => false
  | _ => true

/-- Some worker of the session has not yet gone through `_worker_done`. -/
def System.draining (s : System) (S : SessionId) : Bool :=
  s.threads.any (fun thread => thread.session = S && thread.pc.drains)

/-- The step is not a resume of the session while it was canceled during a
pause drain and its worker has not yet consulted the flag. -/
def System.sparesDrain (s : System) (S : SessionId) : Action → Bool
  | .call (.resume session) =>
      session ≠ S || !((s.disp.controls S).cancel && s.draining S)
  | _ => true

def SparesDrain (S : SessionId) (s : System) (a : Action) : Prop := s.sparesDrain S a = true

/-! ## The window after a pause

From the block that publishes `PAUSED` to the one that consults the flag. -/

theorem draining_iff {s : System} {S : SessionId} :
    s.draining S = true ↔ ∃ (w : WorkerId) (thread : Worker), s.threads[w]? = some thread ∧
      thread.session = S ∧ thread.pc.drains = true := by
  simp only [System.draining, List.any_eq_true, Bool.and_eq_true, decide_eq_true_eq]
  constructor
  · rintro ⟨thread, hmem, hS, hd⟩
    obtain ⟨w, hw⟩ := List.mem_iff_getElem?.mp hmem
    exact ⟨w, thread, hw, hS, hd⟩
  · rintro ⟨w, thread, hw, hS, hd⟩
    exact ⟨thread, List.mem_of_getElem? hw, hS, hd⟩

namespace Dispatcher

variable {d d' : Dispatcher} {w : WorkerId} {S T : SessionId} {pc pc' : WorkerPc}

/-- Only a worker publishes `PAUSED`. -/
theorem CallMove.paused_step {c : Call} {client : Client} (h : CallMove d c d' client)
    (hst : d'.status T = some .paused) :
    d.status T = some .paused ∧ d'.controls T = d.controls T := by
  have moved : ∀ {S : SessionId} {r : SessionRecord} {state : SessionState} {control : Control},
      state ≠ .paused → ((d.setControl S control).moved S r state).status T = some .paused →
        d.status T = some .paused ∧ ((d.setControl S control).moved S r state).controls T =
          d.controls T := by
    intro S r state control hne hst
    by_cases hT : T = S
    · subst hT
      rw [status_moved_self] at hst
      exact absurd (Option.some.inj hst) hne
    · rw [status_moved_ne _ _ _ hT] at hst
      exact ⟨hst, by simp [hT]⟩
  cases h with
  | submit | close => exact ⟨hst, rfl⟩
  | pause | resume | cancel => exact moved (by decide) hst
  | @cancelPausing S r hr hpausing =>
      refine ⟨hst, ?_⟩
      by_cases hT : T = S
      · subst hT
        have hst' : d.status T = some .paused := hst
        rw [status_of_record hr, hpausing] at hst'
        exact absurd hst' (by decide)
      · simp [hT]

theorem ClientMove.paused_step {client client' : Client} (h : ClientMove d client d' client')
    (hst : d'.status T = some .paused) :
    d.status T = some .paused ∧ d'.controls T = d.controls T := by
  cases h with
  | prepareFailed | prepared | registerFailed | emitPending | admitDone | announce =>
      exact ⟨hst, rfl⟩
  | registered =>
      by_cases hT : T = d.nextSession
      · subst hT
        exact absurd hst (by simp [status, newRecord])
      · simp only [status, registerSession_records, Dict.get?_set_ne _ _ hT] at hst
        exact ⟨hst, by simp [hT]⟩
  | @closePop S =>
      by_cases hT : T = S
      · subst hT
        exact absurd hst (by simp [status])
      · simp only [status, closePop_records, Dict.get?_pop_ne _ hT] at hst
        exact ⟨hst, rfl⟩

/-- The worker that publishes `PAUSED` still has `_worker_done` to go
through. -/
theorem WorkerMove.paused_step (h : WorkerMove d w S pc d' pc')
    (hst : d'.status S = some .paused) : d.status S = some .paused ∨ pc'.drains = true := by
  cases h with
  | doneCanceling => exact absurd hst (by simp [status])
  | done | announceCanceling => exact Or.inl hst
  | @settleEmit state result => cases result <;> exact Or.inr rfl
  | _ => exact Or.inr rfl

/-- `_worker_done` leaves no `PAUSED` session with the cancel flag up. -/
theorem WorkerMove.drains_step (h : WorkerMove d w S pc d' pc') (hd : pc.drains = true) :
    pc'.drains = true ∨ (d'.status S = some .paused → (d.controls S).cancel = false) := by
  cases h with
  | done hnone =>
      refine Or.inr (fun hst => ?_)
      obtain ⟨r, hr, hp⟩ := status_eq_some.mp hst
      exact hnone r hr hp
  | doneCanceling => exact Or.inr (fun hst => absurd hst (by simp [status]))
  | announceCanceling => exact absurd hd Bool.false_ne_true
  | @settleEmit state result => cases result <;> exact Or.inl rfl
  | _ => exact Or.inl rfl

theorem WorkerMove.status_ne (h : WorkerMove d w S pc d' pc') (hT : T ≠ S) :
    d'.status T = d.status T :=
  congrArg (Option.map SessionRecord.state) (h.records_ne hT)

end Dispatcher

/-- A `PAUSED` session with its cancel flag up is about to be canceled by the
worker that drained it. -/
def PauseDrain (s : System) : Prop :=
  ∀ S, s.disp.status S = some .paused → (s.disp.controls S).cancel = true →
    s.draining S = true

theorem PauseDrain.step {s t : System} {a : Action} (h : PauseDrain s)
    (hstep : s.step a = some t) : PauseDrain t := by
  intro S hst hcan
  rcases System.step_cases hstep with ⟨c, d, client, -, hm, rfl⟩ |
    ⟨i, choice, client, d, client', -, hi, hm, rfl⟩ |
    ⟨w, choice, thread, d, pc, -, hw, hm, rfl⟩ | ⟨d, launches, -, hm, rfl⟩ | ⟨-, rfl⟩ | ⟨-, rfl⟩
  · obtain ⟨hst', hctl⟩ := hm.paused_step hst
    exact h S hst' (hctl ▸ hcan)
  · obtain ⟨hst', hctl⟩ := hm.paused_step hst
    exact h S hst' (hctl ▸ hcan)
  · have hcan' : (s.disp.controls S).cancel = true := hm.controls_eq ▸ hcan
    have hlt := (List.getElem?_eq_some_iff.mp hw).1
    have own : thread.session = S → pc.drains = true →
        (s.advance d w thread pc).draining S = true := fun hS hd =>
      draining_iff.mpr ⟨w, { thread with pc := pc }, by simp [System.advance, hlt], hS, hd⟩
    have before : s.disp.status S = some .paused → (s.advance d w thread pc).draining S = true := by
      intro hst'
      obtain ⟨w', thread', hw', hS', hd'⟩ := draining_iff.mp (h S hst' hcan')
      by_cases hww : w' = w
      · subst hww
        obtain rfl : thread = thread' := Option.some.inj (hw.symm.trans hw')
        rcases hm.drains_step hd' with hd | hno
        · exact own hS' hd
        · exact absurd hcan' (by rw [← hS', hno (hS' ▸ hst)]; decide)
      · refine draining_iff.mpr ⟨w', thread', ?_, hS', hd'⟩
        simpa [System.advance, List.getElem?_set_ne (Ne.symm hww)] using hw'
    by_cases hS : thread.session = S
    · rcases hm.paused_step (hS ▸ hst) with hold | hd
      · exact before (hS ▸ hold)
      · exact own hS hd
    · exact before ((hm.status_ne (Ne.symm hS)).symm.trans hst)
  · have hst' : s.disp.status S = some .paused := by
      rcases schedule_cases hm with ⟨-, rfl⟩ | ⟨-, -, rfl⟩ <;> exact hst
    have hcan' : (s.disp.controls S).cancel = true := by
      rcases schedule_cases hm with ⟨-, rfl⟩ | ⟨-, -, rfl⟩ <;> exact hcan
    have hd := h S hst' hcan'
    simp only [System.draining, List.any_append, Bool.or_eq_true] at hd ⊢
    exact Or.inl hd
  · exact h S hst hcan
  · exact h S hst hcan

theorem PauseDrain.reachable {registry : String → Option WorkflowRegistration} {s : System}
    (h : Transition.AnyRun System.step (System.initial registry) s) : PauseDrain s := by
  refine h.invariant (I := PauseDrain) (fun _ _ _ hI _ hstep => hI.step hstep) ?_
  intro S hst
  exact absurd hst (by simp [System.initial, status])

/-! ## The flag stays up

`Flagged` is the state of the session from the accepted cancel on, in one
predicate that every spared step keeps. -/

/-- What an accepted cancel of a session promises of a later state. -/
structure CancelStands (s : System) (S : SessionId) : Prop where
  state : s.disp.status S ≠ some .running ∧ s.disp.status S ≠ some .pending
  checkpoint : (s.disp.controls S).checkpoint = some .canceled
  /-- No resume is accepted any more. -/
  resume : ∀ a t, SparesDrain S s a → s.step a = some t → a ≠ .call (.resume S)
  /-- No invocation is started any more. -/
  start : ∀ a t, s.step a = some t → ∀ (w : WorkerId) (before after : Worker),
    s.threads[w]? = some before → t.threads[w]? = some after → before.session = S →
      after.pc.inRun = true → before.pc.inRun = true

/-- The invariant behind it: the flag is up, the session registered. -/
structure Flagged (S : SessionId) (s : System) : Prop where
  lifecycle : Lifecycle s
  drain : PauseDrain s
  known : S < s.disp.nextSession
  flag : (s.disp.controls S).cancel = true

/-- No session is ever `INTERRUPTED`. -/
theorem Lifecycle.not_interrupted {s : System} (h : Lifecycle s) (S : SessionId) :
    s.disp.status S ≠ some .interrupted :=
  fun hst => ((h.session S).record .interrupted hst).2.1

/-- Inside the window a resume is accepted; outside it finds no `PAUSED`. -/
theorem Flagged.no_resume {S : SessionId} {s t : System} (h : Flagged S s)
    (hspare : SparesDrain S s (.call (.resume S))) : s.step (.call (.resume S)) ≠ some t := by
  intro hstep
  have hstate : s.disp.status S = some .paused ∨ s.disp.status S = some .interrupted := by
    rcases System.step_cases hstep with ⟨c, d, client, hc, hm, -⟩ |
      ⟨i, choice, client, d, client', ha, -⟩ | ⟨w, choice, thread, d, pc, ha, -⟩ |
      ⟨d, launches, ha, -⟩ | ⟨ha, -⟩ | ⟨ha, -⟩
    · obtain rfl := Action.call.inj hc
      cases hm with
      | resume hr hst =>
          rw [status_of_record hr]
          exact hst.imp (congrArg some) (congrArg some)
    all_goals exact absurd ha (by simp)
  rcases hstate with hp | hi
  · have hd := h.drain S hp h.flag
    exact absurd hspare (by simp [SparesDrain, System.sparesDrain, h.flag, hd])
  · exact h.lifecycle.not_interrupted S hi

theorem Flagged.step {S : SessionId} {s t : System} {a : Action} (h : Flagged S s)
    (hspare : SparesDrain S s a) (hstep : s.step a = some t) : Flagged S t := by
  have hflag : s.disp.nextSession ≤ t.disp.nextSession ∧
      (t.disp.controls S).cancel = true := by
    rcases System.step_cases hstep with ⟨c, d, client, rfl, hm, rfl⟩ |
      ⟨i, choice, client, d, client', -, hi, hm, rfl⟩ |
      ⟨w, choice, thread, d, pc, -, hw, hm, rfl⟩ | ⟨d, launches, -, hm, rfl⟩ | ⟨-, rfl⟩ | ⟨-, rfl⟩
    · refine ⟨by cases hm <;> exact Nat.le_refl _, ?_⟩
      rcases hm.cancel_step h.flag with hcan | ⟨rfl, -⟩
      · exact hcan
      · exact absurd hstep (h.no_resume hspare)
    · cases hm with
      | registered =>
          refine ⟨Nat.le_succ _, ?_⟩
          simpa [Nat.ne_of_lt h.known] using h.flag
      | _ => exact ⟨Nat.le_refl _, h.flag⟩
    · exact ⟨le_of_eq hm.nextSession_eq.symm, hm.controls_eq ▸ h.flag⟩
    · rcases schedule_cases hm with ⟨-, rfl⟩ | ⟨-, -, rfl⟩ <;> exact ⟨Nat.le_refl _, h.flag⟩
    · exact ⟨Nat.le_refl _, h.flag⟩
    · exact ⟨Nat.le_refl _, h.flag⟩
  exact ⟨h.lifecycle.step hstep, h.drain.step hstep, h.known.trans_le hflag.1, hflag.2⟩

theorem Flagged.stands {S : SessionId} {s : System} (h : Flagged S s) : CancelStands s S where
  state := by
    constructor <;> intro hst
    · have hf := ((h.lifecycle.session S).record _ hst).2.1.clear (Or.inr rfl)
      exact absurd h.flag (by simp [hf])
    · have hf := ((h.lifecycle.session S).record _ hst).2.1.clear (Or.inl rfl)
      exact absurd h.flag (by simp [hf])
  checkpoint := Control.checkpoint_eq_canceled.mpr h.flag
  resume a t hspare hstep ha := by
    subst ha
    exact h.no_resume hspare hstep
  start a t hstep w before after hb haft hS hrun := by
    rcases System.step_cases hstep with ⟨c, d, client, -, hm, rfl⟩ |
      ⟨i, choice, client, d, client', -, hi, hm, rfl⟩ |
      ⟨w', choice, thread, d, pc, -, hw, hm, rfl⟩ | ⟨d, launches, -, hm, rfl⟩ | ⟨-, rfl⟩ | ⟨-, rfl⟩
    case inr.inr.inl =>
      rcases advance_threads haft with ⟨rfl, rfl⟩ | ⟨-, hold⟩
      · obtain rfl : before = thread := Option.some.inj (hb.symm.trans hw)
        rcases hm.inRun_step hrun with hr | hno
        · exact hr
        · exact absurd h.flag (by rw [← hS, hno]; decide)
      · exact Option.some.inj (hb.symm.trans hold) ▸ hrun
    case inr.inr.inr.inl =>
      rcases launch_threads haft with hold | ⟨-, e, -, rfl⟩
      · exact Option.some.inj (hb.symm.trans hold) ▸ hrun
      · exact absurd hrun Bool.false_ne_true
    all_goals exact Option.some.inj (hb.symm.trans haft) ▸ hrun

/-- The block of `cancel` that returns `ACCEPTED` raises the flag. -/
theorem cancel_flags {s t : System} {S : SessionId} (h : Lifecycle s)
    (hstep : s.step (.call (.cancel S)) = some t) :
    S < t.disp.nextSession ∧ (t.disp.controls S).cancel = true := by
  rcases System.step_cases hstep with ⟨c, d, client, hc, hm, rfl⟩ |
    ⟨i, choice, client, d, client', ha, -⟩ | ⟨w, choice, thread, d, pc, ha, -⟩ |
    ⟨d, launches, ha, -⟩ | ⟨ha, -⟩ | ⟨ha, -⟩
  · obtain rfl := Action.call.inj hc
    cases hm with
    | cancelPausing hr =>
        exact ⟨((h.session S).record _ (status_of_record hr)).1, by simp [Control.requestCancel]⟩
    | cancel hr =>
        exact ⟨((h.session S).record _ (status_of_record hr)).1, by simp [Control.requestCancel]⟩
  all_goals exact absurd ha (by simp)

/-- An accepted cancel stands, along every run in which no resume of the
session is accepted between the `PAUSED` of a canceled drain and its
`_worker_done`. -/
theorem cancel_stands {registry : String → Option WorkflowRegistration} {S : SessionId}
    {s accepted t : System} (h : Transition.AnyRun System.step (System.initial registry) s)
    (hcancel : s.step (.call (.cancel S)) = some accepted)
    (hrun : Transition.Run System.step (SparesDrain S) accepted t) : CancelStands t S := by
  have hL := Lifecycle.reachable h
  obtain ⟨hknown, hflag⟩ := cancel_flags hL hcancel
  have hstart : Flagged S accepted :=
    ⟨hL.step hcancel, (PauseDrain.reachable h).step hcancel, hknown, hflag⟩
  exact (hrun.invariant (I := Flagged S) (fun _ _ _ hI hP hst => hI.step hP hst) hstart).stands

/-- A session in its pause drain. -/
def pausingSystem : System :=
  Transition.outcome System.step (fun _ _ => true)
    (System.initial fun _ => some { supportsPause := true })
    (Script.submit 0 "sync" ∅ ++ [.schedule] ++ Script.enterRun 0 ++ Script.control 1 (.pause 0))

/-- It accepts a cancel. -/
def drainCanceled : System := (pausingSystem.step (.call (.cancel 0))).getD pausingSystem

theorem drain_accepts_cancel :
    pausingSystem.step (.call (.cancel 0)) = some drainCanceled := by
  have hsome : (pausingSystem.step (.call (.cancel 0))).isSome = true := by decide
  obtain ⟨accepted, haccepted⟩ := Option.isSome_iff_exists.mp hsome
  rw [drainCanceled, haccepted, Option.getD_some]

/-- The worker publishes `PAUSED`, and then the cancel in `_worker_done`. -/
def drainFinished : System :=
  Transition.outcome System.step (fun s => s.sparesDrain 0) drainCanceled
    (Script.settlePaused 0 ++ Script.blocks 0 4)

theorem cancel_stands_drained :
    drainFinished.disp.status 0 = some .canceling ∧ CancelStands drainFinished 0 :=
  ⟨by decide,
    cancel_stands (Transition.outcome_run (fun _ _ _ => trivial) _ _) drain_accepts_cancel
      (Transition.outcome_run (fun _ _ h => h) drainCanceled _)⟩

/-- A resume comes in between; the session runs again. -/
def lostCancel : System :=
  Transition.outcome System.step (fun _ _ => true) drainCanceled
    (Script.settlePaused 0 ++ Script.control 3 (.resume 0) ++ [.schedule] ++ Script.enterRun 1)

theorem lost_cancel :
    ∃ s accepted t, Transition.AnyRun System.step
        (System.initial fun _ => some { supportsPause := true }) s ∧
      s.step (.call (.cancel 0)) = some accepted ∧ Transition.AnyRun System.step accepted t ∧
        t.disp.status 0 = some .running ∧ (t.disp.controls 0).checkpoint = none ∧
          t.threads.map (·.pc.inRun) = [false, true] ∧ ¬ CancelStands t 0 := by
  have hst : lostCancel.disp.status 0 = some .running := by decide
  refine ⟨pausingSystem, drainCanceled, lostCancel,
    Transition.outcome_run (fun _ _ _ => trivial) _ _, drain_accepts_cancel,
    Transition.outcome_run (fun _ _ _ => trivial) drainCanceled _, hst, by decide, by decide,
    fun hstands => hstands.state.1 hst⟩

end NamiSync
