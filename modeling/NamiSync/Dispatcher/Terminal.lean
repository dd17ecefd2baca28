/-
# `Dispatcher.Terminal` — one conclusion for each session

A session concludes in four blocks of one worker: the settling transition,
the audit finalization, the publication of the result, the emit of
`Terminal`.  Control calls, other workers of the session and a close come in
between.  The trace of these four milestones is an initial part of one
conclusion (`Concludes.order`), whatever the history of pauses, resumes and
failures before it; the record and the hub show what the trace says.

The worker that has taken the settling transition carries the trace so far in
its program counter (`Carries`), so nobody else can extend it.

## What is proved

    concludes_once : a run of the dispatcher that reaches the milestones `tr`
      of session `S` ends in a state with `ConcludesOnce S tr`

with no condition on the run.  So a session has one settling transition, one
finalization, one published result and one `Terminal`, in this order, and the
four agree on the result.

## What it is not

That a session does conclude.  A workflow may never return, and the trace may
stop anywhere (`Concludes.order` says an initial part).  The case of two
active workers, which `Dispatcher.Lifecycle` allows for a canceled session,
is covered: the second is stale and reaches no milestone.
-/
import NamiSync.Dispatcher.Custody

namespace NamiSync

open SessionState Dispatcher

inductive Milestone
  | settled (state : SessionState)
  | audited (result : OperationResult) (audit : RecordingStatus)
  | published (result : OperationResult)
  | announced (result : OperationResult)
  deriving DecidableEq

/-- The conclusion of a session whose runner settled with `result` and whose
audit finalization came out as `audit`. -/
def conclusion (result : OperationResult) (audit : RecordingStatus) : List Milestone :=
  [.settled result.status, .audited result audit, .published (result.withAudit audit),
    .announced (result.withAudit audit)]

/-- The result a `Terminal` milestone announces. -/
def Milestone.terminal : Milestone → Option OperationResult
  | announced result => some result
  | _ => none

/-- The result a `Terminal` body carries. -/
def EventBody.concluded : EventBody → Option OperationResult
  | .terminal result => some result
  | _ => none

/-- The milestones a worker's block reaches: it makes the record terminal,
finalizes the audit, publishes the result, emits `Terminal`. -/
def Dispatcher.milestones (d : Dispatcher) (session : SessionId) :
    WorkerPc → WorkerChoice → List Milestone
  | .settleTransition state _, .go =>
      if state.isTerminal ∧ (d.transitionLocked session state).isSome then [.settled state] else []
  | .finalize result, .audited audit => [.audited result audit]
  | .publish result, .go =>
      if ((d.records.get? session).bind (fun record => record.withResult result)).isSome then
        [.published result]
      else []
  | .emitTerminal result, .go => [.announced result]
  | _, _ => []

/-- The milestones of session `S` that a step reaches. -/
def System.milestones (S : SessionId) (s : System) : Action → List Milestone
  | .worker w choice =>
      match s.threads[w]? with
      | some thread =>
          if thread.session = S then s.disp.milestones S thread.pc choice else []
      | none => []
  | _ => []

/-- A run, with the milestones session `S` reaches along it. -/
abbrev MilestoneRun (S : SessionId) : System → List Milestone → System → Prop :=
  Transition.Traced System.step (System.milestones S)

/-- What is claimed of a session after a run with trace `tr`. -/
structure ConcludesOnce (s : System) (S : SessionId) (tr : List Milestone) : Prop where
  /-- The milestones come once each, in order, with one result. -/
  order : ∃ result audit, tr <+: conclusion result audit
  /-- A terminal record is one that was settled in that state. -/
  settled : ∀ state, s.disp.status S = some state → state.isTerminal = true →
    .settled state ∈ tr
  /-- Until it is closed, the record keeps the first terminal state it got. -/
  kept : ∀ state, .settled state ∈ tr →
    s.disp.status S = some state ∨ s.disp.status S = none
  /-- The record has the published result, and none before. -/
  result : ∀ r result, s.disp.records.get? S = some r →
    (r.result = some result ↔ .published result ∈ tr)
  /-- The hub has emitted the `Terminal` events of the trace. -/
  terminals : (s.disp.hubs S).filterMap EventBody.concluded = tr.filterMap Milestone.terminal

/-! ## The invariant

`Concludes` adds to the claim where a conclusion stands.  There is no milestone
as long as the session is live; from the block that settles it to the one that
emits `Terminal` the worker carries the result, and the place in its program
says which milestones there are. -/

/-- `_settle` was asked for the status of the result it was given. -/
def AfterSame : After → Prop
  | .settle state (some result) => result.status = state
  | _ => True

def PcSame : WorkerPc → Prop
  | .releasePop after | .releaseLease _ _ after | .releaseReserved _ after => AfterSame after
  | .settleTransition state (some result) => result.status = state
  | _ => True

/-- The worker has concluded the session up to here. -/
def Carries (tr : List Milestone) : WorkerPc → Prop
  | .settleEmit state (some result) _ => result.status = state ∧ tr = [.settled state]
  | .finalize result => tr = [.settled result.status]
  | .publish result => ∃ settled audit, result = settled.withAudit audit ∧
      tr = [.settled settled.status, .audited settled audit]
  | .emitTerminal result => ∃ settled audit, result = settled.withAudit audit ∧
      tr = [.settled settled.status, .audited settled audit, .published result]
  | _ => True

/-- The worker carries a conclusion it has not finished. -/
def WorkerPc.carrying : WorkerPc → Bool
  | .settleEmit _ result _ => result.isSome
  | .finalize _ | .publish _ | .emitTerminal _ => true
  | _ => false

structure Concludes (S : SessionId) (s : System) (tr : List Milestone) : Prop
    extends ConcludesOnce s S tr where
  same : ∀ (w : WorkerId) (thread : Worker), s.threads[w]? = some thread →
    thread.session = S → PcSame thread.pc
  carried : ∀ (w : WorkerId) (thread : Worker), s.threads[w]? = some thread →
    thread.session = S → Carries tr thread.pc
  one : ∀ (w₁ w₂ : WorkerId) (t₁ t₂ : Worker), s.threads[w₁]? = some t₁ →
    s.threads[w₂]? = some t₂ → t₁.session = S → t₂.session = S → t₁.pc.carrying = true →
      t₂.pc.carrying = true → w₁ = w₂
  fresh : s.disp.nextSession ≤ S → tr = []

theorem Carries.ne_nil {tr : List Milestone} {pc : WorkerPc} (h : Carries tr pc)
    (hc : pc.carrying = true) : tr ≠ [] := by
  cases pc with
  | settleEmit state result position =>
      cases result with
      | none => exact absurd hc Bool.false_ne_true
      | some result => simp [h.2]
  | finalize result =>
      have htr : tr = [.settled result.status] := h
      simp [htr]
  | publish result | emitTerminal result =>
      obtain ⟨settled, audit, -, htr⟩ := h
      simp [htr]
  | _ => exact absurd hc Bool.false_ne_true

theorem Carries.of_not_carrying {tr : List Milestone} {pc : WorkerPc}
    (h : pc.carrying = false) : Carries tr pc := by
  cases pc with
  | settleEmit state result position =>
      cases result with
      | none => trivial
      | some result => exact absurd h (by simp [WorkerPc.carrying])
  | finalize | publish | emitTerminal => exact absurd h (by simp [WorkerPc.carrying])
  | _ => trivial

section
variable {s : System} {S : SessionId} {tr : List Milestone}

/-- The first milestone is the settling transition. -/
theorem ConcludesOnce.settled_mem (h : ConcludesOnce s S tr) (hne : tr ≠ []) :
    ∃ state, state.isTerminal = true ∧ .settled state ∈ tr := by
  obtain ⟨result, audit, rest, hrest⟩ := h.order
  cases tr with
  | nil => exact absurd rfl hne
  | cons first tr =>
      have hfirst : first = .settled result.status := (List.cons.inj hrest).1
      exact ⟨result.status, result.terminal, by simp [hfirst]⟩

/-- A session that is not over has no milestone yet. -/
theorem ConcludesOnce.trace_nil (h : ConcludesOnce s S tr) (hlive : ¬ Over (s.disp.status S)) :
    tr = [] := by
  by_contra hne
  obtain ⟨state, hterm, hmem⟩ := h.settled_mem hne
  refine hlive ?_
  rcases h.kept state hmem with hst | hst
  · rw [hst]
    exact fun _ hmem' => Option.some.inj hmem' ▸ hterm
  · exact hst ▸ over_none

/-- What a step that reaches no milestone of the session may do to it. -/
inductive Undisturbed (d d' : Dispatcher) (S : SessionId) : Prop
  | same : d'.status S = d.status S →
      (∀ r', d'.records.get? S = some r' →
        ∃ r, d.records.get? S = some r ∧ r.result = r'.result) →
      Undisturbed d d' S
  | moved (r' : SessionRecord) : ¬ Over (d.status S) → d'.records.get? S = some r' →
      r'.state.isTerminal = false → Undisturbed d d' S
  | closed : d'.records.get? S = none → Undisturbed d d' S

theorem Undisturbed.of_eq {d d' : Dispatcher} (h : d'.records.get? S = d.records.get? S) :
    Undisturbed d d' S :=
  .same (congrArg (Option.map SessionRecord.state) h) (fun r' hr' => ⟨r', h ▸ hr', rfl⟩)

theorem ConcludesOnce.undisturbed {t : System} (h : ConcludesOnce s S tr)
    (hu : Undisturbed s.disp t.disp S)
    (hhub : (t.disp.hubs S).filterMap EventBody.concluded =
      (s.disp.hubs S).filterMap EventBody.concluded) : ConcludesOnce t S tr := by
  cases hu with
  | same hst hrec =>
      refine ⟨h.order, hst ▸ h.settled, hst ▸ h.kept, fun r' result hr' => ?_,
        hhub.trans h.terminals⟩
      obtain ⟨r, hr, heq⟩ := hrec r' hr'
      exact heq ▸ h.result r result hr
  | moved r' hlive hr' hn =>
      have hst' := status_of_record hr'
      obtain rfl := h.trace_nil hlive
      refine ⟨h.order, fun state hst hterm => ?_, fun state hmem => absurd hmem (by simp),
        fun r'' result hr'' => ?_, hhub.trans h.terminals⟩
      · obtain rfl : r'.state = state := Option.some.inj (hst'.symm.trans hst)
        exact absurd hterm (by simp [hn])
      · obtain rfl : r' = r'' := Option.some.inj (hr'.symm.trans hr'')
        refine ⟨fun hres => ?_, fun hmem => absurd hmem (by simp)⟩
        have hstatus := r'.result_status result (by simp [hres])
        exact absurd result.terminal (by simp [hstatus, hn])
  | closed hnone =>
      have hst : t.disp.status S = none := by simp [status, hnone]
      refine ⟨h.order, fun state hst' => absurd hst' (by simp [hst]), fun _ _ => Or.inr hst,
        fun r result hr => absurd hr (by simp [hnone]), hhub.trans h.terminals⟩

/-- A step that reaches no milestone of the session. -/
theorem Concludes.undisturbed {t : System} (h : Concludes S s tr) (hu : Undisturbed s.disp t.disp S)
    (hhub : (t.disp.hubs S).filterMap EventBody.concluded =
      (s.disp.hubs S).filterMap EventBody.concluded)
    (hnext : s.disp.nextSession ≤ t.disp.nextSession)
    (hthreads : ∀ (w : WorkerId) (thread : Worker), t.threads[w]? = some thread →
      thread.session = S → s.threads[w]? = some thread ∨
        thread.pc.carrying = false ∧ PcSame thread.pc) :
    Concludes S t tr where
  toConcludesOnce := h.toConcludesOnce.undisturbed hu hhub
  same w thread hw hS := by
    rcases hthreads w thread hw hS with hold | ⟨-, hsame⟩
    · exact h.same w thread hold hS
    · exact hsame
  carried w thread hw hS := by
    rcases hthreads w thread hw hS with hold | ⟨hnot, -⟩
    · exact h.carried w thread hold hS
    · exact .of_not_carrying hnot
  one w₁ w₂ t₁ t₂ h₁ h₂ hS₁ hS₂ hc₁ hc₂ := by
    rcases hthreads w₁ t₁ h₁ hS₁ with hold₁ | ⟨hnot, -⟩
    · rcases hthreads w₂ t₂ h₂ hS₂ with hold₂ | ⟨hnot, -⟩
      · exact h.one w₁ w₂ t₁ t₂ hold₁ hold₂ hS₁ hS₂ hc₁ hc₂
      · exact absurd hc₂ (by simp [hnot])
    · exact absurd hc₁ (by simp [hnot])
  fresh hle := h.fresh (hnext.trans hle)

end

/-! ## A worker's block

A block of the carrying worker adds the next milestone; a block of another one
adds none. -/

namespace Dispatcher

variable {d d' : Dispatcher} {w : WorkerId} {S T : SessionId} {pc pc' : WorkerPc}

theorem WorkerMove.hubs_ne (h : WorkerMove d w S pc d' pc') (hT : T ≠ S) :
    d'.hubs T = d.hubs T := by
  cases h <;> first | rfl | simp [hT]

/-- The workflow and the state announcements conclude nothing. -/
theorem concluded_emit {body : EventBody} (hb : body.concluded = none) :
    ((d.emit S body).hubs S).filterMap EventBody.concluded =
      (d.hubs S).filterMap EventBody.concluded := by
  simp [hb]

/-- A block of a worker that carries no conclusion and does not settle. -/
theorem WorkerMove.quiet_step (h : WorkerMove d w S pc d' pc') (hpc : pc.carrying = false)
    (hsettle : ∀ state result, pc ≠ .settleTransition state result) (hsame : PcSame pc) :
    pc'.carrying = false ∧ PcSame pc' ∧ Undisturbed d d' S ∧
      (d'.hubs S).filterMap EventBody.concluded = (d.hubs S).filterMap EventBody.concluded := by
  cases h with
  | @toRunning l r hr hlegal =>
      have hlive : ¬ Over (d.status S) := by
        intro hover
        have hterm := hover r.state (status_of_record hr)
        exact absurd hlegal (by simp [requireTransition_terminal hterm])
      exact ⟨rfl, trivial, .moved (r.moveTo .running d.now) hlive (by simp) rfl, rfl⟩
  | @doneCanceling r hr hst =>
      have hlive : ¬ Over (d.status S) := by
        rw [status_of_record hr, hst]
        exact not_over rfl
      exact ⟨rfl, trivial, .moved (r.moveTo .canceling d.now) hlive (by simp) rfl, rfl⟩
  | @snapshot job latest payload r hr =>
      refine ⟨rfl, trivial, .same (by simp [status, hr]) (fun r' hr' => ⟨r, hr, ?_⟩), rfl⟩
      obtain rfl : r.withPayload payload = r' := by simpa using hr'
      rfl
  | @runEmit l job latest body hb =>
      refine ⟨rfl, trivial, .of_eq rfl, concluded_emit (d := d) ?_⟩
      cases body <;> first | rfl | exact absurd hb Bool.false_ne_true
  | announceRunning | announceCanceling =>
      exact ⟨rfl, trivial, .of_eq rfl, concluded_emit (d := d) rfl⟩
  | @settleEmit state result =>
      cases result with
      | none => exact ⟨rfl, trivial, .of_eq rfl, concluded_emit (d := d) rfl⟩
      | some result => exact absurd hpc (by simp [WorkerPc.carrying])
  | workCanceled | workFailed | workNone | runReturned | runCanceled | runFailed
  | snapshotFailed => exact ⟨rfl, rfl, .of_eq rfl, rfl⟩
  | popLease | popNone | releaseLease => exact ⟨rfl, hsame, .of_eq rfl, rfl⟩
  | @releaseSettle r state result =>
      refine ⟨rfl, ?_, .of_eq rfl, rfl⟩
      cases result with
      | none => trivial
      | some result => exact hsame
  | settleFailed | settle => exact absurd rfl (hsettle _ _)
  | finalize | publishFailed | publish | emitTerminal =>
      exact absurd hpc (by simp [WorkerPc.carrying])
  | _ => exact ⟨rfl, trivial, .of_eq rfl, rfl⟩

/-- Only these four blocks reach a milestone. -/
theorem milestones_nil {choice : WorkerChoice} (hpc : pc.carrying = false)
    (hsettle : ∀ state result, pc ≠ .settleTransition state result) :
    d.milestones S pc choice = [] := by
  cases pc with
  | settleTransition state result => exact absurd rfl (hsettle state result)
  | finalize | publish | emitTerminal => exact absurd hpc (by simp [WorkerPc.carrying])
  | _ => rfl

end Dispatcher

section
variable {s : System} {d : Dispatcher} {w : WorkerId} {thread : Worker} {pc : WorkerPc}
  {tr tr' : List Milestone}

/-- The worker goes on with the conclusion it carries, or starts one. -/
theorem Concludes.advance (h : Concludes thread.session s tr) (hL : Lifecycle s)
    (hw : s.threads[w]? = some thread)
    (honce : ConcludesOnce (s.advance d w thread pc) thread.session tr') (hsame : PcSame pc)
    (hcarries : Carries tr' pc) (hcarrying : thread.pc.carrying = true ∨ tr = [])
    (hnext : d.nextSession = s.disp.nextSession) :
    Concludes thread.session (s.advance d w thread pc) tr' := by
  have others : ∀ {w' : WorkerId} {thread' : Worker}, w' ≠ w → s.threads[w']? = some thread' →
      thread'.session = thread.session → thread'.pc.carrying = false := by
    intro w' thread' hne hw' hS'
    by_contra hc
    have hc' : thread'.pc.carrying = true := by simpa using hc
    rcases hcarrying with hself | hnil
    · exact hne (h.one w' w thread' thread hw' hw hS' rfl hc' hself)
    · exact (h.carried w' thread' hw' hS').ne_nil hc' hnil
  refine ⟨honce, ?same, ?carried, ?one, ?fresh⟩
  case same =>
    intro w' thread' hw' hS'
    rcases advance_threads hw' with ⟨-, rfl⟩ | ⟨-, hold⟩
    · exact hsame
    · exact h.same w' thread' hold hS'
  case carried =>
    intro w' thread' hw' hS'
    rcases advance_threads hw' with ⟨-, rfl⟩ | ⟨hne, hold⟩
    · exact hcarries
    · exact .of_not_carrying (others hne hold hS')
  case one =>
    intro w₁ w₂ t₁ t₂ h₁ h₂ hS₁ hS₂ hc₁ hc₂
    rcases advance_threads h₁ with ⟨rfl, -⟩ | ⟨hne, hold⟩
    · rcases advance_threads h₂ with ⟨rfl, -⟩ | ⟨hne, hold⟩
      · rfl
      · exact absurd hc₂ (by simp [others hne hold hS₂])
    · exact absurd hc₁ (by simp [others hne hold hS₁])
  case fresh =>
    intro hle
    have hlt := (hL.session _).known w thread hw rfl
    exact absurd (hlt.trans_le (hnext ▸ hle)) (Nat.lt_irrefl _)

/-- The settling transition. -/
theorem Concludes.settles (h : Concludes thread.session s tr) (hL : Lifecycle s)
    (hw : s.threads[w]? = some thread) {state : SessionState} {result : Option OperationResult}
    (hpc : thread.pc = .settleTransition state result) {choice : WorkerChoice}
    (hstep : s.disp.workerStep w thread.session thread.pc choice = some (d, pc)) :
    Concludes thread.session (s.advance d w thread pc)
      (tr ++ s.disp.milestones thread.session thread.pc choice) := by
  have hsame := h.same w thread hw rfl
  have hactive : thread.pc.active = true := by rw [hpc]; rfl
  have hattends := (hL.session _).working w thread hw rfl hactive
  have hm := worker_move hstep
  rw [hpc] at hstep hsame hattends ⊢
  cases choice <;> simp only [workerStep, reduceCtorEq, Option.some.injEq] at hstep
  simp only [workerSettle] at hstep
  cases ht : s.disp.transitionLocked thread.session state with
  -- The transition was refused: the worker goes on without a milestone.
  | none =>
      simp only [ht, Prod.mk.injEq] at hstep
      obtain ⟨rfl, rfl⟩ := hstep
      rw [show s.disp.milestones thread.session (.settleTransition state result) .go = [] by
        simp [milestones, ht], List.append_nil]
      refine h.undisturbed (.of_eq rfl) rfl (Nat.le_refl _) (fun w' thread' hw' hS' => ?_)
      rcases advance_threads hw' with ⟨-, rfl⟩ | ⟨-, hold⟩
      · exact Or.inr ⟨rfl, trivial⟩
      · exact Or.inl hold
  | some moved =>
      obtain ⟨d', position⟩ := moved
      obtain ⟨r, hr, hlegal, rfl, rfl⟩ := transitionLocked_eq_some ht
      simp only [ht, Prod.mk.injEq] at hstep
      obtain ⟨rfl, rfl⟩ := hstep
      have hlive : ¬ Over (s.disp.status thread.session) := by
        intro hover
        have hterm := hover r.state (status_of_record hr)
        exact absurd hlegal (by simp [requireTransition_terminal hterm])
      have hsettleable : Settleable r.state state result := by
        rcases hattends with ⟨state', hst', hfit⟩ | ⟨hover, -⟩
        · obtain rfl : r.state = state' := Option.some.inj ((status_of_record hr).symm.trans hst')
          exact hfit
        · exact absurd hover hlive
      -- Either the session is paused, which is no milestone, or this is its conclusion.
      rcases hsettleable.2 with ⟨rfl, rfl⟩ | ⟨hterm, hsome⟩
      · rw [show s.disp.milestones thread.session (.settleTransition .paused none) .go = [] by
          simp [milestones, isTerminal, terminalStates], List.append_nil]
        refine h.undisturbed
          (.moved (r.moveTo .paused s.disp.now) hlive (by simp [System.advance]) rfl) rfl
          (Nat.le_refl _) (fun w' thread' hw' hS' => ?_)
        rcases advance_threads hw' with ⟨-, rfl⟩ | ⟨-, hold⟩
        · exact Or.inr ⟨rfl, trivial⟩
        · exact Or.inl hold
      · obtain ⟨res, rfl⟩ := Option.isSome_iff_exists.mp hsome
        obtain rfl : res.status = state := hsame
        have hnil := h.trace_nil hlive
        subst hnil
        rw [show s.disp.milestones thread.session (.settleTransition res.status (some res)) .go =
          [.settled res.status] by simp [milestones, ht, hterm], List.nil_append]
        have hst' : (s.disp.moved thread.session r res.status).status thread.session =
            some res.status := status_moved_self _ _ _ _
        refine h.advance hL hw ⟨⟨res, .ok, ?_⟩, ?_, ?_, ?_, ?_⟩ trivial ⟨rfl, rfl⟩ (Or.inr rfl) rfl
        · exact ⟨_, rfl⟩
        · intro state hst _
          obtain rfl : res.status = state := Option.some.inj (hst'.symm.trans hst)
          exact List.mem_singleton.mpr rfl
        · intro state hmem
          obtain rfl : state = res.status := by simpa using hmem
          exact Or.inl hst'
        · intro r' result hr'
          obtain rfl : r.moveTo res.status s.disp.now = r' := by
            simpa [System.advance] using hr'
          simp [SessionRecord.moveTo]
        · exact h.terminals

/-- The blocks after the settling transition. -/
theorem Concludes.carries (h : Concludes thread.session s tr) (hL : Lifecycle s)
    (hw : s.threads[w]? = some thread) (hc : thread.pc.carrying = true) {choice : WorkerChoice}
    (hstep : s.disp.workerStep w thread.session thread.pc choice = some (d, pc)) :
    Concludes thread.session (s.advance d w thread pc)
      (tr ++ s.disp.milestones thread.session thread.pc choice) := by
  have hcarried := h.carried w thread hw rfl
  have hmove := worker_move hstep
  cases hpc : thread.pc with
  | settleEmit state result position =>
      rw [hpc] at hstep hcarried hc
      cases choice <;>
        simp only [workerStep, reduceCtorEq, Option.some.injEq, Prod.mk.injEq] at hstep
      obtain ⟨rfl, rfl⟩ := hstep
      obtain ⟨res, rfl⟩ := Option.isSome_iff_exists.mp hc
      obtain ⟨rfl, rfl⟩ := hcarried
      have honce := h.toConcludesOnce.undisturbed
        (t := s.advance (s.disp.emit thread.session (.stateChanged res.status)) w thread
          (.finalize res)) (.of_eq rfl) (concluded_emit rfl)
      exact h.advance hL hw honce trivial rfl (Or.inl (by rw [hpc]; rfl)) rfl
  | finalize result =>
      rw [hpc] at hstep hcarried
      cases choice <;>
        simp only [workerStep, reduceCtorEq, Option.some.injEq, Prod.mk.injEq] at hstep
      next audit =>
        obtain ⟨rfl, rfl⟩ := hstep
        obtain rfl : tr = [.settled result.status] := hcarried
        have honce := h.toConcludesOnce.undisturbed
          (t := s.advance s.disp w thread (.publish (result.withAudit audit))) (.of_eq rfl) rfl
        refine h.advance hL hw ⟨⟨result, audit, ⟨_, rfl⟩⟩, ?_, ?_, ?_, ?_⟩ trivial
          ⟨result, audit, rfl, rfl⟩ (Or.inl (by rw [hpc]; rfl)) rfl
        · exact fun state hst hterm => List.mem_append_left _ (honce.settled state hst hterm)
        · exact fun state hmem => honce.kept state (by simpa [milestones] using hmem)
        · intro r res hr
          rw [honce.result r res hr]
          simp [milestones]
        · exact honce.terminals
  | publish result =>
      rw [hpc] at hstep hcarried
      cases choice <;> simp only [workerStep, reduceCtorEq, Option.some.injEq] at hstep
      obtain ⟨res, audit, rfl, rfl⟩ := hcarried
      -- a publication that fails leaves everything as it is
      have failed : s.disp.milestones thread.session (.publish (res.withAudit audit)) .go = [] →
          d = s.disp → pc = .releasePop .finish →
          Concludes thread.session (s.advance d w thread pc)
            ([.settled res.status, .audited res audit] ++
              s.disp.milestones thread.session (.publish (res.withAudit audit)) .go) := by
        rintro hnil rfl rfl
        rw [hnil, List.append_nil]
        have honce := h.toConcludesOnce.undisturbed
          (t := s.advance s.disp w thread (.releasePop .finish)) (.of_eq rfl) rfl
        exact h.advance hL hw honce trivial trivial (Or.inl (by rw [hpc]; rfl)) rfl
      simp only [workerPublish] at hstep
      cases hr : s.disp.records.get? thread.session with
      | none =>
          simp only [hr, Prod.mk.injEq] at hstep
          exact failed (by simp [milestones, hr]) hstep.1.symm hstep.2.symm
      | some r =>
          cases hu : r.withResult (res.withAudit audit) with
          | none =>
              simp only [hr, hu, Prod.mk.injEq] at hstep
              exact failed (by simp [milestones, hr, hu]) hstep.1.symm hstep.2.symm
          | some updated =>
              simp only [hr, hu, Prod.mk.injEq] at hstep
              obtain ⟨rfl, rfl⟩ := hstep
              obtain ⟨hstate, -, -, hresult⟩ := SessionRecord.withResult_eq_some hu
              have hmile : s.disp.milestones thread.session (.publish (res.withAudit audit)) .go =
                  [.published (res.withAudit audit)] := by simp [milestones, hr, hu]
              have hst : (s.disp.setRecord thread.session updated).status thread.session =
                  s.disp.status thread.session := by simp [status, hr, hstate]
              rw [hmile]
              refine h.advance hL hw ⟨⟨res, audit, ⟨_, rfl⟩⟩, ?_, ?_, ?_, h.terminals⟩ trivial
                ⟨res, audit, rfl, rfl⟩ (Or.inl (by rw [hpc]; rfl)) rfl
              · intro state hst' hterm
                exact List.mem_append_left _ (h.settled state (hst.symm.trans hst') hterm)
              · intro state hmem
                have hold := h.kept state (by simpa using hmem)
                rw [← hst] at hold
                exact hold
              · intro r' result hr'
                obtain rfl : updated = r' := by simpa [System.advance] using hr'
                rw [hresult]
                simp [eq_comm]
  | emitTerminal result =>
      rw [hpc] at hstep hcarried
      cases choice <;>
        simp only [workerStep, reduceCtorEq, Option.some.injEq, Prod.mk.injEq] at hstep
      obtain ⟨rfl, rfl⟩ := hstep
      obtain ⟨res, audit, rfl, rfl⟩ := hcarried
      refine h.advance hL hw ⟨⟨res, audit, ⟨[], rfl⟩⟩, ?_, ?_, ?_, ?_⟩ trivial trivial
        (Or.inl (by rw [hpc]; rfl)) rfl
      · exact fun state hst hterm => List.mem_append_left _ (h.settled state hst hterm)
      · exact fun state hmem => h.kept state (by simpa [milestones] using hmem)
      · intro r result hr
        rw [h.result r result hr]
        simp [milestones]
      · have hold := h.terminals
        simp only [System.advance, emit_hubs, if_pos, List.filterMap_append, hold]
        rfl
  | _ =>
      rw [hpc] at hc
      exact absurd hc Bool.false_ne_true

theorem Concludes.worker {S : SessionId} (h : Concludes S s tr) (hL : Lifecycle s)
    (hw : s.threads[w]? = some thread) {choice : WorkerChoice}
    (hstep : s.disp.workerStep w thread.session thread.pc choice = some (d, pc)) :
    Concludes S (s.advance d w thread pc)
      (tr ++ if thread.session = S then s.disp.milestones S thread.pc choice else []) := by
  have hm := worker_move hstep
  by_cases hS : thread.session = S
  · subst hS
    rw [if_pos rfl]
    by_cases hsettle : ∃ state result, thread.pc = .settleTransition state result
    · obtain ⟨state, result, hpc⟩ := hsettle
      exact h.settles hL hw hpc hstep
    · cases hc : thread.pc.carrying with
      | true => exact h.carries hL hw hc hstep
      | false =>
          have hne : ∀ state result, thread.pc ≠ .settleTransition state result :=
            fun state result hpc => hsettle ⟨state, result, hpc⟩
          obtain ⟨hc', hsame', hu, hhub⟩ := hm.quiet_step hc hne (h.same w thread hw rfl)
          rw [milestones_nil hc hne, List.append_nil]
          refine h.undisturbed hu hhub (le_of_eq hm.nextSession_eq.symm)
            (fun w' thread' hw' hS' => ?_)
          rcases advance_threads hw' with ⟨-, rfl⟩ | ⟨-, hold⟩
          · exact Or.inr ⟨hc', hsame'⟩
          · exact Or.inl hold
  · rw [if_neg hS, List.append_nil]
    refine h.undisturbed (.of_eq (hm.records_ne (Ne.symm hS))) ?_
      (le_of_eq hm.nextSession_eq.symm) ?_
    · exact congrArg _ (hm.hubs_ne (Ne.symm hS))
    · intro w' thread' hw' hS'
      rcases advance_threads hw' with ⟨-, rfl⟩ | ⟨-, hold⟩
      · exact absurd hS' hS
      · exact Or.inl hold

end

/-! ## Every run

No call of a client and no pass of the scheduler adds a milestone. -/

/-- A call adds no milestone. -/
theorem Concludes.call {s : System} {S : SessionId} {tr : List Milestone} {c : Call}
    {d : Dispatcher} {client : Client} (h : Concludes S s tr) (hm : CallMove s.disp c d client) :
    Concludes S (s.calls d client) tr := by
  -- a control call that moves some session moves it from a live state to a live one
  have moved : ∀ {T : SessionId} {r : SessionRecord} {e : Dispatcher} (state : SessionState),
      s.disp.records.get? T = some r → r.state.isTerminal = false → state.isTerminal = false →
        e.records = s.disp.records.set T (r.moveTo state s.disp.now) →
          Undisturbed s.disp e S := by
    intro T r e state hr hlive hn hrec
    by_cases hS : S = T
    · subst hS
      refine .moved (r.moveTo state s.disp.now) ?_ (by simp [hrec]) hn
      rw [status_of_record hr]
      exact not_over hlive
    · exact .of_eq (by simp [hrec, Dict.get?_set_ne _ _ hS])
  have hu : Undisturbed s.disp d S := by
    cases hm with
    | submit | cancelPausing | close => exact .of_eq rfl
    | pause hr hst => exact moved .pausing hr (by rw [hst]; rfl) rfl rfl
    | resume hr hst =>
        refine moved .pending hr ?_ rfl rfl
        rcases hst with hst | hst <;> rw [hst] <;> rfl
    | cancel hr hlive => exact moved .canceling hr hlive rfl rfl
  have hrest : d.hubs = s.disp.hubs ∧ d.nextSession = s.disp.nextSession := by
    cases hm <;> exact ⟨rfl, rfl⟩
  exact h.undisturbed hu (congrArg (fun hubs => (hubs S).filterMap EventBody.concluded) hrest.1)
    (le_of_eq hrest.2.symm) (fun _ _ hw _ => Or.inl hw)

theorem Concludes.client {s : System} {S : SessionId} {tr : List Milestone} {i : Nat}
    {client client' : Client} {d : Dispatcher} (h : Concludes S s tr)
    (hm : ClientMove s.disp client d client') :
    Concludes S { s with disp := d, clients := s.clients.set i client' } tr := by
  have emits : ∀ {T : SessionId} {state : SessionState},
      ((s.disp.emit T (.stateChanged state)).hubs S).filterMap EventBody.concluded =
        (s.disp.hubs S).filterMap EventBody.concluded := by
    intro T state
    by_cases hS : S = T
    · subst hS
      exact concluded_emit rfl
    · simp [hS]
  cases hm with
  | prepareFailed | prepared | registerFailed | admitDone =>
      exact h.undisturbed (.of_eq rfl) rfl (Nat.le_refl _) (fun _ _ hw _ => Or.inl hw)
  | emitPending | announce =>
      exact h.undisturbed (.of_eq rfl) emits (Nat.le_refl _) (fun _ _ hw _ => Or.inl hw)
  | @registered kind p prepared order createdAt hacc =>
      by_cases hS : S = s.disp.nextSession
      · subst hS
        -- a new session starts with an empty hub and without milestones
        obtain rfl := h.fresh (Nat.le_refl _)
        have hst : (s.disp.registerSession
            (newRecord s.disp.nextSession kind p prepared order createdAt)).status
              s.disp.nextSession = some .pending := by
          simp [status, newRecord]
        refine ⟨⟨h.order, ?_, fun state hmem => absurd hmem (by simp), ?_, ?_⟩, h.same,
          h.carried, h.one, fun _ => rfl⟩
        · intro state hst' hterm
          obtain rfl : SessionState.pending = state := Option.some.inj (hst.symm.trans hst')
          exact absurd hterm (by decide)
        · intro r result hr
          obtain rfl : newRecord s.disp.nextSession kind p prepared order createdAt = r := by
            simpa using hr
          simp [newRecord]
        · simp
      · exact h.undisturbed (.of_eq (by simp [Dict.get?_set_ne _ _ hS])) (by simp [hS])
          (Nat.le_succ _) (fun _ _ hw _ => Or.inl hw)
  | @closePop T =>
      refine h.undisturbed ?_ rfl (Nat.le_refl _) (fun _ _ hw _ => Or.inl hw)
      by_cases hS : S = T
      · exact .closed (by simp [hS])
      · exact .of_eq (by simp [Dict.get?_pop_ne _ hS])

/-- Nor does a pass. -/
theorem Concludes.schedule {s : System} {S : SessionId} {tr : List Milestone} {d : Dispatcher}
    {launches : List (SessionId × Bool)} (h : Concludes S s tr)
    (hm : s.disp.schedule s.threads.length = some (d, launches)) :
    Concludes S (s.launch d launches) tr := by
  have hthreads : ∀ (w : WorkerId) (thread : Worker),
      (s.launch d launches).threads[w]? = some thread → thread.session = S →
        s.threads[w]? = some thread ∨ thread.pc.carrying = false ∧ PcSame thread.pc := by
    intro w thread hw _
    rcases launch_threads hw with hold | ⟨-, e, -, rfl⟩
    · exact Or.inl hold
    · exact Or.inr ⟨rfl, trivial⟩
  rcases schedule_cases hm with ⟨-, rfl⟩ | ⟨-, -, rfl⟩
  · exact h.undisturbed (.of_eq rfl) rfl (Nat.le_refl _) hthreads
  · exact h.undisturbed (.of_eq rfl) rfl (Nat.le_refl _) hthreads

/-- Only a worker reaches milestones. -/
theorem Concludes.step {s t : System} {S : SessionId} {tr : List Milestone} {a : Action}
    (h : Concludes S s tr) (hL : Lifecycle s) (hstep : s.step a = some t) :
    Concludes S t (tr ++ System.milestones S s a) := by
  rcases System.step_cases hstep with ⟨c, d, client, rfl, hm, rfl⟩ |
    ⟨i, choice, client, d, client', rfl, hi, hm, rfl⟩ |
    ⟨w, choice, thread, -, -, rfl, hw, -, -⟩ | ⟨d, launches, rfl, hm, rfl⟩ | ⟨rfl, rfl⟩ | ⟨rfl, rfl⟩
  · rw [show System.milestones S s (.call c) = [] from rfl, List.append_nil]
    exact h.call hm
  · rw [show System.milestones S s (.client i choice) = [] from rfl, List.append_nil]
    exact h.client hm
  · simp only [System.step, System.stepWorker, hw] at hstep
    cases hmove : s.disp.workerStep w thread.session thread.pc choice with
    | none => simp [hmove] at hstep
    | some moved =>
        simp only [hmove, Option.some.injEq] at hstep
        subst hstep
        simp only [System.milestones, hw]
        exact h.worker hL hw hmove
  · rw [show System.milestones S s .schedule = [] from rfl, List.append_nil]
    exact h.schedule hm
  · rw [show System.milestones S s .stopAccepting = [] from rfl, List.append_nil]
    exact h.undisturbed (.of_eq rfl) rfl (Nat.le_refl _) (fun _ _ hw _ => Or.inl hw)
  · rw [show System.milestones S s .tick = [] from rfl, List.append_nil]
    exact h.undisturbed (.of_eq rfl) rfl (Nat.le_refl _) (fun _ _ hw _ => Or.inl hw)

theorem Concludes.initial (registry : String → Option WorkflowRegistration) (S : SessionId) :
    Concludes S (System.initial registry) [] where
  order := ⟨{ status := .completed }, .ok, List.nil_prefix⟩
  settled state hst := absurd hst (by simp [System.initial, status])
  kept state hmem := absurd hmem (by simp)
  result r result hr := absurd hr (by simp [System.initial])
  terminals := rfl
  same w thread hw := absurd hw (by simp [System.initial])
  carried w thread hw := absurd hw (by simp [System.initial])
  one w₁ w₂ t₁ t₂ h₁ := absurd h₁ (by simp [System.initial])
  fresh _ := rfl

/-- Every session concludes once, over any history of pauses, resumes,
cancels and failures. -/
theorem concludes_once {registry : String → Option WorkflowRegistration} {S : SessionId}
    {s : System} {tr : List Milestone} (h : MilestoneRun S (System.initial registry) tr s) :
    ConcludesOnce s S tr := by
  have hboth : Lifecycle s ∧ Concludes S s tr :=
    h.invariant (I := fun s tr => Lifecycle s ∧ Concludes S s tr)
      (fun _ _ _ _ hI hstep => ⟨hI.1.step hstep, hI.2.step hI.1 hstep⟩)
      ⟨Lifecycle.initial registry, Concludes.initial registry S⟩
  exact hboth.2.toConcludesOnce

/-- A session is paused, resumed, and canceled in its second run. -/
def concludedRun : List Action :=
  resumedRun ++ Script.control 3 (.cancel 0) ++ Script.settleCanceled 1

def concludedSystem : System :=
  (Transition.exec System.step (System.initial pausableRegistry) concludedRun).getD
    (System.initial pausableRegistry)

def concludedTrace : List Milestone :=
  Transition.execTrace System.step (System.milestones 0) (System.initial pausableRegistry)
    concludedRun

theorem concludes_once_canceled :
    concludedTrace = conclusion (canceledResult .ran [] none) .ok ∧
      ConcludesOnce concludedSystem 0 concludedTrace := by
  have hexec : Transition.exec System.step (System.initial pausableRegistry) concludedRun =
      some concludedSystem := Transition.exec_getD (by decide)
  exact ⟨by decide, concludes_once (Transition.exec_traced hexec)⟩

end NamiSync
