/-
# `Dispatcher.Lifecycle` — who attends a session in each of its states

The facts every interleaving keeps, whatever goes wrong with custody, with
reservations or with announcements.  They are stated one session at a time
(`SessionFits`): a step changes the view of at most one session, except that
a scheduler pass launches several, and `SessionFits.frame` carries the
others over.

A `PENDING`, `RUNNING` or `PAUSING` session has at most one active worker; in
every state at most one worker is past the transition to `RUNNING`.  A
queued session has none of these.

## What is proved

    Lifecycle.reachable : AnyRun step (initial registry) s → Lifecycle s

with no condition on the run.  It is what the results under a condition start
from: `Custody`, `Sole`, `Served`, `OrderFits` and `Concludes` each take a
`Lifecycle` as a hypothesis of their step lemma.

## The argument

A step is looked at twice.  For every session but its own it only has to be
shown that nothing `SessionFits` looks at got worse (`SameView`), and that is
one lemma per kind of thread (`worker_others`, `call_others`,
`client_others`).  For its own session there is one lemma per kind of change:
a worker that stays active, that settles, that was stale, that leaves
(`worker_stays`, `worker_settles`, `worker_stale`, `worker_leaves`), and a
pause, a resume, a cancel of either kind and a close (`call_pauses`,
`call_resumes`, `call_flags`, `call_cancels`, `call_closes`).

The hard case is the cancel of a session that the scheduler has just taken
from the queue.  It queues the session again, so two active workers are about,
and what keeps the second harmless is that the first makes it stale when it
settles (`settles_stale`).
-/
import NamiSync.Dispatcher.Stages

namespace NamiSync

open SessionState Dispatcher

/-- The session is closed or terminal. -/
def Over (status : Option SessionState) : Prop := ∀ state ∈ status, state.isTerminal = true

/-- The states in which no second worker can be about. -/
def exclusive : Option SessionState → Bool
  | some .pending | some .running | some .pausing => true
  | _ => false

/-- How an active worker stands to its session: it fits, or it is stale. -/
def Attends (status : Option SessionState) (control : Control) (pc : WorkerPc) : Prop :=
  (∃ state, status = some state ∧ PcFits state control pc) ∨ Over status ∧ Stale control pc

/-- What the queue may hold: pending sessions, and canceled ones to wind
up. -/
def Waits (status : Option SessionState) (control : Control) : Prop :=
  status = some .pending ∨
    control.cancel = true ∧ (status = some .canceling ∨ Over status)

/-- The invariant, one session at a time. -/
structure SessionFits (s : System) (S : SessionId) : Prop where
  record : ∀ state, s.disp.status S = some state →
    S < s.disp.nextSession ∧ FlagsFit state (s.disp.controls S) ∧
      (state.isTerminal = false → S ∈ s.disp.itemEvents)
  queued : S ∈ s.disp.pending →
    S < s.disp.nextSession ∧ Waits (s.disp.status S) (s.disp.controls S)
  idle : S ∈ s.disp.pending → ∀ (w : WorkerId) (thread : Worker), s.threads[w]? = some thread →
    thread.session = S → thread.pc.active = true →
    thread.pc.invoked = false ∧ s.disp.status S ≠ some .pending
  known : ∀ (w : WorkerId) (thread : Worker), s.threads[w]? = some thread → thread.session = S →
    S < s.disp.nextSession
  working : ∀ (w : WorkerId) (thread : Worker), s.threads[w]? = some thread → thread.session = S →
    thread.pc.active = true → Attends (s.disp.status S) (s.disp.controls S) thread.pc
  closing : ∀ (w : WorkerId) (thread : Worker), s.threads[w]? = some thread → thread.session = S →
    thread.pc.closing = true → Over (s.disp.status S)
  unique : ∀ (w₁ w₂ : WorkerId) (t₁ t₂ : Worker), s.threads[w₁]? = some t₁ →
    s.threads[w₂]? = some t₂ → t₁.session = S → t₂.session = S → t₁.pc.active = true →
    t₂.pc.active = true → (t₁.pc.invoked = true ∨ exclusive (s.disp.status S) = true) → w₁ = w₂
  callers : Client.closePop S ∈ s.clients →
    S < s.disp.nextSession ∧ Over (s.disp.status S)

structure Lifecycle (s : System) : Prop where
  nodup : s.disp.pending.Nodup
  session : ∀ S, SessionFits s S

/-! ## First consequences

What the invariant says of a worker that still attends its session: the record
is live and fits the place where the worker's program stands, or the session is
over and the worker is a stale one that settles nothing. -/

/-- An active worker's session either has a live record or is over. -/
theorem Attends.fits {state : SessionState} {control : Control} {pc : WorkerPc}
    (h : Attends (some state) control pc) (hn : state.isTerminal = false) :
    PcFits state control pc := by
  rcases h with ⟨state', hst, hfit⟩ | ⟨hover, -⟩
  · exact Option.some.inj hst ▸ hfit
  · exact absurd (hover state rfl) (by simp [hn])

theorem attended_not_terminal {state : SessionState} (h : attended state = true) :
    state.isTerminal = false := by
  cases state <;> first | rfl | exact absurd h (by decide)

theorem Attends.stale {status : Option SessionState} {control : Control} {pc : WorkerPc}
    (h : Attends status control pc) (hover : Over status) : Stale control pc := by
  rcases h with ⟨state, hst, hfit⟩ | ⟨-, hstale⟩
  · exact absurd (hover state hst) (by simp [attended_not_terminal hfit.attended])
  · exact hstale

theorem not_over {state : SessionState} (hn : state.isTerminal = false) : ¬ Over (some state) :=
  fun h => absurd (h state rfl) (by simp [hn])

theorem nodup_enqueue {pending : List SessionId} {S : SessionId} (h : pending.Nodup)
    (hS : S ∉ pending) : (pending ++ [S]).Nodup := by
  refine List.nodup_append.mpr ⟨h, List.nodup_singleton S, ?_⟩
  rintro a ha b hb rfl
  exact hS (List.mem_singleton.mp hb ▸ ha)

theorem over_none : Over none := fun _ h => absurd h (by simp)

/-! ## The frame

Most blocks leave most sessions alone.  `SameView` is what the invariant of one
session reads, so a block that leaves this keeps the invariant without a look at
what else it does. -/

/-- The threads of a session are the same, except that some may have gone on
on their way out. -/
def ThreadsKept (s t : System) (S : SessionId) : Prop :=
  ∀ (w : WorkerId) (thread : Worker), t.threads[w]? = some thread → thread.session = S →
    ∃ old, s.threads[w]? = some old ∧ old.session = S ∧
      (old = thread ∨
        thread.pc.active = false ∧ (thread.pc.closing = true → old.pc.closing = true))

theorem ThreadsKept.of_eq {s t : System} {S : SessionId} (h : t.threads = s.threads) :
    ThreadsKept s t S :=
  fun _ thread hw hS => ⟨thread, h ▸ hw, hS, Or.inl rfl⟩

theorem ThreadsKept.active {s t : System} {S : SessionId} (h : ThreadsKept s t S) {w : WorkerId}
    {thread : Worker} (hw : t.threads[w]? = some thread) (hS : thread.session = S)
    (ha : thread.pc.active = true) : s.threads[w]? = some thread := by
  obtain ⟨old, hold, -, rfl | ⟨hleft, -⟩⟩ := h w thread hw hS
  · exact hold
  · exact absurd ha (by simp [hleft])

/-- Nothing `SessionFits` looks at got worse for the session. -/
structure SameView (s t : System) (S : SessionId) : Prop where
  status : t.disp.status S = s.disp.status S
  control : t.disp.controls S = s.disp.controls S
  pending : S ∈ t.disp.pending → S ∈ s.disp.pending
  items : S ∈ s.disp.itemEvents → S ∈ t.disp.itemEvents ∨ Over (s.disp.status S)
  next : s.disp.nextSession ≤ t.disp.nextSession
  threads : ThreadsKept s t S
  clients : Client.closePop S ∈ t.clients → Client.closePop S ∈ s.clients

theorem SessionFits.frame {s t : System} {S : SessionId} (h : SessionFits s S)
    (v : SameView s t S) : SessionFits t S where
  record state hst := by
    rw [v.status] at hst
    have hr := h.record state hst
    refine ⟨hr.1.trans_le v.next, v.control ▸ hr.2.1, fun hn => ?_⟩
    exact (v.items (hr.2.2 hn)).resolve_right (fun ho => not_over hn (hst ▸ ho))
  queued hp := by
    have hq := h.queued (v.pending hp)
    rw [v.status, v.control]
    exact ⟨hq.1.trans_le v.next, hq.2⟩
  idle hp w thread hw hS ha := by
    rw [v.status]
    exact h.idle (v.pending hp) w thread (v.threads.active hw hS ha) hS ha
  known w thread hw hS := by
    obtain ⟨old, hold, hS', -⟩ := v.threads w thread hw hS
    exact (h.known w old hold hS').trans_le v.next
  working w thread hw hS ha := by
    rw [v.status, v.control]
    exact h.working w thread (v.threads.active hw hS ha) hS ha
  closing w thread hw hS hc := by
    rw [v.status]
    obtain ⟨old, hold, hS', rfl | ⟨-, hcl⟩⟩ := v.threads w thread hw hS
    · exact h.closing w old hold hS' hc
    · exact h.closing w old hold hS' (hcl hc)
  unique w₁ w₂ t₁ t₂ h₁ h₂ hS₁ hS₂ ha₁ ha₂ hx := by
    rw [v.status] at hx
    exact h.unique w₁ w₂ t₁ t₂ (v.threads.active h₁ hS₁ ha₁) (v.threads.active h₂ hS₂ ha₂)
      hS₁ hS₂ ha₁ ha₂ hx
  callers hc := by
    have hs := h.callers (v.clients hc)
    rw [v.status]
    exact ⟨hs.1.trans_le v.next, hs.2⟩

/-- A session that is over may be closed. -/
theorem SessionFits.closed {s t : System} {S : SessionId} (h : SessionFits s S)
    (hover : Over (s.disp.status S)) (hst : t.disp.status S = none)
    (hc : t.disp.controls S = s.disp.controls S)
    (hp : S ∈ t.disp.pending → S ∈ s.disp.pending)
    (hn : s.disp.nextSession ≤ t.disp.nextSession) (ht : ThreadsKept s t S)
    (hcl : Client.closePop S ∈ t.clients → Client.closePop S ∈ s.clients) :
    SessionFits t S where
  record state hst' := absurd hst' (by simp [hst])
  queued hq := by
    obtain ⟨hlt, hpend | ⟨hcan, -⟩⟩ := h.queued (hp hq)
    · exact absurd (hover .pending hpend) (by decide)
    · exact ⟨hlt.trans_le hn, Or.inr ⟨hc ▸ hcan, Or.inr (hst ▸ over_none)⟩⟩
  idle hq w thread hw hS ha := by
    rw [hst]
    exact ⟨(h.idle (hp hq) w thread (ht.active hw hS ha) hS ha).1, by simp⟩
  known w thread hw hS := by
    obtain ⟨old, hold, hS', -⟩ := ht w thread hw hS
    exact (h.known w old hold hS').trans_le hn
  working w thread hw hS ha := by
    rw [hst, hc]
    exact Or.inr ⟨over_none, (h.working w thread (ht.active hw hS ha) hS ha).stale hover⟩
  closing _ _ _ _ _ := hst ▸ over_none
  unique w₁ w₂ t₁ t₂ h₁ h₂ hS₁ hS₂ ha₁ ha₂ hx := by
    rw [hst] at hx
    exact h.unique w₁ w₂ t₁ t₂ (ht.active h₁ hS₁ ha₁) (ht.active h₂ hS₂ ha₂) hS₁ hS₂ ha₁ ha₂
      (Or.inl (hx.resolve_right (by decide)))
  callers hcp := ⟨(h.callers (hcl hcp)).1.trans_le hn, hst ▸ over_none⟩

/-- A control request moves a live session from `state` to `state'`, keeping
the fit of its workers. -/
theorem SessionFits.control {s t : System} {S : SessionId} {state state' : SessionState}
    (h : SessionFits s S) (hst : s.disp.status S = some state)
    (hlive : state.isTerminal = false) (hst' : t.disp.status S = some state')
    (hflags : FlagsFit state' (t.disp.controls S))
    (hitems : t.disp.itemEvents = s.disp.itemEvents)
    (hnext : s.disp.nextSession = t.disp.nextSession) (hthreads : ThreadsKept s t S)
    (hclients : Client.closePop S ∈ t.clients → Client.closePop S ∈ s.clients)
    (hfits : ∀ pc, PcFits state (s.disp.controls S) pc → PcFits state' (t.disp.controls S) pc)
    (hqueue : S ∈ t.disp.pending → Waits (some state') (t.disp.controls S) ∧
      ∀ pc, PcFits state (s.disp.controls S) pc → pc.invoked = false ∧ state' ≠ .pending)
    (hunique : ∀ pc, PcFits state (s.disp.controls S) pc →
      exclusive (some state') = true → exclusive (some state) = true) :
    SessionFits t S := by
  obtain ⟨hlt, -, hitem⟩ := h.record state hst
  have fits : ∀ {w : WorkerId} {thread : Worker}, t.threads[w]? = some thread →
      thread.session = S → thread.pc.active = true →
      PcFits state (s.disp.controls S) thread.pc := fun hw hS ha =>
    Attends.fits (hst ▸ h.working _ _ (hthreads.active hw hS ha) hS ha) hlive
  refine ⟨?record, ?queued, ?idle, ?known, ?working, ?closing, ?unique, ?callers⟩
  case record =>
    intro st hst''
    obtain rfl : state' = st := Option.some.inj (hst'.symm.trans hst'')
    exact ⟨hnext ▸ hlt, hflags, fun _ => hitems ▸ hitem hlive⟩
  case queued => exact fun hp => ⟨hnext ▸ hlt, hst' ▸ (hqueue hp).1⟩
  case idle =>
    intro hp w thread hw hS ha
    have hidle := (hqueue hp).2 _ (fits hw hS ha)
    exact ⟨hidle.1, by simpa [hst'] using hidle.2⟩
  case known => exact fun _ _ _ _ => hnext ▸ hlt
  case working =>
    exact fun w thread hw hS ha => Or.inl ⟨state', hst', hfits _ (fits hw hS ha)⟩
  case closing =>
    intro w thread hw hS hc
    obtain ⟨old, hold, hS', rfl | ⟨-, hcl⟩⟩ := hthreads w thread hw hS
    · exact absurd (hst ▸ h.closing w old hold hS' hc) (not_over hlive)
    · exact absurd (hst ▸ h.closing w old hold hS' (hcl hc)) (not_over hlive)
  case unique =>
    intro w₁ w₂ t₁ t₂ h₁ h₂ hS₁ hS₂ ha₁ ha₂ hx
    refine h.unique w₁ w₂ t₁ t₂ (hthreads.active h₁ hS₁ ha₁) (hthreads.active h₂ hS₂ ha₂)
      hS₁ hS₂ ha₁ ha₂ (hx.imp_right (fun he => ?_))
    rw [hst]
    exact hunique _ (fits h₁ hS₁ ha₁) (hst' ▸ he)
  case callers =>
    exact fun hc => absurd (hst ▸ (h.callers (hclients hc)).2) (not_over hlive)

/-! ## A worker's block

The moved worker and the others are treated apart.  For the others the block is
a frame; for the moved worker it goes by where its program stands afterwards: it
has settled, it stays, it was stale from the start, or it leaves. -/

/-- Thread `w` is at a new program counter; the other threads and the
callers are as before. -/
def System.advance (s : System) (d : Dispatcher) (w : WorkerId) (thread : Worker)
    (pc : WorkerPc) : System :=
  { s with disp := d, threads := s.threads.set w { thread with pc := pc } }

theorem advance_threads {s : System} {d : Dispatcher} {w w' : WorkerId}
    {thread thread' : Worker} {pc : WorkerPc}
    (h : (s.advance d w thread pc).threads[w']? = some thread') :
    w' = w ∧ thread' = { thread with pc := pc } ∨ w' ≠ w ∧ s.threads[w']? = some thread' := by
  simp only [System.advance, List.getElem?_set] at h
  split at h
  · next heq =>
      split at h
      · exact Or.inl ⟨heq.symm, (Option.some.inj h).symm⟩
      · exact absurd h (by simp)
  · next hne => exact Or.inr ⟨fun heq => hne heq.symm, h⟩

section
variable {s : System} {d : Dispatcher} {w : WorkerId} {thread : Worker} {pc : WorkerPc}

theorem threadsKept_advance_ne {T : SessionId} (hT : T ≠ thread.session) :
    ThreadsKept s (s.advance d w thread pc) T := by
  intro w' thread' hw' hS'
  rcases advance_threads hw' with ⟨-, rfl⟩ | ⟨-, hold⟩
  · exact absurd hS'.symm hT
  · exact ⟨thread', hold, hS', Or.inl rfl⟩

theorem threadsKept_advance_self (hw : s.threads[w]? = some thread) (ha : pc.active = false)
    (hc : pc.closing = true → thread.pc.closing = true) :
    ThreadsKept s (s.advance d w thread pc) thread.session := by
  intro w' thread' hw' hS'
  rcases advance_threads hw' with ⟨rfl, rfl⟩ | ⟨-, hold⟩
  · exact ⟨thread, hw, rfl, Or.inr ⟨ha, hc⟩⟩
  · exact ⟨thread', hold, hS', Or.inl rfl⟩

/-- A worker's block leaves the other sessions alone. -/
theorem worker_others (hm : WorkerMove s.disp w thread.session thread.pc d pc)
    (hpend : ∀ T, T ≠ thread.session → T ∈ d.pending → T ∈ s.disp.pending) {T : SessionId}
    (hT : T ≠ thread.session) (h : SessionFits s T) :
    SessionFits (s.advance d w thread pc) T :=
  h.frame
    { status := congrArg (Option.map SessionRecord.state) (hm.records_ne hT)
      control := congrFun hm.controls_eq T
      pending := hpend T hT
      items := fun hi => Or.inl ((hm.itemEvents_ne hT).mpr hi)
      next := le_of_eq hm.nextSession_eq.symm
      threads := threadsKept_advance_ne hT
      clients := fun hc => hc }

/-- A queued session that still has an active worker is being canceled. -/
theorem queued_canceling (h : SessionFits s thread.session) (hw : s.threads[w]? = some thread)
    (ha : thread.pc.active = true) {state : SessionState}
    (hst : s.disp.status thread.session = some state) (hlive : state.isTerminal = false)
    (hp : thread.session ∈ s.disp.pending) :
    state = .canceling ∧ (s.disp.controls thread.session).cancel = true := by
  have hidle := (h.idle hp w thread hw rfl ha).2
  obtain ⟨-, hpending | ⟨hcan, hcanceling | hover⟩⟩ := h.queued hp
  · exact absurd hpending hidle
  · exact ⟨Option.some.inj (hst.symm.trans hcanceling), hcan⟩
  · exact absurd (hst ▸ hover) (not_over hlive)

/-- A session being canceled settles in a terminal state. -/
theorem canceling_settles {state : SessionState} (hsettles : settles state = true)
    (hlegal : SessionState.canceling.requireTransition state = true) :
    state.isTerminal = true := by
  revert hlegal hsettles
  cases state <;> decide

/-- When a worker settles its session, another active one is the one that the
cancel of a taken session has launched, and it is stale from then on. -/
theorem settles_stale (h : SessionFits s thread.session) (hw : s.threads[w]? = some thread)
    {state state' : SessionState} (hst : s.disp.status thread.session = some state)
    (hfit : PcFits state (s.disp.controls thread.session) thread.pc)
    (hsettles : settles state' = true) (hlegal : state.requireTransition state' = true)
    {w' : WorkerId} {thread' : Worker} (hne : w' ≠ w) (hw' : s.threads[w']? = some thread')
    (hS' : thread'.session = thread.session) (ha' : thread'.pc.active = true) :
    state'.isTerminal = true ∧ Stale (s.disp.controls thread.session) thread'.pc := by
  have hlive : state.isTerminal = false := attended_not_terminal hfit.attended
  have hfit' := Attends.fits (hst ▸ h.working w' thread' hw' hS' ha') hlive
  have hunique := fun hx => hne (h.unique w' w thread' thread hw' hw hS' rfl ha' hfit.active hx)
  have hexcl : exclusive (some state) = false := by
    by_contra hcon
    exact hunique (Or.inr (hst ▸ by simpa using hcon))
  have hinvoked : thread'.pc.invoked = false := by
    by_contra hcon
    exact hunique (Or.inl (by simpa using hcon))
  obtain rfl : state = .canceling := by
    have hatt := hfit.attended
    revert hexcl hatt
    cases state <;> decide
  exact ⟨canceling_settles hsettles hlegal, hfit'.stale hinvoked (h.record _ hst).2.1⟩

/-- The block that settles the session. -/
theorem worker_settles (h : SessionFits s thread.session)
    (hm : WorkerMove s.disp w thread.session thread.pc d pc)
    (hw : s.threads[w]? = some thread) {r r' : SessionRecord}
    (hr : s.disp.records.get? thread.session = some r)
    (hfit : PcFits r.state (s.disp.controls thread.session) thread.pc)
    (hpend : d.pending = s.disp.pending) (hitems : d.itemEvents = s.disp.itemEvents)
    (hr' : d.records.get? thread.session = some r') (hsettles : settles r'.state = true)
    (hlegal : r.state.requireTransition r'.state = true) {result : Option OperationResult}
    {position : Nat} (hpc : pc = .settleEmit r'.state result position)
    (hres : result.isSome = true → r'.state.isTerminal = true) :
    SessionFits (s.advance d w thread pc) thread.session := by
  subst hpc
  have hst : s.disp.status thread.session = some r.state := status_of_record hr
  have hst' : d.status thread.session = some r'.state := status_of_record hr'
  have hlive : r.state.isTerminal = false := attended_not_terminal hfit.attended
  have hlt := (h.record r.state hst).1
  have hctl : d.controls thread.session = s.disp.controls thread.session :=
    congrFun hm.controls_eq _
  have hnext : s.disp.nextSession = d.nextSession := hm.nextSession_eq.symm
  have hover (ht : r'.state.isTerminal = true) : Over (d.status thread.session) :=
    fun st hmem => Option.some.inj (hst'.symm.trans hmem) ▸ ht
  refine ⟨?record, ?queued, ?idle, ?known, ?working, ?closing, ?unique, ?callers⟩
  case record =>
    intro st hst''
    obtain rfl : r'.state = st := Option.some.inj (hst'.symm.trans hst'')
    exact ⟨hnext ▸ hlt, flagsFit_of_settles hsettles,
      fun _ => (congrArg (thread.session ∈ ·) hitems).mpr ((h.record r.state hst).2.2 hlive)⟩
  case queued =>
    intro hp
    obtain ⟨hcanceling, hcan⟩ := queued_canceling h hw hfit.active hst hlive (hpend ▸ hp)
    exact ⟨hnext ▸ hlt, Or.inr ⟨hctl ▸ hcan,
      Or.inr (hover (canceling_settles hsettles (hcanceling ▸ hlegal)))⟩⟩
  case idle =>
    intro hp w' thread' hw' hS' ha'
    rcases advance_threads hw' with ⟨rfl, rfl⟩ | ⟨hne, hold⟩
    · exact absurd ha' Bool.false_ne_true
    · refine ⟨(h.idle (hpend ▸ hp) w' thread' hold hS' ha').1, ?_⟩
      intro hcon
      obtain h' : r'.state = .pending := Option.some.inj (hst'.symm.trans hcon)
      exact absurd hsettles (by rw [h']; decide)
  case known => exact fun _ _ _ _ => hnext ▸ hlt
  case working =>
    intro w' thread' hw' hS' ha'
    rcases advance_threads hw' with ⟨rfl, rfl⟩ | ⟨hne, hold⟩
    · exact absurd ha' Bool.false_ne_true
    · obtain ⟨hterm, hstale⟩ := settles_stale h hw hst hfit hsettles hlegal hne hold hS' ha'
      exact Or.inr ⟨hover hterm, hctl ▸ hstale⟩
  case closing =>
    intro w' thread' hw' hS' hc'
    rcases advance_threads hw' with ⟨rfl, rfl⟩ | ⟨hne, hold⟩
    · exact hover (hres hc')
    · exact absurd (hst ▸ h.closing w' thread' hold hS' hc') (not_over hlive)
  case unique =>
    intro w₁ w₂ t₁ t₂ h₁ h₂ hS₁ hS₂ ha₁ ha₂ hx
    rcases advance_threads h₁ with ⟨rfl, rfl⟩ | ⟨hne₁, hold₁⟩
    · exact absurd ha₁ Bool.false_ne_true
    rcases advance_threads h₂ with ⟨rfl, rfl⟩ | ⟨hne₂, hold₂⟩
    · exact absurd ha₂ Bool.false_ne_true
    rcases hx with hinv | hexcl
    · exact h.unique w₁ w₂ t₁ t₂ hold₁ hold₂ hS₁ hS₂ ha₁ ha₂ (Or.inl hinv)
    · have hexcl' : exclusive (some r'.state) = true := hst' ▸ hexcl
      exfalso
      revert hsettles hexcl'
      cases r'.state <;> decide
  case callers => exact fun hc => absurd (hst ▸ (h.callers hc).2) (not_over hlive)

/-- A worker past the transition to `RUNNING` was there before the block, or
the session was pending. -/
theorem invoked_before (hm : WorkerMove s.disp w thread.session thread.pc d pc)
    (hi : pc.invoked = true) :
    thread.pc.invoked = true ∨ exclusive (s.disp.status thread.session) = true := by
  rcases hm.invoked_step hi with hi | hpending
  · exact Or.inl hi
  · exact Or.inr (by rw [hpending]; rfl)

/-- Where a state that excludes a second worker was one before the block, the
block leaves at most one. -/
theorem stays_unique (h : SessionFits s thread.session)
    (hm : WorkerMove s.disp w thread.session thread.pc d pc)
    (hw : s.threads[w]? = some thread) (ha : thread.pc.active = true)
    (hexcl : exclusive (d.status thread.session) = true →
      exclusive (s.disp.status thread.session) = true)
    {w₁ w₂ : WorkerId} {t₁ t₂ : Worker}
    (h₁ : (s.advance d w thread pc).threads[w₁]? = some t₁)
    (h₂ : (s.advance d w thread pc).threads[w₂]? = some t₂)
    (hS₁ : t₁.session = thread.session) (hS₂ : t₂.session = thread.session)
    (ha₁ : t₁.pc.active = true) (ha₂ : t₂.pc.active = true)
    (hx : t₁.pc.invoked = true ∨ exclusive (d.status thread.session) = true) : w₁ = w₂ := by
  rcases advance_threads h₁ with ⟨rfl, rfl⟩ | ⟨hne₁, hold₁⟩
  · rcases advance_threads h₂ with ⟨rfl, rfl⟩ | ⟨hne₂, hold₂⟩
    · rfl
    · refine h.unique w₁ w₂ thread t₂ hw hold₂ rfl hS₂ ha ha₂ ?_
      rcases hx with hi | he
      · exact invoked_before hm hi
      · exact Or.inr (hexcl he)
  · rcases advance_threads h₂ with ⟨rfl, rfl⟩ | ⟨hne₂, hold₂⟩
    · exact h.unique w₁ w₂ t₁ thread hold₁ hw hS₁ rfl ha₁ ha (hx.imp_right hexcl)
    · exact h.unique w₁ w₂ t₁ t₂ hold₁ hold₂ hS₁ hS₂ ha₁ ha₂ (hx.imp_right hexcl)

/-- A block after which the worker is still active. -/
theorem worker_stays (h : SessionFits s thread.session)
    (hm : WorkerMove s.disp w thread.session thread.pc d pc)
    (hw : s.threads[w]? = some thread) (ha : thread.pc.active = true) {state state' : SessionState}
    (hst : s.disp.status thread.session = some state) (hlive : state.isTerminal = false)
    (hpend : d.pending = s.disp.pending) (hitems : d.itemEvents = s.disp.itemEvents)
    (hst' : d.status thread.session = some state')
    (hflags : FlagsFit state' (s.disp.controls thread.session))
    (hfit : PcFits state' (s.disp.controls thread.session) pc)
    (hstate : state' = state ∨ state = .pending ∧ state' = .running) :
    SessionFits (s.advance d w thread pc) thread.session := by
  have hlt := (h.record state hst).1
  have hctl : d.controls thread.session = s.disp.controls thread.session :=
    congrFun hm.controls_eq _
  have hnext : s.disp.nextSession = d.nextSession := hm.nextSession_eq.symm
  -- If the session is queued as well, it is being canceled, and the block has left its
  -- state alone.
  have waiting (hp : thread.session ∈ s.disp.pending) : state = .canceling ∧ state' = state := by
    obtain ⟨hc, -⟩ := queued_canceling h hw ha hst hlive hp
    rcases hstate with heq | ⟨hpending, -⟩
    · exact ⟨hc, heq⟩
    · exact absurd (hc.symm.trans hpending) (by decide)
  refine ⟨?record, ?queued, ?idle, ?known, ?working, ?closing, ?unique, ?callers⟩
  case record =>
    intro st hst''
    obtain rfl : state' = st := Option.some.inj (hst'.symm.trans hst'')
    exact ⟨hnext ▸ hlt, (congrArg (FlagsFit state') hctl).mpr hflags,
      fun _ => (congrArg (thread.session ∈ ·) hitems).mpr ((h.record state hst).2.2 hlive)⟩
  case queued =>
    intro hp
    have hp' : thread.session ∈ s.disp.pending := hpend ▸ hp
    have hstat : d.status thread.session = s.disp.status thread.session := by
      rw [hst, hst', (waiting hp').2]
    have hq := h.queued hp'
    refine ⟨hnext ▸ hq.1, ?_⟩
    show Waits (d.status thread.session) (d.controls thread.session)
    rw [hstat, hctl]
    exact hq.2
  case idle =>
    intro hp w' thread' hw' hS' ha'
    have hp' : thread.session ∈ s.disp.pending := hpend ▸ hp
    obtain ⟨hc, heq⟩ := waiting hp'
    have hne' : d.status thread.session ≠ some .pending := by
      rw [hst', heq, hc]
      decide
    rcases advance_threads hw' with ⟨rfl, rfl⟩ | ⟨hne, hold⟩
    · refine ⟨?_, hne'⟩
      by_contra hcon
      rcases invoked_before hm (by simpa using hcon) with hi | he
      · exact absurd hi (by simp [(h.idle hp' w' thread hw rfl ha).1])
      · exact absurd he (by rw [hst, hc]; decide)
    · exact ⟨(h.idle hp' w' thread' hold hS' ha').1, hne'⟩
  case known => exact fun _ _ _ _ => hnext ▸ hlt
  case working =>
    intro w' thread' hw' hS' ha'
    show Attends (d.status thread.session) (d.controls thread.session) thread'.pc
    rw [hst', hctl]
    rcases advance_threads hw' with ⟨rfl, rfl⟩ | ⟨hne, hold⟩
    · exact Or.inl ⟨state', rfl, hfit⟩
    · have hold' := h.working w' thread' hold hS' ha'
      rcases hstate with rfl | ⟨rfl, -⟩
      · exact hst ▸ hold'
      · exact absurd (h.unique w' w thread' thread hold hw hS' rfl ha' ha
          (Or.inr (by rw [hst]; rfl))) hne
  case closing =>
    intro w' thread' hw' hS' hc'
    rcases advance_threads hw' with ⟨rfl, rfl⟩ | ⟨hne, hold⟩
    · have hpc : pc.active = true := hfit.active
      cases pc <;> first | exact absurd hc' Bool.false_ne_true | exact absurd hpc Bool.false_ne_true
    · exact absurd (hst ▸ h.closing w' thread' hold hS' hc') (not_over hlive)
  case unique =>
    intro w₁ w₂ t₁ t₂ h₁ h₂ hS₁ hS₂ ha₁ ha₂ hx
    refine stays_unique h hm hw ha ?_ h₁ h₂ hS₁ hS₂ ha₁ ha₂ hx
    rw [hst, hst']
    rcases hstate with rfl | ⟨rfl, -⟩
    · exact id
    · exact fun _ => rfl
  case callers => exact fun hc => absurd (hst ▸ (h.callers hc).2) (not_over hlive)

/-- A block of a stale worker that does not end in its `finally`. -/
theorem worker_stale (h : SessionFits s thread.session)
    (hm : WorkerMove s.disp w thread.session thread.pc d pc)
    (hw : s.threads[w]? = some thread) (ha : thread.pc.active = true)
    (hover : Over (s.disp.status thread.session)) (hpend : d.pending = s.disp.pending)
    (hitems : d.itemEvents = s.disp.itemEvents) (hrec : d.records = s.disp.records)
    (hstale : Stale (s.disp.controls thread.session) pc) :
    SessionFits (s.advance d w thread pc) thread.session := by
  have hst : d.status thread.session = s.disp.status thread.session := by
    simp only [status, hrec]
  have hctl : d.controls thread.session = s.disp.controls thread.session :=
    congrFun hm.controls_eq _
  have hnext : s.disp.nextSession = d.nextSession := hm.nextSession_eq.symm
  have hlt := h.known w thread hw rfl
  have hexcl : exclusive (s.disp.status thread.session) = false := by
    cases hs : s.disp.status thread.session with
    | none => rfl
    | some state =>
        have hterm := hover state (by simp [hs])
        revert hterm
        cases state <;> decide
  refine ⟨?record, ?queued, ?idle, ?known, ?working, ?closing, ?unique, ?callers⟩
  case record =>
    intro st hst'
    have hr := h.record st (hst ▸ hst')
    exact ⟨hnext ▸ hr.1, (congrArg (FlagsFit st) hctl).mpr hr.2.1,
      fun hn => (congrArg (thread.session ∈ ·) hitems).mpr (hr.2.2 hn)⟩
  case queued =>
    intro hp
    have hq := h.queued (hpend ▸ hp)
    refine ⟨hnext ▸ hq.1, ?_⟩
    show Waits (d.status thread.session) (d.controls thread.session)
    rw [hst, hctl]
    exact hq.2
  case idle =>
    intro hp w' thread' hw' hS' ha'
    have hp' : thread.session ∈ s.disp.pending := hpend ▸ hp
    rcases advance_threads hw' with ⟨rfl, rfl⟩ | ⟨-, hold⟩
    · exact ⟨hstale.invoked, hst ▸ (h.idle hp' w' thread hw rfl ha).2⟩
    · exact ⟨(h.idle hp' w' thread' hold hS' ha').1, hst ▸ (h.idle hp' w thread hw rfl ha).2⟩
  case known => exact fun _ _ _ _ => hnext ▸ hlt
  case working =>
    intro w' thread' hw' hS' ha'
    show Attends (d.status thread.session) (d.controls thread.session) thread'.pc
    rw [hst, hctl]
    rcases advance_threads hw' with ⟨rfl, rfl⟩ | ⟨-, hold⟩
    · exact Or.inr ⟨hover, hstale⟩
    · exact h.working w' thread' hold hS' ha'
  case closing => exact fun _ _ _ _ _ => hst ▸ hover
  case unique =>
    intro w₁ w₂ t₁ t₂ h₁ h₂ hS₁ hS₂ ha₁ ha₂ hx
    have hi : t₁.pc.invoked = true := hx.resolve_right (by
      show ¬ exclusive (d.status thread.session) = true
      simp [hst, hexcl])
    rcases advance_threads h₁ with ⟨rfl, rfl⟩ | ⟨hne₁, hold₁⟩
    · exact absurd hi (by simp [hstale.invoked])
    · have hold := (h.working w₁ t₁ hold₁ hS₁ ha₁).stale hover
      exact absurd hi (by simp [hold.invoked])
  case callers =>
    intro hc
    have hcl := h.callers hc
    exact ⟨hnext ▸ hcl.1, hst ▸ hcl.2⟩

/-- A block of a worker on its way out. -/
theorem worker_leaves (h : SessionFits s thread.session)
    (hm : WorkerMove s.disp w thread.session thread.pc d pc)
    (hw : s.threads[w]? = some thread) (ha : thread.pc.active = false) :
    SessionFits (s.advance d w thread pc) thread.session := by
  have hl := hm.leaving_step ha
  have hctl : d.controls thread.session = s.disp.controls thread.session :=
    congrFun hm.controls_eq _
  have hnext : s.disp.nextSession = d.nextSession := hm.nextSession_eq.symm
  have hthreads := threadsKept_advance_self (d := d) hw hl.leaving hl.closing
  rcases hl.record with ⟨hpend, hst⟩ | ⟨hpend, hst, hst', hcan⟩
  · refine h.frame ⟨hst, hctl, fun hp => hpend ▸ hp, ?_, le_of_eq hnext, hthreads, fun hc => hc⟩
    intro hi
    cases hc : thread.pc.closing with
    | false => exact Or.inl ((congrArg (thread.session ∈ ·) (hl.itemEvents hc)).mpr hi)
    | true => exact Or.inr (h.closing w thread hw rfl hc)
  · have hclosing : thread.pc.closing = false := by
      by_contra hc
      exact absurd (hst ▸ h.closing w thread hw rfl (by simpa using hc)) (not_over rfl)
    have hpc : ∀ pc, ¬ PcFits .paused (s.disp.controls thread.session) pc :=
      fun pc hfit => absurd hfit.attended (by decide)
    refine h.control hst rfl hst' ?_ (hl.itemEvents hclosing) hnext hthreads (fun hc => hc)
      (fun pc hfit => absurd hfit (hpc pc)) ?_ (fun pc hfit => absurd hfit (hpc pc))
    · exact (congrArg (FlagsFit .canceling) hctl).mpr hcan
    · refine fun _ => ⟨Or.inr ⟨?_, Or.inl rfl⟩, fun pc hfit => absurd hfit (hpc pc)⟩
      exact (congrArg Control.cancel hctl).trans hcan

end

/-- Every block of a worker keeps the lifecycle. -/
theorem Lifecycle.worker {s : System} {d : Dispatcher} {w : WorkerId} {thread : Worker}
    {pc : WorkerPc} (h : Lifecycle s) (hw : s.threads[w]? = some thread)
    (hm : WorkerMove s.disp w thread.session thread.pc d pc) :
    Lifecycle (s.advance d w thread pc) := by
  have hS := h.session thread.session
  -- the queue and the worker's own session
  have own : (d.pending = s.disp.pending ∨
      d.pending = s.disp.pending ++ [thread.session] ∧ thread.session ∉ s.disp.pending) ∧
      SessionFits (s.advance d w thread pc) thread.session := by
    cases ha : thread.pc.active with
    | false =>
        refine ⟨?_, worker_leaves hS hm hw ha⟩
        rcases (hm.leaving_step ha).record with ⟨hpend, -⟩ | ⟨hpend, hst, -⟩
        · exact Or.inl hpend
        · refine Or.inr ⟨hpend, fun hp => ?_⟩
          obtain ⟨-, hwait | ⟨-, hwait | hover⟩⟩ := hS.queued hp
          · exact absurd (hst.symm.trans hwait) (by decide)
          · exact absurd (hst.symm.trans hwait) (by decide)
          · exact absurd (hst ▸ hover) (not_over rfl)
    | true =>
        rcases hS.working w thread hw rfl ha with ⟨state, hst, hfit⟩ | ⟨hover, hstale⟩
        · obtain ⟨r, hr, rfl⟩ := status_eq_some.mp hst
          obtain ⟨-, hflags, hitem⟩ := hS.record r.state hst
          have hlive := attended_not_terminal hfit.attended
          have hstep := hm.active_step hr hfit hflags (hitem hlive)
          refine ⟨Or.inl hstep.pending, ?_⟩
          obtain ⟨r', hr', hflags', ⟨hfit', hstate⟩ | ⟨hsettles, hlegal, result, hpc, hres⟩⟩ :=
            hstep.record
          · exact worker_stays hS hm hw ha hst hlive hstep.pending hstep.itemEvents
              (status_of_record hr') hflags' hfit' hstate
          · exact worker_settles hS hm hw hr hfit hstep.pending hstep.itemEvents hr' hsettles
              hlegal hpc hres
        · have hterm : ∀ r, s.disp.records.get? thread.session = some r →
              r.state.isTerminal = true :=
            fun r hr => hover r.state (by simp [status_of_record hr])
          obtain ⟨hpend, hitems, hrec, hstale' | rfl⟩ := hm.stale_step hterm hstale
          · exact ⟨Or.inl hpend, worker_stale hS hm hw ha hover hpend hitems hrec hstale'⟩
          · refine ⟨Or.inl hpend, hS.frame ?_⟩
            exact
              { status := by simp only [System.advance, status, hrec]
                control := congrFun hm.controls_eq _
                pending := fun hp => hpend ▸ hp
                items := fun hi => Or.inl ((congrArg (thread.session ∈ ·) hitems).mpr hi)
                next := le_of_eq hm.nextSession_eq.symm
                threads := threadsKept_advance_self hw rfl
                  (fun hc => absurd hc Bool.false_ne_true)
                clients := fun hc => hc }
  refine ⟨?_, fun T => ?_⟩
  · rcases own.1 with hpend | ⟨hpend, hnew⟩
    · exact hpend ▸ h.nodup
    · show d.pending.Nodup
      rw [hpend]
      exact nodup_enqueue h.nodup hnew
  · by_cases hT : T = thread.session
    · exact hT ▸ own.2
    · refine worker_others hm (fun T hne hp => ?_) hT (h.session T)
      rcases own.1 with hpend | ⟨hpend, -⟩
      · exact hpend ▸ hp
      · rw [hpend] at hp
        simpa [hne] using hp

/-! ## Calls

One lemma for each control method, since each has its own way to leave the
session: paused, queued again, or canceling with or without a worker. -/

/-- The first block of a call, and the caller it leaves behind. -/
def System.calls (s : System) (d : Dispatcher) (client : Client) : System :=
  { s with disp := d, clients := s.clients ++ [client] }

/-- A call leaves the other sessions alone. -/
theorem call_others {s : System} {d : Dispatcher} {client : Client} {T : SessionId}
    (h : SessionFits s T) (hst : d.status T = s.disp.status T)
    (hctl : d.controls T = s.disp.controls T) (hpend : T ∈ d.pending → T ∈ s.disp.pending)
    (hitems : d.itemEvents = s.disp.itemEvents) (hnext : d.nextSession = s.disp.nextSession)
    (hclient : client ≠ .closePop T) : SessionFits (s.calls d client) T :=
  h.frame
    { status := hst
      control := hctl
      pending := hpend
      items := fun hi => Or.inl ((congrArg (T ∈ ·) hitems).mpr hi)
      next := le_of_eq hnext.symm
      threads := ThreadsKept.of_eq rfl
      clients := fun hc => by
        rcases List.mem_append.mp hc with hc | hc
        · exact hc
        · exact absurd (List.mem_singleton.mp hc).symm hclient }

theorem not_queued {s : System} {S : SessionId} {state : SessionState} (h : SessionFits s S)
    (hst : s.disp.status S = some state) (hlive : state.isTerminal = false)
    (hp : state ≠ .pending) (hc : state ≠ .canceling) : S ∉ s.disp.pending := by
  intro hq
  obtain ⟨-, hwait | ⟨-, hwait | hover⟩⟩ := h.queued hq
  · exact hp (Option.some.inj (hst.symm.trans hwait))
  · exact hc (Option.some.inj (hst.symm.trans hwait))
  · exact not_over hlive (hst ▸ hover)

theorem Dispatcher.CallMove.resources_step {d d' : Dispatcher} {c : Call} {client : Client}
    {T : SessionId} (h : CallMove d c d' client) {r' : SessionRecord}
    (hr : d'.records.get? T = some r') :
    ∃ r, d.records.get? T = some r ∧ r.resources = r'.resources := by
  cases h with
  | pause h₀ | resume h₀ | cancel h₀ =>
      exact resources_set (SessionRecord.moveTo _ _ _) h₀ rfl hr
  | submit | close | cancelPausing => exact ⟨r', hr, rfl⟩

/-- Only a resume lowers a cancel flag. -/
theorem Dispatcher.CallMove.cancel_step {d d' : Dispatcher} {c : Call} {client : Client}
    {T : SessionId} (h : CallMove d c d' client) (hcan : (d.controls T).cancel = true) :
    (d'.controls T).cancel = true ∨
      c = .resume T ∧ (d.status T = some .paused ∨ d.status T = some .interrupted) := by
  cases h with
  | submit | close => exact Or.inl hcan
  | @pause S =>
      left
      by_cases hT : T = S <;> simp_all [Control.requestPause]
  | @resume S r hr hst =>
      by_cases hT : T = S
      · subst hT
        refine Or.inr ⟨rfl, ?_⟩
        rcases hst with hst | hst
        · exact Or.inl (hst ▸ status_of_record hr)
        · exact Or.inr (hst ▸ status_of_record hr)
      · left
        simpa [hT] using hcan
  | @cancelPausing S | @cancel S =>
      left
      by_cases hT : T = S <;> simp_all [Control.requestCancel]

theorem not_fits_paused {control : Control} {pc : WorkerPc} : ¬ PcFits .paused control pc :=
  fun h => absurd h.attended (by decide)

section
variable {s : System} {S : SessionId} {r : SessionRecord}

/-- A pause, seen from its session. -/
theorem call_pauses (h : SessionFits s S) (hr : s.disp.records.get? S = some r)
    (hrun : r.state = .running) {position : Nat} :
    SessionFits (s.calls ((s.disp.setControl S (s.disp.controls S).requestPause).moved S r .pausing)
      (.announce S .pausing position)) S := by
  have hst : s.disp.status S = some .running := hrun ▸ status_of_record hr
  have hnot := not_queued h hst rfl (by decide) (by decide)
  exact h.control hst rfl (status_moved_self _ _ _ _) trivial rfl rfl
    (ThreadsKept.of_eq rfl) (by simp [System.calls]) (fun pc hfit => hfit.paused)
    (fun hq => absurd hq hnot) (fun _ _ _ => rfl)

/-- A dispatcher that was not restarted resumes a paused session. -/
theorem resumes_paused (h : SessionFits s S) (hr : s.disp.records.get? S = some r)
    (hpaused : r.state = .paused ∨ r.state = .interrupted) : s.disp.status S = some .paused := by
  have hflags := (h.record r.state (status_of_record hr)).2.1
  rcases hpaused with hp | hp
  · exact hp ▸ status_of_record hr
  · rw [hp] at hflags
    exact hflags.elim

/-- A resume, seen from its session. -/
theorem call_resumes (h : SessionFits s S) (hst : s.disp.status S = some .paused)
    {position : Nat} :
    SessionFits (s.calls
      { (s.disp.setControl S {}).moved S r .pending with pending := s.disp.pending ++ [S] }
      (.announce S .pending position)) S :=
  h.control hst rfl (status_moved_self _ _ _ _) (by simp [System.calls, FlagsFit]) rfl rfl
    (ThreadsKept.of_eq rfl) (by simp [System.calls]) (fun pc hfit => absurd hfit not_fits_paused)
    (fun _ => ⟨Or.inl rfl, fun pc hfit => absurd hfit not_fits_paused⟩)
    (fun pc hfit => absurd hfit not_fits_paused)

/-- A cancel during the pause drain, seen from its session. -/
theorem call_flags (h : SessionFits s S) (hr : s.disp.records.get? S = some r)
    (hpausing : r.state = .pausing) :
    SessionFits (s.calls (s.disp.setControl S (s.disp.controls S).requestCancel) .returned) S := by
  have hst : s.disp.status S = some .pausing := hpausing ▸ status_of_record hr
  have hnot := not_queued h hst rfl (by decide) (by decide)
  exact h.control hst rfl hst trivial rfl rfl (ThreadsKept.of_eq rfl) (by simp [System.calls])
    (fun pc hfit => hfit.flagged) (fun hq => absurd hq hnot) (fun _ _ _ => rfl)

/-- The queue after a cancel. -/
abbrev cancelPending (s : System) (S : SessionId) (r : SessionRecord) : List SessionId :=
  if cancelQueues r.state ∧ S ∉ s.disp.pending then s.disp.pending ++ [S] else s.disp.pending

/-- A session that has an active worker, and that a cancel finds in the queue
or puts there, was pending. -/
theorem cancel_pending (h : SessionFits s S) (hr : s.disp.records.get? S = some r)
    (hlive : r.state.isTerminal = false) (hnc : r.state ≠ .canceling) {control : Control}
    {pc : WorkerPc} (hfit : PcFits r.state control pc) (hq : S ∈ cancelPending s S r) :
    r.state = .pending := by
  by_contra hne
  have hnot := not_queued h (status_of_record hr) hlive hne hnc
  have hqueues : cancelQueues r.state = true := by
    by_contra hcq
    exact hnot (by simpa [cancelPending, hcq] using hq)
  have hatt := hfit.attended
  revert hqueues hatt hne
  cases r.state <;> decide

/-- A cancel, seen from its session. -/
theorem call_cancels (h : SessionFits s S) (hr : s.disp.records.get? S = some r)
    (hlive : r.state.isTerminal = false) (hnc : r.state ≠ .canceling) (hnp : r.state ≠ .pausing)
    {position : Nat} :
    SessionFits (s.calls
      { (s.disp.setControl S (s.disp.controls S).requestCancel).moved S r .canceling with
        pending := cancelPending s S r }
      (.announce S .canceling position)) S := by
  have hst := status_of_record hr
  have hflags := (h.record r.state hst).2.1
  refine h.control hst hlive (status_moved_self _ _ _ _) ?_ rfl rfl (ThreadsKept.of_eq rfl)
    (by simp [System.calls]) (fun pc hfit => ?_) (fun hq => ⟨?_, fun pc hfit => ?_⟩)
    (fun pc _ he => absurd he (by decide))
  · simp [System.calls, FlagsFit, Control.requestCancel]
  · have := hfit.canceled hnp hflags hnc
    simpa [System.calls] using this
  · exact Or.inr ⟨by simp [System.calls, Control.requestCancel], Or.inl rfl⟩
  · refine ⟨?_, by decide⟩
    rw [cancel_pending h hr hlive hnc hfit hq] at hfit
    exact hfit.pending_invoked

/-- A settled session may be closed. -/
theorem call_closes (h : SessionFits s S) (hr : s.disp.records.get? S = some r)
    (hset : r.isSettled = true) : SessionFits (s.calls s.disp (.closePop S)) S := by
  have hover : Over (s.disp.status S) := by
    rw [status_of_record hr]
    intro st hmem
    obtain rfl : r.state = st := by simpa using hmem
    simp only [SessionRecord.isSettled, Bool.and_eq_true] at hset
    exact hset.1
  exact { h with callers := fun _ => ⟨(h.record _ (status_of_record hr)).1, hover⟩ }

end

theorem Lifecycle.call {s : System} {c : Call} {d : Dispatcher} {client : Client}
    (h : Lifecycle s) (hm : CallMove s.disp c d client) : Lifecycle (s.calls d client) := by
  cases hm with
  | submit hacc hreg =>
      exact ⟨h.nodup, fun T => call_others (h.session T) rfl rfl id rfl rfl (by simp)⟩
  | @pause S r hr hrun hsup =>
      refine ⟨h.nodup, fun T => ?_⟩
      by_cases hT : T = S
      · subst hT
        exact call_pauses (h.session T) hr hrun
      · refine call_others (h.session T) (status_moved_ne _ _ _ hT) ?_ id rfl rfl (by simp)
        simp [hT]
  | @resume S r hr hpaused =>
      have hst := resumes_paused (h.session S) hr hpaused
      have hnot := not_queued (h.session S) hst rfl (by decide) (by decide)
      refine ⟨nodup_enqueue h.nodup hnot, fun T => ?_⟩
      by_cases hT : T = S
      · subst hT
        exact call_resumes (h.session T) hst
      · refine call_others (h.session T) (status_moved_ne _ _ _ hT) ?_ ?_ rfl rfl (by simp)
        · simp [hT]
        · simp [hT]
  | @cancelPausing S r hr hpausing =>
      refine ⟨h.nodup, fun T => ?_⟩
      by_cases hT : T = S
      · subst hT
        exact call_flags (h.session T) hr hpausing
      · exact call_others (h.session T) rfl (by simp [hT]) id rfl rfl (by simp)
  | @cancel S r hr hlive hnc hnp =>
      refine ⟨?_, fun T => ?_⟩
      · show (cancelPending s S r).Nodup
        unfold cancelPending
        split
        · next hq => exact nodup_enqueue h.nodup hq.2
        · exact h.nodup
      by_cases hT : T = S
      · subst hT
        exact call_cancels (h.session T) hr hlive hnc hnp
      · refine call_others (h.session T) (status_moved_ne _ _ _ hT) ?_ ?_ rfl rfl (by simp)
        · simp [hT]
        · intro hq
          by_cases hcq : cancelQueues r.state = true ∧ S ∉ s.disp.pending
          · simpa [hcq, hT] using hq
          · simpa [hcq] using hq
  | @close S r hr hset =>
      refine ⟨h.nodup, fun T => ?_⟩
      by_cases hT : T = S
      · subst hT
        exact call_closes (h.session T) hr hset
      · exact call_others (h.session T) rfl rfl id rfl rfl (by simpa using fun h => hT h.symm)

/-! ## Callers in the middle of a call

These announce or return, apart from the registration of a new session, which
starts in the queue and without a worker. -/

theorem mem_set_of_ne {clients : List Client} {i : Nat} {client x : Client}
    (h : x ∈ clients.set i client) (hne : x ≠ client) : x ∈ clients :=
  (List.mem_or_eq_of_mem_set h).resolve_right hne

/-- A caller that leaves the view of a session as it was. -/
theorem client_others {s : System} {d : Dispatcher} {i : Nat} {client : Client} {T : SessionId}
    (h : SessionFits s T) (hst : d.status T = s.disp.status T)
    (hctl : d.controls T = s.disp.controls T) (hpend : T ∈ d.pending → T ∈ s.disp.pending)
    (hitems : T ∈ s.disp.itemEvents → T ∈ d.itemEvents)
    (hnext : s.disp.nextSession ≤ d.nextSession) (hclient : client ≠ .closePop T) :
    SessionFits { s with disp := d, clients := s.clients.set i client } T :=
  h.frame
    { status := hst
      control := hctl
      pending := hpend
      items := fun hi => Or.inl (hitems hi)
      next := hnext
      threads := ThreadsKept.of_eq rfl
      clients := fun hc => mem_set_of_ne hc hclient.symm }

/-- A freshly registered session. -/
theorem client_registers {s : System} {i : Nat} {r : SessionRecord}
    (h : SessionFits s s.disp.nextSession) (hr : r.state = .pending) :
    SessionFits { s with
      disp := s.disp.registerSession r
      clients := s.clients.set i (.admitEmit s.disp.nextSession) } s.disp.nextSession := by
  have hst : (s.disp.registerSession r).status s.disp.nextSession = some .pending := by
    simp [status, hr]
  have no_thread : ∀ {w : WorkerId} {thread : Worker}, s.threads[w]? = some thread →
      thread.session ≠ s.disp.nextSession :=
    fun hw hS => absurd (h.known _ _ hw hS) (Nat.lt_irrefl _)
  refine ⟨?record, ?queued, ?idle, ?known, ?working, ?closing, ?unique, ?callers⟩
  case record =>
    intro st hst'
    obtain rfl : SessionState.pending = st := Option.some.inj (hst.symm.trans hst')
    exact ⟨Nat.lt_succ_self _, by simp [FlagsFit], fun _ => by simp⟩
  case queued => exact fun _ => ⟨Nat.lt_succ_self _, Or.inl hst⟩
  case idle => exact fun _ w thread hw hS => absurd hS (no_thread hw)
  case known => exact fun w thread hw hS => absurd hS (no_thread hw)
  case working => exact fun w thread hw hS => absurd hS (no_thread hw)
  case closing => exact fun w thread hw hS => absurd hS (no_thread hw)
  case unique => exact fun w₁ w₂ t₁ t₂ h₁ h₂ hS₁ => absurd hS₁ (no_thread h₁)
  case callers =>
    exact fun hc => absurd (h.callers (mem_set_of_ne hc (by simp))).1 (Nat.lt_irrefl _)

theorem Lifecycle.client {s : System} {i : Nat} {client client' : Client} {d : Dispatcher}
    (h : Lifecycle s) (hi : s.clients[i]? = some client) (hm : ClientMove s.disp client d client') :
    Lifecycle { s with disp := d, clients := s.clients.set i client' } := by
  cases hm with
  | prepareFailed | prepared | registerFailed | emitPending | admitDone | announce =>
      exact ⟨h.nodup, fun T =>
        client_others (h.session T) rfl rfl id id (Nat.le_refl _) (by simp)⟩
  | @registered kind p prepared order createdAt hacc =>
      have hfresh : s.disp.nextSession ∉ s.disp.pending :=
        fun hq => absurd ((h.session _).queued hq).1 (Nat.lt_irrefl _)
      refine ⟨nodup_enqueue h.nodup hfresh, fun T => ?_⟩
      by_cases hT : T = s.disp.nextSession
      · subst hT
        exact client_registers (h.session _) rfl
      · refine client_others (h.session T) ?_ ?_ ?_ ?_ (Nat.le_succ _) (by simp)
        · simp [status, Dict.get?_set_ne _ _ hT]
        · simp [hT]
        · simp [hT]
        · simpa using Or.inl
  | @closePop S =>
      have hmem : Client.closePop S ∈ s.clients := List.mem_of_getElem? hi
      refine ⟨h.nodup, fun T => ?_⟩
      by_cases hT : T = S
      · subst hT
        exact (h.session T).closed ((h.session T).callers hmem).2 (by simp [status]) rfl id
          (Nat.le_refl _) (ThreadsKept.of_eq rfl) (fun hc => mem_set_of_ne hc (by simp))
      · refine client_others (h.session T) ?_ rfl id ?_ (Nat.le_refl _) (by simp)
        · simp [status, Dict.get?_pop_ne _ hT]
        · simp [hT]

/-! ## The scheduler

A pass takes sessions out of the queue and gives each one worker, which is at
the start of its program. -/

/-- The system after a pass that launches workers. -/
def System.launch (s : System) (d : Dispatcher) (launches : List (SessionId × Bool)) : System :=
  { s with disp := d, threads := s.threads ++ launches.map (fun e => ⟨e.1, e.2, .start⟩) }

theorem launch_threads {s : System} {d : Dispatcher} {launches : List (SessionId × Bool)}
    {w : WorkerId} {thread : Worker} (h : (s.launch d launches).threads[w]? = some thread) :
    s.threads[w]? = some thread ∨ s.threads.length ≤ w ∧ ∃ e,
      launches[w - s.threads.length]? = some e ∧ thread = ⟨e.1, e.2, .start⟩ := by
  simp only [System.launch] at h
  by_cases hw : w < s.threads.length
  · rw [List.getElem?_append_left hw] at h
    exact Or.inl h
  · rw [List.getElem?_append_right (Nat.le_of_not_lt hw), List.getElem?_map] at h
    obtain ⟨e, he, heq⟩ := Option.map_eq_some_iff.mp h
    exact Or.inr ⟨Nat.le_of_not_lt hw, e, he, heq.symm⟩

/-- A session that a pass launches is wound up, or starts with no other
worker about. -/
theorem launch_fits {s : System} {d : Dispatcher} {launches : List (SessionId × Bool)}
    {S : SessionId} (h : SessionFits s S) (hq : S ∈ s.disp.pending)
    (hnodup : (launches.map (·.1)).Nodup) (hgone : S ∉ d.pending)
    (hst : d.status S = s.disp.status S) (hctl : d.controls S = s.disp.controls S)
    (hitems : d.itemEvents = s.disp.itemEvents) (hnext : d.nextSession = s.disp.nextSession) :
    SessionFits (s.launch d launches) S := by
  obtain ⟨hlt, hwaits⟩ := h.queued hq
  have fits : Attends (s.disp.status S) (s.disp.controls S) .start := by
    rcases hwaits with hp | ⟨hcan, hc | hover⟩
    · exact Or.inl ⟨.pending, hp, Or.inl rfl⟩
    · exact Or.inl ⟨.canceling, hc, Or.inr rfl⟩
    · exact Or.inr ⟨hover, hcan, trivial⟩
  -- A worker that is there already can only belong to a canceled session.
  have not_exclusive : ∀ {w : WorkerId} {thread : Worker}, s.threads[w]? = some thread →
      thread.session = S → thread.pc.active = true →
      thread.pc.invoked = false ∧ exclusive (s.disp.status S) = false := by
    intro w thread hw hS ha
    obtain ⟨hinv, hne⟩ := h.idle hq w thread hw hS ha
    refine ⟨hinv, ?_⟩
    rcases hwaits with hp | ⟨-, hc | hover⟩
    · exact absurd hp hne
    · rw [hc]; rfl
    · cases hs : s.disp.status S with
      | none => rfl
      | some state =>
          have hterm := hover state (by simp [hs])
          revert hterm
          cases state <;> decide
  refine ⟨?record, ?queued, ?idle, ?known, ?working, ?closing, ?unique, ?callers⟩
  case record =>
    intro st hst'
    have hr := h.record st (hst ▸ hst')
    exact ⟨hnext ▸ hr.1, (congrArg (FlagsFit st) hctl).mpr hr.2.1,
      fun hn => (congrArg (S ∈ ·) hitems).mpr (hr.2.2 hn)⟩
  case queued => exact fun hp => absurd hp hgone
  case idle => exact fun hp => absurd hp hgone
  case known => exact fun _ _ _ _ => hnext ▸ hlt
  case working =>
    intro w thread hw hS ha
    show Attends (d.status S) (d.controls S) thread.pc
    rw [hst, hctl]
    rcases launch_threads hw with hold | ⟨-, e, -, rfl⟩
    · exact h.working w thread hold hS ha
    · exact fits
  case closing =>
    intro w thread hw hS hc
    rcases launch_threads hw with hold | ⟨-, e, -, rfl⟩
    · exact hst ▸ h.closing w thread hold hS hc
    · exact absurd hc Bool.false_ne_true
  case unique =>
    intro w₁ w₂ t₁ t₂ h₁ h₂ hS₁ hS₂ ha₁ ha₂ hx
    have hx' : t₁.pc.invoked = true ∨ exclusive (s.disp.status S) = true := hst ▸ hx
    rcases launch_threads h₁ with hold₁ | ⟨hle₁, e₁, he₁, rfl⟩
    · obtain ⟨hinv, hexcl⟩ := not_exclusive hold₁ hS₁ ha₁
      exact absurd hx' (by simp [hinv, hexcl])
    · rcases launch_threads h₂ with hold₂ | ⟨hle₂, e₂, he₂, rfl⟩
      · obtain ⟨-, hexcl⟩ := not_exclusive hold₂ hS₂ ha₂
        exact absurd hx' (by simp [WorkerPc.invoked, hexcl])
      · -- Two new ones have the places of two launches, and a session is launched once.
        have hlt₁ : w₁ - s.threads.length < (launches.map (·.1)).length := by
          rw [List.length_map]
          exact (List.getElem?_eq_some_iff.mp he₁).1
        have heq : (launches.map (·.1))[w₁ - s.threads.length]? =
            (launches.map (·.1))[w₂ - s.threads.length]? := by
          simp only [List.getElem?_map, he₁, he₂, Option.map_some]
          exact congrArg some (hS₁.trans hS₂.symm)
        have hindex : w₁ - s.threads.length = w₂ - s.threads.length :=
          (List.getElem?_inj hlt₁ hnodup).mp heq
        calc w₁ = (w₁ - s.threads.length) + s.threads.length := (Nat.sub_add_cancel hle₁).symm
          _ = (w₂ - s.threads.length) + s.threads.length := by rw [hindex]
          _ = w₂ := Nat.sub_add_cancel hle₂
  case callers => exact fun hc => ⟨hnext ▸ (h.callers hc).1, hst ▸ (h.callers hc).2⟩

theorem Lifecycle.schedule {s : System} {d : Dispatcher} {launches : List (SessionId × Bool)}
    (h : Lifecycle s) (hm : s.disp.schedule s.threads.length = some (d, launches)) :
    Lifecycle (s.launch d launches) := by
  rcases schedule_cases hm with ⟨rfl, rfl⟩ | ⟨rfl, hempty, rfl⟩
  · have hselected : (s.disp.pass.selected.map (·.1)).Nodup :=
      h.nodup.sublist (selected_sublist s.disp)
    refine ⟨h.nodup.sublist List.filter_sublist, fun T => ?_⟩
    by_cases hT : T ∈ s.disp.pass.selected.map (·.1)
    · exact launch_fits (h.session T) ((selected_sublist s.disp).subset hT)
        (hselected.sublist (launchable_sublist s.disp))
        (fun hp => of_decide_eq_true (List.mem_filter.mp hp).2 hT) rfl rfl rfl rfl
    · refine (h.session T).frame
        ⟨rfl, rfl, fun hp => (List.mem_filter.mp hp).1, fun hi => Or.inl hi, Nat.le_refl _, ?_,
          fun hc => hc⟩
      intro w thread hw hS
      rcases launch_threads hw with hold | ⟨-, e, he, rfl⟩
      · exact ⟨thread, hold, hS, Or.inl rfl⟩
      · refine absurd ?_ hT
        have hmem := List.mem_of_getElem? he
        exact (launchable_sublist s.disp).subset (List.mem_map.mpr ⟨e, hmem, hS⟩)
  · refine ⟨h.nodup, fun T => (h.session T).frame ?_⟩
    exact ⟨rfl, rfl, id, Or.inl, Nat.le_refl _, ThreadsKept.of_eq (by simp [System.launch]), id⟩

/-! ## Every run

By induction over the run, from the empty dispatcher. -/

theorem Lifecycle.step {s t : System} {a : Action} (h : Lifecycle s) (hstep : s.step a = some t) :
    Lifecycle t := by
  rcases System.step_cases hstep with ⟨c, d, client, -, hm, rfl⟩ |
    ⟨i, choice, client, d, client', -, hi, hm, rfl⟩ |
    ⟨w, choice, thread, d, pc, -, hw, hm, rfl⟩ | ⟨d, launches, -, hm, rfl⟩ | ⟨-, rfl⟩ | ⟨-, rfl⟩
  · exact h.call hm
  · exact h.client hi hm
  · exact h.worker hw hm
  · exact h.schedule hm
  · exact ⟨h.nodup, fun S => { h.session S with }⟩
  · exact ⟨h.nodup, fun S => { h.session S with }⟩

theorem Lifecycle.initial (registry : String → Option WorkflowRegistration) :
    Lifecycle (System.initial registry) where
  nodup := List.nodup_nil
  session S :=
    { record := fun state hst => absurd hst (by simp [System.initial, status])
      queued := fun hp => absurd hp (by simp [System.initial])
      idle := fun hp => absurd hp (by simp [System.initial])
      known := fun w thread hw => absurd hw (by simp [System.initial])
      working := fun w thread hw => absurd hw (by simp [System.initial])
      closing := fun w thread hw => absurd hw (by simp [System.initial])
      unique := fun w₁ w₂ t₁ t₂ h₁ => absurd h₁ (by simp [System.initial])
      callers := fun hc => absurd hc (by simp [System.initial]) }

/-- Every state a dispatcher can reach, by whatever interleaving. -/
theorem Lifecycle.reachable {registry : String → Option WorkflowRegistration} {s : System}
    (h : Transition.AnyRun System.step (System.initial registry) s) : Lifecycle s :=
  h.invariant (fun _ _ _ hI _ hstep => hI.step hstep) (Lifecycle.initial registry)

end NamiSync
