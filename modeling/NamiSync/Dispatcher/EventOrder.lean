/-
# `Dispatcher.EventOrder` — state changes are announced in their order

`_transition_locked` changes the record under the lock; the thread that asked
for the change emits `StateChanged` after it has dropped the lock.  A cancel
whose thread is slow announces `CANCELING` after the worker has announced
`CANCELED` and emitted `Terminal` (`late_announcement`).

The record's history with the announcements of a session is a `Ledger`: the
holders are the threads between a transition and its emit.  Along the runs
in which no thread emits while another one holds an older announcement of
the session (`SpeaksInTurn`), the ledger stays in order.

## What is proved

    events_in_order : Run step (SpeaksInTurn S) (initial registry) s →
      EventsInOrder s S

For one session `S`: what its subscribers were told is an initial part of its
record's history, nothing is told after `Terminal`, and when no announcement
is outstanding the two are equal.  The condition is about the announcements
of `S` alone.

## The argument

Every holder of an unannounced transition is a thread with a position in the
record's history in its program counter.  `OrderFits` ties the three lists
together: the history is what was said followed by what the holders still
have to say, in order of position.  A transition appends to both
(`OrderFits.transits`); an emit in turn moves the first outstanding entry over
(`OrderFits.speaks`); everything else leaves them (`OrderFits.quiet`).
-/
import NamiSync.Dispatcher.Lifecycle
import NamiSync.Lib.Ledger

namespace NamiSync

open SessionState Dispatcher

/-- The transition a caller still has to announce: session, position in the
record's history, state. -/
def Client.announces : Client → Option (SessionId × Nat × SessionState)
  | .admitEmit session => some (session, 0, .pending)
  | .announce session state position => some (session, position, state)
  | _ => none

/-- The transition a worker still has to announce. -/
def WorkerPc.announces : WorkerPc → Option (Nat × SessionState)
  | .announceRunning _ position => some (position, .running)
  | .settleEmit state _ position => some (position, state)
  | .announceCanceling position => some (position, .canceling)
  | _ => none

def Worker.announces (thread : Worker) : Option (SessionId × Nat × SessionState) :=
  thread.pc.announces.map (fun a => (thread.session, a))

/-- Everything that is still to be announced. -/
def System.unannounced (s : System) : List (SessionId × Nat × SessionState) :=
  s.clients.filterMap Client.announces ++ s.threads.filterMap Worker.announces

/-- What a step announces. -/
def System.announcing (s : System) : Action → Option (SessionId × Nat × SessionState)
  | .client i _ => s.clients[i]?.bind Client.announces
  | .worker w _ => s.threads[w]?.bind Worker.announces
  | _ => none

/-- The step does not announce a transition of the session while another
thread still has an older one of it to announce. -/
def System.speaksInTurn (s : System) (S : SessionId) (a : Action) : Bool :=
  match s.announcing a with
  | some (session, position, _) =>
      session ≠ S || s.unannounced.all (fun other => other.1 ≠ S || position ≤ other.2.1)
  | none => true

def SpeaksInTurn (S : SessionId) (s : System) (a : Action) : Prop := s.speaksInTurn S a = true

/-! ## What is said and what is due

A state is set in one block and announced in a later one, so there are threads
that still have to announce.  The invariant relates the three: the states that
the record went through, those that were said, and those that are due. -/

/-- The states a session's subscribers have been told, in order. -/
def Dispatcher.said (d : Dispatcher) (S : SessionId) : List SessionState :=
  (d.hubs S).filterMap EventBody.announced

/-- Thread `i`, a caller or a worker, still has to announce `state`. -/
def Announcing (s : System) (S : SessionId) : Nat ⊕ WorkerId → Nat → SessionState → Prop
  | .inl i, position, state =>
      ∃ client, s.clients[i]? = some client ∧ client.announces = some (S, position, state)
  | .inr w, position, state =>
      ∃ thread, s.threads[w]? = some thread ∧ thread.announces = some (S, position, state)

/-- The worker has announced a terminal state and not yet emitted
`Terminal`. -/
def WorkerPc.concludes : WorkerPc → Bool
  | .finalize _ | .publish _ | .emitTerminal _ => true
  | _ => false

def Concluding (s : System) (S : SessionId) : Prop :=
  ∃ (w : WorkerId) (thread : Worker), s.threads[w]? = some thread ∧ thread.session = S ∧
    thread.pc.concludes = true

/-- A worker still has to announce the terminal state it gave the session. -/
def Settling (s : System) (S : SessionId) (position : Nat) : Prop :=
  ∃ (w : WorkerId) (thread : Worker) (state : SessionState) (result : OperationResult),
    s.threads[w]? = some thread ∧ thread.session = S ∧
      thread.pc = .settleEmit state (some result) position

/-! ## Who announces what, after a step

How the set of threads with something to announce changes, for each of the four
kinds of steps. -/

section
variable {s : System} {d : Dispatcher} {S : SessionId} {j : Nat ⊕ WorkerId} {p : Nat}
  {state : SessionState}

theorem announcing_calls {client : Client} :
    Announcing (s.calls d client) S j p state ↔ Announcing s S j p state ∨
      j = .inl s.clients.length ∧ client.announces = some (S, p, state) := by
  cases j with
  | inl i =>
      simp only [Announcing, System.calls, List.getElem?_append, Sum.inl.injEq]
      by_cases hi : i < s.clients.length
      · simp [hi, Nat.ne_of_lt hi]
      · by_cases heq : i = s.clients.length
        · simp [heq]
        · have hout : [client][i - s.clients.length]? = none := by
            rw [List.getElem?_eq_none_iff, List.length_singleton]
            omega
          simp [hi, heq, hout]
  | inr w => simp [Announcing, System.calls]

theorem announcing_client {i : Nat} {old client : Client} (hi : s.clients[i]? = some old) :
    Announcing { s with disp := d, clients := s.clients.set i client } S j p state ↔
      j ≠ .inl i ∧ Announcing s S j p state ∨
        j = .inl i ∧ client.announces = some (S, p, state) := by
  have hlt := (List.getElem?_eq_some_iff.mp hi).1
  cases j with
  | inl k =>
      by_cases hk : k = i
      · subst hk
        simp [Announcing, hlt]
      · simp [Announcing, hk, List.getElem?_set_ne (Ne.symm hk)]
  | inr w => simp [Announcing]

theorem announcing_advance {w : WorkerId} {thread : Worker} {pc : WorkerPc}
    (hw : s.threads[w]? = some thread) :
    Announcing (s.advance d w thread pc) S j p state ↔
      j ≠ .inr w ∧ Announcing s S j p state ∨
        j = .inr w ∧ thread.session = S ∧ pc.announces = some (p, state) := by
  have hlt := (List.getElem?_eq_some_iff.mp hw).1
  cases j with
  | inl i => simp [Announcing, System.advance]
  | inr k =>
      by_cases hk : k = w
      · subst hk
        simp [Announcing, System.advance, hlt, Worker.announces, and_comm]
      · simp [Announcing, System.advance, hk, List.getElem?_set_ne (Ne.symm hk)]

theorem announcing_launch {launches : List (SessionId × Bool)} :
    Announcing (s.launch d launches) S j p state ↔ Announcing s S j p state := by
  cases j with
  | inl i => exact Iff.rfl
  | inr w =>
      constructor
      · rintro ⟨thread, hw, ha⟩
        rcases launch_threads hw with hold | ⟨-, e, -, rfl⟩
        · exact ⟨thread, hold, ha⟩
        · exact absurd ha (by simp [Worker.announces, WorkerPc.announces])
      · rintro ⟨thread, hw, ha⟩
        refine ⟨thread, ?_, ha⟩
        rw [System.launch, List.getElem?_append_left (List.getElem?_eq_some_iff.mp hw).1]
        exact hw

end

/-! ## What a block does to announcements

A block announces a state, or changes one, or does neither.  That no block does
both is why an announcement can be late at all. -/

namespace Dispatcher

variable {d d' : Dispatcher} {w : WorkerId} {S T : SessionId} {pc pc' : WorkerPc}

/-- The block emits these bodies on the session's hub. -/
def Emits (d d' : Dispatcher) (S : SessionId) (bodies : List EventBody) : Prop :=
  d'.hubs = fun T => if T = S then d.hubs T ++ bodies else d.hubs T

/-- The block changes the state of the session's record. -/
structure Transits (d d' : Dispatcher) (S : SessionId) (state : SessionState) : Prop where
  history : d'.history = fun T => if T = S then d.history T ++ [state] else d.history T
  hubs : d'.hubs = d.hubs
  status : d'.status S = some state
  live : ¬ Over (d.status S)

theorem emits_nil (h : d'.hubs = d.hubs) : Emits d d' S [] := by
  unfold Emits
  rw [h]
  funext T
  rw [List.append_nil, ite_self]

theorem not_over_of_legal {r : SessionRecord} {state : SessionState}
    (hr : d.records.get? S = some r) (hlegal : r.state.requireTransition state = true) :
    ¬ Over (d.status S) := by
  intro hover
  have hterm := hover r.state (by simp [status_of_record hr])
  exact absurd hlegal (by simp [requireTransition_terminal hterm])

/-- A worker is quiet, or takes a transition that it then has to announce, or
announces the one it took. -/
theorem WorkerMove.announce_step (h : WorkerMove d w S pc d' pc') :
    (pc.announces = none ∧ pc'.announces = none ∧ d'.history = d.history ∧
        d'.status S = d.status S ∧ (pc'.concludes = true → pc.concludes = true) ∧
        ∃ bodies, Emits d d' S bodies ∧ bodies.filterMap EventBody.announced = [] ∧
          ∀ r, .terminal r ∈ bodies → pc.concludes = true) ∨
      (pc.announces = none ∧ ∃ state, pc'.announces = some ((d.history S).length, state) ∧
        Transits d d' S state) ∨
      (pc'.announces = none ∧ ∃ position state, pc.announces = some (position, state) ∧
        d' = d.emit S (.stateChanged state) ∧
        (pc'.concludes = true → ∃ result, pc = .settleEmit state (some result) position)) := by
  have quiet : ∀ {e : Dispatcher} {pc₁ : WorkerPc}, pc.announces = none → pc₁.announces = none →
      e.history = d.history → e.status S = d.status S → e.hubs = d.hubs →
      (pc₁.concludes = true → pc.concludes = true) →
      pc.announces = none ∧ pc₁.announces = none ∧ e.history = d.history ∧
        e.status S = d.status S ∧ (pc₁.concludes = true → pc.concludes = true) ∧
        ∃ bodies, Emits d e S bodies ∧ bodies.filterMap EventBody.announced = [] ∧
          ∀ r, .terminal r ∈ bodies → pc.concludes = true :=
    fun ha ha' hh hs hb hc =>
      ⟨ha, ha', hh, hs, hc, [], emits_nil hb, rfl, fun r hr => absurd hr (by simp)⟩
  cases h with
  | @toRunning l r hr hlegal =>
      exact Or.inr (Or.inl ⟨rfl, .running, rfl, rfl, rfl, by simp, not_over_of_legal hr hlegal⟩)
  | @settle state result r hr hlegal =>
      exact Or.inr (Or.inl ⟨rfl, state, rfl, rfl, rfl, by simp, not_over_of_legal hr hlegal⟩)
  | @doneCanceling r hr hst hcan =>
      refine Or.inr (Or.inl ⟨rfl, .canceling, rfl, rfl, rfl, by simp [status], ?_⟩)
      rw [status_of_record hr, hst]
      exact not_over rfl
  | announceRunning =>
      exact Or.inr (Or.inr ⟨rfl, _, _, rfl, rfl, fun hc => absurd hc Bool.false_ne_true⟩)
  | announceCanceling =>
      exact Or.inr (Or.inr ⟨rfl, _, _, rfl, rfl, fun hc => absurd hc Bool.false_ne_true⟩)
  | @settleEmit state result position =>
      cases result with
      | none => exact Or.inr (Or.inr ⟨rfl, _, _, rfl, rfl, fun hc => absurd hc Bool.false_ne_true⟩)
      | some result => exact Or.inr (Or.inr ⟨rfl, _, _, rfl, rfl, fun _ => ⟨result, rfl⟩⟩)
  | @runEmit l job latest body hb =>
      refine Or.inl
        ⟨rfl, rfl, rfl, rfl, fun hc => absurd hc Bool.false_ne_true, [body], rfl, ?_, ?_⟩
      · cases body <;> first | rfl | exact absurd hb Bool.false_ne_true
      · intro r hr
        obtain rfl := List.mem_singleton.mp hr
        exact absurd hb Bool.false_ne_true
  | @emitTerminal result =>
      exact Or.inl ⟨rfl, rfl, rfl, rfl, fun hc => absurd hc Bool.false_ne_true,
        [.terminal result], rfl, rfl, fun _ _ => rfl⟩
  | finalize => exact Or.inl (quiet rfl rfl rfl rfl rfl (fun _ => rfl))
  | publish hr hu =>
      refine Or.inl (quiet rfl rfl rfl ?_ rfl (fun _ => rfl))
      simp [status, hr, (SessionRecord.withResult_eq_some hu).1]
  | snapshot hr =>
      refine Or.inl (quiet rfl rfl rfl ?_ rfl (fun hc => absurd hc Bool.false_ne_true))
      simp [status, hr]
  | _ => exact Or.inl (quiet rfl rfl rfl rfl rfl (fun hc => absurd hc Bool.false_ne_true))

theorem CallMove.announce_step {c : Call} {client : Client} (h : CallMove d c d' client) :
    (client.announces = none ∧ d'.history = d.history ∧ d'.hubs = d.hubs ∧
        d'.records = d.records) ∨
      ∃ S state, client.announces = some (S, (d.history S).length, state) ∧
        Transits d d' S state ∧ ∀ T, T ≠ S → d'.status T = d.status T := by
  cases h with
  | submit | close | cancelPausing => exact Or.inl ⟨rfl, rfl, rfl, rfl⟩
  | @pause S r hr hst =>
      refine Or.inr ⟨S, .pausing, rfl, ⟨rfl, rfl, by simp, ?_⟩, fun T hT => ?_⟩
      · rw [status_of_record hr, hst]
        exact not_over rfl
      · exact status_moved_ne _ _ _ hT
  | @resume S r hr hst =>
      refine Or.inr ⟨S, .pending, rfl, ⟨rfl, rfl, by simp [status], ?_⟩, fun T hT => ?_⟩
      · rw [status_of_record hr]
        rcases hst with hst | hst <;> rw [hst] <;> exact not_over rfl
      · exact status_moved_ne _ _ _ hT
  | @cancel S r hr hlive =>
      refine Or.inr ⟨S, .canceling, rfl, ⟨rfl, rfl, by simp [status], ?_⟩, fun T hT => ?_⟩
      · rw [status_of_record hr]
        exact not_over hlive
      · exact status_moved_ne _ _ _ hT

end Dispatcher

/-! ## The invariant

`Ledger` is the general part: positions in the history are said in order, as far
as every step says the first that is due.  The other fields tie it to the
record, and to the terminal event behind which nothing is said. -/

structure OrderFits (s : System) (S : SessionId) : Prop where
  ledger : Ledger (s.disp.history S) (s.disp.said S) (Announcing s S)
  fresh : s.disp.nextSession ≤ S → s.disp.history S = []
  first : S < s.disp.nextSession → (s.disp.history S).head? = some .pending
  last : ∀ state, s.disp.status S = some state → (s.disp.history S).getLast? = some state
  settling : ∀ p, Settling s S p → p + 1 = (s.disp.history S).length
  concluding : Concluding s S → s.disp.said S = s.disp.history S
  terminal : ∀ r, .terminal r ∈ s.disp.hubs S →
    s.disp.said S = s.disp.history S ∧ Over (s.disp.status S)
  after : ∀ (i j : Nat) r state, (s.disp.hubs S)[i]? = some (.terminal r) →
    (s.disp.hubs S)[j]? = some (.stateChanged state) → j < i

section
variable {s t : System} {S : SessionId}

theorem announcing_once {i : Nat ⊕ WorkerId} {p q : Nat} {a b : SessionState}
    (h : Announcing s S i p a) (h' : Announcing s S i q b) : q = p := by
  cases i with
  | inl i =>
      obtain ⟨client, hc, ha⟩ := h
      obtain ⟨client', hc', ha'⟩ := h'
      obtain rfl : client = client' := Option.some.inj (hc.symm.trans hc')
      rw [ha] at ha'
      simp only [Option.some.injEq, Prod.mk.injEq] at ha'
      exact ha'.2.1.symm
  | inr w =>
      obtain ⟨thread, hw, ha⟩ := h
      obtain ⟨thread', hw', ha'⟩ := h'
      obtain rfl : thread = thread' := Option.some.inj (hw.symm.trans hw')
      rw [ha] at ha'
      simp only [Option.some.injEq, Prod.mk.injEq] at ha'
      exact ha'.2.1.symm

/-- While somebody has a transition to announce, not everything is said. -/
theorem OrderFits.said_ne (h : OrderFits s S) {i : Nat ⊕ WorkerId} {p : Nat}
    {state : SessionState} (hi : Announcing s S i p state) :
    s.disp.said S ≠ s.disp.history S := by
  intro heq
  obtain ⟨hle, hget⟩ := h.ledger.bound i p state hi
  have hlt := (List.getElem?_eq_some_iff.mp hget).1
  rw [heq] at hle
  omega

theorem settling_over (h : SessionFits s S) {p : Nat} (hs : Settling s S p) :
    Over (s.disp.status S) := by
  obtain ⟨w, thread, state, result, hw, hS, hpc⟩ := hs
  exact h.closing w thread hw hS (by rw [hpc]; rfl)

theorem concluding_over (h : SessionFits s S) (hc : Concluding s S) :
    Over (s.disp.status S) := by
  obtain ⟨w, thread, hw, hS, hpc⟩ := hc
  refine h.closing w thread hw hS ?_
  revert hpc
  cases thread.pc <;> simp [WorkerPc.concludes, WorkerPc.closing]

/-- A step that announces nothing of the session and does not change its
state. -/
theorem OrderFits.quiet (h : OrderFits s S) (hL : SessionFits s S) (bodies : List EventBody)
    (hA : ∀ j p state, Announcing t S j p state ↔ Announcing s S j p state)
    (hhist : t.disp.history S = s.disp.history S)
    (hhubs : t.disp.hubs S = s.disp.hubs S ++ bodies)
    (hbodies : bodies.filterMap EventBody.announced = [])
    (hnext : S < t.disp.nextSession ↔ S < s.disp.nextSession)
    (hst : ∀ state, t.disp.status S = some state → s.disp.status S = some state)
    (hset : ∀ p, Settling t S p → Settling s S p) (hcon : Concluding t S → Concluding s S)
    (hterm : ∀ r, .terminal r ∈ bodies → Concluding s S) : OrderFits t S := by
  have hsaid : t.disp.said S = s.disp.said S := by
    simp only [said, hhubs, List.filterMap_append, hbodies, List.append_nil]
  have hover : Over (s.disp.status S) → Over (t.disp.status S) :=
    fun ho state hm => ho state (hst state hm)
  refine ⟨?_, ?_, ?_, ?_, ?_, ?_, ?_, ?_⟩
  · rw [hhist, hsaid]
    exact h.ledger.congr hA
  · intro hle
    rw [hhist]
    exact h.fresh (Nat.le_of_not_lt (fun hlt => absurd (hnext.mpr hlt) (Nat.not_lt.mpr hle)))
  · exact fun hlt => hhist ▸ h.first (hnext.mp hlt)
  · exact fun state hs => hhist ▸ h.last state (hst state hs)
  · exact fun p hp => hhist ▸ h.settling p (hset p hp)
  · intro hc
    rw [hsaid, hhist]
    exact h.concluding (hcon hc)
  · intro r hr
    rw [hhubs] at hr
    rw [hsaid, hhist]
    rcases List.mem_append.mp hr with hold | hnew
    · exact ⟨(h.terminal r hold).1, hover (h.terminal r hold).2⟩
    · exact ⟨h.concluding (hterm r hnew), hover (concluding_over hL (hterm r hnew))⟩
  · intro i j r state hi hj
    rw [hhubs] at hi hj
    -- no announcement is among the new bodies
    have hj' : (s.disp.hubs S)[j]? = some (.stateChanged state) := by
      rw [List.getElem?_append] at hj
      split at hj
      · exact hj
      · have hmem : state ∈ bodies.filterMap EventBody.announced :=
          List.mem_filterMap.mpr ⟨_, List.mem_of_getElem? hj, rfl⟩
        exact absurd hmem (by simp [hbodies])
    rw [List.getElem?_append] at hi
    split at hi
    · exact h.after i j r state hi hj'
    · next hge => exact (List.getElem?_eq_some_iff.mp hj').1.trans_le (Nat.le_of_not_lt hge)

/-- A transition, which holder `i` then has to announce. -/
theorem OrderFits.transits (h : OrderFits s S) (hL : SessionFits s S) {i : Nat ⊕ WorkerId}
    {state : SessionState} (htr : Transits s.disp t.disp S state)
    (hA : ∀ j p st, Announcing t S j p st ↔ Announcing s S j p st ∨
      j = i ∧ p = (s.disp.history S).length ∧ st = state)
    (hnext : t.disp.nextSession = s.disp.nextSession)
    (hset : ∀ p, Settling t S p → Settling s S p ∨ p = (s.disp.history S).length)
    (hcon : Concluding t S → Concluding s S) : OrderFits t S := by
  have hhist : t.disp.history S = s.disp.history S ++ [state] := by simp [htr.history]
  have hsaid : t.disp.said S = s.disp.said S := by simp only [said, htr.hubs]
  have hlt : S < s.disp.nextSession := by
    by_contra hge
    refine htr.live (fun st hst => ?_)
    exact absurd (hL.record st hst).1 hge
  refine ⟨?_, ?_, ?_, ?_, ?_, ?_, ?_, ?_⟩
  · rw [hhist, hsaid]
    exact h.ledger.append state i hA
  · exact fun hle => absurd (hnext ▸ hlt) (Nat.not_lt.mpr hle)
  · intro _
    rw [hhist, List.head?_append, h.first hlt]
    rfl
  · intro st hst
    rw [hhist, List.getLast?_concat]
    exact htr.status.symm.trans hst
  · intro p hp
    rcases hset p hp with hold | rfl
    · exact absurd (settling_over hL hold) htr.live
    · simp [hhist]
  · exact fun hc => absurd (concluding_over hL (hcon hc)) htr.live
  · exact fun r hr => absurd (h.terminal r (htr.hubs ▸ hr)).2 htr.live
  · intro k j r st hk hj
    rw [htr.hubs] at hk hj
    exact h.after k j r st hk hj

/-- Holder `i` announces its transition, the oldest one to announce. -/
theorem OrderFits.speaks (h : OrderFits s S) {i : Nat ⊕ WorkerId} {p : Nat}
    {state : SessionState} (hi : Announcing s S i p state)
    (hturn : ∀ j q st, Announcing s S j q st → p ≤ q)
    (hA : ∀ j q st, Announcing t S j q st ↔ Announcing s S j q st ∧ j ≠ i)
    (hd : t.disp = s.disp.emit S (.stateChanged state))
    (hset : ∀ q, Settling t S q → Settling s S q)
    (hcon : Concluding t S → Concluding s S ∨ Settling s S p) : OrderFits t S := by
  have hhist : t.disp.history S = s.disp.history S := by simp [hd]
  have hhubs : t.disp.hubs S = s.disp.hubs S ++ [.stateChanged state] := by simp [hd]
  have hsaid : t.disp.said S = s.disp.said S ++ [state] := by
    simp [said, hhubs, EventBody.announced]
  have hnext : t.disp.nextSession = s.disp.nextSession := by rw [hd]; rfl
  have hst : t.disp.status S = s.disp.status S := by rw [hd]; rfl
  have hledger : Ledger (t.disp.history S) (t.disp.said S) (Announcing t S) := by
    rw [hhist, hsaid]
    exact h.ledger.say hi hturn (fun q b hq => announcing_once hi hq) hA
  have no_terminal : ∀ r, .terminal r ∉ t.disp.hubs S := by
    intro r hr
    rw [hhubs] at hr
    have hold : .terminal r ∈ s.disp.hubs S := by simpa using hr
    exact h.said_ne hi (h.terminal r hold).1
  refine ⟨hledger, ?_, ?_, ?_, ?_, ?_, ?_, ?_⟩
  · exact fun hle => hhist ▸ h.fresh (hnext ▸ hle)
  · exact fun hlt => hhist ▸ h.first (hnext ▸ hlt)
  · exact fun st hs => hhist ▸ h.last st (hst ▸ hs)
  · exact fun q hq => hhist ▸ h.settling q (hset q hq)
  · intro hc
    rcases hcon hc with hold | hself
    · exact absurd (h.concluding hold) (h.said_ne hi)
    · -- the last transition has just been announced
      have hp := h.ledger.next_eq hi hturn
      have hlen := h.settling p hself
      rw [hledger.initial, hsaid, hhist, List.length_append, List.length_singleton, ← hp, hlen,
        List.take_length]
  · exact fun r hr => absurd hr (no_terminal r)
  · exact fun k j r st hk _ => absurd (List.mem_of_getElem? hk) (no_terminal r)

end

/-! ## Steps

A quiet step leaves the three lists, a transition adds a state and a thread that
owes it, a speaking step pays.  The condition is used only in the last case. -/

theorem mem_unannounced {s : System} {S : SessionId} {i : Nat ⊕ WorkerId} {p : Nat}
    {state : SessionState} (h : Announcing s S i p state) : (S, p, state) ∈ s.unannounced := by
  cases i with
  | inl i =>
      obtain ⟨client, hc, ha⟩ := h
      exact List.mem_append_left _ (List.mem_filterMap.mpr ⟨client, List.mem_of_getElem? hc, ha⟩)
  | inr w =>
      obtain ⟨thread, hw, ha⟩ := h
      exact List.mem_append_right _ (List.mem_filterMap.mpr ⟨thread, List.mem_of_getElem? hw, ha⟩)

/-- In turn means that the first announcement which is due is made. -/
theorem SpeaksInTurn.first {s : System} {a : Action} {S : SessionId} {p : Nat}
    {state : SessionState} (h : SpeaksInTurn S s a)
    (ha : s.announcing a = some (S, p, state)) :
    ∀ j q st, Announcing s S j q st → p ≤ q := by
  intro j q st hj
  simp only [SpeaksInTurn, System.speaksInTurn, ha, ne_eq, not_true_eq_false, decide_false,
    Bool.false_or] at h
  have hall := List.all_eq_true.mp h _ (mem_unannounced hj)
  simpa using hall

section
variable {s : System} {d : Dispatcher} {w : WorkerId} {thread : Worker} {pc : WorkerPc}
  {T : SessionId}

theorem settling_advance {p : Nat} (h : Settling (s.advance d w thread pc) T p) :
    Settling s T p ∨ thread.session = T ∧ ∃ state result,
      pc = .settleEmit state (some result) p := by
  obtain ⟨w', thread', state, result, hw', hS, hpc⟩ := h
  rcases advance_threads hw' with ⟨rfl, rfl⟩ | ⟨-, hold⟩
  · exact Or.inr ⟨hS, state, result, hpc⟩
  · exact Or.inl ⟨w', thread', state, result, hold, hS, hpc⟩

theorem concluding_advance (h : Concluding (s.advance d w thread pc) T) :
    Concluding s T ∨ thread.session = T ∧ pc.concludes = true := by
  obtain ⟨w', thread', hw', hS, hpc⟩ := h
  rcases advance_threads hw' with ⟨rfl, rfl⟩ | ⟨-, hold⟩
  · exact Or.inr ⟨hS, hpc⟩
  · exact Or.inl ⟨w', thread', hold, hS, hpc⟩

/-- A worker's block, for a session that is not its own, or for its own when
it is quiet. -/
theorem order_worker_quiet (h : OrderFits s T) (hL : SessionFits s T) (bodies : List EventBody)
    (hw : s.threads[w]? = some thread)
    (hm : WorkerMove s.disp w thread.session thread.pc d pc)
    (hsilent : thread.session = T → thread.pc.announces = none ∧ pc.announces = none)
    (hhist : d.history T = s.disp.history T) (hhubs : d.hubs T = s.disp.hubs T ++ bodies)
    (hbodies : bodies.filterMap EventBody.announced = [])
    (hst : d.status T = s.disp.status T)
    (hcon : thread.session = T → pc.concludes = true → thread.pc.concludes = true)
    (hterm : ∀ r, .terminal r ∈ bodies → thread.session = T ∧ thread.pc.concludes = true) :
    OrderFits (s.advance d w thread pc) T := by
  refine h.quiet hL bodies ?_ hhist hhubs hbodies ?_ (fun state hs => hst ▸ hs) ?_ ?_ ?_
  · intro j p state
    rw [announcing_advance hw]
    constructor
    · rintro (⟨-, hold⟩ | ⟨rfl, hS, hnew⟩)
      · exact hold
      · exact absurd hnew (by simp [(hsilent hS).2])
    · intro hold
      refine Or.inl ⟨fun hj => ?_, hold⟩
      subst hj
      obtain ⟨thread', hw', ha⟩ := hold
      obtain rfl : thread = thread' := Option.some.inj (hw.symm.trans hw')
      have hS : thread.session = T := by
        simp only [Worker.announces, Option.map_eq_some_iff, Prod.mk.injEq] at ha
        obtain ⟨-, -, hS, -⟩ := ha
        exact hS
      exact absurd ha (by simp [Worker.announces, (hsilent hS).1])
  · show T < d.nextSession ↔ _
    rw [hm.nextSession_eq]
  · intro p hp
    rcases settling_advance hp with hold | ⟨hS, state, result, hpc⟩
    · exact hold
    · exact absurd (hsilent hS).2 (by simp [hpc, WorkerPc.announces])
  · intro hc
    rcases concluding_advance hc with hold | ⟨hS, hpc⟩
    · exact hold
    · exact ⟨w, thread, hw, hS, hcon hS hpc⟩
  · intro r hr
    obtain ⟨hS, hpc⟩ := hterm r hr
    exact ⟨w, thread, hw, hS, hpc⟩

/-- A block of a worker, by what it does to announcements. -/
theorem order_worker (h : OrderFits s T) (hL : SessionFits s T)
    (hw : s.threads[w]? = some thread)
    (hm : WorkerMove s.disp w thread.session thread.pc d pc)
    (hturn : ∀ p state, thread.announces = some (T, p, state) →
      ∀ j q st, Announcing s T j q st → p ≤ q) :
    OrderFits (s.advance d w thread pc) T := by
  have others : T ≠ thread.session → d.history T = s.disp.history T →
      d.hubs T = s.disp.hubs T → OrderFits (s.advance d w thread pc) T := by
    intro hT hhist hhubs
    exact order_worker_quiet h hL [] hw hm
      (fun hS => absurd hS.symm hT) hhist (by rw [hhubs, List.append_nil]) rfl
      (congrArg (Option.map SessionRecord.state) (hm.records_ne hT))
      (fun hS => absurd hS.symm hT) (fun r hr => absurd hr (by simp))
  rcases hm.announce_step with ⟨hold, hnew, hhist, hst, hcon, bodies, hemits, hbodies, hterm⟩ |
    ⟨hold, state, hnew, htr⟩ | ⟨hnew, p, state, hold, rfl, hcon⟩
  · by_cases hT : T = thread.session
    · subst hT
      exact order_worker_quiet h hL bodies hw hm (fun _ => ⟨hold, hnew⟩)
        (by rw [hhist]) (by simp [show d.hubs = _ from hemits]) hbodies hst (fun _ => hcon)
        (fun r hr => ⟨rfl, hterm r hr⟩)
    · exact others hT (by rw [hhist]) (by simp [show d.hubs = _ from hemits, hT])
  · by_cases hT : T = thread.session
    · subst hT
      refine h.transits hL (i := .inr w) htr ?_ hm.nextSession_eq ?_ ?_
      · intro j p st
        rw [announcing_advance hw]
        constructor
        · rintro (⟨-, hj⟩ | ⟨hj, -, ha⟩)
          · exact Or.inl hj
          · obtain ⟨rfl, rfl⟩ := Prod.mk.inj (Option.some.inj (hnew.symm.trans ha))
            exact Or.inr ⟨hj, rfl, rfl⟩
        · rintro (hj | ⟨rfl, rfl, rfl⟩)
          · refine Or.inl ⟨fun hjw => ?_, hj⟩
            subst hjw
            obtain ⟨thread', hw', ha⟩ := hj
            obtain rfl : thread = thread' := Option.some.inj (hw.symm.trans hw')
            exact absurd ha (by simp [Worker.announces, hold])
          · exact Or.inr ⟨rfl, rfl, hnew⟩
      · intro p hp
        rcases settling_advance hp with hp | ⟨-, st, result, hpc⟩
        · exact Or.inl hp
        · rw [hpc] at hnew
          exact Or.inr (Prod.mk.inj (Option.some.inj hnew)).1
      · intro hc
        rcases concluding_advance hc with hc | ⟨-, hpc⟩
        · exact hc
        · revert hpc hnew
          cases pc <;> simp [WorkerPc.announces, WorkerPc.concludes]
    · exact others hT (by simp [htr.history, hT]) (by rw [htr.hubs])
  · by_cases hT : T = thread.session
    · subst hT
      have ha : thread.announces = some (thread.session, p, state) := by
        simp [Worker.announces, hold]
      refine h.speaks (i := .inr w) ⟨thread, hw, ha⟩ (hturn p state ha) ?_ rfl ?_ ?_
      · intro j q st
        rw [announcing_advance hw]
        constructor
        · rintro (⟨hj, hold⟩ | ⟨-, -, ha⟩)
          · exact ⟨hold, hj⟩
          · exact absurd ha (by simp [hnew])
        · rintro ⟨hold, hj⟩
          exact Or.inl ⟨hj, hold⟩
      · intro q hq
        rcases settling_advance hq with hq | ⟨-, st, result, hpc⟩
        · exact hq
        · exact absurd hnew (by simp [hpc, WorkerPc.announces])
      · intro hc
        rcases concluding_advance hc with hc | ⟨-, hpc⟩
        · exact Or.inl hc
        · obtain ⟨result, heq⟩ := hcon hpc
          exact Or.inr ⟨w, thread, state, result, hw, rfl, heq⟩
    · exact others hT rfl (by simp [hT])

end

/-- A control call, which changes a state at most. -/
theorem order_call {s : System} {c : Call} {d : Dispatcher} {client : Client} {T : SessionId}
    (h : OrderFits s T) (hL : SessionFits s T) (hm : CallMove s.disp c d client) :
    OrderFits (s.calls d client) T := by
  have hnext : d.nextSession = s.disp.nextSession := by cases hm <;> rfl
  have quiet : (∀ p state, client.announces ≠ some (T, p, state)) →
      d.history T = s.disp.history T → d.hubs T = s.disp.hubs T →
      d.status T = s.disp.status T → OrderFits (s.calls d client) T := by
    intro hsilent hhist hhubs hst
    refine h.quiet hL [] ?_ hhist (hhubs.trans (List.append_nil _).symm) rfl ?_
      (fun state hs => hst ▸ hs) (fun _ hp => hp) (fun hc => hc) (fun r hr => absurd hr (by simp))
    · intro j p state
      rw [announcing_calls]
      exact or_iff_left (fun hnew => hsilent p state hnew.2)
    · show T < d.nextSession ↔ _
      rw [hnext]
  rcases hm.announce_step with ⟨hsilent, hhist, hhubs, hrec⟩ | ⟨S, state, ha, htr, hothers⟩
  · refine quiet (fun p state => ?_) (by rw [hhist]) (by rw [hhubs]) ?_
    · rw [hsilent]
      exact Option.some_ne_none _ ∘ Eq.symm
    · simp only [status, hrec]
  · by_cases hT : T = S
    · subst hT
      refine h.transits hL (i := .inl s.clients.length) htr ?_ hnext (fun _ hp => Or.inl hp)
        (fun hc => hc)
      intro j p st
      rw [announcing_calls, ha]
      simp only [Option.some.injEq, Prod.mk.injEq, true_and]
      constructor
      · rintro (hold | ⟨hj, rfl, rfl⟩)
        · exact Or.inl hold
        · exact Or.inr ⟨hj, rfl, rfl⟩
      · rintro (hold | ⟨hj, rfl, rfl⟩)
        · exact Or.inl hold
        · exact Or.inr ⟨hj, rfl, rfl⟩
    · refine quiet (fun p st => ?_) (by simp [htr.history, hT]) (by rw [htr.hubs]) (hothers T hT)
      rw [ha]
      simp only [ne_eq, Option.some.injEq, Prod.mk.injEq, not_and]
      exact fun hS => absurd hS.symm hT

section
variable {s : System} {d : Dispatcher} {i : Nat} {client client' : Client} {T : SessionId}

/-- A caller that neither holds nor gets an announcement of the session. -/
theorem order_client_quiet (h : OrderFits s T) (hL : SessionFits s T)
    (hi : s.clients[i]? = some client)
    (hold : ∀ p state, client.announces ≠ some (T, p, state))
    (hnew : ∀ p state, client'.announces ≠ some (T, p, state))
    (hhist : d.history T = s.disp.history T) (hhubs : d.hubs T = s.disp.hubs T)
    (hnext : T < d.nextSession ↔ T < s.disp.nextSession)
    (hst : ∀ state, d.status T = some state → s.disp.status T = some state) :
    OrderFits { s with disp := d, clients := s.clients.set i client' } T := by
  refine h.quiet hL [] ?_ hhist (hhubs.trans (List.append_nil _).symm) rfl hnext hst
    (fun _ hp => hp) (fun hc => hc) (fun r hr => absurd hr (by simp))
  intro j p state
  rw [announcing_client hi]
  constructor
  · rintro (⟨-, hj⟩ | ⟨-, ha⟩)
    · exact hj
    · exact absurd ha (hnew p state)
  · intro hj
    refine Or.inl ⟨fun hji => ?_, hj⟩
    subst hji
    obtain ⟨client₀, hc, ha⟩ := hj
    obtain rfl : client = client₀ := Option.some.inj (hi.symm.trans hc)
    exact absurd ha (hold p state)

/-- A caller that announces its transition. -/
theorem order_client_speaks (h : OrderFits s T) (hL : SessionFits s T)
    (hi : s.clients[i]? = some client) {S : SessionId} {p : Nat} {state : SessionState}
    (ha : client.announces = some (S, p, state)) (hnew : client'.announces = none)
    (hturn : S = T → ∀ j q st, Announcing s T j q st → p ≤ q) :
    OrderFits { s with
      disp := s.disp.emit S (.stateChanged state)
      clients := s.clients.set i client' } T := by
  have silent : ∀ q st, client'.announces ≠ some (T, q, st) := by
    rw [hnew]
    exact fun q st => Option.some_ne_none _ ∘ Eq.symm
  by_cases hT : T = S
  · subst hT
    refine h.speaks (i := .inl i) (p := p) ⟨client, hi, ha⟩ (hturn rfl) ?_ rfl (fun _ hp => hp)
      (fun hc => Or.inl hc)
    intro j q st
    rw [announcing_client hi]
    constructor
    · rintro (⟨hj, hold⟩ | ⟨-, hnew'⟩)
      · exact ⟨hold, hj⟩
      · exact absurd hnew' (silent q st)
    · rintro ⟨hold, hj⟩
      exact Or.inl ⟨hj, hold⟩
  · refine order_client_quiet h hL hi (fun q st => ?_) silent rfl (by simp [hT])
      Iff.rfl (fun _ hs => hs)
    rw [ha]
    simp only [ne_eq, Option.some.injEq, Prod.mk.injEq, not_and]
    exact fun hS => absurd hS.symm hT

/-- A caller that registers its session. -/
theorem order_client_registers (h : OrderFits s s.disp.nextSession)
    (hL : SessionFits s s.disp.nextSession) {r : SessionRecord} (hr : r.state = .pending)
    (hi : s.clients[i]? = some client) :
    OrderFits { s with
      disp := s.disp.registerSession r
      clients := s.clients.set i (.admitEmit s.disp.nextSession) } s.disp.nextSession := by
  have hhist : (s.disp.registerSession r).history s.disp.nextSession = [.pending] := by simp
  have hhubs : (s.disp.registerSession r).hubs s.disp.nextSession = [] := by simp
  have no_thread : ∀ {w : WorkerId} {thread : Worker}, s.threads[w]? = some thread →
      thread.session ≠ s.disp.nextSession :=
    fun hw hS => absurd (hL.known _ _ hw hS) (Nat.lt_irrefl _)
  have no_holder : ∀ j p state, ¬ Announcing s s.disp.nextSession j p state := by
    intro j p state hj
    have hget := (h.ledger.bound j p state hj).2
    rw [h.fresh (Nat.le_refl _)] at hget
    exact absurd hget (by simp)
  refine ⟨?_, ?_, ?_, ?_, ?_, ?_, ?_, ?_⟩
  · simp only [said, hhist, hhubs]
    refine Ledger.start SessionState.pending (Sum.inl i) (fun j p state => ?_)
    rw [announcing_client hi]
    simp only [Client.announces, Option.some.injEq, Prod.mk.injEq, true_and]
    constructor
    · rintro (⟨-, hold⟩ | ⟨hj, rfl, rfl⟩)
      · exact absurd hold (no_holder j p state)
      · exact ⟨hj, rfl, rfl⟩
    · rintro ⟨hj, rfl, rfl⟩
      exact Or.inr ⟨hj, rfl, rfl⟩
  · exact fun hle => absurd hle (Nat.not_succ_le_self _)
  · exact fun _ => by rw [hhist]; rfl
  · intro state hst
    rw [hhist, ← hst]
    simp [status, hr]
  · rintro p ⟨w, thread, state, result, hw, hS, -⟩
    exact absurd hS (no_thread hw)
  · rintro ⟨w, thread, hw, hS, -⟩
    exact absurd hS (no_thread hw)
  · exact fun r' hr' => absurd hr' (by rw [hhubs]; simp)
  · exact fun k j r' state hk => absurd hk (by rw [hhubs]; simp)

theorem order_client (h : OrderFits s T) (hL : Lifecycle s)
    (hi : s.clients[i]? = some client) (hm : ClientMove s.disp client d client')
    (hturn : ∀ p state, client.announces = some (T, p, state) →
      ∀ j q st, Announcing s T j q st → p ≤ q) :
    OrderFits { s with disp := d, clients := s.clients.set i client' } T := by
  have some_ne : ∀ (p : Nat) (state : SessionState), none ≠ some (T, p, state) :=
    fun _ _ => Option.some_ne_none _ ∘ Eq.symm
  cases hm with
  | prepareFailed | prepared | registerFailed | admitDone =>
      exact order_client_quiet h (hL.session T) hi some_ne some_ne rfl rfl Iff.rfl
        (fun _ hs => hs)
  | @registered kind p prepared order createdAt hacc =>
      by_cases hT : T = s.disp.nextSession
      · subst hT
        exact order_client_registers h (hL.session _) rfl hi
      · refine order_client_quiet h (hL.session T) hi some_ne ?_ (by simp [hT]) (by simp [hT])
          ?_ ?_
        · intro p state
          simp [Client.announces, Ne.symm hT]
        · have hne : ¬ T = s.disp.nextSession := hT
          show T < s.disp.nextSession + 1 ↔ _
          exact ⟨fun hlt => lt_of_le_of_ne (Nat.le_of_lt_succ hlt) hne, Nat.lt_succ_of_lt⟩
        · intro state hs
          simpa [status, Dict.get?_set_ne _ _ hT] using hs
  | emitPending =>
      refine order_client_speaks h (hL.session T) hi rfl rfl fun hS => ?_
      subst hS
      exact hturn _ _ rfl
  | announce =>
      refine order_client_speaks h (hL.session T) hi rfl rfl fun hS => ?_
      subst hS
      exact hturn _ _ rfl
  | @closePop S =>
      refine order_client_quiet h (hL.session T) hi some_ne some_ne rfl rfl Iff.rfl ?_
      intro state hs
      by_cases hT : T = S
      · subst hT
        exact absurd hs (by simp [status])
      · simpa [status, Dict.get?_pop_ne _ hT] using hs

end

theorem order_schedule {s : System} {d : Dispatcher} {launches : List (SessionId × Bool)}
    {T : SessionId} (h : OrderFits s T) (hL : SessionFits s T)
    (hm : s.disp.schedule s.threads.length = some (d, launches)) :
    OrderFits (s.launch d launches) T := by
  have hset : ∀ p, Settling (s.launch d launches) T p → Settling s T p := by
    rintro p ⟨w, thread, state, result, hw, hS, hpc⟩
    rcases launch_threads hw with hold | ⟨-, e, -, rfl⟩
    · exact ⟨w, thread, state, result, hold, hS, hpc⟩
    · exact absurd hpc (by simp)
  have hcon : Concluding (s.launch d launches) T → Concluding s T := by
    rintro ⟨w, thread, hw, hS, hpc⟩
    rcases launch_threads hw with hold | ⟨-, e, -, rfl⟩
    · exact ⟨w, thread, hold, hS, hpc⟩
    · exact absurd hpc Bool.false_ne_true
  rcases schedule_cases hm with ⟨-, rfl⟩ | ⟨-, -, rfl⟩
  · exact h.quiet hL [] (fun _ _ _ => announcing_launch) rfl
      (List.append_nil _).symm rfl Iff.rfl (fun _ hs => hs) hset hcon
      (fun r hr => absurd hr (by simp))
  · exact h.quiet hL [] (fun _ _ _ => announcing_launch) rfl
      (List.append_nil _).symm rfl Iff.rfl (fun _ hs => hs) hset hcon
      (fun r hr => absurd hr (by simp))

theorem OrderFits.step {s t : System} {a : Action} {T : SessionId} (h : OrderFits s T)
    (hL : Lifecycle s) (hturn : SpeaksInTurn T s a) (hstep : s.step a = some t) :
    OrderFits t T := by
  rcases System.step_cases hstep with ⟨c, d, client, -, hm, rfl⟩ |
    ⟨i, choice, client, d, client', rfl, hi, hm, rfl⟩ |
    ⟨w, choice, thread, d, pc, rfl, hw, hm, rfl⟩ | ⟨d, launches, -, hm, rfl⟩ | ⟨-, rfl⟩ | ⟨-, rfl⟩
  · exact order_call h (hL.session T) hm
  · refine order_client h hL hi hm (fun p state ha => ?_)
    have hsays : s.announcing (.client i choice) = some (T, p, state) := by
      simp [System.announcing, hi, ha]
    exact hturn.first hsays
  · refine order_worker h (hL.session T) hw hm (fun p state ha => ?_)
    have hsays : s.announcing (.worker w choice) = some (T, p, state) := by
      simp [System.announcing, hw, ha]
    exact hturn.first hsays
  · exact order_schedule h (hL.session T) hm
  · exact { h with }
  · exact { h with }

theorem OrderFits.initial (registry : String → Option WorkflowRegistration) (S : SessionId) :
    OrderFits (System.initial registry) S where
  ledger :=
    { initial := rfl
      bound := fun i p a hi => by
        cases i <;> obtain ⟨x, hx, -⟩ := hi <;> exact absurd hx (by simp [System.initial])
      cover := fun p _ hlt => absurd hlt (Nat.not_lt_zero p)
      unique := fun i j p a b hi => by
        cases i <;> obtain ⟨x, hx, -⟩ := hi <;> exact absurd hx (by simp [System.initial]) }
  fresh _ := rfl
  first hlt := absurd hlt (Nat.not_lt_zero S)
  last state hst := absurd hst (by simp [System.initial, status])
  settling p hp := by
    obtain ⟨w, thread, state, result, hw, -⟩ := hp
    exact absurd hw (by simp [System.initial])
  concluding _ := rfl
  terminal r hr := absurd hr (by simp [System.initial])
  after i j r state hi := absurd hi (by simp [System.initial])

/-! ## The order of events

What a subscriber hears follows from the invariant in any state, and at rest,
when nothing is due, it is the whole history. -/

/-- A session's events against its record. -/
structure EventsInOrder (s : System) (S : SessionId) : Prop where
  /-- The announced states are the first ones the record has had. -/
  order : s.disp.said S <+: s.disp.history S
  pending : ∀ state, (s.disp.said S).head? = some state → state = .pending
  /-- No announcement has a sequence number above the `Terminal` event. -/
  terminal : ∀ (i j : Nat) r state, (s.disp.hubs S)[i]? = some (.terminal r) →
    (s.disp.hubs S)[j]? = some (.stateChanged state) → j < i
  /-- When no thread has a transition of the session left to announce, every
  transition has been announced, the current state last. -/
  quiescent : (∀ p state, (S, p, state) ∉ s.unannounced) →
    s.disp.said S = s.disp.history S ∧
      ∀ state, s.disp.status S = some state → (s.disp.said S).getLast? = some state

/-- What the invariant says to a subscriber. -/
theorem OrderFits.inOrder {s : System} {S : SessionId} (h : OrderFits s S) :
    EventsInOrder s S where
  order := by
    rw [h.ledger.initial]
    exact List.take_prefix _ _
  pending state hst := by
    rw [h.ledger.initial, List.head?_take] at hst
    split at hst
    · exact absurd hst (by simp)
    · by_cases hlt : S < s.disp.nextSession
      · exact Option.some.inj (hst.symm.trans (h.first hlt))
      · rw [h.fresh (Nat.le_of_not_lt hlt)] at hst
        exact absurd hst (by simp)
  terminal := h.after
  quiescent hnone := by
    have hsaid : s.disp.said S = s.disp.history S :=
      h.ledger.said_eq (fun i p state hi => hnone p state (mem_unannounced hi))
    refine ⟨hsaid, fun state hst => ?_⟩
    rw [hsaid]
    exact h.last state hst

/-- A session's events and states are in the same order along every run in
which its transitions are announced first come, first served. -/
theorem events_in_order {registry : String → Option WorkflowRegistration} {s : System}
    {S : SessionId}
    (h : Transition.Run System.step (SpeaksInTurn S) (System.initial registry) s) :
    EventsInOrder s S := by
  have hinv : Lifecycle s ∧ OrderFits s S :=
    h.invariant (I := fun s => Lifecycle s ∧ OrderFits s S)
      (fun _ _ _ hI hP hstep => ⟨hI.1.step hstep, hI.2.step hI.1 hP hstep⟩)
      ⟨Lifecycle.initial registry, OrderFits.initial registry S⟩
  exact hinv.2.inOrder

def plainRegistry : String → Option WorkflowRegistration := fun _ => some {}

/-- A running session accepts a cancel; the caller has not announced it. -/
def canceledRun : List Action :=
  Script.submit 0 "verify" ∅ ++ [.schedule] ++ Script.enterRun 0 ++ [.call (.cancel 0)]

/-- The caller announces `CANCELING`, then the worker settles. -/
def announcedSystem : System :=
  Transition.outcome System.step (fun s => s.speaksInTurn 0) (System.initial plainRegistry)
    (canceledRun ++ [.client 1 .go] ++ Script.settleCanceled 0)

theorem events_in_order_canceled :
    announcedSystem.disp.said 0 = [.pending, .running, .canceling, .canceled] ∧
      EventsInOrder announcedSystem 0 :=
  ⟨by decide, events_in_order (Transition.outcome_run (fun _ _ h => h) _ _)⟩

/-- The worker settles, then the caller announces `CANCELING`. -/
def lateSystem : System :=
  Transition.outcome System.step (fun _ _ => true) (System.initial plainRegistry)
    (canceledRun ++ Script.settleCanceled 0 ++ [.client 1 .go])

theorem late_announcement :
    Transition.AnyRun System.step (System.initial plainRegistry) lateSystem ∧
      lateSystem.disp.said 0 = [.pending, .running, .canceled, .canceling] ∧
        lateSystem.disp.history 0 = [.pending, .running, .canceling, .canceled] ∧
          ¬ EventsInOrder lateSystem 0 := by
  have hsaid : lateSystem.disp.said 0 = [.pending, .running, .canceled, .canceling] := by decide
  have hhist : lateSystem.disp.history 0 = [.pending, .running, .canceling, .canceled] := by decide
  refine ⟨Transition.outcome_run (fun _ _ _ => trivial) _ _, hsaid, hhist, fun h => ?_⟩
  have horder := h.order
  rw [hsaid, hhist] at horder
  exact absurd horder (by decide)

end NamiSync
