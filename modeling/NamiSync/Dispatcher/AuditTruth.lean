/-
# `Dispatcher.AuditTruth` — when `audit=OK` is true

The queue of the pump is first in, first out, and a degraded pump calls the
observer for nothing more.  So while nothing was lost, what the observer has
been told, what the pump holds, what is queued and what is being offered are
together the reliable events in order (`Caught`); and what stands in front of
the `_Finalize` has been told when the observer finalizes.

An event that reaches the queue behind the `_Finalize` stays there: the pump
has returned, and the `Terminal` event says `audit=OK` all the same.  A control
call announces its transition with an emit of its own, after it has let go of
the dispatcher's lock, so nothing keeps it out of that window.

## What is proved

    audit_ok_truthful : Run step orderly (initial capacity h) audit →
      Truthful audit

`Truthful` is about the emitted `Terminal` events: one that says `audit=OK`
means that the observer has been told every reliable event in order, that
`finalize` returned, and that nothing was dropped.

## The condition

`orderly` is asked of the emits of reliable events only, and only in the
states with `finalizing`: the worker waits for its `_Finalize`, or has its
`OK` and has not emitted `Terminal` yet.  A `finalize_audit` that answers
`DEGRADED`, with or without a put, asks nothing, and neither does a
`Progress`.  `late_untruthful` is a run with one late announcement.

## The argument

`Sound` follows the worker.  Before the put the whole history is accounted
for (`Open`, `Caught`); at the put everything reliable stands in front of the
`_Finalize`, because no emit is under way; after it the `_Finalize` is in the
queue, in the hands of the pump, or answered (`Finalizing`), and the commands
in front of it are handled in their order (`Handles.caught`).
-/
import NamiSync.Dispatcher.AuditPump

namespace NamiSync

/-- The envelope was offered to the audit. -/
def Envelope.audited (envelope : Envelope) : Bool :=
  match envelope.body with
  | .emitted body => AuditPump.offers body
  | .gap _ _ => false

def AuditCommand.events : AuditCommand → List Envelope
  | .event envelope => [envelope]
  | _ => []

def Offering.events : Offering → List Envelope
  | .sequenced envelope | .putting envelope => [envelope]

namespace PumpPc

/-- The event the pump holds. -/
def events : PumpPc → List Envelope
  | .taken (.event envelope) | .onEvent envelope => [envelope]
  | _ => []

/-- The pump has not come to a `_Finalize` or past a `_Stop`. -/
def handling : PumpPc → Bool
  | .get | .taken (.event _) | .taken .stop | .onEvent _ => true
  | _ => false

/-- The pump makes no more calls. -/
def silent : PumpPc → Bool
  | .completing | .marking | .returned => true
  | _ => false

end PumpPc

/-- The observer's `on_event` has returned for each of these envelopes. -/
def toldEvents (events : List Envelope) : List ObserverCall :=
  events.map fun envelope => .onEvent envelope true

/-- The call reports an event or the result. -/
def ObserverCall.reports : ObserverCall → Bool
  | .close _ => false
  | _ => true

/-! ## What the audit has been told

The pump takes events from its queue and calls the observer.  `Told` is what the
observer has been given so far, against what the bus has emitted. -/

/-- No reliable event is lost yet: told, held, queued in `commands`, or on its
way to the queue. -/
def Caught (calls : List ObserverCall) (pump : PumpPc) (commands : List AuditCommand)
    (offering : Option Offering) (reliable : List Envelope) : Prop :=
  ∃ handled, calls = toldEvents handled ∧
    handled ++ (pump.events ++ (commands.flatMap AuditCommand.events ++
      offering.toList.flatMap Offering.events)) = reliable

/-- The observer was told everything, and the pump makes no more calls. -/
def Told (calls : List ObserverCall) (reliable : List Envelope) (result : OperationResult) : Prop :=
  calls = toldEvents reliable ++ [.finalize result true, .close true]

namespace AuditPump

/-- The reliable events so far. -/
def reliable (audit : AuditPump) : List Envelope := audit.emitted.filter Envelope.audited

/-- The worker has put its `_Finalize`, and `finalize_audit` has not answered
`DEGRADED` nor `Terminal` been emitted since. -/
def finalizing (audit : AuditPump) : Bool :=
  match audit.worker with
  | .waiting _ | .audited _ .ok => true
  | _ => false

/-- From the put of the `_Finalize` on, until `DEGRADED` is the answer or
`Terminal` is emitted, no emit of a reliable event begins; and none is on its
way at that put.  A put that finds the queue full is none. -/
def orderly (audit : AuditPump) : Action → Bool
  | .sequence body => !(offers body && audit.finalizing)
  | .conclude _ =>
      match audit.worker with
      | .putting _ => audit.full || audit.offering.isNone
      | _ => true
  | _ => true

/-- Every `Terminal` with `audit=OK` is true. -/
def Truthful (audit : AuditPump) : Prop :=
  ∀ envelope ∈ audit.emitted, ∀ result, envelope.body = .emitted (.terminal result) →
    result.audit = .ok →
    ∃ settled, audit.worker = .concluded settled .ok envelope.seq ∧
      result = settled.withAudit .ok ∧
      audit.calls.filter ObserverCall.reports =
        toldEvents (audit.reliable.filter fun event => event.seq < envelope.seq) ++
          [.finalize settled true]

/-! ## The invariant

The pump is open, is being finalized, or has stopped.  While it is open every
reliable event is told or in the queue; while it is being finalized none is put
behind `_Finalize`, which is what the condition is for. -/

/-- The pump has taken a `_Stop`. -/
def Stopped (audit : AuditPump) : Prop := audit.pump = .stopping ∨ audit.pump.silent = true

/-- Before the `_Finalize` is put. -/
structure Open (audit : AuditPump) : Prop where
  unfinalized : ∀ result, .finalize result ∉ audit.queue
  failed : audit.succeeded = false
  caught : Stopped audit ∨ audit.pump.handling = true ∧ (audit.degraded = true ∨
    Caught audit.calls audit.pump audit.queue audit.offering audit.reliable)

/-- The way of the `_Finalize` through the queue and the pump. -/
inductive Finalizing (audit : AuditPump) (result : OperationResult) : Prop
  | queued (before after : List AuditCommand) : audit.queue = before ++ .finalize result :: after →
      (∀ other, .finalize other ∉ before) → audit.succeeded = false →
      audit.pump.handling = true → (audit.degraded = true ∨
        Caught audit.calls audit.pump before none audit.reliable) → Finalizing audit result
  | taken : audit.pump = .taken (.finalize result) → audit.succeeded = false →
      (audit.degraded = true ∨ audit.calls = toldEvents audit.reliable) → Finalizing audit result
  | calling : audit.pump = .finalize result → audit.succeeded = false →
      audit.calls = toldEvents audit.reliable → Finalizing audit result
  | closing : audit.pump = .closing → audit.succeeded = false →
      audit.calls = toldEvents audit.reliable ++ [.finalize result true] → Finalizing audit result
  | stopping : audit.pump = .stopping → audit.succeeded = false → Finalizing audit result
  | silent : audit.pump.silent = true →
      (audit.succeeded = true → Told audit.calls audit.reliable result) → Finalizing audit result

/-- What holds at each point of the concluding worker. -/
def Phase (audit : AuditPump) : ConcludePc → Prop
  | .running | .settled _ | .putting _ => Open audit
  | .waiting result => audit.offering = none ∧ Finalizing audit result
  | .audited result .ok =>
      audit.offering = none ∧ audit.pump.silent = true ∧ Told audit.calls audit.reliable result
  | .concluded result .ok seq =>
      audit.pump.silent = true ∧
        Told audit.calls (audit.reliable.filter fun event => event.seq < seq) result
  | .audited _ .degraded | .concluded _ .degraded _ => True

structure Sound (audit : AuditPump) : Prop where
  phase : Phase audit audit.worker
  numbered : ∀ envelope ∈ audit.emitted, envelope.seq ≤ audit.seq
  concluded : ∀ envelope ∈ audit.emitted, ∀ result, envelope.body = .emitted (.terminal result) →
    ∃ settled status, audit.worker = .concluded settled status envelope.seq ∧
      result = settled.withAudit status
  /-- The worker's `Terminal` has been numbered. -/
  ended : ∀ result status seq, audit.worker = .concluded result status seq → seq ≤ audit.seq

section

variable {audit audit' : AuditPump} {result : OperationResult}

/-! ## The pump's thread

Its steps move events from the queue to the observer and stop at the first one
that fails. -/

/-- A silent pump only sets its flags. -/
theorem silent_step (h : audit.pump.silent = true) {returns : Bool}
    (hstep : audit.run returns = some audit') :
    audit'.pump.silent = true ∧ audit'.calls = audit.calls ∧ audit'.succeeded = audit.succeeded ∧
      audit'.emitted = audit.emitted ∧ audit'.offering = audit.offering ∧
        audit'.queue = audit.queue := by
  unfold run at hstep
  cases hpump : audit.pump with
  | completing | marking =>
      rw [hpump] at hstep
      obtain rfl := Option.some.inj hstep
      exact ⟨rfl, rfl, rfl, rfl, rfl, rfl⟩
  | returned =>
      rw [hpump] at hstep
      exact absurd hstep (by simp)
  | _ =>
      rw [hpump] at h
      exact absurd h Bool.false_ne_true

/-- A block of a pump that has not come to a `_Finalize` or a `_Stop`. -/
inductive Handles (audit : AuditPump) : AuditPump → Prop
  | take (command : AuditCommand) (queue : List AuditCommand) : audit.pump = .get →
      audit.queue = command :: queue →
      Handles audit { audit with queue := queue, pump := .taken command }
  | skip (envelope : Envelope) : audit.pump = .taken (.event envelope) → audit.degraded = true →
      Handles audit { audit with pump := .get }
  | enter (envelope : Envelope) : audit.pump = .taken (.event envelope) → audit.degraded = false →
      Handles audit { audit with pump := .onEvent envelope }
  | stop : audit.pump = .taken .stop → Handles audit { audit with pump := .stopping }
  | told (envelope : Envelope) : audit.pump = .onEvent envelope →
      Handles audit { audit with
        calls := audit.calls ++ [.onEvent envelope true], pump := .get }
  | raised (envelope : Envelope) : audit.pump = .onEvent envelope →
      Handles audit { audit with
        calls := audit.calls ++ [.onEvent envelope false], degraded := true, pump := .get }

theorem handling_step (h : audit.pump.handling = true) {returns : Bool}
    (hstep : audit.run returns = some audit') : Handles audit audit' := by
  unfold run at hstep
  cases hpump : audit.pump with
  | get =>
      simp only [hpump] at hstep
      split at hstep
      · exact absurd hstep (by simp)
      · next command queue hqueue =>
          obtain rfl := Option.some.inj hstep
          exact .take command queue hpump hqueue
  | taken command =>
      simp only [hpump, Option.some.injEq] at hstep
      subst hstep
      cases command with
      | event envelope =>
          cases hdegraded : audit.degraded with
          | true =>
              have := Handles.skip envelope hpump hdegraded
              simpa [handle, hdegraded] using this
          | false =>
              have := Handles.enter envelope hpump hdegraded
              simpa [handle, hdegraded] using this
      | stop => exact .stop hpump
      | finalize result =>
          rw [hpump] at h
          exact absurd h Bool.false_ne_true
  | onEvent envelope =>
      simp only [hpump, Option.some.injEq] at hstep
      subst hstep
      cases returns with
      | true =>
          have := Handles.told envelope hpump
          simpa using this
      | false =>
          have := Handles.raised envelope hpump
          simpa using this
  | _ =>
      rw [hpump] at h
      exact absurd h Bool.false_ne_true

theorem events_taken (command : AuditCommand) :
    (PumpPc.taken command).events = command.events := by
  cases command <;> rfl

/-- Taking the first command loses no event. -/
theorem Caught.take {calls : List ObserverCall} {command : AuditCommand}
    {commands : List AuditCommand} {offering : Option Offering} {reliable : List Envelope}
    (h : Caught calls .get (command :: commands) offering reliable) :
    Caught calls (.taken command) commands offering reliable := by
  obtain ⟨handled, hcalls, hall⟩ := h
  refine ⟨handled, hcalls, ?_⟩
  rw [events_taken, ← hall, List.flatMap_cons]
  simp [PumpPc.events]

theorem Caught.told {calls : List ObserverCall} {envelope : Envelope}
    {commands : List AuditCommand} {offering : Option Offering} {reliable : List Envelope}
    (h : Caught calls (.onEvent envelope) commands offering reliable) :
    Caught (calls ++ [.onEvent envelope true]) .get commands offering reliable := by
  obtain ⟨handled, hcalls, hall⟩ := h
  refine ⟨handled ++ [envelope], ?_, ?_⟩
  · rw [hcalls]
    simp [toldEvents]
  · rw [← hall]
    simp [PumpPc.events]

/-- An emit of a reliable event that is about to be offered. -/
theorem Caught.sequence {calls : List ObserverCall} {pump : PumpPc}
    {commands : List AuditCommand} {reliable : List Envelope}
    (h : Caught calls pump commands none reliable) (offered : Bool) (envelope : Envelope) :
    Caught calls pump commands (if offered then some (.sequenced envelope) else none)
      (reliable ++ if offered then [envelope] else []) := by
  obtain ⟨handled, hcalls, hall⟩ := h
  refine ⟨handled, hcalls, ?_⟩
  rw [← hall]
  cases offered <;> simp [Offering.events]

theorem Caught.put {calls : List ObserverCall} {pump : PumpPc}
    {commands : List AuditCommand} {envelope : Envelope} {reliable : List Envelope}
    (h : Caught calls pump commands (some (.putting envelope)) reliable) :
    Caught calls pump (commands ++ [.event envelope]) none reliable := by
  obtain ⟨handled, hcalls, hall⟩ := h
  refine ⟨handled, hcalls, ?_⟩
  rw [← hall]
  simp [Offering.events, AuditCommand.events]

theorem Caught.stop {calls : List ObserverCall} {pump : PumpPc}
    {commands : List AuditCommand} {offering : Option Offering} {reliable : List Envelope}
    (h : Caught calls pump commands offering reliable) :
    Caught calls pump (commands ++ [.stop]) offering reliable := by
  obtain ⟨handled, hcalls, hall⟩ := h
  refine ⟨handled, hcalls, ?_⟩
  rw [← hall]
  simp [AuditCommand.events]

/-- What a handling pump keeps of the events before some point of the queue
that it does not pass. -/
theorem Handles.caught (h : Handles audit audit') {before after : List AuditCommand}
    {offering : Option Offering} (hqueue : audit.queue = before ++ after)
    (hcaught : audit.degraded = true ∨
      Caught audit.calls audit.pump before offering audit.reliable)
    (hbefore : audit.pump = .get → audit.queue ≠ [] → before ≠ []) :
    ∃ before', audit'.queue = before' ++ after ∧ (∀ command ∈ before', command ∈ before) ∧
      (audit'.degraded = true ∨
        Caught audit'.calls audit'.pump before' offering audit'.reliable) := by
  cases h with
  | take command queue hpump hhead =>
      cases before with
      | nil => exact absurd rfl (hbefore hpump (by simp [hhead]))
      | cons first rest =>
          rw [hqueue] at hhead
          obtain ⟨rfl, rfl⟩ := List.cons.inj hhead
          refine ⟨rest, rfl, fun command hmem => List.mem_cons_of_mem _ hmem, ?_⟩
          rw [hpump] at hcaught
          exact hcaught.imp_right Caught.take
  | skip envelope hpump hdegraded => exact ⟨before, hqueue, fun _ h => h, Or.inl hdegraded⟩
  | enter envelope hpump hdegraded =>
      refine ⟨before, hqueue, fun _ h => h, ?_⟩
      rw [hpump] at hcaught
      exact hcaught
  | stop hpump =>
      refine ⟨before, hqueue, fun _ h => h, ?_⟩
      rw [hpump] at hcaught
      exact hcaught
  | told envelope hpump =>
      refine ⟨before, hqueue, fun _ h => h, ?_⟩
      rw [hpump] at hcaught
      exact hcaught.imp_right Caught.told
  | raised envelope hpump => exact ⟨before, hqueue, fun _ h => h, Or.inl rfl⟩

/-- Where a handling pump is afterwards. -/
theorem Handles.pump (h : Handles audit audit') (hfree : ∀ result, .finalize result ∉ audit.queue) :
    audit'.pump = .stopping ∨ audit'.pump.handling = true := by
  cases h with
  | take command queue hpump hhead =>
      cases command with
      | finalize result => exact absurd (hhead ▸ List.mem_cons_self) (hfree result)
      | event | stop => exact Or.inr rfl
  | stop => exact Or.inl rfl
  | _ => exact Or.inr rfl

theorem Handles.same (h : Handles audit audit') :
    audit'.succeeded = audit.succeeded ∧ audit'.emitted = audit.emitted ∧
      audit'.offering = audit.offering := by
  cases h <;> exact ⟨rfl, rfl, rfl⟩

/-- The observer's `close()` on a `_Stop`. -/
theorem stopping_step (h : audit.pump = .stopping) {returns : Bool}
    (hstep : audit.run returns = some audit') :
    audit'.pump.silent = true ∧ audit'.succeeded = audit.succeeded ∧
      audit'.emitted = audit.emitted ∧ audit'.offering = audit.offering ∧
        audit'.queue = audit.queue := by
  unfold run at hstep
  rw [h] at hstep
  obtain rfl := Option.some.inj hstep
  exact ⟨rfl, rfl, rfl, rfl, rfl⟩

theorem Open.run (h : Open audit) {returns : Bool} (hstep : audit.run returns = some audit') :
    Open audit' := by
  rcases h.caught with (hstop | hsilent) | ⟨hpump, hcaught⟩
  · obtain ⟨hpump, hsucceeded, -, -, hqueue⟩ := stopping_step hstop hstep
    exact ⟨hqueue ▸ h.unfinalized, hsucceeded ▸ h.failed, Or.inl (Or.inr hpump)⟩
  · obtain ⟨hpump, -, hsucceeded, -, -, hqueue⟩ := silent_step hsilent hstep
    exact ⟨hqueue ▸ h.unfinalized, hsucceeded ▸ h.failed, Or.inl (Or.inr hpump)⟩
  · have hmove := handling_step hpump hstep
    obtain ⟨hsucceeded, hemitted, hoffering⟩ := hmove.same
    obtain ⟨queue', hqueue', hsub, hcaught'⟩ := hmove.caught
      (show audit.queue = audit.queue ++ [] from (List.append_nil _).symm) hcaught
      (fun _ hne => hne)
    rw [List.append_nil] at hqueue'
    subst hqueue'
    refine ⟨fun result hmem => h.unfinalized result (hsub _ hmem), hsucceeded ▸ h.failed, ?_⟩
    rcases hmove.pump h.unfinalized with hstop | hhandling
    · exact Or.inl (Or.inl hstop)
    · exact Or.inr ⟨hhandling, hoffering ▸ hcaught'⟩

theorem Finalizing.run (h : Finalizing audit result) {returns : Bool}
    (hstep : audit.run returns = some audit') : Finalizing audit' result := by
  cases h with
  | queued before after hqueue hfree hfailed hpump hcaught =>
      have hmove := handling_step hpump hstep
      obtain ⟨hsucceeded, hemitted, -⟩ := hmove.same
      by_cases hreached : audit.pump = .get ∧ before = []
      · -- The pump takes the `_Finalize`.
        obtain ⟨hget, rfl⟩ := hreached
        cases hmove with
        | take command queue _ hhead =>
            rw [hqueue] at hhead
            obtain ⟨rfl, rfl⟩ := List.cons.inj hhead
            refine .taken rfl hfailed (hcaught.imp_right ?_)
            rw [hget]
            rintro ⟨handled, hcalls, hall⟩
            have hreliable : handled = audit.reliable := by simpa [PumpPc.events] using hall
            exact hcalls.trans (congrArg toldEvents hreliable)
        | skip envelope hp | enter envelope hp | stop hp | told envelope hp | raised envelope hp =>
            rw [hget] at hp
            exact absurd hp (by simp)
      · obtain ⟨before', hqueue', hsub, hcaught'⟩ := hmove.caught hqueue hcaught
          fun hget _ hnil => hreached ⟨hget, hnil⟩
        have hfree' : ∀ other, .finalize other ∉ before' :=
          fun other hmem => hfree other (hsub _ hmem)
        have hpump' : audit'.pump = .stopping ∨ audit'.pump.handling = true := by
          cases hmove with
          | take command queue hget hhead =>
              cases before with
              | nil => exact absurd ⟨hget, rfl⟩ hreached
              | cons first rest =>
                  rw [hqueue] at hhead
                  obtain ⟨rfl, -⟩ := List.cons.inj hhead
                  cases first with
                  | finalize other => exact absurd List.mem_cons_self (hfree other)
                  | event | stop => exact Or.inr rfl
          | stop => exact Or.inl rfl
          | _ => exact Or.inr rfl
        rcases hpump' with hstop | hhandling
        · exact .stopping hstop (hsucceeded ▸ hfailed)
        · exact .queued before' after hqueue' hfree' (hsucceeded ▸ hfailed) hhandling hcaught'
  | taken hpump hfailed htold =>
      unfold AuditPump.run at hstep
      simp only [hpump, handle, Option.some.injEq] at hstep
      subst hstep
      split
      · next hdegraded =>
          refine .silent rfl fun hsucceeded => ?_
          exact absurd hsucceeded (by simp [hfailed])
      · next hdegraded => exact .calling rfl hfailed (htold.resolve_left hdegraded)
  | calling hpump hfailed htold =>
      unfold AuditPump.run at hstep
      simp only [hpump, Option.some.injEq] at hstep
      subst hstep
      cases returns with
      | true =>
          refine .closing rfl hfailed ?_
          exact congrArg (· ++ _) htold
      | false =>
          refine .silent rfl fun hsucceeded => ?_
          exact absurd hsucceeded (by simp [hfailed])
  | closing hpump hfailed htold =>
      unfold AuditPump.run at hstep
      simp only [hpump, Option.some.injEq] at hstep
      subst hstep
      refine .silent rfl fun hsucceeded => ?_
      obtain rfl : returns = true := hsucceeded
      have hcalls : audit.calls ++ [.close true] =
          toldEvents audit.reliable ++ [.finalize result true, .close true] := by
        rw [htold, List.append_assoc]
        rfl
      exact hcalls
  | stopping hpump hfailed =>
      obtain ⟨hsilent, hsucceeded, -, -, -⟩ := stopping_step hpump hstep
      refine .silent hsilent fun htrue => ?_
      exact absurd (hsucceeded ▸ htrue) (by simp [hfailed])
  | silent hpump htold =>
      obtain ⟨hsilent, hcalls, hsucceeded, hemitted, -, -⟩ := silent_step hpump hstep
      refine .silent hsilent fun htrue => ?_
      unfold reliable at htold ⊢
      rw [hcalls, hemitted]
      exact htold (hsucceeded ▸ htrue)

/-- The way of the `_Finalize` depends on these fields only. -/
theorem Finalizing.same (h : Finalizing audit result) (hqueue : audit'.queue = audit.queue)
    (hdegraded : audit'.degraded = audit.degraded) (hcalls : audit'.calls = audit.calls)
    (hpump : audit'.pump = audit.pump) (hsucceeded : audit'.succeeded = audit.succeeded)
    (hreliable : audit'.reliable = audit.reliable) : Finalizing audit' result := by
  cases h with
  | queued before after hq hfree hfailed hp hcaught =>
      refine .queued before after (hqueue.trans hq) hfree (hsucceeded.trans hfailed) (hpump ▸ hp) ?_
      rw [hdegraded, hcalls, hpump, hreliable]
      exact hcaught
  | taken hp hfailed htold =>
      refine .taken (hpump.trans hp) (hsucceeded.trans hfailed) ?_
      rw [hdegraded, hcalls, hreliable]
      exact htold
  | calling hp hfailed htold =>
      refine .calling (hpump.trans hp) (hsucceeded.trans hfailed) ?_
      rw [hcalls, hreliable]
      exact htold
  | closing hp hfailed htold =>
      refine .closing (hpump.trans hp) (hsucceeded.trans hfailed) ?_
      rw [hcalls, hreliable]
      exact htold
  | stopping hp hfailed => exact .stopping (hpump.trans hp) (hsucceeded.trans hfailed)
  | silent hp htold =>
      refine .silent (hpump ▸ hp) ?_
      rw [hsucceeded, hcalls, hreliable]
      exact htold

/-! ## The emitting threads

An offer puts the event, or finds the queue full and marks the pump as degraded. -/

/-- What an emit adds to the reliable events. -/
theorem reliable_sequence {body : EventBody} (hstep : audit.sequence body = some audit') :
    audit.offering = none ∧ body.isTerminal = false ∧
      audit' = { audit with
        seq := audit.seq + 1
        emitted := audit.emitted ++ [audit.envelope body]
        offering := if offers body then some (.sequenced (audit.envelope body)) else none } ∧
      audit'.reliable = audit.reliable ++ if offers body then [audit.envelope body] else [] := by
  unfold sequence at hstep
  split at hstep
  · exact absurd hstep (by simp)
  · next hfree =>
      obtain rfl := Option.some.inj hstep
      simp only [Bool.or_eq_true, not_or, Bool.not_eq_true, Option.isSome_eq_false_iff,
        Option.isNone_iff_eq_none] at hfree
      refine ⟨hfree.1, hfree.2, rfl, ?_⟩
      have hnew : [audit.envelope body].filter Envelope.audited =
          if offers body then [audit.envelope body] else [] := by
        cases hoffers : offers body <;> simp [Envelope.audited, envelope, hoffers]
      unfold reliable
      rw [List.filter_append, hnew]

theorem Open.sequence (h : Open audit) {body : EventBody}
    (hstep : audit.sequence body = some audit') : Open audit' := by
  obtain ⟨hfree, -, heq, hreliable⟩ := reliable_sequence hstep
  have hcaught : Caught audit.calls audit.pump audit.queue audit.offering audit.reliable →
      Caught audit'.calls audit'.pump audit'.queue audit'.offering audit'.reliable := by
    intro hcaught
    rw [hfree] at hcaught
    rw [hreliable, heq]
    exact Caught.sequence hcaught _ _
  rw [heq] at hcaught ⊢
  exact ⟨h.unfinalized, h.failed, h.caught.imp_right (And.imp_right (Or.imp_right hcaught))⟩

/-- What a step of an offer does. -/
inductive Offers (audit : AuditPump) : AuditPump → Prop
  | skip (envelope : Envelope) : audit.offering = some (.sequenced envelope) →
      audit.degraded = true → Offers audit { audit with offering := none }
  | enter (envelope : Envelope) : audit.offering = some (.sequenced envelope) →
      Offers audit { audit with offering := some (.putting envelope) }
  | full (envelope : Envelope) : audit.offering = some (.putting envelope) →
      Offers audit { audit with offering := none, degraded := true }
  | put (envelope : Envelope) : audit.offering = some (.putting envelope) →
      Offers audit { audit with offering := none, queue := audit.queue ++ [.event envelope] }

theorem offer_cases (hstep : audit.offer = some audit') : Offers audit audit' := by
  unfold offer at hstep
  split at hstep
  · exact absurd hstep (by simp)
  · next envelope hoffering =>
      split at hstep
      · next hdegraded =>
          obtain rfl := Option.some.inj hstep
          exact .skip envelope hoffering hdegraded
      · obtain rfl := Option.some.inj hstep
        exact .enter envelope hoffering
  · next envelope hoffering =>
      split at hstep
      · obtain rfl := Option.some.inj hstep
        exact .full envelope hoffering
      · obtain rfl := Option.some.inj hstep
        exact .put envelope hoffering

theorem Open.offer (h : Open audit) (hstep : Offers audit audit') : Open audit' := by
  cases hstep with
  | skip envelope hoffering hdegraded =>
      exact ⟨h.unfinalized, h.failed, h.caught.imp_right fun hp => ⟨hp.1, Or.inl hdegraded⟩⟩
  | enter envelope hoffering =>
      have hcaught := h.caught
      rw [hoffering] at hcaught
      exact ⟨h.unfinalized, h.failed, hcaught⟩
  | full envelope hoffering =>
      exact ⟨h.unfinalized, h.failed, h.caught.imp_right fun hp => ⟨hp.1, Or.inl rfl⟩⟩
  | put envelope hoffering =>
      refine ⟨?_, h.failed, h.caught.imp_right (And.imp_right (Or.imp_right ?_))⟩
      · intro result hmem
        rcases List.mem_append.1 hmem with hmem | hmem
        · exact h.unfinalized result hmem
        · exact absurd (List.mem_singleton.1 hmem) (by simp)
      · intro hcaught
        rw [hoffering] at hcaught
        exact Caught.put hcaught

/-! ## One step

What a thread other than the pump's does to the queue, in the two phases. -/

/-- A step that leaves the emits and the worker alone keeps the numbers. -/
theorem Sound.keep (h : Sound audit) (hphase : Phase audit' audit'.worker)
    (hseq : audit'.seq = audit.seq) (hemitted : audit'.emitted = audit.emitted)
    (hworker : audit'.worker = audit.worker) : Sound audit' := by
  refine ⟨hphase, ?_, ?_, ?_⟩
  · rw [hemitted, hseq]
    exact h.numbered
  · rw [hemitted, hworker]
    exact h.concluded
  · rw [hworker, hseq]
    exact h.ended

theorem run_same {returns : Bool} (hstep : audit.run returns = some audit') :
    audit'.seq = audit.seq ∧ audit'.emitted = audit.emitted ∧ audit'.worker = audit.worker ∧
      audit'.offering = audit.offering := by
  unfold AuditPump.run at hstep
  split at hstep
  · split at hstep
    · exact absurd hstep (by simp)
    · obtain rfl := Option.some.inj hstep
      exact ⟨rfl, rfl, rfl, rfl⟩
  all_goals first
    | (obtain rfl := Option.some.inj hstep; exact ⟨rfl, rfl, rfl, rfl⟩)
    | exact absurd hstep (by simp)

theorem Sound.run (h : Sound audit) {returns : Bool} (hstep : audit.run returns = some audit') :
    Sound audit' := by
  obtain ⟨hseq, hemitted, hworker, hoffering⟩ := run_same hstep
  refine h.keep ?_ hseq hemitted hworker
  have hphase := h.phase
  rw [hworker]
  -- What was told stays told: a silent pump makes no more calls.
  have htold {events : List Envelope → List Envelope} {result : OperationResult}
      (hp : audit.pump.silent = true ∧ Told audit.calls (events audit.reliable) result) :
      audit'.pump.silent = true ∧ Told audit'.calls (events audit'.reliable) result := by
    obtain ⟨hsilent, hcalls, -, -, -, -⟩ := silent_step hp.1 hstep
    unfold reliable at hp ⊢
    rw [hcalls, hemitted]
    exact ⟨hsilent, hp.2⟩
  cases hw : audit.worker with
  | running | settled | putting =>
      rw [hw] at hphase
      exact Open.run hphase hstep
  | waiting result =>
      rw [hw] at hphase
      exact ⟨hoffering ▸ hphase.1, hphase.2.run hstep⟩
  | audited result status =>
      rw [hw] at hphase
      cases status with
      | ok => exact ⟨hoffering ▸ hphase.1, @htold id result hphase.2⟩
      | degraded => trivial
  | concluded result status seq =>
      rw [hw] at hphase
      cases status with
      | ok => exact @htold (fun all => all.filter fun event => event.seq < seq) result hphase
      | degraded => trivial

theorem Sound.offer (h : Sound audit) (hstep : audit.offer = some audit') : Sound audit' := by
  have hoffer := offer_cases hstep
  have hsame : audit'.seq = audit.seq ∧ audit'.emitted = audit.emitted ∧
      audit'.worker = audit.worker ∧ audit'.calls = audit.calls ∧ audit'.pump = audit.pump := by
    cases hoffer <;> exact ⟨rfl, rfl, rfl, rfl, rfl⟩
  obtain ⟨hseq, hemitted, hworker, hcalls, hpump⟩ := hsame
  refine h.keep ?_ hseq hemitted hworker
  have hphase := h.phase
  rw [hworker]
  have hbusy (hnone : audit.offering = none) : False := by
    cases hoffer with
    | skip envelope h | enter envelope h | full envelope h | put envelope h =>
        rw [hnone] at h
        exact absurd h (by simp)
  cases hw : audit.worker with
  | running | settled | putting =>
      rw [hw] at hphase
      exact Open.offer hphase hoffer
  | waiting result =>
      rw [hw] at hphase
      exact (hbusy hphase.1).elim
  | audited result status =>
      rw [hw] at hphase
      cases status with
      | ok => exact (hbusy hphase.1).elim
      | degraded => trivial
  | concluded result status seq =>
      rw [hw] at hphase
      cases status with
      | ok =>
          unfold Phase reliable at hphase ⊢
          rw [hpump, hcalls, hemitted]
          exact hphase
      | degraded => trivial

theorem Sound.sequence (h : Sound audit) {body : EventBody}
    (horderly : audit.orderly (.sequence body) = true)
    (hstep : audit.sequence body = some audit') : Sound audit' := by
  obtain ⟨hfree, hterminal, heq, hreliable⟩ := reliable_sequence hstep
  have hphase := h.phase
  refine ⟨?_, ?_, ?_, ?_⟩
  · have hworker : audit'.worker = audit.worker := by rw [heq]
    -- In the window no reliable event begins.
    have hquiet (hwindow : audit.finalizing = true) :
        audit'.offering = none ∧ audit'.reliable = audit.reliable := by
      have hoffers : offers body = false := by
        unfold orderly at horderly
        rw [hwindow] at horderly
        simpa using horderly
      rw [hreliable, heq, hoffers]
      simp
    rw [hworker]
    cases hw : audit.worker with
    | running | settled | putting =>
        rw [hw] at hphase
        exact Open.sequence hphase hstep
    | waiting result =>
        rw [hw] at hphase
        obtain ⟨hoffering, hsame⟩ := hquiet (by simp [finalizing, hw])
        refine ⟨hoffering, hphase.2.same ?_ ?_ ?_ ?_ ?_ hsame⟩ <;> rw [heq]
    | audited result status =>
        rw [hw] at hphase
        cases status with
        | ok =>
            obtain ⟨hoffering, hsame⟩ := hquiet (by simp [finalizing, hw])
            have hpump : audit'.pump = audit.pump := by rw [heq]
            have hcalls : audit'.calls = audit.calls := by rw [heq]
            unfold Phase
            rw [hsame, hpump, hcalls]
            exact ⟨hoffering, hphase.2⟩
        | degraded => trivial
    | concluded result status seq =>
        rw [hw] at hphase
        cases status with
        | ok =>
            -- A later event has a later number.
            have hlater : audit'.reliable.filter (fun event => event.seq < seq) =
                audit.reliable.filter fun event => event.seq < seq := by
              have hle := h.ended result .ok seq hw
              rw [hreliable, List.filter_append]
              have hnone : (if offers body then [audit.envelope body] else []).filter
                  (fun event => decide (event.seq < seq)) = [] := by
                split
                · simp [envelope]
                  omega
                · rfl
              rw [hnone, List.append_nil]
            have hpump : audit'.pump = audit.pump := by rw [heq]
            have hcalls : audit'.calls = audit.calls := by rw [heq]
            change audit'.pump.silent = true ∧
              Told audit'.calls (audit'.reliable.filter fun event => event.seq < seq) result
            rw [hlater, hpump, hcalls]
            exact hphase
        | degraded => trivial
  · rw [heq]
    intro envelope hmem
    rcases List.mem_append.1 hmem with hmem | hmem
    · exact (h.numbered envelope hmem).trans (Nat.le_succ _)
    · rw [List.mem_singleton.1 hmem]
      exact Nat.le_refl _
  · rw [heq]
    intro envelope hmem result hbody
    rcases List.mem_append.1 hmem with hmem | hmem
    · exact h.concluded envelope hmem result hbody
    · rw [List.mem_singleton.1 hmem] at hbody
      have hbody : EnvelopeBody.emitted body = .emitted (.terminal result) := hbody
      obtain rfl := EnvelopeBody.emitted.inj hbody
      exact absurd hterminal (by simp [EventBody.isTerminal])
  · rw [heq]
    intro result status seq hw
    exact (h.ended result status seq hw).trans (Nat.le_succ _)

theorem Open.stop (h : Open audit) : Open { audit with queue := audit.queue ++ [.stop] } := by
  refine ⟨?_, h.failed, h.caught.imp_right (And.imp_right (Or.imp_right Caught.stop))⟩
  intro result hmem
  rcases List.mem_append.1 hmem with hmem | hmem
  · exact h.unfinalized result hmem
  · exact absurd (List.mem_singleton.1 hmem) (by simp)

theorem Open.degraded (h : Open audit) : Open { audit with degraded := true } :=
  ⟨h.unfinalized, h.failed, h.caught.imp_right fun hp => ⟨hp.1, Or.inl rfl⟩⟩

theorem Finalizing.stop (h : Finalizing audit result) :
    Finalizing { audit with queue := audit.queue ++ [.stop] } result := by
  cases h with
  | queued before after hqueue hfree hfailed hpump hcaught =>
      refine .queued before (after ++ [.stop]) ?_ hfree hfailed hpump hcaught
      rw [hqueue]
      simp
  | taken hpump hfailed htold => exact .taken hpump hfailed htold
  | calling hpump hfailed htold => exact .calling hpump hfailed htold
  | closing hpump hfailed htold => exact .closing hpump hfailed htold
  | stopping hpump hfailed => exact .stopping hpump hfailed
  | silent hpump htold => exact .silent hpump htold

theorem Finalizing.degraded (h : Finalizing audit result) :
    Finalizing { audit with degraded := true } result := by
  cases h with
  | queued before after hqueue hfree hfailed hpump hcaught =>
      exact .queued before after hqueue hfree hfailed hpump (Or.inl rfl)
  | taken hpump hfailed htold => exact .taken hpump hfailed (Or.inl rfl)
  | calling hpump hfailed htold => exact .calling hpump hfailed htold
  | closing hpump hfailed htold => exact .closing hpump hfailed htold
  | stopping hpump hfailed => exact .stopping hpump hfailed
  | silent hpump htold => exact .silent hpump htold

theorem Phase.stop {worker : ConcludePc} (h : Phase audit worker) :
    Phase { audit with queue := audit.queue ++ [.stop] } worker := by
  cases worker with
  | running | settled | putting => exact Open.stop h
  | waiting result => exact ⟨h.1, h.2.stop⟩
  | audited result status | concluded result status seq => cases status <;> exact h

theorem Phase.degraded {worker : ConcludePc} (h : Phase audit worker) :
    Phase { audit with degraded := true } worker := by
  cases worker with
  | running | settled | putting => exact Open.degraded h
  | waiting result => exact ⟨h.1, h.2.degraded⟩
  | audited result status | concluded result status seq => cases status <;> exact h

theorem Sound.close (h : Sound audit) : Sound audit.close := by
  unfold AuditPump.close
  split
  · exact h
  · split
    · exact h.keep (Phase.degraded h.phase) rfl rfl rfl
    · exact h.keep (Phase.stop h.phase) rfl rfl rfl

/-! ## The concluding worker

It puts `_Finalize` and waits for the answer.  `OK` comes only from a pump that
took everything before it. -/

/-- A block of the worker before its `Terminal`. -/
theorem Sound.worker (h : Sound audit) {worker : ConcludePc}
    (hnot : ∀ settled status seq, audit.worker ≠ .concluded settled status seq)
    (hphase : Phase audit' worker) (hseq : audit'.seq = audit.seq)
    (hemitted : audit'.emitted = audit.emitted) (hworker : audit'.worker = worker)
    (hnew : ∀ settled status seq, worker ≠ .concluded settled status seq) : Sound audit' := by
  refine ⟨hworker ▸ hphase, ?_, ?_, ?_⟩
  · rw [hemitted, hseq]
    exact h.numbered
  · rw [hemitted]
    intro envelope hmem result hbody
    obtain ⟨settled, status, hw, -⟩ := h.concluded envelope hmem result hbody
    exact absurd hw (hnot settled status envelope.seq)
  · intro result status seq hw
    exact absurd (hworker.symm.trans hw) (hnew result status seq)

theorem Sound.settle (h : Sound audit) (hstep : audit.settle result = some audit') :
    Sound audit' := by
  unfold AuditPump.settle at hstep
  split at hstep
  · next hw =>
      obtain rfl := Option.some.inj hstep
      have hphase := h.phase
      rw [hw] at hphase
      have hopen : Open audit := hphase
      exact h.worker (by simp [hw]) (show Phase _ (.settled result) from
        ⟨hopen.unfinalized, hopen.failed, hopen.caught⟩) rfl rfl rfl (by simp)
  · exact absurd hstep (by simp)

/-- Putting the `_Finalize`: everything reliable is in front of it. -/
theorem Open.put (h : Open audit) (hfree : audit.offering = none) :
    Finalizing { audit with queue := audit.queue ++ [.finalize result], worker := .waiting result }
      result := by
  rcases h.caught with (hstop | hsilent) | ⟨hpump, hcaught⟩
  · exact .stopping hstop h.failed
  · refine .silent hsilent fun hsucceeded => ?_
    exact absurd hsucceeded (by simp [h.failed])
  · rw [hfree] at hcaught
    exact .queued audit.queue [] rfl h.unfinalized h.failed hpump hcaught

/-- A `_Finalize` that succeeded was told after everything else. -/
theorem Finalizing.succeeded (h : Finalizing audit result) (hsucceeded : audit.succeeded = true) :
    audit.pump.silent = true ∧ Told audit.calls audit.reliable result := by
  cases h with
  | queued before after hqueue hfree hfailed hpump hcaught =>
      exact absurd hsucceeded (by simp [hfailed])
  | taken hpump hfailed htold | calling hpump hfailed htold | closing hpump hfailed htold
  | stopping hpump hfailed => exact absurd hsucceeded (by simp [hfailed])
  | silent hpump htold => exact ⟨hpump, htold hsucceeded⟩

theorem Sound.conclude (h : Sound audit) {givesUp : Bool}
    (horderly : audit.orderly (.conclude givesUp) = true)
    (hstep : audit.conclude givesUp = some audit') : Sound audit' := by
  have hphase := h.phase
  unfold AuditPump.conclude at hstep
  cases hw : audit.worker with
  | running => simp [hw] at hstep
  | settled result =>
      simp only [hw] at hstep hphase
      have hopen : Open audit := hphase
      split at hstep
      · obtain rfl := Option.some.inj hstep
        exact h.worker (by simp [hw]) (show Phase _ (.audited result .degraded) from trivial)
          rfl rfl rfl (by simp)
      · obtain rfl := Option.some.inj hstep
        exact h.worker (by simp [hw]) (show Phase _ (.putting result) from
          ⟨hopen.unfinalized, hopen.failed, hopen.caught⟩) rfl rfl rfl (by simp)
  | putting result =>
      simp only [hw] at hstep hphase
      split at hstep
      · obtain rfl := Option.some.inj hstep
        exact h.worker (by simp [hw]) (show Phase _ (.audited result .degraded) from trivial)
          rfl rfl rfl (by simp)
      · next hroom =>
        obtain rfl := Option.some.inj hstep
        have hfree : audit.offering = none := by
          unfold orderly at horderly
          rw [hw] at horderly
          simpa [hroom] using horderly
        exact h.worker (by simp [hw]) (show Phase _ (.waiting result) from
          ⟨hfree, Open.put hphase hfree⟩) rfl rfl rfl (by simp)
  | waiting result =>
      simp only [hw] at hstep hphase
      split at hstep
      · obtain rfl := Option.some.inj hstep
        exact h.worker (by simp [hw]) (show Phase _ (.audited result .degraded) from trivial)
          rfl rfl rfl (by simp)
      · split at hstep
        · obtain rfl := Option.some.inj hstep
          refine h.worker (by simp [hw]) (show Phase _ (.audited result
            (if audit.succeeded && !audit.degraded then .ok else .degraded)) from ?_)
            rfl rfl rfl (by simp)
          split
          · next hok =>
              have hsucceeded := (Bool.and_eq_true _ _ ▸ hok).1
              exact ⟨hphase.1, hphase.2.succeeded hsucceeded⟩
          · trivial
        · exact absurd hstep (by simp)
  | audited result status =>
      simp only [hw] at hstep hphase
      split at hstep
      · exact absurd hstep (by simp)
      · obtain rfl := Option.some.inj hstep
        have hreliable : (audit.emitted ++ [audit.envelope
            (.terminal (result.withAudit status))]).filter Envelope.audited = audit.reliable := by
          rw [List.filter_append]
          simp [reliable, Envelope.audited, envelope, offers, EventBody.isTerminal]
        refine ⟨?_, ?_, ?_, ?_⟩
        · cases status with
          | degraded => trivial
          | ok =>
              -- Every event so far comes before the `Terminal`.
              have hall : ∀ event ∈ audit.reliable, event.seq < audit.seq + 1 := by
                intro event hmem
                exact Nat.lt_succ_of_le (h.numbered event (List.mem_filter.1 hmem).1)
              refine ⟨hphase.2.1, ?_⟩
              have htold := hphase.2.2
              unfold reliable
              rw [hreliable, List.filter_eq_self.2 (by simpa using hall)]
              exact htold
        · intro event hmem
          rcases List.mem_append.1 hmem with hmem | hmem
          · exact (h.numbered event hmem).trans (Nat.le_succ _)
          · rw [List.mem_singleton.1 hmem]
            exact Nat.le_refl _
        · intro event hmem result' hbody
          rcases List.mem_append.1 hmem with hmem | hmem
          · obtain ⟨settled, status', hw', -⟩ := h.concluded event hmem result' hbody
            exact absurd (hw.symm.trans hw') (by simp)
          · rw [List.mem_singleton.1 hmem] at hbody ⊢
            have hbody : EnvelopeBody.emitted (.terminal (result.withAudit status)) =
                .emitted (.terminal result') := hbody
            injection hbody with hbody
            injection hbody with hbody
            exact ⟨result, status, rfl, hbody.symm⟩
        · intro result' status' seq hw'
          injection hw' with _ _ hseq
          exact Nat.le_of_eq hseq.symm
  | concluded result status seq => simp [hw] at hstep

theorem Sound.step (h : Sound audit) {action : Action} (horderly : audit.orderly action = true)
    (hstep : audit.step action = some audit') : Sound audit' := by
  cases action with
  | sequence body => exact h.sequence horderly hstep
  | offer => exact h.offer hstep
  | run returns => exact h.run hstep
  | settle result => exact h.settle hstep
  | conclude givesUp => exact h.conclude horderly hstep
  | close =>
      obtain rfl := Option.some.inj hstep
      exact h.close

theorem Sound.initial (capacity : Nat) (capacity_pos : 0 < capacity) :
    Sound (AuditPump.initial capacity capacity_pos) := by
  refine ⟨⟨?_, rfl, Or.inr ⟨rfl, Or.inr ⟨[], rfl, rfl⟩⟩⟩, ?_, ?_, ?_⟩ <;> simp [AuditPump.initial]

theorem Sound.truthful (h : Sound audit) : Truthful audit := by
  intro envelope hmem result hbody haudit
  obtain ⟨settled, status, hw, rfl⟩ := h.concluded envelope hmem result hbody
  obtain rfl : status = .ok := haudit
  have hphase := h.phase
  rw [hw] at hphase
  refine ⟨settled, hw, rfl, ?_⟩
  rw [show audit.calls = _ from hphase.2, List.filter_append]
  have hevents : ∀ events : List Envelope,
      (toldEvents events).filter ObserverCall.reports = toldEvents events := by
    intro events
    refine List.filter_eq_self.2 fun call hcall => ?_
    obtain ⟨event, -, rfl⟩ := List.mem_map.1 hcall
    rfl
  rw [hevents]
  rfl

end

/-- In every run in which no reliable event gets between the `_Finalize` and
the `Terminal`, every `Terminal` with `audit=OK` is true. -/
theorem audit_ok_truthful {capacity : Nat} {capacity_pos : 0 < capacity} {audit : AuditPump}
    (hrun : Transition.Run step (fun audit action => audit.orderly action = true)
      (initial capacity capacity_pos) audit) : Truthful audit := by
  have hsound : Sound audit := hrun.invariant
    (fun _ _ _ (h : Sound _) horderly hstep => h.step horderly hstep)
    (Sound.initial capacity capacity_pos)
  exact hsound.truthful

/-! ## A cancellation, with its announcement in time and late

The same events in two orders: the state `CANCELING` is announced before the
worker finalizes the audit, or after. -/

section Runs

def canceledSession : OperationResult := { status := .canceled, canceled := true }

/-- An emit that is offered and put on the queue. -/
def announced (state : SessionState) : List Action :=
  [.sequence (.stateChanged state), .offer, .offer]

/-- The pump takes an event and tells it. -/
def pumped : List Action := [.run true, .run true, .run true]

/-- From the `_Finalize` on the queue to the observer's `close`. -/
def finalized : List Action := [.run true, .run true, .run true, .run true, .run true]

theorem auditCapacity_pos : 0 < 4 := by decide

/-- The control call announces `CANCELING` before the worker settles. -/
def timelyAudit : AuditPump :=
  Transition.outcome step orderly (initial 4 auditCapacity_pos)
    (announced .canceling ++ pumped ++ announced .canceled ++ [.settle canceledSession] ++
      [.conclude false, .conclude false] ++ pumped ++ finalized ++
      [.conclude false, .conclude false])

theorem timely_truthful : Truthful timelyAudit ∧ (timelyAudit.emitted.any fun envelope =>
    decide (envelope.body = .emitted (.terminal canceledSession))) = true := by
  have hrun : Transition.Run step (fun audit action => audit.orderly action = true)
      (initial 4 auditCapacity_pos) timelyAudit :=
    Transition.outcome_run (fun _ _ h => h) _ _
  exact ⟨audit_ok_truthful hrun, by decide⟩

/-- The control call has made the record `CANCELING` and is held up before its
emit; the worker settles and finalizes meanwhile. -/
def lateAudit : AuditPump :=
  (Transition.exec step (initial 4 auditCapacity_pos)
    (announced .canceled ++ [.settle canceledSession] ++ [.conclude false, .conclude false] ++
      pumped ++ finalized ++ announced .canceling ++ [.conclude false, .conclude false])).getD
    (initial 4 auditCapacity_pos)

theorem late_untruthful :
    ¬ ∀ (capacity : Nat) (capacity_pos : 0 < capacity) (audit : AuditPump),
      Transition.AnyRun step (initial capacity capacity_pos) audit → Truthful audit := by
  intro h
  have htruth := h 4 (by decide) lateAudit
    (Transition.exec_run (Transition.exec_getD (by decide)))
  obtain ⟨settled, -, -, hcalls⟩ := htruth ⟨3, .emitted (.terminal canceledSession), by decide⟩
    (by decide) canceledSession rfl rfl
  -- One call too few: `CANCELING` was emitted before the `Terminal` and never told.
  exact absurd (congrArg List.length hcalls) (by
    simp only [List.length_append, List.length_singleton]
    decide)

end Runs

end AuditPump

end NamiSync
