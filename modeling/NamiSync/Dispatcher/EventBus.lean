/-
# `Dispatcher.EventBus` — bounded streams of one session's events

`EventStream` and `EventHub` of `dispatcher/event_bus.py`, without the audit
pump.  An emit runs under the hub's lock and offers its envelope to every
subscribed stream; a reader takes envelopes off its stream in between.  Each
stream keeps, as history, what it has been asked for and what it has
delivered.

Envelopes are lost in five places: the replay evicts the oldest and drops an
old `Progress`, a subscription trims the replay to its capacity, a stream
drops a `Progress`, and an overflow clears it.  What a stream has delivered
and still holds, taken together, accounts for every reliable event, in the
sense of `Lib.Lossy`.

The two history variables of a subscription (`since`, `delivered`) are read by
no step: dropping them leaves `event_bus.py`, and the results of
`Dispatcher.Delivery` need them to speak of what was asked for and read.
-/
import NamiSync.Core.Events
import NamiSync.Lib.Lossy
import NamiSync.Lib.Transition

namespace NamiSync

inductive DeliveryClass
  | lossy | reliable
  deriving DecidableEq, Repr

/-- `isinstance(body, Progress)`. -/
def EventBody.isProgress : EventBody → Bool
  | .progress _ => true
  | _ => false

/-- `delivery_class`. -/
def EventBody.deliveryClass (body : EventBody) : DeliveryClass :=
  if body.isProgress then .lossy else .reliable

/-- The body of an envelope: one that was emitted, or the `Gap` that a stream
or a subscription puts in place of what it loses. -/
inductive EnvelopeBody
  | emitted (body : EventBody)
  | gap (firstMissedSeq : Nat) (positive : 0 < firstMissedSeq)

instance : DecidableEq EnvelopeBody
  | .emitted a, .emitted b => decidable_of_iff (a = b) (by simp)
  | .gap a _, .gap b _ => decidable_of_iff (a = b) (by simp)
  | .emitted _, .gap _ _ => isFalse (by simp)
  | .gap _ _, .emitted _ => isFalse (by simp)

structure Envelope where
  seq : Nat
  body : EnvelopeBody
  seq_pos : 0 < seq

instance : DecidableEq Envelope := fun a b =>
  decidable_of_iff (a.seq = b.seq ∧ a.body = b.body) (by cases a; cases b; simp)

namespace Envelope

def isProgress (envelope : Envelope) : Bool :=
  match envelope.body with
  | .emitted body => body.isProgress
  | .gap _ _ => false

/-- `delivery_class(envelope.body)`. -/
def deliveryClass (envelope : Envelope) : DeliveryClass :=
  if envelope.isProgress then .lossy else .reliable

/-- `first_missed_seq` of a `Gap`. -/
def missed (envelope : Envelope) : Option Nat :=
  match envelope.body with
  | .emitted _ => none
  | .gap first _ => some first

/-- What a pending envelope makes the first missed number of an overflow. -/
def missedSeq (envelope : Envelope) : Nat :=
  match envelope.body with
  | .emitted _ => envelope.seq
  | .gap first _ => first

theorem missedSeq_pos (envelope : Envelope) : 0 < envelope.missedSeq := by
  unfold missedSeq
  split
  · exact envelope.seq_pos
  · assumption

theorem since_eq (envelope : Envelope) :
    Lossy.since Envelope.seq Envelope.missed envelope = envelope.missedSeq := by
  unfold Lossy.since missed missedSeq
  split <;> rfl

theorem missed_isSome {envelope : Envelope} (h : envelope.isProgress = true) :
    envelope.missed = none := by
  unfold isProgress at h
  unfold missed
  split at h
  · rfl
  · exact absurd h Bool.false_ne_true

theorem not_progress {envelope : Envelope} (h : envelope.deliveryClass = .reliable) :
    envelope.isProgress = false := by
  unfold deliveryClass at h
  cases hp : envelope.isProgress with
  | false => rfl
  | true =>
      rw [hp] at h
      exact absurd h (by decide)

end Envelope

/-- Delete the latest `Progress`, found by the loop that walks backwards. -/
def dropLatestProgress : List Envelope → List Envelope
  | [] => []
  | envelope :: rest =>
      if rest.any Envelope.isProgress then envelope :: dropLatestProgress rest
      else if envelope.isProgress then rest
      else envelope :: rest

theorem dropLatestProgress_sublist (items : List Envelope) :
    (dropLatestProgress items).Sublist items := by
  induction items with
  | nil => exact .slnil
  | cons envelope rest ih =>
      unfold dropLatestProgress
      split
      · exact ih.cons_cons envelope
      · split
        · exact List.sublist_cons_self envelope rest
        · exact .refl _

/-- Only a `Progress` is deleted. -/
theorem mem_dropLatestProgress {items : List Envelope} {envelope : Envelope}
    (hmem : envelope ∈ items) (hnot : envelope.isProgress = false) :
    envelope ∈ dropLatestProgress items := by
  induction items with
  | nil => exact absurd hmem List.not_mem_nil
  | cons first rest ih =>
      unfold dropLatestProgress
      split
      · rcases List.mem_cons.1 hmem with rfl | hmem
        · exact List.mem_cons_self
        · exact List.mem_cons_of_mem _ (ih hmem)
      · split
        · next hfirst =>
            rcases List.mem_cons.1 hmem with rfl | hmem
            · exact absurd hfirst (by simp [hnot])
            · exact hmem
        · exact hmem

/-- `append` on a `deque(maxlen=capacity)`. -/
def appendBounded (capacity : Nat) (items : List Envelope) (envelope : Envelope) :
    List Envelope :=
  (items ++ [envelope]).drop (items.length + 1 - capacity)

/-! ## Streams -/

structure EventStream where
  capacity : Nat
  currentState : SessionState
  items : List Envelope
  closed : Bool := false
  ejected : Bool := false
  capacity_pos : 0 < capacity

/-- The loop that finds the `first_missed_seq` of an overflow. -/
def firstMissed (items : List Envelope) (seq : Nat) : Nat :=
  items.foldl (fun first pending => min first pending.missedSeq) seq

theorem firstMissed_le (items : List Envelope) (seq : Nat) : firstMissed items seq ≤ seq := by
  induction items generalizing seq with
  | nil => exact Nat.le_refl seq
  | cons pending rest ih => exact (ih _).trans (Nat.min_le_left _ _)

theorem firstMissed_le_of_mem {items : List Envelope} {pending : Envelope} (h : pending ∈ items)
    (seq : Nat) : firstMissed items seq ≤ pending.missedSeq := by
  induction items generalizing seq with
  | nil => exact absurd h List.not_mem_nil
  | cons first rest ih =>
      rcases List.mem_cons.1 h with rfl | h
      · exact (firstMissed_le rest _).trans (Nat.min_le_right _ _)
      · exact ih h _

/-- The minimum is one of the numbers it is taken over. -/
theorem lt_firstMissed {items : List Envelope} {seq n : Nat} (hseq : n < seq)
    (h : ∀ pending ∈ items, n < pending.missedSeq) : n < firstMissed items seq := by
  induction items generalizing seq with
  | nil => exact hseq
  | cons first rest ih =>
      refine ih (Nat.lt_min.2 ⟨hseq, h first List.mem_cons_self⟩) ?_
      intro pending hpending
      exact h pending (List.mem_cons_of_mem _ hpending)

/-- The state a `StateChanged` announces, or the one there is. -/
def stateAfter (state : SessionState) : EventBody → SessionState
  | .stateChanged state' => state'
  | _ => state

/-- The same of an envelope. -/
def Envelope.stateAfter (state : SessionState) (envelope : Envelope) : SessionState :=
  match envelope.body with
  | .emitted body => NamiSync.stateAfter state body
  | .gap _ _ => state

namespace EventStream

/-- The `Gap` that takes the place of everything pending. -/
def overflowGap (stream : EventStream) (envelope : Envelope) : Envelope where
  seq := envelope.seq
  body := .gap (firstMissed stream.items envelope.seq)
    (lt_firstMissed envelope.seq_pos fun pending _ => pending.missedSeq_pos)
  seq_pos := envelope.seq_pos

/-- `_offer`. -/
def offer (stream : EventStream) (envelope : Envelope) : EventStream :=
  if stream.closed then stream
  else if envelope.deliveryClass = .lossy then
    if stream.capacity ≤ (dropLatestProgress stream.items).length then
      { stream with items := dropLatestProgress stream.items }
    else { stream with items := dropLatestProgress stream.items ++ [envelope] }
  else if stream.capacity ≤ stream.items.length then
    { stream with items := [stream.overflowGap envelope], ejected := true, closed := true }
  else
    { stream with
      items := stream.items ++ [envelope]
      currentState := envelope.stateAfter stream.currentState }

/-- `next`, when it returns an envelope; `none` is `StopIteration` on a
closed stream and a wait, or a timeout, on an open one. -/
def next (stream : EventStream) : Option (Envelope × EventStream) :=
  match stream.items with
  | [] => none
  | envelope :: items => some (envelope, { stream with items := items })

def close (stream : EventStream) : EventStream := { stream with closed := true }

/-- An ejected stream whose reads have reached the end. -/
def exhausted (stream : EventStream) : Bool := stream.ejected && stream.items.isEmpty

end EventStream

/-! ## The hub -/

/-- A stream in the hands of its consumer, with two history variables that no
step reads. -/
structure Subscription where
  stream : EventStream
  /-- The number the subscription asked for. -/
  fromSeq : Nat
  /-- What `next` has returned, oldest first. -/
  delivered : List Envelope := []

/-- The two capacities `__init__` checks. -/
structure Capacities where
  replay : Nat
  subscriber : Nat
  replay_pos : 0 < replay
  subscriber_pos : 0 < subscriber

/-- `EventHub` with the streams it has handed out, by number. -/
structure EventHub where
  capacities : Capacities
  state : SessionState
  replay : List Envelope := []
  subscribers : List Nat := []
  seq : Nat := 0
  subscriptions : List Subscription := []
  /-- History variable, read by no step: every envelope an emit has made. -/
  emitted : List Envelope := []

namespace EventHub

/-- The envelope an emit makes. -/
def envelope (hub : EventHub) (body : EventBody) : Envelope :=
  ⟨hub.seq + 1, .emitted body, Nat.succ_pos hub.seq⟩

/-- The loop that offers an envelope to the subscribers. -/
def offered (hub : EventHub) (envelope : Envelope) : List Subscription :=
  hub.subscriptions.mapIdx fun i subscription =>
    if i ∈ hub.subscribers then
      { subscription with stream := subscription.stream.offer envelope }
    else subscription

/-- A subscriber stays `live` unless it was ejected. -/
def live (subscriptions : List Subscription) (i : Nat) : Bool :=
  (subscriptions[i]?).any fun subscription => !subscription.stream.ejected

/-- `emit`, without `self._audit.offer`. -/
def emit (hub : EventHub) (body : EventBody) : EventHub :=
  let replay := if body.isProgress then dropLatestProgress hub.replay else hub.replay
  let subscriptions := hub.offered (hub.envelope body)
  { hub with
    seq := hub.seq + 1
    state := stateAfter hub.state body
    replay := appendBounded hub.capacities.replay replay (hub.envelope body)
    subscriptions := subscriptions
    subscribers := hub.subscribers.filter (live subscriptions)
    emitted := hub.emitted ++ [hub.envelope body] }

/-- What a new stream starts with: the replay from `requested` on, cut down
to the capacity, behind a `Gap` if something is missing. -/
def initialItems (hub : EventHub) (requested : Nat) (positive : 0 < requested) :
    List Envelope :=
  let selected := hub.replay.filter fun event => requested ≤ event.seq
  let gapNeeded := decide (requested ≤ hub.seq) &&
    selected.head?.all fun event => requested < event.seq
  let allowance := hub.capacities.subscriber - (if gapNeeded then 1 else 0)
  let gap : Envelope := ⟨requested, .gap requested positive, positive⟩
  if allowance < selected.length then gap :: selected.drop (selected.length - allowance)
  else if gapNeeded then gap :: selected
  else selected

/-- `subscribe`; `none` is the `ValueError` of a number below one. -/
def subscribe (hub : EventHub) (fromSeq : Option Nat) : Option EventHub :=
  if positive : 0 < fromSeq.getD 1 then
    some { hub with
      subscribers := hub.subscribers ++ [hub.subscriptions.length]
      subscriptions := hub.subscriptions ++ [{
        stream := {
          capacity := hub.capacities.subscriber
          currentState := hub.state
          items := hub.initialItems (fromSeq.getD 1) positive
          capacity_pos := hub.capacities.subscriber_pos }
        fromSeq := fromSeq.getD 1 }] }
  else none

/-- A read that returns an envelope. -/
def read (hub : EventHub) (i : Nat) : Option EventHub :=
  match hub.subscriptions[i]? with
  | none => none
  | some subscription =>
      match subscription.stream.next with
      | none => none
      | some (envelope, stream) =>
          some { hub with
            subscriptions := hub.subscriptions.set i
              { subscription with
                stream := stream
                delivered := subscription.delivered ++ [envelope] } }

def closeStream (hub : EventHub) (i : Nat) : Option EventHub :=
  match hub.subscriptions[i]? with
  | none => none
  | some subscription =>
      some { hub with
        subscriptions := hub.subscriptions.set i
          { subscription with stream := subscription.stream.close } }

inductive Action
  | emit (body : EventBody)
  | subscribe (fromSeq : Option Nat)
  | read (stream : Nat)
  /-- A consumer closes its stream, or the hub one that it has let go. -/
  | closeStream (stream : Nat)
  /-- The locked block of `close`, which lets go of the subscribers. -/
  | close

def step (hub : EventHub) : Action → Option EventHub
  | .emit body => some (hub.emit body)
  | .subscribe fromSeq => hub.subscribe fromSeq
  | .read i => hub.read i
  | .closeStream i => hub.closeStream i
  | .close => some { hub with subscribers := [] }

/-- A hub as `__init__` leaves it. -/
def initial (capacities : Capacities) (state : SessionState) : EventHub :=
  { capacities := capacities, state := state }

end EventHub

end NamiSync
