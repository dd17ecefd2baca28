/-
# `Dispatcher.Bounded` — how much a stream holds

An offer never takes a stream past its capacity.  A subscription can: the
`Gap` that announces what was cut off is not counted when nothing was missing
before the cut, so such a stream starts with one envelope too many.

## What is proved

    streams_bounded : every stream of every state reached is within the
      capacity if all subscriptions of the run are `Fitting`; and a
      subscription that is not makes a stream that is not.

`Fits` is a condition on the hub before the subscription and the number asked
for: the replay is not cut down, or there was to be a `Gap` in any case.  The
two halves together make it exact for each subscription
(`initialItems_le_iff`).
-/
import NamiSync.Dispatcher.EventBus

namespace NamiSync

/-! ## What a subscription starts with

The replay is cut to what the stream takes; a gap takes one place. -/

namespace EventHub

variable (hub : EventHub) (requested : Nat)

/-- `selected`, before it is cut down. -/
def selected : List Envelope := hub.replay.filter fun event => requested ≤ event.seq

/-- `gap_needed`, before the cut: a number from `requested` on is no longer in
the replay. -/
def gapNeeded : Bool :=
  decide (requested ≤ hub.seq) &&
    (hub.selected requested).head?.all fun event => requested < event.seq

/-- A subscription fits if it is not cut, or was to start with a `Gap` anyway. -/
def Fits : Prop :=
  (hub.selected requested).length ≤ hub.capacities.subscriber ∨ hub.gapNeeded requested = true

/-- The items of a stream that needs a `Gap` anyway leave room for it. -/
theorem initialItems_of_gap (positive : 0 < requested) (h : hub.gapNeeded requested = true) :
    hub.initialItems requested positive =
      ⟨requested, .gap requested positive, positive⟩ ::
        (hub.selected requested).drop
          ((hub.selected requested).length - (hub.capacities.subscriber - 1)) := by
  unfold gapNeeded selected at h
  unfold initialItems selected
  dsimp only
  rw [h, if_pos rfl, if_pos rfl]
  split
  · rfl
  · next hroom => rw [Nat.sub_eq_zero_of_le (Nat.le_of_not_lt hroom), List.drop_zero]

theorem initialItems_of_no_gap (positive : 0 < requested) (h : hub.gapNeeded requested = false) :
    hub.initialItems requested positive =
      if hub.capacities.subscriber < (hub.selected requested).length then
        ⟨requested, .gap requested positive, positive⟩ ::
          (hub.selected requested).drop
            ((hub.selected requested).length - hub.capacities.subscriber)
      else hub.selected requested := by
  unfold gapNeeded selected at h
  unfold initialItems selected
  dsimp only
  rw [h]
  rfl

/-- A new stream is within its capacity exactly when it fits. -/
theorem initialItems_le_iff (positive : 0 < requested) :
    (hub.initialItems requested positive).length ≤ hub.capacities.subscriber ↔
      hub.Fits requested := by
  have hpos := hub.capacities.subscriber_pos
  cases hgap : hub.gapNeeded requested with
  | true =>
      refine iff_of_true ?_ (Or.inr hgap)
      rw [hub.initialItems_of_gap requested positive hgap, List.length_cons, List.length_drop]
      omega
  | false =>
      have hfits : hub.Fits requested ↔
          (hub.selected requested).length ≤ hub.capacities.subscriber := by
        rw [Fits, hgap]
        exact or_iff_left Bool.false_ne_true
      rw [hub.initialItems_of_no_gap requested positive hgap, hfits]
      split
      · next hcut =>
          rw [List.length_cons, List.length_drop]
          omega
      · exact Iff.rfl

end EventHub

/-! ## Offers

No offer makes a stream grow beyond its capacity. -/

theorem EventStream.length_offer_le {stream : EventStream} (envelope : Envelope)
    (h : stream.items.length ≤ stream.capacity) :
    (stream.offer envelope).items.length ≤ (stream.offer envelope).capacity := by
  have hdrop := (dropLatestProgress_sublist stream.items).length_le
  unfold EventStream.offer
  split
  · exact h
  · split
    · split
      · exact hdrop.trans h
      · next hroom =>
          show (dropLatestProgress stream.items ++ [envelope]).length ≤ stream.capacity
          rw [List.length_append]
          exact Nat.lt_of_not_le hroom
    · split
      · exact stream.capacity_pos
      · next hroom =>
          show (stream.items ++ [envelope]).length ≤ stream.capacity
          rw [List.length_append]
          exact Nat.lt_of_not_le hroom

theorem EventStream.capacity_offer (stream : EventStream) (envelope : Envelope) :
    (stream.offer envelope).capacity = stream.capacity := by
  unfold EventStream.offer
  split
  · rfl
  · split
    · split <;> rfl
    · split <;> rfl

/-! ## The hub

Every stream of every hub is within its capacity, in any run whose subscriptions
fit; for one that does not the bound fails at once. -/

/-- Every stream is within the capacity. -/
def WithinCapacity (capacity : Nat) (hub : EventHub) : Prop :=
  ∀ subscription ∈ hub.subscriptions, subscription.stream.items.length ≤ capacity

/-- The invariant: all streams have the hub's capacity and keep to it. -/
structure Roomy (capacities : Capacities) (hub : EventHub) : Prop where
  capacities_eq : hub.capacities = capacities
  capacity_eq : ∀ subscription ∈ hub.subscriptions,
    subscription.stream.capacity = capacities.subscriber
  bounded : WithinCapacity capacities.subscriber hub

/-- A subscription is to fit, and nothing is asked of other steps. -/
def Fitting (hub : EventHub) : EventHub.Action → Prop
  | .subscribe fromSeq => hub.Fits (fromSeq.getD 1)
  | _ => True

section Hub

variable {capacities : Capacities} {hub hub' : EventHub}

theorem Roomy.emit (h : Roomy capacities hub) (body : EventBody) :
    Roomy capacities (hub.emit body) := by
  have hoffered :
      ∀ subscription' ∈ (hub.emit body).subscriptions, ∃ subscription ∈ hub.subscriptions,
        subscription'.stream = subscription.stream ∨
          subscription'.stream = subscription.stream.offer (hub.envelope body) := by
    intro subscription' hmem
    obtain ⟨i, hi, rfl⟩ := List.mem_mapIdx.1 hmem
    refine ⟨hub.subscriptions[i], List.getElem_mem hi, ?_⟩
    split
    · exact Or.inr rfl
    · exact Or.inl rfl
  refine ⟨h.capacities_eq, fun subscription' hmem => ?_, fun subscription' hmem => ?_⟩
  · obtain ⟨subscription, hold, heq | heq⟩ := hoffered subscription' hmem
    · rw [heq]
      exact h.capacity_eq subscription hold
    · rw [heq, EventStream.capacity_offer]
      exact h.capacity_eq subscription hold
  · obtain ⟨subscription, hold, heq | heq⟩ := hoffered subscription' hmem
    · rw [heq]
      exact h.bounded subscription hold
    · have hle := EventStream.length_offer_le (hub.envelope body)
        ((h.bounded subscription hold).trans (h.capacity_eq subscription hold).ge)
      rw [EventStream.capacity_offer, h.capacity_eq subscription hold] at hle
      rw [heq]
      exact hle

/-- The new stream of a subscription, and the old ones. -/
theorem mem_subscribe {fromSeq : Option Nat} (hstep : hub.subscribe fromSeq = some hub')
    {subscription : Subscription} (hmem : subscription ∈ hub'.subscriptions) :
    subscription ∈ hub.subscriptions ∨
      ∃ positive, subscription.stream.items = hub.initialItems (fromSeq.getD 1) positive ∧
        subscription.stream.capacity = hub.capacities.subscriber := by
  unfold EventHub.subscribe at hstep
  split at hstep
  · next positive =>
      obtain rfl := Option.some.inj hstep
      rcases List.mem_append.1 hmem with hold | hnew
      · exact Or.inl hold
      · rw [List.mem_singleton.1 hnew]
        exact Or.inr ⟨positive, rfl, rfl⟩
  · cases hstep

theorem Roomy.subscribe (h : Roomy capacities hub) {fromSeq : Option Nat}
    (hstep : hub.subscribe fromSeq = some hub') (hfits : hub.Fits (fromSeq.getD 1)) :
    Roomy capacities hub' := by
  have hcapacities : hub'.capacities = hub.capacities := by
    unfold EventHub.subscribe at hstep
    split at hstep
    · rw [← Option.some.inj hstep]
    · cases hstep
  refine ⟨hcapacities.trans h.capacities_eq, fun subscription hmem => ?_,
    fun subscription hmem => ?_⟩
  · rcases mem_subscribe hstep hmem with hold | ⟨positive, -, hcapacity⟩
    · exact h.capacity_eq subscription hold
    · rw [hcapacity, h.capacities_eq]
  · rcases mem_subscribe hstep hmem with hold | ⟨positive, hitems, -⟩
    · exact h.bounded subscription hold
    · rw [hitems, ← h.capacities_eq]
      exact (hub.initialItems_le_iff _ positive).2 hfits

/-- A step that touches one stream only. -/
theorem Roomy.set (h : Roomy capacities hub) {i : Nat} {subscription subscription' : Subscription}
    (hold : hub.subscriptions[i]? = some subscription)
    (hcapacity : subscription'.stream.capacity = subscription.stream.capacity)
    (hitems : subscription'.stream.items.length ≤ subscription.stream.items.length) :
    Roomy capacities { hub with subscriptions := hub.subscriptions.set i subscription' } := by
  have hmem := List.mem_of_getElem? hold
  refine ⟨h.capacities_eq, fun other hother => ?_, fun other hother => ?_⟩
  · rcases List.mem_or_eq_of_mem_set hother with hother | rfl
    · exact h.capacity_eq other hother
    · exact hcapacity.trans (h.capacity_eq subscription hmem)
  · rcases List.mem_or_eq_of_mem_set hother with hother | rfl
    · exact h.bounded other hother
    · exact hitems.trans (h.bounded subscription hmem)

theorem Roomy.step (h : Roomy capacities hub) {action : EventHub.Action}
    (hfitting : Fitting hub action) (hstep : hub.step action = some hub') :
    Roomy capacities hub' := by
  cases action with
  | emit body =>
      obtain rfl := Option.some.inj hstep
      exact h.emit body
  | subscribe fromSeq => exact h.subscribe hstep hfitting
  | read i =>
      simp only [EventHub.step, EventHub.read] at hstep
      split at hstep
      · cases hstep
      · next subscription hold =>
          split at hstep
          · cases hstep
          · next envelope stream hnext =>
              obtain rfl := Option.some.inj hstep
              unfold EventStream.next at hnext
              split at hnext
              · cases hnext
              · next first items hitems =>
                  obtain ⟨rfl, rfl⟩ := Prod.mk.inj (Option.some.inj hnext)
                  refine h.set hold rfl ?_
                  rw [hitems]
                  exact Nat.le_succ _
  | closeStream i =>
      simp only [EventHub.step, EventHub.closeStream] at hstep
      split at hstep
      · cases hstep
      · next subscription hold =>
          obtain rfl := Option.some.inj hstep
          exact h.set hold rfl (Nat.le_refl _)
  | close =>
      obtain rfl := Option.some.inj hstep
      exact ⟨h.capacities_eq, h.capacity_eq, h.bounded⟩

theorem Roomy.initial (capacities : Capacities) (state : SessionState) :
    Roomy capacities (EventHub.initial capacities state) :=
  ⟨rfl, fun _ hmem => absurd hmem List.not_mem_nil, fun _ hmem => absurd hmem List.not_mem_nil⟩

/-- A hub keeps the capacities it was made with. -/
theorem capacities_step {action : EventHub.Action} (hstep : hub.step action = some hub') :
    hub'.capacities = hub.capacities := by
  cases action with
  | emit body => rw [← Option.some.inj hstep]; rfl
  | subscribe fromSeq =>
      simp only [EventHub.step, EventHub.subscribe] at hstep
      split at hstep
      · rw [← Option.some.inj hstep]
      · cases hstep
  | read i =>
      simp only [EventHub.step, EventHub.read] at hstep
      split at hstep
      · cases hstep
      · split at hstep
        · cases hstep
        · rw [← Option.some.inj hstep]
  | closeStream i =>
      simp only [EventHub.step, EventHub.closeStream] at hstep
      split at hstep
      · cases hstep
      · rw [← Option.some.inj hstep]
  | close => rw [← Option.some.inj hstep]

end Hub

/-- In a run whose subscriptions all fit, no stream ever holds more than the
capacity; and a subscription that does not fit makes one that does. -/
theorem streams_bounded (capacities : Capacities) (state : SessionState) :
    (∀ hub, Transition.Run EventHub.step Fitting (EventHub.initial capacities state) hub →
      WithinCapacity capacities.subscriber hub) ∧
    ∀ hub action hub', Transition.AnyRun EventHub.step (EventHub.initial capacities state) hub →
      hub.step action = some hub' → ¬ Fitting hub action →
        ¬ WithinCapacity capacities.subscriber hub' := by
  constructor
  · intro hub hrun
    have hroomy : Roomy capacities hub :=
      hrun.invariant (fun _ _ _ hinv hfitting hstep => hinv.step hfitting hstep)
        (.initial capacities state)
    exact hroomy.bounded
  · intro hub action hub' hrun hstep hunfit hbounded
    have hcapacities : hub.capacities = capacities :=
      hrun.invariant (fun _ _ _ hinv _ hstep => (capacities_step hstep).trans hinv) rfl
    cases action with
    | subscribe fromSeq =>
        have hunfit : ¬ hub.Fits (fromSeq.getD 1) := hunfit
        have hsubscribe : hub.subscribe fromSeq = some hub' := hstep
        unfold EventHub.subscribe at hsubscribe
        split at hsubscribe
        · next positive =>
            obtain rfl := Option.some.inj hsubscribe
            rw [← hub.initialItems_le_iff _ positive, hcapacities] at hunfit
            exact hunfit (hbounded _ (List.mem_append_right _ List.mem_cons_self))
        · cases hsubscribe
    | _ => exact hunfit trivial

/-- The second event of two fits a stream of capacity one, but a `Gap` is put
before it. -/
theorem stream_unbounded :
    ∃ hub, Transition.AnyRun EventHub.step
      (EventHub.initial ⟨2, 1, by decide, by decide⟩ .pending) hub ∧ ¬ WithinCapacity 1 hub := by
  have hexec : (Transition.exec EventHub.step
      (EventHub.initial ⟨2, 1, by decide, by decide⟩ .pending)
      [.emit (.phaseChanged "scan"), .emit (.phaseChanged "plan"), .subscribe none]).isSome =
        true := by decide
  obtain ⟨hub, hhub⟩ := Option.isSome_iff_exists.1 hexec
  refine ⟨hub, Transition.exec_run hhub, ?_⟩
  obtain rfl := Option.some.inj hhub
  intro hbounded
  exact absurd (hbounded _ List.mem_cons_self) (by decide)

end NamiSync
