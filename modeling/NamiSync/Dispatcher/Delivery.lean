/-
# `Dispatcher.Delivery` — no reliable event is lost silently

What a stream has delivered together with what it still holds is one ordered
list, and it accounts for every reliable event from the requested number on:
as long as the stream is subscribed and open, up to its last envelope after
that, and without limit once it was ejected.  The list grows by what an offer
appends; an offer that clears the queue leaves a notice for all of it.

The replay holds a subscription to the same: a reliable event is in it, or
older than everything in it.

## What is proved

    reliable_events_accounted : AnyRun step (initial capacities state) hub →
      the envelopes read from each stream have increasing numbers, and each
      reliable event from the requested number on is among those read, or
      between the first missed number of a `Gap` read and what was read
      next, as soon as something later has been read or the stream was
      ejected and read to its end

over any order of emits, subscriptions, reads and closes, for all capacities.

## What it is not

Nothing is said of `Progress`: those are dropped without notice, by design.
And a stream that is never read again owes nothing: the events it has lost
are announced by an envelope that waits in it.
-/
import NamiSync.Dispatcher.EventBus

namespace NamiSync

open Lossy

/-- What a stream has delivered and still holds, oldest first. -/
def Subscription.received (subscription : Subscription) : List Envelope :=
  subscription.delivered ++ subscription.stream.items

/-- `seq` lies between the first missed number of a delivered `Gap` and the
envelope delivered next after it. -/
def Announces (delivered : List Envelope) (seq : Nat) : Prop :=
  ∃ before gap rest first, delivered = before ++ gap :: rest ∧ gap.missed = some first ∧
    first ≤ seq ∧ ∀ following ∈ rest.head?, seq < following.seq

/-- A list of envelopes accounts for the number of a reliable event. -/
abbrev AccountsFor (received : List Envelope) (event : Envelope) : Prop :=
  Accounted Envelope.seq Envelope.missed received event

abbrev InOrder (received : List Envelope) : Prop :=
  Ordered Envelope.seq Envelope.missed received

/-! ## What an offer does

A stream takes an event, gives up the latest progress that waits in it, or
overflows: then it holds nothing but the gap and is closed. -/

inductive Offer (stream : EventStream) (envelope : Envelope) : EventStream → Prop
  | closed : stream.closed = true → Offer stream envelope stream
  | dropped : stream.closed = false → envelope.isProgress = true →
      Offer stream envelope { stream with items := dropLatestProgress stream.items }
  | coalesced : stream.closed = false → envelope.isProgress = true →
      Offer stream envelope { stream with items := dropLatestProgress stream.items ++ [envelope] }
  | overflowed : stream.closed = false →
      Offer stream envelope
        { stream with items := [stream.overflowGap envelope], ejected := true, closed := true }
  | queued : stream.closed = false →
      Offer stream envelope
        { stream with
          items := stream.items ++ [envelope]
          currentState := envelope.stateAfter stream.currentState }

theorem EventStream.offer_cases (stream : EventStream) (envelope : Envelope) :
    Offer stream envelope (stream.offer envelope) := by
  unfold EventStream.offer
  split
  · next hclosed => exact .closed hclosed
  · next hopen =>
      have hopen : stream.closed = false := by simpa using hopen
      split
      · next hlossy =>
          have hprogress : envelope.isProgress = true := by
            unfold Envelope.deliveryClass at hlossy
            split at hlossy
            · assumption
            · exact absurd hlossy (by decide)
          split
          · exact .dropped hopen hprogress
          · exact .coalesced hopen hprogress
      · split
        · exact .overflowed hopen
        · exact .queued hopen

/-! ## One stream

What a subscriber has received and what waits in its stream, against what was
emitted since it subscribed.  A dropped progress is accounted for by a later
one, a dropped reliable event by the gap. -/

/-- What holds of a stream after the events `emitted`, the last of which has
the number `seq`. -/
structure Faithful (emitted : List Envelope) (seq : Nat) (subscribed : Prop)
    (subscription : Subscription) : Prop where
  ordered : InOrder subscription.received
  bounded : ∀ envelope ∈ subscription.received, envelope.seq ≤ seq
  ejected : subscription.stream.ejected = true → subscription.stream.closed = true ∧
    ∃ gap ∈ subscription.received, gap.missed.isSome = true ∧
      ∀ envelope ∈ subscription.received, envelope.seq ≤ gap.seq
  accounted : ∀ event ∈ emitted, event.isProgress = false → subscription.fromSeq ≤ event.seq →
    ((∃ envelope ∈ subscription.received, event.seq < envelope.seq) ∨
      subscription.stream.ejected = true ∨ subscribed ∧ subscription.stream.closed = false) →
    AccountsFor subscription.received event

section Streams

variable {emitted : List Envelope} {seq : Nat} {subscribed subscribed' : Prop}
  {subscription : Subscription} {envelope : Envelope}

theorem Faithful.unsubscribed (h : Faithful emitted seq subscribed subscription)
    (hsub : subscribed' → subscribed) : Faithful emitted seq subscribed' subscription := by
  refine ⟨h.ordered, h.bounded, h.ejected, ?_⟩
  intro event hevent hreliable hfrom hwhen
  refine h.accounted event hevent hreliable hfrom ?_
  exact hwhen.imp_right (Or.imp_right (And.imp_left hsub))

theorem Faithful.closed (h : Faithful emitted seq subscribed subscription) :
    Faithful emitted seq subscribed { subscription with stream := subscription.stream.close } := by
  refine ⟨h.ordered, h.bounded, fun hejected => ⟨rfl, (h.ejected hejected).2⟩, ?_⟩
  intro event hevent hreliable hfrom hwhen
  refine h.accounted event hevent hreliable hfrom ?_
  rcases hwhen with hlater | hejected | ⟨-, hopen⟩
  · exact Or.inl hlater
  · exact Or.inr (Or.inl hejected)
  · exact absurd (show true = false from hopen) (by decide)

/-- A read moves an envelope from the queue to what was delivered. -/
theorem Faithful.read (h : Faithful emitted seq subscribed subscription) {stream : EventStream}
    (hnext : subscription.stream.next = some (envelope, stream)) :
    Faithful emitted seq subscribed
      { subscription with
        stream := stream
        delivered := subscription.delivered ++ [envelope] } := by
  unfold EventStream.next at hnext
  split at hnext
  · exact absurd hnext (by simp)
  · next head items hitems =>
      obtain ⟨hhead, hstream⟩ := Prod.mk.inj (Option.some.inj hnext)
      subst hhead hstream
      have hreceived : subscription.received = subscription.delivered ++ [head] ++ items := by
        simp [Subscription.received, hitems]
      obtain ⟨hordered, hbounded, hejected, haccounted⟩ := h
      rw [hreceived] at hordered hbounded hejected haccounted
      exact ⟨hordered, hbounded, hejected, haccounted⟩

/-- An emit that a stream gets nothing of. -/
theorem Faithful.unheard (h : Faithful emitted seq subscribed subscription)
    (hseq : envelope.seq = seq + 1) (hdeaf : ¬ (subscribed ∧ subscription.stream.closed = false)) :
    Faithful (emitted ++ [envelope]) (seq + 1) subscribed subscription := by
  refine ⟨h.ordered, fun other hother => (h.bounded other hother).trans (Nat.le_succ seq),
    h.ejected, ?_⟩
  intro event hevent hreliable hfrom hwhen
  rcases List.mem_append.1 hevent with hevent | hevent
  · exact h.accounted event hevent hreliable hfrom hwhen
  · obtain rfl := List.mem_singleton.1 hevent
    rcases hwhen with ⟨later, hlater, hlt⟩ | hejected | hopen
    · have := h.bounded later hlater
      omega
    · obtain ⟨-, gap, hgap, hmissed, hlast⟩ := h.ejected hejected
      obtain ⟨first, hfirst⟩ := Option.isSome_iff_exists.1 hmissed
      have hle := h.ordered.since_le gap hgap
      rw [since_eq_first hfirst] at hle
      have hbound := h.bounded gap hgap
      refine Or.inr ⟨gap, hgap, first, hfirst, by omega, ?_⟩
      intro other hother hlt
      exact absurd (hlast other hother) (by omega)
    · exact absurd hopen hdeaf

/-- A stream that hears an emit: what it has to keep, whatever it lost. -/
theorem Faithful.heard {subscription' : Subscription} (hseq : envelope.seq = seq + 1)
    (hordered : InOrder subscription'.received)
    (hbounded : ∀ other ∈ subscription'.received, other.seq ≤ seq + 1)
    (hejected : subscription'.stream.ejected = true → subscription'.stream.closed = true ∧
      ∃ gap ∈ subscription'.received, gap.missed.isSome = true ∧ seq + 1 ≤ gap.seq)
    (hold : ∀ event ∈ emitted, event.isProgress = false → subscription'.fromSeq ≤ event.seq →
      AccountsFor subscription'.received event)
    (hnew : envelope.isProgress = false → AccountsFor subscription'.received envelope) :
    Faithful (emitted ++ [envelope]) (seq + 1) subscribed subscription' := by
  refine ⟨hordered, hbounded, ?_, ?_⟩
  · intro h
    obtain ⟨hclosed, gap, hgap, hmissed, hle⟩ := hejected h
    exact ⟨hclosed, gap, hgap, hmissed, fun other hother => (hbounded other hother).trans hle⟩
  · intro event hevent hreliable hfrom _
    rcases List.mem_append.1 hevent with hevent | hevent
    · exact hold event hevent hreliable hfrom
    · obtain rfl := List.mem_singleton.1 hevent
      exact hnew hreliable

/-- Dropping a `Progress` from the queue loses no reliable event and no
notice. -/
theorem AccountsFor.dropProgress {delivered items : List Envelope} {event : Envelope}
    (hreliable : event.isProgress = false) (h : AccountsFor (delivered ++ items) event) :
    AccountsFor (delivered ++ dropLatestProgress items) event := by
  have hkept : ∀ other ∈ delivered ++ items, other.isProgress = false →
      other ∈ delivered ++ dropLatestProgress items := by
    intro other hother hnot
    rcases List.mem_append.1 hother with hother | hother
    · exact List.mem_append_left _ hother
    · exact List.mem_append_right _ (mem_dropLatestProgress hother hnot)
  rcases h with hmem | hannounced
  · exact Or.inl (hkept event hmem hreliable)
  · refine Or.inr (hannounced.thin ?_ ?_)
    · intro other hother
      exact ((dropLatestProgress_sublist items).append_left delivered).subset hother
    · intro other hother hnotice
      refine hkept other hother ?_
      cases hprogress : other.isProgress with
      | false => rfl
      | true => exact absurd hnotice (by simp [Envelope.missed_isSome hprogress])

theorem AccountsFor.snoc {received : List Envelope} {event : Envelope}
    (h : AccountsFor received event)
    (hlt : event.seq < envelope.seq) : AccountsFor (received ++ [envelope]) event := by
  rcases h with hmem | hannounced
  · exact Or.inl (List.mem_append_left _ hmem)
  · exact Or.inr (hannounced.snoc hlt)

/-- The notice of an overflow stands for all it took the place of. -/
theorem AccountsFor.overflow {delivered : List Envelope} {stream : EventStream} {event : Envelope}
    (hevent : event.missed = none) (h : AccountsFor (delivered ++ stream.items) event)
    (hbounded : ∀ other ∈ delivered, other.seq ≤ envelope.seq)
    (hlt : event.seq < envelope.seq) :
    AccountsFor (delivered ++ [stream.overflowGap envelope]) event := by
  have hlast (n : Nat) (hle : firstMissed stream.items envelope.seq ≤ n) :
      Announced Envelope.seq Envelope.missed (delivered ++ [stream.overflowGap envelope]) n :=
    announced_last (a := stream.overflowGap envelope) rfl hle hbounded
  rcases h with hmem | ⟨notice, hmem, first, hfirst, hle, hnext⟩
  · rcases List.mem_append.1 hmem with hmem | hmem
    · exact Or.inl (List.mem_append_left _ hmem)
    · have hmin := firstMissed_le_of_mem hmem envelope.seq
      rw [← Envelope.since_eq, since_eq_seq hevent] at hmin
      exact Or.inr (hlast _ hmin)
  · rcases List.mem_append.1 hmem with hmem | hmem
    · have hread : Announced Envelope.seq Envelope.missed delivered event.seq :=
        ⟨notice, hmem, first, hfirst, hle,
          fun other hother => hnext other (List.mem_append_left _ hother)⟩
      exact Or.inr (hread.snoc hlt)
    · have hmin := firstMissed_le_of_mem hmem envelope.seq
      rw [← Envelope.since_eq, since_eq_first hfirst] at hmin
      exact Or.inr (hlast _ (hmin.trans hle))

/-- An emit that a subscribed stream hears. -/
theorem Faithful.offer (h : Faithful emitted seq subscribed subscription)
    (hemitted : ∀ event ∈ emitted, event.missed = none ∧ event.seq ≤ seq)
    (hseq : envelope.seq = seq + 1) (hevent : envelope.missed = none) (hsub : subscribed)
    {stream : EventStream} (hoffer : Offer subscription.stream envelope stream) :
    Faithful (emitted ++ [envelope]) (seq + 1) subscribed
      { subscription with stream := stream } := by
  have hbelow : ∀ other ∈ subscription.received, other.seq < envelope.seq := by
    intro other hother
    have := h.bounded other hother
    omega
  have hsince : since Envelope.seq Envelope.missed envelope = envelope.seq := since_eq_seq hevent
  have hall (hopen : subscription.stream.closed = false) :
      ∀ event ∈ emitted, event.isProgress = false → subscription.fromSeq ≤ event.seq →
        AccountsFor (subscription.delivered ++ subscription.stream.items) event :=
    fun event hmem hreliable hfrom =>
      h.accounted event hmem hreliable hfrom (Or.inr (Or.inr ⟨hsub, hopen⟩))
  have hdropped : (subscription.delivered ++ dropLatestProgress subscription.stream.items).Sublist
      subscription.received := (dropLatestProgress_sublist _).append_left _
  have hsnoc {received : List Envelope} (hsublist : received.Sublist subscription.received) :
      InOrder (received ++ [envelope]) ∧ ∀ other ∈ received ++ [envelope], other.seq ≤ seq + 1 := by
    refine ⟨(h.ordered.sublist hsublist).snoc (by omega) ?_, ?_⟩
    · intro other hother
      rw [hsince]
      exact hbelow other (hsublist.subset hother)
    · intro other hother
      rcases List.mem_append.1 hother with hother | hother
      · exact (h.bounded other (hsublist.subset hother)).trans (Nat.le_succ seq)
      · rw [List.mem_singleton.1 hother, hseq]
  -- An open stream has not been ejected.
  have hstill (hopen : subscription.stream.closed = false) :
      ¬ subscription.stream.ejected = true := by
    intro hejected
    exact absurd (h.ejected hejected).1 (by simp [hopen])
  cases hoffer with
  | closed hclosed => exact h.unheard hseq (by simp [hclosed])
  | dropped hopen hprogress =>
      refine .heard hseq (h.ordered.sublist hdropped) ?_ (fun he => absurd he (hstill hopen)) ?_ ?_
      · intro other hother
        exact (h.bounded other (hdropped.subset hother)).trans (Nat.le_succ seq)
      · intro event hmem hreliable hfrom
        exact (hall hopen event hmem hreliable hfrom).dropProgress hreliable
      · intro hreliable
        exact absurd hprogress (by simp [hreliable])
  | coalesced hopen hprogress =>
      have hreceived : subscription.delivered ++ (dropLatestProgress subscription.stream.items ++
          [envelope]) = subscription.delivered ++ dropLatestProgress subscription.stream.items ++
            [envelope] := (List.append_assoc _ _ _).symm
      obtain ⟨hordered, hbounded⟩ := hsnoc hdropped
      refine .heard hseq (by rw [Subscription.received, hreceived]; exact hordered)
        (by rw [Subscription.received, hreceived]; exact hbounded)
        (fun he => absurd he (hstill hopen)) ?_ ?_
      · intro event hmem hreliable hfrom
        rw [Subscription.received, hreceived]
        refine ((hall hopen event hmem hreliable hfrom).dropProgress hreliable).snoc ?_
        have := (hemitted event hmem).2
        omega
      · intro hreliable
        exact absurd hprogress (by simp [hreliable])
  | overflowed hopen =>
      have hdelivered : ∀ other ∈ subscription.delivered, other.seq < envelope.seq :=
        fun other hother => hbelow other (List.mem_append_left _ hother)
      refine .heard hseq ?_ ?_ ?_ ?_ ?_
      · refine (h.ordered.sublist (List.sublist_append_left _ _)).snoc (firstMissed_le _ _) ?_
        intro other hother
        refine lt_firstMissed (hdelivered other hother) ?_
        intro pending hpending
        rw [← Envelope.since_eq]
        exact (List.pairwise_append.1 h.ordered.after).2.2 other hother pending hpending
      · intro other hother
        rcases List.mem_append.1 hother with hother | hother
        · have := hdelivered other hother
          omega
        · rw [List.mem_singleton.1 hother]
          exact Nat.le_of_eq hseq
      · intro _
        exact ⟨rfl, _, List.mem_append_right _ (List.mem_singleton_self _), rfl,
          Nat.le_of_eq hseq.symm⟩
      · intro event hmem hreliable hfrom
        obtain ⟨hmissed, hle⟩ := hemitted event hmem
        exact (hall hopen event hmem hreliable hfrom).overflow hmissed
          (fun other hother => Nat.le_of_lt (hdelivered other hother)) (by omega)
      · intro _
        exact Or.inr (announced_last rfl (firstMissed_le _ _)
          (fun other hother => Nat.le_of_lt (hdelivered other hother)))
  | queued hopen =>
      have hreceived : subscription.delivered ++ (subscription.stream.items ++ [envelope]) =
          subscription.received ++ [envelope] := (List.append_assoc _ _ _).symm
      obtain ⟨hordered, hbounded⟩ := hsnoc (List.Sublist.refl _)
      refine .heard hseq (by rw [Subscription.received, hreceived]; exact hordered)
        (by rw [Subscription.received, hreceived]; exact hbounded)
        (fun he => absurd he (hstill hopen)) ?_ ?_
      · intro event hmem hreliable hfrom
        rw [Subscription.received, hreceived]
        refine (hall hopen event hmem hreliable hfrom).snoc ?_
        have := (hemitted event hmem).2
        omega
      · intro _
        rw [Subscription.received, hreceived]
        exact Or.inl (List.mem_append_right _ (List.mem_singleton_self _))

end Streams

/-! ## The replay

A subscriber that comes late is given what the ring still holds after the
position that it names, and a gap where the ring has lost something. -/

/-- The replay holds the latest events; a reliable event that is not in it is
older than all of it. -/
structure Replayed (emitted replay : List Envelope) (seq : Nat) : Prop where
  increasing : replay.Pairwise fun a b => a.seq < b.seq
  subset : ∀ event ∈ replay, event ∈ emitted
  events : ∀ event ∈ emitted, event.missed = none ∧ event.seq ≤ seq
  retained : ∀ event ∈ emitted, event.isProgress = false →
    event ∈ replay ∨ ∀ other ∈ replay, event.seq < other.seq

theorem mem_drop_or_lt {items : List Envelope} (h : items.Pairwise fun a b => a.seq < b.seq)
    {event : Envelope} (hmem : event ∈ items) (n : Nat) :
    event ∈ items.drop n ∨ ∀ other ∈ items.drop n, event.seq < other.seq := by
  rw [← List.take_append_drop n items] at hmem h
  rcases List.mem_append.1 hmem with hmem | hmem
  · exact Or.inr ((List.pairwise_append.1 h).2.2 event hmem)
  · exact Or.inl hmem

theorem Replayed.emit {emitted replay kept : List Envelope} {seq : Nat} {envelope : Envelope}
    (h : Replayed emitted replay seq) (hseq : envelope.seq = seq + 1)
    (hevent : envelope.missed = none) (hsub : kept.Sublist replay)
    (hkept : ∀ event ∈ replay, event.isProgress = false → event ∈ kept) (capacity : Nat) :
    Replayed (emitted ++ [envelope]) (appendBounded capacity kept envelope) (seq + 1) := by
  have hbelow : ∀ event ∈ kept, event.seq < envelope.seq := by
    intro event hmem
    have := (h.events event (h.subset event (hsub.subset hmem))).2
    omega
  have hgrown : (kept ++ [envelope]).Pairwise fun a b => a.seq < b.seq := by
    refine List.pairwise_append.2 ⟨h.increasing.sublist hsub, List.pairwise_singleton _ _, ?_⟩
    intro event hmem other hother
    rw [List.mem_singleton.1 hother]
    exact hbelow event hmem
  refine ⟨hgrown.sublist (List.drop_sublist _ _), ?_, ?_, ?_⟩
  · intro event hmem
    rcases List.mem_append.1 ((List.drop_sublist _ _).subset hmem) with hmem | hmem
    · exact List.mem_append_left _ (h.subset event (hsub.subset hmem))
    · exact List.mem_append_right _ hmem
  · intro event hmem
    rcases List.mem_append.1 hmem with hmem | hmem
    · exact ⟨(h.events event hmem).1, (h.events event hmem).2.trans (Nat.le_succ seq)⟩
    · obtain rfl := List.mem_singleton.1 hmem
      exact ⟨hevent, Nat.le_of_eq hseq⟩
  · intro event hmem hreliable
    have hin :
        event ∈ kept ++ [envelope] ∨ ∀ other ∈ kept ++ [envelope], event.seq < other.seq := by
      rcases List.mem_append.1 hmem with hmem | hmem
      · rcases h.retained event hmem hreliable with hin | holder
        · exact Or.inl (List.mem_append_left _ (hkept event hin hreliable))
        · refine Or.inr ?_
          intro other hother
          rcases List.mem_append.1 hother with hother | hother
          · exact holder other (hsub.subset hother)
          · have := (h.events event hmem).2
            rw [List.mem_singleton.1 hother]
            omega
      · exact Or.inl (List.mem_append_right _ hmem)
    rcases hin with hin | holder
    · exact mem_drop_or_lt hgrown hin _
    · exact Or.inr fun other hother => holder other ((List.drop_sublist _ _).subset hother)

/-- What the replay has from `requested` on. -/
theorem Replayed.selected {emitted replay : List Envelope} {seq : Nat}
    (h : Replayed emitted replay seq) (requested : Nat) :
    let selected := replay.filter fun event => requested ≤ event.seq
    (selected.Pairwise fun a b => a.seq < b.seq) ∧
      (∀ event ∈ selected, event.missed = none ∧ requested ≤ event.seq ∧ event.seq ≤ seq) ∧
      ∀ event ∈ emitted, event.isProgress = false → requested ≤ event.seq →
        event ∈ selected ∨ ∀ other ∈ selected, event.seq < other.seq := by
  refine ⟨h.increasing.sublist List.filter_sublist, ?_, ?_⟩
  · intro event hmem
    obtain ⟨hin, hle⟩ := List.mem_filter.1 hmem
    obtain ⟨hmissed, hbound⟩ := h.events event (h.subset event hin)
    exact ⟨hmissed, by simpa using hle, hbound⟩
  · intro event hmem hreliable hfrom
    rcases h.retained event hmem hreliable with hin | holder
    · exact Or.inl (List.mem_filter.2 ⟨hin, by simpa using hfrom⟩)
    · exact Or.inr fun other hother => holder other (List.mem_filter.1 hother).1

/-- Envelopes of events in order, behind a notice if something may be
missing. -/
theorem inOrder_events {items : List Envelope} (h : items.Pairwise fun a b => a.seq < b.seq)
    (hevents : ∀ event ∈ items, event.missed = none) : InOrder items := by
  refine ⟨h.imp_of_mem ?_, ?_⟩
  · intro a b _ hb hlt
    rwa [since_eq_seq (hevents b hb)]
  · intro a ha
    exact Nat.le_of_eq (since_eq_seq (hevents a ha))

theorem inOrder_gap {items : List Envelope} {requested : Nat} {positive : 0 < requested}
    (h : InOrder items) (hevents : ∀ event ∈ items, event.missed = none ∧ requested < event.seq) :
    InOrder (⟨requested, .gap requested positive, positive⟩ :: items) := by
  refine ⟨List.pairwise_cons.2 ⟨?_, h.after⟩, ?_⟩
  · intro event hmem
    rw [since_eq_seq (hevents event hmem).1]
    exact (hevents event hmem).2
  · intro event hmem
    rcases List.mem_cons.1 hmem with rfl | hmem
    · exact Nat.le_refl requested
    · exact h.since_le event hmem

/-- The notice in front stands for what is older than all that follows. -/
theorem accountsFor_gap {items : List Envelope} {requested : Nat} {positive : 0 < requested}
    {event : Envelope} (hfrom : requested ≤ event.seq)
    (h : event ∈ items ∨ ∀ other ∈ items, event.seq < other.seq) :
    AccountsFor (⟨requested, .gap requested positive, positive⟩ :: items) event := by
  rcases h with hmem | holder
  · exact Or.inl (List.mem_cons_of_mem _ hmem)
  · refine Or.inr ⟨_, List.mem_cons_self, requested, rfl, hfrom, ?_⟩
    intro other hother hlt
    rcases List.mem_cons.1 hother with rfl | hother
    · exact absurd hlt (Nat.lt_irrefl requested)
    · exact holder other hother

/-- What a new stream starts with accounts for every event from the requested
number on. -/
theorem Replayed.initialItems {hub : EventHub} (h : Replayed hub.emitted hub.replay hub.seq)
    {requested : Nat} (positive : 0 < requested) :
    InOrder (hub.initialItems requested positive) ∧
      (∀ envelope ∈ hub.initialItems requested positive, envelope.seq ≤ hub.seq) ∧
      ∀ event ∈ hub.emitted, event.isProgress = false → requested ≤ event.seq →
        AccountsFor (hub.initialItems requested positive) event := by
  obtain ⟨hincreasing, hevents, hretained⟩ := h.selected requested
  unfold EventHub.initialItems
  extract_lets selected gapNeeded allowance gap
  -- Behind a notice stands a final part of the selection that starts later.
  have behind (kept : List Envelope) (hsub : kept.Sublist selected)
      (hbound : requested ≤ hub.seq) (hlater : ∀ event ∈ kept, requested < event.seq)
      (holder : ∀ event ∈ hub.emitted, event.isProgress = false → requested ≤ event.seq →
        event ∈ kept ∨ ∀ other ∈ kept, event.seq < other.seq) :
      InOrder (gap :: kept) ∧ (∀ envelope ∈ gap :: kept, envelope.seq ≤ hub.seq) ∧
        ∀ event ∈ hub.emitted, event.isProgress = false → requested ≤ event.seq →
          AccountsFor (gap :: kept) event := by
    refine ⟨inOrder_gap (inOrder_events (hincreasing.sublist hsub) ?_) ?_, ?_, ?_⟩
    · exact fun event hmem => (hevents event (hsub.subset hmem)).1
    · exact fun event hmem => ⟨(hevents event (hsub.subset hmem)).1, hlater event hmem⟩
    · intro event hmem
      rcases List.mem_cons.1 hmem with rfl | hmem
      · exact hbound
      · exact (hevents event (hsub.subset hmem)).2.2
    · intro event hmem hreliable hfrom
      exact accountsFor_gap hfrom (holder event hmem hreliable hfrom)
  split
  · next htrim =>
      -- At least one selected event is trimmed, and all that is kept comes after it.
      have hfirst : ∃ first rest, selected = first :: rest := by
        cases hsel : selected with
        | nil =>
            rw [hsel] at htrim
            exact absurd htrim (Nat.not_lt_zero _)
        | cons first rest => exact ⟨first, rest, rfl⟩
      obtain ⟨first, rest, hcons⟩ := hfirst
      have hin : first ∈ selected := by
        rw [hcons]
        exact List.mem_cons_self
      have hlow := hevents first hin
      have hdrop : ∃ k, selected.length - allowance = k + 1 :=
        ⟨selected.length - allowance - 1, by omega⟩
      obtain ⟨k, hk⟩ := hdrop
      refine behind _ (List.drop_sublist _ _) (hlow.2.1.trans hlow.2.2) ?_ ?_
      · intro event hmem
        rw [hk, hcons, List.drop_succ_cons] at hmem
        have hpair : selected.Pairwise fun a b => a.seq < b.seq := hincreasing
        rw [hcons] at hpair
        exact Nat.lt_of_le_of_lt hlow.2.1
          ((List.pairwise_cons.1 hpair).1 event ((List.drop_sublist _ _).subset hmem))
      · intro event hmem hreliable hfrom
        rcases hretained event hmem hreliable hfrom with hin | holder
        · exact mem_drop_or_lt hincreasing hin _
        · exact Or.inr fun other hother => holder other ((List.drop_sublist _ _).subset hother)
  · split
    · next hgap =>
        obtain ⟨hbound, hhead⟩ := Bool.and_eq_true _ _ ▸ hgap
        refine behind selected (List.Sublist.refl _) (by simpa using hbound) ?_ hretained
        intro event hmem
        cases hsel : selected with
        | nil =>
            rw [hsel] at hmem
            exact absurd hmem List.not_mem_nil
        | cons first rest =>
            have hpair : selected.Pairwise fun a b => a.seq < b.seq := hincreasing
            rw [hsel] at hhead hmem hpair
            have hlt : requested < first.seq := by simpa using hhead
            rcases List.mem_cons.1 hmem with rfl | hmem
            · exact hlt
            · exact hlt.trans ((List.pairwise_cons.1 hpair).1 event hmem)
    · next hgap =>
        refine ⟨inOrder_events hincreasing fun event hmem => (hevents event hmem).1,
          fun event hmem => (hevents event hmem).2.2, ?_⟩
        intro event hmem hreliable hfrom
        rcases hretained event hmem hreliable hfrom with hin | holder
        · exact Or.inl hin
        · -- Without a notice the selection starts at the requested number.
          refine absurd ?_ hgap
          refine (Bool.and_eq_true _ _).mpr ⟨?_, ?_⟩
          · simpa using hfrom.trans (h.events event hmem).2
          · cases hsel : selected with
            | nil => rfl
            | cons first rest =>
                have hin : first ∈ selected := by
                  rw [hsel]
                  exact List.mem_cons_self
                have := holder first hin
                simp only [List.head?_cons, Option.all_some, decide_eq_true_eq]
                omega

/-! ## The hub

Each emission goes to all streams; each stream is faithful by itself. -/

/-- The invariant of the hub and its streams. -/
structure Delivering (hub : EventHub) : Prop where
  replayed : Replayed hub.emitted hub.replay hub.seq
  faithful : ∀ (i : Nat) (subscription : Subscription), hub.subscriptions[i]? = some subscription →
    Faithful hub.emitted hub.seq (i ∈ hub.subscribers) subscription

section Hub

variable {hub hub' : EventHub}

/-- An emission is offered to every stream of its session. -/
theorem Delivering.emit (h : Delivering hub) (body : EventBody) : Delivering (hub.emit body) := by
  have hseq : (hub.envelope body).seq = hub.seq + 1 := rfl
  refine ⟨?_, ?_⟩
  · refine h.replayed.emit rfl rfl ?_ ?_ _
    · split
      · exact dropLatestProgress_sublist _
      · exact List.Sublist.refl _
    · intro event hmem hreliable
      split
      · exact mem_dropLatestProgress hmem hreliable
      · exact hmem
  · intro i subscription' hget
    have hget : (hub.offered (hub.envelope body))[i]? = some subscription' := hget
    unfold EventHub.offered at hget
    rw [List.getElem?_mapIdx] at hget
    obtain ⟨subscription, hold, rfl⟩ := Option.map_eq_some_iff.1 hget
    have hfaithful := h.faithful i subscription hold
    by_cases hmem : i ∈ hub.subscribers
    · rw [if_pos hmem]
      refine @Faithful.unsubscribed _ _ (i ∈ hub.subscribers) _ _ ?_ ?_
      · exact hfaithful.offer h.replayed.events hseq rfl hmem (EventStream.offer_cases _ _)
      · exact fun hlive => (List.mem_filter.1 hlive).1
    · rw [if_neg hmem]
      refine @Faithful.unsubscribed _ _ (i ∈ hub.subscribers) _ _ ?_ ?_
      · exact hfaithful.unheard hseq fun hsub => hmem hsub.1
      · exact fun hlive => (List.mem_filter.1 hlive).1

/-- A new stream starts with the replay. -/
theorem Delivering.subscribe (h : Delivering hub) {fromSeq : Option Nat}
    (hstep : hub.subscribe fromSeq = some hub') : Delivering hub' := by
  unfold EventHub.subscribe at hstep
  split at hstep
  · next positive =>
      obtain rfl := Option.some.inj hstep
      refine ⟨h.replayed, ?_⟩
      intro i subscription hget
      have hget : (hub.subscriptions ++ [_])[i]? = some subscription := hget
      rcases Nat.lt_or_ge i hub.subscriptions.length with hlt | hge
      · rw [List.getElem?_append_left hlt] at hget
        refine (h.faithful i subscription hget).unsubscribed ?_
        intro hmem
        rcases List.mem_append.1 hmem with hmem | hmem
        · exact hmem
        · exact absurd (List.mem_singleton.1 hmem) (by omega)
      · rw [List.getElem?_append_right hge] at hget
        obtain ⟨_, hnew⟩ := List.getElem?_eq_some_iff.1 hget
        rw [List.getElem_singleton] at hnew
        subst hnew
        obtain ⟨hordered, hbounded, haccounts⟩ := h.replayed.initialItems positive
        refine ⟨hordered, hbounded, fun hejected => absurd hejected (by simp), ?_⟩
        intro event hmem hreliable hfrom _
        exact haccounts event hmem hreliable hfrom
  · exact absurd hstep (by simp)

/-- A step that touches one stream only. -/
theorem Delivering.set (h : Delivering hub) {i : Nat} {subscription subscription' : Subscription}
    (hold : hub.subscriptions[i]? = some subscription)
    (hnew : Faithful hub.emitted hub.seq (i ∈ hub.subscribers) subscription') :
    Delivering { hub with subscriptions := hub.subscriptions.set i subscription' } := by
  refine ⟨h.replayed, ?_⟩
  intro j other hget
  have hget : (hub.subscriptions.set i subscription')[j]? = some other := hget
  by_cases hij : i = j
  · subst hij
    rw [List.getElem?_set_self (List.getElem?_eq_some_iff.1 hold).1] at hget
    obtain rfl := Option.some.inj hget
    exact hnew
  · rw [List.getElem?_set_ne hij] at hget
    exact h.faithful j other hget

theorem Delivering.step (h : Delivering hub) {action : EventHub.Action}
    (hstep : hub.step action = some hub') : Delivering hub' := by
  cases action with
  | emit body =>
      obtain rfl := Option.some.inj hstep
      exact h.emit body
  | subscribe fromSeq => exact h.subscribe hstep
  | read i =>
      simp only [EventHub.step, EventHub.read] at hstep
      split at hstep
      · exact absurd hstep (by simp)
      · next subscription hold =>
          split at hstep
          · exact absurd hstep (by simp)
          · next envelope stream hnext =>
              obtain rfl := Option.some.inj hstep
              exact h.set hold ((h.faithful i subscription hold).read hnext)
  | closeStream i =>
      simp only [EventHub.step, EventHub.closeStream] at hstep
      split at hstep
      · exact absurd hstep (by simp)
      · next subscription hold =>
          obtain rfl := Option.some.inj hstep
          exact h.set hold (h.faithful i subscription hold).closed
  | close =>
      obtain rfl := Option.some.inj hstep
      refine ⟨h.replayed, ?_⟩
      intro i subscription hget
      exact (h.faithful i subscription hget).unsubscribed fun hmem => absurd hmem List.not_mem_nil

theorem Delivering.initial (capacities : Capacities) (state : SessionState) :
    Delivering (EventHub.initial capacities state) := by
  refine ⟨⟨List.Pairwise.nil, ?_, ?_, ?_⟩, ?_⟩ <;> simp [EventHub.initial]

theorem Delivering.run {capacities : Capacities} {state : SessionState}
    (h : Transition.AnyRun EventHub.step (EventHub.initial capacities state) hub) :
    Delivering hub :=
  h.invariant (fun _ _ _ hinv _ hstep => hinv.step hstep) (.initial capacities state)

end Hub

/-- The envelopes read from a stream have increasing numbers; and a reliable
event from the requested number on is among them, or announced as missing,
once something later has been read or the reads have reached the end of an
ejected stream. -/
theorem reliable_events_accounted {capacities : Capacities} {state : SessionState} {hub : EventHub}
    (hrun : Transition.AnyRun EventHub.step (EventHub.initial capacities state) hub)
    {subscription : Subscription} (hmem : subscription ∈ hub.subscriptions) :
    (subscription.delivered.Pairwise fun a b => a.seq < b.seq) ∧
      ∀ event ∈ hub.emitted, event.deliveryClass = .reliable → subscription.fromSeq ≤ event.seq →
        ((∃ envelope ∈ subscription.delivered, event.seq < envelope.seq) ∨
          subscription.stream.exhausted = true) →
        event ∈ subscription.delivered ∨ Announces subscription.delivered event.seq := by
  obtain ⟨i, hi, hget⟩ := List.mem_iff_getElem.1 hmem
  have hfaithful := (Delivering.run hrun).faithful i subscription
    (by rw [← hget]; exact List.getElem?_eq_getElem hi)
  have hdelivered : InOrder subscription.delivered :=
    hfaithful.ordered.sublist (List.sublist_append_left _ _)
  refine ⟨hdelivered.increasing, ?_⟩
  intro event hevent hreliable hfrom hwhen
  have haccounts : AccountsFor subscription.delivered event := by
    rcases hwhen with ⟨later, hlater, hlt⟩ | hend
    · refine Accounted.read hfaithful.ordered ?_ hlater hlt
      exact hfaithful.accounted event hevent (Envelope.not_progress hreliable) hfrom
        (Or.inl ⟨later, List.mem_append_left _ hlater, hlt⟩)
    · obtain ⟨hejected, hempty⟩ := Bool.and_eq_true _ _ ▸ hend
      have hall : subscription.received = subscription.delivered := by
        rw [Subscription.received, List.isEmpty_iff.1 hempty, List.append_nil]
      rw [← hall]
      exact hfaithful.accounted event hevent (Envelope.not_progress hreliable) hfrom
        (Or.inr (Or.inl hejected))
  rcases haccounts with hin | hannounced
  · exact Or.inl hin
  · exact Or.inr (hannounced.next hdelivered)

/-- A stream of capacity one is subscribed after two events, overflows with
the third and is read to its end. -/
def overflowedHub : EventHub :=
  (Transition.exec EventHub.step
    (EventHub.initial ⟨2, 1, by decide, Nat.one_pos⟩ .pending)
    [.emit (.phaseChanged "scan"), .emit (.phaseChanged "plan"), .subscribe none,
      .emit (.phaseChanged "execute"), .read 0]).getD
    (EventHub.initial ⟨2, 1, by decide, Nat.one_pos⟩ .pending)

theorem overflow_announced :
    ∃ subscription ∈ overflowedHub.subscriptions, ∃ event ∈ overflowedHub.emitted,
      event.seq = 2 ∧ event ∉ subscription.delivered ∧
        Announces subscription.delivered event.seq := by
  refine ⟨_, List.mem_cons_self, _, List.mem_cons_of_mem _ List.mem_cons_self, rfl, ?_, ?_⟩
  · decide
  · have haccounted := (@reliable_events_accounted _ _ overflowedHub
      (Transition.exec_run (Transition.exec_getD (by decide))) _ List.mem_cons_self).2 _
        (List.mem_cons_of_mem _ List.mem_cons_self) (by decide) (by decide) (Or.inr (by decide))
    exact haccounted.resolve_left (by decide)

end NamiSync
