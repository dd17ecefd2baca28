/-
# `Dispatcher.Admission` — reservations and the order of admission

A pass of `_schedule` walks the queue once.  What it reserves or leaves
waiting blocks every later session with a resource in common, so the pass
admits no session past an earlier one it conflicts with
(`Pass.blocks`), and the queue never reorders two sessions.

`_reserved` is one flat set.  `_settle` takes the session's resources out of
it before the settled state is published; the `finally` of every worker takes
them out once more, and the workers launched to wind a canceled session up
take out what they never reserved.  Along the runs in which such a release
meets no other session's reservation (`KeepsReservations`), every admitted
session that has not settled has its resources reserved, up to the moment its
worker releases them in `_settle`.

## What is proved

    admission_holds : Run step KeepsReservations (initial registry) s →
      AdmissionHolds s

* What the unsettled admitted sessions name is reserved, up to the window in
  `_settle`; no two of them share a resource unless one stands in that window.
* What the next pass admits shares nothing with an unsettled session, nor do
  two sessions that this pass admits share anything (`admitted_apart`).
* Of two queued sessions with a resource in common the one in front is
  admitted first, along every continuation of the run (`fifo`).

## What it is not

It is not that the reservation covers the window of `_settle`: the source
releases before it publishes, and `releasingSystem` admits a session there.
Nor is it unconditional: `strippedSystem` has a `finally` that takes out what
another session has reserved since.  The two runs are put together in
`reservation_gaps`.

## The argument

A pass is a fold over the queue.  `Pass.Exclusive` is its invariant (what has
been admitted is reserved and pairwise disjoint), `Pass.held` what it holds
back from the sessions behind; the two give `blocks` and `admitted_apart`.
The order of two sessions is followed through the run as one of the stages of
`Queued`: both wait, the first is admitted and the second waits, or the first
is doomed.
-/
import NamiSync.Dispatcher.Lifecycle

namespace NamiSync

open SessionState Dispatcher

/-! ## One pass over the queue

A pass keeps two sets while it visits the queue: what is reserved, and what it
has held back for the sessions that it passed over.  A session is admitted when
it meets neither, so those admitted by one pass are apart from each other too. -/

namespace Dispatcher

/-- A queued session that a pass may admit. -/
def Waiting (records : Dict SessionId SessionRecord) (S : SessionId) (r : SessionRecord) : Prop :=
  records.get? S = some r ∧ r.state = .pending

section
variable {records : Dict SessionId SessionRecord} {start : Pass} {S T : SessionId}
  {r : SessionRecord}

/-- What a pass holds back from the sessions behind. -/
def Pass.held (pass : Pass) : Finset ResourceId := pass.reserved ∪ pass.waiting

/-- The three ways through the body of the loop. -/
theorem visit_cases (records : Dict SessionId SessionRecord) (pass : Pass) (S : SessionId) :
    ((∀ r, ¬ Waiting records S r) ∧
        Pass.visit records pass S = { pass with selected := pass.selected ++ [(S, false)] }) ∨
      (∃ r, Waiting records S r ∧ ¬ Disjoint r.resources pass.held ∧
        Pass.visit records pass S = { pass with waiting := pass.waiting ∪ r.resources }) ∨
      ∃ r, Waiting records S r ∧ Disjoint r.resources pass.held ∧
        Pass.visit records pass S = { pass with
          reserved := pass.reserved ∪ r.resources
          selected := pass.selected ++ [(S, true)] } := by
  unfold Pass.visit
  cases hr : records.get? S with
  | none => exact Or.inl ⟨fun r h => absurd (hr.symm.trans h.1) (by simp), rfl⟩
  | some r =>
      by_cases hp : r.state = .pending
      · by_cases hd : Disjoint r.resources pass.held
        · refine Or.inr (Or.inr ⟨r, ⟨hr, hp⟩, hd, ?_⟩)
          simp only [ne_eq, hp, not_true_eq_false, if_false]
          exact if_neg (not_not.mpr hd)
        · refine Or.inr (Or.inl ⟨r, ⟨hr, hp⟩, hd, ?_⟩)
          simp only [ne_eq, hp, not_true_eq_false, if_false]
          exact if_pos hd
      · refine Or.inl ⟨fun r' h => ?_, by simp [hp]⟩
        obtain rfl : r = r' := Option.some.inj (hr.symm.trans h.1)
        exact hp h.2

theorem visit_reserved_subset (pass : Pass) :
    pass.reserved ⊆ (Pass.visit records pass S).reserved := by
  rcases visit_cases records pass S with ⟨-, h⟩ | ⟨r, -, -, h⟩ | ⟨r, -, -, h⟩ <;> rw [h]
  exact Finset.subset_union_left

theorem visit_held_subset (pass : Pass) : pass.held ⊆ (Pass.visit records pass S).held := by
  rcases visit_cases records pass S with ⟨-, h⟩ | ⟨r, -, -, h⟩ | ⟨r, -, -, h⟩ <;> rw [h]
  · exact Finset.Subset.refl _
  · exact Finset.union_subset_union_right Finset.subset_union_left
  · exact Finset.union_subset_union_left Finset.subset_union_left

/-- A visited session that may be admitted is reserved for or left waiting:
either way its resources are held back. -/
theorem visit_holds (pass : Pass) (h : Waiting records S r) :
    r.resources ⊆ (Pass.visit records pass S).held := by
  have same : ∀ {r' : SessionRecord}, Waiting records S r' → r' = r :=
    fun h' => Option.some.inj (h'.1.symm.trans h.1)
  rcases visit_cases records pass S with ⟨hnone, -⟩ | ⟨r', h', -, heq⟩ | ⟨r', h', -, heq⟩
  · exact absurd h (hnone r)
  · rw [heq, same h']
    exact Finset.subset_union_right.trans Finset.subset_union_right
  · rw [heq, same h']
    exact Finset.subset_union_right.trans Finset.subset_union_left

theorem foldl_held_subset (queue : List SessionId) (start : Pass) :
    start.held ⊆ (queue.foldl (Pass.visit records) start).held := by
  induction queue generalizing start with
  | nil => exact Finset.Subset.refl _
  | cons S queue ih => exact (visit_held_subset start).trans (ih _)

theorem foldl_reserved_subset (queue : List SessionId) (start : Pass) :
    start.reserved ⊆ (queue.foldl (Pass.visit records) start).reserved := by
  induction queue generalizing start with
  | nil => exact Finset.Subset.refl _
  | cons S queue ih => exact (visit_reserved_subset start).trans (ih _)

theorem foldl_holds (queue : List SessionId) (start : Pass) (h : Waiting records S r)
    (hS : S ∈ queue) : r.resources ⊆ (queue.foldl (Pass.visit records) start).held := by
  induction queue generalizing start with
  | nil => exact absurd hS (by simp)
  | cons S' queue ih =>
      rcases List.mem_cons.mp hS with rfl | hmem
      · exact (visit_holds start h).trans (foldl_held_subset queue _)
      · exact ih _ hmem

/-- A pass that holds back one of its resources does not admit a session. -/
theorem foldl_blocks (queue : List SessionId) (start : Pass) (h : Waiting records T r)
    (hheld : ¬ Disjoint r.resources start.held)
    (hsel : (T, true) ∈ (queue.foldl (Pass.visit records) start).selected) :
    (T, true) ∈ start.selected := by
  induction queue generalizing start with
  | nil => exact hsel
  | cons S queue ih =>
      have hnext : ¬ Disjoint r.resources (Pass.visit records start S).held :=
        fun hd => hheld (Finset.disjoint_of_subset_right (visit_held_subset start) hd)
      have hmem := ih _ hnext hsel
      rcases visit_cases records start S with ⟨-, heq⟩ | ⟨r', -, -, heq⟩ | ⟨r', h', hd, heq⟩
      · rw [heq] at hmem
        simpa using hmem
      · rw [heq] at hmem
        exact hmem
      · rw [heq] at hmem
        rcases List.mem_append.mp hmem with hold | hnew
        · exact hold
        · obtain ⟨rfl, -⟩ := Prod.mk.inj (List.mem_singleton.mp hnew)
          obtain rfl : r' = r := Option.some.inj (h'.1.symm.trans h.1)
          exact absurd hd hheld

/-- Everything a pass admits was free, and is reserved afterwards. -/
theorem foldl_admits (queue : List SessionId) (start : Pass)
    (hsel : (T, true) ∈ (queue.foldl (Pass.visit records) start).selected) :
    (T, true) ∈ start.selected ∨ ∃ r, Waiting records T r ∧ Disjoint r.resources start.reserved ∧
      r.resources ⊆ (queue.foldl (Pass.visit records) start).reserved := by
  induction queue generalizing start with
  | nil => exact Or.inl hsel
  | cons S queue ih =>
      rcases ih (Pass.visit records start S) hsel with hmem | ⟨r, h, hd, hres⟩
      · rcases visit_cases records start S with ⟨-, heq⟩ | ⟨r', -, -, heq⟩ | ⟨r', h', hd, heq⟩
        · rw [heq] at hmem
          exact Or.inl (by simpa using hmem)
        · rw [heq] at hmem
          exact Or.inl hmem
        · rw [heq] at hmem
          rcases List.mem_append.mp hmem with hold | hnew
          · exact Or.inl hold
          · obtain ⟨rfl, -⟩ := Prod.mk.inj (List.mem_singleton.mp hnew)
            refine Or.inr ⟨r', h', Finset.disjoint_of_subset_right Finset.subset_union_left hd, ?_⟩
            refine Finset.Subset.trans ?_ (foldl_reserved_subset queue (Pass.visit records start T))
            rw [heq]
            exact Finset.subset_union_right
      · exact Or.inr ⟨r, h, Finset.disjoint_of_subset_right (visit_reserved_subset start) hd, hres⟩

/-- What a pass has admitted so far: what these sessions name is reserved, and
no two of them share a resource. -/
structure Pass.Exclusive (records : Dict SessionId SessionRecord) (pass : Pass) : Prop where
  reserved : ∀ S r, (S, true) ∈ pass.selected → Waiting records S r → r.resources ⊆ pass.reserved
  disjoint : ∀ S T r₁ r₂, (S, true) ∈ pass.selected → (T, true) ∈ pass.selected → S ≠ T →
    Waiting records S r₁ → Waiting records T r₂ → Disjoint r₁.resources r₂.resources

theorem Pass.Exclusive.visit {pass : Pass} (h : pass.Exclusive records) (S : SessionId) :
    (Pass.visit records pass S).Exclusive records := by
  -- a session that was selected before, or the one admitted now
  have selected : ∀ {X : SessionId}, (X, true) ∈ pass.selected ++ [(S, true)] →
      (X, true) ∈ pass.selected ∨ X = S := by
    intro X hX
    rcases List.mem_append.mp hX with hold | hnew
    · exact Or.inl hold
    · exact Or.inr (Prod.mk.inj (List.mem_singleton.mp hnew)).1
  rcases visit_cases records pass S with ⟨-, heq⟩ | ⟨r, -, -, heq⟩ | ⟨r, hr, hd, heq⟩
  · have hsame : ∀ {X : SessionId}, (X, true) ∈ pass.selected ++ [(S, false)] →
        (X, true) ∈ pass.selected := fun hX => by simpa using hX
    rw [heq]
    exact ⟨fun X r hX => h.reserved X r (hsame hX),
      fun X Y r₁ r₂ hX hY => h.disjoint X Y r₁ r₂ (hsame hX) (hsame hY)⟩
  · rw [heq]
    exact ⟨h.reserved, h.disjoint⟩
  · have same : ∀ {r' : SessionRecord}, Waiting records S r' → r' = r :=
      fun h' => Option.some.inj (h'.1.symm.trans hr.1)
    have hfree : Disjoint r.resources pass.reserved :=
      Finset.disjoint_of_subset_right Finset.subset_union_left hd
    rw [heq]
    refine ⟨fun X r' hX h' => ?_, fun X Y r₁ r₂ hX hY hne h₁ h₂ => ?_⟩
    · rcases selected hX with hold | rfl
      · exact (h.reserved X r' hold h').trans Finset.subset_union_left
      · rw [same h']
        exact Finset.subset_union_right
    · rcases selected hX with holdX | rfl <;> rcases selected hY with holdY | rfl
      · exact h.disjoint X Y r₁ r₂ holdX holdY hne h₁ h₂
      · rw [same h₂]
        exact Finset.disjoint_of_subset_left (h.reserved X r₁ holdX h₁) hfree.symm
      · rw [same h₁]
        exact Finset.disjoint_of_subset_right (h.reserved Y r₂ holdY h₂) hfree
      · exact absurd rfl hne

theorem Pass.Exclusive.foldl (queue : List SessionId) {start : Pass}
    (h : start.Exclusive records) : (queue.foldl (Pass.visit records) start).Exclusive records := by
  induction queue generalizing start with
  | nil => exact h
  | cons S queue ih => exact ih (h.visit S)

/-- A pass selects without a reservation only what it may not admit. -/
theorem foldl_unreserved (queue : List SessionId) (start : Pass) (h : Waiting records S r)
    (hsel : (S, false) ∈ (queue.foldl (Pass.visit records) start).selected) :
    (S, false) ∈ start.selected := by
  induction queue generalizing start with
  | nil => exact hsel
  | cons S' queue ih =>
      have hmem := ih _ hsel
      rcases visit_cases records start S' with ⟨hnone, heq⟩ | ⟨r', -, -, heq⟩ | ⟨r', -, -, heq⟩
      · rw [heq] at hmem
        rcases List.mem_append.mp hmem with hold | hnew
        · exact hold
        · obtain ⟨rfl, -⟩ := Prod.mk.inj (List.mem_singleton.mp hnew)
          exact absurd h (hnone r)
      · rw [heq] at hmem
        exact hmem
      · rw [heq] at hmem
        simpa using hmem

end

/-- A pass admits no session past an earlier one it shares a resource
with. -/
theorem Pass.blocks {d : Dispatcher} {S T : SessionId} {r₁ r₂ : SessionRecord}
    (hnodup : d.pending.Nodup) (horder : [S, T].Sublist d.pending)
    (h₁ : Waiting d.records S r₁) (h₂ : Waiting d.records T r₂)
    (hshare : ¬ Disjoint r₁.resources r₂.resources) : (T, true) ∉ d.pass.selected := by
  intro hsel
  obtain ⟨front, back, heq, hS, hT⟩ := List.cons_sublist_iff.mp horder
  have hback : T ∈ back := List.singleton_sublist.mp hT
  rw [pass, heq, List.foldl_append] at hsel
  -- the part of the queue up to `S` holds back what the two share
  have hheld := foldl_holds front { reserved := d.reserved } h₁ hS
  have hmem := foldl_blocks back _ h₂
    (fun hd => hshare (Finset.disjoint_of_subset_right hheld hd).symm) hsel
  have hsub := visit_selected_sublist d.records front { reserved := d.reserved }
    (List.Sublist.refl [])
  have hfront : T ∈ front := by
    simpa using hsub.subset (List.mem_map.mpr ⟨(T, true), hmem, rfl⟩)
  rw [heq] at hnodup
  exact absurd rfl ((List.nodup_append.mp hnodup).2.2 T hfront T hback)

/-- A session that a pass admits was `PENDING`, and its resources were free
and are reserved. -/
theorem admitted_cases {d : Dispatcher} {S : SessionId} (h : S ∈ d.admitted) :
    (S, true) ∈ d.pass.selected ∧ ∃ r, Waiting d.records S r ∧
      Disjoint r.resources d.reserved ∧ r.resources ⊆ d.pass.reserved := by
  obtain ⟨⟨X, reserve⟩, hmem, rfl⟩ := List.mem_map.mp h
  obtain ⟨hlaunch, hreserve⟩ := List.mem_filter.mp hmem
  obtain rfl : reserve = true := hreserve
  have hsel : (X, true) ∈ d.pass.selected := (List.mem_filter.mp hlaunch).1
  refine ⟨hsel, ?_⟩
  exact (foldl_admits d.pending { reserved := d.reserved } hsel).resolve_left (by simp)

/-- Two sessions that one pass admits share no resource. -/
theorem admitted_apart {d : Dispatcher} {S T : SessionId} {r₁ r₂ : SessionRecord}
    (hS : S ∈ d.admitted) (hT : T ∈ d.admitted) (hne : S ≠ T) (hr₁ : d.records.get? S = some r₁)
    (hr₂ : d.records.get? T = some r₂) : Disjoint r₁.resources r₂.resources := by
  obtain ⟨hselS, r, hwaitS, -⟩ := admitted_cases hS
  obtain ⟨hselT, r', hwaitT, -⟩ := admitted_cases hT
  obtain rfl : r₁ = r := Option.some.inj (hr₁.symm.trans hwaitS.1)
  obtain rfl : r₂ = r' := Option.some.inj (hr₂.symm.trans hwaitT.1)
  have hstart : Pass.Exclusive d.records { reserved := d.reserved } :=
    ⟨fun _ _ h => absurd h List.not_mem_nil, fun _ _ _ _ h => absurd h List.not_mem_nil⟩
  exact (hstart.foldl d.pending).disjoint S T r₁ r₂ hselS hselT hne hwaitS hwaitT

/-- A session that a pass may admit is admitted or stays in the queue. -/
theorem admitted_or_stays {d : Dispatcher} {S : SessionId} {r : SessionRecord}
    (h : Waiting d.records S r) :
    S ∈ d.admitted ∨ S ∉ d.pass.selected.map (·.1) := by
  by_cases hsel : (S, true) ∈ d.pass.selected
  · left
    refine List.mem_map.mpr ⟨(S, true), List.mem_filter.mpr ⟨?_, rfl⟩, rfl⟩
    exact List.mem_filter.mpr ⟨hsel, by simp [h.1]⟩
  · right
    intro hmem
    obtain ⟨⟨X, reserve⟩, hentry, rfl⟩ := List.mem_map.mp hmem
    cases reserve with
    | true => exact hsel hentry
    | false =>
        exact absurd (foldl_unreserved d.pending { reserved := d.reserved } h hentry) (by simp)

end Dispatcher

/-! ## Reservations

The invariant is that unsettled sessions with a shared resource are apart, or
one of them is on its way out.  It needs the condition at the block that takes
resources from the reserved ones. -/

/-- The worker is about to publish the settled state. -/
def WorkerPc.publishes : WorkerPc → Bool
  | .settleTransition _ _ => true
  | _ => false

/-- A worker of the session has released its custody in `_settle` and not yet
published the settled state. -/
def Releasing (s : System) (S : SessionId) : Prop :=
  ∃ (w : WorkerId) (thread : Worker) (state : SessionState) (result : Option OperationResult),
    s.threads[w]? = some thread ∧ thread.session = S ∧
      thread.pc = .settleTransition state result

/-- The step takes no resource out of `_reserved` that an admitted session
which has not settled still names, except what a session's own `_settle`
releases. -/
def System.keepsReservations (s : System) : Action → Bool
  | .worker w _ =>
      match s.threads[w]? with
      | some ⟨session, _, .releaseReserved record after⟩ =>
          s.disp.unsettled.all (fun other =>
            (other = session && after.settling) ||
              decide (Disjoint (recordResources (s.disp.records.get? other))
                (recordResources record)))
      | _ => true
  | _ => true

def KeepsReservations (s : System) (a : Action) : Prop := s.keepsReservations a = true

/-- The invariant: admitted sessions that have not settled are reserved, and
no two of them share a resource. -/
structure ReservationFits (s : System) : Prop where
  live : ∀ S ∈ s.disp.unsettled, ∃ state, s.disp.status S = some state ∧ settles state = false
  reserved : ∀ S ∈ s.disp.unsettled, ∀ r, s.disp.records.get? S = some r →
    r.resources ⊆ s.disp.reserved ∨ Releasing s S
  apart : ∀ S ∈ s.disp.unsettled, ∀ T ∈ s.disp.unsettled, S ≠ T → ∀ r₁ r₂,
    s.disp.records.get? S = some r₁ → s.disp.records.get? T = some r₂ →
      Disjoint r₁.resources r₂.resources ∨ Releasing s S ∨ Releasing s T

namespace Dispatcher

variable {d d' : Dispatcher} {w : WorkerId} {S T : SessionId} {pc pc' : WorkerPc}

theorem not_settled {d : Dispatcher} {S : SessionId} {r : SessionRecord} {state : SessionState}
    (h : T ∈ (d.moved S r state).unsettled) :
    T ∈ d.unsettled ∧
      ((d.moved S r state).status T = d.status T ∨ ∃ st,
        (d.moved S r state).status T = some st ∧ settles st = false) := by
  by_cases hT : T = S
  · subst hT
    cases hs : settles state with
    | true => exact absurd h (by simp [hs])
    | false =>
        refine ⟨by simpa [hs] using h, Or.inr ⟨state, status_moved_self _ _ _ _, hs⟩⟩
  · refine ⟨?_, Or.inl (status_moved_ne _ _ _ hT)⟩
    simp only [moved_unsettled] at h
    split at h
    · exact (List.mem_filter.mp h).1
    · exact h

theorem WorkerMove.unsettled_step (h : WorkerMove d w S pc d' pc') (hT : T ∈ d'.unsettled) :
    T ∈ d.unsettled ∧
      (d'.status T = d.status T ∨ ∃ st, d'.status T = some st ∧ settles st = false) := by
  cases h with
  | toRunning | settle | doneCanceling => exact not_settled hT
  | @publish result r updated hr hu =>
      refine ⟨hT, Or.inl ?_⟩
      by_cases hTS : T = S
      · subst hTS
        simp [status, hr, (SessionRecord.withResult_eq_some hu).1]
      · simp [status, Dict.get?_set_ne _ _ hTS]
  | @snapshot job latest payload r hr =>
      refine ⟨hT, Or.inl ?_⟩
      by_cases hTS : T = S
      · subst hTS
        simp [status, hr]
      · simp [status, Dict.get?_set_ne _ _ hTS]
  | _ => exact ⟨hT, Or.inl rfl⟩

theorem CallMove.unsettled_step {c : Call} {client : Client} (h : CallMove d c d' client)
    (hT : T ∈ d'.unsettled) :
    T ∈ d.unsettled ∧
      (d'.status T = d.status T ∨ ∃ st, d'.status T = some st ∧ settles st = false) := by
  cases h with
  | submit | close | cancelPausing => exact ⟨hT, Or.inl rfl⟩
  | pause | resume | cancel => exact not_settled hT

theorem WorkerMove.reserved_step (h : WorkerMove d w S pc d' pc') :
    d'.reserved = d.reserved ∨ ∃ r after, pc = .releaseReserved r after ∧
      d'.reserved = d.reserved \ recordResources r ∧
        (after.settling = true → ∃ state result, pc' = .settleTransition state result) := by
  cases h with
  | releaseSettle => exact Or.inr ⟨_, _, rfl, rfl, fun _ => ⟨_, _, rfl⟩⟩
  | releaseFinish => exact Or.inr ⟨_, _, rfl, rfl, fun h => absurd h Bool.false_ne_true⟩
  | _ => exact Or.inl rfl

/-- The transition in `_settle` ends the admission. -/
theorem WorkerMove.settle_ends {state : SessionState} {result : Option OperationResult}
    (h : WorkerMove d w S (.settleTransition state result) d' pc') {r : SessionRecord}
    (hr : d.records.get? S = some r) (hfit : Settleable r.state state result) :
    S ∉ d'.unsettled := by
  cases h with
  | settleFailed ht => exact absurd (transitionLocked_eq_none hr ht) (by simp [hfit.1])
  | settle => simp [settles_of_settleable hfit]

end Dispatcher

section
variable {s : System} {d : Dispatcher} {w : WorkerId} {thread : Worker} {pc : WorkerPc}

/-- Where the unsettled sessions and their resources are those of before, and
no worker leaves the window early, they stay apart. -/
theorem ReservationFits.still_apart {t : System} (h : ReservationFits s)
    (hunsettled : ∀ T ∈ t.disp.unsettled, T ∈ s.disp.unsettled)
    (hrecords : ∀ T r', T ∈ s.disp.unsettled → t.disp.records.get? T = some r' →
      ∃ r, s.disp.records.get? T = some r ∧ r.resources = r'.resources)
    (hreleasing : ∀ T ∈ t.disp.unsettled, Releasing s T → Releasing t T) :
    ∀ S ∈ t.disp.unsettled, ∀ T ∈ t.disp.unsettled, S ≠ T → ∀ r₁ r₂,
      t.disp.records.get? S = some r₁ → t.disp.records.get? T = some r₂ →
        Disjoint r₁.resources r₂.resources ∨ Releasing t S ∨ Releasing t T := by
  intro S hS T hT hne r₁' r₂' hr₁' hr₂'
  have hS' := hunsettled S hS
  have hT' := hunsettled T hT
  obtain ⟨r₁, hr₁, hres₁⟩ := hrecords S r₁' hS' hr₁'
  obtain ⟨r₂, hr₂, hres₂⟩ := hrecords T r₂' hT' hr₂'
  rcases h.apart S hS' T hT' hne r₁ r₂ hr₁ hr₂ with hdisj | hrel | hrel
  · exact Or.inl (hres₁ ▸ hres₂ ▸ hdisj)
  · exact Or.inr (Or.inl (hreleasing S hS hrel))
  · exact Or.inr (Or.inr (hreleasing T hT hrel))

/-- A worker's step ends the window of a session only with its admission. -/
theorem ReservationFits.still_releasing (h : ReservationFits s) (hL : Lifecycle s)
    (hw : s.threads[w]? = some thread)
    (hm : WorkerMove s.disp w thread.session thread.pc d pc) {T : SessionId}
    (hT : T ∈ d.unsettled) (hrel : Releasing s T) : Releasing (s.advance d w thread pc) T := by
  obtain ⟨w', thread', state, result, hw', hS', hpc'⟩ := hrel
  by_cases hww : w' = w
  · subst hww
    obtain rfl : thread = thread' := Option.some.inj (hw.symm.trans hw')
    subst hS'
    -- the worker in the window publishes the settled state now
    obtain ⟨st, hst, hns⟩ := h.live _ (hm.unsettled_step hT).1
    have hlive : st.isTerminal = false := by
      revert hns
      cases st <;> decide
    have hfit := Attends.fits (hst ▸ (hL.session _).working w' thread hw rfl
      (by rw [hpc']; rfl)) hlive
    rw [hpc'] at hfit hm
    obtain ⟨r, hr, hstate⟩ := status_eq_some.mp hst
    exact absurd hT (hm.settle_ends hr (hstate ▸ hfit))
  · refine ⟨w', thread', state, result, ?_, hS', hpc'⟩
    simpa [System.advance, List.getElem?_set_ne (Ne.symm hww)] using hw'

theorem ReservationFits.worker (h : ReservationFits s) (hL : Lifecycle s)
    (hw : s.threads[w]? = some thread)
    (hm : WorkerMove s.disp w thread.session thread.pc d pc)
    (hkeep : ∀ r after, thread.pc = .releaseReserved r after → ∀ T ∈ s.disp.unsettled,
      T = thread.session ∧ after.settling = true ∨
        Disjoint (recordResources (s.disp.records.get? T)) (recordResources r)) :
    ReservationFits (s.advance d w thread pc) := by
  have hlt := (List.getElem?_eq_some_iff.mp hw).1
  refine ⟨fun T hT => ?_, fun T hT r' hr' => ?_, ?_⟩
  · obtain ⟨hold, hst | hst⟩ := hm.unsettled_step hT
    · obtain ⟨state, hs, hns⟩ := h.live T hold
      exact ⟨state, hst.trans hs, hns⟩
    · exact hst
  · obtain ⟨hold, -⟩ := hm.unsettled_step hT
    obtain ⟨r, hr, hres⟩ := hm.resources_step hr'
    rcases h.reserved T hold r hr with hsub | hrel
    · rcases hm.reserved_step with heq | ⟨r₀, after, hpc, heq, hsettle⟩
      · left
        show r'.resources ⊆ d.reserved
        rw [heq, ← hres]
        exact hsub
      · rcases hkeep r₀ after hpc T hold with ⟨hTS, hafter⟩ | hdisj
        · obtain ⟨state, result, hpc'⟩ := hsettle hafter
          refine Or.inr ⟨w, { thread with pc := pc }, state, result, ?_, hTS.symm, hpc'⟩
          simp [System.advance, hlt]
        · left
          show r'.resources ⊆ d.reserved
          rw [hr] at hdisj
          rw [heq, ← hres]
          exact Finset.subset_sdiff.mpr ⟨hsub, hdisj⟩
    · exact Or.inr (h.still_releasing hL hw hm hT hrel)
  · exact h.still_apart (fun T hT => (hm.unsettled_step hT).1)
      (fun T r' _ hr' => hm.resources_step hr') fun T hT => h.still_releasing hL hw hm hT

/-- Callers neither reserve nor release. -/
theorem ReservationFits.keep {t : System} (h : ReservationFits s)
    (hthreads : t.threads = s.threads) (hreserved : t.disp.reserved = s.disp.reserved)
    (hunsettled : ∀ T ∈ t.disp.unsettled, T ∈ s.disp.unsettled ∧
      (t.disp.status T = s.disp.status T ∨ ∃ st,
        t.disp.status T = some st ∧ settles st = false))
    (hrecords : ∀ T r', T ∈ s.disp.unsettled → t.disp.records.get? T = some r' →
      ∃ r, s.disp.records.get? T = some r ∧ r.resources = r'.resources) :
    ReservationFits t := by
  have hreleasing : ∀ T, Releasing s T → Releasing t T := by
    intro T hrel
    unfold Releasing
    rw [hthreads]
    exact hrel
  refine ⟨fun T hT => ?_, fun T hT r' hr' => ?_, ?_⟩
  · obtain ⟨hold, hst | hst⟩ := hunsettled T hT
    · obtain ⟨state, hs, hns⟩ := h.live T hold
      exact ⟨state, hst.trans hs, hns⟩
    · exact hst
  · obtain ⟨hold, -⟩ := hunsettled T hT
    obtain ⟨r, hr, hres⟩ := hrecords T r' hold hr'
    rcases h.reserved T hold r hr with hsub | hrel
    · exact Or.inl (hres ▸ hreserved ▸ hsub)
    · exact Or.inr (hreleasing T hrel)
  · exact h.still_apart (fun T hT => (hunsettled T hT).1) hrecords fun T _ => hreleasing T

theorem ReservationFits.client {i : Nat} {client client' : Client} (h : ReservationFits s)
    (hL : Lifecycle s) (hi : s.clients[i]? = some client)
    (hm : ClientMove s.disp client d client') :
    ReservationFits { s with disp := d, clients := s.clients.set i client' } := by
  -- a session in the books is neither new nor over
  have known : ∀ {T : SessionId}, T ∈ s.disp.unsettled →
      T ≠ s.disp.nextSession ∧ ¬ Over (s.disp.status T) := by
    intro T hT
    obtain ⟨state, hst, hns⟩ := h.live T hT
    have hlt := ((hL.session T).record state hst).1
    refine ⟨Nat.ne_of_lt hlt, hst ▸ not_over ?_⟩
    revert hns
    cases state <;> decide
  cases hm with
  | prepareFailed | prepared | registerFailed | emitPending | admitDone | announce =>
      exact h.keep rfl rfl (fun T hT => ⟨hT, Or.inl rfl⟩) (fun T r' _ hr => ⟨r', hr, rfl⟩)
  | registered =>
      refine h.keep rfl rfl (fun T hT => ⟨hT, Or.inl ?_⟩) (fun T r' hT hr => ⟨r', ?_, rfl⟩)
      · simp [status, Dict.get?_set_ne _ _ (known hT).1]
      · simpa [Dict.get?_set_ne _ _ (known hT).1] using hr
  | @closePop S =>
      have hover := ((hL.session S).callers (List.mem_of_getElem? hi)).2
      have hne : ∀ {T : SessionId}, T ∈ s.disp.unsettled → T ≠ S :=
        fun hT heq => (known hT).2 (heq ▸ hover)
      refine h.keep rfl rfl (fun T hT => ⟨hT, Or.inl ?_⟩) (fun T r' hT hr => ⟨r', ?_, rfl⟩)
      · simp [status, Dict.get?_pop_ne _ (hne hT)]
      · simpa [Dict.get?_pop_ne _ (hne hT)] using hr

/-- What a pass admits shares nothing with an unsettled session. -/
theorem ReservationFits.excludes (h : ReservationFits s) {S T : SessionId}
    {r₁ r₂ : SessionRecord} (hS : S ∈ s.disp.admitted) (hT : T ∈ s.disp.unsettled)
    (hr₁ : s.disp.records.get? S = some r₁) (hr₂ : s.disp.records.get? T = some r₂) :
    Disjoint r₁.resources r₂.resources ∨ Releasing s T := by
  obtain ⟨-, r, ⟨hr, -⟩, hfree, -⟩ := admitted_cases hS
  obtain rfl : r₁ = r := Option.some.inj (hr₁.symm.trans hr)
  exact (h.reserved T hT r₂ hr₂).imp_left fun hsub => Finset.disjoint_of_subset_right hsub hfree

theorem ReservationFits.schedule {launches : List (SessionId × Bool)} (h : ReservationFits s)
    (hm : s.disp.schedule s.threads.length = some (d, launches)) :
    ReservationFits (s.launch d launches) := by
  have kept : ∀ {T : SessionId}, Releasing s T → Releasing (s.launch d launches) T := by
    rintro T ⟨w, thread, state, result, hw, hS, hpc⟩
    refine ⟨w, thread, state, result, ?_, hS, hpc⟩
    rw [System.launch, List.getElem?_append_left (List.getElem?_eq_some_iff.mp hw).1]
    exact hw
  rcases schedule_cases hm with ⟨-, rfl⟩ | ⟨-, -, rfl⟩
  · refine ⟨fun T hT => ?_, fun T hT r hr => ?_, fun S hS T hT hne r₁ r₂ hr₁ hr₂ => ?_⟩
    · rcases List.mem_append.mp hT with hold | hnew
      · exact h.live T hold
      · obtain ⟨-, r, ⟨hr, hp⟩, -⟩ := admitted_cases hnew
        exact ⟨.pending, hp ▸ status_of_record hr, rfl⟩
    · rcases List.mem_append.mp hT with hold | hnew
      · rcases h.reserved T hold r hr with hsub | hrel
        · exact Or.inl (hsub.trans
            (foldl_reserved_subset s.disp.pending { reserved := s.disp.reserved }))
        · exact Or.inr (kept hrel)
      · obtain ⟨-, r', ⟨hr', -⟩, -, hsub⟩ := admitted_cases hnew
        obtain rfl : r = r' := Option.some.inj (hr.symm.trans hr')
        exact Or.inl hsub
    · rcases List.mem_append.mp hS with holdS | hnewS <;>
        rcases List.mem_append.mp hT with holdT | hnewT
      · rcases h.apart S holdS T holdT hne r₁ r₂ hr₁ hr₂ with hdisj | hrel | hrel
        · exact Or.inl hdisj
        · exact Or.inr (Or.inl (kept hrel))
        · exact Or.inr (Or.inr (kept hrel))
      · rcases h.excludes hnewT holdS hr₂ hr₁ with hdisj | hrel
        · exact Or.inl hdisj.symm
        · exact Or.inr (Or.inl (kept hrel))
      · rcases h.excludes hnewS holdT hr₁ hr₂ with hdisj | hrel
        · exact Or.inl hdisj
        · exact Or.inr (Or.inr (kept hrel))
      · exact Or.inl (admitted_apart hnewS hnewT hne hr₁ hr₂)
  · refine ⟨h.live, fun T hT r hr => ?_, fun S hS T hT hne r₁ r₂ hr₁ hr₂ => ?_⟩
    · exact (h.reserved T hT r hr).imp_right kept
    · exact (h.apart S hS T hT hne r₁ r₂ hr₁ hr₂).imp_right (Or.imp kept kept)

end

theorem ReservationFits.step {s t : System} {a : Action} (h : ReservationFits s)
    (hL : Lifecycle s) (hkeep : KeepsReservations s a) (hstep : s.step a = some t) :
    ReservationFits t := by
  rcases System.step_cases hstep with ⟨c, d, client, -, hm, rfl⟩ |
    ⟨i, choice, client, d, client', -, hi, hm, rfl⟩ |
    ⟨w, choice, thread, d, pc, rfl, hw, hm, rfl⟩ | ⟨d, launches, -, hm, rfl⟩ | ⟨-, rfl⟩ | ⟨-, rfl⟩
  · refine h.keep rfl ?_ (fun T hT => hm.unsettled_step hT)
      (fun T r' _ hr => hm.resources_step hr)
    cases hm <;> rfl
  · exact h.client hL hi hm
  · refine h.worker hL hw hm (fun r after hpc T hT => ?_)
    obtain ⟨session, admitted, pc₀⟩ := thread
    obtain rfl : pc₀ = .releaseReserved r after := hpc
    simp only [KeepsReservations, System.keepsReservations, hw] at hkeep
    have hall := List.all_eq_true.mp hkeep T hT
    simpa using hall
  · exact h.schedule hm
  · exact { h with }
  · exact { h with }

theorem ReservationFits.initial (registry : String → Option WorkflowRegistration) :
    ReservationFits (System.initial registry) where
  live S hS := absurd hS (by simp [System.initial])
  reserved S hS := absurd hS (by simp [System.initial])
  apart S hS := absurd hS (by simp [System.initial])

/-! ## First in, first out

The queue is in the order of the submissions, and a session that waits for a
resource is not overtaken by a later one that needs it too. -/

/-- The session will never be `PENDING` again. -/
def Doomed (status : Option SessionState) : Prop := status = some .canceling ∨ Over status

/-- How far two conflicting sessions, `S` in front of `T` in the queue of
`s`, have got in `t`, when `new` has been admitted since. -/
inductive Queued (s t : System) (S T : SessionId) (new : List SessionId) : Prop
  | waiting (r₁ r₂ : SessionRecord) :
      T ∉ new → [S, T].Sublist t.disp.pending → Waiting t.disp.records S r₁ →
        Waiting t.disp.records T r₂ → ¬ Disjoint r₁.resources r₂.resources → Queued s t S T new
  | admitted (front back : List SessionId) :
      new = front ++ S :: back → T ∉ front → Queued s t S T new
  | canceled :
      SessionState.canceling ∈ (t.disp.history S).drop (s.disp.history S).length →
        Queued s t S T new
  | doomed : T ∉ new → Doomed (t.disp.status T) → Queued s t S T new

/-- Since `s`, `T` has been admitted only after `S`, or after `S` was
canceled. -/
def AdmittedInOrder (s t : System) (S T : SessionId) : Prop :=
  ∃ new, t.disp.admissions = s.disp.admissions ++ new ∧
    (T ∈ new → (∃ front back, new = front ++ S :: back ∧ T ∉ front) ∨
      SessionState.canceling ∈ (t.disp.history S).drop (s.disp.history S).length)

/-- What `Queued` needs to know of a step that admits nobody. -/
structure QueueStep (t u : System) (S T : SessionId) : Prop where
  admissions : u.disp.admissions = t.disp.admissions
  history : (t.disp.history S) <+: (u.disp.history S)
  doomed : Doomed (t.disp.status T) → Doomed (u.disp.status T)
  waiting : ∀ r₁ r₂, [S, T].Sublist t.disp.pending → Waiting t.disp.records S r₁ →
    Waiting t.disp.records T r₂ →
      (([S, T].Sublist u.disp.pending ∧
        (∃ r₁', Waiting u.disp.records S r₁' ∧ r₁'.resources = r₁.resources) ∧
        ∃ r₂', Waiting u.disp.records T r₂' ∧ r₂'.resources = r₂.resources) ∨
      u.disp.history S = t.disp.history S ++ [.canceling] ∨ u.disp.status T = some .canceling)

theorem Queued.step {s t u : System} {S T : SessionId} {new : List SessionId}
    (h : Queued s t S T new) (hlen : (s.disp.history S).length ≤ (t.disp.history S).length)
    (hstep : QueueStep t u S T) : Queued s u S T new := by
  cases h with
  | waiting r₁ r₂ hnew hsub h₁ h₂ hshare =>
      rcases hstep.waiting r₁ r₂ hsub h₁ h₂ with
        ⟨hsub', ⟨r₁', h₁', hres₁⟩, r₂', h₂', hres₂⟩ | hcan | hcan
      · exact .waiting r₁' r₂' hnew hsub' h₁' h₂' (by rw [hres₁, hres₂]; exact hshare)
      · refine .canceled ?_
        rw [hcan, List.drop_append_of_le_length hlen]
        simp
      · exact .doomed hnew (Or.inl hcan)
  | admitted front back hnew hT => exact .admitted front back hnew hT
  | canceled hcan =>
      obtain ⟨rest, hrest⟩ := hstep.history
      refine .canceled ?_
      rw [← hrest, List.drop_append_of_le_length hlen]
      exact List.mem_append_left _ hcan
  | doomed hnew hd => exact .doomed hnew (hstep.doomed hd)

section
variable {t : System} {S T : SessionId}

theorem Dispatcher.Waiting.status {records : Dict SessionId SessionRecord} {d : Dispatcher}
    {r : SessionRecord} (hd : d.records = records) (h : Waiting records S r) :
    d.status S = some .pending := by
  subst hd
  exact h.2 ▸ status_of_record h.1

/-- A step that leaves both sessions and the queue as they were. -/
theorem QueueStep.quiet {u : System} (ha : u.disp.admissions = t.disp.admissions)
    (hh : u.disp.history S = t.disp.history S) (hst : u.disp.status T = t.disp.status T)
    (hp : ∃ more, u.disp.pending = t.disp.pending ++ more)
    (hS : u.disp.records.get? S = t.disp.records.get? S)
    (hT : u.disp.records.get? T = t.disp.records.get? T) : QueueStep t u S T where
  admissions := ha
  history := by rw [hh]
  doomed hd := by rw [hst]; exact hd
  waiting r₁ r₂ hsub h₁ h₂ := by
    obtain ⟨more, hmore⟩ := hp
    refine Or.inl ⟨?_, ⟨r₁, ⟨hS.trans h₁.1, h₁.2⟩, rfl⟩, r₂, ⟨hT.trans h₂.1, h₂.2⟩, rfl⟩
    rw [hmore]
    exact hsub.trans (List.sublist_append_left _ _)

/-- A control call on a session that is `PENDING`, or doomed, is a cancel of
a `PENDING` one. -/
theorem queueStep_control {d : Dispatcher} {client : Client} {X : SessionId}
    {r : SessionRecord} {state : SessionState} {control : Control}
    (hr : t.disp.records.get? X = some r)
    (hedge : r.state.isTerminal = false ∧ r.state ≠ .canceling ∧
      (r.state = .pending → state = .canceling))
    (hrecords : d.records = ((t.disp.setControl X control).moved X r state).records)
    (hhistory : d.history = ((t.disp.setControl X control).moved X r state).history)
    (ha : d.admissions = t.disp.admissions)
    (hp : ∃ more, d.pending = t.disp.pending ++ more) : QueueStep t (t.calls d client) S T := by
  have hstX : t.disp.status X = some r.state := status_of_record hr
  have hst' : d.status X = some state := by simp [status, hrecords]
  have hget : ∀ {Y : SessionId}, Y ≠ X → d.records.get? Y = t.disp.records.get? Y := by
    intro Y hY
    rw [hrecords]
    exact Dict.get?_set_ne _ _ hY
  have hhist : ∀ {Y : SessionId}, Y ≠ X → d.history Y = t.disp.history Y := by
    intro Y hY
    simp [hhistory, hY]
  have hhistX : d.history X = t.disp.history X ++ [state] := by simp [hhistory]
  have not_doomed : ¬ Doomed (t.disp.status X) := by
    rw [hstX]
    rintro (hc | hover)
    · exact hedge.2.1 (Option.some.inj hc)
    · exact not_over hedge.1 hover
  by_cases hTX : T = X
  · subst hTX
    refine ⟨ha, ?_, fun hd => absurd hd not_doomed, fun r₁ r₂ hsub h₁ h₂ => ?_⟩
    · by_cases hST : S = T
      · subst hST
        exact ⟨[state], hhistX.symm⟩
      · show t.disp.history S <+: d.history S
        rw [hhist hST]
    · obtain rfl : r₂ = r := Option.some.inj (h₂.1.symm.trans hr)
      exact Or.inr (Or.inr (by rw [← hedge.2.2 h₂.2]; exact hst'))
  · by_cases hSX : S = X
    · subst hSX
      have hT' : (t.calls d client).disp.status T = t.disp.status T :=
        congrArg (Option.map SessionRecord.state) (hget hTX)
      refine ⟨ha, ⟨[state], hhistX.symm⟩, fun hd => hT'.symm ▸ hd, fun r₁ r₂ hsub h₁ h₂ => ?_⟩
      obtain rfl : r₁ = r := Option.some.inj (h₁.1.symm.trans hr)
      exact Or.inr (Or.inl (by rw [← hedge.2.2 h₁.2]; exact hhistX))
    · exact .quiet ha (hhist hSX) (congrArg (Option.map SessionRecord.state) (hget hTX)) hp
        (hget hSX) (hget hTX)

theorem queueStep_call {c : Call} {d : Dispatcher} {client : Client}
    (hm : CallMove t.disp c d client) : QueueStep t (t.calls d client) S T := by
  cases hm with
  | submit | close | cancelPausing =>
      exact .quiet rfl rfl rfl ⟨[], (List.append_nil _).symm⟩ rfl rfl
  | @pause X r hr hrun =>
      refine queueStep_control hr ?_ rfl rfl rfl ⟨[], (List.append_nil _).symm⟩
      rw [hrun]
      decide
  | @resume X r hr hst =>
      refine queueStep_control hr ?_ rfl rfl rfl ⟨[X], rfl⟩
      rcases hst with hst | hst <;> rw [hst] <;> decide
  | @cancel X r hr hlive hnc =>
      refine queueStep_control hr ⟨hlive, hnc, fun _ => rfl⟩ rfl rfl rfl ?_
      by_cases hq : cancelQueues r.state = true ∧ X ∉ t.disp.pending
      · exact ⟨[X], if_pos hq⟩
      · exact ⟨[], (if_neg hq).trans (List.append_nil _).symm⟩

theorem queueStep_client (hL : Lifecycle t) {i : Nat} {client client' : Client} {d : Dispatcher}
    (hS : S < t.disp.nextSession) (hT : T < t.disp.nextSession)
    (hi : t.clients[i]? = some client) (hm : ClientMove t.disp client d client') :
    QueueStep t { t with disp := d, clients := t.clients.set i client' } S T := by
  cases hm with
  | prepareFailed | prepared | registerFailed | emitPending | admitDone | announce =>
      exact .quiet rfl rfl rfl ⟨[], (List.append_nil _).symm⟩ rfl rfl
  | registered =>
      have hget : ∀ {Y : SessionId}, Y < t.disp.nextSession → ∀ r : SessionRecord,
          (t.disp.records.set t.disp.nextSession r).get? Y = t.disp.records.get? Y :=
        fun hY r => Dict.get?_set_ne _ _ (Nat.ne_of_lt hY)
      refine .quiet rfl ?_ ?_ ⟨_, rfl⟩ (hget hS _) (hget hT _)
      · simp [Nat.ne_of_lt hS]
      · simp only [status, registerSession_records, hget hT]
  | @closePop X =>
      have hover := ((hL.session X).callers (List.mem_of_getElem? hi)).2
      have hne : ∀ {Y : SessionId} {r : SessionRecord}, Waiting t.disp.records Y r → Y ≠ X := by
        intro Y r hY heq
        rw [← heq, hY.status rfl] at hover
        exact not_over rfl hover
      refine ⟨rfl, List.prefix_refl _, fun hd => ?_, fun r₁ r₂ hsub h₁ h₂ => Or.inl ?_⟩
      · by_cases hTX : T = X
        · subst hTX
          refine Or.inr ?_
          show Over (Option.map _ ((t.disp.records.pop T).get? T))
          rw [Dict.get?_pop_self]
          exact over_none
        · show Doomed (Option.map _ ((t.disp.records.pop X).get? T))
          rw [Dict.get?_pop_ne _ hTX]
          exact hd
      · refine ⟨hsub, ⟨r₁, ⟨?_, h₁.2⟩, rfl⟩, r₂, ⟨?_, h₂.2⟩, rfl⟩
        · exact (Dict.get?_pop_ne _ (hne h₁)).trans h₁.1
        · exact (Dict.get?_pop_ne _ (hne h₂)).trans h₂.1

/-- A worker of a queued `PENDING` session is on its way out. -/
theorem waiting_worker (hL : Lifecycle t) {w : WorkerId} {thread : Worker} {pc : WorkerPc}
    {d : Dispatcher} {r : SessionRecord} (hw : t.threads[w]? = some thread)
    (hm : WorkerMove t.disp w thread.session thread.pc d pc)
    (hqueued : thread.session ∈ t.disp.pending)
    (h : Waiting t.disp.records thread.session r) :
    d.pending = t.disp.pending ∧ d.history = t.disp.history ∧
      ∃ r', Waiting d.records thread.session r' ∧ r'.resources = r.resources := by
  have hst : t.disp.status thread.session = some .pending := h.status rfl
  have hactive : thread.pc.active = false := by
    by_contra ha
    exact ((hL.session _).idle hqueued w thread hw rfl (by simpa using ha)).2 hst
  have hl := hm.leaving_step hactive
  obtain ⟨hpend, hst'⟩ : d.pending = t.disp.pending ∧
      d.status thread.session = t.disp.status thread.session := by
    rcases hl.record with hkept | ⟨-, hp, -⟩
    · exact hkept
    · exact absurd (hst.symm.trans hp) (by decide)
  have hhist : d.history = t.disp.history := by
    rcases hm.transition_step with ⟨-, hh⟩ | ⟨old, state, ho, hlegal, hs, -⟩
    · exact hh
    · obtain rfl : old = .pending := Option.some.inj (ho.symm.trans hst)
      obtain rfl : state = .pending := Option.some.inj (hs.symm.trans (hst'.trans hst))
      exact absurd hlegal (by decide)
  obtain ⟨r', hr', hp'⟩ := status_eq_some.mp (hst'.trans hst)
  obtain ⟨r₀, hr₀, hres⟩ := hm.resources_step hr'
  obtain rfl : r₀ = r := Option.some.inj (hr₀.symm.trans h.1)
  exact ⟨hpend, hhist, r', ⟨hr', hp'⟩, hres.symm⟩

theorem queueStep_worker (hL : Lifecycle t) {w : WorkerId} {thread : Worker} {pc : WorkerPc}
    {d : Dispatcher} (hw : t.threads[w]? = some thread)
    (hm : WorkerMove t.disp w thread.session thread.pc d pc) :
    QueueStep t (t.advance d w thread pc) S T := by
  have hhist : t.disp.history S <+: d.history S := by
    rcases hm.transition_step with ⟨-, hh⟩ | ⟨old, state, -, -, -, hh⟩
    · rw [hh]
    · rw [hh]
      show t.disp.history S <+: if S = thread.session then _ else _
      split
      · exact ⟨[state], rfl⟩
      · exact List.prefix_refl _
  have hget : ∀ {Y : SessionId}, Y ≠ thread.session →
      d.records.get? Y = t.disp.records.get? Y := fun hY => hm.records_ne hY
  refine ⟨hm.admissions_eq, hhist, fun hd => ?_, fun r₁ r₂ hsub h₁ h₂ => Or.inl ?_⟩
  · by_cases hT : T = thread.session
    · subst hT
      rcases hm.transition_step with ⟨hst, -⟩ | ⟨old, state, ho, hlegal, hs, -⟩
      · show Doomed (d.status _)
        rw [hst]
        exact hd
      · refine Or.inr ?_
        show Over (d.status _)
        rw [hs]
        rcases hd with hc | hover
        · obtain rfl : old = .canceling := Option.some.inj (ho.symm.trans hc)
          intro st hmem
          obtain rfl : state = st := Option.some.inj hmem
          revert hlegal
          cases state <;> decide
        · have hterm := hover old (by simp [ho])
          exact absurd hlegal (by simp [requireTransition_terminal hterm])
    · show Doomed (Option.map _ (d.records.get? T))
      rw [hget hT]
      exact hd
  · have kept : ∀ {Y : SessionId} {r : SessionRecord}, Y ∈ t.disp.pending →
        Waiting t.disp.records Y r →
          ∃ r', Waiting d.records Y r' ∧ r'.resources = r.resources := by
      intro Y r hq hY
      by_cases hYS : Y = thread.session
      · subst hYS
        exact (waiting_worker hL hw hm hq hY).2.2
      · exact ⟨r, ⟨(hget hYS).trans hY.1, hY.2⟩, rfl⟩
    refine ⟨?_, kept (hsub.subset (by simp)) h₁, kept (hsub.subset (by simp)) h₂⟩
    show [S, T].Sublist d.pending
    rcases hm.pending_step with hp | hp
    · rw [hp]
      exact hsub
    · rw [hp]
      exact hsub.trans (List.sublist_append_left _ _)

theorem Queued.schedule {s : System} {new : List SessionId} {d : Dispatcher}
    {launches : List (SessionId × Bool)} (h : Queued s t S T new) (hL : Lifecycle t)
    (hm : t.disp.schedule t.threads.length = some (d, launches)) :
    ∃ added, d.admissions = t.disp.admissions ++ added ∧
      Queued s (t.launch d launches) S T (new ++ added) := by
  rcases schedule_cases hm with ⟨-, rfl⟩ | ⟨-, -, rfl⟩
  · refine ⟨t.disp.admitted, rfl, ?_⟩
    cases h with
    | waiting r₁ r₂ hnew hsub h₁ h₂ hshare =>
        have hT : T ∉ t.disp.admitted :=
          fun hadm => Pass.blocks hL.nodup hsub h₁ h₂ hshare (admitted_cases hadm).1
        rcases admitted_or_stays h₁ with hS | hS
        · obtain ⟨front, back, heq⟩ := List.append_of_mem hS
          refine .admitted (new ++ front) back (by rw [heq, List.append_assoc]) ?_
          rw [heq] at hT
          exact fun hmem => (List.mem_append.mp hmem).elim hnew
            (fun hf => hT (List.mem_append_left _ hf))
        · have hT' := (admitted_or_stays h₂).resolve_left hT
          refine .waiting r₁ r₂ (by simp [hnew, hT]) ?_ h₁ h₂ hshare
          have hfilter := hsub.filter (fun X => decide (X ∉ t.disp.pass.selected.map (·.1)))
          rwa [List.filter_cons_of_pos (by simpa using hS),
            List.filter_cons_of_pos (by simpa using hT'), List.filter_nil] at hfilter
    | admitted front back hnew hT =>
        exact .admitted front (back ++ t.disp.admitted) (by rw [hnew]; simp) hT
    | canceled hcan => exact .canceled hcan
    | doomed hnew hd =>
        refine .doomed ?_ hd
        intro hmem
        rcases List.mem_append.mp hmem with hold | hadm
        · exact hnew hold
        · obtain ⟨-, r, hr, -⟩ := admitted_cases hadm
          rw [hr.status rfl] at hd
          rcases hd with hc | hover
          · exact absurd hc (by decide)
          · exact not_over rfl hover
  · refine ⟨[], (List.append_nil _).symm, ?_⟩
    rw [List.append_nil]
    cases h with
    | waiting r₁ r₂ hnew hsub h₁ h₂ hshare => exact .waiting r₁ r₂ hnew hsub h₁ h₂ hshare
    | admitted front back hnew hT => exact .admitted front back hnew hT
    | canceled hcan => exact .canceled hcan
    | doomed hnew hd => exact .doomed hnew hd

end

/-- The invariant of a run that starts with `S` in front of `T`. -/
structure QueueFits (s : System) (S T : SessionId) (t : System) : Prop where
  lifecycle : Lifecycle t
  knownS : S < t.disp.nextSession
  knownT : T < t.disp.nextSession
  length : (s.disp.history S).length ≤ (t.disp.history S).length
  queued : ∃ new, t.disp.admissions = s.disp.admissions ++ new ∧ Queued s t S T new

theorem QueueFits.step {s t u : System} {S T : SessionId} {a : Action} (h : QueueFits s S T t)
    (hstep : t.step a = some u) : QueueFits s S T u := by
  obtain ⟨new, hadm, hq⟩ := h.queued
  have quiet : t.disp.nextSession ≤ u.disp.nextSession → QueueStep t u S T →
      QueueFits s S T u := fun hnext hqs =>
    ⟨h.lifecycle.step hstep, h.knownS.trans_le hnext, h.knownT.trans_le hnext,
      h.length.trans hqs.history.length_le, new, hqs.admissions.trans hadm,
      hq.step h.length hqs⟩
  rcases System.step_cases hstep with ⟨c, d, client, -, hm, rfl⟩ |
    ⟨i, choice, client, d, client', -, hi, hm, rfl⟩ |
    ⟨w, choice, thread, d, pc, -, hw, hm, rfl⟩ | ⟨d, launches, -, hm, rfl⟩ | ⟨-, rfl⟩ | ⟨-, rfl⟩
  · exact quiet (by cases hm <;> exact Nat.le_refl _) (queueStep_call hm)
  · refine quiet ?_ (queueStep_client h.lifecycle h.knownS h.knownT hi hm)
    cases hm <;> first | exact Nat.le_refl _ | exact Nat.le_succ _
  · exact quiet (le_of_eq hm.nextSession_eq.symm) (queueStep_worker h.lifecycle hw hm)
  · obtain ⟨added, hadd, hq'⟩ := hq.schedule h.lifecycle hm
    have hsame : d.nextSession = t.disp.nextSession ∧ d.history = t.disp.history := by
      rcases schedule_cases hm with ⟨-, rfl⟩ | ⟨-, -, rfl⟩ <;> exact ⟨rfl, rfl⟩
    refine ⟨h.lifecycle.schedule hm, hsame.1 ▸ h.knownS, hsame.1 ▸ h.knownT, ?_, new ++ added, ?_,
      hq'⟩
    · exact (congrArg (fun f => (s.disp.history S).length ≤ (f S).length) hsame.2).mpr h.length
    · exact hadd.trans (by rw [hadm, List.append_assoc])
  · exact quiet (Nat.le_refl _) (.quiet rfl rfl rfl ⟨[], (List.append_nil _).symm⟩ rfl rfl)
  · exact quiet (Nat.le_refl _) (.quiet rfl rfl rfl ⟨[], (List.append_nil _).symm⟩ rfl rfl)

/-- Of two queued sessions that share a resource, the earlier one is
admitted first, in every run. -/
theorem fifo {s t : System} {S T : SessionId} {r₁ r₂ : SessionRecord} (hL : Lifecycle s)
    (horder : [S, T].Sublist s.disp.pending) (h₁ : Waiting s.disp.records S r₁)
    (h₂ : Waiting s.disp.records T r₂) (hshare : ¬ Disjoint r₁.resources r₂.resources)
    (hrun : Transition.AnyRun System.step s t) : AdmittedInOrder s t S T := by
  have hstart : QueueFits s S T s :=
    { lifecycle := hL
      knownS := ((hL.session S).record _ (h₁.status rfl)).1
      knownT := ((hL.session T).record _ (h₂.status rfl)).1
      length := Nat.le_refl _
      queued := ⟨[], (List.append_nil _).symm,
        .waiting r₁ r₂ (by simp) horder h₁ h₂ hshare⟩ }
  have hfits := hrun.invariant (I := QueueFits s S T) (fun _ _ _ hI _ hst => hI.step hst) hstart
  obtain ⟨new, hadm, hq⟩ := hfits.queued
  refine ⟨new, hadm, fun hT => ?_⟩
  cases hq with
  | waiting _ _ hnew => exact absurd hT hnew
  | admitted front back heq hfront => exact Or.inl ⟨front, back, heq, hfront⟩
  | canceled hcan => exact Or.inr hcan
  | doomed hnew => exact absurd hT hnew

/-! ## Admission

The two halves put together, and a run without the condition in which a
resource is admitted twice. -/

/-- What the scheduler keeps of its reservations and of the queue. -/
structure AdmissionHolds (s : System) : Prop where
  /-- An admitted session that has not settled is reserved, until its worker
  releases it in `_settle`. -/
  reserved : ∀ S ∈ s.disp.unsettled, ∀ r, s.disp.records.get? S = some r →
    r.resources ⊆ s.disp.reserved ∨ Releasing s S
  fifo : ∀ S T r₁ r₂, [S, T].Sublist s.disp.pending → Waiting s.disp.records S r₁ →
    Waiting s.disp.records T r₂ → ¬ Disjoint r₁.resources r₂.resources →
      ∀ t, Transition.AnyRun System.step s t → AdmittedInOrder s t S T
  /-- A pass admits no session that shares a resource with one of these. -/
  exclusive : ∀ S ∈ s.disp.admitted, ∀ T ∈ s.disp.unsettled, ∀ r₁ r₂,
    s.disp.records.get? S = some r₁ → s.disp.records.get? T = some r₂ →
      Disjoint r₁.resources r₂.resources ∨ Releasing s T
  /-- Nor does it admit two sessions that share one. -/
  together : ∀ S ∈ s.disp.admitted, ∀ T ∈ s.disp.admitted, S ≠ T → ∀ r₁ r₂,
    s.disp.records.get? S = some r₁ → s.disp.records.get? T = some r₂ →
      Disjoint r₁.resources r₂.resources
  /-- So at no time two of the unsettled ones share one. -/
  apart : ∀ S ∈ s.disp.unsettled, ∀ T ∈ s.disp.unsettled, S ≠ T → ∀ r₁ r₂,
    s.disp.records.get? S = some r₁ → s.disp.records.get? T = some r₂ →
      Disjoint r₁.resources r₂.resources ∨ Releasing s S ∨ Releasing s T

/-- Along every run in which no release meets the reservation of another
admitted session. -/
theorem admission_holds {registry : String → Option WorkflowRegistration} {s : System}
    (h : Transition.Run System.step KeepsReservations (System.initial registry) s) :
    AdmissionHolds s := by
  have hinv : Lifecycle s ∧ ReservationFits s :=
    h.invariant (I := fun s => Lifecycle s ∧ ReservationFits s)
      (fun _ _ _ hI hP hstep => ⟨hI.1.step hstep, hI.2.step hI.1 hP hstep⟩)
      ⟨Lifecycle.initial registry, ReservationFits.initial registry⟩
  refine ⟨hinv.2.reserved, ?_, ?_, ?_, hinv.2.apart⟩
  · intro S T r₁ r₂ horder h₁ h₂ hshare t hrun
    exact NamiSync.fifo hinv.1 horder h₁ h₂ hshare hrun
  · exact fun S hS T hT r₁ r₂ => hinv.2.excludes hS hT
  · exact fun S hS T hT hne r₁ r₂ => admitted_apart hS hT hne

def verifyRegistry : String → Option WorkflowRegistration := fun _ => some {}

def sharedRoot : ResourceId := { space := "root", key := "shared" }

/-- A session runs, another one waits for the same resource. -/
def waitingSystem : System :=
  Transition.outcome System.step System.keepsReservations (System.initial verifyRegistry)
    (Script.submit 0 "verify" {sharedRoot} ++ [.schedule] ++ Script.enterRun 0 ++
      Script.submit 1 "verify" {sharedRoot})

theorem admission_holds_waiting :
    waitingSystem.disp.unsettled = [0] ∧ waitingSystem.disp.pending = [1] ∧
      AdmissionHolds waitingSystem :=
  ⟨by decide, by decide, admission_holds (Transition.outcome_run (fun _ _ h => h) _ _)⟩

/-- The running session completes; its worker has released custody in
`_settle` and not yet published the state. -/
def releasingRun : List Action :=
  Script.submit 0 "verify" {sharedRoot} ++ [.schedule] ++ Script.enterRun 0 ++
    [.worker 0 (.runEnd (.returned { status := .completed }))] ++ Script.blocks 0 3

/-- A second session is admitted after the first has settled, and the first
worker's `finally` takes the resource out of `_reserved` once more. -/
def strippedRun : List Action :=
  releasingRun ++ Script.blocks 0 2 ++ [.worker 0 (.audited .ok)] ++ Script.blocks 0 3 ++
    Script.submit 1 "verify" {sharedRoot} ++ [.schedule] ++ Script.blocks 0 2

def releasingSystem : System :=
  Transition.outcome System.step (fun _ _ => true) (System.initial verifyRegistry)
    (releasingRun ++ Script.submit 1 "verify" {sharedRoot})

def strippedSystem : System :=
  Transition.outcome System.step (fun _ _ => true) (System.initial verifyRegistry)
    (strippedRun ++ Script.submit 2 "verify" {sharedRoot})

/-- The same with no allowance for the window of `_settle`. -/
structure AdmissionHoldsThroughout (s : System) : Prop where
  reserved : ∀ S ∈ s.disp.unsettled, ∀ r, s.disp.records.get? S = some r →
    r.resources ⊆ s.disp.reserved
  exclusive : ∀ S ∈ s.disp.admitted, ∀ T ∈ s.disp.unsettled, ∀ r₁ r₂,
    s.disp.records.get? S = some r₁ → s.disp.records.get? T = some r₂ →
      Disjoint r₁.resources r₂.resources

/-- `S` is about to be admitted next to the unsettled `T`, on the same
resource, which is not reserved. -/
def System.overbooked (s : System) (S T : SessionId) : Bool :=
  S ∈ s.disp.admitted && T ∈ s.disp.unsettled && s.disp.reserved = ∅ &&
    (s.disp.records.get? S).map (·.resources) = some {sharedRoot} &&
      (s.disp.records.get? T).map (·.resources) = some {sharedRoot}

theorem overbooked_gap {s : System} {S T : SessionId} (h : s.overbooked S T = true) :
    (∃ r, s.disp.records.get? T = some r ∧ ¬ r.resources ⊆ s.disp.reserved) ∧
      ¬ AdmissionHoldsThroughout s := by
  simp only [System.overbooked, Bool.and_eq_true, decide_eq_true_eq, Option.map_eq_some_iff] at h
  obtain ⟨⟨⟨⟨hS, hT⟩, hempty⟩, r₁, hr₁, hres₁⟩, r₂, hr₂, hres₂⟩ := h
  refine ⟨⟨r₂, hr₂, ?_⟩, fun hholds => ?_⟩
  · rw [hres₂, hempty]
    decide
  · have hdisj := hholds.exclusive S hS T hT r₁ r₂ hr₁ hr₂
    rw [hres₁, hres₂] at hdisj
    exact absurd hdisj (by decide)

/-- Two ways for a session to be admitted next to an unsettled one with the
same resource: in the window of `_settle`, and after a `finally` that met a
reservation which was not its own. -/
theorem reservation_gaps :
    (Transition.AnyRun System.step (System.initial verifyRegistry) releasingSystem ∧
      ¬ AdmissionHoldsThroughout releasingSystem) ∧
    Transition.AnyRun System.step (System.initial verifyRegistry) strippedSystem ∧
      ¬ AdmissionHoldsThroughout strippedSystem ∧ ¬ AdmissionHolds strippedSystem := by
  have hgap := overbooked_gap (s := releasingSystem) (S := 1) (T := 0) (by decide)
  have hstrip := overbooked_gap (s := strippedSystem) (S := 2) (T := 1) (by decide)
  refine ⟨⟨Transition.outcome_run (fun _ _ _ => trivial) _ _, hgap.2⟩,
    Transition.outcome_run (fun _ _ _ => trivial) _ _, hstrip.2, fun h => ?_⟩
  obtain ⟨r, hr, hnot⟩ := hstrip.1
  rcases h.reserved 1 (by decide) r hr with hsub | ⟨w, thread, state, result, hw, -, hpc⟩
  · exact hnot hsub
  · -- no worker is in the window: the first is past it, the second acquires
    have hall : strippedSystem.threads.all (fun t => !t.pc.publishes) = true := by decide
    have hthread := List.all_eq_true.mp hall thread (List.mem_of_getElem? hw)
    exact absurd hthread (by simp [hpc, WorkerPc.publishes])

end NamiSync
