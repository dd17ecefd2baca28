/-
# `Dispatcher.Headcount` — how many workers attend a session

The active workers of a session and its place in the queue, counted together.
A session in one of the ordinary states has one of the two; a canceled one
may have two, since the cancel of a session that was taken from the queue
queues it again; a session that is over may have one left, and gets no more.

`Lifecycle` says which workers can be about, this module how many.  The count
is what tells the last worker of a session that is over from one of two: when
the last one leaves, the session is `Deserted`, and stays so through every
later step, since no control call is accepted for it.
`Dispatcher.Returned` needs exactly that to know that no lease is stored for a
session after its last worker.
-/
import NamiSync.Dispatcher.Attendance
import Mathlib.Data.Finset.Card

namespace NamiSync

open SessionState Dispatcher

/-- The active workers of a session. -/
def System.attendants (s : System) (S : SessionId) : Finset WorkerId :=
  (Finset.range s.threads.length).filter (fun w =>
    (s.threads[w]?).any (fun thread => thread.session = S && thread.pc.active) = true)

/-- One for the session's place in the queue. -/
def System.place (s : System) (S : SessionId) : Nat := if S ∈ s.disp.pending then 1 else 0

/-- How many may attend a session in a state. -/
def room : Option SessionState → Nat
  | some .canceling => 2
  | some .paused | some .interrupted => 0
  | _ => 1

/-- The invariant. -/
def Headcount (s : System) : Prop :=
  ∀ S, (s.attendants S).card + s.place S ≤ room (s.disp.status S)

/-! ## A worker's step

A worker that becomes inactive is counted no more, and none becomes active
again.  So a block of a worker lowers the count, or leaves it while the session
keeps its state or goes to one with as much room. -/

theorem mem_attendants {s : System} {S : SessionId} {w : WorkerId} :
    w ∈ s.attendants S ↔ ∃ thread, s.threads[w]? = some thread ∧ thread.session = S ∧
      thread.pc.active = true := by
  simp only [System.attendants, Finset.mem_filter, Finset.mem_range, Option.any_eq_true,
    Bool.and_eq_true, decide_eq_true_eq]
  constructor
  · rintro ⟨-, thread, hw, hS, ha⟩
    exact ⟨thread, hw, hS, ha⟩
  · rintro ⟨thread, hw, hS, ha⟩
    exact ⟨(List.getElem?_eq_some_iff.mp hw).1, thread, hw, hS, ha⟩

theorem room_over {status : Option SessionState} (h : Over status) : room status = 1 := by
  cases status with
  | none => rfl
  | some state =>
      have hterm := h state rfl
      revert hterm
      cases state <;> decide

theorem place_le {s t : System} {S : SessionId}
    (h : S ∈ t.disp.pending → S ∈ s.disp.pending) : t.place S ≤ s.place S := by
  unfold System.place
  split
  · next hq => rw [if_pos (h hq)]
  · exact Nat.zero_le _

theorem place_le_one (s : System) (S : SessionId) : s.place S ≤ 1 := by
  unfold System.place
  split <;> decide

section
variable {s : System} {d : Dispatcher} {w : WorkerId} {thread : Worker} {pc : WorkerPc}
  {T : SessionId}

/-- A step of one worker adds nobody. -/
theorem attendants_advance_subset (hw : s.threads[w]? = some thread)
    (ha : pc.active = true → thread.pc.active = true) :
    (s.advance d w thread pc).attendants T ⊆ s.attendants T := by
  intro w' hmem
  obtain ⟨thread', hw', hS, ha'⟩ := mem_attendants.mp hmem
  rcases advance_threads hw' with ⟨rfl, rfl⟩ | ⟨-, hold⟩
  · exact mem_attendants.mpr ⟨thread, hw, hS, ha ha'⟩
  · exact mem_attendants.mpr ⟨thread', hold, hS, ha'⟩

/-- A worker that leaves is counted no more. -/
theorem attendants_advance_leave (hw : s.threads[w]? = some thread)
    (ha : thread.pc.active = true) (hleave : pc.active = false) :
    ((s.advance d w thread pc).attendants thread.session).card + 1 ≤
      (s.attendants thread.session).card := by
  have hmem : w ∈ s.attendants thread.session := mem_attendants.mpr ⟨thread, hw, rfl, ha⟩
  have hsub : (s.advance d w thread pc).attendants thread.session ⊆
      (s.attendants thread.session).erase w := by
    intro w' hw'
    refine Finset.mem_erase.mpr ⟨?_, attendants_advance_subset hw (fun _ => ha) hw'⟩
    rintro rfl
    obtain ⟨thread', hget, -, ha'⟩ := mem_attendants.mp hw'
    rcases advance_threads hget with ⟨-, rfl⟩ | ⟨hne, -⟩
    · exact absurd ha' (by simp [hleave])
    · exact hne rfl
  have hcard := Finset.card_le_card hsub
  rw [Finset.card_erase_of_mem hmem] at hcard
  have hpos := Finset.card_pos.mpr ⟨w, hmem⟩
  omega

theorem Dispatcher.WorkerMove.active_before {S : SessionId} {pc₀ : WorkerPc} {d₀ : Dispatcher}
    (h : WorkerMove d₀ w S pc₀ d pc) (ha : pc.active = true) : pc₀.active = true := by
  by_contra hcon
  have hleft := (h.leaving_step (by simpa using hcon)).leaving
  exact absurd ha (by simp [hleft])

/-- A worker's block: it leaves, or its session keeps its room. -/
theorem Headcount.worker (h : Headcount s) (hL : Lifecycle s) (hw : s.threads[w]? = some thread)
    (hm : WorkerMove s.disp w thread.session thread.pc d pc) :
    Headcount (s.advance d w thread pc) := by
  intro T
  have hsub : ((s.advance d w thread pc).attendants T).card ≤ (s.attendants T).card :=
    Finset.card_le_card (attendants_advance_subset hw hm.active_before)
  have hcount := h T
  show _ ≤ room (d.status T)
  by_cases hT : T = thread.session
  · subst hT
    cases ha : thread.pc.active with
    | false =>
        rcases (hm.leaving_step ha).record with ⟨hpend, hst⟩ | ⟨-, hst, hst', -⟩
        · have hplace : (s.advance d w thread pc).place thread.session ≤ s.place thread.session :=
            place_le (fun hq => (congrArg (thread.session ∈ ·) hpend).mp hq)
          rw [hst]
          omega
        · -- a paused session is queued by its late `_worker_done`
          rw [hst] at hcount
          rw [hst']
          have hone := place_le_one (s.advance d w thread pc) thread.session
          have hzero : room (some .paused) = 0 := rfl
          have htwo : room (some .canceling) = 2 := rfl
          omega
    | true =>
        rcases (hL.session _).working w thread hw rfl ha with ⟨state, hst, hfit⟩ | ⟨hover, hstale⟩
        · obtain ⟨r, hr, rfl⟩ := status_eq_some.mp hst
          obtain ⟨-, hflags, hitems⟩ := (hL.session _).record r.state hst
          have hstep := hm.active_step hr hfit hflags
            (hitems (attended_not_terminal hfit.attended))
          have hplace : (s.advance d w thread pc).place thread.session ≤ s.place thread.session :=
            place_le (fun hq => (congrArg (thread.session ∈ ·) hstep.pending).mp hq)
          obtain ⟨r', hr', -, ⟨-, hstate⟩ | ⟨hsettles, hlegal, result, hpc, -⟩⟩ := hstep.record
          · have hroom : room (some r'.state) = room (some r.state) := by
              rcases hstate with heq | ⟨hp, hrun⟩
              · rw [heq]
              · rw [hp, hrun]
                rfl
            rw [status_of_record hr', hroom]
            rw [hst] at hcount
            omega
          · -- the worker that settles the session leaves
            have hinactive : pc.active = false := by rw [hpc]; rfl
            have hleave := attendants_advance_leave (d := d) hw ha hinactive
            have hroom : room (some r.state) ≤ room (some r'.state) + 1 := by
              revert hlegal hsettles
              cases r.state <;> cases r'.state <;> decide
            rw [status_of_record hr']
            rw [hst] at hcount
            omega
        · have hterm : ∀ r, s.disp.records.get? thread.session = some r →
              r.state.isTerminal = true := fun r hr => hover r.state (by simp [status_of_record hr])
          obtain ⟨hpend, -, hrec, -⟩ := hm.stale_step hterm hstale
          have hplace : (s.advance d w thread pc).place thread.session ≤ s.place thread.session :=
            place_le (fun hq => (congrArg (thread.session ∈ ·) hpend).mp hq)
          have hst : d.status thread.session = s.disp.status thread.session := by
            simp only [status, hrec]
          rw [hst]
          omega
  · have hplace : (s.advance d w thread pc).place T ≤ s.place T := by
      refine place_le (fun hq => ?_)
      have hq' : T ∈ d.pending := hq
      rcases hm.queue_step with heq | ⟨-, -, -, heq⟩ <;> rw [heq] at hq'
      · exact hq'
      · simpa [hT] using hq'
    rw [hm.status_ne hT]
    omega

/-! ## Callers and the scheduler

A call that queues a session has to make the room first: `resume` does it by
leaving `PAUSED`, and `cancel` by going to `CANCELING`.  A pass takes the
session from the queue for each worker that it launches. -/

/-- A step that launches nobody. -/
theorem headcount_of_le {t : System} (h : Headcount s) (hthreads : t.threads = s.threads)
    (hplace : t.place T + room (s.disp.status T) ≤ s.place T + room (t.disp.status T)) :
    (t.attendants T).card + t.place T ≤ room (t.disp.status T) := by
  have hsame : t.attendants T = s.attendants T := by
    unfold System.attendants
    rw [hthreads]
  have hcount := h T
  rw [hsame]
  omega

end

/-- A control call that queues a session makes room for it. -/
theorem Dispatcher.CallMove.room_step {d d' : Dispatcher} {c : Call} {client : Client}
    (h : CallMove d c d' client) (T : SessionId) :
    (T ∈ d'.pending → T ∈ d.pending) ∧ room (d.status T) ≤ room (d'.status T) ∨
      room (d.status T) + 1 ≤ room (d'.status T) := by
  cases h with
  | submit | cancelPausing | close => exact Or.inl ⟨id, Nat.le_refl _⟩
  | @pause S r hr hrun =>
      refine Or.inl ⟨id, ?_⟩
      by_cases hT : T = S
      · subst hT
        rw [status_moved_self, status_of_record hr, hrun]
        exact Nat.le_refl _
      · rw [status_moved_ne _ _ _ hT]
        exact Nat.le_refl _
  | @resume S r hr hst =>
      by_cases hT : T = S
      · subst hT
        right
        rw [status_of_record hr]
        have hnew : status _ T = some .pending := status_moved_self (d.setControl T {}) T r .pending
        rcases hst with hst | hst <;> exact (congrArg room hnew).symm ▸ hst ▸ Nat.le_refl _
      · refine Or.inl ⟨fun hq => by simpa [hT] using hq, le_of_eq (congrArg room ?_)⟩
        exact (status_moved_ne _ _ _ hT).symm
  | @cancel S r hr hlive hnc hnp =>
      by_cases hT : T = S
      · subst hT
        have hnew : status _ T = some .canceling :=
          status_moved_self (d.setControl T (d.controls T).requestCancel) T r .canceling
        rw [status_of_record hr]
        cases hst : r.state with
        | running =>
            refine Or.inl ⟨fun hq => ?_, (congrArg room hnew).symm ▸ by decide⟩
            simpa [hst, cancelQueues] using hq
        | pending | paused | interrupted =>
            exact Or.inr ((congrArg room hnew).symm ▸ by decide)
        | pausing => exact absurd hst hnp
        | canceling => exact absurd hst hnc
        | completed | failed | canceled | refused =>
            rw [hst] at hlive
            exact absurd hlive (by decide)
      · refine Or.inl ⟨fun hq => ?_, le_of_eq (congrArg room ?_)⟩
        · by_cases hcq : cancelQueues r.state = true ∧ S ∉ d.pending
          · simpa [hcq, hT] using hq
          · simpa [hcq] using hq
        · exact (status_moved_ne _ _ _ hT).symm

theorem Headcount.call {s : System} {c : Call} {d : Dispatcher} {client : Client}
    (h : Headcount s) (hm : CallMove s.disp c d client) : Headcount (s.calls d client) := by
  intro T
  refine headcount_of_le h rfl ?_
  rcases hm.room_step T with ⟨hpend, hroom⟩ | hroom
  · have hplace : (s.calls d client).place T ≤ s.place T := place_le hpend
    exact Nat.add_le_add hplace hroom
  · have hone := place_le_one (s.calls d client) T
    have hroom' : room (s.disp.status T) + 1 ≤ room ((s.calls d client).disp.status T) := hroom
    omega

theorem Headcount.client {s : System} {i : Nat} {client client' : Client} {d : Dispatcher}
    (h : Headcount s) (hL : Lifecycle s) (hi : s.clients[i]? = some client)
    (hm : ClientMove s.disp client d client') :
    Headcount { s with disp := d, clients := s.clients.set i client' } := by
  intro T
  cases hm with
  | prepareFailed | prepared | registerFailed | emitPending | admitDone | announce => exact h T
  | @registered kind p prepared order createdAt hacc =>
      by_cases hT : T = s.disp.nextSession
      · subst hT
        -- nobody knows the new session yet
        have hnone : s.attendants s.disp.nextSession = ∅ := by
          refine Finset.eq_empty_of_forall_notMem (fun w hw => ?_)
          obtain ⟨thread, hget, hS, -⟩ := mem_attendants.mp hw
          exact absurd ((hL.session _).known w thread hget hS) (Nat.lt_irrefl _)
        have hst : status (s.disp.registerSession
            (newRecord s.disp.nextSession kind p prepared order createdAt)) s.disp.nextSession =
              some .pending := by
          simp [status, newRecord]
        show (s.attendants s.disp.nextSession).card + _ ≤ room (status _ s.disp.nextSession)
        rw [hnone, Finset.card_empty, Nat.zero_add, hst]
        exact place_le_one _ _
      · refine headcount_of_le h rfl (Nat.add_le_add ?_ (le_of_eq (congrArg room ?_)))
        · exact place_le (fun hq => by simpa [hT] using hq)
        · simp [status, Dict.get?_set_ne _ _ hT]
  | @closePop S =>
      refine headcount_of_le h rfl (Nat.add_le_add (Nat.le_refl _) (le_of_eq ?_))
      by_cases hT : T = S
      · subst hT
        have hover := ((hL.session T).callers (List.mem_of_getElem? hi)).2
        rw [room_over hover, room_over (by simp [status, over_none])]
      · simp [status, Dict.get?_pop_ne _ hT]

/-- A pass gives a session one more worker at most. -/
theorem attendants_launch {s : System} {d : Dispatcher} {launches : List (SessionId × Bool)}
    (hnodup : (launches.map (·.1)).Nodup) (T : SessionId) :
    ((s.launch d launches).attendants T).card ≤ (s.attendants T).card + 1 := by
  by_cases hnew : ∃ w ∈ (s.launch d launches).attendants T, w ∉ s.attendants T
  · obtain ⟨w, hw, hnot⟩ := hnew
    have index : ∀ {w' : WorkerId}, w' ∈ (s.launch d launches).attendants T →
        w' ∉ s.attendants T → s.threads.length ≤ w' ∧ ∃ e,
          launches[w' - s.threads.length]? = some e ∧ e.1 = T := by
      intro w' hw' hnot'
      obtain ⟨thread, hget, hS, ha⟩ := mem_attendants.mp hw'
      rcases launch_threads hget with hold | ⟨hle, e, he, rfl⟩
      · exact absurd (mem_attendants.mpr ⟨thread, hold, hS, ha⟩) hnot'
      · exact ⟨hle, e, he, hS⟩
    have hsub : (s.launch d launches).attendants T ⊆ insert w (s.attendants T) := by
      intro w' hw'
      by_cases hold : w' ∈ s.attendants T
      · exact Finset.mem_insert_of_mem hold
      · obtain ⟨hle, e, he, hS⟩ := index hw hnot
        obtain ⟨hle', e', he', hS'⟩ := index hw' hold
        rw [launch_index hnodup hle' hle he' he (hS'.trans hS.symm)]
        exact Finset.mem_insert_self _ _
    exact (Finset.card_le_card hsub).trans (Finset.card_insert_le _ _)
  · refine (Finset.card_le_card (fun w hw => ?_)).trans (Nat.le_succ _)
    by_contra hnot
    exact hnew ⟨w, hw, hnot⟩

/-- A pass: each session that it launches gives up its place in the queue. -/
theorem Headcount.schedule {s : System} {d : Dispatcher} {launches : List (SessionId × Bool)}
    (h : Headcount s) (hL : Lifecycle s)
    (hm : s.disp.schedule s.threads.length = some (d, launches)) :
    Headcount (s.launch d launches) := by
  rcases schedule_cases hm with ⟨rfl, rfl⟩ | ⟨rfl, -, rfl⟩
  · intro T
    have hcount := h T
    by_cases hT : T ∈ s.disp.pass.selected.map (·.1)
    · -- the session leaves the queue and gets one worker at most
      have hqueued : s.place T = 1 := if_pos ((selected_sublist s.disp).subset hT)
      have hgone : ∀ {t : System}, t.disp.pending =
          s.disp.pending.filter (fun S => S ∉ s.disp.pass.selected.map (·.1)) → t.place T = 0 := by
        intro t ht
        refine if_neg (fun hq => ?_)
        rw [ht] at hq
        exact absurd hT (of_decide_eq_true (List.mem_filter.mp hq).2)
      rw [hqueued] at hcount
      exact (Nat.add_le_add (attendants_launch hL.launchable_nodup T)
        (le_of_eq (hgone rfl))).trans hcount
    · refine le_trans (Nat.add_le_add (Finset.card_le_card (fun w hw => ?_)) (place_le ?_)) hcount
      · obtain ⟨thread, hget, hS, ha⟩ := mem_attendants.mp hw
        rcases launch_threads hget with hold | ⟨-, e, he, rfl⟩
        · exact mem_attendants.mpr ⟨thread, hold, hS, ha⟩
        · refine absurd ?_ hT
          exact (launchable_sublist s.disp).subset
            (List.mem_map.mpr ⟨e, List.mem_of_getElem? he, hS⟩)
      · exact fun hq => (List.mem_filter.mp hq).1
  · intro T
    refine headcount_of_le h ?_ (Nat.le_refl _)
    simp [System.launch]

/-! ## Every run

Once a session is over there is room for one, the worker that ended it.  When
this one leaves, the session is deserted, and no step changes that. -/

/-- Every step keeps the count. -/
theorem Headcount.step {s t : System} {a : Action} (h : Headcount s) (hL : Lifecycle s)
    (hstep : s.step a = some t) : Headcount t := by
  rcases System.step_cases hstep with ⟨c, d, client, -, hm, rfl⟩ |
    ⟨i, choice, client, d, client', -, hi, hm, rfl⟩ |
    ⟨w, choice, thread, d, pc, -, hw, hm, rfl⟩ | ⟨d, launches, -, hm, rfl⟩ | ⟨-, rfl⟩ | ⟨-, rfl⟩
  · exact h.call hm
  · exact h.client hL hi hm
  · exact h.worker hL hw hm
  · exact h.schedule hL hm
  · exact h
  · exact h

/-- Nobody attends anything at the start. -/
theorem Headcount.initial (registry : String → Option WorkflowRegistration) :
    Headcount (System.initial registry) := by
  intro S
  simp [System.initial, System.attendants, System.place]

/-- Two workers of a session that is over are one. -/
theorem Headcount.over_one {s : System} {S : SessionId} (h : Headcount s)
    (hover : Over (s.disp.status S)) {w₁ w₂ : WorkerId} (h₁ : w₁ ∈ s.attendants S)
    (h₂ : w₂ ∈ s.attendants S) : w₁ = w₂ := by
  have hcount := h S
  rw [room_over hover] at hcount
  exact Finset.card_le_one.mp (by omega) w₁ h₁ w₂ h₂

/-- Nobody attends a session that is over, and nobody will. -/
def Deserted (s : System) (S : SessionId) : Prop :=
  Over (s.disp.status S) ∧ s.attendants S = ∅ ∧ S ∉ s.disp.pending

/-- The last worker of a session that is over leaves it deserted. -/
theorem Headcount.deserted {s : System} {d : Dispatcher} {w : WorkerId} {thread : Worker}
    {pc : WorkerPc} (h : Headcount s) (hw : s.threads[w]? = some thread)
    (ha : thread.pc.active = true) (hover : Over (s.disp.status thread.session))
    (hleave : pc.active = false) (hpend : d.pending = s.disp.pending)
    (hstatus : d.status thread.session = s.disp.status thread.session) :
    Deserted (s.advance d w thread pc) thread.session := by
  have hcount := h thread.session
  rw [room_over hover] at hcount
  have hcard := attendants_advance_leave (d := d) hw ha hleave
  have hplace : s.place thread.session = 0 := by omega
  have hnone : ((s.advance d w thread pc).attendants thread.session).card = 0 := by omega
  refine ⟨hstatus ▸ hover, Finset.card_eq_zero.mp hnone, fun hq => ?_⟩
  have hq' : thread.session ∈ s.disp.pending := hpend ▸ hq
  have hone : s.place thread.session = 1 := if_pos hq'
  omega

theorem Deserted.not_attends {s : System} {S : SessionId} (h : Deserted s S) {w : WorkerId}
    {thread : Worker} (hw : s.threads[w]? = some thread) (hS : thread.session = S) :
    thread.pc.active = false := by
  by_contra ha
  have hmem : w ∈ s.attendants S := mem_attendants.mpr ⟨thread, hw, hS, by simpa using ha⟩
  exact absurd hmem (by simp [h.2.1])

/-- No control call is accepted for a session that is over. -/
theorem Dispatcher.CallMove.over_stays {d d' : Dispatcher} {c : Call} {client : Client}
    {T : SessionId} (h : CallMove d c d' client) (hover : Over (d.status T)) :
    d'.status T = d.status T ∧ (T ∈ d'.pending → T ∈ d.pending) := by
  have other : ∀ {S : SessionId} {r : SessionRecord}, d.records.get? S = some r →
      r.state.isTerminal = false → T ≠ S := by
    rintro S r hr hlive rfl
    exact not_over hlive (status_of_record hr ▸ hover)
  cases h with
  | submit | cancelPausing | close => exact ⟨rfl, id⟩
  | pause hr hrun =>
      have hT := other hr (by rw [hrun]; rfl)
      exact ⟨status_moved_ne _ _ _ hT, id⟩
  | resume hr hst =>
      have hT := other hr (by rcases hst with hst | hst <;> rw [hst] <;> rfl)
      exact ⟨status_moved_ne _ _ _ hT, fun hq => by simpa [hT] using hq⟩
  | @cancel S r hr hlive =>
      have hT := other hr hlive
      refine ⟨status_moved_ne _ _ _ hT, fun hq => ?_⟩
      by_cases hcq : cancelQueues r.state = true ∧ S ∉ d.pending
      · simpa [hcq, hT] using hq
      · simpa [hcq] using hq

/-- A session nobody attends stays so. -/
theorem Deserted.step {s t : System} {a : Action} {T : SessionId} (h : Deserted s T)
    (hknown : T < s.disp.nextSession) (hstep : s.step a = some t) :
    Deserted t T := by
  obtain ⟨hover, hnone, hqueue⟩ := h
  have same : ∀ {u : System}, u.threads = s.threads → u.attendants T = ∅ := by
    intro u hu
    rw [← hnone]
    unfold System.attendants
    rw [hu]
  rcases System.step_cases hstep with ⟨c, d, client, -, hm, rfl⟩ |
    ⟨i, choice, client, d, client', -, hi, hm, rfl⟩ |
    ⟨w, choice, thread, d, pc, -, hw, hm, rfl⟩ | ⟨d, launches, -, hm, rfl⟩ | ⟨-, rfl⟩ | ⟨-, rfl⟩
  · obtain ⟨hst, hpend⟩ := hm.over_stays hover
    exact ⟨hst ▸ hover, same rfl, fun hq => hqueue (hpend hq)⟩
  · have hne : T ≠ s.disp.nextSession := Nat.ne_of_lt hknown
    cases hm with
    | prepareFailed | prepared | registerFailed | emitPending | admitDone | announce =>
        exact ⟨hover, same rfl, hqueue⟩
    | registered =>
        refine ⟨?_, same rfl, fun hq => hqueue (by simpa [hne] using hq)⟩
        simpa [status, Dict.get?_set_ne _ _ hne] using hover
    | @closePop S =>
        refine ⟨?_, same rfl, hqueue⟩
        by_cases hS : T = S
        · simp [status, hS, over_none]
        · simpa [status, Dict.get?_pop_ne _ hS] using hover
  · have hsub := attendants_advance_subset (d := d) (T := T) hw hm.active_before
    have hnone' : (s.advance d w thread pc).attendants T = ∅ :=
      Finset.subset_empty.mp (hnone ▸ hsub)
    by_cases hT : T = thread.session
    · subst hT
      have ha : thread.pc.active = false := Deserted.not_attends ⟨hover, hnone, hqueue⟩ hw rfl
      rcases (hm.leaving_step ha).record with ⟨hpend, hst⟩ | ⟨-, hst, -⟩
      · exact ⟨hst ▸ hover, hnone', fun hq => hqueue (hpend ▸ hq)⟩
      · exact absurd (hst ▸ hover) (not_over rfl)
    · refine ⟨(hm.status_ne hT) ▸ hover, hnone', fun hq => hqueue ?_⟩
      have hq' : T ∈ d.pending := hq
      rcases hm.queue_step with heq | ⟨-, -, -, heq⟩ <;> rw [heq] at hq'
      · exact hq'
      · simpa [hT] using hq'
  · rcases schedule_cases hm with ⟨rfl, rfl⟩ | ⟨rfl, -, rfl⟩
    · refine ⟨hover, Finset.eq_empty_of_forall_notMem (fun w hw => ?_),
        fun hq => hqueue (List.mem_filter.mp hq).1⟩
      obtain ⟨thread, hget, hS, ha⟩ := mem_attendants.mp hw
      rcases launch_threads hget with hold | ⟨-, e, he, rfl⟩
      · exact absurd (mem_attendants.mpr ⟨thread, hold, hS, ha⟩) (by simp [hnone])
      · refine hqueue ((selected_sublist s.disp).subset ((launchable_sublist s.disp).subset ?_))
        exact List.mem_map.mpr ⟨e, List.mem_of_getElem? he, hS⟩
    · exact ⟨hover, same (by simp), hqueue⟩
  · exact ⟨hover, same rfl, hqueue⟩
  · exact ⟨hover, same rfl, hqueue⟩

end NamiSync
