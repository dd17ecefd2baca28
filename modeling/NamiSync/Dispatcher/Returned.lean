/-
# `Dispatcher.Returned` — where a lease and a reservation are

An unreleased lease is in one place: with the worker that acquired it and is
about to store it, in `_leases` under that worker's session while the worker
has yet to go through its first `_release_custody`, or in the hands of the
worker that popped it and is about to release it (`Placed`).  No entry of
`_leases` is ever overwritten, since a session that is over has one worker
left at most.

So a worker that settles its session, or ends, has its lease released, unless
another worker of the session stands between the pop and the release
(`returnsLeases`).  When no worker is left, `_leases` and `_reserved` are
empty whatever happened before.

## What is proved

    custody_empty : AnyRun step (initial registry) s → CustodyEmpty s
    custody_returned : Run step ReturnsLeases (initial registry) s →
      LeasesReturned s ∧ CustodyEmpty s

The second half needs no condition.  The first does: `heldSystem` is a run in
which a worker settles while its lease is in the hands of the worker that
paused the session before.

## The argument

`Placed` is the statement that each unreleased lease is in one place
(`LeaseHeld`), that each entry of `_leases` has a keeper (`EntryKept`), and
that a worker about to bring a lease is alone with that (`BringsAlone`).  A
block of a worker is taken apart by whose lease it is: the worker's own
(`held_own`, `alone_own`) or another's (`held_other`, `alone_other`).  What
makes it go through is the headcount: a session that is over has one worker
left at most, so a second lease is never stored over the first.

For `_reserved` the same is simpler (`Booked`): a pass reserves what its
sessions name, and a session comes to its settling transition only through
the block that gives the reservation back.
-/
import NamiSync.Dispatcher.Admission
import NamiSync.Dispatcher.Headcount

namespace NamiSync

open SessionState Dispatcher

/-- The worker has stored its lease, or got none, and has yet to go through a
`_release_custody`. -/
def WorkerPc.keeps : WorkerPc → Bool
  | .opening _ | .toRunning _ | .announceRunning _ _ | .core _ | .work _ | .running _ _ _
  | .snapshot _ _ | .releasePop _ => true
  | _ => false

/-- The worker may be about to bring a lease. -/
def WorkerPc.brings : WorkerPc → Bool
  | .acquire _ | .store _ => true
  | _ => false

/-- The worker has just settled its session, or is past `_worker_done`. -/
def WorkerPc.rid : WorkerPc → Bool
  | .settleEmit _ _ _ | .announceCanceling _ | .ended => true
  | _ => false

/-- A worker has popped a lease that `w` acquired, and not yet released
it. -/
def System.awaitsRelease (s : System) (w : WorkerId) : Bool :=
  s.threads.any (fun thread =>
    match thread.pc.popped with
    | some lease => (s.disp.granted[lease]?).any (fun granted => granted.owner = w)
    | none => false)

/-- No worker settles its session, or ends, while another one stands between
the pop and the release of its lease. -/
def System.returnsLeases (s : System) : Action → Bool
  | .worker w _ =>
      match s.threads[w]? with
      | some ⟨session, _, .settleTransition state _⟩ =>
          !((s.disp.transitionLocked session state).isSome && s.awaitsRelease w)
      | some ⟨_, _, .workerDone⟩ => !s.awaitsRelease w
      | _ => true
  | _ => true

def ReturnsLeases (s : System) (a : Action) : Prop := s.returnsLeases a = true

/-- Every lease the worker acquired has been released. -/
def Returned (s : System) (w : WorkerId) : Prop :=
  ∀ (l : LeaseId) (lease : Lease), s.disp.granted[l]? = some lease → lease.owner = w →
    lease.released = true

/-- A worker that has just made its session's record `PAUSED` or terminal,
and a worker that has ended, have returned their leases. -/
def LeasesReturned (s : System) : Prop :=
  ∀ (w : WorkerId) (thread : Worker), s.threads[w]? = some thread →
    (∃ state result position, thread.pc = .settleEmit state result position) ∨
      thread.pc = .ended → Returned s w

/-- With no live worker, `_leases` and `_reserved` are empty. -/
def CustodyEmpty (s : System) : Prop := NoWorker s → s.disp.custodyReleased = true

/-! ## What a worker's block does to `_leases`

An entry comes with `store`, and goes with the pop of the `finally`. -/

namespace Dispatcher

variable {d d' : Dispatcher} {w : WorkerId} {S T : SessionId} {pc pc' : WorkerPc}

theorem keeps_inactive (hk : pc.keeps = true) (ha : pc.active = false) :
    pc = .releasePop .finish := by
  cases pc with
  | releasePop after =>
      cases after with
      | settle state result => exact absurd ha (by simp [WorkerPc.active, After.settling])
      | finish => rfl
  | opening | toRunning | announceRunning | core | work | running | snapshot =>
      exact absurd ha (by simp [WorkerPc.active])
  | _ => exact absurd hk Bool.false_ne_true

/-- A worker that keeps a lease keeps it up to its `_release_custody`. -/
theorem WorkerMove.keeps_step (h : WorkerMove d w S pc d' pc') (hk : pc.keeps = true) :
    (∃ after, pc = .releasePop after) ∨ pc'.keeps = true := by
  cases h with
  | popLease | popNone => exact Or.inl ⟨_, rfl⟩
  | opened | openError | runningGone | runningCanceling | runningIllegal | toRunning
  | announceRunning | core | coreGone | workCanceled | workPaused | workFailed | workNone
  | enterRun | runEmit | runReturned | runCanceled | runFailed | runPaused | snapshotFailed
  | snapshot => exact Or.inr rfl
  | _ => exact absurd hk Bool.false_ne_true

/-- The three things a block may do to `_leases`. -/
theorem WorkerMove.leases_cases (h : WorkerMove d w S pc d' pc') :
    (d'.leases = d.leases ∧ (∀ after, pc ≠ .releasePop after) ∧ ∀ l, pc ≠ .store l) ∨
      (∃ l, pc = .store l ∧ d'.leases = d.leases.set S l ∧ pc'.keeps = true) ∨
      ∃ after, pc = .releasePop after ∧ d'.leases = d.leases.pop S ∧
        ∀ l, d.leases.get? S = some l → pc'.popped = some l := by
  cases h with
  | storeGone | storeCanceling | storeOpen => exact Or.inr (Or.inl ⟨_, rfl, rfl, rfl⟩)
  | popLease hl =>
      exact Or.inr (Or.inr ⟨_, rfl, rfl, fun l hl' => hl.symm.trans hl'⟩)
  | popNone hl =>
      exact Or.inr (Or.inr ⟨_, rfl, rfl, fun l hl' => absurd (hl.symm.trans hl') (by simp)⟩)
  | _ => exact Or.inl ⟨rfl, by simp, by simp⟩

/-- A worker that may bring a lease has just started, or may have brought one
before. -/
theorem WorkerMove.brings_step (h : WorkerMove d w S pc d' pc') (hb : pc'.brings = true) :
    d'.leases = d.leases ∧ (pc.brings = true ∨ pc = .start ∧ d.status S ≠ some .canceling) := by
  cases h with
  | granted => exact ⟨rfl, Or.inl rfl⟩
  | startAcquire hr hc =>
      refine ⟨rfl, Or.inr ⟨rfl, fun hst => hc ?_⟩⟩
      exact Option.some.inj ((status_of_record hr).symm.trans hst)
  | @settleEmit state result => cases result <;> exact absurd hb Bool.false_ne_true
  | _ => exact absurd hb Bool.false_ne_true

/-- A new lease is in the hands of the worker that acquired it. -/
theorem WorkerMove.new_lease (h : WorkerMove d w S pc d' pc') {b : Lease}
    (hb : d'.granted[d.granted.length]? = some b) : pc' = .store d.granted.length := by
  have none_of_eq : d'.granted.length = d.granted.length → False := by
    intro hlen
    have hlt := (List.getElem?_eq_some_iff.mp hb).1
    omega
  cases h with
  | granted => rfl
  | releaseLease => exact (none_of_eq (by simp [releaseGranted])).elim
  | _ => exact (none_of_eq rfl).elim

theorem WorkerMove.store_step (h : WorkerMove d w S pc d' pc') {l : LeaseId}
    (hl : pc' = .store l) :
    ∃ lease, d'.granted[l]? = some lease ∧ lease.owner = w := by
  cases h with
  | @granted r hg =>
      obtain rfl : d.granted.length = l := by simpa using hl
      exact ⟨_, List.getElem?_concat_length, rfl⟩
  | @settleEmit state result => cases result <;> exact WorkerPc.noConfusion hl
  | _ => exact WorkerPc.noConfusion hl

/-- The worker that popped a lease releases it. -/
theorem WorkerMove.releases (h : WorkerMove d w S pc d' pc') {l : LeaseId}
    (hl : pc.popped = some l) {b : Lease} (hb : d'.granted[l]? = some b) : b.released = true := by
  cases h with
  | @releaseLease lease r after =>
      obtain rfl : lease = l := Option.some.inj hl
      have hb' : (releaseGranted d.granted lease)[lease]? = some b := hb
      rw [releaseGranted, List.getElem?_modify] at hb'
      obtain ⟨a, -, hab⟩ := Option.map_eq_some_iff.mp hb'
      rw [if_pos rfl] at hab
      exact hab ▸ rfl
  | _ => exact absurd hl.symm (Option.some_ne_none l)

end Dispatcher

/-! ## Where the leases are

Every lease that was granted and not released is in `_leases` under its session,
or in the hands of one worker. -/

/-- The owner is about to store the lease, or keeps it in `_leases`; or a
worker has popped it and is about to release it. -/
def LeaseHeld (s : System) (l : LeaseId) (owner : WorkerId) : Prop :=
  (∃ thread, s.threads[owner]? = some thread ∧
    (thread.pc = .store l ∨
      thread.pc.keeps = true ∧ s.disp.leases.get? thread.session = some l)) ∨
  ∃ (w : WorkerId) (thread : Worker), s.threads[w]? = some thread ∧ thread.pc.popped = some l

/-- The entry of `_leases` has an owner that keeps it, and that either still
attends to the session or has left it for good. -/
def EntryKept (s : System) (S : SessionId) (l : LeaseId) : Prop :=
  ∃ (w : WorkerId) (thread : Worker) (lease : Lease), s.threads[w]? = some thread ∧
    thread.session = S ∧ s.disp.granted[l]? = some lease ∧ lease.owner = w ∧
      thread.pc.keeps = true ∧ (thread.pc.active = true ∨ Deserted s S)

/-- No lease is stored for the session, and only `w` may bring one. -/
def BringsAlone (s : System) (w : WorkerId) (S : SessionId) : Prop :=
  s.disp.leases.get? S = none ∧
    ∀ (w' : WorkerId) (thread' : Worker), s.threads[w']? = some thread' →
      thread'.session = S → thread'.pc.brings = true → w' = w

structure Placed (s : System) : Prop where
  place : ∀ (l : LeaseId) (lease : Lease), s.disp.granted[l]? = some lease →
    lease.released = false → LeaseHeld s l lease.owner
  storing : ∀ (w : WorkerId) (thread : Worker) (l : LeaseId), s.threads[w]? = some thread →
    thread.pc = .store l → ∃ lease, s.disp.granted[l]? = some lease ∧ lease.owner = w
  stored : ∀ (S : SessionId) (l : LeaseId), s.disp.leases.get? S = some l → EntryKept s S l
  alone : ∀ (w : WorkerId) (thread : Worker), s.threads[w]? = some thread →
    thread.pc.brings = true → BringsAlone s w thread.session

theorem WorkerPc.brings_active {pc : WorkerPc} (h : pc.brings = true) : pc.active = true := by
  cases pc <;> first | rfl | exact absurd h Bool.false_ne_true

section
variable {s : System} {d : Dispatcher} {w : WorkerId} {thread : Worker} {pc : WorkerPc}

theorem advance_self (hw : s.threads[w]? = some thread) :
    (s.advance d w thread pc).threads[w]? = some { thread with pc := pc } := by
  simp [System.advance, (List.getElem?_eq_some_iff.mp hw).1]

theorem advance_other {w' : WorkerId} {thread' : Worker} (hne : w' ≠ w)
    (hw' : s.threads[w']? = some thread') :
    (s.advance d w thread pc).threads[w']? = some thread' := by
  rw [System.advance, List.getElem?_set_ne (Ne.symm hne)]
  exact hw'

/-- A worker that starts on a session that is not being canceled is its only
active one. -/
theorem starts_alone (hL : Lifecycle s) (hH : Headcount s) (hw : s.threads[w]? = some thread)
    (hpc : thread.pc = .start) (hnc : s.disp.status thread.session ≠ some .canceling)
    {w' : WorkerId} {thread' : Worker} (hw' : s.threads[w']? = some thread')
    (hS : thread'.session = thread.session) (ha : thread'.pc.active = true) : w' = w := by
  have hactive : thread.pc.active = true := by rw [hpc]; rfl
  rcases (hL.session _).working w thread hw rfl hactive with ⟨state, hst, hfit⟩ | ⟨hover, -⟩
  · rw [hpc] at hfit
    have hpending : state = .pending := hfit.resolve_right (fun hc => hnc (hc ▸ hst))
    refine (hL.session _).unique w' w thread' thread hw' hw hS rfl ha hactive (Or.inr ?_)
    rw [hst, hpending]
    rfl
  · exact hH.over_one hover (mem_attendants.mpr ⟨thread', hw', hS, ha⟩)
      (mem_attendants.mpr ⟨thread, hw, rfl, hactive⟩)

/-- A worker that leaves without having settled, with a lease still stored,
leaves its session deserted. -/
theorem leaves_deserted (hL : Lifecycle s) (hH : Headcount s) (hw : s.threads[w]? = some thread)
    (hm : WorkerMove s.disp w thread.session thread.pc d pc) (ha : thread.pc.active = true)
    (hk : pc.keeps = true) (hleave : pc.active = false) :
    Deserted (s.advance d w thread pc) thread.session := by
  rcases (hL.session _).working w thread hw rfl ha with ⟨state, hst, hfit⟩ | ⟨hover, hstale⟩
  · obtain ⟨r, hr, rfl⟩ := status_eq_some.mp hst
    obtain ⟨-, hflags, hitems⟩ := (hL.session _).record r.state hst
    obtain ⟨r', -, -, ⟨hfit', -⟩ | ⟨-, -, result, hpc, -⟩⟩ :=
      (hm.active_step hr hfit hflags (hitems (attended_not_terminal hfit.attended))).record
    · exact absurd hfit'.active (by simp [hleave])
    · exact absurd hk (by simp [hpc, WorkerPc.keeps])
  · have hterm : ∀ r, s.disp.records.get? thread.session = some r → r.state.isTerminal = true :=
      fun r hr => hover r.state (by simp [status_of_record hr])
    obtain ⟨hpend, -, hrec, -⟩ := hm.stale_step hterm hstale
    exact hH.deserted hw ha hover hleave hpend (by simp only [status, hrec])

/-! ### One block of a worker

One lemma for each field of the invariant; within a field the cases are those of
what the block does to the table. -/

/-- The worker's own lease: it is stored, stays stored, or is popped. -/
theorem held_own (hw : s.threads[w]? = some thread)
    (hm : WorkerMove s.disp w thread.session thread.pc d pc) {l : LeaseId}
    (hplace : thread.pc = .store l ∨
      thread.pc.keeps = true ∧ s.disp.leases.get? thread.session = some l) :
    LeaseHeld (s.advance d w thread pc) l w := by
  have stored (hk : pc.keeps = true) (hget : d.leases.get? thread.session = some l) :
      LeaseHeld (s.advance d w thread pc) l w :=
    Or.inl ⟨_, advance_self hw, Or.inr ⟨hk, hget⟩⟩
  rcases hplace with hstore | ⟨hkeeps, hget⟩
  · rcases hm.leases_cases with ⟨-, -, hne⟩ | ⟨l', hpc, hleases, hk⟩ | ⟨after, hpc, -⟩
    · exact absurd hstore (hne l)
    · obtain rfl : l' = l := WorkerPc.store.inj (hpc.symm.trans hstore)
      exact stored hk (by rw [hleases, Dict.get?_set_self])
    · exact absurd (hstore.symm.trans hpc) (by simp)
  · rcases hm.leases_cases with ⟨hleases, hne, -⟩ | ⟨l', hpc, -⟩ | ⟨after, -, -, hpop⟩
    · rcases hm.keeps_step hkeeps with ⟨after, hpc⟩ | hk
      · exact absurd hpc (hne after)
      · exact stored hk (by rw [hleases, hget])
    · exact absurd hkeeps (by simp [hpc, WorkerPc.keeps])
    · exact Or.inr ⟨w, _, advance_self hw, hpop l hget⟩

/-- The entry of another worker stays, or this worker pops it. -/
theorem Placed.held_other (h : Placed s) (hw : s.threads[w]? = some thread)
    (hm : WorkerMove s.disp w thread.session thread.pc d pc) {l : LeaseId} {owner : WorkerId}
    {thread₀ : Worker} (hne : owner ≠ w) (hw₀ : s.threads[owner]? = some thread₀)
    (hkeeps : thread₀.pc.keeps = true) (hget : s.disp.leases.get? thread₀.session = some l) :
    LeaseHeld (s.advance d w thread pc) l owner := by
  have stays (hget' : d.leases.get? thread₀.session = some l) :
      LeaseHeld (s.advance d w thread pc) l owner :=
    Or.inl ⟨thread₀, advance_other hne hw₀, Or.inr ⟨hkeeps, hget'⟩⟩
  rcases hm.leases_cases with ⟨hleases, -⟩ | ⟨l', hpc, hleases, -⟩ | ⟨after, -, hleases, hpop⟩
  · exact stays (hleases ▸ hget)
  · have hother : thread₀.session ≠ thread.session := by
      intro hS
      have hnone := (h.alone w thread hw (by rw [hpc]; rfl)).1
      exact absurd (hS ▸ hget) (by simp [hnone])
    exact stays (by rw [hleases, Dict.get?_set_ne _ _ hother, hget])
  · by_cases hS : thread₀.session = thread.session
    · exact Or.inr ⟨w, _, advance_self hw, hpop l (hS ▸ hget)⟩
    · exact stays (by rw [hleases, Dict.get?_pop_ne _ hS, hget])

/-- An unreleased lease: it is an old one, of the worker or of another, or the
block has brought it. -/
theorem Placed.held_worker (h : Placed s) (hw : s.threads[w]? = some thread)
    (hm : WorkerMove s.disp w thread.session thread.pc d pc) {l : LeaseId} {lease : Lease}
    (hlease : d.granted[l]? = some lease) (hun : lease.released = false) :
    LeaseHeld (s.advance d w thread pc) l lease.owner := by
  rcases hm.granted_back hlease with ⟨old, hold, hown, -, hmono, -⟩ | ⟨rfl, -, hown, -⟩
  · have hun' : old.released = false := by
      by_contra hrel
      exact absurd (hmono (by simpa using hrel)) (by simp [hun])
    rw [← hown]
    rcases h.place l old hold hun' with ⟨thread₀, hw₀, hplace⟩ | ⟨w₀, thread₀, hw₀, hpop⟩
    · by_cases hww : old.owner = w
      · rw [hww] at hw₀ ⊢
        obtain rfl : thread = thread₀ := Option.some.inj (hw.symm.trans hw₀)
        exact held_own hw hm hplace
      · rcases hplace with hstore | ⟨hkeeps, hget⟩
        · exact Or.inl ⟨thread₀, advance_other hww hw₀, Or.inl hstore⟩
        · exact h.held_other hw hm hww hw₀ hkeeps hget
    · by_cases hww : w₀ = w
      · subst hww
        obtain rfl : thread = thread₀ := Option.some.inj (hw.symm.trans hw₀)
        exact absurd (hm.releases hpop hlease) (by simp [hun])
      · exact Or.inr ⟨w₀, thread₀, advance_other hww hw₀, hpop⟩
  · rw [hown]
    exact Or.inl ⟨_, advance_self hw, Or.inl (hm.new_lease hlease)⟩

theorem Placed.storing_worker (h : Placed s)
    (hm : WorkerMove s.disp w thread.session thread.pc d pc) {w' : WorkerId} {thread' : Worker}
    {l : LeaseId} (hw' : (s.advance d w thread pc).threads[w']? = some thread')
    (hpc : thread'.pc = .store l) : ∃ lease, d.granted[l]? = some lease ∧ lease.owner = w' := by
  rcases advance_threads hw' with ⟨rfl, rfl⟩ | ⟨-, hold⟩
  · exact hm.store_step hpc
  · obtain ⟨lease, hlease, hown⟩ := h.storing w' thread' l hold hpc
    obtain ⟨lease', hlease', hown', -⟩ := hm.granted_forth hlease
    exact ⟨lease', hlease', hown'.trans hown⟩

/-- An entry that the block leaves alone: its keeper may leave by it, and then
the session is deserted. -/
theorem Placed.entry_left (h : Placed s) (hL : Lifecycle s) (hH : Headcount s)
    (hw : s.threads[w]? = some thread)
    (hm : WorkerMove s.disp w thread.session thread.pc d pc)
    (hdeserted : ∀ T, T < s.disp.nextSession → Deserted s T →
      Deserted (s.advance d w thread pc) T) {S : SessionId} {l : LeaseId}
    (hget : s.disp.leases.get? S = some l)
    (hne : S = thread.session → ∀ after, thread.pc ≠ .releasePop after) :
    EntryKept (s.advance d w thread pc) S l := by
  obtain ⟨w₀, thread₀, lease, hw₀, rfl, hlease, hown, hk, hact⟩ := h.stored S l hget
  obtain ⟨lease', hlease', hown', -⟩ := hm.granted_forth hlease
  by_cases hww : w₀ = w
  · subst hww
    obtain rfl : thread = thread₀ := Option.some.inj (hw.symm.trans hw₀)
    have hk' : pc.keeps = true := by
      rcases hm.keeps_step hk with ⟨after, hpc⟩ | hk'
      · exact absurd hpc (hne rfl after)
      · exact hk'
    refine ⟨w₀, _, lease', advance_self hw, rfl, hlease', hown'.trans hown, hk', ?_⟩
    cases ha : pc.active with
    | true => exact Or.inl rfl
    | false =>
        have hactive : thread.pc.active = true := by
          by_contra hcon
          exact hne rfl .finish (keeps_inactive hk (by simpa using hcon))
        exact Or.inr (leaves_deserted hL hH hw hm hactive hk' ha)
  · refine ⟨w₀, thread₀, lease', advance_other hww hw₀, rfl, hlease', hown'.trans hown, hk, ?_⟩
    exact hact.imp_right (hdeserted _ ((hL.session _).known w₀ thread₀ hw₀ rfl))

/-- An entry after the block: the worker's new one, or one that was there. -/
theorem Placed.entry_worker (h : Placed s) (hL : Lifecycle s) (hH : Headcount s)
    (hw : s.threads[w]? = some thread)
    (hm : WorkerMove s.disp w thread.session thread.pc d pc)
    (hdeserted : ∀ T, T < s.disp.nextSession → Deserted s T →
      Deserted (s.advance d w thread pc) T) {S : SessionId} {l : LeaseId}
    (hget : d.leases.get? S = some l) : EntryKept (s.advance d w thread pc) S l := by
  have old (hget' : s.disp.leases.get? S = some l)
      (hne : S = thread.session → ∀ after, thread.pc ≠ .releasePop after) :
      EntryKept (s.advance d w thread pc) S l := h.entry_left hL hH hw hm hdeserted hget' hne
  rcases hm.leases_cases with ⟨hleases, hne, -⟩ | ⟨l', hpc, hleases, hk⟩ | ⟨after, hpc, hleases, -⟩
  · exact old (hleases ▸ hget) (fun _ => hne)
  · rw [hleases, Dict.get?_set] at hget
    split at hget
    · next hS =>
        subst hS
        obtain rfl := Option.some.inj hget
        obtain ⟨lease, hlease, hown⟩ := h.storing w thread l' hw hpc
        obtain ⟨lease', hlease', hown', -⟩ := hm.granted_forth hlease
        refine ⟨w, _, lease', advance_self hw, rfl, hlease', hown'.trans hown, hk, ?_⟩
        cases ha : pc.active with
        | true => exact Or.inl rfl
        | false => exact Or.inr (leaves_deserted hL hH hw hm (by rw [hpc]; rfl) hk ha)
    · next hS => exact old hget (fun heq => absurd heq hS)
  · rw [hleases, Dict.get?_pop] at hget
    split at hget
    · exact absurd hget (by simp)
    · next hS => exact old hget (fun heq => absurd heq hS)

/-- A worker that starts on a session that is not being canceled finds no
lease stored for it. -/
theorem Placed.starts_bare (h : Placed s) (hL : Lifecycle s) (hH : Headcount s)
    (hw : s.threads[w]? = some thread) (hstart : thread.pc = .start)
    (hnc : s.disp.status thread.session ≠ some .canceling) :
    s.disp.leases.get? thread.session = none := by
  by_contra hsome
  obtain ⟨l, hget⟩ := Option.ne_none_iff_exists'.mp hsome
  obtain ⟨w₀, thread₀, -, hw₀, hS₀, -, -, hk, hact | hdes⟩ := h.stored _ l hget
  · obtain rfl := starts_alone hL hH hw hstart hnc hw₀ hS₀ hact
    obtain rfl : thread = thread₀ := Option.some.inj (hw.symm.trans hw₀)
    exact absurd hk (by simp [hstart, WorkerPc.keeps])
  · exact absurd (hdes.not_attends hw rfl) (by simp [hstart, WorkerPc.active])

/-- The worker of the block, if it may bring a lease. -/
theorem Placed.alone_own (h : Placed s) (hL : Lifecycle s) (hH : Headcount s)
    (hw : s.threads[w]? = some thread)
    (hm : WorkerMove s.disp w thread.session thread.pc d pc) (hb : pc.brings = true) :
    BringsAlone (s.advance d w thread pc) w thread.session := by
  obtain ⟨hleases, hbefore⟩ := hm.brings_step hb
  show d.leases.get? thread.session = none ∧ _
  rw [hleases]
  rcases hbefore with hb₀ | ⟨hstart, hnc⟩
  · obtain ⟨hnone, halone⟩ := h.alone w thread hw hb₀
    refine ⟨hnone, fun w'' thread'' hw'' hS hb'' => ?_⟩
    rcases advance_threads hw'' with ⟨rfl, -⟩ | ⟨-, hold''⟩
    · rfl
    · exact halone w'' thread'' hold'' hS hb''
  · refine ⟨h.starts_bare hL hH hw hstart hnc, fun w'' thread'' hw'' hS hb'' => ?_⟩
    rcases advance_threads hw'' with ⟨rfl, -⟩ | ⟨-, hold''⟩
    · rfl
    · exact starts_alone hL hH hw hstart hnc hold'' hS (WorkerPc.brings_active hb'')

/-- Another worker that may bring a lease: the block stores none for its
session, and this worker is not about to bring one. -/
theorem Placed.alone_other (h : Placed s) (hL : Lifecycle s) (hH : Headcount s)
    (hw : s.threads[w]? = some thread)
    (hm : WorkerMove s.disp w thread.session thread.pc d pc) {w' : WorkerId} {thread' : Worker}
    (hne : w' ≠ w) (hw' : s.threads[w']? = some thread') (hb : thread'.pc.brings = true) :
    BringsAlone (s.advance d w thread pc) w' thread'.session := by
  obtain ⟨hnone, halone⟩ := h.alone w' thread' hw' hb
  refine ⟨?_, fun w'' thread'' hw'' hS hb'' => ?_⟩
  · show d.leases.get? thread'.session = none
    rcases hm.leases_cases with ⟨hleases, -⟩ | ⟨l, hpc, hleases, -⟩ | ⟨after, -, hleases, -⟩
    · rw [hleases]
      exact hnone
    · have hother : thread'.session ≠ thread.session := fun hS =>
        hne (halone w thread hw hS.symm (by rw [hpc]; rfl)).symm
      rw [hleases, Dict.get?_set_ne _ _ hother]
      exact hnone
    · rw [hleases, Dict.get?_pop]
      split
      · rfl
      · exact hnone
  · rcases advance_threads hw'' with ⟨rfl, rfl⟩ | ⟨-, hold''⟩
    · rcases (hm.brings_step hb'').2 with hb₀ | ⟨hstart, hnc⟩
      · exact halone w'' thread hw hS hb₀
      · exact (starts_alone hL hH hw hstart hnc hw' hS.symm (WorkerPc.brings_active hb)).symm
    · exact halone w'' thread'' hold'' hS hb''

theorem Placed.worker (h : Placed s) (hL : Lifecycle s) (hH : Headcount s)
    (hw : s.threads[w]? = some thread)
    (hm : WorkerMove s.disp w thread.session thread.pc d pc)
    (hdeserted : ∀ T, T < s.disp.nextSession → Deserted s T →
      Deserted (s.advance d w thread pc) T) :
    Placed (s.advance d w thread pc) where
  place _ _ := h.held_worker hw hm
  storing _ _ _ := h.storing_worker hm
  stored _ _ := h.entry_worker hL hH hw hm hdeserted
  alone w' thread' hw' hb := by
    rcases advance_threads hw' with ⟨rfl, rfl⟩ | ⟨hne, hold⟩
    · exact h.alone_own hL hH hw hm hb
    · exact h.alone_other hL hH hw hm hne hold hb

/-- A step that launches workers at most. -/
theorem Placed.keep {t : System} (h : Placed s)
    (hback : ∀ (w : WorkerId) (thread : Worker), t.threads[w]? = some thread →
      s.threads[w]? = some thread ∨ thread.pc = .start)
    (hforth : ∀ (w : WorkerId) (thread : Worker), s.threads[w]? = some thread →
      t.threads[w]? = some thread)
    (hgranted : t.disp.granted = s.disp.granted) (hleases : t.disp.leases = s.disp.leases)
    (hdeserted : ∀ (w : WorkerId) (thread : Worker), s.threads[w]? = some thread →
      Deserted s thread.session → Deserted t thread.session) : Placed t := by
  have old : ∀ {w : WorkerId} {thread : Worker}, t.threads[w]? = some thread →
      thread.pc ≠ .start → s.threads[w]? = some thread :=
    fun hw hne => (hback _ _ hw).resolve_right hne
  have brings_ne : ∀ {thread : Worker}, thread.pc.brings = true → thread.pc ≠ .start := by
    intro thread hb hpc
    exact absurd hb (by simp [hpc, WorkerPc.brings])
  refine ⟨fun l lease hlease hun => ?_, fun w thread l hw hpc => ?_, fun S l hget => ?_,
    fun w thread hw hb => ?_⟩
  · unfold LeaseHeld
    rw [hleases]
    rcases h.place l lease (hgranted ▸ hlease) hun with ⟨thread, hw, hp⟩ | ⟨w, thread, hw, hp⟩
    · exact Or.inl ⟨thread, hforth _ _ hw, hp⟩
    · exact Or.inr ⟨w, thread, hforth _ _ hw, hp⟩
  · rw [hgranted]
    exact h.storing w thread l (old hw (by simp [hpc])) hpc
  · unfold EntryKept
    rw [hgranted]
    obtain ⟨w, thread, lease, hw, rfl, hlease, hown, hk, hact⟩ := h.stored S l (hleases ▸ hget)
    exact ⟨w, thread, lease, hforth _ _ hw, rfl, hlease, hown, hk,
      hact.imp_right (hdeserted w thread hw)⟩
  · unfold BringsAlone
    rw [hleases]
    obtain ⟨hnone, halone⟩ := h.alone w thread (old hw (brings_ne hb)) hb
    exact ⟨hnone, fun w' thread' hw' hS hb' => halone w' thread' (old hw' (brings_ne hb')) hS hb'⟩

theorem Placed.step {t : System} {a : Action} (h : Placed s) (hL : Lifecycle s)
    (hH : Headcount s) (hstep : s.step a = some t) : Placed t := by
  have hdeserted : ∀ (w : WorkerId) (thread : Worker), s.threads[w]? = some thread →
      Deserted s thread.session → Deserted t thread.session :=
    fun w thread hw hdes => hdes.step ((hL.session _).known w thread hw rfl) hstep
  have hall : ∀ T, T < s.disp.nextSession → Deserted s T → Deserted t T :=
    fun T hT hdes => hdes.step hT hstep
  rcases System.step_cases hstep with ⟨c, d, client, -, hm, rfl⟩ |
    ⟨i, choice, client, d, client', -, hi, hm, rfl⟩ |
    ⟨w, choice, thread, d, pc, -, hw, hm, rfl⟩ | ⟨d, launches, -, hm, rfl⟩ | ⟨-, rfl⟩ | ⟨-, rfl⟩
  · exact h.keep (fun _ _ hw => Or.inl hw) (fun _ _ hw => hw) hm.granted_eq.1 hm.granted_eq.2
      hdeserted
  · have hsame : d.granted = s.disp.granted ∧ d.leases = s.disp.leases := by
      cases hm <;> exact ⟨rfl, rfl⟩
    exact h.keep (fun _ _ hw => Or.inl hw) (fun _ _ hw => hw) hsame.1 hsame.2 hdeserted
  · exact h.worker hL hH hw hm hall
  · have hsame : d.granted = s.disp.granted ∧ d.leases = s.disp.leases := by
      rcases schedule_cases hm with ⟨-, rfl⟩ | ⟨-, -, rfl⟩ <;> exact ⟨rfl, rfl⟩
    refine h.keep (fun w thread hw => ?_) (fun _ _ hw => launch_old hw) hsame.1 hsame.2 hdeserted
    rcases launch_threads hw with hold | ⟨-, e, -, rfl⟩
    · exact Or.inl hold
    · exact Or.inr rfl
  · exact h.keep (fun _ _ hw => Or.inl hw) (fun _ _ hw => hw) rfl rfl hdeserted
  · exact h.keep (fun _ _ hw => Or.inl hw) (fun _ _ hw => hw) rfl rfl hdeserted

theorem Placed.initial (registry : String → Option WorkflowRegistration) :
    Placed (System.initial registry) where
  place l lease hlease := absurd hlease (by simp [System.initial])
  storing w thread l hw := absurd hw (by simp [System.initial])
  stored S l hget := absurd hget (by simp [System.initial])
  alone w thread hw := absurd hw (by simp [System.initial])

/-! ## Workers return their leases

A worker that ends has given its lease back, if its `finally` found it. -/

/-- A worker that has settled or ended stays rid of its leases. -/
def Cleared (s : System) : Prop :=
  ∀ (w : WorkerId) (thread : Worker), s.threads[w]? = some thread → thread.pc.rid = true →
    Returned s w

theorem awaitsRelease_eq_true {w w' : WorkerId} {thread : Worker} {l : LeaseId} {lease : Lease}
    (hw : s.threads[w']? = some thread) (hpop : thread.pc.popped = some l)
    (hlease : s.disp.granted[l]? = some lease) (hown : lease.owner = w) :
    s.awaitsRelease w = true := by
  refine List.any_eq_true.mpr ⟨thread, List.mem_of_getElem? hw, ?_⟩
  simp [hpop, hlease, hown]

/-- A worker that keeps nothing, with nobody about to release a lease of it,
has returned all its leases. -/
theorem Placed.returned (h : Placed s) (hw : s.threads[w]? = some thread)
    (hstore : ∀ l, thread.pc ≠ .store l) (hkeeps : thread.pc.keeps = false)
    (hawaits : s.awaitsRelease w = false) : Returned s w := by
  intro l lease hlease hown
  by_contra hun
  rcases h.place l lease hlease (by simpa using hun) with
    ⟨thread', hw', hp⟩ | ⟨w', thread', hw', hp⟩
  · rw [hown] at hw'
    obtain rfl : thread = thread' := Option.some.inj (hw.symm.trans hw')
    rcases hp with hpc | ⟨hk, -⟩
    · exact hstore l hpc
    · exact absurd hk (by simp [hkeeps])
  · exact absurd (awaitsRelease_eq_true hw' hp hlease hown) (by simp [hawaits])

/-- A returned lease stays returned, and only its own acquire gives a worker
another. -/
theorem Returned.advance {w' : WorkerId} (h : Returned s w')
    (hm : WorkerMove s.disp w thread.session thread.pc d pc)
    (hacq : w' = w → thread.pc.acquiring = none) : Returned (s.advance d w thread pc) w' := by
  intro l b hb hown
  rcases hm.granted_back hb with ⟨a, ha, hown', -, hmono, -⟩ | ⟨-, -, howner, -, r, hr, -⟩
  · exact hmono (h l a ha (hown'.trans hown))
  · exact absurd hr (by simp [hacq (hown.symm.trans howner)])

/-- The blocks after which a worker is rid of its leases. -/
theorem Dispatcher.WorkerMove.rid_step {S : SessionId} {pc₀ : WorkerPc} {d₀ : Dispatcher}
    (h : WorkerMove d₀ w S pc₀ d pc) (hr : pc.rid = true) :
    (∃ state result, pc₀ = .settleTransition state result ∧
        (d₀.transitionLocked S state).isSome = true) ∨
      pc₀ = .workerDone ∨ pc₀.rid = true := by
  cases h with
  | settle hrec hlegal => exact Or.inl ⟨_, _, rfl, by simp [transitionLocked, hrec, hlegal]⟩
  | done | doneCanceling => exact Or.inr (Or.inl rfl)
  | announceCanceling => exact Or.inr (Or.inr rfl)
  | @settleEmit state result => exact Or.inr (Or.inr rfl)
  | _ => exact absurd hr Bool.false_ne_true

theorem Cleared.worker (h : Cleared s) (hP : Placed s) (hw : s.threads[w]? = some thread)
    (hm : WorkerMove s.disp w thread.session thread.pc d pc)
    (hguard : (∃ state result, thread.pc = .settleTransition state result ∧
        (s.disp.transitionLocked thread.session state).isSome = true) ∨
      thread.pc = .workerDone → s.awaitsRelease w = false) :
    Cleared (s.advance d w thread pc) := by
  intro w' thread' hw' hrid
  rcases advance_threads hw' with ⟨rfl, rfl⟩ | ⟨hne, hold⟩
  · rcases hm.rid_step hrid with ⟨state, result, hpc, hlegal⟩ | hpc | hrid'
    · have hawaits := hguard (Or.inl ⟨state, result, hpc, hlegal⟩)
      exact (hP.returned hw (by simp [hpc]) (by simp [hpc, WorkerPc.keeps]) hawaits).advance hm
        (fun _ => by simp [hpc, WorkerPc.acquiring])
    · have hawaits := hguard (Or.inr hpc)
      exact (hP.returned hw (by simp [hpc]) (by simp [hpc, WorkerPc.keeps]) hawaits).advance hm
        (fun _ => by simp [hpc, WorkerPc.acquiring])
    · refine (h w' thread hw hrid').advance hm (fun _ => ?_)
      cases hpc : thread.pc with
      | acquire r => exact absurd hrid' (by simp [hpc, WorkerPc.rid])
      | _ => rfl
  · exact (h w' thread' hold hrid).advance hm (fun heq => absurd heq hne)

theorem Cleared.keep {t : System} (h : Cleared s)
    (hback : ∀ (w : WorkerId) (thread : Worker), t.threads[w]? = some thread →
      s.threads[w]? = some thread ∨ thread.pc = .start)
    (hgranted : t.disp.granted = s.disp.granted) : Cleared t := by
  intro w thread hw hrid l lease hlease
  have hold := (hback w thread hw).resolve_right
    (fun hpc => absurd hrid (by simp [hpc, WorkerPc.rid]))
  exact h w thread hold hrid l lease (hgranted ▸ hlease)

theorem Cleared.step {t : System} {a : Action} (h : Cleared s) (hP : Placed s)
    (hguard : ReturnsLeases s a) (hstep : s.step a = some t) : Cleared t := by
  rcases System.step_cases hstep with ⟨c, d, client, -, hm, rfl⟩ |
    ⟨i, choice, client, d, client', -, hi, hm, rfl⟩ |
    ⟨w, choice, thread, d, pc, rfl, hw, hm, rfl⟩ | ⟨d, launches, -, hm, rfl⟩ | ⟨-, rfl⟩ | ⟨-, rfl⟩
  · exact h.keep (fun _ _ hw => Or.inl hw) hm.granted_eq.1
  · refine h.keep (fun _ _ hw => Or.inl hw) ?_
    cases hm <;> rfl
  · refine h.worker hP hw hm (fun hpc => ?_)
    obtain ⟨session, admitted, pc₀⟩ := thread
    rcases hpc with ⟨state, result, rfl, hlegal⟩ | rfl
    · simpa [ReturnsLeases, System.returnsLeases, hw, hlegal] using hguard
    · simpa [ReturnsLeases, System.returnsLeases, hw] using hguard
  · refine h.keep (fun w thread hw => ?_) ?_
    · rcases launch_threads hw with hold | ⟨-, e, -, rfl⟩
      · exact Or.inl hold
      · exact Or.inr rfl
    · rcases schedule_cases hm with ⟨-, rfl⟩ | ⟨-, -, rfl⟩ <;> rfl
  · exact h.keep (fun _ _ hw => Or.inl hw) rfl
  · exact h.keep (fun _ _ hw => Or.inl hw) rfl

end

/-! ## Where the reservations are

The same for what is reserved: a resource is reserved for a session that has not
settled yet, or for a worker that has still to release it. -/

/-- The record whose resources a worker is about to give back. -/
def WorkerPc.released : WorkerPc → Option (Option SessionRecord)
  | .releaseLease _ record _ | .releaseReserved record _ => some record
  | _ => none

namespace Dispatcher

section
variable {records : Dict SessionId SessionRecord} {start : Pass}

theorem foldl_selected_mem (queue : List SessionId) (start : Pass) {e : SessionId × Bool}
    (h : e ∈ start.selected) : e ∈ (queue.foldl (Pass.visit records) start).selected := by
  induction queue generalizing start with
  | nil => exact h
  | cons S queue ih =>
      refine ih _ ?_
      rcases visit_cases records start S with ⟨-, heq⟩ | ⟨r, -, -, heq⟩ | ⟨r, -, -, heq⟩ <;>
        rw [heq]
      · exact List.mem_append_left _ h
      · exact h
      · exact List.mem_append_left _ h

/-- A pass reserves only what the sessions it admits name. -/
theorem foldl_reserved_cases (queue : List SessionId) (start : Pass) {ρ : ResourceId}
    (h : ρ ∈ (queue.foldl (Pass.visit records) start).reserved) :
    ρ ∈ start.reserved ∨ ∃ S r, Waiting records S r ∧ S ∈ queue ∧ ρ ∈ r.resources ∧
      (S, true) ∈ (queue.foldl (Pass.visit records) start).selected := by
  induction queue generalizing start with
  | nil => exact Or.inl h
  | cons S queue ih =>
      rcases ih (Pass.visit records start S) h with hmem | ⟨S', r, hwait, hS', hρ, hsel⟩
      · rcases visit_cases records start S with ⟨-, heq⟩ | ⟨r, -, -, heq⟩ | ⟨r, hwait, -, heq⟩
        · rw [heq] at hmem
          exact Or.inl hmem
        · rw [heq] at hmem
          exact Or.inl hmem
        · have hsel : (S, true) ∈ (Pass.visit records start S).selected := by
            rw [heq]
            exact List.mem_append_right _ (List.mem_singleton.mpr rfl)
          rw [heq] at hmem
          rcases Finset.mem_union.mp hmem with hold | hnew
          · exact Or.inl hold
          · exact Or.inr ⟨S, r, hwait, List.mem_cons_self, hnew, foldl_selected_mem queue _ hsel⟩
      · exact Or.inr ⟨S', r, hwait, List.mem_cons_of_mem _ hS', hρ, hsel⟩

end

variable {d d' : Dispatcher} {w : WorkerId} {S T : SessionId} {pc pc' : WorkerPc}

theorem pass_reserved_cases {ρ : ResourceId} (h : ρ ∈ d.pass.reserved) :
    ρ ∈ d.reserved ∨ ∃ S r, Waiting d.records S r ∧ S ∈ d.pending ∧ ρ ∈ r.resources ∧
      S ∈ d.admitted := by
  rcases foldl_reserved_cases d.pending { reserved := d.reserved } h with hold |
    ⟨S, r, hwait, hS, hρ, hsel⟩
  · exact Or.inl hold
  · refine Or.inr ⟨S, r, hwait, hS, hρ, List.mem_map.mpr ⟨(S, true), ?_, rfl⟩⟩
    refine List.mem_filter.mpr ⟨List.mem_filter.mpr ⟨hsel, ?_⟩, rfl⟩
    simp [hwait.1]

/-- No block takes a record away, or the resources it names. -/
theorem WorkerMove.resources_forth (h : WorkerMove d w S pc d' pc') {r : SessionRecord}
    (hr : d.records.get? T = some r) :
    ∃ r', d'.records.get? T = some r' ∧ r'.resources = r.resources := by
  have set : ∀ {r₀ r₁ : SessionRecord}, d.records.get? S = some r₀ →
      r₁.resources = r₀.resources →
        ∃ r', (d.records.set S r₁).get? T = some r' ∧ r'.resources = r.resources := by
    intro r₀ r₁ h₀ hres
    rw [Dict.get?_set]
    split
    · next hT =>
        subst hT
        obtain rfl : r = r₀ := Option.some.inj (hr.symm.trans h₀)
        exact ⟨r₁, rfl, hres⟩
    · exact ⟨r, hr, rfl⟩
  cases h with
  | toRunning h₀ | settle h₀ | doneCanceling h₀ | snapshot h₀ => exact set h₀ rfl
  | publish h₀ hu => exact set h₀ (SessionRecord.withResult_eq_some hu).2.1
  | _ => exact ⟨r, hr, rfl⟩

theorem WorkerMove.released_step (h : WorkerMove d w S pc d' pc') {record : Option SessionRecord}
    (hr : pc'.released = some record) :
    pc.released = some record ∨ record = d.records.get? S := by
  cases h with
  | popLease | popNone => exact Or.inr (Option.some.inj hr).symm
  | releaseLease => exact Or.inl hr
  | @settleEmit state result => cases result <;> exact absurd hr.symm (Option.some_ne_none _)
  | _ => exact absurd hr.symm (Option.some_ne_none _)

/-- An admission ends only in the settling transition. -/
theorem WorkerMove.unsettled_forth (h : WorkerMove d w S pc d' pc') (hT : T ∈ d.unsettled) :
    T ∈ d'.unsettled ∨ T = S ∧ ∃ state result, pc = .settleTransition state result := by
  cases h with
  | @settle state result r hr hlegal =>
      by_cases hTS : T = S
      · exact Or.inr ⟨hTS, _, _, rfl⟩
      · left
        simp only [moved_unsettled]
        split
        · exact List.mem_filter.mpr ⟨hT, by simpa using hTS⟩
        · exact hT
  | _ => exact Or.inl hT

/-- A worker comes to the settling transition by giving its reservation
back. -/
theorem WorkerMove.settling_step (h : WorkerMove d w S pc d' pc') {state : SessionState}
    {result : Option OperationResult} (hpc : pc' = .settleTransition state result) :
    ∃ record after, pc = .releaseReserved record after ∧
      d'.reserved = d.reserved \ recordResources record := by
  cases h with
  | releaseSettle => exact ⟨_, _, rfl, rfl⟩
  | @settleEmit state result => cases result <;> exact WorkerPc.noConfusion hpc
  | _ => exact WorkerPc.noConfusion hpc

end Dispatcher

/-- Each reserved resource is named by a session that was admitted and has
neither settled nor been about to. -/
structure Booked (s : System) : Prop where
  live : ∀ S ∈ s.disp.unsettled, ∃ state, s.disp.status S = some state ∧ settles state = false
  named : ∀ ρ ∈ s.disp.reserved, ∃ S ∈ s.disp.unsettled, ∃ r,
    s.disp.records.get? S = some r ∧ ρ ∈ r.resources ∧ ¬ Releasing s S
  attended : ∀ S ∈ s.disp.unsettled, HasWorker s S
  released : ∀ (w : WorkerId) (thread : Worker) (record : Option SessionRecord),
    s.threads[w]? = some thread → thread.pc.released = some record →
      ∀ r', s.disp.records.get? thread.session = some r' →
        ∃ r, record = some r ∧ r.resources = r'.resources

theorem not_settles_live {state : SessionState} (h : settles state = false) :
    state.isTerminal = false := by
  revert h
  cases state <;> decide

section
variable {s : System} {d : Dispatcher} {w : WorkerId} {thread : Worker} {pc : WorkerPc}

theorem Booked.worker (h : Booked s) (hL : Lifecycle s) (hw : s.threads[w]? = some thread)
    (hm : WorkerMove s.disp w thread.session thread.pc d pc) :
    Booked (s.advance d w thread pc) := by
  have hlive : ∀ S ∈ d.unsettled, ∃ state, d.status S = some state ∧ settles state = false := by
    intro S hS
    obtain ⟨hold, hst | hst⟩ := hm.unsettled_step hS
    · obtain ⟨state, hs, hns⟩ := h.live S hold
      exact ⟨state, hst.trans hs, hns⟩
    · exact hst
  refine ⟨hlive, fun ρ hρ => ?_, fun S hS => ?_, fun w' thread' record hw' hrel r' hr' => ?_⟩
  · have hρ' : ρ ∈ d.reserved := hρ
    have hold : ρ ∈ s.disp.reserved := by
      rcases hm.reserved_step with heq | ⟨r, after, -, heq, -⟩ <;> rw [heq] at hρ'
      · exact hρ'
      · exact (Finset.mem_sdiff.mp hρ').1
    obtain ⟨S, hS, r, hr, hmem, hnot⟩ := h.named ρ hold
    obtain ⟨r', hr', hres⟩ := hm.resources_forth hr
    refine ⟨S, ?_, r', hr', hres ▸ hmem, ?_⟩
    · rcases hm.unsettled_forth hS with hS' | ⟨rfl, state, result, hpc⟩
      · exact hS'
      · exact absurd ⟨w, thread, state, result, hw, rfl, hpc⟩ hnot
    · rintro ⟨w', thread', state, result, hw', hS', hpc'⟩
      rcases advance_threads hw' with ⟨rfl, rfl⟩ | ⟨-, hold'⟩
      · -- the worker has just given back what its session names
        subst hS'
        obtain ⟨record, after, hpc, heq⟩ := hm.settling_step hpc'
        obtain ⟨r₁, rfl, hres₁⟩ := h.released w' thread record hw (by rw [hpc]; rfl) r hr
        rw [heq] at hρ'
        exact (Finset.mem_sdiff.mp hρ').2 (by rw [recordResources, hres₁]; exact hmem)
      · exact hnot ⟨w', thread', state, result, hold', hS', hpc'⟩
  · obtain ⟨hold, -⟩ := hm.unsettled_step hS
    by_cases hself : S = thread.session ∧ thread.pc.active = true
    · obtain ⟨rfl, ha⟩ := hself
      cases hactive : pc.active with
      | true => exact hasWorker_advance_self hw hactive
      | false =>
          obtain ⟨st, hst, hns⟩ := h.live _ hold
          have hfit := Attends.fits (hst ▸ (hL.session _).working w thread hw rfl ha)
            (not_settles_live hns)
          obtain ⟨r, hr, rfl⟩ := status_eq_some.mp hst
          obtain ⟨-, hflags, hitems⟩ := (hL.session _).record r.state hst
          obtain ⟨r', hr', -, ⟨hfit', -⟩ | ⟨hsettles, -⟩⟩ :=
            (hm.active_step hr hfit hflags (hitems (not_settles_live hns))).record
          · exact absurd hfit'.active (by simp [hactive])
          · obtain ⟨st', hst', hns'⟩ := hlive _ hS
            obtain rfl : r'.state = st' :=
              Option.some.inj ((status_of_record hr').symm.trans hst')
            exact absurd hsettles (by simp [hns'])
    · refine hasWorker_advance hw (h.attended S hold) (fun heq => ?_)
      by_contra hcon
      exact hself ⟨heq, by simpa using hcon⟩
  · obtain ⟨r, hr, hres⟩ := hm.resources_step hr'
    rcases advance_threads hw' with ⟨rfl, rfl⟩ | ⟨-, hold⟩
    · rcases hm.released_step hrel with hrel' | rfl
      · obtain ⟨r₁, hrec, hres₁⟩ := h.released w' thread record hw hrel' r hr
        exact ⟨r₁, hrec, hres₁.trans hres⟩
      · exact ⟨r, hr, hres⟩
    · obtain ⟨r₁, hrec, hres₁⟩ := h.released w' thread' record hold hrel r hr
      exact ⟨r₁, hrec, hres₁.trans hres⟩

/-- A caller neither admits nor releases. -/
theorem Booked.keep {t : System} (h : Booked s) (hthreads : t.threads = s.threads)
    (hreserved : t.disp.reserved = s.disp.reserved)
    (hunsettled : t.disp.unsettled = s.disp.unsettled)
    (hstatus : ∀ S ∈ s.disp.unsettled, t.disp.status S = s.disp.status S ∨
      ∃ state, t.disp.status S = some state ∧ settles state = false)
    (hforth : ∀ S ∈ s.disp.unsettled, ∀ r, s.disp.records.get? S = some r →
      ∃ r', t.disp.records.get? S = some r' ∧ r'.resources = r.resources)
    (hback : ∀ (w : WorkerId) (thread : Worker) (r' : SessionRecord),
      s.threads[w]? = some thread → t.disp.records.get? thread.session = some r' →
        ∃ r, s.disp.records.get? thread.session = some r ∧ r.resources = r'.resources) :
    Booked t := by
  refine ⟨fun S hS => ?_, fun ρ hρ => ?_, fun S hS => ?_, fun w thread record hw hrel r' hr' => ?_⟩
  · rw [hunsettled] at hS
    rcases hstatus S hS with heq | hst
    · obtain ⟨state, hst, hns⟩ := h.live S hS
      exact ⟨state, heq.trans hst, hns⟩
    · exact hst
  · obtain ⟨S, hS, r, hr, hmem, hnot⟩ := h.named ρ (hreserved ▸ hρ)
    obtain ⟨r', hr', hres⟩ := hforth S hS r hr
    refine ⟨S, hunsettled ▸ hS, r', hr', hres ▸ hmem, fun hrel => hnot ?_⟩
    unfold Releasing at hrel ⊢
    rwa [hthreads] at hrel
  · obtain ⟨w, thread, hw, hrest⟩ := h.attended S (hunsettled ▸ hS)
    exact ⟨w, thread, hthreads ▸ hw, hrest⟩
  · rw [hthreads] at hw
    obtain ⟨r, hr, hres⟩ := hback w thread r' hw hr'
    obtain ⟨r₁, hrec, hres₁⟩ := h.released w thread record hw hrel r hr
    exact ⟨r₁, hrec, hres₁.trans hres⟩

theorem Booked.call {c : Call} {client : Client} (h : Booked s)
    (hm : CallMove s.disp c d client) : Booked (s.calls d client) := by
  have hsame : d.reserved = s.disp.reserved ∧ d.unsettled = s.disp.unsettled := by
    cases hm <;> exact ⟨rfl, rfl⟩
  refine h.keep rfl hsame.1 hsame.2 (fun S hS => ?_) (fun S _ r hr => ?_)
    (fun _ _ _ _ hr => hm.resources_step hr)
  · exact (hm.unsettled_step (hsame.2 ▸ hS)).2
  · have moved : ∀ {T : SessionId} {r₀ : SessionRecord} (state : SessionState),
        s.disp.records.get? T = some r₀ →
          ∃ r', (s.disp.records.set T (r₀.moveTo state s.disp.now)).get? S = some r' ∧
            r'.resources = r.resources := by
      intro T r₀ state h₀
      rw [Dict.get?_set]
      split
      · next hS =>
          subst hS
          obtain rfl : r = r₀ := Option.some.inj (hr.symm.trans h₀)
          exact ⟨_, rfl, rfl⟩
      · exact ⟨r, hr, rfl⟩
    cases hm with
    | submit | cancelPausing | close => exact ⟨r, hr, rfl⟩
    | pause h₀ | resume h₀ | cancel h₀ => exact moved _ h₀

theorem Booked.client {i : Nat} {client client' : Client} (h : Booked s) (hL : Lifecycle s)
    (hi : s.clients[i]? = some client) (hm : ClientMove s.disp client d client') :
    Booked { s with disp := d, clients := s.clients.set i client' } := by
  -- an admitted session is neither new nor over
  have known : ∀ {T : SessionId}, T ∈ s.disp.unsettled →
      T ≠ s.disp.nextSession ∧ ¬ Over (s.disp.status T) := by
    intro T hT
    obtain ⟨state, hst, hns⟩ := h.live T hT
    exact ⟨Nat.ne_of_lt ((hL.session T).record state hst).1, hst ▸ not_over (not_settles_live hns)⟩
  cases hm with
  | prepareFailed | prepared | registerFailed | emitPending | admitDone | announce =>
      exact h.keep rfl rfl rfl (fun _ _ => Or.inl rfl) (fun _ _ r hr => ⟨r, hr, rfl⟩)
        (fun _ _ r' _ hr => ⟨r', hr, rfl⟩)
  | registered =>
      refine h.keep rfl rfl rfl (fun T hT => Or.inl ?_) (fun T hT r hr => ⟨r, ?_, rfl⟩)
        (fun w thread r' hw hr => ⟨r', ?_, rfl⟩)
      · simp [status, Dict.get?_set_ne _ _ (known hT).1]
      · simpa [Dict.get?_set_ne _ _ (known hT).1] using hr
      · have hne : thread.session ≠ s.disp.nextSession :=
          Nat.ne_of_lt ((hL.session _).known w thread hw rfl)
        simpa [Dict.get?_set_ne _ _ hne] using hr
  | @closePop S =>
      have hover := ((hL.session S).callers (List.mem_of_getElem? hi)).2
      have hne : ∀ {T : SessionId}, T ∈ s.disp.unsettled → T ≠ S :=
        fun hT heq => (known hT).2 (heq ▸ hover)
      refine h.keep rfl rfl rfl (fun T hT => Or.inl ?_) (fun T hT r hr => ⟨r, ?_, rfl⟩)
        (fun w thread r' hw hr => ⟨r', ?_, rfl⟩)
      · simp [status, Dict.get?_pop_ne _ (hne hT)]
      · simpa [Dict.get?_pop_ne _ (hne hT)] using hr
      · have hpop : (s.disp.records.pop S).get? thread.session = some r' := hr
        rw [Dict.get?_pop] at hpop
        split at hpop
        · exact absurd hpop (by simp)
        · exact hpop

theorem Booked.schedule {launches : List (SessionId × Bool)} (h : Booked s) (hL : Lifecycle s)
    (hm : s.disp.schedule s.threads.length = some (d, launches)) :
    Booked (s.launch d launches) := by
  have released : ∀ (w : WorkerId) (thread : Worker) (record : Option SessionRecord),
      (s.launch d launches).threads[w]? = some thread → thread.pc.released = some record →
        ∀ r', s.disp.records.get? thread.session = some r' →
          ∃ r, record = some r ∧ r.resources = r'.resources := by
    intro w thread record hw hrel
    rcases launch_threads hw with hold | ⟨-, e, -, rfl⟩
    · exact h.released w thread record hold hrel
    · exact absurd hrel.symm (Option.some_ne_none _)
  have unreleasing : ∀ {S : SessionId}, ¬ Releasing s S → ¬ Releasing (s.launch d launches) S := by
    rintro S hnot ⟨w, thread, state, result, hw, hS, hpc⟩
    rcases launch_threads hw with hold | ⟨-, e, -, rfl⟩
    · exact hnot ⟨w, thread, state, result, hold, hS, hpc⟩
    · exact WorkerPc.noConfusion hpc
  rcases schedule_cases hm with ⟨rfl, rfl⟩ | ⟨rfl, -, rfl⟩
  · refine ⟨fun S hS => ?_, fun ρ hρ => ?_, fun S hS => ?_, released⟩
    · rcases List.mem_append.mp hS with hold | hnew
      · exact h.live S hold
      · obtain ⟨-, r, ⟨hr, hp⟩, -⟩ := admitted_cases hnew
        exact ⟨.pending, hp ▸ status_of_record hr, rfl⟩
    · rcases pass_reserved_cases hρ with hold | ⟨S, r, ⟨hr, hp⟩, hq, hmem, hadm⟩
      · obtain ⟨S, hS, r, hr, hmem, hnot⟩ := h.named ρ hold
        exact ⟨S, List.mem_append_left _ hS, r, hr, hmem, unreleasing hnot⟩
      · refine ⟨S, List.mem_append_right _ hadm, r, hr, hmem, unreleasing ?_⟩
        -- a pending session in the queue has no active worker
        rintro ⟨w, thread, state, result, hw, hS, hpc⟩
        exact ((hL.session S).idle hq w thread hw hS (by rw [hpc]; rfl)).2
          (hp ▸ status_of_record hr)
    · rcases List.mem_append.mp hS with hold | hnew
      · exact (h.attended S hold).launch
      · obtain ⟨hsel, r, ⟨hr, -⟩, -⟩ := admitted_cases hnew
        exact launched_hasWorker (List.mem_map.mpr ⟨_, hsel, rfl⟩) (by simp [hr])
  · exact ⟨h.live, fun ρ hρ => (h.named ρ hρ).imp (fun S hS => ⟨hS.1, hS.2.imp (fun r hr =>
      ⟨hr.1, hr.2.1, unreleasing hr.2.2⟩)⟩), fun S hS => (h.attended S hS).launch, released⟩

theorem Booked.step {t : System} {a : Action} (h : Booked s) (hL : Lifecycle s)
    (hstep : s.step a = some t) : Booked t := by
  rcases System.step_cases hstep with ⟨c, d, client, -, hm, rfl⟩ |
    ⟨i, choice, client, d, client', -, hi, hm, rfl⟩ |
    ⟨w, choice, thread, d, pc, -, hw, hm, rfl⟩ | ⟨d, launches, -, hm, rfl⟩ | ⟨-, rfl⟩ | ⟨-, rfl⟩
  · exact h.call hm
  · exact h.client hL hi hm
  · exact h.worker hL hw hm
  · exact h.schedule hL hm
  · exact { h with }
  · exact { h with }

end

theorem Booked.initial (registry : String → Option WorkflowRegistration) :
    Booked (System.initial registry) where
  live S hS := absurd hS (by simp [System.initial])
  named ρ hρ := absurd hρ (by simp [System.initial])
  attended S hS := absurd hS (by simp [System.initial])
  released w thread record hw := absurd hw (by simp [System.initial])

/-! ## Every run

When all have ended, nothing is left of either. -/

/-- With no worker left, nothing is stored and nothing is reserved. -/
theorem custodyEmpty {s : System} (hP : Placed s) (hB : Booked s) : CustodyEmpty s := by
  intro hnone
  have hleases : ∀ S, s.disp.leases.get? S = none := by
    intro S
    by_contra hsome
    obtain ⟨l, hget⟩ := Option.ne_none_iff_exists'.mp hsome
    obtain ⟨w, thread, -, hw, -, -, -, hk, -⟩ := hP.stored S l hget
    have hended := hnone w thread hw
    cases hpc : thread.pc <;> simp [hpc, WorkerPc.live, WorkerPc.keeps] at hended hk
  have hreserved : s.disp.reserved = ∅ := by
    refine Finset.eq_empty_of_forall_notMem (fun ρ hρ => ?_)
    obtain ⟨S, hS, -⟩ := hB.named ρ hρ
    obtain ⟨w, thread, hw, -, ha⟩ := hB.attended S hS
    exact absurd (WorkerPc.active_live ha) (by simp [hnone w thread hw])
  simp [custodyReleased, Dict.isEmpty_of_get? hleases, hreserved]

theorem Placed.run {P : System → Action → Prop} {registry : String → Option WorkflowRegistration}
    {s : System} (h : Transition.Run System.step P (System.initial registry) s) :
    Lifecycle s ∧ Headcount s ∧ Placed s ∧ Booked s :=
  h.invariant (I := fun s => Lifecycle s ∧ Headcount s ∧ Placed s ∧ Booked s)
    (fun _ _ _ hI _ hstep => ⟨hI.1.step hstep, hI.2.1.step hI.1 hstep,
      hI.2.2.1.step hI.1 hI.2.1 hstep, hI.2.2.2.step hI.1 hstep⟩)
    ⟨Lifecycle.initial registry, Headcount.initial registry, Placed.initial registry,
      Booked.initial registry⟩

/-- In every run, a dispatcher without workers has given up its custody. -/
theorem custody_empty {registry : String → Option WorkflowRegistration} {s : System}
    (h : Transition.AnyRun System.step (System.initial registry) s) : CustodyEmpty s := by
  obtain ⟨-, -, hP, hB⟩ := Placed.run h
  exact custodyEmpty hP hB

/-- Along every run in which no worker settles or ends while another one is
about to release its lease, custody never leaks. -/
theorem custody_returned {registry : String → Option WorkflowRegistration} {s : System}
    (h : Transition.Run System.step ReturnsLeases (System.initial registry) s) :
    LeasesReturned s ∧ CustodyEmpty s := by
  have hall : (Lifecycle s ∧ Headcount s ∧ Placed s ∧ Booked s) ∧ Cleared s :=
    h.invariant (I := fun s => (Lifecycle s ∧ Headcount s ∧ Placed s ∧ Booked s) ∧ Cleared s)
      (fun _ _ _ hI hP hstep => ⟨⟨hI.1.1.step hstep, hI.1.2.1.step hI.1.1 hstep,
        hI.1.2.2.1.step hI.1.1 hI.1.2.1 hstep, hI.1.2.2.2.step hI.1.1 hstep⟩,
        hI.2.step hI.1.2.2.1 hP hstep⟩)
      ⟨Placed.run (P := ReturnsLeases) (.refl _),
        fun w thread hw => absurd hw (by simp [System.initial])⟩
  obtain ⟨⟨-, -, hP, hB⟩, hC⟩ := hall
  refine ⟨fun w thread hw hpc => hC w thread hw ?_, custodyEmpty hP hB⟩
  rcases hpc with ⟨state, result, position, hpc⟩ | hpc <;> rw [hpc] <;> rfl

/-- A paused session whose worker has ended is resumed and completes. -/
def returnedSystem : System :=
  Transition.outcome System.step System.returnsLeases (System.initial pausableRegistry)
    (resumedRun ++ completedRun 1 2 ++ Script.blocks 1 5)

theorem custody_returned_completed :
    (returnedSystem.threads.map (·.pc.live) = [false, false] ∧
      returnedSystem.disp.granted.map (·.released) = [true, true]) ∧
      LeasesReturned returnedSystem ∧ CustodyEmpty returnedSystem :=
  ⟨by decide, custody_returned (Transition.outcome_run (fun _ _ h => h) _ _)⟩

/-- The session is resumed and runs again before the worker that paused it
reaches its `finally`.  There that worker pops the new lease, and before it
releases it the second worker settles the session. -/
def heldSystem : System :=
  Transition.outcome System.step (fun _ _ => true) (System.initial pausableRegistry)
    (pausedRun ++ Script.control 2 (.resume 0) ++ [.schedule] ++ Script.enterRun 1 ++
      Script.blocks 0 1 ++ [.worker 1 (.runEnd (.returned { status := .completed }))] ++
      Script.blocks 1 3)

/-- Thread 1 has just settled its session, and its lease is not released. -/
def System.settledHolding (s : System) : Bool :=
  (s.threads[1]?.any fun thread =>
    match thread.pc with
    | .settleEmit _ _ _ => true
    | _ => false) &&
    s.disp.granted[1]?.any fun lease => lease.owner = 1 && !lease.released

theorem held_lease :
    Transition.AnyRun System.step (System.initial pausableRegistry) heldSystem ∧
      heldSystem.disp.status 0 = some .completed ∧ ¬ LeasesReturned heldSystem := by
  refine ⟨Transition.outcome_run (fun _ _ _ => trivial) _ _, by decide, fun h => ?_⟩
  have hheld : heldSystem.settledHolding = true := by decide
  simp only [System.settledHolding, Bool.and_eq_true, Option.any_eq_true] at hheld
  obtain ⟨⟨thread, hw, hpc⟩, lease, hlease, hown, hrel⟩ := hheld
  have hsettled : ∃ state result position, thread.pc = .settleEmit state result position := by
    cases heq : thread.pc <;> simp [heq] at hpc ⊢
  have hreturned := h 1 thread hw (Or.inl hsettled) 1 lease hlease (by simpa using hown)
  exact absurd hrel (by simp [hreturned])

end NamiSync
