/-
# `Dispatcher.Custody` — a run keeps the lease it was given

`_release_custody` pops `_leases[session_id]`, whoever put the lease there.
A paused session can be resumed while the worker that paused it has its
`finally` still to go through; that worker then pops the lease of the
resumed run.  The invariant below holds along the runs in which no block
does so (`keepsLeases`), and `overtaken_run` is a run with one that does.

The lease a worker holds is its own, names its session's resources, and is
released only if the worker can no longer enter its run (`Spent`).  Together
with the provider's promise, that unreleased leases are disjoint, this gives
mutual exclusion.

## What is proved

    custody_exclusive : Run step KeepsLeases (initial registry) s →
      RunsUnderLease s ∧ RunsExclusive s

in both parts: two workers inside `invocation.run` are there for different
sessions whose resources are disjoint, and a worker inside its run holds an
unreleased lease on its session's resources.

## The condition

`keepsLeases` looks at the state before the step: the step is not the pop of a
lease in `_release_custody` that another worker still needs for its run.  It
does not say that runs are exclusive, nor that leases are held; it excludes
one kind of block.  `overtaken_run` is a run that has such a block, and there
both parts fail.

## The argument

`Custody` carries, for every worker with a lease in its program counter, that
the lease is its own, names its session's resources and is unreleased or
`Spent`.  A spent lease stays spent because a worker whose session is being
canceled does not pass the checkpoint in front of its run
(`Dispatcher.Stages`).  Disjointness is the provider's: `grantable` is tested
in the block that grants.
-/
import NamiSync.Dispatcher.Lifecycle

namespace NamiSync

open SessionState Dispatcher

/-- The lease under which a worker is going to run, or runs. -/
def WorkerPc.lease : WorkerPc → Option LeaseId
  | .store lease | .opening lease | .toRunning lease | .announceRunning lease _
  | .running lease _ _ => some lease
  | .core job | .work job => job.invocation
  | _ => none

/-- The lease a worker has popped and is about to release. -/
def WorkerPc.popped : WorkerPc → Option LeaseId
  | .releaseLease lease _ _ => some lease
  | _ => none

/-- The record a worker acquires its lease for. -/
def WorkerPc.acquiring : WorkerPc → Option SessionRecord
  | .acquire record => some record
  | _ => none

/-- Some worker is in its run under the lease, or can still enter it: its
session's cancel flag is down. -/
def System.needed (s : System) (lease : LeaseId) : Bool :=
  s.threads.any (fun thread => thread.pc.lease = some lease &&
    (thread.pc.inRun || !(s.disp.controls thread.session).cancel))

/-- The step is not a `_release_custody` that pops a lease some worker still
needs. -/
def System.keepsLeases (s : System) : Action → Bool
  | .worker w _ =>
      match s.threads[w]? with
      | some ⟨session, _, .releasePop _⟩ =>
          match s.disp.leases.get? session with
          | some lease => !s.needed lease
          | none => true
      | _ => true
  | _ => true

/-! ## What a worker's block does to leases

Where a lease is granted, stored, taken out again and released. -/

theorem WorkerPc.lease_active {pc : WorkerPc} {lease : LeaseId} (h : pc.lease = some lease) :
    pc.active = true := by
  cases pc <;> first | rfl | exact absurd h.symm (Option.some_ne_none lease)

theorem WorkerPc.inRun_lease {pc : WorkerPc} (h : pc.inRun = true) :
    ∃ lease, pc.lease = some lease := by
  cases pc <;> first | exact ⟨_, rfl⟩ | exact absurd h Bool.false_ne_true

namespace Dispatcher.WorkerMove

variable {d d' : Dispatcher} {w : WorkerId} {S T : SessionId} {pc pc' : WorkerPc}

/-- Only the grant of a lease makes a worker hold one. -/
theorem lease_step (h : WorkerMove d w S pc d' pc') {lease : LeaseId}
    (hl : pc'.lease = some lease) :
    pc.lease = some lease ∨ ∃ r, pc.acquiring = some r ∧ lease = d.granted.length ∧
      d'.granted = d.granted ++ [{ owner := w, resources := r.resources }] := by
  cases h with
  | @granted r => exact Or.inr ⟨r, rfl, (Option.some.inj hl).symm, rfl⟩
  | storeOpen | opened | toRunning | announceRunning | core | runEmit => exact Or.inl hl
  | enterRun hc hf hi => exact Or.inl (hi.trans hl)
  | @settleEmit state result =>
      cases result <;> exact absurd hl.symm (Option.some_ne_none lease)
  | _ => exact absurd hl.symm (Option.some_ne_none lease)

theorem granted_step (h : WorkerMove d w S pc d' pc') :
    d'.granted = d.granted ∨
      (∃ r, pc = .acquire r ∧ d.grantable r.resources = true ∧
        d'.granted = d.granted ++ [{ owner := w, resources := r.resources }]) ∨
      ∃ lease r after, pc = .releaseLease lease r after ∧
        d'.granted = releaseGranted d.granted lease := by
  cases h with
  | granted hg => exact Or.inr (Or.inl ⟨_, rfl, hg, rfl⟩)
  | releaseLease => exact Or.inr (Or.inr ⟨_, _, _, rfl, rfl⟩)
  | _ => exact Or.inl rfl

theorem leases_step (h : WorkerMove d w S pc d' pc') {lease : LeaseId}
    (hl : d'.leases.get? T = some lease) :
    d.leases.get? T = some lease ∨ pc.lease = some lease := by
  have set_cases : ∀ {l : LeaseId}, (d.leases.set S l).get? T = some lease →
      d.leases.get? T = some lease ∨ l = lease := by
    intro l hset
    rw [Dict.get?_set] at hset
    split at hset
    · exact Or.inr (Option.some.inj hset)
    · exact Or.inl hset
  cases h with
  | storeGone | storeCanceling | storeOpen =>
      exact (set_cases hl).imp_right (fun heq => congrArg some heq)
  | popLease | popNone =>
      have hpop : (d.leases.pop S).get? T = some lease := hl
      rw [Dict.get?_pop] at hpop
      split at hpop
      · exact absurd hpop (by simp)
      · exact Or.inl hpop
  | _ => exact Or.inl hl

/-- A worker has a lease to release only after it popped it. -/
theorem popped_step (h : WorkerMove d w S pc d' pc') {lease : LeaseId}
    (hl : pc'.popped = some lease) :
    d.leases.get? S = some lease ∧ d'.granted = d.granted ∧ ∃ after, pc = .releasePop after := by
  cases h with
  | popLease hget => exact ⟨hget.trans hl, rfl, _, rfl⟩
  | @settleEmit state result => cases result <;> exact absurd hl.symm (Option.some_ne_none lease)
  | _ => exact absurd hl.symm (Option.some_ne_none lease)

/-- The record a worker acquires for is the current one. -/
theorem acquiring_step (h : WorkerMove d w S pc d' pc') {r : SessionRecord}
    (hr : pc'.acquiring = some r) : d.records.get? S = some r := by
  cases h with
  | startAcquire hget => exact hget.trans hr
  | @settleEmit state result => cases result <;> exact absurd hr.symm (Option.some_ne_none r)
  | _ => exact absurd hr.symm (Option.some_ne_none r)

/-- A lease keeps its owner and its resources; it is released only by a
worker that popped it. -/
theorem granted_back (h : WorkerMove d w S pc d' pc') {l : LeaseId} {b : Lease}
    (hb : d'.granted[l]? = some b) :
    (∃ a, d.granted[l]? = some a ∧ a.owner = b.owner ∧ a.resources = b.resources ∧
        (a.released = true → b.released = true) ∧
        (b.released = true → a.released = true ∨ pc.popped = some l)) ∨
      l = d.granted.length ∧ b.released = false ∧ b.owner = w ∧
        d.grantable b.resources = true ∧
          ∃ r, pc.acquiring = some r ∧ r.resources = b.resources := by
  rcases h.granted_step with heq | ⟨r, rfl, hg, heq⟩ | ⟨lease, r, after, rfl, heq⟩
  · exact Or.inl ⟨b, heq ▸ hb, rfl, rfl, id, Or.inl⟩
  · rw [heq, List.getElem?_append] at hb
    split at hb
    · exact Or.inl ⟨b, hb, rfl, rfl, id, Or.inl⟩
    · next hlt =>
        have hl : l = d.granted.length := by
          have hsome := (List.getElem?_eq_some_iff.mp hb).1
          simp only [List.length_singleton] at hsome
          have hle : d.granted.length ≤ l := Nat.le_of_not_lt hlt
          exact Nat.le_antisymm (by exact Nat.le_of_sub_eq_zero (Nat.lt_one_iff.mp hsome)) hle
        rw [hl, Nat.sub_self] at hb
        obtain rfl := Option.some.inj hb
        exact Or.inr ⟨hl, rfl, rfl, hg, r, rfl, rfl⟩
  · rw [heq, releaseGranted, List.getElem?_modify] at hb
    obtain ⟨a, ha, hab⟩ := Option.map_eq_some_iff.mp hb
    refine Or.inl ⟨a, ha, ?_⟩
    split at hab
    · next hl =>
        subst hab
        exact ⟨rfl, rfl, fun _ => rfl, fun _ => Or.inr (congrArg some hl)⟩
    · subst hab
      exact ⟨rfl, rfl, id, Or.inl⟩

theorem granted_forth (h : WorkerMove d w S pc d' pc') {l : LeaseId} {a : Lease}
    (ha : d.granted[l]? = some a) :
    ∃ b, d'.granted[l]? = some b ∧ b.owner = a.owner ∧ b.resources = a.resources := by
  have hlt := (List.getElem?_eq_some_iff.mp ha).1
  rcases h.granted_step with heq | ⟨r, -, -, heq⟩ | ⟨lease, r, after, -, heq⟩
  · exact ⟨a, heq ▸ ha, rfl, rfl⟩
  · exact ⟨a, by rw [heq, List.getElem?_append_left hlt, ha], rfl, rfl⟩
  · refine ⟨if lease = l then { a with released := true } else a, ?_, ?_⟩
    · rw [heq, releaseGranted, List.getElem?_modify, ha]
      rfl
    · split <;> exact ⟨rfl, rfl⟩

end Dispatcher.WorkerMove

/-! ## The invariant

A worker that needs its lease has it, and no lease is with two workers. -/

/-- No worker can use the lease any more. -/
def Spent (s : System) (lease : LeaseId) : Prop :=
  ∀ (w : WorkerId) (thread : Worker), s.threads[w]? = some thread →
    thread.pc.lease = some lease →
      thread.pc.inRun = false ∧ (s.disp.controls thread.session).cancel = true

theorem spent_of_not_needed {s : System} {lease : LeaseId} (h : s.needed lease = false) :
    Spent s lease := by
  intro w thread hw hl
  have hall := List.any_eq_false.mp h thread (List.mem_of_getElem? hw)
  simpa [hl] using hall

structure Custody (s : System) : Prop where
  held : ∀ (w : WorkerId) (thread : Worker) (l : LeaseId), s.threads[w]? = some thread →
    thread.pc.lease = some l → ∃ lease, s.disp.granted[l]? = some lease ∧ lease.owner = w ∧
      ∀ r, s.disp.records.get? thread.session = some r → r.resources = lease.resources
  spent : ∀ (l : LeaseId) (lease : Lease), s.disp.granted[l]? = some lease →
    lease.released = true → Spent s l
  popped : ∀ (w : WorkerId) (thread : Worker) (l : LeaseId), s.threads[w]? = some thread →
    thread.pc.popped = some l → l < s.disp.granted.length ∧ Spent s l
  stored : ∀ (S : SessionId) (l : LeaseId), s.disp.leases.get? S = some l →
    l < s.disp.granted.length
  acquiring : ∀ (w : WorkerId) (thread : Worker) (r : SessionRecord),
    s.threads[w]? = some thread → thread.pc.acquiring = some r →
      ∀ r', s.disp.records.get? thread.session = some r' → r'.resources = r.resources
  disjoint : ∀ (i j : LeaseId) (a b : Lease), s.disp.granted[i]? = some a →
    s.disp.granted[j]? = some b → i ≠ j → a.released = false → b.released = false →
      Disjoint a.resources b.resources

/-- The lease is not the next one to be granted. -/
theorem Custody.held_lt {s : System} (h : Custody s) {w : WorkerId} {thread : Worker}
    {l : LeaseId} (hw : s.threads[w]? = some thread) (hl : thread.pc.lease = some l) :
    l < s.disp.granted.length := by
  obtain ⟨lease, hlease, -⟩ := h.held w thread l hw hl
  exact (List.getElem?_eq_some_iff.mp hlease).1

section
variable {s : System} {d : Dispatcher} {w : WorkerId} {thread : Worker} {pc : WorkerPc}

/-- A spent lease stays spent: a worker that is being canceled does not pass
the checkpoint in front of its run. -/
theorem Spent.advance {l : LeaseId} (h : Spent s l) (hl : l < s.disp.granted.length)
    (hw : s.threads[w]? = some thread)
    (hm : WorkerMove s.disp w thread.session thread.pc d pc) :
    Spent (s.advance d w thread pc) l := by
  intro w' thread' hw' hl'
  show thread'.pc.inRun = false ∧ (d.controls thread'.session).cancel = true
  rw [hm.controls_eq]
  rcases advance_threads hw' with ⟨rfl, rfl⟩ | ⟨-, hold⟩
  · rcases hm.lease_step hl' with hold | ⟨r, -, hnew⟩
    · obtain ⟨hrun, hcan⟩ := h w' thread hw hold
      refine ⟨?_, hcan⟩
      by_contra hrun'
      rcases hm.inRun_step (by simpa using hrun') with hr | hc
      · exact absurd hr (by simp [hrun])
      · exact absurd hcan (by simp [hc])
    · exact absurd hl (by simp [hnew])
  · exact h w' thread' hold hl'

/-- One block of a worker that takes no needed lease away. -/
theorem Custody.worker (h : Custody s) (hw : s.threads[w]? = some thread)
    (hm : WorkerMove s.disp w thread.session thread.pc d pc)
    (hkeep : ∀ after, thread.pc = .releasePop after → ∀ l,
      s.disp.leases.get? thread.session = some l → Spent s l) :
    Custody (s.advance d w thread pc) := by
  have resources : ∀ {T : SessionId} {res : Finset ResourceId},
      (∀ r, s.disp.records.get? T = some r → r.resources = res) →
        ∀ r, d.records.get? T = some r → r.resources = res := by
    intro T res hres r' hr'
    obtain ⟨r, hr, heq⟩ := hm.resources_step hr'
    exact heq ▸ hres r hr
  have length_le : s.disp.granted.length ≤ d.granted.length := by
    rcases hm.granted_step with heq | ⟨r, -, -, heq⟩ | ⟨lease, r, after, -, heq⟩
    · rw [heq]
    · simp [heq]
    · simp [heq, releaseGranted]
  refine ⟨?held, ?spent, ?popped, ?stored, ?acquiring, ?disjoint⟩
  case held =>
    intro w' thread' l hw' hl
    have kept : ∀ {old : Worker}, s.threads[w']? = some old → old.session = thread'.session →
        old.pc.lease = some l → ∃ lease, d.granted[l]? = some lease ∧ lease.owner = w' ∧
          ∀ r, d.records.get? thread'.session = some r → r.resources = lease.resources := by
      intro old hold hS hlo
      obtain ⟨lease, hlease, hown, hres⟩ := h.held w' old l hold hlo
      obtain ⟨lease', hlease', hown', hres'⟩ := hm.granted_forth hlease
      exact ⟨lease', hlease', hown'.trans hown, resources (hres' ▸ hS ▸ hres)⟩
    rcases advance_threads hw' with ⟨rfl, rfl⟩ | ⟨-, hold⟩
    · rcases hm.lease_step hl with hlo | ⟨r, hacq, rfl, heq⟩
      · exact kept hw rfl hlo
      · refine ⟨_, by rw [System.advance, heq]; exact List.getElem?_concat_length, rfl, ?_⟩
        exact resources (h.acquiring w' thread r hw hacq)
    · exact kept hold rfl hl
  case spent =>
    intro l lease hlease hrel
    rcases hm.granted_back hlease with ⟨a, ha, -, -, -, hrel'⟩ | ⟨-, hnot, -⟩
    · have hlt := (List.getElem?_eq_some_iff.mp ha).1
      rcases hrel' hrel with hold | hpop
      · exact (h.spent l a ha hold).advance hlt hw hm
      · exact (h.popped w thread l hw hpop).2.advance hlt hw hm
    · exact absurd hrel (by simp [hnot])
  case popped =>
    intro w' thread' l hw' hl
    rcases advance_threads hw' with ⟨rfl, rfl⟩ | ⟨-, hold⟩
    · obtain ⟨hget, -, after, hpc⟩ := hm.popped_step hl
      have hlt := h.stored _ _ hget
      exact ⟨hlt.trans_le length_le, (hkeep after hpc l hget).advance hlt hw hm⟩
    · obtain ⟨hlt, hsp⟩ := h.popped w' thread' l hold hl
      exact ⟨hlt.trans_le length_le, hsp.advance hlt hw hm⟩
  case stored =>
    intro T l hget
    rcases hm.leases_step hget with hold | hlease
    · exact (h.stored T l hold).trans_le length_le
    · exact (h.held_lt hw hlease).trans_le length_le
  case acquiring =>
    intro w' thread' r hw' hr
    rcases advance_threads hw' with ⟨rfl, rfl⟩ | ⟨-, hold⟩
    · refine resources (fun r' hr' => ?_)
      obtain rfl : r = r' := Option.some.inj ((hm.acquiring_step hr).symm.trans hr')
      rfl
    · exact resources (h.acquiring w' thread' r hold hr)
  case disjoint =>
    intro i j a b ha hb hij hra hrb
    -- a new lease is granted only where no unreleased one is in the way
    have fresh : ∀ {i : LeaseId} {a : Lease} {res : Finset ResourceId},
        s.disp.granted[i]? = some a → a.released = false → s.disp.grantable res = true →
          Disjoint a.resources res := by
      intro i a res ha hra hg
      have hall := List.all_eq_true.mp hg a (List.mem_of_getElem? ha)
      simpa [hra] using hall
    have unreleased : ∀ {x y : Lease}, (x.released = true → y.released = true) →
        y.released = false → x.released = false := by
      intro x y himp hy
      by_contra hx
      exact absurd (himp (by simpa using hx)) (by simp [hy])
    rcases hm.granted_back ha with ⟨a₀, ha₀, -, hra₀, hmono₁, -⟩ | ⟨hi, -, -, hg₁, -⟩
    · rcases hm.granted_back hb with ⟨b₀, hb₀, -, hrb₀, hmono₂, -⟩ | ⟨hj, -, -, hg₂, -⟩
      · rw [← hra₀, ← hrb₀]
        exact h.disjoint i j a₀ b₀ ha₀ hb₀ hij (unreleased hmono₁ hra) (unreleased hmono₂ hrb)
      · rw [← hra₀]
        exact fresh ha₀ (unreleased hmono₁ hra) hg₂
    · rcases hm.granted_back hb with ⟨b₀, hb₀, -, hrb₀, hmono₂, -⟩ | ⟨hj, -⟩
      · rw [← hrb₀]
        exact (fresh hb₀ (unreleased hmono₂ hrb) hg₁).symm
      · exact absurd (hi.trans hj.symm) hij

/-- A step of a caller, or of the scheduler: the leases stay, the cancel flag
of an active worker's session stays up, and its resources stay. -/
theorem Custody.keep {t : System} (h : Custody s)
    (hthreads : ∀ (w : WorkerId) (thread : Worker), t.threads[w]? = some thread →
      s.threads[w]? = some thread ∨ thread.pc = .start)
    (hgranted : t.disp.granted = s.disp.granted) (hleases : t.disp.leases = s.disp.leases)
    (hcancel : ∀ (w : WorkerId) (thread : Worker), s.threads[w]? = some thread →
      thread.pc.active = true → (s.disp.controls thread.session).cancel = true →
        (t.disp.controls thread.session).cancel = true)
    (hrecords : ∀ (w : WorkerId) (thread : Worker) (r' : SessionRecord),
      s.threads[w]? = some thread → t.disp.records.get? thread.session = some r' →
        ∃ r, s.disp.records.get? thread.session = some r ∧ r.resources = r'.resources) :
    Custody t := by
  have old : ∀ {w : WorkerId} {thread : Worker}, t.threads[w]? = some thread →
      thread.pc ≠ .start → s.threads[w]? = some thread :=
    fun hw hne => (hthreads _ _ hw).resolve_right hne
  have leased : ∀ {thread : Worker} {l : LeaseId}, thread.pc.lease = some l →
      thread.pc ≠ .start := by
    intro thread l hl heq
    rw [heq] at hl
    exact absurd hl.symm (Option.some_ne_none l)
  have spent : ∀ {l : LeaseId}, Spent s l → Spent t l := by
    intro l hsp w thread hw hl
    obtain ⟨hrun, hcan⟩ := hsp w thread (old hw (leased hl)) hl
    exact ⟨hrun, hcancel w thread (old hw (leased hl)) (WorkerPc.lease_active hl) hcan⟩
  refine ⟨?held, ?spent, ?popped, ?stored, ?acquiring, ?disjoint⟩
  case held =>
    intro w thread l hw hl
    have hw' := old hw (leased hl)
    obtain ⟨lease, hlease, hown, hres⟩ := h.held w thread l hw' hl
    refine ⟨lease, hgranted ▸ hlease, hown, fun r' hr' => ?_⟩
    obtain ⟨r, hr, heq⟩ := hrecords w thread r' hw' hr'
    exact heq ▸ hres r hr
  case spent => exact fun l lease hlease hrel => spent (h.spent l lease (hgranted ▸ hlease) hrel)
  case popped =>
    intro w thread l hw hl
    have hne : thread.pc ≠ .start := by
      intro heq
      rw [heq] at hl
      exact absurd hl.symm (Option.some_ne_none l)
    obtain ⟨hlt, hsp⟩ := h.popped w thread l (old hw hne) hl
    exact ⟨hgranted ▸ hlt, spent hsp⟩
  case stored => exact fun S l hl => hgranted ▸ h.stored S l (hleases ▸ hl)
  case acquiring =>
    intro w thread r hw hr r' hr'
    have hne : thread.pc ≠ .start := by
      intro heq
      rw [heq] at hr
      exact absurd hr.symm (Option.some_ne_none r)
    obtain ⟨r₀, hr₀, heq⟩ := hrecords w thread r' (old hw hne) hr'
    exact heq ▸ h.acquiring w thread r (old hw hne) hr r₀ hr₀
  case disjoint =>
    intro i j a b ha hb
    exact h.disjoint i j a b (hgranted ▸ ha) (hgranted ▸ hb)

end

/-! ## Callers and the scheduler

These do not touch leases. -/

theorem Dispatcher.CallMove.granted_eq {d d' : Dispatcher} {c : Call} {client : Client}
    (h : CallMove d c d' client) : d'.granted = d.granted ∧ d'.leases = d.leases := by
  cases h <;> exact ⟨rfl, rfl⟩

/-- The active workers of a session have not been paused. -/
theorem SessionFits.not_paused {s : System} {w : WorkerId} {thread : Worker}
    (h : SessionFits s thread.session) (hw : s.threads[w]? = some thread)
    (ha : thread.pc.active = true) :
    s.disp.status thread.session ≠ some .paused ∧
      s.disp.status thread.session ≠ some .interrupted := by
  have hatt := h.working w thread hw rfl ha
  constructor <;> intro hst <;> rw [hst] at hatt <;>
    exact absurd (hatt.fits rfl).attended (by decide)

theorem Custody.call {s : System} {c : Call} {d : Dispatcher} {client : Client}
    (h : Custody s) (hL : Lifecycle s) (hm : CallMove s.disp c d client) :
    Custody (s.calls d client) := by
  refine h.keep (fun _ _ hw => Or.inl hw) hm.granted_eq.1 hm.granted_eq.2 ?_
    (fun _ _ _ _ hr => hm.resources_step hr)
  intro w thread hw ha hcan
  obtain ⟨hnp, hni⟩ := (hL.session thread.session).not_paused hw ha
  rcases hm.cancel_step hcan with hcan' | ⟨-, hp | hi⟩
  · exact hcan'
  · exact absurd hp hnp
  · exact absurd hi hni

theorem Custody.client {s : System} {i : Nat} {client client' : Client} {d : Dispatcher}
    (h : Custody s) (hL : Lifecycle s) (hm : ClientMove s.disp client d client') :
    Custody { s with disp := d, clients := s.clients.set i client' } := by
  cases hm with
  | prepareFailed | prepared | registerFailed | emitPending | admitDone | announce =>
      exact h.keep (fun _ _ hw => Or.inl hw) rfl rfl (fun _ _ _ _ hcan => hcan)
        (fun _ _ r' _ hr => ⟨r', hr, rfl⟩)
  | registered =>
      have known : ∀ {w : WorkerId} {thread : Worker}, s.threads[w]? = some thread →
          thread.session ≠ s.disp.nextSession :=
        fun hw => Nat.ne_of_lt ((hL.session _).known _ _ hw rfl)
      refine h.keep (fun _ _ hw => Or.inl hw) rfl rfl (fun w thread hw _ hcan => ?_)
        (fun w thread r' hw hr => ⟨r', ?_, rfl⟩)
      · simpa [known hw] using hcan
      · simpa [Dict.get?_set_ne _ _ (known hw)] using hr
  | @closePop S =>
      refine h.keep (fun _ _ hw => Or.inl hw) rfl rfl (fun _ _ _ _ hcan => hcan)
        (fun w thread r' hw hr => ⟨r', ?_, rfl⟩)
      have hpop : (s.disp.records.pop S).get? thread.session = some r' := hr
      rw [Dict.get?_pop] at hpop
      split at hpop
      · exact absurd hpop (by simp)
      · exact hpop

theorem Custody.schedule {s : System} {d : Dispatcher} {launches : List (SessionId × Bool)}
    (h : Custody s) (hm : s.disp.schedule s.threads.length = some (d, launches)) :
    Custody (s.launch d launches) := by
  have hthreads : ∀ (w : WorkerId) (thread : Worker),
      (s.launch d launches).threads[w]? = some thread →
        s.threads[w]? = some thread ∨ thread.pc = .start := by
    intro w thread hw
    rcases launch_threads hw with hold | ⟨-, e, -, rfl⟩
    · exact Or.inl hold
    · exact Or.inr rfl
  rcases schedule_cases hm with ⟨-, rfl⟩ | ⟨-, -, rfl⟩
  · exact h.keep hthreads rfl rfl (fun _ _ _ _ hcan => hcan) (fun _ _ r' _ hr => ⟨r', hr, rfl⟩)
  · exact h.keep hthreads rfl rfl (fun _ _ _ _ hcan => hcan) (fun _ _ r' _ hr => ⟨r', hr, rfl⟩)

/-! ## Guarded runs

The condition is about one block, the pop in the `finally` of a run that was
resumed meanwhile. -/

/-- The condition under which the lease of a run is left alone. -/
def KeepsLeases (s : System) (a : Action) : Prop := s.keepsLeases a = true

theorem Custody.step {s t : System} {a : Action} (h : Custody s) (hL : Lifecycle s)
    (hkeep : KeepsLeases s a) (hstep : s.step a = some t) : Custody t := by
  rcases System.step_cases hstep with ⟨c, d, client, -, hm, rfl⟩ |
    ⟨i, choice, client, d, client', -, hi, hm, rfl⟩ |
    ⟨w, choice, thread, d, pc, rfl, hw, hm, rfl⟩ | ⟨d, launches, -, hm, rfl⟩ | ⟨-, rfl⟩ | ⟨-, rfl⟩
  · exact h.call hL hm
  · exact h.client hL hm
  · refine h.worker hw hm (fun after hpc l hl => spent_of_not_needed ?_)
    obtain ⟨session, admitted, pc₀⟩ := thread
    obtain rfl : pc₀ = .releasePop after := hpc
    simpa [KeepsLeases, System.keepsLeases, hw, hl] using hkeep
  · exact h.schedule hm
  · exact { h with }
  · exact { h with }

theorem Custody.initial (registry : String → Option WorkflowRegistration) :
    Custody (System.initial registry) where
  held w thread l hw := absurd hw (by simp [System.initial])
  spent l lease hl := absurd hl (by simp [System.initial])
  popped w thread l hw := absurd hw (by simp [System.initial])
  stored S l hl := absurd hl (by simp [System.initial])
  acquiring w thread r hw := absurd hw (by simp [System.initial])
  disjoint i j a b ha := absurd ha (by simp [System.initial])

theorem Custody.reachable {registry : String → Option WorkflowRegistration} {s : System}
    (h : Transition.Run System.step KeepsLeases (System.initial registry) s) :
    Lifecycle s ∧ Custody s :=
  h.invariant (I := fun s => Lifecycle s ∧ Custody s)
    (fun _ _ _ hI hP hstep => ⟨hI.1.step hstep, hI.2.step hI.1 hP hstep⟩)
    ⟨Lifecycle.initial registry, Custody.initial registry⟩

/-! ## Mutual exclusion

Two running sessions hold two leases, and the lease manager grants one for a
resource. -/

/-- The lease acquired for a run has not been released while the worker is
inside it. -/
def RunsUnderLease (s : System) : Prop :=
  ∀ (w : WorkerId) (thread : Worker) (l : LeaseId) (job : Job) (latest : Option Progress),
    s.threads[w]? = some thread → thread.pc = .running l job latest →
      ∃ lease, s.disp.granted[l]? = some lease ∧ lease.owner = w ∧ lease.released = false

/-- Two workers inside `invocation.run` are there for different sessions,
whose records name disjoint resources. -/
def RunsExclusive (s : System) : Prop :=
  ∀ (w₁ w₂ : WorkerId) (t₁ t₂ : Worker), w₁ ≠ w₂ → s.threads[w₁]? = some t₁ →
    s.threads[w₂]? = some t₂ → t₁.pc.inRun = true → t₂.pc.inRun = true →
      t₁.session ≠ t₂.session ∧ ∃ r₁ r₂, s.disp.records.get? t₁.session = some r₁ ∧
        s.disp.records.get? t₂.session = some r₂ ∧ Disjoint r₁.resources r₂.resources

/-- A running worker's lease, unreleased, and the record it was taken for. -/
theorem Custody.running {s : System} (h : Custody s) (hL : Lifecycle s) {w : WorkerId}
    {thread : Worker} (hw : s.threads[w]? = some thread) (hrun : thread.pc.inRun = true) :
    ∃ l lease r, thread.pc.lease = some l ∧ s.disp.granted[l]? = some lease ∧ lease.owner = w ∧
      lease.released = false ∧ s.disp.records.get? thread.session = some r ∧
        r.resources = lease.resources := by
  obtain ⟨l, hl⟩ := WorkerPc.inRun_lease hrun
  obtain ⟨lease, hlease, hown, hres⟩ := h.held w thread l hw hl
  have hunreleased : lease.released = false := by
    by_contra hrel
    have hspent := h.spent l lease hlease (by simpa using hrel) w thread hw hl
    exact absurd hrun (by simp [hspent.1])
  have hrecord : ∃ r, s.disp.records.get? thread.session = some r := by
    rcases (hL.session _).working w thread hw rfl (WorkerPc.lease_active hl) with
      ⟨state, hst, -⟩ | ⟨-, hstale⟩
    · obtain ⟨r, hr, -⟩ := status_eq_some.mp hst
      exact ⟨r, hr⟩
    · exact absurd (WorkerPc.inRun_invoked hrun) (by simp [hstale.invoked])
  obtain ⟨r, hr⟩ := hrecord
  exact ⟨l, lease, r, hl, hlease, hown, hunreleased, hr, hres r hr⟩

/-- Custody is exclusive along every run in which no block pops a lease
that another worker still needs. -/
theorem custody_exclusive {registry : String → Option WorkflowRegistration} {s : System}
    (h : Transition.Run System.step KeepsLeases (System.initial registry) s) :
    RunsUnderLease s ∧ RunsExclusive s := by
  obtain ⟨hL, hC⟩ := Custody.reachable h
  constructor
  · intro w thread l job latest hw hpc
    obtain ⟨l', lease, -, hl, hlease, hown, hrel, -⟩ :=
      hC.running hL hw (by rw [hpc]; rfl)
    rw [hpc] at hl
    obtain rfl : l = l' := Option.some.inj hl
    exact ⟨lease, hlease, hown, hrel⟩
  · intro w₁ w₂ t₁ t₂ hne h₁ h₂ hr₁ hr₂
    obtain ⟨l₁, a, r₁, hl₁, ha, howna, hrela, hrec₁, hres₁⟩ := hC.running hL h₁ hr₁
    obtain ⟨l₂, b, r₂, hl₂, hb, hownb, hrelb, hrec₂, hres₂⟩ := hC.running hL h₂ hr₂
    refine ⟨fun hS => ?_, r₁, r₂, hrec₁, hrec₂, ?_⟩
    · exact hne ((hL.session t₁.session).unique w₁ w₂ t₁ t₂ h₁ h₂ rfl hS.symm
        (WorkerPc.lease_active hl₁) (WorkerPc.lease_active hl₂)
        (Or.inl (WorkerPc.inRun_invoked hr₁)))
    · rw [hres₁, hres₂]
      refine hC.disjoint l₁ l₂ a b ha hb (fun hl => hne ?_) hrela hrelb
      subst hl
      obtain rfl : a = b := Option.some.inj (ha.symm.trans hb)
      exact howna.symm.trans hownb

/-- One workflow kind, which can be paused. -/
def pausableRegistry : String → Option WorkflowRegistration :=
  fun _ => some { supportsPause := true }

theorem sharedSpace_ne : "root" ≠ "" := by decide

def sharedTarget : ResourceId := { space := "root", key := "target", space_ne := sharedSpace_ne }

/-- A session is paused in its run; the worker that paused it has published
`PAUSED` and stands in front of its `finally`. -/
def pausedRun : List Action :=
  Script.submit 0 "sync" {sharedTarget} ++ [.schedule] ++ Script.enterRun 0 ++
    Script.control 1 (.pause 0) ++ Script.settlePaused 0

/-- The paused worker finishes before the session is resumed and runs
again. -/
def resumedRun : List Action :=
  pausedRun ++ Script.blocks 0 3 ++ Script.control 2 (.resume 0) ++ [.schedule] ++
    Script.enterRun 1

def resumedSystem : System :=
  Transition.outcome System.step System.keepsLeases (System.initial pausableRegistry) resumedRun

theorem custody_exclusive_resumed :
    resumedSystem.threads.map (·.pc.inRun) = [false, true] ∧
      RunsUnderLease resumedSystem ∧ RunsExclusive resumedSystem :=
  ⟨by decide, custody_exclusive (Transition.outcome_run (fun _ _ h => h) _ _)⟩

/-- The session is resumed and runs again before the worker that paused it
reaches its `finally`, which releases the new lease and reservation; a
second session then runs on the same resource. -/
def overtakenRun : List Action :=
  pausedRun ++ Script.control 2 (.resume 0) ++ [.schedule] ++ Script.enterRun 1 ++
    Script.blocks 0 3 ++ Script.submit 3 "sync" {sharedTarget} ++ [.schedule] ++
    Script.enterRun 2

/-- Threads 1 and 2 are running for two sessions with the same resources,
and the lease of thread 1 has been released. -/
def System.overtaken (s : System) : Bool :=
  (s.threads[1]?.map fun t => (t.session, t.pc.inRun, t.pc.lease)) = some (0, true, some 1) &&
    (s.threads[2]?.map fun t => (t.session, t.pc.inRun)) = some (1, true) &&
    (s.disp.granted[1]?.map (·.released)) = some true &&
    (s.disp.records.get? 0).map (·.resources) = some {sharedTarget} &&
    (s.disp.records.get? 1).map (·.resources) = some {sharedTarget}

theorem overtaken_run_unprotected :
    ∃ s, Transition.AnyRun System.step (System.initial pausableRegistry) s ∧
      ¬ RunsUnderLease s ∧ ¬ RunsExclusive s := by
  obtain ⟨s, hrun, hs⟩ := Transition.exec_exists System.step
    (System.initial pausableRegistry) overtakenRun System.overtaken (by decide)
  simp only [System.overtaken, Bool.and_eq_true, decide_eq_true_eq, Option.map_eq_some_iff,
    Prod.mk.injEq] at hs
  obtain ⟨⟨⟨⟨⟨t₁, h₁, hS₁, hr₁, hl₁⟩, t₂, h₂, hS₂, hr₂⟩, lease, hlease, hrel⟩, r, hr, hres⟩,
    r', hr', hres'⟩ := hs
  refine ⟨s, hrun, fun hunder => ?_, fun hexcl => ?_⟩
  · obtain ⟨l, job, latest, hpc⟩ := WorkerPc.inRun_eq hr₁
    obtain ⟨lease', hlease', -, hunrel⟩ := hunder 1 t₁ l job latest h₁ hpc
    rw [hpc] at hl₁
    obtain rfl : l = 1 := Option.some.inj hl₁
    obtain rfl : lease = lease' := Option.some.inj (hlease.symm.trans hlease')
    exact absurd hrel (by simp [hunrel])
  · obtain ⟨-, r₁, r₂, hrec₁, hrec₂, hdisj⟩ := hexcl 1 2 t₁ t₂ (by decide) h₁ h₂ hr₁ hr₂
    rw [hS₁] at hrec₁
    rw [hS₂] at hrec₂
    obtain rfl : r = r₁ := Option.some.inj (hr.symm.trans hrec₁)
    obtain rfl : r' = r₂ := Option.some.inj (hr'.symm.trans hrec₂)
    rw [hres, hres'] at hdisj
    exact absurd hdisj (by simp)

end NamiSync
