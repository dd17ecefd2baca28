/-
# `Modules.ProgressTruth` — what a call of `execute` says about its progress

The counters of the tracker only rise, so what the call emits is in order and
within its totals.  The bytes of the result are those of the operations that
succeeded, if no operation fails after some of its bytes were copied: the
tracker keeps the bytes of a failed attempt.

## What is proved

    progress_truthful : in every call of `execute`, each `Progress` is within
      its totals and no counter falls from one to the next, however the call
      ends; and on a run that is `Uncredited`, the bytes of the result are
      those of the operations that have succeeded

The first part needs nothing of the environment.  `Uncredited` is asked at
the note that settles an operation without success: the tracker stands where
it stood when the operation began.  `progress_credited` is the run that fails
it: three bytes copied, the flush fails, and they stay counted.

## The argument

`Level` between two operations and `Busy` within one: the tracker stands at
what has been earned, or ahead of it by what the current operation has copied.
Settling brings `Busy` back to `Level`, with success by the operation's bytes,
otherwise by nothing, and this is where the condition is used.
-/
import Mathlib.Algebra.Order.BigOperators.Group.List
import Mathlib.Algebra.Order.Group.Nat
import NamiSync.Modules.Executor.RunReach

namespace NamiSync

namespace Executor

open Faulty Faulty.Prog

section Truth

variable [Unicode]

/-! ## What is emitted

The half of the result that needs no condition.  A `Progress` is a copy of the
tracker, the tracker only rises, and it is capped by its totals. -/

/-- The `Progress` bodies among events. -/
def progressOf (events : List EventBody) : List Progress :=
  events.filterMap fun
    | .progress progress => some progress
    | _ => none

/-- No counter falls. -/
def NotAfter (first second : Progress) : Prop :=
  first.itemsDone ≤ second.itemsDone ∧ first.bytesDone ≤ second.bytesDone

/-- What has been emitted since `base` is in order, and the tracker is not
behind it. -/
def Steady (base : List EventBody) (world : World) : Prop :=
  ∃ emitted, world.events = base ++ emitted ∧ (progressOf emitted).Pairwise NotAfter ∧
    ∀ progress ∈ progressOf emitted, progress.itemsDone ≤ world.progress.itemsDone ∧
      progress.bytesDone ≤ min world.progress.bytesDone world.progress.bytesTotal

/-- The tracker only rises. -/
theorem advance_rises (tracker : ProgressTracker) (step : ProgressStep) :
    tracker.itemsDone ≤ (tracker.advance step).itemsDone ∧
      tracker.bytesDone ≤ (tracker.advance step).bytesDone ∧
      (tracker.advance step).bytesTotal = tracker.bytesTotal ∧
      (tracker.advance step).itemsTotal = tracker.itemsTotal := by
  cases step with
  | start operation => exact ⟨le_refl _, le_refl _, rfl, rfl⟩
  | copied size => exact ⟨le_refl _, le_max_left _ _, rfl, rfl⟩
  | settled operation outcome =>
      show _ ≤ (tracker.settled operation outcome).itemsDone ∧ _
      simp only [ProgressTracker.advance, ProgressTracker.settled]
      split
      · exact ⟨Nat.le_succ _, le_max_left _ _, rfl, rfl⟩
      · exact ⟨Nat.le_succ _, le_refl _, rfl, rfl⟩
  | emitted now => exact ⟨le_refl _, le_refl _, rfl, rfl⟩

/-- A note raises the tracker or leaves it, and emits nothing. -/
theorem Steady.noted {base : List EventBody} {world : World} (h : Steady base world) {note : Note}
    (hnote : ∀ restore tracker, note ≠ .start restore tracker) :
    Steady base (note.write world) := by
  obtain ⟨emitted, hevents, hordered, hbehind⟩ := h
  cases note with
  | start restore tracker => exact absurd rfl (hnote restore tracker)
  | progress step =>
      obtain ⟨hitems, hbytes, htotal, -⟩ := advance_rises world.progress step
      refine ⟨emitted, hevents, hordered, fun progress hmem => ?_⟩
      obtain ⟨hdone, hmin⟩ := hbehind progress hmem
      refine ⟨hdone.trans hitems, hmin.trans ?_⟩
      show _ ≤ min (world.progress.advance step).bytesDone (world.progress.advance step).bytesTotal
      rw [htotal]
      exact min_le_min_right _ hbytes
  | _ => exact ⟨emitted, hevents, hordered, hbehind⟩

omit [Unicode] in
theorem progressOf_append (events : List EventBody) (body : EventBody) :
    progressOf (events ++ [body]) = progressOf events ++ progressOf [body] :=
  List.filterMap_append

theorem Steady.append {base : List EventBody} {world later : World} {body : EventBody}
    (h : Steady base world) (hevents : later.events = world.events ++ [body])
    (hprogress : later.progress = world.progress)
    (hbody : ∀ progress ∈ progressOf [body],
      progress.itemsDone = world.progress.itemsDone ∧
        progress.bytesDone = min world.progress.bytesDone world.progress.bytesTotal) :
    Steady base later := by
  obtain ⟨emitted, hbase, hordered, hbehind⟩ := h
  refine ⟨emitted ++ [body], by rw [hevents, hbase, List.append_assoc], ?_, ?_⟩
  · rw [progressOf_append]
    refine List.pairwise_append.2 ⟨hordered, ?_, fun first hfirst second hsecond => ?_⟩
    · cases body <;> simp [progressOf]
    · obtain ⟨hitems, hbytes⟩ := hbody second hsecond
      obtain ⟨hdone, hmin⟩ := hbehind first hfirst
      exact ⟨hitems ▸ hdone, hbytes ▸ hmin⟩
  · intro progress hmem
    rw [hprogress]
    rw [progressOf_append, List.mem_append] at hmem
    rcases hmem with hmem | hmem
    · exact hbehind progress hmem
    · obtain ⟨hitems, hbytes⟩ := hbody progress hmem
      exact ⟨hitems.le, hbytes.le⟩

/-- A call that emits progress emits the tracker as it stands. -/
theorem Steady.effect [Host] {base : List EventBody} {xset : ExecutionSet} {runId : RunId}
    {call : Call} {world later : World} (h : Steady base world) (hcall : RunCall xset runId call)
    (heffect : call.effect world = .ok later) : Steady base later := by
  have hsame := (effect_eq heffect).2.2.1
  have quiet : later.events = world.events → Steady base later := by
    intro hevents
    obtain ⟨emitted, hbase, hordered, hbehind⟩ := h
    exact ⟨emitted, hevents.trans hbase, hordered, by rw [hsame]; exact hbehind⟩
  cases call with
  | ask question => exact quiet (by rw [ask_eq heffect])
  | change step =>
      refine quiet ?_
      unfold Call.effect at heffect
      dsimp only at heffect
      split at heffect
      · obtain rfl := Except.ok.inj heffect
        rfl
      · cases heffect
  | clock =>
      obtain rfl := Except.ok.inj heffect
      exact quiet rfl
  | record call =>
      obtain rfl := Except.ok.inj heffect
      exact quiet rfl
  | emit body =>
      obtain rfl := Except.ok.inj heffect
      refine h.append rfl rfl fun progress hmem => ?_
      rcases hcall with rfl | ⟨operation, settled, -, rfl⟩
      · cases hmem
      · cases hmem
  | emitProgress =>
      unfold Call.effect at heffect
      dsimp only at heffect
      split at heffect
      · next shown hshown =>
          obtain rfl := Except.ok.inj heffect
          refine h.append rfl rfl fun progress hmem => ?_
          obtain rfl := List.mem_singleton.1 hmem
          unfold ProgressTracker.snapshot at hshown
          split at hshown
          · obtain rfl := Option.some.inj hshown
            exact ⟨rfl, rfl⟩
          · cases hshown
      · cases heffect

/-! ## What has been earned

The sum of the bytes of the operations whose status is a success.  It changes
only when an operation is settled, and then by the bytes of that operation. -/

section Earned

variable (xset : ExecutionSet)

/-- The bytes of one operation under a status, if they count. -/
def earning (status : Dict OpId Outcome) (operation : PlanOperation) : Nat :=
  if operation.opId ∈ xset.selection ∧ countsBytes operation.kind = true ∧
      status.get? operation.opId = some .succeeded then operation.contentBytes
  else 0

/-- The bytes of the selected operations that have succeeded. -/
def earned (status : Dict OpId Outcome) : Nat :=
  (xset.plan.operations.map (earning xset status)).sum

/-- The bytes of all selected operations. -/
def bytesToDo : Nat :=
  ((xset.plan.operations.filter fun operation =>
    decide (operation.opId ∈ xset.selection) && countsBytes operation.kind).map
      (·.contentBytes)).sum

theorem sum_filter_eq (p : PlanOperation → Bool) (operations : List PlanOperation) :
    ((operations.filter p).map (·.contentBytes)).sum =
      (operations.map fun operation =>
        if p operation = true then operation.contentBytes else 0).sum := by
  induction operations with
  | nil => rfl
  | cons first rest ih =>
      rw [List.filter_cons]
      split
      · next h => rw [List.map_cons, List.sum_cons, ih, List.map_cons, List.sum_cons, if_pos h]
      · next h => rw [ih, List.map_cons, List.sum_cons, if_neg h, Nat.zero_add]

/-- No more can be earned than there is to do. -/
theorem earned_le (status : Dict OpId Outcome) : earned xset status ≤ bytesToDo xset := by
  unfold earned bytesToDo
  rw [sum_filter_eq]
  refine List.sum_le_sum fun operation _ => ?_
  unfold earning
  split
  · next h => rw [if_pos (by simp [h.1, h.2.1])]
  · exact Nat.zero_le _

variable {xset}

/-- Settling one operation. -/
theorem earned_set {status : Dict OpId Outcome} {operation : PlanOperation}
    (h : Chosen xset operation) (hopen : status.get? operation.opId = none) (outcome : Outcome) :
    earned xset (status.set operation.opId outcome) =
      earned xset status +
        if outcome = .succeeded ∧ countsBytes operation.kind = true then operation.contentBytes
        else 0 := by
  obtain ⟨before, after, hsplit⟩ := List.append_of_mem h.1
  have hnodup := (nodup_of_checkOperations xset.plan.checked).1
  rw [hsplit, List.map_append, List.map_cons, List.nodup_append, List.nodup_cons] at hnodup
  obtain ⟨-, ⟨hafter, -⟩, hbefore⟩ := hnodup
  have hother : ∀ other : PlanOperation, other.opId ≠ operation.opId →
      earning xset (status.set operation.opId outcome) other = earning xset status other := by
    intro other hne
    unfold earning
    rw [Dict.get?_set_ne _ _ hne]
  have hfirst : before.map (earning xset (status.set operation.opId outcome)) =
      before.map (earning xset status) :=
    List.map_congr_left fun other hmem => hother other fun heq =>
      hbefore _ (List.mem_map_of_mem hmem) _ List.mem_cons_self heq
  have hlast : after.map (earning xset (status.set operation.opId outcome)) =
      after.map (earning xset status) :=
    List.map_congr_left fun other hmem => hother other fun heq =>
      hafter (heq ▸ List.mem_map_of_mem hmem)
  have hold : earning xset status operation = 0 := by
    unfold earning
    rw [if_neg fun hearns => by rw [hopen] at hearns; cases hearns.2.2]
  have hnew : earning xset (status.set operation.opId outcome) operation =
      if outcome = .succeeded ∧ countsBytes operation.kind = true then operation.contentBytes
      else 0 := by
    unfold earning
    rw [Dict.get?_set_self]
    refine if_congr ⟨fun hearns => ⟨Option.some.inj hearns.2.2, hearns.2.1⟩,
      fun hearns => ⟨h.2, hearns.2, congrArg some hearns.1⟩⟩ rfl rfl
  unfold earned
  rw [hsplit, List.map_append, List.map_cons, List.sum_append, List.sum_cons, List.map_append,
    List.map_cons, List.sum_append, List.sum_cons, hfirst, hlast, hold, hnew]
  omega

end Earned

/-! ## The tracker and what has been earned

Between two operations the tracker stands at what has been earned; during one
it may be ahead, by what has been copied and is not yet settled.  `Busy` is
where a failure can leave the two apart. -/

section Level

variable (xset : ExecutionSet)

/-- The tracker between two operations: it stands at what has been earned. -/
structure Level (world : World) : Prop where
  committed : world.progress.committedBytes = earned xset world.status
  level : world.progress.bytesDone = world.progress.committedBytes
  total : world.progress.bytesTotal = bytesToDo xset
  pending : ∀ operation ∈ world.state.pendingDirectories,
    Chosen xset operation ∧ operation.kind = .mkdir

/-- The tracker during an operation: it may be ahead by what was copied. -/
structure Busy (operation : PlanOperation) (world : World) : Prop where
  committed : world.progress.committedBytes = earned xset world.status
  low : world.progress.committedBytes ≤ world.progress.bytesDone
  high : world.progress.bytesDone ≤
    world.progress.committedBytes + min world.progress.fileBytes operation.contentBytes
  total : world.progress.bytesTotal = bytesToDo xset
  current : world.progress.current = some operation
  still : countsBytes operation.kind = false → world.progress.fileBytes = 0
  unsettled : world.status.get? operation.opId = none
  pending : ∀ operation ∈ world.state.pendingDirectories,
    Chosen xset operation ∧ operation.kind = .mkdir

/-- The notes that settle nothing; `counts` says whether bytes may be copied. -/
def Calm (counts : Bool) : Note → Prop
  | .start _ _ | .settle _ _ | .progress (.start _) | .progress (.settled _ _) => False
  | .progress (.copied _) => counts = true
  | .pend operation => Chosen xset operation ∧ operation.kind = .mkdir
  | _ => True

variable {xset} {operation : PlanOperation}

theorem calm_status {counts : Bool} {note : Note} (h : Calm xset counts note) (world : World) :
    (note.write world).status = world.status := by
  cases note with
  | settle id item => exact h.elim
  | _ => rfl

theorem Busy.noted {world : World} (h : Busy xset operation world) {note : Note}
    (hnote : Calm xset (countsBytes operation.kind) note) :
    Busy xset operation (note.write world) := by
  obtain ⟨hcommitted, hlow, hhigh, htotal, hcurrent, hstill, hopen, hpending⟩ := h
  cases note with
  | start restore tracker => exact hnote.elim
  | settle id item => exact hnote.elim
  | pend other =>
      refine ⟨hcommitted, hlow, hhigh, htotal, hcurrent, hstill, hopen, fun first hmem => ?_⟩
      rcases List.mem_append.1 hmem with hmem | hmem
      · exact hpending first hmem
      · rw [List.mem_singleton.1 hmem]
        exact hnote
  | takePending =>
      exact ⟨hcommitted, hlow, hhigh, htotal, hcurrent, hstill, hopen,
        fun first hmem => absurd hmem List.not_mem_nil⟩
  | progress step =>
      cases step with
      | start other => exact hnote.elim
      | settled other outcome => exact hnote.elim
      | emitted now => exact ⟨hcommitted, hlow, hhigh, htotal, hcurrent, hstill, hopen, hpending⟩
      | copied size =>
          have hcounts : countsBytes operation.kind = true := hnote
          refine ⟨hcommitted, ?_, ?_, htotal, hcurrent, ?_, hopen, hpending⟩
          · exact hlow.trans (le_max_left _ _)
          · show max world.progress.bytesDone (min world.progress.bytesTotal
                (world.progress.committedBytes + min (world.progress.fileBytes + size)
                  (world.progress.current.elim 0 (·.contentBytes)))) ≤
              world.progress.committedBytes +
                min (world.progress.fileBytes + size) operation.contentBytes
            rw [hcurrent]
            refine max_le (hhigh.trans ?_) (min_le_right _ _)
            exact Nat.add_le_add_left (min_le_min_right _ (Nat.le_add_right _ _)) _
          · intro hnone
            rw [hcounts] at hnone
            cases hnone
  | _ => exact ⟨hcommitted, hlow, hhigh, htotal, hcurrent, hstill, hopen, hpending⟩

theorem Level.noted {world : World} (h : Level xset world) {note : Note}
    (hnote : Calm xset false note) : Level xset (note.write world) := by
  obtain ⟨hcommitted, hlevel, htotal, hpending⟩ := h
  cases note with
  | start restore tracker => exact hnote.elim
  | settle id item => exact hnote.elim
  | pend other =>
      refine ⟨hcommitted, hlevel, htotal, fun first hmem => ?_⟩
      rcases List.mem_append.1 hmem with hmem | hmem
      · exact hpending first hmem
      · rw [List.mem_singleton.1 hmem]
        exact hnote
  | takePending =>
      exact ⟨hcommitted, hlevel, htotal, fun first hmem => absurd hmem List.not_mem_nil⟩
  | progress step =>
      cases step with
      | start other => exact hnote.elim
      | settled other outcome => exact hnote.elim
      | emitted now => exact ⟨hcommitted, hlevel, htotal, hpending⟩
      | copied size => exact absurd hnote (by simp [Calm])
  | _ => exact ⟨hcommitted, hlevel, htotal, hpending⟩

/-- An operation that counts no bytes stays level. -/
theorem Busy.level {world : World} (h : Busy xset operation world)
    (hkind : countsBytes operation.kind = false) : Level xset world := by
  have hhigh := h.high
  rw [h.still hkind, Nat.zero_min] at hhigh
  exact ⟨h.committed, Nat.le_antisymm hhigh h.low, h.total, h.pending⟩

/-- An operation is settled: it has succeeded, or copied nothing. -/
theorem Busy.settled {world later : World} (h : Busy xset operation world)
    (hchosen : Chosen xset operation) {outcome : Outcome}
    (hcredit : outcome ≠ .succeeded → countsBytes operation.kind = true →
      min world.progress.fileBytes operation.contentBytes = 0)
    (hstatus : later.status = world.status.set operation.opId outcome)
    (hprogress : later.progress = world.progress.settled operation outcome)
    (hpending : later.state.pendingDirectories = world.state.pendingDirectories) :
    Level xset later := by
  have hearned := earned_set hchosen h.unsettled outcome
  have htotal : later.progress.bytesTotal = world.progress.bytesTotal := by
    rw [hprogress]
    exact (advance_rises world.progress (.settled operation outcome)).2.2.1
  refine ⟨?_, ?_, htotal.trans h.total, by rw [hpending]; exact h.pending⟩
  · by_cases hcounts : outcome = .succeeded ∧ countsBytes operation.kind = true
    · have hfits : world.progress.committedBytes + operation.contentBytes ≤
          world.progress.bytesTotal := by
        rw [h.committed, h.total]
        rw [if_pos hcounts] at hearned
        exact hearned ▸ earned_le xset _
      rw [hprogress, hstatus, hearned, if_pos hcounts, ← h.committed, ProgressTracker.settled,
        if_pos hcounts]
      exact min_eq_right hfits
    · rw [hprogress, hstatus, hearned, if_neg hcounts, Nat.add_zero, ← h.committed,
        ProgressTracker.settled, if_neg hcounts]
  · have hlow := h.low
    have hhigh := h.high
    by_cases hcounts : outcome = .succeeded ∧ countsBytes operation.kind = true
    · rw [if_pos hcounts, ← h.committed] at hearned
      have hfits := earned_le xset (world.status.set operation.opId outcome)
      rw [hearned, ← h.total] at hfits
      rw [hprogress, ProgressTracker.settled, if_pos hcounts]
      show max world.progress.bytesDone (min world.progress.bytesTotal
        (world.progress.committedBytes + operation.contentBytes)) =
          min world.progress.bytesTotal (world.progress.committedBytes + operation.contentBytes)
      omega
    · have hnone : min world.progress.fileBytes operation.contentBytes = 0 := by
        cases hkind : countsBytes operation.kind with
        | false => rw [h.still hkind, Nat.zero_min]
        | true => exact hcredit (fun hdone => hcounts ⟨hdone, hkind⟩) hkind
      rw [hprogress, ProgressTracker.settled, if_neg hcounts]
      show world.progress.bytesDone = world.progress.committedBytes
      omega

end Level

/-! ## Runs that fail before they copy

The condition of the second half, as a property of the trace: it is about the
world in which an outcome is announced.  Programs that settle nothing
keep `Level` and `Busy` by what they may note. -/

section Runs

variable [Host]

/-- Whenever an operation that counts bytes is settled without success,
nothing of it was counted. -/
def Uncredited : Regime machine where
  allows call world _ := ∀ item operation, call = .emit (.itemOutcome item) →
    item.outcome ≠ .succeeded → world.progress.current = some operation →
    countsBytes operation.kind = true → item.itemId = operation.opId.itemId →
    min world.progress.fileBytes operation.contentBytes = 0
  safe _ := True

variable {xset : ExecutionSet} {operation : PlanOperation} {α : Type} {P : α → Prop} {m : Exec α}
  {world : World}

theorem Busy.wp
    (h : m.Does (fun _ => True) (fun _ => True) (Calm xset (countsBytes operation.kind)) P)
    (hworld : Busy xset operation world) :
    Faulty.wp Uncredited (fun a later => P a ∧ Busy xset operation later)
      (fun _ later => Busy xset operation later) m world := by
  refine h.wp (fun _ _ => trivial) (fun call _ before after hbefore heffect => ?_)
    (fun note hnote before hbefore => hbefore.noted hnote) (fun _ _ => trivial) hworld
  obtain ⟨hstatus, hstate, hprogress, -⟩ := effect_eq heffect
  obtain ⟨hcommitted, hlow, hhigh, htotal, hcurrent, hstill, hopen, hpending⟩ := hbefore
  constructor <;> simp only [hstatus, hstate, hprogress] <;> assumption

theorem Level.wp (h : m.Does (fun _ => True) (fun _ => True) (Calm xset false) P)
    (hworld : Level xset world) :
    Faulty.wp Uncredited (fun a later => P a ∧ Level xset later)
      (fun _ later => Level xset later) m world := by
  refine h.wp (fun _ _ => trivial) (fun call _ before after hbefore heffect => ?_)
    (fun note hnote before hbefore => hbefore.noted hnote) (fun _ _ => trivial) hworld
  obtain ⟨hstatus, hstate, hprogress, -⟩ := effect_eq heffect
  obtain ⟨hcommitted, hlevel, htotal, hpending⟩ := hbefore
  constructor <;> simp only [hstatus, hstate, hprogress] <;> assumption

/-- Anything can be said about a program that does not return. -/
theorem raising_wp {β : Type} {Q : β → World → Prop} {k : α → Exec β}
    (hraises : ∀ a later, Faulty.wp Uncredited Q (fun _ _ => True) (k a) later) :
    Faulty.wp Uncredited Q (fun _ _ => True) (m >>= k) world := by
  refine wp_bind.2 ?_
  have hany := wp_of_safe (m := m) (R := Uncredited) (fun _ => trivial) world
  exact hany.mono (fun a later _ => hraises a later) fun _ _ _ => trivial

theorem catchFailure_wp {Q : α → World → Prop} {E : Error → World → Prop}
    {handler : Error → Exec α}
    (h : Faulty.wp Uncredited Q
      (fun error later => Faulty.wp Uncredited Q E (handler error) later ∧ E error later) m world) :
    Faulty.wp Uncredited Q E (catchFailure m handler) world := by
  refine wp_catching.2 (h.mono (fun _ _ h => h) fun error later h => ?_)
  split
  · exact h.1
  · exact h.2

/-! ### Settling

The three ways in which an operation gets its outcome: it never counted bytes,
it has been started, or it has failed.  Only the second uses the condition. -/

variable {policies : ExecutorPolicies}

/-- The end of `settle`, from the world that its note leaves. -/
theorem announce_wp {settled : Settled} (hworld : Level xset world)
    (hkind : countsBytes operation.kind = false) :
    Faulty.wp Uncredited (fun _ later => Level xset later) (fun _ later => Level xset later)
      (do
        emit (.itemOutcome (itemOf operation settled))
        advanceProgress policies (.settled operation settled.outcome)) world := by
  have hemit : (emit (.itemOutcome (itemOf operation settled))).Does (fun _ => True)
      (fun _ => True) (Calm xset false) fun _ => True := does_call trivial trivial
  have hshow : (emitProgress policies false).Does (fun _ => True) (fun _ => True)
      (Calm xset false) fun _ => True :=
    emitProgress_does policies false trivial trivial (fun _ => trivial) trivial
  refine wp_bind.2 ((hworld.wp hemit).mono (fun _ later h => ?_) fun _ _ h => h)
  obtain ⟨hcommitted, hlevel, htotal, hpending⟩ := h.2
  have hsame : later.progress.settled operation settled.outcome =
      { later.progress with
        itemsDone := later.progress.itemsDone + 1, current := some operation } := by
    unfold ProgressTracker.settled
    rw [if_neg fun hcounts => absurd hcounts.2 (by simp [hkind])]
  refine wp_bind.2 ((Level.wp hshow ?_).mono (fun _ _ h => h.2) fun _ _ h => h)
  refine ⟨?_, ?_, ?_, hpending⟩
  · exact (congrArg (·.committedBytes) hsame).trans hcommitted
  · exact (congrArg (·.bytesDone) hsame).trans
      (hlevel.trans (congrArg (·.committedBytes) hsame).symm)
  · exact (congrArg (·.bytesTotal) hsame).trans htotal

/-- Settling an operation that counts no bytes. -/
theorem Level.settle (hworld : Level xset world) (hchosen : Chosen xset operation)
    (hkind : countsBytes operation.kind = false) (settled : Settled) :
    Faulty.wp Uncredited (fun _ later => Level xset later) (fun _ later => Level xset later)
      (Executor.settle policies operation settled) world := by
  refine wp_bind.2 (wp_get.2 ?_)
  split
  · exact hworld
  · next halready =>
      have hopen : world.status.get? operation.opId = none := by
        simpa [Dict.contains] using halready
      have hnoted : Level xset (Note.write world (.settle operation.opId
          (itemOf operation settled))) := by
        obtain ⟨hcommitted, hlevel, htotal, hpending⟩ := hworld
        refine ⟨hcommitted.trans ?_, hlevel, htotal, hpending⟩
        refine ((earned_set hchosen hopen settled.outcome).trans ?_).symm
        rw [if_neg fun hcounts => absurd hcounts.2 (by simp [hkind]), Nat.add_zero]
      exact announce_wp hnoted hkind

/-- Settling the operation that has been started. -/
theorem Busy.settle (hworld : Busy xset operation world) (hchosen : Chosen xset operation)
    (settled : Settled) :
    Faulty.wp Uncredited (fun _ later => Level xset later) (fun _ _ => True)
      (Executor.settle policies operation settled) world := by
  refine wp_bind.2 (wp_get.2 ?_)
  split
  · next halready => simp [Dict.contains, hworld.unsettled] at halready
  · refine wp_bind.2 (wp_put.2 (wp_bind.2 (wp_call (fun later hallow heffect => ⟨trivial, ?_⟩)
      fun _ _ _ _ => ⟨trivial, trivial⟩)))
    obtain rfl := Except.ok.inj heffect
    have hshow : (emitProgress policies false).Does (fun _ => True) (fun _ => True)
        (Calm xset false) fun _ => True :=
      emitProgress_does policies false trivial trivial (fun _ => trivial) trivial
    refine wp_bind.2 ((Level.wp hshow ?_).mono (fun _ _ h => h.2) fun _ _ _ => trivial)
    refine hworld.settled hchosen (fun hfailed hcounts => ?_) rfl rfl rfl
    exact hallow _ operation rfl hfailed hworld.current hcounts rfl

theorem Busy.settleFailure (hworld : Busy xset operation world) (hchosen : Chosen xset operation)
    (error : Error) :
    Faulty.wp Uncredited (fun _ later => Level xset later) (fun _ _ => True)
      (Executor.settleFailure policies operation error) world :=
  hworld.settle hchosen _

theorem Level.settleFailure (hworld : Level xset world) (hchosen : Chosen xset operation)
    (hkind : countsBytes operation.kind = false) (error : Error) :
    Faulty.wp Uncredited (fun _ later => Level xset later) (fun _ later => Level xset later)
      (Executor.settleFailure policies operation error) world :=
  hworld.settle hchosen hkind _

/-! ### Directories

These count no bytes, so the tracker is level through their finalization. -/

section Directories

/-- A step between two operations. -/
theorem Level.andThen {β : Type} {k : α → Exec β}
    (h : m.Does (fun _ => True) (fun _ => True) (Calm xset false) fun _ => True)
    (hworld : Level xset world)
    (hrest : ∀ a later, Level xset later →
      Faulty.wp Uncredited (fun _ last => Level xset last) (fun _ last => Level xset last)
        (k a) later) :
    Faulty.wp Uncredited (fun _ last => Level xset last) (fun _ last => Level xset last)
      (m >>= k) world :=
  wp_bind.2 ((hworld.wp h).mono (fun a later h => hrest a later h.2) fun _ _ h => h)

theorem finalizeDirectory_wp (hworld : Level xset world) (hchosen : Chosen xset operation)
    (hkind : operation.kind = .mkdir) :
    Faulty.wp Uncredited (fun _ later => Level xset later) (fun _ later => Level xset later)
      (finalizeDirectory xset policies operation) world := by
  have hnone : countsBytes operation.kind = false := by rw [hkind]; rfl
  unfold finalizeDirectory
  split
  · refine hworld.andThen (failIf_does _ _ fun _ => trivial) fun _ _ hworld => ?_
    refine hworld.andThen (ask_does (fun _ => trivial) _ trivial) fun _ _ hworld => ?_
    refine hworld.andThen (applyMetadata_does (fun _ => trivial) _ _ _ (fun _ _ => trivial)
      trivial) fun _ _ hworld => ?_
    refine hworld.andThen (durabilityDetail_does (fun _ => trivial) _ _ fun _ => trivial)
      fun detail _ hworld => ?_
    refine hworld.andThen (observedStat_does (fun _ => trivial) _ _ fun _ => trivial)
      fun actual _ hworld => ?_
    refine hworld.andThen (record_does _ trivial trivial fun _ => trivial)
      fun detail _ hworld => ?_
    exact hworld.settle hchosen hnone _
  · exact hworld

theorem finalizeEach_wp {operations : List PlanOperation}
    (h : ∀ operation ∈ operations, Chosen xset operation ∧ operation.kind = .mkdir)
    (hworld : Level xset world) :
    Faulty.wp Uncredited (fun _ later => Level xset later) (fun _ later => Level xset later)
      (finalizeEach xset policies operations) world := by
  induction operations generalizing world with
  | nil => exact hworld
  | cons first rest ih =>
      obtain ⟨hchosen, hkind⟩ := h first List.mem_cons_self
      have hnone : countsBytes first.kind = false := by rw [hkind]; rfl
      have hone : Faulty.wp Uncredited (fun _ later => Level xset later)
          (fun _ later => Level xset later)
          (catchFailure (finalizeDirectory xset policies first) fun error =>
            Executor.settleFailure policies first error) world :=
        catchFailure_wp ((finalizeDirectory_wp hworld hchosen hkind).mono (fun _ _ h => h)
          fun error later h => ⟨h.settleFailure hchosen hnone error, h⟩)
      have hunready : Calm xset false (.unready first.opId) := trivial
      refine wp_bind.2 (wp_ensuring (hone.mono (fun _ later hlater => ?_) fun _ later hlater => ?_))
      · exact ih (fun operation hmem => h operation (List.mem_cons_of_mem _ hmem))
          (hlater.noted hunready)
      · exact hlater.noted hunready

theorem finalizeDirectories_wp (hworld : Level xset world) :
    Faulty.wp Uncredited (fun _ later => Level xset later) (fun _ later => Level xset later)
      (finalizeDirectories xset policies) world := by
  have htake : Calm xset false .takePending := trivial
  refine wp_bind.2 (wp_get.2 (wp_bind.2 (wp_put.2 ?_)))
  refine finalizeEach_wp (fun operation hmem => hworld.pending operation ?_)
    (hworld.noted htake)
  exact mem_sortedBy.1 hmem

end Directories

/-! ### The loop

Each turn starts level and ends level.  In between the operation is busy,
through all its attempts: what a failed attempt copied stays counted until the
operation is settled. -/

section Loop

variable {runId : RunId} {policies : ExecutorPolicies}

omit [Host] in
theorem calm_of_op {note : Note} (h : OpNote runId operation note) :
    Calm xset (countsBytes operation.kind) note := by
  cases note with
  | progress step => cases step <;> exact h
  | settle id item => exact h.elim
  | start restore tracker => exact h.elim
  | pend operation => exact h.elim
  | _ => trivial

theorem cleanupInflight_calm {counts : Bool} :
    cleanupInflight.Does (fun _ => True) (fun _ => True) (Calm xset counts) fun _ => True :=
  cleanupInflight_does (fun _ _ _ _ => trivial) trivial

theorem giveUp_wp (hworld : Busy xset operation world) (hchosen : Chosen xset operation)
    (error : Error) :
    Faulty.wp Uncredited (fun _ later => Level xset later) (fun _ _ => True)
      (giveUp policies operation error) world := by
  refine wp_bind.2 ((hworld.wp cleanupInflight_calm).mono (fun cleanup later h => ?_)
    fun _ _ _ => trivial)
  have hforget : Busy xset operation (Note.write later (.forget operation.opId)) :=
    h.2.noted trivial
  exact wp_bind.2 (hforget.settleFailure hchosen _)

variable [Sha256]

theorem tryOperation_calm :
    (tryOperation xset runId policies operation).Does (fun _ => True) (fun _ => True)
      (Calm xset (countsBytes operation.kind)) fun _ => True := by
  have hop : (executeOperation xset runId policies operation).Does (fun _ => True) (fun _ => True)
      (Calm xset (countsBytes operation.kind)) fun _ => True :=
    executeOperation_does.mono (fun _ h => h) (fun _ _ => trivial) (fun _ h => calm_of_op h)
      fun _ h => h
  exact catchFailure_does (does_bind.2 (hop.post fun _ _ => trivial)) fun _ => trivial

theorem attemptOnce_wp (hworld : Busy xset operation world) (hchosen : Chosen xset operation)
    (number : Nat) {again : Option (Exec Bool)}
    (hagain : ∀ m ∈ again, ∀ later, Busy xset operation later →
      Faulty.wp Uncredited (fun _ last => Level xset last) (fun _ _ => True) m later) :
    Faulty.wp Uncredited (fun _ later => Level xset later) (fun _ _ => True)
      (attemptOnce xset runId policies operation number again) world := by
  refine wp_bind.2 ((hworld.wp tryOperation_calm).mono (fun attempted later h => ?_)
    fun _ _ _ => trivial)
  cases attempted with
  | ok settled =>
      have hforget : Busy xset operation (Note.write later (.forget operation.opId)) :=
        h.2.noted trivial
      exact wp_bind.2 (wp_bind.2 ((hforget.settle hchosen settled).mono (fun _ _ h => h)
        fun _ _ h => h))
  | error error =>
      have hasked : (ask (.onItemFailed operation.opId number)).Does (fun _ => True)
          (fun _ => True) (Calm xset (countsBytes operation.kind)) fun _ => True :=
        does_call trivial trivial
      refine wp_bind.2 ((h.2.wp hasked).mono (fun _ later h => ?_) fun _ _ _ => trivial)
      have hgive : ∀ stopped : Bool, Faulty.wp Uncredited (fun _ last => Level xset last)
          (fun _ _ => True) (do
            giveUp policies operation error
            return stopped) later := fun stopped =>
        wp_bind.2 ((giveUp_wp h.2 hchosen error).mono (fun _ _ h => h) fun _ _ h => h)
      split
      · next pause later _ =>
          have hbetween : (beforeRetry operation pause).Does (fun _ => True) (fun _ => True)
              (Calm xset (countsBytes operation.kind)) fun _ => True :=
            beforeRetry_does (fun _ => trivial) pause (fun _ _ _ _ => trivial) trivial
          refine wp_bind.2 ((h.2.wp hbetween).mono (fun _ last h => ?_) fun _ _ _ => trivial)
          exact hagain later rfl last h.2
      · exact hgive true
      · exact hgive false

/-- All attempts of one operation, from the first to the one that settles it. -/
theorem attempt_wp (hworld : Busy xset operation world) (hchosen : Chosen xset operation)
    (left number : Nat) :
    Faulty.wp Uncredited (fun _ later => Level xset later) (fun _ _ => True)
      (attempt xset runId policies operation left number) world := by
  induction left generalizing number world with
  | zero => exact attemptOnce_wp hworld hchosen number fun m hm => by cases hm
  | succ left ih =>
      refine attemptOnce_wp hworld hchosen number fun m hm later hlater => ?_
      obtain rfl := Option.some.inj hm
      exact ih hlater (number + 1)

theorem executeOne_wp (hworld : Level xset world) (hchosen : Chosen xset operation)
    (hopen : world.status.get? operation.opId = none) (stopRequested : Bool) :
    Faulty.wp Uncredited (fun _ later => Level xset later) (fun _ _ => True)
      (executeOne xset runId policies operation stopRequested) world := by
  have hsettle : ∀ {later : World}, Busy xset operation later →
      ∀ (settled : Settled) (stopped : Bool), Faulty.wp Uncredited
        (fun _ last => Level xset last) (fun _ _ => True) (do
          settle policies operation settled
          return stopped) later := fun hlater settled stopped =>
    wp_bind.2 ((hlater.settle hchosen settled).mono (fun _ _ h => h) fun _ _ h => h)
  have hshow : (emitProgress policies false).Does (fun _ => True) (fun _ => True)
      (Calm xset (countsBytes operation.kind)) fun _ => True :=
    emitProgress_does policies false trivial trivial (fun _ => trivial) trivial
  refine wp_bind.2 (wp_put.2 (wp_bind.2 (wp_call (fun later _ heffect => ⟨trivial, ?_⟩)
    fun _ _ _ _ => ⟨trivial, trivial⟩)))
  have heffect : Question.effect (Note.write world (.current operation.opId)) .checkpoint =
      .ok later := heffect
  obtain rfl := ask_eq heffect
  have hbusy : Busy xset operation (Note.write (Note.write world (.current operation.opId))
      (.progress (.start operation))) := by
    obtain ⟨hcommitted, hlevel, htotal, hpending⟩ := hworld
    exact ⟨hcommitted, hlevel.ge, hlevel.le.trans (Nat.le_add_right _ _), htotal, rfl,
      fun _ => rfl, hopen, hpending⟩
  refine wp_bind.2 (wp_bind.2 (wp_put.2 ((hbusy.wp hshow).mono (fun _ later h => ?_)
    fun _ _ _ => trivial)))
  refine wp_bind.2 (wp_get.2 ?_)
  split
  · exact hsettle h.2 _ true
  · split
    · exact hsettle h.2 _ false
    · split
      · exact hsettle h.2 _ false
      · split
        · next hkind =>
            have hmake : (startDirectory operation).Does (fun _ => True) (fun _ => True)
                (Calm xset (countsBytes operation.kind)) fun _ => True :=
              startDirectory_does (fun _ => trivial) trivial ⟨hchosen, hkind⟩
            have hnone : countsBytes operation.kind = false := by rw [hkind]; rfl
            refine wp_bind.2 (catchFailure_wp ((h.2.wp hmake).mono
              (fun _ last h => h.2.level hnone) fun error last h => ⟨?_, trivial⟩))
            exact h.settleFailure hchosen error
        · exact attempt_wp h.2 hchosen _ _

/-- The loop, by induction over the operations that are left. -/
theorem executeEach_wp {operations : List PlanOperation}
    (h : ∀ operation ∈ operations, operation ∈ xset.plan.operations) (hworld : Level xset world)
    (stopRequested : Bool) :
    Faulty.wp Uncredited (fun _ later => Level xset later) (fun _ _ => True)
      (executeEach xset runId policies operations stopRequested) world := by
  induction operations generalizing stopRequested world with
  | nil => exact hworld
  | cons first rest ih =>
      have hrest := fun operation hmem => h operation (List.mem_cons_of_mem _ hmem)
      refine wp_bind.2 (wp_get.2 ?_)
      split
      · exact ih hrest hworld stopRequested
      · next hpending =>
          rw [not_or, not_not] at hpending
          have hopen : world.status.get? first.opId = none := by
            simpa [Dict.contains] using hpending.2
          refine wp_bind.2 ((executeOne_wp hworld ⟨h first List.mem_cons_self, hpending.1⟩ hopen
            stopRequested).mono (fun stopped later h => ?_) fun _ _ h => h)
          exact ih hrest h stopped

theorem executeAll_wp (hworld : Level xset world) :
    Faulty.wp Uncredited (fun _ later => Level xset later) (fun _ _ => True)
      (executeAll xset runId policies) world := by
  refine wp_bind.2 ((executeEach_wp (fun _ h => h) hworld false).mono (fun _ later h => ?_)
    fun _ _ h => h)
  have hrestore : (restoreCompletedDirectoryMetadata xset).Does (fun _ => True) (fun _ => True)
      (Calm xset false) fun _ => True :=
    restoreCompletedDirectoryMetadata_does (fun _ => trivial) (fun _ _ _ _ _ _ => trivial) trivial
  have hflush : flushAtEnd.Does (fun _ => True) (fun _ => True) (Calm xset false) fun _ => True :=
    flushAtEnd_does (fun _ => trivial) trivial
  refine wp_bind.2 ((finalizeDirectories_wp h).mono (fun _ later h => ?_) fun _ _ _ => trivial)
  refine wp_bind.2 ((h.wp hrestore).mono (fun _ later h => ?_) fun _ _ _ => trivial)
  exact (h.2.wp hflush).mono (fun _ _ h => h.2) fun _ _ _ => trivial

omit [Sha256] in
/-- The `except` branches raise. -/
theorem leave_wp {Q : Unit → World → Prop} (error : Error) :
    Faulty.wp Uncredited Q (fun _ _ => True) (leave xset policies error) world := by
  unfold leave
  split
  · refine raising_wp fun _ _ => raising_wp fun _ _ => ?_
    exact raising_wp fun _ _ => raising_wp fun _ _ => trivial
  · refine raising_wp fun _ _ => raising_wp fun _ _ => ?_
    exact raising_wp fun _ _ => raising_wp fun _ _ => trivial
  · exact raising_wp fun _ _ => raising_wp fun _ _ => trivial

omit [Host] [Sha256] in
/-- A new call starts level: what it has is what earlier calls earned. -/
theorem start_level (world : World) (hstatus : world.status = xset.status) :
    Level xset (Note.write world (.start (completedDirectories xset world.status)
      (initialProgress xset world.status))) := by
  have hcommitted : (initialProgress xset world.status).committedBytes =
      earned xset world.status := by
    show ((xset.plan.operations.filter fun operation =>
      decide (world.status.get? operation.opId = some .succeeded) &&
        countsBytes operation.kind).map (·.contentBytes)).sum = _
    rw [sum_filter_eq]
    unfold earned
    refine congrArg List.sum (List.map_congr_left fun operation _ => ?_)
    unfold earning
    refine if_congr ?_ rfl rfl
    rw [Bool.and_eq_true, decide_eq_true_iff]
    refine ⟨fun h => ⟨?_, h.2, h.1⟩, fun h => ⟨h.2.2, h.2.1⟩⟩
    refine xset.status_selected _ (hstatus ▸ ?_)
    rw [← Dict.contains_iff, Dict.contains, h.1]
    rfl
  refine ⟨hcommitted, ?_, rfl, fun operation hmem => absurd hmem List.not_mem_nil⟩
  show min (initialProgress xset world.status).committedBytes (bytesToDo xset) = _
  rw [hcommitted, min_eq_left (earned_le xset _)]
  exact hcommitted.symm

theorem execute_wp (xset : ExecutionSet) (runId : RunId) (policies : ExecutorPolicies)
    (world : World) (hstatus : world.status = xset.status) :
    Faulty.wp Uncredited (fun result later => result.bytesDone = earned xset later.status)
      (fun _ _ => True) (execute xset runId policies) world := by
  have hemit : (emit (.phaseChanged "execute")).Does (fun _ => True) (fun _ => True)
      (Calm xset false) fun _ => True := does_call trivial trivial
  have hshow : (emitProgress policies true).Does (fun _ => True) (fun _ => True)
      (Calm xset false) fun _ => True :=
    emitProgress_does policies true trivial trivial (fun _ => trivial) trivial
  refine wp_bind.2 (wp_get.2 (wp_bind.2 (wp_put.2 ?_)))
  refine wp_bind.2 (((start_level world hstatus).wp hemit).mono (fun _ later h => ?_)
    fun _ _ _ => trivial)
  refine wp_bind.2 ((h.2.wp hshow).mono (fun _ later h => ?_) fun _ _ _ => trivial)
  refine wp_bind.2 (wp_catching.2 ((executeAll_wp h.2).mono (fun _ later h => ?_)
    fun error _ _ => leave_wp error))
  have hkept : Faulty.wp Uncredited (fun _ last => True ∧ last.status = later.status)
      (fun _ last => last.status = later.status) (emitProgress policies true) later :=
    hshow.wp (fun _ _ => trivial) (fun _ _ _ _ hbefore heffect =>
      (effect_eq heffect).1.trans hbefore) (fun _ hnote _ hbefore =>
      (calm_status hnote _).trans hbefore) (fun _ _ => trivial) rfl
  refine wp_bind.2 (wp_get.2 (wp_bind.2 (hkept.mono (fun _ last hsame => ?_)
    fun _ _ _ => trivial)))
  show min later.progress.bytesDone later.progress.bytesTotal = earned xset last.status
  rw [hsame.2, h.level, h.committed, h.total]
  exact min_eq_left (earned_le xset _)

/-! ## A whole call

The two halves put together, from the first note of the call on. -/

/-- After the first note of a call, what it emits stays in order. -/
theorem execute_steady (xset : ExecutionSet) (runId : RunId) (policies : ExecutorPolicies)
    (world : World) :
    Faulty.wp ⟨fun _ _ _ => True, fun _ => True⟩ (fun _ later => Steady world.events later)
      (fun _ later => Steady world.events later) (execute xset runId policies) world := by
  refine wp_bind.2 (wp_get.2 (wp_bind.2 (wp_put.2 ?_)))
  have hcall : ∀ call, RunCall xset runId call → ∀ before after : World,
      Tidy xset runId before ∧ Steady world.events before → call.effect before = .ok after →
        Tidy xset runId after ∧ Steady world.events after := by
    intro call hcall before after hbefore heffect
    have hstate := (effect_eq heffect).2.1
    refine ⟨⟨?_, ?_⟩, hbefore.2.effect hcall heffect⟩
    · rw [hstate]
      exact hbefore.1.inflight
    · rw [hstate]
      exact hbefore.1.pending
  have hnote : ∀ note, RunNote xset runId note → ∀ before : World,
      Tidy xset runId before ∧ Steady world.events before →
        Tidy xset runId (note.write before) ∧ Steady world.events (note.write before) := by
    intro note hnote before hbefore
    refine ⟨hbefore.1.noted xset runId hnote, hbefore.2.noted fun restore tracker heq => ?_⟩
    rw [heq] at hnote
    exact hnote
  refine (execute_runs.wp (J := fun later => Tidy xset runId later ∧ Steady world.events later)
    (fun _ h => h.1) hcall hnote (fun _ _ => trivial)
    ⟨Tidy.start xset runId world _ _, [], (List.append_nil _).symm, List.Pairwise.nil, ?_⟩).mono
      (fun _ _ h => h.2.2) fun _ _ h => h.2
  exact fun progress hmem => absurd hmem List.not_mem_nil

/-- What a call of `execute` emits is within its totals, and its counters do
not fall, however the call ends.  If no operation fails with bytes counted,
the bytes of the result are those of the operations that have succeeded. -/
theorem progress_truthful (xset : ExecutionSet) (runId : RunId) (policies : ExecutorPolicies)
    (env : Env machine) (world : World) :
    let run := (execute xset runId policies).start env { world with status := xset.status }
    (∃ emitted, run.2.state.events = world.events ++ emitted ∧
      (progressOf emitted).Pairwise NotAfter ∧
      ∀ progress ∈ progressOf emitted,
        (∀ total ∈ progress.itemsTotal, progress.itemsDone ≤ total) ∧
        ∀ total ∈ progress.bytesTotal, progress.bytesDone ≤ total) ∧
    (Uncredited.Governs run.2.trace → ∀ result, run.1 = .ok result →
      result.bytesDone = earned xset run.2.state.status) := by
  intro run
  constructor
  · have hrun :=
      ((execute_steady xset runId policies { world with status := xset.status }).start
        (fun _ _ => trivial : Regime.Governs _ run.2.trace)).2
    have hsteady : Steady world.events run.2.state := by
      cases hresult : run.1 with
      | ok result => exact Lands.of_ok hrun hresult
      | error error => exact Lands.of_error hrun hresult
    obtain ⟨emitted, hevents, hordered, -⟩ := hsteady
    exact ⟨emitted, hevents, hordered, fun progress _ => ⟨progress.items_le, progress.bytes_le⟩⟩
  · intro hgoverns result hresult
    have hrun :=
      ((execute_wp xset runId policies { world with status := xset.status } rfl).start hgoverns).2
    exact Lands.of_ok hrun hresult

end Loop

end Runs

end Truth

/-! A file of three bytes is to be copied.  The copy has been written when the
temp cannot be flushed to the disk. -/

section Sample

local instance creditedUnicode : Unicode := asciiUnicode

/-- An NTFS volume, and the clocks counted from a point in time. -/
local instance creditedHost : Host where
  fileTime n := 1700000000000000000 + 1000000 * n
  storedTime mtimeNs := mtimeNs / 100 * 100
  fileAttributes := 0x20
  directoryAttributes := 0x10
  monotonic n := 1000 * n
  utcNow n := 1700000000000000 + 1000 * n

/-- The digest of the three bytes. -/
local instance creditedDigest : Sha256 where
  digest _ := [3, 144, 88, 198, 242, 192, 203, 73, 44, 83, 59, 10, 77, 20, 239, 119, 204, 15, 120,
    171, 204, 206, 213, 40, 125, 132, 161, 162, 1, 28, 251, 129]
  digest_length _ := rfl

def creditedPath : RelPath := .single (str "notes") (by decide +kernel)

def creditedStat : FileStat where
  kind := .file
  size := 3
  mtimeNs := 1690000000000000000
  fileIdentity := some (volumeA.identity 0)
  nlink := 1
  metadata := ⟨0x20, some 1690000000000000000⟩

def creditedProfile : CapabilityProfile := { ntfsProfile with incursSeekPenalty := some false }

def creditedCopy : PlanOperation where
  opId := 0x51c0ffee
  kind := .copy
  sourceRelPath := some creditedPath
  targetRelPath := creditedPath
  sourceExpected := some creditedStat
  targetExpected := none
  intended := some creditedStat
  contentBytes := 3
  reason := .sourceOnly

def creditedPlan : Plan where
  sourceRoot := dataRoot
  targetRoot := copyRoot
  sourceVolumeId := none
  targetVolumeId := none
  sourceVolumeEvidence := none
  targetVolumeEvidence := none
  sourceProfile := creditedProfile
  targetProfile := creditedProfile
  sourceComplete := true
  targetComplete := true
  operations := [creditedCopy]
  assignment := ⟨⟨str "identity", str "1"⟩, []⟩
  preservation := {}
  filterSnapshot := {}
  deletionPolicy := .trash
  trashOnUpdate := true
  policyFingerprint := []
  workerCount := 1
  requiredVolumes := []
  requiredBytes := 3
  checked := by decide

def creditedSet : ExecutionSet where
  plan := creditedPlan
  selection := [creditedCopy.opId]
  selection_known := fun _ h => h

def creditedPolicies : ExecutorPolicies where
  failure := boundedFailurePolicy 3 250

def creditedWorld : World where
  source :=
    { store := FileStore.Store.empty.alloc (loc creditedPath) (str "notes")
        ⟨false, [1, 2, 3], ⟨1690000000000000000, 0x20, some 1690000000000000000⟩⟩
      serial := volumeA.serial
      serial_ne := volumeA.serial_ne }
  target := { store := .empty, serial := volumeB.serial, serial_ne := volumeB.serial_ne }

/-- The disk does not take what was written to the temp. -/
def unflushed : Env machine
  | _, .ask (.flushFile path), _ => some (.before (.os path.text none))
  | _, _, _ => none

def creditedRun : Except Error OperationResult × Config machine :=
  (execute creditedSet 7 creditedPolicies).start unflushed creditedWorld

/-- Three bytes are done, and no operation has succeeded. -/
theorem progress_credited : ¬ ∀ result, creditedRun.1 = .ok result →
    result.bytesDone = earned creditedSet creditedRun.2.state.status := by
  intro h
  have hdone : creditedRun.1.toOption.map (·.bytesDone) = some 3 := by decide +kernel
  have hearned : earned creditedSet creditedRun.2.state.status = 0 := by decide +kernel
  obtain ⟨result, hresult, hbytes⟩ := Option.map_eq_some_iff.1 hdone
  cases hrun : creditedRun.1 with
  | error error =>
      rw [hrun] at hresult
      cases hresult
  | ok returned =>
      rw [hrun] at hresult
      obtain rfl := Option.some.inj hresult
      rw [h returned hrun, hearned] at hbytes
      cases hbytes

end Sample

end Executor

end NamiSync
