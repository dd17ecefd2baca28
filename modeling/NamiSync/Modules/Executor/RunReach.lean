/-
# `Modules.Executor.RunReach` — what a call of `execute` can touch

Every call and every note of `execute` belongs to a selected operation of the
plan.  The in-flight temp and the pending directories are data that the
program reads back; what is in them is kept as an invariant.

## What is proved

    execute_runs : everything `execute` does after its first note is a call
      of `RunCall` or a note of `RunNote`

The in-flight temp is the reason for an invariant: the sweep after a failure
removes the path that a note has stored, so what was stored has to be the temp
of a selected operation (`Tidy.inflight`), and likewise for the directories
that wait for their metadata.
-/
import NamiSync.Modules.Executor.Reach

namespace NamiSync

namespace Executor

open Faulty Faulty.Prog

section Calls

variable [Unicode] (xset : ExecutionSet) (runId : RunId)

/-- A selected operation of the plan. -/
def Chosen (operation : PlanOperation) : Prop :=
  operation ∈ xset.plan.operations ∧ operation.opId ∈ xset.selection

/-- The temp of a selected operation. -/
def Owned (temp : RelPath) : Prop :=
  ∃ operation, Chosen xset operation ∧ countsBytes operation.kind = true ∧
    temp = tempOf runId operation

/-- What the program reads back. -/
structure Tidy (world : World) : Prop where
  inflight : ∀ temp ∈ world.state.inflightTemp, Owned xset runId temp
  pending : ∀ operation ∈ world.state.pendingDirectories,
    Chosen xset operation ∧ operation.kind = .mkdir

/-- The changes of a run: those of an operation, or a directory with its
metadata. -/
def RunChange (step : Change) : Prop :=
  ∃ operation, Chosen xset operation ∧
    (Reaches xset runId operation step ∨
      operation.kind = .mkdir ∧
        (step = .mkdir operation.targetRelPath ∨ MetadataOf operation.targetRelPath step))

/-- The calls of a run. -/
def RunCall : Call → Prop
  | .ask _ | .clock | .emitProgress => True
  | .emit body => body = .phaseChanged "execute" ∨
      ∃ operation settled, Chosen xset operation ∧ body = .itemOutcome (itemOf operation settled)
  | .change step => RunChange xset runId step
  | .record call =>
      ∃ operation, Chosen xset operation ∧ call.op = operation.opId ∧ call.kind = operation.kind

/-- The notes of a run after its first. -/
def RunNote : Note → Prop
  | .start _ _ => False
  | .inflight temp => ∀ path ∈ temp, Owned xset runId path
  | .pend operation => Chosen xset operation ∧ operation.kind = .mkdir
  | .settle id item =>
      ∃ operation settled, Chosen xset operation ∧ id = operation.opId ∧
        item = itemOf operation settled
  | .progress (.start operation) | .progress (.settled operation _) => Chosen xset operation
  | .progress (.copied _) | .progress (.emitted _) | .current _ | .keep _ _ | .forget _
  | .takePending | .unready _ | .degrade | .filesystemFailed => True

variable {xset runId}

/-! ## From an operation to the run

What an operation may do, a run may do.  The contract of the run is wider by the
directories and by what `execute` itself emits and asks. -/

theorem runAsks (question : Question) : RunCall xset runId (.ask question) := trivial

theorem runCall_of_op {operation : PlanOperation} (h : Chosen xset operation) {call : Call}
    (hcall : OpCall xset runId operation call) : RunCall xset runId call := by
  cases call with
  | change step => exact ⟨operation, h, Or.inl hcall⟩
  | record record => exact ⟨operation, h, hcall⟩
  | emit body => exact hcall.elim
  | _ => trivial

theorem runNote_of_op {operation : PlanOperation} (h : Chosen xset operation) {note : Note}
    (hnote : OpNote runId operation note) : RunNote xset runId note := by
  cases note with
  | inflight temp =>
      rcases hnote with rfl | ⟨hkind, rfl⟩
      · intro path hpath
        cases hpath
      · intro path hpath
        obtain rfl := Option.some.inj hpath
        exact ⟨operation, h, hkind, rfl⟩
  | progress step =>
      cases step with
      | start operation => exact hnote.elim
      | settled operation outcome => exact hnote.elim
      | _ => trivial
  | settle id item => exact hnote.elim
  | start restore tracker => exact hnote.elim
  | pend operation => exact hnote.elim
  | _ => trivial

variable (xset runId)

/-- A call starts with nothing to read back. -/
theorem Tidy.start (world : World) (restore : List OpId) (tracker : ProgressTracker) :
    Tidy xset runId (Note.write world (.start restore tracker)) where
  inflight temp htemp := by cases htemp
  pending operation hmem := absurd hmem List.not_mem_nil

/-- A note of a run keeps what is read back tidy. -/
theorem Tidy.noted {world : World} (h : Tidy xset runId world) {note : Note}
    (hnote : RunNote xset runId note) : Tidy xset runId (note.write world) := by
  cases note with
  | start restore tracker => exact hnote.elim
  | inflight temp => exact ⟨hnote, h.pending⟩
  | pend operation =>
      refine ⟨h.inflight, fun other hmem => ?_⟩
      rcases List.mem_append.1 hmem with hmem | hmem
      · exact h.pending other hmem
      · rw [List.mem_singleton.1 hmem]
        exact hnote
  | takePending => exact ⟨h.inflight, fun other hmem => absurd hmem List.not_mem_nil⟩
  | _ => exact ⟨h.inflight, h.pending⟩

end Calls

/-- A question changes nothing. -/
theorem ask_eq [Unicode] {question : Question} {before after : World}
    (h : question.effect before = .ok after) : after = before := by
  unfold Question.effect at h
  split at h
  · split at h
    · exact (Except.ok.inj h).symm
    · cases h
  · split at h
    · exact (Except.ok.inj h).symm
    · cases h
  · split at h
    · exact (Except.ok.inj h).symm
    · cases h
  · split at h
    · exact (Except.ok.inj h).symm
    · cases h
  · split at h
    · cases h
    · split at h
      · cases h
      · exact (Except.ok.inj h).symm
  · exact (Except.ok.inj h).symm

/-- A call changes nothing but the trees, the clock, the events and the
records. -/
theorem effect_eq [Unicode] [Host] {call : Call} {before after : World}
    (h : call.effect before = .ok after) :
    after.status = before.status ∧ after.state = before.state ∧
      after.progress = before.progress ∧ after.source = before.source := by
  cases call with
  | ask question =>
      obtain rfl := ask_eq h
      exact ⟨rfl, rfl, rfl, rfl⟩
  | change step =>
      unfold Call.effect at h
      dsimp only at h
      split at h
      · obtain rfl := Except.ok.inj h
        exact ⟨rfl, rfl, rfl, rfl⟩
      · exact absurd h (by simp)
  | clock =>
      obtain rfl := Except.ok.inj h
      exact ⟨rfl, rfl, rfl, rfl⟩
  | emit body =>
      obtain rfl := Except.ok.inj h
      exact ⟨rfl, rfl, rfl, rfl⟩
  | emitProgress =>
      unfold Call.effect at h
      dsimp only at h
      split at h
      · obtain rfl := Except.ok.inj h
        exact ⟨rfl, rfl, rfl, rfl⟩
      · exact absurd h (by simp)
  | record call =>
      obtain rfl := Except.ok.inj h
      exact ⟨rfl, rfl, rfl, rfl⟩

/-! ## Helpers of the loop

The helpers that only `execute` calls, under an arbitrary contract as those of
`Modules.Executor.Reach`. -/

section Helpers

variable [Unicode] [Host] {I : World → Prop} {A : Call → Prop} {N : Note → Prop}

theorem cleanupInflight_does
    (hremove : ∀ world, I world → ∀ temp ∈ world.state.inflightTemp,
      A (.change (.removeOwnedTemp temp)))
    (hnote : N (.inflight none)) : cleanupInflight.Does I A N fun _ => True := by
  refine does_bind.2 (get_does fun world hworld => ?_)
  cases htemp : world.state.inflightTemp with
  | none => trivial
  | some temp =>
      have hcall := hremove world hworld temp (by rw [htemp]; rfl)
      refine does_bind.2 (note_does hnote ?_)
      exact catchException_does (does_bind.2 (change_does hcall trivial)) fun _ => trivial

variable (hask : ∀ question, A (.ask question))

include hask

theorem startDirectory_does {operation : PlanOperation}
    (hmkdir : A (.change (.mkdir operation.targetRelPath))) (hnote : N (.pend operation)) :
    (startDirectory operation).Does I A N fun _ => True := by
  refine does_bind.2 (guardAbsent_does hask _ ?_)
  refine does_bind.2 (ask_does hask _ ?_)
  refine does_bind.2 (catchFileExists_does (change_does hmkdir ?_) fun _ => trivial)
  exact note_does hnote trivial

theorem flushAtEnd_does (hnote : N .degrade) : flushAtEnd.Does I A N fun _ => True :=
  catchException_does (ask_does hask _ trivial) fun _ => note_does hnote trivial

theorem restoreDirectory_does {xset : ExecutionSet} {operation : PlanOperation}
    (hmeta : operation.kind = .mkdir → operation.opId ∈ xset.selection →
      ∀ step, MetadataOf operation.targetRelPath step → A (.change step))
    (hnote : N .filesystemFailed) : (restoreDirectory xset operation).Does I A N fun _ => True := by
  refine does_bind.2 (get_does fun world _ => ?_)
  split
  · trivial
  · next h =>
      simp only [not_or, not_not] at h
      split
      · trivial
      · refine catchException_does (does_bind.2 (ask_does hask _ ?_)) fun _ =>
          note_does hnote trivial
        exact applyMetadata_does hask _ _ _ (hmeta h.1 h.2.1) trivial

theorem restoreCompletedDirectoryMetadata_does {xset : ExecutionSet}
    (hmeta : ∀ operation ∈ xset.plan.operations, operation.kind = .mkdir →
      operation.opId ∈ xset.selection →
      ∀ step, MetadataOf operation.targetRelPath step → A (.change step))
    (hnote : N .filesystemFailed) :
    (restoreCompletedDirectoryMetadata xset).Does I A N fun _ => True := by
  have heach : ∀ operations : List PlanOperation,
      (∀ operation ∈ operations, operation ∈ xset.plan.operations) →
      (restoreEach xset operations).Does I A N fun _ => True := by
    intro operations
    induction operations with
    | nil => exact fun _ => trivial
    | cons first rest ih =>
        intro h
        refine does_bind.2 ((restoreDirectory_does hask
          (hmeta first (h first List.mem_cons_self)) hnote).post fun _ _ => ?_)
        exact ih fun operation hmem => h operation (List.mem_cons_of_mem _ hmem)
  exact heach _ fun operation hmem => List.mem_reverse.1 hmem

theorem beforeRetry_does {operation : PlanOperation} (after : Nat)
    (hremove : ∀ world, I world → ∀ temp ∈ world.state.inflightTemp,
      A (.change (.removeOwnedTemp temp)))
    (hnote : N (.inflight none)) : (beforeRetry operation after).Does I A N fun _ => True := by
  have hrest : Prog.Does I A N (fun _ => True) (do
      checkpoint
      ask (.sleep after)
      checkpoint) :=
    does_bind.2 (ask_does hask _ (does_bind.2 (ask_does hask _ (ask_does hask _ trivial))))
  refine does_bind.2 (get_does fun world _ => ?_)
  refine does_bind.2 (onlyIf_does (fun _ => ?_) hrest)
  exact does_bind.2 ((cleanupInflight_does hremove hnote).post fun _ _ => hrest)

end Helpers

/-! ## The programs of the loop

`Runs` is the contract of the run with `Tidy` as its invariant: a program that
reads the in-flight temp or the pending directories knows what they are. -/

section Programs

variable [Unicode] [Host] {xset : ExecutionSet} {runId : RunId} {policies : ExecutorPolicies}
  {operation : PlanOperation}

/-- What a program of a run does, and what it returns. -/
abbrev Runs (xset : ExecutionSet) (runId : RunId) {α : Type} (P : α → Prop) (m : Exec α) : Prop :=
  m.Does (Tidy xset runId) (RunCall xset runId) (RunNote xset runId) P

theorem emit_runs {body : EventBody} (h : RunCall xset runId (.emit body)) :
    Runs xset runId (fun _ => True) (emit body) :=
  does_call h trivial

theorem advance_runs {step : ProgressStep} (h : RunNote xset runId (.progress step)) :
    Runs xset runId (fun _ => True) (advanceProgress policies step) :=
  does_bind.2 (note_does h (emitProgress_does policies false trivial trivial (fun _ => trivial)
    trivial))

theorem settle_runs (h : Chosen xset operation) (settled : Settled) :
    Runs xset runId (fun _ => True) (settle policies operation settled) := by
  refine does_bind.2 (get_does fun world _ => ?_)
  split
  · trivial
  · refine does_bind.2 (note_does ⟨operation, settled, h, rfl, rfl⟩ ?_)
    refine does_bind.2 ((emit_runs (Or.inr ⟨operation, settled, h, rfl⟩)).post fun _ _ => ?_)
    exact advance_runs h

theorem settleFailure_runs (h : Chosen xset operation) (error : Error) :
    Runs xset runId (fun _ => True) (settleFailure policies operation error) :=
  settle_runs h _

omit [Host] in
/-- The in-flight temp is one that may be removed. -/
theorem inflight_runs {world : World} (htidy : Tidy xset runId world) :
    ∀ temp ∈ world.state.inflightTemp, RunCall xset runId (.change (.removeOwnedTemp temp)) := by
  intro temp htemp
  obtain ⟨owner, howner, hkind, rfl⟩ := htidy.inflight temp htemp
  exact ⟨owner, howner, Or.inl (.fill hkind .remove)⟩

theorem cleanupInflight_runs : Runs xset runId (fun _ => True) cleanupInflight :=
  cleanupInflight_does (fun _ htidy => inflight_runs htidy) fun path hpath => by cases hpath

theorem startDirectory_runs (h : Chosen xset operation) (hkind : operation.kind = .mkdir) :
    Runs xset runId (fun _ => True) (startDirectory operation) :=
  startDirectory_does runAsks ⟨operation, h, Or.inr ⟨hkind, Or.inl rfl⟩⟩ ⟨h, hkind⟩

omit [Host] in
theorem directoryMetadata_runs (h : Chosen xset operation) (hkind : operation.kind = .mkdir)
    {step : Change} (hstep : MetadataOf operation.targetRelPath step) :
    RunCall xset runId (.change step) :=
  ⟨operation, h, Or.inr ⟨hkind, Or.inr hstep⟩⟩

theorem finalizeDirectory_runs (h : Chosen xset operation) (hkind : operation.kind = .mkdir) :
    Runs xset runId (fun _ => True) (finalizeDirectory xset policies operation) := by
  unfold finalizeDirectory
  split
  · refine does_bind.2 (failIf_does _ _ fun _ => ?_)
    refine does_bind.2 (ask_does runAsks _ ?_)
    refine does_bind.2 (applyMetadata_does runAsks _ _ _
      (fun _ hstep => directoryMetadata_runs h hkind hstep) ?_)
    refine does_bind.2 (durabilityDetail_does runAsks _ _ fun _ => ?_)
    refine does_bind.2 (observedStat_does runAsks _ _ fun actual => ?_)
    refine does_bind.2 (record_does _ ⟨operation, h, rfl, hkind.symm⟩ trivial fun _ => ?_)
    exact settle_runs h _
  · trivial

theorem finalizeEach_runs {operations : List PlanOperation}
    (h : ∀ operation ∈ operations, Chosen xset operation ∧ operation.kind = .mkdir) :
    Runs xset runId (fun _ => True) (finalizeEach xset policies operations) := by
  induction operations with
  | nil => trivial
  | cons first rest ih =>
      obtain ⟨hfirst, hkind⟩ := h first List.mem_cons_self
      have hone : Runs xset runId (fun _ => True)
          ((catchFailure (finalizeDirectory xset policies first) fun error =>
            settleFailure policies first error).ensuring (put (.unready first.opId))) :=
        does_ensuring (catchFailure_does (finalizeDirectory_runs hfirst hkind)
          fun error => settleFailure_runs hfirst error) (note_does trivial trivial)
      exact does_bind.2 (hone.post fun _ _ =>
        ih fun operation hmem => h operation (List.mem_cons_of_mem _ hmem))

theorem finalizeDirectories_runs :
    Runs xset runId (fun _ => True) (finalizeDirectories xset policies) := by
  refine does_bind.2 (get_does fun world htidy => ?_)
  refine does_bind.2 (note_does trivial ?_)
  refine finalizeEach_runs fun operation hmem => htidy.pending operation ?_
  exact mem_sortedBy.1 hmem

theorem restoreCompletedDirectoryMetadata_runs :
    Runs xset runId (fun _ => True) (restoreCompletedDirectoryMetadata xset) :=
  restoreCompletedDirectoryMetadata_does runAsks
    (fun _ hmem hkind hselected _ hstep => directoryMetadata_runs ⟨hmem, hselected⟩ hkind hstep)
    trivial

theorem flushAtEnd_runs : Runs xset runId (fun _ => True) flushAtEnd :=
  flushAtEnd_does runAsks trivial

theorem giveUp_runs (h : Chosen xset operation) (error : Error) :
    Runs xset runId (fun _ => True) (giveUp policies operation error) := by
  refine does_bind.2 (cleanupInflight_runs.post fun cleanup _ => ?_)
  exact does_bind.2 (note_does trivial (settleFailure_runs h _))

theorem beforeRetry_runs (after : Nat) :
    Runs xset runId (fun _ => True) (beforeRetry operation after) :=
  beforeRetry_does runAsks after (fun _ htidy => inflight_runs htidy) fun path hpath => by
    cases hpath

variable [Sha256]

theorem tryOperation_runs (h : Chosen xset operation) :
    Runs xset runId (fun _ => True) (tryOperation xset runId policies operation) := by
  have hop : Runs xset runId (fun _ => True) (executeOperation xset runId policies operation) :=
    executeOperation_does.mono (fun _ h => h) (fun _ hcall => runCall_of_op h hcall)
      (fun _ hnote => runNote_of_op h hnote) fun _ h => h
  exact catchFailure_does (does_bind.2 (hop.post fun _ _ => trivial)) fun _ => trivial

theorem attemptOnce_runs (h : Chosen xset operation) (number : Nat) {again : Option (Exec Bool)}
    (hagain : ∀ m ∈ again, Runs xset runId (fun _ => True) m) :
    Runs xset runId (fun _ => True)
      (attemptOnce xset runId policies operation number again) := by
  refine does_bind.2 ((tryOperation_runs h).post fun attempted _ => ?_)
  cases attempted with
  | ok settled =>
      refine does_bind.2 (note_does trivial ?_)
      exact does_bind.2 ((settle_runs h settled).post fun _ _ => trivial)
  | error error =>
      refine does_bind.2 (ask_does runAsks _ ?_)
      have hgive : ∀ stopped : Bool, Runs xset runId (fun _ => True) (do
          giveUp policies operation error
          return stopped) := fun stopped =>
        does_bind.2 ((giveUp_runs h error).post fun _ _ => trivial)
      split
      · next later _ =>
          refine does_bind.2 ((beforeRetry_runs _).post fun _ _ => ?_)
          exact hagain later rfl
      · exact hgive true
      · exact hgive false

theorem attempt_runs (h : Chosen xset operation) (left number : Nat) :
    Runs xset runId (fun _ => True) (attempt xset runId policies operation left number) := by
  induction left generalizing number with
  | zero => exact attemptOnce_runs h number fun m hm => by cases hm
  | succ left ih =>
      refine attemptOnce_runs h number fun m hm => ?_
      obtain rfl := Option.some.inj hm
      exact ih (number + 1)

theorem executeOne_runs (h : Chosen xset operation) (stopRequested : Bool) :
    Runs xset runId (fun _ => True)
      (executeOne xset runId policies operation stopRequested) := by
  have hsettle : ∀ (settled : Settled) (stopped : Bool), Runs xset runId (fun _ => True) (do
      settle policies operation settled
      return stopped) := fun settled stopped =>
    does_bind.2 ((settle_runs h settled).post fun _ _ => trivial)
  refine does_bind.2 (note_does trivial ?_)
  refine does_bind.2 (ask_does runAsks _ ?_)
  have hstart : RunNote xset runId (.progress (.start operation)) := h
  refine does_bind.2 ((advance_runs hstart).post fun _ _ => ?_)
  refine does_bind.2 (get_does fun world _ => ?_)
  split
  · exact hsettle _ true
  · split
    · exact hsettle _ false
    · split
      · exact hsettle _ false
      · split
        · next hkind =>
            refine does_bind.2 (catchFailure_does ((startDirectory_runs h hkind).post
              fun _ _ => trivial) fun error => ?_)
            exact (settleFailure_runs h error).post fun _ _ => trivial
        · exact attempt_runs h _ _

/-- The loop: each operation is one of the plan, and does nothing unless it is selected. -/
theorem executeEach_runs {operations : List PlanOperation} (stopRequested : Bool)
    (h : ∀ operation ∈ operations, operation ∈ xset.plan.operations) :
    Runs xset runId (fun _ => True)
      (executeEach xset runId policies operations stopRequested) := by
  induction operations generalizing stopRequested with
  | nil => trivial
  | cons first rest ih =>
      have hrest := fun stopRequested =>
        ih stopRequested fun operation hmem => h operation (List.mem_cons_of_mem _ hmem)
      refine does_bind.2 (get_does fun world _ => ?_)
      split
      · exact hrest stopRequested
      · next hpending =>
          rw [not_or, not_not] at hpending
          refine does_bind.2 ((executeOne_runs ⟨h first List.mem_cons_self, hpending.1⟩
            stopRequested).post fun stopped _ => hrest stopped)

theorem executeAll_runs : Runs xset runId (fun _ => True) (executeAll xset runId policies) := by
  refine does_bind.2 ((executeEach_runs false fun _ h => h).post fun _ _ => ?_)
  refine does_bind.2 (finalizeDirectories_runs.post fun _ _ => ?_)
  exact does_bind.2 (restoreCompletedDirectoryMetadata_runs.post fun _ _ => flushAtEnd_runs)

omit [Sha256] in
theorem cancelEach_runs (cleanupError : Option Error) {operations : List PlanOperation}
    (h : ∀ operation ∈ operations, operation ∈ xset.plan.operations) :
    Runs xset runId (fun _ => True) (cancelEach xset policies cleanupError operations) := by
  induction operations with
  | nil => trivial
  | cons first rest ih =>
      have hrest := ih fun operation hmem => h operation (List.mem_cons_of_mem _ hmem)
      refine does_bind.2 (get_does fun world _ => ?_)
      refine does_bind.2 (onlyIf_does (fun hselected => ?_) hrest)
      exact (settle_runs ⟨h first List.mem_cons_self, of_decide_eq_true hselected⟩ _).post
        fun _ _ => hrest

omit [Sha256] in
/-- The `except` branches: the cleanup and the sweep. -/
theorem leave_runs (error : Error) :
    Runs xset runId (fun _ => True) (leave xset policies error) := by
  unfold leave
  split
  · refine does_bind.2 (cleanupInflight_runs.post fun cleanup _ => ?_)
    refine does_bind.2 (finalizeDirectories_runs.post fun _ _ => ?_)
    refine does_bind.2 ((cancelEach_runs cleanup fun _ h => h).post fun _ _ => ?_)
    exact does_bind.2 (flushAtEnd_runs.post fun _ _ => trivial)
  · refine does_bind.2 (cleanupInflight_runs.post fun cleanup _ => ?_)
    refine does_bind.2 (finalizeDirectories_runs.post fun _ _ => ?_)
    refine does_bind.2 (restoreCompletedDirectoryMetadata_runs.post fun _ _ => ?_)
    exact does_bind.2 (flushAtEnd_runs.post fun _ _ => trivial)
  · refine does_bind.2 (cleanupInflight_runs.post fun cleanup _ => ?_)
    exact does_bind.2 (flushAtEnd_runs.post fun _ _ => trivial)

/-- Everything after the first note of `execute`. -/
theorem execute_runs : Runs xset runId (fun _ => True) (do
    emit (.phaseChanged "execute")
    emitProgress policies true
    (executeAll xset runId policies).catching (leave xset policies)
    let world ← get id
    emitProgress policies true
    return executeResult xset world) := by
  have hemit : Runs xset runId (fun _ => True) (emitProgress policies true) :=
    emitProgress_does policies true trivial trivial (fun _ => trivial) trivial
  refine does_bind.2 ((emit_runs (Or.inl rfl)).post fun _ _ => ?_)
  refine does_bind.2 (hemit.post fun _ _ => ?_)
  refine does_bind.2 ((does_catching executeAll_runs fun error => leave_runs error).post
    fun _ _ => ?_)
  refine does_bind.2 (get_does fun world _ => ?_)
  exact does_bind.2 (hemit.post fun _ _ => trivial)

end Programs

end Executor

end NamiSync
