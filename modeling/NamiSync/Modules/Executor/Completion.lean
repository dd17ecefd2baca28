/-
# `Modules.Executor.Completion` — the ways out of a call

A call that returns, or raises `Canceled`, has settled every selected
operation: the loop settles it or leaves a pending directory, the pending
directories are finalized, and the cancel sweep settles the rest.  What can
go wrong is a signal out of the sweep; signals come from the points that ask
for one, and there is none in the `except` branches.

## What is proved

    execute_completes : against an environment that raises signals only where
      it is asked for one (`Punctual`), a call that returns or raises
      `Canceled` has settled every selected operation, and the result that it
      returns lists them in the order of the plan with their outcomes

## The condition

A signal out of the cancel sweep would leave the rest of the operations
unsettled.  `checkpoint` and the stream of a copy are where the source asks;
`Punctual` says that the collaborators raise `Canceled` and `PauseRequested`
nowhere else.  That no program raises one on its own is proved here too
(`Unsignaled`), function by function.

## What it is not

A call that raises `PauseRequested`, or an error of another kind, promises
nothing about the operations that are left: those are for the next call.
-/
import NamiSync.Modules.Executor.Settling

namespace NamiSync

namespace Executor

open Faulty Faulty.Prog

/-! ## Signals

A call that asks whether the run should go on may be answered by a signal; the
others may fail, but not in this way.  `Punctual` says this of an environment,
`Orderly` of what a run has met, and `Unsignaled` marks the programs that the
sweep consists of. -/

section Signals

variable [Unicode]

/-- The calls that do not ask whether the run should go on. -/
def Unpolled : Call → Prop
  | .ask .checkpoint | .ask (.sleep _) | .ask (.onItemFailed _ _) => False
  | _ => True

/-- Signals come from the calls that ask for them. -/
def Orderly [Host] : Regime machine where
  allows call _ answer := ∀ signal, answer = some (.signal signal) → ¬ Unpolled call
  safe _ := True

/-- Programs that raise no signal, as long as none is raised to them. -/
abbrev Unsignaled [Host] {α : Type} (m : Exec α) : Prop :=
  m.Raises Unpolled fun error : Error => error.isSignal = false

variable [Host] {α : Type} {m : Exec α} {xset : ExecutionSet} {policies : ExecutorPolicies}
  {operation : PlanOperation}

/-- An environment that raises signals only where it is asked. -/
def Punctual (env : Env machine) : Prop :=
  ∀ number call world error,
    env number call world = some (.before error) ∨ env number call world = some (.after error) →
    Unpolled call → error.isSignal = false

omit [Host] in
theorem Disk.unlink_unsignaled {disk : Disk} {now : Nat} {path : RelPath} {error : Error}
    (h : disk.unlink now path = .error error) : error.isSignal = false := by
  unfold Disk.unlink at h
  split at h
  · cases h; rfl
  · split at h
    · cases h; rfl
    · cases h

omit [Host] in
theorem Disk.rename_unsignaled {disk : Disk} {now : Nat} {source target : RelPath} {error : Error}
    (h : disk.rename now source target = .error error) : error.isSignal = false := by
  unfold Disk.rename at h
  split at h
  · cases h; rfl
  · split at h
    · cases h; rfl
    · split at h
      · cases h
      · cases h; rfl

omit [Host] in
theorem Disk.create_unsignaled {disk : Disk} {isDirectory : Bool} {attributes now : Nat}
    {path : RelPath} {error : Error}
    (h : disk.create isDirectory attributes now path = .error error) :
    error.isSignal = false := by
  unfold Disk.create at h
  split at h
  · cases h; rfl
  · split at h
    · cases h; rfl
    · cases h

omit [Host] in
theorem Disk.amendInfo_unsignaled {disk : Disk} {f : Info → Info} {path : RelPath} {error : Error}
    (h : disk.amendInfo f path = .error error) : error.isSignal = false := by
  unfold Disk.amendInfo at h
  split at h
  · cases h; rfl
  · cases h

/-- The operating system raises no signals. -/
theorem apply_unsignaled {step : Change} {disk : Disk} {now : Nat} {error : Error}
    (h : step.apply disk now = .error error) : error.isSignal = false := by
  cases step with
  | createTemp path => exact Disk.create_unsignaled h
  | mkdir path => exact Disk.create_unsignaled h
  | setTimes path mtimeNs =>
      unfold Change.apply at h
      exact Disk.amendInfo_unsignaled h
  | setCreationTime path createdNs =>
      unfold Change.apply at h
      exact Disk.amendInfo_unsignaled h
  | setAttributes path cleared set =>
      unfold Change.apply at h
      exact Disk.amendInfo_unsignaled h
  | rename source target => exact Disk.rename_unsignaled h
  | removeFile path => exact Disk.unlink_unsignaled h
  | write path bytes =>
      unfold Change.apply Disk.write at h
      dsimp only at h
      split at h
      · cases h; rfl
      · split at h
        · cases h; rfl
        · cases h
  | replace source target =>
      unfold Change.apply Disk.replace at h
      dsimp only at h
      split at h
      · exact Disk.rename_unsignaled h
      · split at h
        · cases h; rfl
        · split at h
          · cases h; rfl
          · split at h
            · next hunlink => exact Except.error.inj h ▸ Disk.unlink_unsignaled hunlink
            · exact Disk.rename_unsignaled h
  | hardlink source target =>
      unfold Change.apply Disk.link at h
      dsimp only at h
      split at h
      · cases h; rfl
      · split at h
        · cases h; rfl
        · split at h
          · cases h; rfl
          · split at h
            · cases h; rfl
            · cases h
  | removeDirectory path =>
      unfold Change.apply Disk.rmdir at h
      dsimp only at h
      split at h
      · cases h; rfl
      · split at h
        · cases h; rfl
        · split at h
          · cases h; rfl
          · split at h
            · cases h; rfl
            · cases h
  | removeOwnedTemp path =>
      unfold Change.apply Disk.removeOwnedTemp at h
      dsimp only at h
      split at h
      · cases h
      · exact Disk.unlink_unsignaled h

theorem effect_unsignaled {call : Call} {world : World} {error : Error}
    (h : call.effect world = .error error) : error.isSignal = false := by
  cases call with
  | ask question =>
      have h : question.effect world = .error error := h
      unfold Question.effect at h
      split at h
      · split at h
        · cases h
        · cases h; rfl
      · split at h
        · cases h
        · cases h; rfl
      · split at h
        · cases h
        · cases h; rfl
      · split at h
        · cases h
        · cases h; rfl
      · split at h
        · cases h; rfl
        · split at h
          · cases h; rfl
          · cases h
      · cases h
  | change step =>
      unfold Call.effect at h
      dsimp only at h
      split at h
      · cases h
      · next happly => exact Except.error.inj h ▸ apply_unsignaled happly
  | emitProgress =>
      unfold Call.effect at h
      dsimp only at h
      split at h
      · cases h
      · cases h; rfl
  | clock => cases h
  | emit body => cases h
  | record call => cases h

/-- Against a punctual environment a run is orderly. -/
theorem Punctual.governs {env : Env machine} (h : Punctual env) (m : Exec α) (world : World) :
    Orderly.Governs (m.start env world).2.trace := by
  refine Prog.answered (P := Orderly.allows) (fun number call before => ?_) m
    fun step hstep => absurd hstep List.not_mem_nil
  intro signal hanswer hunpolled
  have hsignal : ∀ error, (Faulty.answer (env number call before) call before).1 = some error →
      error.isSignal = false := by
    intro error hanswer
    unfold Faulty.answer at hanswer
    split at hanswer
    · next raised hfault =>
        exact Option.some.inj hanswer ▸ h number call before raised (Or.inl hfault) hunpolled
    · next raised hfault =>
        split at hanswer
        · exact Option.some.inj hanswer ▸ h number call before raised (Or.inr hfault) hunpolled
        · next heffect => exact Option.some.inj hanswer ▸ effect_unsignaled heffect
    · split at hanswer
      · cases hanswer
      · next heffect => exact Option.some.inj hanswer ▸ effect_unsignaled heffect
  cases hsignal _ hanswer

theorem Orderly.raises (h : Unsignaled m) (world : World) :
    Faulty.wp Orderly (fun _ _ => True) (fun error _ => error.isSignal = false) m world := by
  refine h.wp (fun call before error hcall hallow => ?_) (fun _ => trivial) world
  cases error with
  | signal signal => exact absurd hcall (hallow signal rfl)
  | _ => rfl

theorem change_unsignaled (step : Change) : Unsignaled (change step) := raises_call trivial

theorem stat_unsignaled (side : Side) (path : RelPath) : Unsignaled (stat side path) :=
  raises_bind (raises_call trivial) fun _ _ => trivial

theorem catchException_unsignaled {handler : Error → Exec α} (h : Unsignaled m)
    (hhandler : ∀ error, Unsignaled (handler error)) : Unsignaled (catchException m handler) := by
  refine raises_catching h fun error herror => ?_
  split
  · exact hhandler error
  · exact herror

theorem catchFailure_unsignaled {handler : Error → Exec α} (h : Unsignaled m)
    (hhandler : ∀ error, Unsignaled (handler error)) : Unsignaled (catchFailure m handler) := by
  refine raises_catching h fun error herror => ?_
  split
  · exact hhandler error
  · exact herror

theorem applyMetadata_unsignaled (path : RelPath) (stat : FileStat)
    (preserveCreated applyReadonly : Bool) :
    Unsignaled (applyMetadata path stat preserveCreated applyReadonly) := by
  refine raises_bind (change_unsignaled _) fun _ => raises_bind ?_ fun _ => ?_
  · unfold restoreCreated
    split
    · exact change_unsignaled _
    · exact raises_pure
  · exact raises_bind (raises_call trivial) fun _ => change_unsignaled _

theorem durabilityDetail_unsignaled (detail : Detail) (folders : List RootedPath) :
    Unsignaled (durabilityDetail detail folders) := by
  have hflush : ∀ folder, Unsignaled (flushDirectory folder) := fun folder =>
    catchException_unsignaled (raises_bind (raises_call trivial) fun _ => raises_pure)
      fun _ => raises_pure
  have hwarn : ∀ folders, Unsignaled (durabilityWarnings folders) := by
    intro folders
    induction folders with
    | nil => exact raises_pure
    | cons folder folders ih =>
        exact raises_bind (hflush folder) fun _ => raises_bind ih fun _ => raises_pure
  exact raises_bind (hwarn _) fun _ => raises_pure

theorem observedStat_unsignaled (path : RelPath) : Unsignaled (observedStat xset path) := by
  refine raises_bind (raises_bind (stat_unsignaled .target path) fun found => ?_) fun _ =>
    raises_pure
  cases found with
  | none => rfl
  | some found => exact raises_pure

theorem record_unsignaled (detail : Detail) (command : RecordCall) :
    Unsignaled (record detail command) :=
  catchException_unsignaled (raises_bind (raises_call trivial) fun _ => raises_pure)
    fun _ => trivial

theorem emitProgress_unsignaled (force : Bool) : Unsignaled (emitProgress policies force) := by
  refine raises_bind (raises_call trivial) fun _ => ?_
  refine raises_bind raises_get fun now => raises_bind raises_get fun last => ?_
  split
  · exact raises_pure
  · exact raises_bind raises_put fun _ => raises_call trivial

theorem advance_unsignaled (step : ProgressStep) : Unsignaled (advanceProgress policies step) :=
  raises_bind raises_put fun _ => emitProgress_unsignaled false

theorem settle_unsignaled (settled : Settled) :
    Unsignaled (settle policies operation settled) := by
  intro world
  show Prog.Raises _ _ (if world.status.contains operation.opId = true then pure () else do
    put (.settle operation.opId (itemOf operation settled))
    emit (.itemOutcome (itemOf operation settled))
    advanceProgress policies (.settled operation settled.outcome))
  split
  · exact raises_pure
  · exact raises_bind raises_put fun _ => raises_bind (raises_call trivial) fun _ =>
      advance_unsignaled _

theorem finalizeDirectory_unsignaled :
    Unsignaled (finalizeDirectory xset policies operation) := by
  unfold finalizeDirectory
  split
  · refine raises_bind ?_ fun _ => ?_
    · unfold failIf
      split
      · rfl
      · exact raises_pure
    · refine raises_bind (raises_call trivial) fun _ => ?_
      refine raises_bind (applyMetadata_unsignaled _ _ _ _) fun _ => ?_
      refine raises_bind (durabilityDetail_unsignaled _ _) fun _ => ?_
      refine raises_bind (observedStat_unsignaled _) fun _ => ?_
      exact raises_bind (record_unsignaled _ _) fun _ => settle_unsignaled _
  · rfl

theorem finalizeDirectories_unsignaled : Unsignaled (finalizeDirectories xset policies) := by
  have heach : ∀ operations, Unsignaled (finalizeEach xset policies operations) := by
    intro operations
    induction operations with
    | nil => exact raises_pure
    | cons first rest ih =>
        refine raises_bind (raises_ensuring ?_ trivial) fun _ => ih
        exact catchFailure_unsignaled finalizeDirectory_unsignaled fun _ => settle_unsignaled _
  exact fun _ => heach _

theorem restoreCompletedDirectoryMetadata_unsignaled :
    Unsignaled (restoreCompletedDirectoryMetadata xset) := by
  have hone : ∀ operation, Unsignaled (restoreDirectory xset operation) := by
    intro operation
    unfold restoreDirectory
    refine raises_bind raises_get fun restored => ?_
    split
    · exact raises_pure
    · split
      · exact raises_pure
      · exact catchException_unsignaled (raises_bind (raises_call trivial) fun _ =>
          applyMetadata_unsignaled _ _ _ _) fun _ => trivial
  have heach : ∀ operations, Unsignaled (restoreEach xset operations) := by
    intro operations
    induction operations with
    | nil => exact raises_pure
    | cons first rest ih => exact raises_bind (hone first) fun _ => ih
  exact heach _

theorem cleanupInflight_unsignaled : Unsignaled cleanupInflight := by
  unfold cleanupInflight
  refine raises_bind raises_get fun inflight => ?_
  cases inflight with
  | none => exact raises_pure
  | some temp =>
      exact raises_bind raises_put fun _ => catchException_unsignaled
        (raises_bind (change_unsignaled _) fun _ => raises_pure) fun _ => raises_pure

theorem flushAtEnd_unsignaled : Unsignaled flushAtEnd :=
  catchException_unsignaled (raises_call trivial) fun _ => trivial

theorem cancelEach_unsignaled (cleanupError : Option Error) (operations : List PlanOperation) :
    Unsignaled (cancelEach xset policies cleanupError operations) := by
  induction operations with
  | nil => exact raises_pure
  | cons first rest ih =>
      intro world
      refine raises_bind (m := onlyIf _ _) ?_ fun _ => ih
      unfold onlyIf
      split
      · exact settle_unsignaled _
      · exact raises_pure

end Signals

/-! ## What is settled

The goal of each program is that its operation has an outcome when it returns.
No hypothesis is about how it got there: a failed attempt is settled as failed,
a signal leaves through the `except` branches, where the sweep settles the rest. -/

section Completion

variable [Unicode]

/-- The operation has an outcome. -/
def HasStatus (world : World) (operation : PlanOperation) : Prop :=
  world.status.contains operation.opId = true

/-- Every selected operation has an outcome. -/
def AllSettled (xset : ExecutionSet) (world : World) : Prop :=
  ∀ operation, Chosen xset operation → HasStatus world operation

/-- The operation has an outcome, or is a directory that waits for its
metadata. -/
def Handled (world : World) (operation : PlanOperation) : Prop :=
  HasStatus world operation ∨ operation ∈ world.state.pendingDirectories

theorem HasStatus.kept {before after : World} {operation : PlanOperation}
    (h : HasStatus before operation) (hkept : StatusKept before after) :
    HasStatus after operation := by
  obtain ⟨outcome, hget⟩ := Option.isSome_iff_exists.1 h
  exact Option.isSome_iff_exists.2 ⟨outcome, hkept _ _ hget⟩

theorem Handled.kept {before after : World} {operation : PlanOperation}
    (h : Handled before operation) (honward : Onward before after) : Handled after operation :=
  h.imp (fun h => h.kept honward.status) fun h => honward.pending operation h

variable [Host] {α : Type} {xset : ExecutionSet} {runId : RunId} {policies : ExecutorPolicies}
  {operation : PlanOperation} {base world : World}

/-- No program takes outcomes away. -/
theorem settled_wp (world : World) (P : PlanOperation → Prop) (m : Exec α)
    (h : ∀ operation, P operation → HasStatus world operation) :
    Faulty.wp Orderly (fun _ later => ∀ operation, P operation → HasStatus later operation)
      (fun _ _ => True) m world := by
  have hany :
      ∀ m : Exec α, m.Does (fun _ => True) (fun _ => True) (fun _ => True) fun _ => True := by
    intro m
    induction m with
    | ret a => trivial
    | raise e => trivial
    | read f ih => exact fun s _ => ih s
    | note n m ih => exact ⟨trivial, ih⟩
    | act c f ih => exact ⟨trivial, fun r => ih r⟩
  refine ((hany m).wp (J := fun later => ∀ operation, P operation → HasStatus later operation)
    (fun _ _ => trivial) (fun call _ before after hbefore heffect => ?_)
    (fun note _ before hbefore => ?_) (fun _ _ => trivial) h).mono (fun _ _ h => h.2)
      fun _ _ _ => trivial
  · unfold HasStatus
    rw [(effect_eq heffect).1]
    exact hbefore
  · cases note with
    | settle id item =>
        intro operation hoperation
        show (before.status.set id item.outcome).contains operation.opId = true
        unfold Dict.contains
        rw [Dict.get?_set]
        split
        · rfl
        · exact hbefore operation hoperation
    | _ => exact hbefore

/-- `settle` leaves an outcome, its own or the one it has found. -/
theorem settle_settles (settled : Settled) (world : World) :
    Faulty.wp Orderly (fun _ later => HasStatus later operation) (fun _ _ => True)
      (settle policies operation settled) world := by
  refine wp_bind.2 (wp_get.2 ?_)
  split
  · next h => exact h
  · refine wp_bind.2 (wp_put.2 ?_)
    have hset : HasStatus (Note.write world (.settle operation.opId (itemOf operation settled)))
        operation := by
      show ((world.status.set operation.opId _).get? operation.opId).isSome = true
      rw [Dict.get?_set_self]
      rfl
    have hkept := settled_wp
      (Note.write world (.settle operation.opId (itemOf operation settled))) (· = operation)
      (emit (.itemOutcome (itemOf operation settled)) >>=
        fun _ => advanceProgress policies (.settled operation settled.outcome))
      fun other (hsame : other = operation) => hsame ▸ hset
    exact hkept.mono (fun _ _ h => h operation rfl) fun _ _ _ => trivial

theorem settleFailure_settles (error : Error) (world : World) :
    Faulty.wp Orderly (fun _ later => HasStatus later operation) (fun _ _ => True)
      (settleFailure policies operation error) world :=
  settle_settles _ world

/-- A program with something said after it. -/
theorem wp_then {β : Type} {m : Exec α} {k : α → Exec β} {Q : β → World → Prop}
    (h : ∀ a later, Faulty.wp Orderly Q (fun _ _ => True) (k a) later) :
    Faulty.wp Orderly Q (fun _ _ => True) (m >>= k) world :=
  wp_last (fun _ => trivial) h

omit [Host] in
theorem wp_return {β : Type} [Host] {m : Exec α} {b : β} {X : World → Prop}
    (h : Faulty.wp Orderly (fun _ => X) (fun _ _ => True) m world) :
    Faulty.wp Orderly (fun _ => X) (fun _ _ => True) (m >>= fun _ => pure b) world :=
  wp_bind.2 (h.mono (fun _ _ h => h) fun _ _ h => h)

theorem giveUp_settles (error : Error) (world : World) :
    Faulty.wp Orderly (fun _ later => HasStatus later operation) (fun _ _ => True)
      (giveUp policies operation error) world :=
  wp_then fun _ _ => wp_then fun _ later => settleFailure_settles _ later

theorem finalizeDirectory_settles (world : World) :
    Faulty.wp Orderly (fun _ later => HasStatus later operation) (fun _ _ => True)
      (finalizeDirectory xset policies operation) world := by
  unfold finalizeDirectory
  split
  · exact wp_then fun _ _ => wp_then fun _ _ => wp_then fun _ _ => wp_then fun _ _ =>
      wp_then fun _ _ => wp_then fun _ later => settle_settles _ later
  · trivial

/-- The directories that waited, one after another. -/
theorem finalizeEach_settles (operations : List PlanOperation) (world : World) :
    Faulty.wp Orderly (fun _ later => ∀ operation ∈ operations, HasStatus later operation)
      (fun _ _ => True) (finalizeEach xset policies operations) world := by
  induction operations generalizing world with
  | nil => exact fun operation hmem => absurd hmem List.not_mem_nil
  | cons first rest ih =>
      have hone : Faulty.wp Orderly (fun _ later => HasStatus later first) (fun _ _ => True)
          (catchFailure (finalizeDirectory xset policies first) fun error =>
            settleFailure policies first error) world := by
        refine wp_catching.2 ((finalizeDirectory_settles world).mono (fun _ _ h => h)
          fun error later _ => ?_)
        split
        · exact settleFailure_settles error later
        · trivial
      refine wp_bind.2 (wp_ensuring (hone.mono (fun _ later h => ?_) fun _ _ _ => trivial))
      have hkept := settled_wp (Note.write later (.unready first.opId)) (· = first)
        (finalizeEach xset policies rest) fun other (hsame : other = first) => hsame ▸ h
      refine ((ih _).both hkept).mono (fun _ last h operation hmem => ?_) fun _ _ _ => trivial
      rcases List.mem_cons.1 hmem with rfl | hmem
      · exact h.2 operation rfl
      · exact h.1 operation hmem

/-- The pending directories are settled. -/
theorem finalizeDirectories_settles (h : ∀ operation, Chosen xset operation →
    Handled world operation) :
    Faulty.wp Orderly (fun _ later => AllSettled xset later) (fun _ _ => True)
      (finalizeDirectories xset policies) world := by
  refine wp_bind.2 (wp_get.2 (wp_bind.2 (wp_put.2 ?_)))
  have hkept := settled_wp (Note.write world .takePending) (HasStatus world)
    (finalizeEach xset policies (sortedBy (fun operation : PlanOperation =>
      OrderDual.toDual operation.targetRelPath.depth) world.state.pendingDirectories))
    fun _ hstatus => hstatus
  refine ((finalizeEach_settles _ _).both hkept).mono (fun _ later hlater operation hchosen => ?_)
    fun _ _ _ => trivial
  rcases h operation hchosen with hstatus | hpending
  · exact hlater.2 operation hstatus
  · exact hlater.1 operation (mem_sortedBy.2 hpending)

/-- The sweep: what has no outcome gets one. -/
theorem cancelEach_settles (cleanupError : Option Error) (operations : List PlanOperation)
    (world : World) :
    Faulty.wp Orderly
      (fun _ later => ∀ operation ∈ operations, operation.opId ∈ xset.selection →
        HasStatus later operation)
      (fun _ _ => True) (cancelEach xset policies cleanupError operations) world := by
  induction operations generalizing world with
  | nil => exact fun operation hmem => absurd hmem List.not_mem_nil
  | cons first rest ih =>
      refine wp_bind.2 (wp_get.2 (wp_bind.2 ?_))
      have hone : ∀ settled : Settled, Faulty.wp Orderly
          (fun _ later => first.opId ∈ xset.selection → HasStatus later first) (fun _ _ => True)
          (onlyIf (first.opId ∈ xset.selection) (settle policies first settled)) world := by
        intro settled
        unfold onlyIf
        split
        · exact (settle_settles settled world).mono (fun _ _ h _ => h) fun _ _ h => h
        · next hskip => exact fun hselected => absurd (decide_eq_true hselected) hskip
      refine (hone _).mono (fun _ later h => ?_) fun _ _ _ => trivial
      have hkept := settled_wp later
        (fun other => other = first ∧ first.opId ∈ xset.selection)
        (cancelEach xset policies cleanupError rest) fun other hsame => hsame.1 ▸ h hsame.2
      refine ((ih later).both hkept).mono (fun _ last h operation hmem hselected => ?_)
        fun _ _ _ => trivial
      rcases List.mem_cons.1 hmem with rfl | hmem
      · exact h.2 operation ⟨rfl, hselected⟩
      · exact h.1 operation hmem hselected

/-- What raises no signal does not raise `Canceled`. -/
theorem quiet {m : Exec α} (h : Unsignaled m) (world : World) :
    Faulty.wp Orderly (fun _ _ => True)
      (fun error later => error = .signal .canceled → AllSettled xset later) m world :=
  (Orderly.raises h world).mono (fun _ _ h => h)
    fun error _ hquiet heq => by rw [heq] at hquiet; cases hquiet

/-- The `except` branches: `Canceled` leaves nothing unsettled. -/
theorem leave_settles {Q : Unit → World → Prop} (error : Error) (world : World) :
    Faulty.wp Orderly Q
      (fun error later => error = .signal .canceled → AllSettled xset later)
      (leave xset policies error) world := by
  unfold leave
  split
  · refine wp_bind.2 ((quiet cleanupInflight_unsignaled world).mono (fun cleanup later _ => ?_)
      fun _ _ h => h)
    refine wp_bind.2 ((quiet finalizeDirectories_unsignaled later).mono (fun _ later _ => ?_)
      fun _ _ h => h)
    refine wp_bind.2 (((cancelEach_settles cleanup xset.plan.operations later).both
      (quiet (cancelEach_unsignaled cleanup _) later)).mono (fun _ later h => ?_) fun _ _ h => h.2)
    have hsettled : AllSettled xset later := fun operation hchosen =>
      h.1 operation hchosen.1 hchosen.2
    refine wp_bind.2 (((settled_wp _ (Chosen xset) flushAtEnd hsettled).both
      (quiet flushAtEnd_unsignaled later)).mono (fun _ last h => ?_) fun _ _ h => h.2)
    exact fun _ => h.1
  · refine wp_bind.2 ((quiet cleanupInflight_unsignaled world).mono (fun cleanup later _ => ?_)
      fun _ _ h => h)
    refine wp_bind.2 ((quiet finalizeDirectories_unsignaled later).mono (fun _ later _ => ?_)
      fun _ _ h => h)
    refine wp_bind.2 ((quiet restoreCompletedDirectoryMetadata_unsignaled later).mono
      (fun _ later _ => ?_) fun _ _ h => h)
    refine wp_bind.2 ((quiet flushAtEnd_unsignaled later).mono (fun _ later _ => ?_)
      fun _ _ h => h)
    intro heq
    cases heq
  · next hcanceled _ =>
      refine wp_bind.2 ((quiet cleanupInflight_unsignaled world).mono (fun cleanup later _ => ?_)
        fun _ _ h => h)
      refine wp_bind.2 ((quiet flushAtEnd_unsignaled later).mono (fun _ later _ => ?_)
        fun _ _ h => h)
      exact fun heq => absurd heq hcanceled

/-! ### The loop

A turn handles one operation, and keeps what the turns before have handled
because an outcome never goes.  Directories are handled when they wait. -/

variable [Sha256]

theorem attemptOnce_settles (number : Nat) {again : Option (Exec Bool)}
    (hagain : ∀ m ∈ again, ∀ later,
      Faulty.wp Orderly (fun _ last => HasStatus last operation) (fun _ _ => True) m later)
    (world : World) :
    Faulty.wp Orderly (fun _ later => HasStatus later operation) (fun _ _ => True)
      (attemptOnce xset runId policies operation number again) world := by
  refine wp_then fun attempted later => ?_
  cases attempted with
  | ok settled => exact wp_then fun _ later => wp_return (settle_settles settled later)
  | error error =>
      refine wp_then fun _ later => ?_
      split
      · next again _ => exact wp_then fun _ last => hagain again rfl last
      · exact wp_return (giveUp_settles error later)
      · exact wp_return (giveUp_settles error later)

/-- The last attempt settles the operation, if none before has. -/
theorem attempt_settles (left number : Nat) (world : World) :
    Faulty.wp Orderly (fun _ later => HasStatus later operation) (fun _ _ => True)
      (attempt xset runId policies operation left number) world := by
  induction left generalizing number world with
  | zero => exact attemptOnce_settles number (fun m hm => by cases hm) world
  | succ left ih =>
      refine attemptOnce_settles number (fun m hm later => ?_) world
      obtain rfl := Option.some.inj hm
      exact ih (number + 1) later

/-- One turn of the loop: the operation is settled, or a directory waits. -/
theorem executeOne_handles (stopRequested : Bool) (world : World) :
    Faulty.wp Orderly (fun _ later => Handled later operation) (fun _ _ => True)
      (executeOne xset runId policies operation stopRequested) world := by
  have hsettle : ∀ (settled : Settled) (stopped : Bool) (later : World), Faulty.wp Orderly
      (fun _ last => Handled last operation) (fun _ _ => True) (do
        settle policies operation settled
        return stopped) later := fun settled stopped later =>
    wp_return ((settle_settles settled later).mono (fun _ _ h => Or.inl h) fun _ _ h => h)
  refine wp_then fun _ _ => wp_then fun _ _ => wp_then fun _ later => ?_
  refine wp_bind.2 (wp_get.2 ?_)
  split
  · exact hsettle _ true later
  · split
    · exact hsettle _ false later
    · split
      · exact hsettle _ false later
      · split
        · have hmake : Faulty.wp Orderly (fun _ last => Handled last operation) (fun _ _ => True)
              (startDirectory operation) later :=
            wp_then fun _ _ => wp_then fun _ _ => wp_then fun _ last =>
              wp_put.2 (Or.inr (List.mem_append_right _ (List.mem_singleton.2 rfl)))
          refine wp_return (wp_catching.2 (hmake.mono (fun _ _ h => h) fun error last _ => ?_))
          split
          · exact (settleFailure_settles error last).mono (fun _ _ h => Or.inl h) fun _ _ h => h
          · trivial
        · exact (attempt_settles _ _ later).mono (fun _ _ h => Or.inl h) fun _ _ h => h

/-- The loop: every selected operation is handled, and stays so. -/
theorem executeEach_handles {operations : List PlanOperation} (stopRequested : Bool)
    {world : World} (hworld : Tallied base world) :
    Faulty.wp Orderly
      (fun _ later => Onward world later ∧ ∀ operation ∈ operations,
        operation.opId ∈ xset.selection → Handled later operation)
      (fun _ _ => True) (executeEach xset runId policies operations stopRequested) world := by
  induction operations generalizing stopRequested world with
  | nil => exact ⟨.refl world, fun operation hmem => absurd hmem List.not_mem_nil⟩
  | cons first rest ih =>
      refine wp_bind.2 (wp_get.2 ?_)
      split
      · next hskip =>
          refine (ih stopRequested hworld).mono (fun _ later h => ⟨h.1, ?_⟩) fun _ _ h => h
          intro operation hmem hselected
          rcases List.mem_cons.1 hmem with rfl | hmem
          · have hstatus : HasStatus world operation :=
              hskip.resolve_left fun hout => hout hselected
            exact Or.inl (hstatus.kept h.1.status)
          · exact h.2 operation hmem hselected
      · have hone : Tallies base Onward
            (executeOne xset runId policies first stopRequested) :=
          executeOne_accounts stopRequested
        have haccounts := (hone world hworld).wp (R := Orderly) hworld (Onward.refl world)
          (fun _ _ _ h h' => h.trans h') fun _ => trivial
        refine wp_bind.2 (((executeOne_handles stopRequested world).both haccounts).mono
          (fun stopped later h => ?_) fun _ _ _ => trivial)
        obtain ⟨hhandled, hlater, honward⟩ := h
        refine (ih stopped hlater).mono (fun _ last h => ⟨honward.trans h.1, ?_⟩) fun _ _ h => h
        intro operation hmem hselected
        rcases List.mem_cons.1 hmem with rfl | hmem
        · exact hhandled.kept h.1
        · exact h.2 operation hmem hselected

/-- The loop, and then the directories that it has left. -/
theorem executeAll_settles {world : World} (hworld : Tallied base world) :
    Faulty.wp Orderly (fun _ later => AllSettled xset later) (fun _ _ => True)
      (executeAll xset runId policies) world := by
  refine wp_bind.2 ((executeEach_handles false hworld).mono (fun _ later h => ?_)
    fun _ _ _ => trivial)
  refine wp_bind.2 ((finalizeDirectories_settles fun operation hchosen =>
    h.2 operation hchosen.1 hchosen.2).mono (fun _ later h => ?_) fun _ _ _ => trivial)
  refine wp_bind.2 ((settled_wp _ (Chosen xset) (restoreCompletedDirectoryMetadata xset) h).mono
    (fun _ later h => ?_) fun _ _ _ => trivial)
  exact settled_wp _ (Chosen xset) flushAtEnd h

/-! ### The result

The items of the result are collected by the status entries in the order of the
plan, so when all selected operations have one the list is complete. -/

omit [Host] [Sha256] in
/-- The result answers for every selected operation, in the order of the
plan and with its outcome. -/
theorem resultItems_listed {world : World} (hworld : Tallied base world)
    (hsettled : AllSettled xset world) :
    (resultItems xset world).map (fun item => (item.itemId, some item.outcome)) =
      (xset.plan.operations.filter fun operation => decide (operation.opId ∈ xset.selection)).map
        fun operation => (operation.opId.itemId, world.status.get? operation.opId) := by
  unfold resultItems
  rw [List.map_filterMap, ← List.filterMap_eq_map']
  refine List.filterMap_congr fun operation hmem => ?_
  obtain ⟨hmem, hselected⟩ := List.mem_filter.1 hmem
  obtain ⟨outcome, hget⟩ := Option.isSome_iff_exists.1
    (hsettled operation ⟨hmem, of_decide_eq_true hselected⟩)
  cases hitem : world.state.outcomes.get? operation.opId with
  | some item =>
      obtain ⟨hid, hstatus⟩ := hworld.outcomes _ _ hitem
      simp [hid, hstatus]
  | none => simp [hget, continuedItem]

/-- A call that returns, or raises `Canceled`, has settled every selected
operation; what it returns lists them. -/
theorem execute_completes {world : World} (hworld : Tallied base world) :
    Faulty.wp Orderly
      (fun result later => AllSettled xset later ∧
        result.operations.map (fun item => (item.itemId, some item.outcome)) =
          (xset.plan.operations.filter fun operation =>
            decide (operation.opId ∈ xset.selection)).map
              fun operation => (operation.opId.itemId, later.status.get? operation.opId))
      (fun error later => error = .signal .canceled → AllSettled xset later)
      (execute xset runId policies) world := by
  have keeps : ∀ {β : Type} {m : Exec β} {L : World → World → Prop} (_ : Tallies base L m)
      (_ : ∀ a, L a a) (_ : ∀ a b c, L a b → L b c → L a c) (later : World),
      Tallied base later → Faulty.wp Orderly (fun _ last => Tallied base last ∧ L later last)
        (fun _ last => Tallied base last ∧ L later last) m later :=
    fun h hrefl htrans later hlater =>
      (h later hlater).wp hlater (hrefl later) htrans fun _ => trivial
  have hshow : Tallies base StatusKept (emitProgress policies true) := by
    have hdoes : (emitProgress policies true).Does (fun _ => True) Hushed Steadfast fun _ => True :=
      emitProgress_does policies true trivial trivial (fun _ => trivial) trivial
    exact (quiet_accounts hdoes).mono fun _ _ h => h.status
  have hphase : Tallies base Onward (emit (.phaseChanged "execute")) := by
    have hdoes : (emit (.phaseChanged "execute")).Does (fun _ => True) Hushed Steadfast
        fun _ => True := does_call trivial trivial
    exact quiet_accounts hdoes
  have hsaid : Unsignaled (emit (.phaseChanged "execute")) := raises_call trivial
  refine wp_bind.2 (wp_get.2 (wp_bind.2 (wp_put.2 ?_)))
  have hstarted : Tallied base (Note.write world
      (.start (completedDirectories xset world.status) (initialProgress xset world.status))) :=
    hworld.noted fun _ _ heq => by cases heq
  refine wp_bind.2 (((keeps hphase Onward.refl (fun _ _ _ h h' => h.trans h') _ hstarted).both
    (quiet hsaid _)).mono (fun _ later h => ?_) fun _ _ h => h.2)
  refine wp_bind.2 (((keeps hshow StatusKept.refl (fun _ _ _ h h' => h.trans h') _ h.1.1).both
    (quiet (emitProgress_unsignaled true) _)).mono (fun _ later h => ?_) fun _ _ h => h.2)
  -- The loop settles what it comes to, and the `except` branches sweep what it did not.
  have hbody : Faulty.wp Orderly (fun _ last => AllSettled xset last ∧ Tallied base last)
      (fun error last => error = .signal .canceled → AllSettled xset last)
      ((executeAll xset runId policies).catching (leave xset policies)) later := by
    refine wp_catching.2 (((executeAll_settles h.1.1).both
      (keeps executeAll_accounts StatusKept.refl (fun _ _ _ h h' => h.trans h') _ h.1.1)).mono
      (fun _ last h => ⟨h.1, h.2.1⟩) fun error last _ => leave_settles error last)
  refine wp_bind.2 (hbody.mono (fun _ later h => ?_) fun _ _ h => h)
  refine wp_bind.2 (wp_get.2 (wp_bind.2 ?_))
  refine (((keeps hshow StatusKept.refl (fun _ _ _ h h' => h.trans h') _ h.2).both
    (quiet (emitProgress_unsignaled true) _)).mono (fun _ last hlast => ?_) fun _ _ h => h.2)
  -- The last progress changes no outcome that is there.
  have hkept : ∀ operation, Chosen xset operation →
      last.status.get? operation.opId = later.status.get? operation.opId := by
    intro operation hchosen
    obtain ⟨outcome, hget⟩ := Option.isSome_iff_exists.1 (h.1 operation hchosen)
    rw [hget]
    exact hlast.1.2 _ _ hget
  refine ⟨fun operation hchosen => (h.1 operation hchosen).kept hlast.1.2, ?_⟩
  refine (resultItems_listed h.2 h.1).trans (List.map_congr_left fun operation hmem => ?_)
  obtain ⟨hmem, hselected⟩ := List.mem_filter.1 hmem
  rw [hkept operation ⟨hmem, of_decide_eq_true hselected⟩]

end Completion

end Executor

end NamiSync
