/-
# `Modules.Executor.Reach` — what an operation can touch

Every change that an operation makes to the target tree, under whatever
answers it gets, is at a path that follows from the operation: its target,
its prior target, its temp, and its places in the trash.  The list is by
kind, and it is all that the frame arguments about the executor use.

## What is proved

    executeOperation_does : executeOperation … operation makes only the calls
      of `OpCall` and the notes of `OpNote` for this operation

for every answer of the environment to every call.  It is a statement about
the program text, not about a run: `Does` of `Lib.Faulty` goes through the
program once, and the lemmas follow the program from its leaves to the whole,
one for each function of `Modules.Executor.Operations`, in that order.

## What it is not

It does not say that a change at one of these paths is harmless.  That is
`Modules.Executor.Intact`, which looks at the change together with the state.
-/
import NamiSync.Modules.Executor.Execute

namespace NamiSync

namespace Executor

open Faulty Faulty.Prog

variable [Unicode]

/-- A change of the metadata at one path. -/
inductive MetadataOf (path : RelPath) : Change → Prop
  | times (mtimeNs : Nat) : MetadataOf path (.setTimes path mtimeNs)
  | created (createdNs : Nat) : MetadataOf path (.setCreationTime path createdNs)
  | attributes (cleared set : Nat) : MetadataOf path (.setAttributes path cleared set)

/-- What making a file at a temp consists of. -/
inductive Fills (temp : RelPath) : Change → Prop
  | remove : Fills temp (.removeOwnedTemp temp)
  | create : Fills temp (.createTemp temp)
  | write (bytes : List UInt8) : Fills temp (.write temp bytes)
  | metadata {c : Change} (h : MetadataOf temp c) : Fills temp c

/-- The changes that an operation can make. -/
inductive Reaches (xset : ExecutionSet) (runId : RunId) (operation : PlanOperation) : Change → Prop
  | fill {c : Change} (hkind : countsBytes operation.kind = true)
      (h : Fills (tempOf runId operation) c) : Reaches xset runId operation c
  | finish {c : Change} (hkind : countsBytes operation.kind = true)
      (h : MetadataOf operation.targetRelPath c) : Reaches xset runId operation c
  | publish (hkind : operation.kind = .copy ∨ operation.kind = .moveUpdate) :
      Reaches xset runId operation (.rename (tempOf runId operation) operation.targetRelPath)
  | replace (hkind : operation.kind = .update) :
      Reaches xset runId operation (.replace (tempOf runId operation) operation.targetRelPath)
  | link (hkind : operation.kind = .update) (htrash : xset.plan.trashOnUpdate = true) :
      Reaches xset runId operation
        (.hardlink operation.targetRelPath (trashPath runId operation.targetRelPath))
  | fillBackup {c : Change} (hkind : operation.kind = .update)
      (htrash : xset.plan.trashOnUpdate = true)
      (h : Fills (ownedTemp (trashPath runId operation.targetRelPath) runId operation.opId) c) :
      Reaches xset runId operation c
  | publishBackup (hkind : operation.kind = .update) (htrash : xset.plan.trashOnUpdate = true) :
      Reaches xset runId operation
        (.rename (ownedTemp (trashPath runId operation.targetRelPath) runId operation.opId)
          (trashPath runId operation.targetRelPath))
  | finishBackup {c : Change} (hkind : operation.kind = .update)
      (h : MetadataOf (trashPath runId operation.targetRelPath) c) :
      Reaches xset runId operation c
  | folder {path folder : RelPath}
      (hpath : (operation.kind = .update ∧ xset.plan.trashOnUpdate = true ∨
          operation.kind = .trash) ∧ path = operation.targetRelPath ∨
        operation.kind = .moveUpdate ∧ operation.priorTargetRelPath = some path)
      (h : folder ∈ (trashPath runId path).parents) : Reaches xset runId operation (.mkdir folder)
  | move {old : RelPath} (hkind : operation.kind = .move ∨ operation.kind = .recase)
      (hprior : operation.priorTargetRelPath = some old) :
      Reaches xset runId operation (.rename old operation.targetRelPath)
  | trashPrior {old : RelPath} (hkind : operation.kind = .moveUpdate)
      (hprior : operation.priorTargetRelPath = some old) :
      Reaches xset runId operation (.rename old (trashPath runId old))
  | trash (hkind : operation.kind = .trash) :
      Reaches xset runId operation
        (.rename operation.targetRelPath (trashPath runId operation.targetRelPath))
  | removeFile (hkind : operation.kind = .delete)
      (hfile : ∃ expected ∈ operation.targetExpected, expected.kind ≠ .directory) :
      Reaches xset runId operation (.removeFile operation.targetRelPath)
  | removeDirectory (hkind : operation.kind = .delete) :
      Reaches xset runId operation (.removeDirectory operation.targetRelPath)
  | readonly {c : Change} (hkind : operation.kind = .delete)
      (h : MetadataOf operation.targetRelPath c) : Reaches xset runId operation c

/-! ## Evidence that a program asks for

The two checks that stand at the head of the moving and removing programs.
When one passes, the operation has the field that it asked for. -/

theorem prior_of_ok {operation : PlanOperation} {old : RelPath} {expected : FileStat}
    (h : priorTarget operation = .ok (old, expected)) :
    operation.priorTargetRelPath = some old := by
  unfold priorTarget at h
  split at h
  · next hpath hstat =>
      rw [hpath]
      exact congrArg some (Prod.mk.inj (Except.ok.inj h)).1
  · exact absurd h (by simp)

theorem target_of_ok {operation : PlanOperation} {detail : String} {expected : FileStat}
    (h : targetEvidence operation detail = .ok expected) :
    operation.targetExpected = some expected := by
  unfold targetEvidence at h
  split at h
  · next hstat =>
      rw [hstat]
      exact congrArg some (Except.ok.inj h)
  · exact absurd h (by simp)

/-! ## What the contract allows

`OpCall` and `OpNote` are the contract of one operation for the `Does` rules:
the questions are all allowed, a change has to be one of `Reaches`, a record
has to name the operation itself, and no operation emits an event of its own. -/

/-- The calls that an operation can make. -/
def OpCall (xset : ExecutionSet) (runId : RunId) (operation : PlanOperation) : Call → Prop
  | .ask _ | .clock | .emitProgress => True
  | .change step => Reaches xset runId operation step
  | .record call => call.op = operation.opId ∧ call.kind = operation.kind
  | .emit _ => False

/-- The notes that an operation can take. -/
def OpNote (runId : RunId) (operation : PlanOperation) : Note → Prop
  | .inflight temp => temp = none ∨
      countsBytes operation.kind = true ∧ temp = some (tempOf runId operation)
  | .keep id _ => id = operation.opId
  | .progress (.copied _) => countsBytes operation.kind = true
  | .progress (.emitted _) | .degrade => True
  | _ => False

variable [Host] {I : World → Prop} {A : Call → Prop} {N : Note → Prop}

section Helpers

variable {P : Unit → Prop} (hask : ∀ question, A (.ask question))

include hask

/-! ## The helpers that every program calls

One lemma for each helper of the executor, under an arbitrary invariant `I` and
arbitrary sets `A` and `N` of allowed calls and notes.  The hypotheses are the
calls that the helper can make, and `P` is what the caller goes on with; so
each lemma is used at the contract of an operation below, and again at the
contracts of the later modules. -/

theorem ask_does (question : Question) (hP : P ()) : (ask question).Does I A N P :=
  does_call (hask question) hP

omit hask in
theorem change_does {step : Change} (hstep : A (.change step)) (hP : P ()) :
    (change step).Does I A N P :=
  does_call hstep hP

omit hask in
theorem get_does {α : Type} {P : α → Prop} {f : World → α} (hP : ∀ s, I s → P (f s)) :
    (get f).Does I A N P :=
  hP

omit hask in
theorem note_does {note : Note} (hnote : N note) (hP : P ()) : (put note).Does I A N P :=
  ⟨hnote, hP⟩

omit hask in
theorem failIf_does {condition : Bool} (reason : ExecutionReason) (detail : Str)
    (hP : condition = false → P ()) : (failIf condition reason detail).Does I A N P := by
  cases condition with
  | true => trivial
  | false => exact hP rfl

omit hask in
theorem onlyIf_does {condition : Bool} {m : Exec Unit} (hm : condition = true → m.Does I A N P)
    (hP : P ()) : (onlyIf condition m).Does I A N P := by
  cases condition with
  | true => exact hm rfl
  | false => exact hP

omit hask in
theorem lift_does {α : Type} {P : α → Prop} {check : Except OperationError α}
    (hP : ∀ a, check = .ok a → P a) : (lift check).Does I A N P := by
  cases check with
  | ok a => exact hP a rfl
  | error error =>
      cases error with
      | failure reason detail => trivial
      | native error => cases error <;> trivial

omit hask in
theorem catchException_does {α : Type} {P : α → Prop} {m : Exec α} {handler : Error → Exec α}
    (h : m.Does I A N P) (hhandler : ∀ error, (handler error).Does I A N P) :
    (catchException m handler).Does I A N P := by
  refine does_catching h fun error => ?_
  split
  · exact hhandler error
  · trivial

omit hask in
theorem catchFailure_does {α : Type} {P : α → Prop} {m : Exec α} {handler : Error → Exec α}
    (h : m.Does I A N P) (hhandler : ∀ error, (handler error).Does I A N P) :
    (catchFailure m handler).Does I A N P := by
  refine does_catching h fun error => ?_
  split
  · exact hhandler error
  · trivial

omit hask in
theorem catchFileExists_does {m : Exec Unit} {handler : Error → Exec Unit}
    (h : m.Does I A N P) (hhandler : ∀ error, (handler error).Does I A N P) :
    (catchFileExists m handler).Does I A N P := by
  refine does_catching h fun error => ?_
  cases error with
  | fileExists text => exact hhandler _
  | _ => trivial

theorem stat_does {P : Option FileStat → Prop} (side : Side) (path : RelPath)
    (hP : ∀ found, P found) : (stat side path).Does I A N P :=
  does_bind.2 (ask_does hask _ fun _ _ => hP _)

theorem requireStatPath_does {P : FileStat → Prop} (path : RelPath) (hP : ∀ found, P found) :
    (requireStatPath path).Does I A N P := by
  refine does_bind.2 (stat_does hask _ _ fun found => ?_)
  cases found with
  | none => trivial
  | some found => exact hP found

theorem guardPresent_does {P : FileStat → Prop} (side : Side) (path : RelPath)
    (expected : FileStat) (missing drift : ExecutionReason)
    (matcher : FileStat → FileStat → Bool) (hP : ∀ actual, P actual) :
    (guardPresent side path expected missing drift matcher).Does I A N P := by
  refine does_bind.2 (does_catching (stat_does hask _ _ fun found => lift_does fun actual _ =>
    hP actual) fun error => ?_)
  cases error <;> trivial

theorem guardAbsent_does (path : RelPath) (hP : P ()) : (guardAbsent path).Does I A N P :=
  does_bind.2 (stat_does hask _ _ fun _ => lift_does fun _ _ => hP)

theorem guardExpectedTarget_does (operation : PlanOperation) (hP : P ()) :
    (guardExpectedTarget operation).Does I A N P := by
  unfold guardExpectedTarget
  cases operation.targetExpected with
  | none => exact guardAbsent_does hask _ hP
  | some expected => exact does_bind.2 (guardPresent_does hask _ _ _ _ _ _ fun _ => hP)

omit hask in
theorem guardPathStat_does (actual expected : FileStat) (reason : ExecutionReason)
    (detail : String) (hP : P ()) : (guardPathStat actual expected reason detail).Does I A N P := by
  unfold guardPathStat
  split
  · exact hP
  · trivial

omit hask in
theorem restoreCreated_does {path : RelPath} (stat : FileStat) (preserveCreated : Bool)
    (hmeta : ∀ step, MetadataOf path step → A (.change step)) (hP : P ()) :
    (restoreCreated path stat preserveCreated).Does I A N P := by
  unfold restoreCreated
  split
  · exact change_does (hmeta _ (.created _)) hP
  · exact hP

theorem applyMetadata_does {path : RelPath} (stat : FileStat) (preserveCreated applyReadonly : Bool)
    (hmeta : ∀ step, MetadataOf path step → A (.change step)) (hP : P ()) :
    (applyMetadata path stat preserveCreated applyReadonly).Does I A N P := by
  refine does_bind.2 (change_does (hmeta _ (.times _)) ?_)
  refine does_bind.2 (restoreCreated_does _ _ hmeta ?_)
  exact does_bind.2 (ask_does hask _ (change_does (hmeta _ (.attributes _ _)) hP))

theorem clearReadonly_does {path : RelPath}
    (hmeta : ∀ step, MetadataOf path step → A (.change step)) (hP : P ()) :
    (clearReadonly path).Does I A N P :=
  does_bind.2 (ask_does hask _ (change_does (hmeta _ (.attributes _ _)) hP))

/-- The loop over the chunks is the one induction here: each chunk is one write
and one call of `onChunk`, and nothing else. -/
theorem stream_does {side : Side} {source temp : RelPath} {onChunk : Nat → Exec Unit}
    (hwrite : ∀ bytes, A (.change (.write temp bytes)))
    (hchunk : ∀ size, (onChunk size).Does I A N fun _ => True) (hP : P ())
    (chunks : List (List UInt8)) : (stream side source temp onChunk chunks).Does I A N P := by
  induction chunks with
  | nil => exact does_bind.2 (ask_does hask _ (ask_does hask _ hP))
  | cons chunk chunks ih =>
      refine does_bind.2 (ask_does hask _ ?_)
      refine does_bind.2 (ask_does hask _ ?_)
      refine does_bind.2 (change_does (hwrite chunk) ?_)
      exact does_bind.2 ((hchunk _).post fun _ _ => ih)

/-- A backup is made like any other file: it is filled at a temp of its own and
renamed to its place; its metadata is set at both. -/
theorem copyBackup_does {source temp target : RelPath}
    (hfill : ∀ step, Fills temp step → A (.change step))
    (hrename : A (.change (.rename temp target)))
    (hmeta : ∀ step, MetadataOf target step → A (.change step)) (hP : P ()) :
    (copyBackup source temp target).Does I A N P := by
  refine does_bind.2 (ask_does hask _ ?_)
  refine does_bind.2 (change_does (hfill _ .create) ?_)
  refine does_bind.2 (get_does fun _ _ => ?_)
  refine does_bind.2 (stream_does hask (fun _ => hfill _ (.write _))
    (fun _ => does_pure.2 trivial) ?_ _)
  refine does_bind.2 (ask_does hask _ ?_)
  refine does_bind.2 (stat_does hask _ _ fun found => ?_)
  cases found with
  | none => trivial
  | some found =>
      refine does_bind.2 (applyMetadata_does hask _ _ _ (fun _ h => hfill _ (.metadata h)) ?_)
      refine does_bind.2 (ask_does hask _ ?_)
      exact does_bind.2 (change_does hrename (applyMetadata_does hask _ _ _ hmeta hP))

theorem makeFolders_does {folders : List RelPath}
    (hmkdir : ∀ folder ∈ folders, A (.change (.mkdir folder))) (hP : P ()) :
    (makeFolders folders).Does I A N P := by
  induction folders with
  | nil => exact hP
  | cons folder folders ih =>
      have hrest : Prog.Does I A N P (do
          ask (.stat .target folder)
          makeFolders folders) :=
        does_bind.2 (ask_does hask _ (ih fun f hf => hmkdir f (List.mem_cons_of_mem _ hf)))
      refine does_bind.2 (catchFileExists_does (change_does (hmkdir _ List.mem_cons_self) hrest) ?_)
      intro error
      refine does_bind.2 (get_does fun s _ => ?_)
      split
      · exact hrest
      · trivial

theorem trashDestination_does {P : RelPath → Prop} (runId : RunId) (path : RelPath)
    (hmkdir : ∀ folder ∈ (trashPath runId path).parents, A (.change (.mkdir folder)))
    (hP : P (trashPath runId path)) : (trashDestination runId path).Does I A N P :=
  does_bind.2 (makeFolders_does hask (fun folder hf => hmkdir folder (List.mem_reverse.1 hf))
    (does_bind.2 (ask_does hask _ hP)))

theorem durabilityDetail_does {P : Detail → Prop} (detail : Detail) (folders : List RootedPath)
    (hP : ∀ detail, P detail) : (durabilityDetail detail folders).Does I A N P := by
  have hwarn : ∀ folders : List RootedPath,
      (durabilityWarnings folders).Does I A N fun _ => True := by
    intro folders
    induction folders with
    | nil => trivial
    | cons folder folders ih =>
        have hflush : (flushDirectory folder).Does I A N fun _ => True :=
          catchException_does (does_bind.2 (ask_does hask _ trivial)) fun _ => trivial
        exact does_bind.2 (hflush.post fun _ _ => does_bind.2 (ih.post fun _ _ => trivial))
  refine does_bind.2 ((hwarn _).post fun warnings _ => hP _)

theorem flushBeforeDestructive_does (hdegrade : N .degrade) (hP : P ()) :
    flushBeforeDestructive.Does I A N P :=
  catchException_does (ask_does hask _ hP) fun _ => does_bind.2 (note_does hdegrade trivial)

omit hask in
theorem attest_does {P : Attestation → Prop} (digest : CopyDigest) (subject : FileStat)
    (hclock : A .clock) (hP : ∀ attestation, P attestation) :
    (attest digest subject).Does I A N P :=
  does_bind.2 (does_call hclock fun _ _ => hP _)

omit hask in
theorem record_does {P : Detail → Prop} (detail : Detail) {command : RecordCall}
    (hrecord : A (.record command)) (hdegrade : N .degrade) (hP : ∀ detail, P detail) :
    (record detail command).Does I A N P :=
  catchException_does (does_bind.2 (does_call hrecord (hP _))) fun _ =>
    does_bind.2 (note_does hdegrade (hP _))

omit hask in
theorem emitProgress_does (policies : ExecutorPolicies) (force : Bool) (hclock : A .clock)
    (hemit : A .emitProgress) (hnote : ∀ now, N (.progress (.emitted now))) (hP : P ()) :
    (emitProgress policies force).Does I A N P := by
  refine does_bind.2 (does_call hclock ?_)
  refine does_bind.2 (get_does fun s _ => does_bind.2 (get_does fun t _ => ?_))
  split
  · exact hP
  · exact does_bind.2 (note_does (hnote _) (does_call hemit hP))

omit hask in
theorem renameOr_does {source target : RelPath} (reason : ExecutionReason) (detail : String)
    (hrename : A (.change (.rename source target))) (hP : P ()) :
    (renameOr source target reason detail).Does I A N P :=
  catchFileExists_does (change_does hrename hP) fun _ => trivial

theorem observedStat_does {P : FileStat → Prop} (xset : ExecutionSet) (path : RelPath)
    (hP : ∀ found, P found) : (observedStat xset path).Does I A N P :=
  does_bind.2 (requireStatPath_does hask _ fun _ => hP _)

end Helpers

section Operations

variable [Sha256] {xset : ExecutionSet} {runId : RunId} {policies : ExecutorPolicies}
  {operation : PlanOperation}

omit [Host] [Sha256] in
theorem asks (question : Question) : OpCall xset runId operation (.ask question) := trivial

omit [Sha256] in
theorem advance_does {step : ProgressStep} {P : Unit → Prop}
    (hstep : OpNote runId operation (.progress step)) (hP : P ()) :
    (advanceProgress policies step).Does I (OpCall xset runId operation) (OpNote runId operation)
      P :=
  does_bind.2 (note_does hstep
    (emitProgress_does policies false trivial trivial (fun _ => trivial) hP))

theorem prepareCopy_does {P : PreparedCopy → Prop} (hkind : countsBytes operation.kind = true)
    (hP : ∀ prepared, P prepared) :
    (prepareCopy xset runId policies operation).Does I (OpCall xset runId operation)
      (OpNote runId operation) P := by
  have hfill : ∀ step, Fills (tempOf runId operation) step →
      OpCall xset runId operation (.change step) := fun step h => .fill hkind h
  refine does_bind.2 (lift_does fun evidence _ => ?_)
  obtain ⟨source, sourceExpected⟩ := evidence
  refine does_bind.2 (guardPresent_does asks _ _ _ _ _ _ fun _ => ?_)
  refine does_bind.2 (guardExpectedTarget_does asks _ ?_)
  refine does_bind.2 (ask_does asks _ ?_)
  refine does_bind.2 (ask_does asks _ ?_)
  refine does_bind.2 (catchException_does (change_does (hfill _ .remove) ?_) fun _ => trivial)
  refine does_bind.2 (note_does (Or.inr ⟨hkind, rfl⟩) ?_)
  have hstream : (copyStream policies source (tempOf runId operation)).Does I
      (OpCall xset runId operation) (OpNote runId operation) fun _ => True := by
    refine does_bind.2 (ask_does asks _ ?_)
    refine does_bind.2 (change_does (hfill _ .create) ?_)
    refine does_bind.2 (get_does fun _ _ => ?_)
    refine does_bind.2 (stream_does asks (fun _ => hfill _ (.write _))
      (fun size => @advance_does _ _ _ _ _ _ _ (.copied size) _ hkind trivial) ?_ _)
    exact does_bind.2 (ask_does asks _ trivial)
  refine does_bind.2 (hstream.post fun digest _ => ?_)
  refine does_bind.2 (failIf_does _ _ fun _ => ?_)
  have hend : Prog.Does I (OpCall xset runId operation) (OpNote runId operation) P (do
      applyMetadata (tempOf runId operation) (operation.intended.getD sourceExpected)
        xset.plan.preservation.preserveCreated false
      ask (.flushPath (tempOf runId operation))
      checkpoint
      let _ ← guardPresent .source source sourceExpected .sourceMissing .sourceDrift
      guardExpectedTarget operation
      return ⟨digest, operation.intended.getD sourceExpected⟩) := by
    refine does_bind.2 (applyMetadata_does asks _ _ _ (fun _ h => hfill _ (.metadata h)) ?_)
    refine does_bind.2 (ask_does asks _ ?_)
    refine does_bind.2 (ask_does asks _ ?_)
    refine does_bind.2 (guardPresent_does asks _ _ _ _ _ _ fun _ => ?_)
    exact does_bind.2 (guardExpectedTarget_does asks _ (hP _))
  exact does_bind.2 (onlyIf_does
    (fun _ => catchException_does (ask_does asks _ hend) fun _ => trivial) hend)

theorem copy_does (hkind : operation.kind = .copy) :
    (copy xset runId policies operation).Does I (OpCall xset runId operation)
      (OpNote runId operation) fun _ => True := by
  have hcounts : countsBytes operation.kind = true := by rw [hkind]; rfl
  refine does_bind.2 (prepareCopy_does hcounts fun prepared => ?_)
  refine does_bind.2 (renameOr_does _ _ (.publish (.inl hkind)) ?_)
  refine does_bind.2 (note_does (Or.inl rfl) ?_)
  refine does_bind.2 (applyMetadata_does asks _ _ _ (fun _ h => .finish hcounts h) ?_)
  refine does_bind.2 (durabilityDetail_does asks _ _ fun _ => ?_)
  refine does_bind.2 (observedStat_does asks _ _ fun _ => ?_)
  refine does_bind.2 (attest_does _ _ trivial fun _ => ?_)
  exact does_bind.2 (record_does _ ⟨rfl, hkind.symm⟩ trivial fun _ => trivial)

/-! ### `_update`

The one kind with two phases.  The first fills the temp and, when the plan asks
for it, makes the backup in the trash; the second replaces the target.  An
attempt that finds the continuation of the first starts at the second. -/

omit [Sha256] in
theorem backUp_does {P : Option Error → Prop} (hkind : operation.kind = .update)
    (htrash : xset.plan.trashOnUpdate = true) (hP : ∀ error, P error) :
    (backUp xset runId operation).Does I (OpCall xset runId operation) (OpNote runId operation)
      P := by
  refine does_bind.2 (trashDestination_does asks _ _
    (fun folder hf => .folder (.inl ⟨.inl ⟨hkind, htrash⟩, rfl⟩) hf) ?_)
  refine does_bind.2 (stat_does asks _ _ fun found => ?_)
  refine does_bind.2 (failIf_does _ _ fun _ => ?_)
  have hbackup : (makeBackup xset runId operation (trashPath runId operation.targetRelPath)).Does I
      (OpCall xset runId operation) (OpNote runId operation) fun _ => P none := by
    unfold makeBackup
    split
    · exact change_does (.link hkind htrash) (hP _)
    · refine does_bind.2 (catchException_does
        (change_does (.fillBackup hkind htrash .remove) ?_) fun _ => trivial)
      exact copyBackup_does asks (fun _ h => .fillBackup hkind htrash h)
        (.publishBackup hkind htrash) (fun _ h => .finishBackup hkind h) (hP _)
  refine catchFailure_does (does_bind.2 (hbackup.post fun _ h => h)) fun error => ?_
  refine does_bind.2 (stat_does asks _ _ fun found => ?_)
  split
  · trivial
  · exact hP _

omit [Sha256] in
theorem backUpIfAsked_does {P : Option Error → Prop} (hkind : operation.kind = .update)
    (hP : ∀ error, P error) :
    (backUpIfAsked xset runId operation).Does I (OpCall xset runId operation)
      (OpNote runId operation) P := by
  unfold backUpIfAsked
  split
  · next htrash => exact backUp_does hkind htrash hP
  · exact hP _

omit [Sha256] in
theorem backupStatOf_does {P : Option FileStat → Prop} (hP : ∀ stat, P stat) :
    (backupStatOf xset runId operation).Does I (OpCall xset runId operation)
      (OpNote runId operation) P := by
  unfold backupStatOf
  split
  · exact does_bind.2 (requireStatPath_does asks _ fun _ => hP _)
  · exact hP _

theorem startUpdate_does {P : UpdateContinuation → Prop} (hkind : operation.kind = .update)
    (targetExpected : FileStat) (hP : ∀ continuation, P continuation) :
    (startUpdate xset runId policies operation targetExpected).Does I
      (OpCall xset runId operation) (OpNote runId operation) P := by
  have hcounts : countsBytes operation.kind = true := by rw [hkind]; rfl
  refine does_bind.2 (prepareCopy_does hcounts fun prepared => ?_)
  refine does_bind.2 (guardPresent_does asks _ _ _ _ _ _ fun _ => ?_)
  refine does_bind.2 (backUpIfAsked_does hkind fun backupError => ?_)
  refine does_bind.2 (requireStatPath_does asks _ fun preparedStat => ?_)
  refine does_bind.2 (requireStatPath_does asks _ fun liveStat => ?_)
  refine does_bind.2 (backupStatOf_does fun backupStat => ?_)
  refine does_bind.2 (note_does rfl ?_)
  cases backupError with
  | some error => trivial
  | none => exact hP _

omit [Sha256] in
theorem replaceTarget_does {P : Unit → Prop} (hkind : operation.kind = .update)
    (targetExpected : FileStat) (continuation : UpdateContinuation) (hP : P ()) :
    (replaceTarget xset runId operation targetExpected continuation).Does I
      (OpCall xset runId operation) (OpNote runId operation) P := by
  have hcounts : countsBytes operation.kind = true := by rw [hkind]; rfl
  have hmeta : ∀ step, MetadataOf operation.targetRelPath step →
      OpCall xset runId operation (.change step) := fun _ h => .finish hcounts h
  have hafter : Prog.Does I (OpCall xset runId operation) (OpNote runId operation) P (do
      let _ ← stat .target operation.targetRelPath) :=
    does_bind.2 (stat_does asks _ _ fun _ => hP)
  refine does_bind.2 (does_catching ?_ fun error => ?_)
  · have hreplace : Prog.Does I (OpCall xset runId operation) (OpNote runId operation)
        (fun _ => Prog.Does I (OpCall xset runId operation) (OpNote runId operation) P (do
          let _ ← stat .target operation.targetRelPath)) (do
        flushBeforeDestructive
        change (.replace (tempOf runId operation) operation.targetRelPath)
        put (.inflight none)
        put (.keep operation.opId (.update { continuation with published := true }))) := by
      refine does_bind.2 (flushBeforeDestructive_does asks trivial ?_)
      refine does_bind.2 (change_does (.replace hkind) ?_)
      exact does_bind.2 (note_does (Or.inl rfl) (note_does rfl hafter))
    exact does_bind.2 (onlyIf_does (fun _ => clearReadonly_does asks hmeta hreplace) hreplace)
  · refine does_bind.2 (stat_does asks _ _ fun live => ?_)
    exact does_bind.2 (onlyIf_does (fun _ => applyMetadata_does asks _ _ _ hmeta trivial) trivial)

omit [Sha256] in
theorem guardBackup_does {P : Unit → Prop} (backupStat : Option FileStat) (hP : P ()) :
    (guardBackup runId operation backupStat).Does I (OpCall xset runId operation)
      (OpNote runId operation) P := by
  unfold guardBackup
  split
  · exact hP
  · exact does_bind.2 (requireStatPath_does asks _ fun _ => guardPathStat_does _ _ _ _ hP)

omit [Sha256] in
theorem publishUpdate_does {P : Unit → Prop} (hkind : operation.kind = .update)
    (targetExpected : FileStat) (continuation : UpdateContinuation) (hP : P ()) :
    (publishUpdate xset runId operation targetExpected continuation).Does I
      (OpCall xset runId operation) (OpNote runId operation) P := by
  refine does_bind.2 (stat_does asks _ _ fun tempStat => ?_)
  cases tempStat with
  | none =>
      refine does_bind.2 (requireStatPath_does asks _ fun published => ?_)
      refine does_bind.2 (failIf_does _ _ fun _ => ?_)
      exact does_bind.2 (note_does rfl (note_does (Or.inl rfl) hP))
  | some tempStat =>
      refine does_bind.2 (lift_does fun evidence _ => ?_)
      obtain ⟨source, sourceExpected⟩ := evidence
      refine does_bind.2 (guardPresent_does asks _ _ _ _ _ _ fun _ => ?_)
      refine does_bind.2 (guardPathStat_does _ _ _ _ ?_)
      refine does_bind.2 (requireStatPath_does asks _ fun live => ?_)
      refine does_bind.2 (guardPathStat_does _ _ _ _ ?_)
      refine does_bind.2 (guardBackup_does _ ?_)
      exact replaceTarget_does hkind _ _ hP

omit [Sha256] in
theorem completeUpdate_does (hkind : operation.kind = .update) (targetExpected : FileStat)
    (continuation : UpdateContinuation) :
    (completeUpdate xset runId operation targetExpected continuation).Does I
      (OpCall xset runId operation) (OpNote runId operation) fun _ => True := by
  have hcounts : countsBytes operation.kind = true := by rw [hkind]; rfl
  have hrest : Prog.Does I (OpCall xset runId operation) (OpNote runId operation)
      (fun _ => True) (do
        applyMetadata operation.targetRelPath continuation.prepared.intended
          xset.plan.preservation.preserveCreated true
        let detail ← durabilityDetail continuation.detail
          (parentOf operation.targetRelPath ::
            if continuation.backupStat.isSome then
              [parentOf (trashPath runId operation.targetRelPath)] else [])
        put (.keep operation.opId
          (.update { continuation with detail := detail, published := true }))
        let published ← observedStat xset operation.targetRelPath
        let attestation ← attest continuation.prepared.digest published
        let detail ← record detail (.updated operation.opId attestation)
        return ({ outcome := .succeeded, detail := detail } : Settled)) := by
    refine does_bind.2 (applyMetadata_does asks _ _ _ (fun _ h => .finish hcounts h) ?_)
    refine does_bind.2 (durabilityDetail_does asks _ _ fun detail => ?_)
    refine does_bind.2 (note_does rfl ?_)
    refine does_bind.2 (observedStat_does asks _ _ fun _ => ?_)
    refine does_bind.2 (attest_does _ _ trivial fun _ => ?_)
    exact does_bind.2 (record_does _ ⟨rfl, hkind.symm⟩ trivial fun _ => trivial)
  exact does_bind.2 (onlyIf_does
    (fun _ => applyMetadata_does asks _ _ _ (fun _ h => .finishBackup hkind h) hrest) hrest)

theorem updateContinuation_does {P : UpdateContinuation → Prop} (hkind : operation.kind = .update)
    (targetExpected : FileStat) (existing : Option Continuation)
    (hP : ∀ continuation, P continuation) :
    (updateContinuation xset runId policies operation targetExpected existing).Does I
      (OpCall xset runId operation) (OpNote runId operation) P := by
  unfold updateContinuation
  split
  · exact startUpdate_does hkind _ hP
  · exact hP _
  · trivial

theorem update_does (hkind : operation.kind = .update) :
    (update xset runId policies operation).Does I (OpCall xset runId operation)
      (OpNote runId operation) fun _ => True := by
  refine does_bind.2 (lift_does fun targetExpected _ => ?_)
  refine does_bind.2 (get_does fun s _ => ?_)
  refine does_bind.2 (updateContinuation_does hkind _ _ fun continuation => ?_)
  have hrest : (completeUpdate xset runId operation targetExpected continuation).Does I
      (OpCall xset runId operation) (OpNote runId operation) fun _ => True :=
    completeUpdate_does hkind targetExpected continuation
  exact does_bind.2 (onlyIf_does (fun _ => publishUpdate_does hkind _ _ hrest) hrest)

/-! ### Moves

A move renames the prior target; a recase does the same under another
spelling.  A move with new content publishes at the target first and only then
takes the prior target to the trash. -/

omit [Sha256] in
theorem move_does (hkind : operation.kind = .move) :
    (move xset operation).Does I (OpCall xset runId operation) (OpNote runId operation)
      fun _ => True := by
  refine does_bind.2 (lift_does fun evidence hprior => ?_)
  obtain ⟨oldRel, oldExpected⟩ := evidence
  have hold : operation.priorTargetRelPath = some oldRel := prior_of_ok hprior
  refine does_bind.2 (guardPresent_does asks _ _ _ _ _ _ fun _ => ?_)
  refine does_bind.2 (guardAbsent_does asks _ ?_)
  refine does_bind.2 (ask_does asks _ ?_)
  refine does_bind.2 (ask_does asks _ ?_)
  refine does_bind.2 (flushBeforeDestructive_does asks trivial ?_)
  refine does_bind.2 (renameOr_does _ _ (.move (.inl hkind) hold) ?_)
  refine does_bind.2 (durabilityDetail_does asks _ _ fun _ => ?_)
  refine does_bind.2 (observedStat_does asks _ _ fun _ => ?_)
  exact does_bind.2 (record_does _ ⟨rfl, hkind.symm⟩ trivial fun _ => trivial)

omit [Sha256] in
theorem recase_does (hkind : operation.kind = .recase) :
    (recase xset operation).Does I (OpCall xset runId operation) (OpNote runId operation)
      fun _ => True := by
  refine does_bind.2 (lift_does fun evidence hprior => ?_)
  obtain ⟨oldRel, oldExpected⟩ := evidence
  have hold : operation.priorTargetRelPath = some oldRel := prior_of_ok hprior
  refine does_bind.2 (lift_does fun evidence _ => ?_)
  obtain ⟨source, sourceExpected⟩ := evidence
  refine does_bind.2 (failIf_does _ _ fun _ => ?_)
  refine does_bind.2 (guardPresent_does asks _ _ _ _ _ _ fun _ => ?_)
  refine does_bind.2 (guardPresent_does asks _ _ _ _ _ _ fun _ => ?_)
  refine does_bind.2 (ask_does asks _ ?_)
  refine does_bind.2 (ask_does asks _ ?_)
  refine does_bind.2 (flushBeforeDestructive_does asks trivial ?_)
  refine does_bind.2 (renameOr_does _ _ (.move (.inr hkind) hold) ?_)
  refine does_bind.2 (durabilityDetail_does asks _ _ fun _ => ?_)
  refine does_bind.2 (observedStat_does asks _ _ fun _ => ?_)
  exact does_bind.2 (record_does _ ⟨rfl, hkind.symm⟩ trivial fun _ => trivial)

theorem startMoveUpdate_does {P : MoveUpdateContinuation → Prop}
    (hkind : operation.kind = .moveUpdate) (hP : ∀ continuation, P continuation) :
    (startMoveUpdate xset runId policies operation).Does I (OpCall xset runId operation)
      (OpNote runId operation) P := by
  have hcounts : countsBytes operation.kind = true := by rw [hkind]; rfl
  refine does_bind.2 (lift_does fun evidence _ => ?_)
  obtain ⟨oldRel, oldExpected⟩ := evidence
  refine does_bind.2 (guardPresent_does asks _ _ _ _ _ _ fun _ => ?_)
  refine does_bind.2 (prepareCopy_does hcounts fun prepared => ?_)
  refine does_bind.2 (renameOr_does _ _ (.publish (.inr hkind)) ?_)
  refine does_bind.2 (note_does (Or.inl rfl) ?_)
  refine does_bind.2 (requireStatPath_does asks _ fun _ => ?_)
  exact does_bind.2 (note_does rfl (hP _))

omit [Sha256] in
theorem attestMoveUpdate_does {P : MoveUpdateContinuation → Prop}
    (hkind : operation.kind = .moveUpdate) (continuation : MoveUpdateContinuation)
    (hP : ∀ continuation, P continuation) :
    (attestMoveUpdate xset operation continuation).Does I (OpCall xset runId operation)
      (OpNote runId operation) P := by
  have hcounts : countsBytes operation.kind = true := by rw [hkind]; rfl
  refine does_bind.2 (requireStatPath_does asks _ fun published => ?_)
  refine does_bind.2 (failIf_does _ _ fun _ => ?_)
  refine does_bind.2 (applyMetadata_does asks _ _ _ (fun _ h => .finish hcounts h) ?_)
  cases continuation.attestation with
  | some attestation => exact hP _
  | none =>
      refine does_bind.2 (observedStat_does asks _ _ fun _ => ?_)
      refine does_bind.2 (attest_does _ _ trivial fun _ => ?_)
      exact does_bind.2 (note_does rfl (hP _))

omit [Sha256] in
/-- The end of `trashMoved`, when the place in the trash is prepared. -/
def moveIntoTrash (xset : ExecutionSet) (runId : RunId) (oldRel : RelPath)
    (oldExpected : FileStat) : Exec Unit := do
  resolve .target oldRel false
  let oldActual ← stat .target oldRel
  let trashActual ← stat .target (trashPath runId oldRel)
  match oldActual with
  | none =>
      failIf (!trashActual.any fun actual => matchesExpected actual oldExpected) .targetMissing
        (str "move-update old path vanished without reaching owned trash")
  | some actual => do
      guardPathStat actual oldExpected .targetDrift "move-update old path drifted before trash"
      failIf trashActual.isSome .trashCollision
        (str "move-update trash exists: " ++
          absolute xset.plan.targetRoot (trashPath runId oldRel))
      flushBeforeDestructive
      renameOr oldRel (trashPath runId oldRel) .trashCollision
        "move-update trash destination appeared before conditional rename"

omit [Sha256] in
theorem trashMoved_does {P : Unit → Prop} (hkind : operation.kind = .moveUpdate)
    {oldRel : RelPath} (hold : operation.priorTargetRelPath = some oldRel)
    (oldExpected : FileStat) (continuation : MoveUpdateContinuation) (hP : P ()) :
    (trashMoved xset runId operation oldRel oldExpected continuation).Does I
      (OpCall xset runId operation) (OpNote runId operation) P := by
  have hrest : Prog.Does I (OpCall xset runId operation) (OpNote runId operation) P
      (moveIntoTrash xset runId oldRel oldExpected) := by
    refine does_bind.2 (ask_does asks _ ?_)
    refine does_bind.2 (stat_does asks _ _ fun oldActual => ?_)
    refine does_bind.2 (stat_does asks _ _ fun trashActual => ?_)
    cases oldActual with
    | none => exact failIf_does _ _ fun _ => hP
    | some actual =>
        refine does_bind.2 (guardPathStat_does _ _ _ _ ?_)
        refine does_bind.2 (failIf_does _ _ fun _ => ?_)
        exact does_bind.2 (flushBeforeDestructive_does asks trivial
          (renameOr_does _ _ (.trashPrior hkind hold) hP))
  refine does_bind.2 (onlyIf_does (fun _ => ?_) hrest)
  refine does_bind.2 (trashDestination_does asks _ _
    (fun folder hf => .folder (.inr ⟨hkind, hold⟩) hf) ?_)
  exact note_does rfl hrest

theorem moveUpdateContinuation_does {P : MoveUpdateContinuation → Prop}
    (hkind : operation.kind = .moveUpdate) (existing : Option Continuation)
    (hP : ∀ continuation, P continuation) :
    (moveUpdateContinuation xset runId policies operation existing).Does I
      (OpCall xset runId operation) (OpNote runId operation) P := by
  unfold moveUpdateContinuation
  split
  · exact startMoveUpdate_does hkind hP
  · exact hP _
  · trivial

theorem moveUpdate_does (hkind : operation.kind = .moveUpdate) :
    (moveUpdate xset runId policies operation).Does I (OpCall xset runId operation)
      (OpNote runId operation) fun _ => True := by
  refine does_bind.2 (get_does fun s _ => ?_)
  refine does_bind.2 (moveUpdateContinuation_does hkind _ fun continuation => ?_)
  refine does_bind.2 (lift_does fun evidence hprior => ?_)
  obtain ⟨oldRel, oldExpected⟩ := evidence
  refine does_bind.2 (attestMoveUpdate_does hkind _ fun attested => ?_)
  refine does_bind.2 (trashMoved_does hkind (prior_of_ok hprior) _ _ ?_)
  refine does_bind.2 (durabilityDetail_does asks _ _ fun _ => ?_)
  cases attested.attestation with
  | none => trivial
  | some attestation =>
      exact does_bind.2 (record_does _ ⟨rfl, hkind.symm⟩ trivial fun _ => trivial)

/-! ### Removals

What is left: a trash is one rename, a deletion is one removal, and a noop
changes nothing at all.  `executeOperation_does` puts the kinds together. -/

omit [Sha256] in
theorem trash_does (hkind : operation.kind = .trash) :
    (trash xset runId operation).Does I (OpCall xset runId operation) (OpNote runId operation)
      fun _ => True := by
  refine does_bind.2 (lift_does fun targetExpected _ => ?_)
  refine does_bind.2 (guardPresent_does asks _ _ _ _ _ _ fun _ => ?_)
  refine does_bind.2 (ask_does asks _ ?_)
  refine does_bind.2 (trashDestination_does asks _ _
    (fun folder hf => .folder (.inl ⟨.inr hkind, rfl⟩) hf) ?_)
  refine does_bind.2 (stat_does asks _ _ fun found => ?_)
  refine does_bind.2 (failIf_does _ _ fun _ => ?_)
  refine does_bind.2 (flushBeforeDestructive_does asks trivial ?_)
  refine does_bind.2 (renameOr_does _ _ (.trash hkind) ?_)
  refine does_bind.2 (durabilityDetail_does asks _ _ fun _ => ?_)
  refine does_bind.2 (observedStat_does asks _ _ fun _ => ?_)
  exact does_bind.2 (record_does _ ⟨rfl, hkind.symm⟩ trivial fun _ => trivial)

omit [Sha256] in
theorem removeTarget_does {P : Unit → Prop} (hkind : operation.kind = .delete)
    {targetExpected : FileStat} (hexpected : operation.targetExpected = some targetExpected)
    (hP : P ()) :
    (removeTarget operation targetExpected).Does I (OpCall xset runId operation)
      (OpNote runId operation) P := by
  unfold removeTarget
  split
  · exact change_does (.removeDirectory hkind) hP
  · next hfile => exact change_does (.removeFile hkind ⟨targetExpected, hexpected, hfile⟩) hP

omit [Sha256] in
theorem delete_does (hkind : operation.kind = .delete) :
    (delete operation).Does I (OpCall xset runId operation) (OpNote runId operation)
      fun _ => True := by
  have hmeta : ∀ step, MetadataOf operation.targetRelPath step →
      OpCall xset runId operation (.change step) := fun _ h => .readonly hkind h
  refine does_bind.2 (lift_does fun targetExpected hexpected => ?_)
  refine does_bind.2 (guardPresent_does asks _ _ _ _ _ _ fun _ => ?_)
  refine does_bind.2 (ask_does asks _ ?_)
  refine does_bind.2 (flushBeforeDestructive_does asks trivial ?_)
  have hafter : Prog.Does I (OpCall xset runId operation) (OpNote runId operation)
      (fun _ => True) (do
        let detail ← durabilityDetail .empty [parentOf operation.targetRelPath]
        let detail ← record detail (.deleted operation.opId targetExpected)
        return ({ outcome := .succeeded, detail := detail } : Settled)) := by
    refine does_bind.2 (durabilityDetail_does asks _ _ fun _ => ?_)
    exact does_bind.2 (record_does _ ⟨rfl, hkind.symm⟩ trivial fun _ => trivial)
  refine does_bind.2 (does_catching ?_ fun error => ?_)
  · have hremove : (removeTarget operation targetExpected).Does I (OpCall xset runId operation)
        (OpNote runId operation) fun _ => Prog.Does I (OpCall xset runId operation)
          (OpNote runId operation) (fun _ => True) (do
            let detail ← durabilityDetail .empty [parentOf operation.targetRelPath]
            let detail ← record detail (.deleted operation.opId targetExpected)
            return ({ outcome := .succeeded, detail := detail } : Settled)) :=
      removeTarget_does hkind (target_of_ok hexpected) hafter
    exact does_bind.2 (onlyIf_does (fun _ => clearReadonly_does asks hmeta hremove) hremove)
  · refine does_bind.2 (onlyIf_does (fun _ => ?_) trivial)
    refine does_bind.2 (stat_does asks _ _ fun live => ?_)
    exact onlyIf_does (fun _ => applyMetadata_does asks _ _ _ hmeta trivial) trivial

omit [Sha256] in
theorem noop_does (hkind : operation.kind = .noop) :
    (noop operation).Does I (OpCall xset runId operation) (OpNote runId operation)
      fun _ => True := by
  unfold noop
  split
  · refine does_bind.2 (guardPresent_does asks _ _ _ _ _ _ fun _ => ?_)
    refine does_bind.2 (guardPresent_does asks _ _ _ _ _ _ fun _ => ?_)
    exact does_bind.2 (record_does _ ⟨rfl, hkind.symm⟩ trivial fun _ => trivial)
  · trivial

/-- What an operation can touch. -/
theorem executeOperation_does :
    (executeOperation xset runId policies operation).Does I (OpCall xset runId operation)
      (OpNote runId operation) fun _ => True := by
  unfold executeOperation
  cases hkind : operation.kind with
  | copy => exact copy_does hkind
  | update => exact update_does hkind
  | move => exact move_does hkind
  | moveUpdate => exact moveUpdate_does hkind
  | recase => exact recase_does hkind
  | mkdir => trivial
  | trash => exact trash_does hkind
  | delete => exact delete_does hkind
  | noop => exact noop_does hkind

end Operations

end Executor

end NamiSync
