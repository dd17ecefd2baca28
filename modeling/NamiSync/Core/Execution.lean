/-
# `Core.Execution` — a selected plan and how far it has come

`ExecutionSet` and the reasons of `core/execution.py`.  The `__post_init__`
checks are fields.

The status is a dictionary from operation ids: an operation without an entry
has not been settled.  `remaining` is the order in which the loop of `execute`
takes what is left.
-/
import NamiSync.Core.Evidence
import NamiSync.Core.Planning
import NamiSync.Lib.Dict

namespace NamiSync

/-- `ExecutionReason`. -/
inductive ExecutionReason
  | noop | alreadyExists | blocked | dependencyFailed | sourceDrift | targetDrift
  | destinationOccupied | wrongType | sourceMissing | targetMissing | trashCollision | unsafePath
  | sharingViolation | aclCopyFailed | cleanupFailed | ioError | policyStop | canceled
  | recorderFailed
  deriving DecidableEq, Repr

/-- 32 lowercase hexadecimal digits. -/
abbrev RunId := Fin (16 ^ 32)

/-- `FailureDecision`: `Continue`, `Stop` or `Retry`, whose delay counts in ticks of the clock that
sleeps. -/
inductive FailureDecision
  | proceed
  | stop
  | retry (after : Nat)
  deriving DecidableEq, Repr

section Execution

variable [Unicode]

structure ExecutionSet where
  plan : Plan
  selection : List OpId
  status : Dict OpId Outcome := .empty
  selection_known : ∀ id ∈ selection, id ∈ plan.operations.map PlanOperation.opId
  status_selected : ∀ id ∈ status.keys, id ∈ selection := by simp [Dict.keys, Dict.empty]

/-- `remaining`. -/
def ExecutionSet.remaining (xset : ExecutionSet) : List PlanOperation :=
  xset.plan.operations.filter fun operation =>
    decide (operation.opId ∈ xset.selection) && !xset.status.contains operation.opId

end Execution

end NamiSync
