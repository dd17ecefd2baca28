/-
# `Modules.Executor.Execute` — the executor's main loop

`execute`: the operations of the plan in order, retries, deferred directory
metadata, and the three ways out of a call.

## Two readings of the source

* The loop `while True` of an operation is recursion on the retries that are
  left of `max_retries`; the policy is asked about each attempt and may stop
  the operation, or the run, before.
* `except Canceled`, `except PauseRequested` and the other branches of
  `execute` are one function of the error, `leave`.  They settle, flush and
  raise again, so nothing after the loop runs when it is left by an error.
-/
import NamiSync.Modules.Executor.Operations

namespace NamiSync

namespace Executor

open Faulty

variable [Unicode]

/-- `reason.value`. -/
def reasonValue : ExecutionReason → String
  | .noop => "noop"
  | .alreadyExists => "already-exists"
  | .blocked => "blocked"
  | .dependencyFailed => "dependency-failed"
  | .sourceDrift => "source-drift"
  | .targetDrift => "target-drift"
  | .destinationOccupied => "destination-occupied"
  | .wrongType => "wrong-type"
  | .sourceMissing => "source-missing"
  | .targetMissing => "target-missing"
  | .trashCollision => "trash-collision"
  | .unsafePath => "unsafe-path"
  | .sharingViolation => "sharing-violation"
  | .aclCopyFailed => "acl-copy-failed"
  | .cleanupFailed => "cleanup-failed"
  | .ioError => "io-error"
  | .policyStop => "policy-stop"
  | .canceled => "canceled"
  | .recorderFailed => "recorder-failed"

omit [Unicode] in
theorem itemId_ne (id : OpId) : id.itemId ≠ "" := by
  intro h
  have hlen := hexDigits_length 32 id
  have hempty : (hexDigits 32 id).map (fun c => Char.ofNat c.val) = [] :=
    String.ofList_injective (h.trans (by rfl))
  rw [List.map_eq_nil_iff] at hempty
  rw [hempty] at hlen
  exact absurd hlen (by decide)

omit [Unicode] in
theorem kindValue_ne (kind : OperationKind) : render kind.value ≠ "" := by
  cases kind <;> decide

/-- The event of `_settle`. -/
def itemOf (operation : PlanOperation) (settled : Settled) : ItemOutcome where
  itemId := operation.opId.itemId
  kind := render operation.kind.value
  path := render operation.targetRelPath.text
  outcome := settled.outcome
  reason := settled.reason.map reasonValue
  detail := settled.detail.entries
  itemId_ne := itemId_ne _
  kind_ne := kindValue_ne _

/-- The item of an operation that an earlier call has settled. -/
def continuedItem (operation : PlanOperation) (outcome : Outcome) : ItemOutcome where
  itemId := operation.opId.itemId
  kind := render operation.kind.value
  path := render operation.targetRelPath.text
  outcome := outcome
  reason := some "previously-settled"
  detail := [("continued", "True")]
  itemId_ne := itemId_ne _
  kind_ne := kindValue_ne _

variable [Host] [Sha256]

section Settling

variable (policies : ExecutorPolicies) (operation : PlanOperation)

omit [Sha256] in
/-- `_settle`. -/
def settle (settled : Settled) : Exec Unit := do
  let already ← get fun world => world.status.contains operation.opId
  if already then pure ()
  else do
    put (.settle operation.opId (itemOf operation settled))
    emit (.itemOutcome (itemOf operation settled))
    advanceProgress policies (.settled operation settled.outcome)

/-- The reason `_settle_failure` gives. -/
def failureReason : Error → ExecutionReason
  | .failure reason _ _ => reason
  | .unsafePath _ => .unsafePath
  | error => if error.winerror ∈ [some 32, some 33] then .sharingViolation else .ioError

omit [Sha256] in
/-- `_settle_failure`. -/
def settleFailure (error : Error) : Exec Unit :=
  settle policies operation
    { outcome := .failed
      reason := some (failureReason error)
      detail := (Dict.empty.set "error_type" (render error.typeName)).set "message"
        (render error.text) }

end Settling

omit [Sha256] in
/-- `_cleanup_inflight`. -/
def cleanupInflight : Exec (Option Error) := do
  match ← get fun world => world.state.inflightTemp with
  | none => return none
  | some temp => do
      put (.inflight none)
      catchException
        (do
          change (.removeOwnedTemp temp)
          return none)
        fun error => pure (some error)

omit [Sha256] in
/-- `_start_directory`. -/
def startDirectory (operation : PlanOperation) : Exec Unit := do
  guardAbsent operation.targetRelPath
  resolve .target operation.targetRelPath false
  catchFileExists (change (.mkdir operation.targetRelPath)) fun error =>
    fail .destinationOccupied (str "directory appeared before conditional create") (some error)
  put (.pend operation)

/-- The intended metadata of a directory. -/
def intendedOf (operation : PlanOperation) : Option FileStat :=
  operation.intended.or operation.sourceExpected

section Execute

variable (xset : ExecutionSet) (runId : RunId) (policies : ExecutorPolicies)

/-! ## Directories -/

omit [Sha256] in
/-- The `try` of the loop of `_finalize_directories`. -/
def finalizeDirectory (operation : PlanOperation) : Exec Unit := do
  match intendedOf operation with
  | some intended => do
      failIf (intended.kind ≠ .directory) .wrongType
        (str "mkdir operation lacks intended directory metadata")
      resolve .target operation.targetRelPath true
      applyMetadata operation.targetRelPath intended xset.plan.preservation.preserveCreated true
      let detail ← durabilityDetail .empty [parentOf operation.targetRelPath]
      let actual ← observedStat xset operation.targetRelPath
      let detail ← record detail (.mkdir operation.opId actual)
      settle policies operation { outcome := .succeeded, detail := detail }
  | none => fail .wrongType (str "mkdir operation lacks intended directory metadata")

omit [Sha256] in
/-- The loop of `_finalize_directories`. -/
def finalizeEach : List PlanOperation → Exec Unit
  | [] => pure ()
  | operation :: operations => do
      (catchFailure (finalizeDirectory xset policies operation) fun error =>
        settleFailure policies operation error).ensuring (put (.unready operation.opId))
      finalizeEach operations

omit [Sha256] in
/-- `_finalize_directories`: the deepest first. -/
def finalizeDirectories : Exec Unit := do
  let pending ← get fun world => world.state.pendingDirectories
  put .takePending
  finalizeEach xset policies
    (sortedBy (fun operation => OrderDual.toDual operation.targetRelPath.depth) pending)

omit [Sha256] in
/-- The body of the loop of `_restore_completed_directory_metadata`. -/
def restoreDirectory (operation : PlanOperation) : Exec Unit := do
  let restored ← get fun world => world.state.restoreDirectories
  if operation.kind ≠ .mkdir ∨ operation.opId ∉ xset.selection ∨ operation.opId ∉ restored then
    pure ()
  else
    match intendedOf operation with
    | none => pure ()
    | some intended =>
        catchException
          (do
            resolve .target operation.targetRelPath true
            applyMetadata operation.targetRelPath intended
              xset.plan.preservation.preserveCreated true)
          fun _ => put .filesystemFailed

omit [Sha256] in
def restoreEach : List PlanOperation → Exec Unit
  | [] => pure ()
  | operation :: operations => do
      restoreDirectory xset operation
      restoreEach operations

omit [Sha256] in
/-- `_restore_completed_directory_metadata`. -/
def restoreCompletedDirectoryMetadata : Exec Unit :=
  restoreEach xset xset.plan.operations.reverse

/-! ## The loop -/

omit [Host] [Sha256] in
/-- `_dependencies_succeeded`. -/
def dependenciesSucceeded (operation : PlanOperation) (world : World) : Bool :=
  operation.dependencies.all fun dependency =>
    world.status.get? dependency = some .succeeded ||
      dependency ∈ world.state.readyDirectories

/-- An attempt: what `_execute_operation` returned or raised. -/
def tryOperation (operation : PlanOperation) : Exec (Except Error Settled) :=
  catchFailure
    (do
      let settled ← executeOperation xset runId policies operation
      return .ok settled)
    fun error => pure (.error error)

omit [Sha256] in
/-- A failure that is not retried. -/
def giveUp (operation : PlanOperation) (error : Error) : Exec Unit := do
  let cleanupError ← cleanupInflight
  put (.forget operation.opId)
  settleFailure policies operation
    (match cleanupError with
    | none => error
    | some cleanup =>
        .failure .cleanupFailed
          (str "operation failed and its owned temp could not be removed: " ++ cleanup.text) none)

omit [Sha256] in
/-- What stands between two attempts: a temp goes, unless a continuation
needs it. -/
def beforeRetry (operation : PlanOperation) (after : Nat) : Exec Unit := do
  let kept ← get fun world => world.state.retryContinuations.contains operation.opId
  onlyIf (!kept) do
    let _ ← cleanupInflight
  checkpoint
  ask (.sleep after)
  checkpoint

/-- One turn of `while True`; `again` is what follows a retry, where one is
left.  The answer is whether the policy has stopped the run. -/
def attemptOnce (operation : PlanOperation) (number : Nat) (again : Option (Exec Bool)) :
    Exec Bool := do
  match ← tryOperation xset runId policies operation with
  | .ok settled => do
      put (.forget operation.opId)
      settle policies operation settled
      return false
  | .error error => do
      ask (.onItemFailed operation.opId number)
      match policies.failure operation error number, again with
      | .retry after, some again => do
          beforeRetry operation after
          again
      | .stop, _ => do
          giveUp policies operation error
          return true
      | _, _ => do
          giveUp policies operation error
          return false

/-- `while True`, with the number of retries left. -/
def attempt (operation : PlanOperation) : Nat → Nat → Exec Bool
  | 0, number => attemptOnce xset runId policies operation number none
  | left + 1, number =>
      attemptOnce xset runId policies operation number
        (some (attempt operation left (number + 1)))

/-- The body of the loop over the operations. -/
def executeOne (operation : PlanOperation) (stopRequested : Bool) : Exec Bool := do
  put (.current operation.opId)
  checkpoint
  advanceProgress policies (.start operation)
  let ready ← get (dependenciesSucceeded operation)
  if stopRequested then do
    settle policies operation { outcome := .canceled, reason := some .policyStop }
    return true
  else if operation.blocked then do
    settle policies operation
      { outcome := .failed
        reason := some .blocked
        detail := Dict.empty.set "blocked_reason"
          (operation.blockedReason.elim "" fun reason => render reason.value) }
    return false
  else if !ready then do
    settle policies operation { outcome := .deferred, reason := some .dependencyFailed }
    return false
  else if operation.kind = .mkdir then do
    catchFailure (startDirectory operation) fun error => settleFailure policies operation error
    return false
  else attempt xset runId policies operation policies.maxRetries 1

/-- The loop over the operations. -/
def executeEach : List PlanOperation → Bool → Exec Unit
  | [], _ => pure ()
  | operation :: operations, stopRequested => do
      let settled ← get fun world => world.status.contains operation.opId
      if operation.opId ∉ xset.selection ∨ settled = true then
        executeEach operations stopRequested
      else do
        let stopRequested ← executeOne xset runId policies operation stopRequested
        executeEach operations stopRequested

/-- The `try` of `execute`. -/
def executeAll : Exec Unit := do
  executeEach xset runId policies xset.plan.operations false
  finalizeDirectories xset policies
  restoreCompletedDirectoryMetadata xset
  flushAtEnd

omit [Sha256] in
/-- The loop of the `except Canceled` branch. -/
def cancelEach (cleanupError : Option Error) : List PlanOperation → Exec Unit
  | [] => pure ()
  | operation :: operations => do
      let current ← get fun world => world.state.current
      onlyIf (operation.opId ∈ xset.selection)
        (settle policies operation
          { outcome := .canceled
            reason := some .canceled
            detail := match cleanupError with
              | some error =>
                  if current = some operation.opId then
                    Dict.empty.set "cleanup_error" (render error.text)
                  else .empty
              | none => .empty })
      cancelEach cleanupError operations

omit [Sha256] in
/-- The `except` branches of `execute`. -/
def leave : Error → Exec Unit
  | .signal .canceled => do
      let cleanupError ← cleanupInflight
      finalizeDirectories xset policies
      cancelEach xset policies cleanupError xset.plan.operations
      flushAtEnd
      throw (.signal .canceled)
  | .signal .pauseRequested => do
      let _ ← cleanupInflight
      finalizeDirectories xset policies
      restoreCompletedDirectoryMetadata xset
      flushAtEnd
      throw (.signal .pauseRequested)
  | error => do
      let _ ← cleanupInflight
      flushAtEnd
      throw error

/-- The constructor of `_ProgressTracker`. -/
def initialProgress (status : Dict OpId Outcome) : ProgressTracker :=
  let bytesTotal := ((xset.plan.operations.filter fun operation =>
    decide (operation.opId ∈ xset.selection) && countsBytes operation.kind).map
      (·.contentBytes)).sum
  let committed := ((xset.plan.operations.filter fun operation =>
    decide (status.get? operation.opId = some .succeeded) && countsBytes operation.kind).map
      (·.contentBytes)).sum
  { itemsTotal := xset.selection.length
    itemsDone := status.keys.length
    bytesTotal := bytesTotal
    committedBytes := committed
    bytesDone := min committed bytesTotal }

/-- `state.restore_directories` of a new call. -/
def completedDirectories (status : Dict OpId Outcome) : List OpId :=
  (xset.plan.operations.filter fun operation =>
    decide (operation.kind = .mkdir) && decide (status.get? operation.opId = some .succeeded)).map
      (·.opId)

/-- The items of the result. -/
def resultItems (world : World) : List ItemOutcome :=
  (xset.plan.operations.filter fun operation => operation.opId ∈ xset.selection).filterMap
    fun operation =>
      match world.state.outcomes.get? operation.opId with
      | some item => some item
      | none => (world.status.get? operation.opId).map (continuedItem operation)

/-- `failed`. -/
def hasFailed (world : World) : Bool :=
  world.state.filesystemFailed ||
    world.status.values.any fun outcome => outcome ∈ [.failed, .canceled, .deferred]

/-- The result that `execute` returns. -/
def executeResult (world : World) : OperationResult where
  status := if hasFailed world then .failed else .completed
  recording := world.state.recording
  operations := resultItems xset world
  bytesDone := min world.progress.bytesDone world.progress.bytesTotal
  bytesTotal := world.progress.bytesTotal
  terminal := by split <;> rfl
  bytes_le := Nat.min_le_right _ _
  canceled_iff := by split <;> rfl
  refused_unrun := by split <;> simp

/-- `execute`.  The status of the execution set is the one of the world. -/
def execute : Exec OperationResult := do
  let status ← get World.status
  put (.start (completedDirectories xset status) (initialProgress xset status))
  emit (.phaseChanged "execute")
  emitProgress policies true
  (executeAll xset runId policies).catching (leave xset policies)
  let world ← get id
  emitProgress policies true
  return executeResult xset world

end Execute

end Executor

end NamiSync
