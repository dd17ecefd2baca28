/-
# `Modules.Executor.Operations` — what one operation does

`_copy`, `_update`, `_move` and the other operations of `modules/executor.py`.
An update and a move-update leave a continuation behind once they have
something to lose; a retry picks it up where it stands.

## Where an attempt can break off

At every call.  `_update` and `_move_update` are cut into the parts between
which their continuation changes (`startUpdate`, `publishUpdate`,
`completeUpdate`; `startMoveUpdate`, `attestMoveUpdate`, `trashMoved`), so
that what a retry finds is the state at the end of one of them.  The other
operations start from the beginning.
-/
import NamiSync.Modules.Executor.Native

namespace NamiSync

namespace Executor

open Batches Faulty

variable [Unicode] [Host] [Sha256] (xset : ExecutionSet) (runId : RunId)
  (policies : ExecutorPolicies) (operation : PlanOperation)

/-- The owned temp of an operation. -/
def tempOf : RelPath := ownedTemp operation.targetRelPath runId operation.opId

/-- `copy_backend.copy`, its streams opened and flushed. -/
def copyStream (source temp : RelPath) : Exec CopyDigest := do
  ask (.openSource .source source)
  change (.createTemp temp)
  let content ← contentOf .source source
  stream .source source temp (fun size => advanceProgress policies (.copied size))
    (batches policies.chunkSize content)
  ask (.flushFile temp)
  pure ⟨Sha256.digest content, content.length, Sha256.digest_length content⟩

/-- `_prepare_copy`. -/
def prepareCopy : Exec PreparedCopy := do
  let (source, sourceExpected) ←
    lift (sourceEvidence operation "copy operation has no source evidence")
  let _ ← guardPresent .source source sourceExpected .sourceMissing .sourceDrift
  guardExpectedTarget operation
  resolve .source source true
  resolve .target operation.targetRelPath false
  let temp := tempOf runId operation
  catchException (change (.removeOwnedTemp temp)) fun error =>
    fail .cleanupFailed
      (str "cannot recover owned temp: " ++ absolute xset.plan.targetRoot temp) (some error)
  put (.inflight (some temp))
  let digest ← copyStream policies source temp
  let intended := operation.intended.getD sourceExpected
  failIf (digest.size ≠ sourceExpected.size) .sourceDrift
    (str "source byte count changed during copy")
  onlyIf xset.plan.preservation.preserveAcl
    (catchException (ask (.copySecurity source temp)) fun error =>
      fail .aclCopyFailed (str "security descriptor copy failed before publish") (some error))
  applyMetadata temp intended xset.plan.preservation.preserveCreated false
  ask (.flushPath temp)
  checkpoint
  let _ ← guardPresent .source source sourceExpected .sourceMissing .sourceDrift
  guardExpectedTarget operation
  return ⟨digest, intended⟩

/-- The stat of a path after the operation, as the profile keeps it. -/
def observedStat (path : RelPath) : Exec FileStat := do
  let found ← requireStatPath path
  return profiledStat found xset.plan.targetProfile.stableFileIdentity

/-- `publish_new`, and what an occupied destination means. -/
def renameOr (source target : RelPath) (reason : ExecutionReason) (detail : String) :
    Exec Unit :=
  catchFileExists (change (.rename source target)) fun error =>
    fail reason (str detail) (some error)

/-- `_copy`. -/
def copy : Exec Settled := do
  let prepared ← prepareCopy xset runId policies operation
  renameOr (tempOf runId operation) operation.targetRelPath .destinationOccupied
    "destination appeared before conditional publish"
  put (.inflight none)
  applyMetadata operation.targetRelPath prepared.intended xset.plan.preservation.preserveCreated
    true
  let detail ← durabilityDetail .empty [parentOf operation.targetRelPath]
  let published ← observedStat xset operation.targetRelPath
  let attestation ← attest prepared.digest published
  let detail ← record detail (.copied operation.opId attestation)
  return { outcome := .succeeded, detail := detail }

/-! ## `_update` -/

/-- The backup in the trash: a hard link, or a copy through a temp. -/
def makeBackup (trash : RelPath) : Exec Unit :=
  if xset.plan.targetProfile.supportsHardlinks then
    change (.hardlink operation.targetRelPath trash)
  else do
    let backupTemp := ownedTemp trash runId operation.opId
    catchException (change (.removeOwnedTemp backupTemp)) fun error =>
      fail .cleanupFailed
        (str "cannot recover exact backup temp: " ++ absolute xset.plan.targetRoot backupTemp)
        (some error)
    copyBackup operation.targetRelPath backupTemp trash

/-- `detail["backup"]`. -/
def backupDetail : Detail :=
  Dict.empty.set "backup"
    (if xset.plan.targetProfile.supportsHardlinks then "hardlink" else "copy")

/-- The branch of `_update` for `trash_on_update`: the detail and, where the
backup is there although making it failed, that error. -/
def backUp : Exec (Option Error) := do
  let trash ← trashDestination runId operation.targetRelPath
  let found ← stat .target trash
  failIf found.isSome .trashCollision
    (str "update trash exists: " ++ absolute xset.plan.targetRoot trash)
  catchFailure
    (do
      makeBackup xset runId operation trash
      return none)
    fun error => do
      let found ← stat .target trash
      if found.isNone then throw error else pure (some error)

/-- `_require_stat_path` of the backup, where there is one. -/
def backupStatOf : Exec (Option FileStat) :=
  if xset.plan.trashOnUpdate then do
    let found ← requireStatPath (trashPath runId operation.targetRelPath)
    return some found
  else pure none

/-- The `if` of `_update` around the backup. -/
def backUpIfAsked : Exec (Option Error) :=
  if xset.plan.trashOnUpdate then backUp xset runId operation else pure none

/-- The start of `_update`, which leaves a continuation. -/
def startUpdate (targetExpected : FileStat) : Exec UpdateContinuation := do
  let prepared ← prepareCopy xset runId policies operation
  let _ ← guardPresent .target operation.targetRelPath targetExpected .targetMissing .targetDrift
  let backupError ← backUpIfAsked xset runId operation
  let preparedStat ← requireStatPath (tempOf runId operation)
  let liveStat ← requireStatPath operation.targetRelPath
  let backupStat ← backupStatOf xset runId operation
  let continuation : UpdateContinuation :=
    { prepared := prepared
      preparedStat := preparedStat
      liveStat := liveStat
      backupStat := backupStat
      detail := if xset.plan.trashOnUpdate then backupDetail xset else .empty }
  put (.keep operation.opId (.update continuation))
  match backupError with
  | some error => throw error
  | none => return continuation

/-- `fs.replace` and what surrounds it: where it raises, the target gets its
readonly bit back if it is still there.  The `finally` finds `published` set
exactly when nothing has raised. -/
def replaceTarget (targetExpected : FileStat) (continuation : UpdateContinuation) :
    Exec Unit := do
  let readonlyCleared : Bool := targetExpected.metadata.attributes &&& readonly ≠ 0
  Prog.catching
    (do
      onlyIf readonlyCleared (clearReadonly operation.targetRelPath)
      flushBeforeDestructive
      change (.replace (tempOf runId operation) operation.targetRelPath)
      put (.inflight none)
      put (.keep operation.opId (.update { continuation with published := true })))
    fun error => do
      let live ← stat .target operation.targetRelPath
      onlyIf (readonlyCleared &&
          live.any fun actual => sameFileVersion actual continuation.liveStat)
        (applyMetadata operation.targetRelPath targetExpected
          xset.plan.preservation.preserveCreated true)
      throw error
  let _ ← stat .target operation.targetRelPath

/-- The guard of the backup, where there is one. -/
def guardBackup (backupStat : Option FileStat) : Exec Unit :=
  match backupStat with
  | none => pure ()
  | some expected => do
      let backup ← requireStatPath (trashPath runId operation.targetRelPath)
      guardPathStat backup expected .trashCollision "update backup drifted before retry"

/-- The middle of `_update`: the prepared file takes the target's place, if
it has not done so in an earlier attempt. -/
def publishUpdate (targetExpected : FileStat) (continuation : UpdateContinuation) :
    Exec Unit := do
  match ← stat .target (tempOf runId operation) with
  | none => do
      let published ← requireStatPath operation.targetRelPath
      failIf (!sameFileVersion published continuation.preparedStat) .targetDrift
        (str "update temp disappeared without the prepared file being published")
      put (.keep operation.opId (.update { continuation with published := true }))
      put (.inflight none)
  | some tempStat => do
      let (source, sourceExpected) ←
        lift (sourceEvidence operation "copy operation has no source evidence")
      let _ ← guardPresent .source source sourceExpected .sourceMissing .sourceDrift
      guardPathStat tempStat continuation.preparedStat .targetDrift
        "prepared update temp drifted before retry"
      let live ← requireStatPath operation.targetRelPath
      guardPathStat live continuation.liveStat .targetDrift
        "live update target drifted after its backup was created"
      guardBackup runId operation continuation.backupStat
      replaceTarget xset runId operation targetExpected continuation

/-- The end of `_update`. -/
def completeUpdate (targetExpected : FileStat) (continuation : UpdateContinuation) :
    Exec Settled := do
  let trash := trashPath runId operation.targetRelPath
  onlyIf continuation.backupStat.isSome
    (applyMetadata trash targetExpected xset.plan.preservation.preserveCreated true)
  applyMetadata operation.targetRelPath continuation.prepared.intended
    xset.plan.preservation.preserveCreated true
  let detail ← durabilityDetail continuation.detail
    (parentOf operation.targetRelPath ::
      if continuation.backupStat.isSome then [parentOf trash] else [])
  put (.keep operation.opId
    (.update { continuation with detail := detail, published := true }))
  let published ← observedStat xset operation.targetRelPath
  let attestation ← attest continuation.prepared.digest published
  let detail ← record detail (.updated operation.opId attestation)
  return { outcome := .succeeded, detail := detail }

/-- The continuation that `_update` works with. -/
def updateContinuation (targetExpected : FileStat) (existing : Option Continuation) :
    Exec UpdateContinuation :=
  match existing with
  | none => startUpdate xset runId policies operation targetExpected
  | some (.update continuation) => pure continuation
  | some (.moveUpdate _) =>
      throw (.other (str "RuntimeError") (str "executor continuation kind does not match update"))

/-- `_update`. -/
def update : Exec Settled := do
  let targetExpected ← lift (targetEvidence operation "update has no displaced target evidence")
  let existing ← get fun world => world.state.retryContinuations.get? operation.opId
  let continuation ← updateContinuation xset runId policies operation targetExpected existing
  onlyIf (!continuation.published)
    (publishUpdate xset runId operation targetExpected continuation)
  completeUpdate xset runId operation targetExpected continuation

/-! ## Moves -/

/-- `_move`. -/
def move : Exec Settled := do
  let (oldRel, oldExpected) ← lift (priorTarget operation)
  let _ ← guardPresent .target oldRel oldExpected .targetMissing .targetDrift
  guardAbsent operation.targetRelPath
  resolve .target oldRel true
  resolve .target operation.targetRelPath false
  flushBeforeDestructive
  renameOr oldRel operation.targetRelPath .destinationOccupied
    "move destination appeared before conditional rename"
  let detail ← durabilityDetail .empty [parentOf oldRel, parentOf operation.targetRelPath]
  let moved ← observedStat xset operation.targetRelPath
  let detail ← record detail (.moved operation.opId moved)
  return { outcome := .succeeded, detail := detail }

/-- `_recase`. -/
def recase : Exec Settled := do
  let (oldRel, oldExpected) ← lift (priorTarget operation)
  let (source, sourceExpected) ←
    lift (sourceEvidence operation "recase operation lacks source evidence")
  failIf (oldRel = operation.targetRelPath ∨ oldRel.key ≠ operation.targetRelPath.key) .unsafePath
    (str "recase paths must differ only by Windows filename casing")
  let _ ← guardPresent .source source sourceExpected .sourceMissing .sourceDrift
  let _ ← guardPresent .target oldRel oldExpected .targetMissing .targetDrift
  resolve .target oldRel true
  resolve .target operation.targetRelPath false
  flushBeforeDestructive
  renameOr oldRel operation.targetRelPath .destinationOccupied
    "recase destination is a distinct occupied entry"
  let detail ← durabilityDetail .empty [parentOf oldRel, parentOf operation.targetRelPath]
  let recased ← observedStat xset operation.targetRelPath
  let detail ← record detail (.recased operation.opId recased)
  return { outcome := .succeeded, detail := detail }

/-- The start of `_move_update`, which publishes and leaves a continuation. -/
def startMoveUpdate : Exec MoveUpdateContinuation := do
  let (oldRel, oldExpected) ← lift (priorTarget operation)
  let _ ← guardPresent .target oldRel oldExpected .targetMissing .targetDrift
  let prepared ← prepareCopy xset runId policies operation
  renameOr (tempOf runId operation) operation.targetRelPath .destinationOccupied
    "move-update destination appeared before conditional publish"
  put (.inflight none)
  let publishedStat ← requireStatPath operation.targetRelPath
  let continuation : MoveUpdateContinuation :=
    { prepared := prepared, publishedStat := publishedStat }
  put (.keep operation.opId (.moveUpdate continuation))
  return continuation

/-- The middle of `_move_update`: what was published is finished and attested. -/
def attestMoveUpdate (continuation : MoveUpdateContinuation) : Exec MoveUpdateContinuation := do
  let published ← requireStatPath operation.targetRelPath
  failIf (!sameFileVersion published continuation.publishedStat) .targetDrift
    (str "published move-update target drifted before completion")
  applyMetadata operation.targetRelPath continuation.prepared.intended
    xset.plan.preservation.preserveCreated true
  match continuation.attestation with
  | some _ => return continuation
  | none => do
      let published ← observedStat xset operation.targetRelPath
      let attestation ← attest continuation.prepared.digest published
      let attested := { continuation with attestation := some attestation }
      put (.keep operation.opId (.moveUpdate attested))
      return attested

/-- The end of `_move_update`: the old file goes into the trash, if it has
not done so in an earlier attempt. -/
def trashMoved (oldRel : RelPath) (oldExpected : FileStat)
    (continuation : MoveUpdateContinuation) : Exec Unit := do
  let trash := trashPath runId oldRel
  onlyIf (!continuation.hasTrash) do
    let _ ← trashDestination runId oldRel
    put (.keep operation.opId (.moveUpdate { continuation with hasTrash := true }))
  resolve .target oldRel false
  let oldActual ← stat .target oldRel
  let trashActual ← stat .target trash
  match oldActual with
  | none =>
      failIf (!trashActual.any fun actual => matchesExpected actual oldExpected) .targetMissing
        (str "move-update old path vanished without reaching owned trash")
  | some actual => do
      guardPathStat actual oldExpected .targetDrift "move-update old path drifted before trash"
      failIf trashActual.isSome .trashCollision
        (str "move-update trash exists: " ++ absolute xset.plan.targetRoot trash)
      flushBeforeDestructive
      renameOr oldRel trash .trashCollision
        "move-update trash destination appeared before conditional rename"

/-- The continuation that `_move_update` works with. -/
def moveUpdateContinuation (existing : Option Continuation) : Exec MoveUpdateContinuation :=
  match existing with
  | none => startMoveUpdate xset runId policies operation
  | some (.moveUpdate continuation) => pure continuation
  | some (.update _) =>
      throw (.other (str "RuntimeError")
        (str "executor continuation kind does not match move-update"))

/-- `_move_update`. -/
def moveUpdate : Exec Settled := do
  let existing ← get fun world => world.state.retryContinuations.get? operation.opId
  let continuation ← moveUpdateContinuation xset runId policies operation existing
  let (oldRel, oldExpected) ← lift (priorTarget operation)
  let attested ← attestMoveUpdate xset operation continuation
  trashMoved xset runId operation oldRel oldExpected attested
  let detail ← durabilityDetail .empty
    [parentOf operation.targetRelPath, parentOf oldRel, parentOf (trashPath runId oldRel)]
  match attested.attestation with
  | none => throw (.other (str "AssertionError") [])
  | some attestation => do
      let detail ← record detail (.moveUpdated operation.opId attestation)
      return { outcome := .succeeded, detail := detail }

/-! ## Removals -/

/-- `_trash`. -/
def trash : Exec Settled := do
  let targetExpected ← lift (targetEvidence operation "trash operation has no target evidence")
  let _ ← guardPresent .target operation.targetRelPath targetExpected .targetMissing .targetDrift
  resolve .target operation.targetRelPath true
  let destination ← trashDestination runId operation.targetRelPath
  let found ← stat .target destination
  failIf found.isSome .trashCollision
    (str "trash destination exists: " ++ absolute xset.plan.targetRoot destination)
  flushBeforeDestructive
  renameOr operation.targetRelPath destination .trashCollision
    "trash destination appeared before conditional rename"
  let detail ← durabilityDetail .empty
    [parentOf operation.targetRelPath, parentOf destination]
  let moved ← observedStat xset destination
  let detail ← record detail (.trashed operation.opId destination moved)
  return { outcome := .succeeded, detail := detail }

/-- `fs.remove_directory` or `fs.remove_file`. -/
def removeTarget (targetExpected : FileStat) : Exec Unit :=
  if targetExpected.kind = .directory then change (.removeDirectory operation.targetRelPath)
  else change (.removeFile operation.targetRelPath)

/-- `_delete`.  The `finally` runs with `removed` unset exactly when what
stands before it raises. -/
def delete : Exec Settled := do
  let targetExpected ← lift (targetEvidence operation "delete operation has no target evidence")
  let _ ← guardPresent .target operation.targetRelPath targetExpected .targetMissing .targetDrift
    (if operation.directoryCleanup then matchesDirectoryCleanup else matchesExpected)
  resolve .target operation.targetRelPath true
  flushBeforeDestructive
  let readonlyCleared : Bool := targetExpected.metadata.attributes &&& readonly ≠ 0
  Prog.catching
    (do
      onlyIf readonlyCleared (clearReadonly operation.targetRelPath)
      removeTarget operation targetExpected)
    fun error => do
      onlyIf readonlyCleared do
        let live ← stat .target operation.targetRelPath
        onlyIf live.isSome (applyMetadata operation.targetRelPath targetExpected true true)
      throw error
  let detail ← durabilityDetail .empty [parentOf operation.targetRelPath]
  let detail ← record detail (.deleted operation.opId targetExpected)
  return { outcome := .succeeded, detail := detail }

/-- `_noop`. -/
def noop : Exec Settled :=
  match operation.sourceRelPath, operation.sourceExpected, operation.targetExpected with
  | some path, some sourceExpected, some targetExpected => do
      let source ← guardPresent .source path sourceExpected .sourceMissing .sourceDrift
      let target ← guardPresent .target operation.targetRelPath targetExpected
        .targetMissing .targetDrift
      let detail ← record .empty
        (.noop operation.opId (normalizedLiveStat source sourceExpected)
          (normalizedLiveStat target targetExpected))
      return { outcome := .skipped, reason := some .noop, detail := detail }
  | _, _, _ => fail .sourceDrift (str "noop lacks matching two-sided evidence")

/-- `_execute_operation`. -/
def executeOperation : Exec Settled :=
  match operation.kind with
  | .copy => copy xset runId policies operation
  | .update => update xset runId policies operation
  | .move => move xset operation
  | .recase => recase xset operation
  | .moveUpdate => moveUpdate xset runId policies operation
  | .trash => trash xset runId operation
  | .delete => delete operation
  | .noop => noop operation
  | .mkdir => fail .ioError (str "unsupported operation kind: mkdir")

end Executor

end NamiSync
