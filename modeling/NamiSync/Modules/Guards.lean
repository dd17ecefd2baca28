/-
# `Modules.Guards` — the executor's guards

What `modules/executor.py` checks about an operation before it touches
anything: that the operation carries the evidence of its kind, and that the
live stats of its paths match the plan.  The stats are those of the first
attempt, before the operation changed anything itself.

These are the guards alone, for `Modules.Drift`, which compares them with
preflight.  The executor with its effects, in which the same guards stand
between the calls, is `Modules.Executor`; there a guard reads the tree at its
point of the run, here all three stats are given.
-/
import NamiSync.Core.Execution
import NamiSync.Core.RawStat
import NamiSync.Lib.Checked

namespace NamiSync

/-- What a filesystem primitive of the executor raises. -/
inductive NativeError
  | unsafePath (text : Str)
  | os (error : OsError)
  | value (error : ValueError)
  deriving DecidableEq

/-- What an operation raises: an `OperationFailure`, or what a primitive
raised. -/
inductive OperationError
  | failure (reason : ExecutionReason) (detail : Str)
  | native (error : NativeError)
  deriving DecidableEq

/-- `_matches_expected`. -/
def matchesExpected (actual expected : FileStat) : Bool :=
  actual.kind = expected.kind && actual.size = expected.size &&
    actual.mtimeNs = expected.mtimeNs && actual.nlink = expected.nlink &&
    actual.metadata = expected.metadata &&
    (expected.fileIdentity.isNone || actual.fileIdentity = expected.fileIdentity)

/-- `_matches_directory_cleanup`. -/
def matchesDirectoryCleanup (actual expected : FileStat) : Bool :=
  actual.kind = .directory && expected.kind = .directory && actual.size = expected.size &&
    actual.metadata = expected.metadata &&
    (expected.fileIdentity.isNone || actual.fileIdentity = expected.fileIdentity)

/-- What `fs.stat` answers for one path. -/
abbrev StatAnswer := Except NativeError (Option FileStat)

section Guards

variable [Unicode]

/-- `_guard_present`. -/
def guardPresent (answer : StatAnswer) (relativePath : RelPath) (expected : FileStat)
    (missing drift : ExecutionReason) (matcher : FileStat → FileStat → Bool := matchesExpected) :
    Except OperationError FileStat :=
  match answer with
  | .error (.unsafePath text) => .error (.failure .unsafePath text)
  | .error error => .error (.native error)
  | .ok none =>
      .error (.failure missing (str "planned path is missing: " ++ relativePath.text))
  | .ok (some actual) =>
      if matcher actual expected then .ok actual
      else
        .error (.failure (if actual.kind ≠ expected.kind then .wrongType else drift)
          (str "planned evidence drifted: " ++ relativePath.text))

/-- `_guard_absent`. -/
def guardAbsent (answer : StatAnswer) (relativePath : RelPath) : Except OperationError Unit :=
  match answer with
  | .error error => .error (.native error)
  | .ok none => .ok ()
  | .ok (some _) =>
      .error (.failure .destinationOccupied
        (str "planned absent destination is occupied: " ++ relativePath.text))

/-- `fs.stat` of the source, of the target and of the prior target. -/
structure LiveStats where
  source : StatAnswer
  target : StatAnswer
  prior : StatAnswer

section Operation

variable (operation : PlanOperation) (live : LiveStats)

def guardSource (path : RelPath) (expected : FileStat) : Except OperationError FileStat :=
  guardPresent live.source path expected .sourceMissing .sourceDrift

def guardTarget (expected : FileStat)
    (matcher : FileStat → FileStat → Bool := matchesExpected) : Except OperationError FileStat :=
  guardPresent live.target operation.targetRelPath expected .targetMissing .targetDrift matcher

def guardPrior (path : RelPath) (expected : FileStat) : Except OperationError FileStat :=
  guardPresent live.prior path expected .targetMissing .targetDrift

/-- `_guard_expected_target`. -/
def guardExpectedTarget : Except OperationError Unit :=
  match operation.targetExpected with
  | none => guardAbsent live.target operation.targetRelPath
  | some expected => do
      let _ ← guardTarget operation live expected
      return ()

/-- `_prior_target`. -/
def priorTarget : Except OperationError (RelPath × FileStat) :=
  match operation.priorTargetRelPath, operation.priorTargetExpected with
  | some path, some expected => .ok (path, expected)
  | _, _ => .error (.failure .targetMissing (str "move operation lacks prior-target evidence"))

/-- The source evidence an operation needs. -/
def sourceEvidence (detail : String) : Except OperationError (RelPath × FileStat) :=
  match operation.sourceRelPath, operation.sourceExpected with
  | some path, some expected => .ok (path, expected)
  | _, _ => .error (.failure .sourceMissing (str detail))

/-- The target evidence an operation needs. -/
def targetEvidence (detail : String) : Except OperationError FileStat :=
  match operation.targetExpected with
  | some expected => .ok expected
  | none => .error (.failure .targetMissing (str detail))

/-- The guards of `_prepare_copy`, which run before and after the copying. -/
def prepareCopyGuards : Except OperationError Unit := do
  let (path, expected) ← sourceEvidence operation "copy operation has no source evidence"
  let _ ← guardSource live path expected
  guardExpectedTarget operation live

def copyGuards : Except OperationError Unit := prepareCopyGuards operation live

def updateGuards : Except OperationError Unit := do
  let expected ← targetEvidence operation "update has no displaced target evidence"
  prepareCopyGuards operation live
  let _ ← guardTarget operation live expected
  return ()

def moveGuards : Except OperationError Unit := do
  let (oldRel, oldExpected) ← priorTarget operation
  let _ ← guardPrior live oldRel oldExpected
  guardAbsent live.target operation.targetRelPath

def recaseGuards : Except OperationError Unit := do
  let (oldRel, oldExpected) ← priorTarget operation
  let (path, expected) ← sourceEvidence operation "recase operation lacks source evidence"
  if oldRel = operation.targetRelPath ∨ oldRel.key ≠ operation.targetRelPath.key then
    .error (.failure .unsafePath
      (str "recase paths must differ only by Windows filename casing"))
  else do
    let _ ← guardSource live path expected
    let _ ← guardPrior live oldRel oldExpected
    return ()

def moveUpdateGuards : Except OperationError Unit := do
  let (oldRel, oldExpected) ← priorTarget operation
  let _ ← guardPrior live oldRel oldExpected
  prepareCopyGuards operation live

def trashGuards : Except OperationError Unit := do
  let expected ← targetEvidence operation "trash operation has no target evidence"
  let _ ← guardTarget operation live expected
  return ()

/-- `directory_cleanup`. -/
def PlanOperation.directoryCleanup : Bool :=
  operation.targetExpected.any (fun expected => expected.kind = .directory) &&
    operation.reason = .directoryCleanup

def deleteGuards : Except OperationError Unit := do
  let expected ← targetEvidence operation "delete operation has no target evidence"
  let _ ← guardTarget operation live expected
    (if operation.directoryCleanup then matchesDirectoryCleanup else matchesExpected)
  return ()

def noopGuards : Except OperationError Unit :=
  match operation.sourceRelPath, operation.sourceExpected, operation.targetExpected with
  | some path, some expected, some target => do
      let _ ← guardSource live path expected
      let _ ← guardTarget operation live target
      return ()
  | _, _, _ => .error (.failure .sourceDrift (str "noop lacks matching two-sided evidence"))

/-- The guard of `_start_directory`. -/
def startDirectoryGuards : Except OperationError Unit :=
  guardAbsent live.target operation.targetRelPath

/-- The guards of an operation, by its kind. -/
def executorGuards : Except OperationError Unit :=
  match operation.kind with
  | .copy => copyGuards operation live
  | .update => updateGuards operation live
  | .move => moveGuards operation live
  | .recase => recaseGuards operation live
  | .moveUpdate => moveUpdateGuards operation live
  | .trash => trashGuards operation live
  | .delete => deleteGuards operation live
  | .noop => noopGuards operation live
  | .mkdir => startDirectoryGuards operation live

end Operation

end Guards

end NamiSync
