/-
# `Modules.Executor.Native` — primitives and helpers as programs

The methods of `NativeFileSystem` that make more than one call, the guards
around a live stat, recording, progress and settling.

Nothing is proved here.  These are the helpers that `executor.py` calls from
more than one place, translated once, so that `Modules.Executor.Operations`
reads like the source.  `try`/`except` is one of three combinators
(`catchException`, `catchFailure`, `catchFileExists`), since the source
catches in these three ways only; a `finally` is written out on both ways.
-/
import NamiSync.Lib.Batches
import NamiSync.Modules.Executor.Machine

namespace NamiSync

namespace Executor

open Batches Faulty Faulty.Prog

variable [Unicode] [Host]

def ask (question : Question) : Exec Unit := call (M := machine) (.ask question)

def change (step : Change) : Exec Unit := call (M := machine) (.change step)

def put (note : Note) : Exec Unit := Prog.put (M := machine) note

def get {α : Type} (f : World → α) : Exec α := Prog.get (M := machine) f

def throw {α : Type} (error : Error) : Exec α := .raise error

/-- `raise OperationFailure(reason, detail) from cause`. -/
def fail {α : Type} (reason : ExecutionReason) (detail : Str) (cause : Option Error := none) :
    Exec α :=
  throw (.failure reason detail (cause.bind Error.winerror))

/-- `if condition: raise OperationFailure(reason, detail)`. -/
def failIf (condition : Bool) (reason : ExecutionReason) (detail : Str) : Exec Unit :=
  if condition then fail reason detail else pure ()

/-- `if condition:` around a step. -/
def onlyIf (condition : Bool) (m : Exec Unit) : Exec Unit := if condition then m else pure ()

/-- What a check on evidence says, raised if it fails. -/
def lift {α : Type} : Except OperationError α → Exec α
  | .ok a => pure a
  | .error (.failure reason detail) => fail reason detail
  | .error (.native (.unsafePath text)) => throw (.unsafePath text)
  | .error (.native (.os error)) => throw (.os error.text none)
  | .error (.native (.value error)) => throw (.other (str "ValueError") error.text)

/-- `except Exception`. -/
def catchException {α : Type} (m : Exec α) (handler : Error → Exec α) : Exec α :=
  m.catching fun error => if error.isException then handler error else throw error

/-- `except (Canceled, PauseRequested): raise` before `except Exception`. -/
def catchFailure {α : Type} (m : Exec α) (handler : Error → Exec α) : Exec α :=
  m.catching fun error =>
    if error.isException && !error.isSignal then handler error else throw error

/-- `except FileExistsError`. -/
def catchFileExists (m : Exec Unit) (handler : Error → Exec Unit) : Exec Unit :=
  m.catching fun
    | .fileExists text => handler (.fileExists text)
    | error => throw error

def checkpoint : Exec Unit := ask .checkpoint

/-! ## `NativeFileSystem` -/

def resolve (side : Side) (path : RelPath) (mustExist : Bool) : Exec Unit :=
  ask (.resolve side path mustExist)

/-- `fs.stat` and `fs.stat_path`. -/
def stat (side : Side) (path : RelPath) : Exec (Option FileStat) := do
  ask (.stat side path)
  get fun world => (world.disk side).stat path

/-- The part of `apply_metadata` about the creation time. -/
def restoreCreated (path : RelPath) (stat : FileStat) (preserveCreated : Bool) : Exec Unit :=
  match preserveCreated, stat.metadata.createdNs with
  | true, some created => change (.setCreationTime path created)
  | _, _ => pure ()

/-- `apply_metadata`. -/
def applyMetadata (path : RelPath) (stat : FileStat) (preserveCreated applyReadonly : Bool) :
    Exec Unit := do
  change (.setTimes path stat.mtimeNs)
  restoreCreated path stat preserveCreated
  let desired := stat.metadata.attributes &&& standardAttributeMask
  ask (.getAttributes path)
  change (.setAttributes path standardAttributeMask
    (if applyReadonly then desired else desired.ldiff readonly))

/-- `clear_readonly`. -/
def clearReadonly (path : RelPath) : Exec Unit := do
  ask (.getAttributes path)
  change (.setAttributes path readonly 0)

/-- `reader.read` until it is empty, with what is done about each piece. -/
def stream (side : Side) (source temp : RelPath) (onChunk : Nat → Exec Unit) :
    List (List UInt8) → Exec Unit
  | [] => do
      checkpoint
      ask (.readChunk side source)
  | chunk :: chunks => do
      checkpoint
      ask (.readChunk side source)
      change (.write temp chunk)
      onChunk chunk.length
      stream side source temp onChunk chunks

/-- What is read from a file. -/
def contentOf (side : Side) (path : RelPath) : Exec (List UInt8) :=
  get fun world => ((world.disk side).look (loc path)).elim [] (·.content)

/-- `copy_backup`. -/
def copyBackup (source temp target : RelPath) : Exec Unit := do
  ask (.openSource .target source)
  change (.createTemp temp)
  let content ← contentOf .target source
  stream .target source temp (fun _ => pure ())
    (batches (4 * 1024 * 1024) content)
  ask (.flushFile temp)
  match ← stat .target source with
  | none => throw (.fileNotFound source.text)
  | some sourceStat => do
      applyMetadata temp sourceStat true false
      ask (.flushPath temp)
      change (.rename temp target)
      applyMetadata target sourceStat true true

/-- The loop of `trash_destination` over the folders above the destination. -/
def makeFolders : List RelPath → Exec Unit
  | [] => pure ()
  | folder :: folders => do
      catchFileExists (change (.mkdir folder)) fun _ => do
        let isFolder ← get fun world => world.target.isFolder (loc folder)
        if isFolder then pure ()
        else throw (.unsafePath (str "trash parent is not a directory: " ++ folder.text))
      ask (.stat .target folder)
      makeFolders folders

/-- `trash_destination`. -/
def trashDestination (runId : RunId) (path : RelPath) : Exec RelPath := do
  makeFolders (trashPath runId path).parents.reverse
  resolve .target (trashPath runId path) false
  return trashPath runId path

/-! ## Guards -/

/-- `_guard_present`. -/
def guardPresent (side : Side) (path : RelPath) (expected : FileStat)
    (missing drift : ExecutionReason)
    (matcher : FileStat → FileStat → Bool := matchesExpected) : Exec FileStat := do
  let found ← (stat side path).catching fun
    | .unsafePath text => fail .unsafePath text
    | error => throw error
  lift (NamiSync.guardPresent (.ok found) path expected missing drift matcher)

/-- `_guard_absent`. -/
def guardAbsent (path : RelPath) : Exec Unit := do
  let found ← stat .target path
  lift (NamiSync.guardAbsent (.ok found) path)

/-- `_guard_expected_target`. -/
def guardExpectedTarget (operation : PlanOperation) : Exec Unit :=
  match operation.targetExpected with
  | none => guardAbsent operation.targetRelPath
  | some expected => do
      let _ ← guardPresent .target operation.targetRelPath expected .targetMissing .targetDrift

/-- `_guard_path_stat`. -/
def guardPathStat (actual expected : FileStat) (reason : ExecutionReason) (detail : String) :
    Exec Unit :=
  if matchesExpected actual expected then pure ()
  else fail (if actual.kind ≠ expected.kind then .wrongType else reason) (str detail)

/-- `_same_file_version`. -/
def sameFileVersion (actual expected : FileStat) : Bool :=
  actual.kind = expected.kind && actual.size = expected.size &&
    actual.mtimeNs = expected.mtimeNs &&
    (expected.fileIdentity.isNone || actual.fileIdentity = expected.fileIdentity)

/-- `_require_stat_path`. -/
def requireStatPath (path : RelPath) : Exec FileStat := do
  match ← stat .target path with
  | none => fail .ioError (str "filesystem result disappeared: " ++ path.text)
  | some found => pure found

/-- `_profiled_stat`. -/
def profiledStat (stat : FileStat) (stableFileIdentity : Bool) : FileStat :=
  if stableFileIdentity then stat else { stat with fileIdentity := none }

/-- `_normalized_live_stat`. -/
def normalizedLiveStat (actual expected : FileStat) : FileStat :=
  if expected.fileIdentity.isNone then { actual with fileIdentity := none } else actual

/-! ## The recorder -/

/-- `_record`, with the detail it leaves. -/
def record (detail : Detail) (command : RecordCall) : Exec Detail :=
  catchException
    (do
      call (M := machine) (.record command)
      return detail)
    fun error => do
      put .degrade
      return (detail.set "recording" "degraded").set "recording_error"
        (render (error.typeName ++ str ": " ++ error.text))

/-- `_flush_before_destructive`. -/
def flushBeforeDestructive : Exec Unit :=
  catchException (ask .flushRecorder) fun error => do
    put .degrade
    fail .recorderFailed (str "recorder flush failed before destructive operation") (some error)

/-- The last `recorder.flush()` of a call. -/
def flushAtEnd : Exec Unit := catchException (ask .flushRecorder) fun _ => put .degrade

/-- `_attestation`. -/
def attest (digest : CopyDigest) (subject : FileStat) : Exec Attestation := do
  call (M := machine) .clock
  let observedAt ← get fun world => Host.utcNow world.ticks
  pure
    { content := ⟨digest.digest, digest.size, .copyAttested, observedAt, digest.digest_length⟩
      subject := subject }

/-- The parent of a path, as a folder to flush. -/
def parentOf (path : RelPath) : RootedPath := path.parent

/-- `flush_directory`, which warns where it cannot. -/
def flushDirectory (path : RootedPath) : Exec Bool :=
  catchException
    (do
      ask (.flushDirectory path)
      return true)
    fun _ => pure false

/-- The loop of `_durability_detail`. -/
def durabilityWarnings : List RootedPath → Exec (List Str)
  | [] => pure []
  | folder :: folders => do
      let flushed ← flushDirectory folder
      let warnings ← durabilityWarnings folders
      return if flushed then warnings
        else (str "parent directory flush unsupported: " ++ folder.text) :: warnings

/-- `_durability_detail`, put into a detail mapping. -/
def durabilityDetail (detail : Detail) (folders : List RootedPath) : Exec Detail := do
  let warnings ← durabilityWarnings folders.eraseDups
  return if warnings.isEmpty then detail
    else detail.set "durability_warnings" (render (Separated.join 0x0A warnings))

/-! ## Progress and settling -/

def emit (body : EventBody) : Exec Unit := call (M := machine) (.emit body)

section Policies

variable (policies : ExecutorPolicies)

/-- `_ProgressTracker.emit`. -/
def emitProgress (force : Bool) : Exec Unit := do
  call (M := machine) .clock
  let now ← get fun world => Host.monotonic world.ticks
  let last ← get fun world => world.progress.lastEmittedAt
  if !force && last.any (fun last => (now : Int) - last < policies.progressInterval) then
    pure ()
  else do
    put (.progress (.emitted now))
    call (M := machine) .emitProgress

/-- `_ProgressTracker.start`, `copied` and `settled`. -/
def advanceProgress (step : ProgressStep) : Exec Unit := do
  put (.progress step)
  emitProgress policies false

end Policies

end Executor

end NamiSync
