/-
# `Modules.Executor.Machine` — what the executor works on

The two trees, the mutable status of the execution set, `_ExecutionState`,
the progress tracker, and what the event stream and the recorder have
received.  Programs reach the trees and the collaborators by calls, which
may fail, and their own data by notes, which may not.

The paths that the source keeps in its continuations are those of the
operation they belong to, so the continuations here keep only the evidence.

## Calls and notes

The split is what makes the invariants of the modules above short.  A note
changes the program's own data and cannot fail; a call asks something or
changes a tree, and the environment may let it fail before it has any effect,
fail after it has had its effect, or answer with a signal.  So an invariant
is checked in the state after every call and note, whether or not the program
gets to hear of it.

What a policy answers is a function of its question: a policy object that
counts its questions is one such function for each run, and the results hold
for all of them.
-/
import NamiSync.Core.Canonical
import NamiSync.Core.Events
import NamiSync.Db.Recorder
import NamiSync.Lib.Faulty
import NamiSync.Modules.Executor.Disk

namespace NamiSync

namespace Executor

/-- The detail mapping of an outcome, its values as text. -/
abbrev Detail := Dict String String

/-- `_Settled`. -/
structure Settled where
  outcome : Outcome
  reason : Option ExecutionReason := none
  detail : Detail := .empty

/-- `CopyDigest`. -/
structure CopyDigest where
  digest : List UInt8
  size : Nat
  digest_length : digest.length = 32

/-- `_PreparedCopy`, without its paths. -/
structure PreparedCopy where
  digest : CopyDigest
  intended : FileStat

/-- `_UpdateContinuation`; there is a trash path when there is a backup. -/
structure UpdateContinuation where
  prepared : PreparedCopy
  preparedStat : FileStat
  liveStat : FileStat
  backupStat : Option FileStat
  detail : Detail
  published : Bool := false

/-- `_MoveUpdateContinuation`; `hasTrash` says that the trash path is known. -/
structure MoveUpdateContinuation where
  prepared : PreparedCopy
  publishedStat : FileStat
  hasTrash : Bool := false
  attestation : Option Attestation := none

inductive Continuation
  | update (continuation : UpdateContinuation)
  | moveUpdate (continuation : MoveUpdateContinuation)

section Policies

variable [Unicode]

/-- `ExecutorPolicies`.  A policy is asked about one attempt of an operation
at most once, so its answer is a function of what it is asked. -/
structure ExecutorPolicies where
  failure : PlanOperation → Error → Nat → FailureDecision
  chunkSize : Nat := 4 * 1024 * 1024
  maxRetries : Nat := 3
  progressInterval : Nat := 0
  chunkSize_pos : 0 < chunkSize := by decide

/-- `BoundedFailurePolicy`. -/
def boundedFailurePolicy (retries initialDelay : Nat) (_ : PlanOperation) (error : Error)
    (attempt : Nat) : FailureDecision :=
  if (error.winerror = some 32 ∨ error.winerror = some 33) ∧ attempt ≤ retries then
    .retry (initialDelay * 2 ^ (attempt - 1))
  else .proceed

/-- `_ExecutionState`, with the local `current` of `execute`. -/
structure ExecutionState where
  outcomes : Dict OpId ItemOutcome := .empty
  recording : RecordingStatus := .ok
  inflightTemp : Option RelPath := none
  pendingDirectories : List PlanOperation := []
  readyDirectories : List OpId := []
  restoreDirectories : List OpId := []
  retryContinuations : Dict OpId Continuation := .empty
  filesystemFailed : Bool := false
  current : Option OpId := none

/-- `_ProgressTracker`. -/
structure ProgressTracker where
  itemsTotal : Nat
  itemsDone : Nat
  bytesTotal : Nat
  committedBytes : Nat
  bytesDone : Nat
  fileBytes : Nat := 0
  current : Option PlanOperation := none
  lastEmittedAt : Option Nat := none

/-- The kinds whose bytes count. -/
def countsBytes (kind : OperationKind) : Bool := kind ∈ [.copy, .update, .moveUpdate]

/-- A call of a method of `_ProgressTracker`, and that it has emitted. -/
inductive ProgressStep
  | start (operation : PlanOperation)
  | copied (size : Nat)
  | settled (operation : PlanOperation) (outcome : Outcome)
  | emitted (now : Nat)

namespace ProgressTracker

/-- `copied`; the current operation is the one started last. -/
def copied (tracker : ProgressTracker) (size : Nat) : ProgressTracker :=
  let fileBytes := tracker.fileBytes + size
  let candidate := min tracker.bytesTotal
    (tracker.committedBytes + min fileBytes (tracker.current.elim 0 (·.contentBytes)))
  { tracker with fileBytes := fileBytes, bytesDone := max tracker.bytesDone candidate }

/-- `settled`. -/
def settled (tracker : ProgressTracker) (operation : PlanOperation) (outcome : Outcome) :
    ProgressTracker :=
  if outcome = .succeeded ∧ countsBytes operation.kind = true then
    let committed := min tracker.bytesTotal (tracker.committedBytes + operation.contentBytes)
    { tracker with
      itemsDone := tracker.itemsDone + 1
      committedBytes := committed
      bytesDone := max tracker.bytesDone committed
      current := some operation }
  else { tracker with itemsDone := tracker.itemsDone + 1, current := some operation }

def advance (tracker : ProgressTracker) : ProgressStep → ProgressTracker
  | .start operation => { tracker with current := some operation, fileBytes := 0 }
  | .copied size => tracker.copied size
  | .settled operation outcome => tracker.settled operation outcome
  | .emitted now => { tracker with lastEmittedAt := some now }

/-- The `Progress` that `emit` builds; its constructor may refuse. -/
def snapshot (tracker : ProgressTracker) : Option Progress :=
  if h : tracker.itemsDone ≤ tracker.itemsTotal then
    some
      { itemsDone := tracker.itemsDone
        itemsTotal := some tracker.itemsTotal
        bytesDone := min tracker.bytesDone tracker.bytesTotal
        bytesTotal := some tracker.bytesTotal
        currentPath := tracker.current.map fun operation => render operation.targetRelPath.text
        items_le := by simpa using h
        bytes_le := by simp }
  else none

end ProgressTracker

structure World where
  source : Disk
  target : Disk
  ticks : Nat := 0
  status : Dict OpId Outcome := .empty
  state : ExecutionState := {}
  progress : ProgressTracker := ⟨0, 0, 0, 0, 0, 0, none, none⟩
  events : List EventBody := []
  records : List RecordCall := []

inductive Side
  | source | target
  deriving DecidableEq

def World.disk (world : World) : Side → Disk
  | .source => world.source
  | .target => world.target

/-- What is asked of a collaborator and changes nothing. -/
inductive Question
  | checkpoint
  | sleep (after : Nat)
  | onItemFailed (operation : OpId) (attempt : Nat)
  | flushRecorder
  | resolve (side : Side) (path : RelPath) (mustExist : Bool)
  | stat (side : Side) (path : RelPath)
  | openSource (side : Side) (path : RelPath)
  | readChunk (side : Side) (path : RelPath)
  | flushFile (path : RelPath)
  | flushPath (path : RelPath)
  | getAttributes (path : RelPath)
  | copySecurity (source target : RelPath)
  | flushDirectory (path : RootedPath)

/-- What changes the target tree. -/
inductive Change
  | createTemp (path : RelPath)
  | write (path : RelPath) (bytes : List UInt8)
  | setTimes (path : RelPath) (mtimeNs : Nat)
  | setCreationTime (path : RelPath) (createdNs : Nat)
  | setAttributes (path : RelPath) (cleared set : Nat)
  | rename (source target : RelPath)
  | replace (source target : RelPath)
  | hardlink (source target : RelPath)
  | mkdir (path : RelPath)
  | removeFile (path : RelPath)
  | removeDirectory (path : RelPath)
  | removeOwnedTemp (path : RelPath)

inductive Call
  | ask (question : Question)
  | change (step : Change)
  | clock
  | emit (body : EventBody)
  | emitProgress
  | record (call : RecordCall)

/-- A change of `_ExecutionState`, the status or the progress. -/
inductive Note
  | start (restore : List OpId) (tracker : ProgressTracker)
  | current (operation : OpId)
  | inflight (temp : Option RelPath)
  | keep (operation : OpId) (continuation : Continuation)
  | forget (operation : OpId)
  | pend (operation : PlanOperation)
  | takePending
  | unready (operation : OpId)
  | settle (operation : OpId) (item : ItemOutcome)
  | degrade
  | filesystemFailed
  | progress (step : ProgressStep)

/-- What the operating system itself refuses. -/
def Question.effect (world : World) : Question → Except Error World
  | .resolve side path true =>
      if ((world.disk side).stat path).isSome then .ok world
      else .error (.fileNotFound path.text)
  | .openSource side path | .readChunk side path =>
      if ((world.disk side).stat path).isSome then .ok world
      else .error (.fileNotFound path.text)
  | .getAttributes path =>
      if (world.target.stat path).isSome then .ok world else .error (.fileNotFound path.text)
  | .flushPath path =>
      match world.target.look (loc path) with
      | none => .error (.fileNotFound path.text)
      | some sight =>
          if sight.isDirectory || sight.info.isReadonly then .error (.os path.text (some 5))
          else .ok world
  | _ => .ok world

variable [Host]

/-- The change at the time `now`.  Windows keeps a creation time in units of
100 ns. -/
def Change.apply (disk : Disk) (now : Nat) : Change → Except Error Disk
  | .createTemp path => disk.create false Host.fileAttributes now path
  | .write path bytes => disk.write bytes now path
  | .setTimes path mtimeNs =>
      disk.amendInfo (fun info => { info with mtimeNs := Host.storedTime mtimeNs }) path
  | .setCreationTime path createdNs =>
      disk.amendInfo (fun info => { info with createdNs := some (createdNs / 100 * 100) }) path
  | .setAttributes path cleared set =>
      disk.amendInfo
        (fun info => { info with attributes := info.attributes.ldiff cleared ||| set }) path
  | .rename source target => disk.rename now source target
  | .replace source target => disk.replace now source target
  | .hardlink source target => disk.link now source target
  | .mkdir path => disk.create true Host.directoryAttributes now path
  | .removeFile path => disk.unlink now path
  | .removeDirectory path => disk.rmdir now path
  | .removeOwnedTemp path => disk.removeOwnedTemp now path

def Call.effect : Call → World → Except Error World
  | .ask question, world => question.effect world
  | .change step, world =>
      match step.apply world.target (Host.fileTime world.ticks) with
      | .ok disk => .ok { world with target := disk, ticks := world.ticks + 1 }
      | .error error => .error error
  | .clock, world => .ok { world with ticks := world.ticks + 1 }
  | .emit body, world => .ok { world with events := world.events ++ [body] }
  | .emitProgress, world =>
      match world.progress.snapshot with
      | some progress => .ok { world with events := world.events ++ [.progress progress] }
      | none => .error (.other (str "ValueError") (str "items_done cannot exceed items_total"))
  | .record call, world => .ok { world with records := world.records ++ [call] }

omit [Host] in
def Note.write (world : World) : Note → World
  | .start restore tracker =>
      { world with state := { restoreDirectories := restore }, progress := tracker }
  | .current operation => { world with state := { world.state with current := some operation } }
  | .inflight temp => { world with state := { world.state with inflightTemp := temp } }
  | .keep operation continuation =>
      { world with
        state := { world.state with
          retryContinuations := world.state.retryContinuations.set operation continuation } }
  | .forget operation =>
      { world with
        state := { world.state with
          retryContinuations := world.state.retryContinuations.pop operation } }
  | .pend operation =>
      { world with
        state := { world.state with
          pendingDirectories := world.state.pendingDirectories ++ [operation]
          readyDirectories := operation.opId :: world.state.readyDirectories } }
  | .takePending => { world with state := { world.state with pendingDirectories := [] } }
  | .unready operation =>
      { world with
        state := { world.state with
          readyDirectories := world.state.readyDirectories.filter (· ≠ operation) } }
  | .settle operation item =>
      { world with
        status := world.status.set operation item.outcome
        state := { world.state with outcomes := world.state.outcomes.set operation item } }
  | .degrade => { world with state := { world.state with recording := .degraded } }
  | .filesystemFailed => { world with state := { world.state with filesystemFailed := true } }
  | .progress step => { world with progress := world.progress.advance step }

/-- The machine that the executor's programs run on. -/
abbrev machine : Faulty.Machine where
  Call := Call
  Note := Note
  State := World
  Error := Error
  effect := Call.effect
  noted note world := note.write world

abbrev Exec (α : Type) := Faulty.Prog machine α

end Policies

end Executor

end NamiSync
