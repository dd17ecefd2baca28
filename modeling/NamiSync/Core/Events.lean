/-
# `Core.Events` — event bodies and their delivery class

The bodies a session's hub sequences.  `Envelope` adds the sequence number
and a timestamp; the sequence number of a body is its position in the hub.

Which bodies are reliable is `delivery_class`, in `Dispatcher.EventBus`; the
bodies here are shared by the dispatcher's model and by the executor's, which
builds `ItemOutcome` and `Progress` only.
-/
import NamiSync.Core.Session

namespace NamiSync

/-- `Progress`, with the ordering checks of its `__post_init__`. -/
structure Progress where
  itemsDone : Nat
  itemsTotal : Option Nat
  bytesDone : Nat
  bytesTotal : Option Nat
  currentPath : Option String
  items_le : ∀ total ∈ itemsTotal, itemsDone ≤ total := by simp
  bytes_le : ∀ total ∈ bytesTotal, bytesDone ≤ total := by simp
  deriving DecidableEq

inductive EventBody
  | stateChanged (state : SessionState)
  | phaseChanged (phase : String)
  | progress (progress : Progress)
  | itemOutcome (item : ItemOutcome)
  | terminal (result : OperationResult)
  deriving DecidableEq

namespace EventBody

/-- The state a `StateChanged` body announces. -/
def announced : EventBody → Option SessionState
  | stateChanged state => some state
  | _ => none

def isTerminal : EventBody → Bool
  | terminal _ => true
  | _ => false

end EventBody

/-! ## What the runner makes of an abnormal end -/

/-- `bytes_done` and `bytes_total` of a result built from the latest
progress, as in both `except` branches of `run_session`. -/
def progressBytes : Option Progress → { b : Nat × Nat // b.1 ≤ b.2 }
  | none => ⟨(0, 0), Nat.le_refl 0⟩
  | some p =>
      match h : p.bytesTotal with
      | some total => ⟨(p.bytesDone, total), p.bytes_le total (by simp [h])⟩
      | none => ⟨(p.bytesDone, p.bytesDone), Nat.le_refl _⟩

/-- The result `run_session` builds on `Canceled`. -/
def canceledResult (disposition : Disposition) (items : List ItemOutcome)
    (latest : Option Progress) : OperationResult where
  status := .canceled
  disposition := disposition
  canceled := true
  operations := items
  bytesDone := (progressBytes latest).1.1
  bytesTotal := (progressBytes latest).1.2
  bytes_le := (progressBytes latest).2
  refused_unrun := by simp

/-- The result `run_session` builds on any other exception. -/
def failedResult (disposition : Disposition) (items : List ItemOutcome)
    (latest : Option Progress) (error : FailureDetail) : OperationResult where
  status := .failed
  disposition := disposition
  operations := items
  bytesDone := (progressBytes latest).1.1
  bytesTotal := (progressBytes latest).1.2
  error := some error
  bytes_le := (progressBytes latest).2
  refused_unrun := by simp

@[simp] theorem canceledResult_status (d : Disposition) (items : List ItemOutcome)
    (latest : Option Progress) : (canceledResult d items latest).status = .canceled := rfl

@[simp] theorem failedResult_status (d : Disposition) (items : List ItemOutcome)
    (latest : Option Progress) (error : FailureDetail) :
    (failedResult d items latest error).status = .failed := rfl

end NamiSync
