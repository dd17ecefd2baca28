/-
# `Dispatcher.Contracts` — the control matrix and the run flags

`control_decision` of `dispatcher/contracts.py` and the `_Control` flags a
worker polls.

The matrix answers for a state alone, and says which state the record moves
to.  That every accepted request is a legal transition
(`controlDecision_legal`) is why the calls of `Dispatcher.Step` need no branch
for an `IllegalTransition`; a worker's own requests are another matter, see
`Dispatcher.Workers`.
-/
import NamiSync.Core.Session

namespace NamiSync

/-- `WorkflowRegistration`.  `prepare` and `open` are opaque adapter
callables: their results are choices of the environment. -/
structure WorkflowRegistration where
  supportsPause : Bool := false
  deriving DecidableEq

/-- `PreparedSession`, what `prepare(request)` returns. -/
structure PreparedSession where
  payload : List UInt8
  resources : Finset ResourceId
  deriving DecidableEq

inductive ControlCode
  | accepted | notFound | illegalState | unsupported
  deriving DecidableEq, Repr

inductive ControlAction
  | pause | resume | cancel
  deriving DecidableEq, Repr

/-- `control_decision`. -/
def controlDecision (action : ControlAction) (state : SessionState) (supportsPause : Bool) :
    ControlCode :=
  match action with
  | .pause =>
      if supportsPause = false then .unsupported
      else if state = .running then .accepted else .illegalState
  | .resume =>
      if state = .paused ∨ state = .interrupted then .accepted else .illegalState
  | .cancel =>
      if state.isTerminal = false ∧ state ≠ .canceling then .accepted else .illegalState

/-- An accepted control request is a legal edge out of the state it finds:
the matrix never asks `_transition_locked` for an illegal transition.  A
cancel that finds `PAUSING` only raises the flag. -/
theorem controlDecision_legal {action : ControlAction} {state : SessionState}
    {supportsPause : Bool} (h : controlDecision action state supportsPause = .accepted) :
    state.requireTransition
      (match action with
        | .pause => .pausing
        | .resume => .pending
        | .cancel => .canceling) = true := by
  cases action <;> cases state <;> cases supportsPause <;> first | rfl | exact absurd h (by decide)

/-! ## `_Control` -/

/-- The two flags of `_Control`. -/
structure Control where
  pause : Bool := false
  cancel : Bool := false
  deriving DecidableEq

namespace Control

def requestPause (control : Control) : Control := { control with pause := true }

def requestCancel (control : Control) : Control := { control with cancel := true }

def reset (_ : Control) : Control := {}

/-- `checkpoint`: a cancel request wins over a pause request. -/
def checkpoint (control : Control) : Option Signal :=
  if control.cancel then some .canceled
  else if control.pause then some .pauseRequested
  else none

theorem checkpoint_eq_canceled {control : Control} :
    control.checkpoint = some .canceled ↔ control.cancel = true := by
  unfold checkpoint
  cases control.cancel <;> cases control.pause <;> simp

theorem checkpoint_eq_pauseRequested {control : Control} :
    control.checkpoint = some .pauseRequested ↔
      control.cancel = false ∧ control.pause = true := by
  unfold checkpoint
  cases control.cancel <;> cases control.pause <;> simp

theorem checkpoint_eq_none {control : Control} :
    control.checkpoint = none ↔ control.cancel = false ∧ control.pause = false := by
  unfold checkpoint
  cases control.cancel <;> cases control.pause <;> simp

end Control

end NamiSync
