/-
# `Core.Evidence` — the outcome vocabulary and the per-item event

`core/evidence.py` and the `ItemOutcome` body of `core/events.py`: what the
executor says about one plan item, shared by results, events and records.

An outcome is settled once for each item; that this is so over a whole run is
`Modules.Executor.Settling`, and over several `Workflows.OutcomesOnce`.
-/
import Mathlib.Logic.Basic

namespace NamiSync

inductive Outcome
  | succeeded | skipped | failed | canceled | deferred | blocked
  deriving DecidableEq, Repr

inductive RecordingStatus
  | ok | degraded
  deriving DecidableEq, Repr

/-- `ItemOutcome`.  `detail` is a JSON mapping whose values are rendered
text here; the constructor requires a non-empty id and kind. -/
structure ItemOutcome where
  itemId : String
  kind : String
  path : String
  outcome : Outcome
  reason : Option String := none
  detail : List (String × String) := []
  itemId_ne : itemId ≠ "" := by decide
  kind_ne : kind ≠ "" := by decide
  deriving DecidableEq

end NamiSync
