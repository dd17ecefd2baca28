/-
# `Db.Writer` — one transaction and its retries

`SerializedWriter.transact`.  What SQLite answers is the list of rounds: a
round may raise before the operation runs, or where the transaction ends, and
there a commit that is reported as failed may have taken effect.

The rounds are given, so the number of retries is the length of the list that
SQLite answers with; the deadline of the source only bounds it.
`transact_spec` is the rule the account of a run is proved with: what the
operation keeps is kept by every outcome, and what it establishes holds if
nothing is raised, even when an earlier round took effect unnoticed.
-/
import Mathlib.Logic.Basic

namespace NamiSync

/-- Where a round of the loop raises. -/
inductive WriterFault
  /-- `BEGIN IMMEDIATE`: the operation does not run. -/
  | begin
  /-- `commit`: the transaction is rolled back. -/
  | rolledBack
  /-- `commit`, after it took effect. -/
  | committed
  deriving DecidableEq

/-- One round; `retried` says that the error is a lock and that the deadline
is not over. -/
structure WriterRound where
  fault : Option WriterFault := none
  retried : Bool := false
  deriving DecidableEq

section Transact

variable {σ ε : Type*} (operation : σ → Except ε σ) (lost : ε)

/-- `transact`.  What the operation raises is raised, with the transaction
rolled back; `lost` stands for the `RecordingError` of SQLite's own errors,
and of a writer that is closed, which gets no round. -/
def transact : List WriterRound → σ → Except ε Unit × σ
  | [], store => (.error lost, store)
  | round :: rest, store =>
      if round.fault = some .begin then
        if round.retried then transact rest store else (.error lost, store)
      else
        match operation store with
        | .error error => (.error error, store)
        | .ok written =>
            match round.fault with
            | none => (.ok (), written)
            | some fault =>
                let store := if fault = .committed then written else store
                if round.retried then transact rest store else (.error lost, store)

variable {operation lost}

/-- What the operation keeps is kept, and what it establishes holds when
nothing is raised. -/
theorem transact_spec {I Q : σ → Prop}
    (hop : ∀ store written, I store → operation store = .ok written → I written ∧ Q written)
    (rounds : List WriterRound) {store : σ} (h : I store) :
    I (transact operation lost rounds store).2 ∧
      ((transact operation lost rounds store).1 = .ok () →
        Q (transact operation lost rounds store).2) := by
  induction rounds generalizing store with
  | nil => exact ⟨h, fun hok => by cases hok⟩
  | cons round rest ih =>
      rw [transact]
      split
      · split
        · exact ih h
        · exact ⟨h, fun hok => by cases hok⟩
      · cases hwritten : operation store with
        | error error => exact ⟨h, fun hok => by cases hok⟩
        | ok written =>
            obtain ⟨hkept, hdone⟩ := hop store written h hwritten
            cases hfault : round.fault with
            | none => exact ⟨hkept, fun _ => hdone⟩
            | some fault =>
                have hstore : I (if fault = .committed then written else store) := by
                  split
                  · exact hkept
                  · exact h
                dsimp only
                split
                · exact ih hstore
                · exact ⟨hstore, fun hok => by cases hok⟩

/-- An operation that is refused changes nothing. -/
theorem transact_refused {error : ε} {store : σ} (h : operation store = .error error)
    (rounds : List WriterRound) :
    ∃ raised, transact operation lost rounds store = (.error raised, store) := by
  induction rounds with
  | nil => exact ⟨lost, rfl⟩
  | cons round rest ih =>
      rw [transact]
      split
      · split
        · exact ih
        · exact ⟨lost, rfl⟩
      · rw [h]
        exact ⟨error, rfl⟩

end Transact

end NamiSync
