/-
# `Lib.Batches` — a list worked off in pieces

A list is cut into pieces of a fixed size, and the pieces are worked off one
after another.  The pieces are the list again, so a loop over them does what
a loop over the list does.

The rule is `foldl_batches`: a fold over the pieces, of a fold over a piece,
is a fold over the list.
-/
import Mathlib.Data.List.Basic

namespace Batches

variable {α β : Type} {size fuel : Nat} {l : List α}

/-- The pieces of a list; the second argument bounds their number. -/
def chunksOf (size : Nat) : Nat → List α → List (List α)
  | 0, _ | _, [] => []
  | fuel + 1, l => l.take size :: chunksOf size fuel (l.drop size)

/-- All pieces of a list. -/
def batches (size : Nat) (l : List α) : List (List α) := chunksOf size l.length l

theorem flatten_chunksOf (hsize : 0 < size) (h : l.length ≤ fuel) :
    (chunksOf size fuel l).flatten = l := by
  induction fuel generalizing l with
  | zero =>
      rw [List.eq_nil_of_length_eq_zero (Nat.le_zero.1 h)]
      rfl
  | succ fuel ih =>
      cases l with
      | nil => rfl
      | cons a rest =>
          have hdrop : ((a :: rest).drop size).length ≤ fuel := by
            rw [List.length_drop]
            simp only [List.length_cons] at h ⊢
            omega
          show (a :: rest).take size ++ (chunksOf size fuel ((a :: rest).drop size)).flatten = _
          rw [ih hdrop, List.take_append_drop]

theorem flatten_batches (hsize : 0 < size) : (batches size l).flatten = l :=
  flatten_chunksOf hsize (Nat.le_refl _)

/-- A loop over the pieces is a loop over the list. -/
theorem foldl_batches (hsize : 0 < size) (step : β → α → β) (b : β) :
    (batches size l).foldl (fun b batch => batch.foldl step b) b = l.foldl step b := by
  rw [← List.foldl_flatten, flatten_batches hsize]

end Batches
