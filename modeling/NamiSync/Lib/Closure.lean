/-
# `Lib.Closure` — the greatest safe closed set

Some elements are bad and some need others.  A set is safe when nothing in it
is bad and everything its elements need is in it.  What is not lost, that is
neither bad nor in need of something lost, is the greatest safe set; a
computed set of exclusions that is sound and saturated is exactly what is
lost.

## The rule

    isGreatest_of_excluded : if the excluded elements are lost, and saturated,
      what is not excluded is the greatest safe set

Relations over an arbitrary type; no finiteness is needed.
-/
import Mathlib.Order.Bounds.Basic

namespace Closure

variable {α : Type*} {bad : α → Prop} {needs : α → α → Prop}

/-- Nothing in the set is bad, and what its elements need is in it. -/
structure Safe (bad : α → Prop) (needs : α → α → Prop) (kept : Set α) : Prop where
  sound : ∀ a ∈ kept, ¬ bad a
  closed : ∀ a ∈ kept, ∀ b, needs a b → b ∈ kept

/-- No safe set can hold the element. -/
inductive Lost (bad : α → Prop) (needs : α → α → Prop) : α → Prop
  | bad {a : α} (h : bad a) : Lost bad needs a
  | needs {a b : α} (h : needs a b) (hb : Lost bad needs b) : Lost bad needs a

theorem Safe.not_lost {kept : Set α} (h : Safe bad needs kept) {a : α} (ha : a ∈ kept) :
    ¬ Lost bad needs a := by
  intro hlost
  induction hlost with
  | bad hbad => exact h.sound _ ha hbad
  | needs hneeds _ ih => exact ih (h.closed _ ha _ hneeds)

theorem safe_not_lost : Safe bad needs {a | ¬ Lost bad needs a} where
  sound _ ha hbad := ha (.bad hbad)
  closed _ ha _ hneeds hlost := ha (.needs hneeds hlost)

theorem isGreatest_not_lost :
    IsGreatest {kept | Safe bad needs kept} {a | ¬ Lost bad needs a} :=
  ⟨safe_not_lost, fun _ h _ ha => h.not_lost ha⟩

/-- Exclusions that are only of lost elements, hold what is bad and hold
whatever needs an excluded element leave the greatest safe set. -/
theorem isGreatest_of_excluded {excluded : α → Prop}
    (hlost : ∀ a, excluded a → Lost bad needs a) (hbad : ∀ a, bad a → excluded a)
    (hneeds : ∀ a b, needs a b → excluded b → excluded a) :
    IsGreatest {kept | Safe bad needs kept} {a | ¬ excluded a} := by
  have hall : ∀ a, Lost bad needs a → excluded a := by
    intro a h
    induction h with
    | bad h => exact hbad _ h
    | needs h _ ih => exact hneeds _ _ h ih
  have heq : {a | ¬ excluded a} = {a | ¬ Lost bad needs a} := by
    ext a
    exact not_congr ⟨hlost a, hall a⟩
  rw [heq]
  exact isGreatest_not_lost

end Closure
