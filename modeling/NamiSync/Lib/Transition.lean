/-
# `Lib.Transition` — guarded runs of a deterministic step function

A system is a partial step function `step : σ → α → Option σ`: `none` says
that the action is not enabled.  All nondeterminism (the scheduler, the
callers, the faults) lives in the choice of the next action.  A run is
guarded by a predicate `P` on the state BEFORE the step and the action
taken, so "every run whose steps all meet the condition" is `Run step P`,
and the unconditional runs are those guarded by `fun _ _ => True`.

## The rules

    Run.invariant      what holds at the start and is kept by each guarded
                       step holds at the end
    Traced.invariant   the same for a property of the state and of what the
                       steps so far have emitted
    exec_run           a list of actions that is enabled is a run

`exec` and `outcome` compute, so a sample run is checked by evaluation and
then handed to a theorem about all runs.
-/
import Mathlib.Logic.Basic

namespace Transition

variable {σ α : Type*} {step : σ → α → Option σ}

/-- `Run step P s t`: `t` is reached from `s` by enabled actions, each of
which meets the guard `P` in the state it is taken from. -/
inductive Run (step : σ → α → Option σ) (P : σ → α → Prop) : σ → σ → Prop
  | refl (s : σ) : Run step P s s
  | tail {s t u : σ} {a : α} :
      Run step P s t → P t a → step t a = some u → Run step P s u

/-- A run guarded by nothing. -/
abbrev AnyRun (step : σ → α → Option σ) : σ → σ → Prop :=
  Run step (fun _ _ => True)

variable {P Q : σ → α → Prop}

theorem Run.single {s t : σ} {a : α} (hP : P s a) (h : step s a = some t) :
    Run step P s t :=
  .tail (.refl s) hP h

theorem Run.trans {s t u : σ} (h₁ : Run step P s t) (h₂ : Run step P t u) :
    Run step P s u := by
  induction h₂ with
  | refl => exact h₁
  | tail _ hP hstep ih => exact .tail ih hP hstep

/-- The invariant rule: what every guarded step preserves, every guarded
run preserves. -/
theorem Run.invariant {I : σ → Prop}
    (hstep : ∀ s a t, I s → P s a → step s a = some t → I t)
    {s t : σ} (h : Run step P s t) (hs : I s) : I t := by
  induction h with
  | refl => exact hs
  | tail _ hP hst ih => exact hstep _ _ _ ih hP hst

/-! ## Runs that keep a trace -/

/-- `Traced step emits s tr t`: a run from `s` to `t` along which the steps
emitted `tr`, the oldest first. -/
inductive Traced {ε : Type*} (step : σ → α → Option σ) (emits : σ → α → List ε) :
    σ → List ε → σ → Prop
  | refl (s : σ) : Traced step emits s [] s
  | tail {s t u : σ} {a : α} {tr : List ε} :
      Traced step emits s tr t → step t a = some u → Traced step emits s (tr ++ emits t a) u

section
variable {ε : Type*} {emits : σ → α → List ε}

/-- The invariant rule for facts about a state and the trace that led to
it. -/
theorem Traced.invariant {I : σ → List ε → Prop}
    (hstep : ∀ s tr a t, I s tr → step s a = some t → I t (tr ++ emits s a))
    {s t : σ} {tr : List ε} (h : Traced step emits s tr t) (hs : I s []) : I t tr := by
  induction h with
  | refl => exact hs
  | tail _ hst ih => exact hstep _ _ _ _ ih hst

theorem Traced.cons {s t u : σ} {a : α} {tr : List ε} (hst : step s a = some t)
    (h : Traced step emits t tr u) : Traced step emits s (emits s a ++ tr) u := by
  induction h with
  | refl =>
      rw [List.append_nil]
      exact Traced.tail (.refl s) hst
  | tail _ hst' ih =>
      rw [← List.append_assoc]
      exact .tail ih hst'

end

/-! ## Executing a list of actions -/

/-- Take the actions of a list one after the other; `none` as soon as one
of them is not enabled. -/
def exec (step : σ → α → Option σ) (s : σ) : List α → Option σ
  | [] => some s
  | a :: as =>
      match step s a with
      | some t => exec step t as
      | none => none

theorem exec_getD {s d : σ} {as : List α} (h : (exec step s as).isSome = true) :
    exec step s as = some ((exec step s as).getD d) := by
  obtain ⟨t, ht⟩ := Option.isSome_iff_exists.mp h
  rw [ht]
  rfl

/-- What a list of actions emits. -/
def execTrace {ε : Type*} (step : σ → α → Option σ) (emits : σ → α → List ε) (s : σ) :
    List α → List ε
  | [] => []
  | a :: as =>
      match step s a with
      | some t => emits s a ++ execTrace step emits t as
      | none => []

theorem exec_traced {ε : Type*} {emits : σ → α → List ε} {s t : σ} {as : List α}
    (h : exec step s as = some t) : Traced step emits s (execTrace step emits s as) t := by
  induction as generalizing s with
  | nil =>
      simp only [exec, Option.some.injEq] at h
      exact h ▸ .refl s
  | cons a as ih =>
      simp only [exec] at h
      cases hst : step s a with
      | none => simp [hst] at h
      | some u =>
          rw [hst] at h
          simp only [execTrace, hst]
          exact (ih h).cons hst

theorem exec_run {s t : σ} {as : List α} (h : exec step s as = some t) :
    AnyRun step s t := by
  induction as generalizing s with
  | nil =>
      simp only [exec, Option.some.injEq] at h
      exact h ▸ .refl s
  | cons a as ih =>
      simp only [exec] at h
      cases hst : step s a with
      | none => simp [hst] at h
      | some u =>
          rw [hst] at h
          exact (Run.single trivial hst).trans (ih h)

/-- An executed list of actions whose last state passes a test is a run to
such a state. -/
theorem exec_exists (step : σ → α → Option σ) (s : σ) (as : List α) (p : σ → Bool)
    (h : (exec step s as).any p = true) : ∃ t, AnyRun step s t ∧ p t = true := by
  cases ht : exec step s as with
  | none => simp [ht] at h
  | some t => exact ⟨t, exec_run ht, by simpa [ht] using h⟩

/-- `execGuarded` also checks a decidable guard before each action. -/
def execGuarded (step : σ → α → Option σ) (p : σ → α → Bool) (s : σ) :
    List α → Option σ
  | [] => some s
  | a :: as =>
      match p s a, step s a with
      | true, some t => execGuarded step p t as
      | _, _ => none

theorem execGuarded_run {p : σ → α → Bool} (hp : ∀ s a, p s a = true → P s a)
    {s t : σ} {as : List α} (h : execGuarded step p s as = some t) :
    Run step P s t := by
  induction as generalizing s with
  | nil =>
      simp only [execGuarded, Option.some.injEq] at h
      exact h ▸ .refl s
  | cons a as ih =>
      simp only [execGuarded] at h
      cases hpa : p s a with
      | false => simp [hpa] at h
      | true =>
          cases hst : step s a with
          | none => simp [hpa, hst] at h
          | some u =>
              rw [hpa, hst] at h
              exact (Run.single (hp _ _ hpa) hst).trans (ih h)

/-- The state a guarded list of actions leads to, `s` itself if one of them
is not enabled or not allowed. -/
def outcome (step : σ → α → Option σ) (p : σ → α → Bool) (s : σ) (as : List α) : σ :=
  (execGuarded step p s as).getD s

theorem outcome_run {p : σ → α → Bool} (hp : ∀ s a, p s a = true → P s a) (s : σ)
    (as : List α) : Run step P s (outcome step p s as) := by
  unfold outcome
  cases h : execGuarded step p s as with
  | none => exact .refl s
  | some t => exact execGuarded_run hp h

end Transition
