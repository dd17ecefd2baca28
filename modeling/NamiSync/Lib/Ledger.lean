/-
# `Lib.Ledger` — a log that independent holders announce

Entries are appended to a log in one step and announced in a later one, each
by whoever appended it.  `holds i p a` says that holder `i` still has to
announce entry `a` at position `p`.  A `Ledger` is in order: what has been
said is an initial part of the log, and the rest of the log is held, each
position by one holder.  Appending an entry keeps the order; saying one
keeps it if nobody holds an earlier one.

## The rules

`start`, `append`, `say`: the three things that happen to a log.  `next_eq`
says that the holder of the oldest entry holds the next one to say, and
`said_eq` that with no holder left everything is said.
-/
import Mathlib.Data.List.Basic

variable {ι α : Type*}

structure Ledger (log said : List α) (holds : ι → Nat → α → Prop) : Prop where
  initial : said = log.take said.length
  bound : ∀ i p a, holds i p a → said.length ≤ p ∧ log[p]? = some a
  cover : ∀ p, said.length ≤ p → p < log.length → ∃ i a, holds i p a
  unique : ∀ i j p a b, holds i p a → holds j p b → i = j

namespace Ledger

variable {log said : List α} {holds holds' : ι → Nat → α → Prop}

theorem congr (h : Ledger log said holds) (hh : ∀ i p a, holds' i p a ↔ holds i p a) :
    Ledger log said holds' where
  initial := h.initial
  bound i p a hi := h.bound i p a ((hh i p a).mp hi)
  cover p hp hlt := by
    obtain ⟨i, a, hi⟩ := h.cover p hp hlt
    exact ⟨i, a, (hh i p a).mpr hi⟩
  unique i j p a b hi hj := h.unique i j p a b ((hh i p a).mp hi) ((hh j p b).mp hj)

/-- A new log with one entry, held by nobody else. -/
theorem start (x : α) (i : ι)
    (hh : ∀ j p a, holds' j p a ↔ j = i ∧ p = 0 ∧ a = x) : Ledger [x] [] holds' where
  initial := rfl
  bound j p a hj := by
    obtain ⟨-, rfl, rfl⟩ := (hh j p a).mp hj
    exact ⟨Nat.le_refl 0, rfl⟩
  cover p _ hlt := ⟨i, x, (hh i p x).mpr ⟨rfl, Nat.lt_one_iff.mp hlt, rfl⟩⟩
  unique j k p a b hj hk := ((hh j p a).mp hj).1.trans ((hh k p b).mp hk).1.symm

theorem length_le (h : Ledger log said holds) : said.length ≤ log.length := by
  have hlen := congrArg List.length h.initial
  rw [List.length_take] at hlen
  omega

/-- A holder appends an entry. -/
theorem append (h : Ledger log said holds) (x : α) (i : ι)
    (hh : ∀ j p a, holds' j p a ↔ holds j p a ∨ j = i ∧ p = log.length ∧ a = x) :
    Ledger (log ++ [x]) said holds' where
  initial := by
    rw [List.take_append_of_le_length h.length_le]
    exact h.initial
  bound j p a hj := by
    rcases (hh j p a).mp hj with hold | ⟨-, rfl, rfl⟩
    · obtain ⟨hle, hget⟩ := h.bound j p a hold
      refine ⟨hle, ?_⟩
      rw [List.getElem?_append_left (List.getElem?_eq_some_iff.mp hget).1]
      exact hget
    · exact ⟨h.length_le, List.getElem?_concat_length⟩
  cover p hp hlt := by
    by_cases hlog : p < log.length
    · obtain ⟨j, a, hj⟩ := h.cover p hp hlog
      exact ⟨j, a, (hh j p a).mpr (Or.inl hj)⟩
    · have hp' : p = log.length := by
        simp only [List.length_append, List.length_singleton] at hlt
        omega
      exact ⟨i, x, (hh i p x).mpr (Or.inr ⟨rfl, hp', rfl⟩)⟩
  unique j k p a b hj hk := by
    have below : ∀ {j : ι} {q : Nat} {c : α}, holds j q c → q < log.length := fun hold =>
      (List.getElem?_eq_some_iff.mp (h.bound _ _ _ hold).2).1
    rcases (hh j p a).mp hj with hold | ⟨rfl, rfl, -⟩
    · rcases (hh k p b).mp hk with hold' | ⟨-, rfl, -⟩
      · exact h.unique j k p a b hold hold'
      · exact absurd (below hold) (Nat.lt_irrefl _)
    · rcases (hh k log.length b).mp hk with hold' | ⟨rfl, -, -⟩
      · exact absurd (below hold') (Nat.lt_irrefl _)
      · rfl

/-- The next position to be said is the first one that is held. -/
theorem next_eq (h : Ledger log said holds) {i : ι} {p : Nat} {a : α} (hi : holds i p a)
    (hfirst : ∀ j q b, holds j q b → p ≤ q) : p = said.length := by
  obtain ⟨hle, hget⟩ := h.bound i p a hi
  have hlt := (List.getElem?_eq_some_iff.mp hget).1
  obtain ⟨j, b, hj⟩ := h.cover said.length (Nat.le_refl _) (Nat.lt_of_le_of_lt hle hlt)
  exact Nat.le_antisymm (hfirst j said.length b hj) hle

/-- The holder of the first held position says it. -/
theorem say (h : Ledger log said holds) {i : ι} {p : Nat} {a : α} (hi : holds i p a)
    (hfirst : ∀ j q b, holds j q b → p ≤ q) (honly : ∀ q b, holds i q b → q = p)
    (hh : ∀ j q b, holds' j q b ↔ holds j q b ∧ j ≠ i) :
    Ledger log (said ++ [a]) holds' where
  initial := by
    have hp := h.next_eq hi hfirst
    obtain ⟨hlt, hget⟩ := List.getElem?_eq_some_iff.mp (h.bound i p a hi).2
    subst hp
    rw [List.length_append, List.length_singleton, List.take_add_one,
      List.getElem?_eq_getElem hlt, hget, ← h.initial]
    rfl
  bound j q b hj := by
    obtain ⟨hold, hne⟩ := (hh j q b).mp hj
    obtain ⟨hle, hget⟩ := h.bound j q b hold
    refine ⟨?_, hget⟩
    have hp := h.next_eq hi hfirst
    have hq : q ≠ said.length := by
      intro heq
      refine hne (h.unique j i q b a hold ?_)
      rw [heq, ← hp]
      exact hi
    simp only [List.length_append, List.length_singleton]
    omega
  cover q hq hlt := by
    simp only [List.length_append, List.length_singleton] at hq
    obtain ⟨j, b, hj⟩ := h.cover q (by omega) hlt
    refine ⟨j, b, (hh j q b).mpr ⟨hj, fun hji => ?_⟩⟩
    have hqp := honly q b (hji ▸ hj)
    have hp := h.next_eq hi hfirst
    omega
  unique j k q b c hj hk :=
    h.unique j k q b c ((hh j q b).mp hj).1 ((hh k q c).mp hk).1

/-- Once nobody holds anything, everything has been said. -/
theorem said_eq (h : Ledger log said holds) (hnone : ∀ i p a, ¬ holds i p a) : said = log := by
  have hlen : ¬ said.length < log.length := by
    intro hlt
    obtain ⟨i, a, hi⟩ := h.cover said.length (Nat.le_refl _) hlt
    exact hnone i _ a hi
  rw [h.initial, List.take_of_length_le (Nat.le_of_not_lt hlen)]

end Ledger
