/-
# `Lib.Lossy` — numbered streams that announce what they lose

A reader gets messages of a numbered sequence in order, but not all of them.
In place of lost messages it gets notices: a notice names the first number it
stands for, and stands for everything from there to whatever comes after it.
A message is *accounted for* by what a reader got when it is there, or a
notice stands for its number.

The order of a stream is that of `since`, which a notice has lower than its
own number.  So a stretch read from the front accounts for everything up to
the last number in it (`Accounted.read`).

## The rules

`Announced.thin` (dropping a message that is not announced loses no notice),
`Announced.snoc` and `Announced.next` (a stream grows), `Accounted.read` (a
stretch read from the front).  Whether a message may be dropped is for the
client to say.
-/
import Mathlib.Data.List.Basic

namespace Lossy

variable {α : Type*} (seq : α → Nat) (missed : α → Option Nat)

/-- The first number that `a` stands for. -/
def since (a : α) : Nat := (missed a).getD (seq a)

/-- Everything stands after what came before it. -/
structure Ordered (stream : List α) : Prop where
  after : stream.Pairwise fun a b => seq a < since seq missed b
  since_le : ∀ a ∈ stream, since seq missed a ≤ seq a

/-- A notice of the stream stands for the number `n`. -/
def Announced (stream : List α) (n : Nat) : Prop :=
  ∃ notice ∈ stream, ∃ first, missed notice = some first ∧ first ≤ n ∧
    ∀ b ∈ stream, seq notice < seq b → n < seq b

def Accounted (stream : List α) (a : α) : Prop :=
  a ∈ stream ∨ Announced seq missed stream (seq a)

variable {seq missed} {stream stream' : List α} {a : α} {n : Nat}

theorem since_eq_seq (h : missed a = none) : since seq missed a = seq a := by
  simp [since, h]

theorem since_eq_first {first : Nat} (h : missed a = some first) : since seq missed a = first := by
  simp [since, h]

theorem Ordered.increasing (h : Ordered seq missed stream) :
    stream.Pairwise fun a b => seq a < seq b := by
  refine h.after.imp_of_mem ?_
  intro a b _ hb hlt
  exact Nat.lt_of_lt_of_le hlt (h.since_le b hb)

theorem Ordered.sublist (h : Ordered seq missed stream) (hsub : stream'.Sublist stream) :
    Ordered seq missed stream' :=
  ⟨h.after.sublist hsub, fun a ha => h.since_le a (hsub.subset ha)⟩

/-- A stream goes on with what stands after all of it. -/
theorem Ordered.snoc (h : Ordered seq missed stream) (hle : since seq missed a ≤ seq a)
    (hafter : ∀ b ∈ stream, seq b < since seq missed a) : Ordered seq missed (stream ++ [a]) := by
  refine ⟨List.pairwise_append.2 ⟨h.after, List.pairwise_singleton _ _, ?_⟩, ?_⟩
  · intro b hb c hc
    obtain rfl := List.mem_singleton.1 hc
    exact hafter b hb
  · intro b hb
    rcases List.mem_append.1 hb with hb | hb
    · exact h.since_le b hb
    · obtain rfl := List.mem_singleton.1 hb
      exact hle

/-! ## What keeps a number announced

Dropping entries that may be dropped, and adding one at the end. -/

/-- Leaving out messages, but no notice. -/
theorem Announced.thin (h : Announced seq missed stream n) (hsub : ∀ b ∈ stream', b ∈ stream)
    (hkept : ∀ b ∈ stream, (missed b).isSome = true → b ∈ stream') :
    Announced seq missed stream' n := by
  obtain ⟨notice, hmem, first, hfirst, hle, hnext⟩ := h
  refine ⟨notice, hkept notice hmem (by simp [hfirst]), first, hfirst, hle, ?_⟩
  intro b hb hlt
  exact hnext b (hsub b hb) hlt

/-- Going on with something later. -/
theorem Announced.snoc (h : Announced seq missed stream n) (hlt : n < seq a) :
    Announced seq missed (stream ++ [a]) n := by
  obtain ⟨notice, hmem, first, hfirst, hle, hnext⟩ := h
  refine ⟨notice, List.mem_append_left _ hmem, first, hfirst, hle, ?_⟩
  intro b hb hb'
  rcases List.mem_append.1 hb with hb | hb
  · exact hnext b hb hb'
  · obtain rfl := List.mem_singleton.1 hb
    exact hlt

/-- A notice at the end stands for everything from its first number on. -/
theorem announced_last {first : Nat} (h : missed a = some first) (hle : first ≤ n)
    (hlast : ∀ b ∈ stream, seq b ≤ seq a) : Announced seq missed (stream ++ [a]) n := by
  refine ⟨a, List.mem_append_right _ (List.mem_singleton_self a), first, h, hle, ?_⟩
  intro b hb hlt
  rcases List.mem_append.1 hb with hb | hb
  · exact absurd (hlast b hb) (by omega)
  · obtain rfl := List.mem_singleton.1 hb
    exact absurd hlt (by omega)

/-! ## What has been read

The account moves from the queue to the reader one entry at a time. -/

/-- What has been read accounts for every message before the last one read. -/
theorem Accounted.read {ahead : List α} (hordered : Ordered seq missed (stream ++ ahead))
    (h : Accounted seq missed (stream ++ ahead) a) {b : α} (hb : b ∈ stream)
    (hlt : seq a < seq b) : Accounted seq missed stream a := by
  obtain ⟨-, -, hcross⟩ := List.pairwise_append.1 hordered.increasing
  rcases h with hmem | ⟨notice, hmem, first, hfirst, hle, hnext⟩
  · rcases List.mem_append.1 hmem with hmem | hmem
    · exact Or.inl hmem
    · have := hcross b hb a hmem
      omega
  · rcases List.mem_append.1 hmem with hmem | hmem
    · refine Or.inr ⟨notice, hmem, first, hfirst, hle, ?_⟩
      intro c hc hc'
      exact hnext c (List.mem_append_left _ hc) hc'
    · -- A notice still ahead stands for nothing before what was read.
      have hbefore := (List.pairwise_append.1 hordered.after).2.2 b hb notice hmem
      rw [since_eq_first hfirst] at hbefore
      omega

/-- A notice stands for the numbers below what comes next after it. -/
theorem Announced.next (hordered : Ordered seq missed stream) (h : Announced seq missed stream n) :
    ∃ before notice rest first, stream = before ++ notice :: rest ∧ missed notice = some first ∧
      first ≤ n ∧ ∀ b ∈ rest.head?, n < seq b := by
  obtain ⟨notice, hmem, first, hfirst, hle, hnext⟩ := h
  obtain ⟨before, rest, rfl⟩ := List.append_of_mem hmem
  refine ⟨before, notice, rest, first, rfl, hfirst, hle, ?_⟩
  intro b hb
  have hrest : b ∈ rest := List.mem_of_mem_head? hb
  have hpair := (List.pairwise_append.1 hordered.increasing).2.1
  exact hnext b (by simp [hrest]) ((List.pairwise_cons.1 hpair).1 b hrest)

end Lossy
