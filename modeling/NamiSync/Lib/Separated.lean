/-
# `Lib.Separated` — lists written with a separator

A list of pieces that do not contain `sep` and the text that joins them are
the same data: `splitOn` recovers the pieces, and "starts with the text of
`xs` and a separator" says that `xs` is a proper prefix of the pieces.

`join_prefix_iff` is the rule that the comparisons of paths rest on; `split`
and `join` are inverse on pieces without the separator, and on every text.
-/
import Mathlib.Data.List.Basic

namespace Separated

variable {α : Type*} {sep : α} {xs ys : List (List α)}

/-- The text of a list of pieces. -/
def join (sep : α) (pieces : List (List α)) : List α := [sep].intercalate pieces

@[simp] theorem join_nil : join sep [] = [] := rfl

@[simp] theorem join_singleton (piece : List α) : join sep [piece] = piece := by
  simp [join, List.intercalate]

theorem join_cons (piece : List α) (h : xs ≠ []) :
    join sep (piece :: xs) = piece ++ sep :: join sep xs := by
  obtain ⟨y, ys, rfl⟩ := List.exists_cons_of_ne_nil h
  simp [join, List.intercalate]

theorem join_append (hx : xs ≠ []) (hy : ys ≠ []) :
    join sep (xs ++ ys) = join sep xs ++ sep :: join sep ys := by
  induction xs with
  | nil => exact absurd rfl hx
  | cons x xs ih =>
      cases xs with
      | nil => rw [List.singleton_append, join_cons x hy, join_singleton]
      | cons x' xs =>
          rw [List.cons_append, join_cons x (by simp), ih (by simp), join_cons x (by simp)]
          simp

theorem mem_join {a : α} (h : a ∈ join sep xs) : a = sep ∨ ∃ x ∈ xs, a ∈ x := by
  induction xs with
  | nil => simp at h
  | cons x xs ih =>
      by_cases hne : xs = []
      · subst hne
        exact Or.inr ⟨x, by simp, by simpa using h⟩
      · rw [join_cons x hne, List.mem_append, List.mem_cons] at h
        rcases h with h | rfl | h
        · exact Or.inr ⟨x, List.mem_cons_self, h⟩
        · exact Or.inl rfl
        · rcases ih h with rfl | ⟨y, hy, ha⟩
          · exact Or.inl rfl
          · exact Or.inr ⟨y, List.mem_cons_of_mem _ hy, ha⟩

theorem join_map {β : Type*} (f : α → β) :
    join (f sep) (xs.map (List.map f)) = (join sep xs).map f := by
  induction xs with
  | nil => rfl
  | cons x xs ih =>
      cases xs with
      | nil => simp
      | cons x' xs =>
          rw [List.map_cons, join_cons _ (by simp), join_cons _ (by simp), ih]
          simp

section Pieces

variable [DecidableEq α]

@[simp] theorem splitOn_ne_nil (text : List α) : text.splitOn sep ≠ [] :=
  List.splitOnP_ne_nil _ text

/-! ## Splitting

`splitOn` undoes `join` on parts without the separator, and `join` undoes it
always. -/

@[simp] theorem join_splitOn (text : List α) : join sep (text.splitOn sep) = text :=
  List.intercalate_splitOn sep

theorem splitOn_join (hne : xs ≠ []) (hsep : ∀ x ∈ xs, sep ∉ x) :
    (join sep xs).splitOn sep = xs :=
  List.splitOn_intercalate sep hsep hne

theorem splitOn_cons (a : α) (text : List α) :
    (a :: text).splitOn sep =
      if a = sep then [] :: text.splitOn sep
      else (text.splitOn sep).modifyHead (List.cons a) := by
  rw [List.splitOn, List.splitOnP_cons_eq_if_modifyHead]
  simp [List.splitOn]

/-- The pieces of a text are made of its letters, without the separator. -/
theorem mem_splitOn {text : List α} {piece : List α} (h : piece ∈ text.splitOn sep) :
    sep ∉ piece ∧ ∀ a ∈ piece, a ∈ text := by
  induction text generalizing piece with
  | nil =>
      obtain rfl : piece = [] := by simpa using h
      simp
  | cons a text ih =>
      rw [splitOn_cons] at h
      by_cases ha : a = sep
      · rw [if_pos ha, List.mem_cons] at h
        rcases h with rfl | h
        · simp
        · exact ⟨(ih h).1, fun b hb => List.mem_cons_of_mem _ ((ih h).2 b hb)⟩
      · rw [if_neg ha] at h
        have hpieces : text.splitOn sep ≠ [] := splitOn_ne_nil text
        obtain ⟨y, ys, hy⟩ := List.exists_cons_of_ne_nil hpieces
        rw [hy, List.modifyHead_cons, List.mem_cons] at h
        rcases h with rfl | h
        · have hy' : sep ∉ y ∧ ∀ a ∈ y, a ∈ text := ih (by rw [hy]; exact List.mem_cons_self)
          refine ⟨?_, ?_⟩
          · intro hmem
            rcases List.mem_cons.1 hmem with rfl | hmem
            · exact ha rfl
            · exact hy'.1 hmem
          · intro b hb
            rcases List.mem_cons.1 hb with rfl | hb
            · exact List.mem_cons_self
            · exact List.mem_cons_of_mem _ (hy'.2 b hb)
        · have hp : sep ∉ piece ∧ ∀ a ∈ piece, a ∈ text :=
            ih (by rw [hy]; exact List.mem_cons_of_mem _ h)
          exact ⟨hp.1, fun b hb => List.mem_cons_of_mem _ (hp.2 b hb)⟩

theorem join_inj (hx : xs ≠ []) (hy : ys ≠ []) (hxs : ∀ x ∈ xs, sep ∉ x)
    (hys : ∀ y ∈ ys, sep ∉ y) (h : join sep xs = join sep ys) : xs = ys := by
  rw [← splitOn_join hx hxs, h, splitOn_join hy hys]

/-- The text of `ys` starts with the text of `xs` and a separator exactly
when `ys` continues `xs`. -/
theorem join_prefix_iff (hx : xs ≠ []) (hxs : ∀ x ∈ xs, sep ∉ x) (hys : ∀ y ∈ ys, sep ∉ y) :
    join sep xs ++ [sep] <+: join sep ys ↔ ∃ zs, zs ≠ [] ∧ ys = xs ++ zs := by
  constructor
  · rintro ⟨rest, hrest⟩
    -- What follows the separator splits into the remaining pieces.
    have hsplit : join sep ys = join sep (xs ++ rest.splitOn sep) := by
      rw [join_append hx (splitOn_ne_nil rest), join_splitOn, ← hrest]
      simp
    have hne : ys ≠ [] := by
      rintro rfl
      simp at hrest
    refine ⟨rest.splitOn sep, splitOn_ne_nil rest, join_inj hne (by simp [hx]) hys ?_ hsplit⟩
    intro x hmem
    rcases List.mem_append.1 hmem with hmem | hmem
    · exact hxs x hmem
    · exact (mem_splitOn hmem).1
  · rintro ⟨zs, hz, rfl⟩
    exact ⟨join sep zs, by rw [join_append hx hz]; simp⟩

end Pieces

end Separated
