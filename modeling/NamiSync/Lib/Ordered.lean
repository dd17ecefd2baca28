/-
# `Lib.Ordered` — lists in which what is needed comes first

Each element has a name and needs some names.  A list is ordered over the
names already known when every element needs only what is known or stands
before it.

## The rules

`ordered_append` and `Ordered.mono` build ordered lists; `Ordered.precedes`
reads one: a need stands before what needs it, and so does a need of a need
(`precedes_of_transGen`).
-/
import Mathlib.Data.List.Nodup
import Mathlib.Data.Set.Insert
import Mathlib.Logic.Relation

namespace Listing

variable {α κ : Type*} {name : α → κ} {needs : α → List κ}

/-- Every element needs only known names and names that stand before it. -/
def Ordered (name : α → κ) (needs : α → List κ) : Set κ → List α → Prop
  | _, [] => True
  | known, a :: rest => (∀ k ∈ needs a, k ∈ known) ∧ Ordered name needs (insert (name a) known) rest

/-- The names in a list. -/
def names (name : α → κ) (l : List α) : Set κ := {k | ∃ a ∈ l, name a = k}

theorem Ordered.mono {known known' : Set κ} {l : List α} (hsub : known ⊆ known')
    (h : Ordered name needs known l) : Ordered name needs known' l := by
  induction l generalizing known known' with
  | nil => trivial
  | cons a rest ih =>
      obtain ⟨ha, hrest⟩ := h
      exact ⟨fun k hk => hsub (ha k hk), ih (Set.insert_subset_insert hsub) hrest⟩

theorem insert_names {a : α} {rest : List α} {known : Set κ} :
    insert (name a) known ∪ names name rest = known ∪ names name (a :: rest) := by
  ext k
  simp only [names, Set.mem_union, Set.mem_insert_iff, Set.mem_ofPred_eq, List.mem_cons]
  constructor
  · rintro ((rfl | hk) | ⟨b, hb, rfl⟩)
    · exact Or.inr ⟨a, Or.inl rfl, rfl⟩
    · exact Or.inl hk
    · exact Or.inr ⟨b, Or.inr hb, rfl⟩
  · rintro (hk | ⟨b, rfl | hb, rfl⟩)
    · exact Or.inl (Or.inr hk)
    · exact Or.inl (Or.inl rfl)
    · exact Or.inr ⟨b, hb, rfl⟩

theorem ordered_append {known : Set κ} {l m : List α} :
    Ordered name needs known (l ++ m) ↔
      Ordered name needs known l ∧ Ordered name needs (known ∪ names name l) m := by
  induction l generalizing known with
  | nil =>
      have hnone : known ∪ names name ([] : List α) = known := by
        ext k
        simp [names]
      rw [hnone]
      exact ⟨fun h => ⟨trivial, h⟩, And.right⟩
  | cons a rest ih =>
      show _ ∧ Ordered name needs _ (rest ++ m) ↔ _
      rw [ih, insert_names]
      exact and_assoc.symm

/-- Elements that need only known names may stand anywhere. -/
theorem ordered_of_known {known : Set κ} {l : List α} (h : ∀ a ∈ l, ∀ k ∈ needs a, k ∈ known) :
    Ordered name needs known l := by
  induction l generalizing known with
  | nil => trivial
  | cons a rest ih =>
      refine ⟨h a List.mem_cons_self, ih fun b hb k hk => ?_⟩
      exact Set.mem_insert_of_mem _ (h b (List.mem_cons_of_mem _ hb) k hk)

/-- What an element needs is known or stands before it. -/
theorem Ordered.before {known : Set κ} {l m : List α} {a : α}
    (h : Ordered name needs known (l ++ a :: m)) {k : κ} (hk : k ∈ needs a) :
    k ∈ known ∨ ∃ b ∈ l, name b = k :=
  (ordered_append.1 h).2.1 k hk

/-! ## Positions -/

variable [DecidableEq α]

/-- The first element stands before the second one. -/
def Precedes (l : List α) (a b : α) : Prop := l.idxOf a < l.idxOf b

theorem Precedes.trans {l : List α} {a b c : α} (hab : Precedes l a b) (hbc : Precedes l b c) :
    Precedes l a c :=
  Nat.lt_trans hab hbc

/-- An element of the list that another one needs stands before it. -/
theorem Ordered.precedes {l : List α} (h : Ordered name needs ∅ l) (hnodup : (l.map name).Nodup)
    {a b : α} (ha : a ∈ l) (hb : b ∈ l) (hneeds : name b ∈ needs a) : Precedes l b a := by
  obtain ⟨before, after, rfl⟩ := List.append_of_mem ha
  obtain ⟨c, hc, hname⟩ := (h.before hneeds).resolve_left (Set.notMem_empty _)
  obtain rfl := List.inj_on_of_nodup_map hnodup (List.mem_append_left _ hc) hb hname
  have hfresh : a ∉ before := by
    intro hmem
    have hdisjoint := (List.nodup_append.1 hnodup.of_map).2.2
    exact hdisjoint a hmem a List.mem_cons_self rfl
  unfold Precedes
  rw [List.idxOf_append_of_mem hc, List.idxOf_append_of_notMem hfresh, List.idxOf_cons_self]
  exact Nat.lt_of_lt_of_le (List.idxOf_lt_length_of_mem hc) (Nat.le_add_right _ _)

/-- The element is needed, directly, by the first one. -/
def NeededBy (name : α → κ) (needs : α → List κ) (l : List α) (a b : α) : Prop :=
  b ∈ l ∧ name b ∈ needs a

/-- What is needed through other elements stands before, too. -/
theorem Ordered.precedes_of_transGen {l : List α} (h : Ordered name needs ∅ l)
    (hnodup : (l.map name).Nodup) {a b : α} (ha : a ∈ l)
    (hneeds : Relation.TransGen (NeededBy name needs l) a b) : b ∈ l ∧ Precedes l b a := by
  induction hneeds with
  | single hstep => exact ⟨hstep.1, h.precedes hnodup ha hstep.1 hstep.2⟩
  | tail _ hstep ih =>
      exact ⟨hstep.1, (h.precedes hnodup ih.1 hstep.1 hstep.2).trans ih.2⟩

end Listing
