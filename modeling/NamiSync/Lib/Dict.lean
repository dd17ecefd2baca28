/-
# `Lib.Dict` — insertion-ordered dictionaries

An association list that carries the proof that no key occurs twice.
Setting a key that is present keeps its position, setting a new key appends
it, as in an insertion-ordered hash table.  Everything a client proves goes
through `get?` and the rewriting lemmas below; only `keys` shows the order.

The library of the standard has hash maps, whose order is not that of the
insertion; the source iterates over its dictionaries and depends on it.
-/
import Mathlib.Data.List.Nodup

/-- An insertion-ordered dictionary. -/
structure Dict (κ ν : Type*) where
  entries : List (κ × ν)
  nodup : (entries.map Prod.fst).Nodup

namespace Dict

variable {κ ν : Type*}

def empty : Dict κ ν := ⟨[], List.nodup_nil⟩

instance : Inhabited (Dict κ ν) := ⟨empty⟩

def keys (d : Dict κ ν) : List κ := d.entries.map Prod.fst

def values (d : Dict κ ν) : List ν := d.entries.map Prod.snd

def isEmpty (d : Dict κ ν) : Bool := d.entries.isEmpty

variable [DecidableEq κ]

/-- The value of the first entry with key `k`. -/
def lookup (k : κ) : List (κ × ν) → Option ν
  | [] => none
  | (k', v) :: rest => if k' = k then some v else lookup k rest

def get? (d : Dict κ ν) (k : κ) : Option ν := lookup k d.entries

def contains (d : Dict κ ν) (k : κ) : Bool := (d.get? k).isSome

/-- Replace the value of `k` where it stands, or append it. -/
def assign (k : κ) (v : ν) : List (κ × ν) → List (κ × ν)
  | [] => [(k, v)]
  | (k', v') :: rest =>
      if k' = k then (k, v) :: rest else (k', v') :: assign k v rest

theorem mem_keys_assign {k k' : κ} {v : ν} {l : List (κ × ν)} :
    k' ∈ (assign k v l).map Prod.fst ↔ k' = k ∨ k' ∈ l.map Prod.fst := by
  induction l with
  | nil => simp [assign]
  | cons e l ih =>
      obtain ⟨k₀, v₀⟩ := e
      by_cases h : k₀ = k
      · subst h
        simp [assign]
      · simp only [assign, if_neg h, List.map_cons, List.mem_cons, ih]
        tauto

theorem nodup_assign {k : κ} {v : ν} {l : List (κ × ν)}
    (h : (l.map Prod.fst).Nodup) : ((assign k v l).map Prod.fst).Nodup := by
  induction l with
  | nil => simp [assign]
  | cons e l ih =>
      obtain ⟨k₀, v₀⟩ := e
      simp only [List.map_cons, List.nodup_cons] at h
      by_cases hk : k₀ = k
      · subst hk
        simpa [assign] using h
      · simp only [assign, if_neg hk, List.map_cons, List.nodup_cons]
        refine ⟨fun hm => ?_, ih h.2⟩
        rcases mem_keys_assign.mp hm with rfl | hm
        · exact hk rfl
        · exact h.1 hm

def set (d : Dict κ ν) (k : κ) (v : ν) : Dict κ ν :=
  ⟨assign k v d.entries, nodup_assign d.nodup⟩

/-- Remove `k`; a key that is absent is not an error. -/
def pop (d : Dict κ ν) (k : κ) : Dict κ ν :=
  ⟨d.entries.filter (fun e => e.1 ≠ k),
    d.nodup.sublist (List.filter_sublist.map _)⟩

/-- Set `k` where it is absent. -/
def setDefault (d : Dict κ ν) (k : κ) (v : ν) : Dict κ ν :=
  if d.contains k then d else d.set k v

/-! ## `get?` after each operation

The lemmas of a map: at the key that was set or popped, and at any other. -/

theorem lookup_assign_self {k : κ} {v : ν} {l : List (κ × ν)} :
    lookup k (assign k v l) = some v := by
  induction l with
  | nil => simp [assign, lookup]
  | cons e l ih =>
      obtain ⟨k₀, v₀⟩ := e
      by_cases h : k₀ = k
      · simp [assign, lookup, h]
      · simp [assign, lookup, h, ih]

theorem lookup_assign_ne {k k' : κ} {v : ν} {l : List (κ × ν)} (h : k' ≠ k) :
    lookup k' (assign k v l) = lookup k' l := by
  induction l with
  | nil => simp [assign, lookup, Ne.symm h]
  | cons e l ih =>
      obtain ⟨k₀, v₀⟩ := e
      by_cases hk : k₀ = k
      · subst hk
        simp [assign, lookup, Ne.symm h]
      · simp [assign, lookup, hk, ih]

theorem lookup_filter_self {k : κ} {l : List (κ × ν)} :
    lookup k (l.filter (fun e => e.1 ≠ k)) = none := by
  induction l with
  | nil => rfl
  | cons e l ih =>
      obtain ⟨k₀, v₀⟩ := e
      by_cases h : k₀ = k
      · simpa [h] using ih
      · simpa [lookup, h] using ih

theorem lookup_filter_ne {k k' : κ} {l : List (κ × ν)} (h : k' ≠ k) :
    lookup k' (l.filter (fun e => e.1 ≠ k)) = lookup k' l := by
  induction l with
  | nil => rfl
  | cons e l ih =>
      obtain ⟨k₀, v₀⟩ := e
      by_cases hk : k₀ = k
      · have hne : k₀ ≠ k' := fun e => h (e.symm.trans hk)
        simpa [lookup, hk, Ne.symm h] using ih
      · by_cases hk' : k₀ = k'
        · simp [lookup, hk', h]
        · simpa [lookup, hk, hk'] using ih

theorem lookup_of_mem {k : κ} {v : ν} {l : List (κ × ν)} (hnodup : (l.map Prod.fst).Nodup)
    (h : (k, v) ∈ l) : lookup k l = some v := by
  induction l with
  | nil => exact absurd h List.not_mem_nil
  | cons e l ih =>
      obtain ⟨hfresh, hrest⟩ := List.nodup_cons.1 hnodup
      rw [lookup]
      rcases List.mem_cons.1 h with rfl | h
      · rw [if_pos rfl]
      · rw [if_neg, ih hrest h]
        rintro rfl
        exact hfresh (List.mem_map.2 ⟨_, h, rfl⟩)

theorem mem_of_lookup {k : κ} {v : ν} {l : List (κ × ν)} (h : lookup k l = some v) :
    (k, v) ∈ l := by
  induction l with
  | nil => exact absurd h (by simp [lookup])
  | cons e l ih =>
      rw [lookup] at h
      split at h
      · next hk =>
          obtain rfl := Option.some.inj h
          rw [← hk]
          exact List.mem_cons_self
      · exact List.mem_cons_of_mem _ (ih h)

theorem get?_eq_some {d : Dict κ ν} {k : κ} {v : ν} : d.get? k = some v ↔ (k, v) ∈ d.entries :=
  ⟨mem_of_lookup, lookup_of_mem d.nodup⟩

theorem contains_iff {d : Dict κ ν} {k : κ} : d.contains k = true ↔ k ∈ d.keys := by
  rw [contains, Option.isSome_iff_exists, keys, List.mem_map]
  constructor
  · rintro ⟨v, hv⟩
    exact ⟨(k, v), get?_eq_some.1 hv, rfl⟩
  · rintro ⟨⟨key, v⟩, hmem, rfl⟩
    exact ⟨v, get?_eq_some.2 hmem⟩

/-- A new key goes to the end. -/
theorem assign_of_not_mem {k : κ} {v : ν} {l : List (κ × ν)} (h : k ∉ l.map Prod.fst) :
    assign k v l = l ++ [(k, v)] := by
  induction l with
  | nil => rfl
  | cons e l ih =>
      rw [List.map_cons, List.mem_cons, not_or] at h
      rw [assign, if_neg fun heq => h.1 heq.symm, ih h.2]
      rfl

theorem entries_set_of_fresh {d : Dict κ ν} {k : κ} (v : ν) (h : d.contains k = false) :
    (d.set k v).entries = d.entries ++ [(k, v)] := by
  refine assign_of_not_mem fun hmem => ?_
  rw [contains_iff.2 hmem] at h
  exact Bool.false_ne_true h.symm

/-- Setting distinct keys, one by one, appends them. -/
theorem foldl_assign {l entries : List (κ × ν)} (h : ((l ++ entries).map Prod.fst).Nodup) :
    entries.foldl (fun l e => assign e.1 e.2 l) l = l ++ entries := by
  induction entries generalizing l with
  | nil => exact (List.append_nil l).symm
  | cons e entries ih =>
      have hfresh : e.1 ∉ l.map Prod.fst := by
        rw [List.map_append, List.nodup_append] at h
        intro hmem
        exact h.2.2 e.1 hmem e.1 List.mem_cons_self rfl
      rw [List.foldl_cons, assign_of_not_mem hfresh, ih (by simpa using h)]
      simp

theorem entries_foldl_set (d : Dict κ ν) (entries : List (κ × ν)) :
    (entries.foldl (fun d e => d.set e.1 e.2) d).entries =
      entries.foldl (fun l e => assign e.1 e.2 l) d.entries := by
  induction entries generalizing d with
  | nil => rfl
  | cons e entries ih => rw [List.foldl_cons, ih, List.foldl_cons, set]

@[simp] theorem get?_empty (k : κ) : (empty : Dict κ ν).get? k = none := rfl

theorem get?_of_isEmpty {d : Dict κ ν} (h : d.isEmpty = true) (k : κ) : d.get? k = none := by
  rw [get?, List.isEmpty_iff.mp h]
  rfl

theorem isEmpty_of_get? {d : Dict κ ν} (h : ∀ k, d.get? k = none) : d.isEmpty = true := by
  obtain ⟨entries, nodup⟩ := d
  cases entries with
  | nil => rfl
  | cons e entries => exact absurd (h e.1) (by simp [get?, lookup])

@[simp] theorem get?_set_self (d : Dict κ ν) (k : κ) (v : ν) :
    (d.set k v).get? k = some v :=
  lookup_assign_self

theorem get?_set_ne (d : Dict κ ν) {k k' : κ} (v : ν) (h : k' ≠ k) :
    (d.set k v).get? k' = d.get? k' :=
  lookup_assign_ne h

theorem get?_set (d : Dict κ ν) (k k' : κ) (v : ν) :
    (d.set k v).get? k' = if k' = k then some v else d.get? k' := by
  split
  · next h => rw [h, get?_set_self]
  · next h => exact get?_set_ne d v h

@[simp] theorem get?_pop_self (d : Dict κ ν) (k : κ) : (d.pop k).get? k = none :=
  lookup_filter_self

theorem get?_pop_ne (d : Dict κ ν) {k k' : κ} (h : k' ≠ k) :
    (d.pop k).get? k' = d.get? k' :=
  lookup_filter_ne h

theorem get?_pop (d : Dict κ ν) (k k' : κ) :
    (d.pop k).get? k' = if k' = k then none else d.get? k' := by
  split
  · next h => rw [h, get?_pop_self]
  · next h => exact get?_pop_ne d h

end Dict
