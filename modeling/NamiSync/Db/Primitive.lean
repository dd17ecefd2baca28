/-
# `Db.Primitive` — details as they are stored

`_primitive`, on what a detail can hold: values without a class, and those it
rewrites.  A value of an enumeration is its text, a dataclass the mapping of
its fields.  What comes out is in normal form: the keys of every object are
sorted, and none occurs twice.

Two details with one normal form are one to the store: a tuple and a list, a
set in either order.  `induct` is the induction over values that the other
modules use; the recursor of a nested inductive type is hidden here.
-/
import Mathlib.Data.List.Induction
import NamiSync.Db.Timestamps
import NamiSync.Workflows.PayloadStrings

namespace NamiSync

namespace History

inductive PyValue
  | none
  | bool (value : Bool)
  | int (value : Nat)
  | text (value : Str)
  | bytes (value : List UInt8)
  | datetime (value : UtcTime)
  /-- The keys are given as `str(key)`, so two may be alike. -/
  | mapping (fields : List (Str × PyValue))
  /-- A tuple or a list. -/
  | sequence (items : List PyValue)

namespace PyValue

mutual

/-- `_primitive`. -/
def primitive : PyValue → Json
  | .none => .null
  | .bool value => .bool value
  | .int value => .int value
  | .text value => .string value
  | .bytes value => .object [(str "$bytes", .string (hexText value))]
  | .datetime value => .string (encodeUtc value)
  | .mapping fields => .object (dictFields (sortedBy Prod.fst (primitiveFields fields)))
  | .sequence items => .array (primitiveItems items)

def primitiveFields : List (Str × PyValue) → List (Str × Json)
  | [] => []
  | (key, value) :: rest => (key, primitive value) :: primitiveFields rest

def primitiveItems : List PyValue → List Json
  | [] => []
  | item :: rest => primitive item :: primitiveItems rest

end

mutual

/-- The texts of a value, keys included. -/
def texts : PyValue → List Str
  | .none | .bool _ | .int _ | .bytes _ | .datetime _ => []
  | .text value => [value]
  | .mapping fields => textsFields fields
  | .sequence items => textsItems items

def textsFields : List (Str × PyValue) → List Str
  | [] => []
  | (key, value) :: rest => key :: (texts value ++ textsFields rest)

def textsItems : List PyValue → List Str
  | [] => []
  | item :: rest => texts item ++ textsItems rest

end

end PyValue

/-! ## Dictionaries in the order of their keys

A Python dict keeps the order of insertion; sorting its keys and building it
again gives the sorted order. -/

theorem mem_assign {key : Str} {value : Json} {fields : List (Str × Json)} {field : Str × Json}
    (h : field ∈ Dict.assign key value fields) : field = (key, value) ∨ field ∈ fields := by
  induction fields with
  | nil => exact Or.inl (List.mem_singleton.1 h)
  | cons head rest ih =>
      obtain ⟨key', value'⟩ := head
      rw [Dict.assign] at h
      split at h
      · exact (List.mem_cons.1 h).imp id (List.mem_cons_of_mem _)
      · rcases List.mem_cons.1 h with rfl | h
        · exact Or.inr List.mem_cons_self
        · exact (ih h).imp id (List.mem_cons_of_mem _)

theorem mem_dictFields {fields : List (Str × Json)} {field : Str × Json}
    (h : field ∈ dictFields fields) : field ∈ fields := by
  induction fields using List.reverseRecOn with
  | nil => exact h
  | append_singleton fields last ih =>
      rw [dictFields, List.foldl_append] at h
      rcases mem_assign h with rfl | h
      · exact List.mem_append_right _ List.mem_cons_self
      · exact List.mem_append_left _ (ih h)

/-- A key that is there stays where it is, another is put last. -/
theorem keys_assign (key : Str) (value : Json) (fields : List (Str × Json)) :
    (Dict.assign key value fields).map Prod.fst =
      if key ∈ fields.map Prod.fst then fields.map Prod.fst else fields.map Prod.fst ++ [key] := by
  induction fields with
  | nil => rfl
  | cons head rest ih =>
      obtain ⟨key', value'⟩ := head
      rw [Dict.assign, List.map_cons]
      by_cases hkey : key' = key
      · rw [if_pos hkey, if_pos (by rw [hkey]; exact List.mem_cons_self), List.map_cons, hkey]
      · rw [if_neg hkey, List.map_cons, ih]
        split
        · next hmem => rw [if_pos (List.mem_cons_of_mem _ hmem)]
        · next hmem =>
            rw [if_neg fun h => (List.mem_cons.1 h).elim (fun heq => hkey heq.symm) hmem]
            rfl

/-- `dict` of pairs in the order of their keys has its keys in that order,
each once. -/
theorem dictFields_sorted {fields : List (Str × Json)}
    (h : fields.Pairwise fun field other => field.1 ≤ other.1) :
    ((dictFields fields).map Prod.fst).Pairwise (· < ·) := by
  induction fields using List.reverseRecOn with
  | nil => exact List.Pairwise.nil
  | append_singleton fields last ih =>
      rw [List.pairwise_append] at h
      obtain ⟨hfields, -, hlast⟩ := h
      rw [dictFields, List.foldl_append]
      show ((Dict.assign last.1 last.2 (dictFields fields)).map Prod.fst).Pairwise (· < ·)
      rw [keys_assign]
      split
      · exact ih hfields
      · next hnew =>
          refine List.pairwise_append.2 ⟨ih hfields, List.pairwise_singleton _ _, ?_⟩
          intro key hkey other hother
          obtain ⟨field, hfield, rfl⟩ := List.mem_map.1 hkey
          rw [List.mem_singleton.1 hother]
          refine lt_of_le_of_ne
            (hlast field (mem_dictFields hfield) last (List.mem_singleton_self last)) ?_
          intro heq
          exact hnew (heq ▸ hkey)

/-! ## Normal forms

A detail is compared by what is stored of it, which is its normal form.  Taking
the normal form again changes nothing. -/

namespace PyValue

/-- Induction over a value, with the hypothesis for every item and field. -/
theorem induct {motive : PyValue → Prop} (none : motive .none)
    (bool : ∀ value, motive (.bool value))
    (int : ∀ value, motive (.int value)) (text : ∀ value, motive (.text value))
    (bytes : ∀ value, motive (.bytes value)) (datetime : ∀ value, motive (.datetime value))
    (mapping : ∀ fields, (∀ field ∈ fields, motive field.2) → motive (.mapping fields))
    (sequence : ∀ items, (∀ item ∈ items, motive item) → motive (.sequence items))
    (value : PyValue) : motive value := by
  refine @PyValue.rec motive (fun fields => ∀ field ∈ fields, motive field.2)
    (fun items => ∀ item ∈ items, motive item) (fun field => motive field.2)
    none bool int text bytes datetime mapping sequence ?_ ?_ ?_ ?_ ?_ value
  · exact fun field h => absurd h List.not_mem_nil
  · intro field rest hfield hrest other hother
    rcases List.mem_cons.1 hother with rfl | hother
    · exact hfield
    · exact hrest other hother
  · exact fun item h => absurd h List.not_mem_nil
  · intro item rest hitem hrest other hother
    rcases List.mem_cons.1 hother with rfl | hother
    · exact hitem
    · exact hrest other hother
  · exact fun key value hvalue => hvalue

theorem primitiveItems_eq (items : List PyValue) : primitiveItems items = items.map primitive := by
  induction items with
  | nil => rfl
  | cons item items ih => rw [primitiveItems, ih, List.map_cons]

theorem primitiveFields_eq (fields : List (Str × PyValue)) :
    primitiveFields fields = fields.map fun field => (field.1, field.2.primitive) := by
  induction fields with
  | nil => rfl
  | cons field fields ih => rw [primitiveFields, ih, List.map_cons]

theorem mem_textsItems {items : List PyValue} {item : PyValue} (hitem : item ∈ items) {text : Str}
    (h : text ∈ item.texts) : text ∈ textsItems items := by
  induction items with
  | nil => exact absurd hitem List.not_mem_nil
  | cons head rest ih =>
      rcases List.mem_cons.1 hitem with rfl | hitem
      · exact List.mem_append_left _ h
      · exact List.mem_append_right _ (ih hitem)

theorem mem_textsFields {fields : List (Str × PyValue)} {field : Str × PyValue}
    (hfield : field ∈ fields) {text : Str} (h : text = field.1 ∨ text ∈ field.2.texts) :
    text ∈ textsFields fields := by
  induction fields with
  | nil => exact absurd hfield List.not_mem_nil
  | cons head rest ih =>
      rw [textsFields]
      rcases List.mem_cons.1 hfield with rfl | hfield
      · rcases h with rfl | h
        · exact List.mem_cons_self
        · exact List.mem_cons_of_mem _ (List.mem_append_left _ h)
      · exact List.mem_cons_of_mem _ (List.mem_append_right _ (ih hfield))

/-- A field of the dictionary is one of the mapping's. -/
theorem mem_sortedFields {fields : List (Str × PyValue)} {field : Str × Json}
    (h : field ∈ dictFields (sortedBy Prod.fst (primitiveFields fields))) :
    ∃ old ∈ fields, field = (old.1, old.2.primitive) := by
  have hmem := mem_sortedBy.1 (mem_dictFields h)
  rw [primitiveFields_eq] at hmem
  obtain ⟨old, hold, rfl⟩ := List.mem_map.1 hmem
  exact ⟨old, hold, rfl⟩

theorem keys_primitive (fields : List (Str × PyValue)) :
    ((dictFields (sortedBy Prod.fst (primitiveFields fields))).map Prod.fst).Pairwise (· < ·) :=
  dictFields_sorted (pairwise_sortedBy Prod.fst _)

theorem proper_primitive {p : Str → Prop} (hmark : p (str "$bytes"))
    (hbytes : ∀ bytes, p (hexText bytes))
    (htime : ∀ time, p (encodeUtc time)) (value : PyValue) (h : ∀ text ∈ value.texts, p text) :
    Json.Proper p value.primitive := by
  induction value using induct with
  | none => exact .null
  | bool value => exact .bool value
  | int value => exact .int value
  | text value => exact .string (h value (List.mem_singleton_self value))
  | bytes value =>
      refine .object (List.nodup_singleton _) ?_ ?_
      · intro field hfield
        rw [List.mem_singleton.1 hfield]
        exact hmark
      · intro field hfield
        rw [List.mem_singleton.1 hfield]
        exact .string (hbytes value)
  | datetime value => exact .string (htime value)
  | mapping fields ih =>
      refine .object ((keys_primitive fields).imp ne_of_lt) ?_ ?_
      · intro field hfield
        obtain ⟨old, hold, rfl⟩ := mem_sortedFields hfield
        exact h old.1 (mem_textsFields hold (Or.inl rfl))
      · intro field hfield
        obtain ⟨old, hold, rfl⟩ := mem_sortedFields hfield
        exact ih old hold fun text htext => h text (mem_textsFields hold (Or.inr htext))
  | sequence items ih =>
      rw [primitive, primitiveItems_eq]
      refine .array fun item hitem => ?_
      obtain ⟨old, hold, rfl⟩ := List.mem_map.1 hitem
      exact ih old hold fun text htext => h text (mem_textsItems hold htext)

/-- `json.dumps` finds nothing to sort. -/
theorem sorted_primitive (value : PyValue) : value.primitive.sorted = value.primitive := by
  induction value using induct with
  | mapping fields ih =>
      have hvalues : Json.sortedFields (dictFields (sortedBy Prod.fst (primitiveFields fields))) =
          dictFields (sortedBy Prod.fst (primitiveFields fields)) := by
        rw [Json.sortedFields_eq]
        refine (List.map_congr_left fun field hfield => ?_).trans (List.map_id _)
        obtain ⟨old, hold, rfl⟩ := mem_sortedFields hfield
        rw [ih old hold]
        rfl
      rw [primitive, Json.sorted, hvalues]
      refine congrArg Json.object (List.Pairwise.insertionSort_eq ?_)
      exact (List.pairwise_map.1 (keys_primitive fields)).imp le_of_lt
  | sequence items ih =>
      rw [primitive, Json.sorted, Json.sortedItems_eq, primitiveItems_eq, List.map_map]
      exact congrArg Json.array (List.map_congr_left ih)
  | _ => rfl

end PyValue

/-- A value in normal form. -/
structure NormalJson where
  value : Json
  proper : Json.Proper (fun _ => True) value
  sorted : value.sorted = value

theorem NormalJson.ext {value other : NormalJson} (h : value.value = other.value) :
    value = other := by
  cases value
  cases other
  exact (NormalJson.mk.injEq ..).mpr h

theorem faithful_normal : Json.Faithful NormalJson.value where
  proper := NormalJson.proper
  inj a b h := by
    rw [a.sorted, b.sorted] at h
    exact NormalJson.ext h

/-- `detail`, as it was handed over. -/
abbrev Detail := List (Str × PyValue)

/-- What is hashed and stored of a detail. -/
def Detail.normal (detail : Detail) : NormalJson where
  value := (PyValue.mapping detail).primitive
  proper :=
    PyValue.proper_primitive trivial (fun _ => trivial) (fun _ => trivial) _ fun _ _ => trivial
  sorted := PyValue.sorted_primitive _

/-- `_json_text`. -/
def NormalJson.text (value : NormalJson) : Str := (decodeUtf8 value.value.canonicalBytes).getD []

theorem unpaired_encodeUtc (time : UtcTime) : Unpaired (encodeUtc time) := by
  refine unpaired_plain fun c hc => ?_
  simp only [encodeUtc, isoformatMicroseconds, List.cons_append, List.mem_cons, List.mem_append,
    List.append_assoc, List.not_mem_nil, or_false] at hc
  rcases hc with h | rfl | h | rfl | h | rfl | h | rfl | h | rfl | h | rfl | h | rfl
  all_goals first | exact padded_lt h | decide

/-- Its texts have no surrogate that another would complete; a text without
lone surrogates has none at all. -/
def Detail.Clean (detail : Detail) : Prop := ∀ text ∈ (PyValue.mapping detail).texts, Unpaired text

/-- A stored detail is read back in normal form. -/
theorem loads_text {detail : Detail} (h : detail.Clean) :
    Json.loads detail.normal.text = some detail.normal.value := by
  have hproper : Json.Proper Unpaired detail.normal.value :=
    PyValue.proper_primitive (unpaired_literal rfl) unpaired_hexText unpaired_encodeUtc _ h
  have hloads := Json.loads_canonicalBytes hproper
  rw [detail.normal.sorted] at hloads
  obtain ⟨text, htext, hread⟩ := Option.bind_eq_some_iff.1 hloads
  rw [NormalJson.text, htext]
  exact hread

end History

end NamiSync
