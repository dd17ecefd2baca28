/-
# `Core.PathLaws` — what every check on paths rests on

A key is a path again: casing makes no separator, no mark and no suffix, so
what the validation has found safe stays safe.  And a test on prefixes of
keys is a test on components.

## What is proved

    path_keys : the components of an accepted path are safe; its key is
      accepted and is its own key; and a key is a prefix of another, up to a
      separator, exactly when its components are the first of the other's

under `Cased`, the assumption that casing a character twice is casing it once
and makes no mark the validation looks at.  `cased_ascii` shows it of ASCII.
-/
import NamiSync.Core.Pathing

namespace NamiSync

section Laws

variable [Unicode]

/-- A character that the validation looks at. -/
def Marked (c : CodePoint) : Prop :=
  c = backslash ∨ c = slash ∨ c = colon ∨ c = dot ∨ c = space ∨ c = 0 ∨ isSurrogate c = true

/-- The casing of single characters: done twice it is done once, and it
neither makes nor changes a character that the validation looks at. -/
structure Cased : Prop where
  upper_upper : ∀ c, upperOne (upperOne c) = upperOne c
  upper_marked : ∀ c, Marked c ∨ Marked (upperOne c) → upperOne c = c

namespace Cased

theorem upper_eq (cased : Cased) {c mark : CodePoint} (hmark : Marked mark) :
    upperOne c = mark ↔ c = mark := by
  constructor
  · intro h
    rw [← cased.upper_marked c (Or.inr (h ▸ hmark))]
    exact h
  · rintro rfl
    exact cased.upper_marked c (Or.inl hmark)

theorem mem_uppercase (cased : Cased) {mark : CodePoint} (hmark : Marked mark) {value : Str} :
    mark ∈ uppercaseOneCodepoint value ↔ mark ∈ value := by
  rw [uppercaseOneCodepoint, List.mem_map]
  constructor
  · rintro ⟨c, hc, h⟩
    rwa [← (cased.upper_eq hmark).1 h]
  · intro h
    exact ⟨mark, h, (cased.upper_eq hmark).2 rfl⟩

/-! ## The key of a path

Upper case is taken character by character.  Under the assumption on this map
it is idempotent, and it neither makes nor removes a character
that the checks of a component look at. -/

theorem uppercase_uppercase (cased : Cased) (value : Str) :
    uppercaseOneCodepoint (uppercaseOneCodepoint value) = uppercaseOneCodepoint value := by
  rw [uppercaseOneCodepoint, uppercaseOneCodepoint, List.map_map]
  exact List.map_congr_left fun c _ => cased.upper_upper c

theorem uppercase_eq (cased : Cased) {marks : Str} (hmarks : ∀ mark ∈ marks, Marked mark)
    {value : Str} : uppercaseOneCodepoint value = marks ↔ value = marks := by
  induction value generalizing marks with
  | nil => exact Iff.rfl
  | cons c value ih =>
      cases marks with
      | nil => exact iff_of_false (List.cons_ne_nil _ _) (List.cons_ne_nil _ _)
      | cons mark marks =>
          rw [List.forall_mem_cons] at hmarks
          rw [List.cons.injEq, ← ih hmarks.2, ← cased.upper_eq hmarks.1, uppercaseOneCodepoint,
            List.map_cons, List.cons.injEq]
          exact Iff.rfl

theorem getLast_uppercase (cased : Cased) {mark : CodePoint} (hmark : Marked mark) {value : Str} :
    (uppercaseOneCodepoint value).getLast? = some mark ↔ value.getLast? = some mark := by
  rw [uppercaseOneCodepoint, List.getLast?_map, Option.map_eq_some_iff]
  constructor
  · rintro ⟨c, hc, h⟩
    rw [hc, (cased.upper_eq hmark).1 h]
  · intro h
    exact ⟨mark, h, (cased.upper_eq hmark).2 rfl⟩

/-- The stem of a name is cased with the name. -/
theorem takeWhile_uppercase (cased : Cased) (value : Str) :
    (uppercaseOneCodepoint value).takeWhile (· ≠ dot) =
      uppercaseOneCodepoint (value.takeWhile (· ≠ dot)) := by
  have hdot : Marked dot := Or.inr (Or.inr (Or.inr (Or.inl rfl)))
  have hstem : ((fun c => decide (c ≠ dot)) ∘ upperOne) = fun c => decide (c ≠ dot) := by
    funext c
    exact decide_eq_decide.2 (not_congr (cased.upper_eq hdot))
  rw [uppercaseOneCodepoint, List.takeWhile_map, hstem]
  rfl

theorem componentError_uppercase (cased : Cased) (component : Str) :
    componentError (uppercaseOneCodepoint component) = componentError component := by
  have hcolon : Marked colon := Or.inr (Or.inr (Or.inl rfl))
  have hdot : Marked dot := Or.inr (Or.inr (Or.inr (Or.inl rfl)))
  have hspace : Marked space := Or.inr (Or.inr (Or.inr (Or.inr (Or.inl rfl))))
  have hdots : ∀ mark ∈ [dot, dot], Marked mark := by
    intro mark hmem
    simp only [List.mem_cons, List.not_mem_nil, or_false, or_self] at hmem
    exact hmem ▸ hdot
  have hone : ∀ mark ∈ [dot], Marked mark := fun mark hmem => List.mem_singleton.1 hmem ▸ hdot
  unfold componentError
  simp only [cased.uppercase_eq (List.forall_mem_nil Marked), cased.uppercase_eq hone,
    cased.uppercase_eq hdots, cased.mem_uppercase hcolon, cased.getLast_uppercase hspace,
    cased.getLast_uppercase hdot, cased.takeWhile_uppercase, cased.uppercase_uppercase]

/-! ## Folding a path

So the upper-cased components are again components, and the folded path is a
path whose key is that of the first. -/

theorem isComponent_uppercase (cased : Cased) {component : Str} (h : IsComponent component) :
    IsComponent (uppercaseOneCodepoint component) where
  no_error := by rw [cased.componentError_uppercase, h.no_error]
  no_nul := by
    rw [cased.mem_uppercase (Or.inr (Or.inr (Or.inr (Or.inr (Or.inr (Or.inl rfl))))))]
    exact h.no_nul
  no_surrogate := by
    intro c hc
    by_contra hsurrogate
    have hmark : Marked c := Or.inr (Or.inr (Or.inr (Or.inr (Or.inr (Or.inr
      (Bool.not_eq_false _ ▸ hsurrogate))))))
    rw [h.no_surrogate c ((cased.mem_uppercase hmark).1 hc)] at hsurrogate
    exact hsurrogate rfl
  no_slash := by
    rw [cased.mem_uppercase (Or.inr (Or.inl rfl))]
    exact h.no_slash
  no_backslash := by
    rw [backslash_mem_uppercase]
    exact h.no_backslash

end Cased

/-- The key of a path, as a path. -/
def RelPath.folded (cased : Cased) (path : RelPath) : RelPath where
  components := path.keyParts
  ne_nil := path.keyParts_ne_nil
  valid := by
    intro part hpart
    obtain ⟨component, hmem, rfl⟩ := List.mem_map.1 hpart
    exact cased.isComponent_uppercase (path.valid component hmem)

theorem RelPath.text_folded (cased : Cased) (path : RelPath) :
    (path.folded cased).text = path.key := path.key_eq_join.symm

theorem RelPath.splitOn_text (path : RelPath) : path.text.splitOn backslash = path.components :=
  Separated.splitOn_join path.ne_nil path.no_backslash

theorem sameOrDescendant_iff {p q : RelPath} :
    sameOrDescendant p.key q.key = true ↔ q.keyParts <+: p.keyParts := by
  rw [sameOrDescendant, Bool.or_eq_true, decide_eq_true_eq, RelPath.key_eq_iff, isBelow_iff]
  constructor
  · rintro (heq | ⟨rest, -, heq⟩)
    · exact ⟨[], by rw [heq, List.append_nil]⟩
    · exact ⟨rest, heq.symm⟩
  · rintro ⟨rest, heq⟩
    cases rest with
    | nil => exact Or.inl (by rw [← heq, List.append_nil])
    | cons part rest => exact Or.inr ⟨part :: rest, List.cons_ne_nil _ _, heq.symm⟩

/-! ## What a component cannot be

A component is no way out of its root: it is no dot name, names no drive and no
stream, and does not end in what Windows would cut off. -/

/-- What a component of a result of the validation is not. -/
structure SafeComponent (component : Str) : Prop where
  ne_nil : component ≠ []
  ne_dot : component ≠ [dot]
  ne_dots : component ≠ [dot, dot]
  no_colon : colon ∉ component
  no_space : component.getLast? ≠ some space
  no_dot : component.getLast? ≠ some dot

theorem IsComponent.safe {component : Str} (h : IsComponent component) :
    SafeComponent component := by
  have herror := h.no_error
  unfold componentError at herror
  split at herror
  · cases herror
  · next hunsafe =>
      rw [if_neg h.no_colon] at herror
      split at herror
      · cases herror
      · next hsuffix =>
          exact ⟨fun h => hunsafe (Or.inl h), fun h => hunsafe (Or.inr (Or.inl h)),
            fun h => hunsafe (Or.inr (Or.inr h)), h.no_colon, fun h => hsuffix (Or.inl h),
            fun h => hsuffix (Or.inr h)⟩

/-- The components of an accepted text are safe; its key is accepted, and is
its own key; and one key has another for a prefix, in the sense of the
source, when the one path has the components of the other. -/
theorem path_keys (cased : Cased) :
    (∀ value path, validateRelativePath value = .ok path →
      (∀ component ∈ path.text.splitOn backslash, SafeComponent component) ∧
      ∃ folded, validateRelativePath (normalizeRelativePath path) = .ok folded ∧
        folded.text = normalizeRelativePath path ∧
        normalizeRelativePath folded = normalizeRelativePath path) ∧
    ∀ value path value' ancestor, validateRelativePath value = .ok path →
      validateRelativePath value' = .ok ancestor →
      (sameOrDescendant (normalizeRelativePath path) (normalizeRelativePath ancestor) = true ↔
        (ancestor.text.splitOn backslash).map uppercaseOneCodepoint <+:
          (path.text.splitOn backslash).map uppercaseOneCodepoint) := by
  constructor
  · intro value path _
    refine ⟨?_, path.folded cased, ?_, path.text_folded cased, ?_⟩
    · intro component hmem
      rw [path.splitOn_text] at hmem
      exact (path.valid component hmem).safe
    · rw [show normalizeRelativePath path = (path.folded cased).text from
        (path.text_folded cased).symm]
      exact validate_text _
    · rw [normalizeRelativePath, path.text_folded cased]
      exact cased.uppercase_uppercase path.text
  · intro value path value' ancestor _ _
    rw [ancestor.splitOn_text, path.splitOn_text]
    exact sameOrDescendant_iff

end Laws

section Sample

local instance foldedUnicode : Unicode := asciiUnicode

theorem upperOne_ascii (c : CodePoint) :
    (upperOne c).val = if 0x61 ≤ c.val ∧ c.val ≤ 0x7A then c.val - 0x20 else c.val := by
  have hupper : upperOne c = if 0x61 ≤ c ∧ c ≤ 0x7A then c - 0x20 else c := by
    unfold upperOne
    rw [show Unicode.upper c = if 0x61 ≤ c ∧ c ≤ 0x7A then [c - 0x20] else [c] from rfl]
    by_cases hlower : 0x61 ≤ c ∧ c ≤ 0x7A
    · rw [if_pos hlower, if_pos hlower]
    · rw [if_neg hlower, if_neg hlower]
  rw [hupper]
  by_cases hlower : 0x61 ≤ c ∧ c ≤ 0x7A
  · have hlo : 0x61 ≤ c.val := hlower.1
    have hhi : c.val ≤ 0x7A := hlower.2
    have hval : (c - 0x20).val = (0x110000 - 0x20 + c.val) % 0x110000 := by
      rw [Fin.sub_def]
      rfl
    rw [if_pos hlower, if_pos ⟨hlo, hhi⟩, hval]
    omega
  · rw [if_neg hlower]
    exact (if_neg hlower).symm

theorem marked_ascii {c : CodePoint} (h : Marked c) :
    c.val < 0x41 ∨ c.val = 0x5C ∨ 0x7A < c.val := by
  rcases h with rfl | rfl | rfl | rfl | rfl | rfl | h
  · decide
  · decide
  · decide
  · decide
  · decide
  · decide
  · rw [isSurrogate, Bool.and_eq_true, decide_eq_true_eq] at h
    have hlo : 0xD800 ≤ c.val := h.1
    omega

theorem cased_ascii : Cased where
  upper_upper := by
    intro c
    apply Fin.ext
    rw [upperOne_ascii, upperOne_ascii]
    split
    · split <;> omega
    · rfl
  upper_marked := by
    intro c h
    apply Fin.ext
    have hrange : (c.val < 0x41 ∨ c.val = 0x5C ∨ 0x7A < c.val) ∨
        (upperOne c).val < 0x41 ∨ (upperOne c).val = 0x5C ∨ 0x7A < (upperOne c).val :=
      h.imp marked_ascii marked_ascii
    rw [upperOne_ascii] at hrange ⊢
    split at hrange
    · omega
    · next hother => rw [if_neg hother]

def foldedPath : RelPath := ⟨[str "src", str "Core", str "a.py"], by decide, by decide +kernel⟩

def foldedAncestor : RelPath := ⟨[str "SRC", str "core"], by decide, by decide +kernel⟩

theorem path_keys_sample :
    sameOrDescendant (normalizeRelativePath foldedPath) (normalizeRelativePath foldedAncestor) =
        true ∧
      ∃ folded, validateRelativePath (normalizeRelativePath foldedPath) = .ok folded ∧
        folded.text = str "SRC\\CORE\\A.PY" := by
  obtain ⟨hpaths, hwithin⟩ := path_keys cased_ascii
  obtain ⟨-, folded, hfolded, htext, -⟩ := hpaths _ _ (validate_text foldedPath)
  refine ⟨?_, folded, hfolded, htext.trans (by decide +kernel)⟩
  rw [hwithin _ _ _ _ (validate_text foldedPath) (validate_text foldedAncestor)]
  decide +kernel

end Sample

end NamiSync
