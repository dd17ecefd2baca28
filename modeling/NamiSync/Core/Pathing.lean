/-
# `Core.Pathing` — validated Windows relative paths

`core/pathing.py`.  `validate_relative_path` is a parser: what it accepts is
a nonempty list of components, each safe on its own, and the canonical text
is the components joined by `\`.  A `RelPath` is that list; the paths that
the source re-validates at every use are valid by construction here.

## What is proved

That a `RelPath` is what `validate_relative_path` returns: `text_of_validate`
and `validate_text` are the two directions.  So is that the key of a path, its
parents and its depth can be computed on components, which is how every later
module speaks of them: `key_eq_iff`, `isBelow_iff`, `parents_eq`.

## What is not here

`WindowsPath` and the drive: an absolute path occurs only as the text that the
two roots are joined with.
-/
import NamiSync.Core.Text
import NamiSync.Lib.Separated

namespace NamiSync

/-- Why `validate_relative_path` raises. -/
inductive PathValidationError
  | nul | surrogate | empty | absolute | deviceNamespace
  | unsafeComponent | streamQualifier | ambiguousSuffix | windowsDevice
  deriving DecidableEq, Repr

/-- `str(error)`. -/
def PathValidationError.message : PathValidationError → String
  | nul => "relative path contains NUL"
  | surrogate => "relative path contains an unpaired surrogate"
  | empty => "relative path is empty"
  | absolute => "relative path is absolute or qualified"
  | deviceNamespace => "relative path uses a device namespace"
  | unsafeComponent => "relative path has an unsafe component"
  | streamQualifier => "relative path contains a stream or drive qualifier"
  | ambiguousSuffix => "relative path has a Windows-ambiguous suffix"
  | windowsDevice => "relative path names a Windows device"

def isSurrogate (character : CodePoint) : Bool := 0xD800 ≤ character && character ≤ 0xDFFF

/-- `_RESERVED_BASENAMES`. -/
def reservedBasenames : List Str :=
  [str "CON", str "PRN", str "AUX", str "NUL"] ++
    (List.range 9).map (fun number => str "COM" ++ [hexDigit (number + 1)]) ++
    (List.range 9).map (fun number => str "LPT" ++ [hexDigit (number + 1)])

/-- `_DEVICE_PREFIXES`. -/
def devicePrefixes : List Str := [str "\\\\?\\", str "\\\\.\\", str "\\??\\"]

def isAsciiLetter (character : CodePoint) : Bool :=
  (0x41 ≤ character && character ≤ 0x5A) || (0x61 ≤ character && character ≤ 0x7A)

/-- `_DRIVE_PREFIX.match(canonical)`. -/
def hasDrivePrefix : Str → Bool
  | letter :: c :: _ => isAsciiLetter letter && c = colon
  | _ => false

/-- `value.replace("/", "\\")`. -/
def canonicalText (value : Str) : Str := value.map fun c => if c = slash then backslash else c

section Validation

variable [Unicode]

/-- The body of the loop over the components. -/
def componentError (component : Str) : Option PathValidationError :=
  if component = [] ∨ component = [dot] ∨ component = [dot, dot] then some .unsafeComponent
  else if colon ∈ component then some .streamQualifier
  else if component.getLast? = some space ∨ component.getLast? = some dot then
    some .ambiguousSuffix
  else if uppercaseOneCodepoint (component.takeWhile (· ≠ dot)) ∈ reservedBasenames then
    some .windowsDevice
  else none

/-- What an accepted component is: it passes the loop, and it has none of
the characters that the checks on the whole path reject or split at. -/
structure IsComponent (component : Str) : Prop where
  no_error : componentError component = none
  no_nul : 0 ∉ component
  no_surrogate : ∀ c ∈ component, isSurrogate c = false
  no_slash : slash ∉ component
  no_backslash : backslash ∉ component

/-- Decided over the list: a quantifier over code points would be decided
over all of them. -/
instance (component : Str) : Decidable (IsComponent component) :=
  decidable_of_iff
    (componentError component = none ∧ 0 ∉ component ∧ component.all (!isSurrogate ·) = true ∧
      slash ∉ component ∧ backslash ∉ component)
    ⟨fun ⟨h1, h2, h3, h4, h5⟩ => ⟨h1, h2, by simpa using h3, h4, h5⟩,
      fun ⟨h1, h2, h3, h4, h5⟩ => ⟨h1, h2, by simpa using h3, h4, h5⟩⟩

theorem IsComponent.ne_nil {component : Str} (h : IsComponent component) : component ≠ [] := by
  rintro rfl
  exact absurd h.no_error (by simp [componentError])

theorem IsComponent.no_colon {component : Str} (h : IsComponent component) :
    colon ∉ component := by
  intro hc
  have herr := h.no_error
  unfold componentError at herr
  rw [if_pos hc] at herr
  split at herr <;> exact absurd herr (by simp)

/-- A validated relative path: its components. -/
structure RelPath where
  components : List Str
  ne_nil : components ≠ []
  valid : ∀ component ∈ components, IsComponent component

instance : DecidableEq RelPath := fun p q =>
  decidable_of_iff (p.components = q.components) (by
    constructor
    · intro h
      cases p
      cases q
      exact (RelPath.mk.injEq ..).mpr h
    · rintro rfl
      rfl)

namespace RelPath

/-- A path of one component. -/
def single (name : Str) (h : IsComponent name) : RelPath :=
  ⟨[name], List.cons_ne_nil _ _, by simpa using h⟩

/-- The canonical text. -/
def text (path : RelPath) : Str := Separated.join backslash path.components

theorem no_backslash (path : RelPath) : ∀ c ∈ path.components, backslash ∉ c :=
  fun c hc => (path.valid c hc).no_backslash

@[ext] theorem ext {p q : RelPath} (h : p.components = q.components) : p = q := by
  cases p
  cases q
  exact (RelPath.mk.injEq ..).mpr h

theorem text_inj {p q : RelPath} (h : p.text = q.text) : p = q :=
  ext (Separated.join_inj p.ne_nil q.ne_nil p.no_backslash q.no_backslash h)

end RelPath

omit [Unicode] in
theorem mem_canonicalText {value : Str} {c : CodePoint} (h : c ∈ canonicalText value) :
    c ≠ slash ∧ (c = backslash ∨ c ∈ value) := by
  obtain ⟨d, hd, rfl⟩ := List.mem_map.1 h
  split
  · exact ⟨by decide, Or.inl rfl⟩
  · next hne => exact ⟨hne, Or.inr hd⟩

/-- A piece of an admissible text is a component once it passes the loop. -/
theorem isComponent_of_mem {value component : Str}
    (hnul : 0 ∉ value) (hsur : ∀ c ∈ value, isSurrogate c = false)
    (hmem : component ∈ (canonicalText value).splitOn backslash)
    (herr : componentError component = none) : IsComponent component := by
  have hpiece := Separated.mem_splitOn hmem
  have hfrom : ∀ c ∈ component, c ≠ slash ∧ c ∈ value := by
    intro c hc
    obtain ⟨hslash, hback | hval⟩ := mem_canonicalText (hpiece.2 c hc)
    · exact absurd (hback ▸ hc) hpiece.1
    · exact ⟨hslash, hval⟩
  exact
    { no_error := herr
      no_nul := fun h => hnul (hfrom 0 h).2
      no_surrogate := fun c hc => hsur c (hfrom c hc).2
      no_slash := fun h => (hfrom slash h).1 rfl
      no_backslash := hpiece.1 }

/-- `validate_relative_path`.  Its last test, `PureWindowsPath.is_absolute`,
can no longer hold: a drive needs a colon and a root a leading separator. -/
def validateRelativePath (value : Str) : Except PathValidationError RelPath :=
  if hnul : 0 ∈ value then .error .nul
  else if hsur : value.any isSurrogate then .error .surrogate
  else if value = [] then .error .empty
  else if (canonicalText value).head? = some backslash ∨ hasDrivePrefix (canonicalText value) then
    .error .absolute
  else if devicePrefixes.any
      (fun device => device.isPrefixOf ((canonicalText value).flatMap Unicode.upper)) then
    .error .deviceNamespace
  else
    match hloop : ((canonicalText value).splitOn backslash).findSome? componentError with
    | some error => .error error
    | none =>
        .ok
          { components := (canonicalText value).splitOn backslash
            ne_nil := Separated.splitOn_ne_nil _
            valid := fun component hmem =>
              isComponent_of_mem hnul (by simpa using hsur) hmem
                (List.findSome?_eq_none_iff.1 hloop component hmem) }

theorem components_of_validate {value : Str} {path : RelPath}
    (h : validateRelativePath value = .ok path) :
    path.components = (canonicalText value).splitOn backslash := by
  unfold validateRelativePath at h
  split_ifs at h
  split at h
  · exact absurd h (by simp)
  · rw [← Except.ok.inj h]

/-- What is accepted is the canonical spelling of the argument. -/
theorem text_of_validate {value : Str} {path : RelPath}
    (h : validateRelativePath value = .ok path) : path.text = canonicalText value := by
  rw [RelPath.text, components_of_validate h, Separated.join_splitOn]

theorem RelPath.mem_text {path : RelPath} {c : CodePoint} (h : c ∈ path.text) :
    c = backslash ∨ ∃ component ∈ path.components, c ∈ component :=
  Separated.mem_join h

theorem RelPath.head_text (path : RelPath) : ∃ c rest, path.text = c :: rest ∧ c ≠ backslash := by
  obtain ⟨first, rest, hcomp⟩ := List.exists_cons_of_ne_nil path.ne_nil
  have hfirst := path.valid first (by simp [hcomp])
  obtain ⟨c, cs, rfl⟩ := List.exists_cons_of_ne_nil hfirst.ne_nil
  have hc : c ≠ backslash := by
    rintro rfl
    exact hfirst.no_backslash List.mem_cons_self
  by_cases hrest : rest = []
  · exact ⟨c, cs, by simp [RelPath.text, hcomp, hrest], hc⟩
  · refine ⟨c, cs ++ backslash :: Separated.join backslash rest, ?_, hc⟩
    rw [RelPath.text, hcomp, Separated.join_cons _ hrest]
    rfl

theorem RelPath.canonicalText_text (path : RelPath) : canonicalText path.text = path.text := by
  unfold canonicalText
  conv_rhs => rw [← List.map_id path.text]
  apply List.map_congr_left
  intro c hc
  rw [if_neg]
  · rfl
  · rintro rfl
    obtain hback | ⟨component, hmem, hin⟩ := path.mem_text hc
    · exact absurd hback (by decide)
    · exact (path.valid component hmem).no_slash hin

theorem RelPath.text_avoids {path : RelPath} {c : CodePoint} (hc : c ≠ backslash)
    (h : ∀ component, IsComponent component → c ∉ component) : c ∉ path.text := by
  intro hmem
  obtain hback | ⟨component, hcomp, hin⟩ := path.mem_text hmem
  · exact hc hback
  · exact h component (path.valid component hcomp) hin

theorem RelPath.no_surrogate_text (path : RelPath) : ¬ path.text.any isSurrogate = true := by
  intro hany
  obtain ⟨c, hc, hs⟩ := List.any_eq_true.1 hany
  obtain rfl | ⟨component, hmem, hin⟩ := path.mem_text hc
  · exact absurd hs (by decide)
  · rw [(path.valid component hmem).no_surrogate c hin] at hs
    exact Bool.false_ne_true hs

theorem RelPath.no_drive_text (path : RelPath) : hasDrivePrefix path.text = false := by
  have hcolon : colon ∉ path.text :=
    path.text_avoids (by decide) fun _ h => h.no_colon
  match htext : path.text with
  | [] => rfl
  | [_] => rfl
  | letter :: d :: rest =>
      have hd : d ≠ colon := by
        rintro rfl
        exact hcolon (by simp [htext])
      simp [hasDrivePrefix, hd]

theorem RelPath.no_device_text (path : RelPath) :
    devicePrefixes.any
      (fun device => device.isPrefixOf (path.text.flatMap Unicode.upper)) = false := by
  obtain ⟨c, rest, htext, hc⟩ := path.head_text
  obtain ⟨u, us, hu⟩ := List.exists_cons_of_ne_nil (Unicode.upper_ne_nil c)
  have hne : backslash ≠ u := by
    rintro rfl
    exact hc (Unicode.eq_backslash_of_upper c (by rw [hu]; exact List.mem_cons_self))
  have hhead : ∀ device ∈ devicePrefixes, device.head? = some backslash := by decide
  rw [htext, List.flatMap_cons, hu, List.cons_append, List.any_eq_false]
  intro device hmem
  cases device with
  | nil => exact absurd (hhead [] hmem) (by simp)
  | cons d tail =>
      obtain rfl : d = backslash := by simpa using hhead _ hmem
      simp [List.isPrefixOf, hne]

/-- Round trip: the canonical text of a path validates to that path. -/
theorem validate_text (path : RelPath) : validateRelativePath path.text = .ok path := by
  cases hres : validateRelativePath path.text with
  | ok other => rw [path.text_inj ((text_of_validate hres).trans path.canonicalText_text).symm]
  | error error =>
      exfalso
      obtain ⟨c, rest, htext, hc⟩ := path.head_text
      have hcanon := path.canonicalText_text
      have hhead : path.text.head? ≠ some backslash := by
        rw [htext]
        simpa using hc
      have hsplit : (canonicalText path.text).splitOn backslash = path.components := by
        rw [hcanon]
        exact Separated.splitOn_join path.ne_nil path.no_backslash
      unfold validateRelativePath at hres
      rw [dif_neg (path.text_avoids (by decide) fun _ h => h.no_nul),
        dif_neg path.no_surrogate_text, if_neg (by simp [htext]),
        if_neg (by rw [hcanon, path.no_drive_text]; simpa using hhead),
        if_neg (by rw [hcanon, path.no_device_text]; exact Bool.false_ne_true)] at hres
      split at hres
      · next found hloop =>
          obtain ⟨component, hmem, herr⟩ := List.exists_of_findSome?_eq_some hloop
          rw [hsplit] at hmem
          rw [(path.valid component hmem).no_error] at herr
          exact absurd herr (by simp)
      · exact absurd hres (by simp)

/-! ## Keys -/

/-- `normalize_relative_path`: the Windows comparison key. -/
def normalizeRelativePath (path : RelPath) : Str := uppercaseOneCodepoint path.text

namespace RelPath

/-- The `rel_path_key` of a record at `path`. -/
abbrev key (path : RelPath) : Str := normalizeRelativePath path

/-- The keys of the components. -/
def keyParts (path : RelPath) : List Str := path.components.map uppercaseOneCodepoint

theorem keyParts_ne_nil (path : RelPath) : path.keyParts ≠ [] := by
  simpa [keyParts] using path.ne_nil

theorem keyParts_no_backslash (path : RelPath) : ∀ part ∈ path.keyParts, backslash ∉ part := by
  intro part hpart
  obtain ⟨component, hmem, rfl⟩ := List.mem_map.1 hpart
  rw [backslash_mem_uppercase]
  exact path.no_backslash component hmem

/-- A separator stays a separator under casing, and nothing becomes one. -/
theorem key_eq_join (path : RelPath) : path.key = Separated.join backslash path.keyParts := by
  have h : Separated.join (upperOne backslash) path.keyParts = path.key :=
    Separated.join_map upperOne
  rw [upperOne_backslash] at h
  exact h.symm

theorem key_eq_iff {p q : RelPath} : p.key = q.key ↔ p.keyParts = q.keyParts := by
  constructor
  · intro h
    rw [key_eq_join, key_eq_join] at h
    exact Separated.join_inj p.keyParts_ne_nil q.keyParts_ne_nil p.keyParts_no_backslash
      q.keyParts_no_backslash h
  · intro h
    rw [key_eq_join, key_eq_join, h]

/-- `len(PureWindowsPath(path).parts)`. -/
def depth (path : RelPath) : Nat := path.components.length

theorem depth_eq_of_key {p q : RelPath} (h : p.key = q.key) : p.depth = q.depth := by
  have hlen := congrArg List.length (key_eq_iff.1 h)
  simpa [keyParts, depth] using hlen

/-- `PureWindowsPath(path).name`. -/
def name (path : RelPath) : Str := path.components.getLast path.ne_nil

theorem isComponent_name (path : RelPath) : IsComponent path.name :=
  path.valid _ (List.getLast_mem _)

/-- The first `n + 1` components. -/
def upTo (path : RelPath) (n : Nat) : RelPath where
  components := path.components.take (n + 1)
  ne_nil := by
    have h := path.ne_nil
    simpa [List.take_eq_nil_iff] using h
  valid := fun c hc => path.valid c (List.mem_of_mem_take hc)

/-- `_parent`: `None` at the first level. -/
def parent (path : RelPath) : Option RelPath :=
  match path.depth with
  | 0 | 1 => none
  | n + 2 => some (path.upTo n)

/-- The parents of a path, nearest first. -/
def parents (path : RelPath) : List RelPath :=
  ((List.range (path.depth - 1)).reverse).map path.upTo

theorem depth_pos (path : RelPath) : 0 < path.depth := List.length_pos_iff.2 path.ne_nil

theorem depth_upTo {path : RelPath} {n : Nat} (h : n < path.depth) :
    (path.upTo n).depth = n + 1 := by
  have : (path.components.take (n + 1)).length = n + 1 := by
    rw [List.length_take]
    exact Nat.min_eq_left h
  exact this

theorem upTo_upTo {path : RelPath} {m n : Nat} (h : m ≤ n) :
    (path.upTo n).upTo m = path.upTo m := by
  apply ext
  simp only [upTo, List.take_take]
  congr 1
  omega

/-- `parents` is the loop that follows `_parent` until it is `None`. -/
theorem parents_eq (path : RelPath) :
    path.parents =
      match path.parent with
      | none => []
      | some parent => parent :: parent.parents := by
  obtain ⟨n, hn⟩ : ∃ n, path.depth = n + 1 := ⟨path.depth - 1, by have := path.depth_pos; omega⟩
  cases n with
  | zero => simp [parents, parent, hn]
  | succ n =>
      have hdepth : (path.upTo n).depth = n + 1 := depth_upTo (by omega)
      simp only [parents, parent, hn, hdepth, Nat.add_sub_cancel, List.range_succ,
        List.reverse_append, List.reverse_singleton, List.singleton_append, List.map_cons,
        List.cons.injEq, true_and]
      apply List.map_congr_left
      intro m hm
      have hlt : m < n := by simpa using hm
      exact (upTo_upTo (by omega)).symm

theorem parents_trans {p q r : RelPath} (hq : q ∈ p.parents) (hr : r ∈ q.parents) :
    r ∈ p.parents := by
  obtain ⟨m, hm, rfl⟩ := List.mem_map.1 hq
  obtain ⟨n, hn, rfl⟩ := List.mem_map.1 hr
  simp only [List.mem_reverse, List.mem_range] at hm hn
  rw [depth_upTo (by omega)] at hn
  refine List.mem_map.2 ⟨n, ?_, (upTo_upTo (by omega)).symm⟩
  rw [List.mem_reverse, List.mem_range]
  omega

theorem key_upTo {p q : RelPath} (h : p.key = q.key) (n : Nat) :
    (p.upTo n).key = (q.upTo n).key := by
  rw [key_eq_iff] at h ⊢
  have := congrArg (List.take (n + 1)) h
  simpa only [keyParts, upTo, List.map_take] using this

/-- Paths with one key have the same chain of parent keys. -/
theorem map_key_parents {p q : RelPath} (h : p.key = q.key) :
    p.parents.map key = q.parents.map key := by
  simp only [parents, List.map_map, depth_eq_of_key h]
  apply List.map_congr_left
  intro n _
  exact key_upTo h n

theorem key_name {p q : RelPath} (h : p.key = q.key) :
    uppercaseOneCodepoint p.name = uppercaseOneCodepoint q.name := by
  have hparts := key_eq_iff.1 h
  have hlast (r : RelPath) :
      r.keyParts.getLast r.keyParts_ne_nil = uppercaseOneCodepoint r.name := by
    simp [keyParts, name]
  rw [← hlast, ← hlast]
  congr 1

/-- `str(PureWindowsPath(path).parent / PureWindowsPath(other).name)`. -/
def withName (path other : RelPath) : RelPath where
  components := path.components.dropLast ++ [other.name]
  ne_nil := by simp
  valid := by
    intro c hc
    rcases List.mem_append.1 hc with hc | hc
    · exact path.valid c (List.dropLast_subset _ hc)
    · rw [List.mem_singleton.1 hc]
      exact other.isComponent_name

/-- A name in another case leaves the key as it is. -/
theorem key_withName {path other : RelPath} (h : other.key = path.key) :
    (path.withName other).key = path.key := by
  have hname : uppercaseOneCodepoint other.name = uppercaseOneCodepoint path.name := key_name h
  rw [key_eq_iff]
  calc (path.withName other).keyParts
      = path.components.dropLast.map uppercaseOneCodepoint ++
          [uppercaseOneCodepoint other.name] := by simp [keyParts, withName]
    _ = (path.components.dropLast ++ [path.name]).map uppercaseOneCodepoint := by
        rw [hname, List.map_append, List.map_singleton]
    _ = path.keyParts := by rw [name, List.dropLast_append_getLast, keyParts]

end RelPath

/-- `_is_descendant`, on keys. -/
def isBelow (pathKey directoryKey : Str) : Bool := (directoryKey ++ [backslash]).isPrefixOf pathKey

/-- `_same_or_descendant`, on keys. -/
def sameOrDescendant (path ancestor : Str) : Bool := path = ancestor || isBelow path ancestor

omit [Unicode] in
@[simp] theorem sameOrDescendant_self (path : Str) : sameOrDescendant path path = true := by
  simp [sameOrDescendant]

/-- `isBelow` is about components: the directory's key parts are a proper
prefix of the path's. -/
theorem isBelow_iff {p q : RelPath} :
    isBelow p.key q.key = true ↔ ∃ rest, rest ≠ [] ∧ p.keyParts = q.keyParts ++ rest := by
  rw [isBelow, List.isPrefixOf_iff_prefix, RelPath.key_eq_join, RelPath.key_eq_join]
  exact Separated.join_prefix_iff q.keyParts_ne_nil q.keyParts_no_backslash p.keyParts_no_backslash

theorem RelPath.keyParts_upTo (path : RelPath) (n : Nat) :
    (path.upTo n).keyParts = path.keyParts.take (n + 1) := by
  simp only [keyParts, upTo, List.map_take]

/-- A parent is above the path. -/
theorem RelPath.isBelow_parent {path parent : RelPath} (h : parent ∈ path.parents) :
    isBelow path.key parent.key = true := by
  obtain ⟨n, hn, rfl⟩ := List.mem_map.1 h
  rw [List.mem_reverse, List.mem_range] at hn
  refine isBelow_iff.2 ⟨path.keyParts.drop (n + 1), ?_, ?_⟩
  · intro hnil
    have hlen : path.keyParts.length = path.depth := by simp [keyParts, depth]
    rw [List.drop_eq_nil_iff, hlen] at hnil
    omega
  · rw [keyParts_upTo, List.take_append_drop]

/-- What is below a directory has it, or another spelling of it, for a parent. -/
theorem RelPath.parent_of_isBelow {path directory : RelPath}
    (h : isBelow path.key directory.key = true) :
    ∃ parent ∈ path.parents, parent.key = directory.key := by
  obtain ⟨rest, hrest, hparts⟩ := isBelow_iff.1 h
  have hlen : path.depth = directory.depth + rest.length := by
    have hlength := congrArg List.length hparts
    simpa [keyParts, depth] using hlength
  have hpos := List.length_pos_iff.2 hrest
  have hdepth := directory.depth_pos
  refine ⟨path.upTo (directory.depth - 1), List.mem_map.2 ⟨directory.depth - 1, ?_, rfl⟩, ?_⟩
  · rw [List.mem_reverse, List.mem_range]
    omega
  · have hkeys : directory.keyParts.length = directory.depth := by simp [keyParts, depth]
    rw [key_eq_iff, keyParts_upTo, hparts, Nat.sub_add_cancel hdepth, ← hkeys, List.take_left]

end Validation

/-! ## Absolute paths -/

/-- The `os.path` functions, which depend on the platform; `commonpath` is
`none` where it raises `ValueError`. -/
class OsPath where
  abspath : Str → Str
  normcase : Str → Str
  commonpath : Str → Str → Option Str
  join : Str → List Str → Str

/-- The components two lists start with. -/
def commonPrefix : List Str → List Str → List Str
  | x :: xs, y :: ys => if x = y then x :: commonPrefix xs ys else []
  | _, _ => []

/-- `os.path` on absolute Windows paths in normal form, below one drive and
in one casing. -/
@[reducible] def normalOsPath : OsPath where
  abspath path := path
  normcase path := path.map fun c => if 0x41 ≤ c ∧ c ≤ 0x5A then c + 0x20 else c
  commonpath first second :=
    some (Separated.join backslash
      (commonPrefix (first.splitOn backslash) (second.splitOn backslash)))
  join root components := Separated.join backslash (root :: components)

section Absolute

variable [OsPath]

/-- `is_path_below`. -/
def isPathBelow (candidate root : Str) : Bool :=
  match OsPath.commonpath (OsPath.abspath candidate) (OsPath.abspath root) with
  | none => false
  | some common => OsPath.normcase common = OsPath.normcase (OsPath.abspath root)

/-- `join_under_root` of a validated path; `none` is the
`PathValidationError` of a path that escapes. -/
def joinUnderRoot [Unicode] (root : Str) (path : RelPath) : Option Str :=
  let candidate := OsPath.abspath (OsPath.join root path.components)
  if isPathBelow candidate root then some candidate else none

end Absolute

end NamiSync
