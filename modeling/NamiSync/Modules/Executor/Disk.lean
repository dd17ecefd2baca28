/-
# `Modules.Executor.Disk` — one tree, as the executor's primitives change it

What `os.rename`, `os.link`, `os.mkdir` and the rest do to the tree below a
root: names over shared nodes, looked up regardless of case, with times,
attributes and link counts as `os.stat` reports them.  A primitive that the
operating system would refuse (an occupied destination, a readonly file, a
directory that is not empty) raises; whatever else can go wrong is up to the
environment.

## The model

A tree is a `Lib.FileStore`: a finite store of names over nodes, keyed by the
components of a path folded as Windows folds them, so `a` and `A` are one
place with one spelling.  Two names of one node are two hard links.  Bytes
are written to the node, so every name sees them, also while a temp is half
written: nothing below gives a file its content in one step.

## What is not here

Reparse points, alternate streams, access rights and open handles.  A
primitive that fails for one of these reasons is a failure of the
environment, which `Lib.Faulty` may inject at every call.
-/
import Mathlib.Data.List.TakeWhile
import NamiSync.Core.Attestation
import NamiSync.Core.Execution
import NamiSync.Core.Session
import NamiSync.Lib.FileStore
import NamiSync.Modules.Guards

namespace NamiSync

namespace Executor

open FileStore

/-- What the executor and its collaborators raise.  A failure carries the
`winerror` that `_find_winerror` would find behind it; an interrupt is a
`BaseException` that is no `Exception`. -/
inductive Error
  | signal (signal : Signal)
  | failure (reason : ExecutionReason) (detail : Str) (winerror : Option Nat)
  | unsafePath (text : Str)
  | fileExists (text : Str)
  | fileNotFound (text : Str)
  | os (text : Str) (winerror : Option Nat)
  | other (typeName text : Str)
  | interrupt

namespace Error

/-- `_find_winerror`. -/
def winerror : Error → Option Nat
  | failure _ _ code | os _ code => code
  | fileExists _ => some 183
  | fileNotFound _ => some 2
  | _ => none

/-- `isinstance(error, Exception)`. -/
def isException : Error → Bool
  | interrupt => false
  | _ => true

/-- `isinstance(error, (Canceled, PauseRequested))`. -/
def isSignal : Error → Bool
  | signal _ => true
  | _ => false

/-- `str(error)`. -/
def text : Error → Str
  | failure _ text _ | unsafePath text | fileExists text | fileNotFound text | os text _
  | other _ text => text
  | _ => []

/-- `type(error).__name__`. -/
def typeName : Error → Str
  | signal .canceled => str "Canceled"
  | signal .pauseRequested => str "PauseRequested"
  | failure .. => str "OperationFailure"
  | unsafePath _ => str "UnsafeExecutionPath"
  | fileExists _ => str "FileExistsError"
  | fileNotFound _ => str "FileNotFoundError"
  | os .. => str "OSError"
  | other name _ => name
  | interrupt => str "KeyboardInterrupt"

end Error

/-- What the machine below the program decides: the clocks at their `n`-th
reading, how a volume keeps a modification time, and the attributes of what
it creates. -/
class Host where
  fileTime : Nat → Nat
  storedTime : Nat → Nat
  fileAttributes : Nat
  directoryAttributes : Nat
  monotonic : Nat → Nat
  utcNow : Nat → Utc

/-- `_READONLY`. -/
abbrev readonly : Nat := 1

/-- `_STANDARD_ATTRIBUTE_MASK`. -/
abbrev standardAttributeMask : Nat := 7

/-- The metadata of a node. -/
structure Info where
  mtimeNs : Nat
  attributes : Nat
  createdNs : Option Nat
  deriving DecidableEq

def Info.isReadonly (info : Info) : Bool := info.attributes &&& readonly ≠ 0

/-- The tree below a root. -/
structure Disk where
  store : Store Str Str UInt8 Info
  serial : Str
  serial_ne : serial ≠ []

abbrev Sight := Look Str UInt8 Info

section Paths

variable [Unicode]

/-- Where a path is looked up. -/
abbrev loc (path : RelPath) : List Str := path.keyParts

/-- `.synctmp-<run id>-<operation id>`. -/
def tempSuffix (runId : RunId) (opId : OpId) : Str :=
  str ".synctmp-" ++ hexDigits 32 runId ++ str "-" ++ opId.text

omit [Unicode] in
theorem takeWhile_append_dot (stem rest : Str) :
    (stem ++ dot :: rest).takeWhile (· ≠ dot) = stem.takeWhile (· ≠ dot) := by
  induction stem with
  | nil => simp
  | cons c stem ih =>
      rw [List.cons_append, List.takeWhile_cons, List.takeWhile_cons, ih]

omit [Unicode] in
/-- What a code point of a temp suffix is. -/
theorem mem_tempSuffix {runId : RunId} {opId : OpId} {c : CodePoint}
    (h : c ∈ tempSuffix runId opId) :
    c = dot ∨ c = 0x2D ∨ (0x30 ≤ c.val ∧ c.val < 0x3A) ∨ (0x61 ≤ c.val ∧ c.val < 0x7A) := by
  have hall : (str ".synctmp-").all (fun c => decide (c = dot ∨ c = 0x2D ∨
      (0x30 ≤ c.val ∧ c.val < 0x3A) ∨ (0x61 ≤ c.val ∧ c.val < 0x7A))) = true := by decide
  rcases List.mem_append.1 h with h | h
  · rcases List.mem_append.1 h with h | h
    · rcases List.mem_append.1 h with h | h
      · exact of_decide_eq_true (List.all_eq_true.1 hall c h)
      · have := hexDigits_lower h
        omega
    · exact Or.inr (Or.inl (List.mem_singleton.1 h))
  · have := hexDigits_lower h
    omega

theorem isComponent_temp {name : Str} (h : IsComponent name) (runId : RunId) (opId : OpId) :
    IsComponent (name ++ tempSuffix runId opId) := by
  have hchar {c : CodePoint} (hc : c ∈ tempSuffix runId opId) := mem_tempSuffix hc
  -- None of the characters that a check looks for is in the suffix.
  have hnot {c : CodePoint} (hc : c ≠ dot ∧ c ≠ 0x2D ∧
      ¬ (0x30 ≤ c.val ∧ c.val < 0x3A) ∧ ¬ (0x61 ≤ c.val ∧ c.val < 0x7A)) (hname : c ∉ name) :
      c ∉ name ++ tempSuffix runId opId := by
    intro hmem
    rcases List.mem_append.1 hmem with hmem | hmem
    · exact hname hmem
    · have := hchar hmem
      tauto
  have hcons : tempSuffix runId opId =
      dot :: (str "synctmp-" ++ hexDigits 32 runId ++ str "-" ++ opId.text) := rfl
  -- The name ends in a digit of the id, so in neither a space nor a dot.
  have hlast : ∀ c, (name ++ tempSuffix runId opId).getLast? = some c →
      (0x30 ≤ c.val ∧ c.val < 0x3A) ∨ (0x61 ≤ c.val ∧ c.val < 0x67) := by
    intro c hc
    have hne : opId.text ≠ [] := by
      intro hnil
      have hlen := hexDigits_length 32 opId
      rw [show hexDigits 32 opId = [] from hnil] at hlen
      exact absurd hlen (by decide)
    rw [tempSuffix, List.getLast?_append, List.getLast?_append,
      List.getLast?_eq_some_getLast hne, Option.some_or, Option.some_or] at hc
    obtain rfl := Option.some.inj hc
    exact hexDigits_lower (List.getLast_mem hne)
  exact
    { no_error := by
        have herr := h.no_error
        unfold componentError at herr ⊢
        have hcolon : colon ∉ name ++ tempSuffix runId opId :=
          hnot (by decide) h.no_colon
        -- It is longer than any of the short names that are refused.
        have hlong : ¬ (name ++ tempSuffix runId opId = [] ∨ name ++ tempSuffix runId opId = [dot] ∨
            name ++ tempSuffix runId opId = [dot, dot]) := by
          intro hshort
          have hlen : 70 < (name ++ tempSuffix runId opId).length := by
            simp only [tempSuffix, OpId.text, List.length_append, hexDigits_length]
            show 70 < name.length + (9 + 32 + 1 + 32)
            omega
          rcases hshort with hshort | hshort | hshort <;>
            · rw [hshort] at hlen
              exact absurd hlen (by decide)
        have hsuffix : ¬ ((name ++ tempSuffix runId opId).getLast? = some space ∨
            (name ++ tempSuffix runId opId).getLast? = some dot) := by
          rintro (hend | hend)
          · exact absurd (hlast _ hend) (by decide)
          · exact absurd (hlast _ hend) (by decide)
        rw [if_neg hlong, if_neg hcolon, if_neg hsuffix, hcons, takeWhile_append_dot]
        split at herr
        · exact absurd herr (by simp)
        · split at herr
          · exact absurd herr (by simp)
          · split at herr
            · exact absurd herr (by simp)
            · exact herr
      no_nul := hnot (by decide) h.no_nul
      no_surrogate := by
        intro c hc
        rcases List.mem_append.1 hc with hc | hc
        · exact h.no_surrogate c hc
        · have hlow : c.val < 0x7A := by
            rcases hchar hc with rfl | rfl | hc | hc
            · decide
            · decide
            · omega
            · omega
          have : ¬ (0xD800 ≤ c) := by
            intro hle
            have : 0xD800 ≤ c.val := hle
            omega
          simp [isSurrogate, this]
      no_slash := hnot (by decide) h.no_slash
      no_backslash := hnot (by decide) h.no_backslash }

/-- `owned_temp`: run and operation ids are 32 lowercase hexadecimal digits by their types. -/
def ownedTemp (target : RelPath) (runId : RunId) (opId : OpId) : RelPath where
  components := target.components.dropLast ++ [target.name ++ tempSuffix runId opId]
  ne_nil := by simp
  valid := by
    intro c hc
    rcases List.mem_append.1 hc with hc | hc
    · exact target.valid c (List.dropLast_subset _ hc)
    · rw [List.mem_singleton.1 hc]
      exact isComponent_temp target.isComponent_name runId opId

theorem isComponent_syncTrash : IsComponent (str ".synctrash") where
  no_error := by
    have hstem : (str ".synctrash").takeWhile (· ≠ dot) = [] := by decide
    have hdevice : uppercaseOneCodepoint [] ∉ reservedBasenames := by
      show [] ∉ reservedBasenames
      decide
    unfold componentError
    rw [if_neg (by decide), if_neg (by decide), if_neg (by decide), hstem, if_neg hdevice]
  no_nul := by decide
  no_surrogate c hc := by
    have hall : (str ".synctrash").all (isSurrogate · = false) = true := by decide
    exact of_decide_eq_true (List.all_eq_true.1 hall c hc)
  no_slash := by decide
  no_backslash := by decide

theorem isComponent_hexDigits {width : Nat} (hwidth : 5 ≤ width) (n : Nat) :
    IsComponent (hexDigits width n) := by
  have hlen := hexDigits_length width n
  have hchar {c : CodePoint} (hc : c ∈ hexDigits width n) := hexDigits_lower hc
  have hnot {c : CodePoint}
      (hc : ¬ (0x30 ≤ c.val ∧ c.val < 0x3A) ∧ ¬ (0x61 ≤ c.val ∧ c.val < 0x67)) :
      c ∉ hexDigits width n := by
    intro hmem
    have := hchar hmem
    tauto
  have hdot : dot ∉ hexDigits width n := hnot (by decide)
  have hstem : (hexDigits width n).takeWhile (· ≠ dot) = hexDigits width n := by
    refine List.takeWhile_eq_self_iff.2 fun c hc => ?_
    rw [decide_eq_true_eq]
    rintro rfl
    exact hdot hc
  exact
    { no_error := by
        have hlong : ¬ (hexDigits width n = [] ∨ hexDigits width n = [dot] ∨
            hexDigits width n = [dot, dot]) := by
          rintro (h | h | h) <;>
            · rw [h] at hlen
              simp only [List.length_nil, List.length_cons] at hlen
              omega
        have hsuffix : ¬ ((hexDigits width n).getLast? = some space ∨
            (hexDigits width n).getLast? = some dot) := by
          rintro (h | h)
          · exact absurd (hchar (List.mem_of_getLast? h)) (by decide)
          · exact absurd (hchar (List.mem_of_getLast? h)) (by decide)
        have hdevice : uppercaseOneCodepoint (hexDigits width n) ∉ reservedBasenames := by
          intro hmem
          have hshort : reservedBasenames.all (fun name => decide (name.length < 5)) = true := by
            decide
          have := of_decide_eq_true (List.all_eq_true.1 hshort _ hmem)
          rw [uppercaseOneCodepoint, List.length_map, hlen] at this
          omega
        unfold componentError
        rw [if_neg hlong, if_neg (hnot (by decide)), if_neg hsuffix, hstem, if_neg hdevice]
      no_nul := hnot (by decide)
      no_surrogate := by
        intro c hc
        have hlow := hchar hc
        have : ¬ (0xD800 ≤ c) := by
          intro hle
          have : 0xD800 ≤ c.val := hle
          omega
        simp [isSurrogate, this]
      no_slash := hnot (by decide)
      no_backslash := hnot (by decide) }

/-- The path that `trash_destination` answers. -/
def trashPath (runId : RunId) (path : RelPath) : RelPath where
  components := str ".synctrash" :: hexDigits 32 runId :: path.components
  ne_nil := by simp
  valid := by
    intro c hc
    rcases List.mem_cons.1 hc with heq | hc
    · rw [heq]
      exact isComponent_syncTrash
    · rcases List.mem_cons.1 hc with heq | hc
      · rw [heq]
        exact isComponent_hexDigits (by decide) _
      · exact path.valid c hc

/-- `Path(root, *relative.parts)`. -/
def absolute (root : Root) (path : RelPath) : Str := root.path ++ [backslash] ++ path.text

end Paths

namespace Disk

variable (disk : Disk)

/-- What is at a place; the root itself is not an entry. -/
abbrev look (place : List Str) : Option Sight := disk.store.look place

/-- `os.stat`. -/
def statOf (sight : Sight) : FileStat where
  kind := if sight.isDirectory then .directory else .file
  size := if sight.isDirectory then 0 else sight.content.length
  mtimeNs := sight.info.mtimeNs
  fileIdentity := some ⟨disk.serial, sight.node, disk.serial_ne⟩
  nlink := sight.others + 1
  metadata := ⟨sight.info.attributes, sight.info.createdNs⟩
  nlink_pos := Nat.succ_pos _

def isFolder (place : List Str) : Bool := place = [] || (disk.look place).any (·.isDirectory)

/-- The folder in which entries come and go is modified. -/
def touch (place : List Str) (now : Nat) : Disk :=
  match disk.look place with
  | some sight =>
      if sight.isDirectory then
        { disk with
          store := disk.store.amend sight.node fun node =>
            { node with info := { node.info with mtimeNs := now } } }
      else disk
  | none => disk

variable [Unicode]

/-- `fs.stat(root, path)`, where nothing is a reparse point. -/
def stat (path : RelPath) : Option FileStat := (disk.look (loc path)).map disk.statOf

/-- `path.open("xb")` and `os.mkdir`. -/
def create (isDirectory : Bool) (attributes now : Nat) (path : RelPath) : Except Error Disk :=
  if (disk.look (loc path)).isSome then .error (.fileExists path.text)
  else if !disk.isFolder (loc path).dropLast then .error (.fileNotFound path.text)
  else
    .ok ({ disk with
      store := disk.store.alloc (loc path) path.name
        ⟨isDirectory, [], ⟨now, attributes, some now⟩⟩ }.touch (loc path).dropLast now)

/-- Write to the end of a file. -/
def write (bytes : List UInt8) (now : Nat) (path : RelPath) : Except Error Disk :=
  match disk.look (loc path) with
  | none => .error (.fileNotFound path.text)
  | some sight =>
      if sight.isDirectory then .error (.os path.text (some 5))
      else
        .ok { disk with
          store := disk.store.amend sight.node fun node =>
            { node with
              content := node.content ++ bytes
              info := { node.info with mtimeNs := now } } }

/-- Change the metadata of what is at a path. -/
def amendInfo (f : Info → Info) (path : RelPath) : Except Error Disk :=
  match disk.look (loc path) with
  | none => .error (.fileNotFound path.text)
  | some sight =>
      .ok { disk with
        store := disk.store.amend sight.node fun node => { node with info := f node.info } }

/-- `os.rename`: on Windows it never replaces anything. -/
def rename (now : Nat) (source target : RelPath) : Except Error Disk :=
  match disk.look (loc source) with
  | none => .error (.fileNotFound source.text)
  | some _ =>
      if !disk.isFolder (loc target).dropLast then .error (.fileNotFound target.text)
      else if disk.store.Vacant (loc source) (loc target) then
        .ok (({ disk with store := disk.store.rename (loc source) (loc target) target.name }.touch
          (loc source).dropLast now).touch (loc target).dropLast now)
      else .error (.fileExists target.text)

/-- `os.unlink`. -/
def unlink (now : Nat) (path : RelPath) : Except Error Disk :=
  match disk.look (loc path) with
  | none => .error (.fileNotFound path.text)
  | some sight =>
      if sight.isDirectory || sight.info.isReadonly then .error (.os path.text (some 5))
      else
        .ok ({ disk with store := disk.store.unlink (loc path) }.touch (loc path).dropLast now)

/-- `os.replace` of a file: a readonly file or a directory is not replaced. -/
def replace (now : Nat) (source target : RelPath) : Except Error Disk :=
  if loc source = loc target ∨ (disk.look (loc target)).isNone then disk.rename now source target
  else
    match disk.look (loc source) with
    | none => .error (.fileNotFound source.text)
    | some sight =>
        if sight.isDirectory then .error (.os source.text (some 5))
        else
          match disk.unlink now target with
          | .error error => .error error
          | .ok cleared => cleared.rename now source target

/-- `os.link` of a file. -/
def link (now : Nat) (source target : RelPath) : Except Error Disk :=
  match disk.look (loc source) with
  | none => .error (.fileNotFound source.text)
  | some sight =>
      if sight.isDirectory then .error (.os source.text (some 5))
      else if (disk.look (loc target)).isSome then .error (.fileExists target.text)
      else if !disk.isFolder (loc target).dropLast then .error (.fileNotFound target.text)
      else
        .ok ({ disk with store := disk.store.link (loc source) (loc target) target.name }.touch
          (loc target).dropLast now)

/-- Nothing is below a place. -/
def isEmpty (place : List Str) : Bool :=
  disk.store.entries.entries.all fun e => !(place <+: e.1 && e.1 ≠ place)

/-- `os.rmdir`. -/
def rmdir (now : Nat) (path : RelPath) : Except Error Disk :=
  match disk.look (loc path) with
  | none => .error (.fileNotFound path.text)
  | some sight =>
      if !sight.isDirectory then .error (.os path.text (some 267))
      else if sight.info.isReadonly then .error (.os path.text (some 5))
      else if !disk.isEmpty (loc path) then .error (.os path.text (some 145))
      else
        .ok ({ disk with store := disk.store.unlink (loc path) }.touch (loc path).dropLast now)

/-- `remove_owned_temp`: a temp that is not there is no error. -/
def removeOwnedTemp (now : Nat) (path : RelPath) : Except Error Disk :=
  match disk.look (loc path) with
  | none => .ok disk
  | some _ => disk.unlink now path

end Disk

end Executor

end NamiSync
