/-
# `Modules.ScanCoverage` — what a complete scan has seen

A scan that still says `complete` has met every entry of the tree that is
not behind an ignored directory, and recorded it as a file, a directory or
an unsupported entry.  The work list is handled by an invariant: every
directory recorded so far is either finished or still pending.

## What is proved

A complete scan covers the tree (`Covers`): every entry with no ignored
directory above it, and not ignored itself, is recorded with its path.  The
converse is `scan_tree` of `Modules.ScanTree`.

## The argument

An entry could be lost in three ways: its directory is never listed, the
listing breaks off, or the loop body records nothing.  The second and third
clear `complete` (`Extends` says that it never comes back).  For the first,
a directory that was recorded is finished or still pending; pending ones are
taken off until none is left, and the number of directories that a tree can
hold bounds the rounds (`Entry.weight`).  So at the end all are finished, and
an induction along the chain of names brings the entry in.
-/
import Mathlib.Data.List.Dedup
import NamiSync.Modules.Scanner

namespace NamiSync

variable [Unicode]

/-! ## Paths and names

The scanner joins a directory's path and a name.  The lemmas say which parents
the result has, so that an ignored directory above an entry can be spoken of. -/

namespace RelPath

theorem mem_parents {p q : RelPath} {rest : List Str} (hrest : rest ≠ [])
    (h : p.components = q.components ++ rest) : q ∈ p.parents := by
  have hdepth : q.depth < p.depth := by
    have := List.length_pos_iff.2 hrest
    simp only [depth, h, List.length_append]
    omega
  have hpos := q.depth_pos
  refine List.mem_map.2 ⟨q.depth - 1, by simp; omega, ?_⟩
  apply ext
  simp only [upTo, h, Nat.sub_add_cancel hpos]
  exact List.take_left' rfl

/-- A proper nonempty beginning of a path is one of its parents. -/
theorem exists_parent {p : RelPath} {names rest : List Str} (hnames : names ≠ [])
    (hrest : rest ≠ []) (h : p.components = names ++ rest) :
    ∃ q ∈ p.parents, q.components = names := by
  refine ⟨⟨names, hnames, ?_⟩, mem_parents hrest h, rfl⟩
  intro component hmem
  exact p.valid component (by rw [h]; exact List.mem_append_left _ hmem)

theorem parents_of_append {p q : RelPath} {name : Str} (h : p.components = q.components ++ [name]) :
    p.parents = q :: q.parents := by
  have hdepth : p.depth = q.depth + 1 := by simp [depth, h]
  obtain ⟨n, hn⟩ : ∃ n, q.depth = n + 1 := ⟨q.depth - 1, by have := q.depth_pos; omega⟩
  have hparent : p.parent = some q := by
    simp only [parent, hdepth, hn]
    congr 1
    apply ext
    simp only [upTo, h]
    exact List.take_left' hn
  rw [parents_eq, hparent]

theorem parents_of_singleton {p : RelPath} {name : Str} (h : p.components = [name]) :
    p.parents = [] := by
  simp [parents, depth, h]

end RelPath

/-- The components of a directory path; the root has none. -/
def RootedPath.components : RootedPath → List Str
  | none => []
  | some path => path.components

/-- Without separators in the name, the scanner's candidate is the child's
path. -/
theorem components_of_candidate {directory : RootedPath} {name : Str} {path : RelPath}
    (hname : backslash ∉ name ∧ slash ∉ name)
    (h : validateRelativePath (candidatePath directory name) = .ok path) :
    path.components = directory.components ++ [name] := by
  have hcanon : canonicalText (candidatePath directory name) =
      Separated.join backslash (directory.components ++ [name]) := by
    have hsame : canonicalText name = name := by
      unfold canonicalText
      conv_rhs => rw [← List.map_id name]
      apply List.map_congr_left
      intro c hc
      rw [if_neg]
      · rfl
      · rintro rfl
        exact hname.2 hc
    cases directory with
    | none => simpa [candidatePath, RootedPath.components] using hsame
    | some directory =>
        rw [candidatePath, RootedPath.components, Separated.join_append directory.ne_nil (by simp),
          Separated.join_singleton]
        have htext := directory.canonicalText_text
        unfold canonicalText at hsame htext ⊢
        rw [List.map_append, List.map_cons, hsame, htext]
        rfl
  rw [components_of_validate h, hcanon]
  apply Separated.splitOn_join
  · simp
  · intro component hmem
    rcases List.mem_append.1 hmem with hmem | hmem
    · cases directory with
      | none => simp [RootedPath.components] at hmem
      | some directory => exact directory.no_backslash component hmem
    · rw [List.mem_singleton.1 hmem]
      exact hname.1

/-! ## The tree

A tree of the model has one entry under each list of names, as its listings
have no two entries of a name. -/

namespace Folder

variable {root : Folder} {names : List Str} {entry other : Entry}

omit [Unicode] in
theorem Has.ne_nil (h : root.Has names entry) : names ≠ [] := by
  cases h <;> simp

end Folder

namespace Tree

variable {tree : Tree} {names : List Str} {entry other : Entry}

omit [Unicode] in
theorem mem_unique {entries : List Entry} (h : IsListing entries) {a b : Entry}
    (ha : a ∈ entries) (hb : b ∈ entries) (hname : a.name = b.name) : a = b :=
  List.inj_on_of_nodup_map h.distinct ha hb hname

omit [Unicode] in
/-- A chain of names leads to one entry. -/
theorem has_unique (ha : tree.root.Has names entry) (hb : tree.root.Has names other) :
    entry = other := by
  induction ha generalizing other with
  | @top entry h =>
      generalize hnames : [entry.name] = chain at hb
      cases hb with
      | top hb => exact mem_unique tree.root_listing h hb (by simpa using hnames)
      | @inside before parent _ hparent hb =>
          have hne := hparent.ne_nil
          have hlen := congrArg List.length hnames
          have := List.length_pos_iff.2 hne
          simp only [List.length_append, List.length_singleton] at hlen
          omega
  | @inside before parent entry hparent h ih =>
      generalize hnames : before ++ [entry.name] = chain at hb
      cases hb with
      | @top _ hb =>
          have hlen := congrArg List.length hnames
          have := List.length_pos_iff.2 hparent.ne_nil
          simp only [List.length_append, List.length_singleton] at hlen
          omega
      | @inside before' parent' _ hparent' hb =>
          obtain ⟨rfl, hname⟩ := List.append_inj' hnames rfl
          obtain rfl := ih hparent'
          exact mem_unique (tree.listing _ _ hparent) h hb (by simpa using hname)

end Tree

/-! ## One entry

`Extends` is the order of the scanner's states: records are added, never taken
away, and a lost `complete` does not come back.  `EntryScan` lists what the body
of the loop does with an entry if `complete` survives it, which leaves the
faults out. -/

namespace ScanState

/-- Nothing recorded is lost, and `complete` never comes back. -/
structure Extends (before after : ScanState) : Prop where
  files : before.files ⊆ after.files
  directories : before.directories ⊆ after.directories
  unsupported : before.unsupported ⊆ after.unsupported
  complete : after.complete = true → before.complete = true

theorem Extends.refl (state : ScanState) : Extends state state :=
  ⟨fun _ h => h, fun _ h => h, fun _ h => h, id⟩

theorem Extends.trans {a b c : ScanState} (hab : Extends a b) (hbc : Extends b c) : Extends a c :=
  ⟨fun _ h => hbc.files (hab.files h), fun _ h => hbc.directories (hab.directories h),
    fun _ h => hbc.unsupported (hab.unsupported h), fun h => hab.complete (hbc.complete h)⟩

/-- The path is recorded as a directory. -/
def HasDirectory (state : ScanState) (path : RelPath) : Prop :=
  ∃ record ∈ state.directories, record.relPath = some path

/-- The path is recorded as a file or as unsupported. -/
def HasLeaf (state : ScanState) (path : RelPath) : Prop :=
  (∃ record ∈ state.files, record.relPath = path) ∨
    ∃ record ∈ state.unsupported, record.relPath = path

theorem HasDirectory.mono {a b : ScanState} {path : RelPath} (h : a.HasDirectory path)
    (hab : Extends a b) : b.HasDirectory path := by
  obtain ⟨record, hmem, hpath⟩ := h
  exact ⟨record, hab.directories hmem, hpath⟩

theorem HasLeaf.mono {a b : ScanState} {path : RelPath} (h : a.HasLeaf path)
    (hab : Extends a b) : b.HasLeaf path := by
  rcases h with ⟨record, hmem, hpath⟩ | ⟨record, hmem, hpath⟩
  · exact Or.inl ⟨record, hab.files hmem, hpath⟩
  · exact Or.inr ⟨record, hab.unsupported hmem, hpath⟩

end ScanState

/-- What the loop body does with an entry when the scan stays complete. -/
inductive EntryScan (ignores : IgnoreSet) (directory : RootedPath) (entry : Entry)
    (before after : ScanState) (children : Pending) : Prop
  | ignored (path : RelPath) (isDirectory : Bool)
      (hpath : path.components = directory.components ++ [entry.name])
      (hdir : entry.info.isDir = .ok isDirectory)
      (hout : ignores.excludes path isDirectory = true)
      (hafter : after = before) (hchildren : children = [])
  | directory (path : RelPath) (record : DirRecord)
      (hpath : path.components = directory.components ++ [entry.name])
      (hdir : entry.info.isDir = .ok true) (hin : ignores.excludes path true = false)
      (hfiles : after.files = before.files)
      (hdirectories : after.directories = before.directories ++ [record])
      (hrecord : record.relPath = some path)
      (hunsupported : after.unsupported = before.unsupported)
      (hcomplete : after.complete = before.complete)
      (hchildren : children = [(entry.folder, some path)])
  | file (path : RelPath) (record : FileRecord)
      (hpath : path.components = directory.components ++ [entry.name])
      (hdir : entry.info.isDir = .ok false) (hin : ignores.excludes path false = false)
      (hfiles : after.files = before.files ++ [record]) (hrecord : record.relPath = path)
      (hdirectories : after.directories = before.directories)
      (hunsupported : after.unsupported = before.unsupported)
      (hcomplete : after.complete = before.complete) (hchildren : children = [])
  | unsupported (path : RelPath) (record : UnsupportedRecord)
      (hpath : path.components = directory.components ++ [entry.name])
      (hdir : entry.info.isDir = .ok false) (hin : ignores.excludes path false = false)
      (hfiles : after.files = before.files)
      (hdirectories : after.directories = before.directories)
      (hunsupported : after.unsupported = before.unsupported ++ [record])
      (hrecord : record.relPath = path)
      (hcomplete : after.complete = before.complete) (hchildren : children = [])

section Extends

variable {before after : ScanState}

theorem ScanState.Extends.warn (h : before.Extends after) (code : ScanWarningCode)
    (relPath : Option RootedPath) (detail : Str) :
    before.Extends (after.warn code relPath detail) :=
  ⟨h.files, h.directories, h.unsupported, h.complete⟩

theorem ScanState.Extends.visit (h : before.Extends after) (identity : Option FileIdentity) :
    before.Extends (after.visit identity) :=
  ⟨h.files, h.directories, h.unsupported, h.complete⟩

theorem ScanState.Extends.incomplete (h : before.Extends after) :
    before.Extends after.incomplete :=
  ⟨h.files, h.directories, h.unsupported, fun hc => absurd hc Bool.false_ne_true⟩

theorem ScanState.Extends.addUnsupported (h : before.Extends after) (relPath : RelPath)
    (reason : UnsupportedReason) (kind : Option EntryKind) :
    before.Extends (after.addUnsupported relPath reason kind) :=
  ⟨h.files, h.directories, fun _ hr => List.mem_append_left _ (h.unsupported hr), h.complete⟩

theorem ScanState.Extends.addDirectory (h : before.Extends after) (relPath : RootedPath)
    (snapshot : FileStat) : before.Extends (after.addDirectory relPath snapshot) :=
  ⟨h.files, fun _ hr => List.mem_append_left _ (h.directories hr), h.unsupported, h.complete⟩

theorem ScanState.Extends.addFile (h : before.Extends after) (relPath : RelPath)
    (snapshot : FileStat) : before.Extends (after.addFile relPath snapshot) :=
  ⟨fun _ hr => List.mem_append_left _ (h.files hr), h.directories, h.unsupported, h.complete⟩

end Extends

theorem scanOrdinary_extends (volume : VolumeSnapshot) (entry : Entry) (path : RelPath)
    (isDirectory : Bool) (stat : StatResult) (state : ScanState) :
    state.Extends (scanOrdinary volume entry path isDirectory stat state).1 := by
  have hself := ScanState.Extends.refl state
  unfold scanOrdinary
  cases isDirectory with
  | true =>
      simp only [if_true]
      split
      · exact ((hself.addDirectory _ _).warn _ _ _).incomplete
      · exact (hself.addDirectory _ _).visit _
  | false =>
      simp only [Bool.false_eq_true, if_false]
      split
      · exact hself.addFile _ _
      · exact ((hself.addUnsupported _ _ _).warn _ _ _).incomplete
      · exact (((hself.warn _ _ _).addUnsupported _ _ _).warn _ _ _).incomplete

theorem scanEntry_extends (volume : VolumeSnapshot) (ignores : IgnoreSet) (directory : RootedPath)
    (entry : Entry) (state : ScanState) :
    state.Extends (scanEntry volume ignores directory entry state).1 := by
  have hself := ScanState.Extends.refl state
  cases hpath : validateRelativePath (candidatePath directory entry.name) with
  | error error =>
      simp only [scanEntry, hpath]
      exact (hself.warn _ _ _).incomplete
  | ok path =>
      cases hdir : entry.info.isDir with
      | error error =>
          simp only [scanEntry, hpath, hdir]
          exact ((hself.warn _ _ _).addUnsupported _ _ _).incomplete
      | ok isDirectory =>
          simp only [scanEntry, hpath, hdir]
          cases entryStat volume entry with
          | error error =>
              split
              · exact hself
              · exact ((hself.warn _ _ _).addUnsupported _ _ _).incomplete
          | ok stat =>
              split
              · exact hself
              · dsimp only
                have hmarked (reason : UnsupportedReason) (kind : EntryKind)
                    (code : ScanWarningCode) :
                    state.Extends ((state.addUnsupported path reason (some kind)).warn code
                      (some (some path)) []) :=
                  (hself.addUnsupported _ _ _).warn _ _ _
                split
                · cases isDirectory with
                  | true => exact (hmarked _ _ _).incomplete
                  | false => exact hmarked _ _ _
                · split
                  · cases isDirectory with
                    | true => exact (hmarked _ _ _).incomplete
                    | false => exact hmarked _ _ _
                  · exact scanOrdinary_extends ..

theorem scanOrdinary_cases {volume : VolumeSnapshot} {ignores : IgnoreSet}
    {directory : RootedPath} {entry : Entry} {state : ScanState} {path : RelPath}
    {isDirectory : Bool} {stat : StatResult}
    (hpath : path.components = directory.components ++ [entry.name])
    (hdir : entry.info.isDir = .ok isDirectory) (hin : ignores.excludes path isDirectory = false)
    (hcomplete : (scanOrdinary volume entry path isDirectory stat state).1.complete = true) :
    EntryScan ignores directory entry state
      (scanOrdinary volume entry path isDirectory stat state).1
      (scanOrdinary volume entry path isDirectory stat state).2 := by
  unfold scanOrdinary at hcomplete ⊢
  cases isDirectory with
  | true =>
      simp only [if_true] at hcomplete ⊢
      split at hcomplete
      · exact absurd hcomplete Bool.false_ne_true
      · next hnew =>
          rw [if_neg hnew]
          exact .directory path _ hpath hdir hin rfl rfl rfl rfl rfl rfl
  | false =>
      simp only [Bool.false_eq_true, if_false] at hcomplete ⊢
      cases hfile : entry.info.isFile with
      | error error =>
          rw [hfile] at hcomplete
          exact absurd hcomplete Bool.false_ne_true
      | ok isFile =>
          cases isFile with
          | true => exact .file path _ hpath hdir hin rfl rfl rfl rfl rfl rfl
          | false =>
              rw [hfile] at hcomplete
              exact absurd hcomplete Bool.false_ne_true

theorem scanEntry_cases {volume : VolumeSnapshot} {ignores : IgnoreSet} {directory : RootedPath}
    {entry : Entry} {state : ScanState} (hname : backslash ∉ entry.name ∧ slash ∉ entry.name)
    (hcomplete : (scanEntry volume ignores directory entry state).1.complete = true) :
    EntryScan ignores directory entry state (scanEntry volume ignores directory entry state).1
      (scanEntry volume ignores directory entry state).2 := by
  cases hpath : validateRelativePath (candidatePath directory entry.name) with
  | error error =>
      simp [scanEntry, hpath, ScanState.incomplete] at hcomplete
  | ok path =>
      have hcomp := components_of_candidate hname hpath
      cases hdir : entry.info.isDir with
      | error error => simp [scanEntry, hpath, hdir, ScanState.incomplete] at hcomplete
      | ok isDirectory =>
          cases hout : ignores.excludes path isDirectory with
          | true =>
              simp only [scanEntry, hpath, hdir, hout, if_true]
              exact .ignored path isDirectory hcomp hdir hout rfl rfl
          | false =>
              cases hstat : entryStat volume entry with
              | error error =>
                  simp [scanEntry, hpath, hdir, hout, hstat, ScanState.incomplete] at hcomplete
              | ok stat =>
                  simp only [scanEntry, hpath, hdir, hout, hstat, Bool.false_eq_true, if_false]
                    at hcomplete ⊢
                  split
                  · next hph =>
                      rw [if_pos hph] at hcomplete
                      cases isDirectory with
                      | true => exact absurd hcomplete Bool.false_ne_true
                      | false => exact .unsupported path _ hcomp hdir hout rfl rfl rfl rfl rfl rfl
                  · next hph =>
                      rw [if_neg hph] at hcomplete
                      split
                      · next hre =>
                          rw [if_pos hre] at hcomplete
                          cases isDirectory with
                          | true => exact absurd hcomplete Bool.false_ne_true
                          | false =>
                              exact .unsupported path _ hcomp hdir hout rfl rfl rfl rfl rfl rfl
                      · next hre =>
                          rw [if_neg hre] at hcomplete
                          exact scanOrdinary_cases hcomp hdir hout hcomplete

/-! ## One listing

The body composed over a listing.  Each entry is resolved, and the directories
among them that are not ignored are what is handed on. -/

/-- The scanner has dealt with an entry: it is ignored, or it is recorded
under the kind that `is_dir` gave it. -/
def Resolved (ignores : IgnoreSet) (state : ScanState) (path : RelPath) (entry : Entry) : Prop :=
  ∃ isDirectory, entry.info.isDir = .ok isDirectory ∧
    (ignores.excludes path isDirectory = true ∨
      (isDirectory = true ∧ state.HasDirectory path) ∨
      (isDirectory = false ∧ state.HasLeaf path))

theorem Resolved.mono {ignores : IgnoreSet} {a b : ScanState} {path : RelPath} {entry : Entry}
    (h : Resolved ignores a path entry) (hab : a.Extends b) : Resolved ignores b path entry := by
  obtain ⟨isDirectory, hdir, hout | ⟨htrue, hrec⟩ | ⟨hfalse, hrec⟩⟩ := h
  · exact ⟨isDirectory, hdir, Or.inl hout⟩
  · exact ⟨isDirectory, hdir, Or.inr (Or.inl ⟨htrue, hrec.mono hab⟩)⟩
  · exact ⟨isDirectory, hdir, Or.inr (Or.inr ⟨hfalse, hrec.mono hab⟩)⟩

/-- The whole folder is dealt with. -/
def FolderDone (ignores : IgnoreSet) (state : ScanState) (folder : Folder)
    (directory : RootedPath) : Prop :=
  ∀ entry ∈ folder.entries, ∀ path : RelPath,
    path.components = directory.components ++ [entry.name] → Resolved ignores state path entry

/-- A child directory handed to the work list. -/
def IsOpened (ignores : IgnoreSet) (directory : RootedPath) (entries : List Entry)
    (item : Folder × RootedPath) : Prop :=
  ∃ entry ∈ entries, ∃ path : RelPath, item = (entry.folder, some path) ∧
    path.components = directory.components ++ [entry.name] ∧ entry.info.isDir = .ok true ∧
    ignores.excludes path true = false

/-- What a complete pass over entries of one directory leaves. -/
structure ListingScan (ignores : IgnoreSet) (directory : RootedPath) (entries : List Entry)
    (before after : ScanState) (children : Pending) : Prop where
  ext : before.Extends after
  resolved : ∀ entry ∈ entries, ∀ path : RelPath,
    path.components = directory.components ++ [entry.name] → Resolved ignores after path entry
  files : ∀ record ∈ after.files, record ∈ before.files ∨
    ∃ entry ∈ entries, record.relPath.components = directory.components ++ [entry.name] ∧
      entry.info.isDir = .ok false
  directories : ∀ record ∈ after.directories, record ∈ before.directories ∨
    ∃ entry ∈ entries, ∃ path : RelPath, record.relPath = some path ∧
      path.components = directory.components ++ [entry.name] ∧ entry.info.isDir = .ok true ∧
      ignores.excludes path true = false ∧ (entry.folder, some path) ∈ children
  children : ∀ item ∈ children, IsOpened ignores directory entries item

theorem EntryScan.listing {ignores : IgnoreSet} {directory : RootedPath} {entry : Entry}
    {before after : ScanState} {children : Pending} (hext : before.Extends after)
    (h : EntryScan ignores directory entry before after children) :
    ListingScan ignores directory [entry] before after children := by
  -- Two paths with these components are the same path.
  have hsame {p q : RelPath} (hp : p.components = directory.components ++ [entry.name])
      (hq : q.components = directory.components ++ [entry.name]) : p = q :=
    RelPath.ext (hp.trans hq.symm)
  refine { ext := hext, resolved := ?_, files := ?_, directories := ?_, children := ?_ }
  · intro other hother path hpath
    obtain rfl := List.mem_singleton.1 hother
    cases h with
    | ignored p d hp hdir hout _ _ => exact ⟨d, hdir, Or.inl (hsame hpath hp ▸ hout)⟩
    | directory p record hp hdir _ _ hdirs hrecord _ _ _ =>
        obtain rfl := hsame hpath hp
        exact ⟨true, hdir, Or.inr (Or.inl ⟨rfl, record, by simp [hdirs], hrecord⟩)⟩
    | file p record hp hdir _ hfiles hrecord _ _ _ _ =>
        obtain rfl := hsame hpath hp
        exact ⟨false, hdir, Or.inr (Or.inr ⟨rfl, Or.inl ⟨record, by simp [hfiles], hrecord⟩⟩)⟩
    | unsupported p record hp hdir _ _ _ hunsup hrecord _ _ =>
        obtain rfl := hsame hpath hp
        exact ⟨false, hdir, Or.inr (Or.inr ⟨rfl, Or.inr ⟨record, by simp [hunsup], hrecord⟩⟩)⟩
  · intro record hrecord
    cases h with
    | ignored _ _ _ _ _ hafter _ => exact Or.inl (hafter ▸ hrecord)
    | directory _ _ _ _ _ hfiles _ _ _ _ _ => exact Or.inl (hfiles ▸ hrecord)
    | unsupported _ _ _ _ _ hfiles _ _ _ _ _ => exact Or.inl (hfiles ▸ hrecord)
    | file p new hp hdir _ hfiles hnew _ _ _ _ =>
        rw [hfiles, List.mem_append, List.mem_singleton] at hrecord
        rcases hrecord with hrecord | rfl
        · exact Or.inl hrecord
        · exact Or.inr ⟨entry, List.mem_singleton_self _, hnew ▸ hp, hdir⟩
  · intro record hrecord
    cases h with
    | ignored _ _ _ _ _ hafter _ => exact Or.inl (hafter ▸ hrecord)
    | file _ _ _ _ _ _ _ hdirs _ _ _ => exact Or.inl (hdirs ▸ hrecord)
    | unsupported _ _ _ _ _ _ hdirs _ _ _ _ => exact Or.inl (hdirs ▸ hrecord)
    | directory p new hp hdir hin _ hdirs hnew _ _ hchildren =>
        rw [hdirs, List.mem_append, List.mem_singleton] at hrecord
        rcases hrecord with hrecord | rfl
        · exact Or.inl hrecord
        · exact Or.inr ⟨entry, List.mem_singleton_self _, p, hnew, hp, hdir, hin,
            by rw [hchildren]; exact List.mem_singleton_self _⟩
  · intro item hitem
    cases h with
    | ignored _ _ _ _ _ _ hchildren => simp [hchildren] at hitem
    | file _ _ _ _ _ _ _ _ _ _ hchildren => simp [hchildren] at hitem
    | unsupported _ _ _ _ _ _ _ _ _ _ hchildren => simp [hchildren] at hitem
    | directory p _ hp hdir hin _ _ _ _ _ hchildren =>
        obtain rfl := List.mem_singleton.1 (hchildren ▸ hitem)
        exact ⟨entry, List.mem_singleton_self _, p, rfl, hp, hdir, hin⟩

theorem IsOpened.mono {ignores : IgnoreSet} {directory : RootedPath} {few many : List Entry}
    {item : Folder × RootedPath} (h : IsOpened ignores directory few item) (hsub : few ⊆ many) :
    IsOpened ignores directory many item := by
  obtain ⟨entry, hmem, rest⟩ := h
  exact ⟨entry, hsub hmem, rest⟩

theorem ListingScan.append {ignores : IgnoreSet} {directory : RootedPath} {xs ys : List Entry}
    {a b c : ScanState} {first later : Pending}
    (hab : ListingScan ignores directory xs a b first)
    (hbc : ListingScan ignores directory ys b c later) :
    ListingScan ignores directory (xs ++ ys) a c (first ++ later) where
  ext := hab.ext.trans hbc.ext
  resolved := by
    intro entry hentry path hpath
    rcases List.mem_append.1 hentry with hentry | hentry
    · exact (hab.resolved entry hentry path hpath).mono hbc.ext
    · exact hbc.resolved entry hentry path hpath
  files := by
    intro record hrecord
    rcases hbc.files record hrecord with hrecord | ⟨entry, hentry, rest⟩
    · rcases hab.files record hrecord with hrecord | ⟨entry, hentry, rest⟩
      · exact Or.inl hrecord
      · exact Or.inr ⟨entry, List.mem_append_left _ hentry, rest⟩
    · exact Or.inr ⟨entry, List.mem_append_right _ hentry, rest⟩
  directories := by
    intro record hrecord
    rcases hbc.directories record hrecord with hrecord | ⟨entry, hentry, p, h1, h2, h3, h4, h5⟩
    · rcases hab.directories record hrecord with hrecord | ⟨entry, hentry, p, h1, h2, h3, h4, h5⟩
      · exact Or.inl hrecord
      · exact Or.inr ⟨entry, List.mem_append_left _ hentry, p, h1, h2, h3, h4,
          List.mem_append_left _ h5⟩
    · exact Or.inr ⟨entry, List.mem_append_right _ hentry, p, h1, h2, h3, h4,
        List.mem_append_right _ h5⟩
  children := by
    intro item hitem
    rcases List.mem_append.1 hitem with hitem | hitem
    · exact (hab.children item hitem).mono (List.subset_append_left xs ys)
    · exact (hbc.children item hitem).mono (List.subset_append_right xs ys)

theorem scanEntries_extends (volume : VolumeSnapshot) (ignores : IgnoreSet)
    (directory : RootedPath) (entries : List Entry) (state : ScanState) :
    state.Extends (scanEntries volume ignores directory entries state).1 := by
  induction entries generalizing state with
  | nil => exact .refl state
  | cons entry rest ih => exact (scanEntry_extends ..).trans (ih _)

theorem scanEntries_listing {volume : VolumeSnapshot} {ignores : IgnoreSet}
    {directory : RootedPath} {entries : List Entry} {state : ScanState}
    (hnames : ∀ entry ∈ entries, backslash ∉ entry.name ∧ slash ∉ entry.name)
    (hcomplete : (scanEntries volume ignores directory entries state).1.complete = true) :
    ListingScan ignores directory entries state
      (scanEntries volume ignores directory entries state).1
      (scanEntries volume ignores directory entries state).2 := by
  induction entries generalizing state with
  | nil =>
      exact
        { ext := .refl state
          resolved := by simp
          files := fun _ h => Or.inl h
          directories := fun _ h => Or.inl h
          children := by simp [scanEntries] }
  | cons entry rest ih =>
      have hrest := ih (fun e he => hnames e (List.mem_cons_of_mem _ he)) hcomplete
      have hround : (scanEntry volume ignores directory entry state).1.complete = true :=
        hrest.ext.complete hcomplete
      have hhere := scanEntry_cases (hnames entry List.mem_cons_self) hround
      exact (hhere.listing (scanEntry_extends ..)).append hrest

/-- A round of the loop that stays complete has enumerated the whole
folder. -/
theorem scanFolder_listing {volume : VolumeSnapshot} {ignores : IgnoreSet} {folder : Folder}
    {directory : RootedPath} {state : ScanState} (hlisting : IsListing folder.entries)
    (hcomplete : (scanFolder volume ignores folder directory state).1.complete = true) :
    ListingScan ignores directory folder.entries state
      (scanFolder volume ignores folder directory state).1
      (scanFolder volume ignores folder directory state).2 := by
  unfold scanFolder at hcomplete ⊢
  cases hfail : folder.failure with
  | some failure =>
      rw [hfail] at hcomplete
      exact absurd ((scanEntries_extends ..).complete hcomplete) Bool.false_ne_true
  | none =>
      rw [hfail] at hcomplete
      have hall : folder.yielded = folder.entries := by rw [Folder.yielded, hfail]
      have hmem (entry : Entry) :
          entry ∈ sortedBy entrySortKey folder.yielded ↔ entry ∈ folder.entries := by
        rw [mem_sortedBy, hall]
      have hscan := scanEntries_listing
        (fun entry hentry => hlisting.no_separator entry ((hmem entry).1 hentry)) hcomplete
      exact
        { ext := hscan.ext
          resolved := fun entry hentry => hscan.resolved entry ((hmem entry).2 hentry)
          files := by
            intro record hrecord
            rcases hscan.files record hrecord with h | ⟨entry, hentry, rest⟩
            · exact Or.inl h
            · exact Or.inr ⟨entry, (hmem entry).1 hentry, rest⟩
          directories := by
            intro record hrecord
            rcases hscan.directories record hrecord with h | ⟨entry, hentry, rest⟩
            · exact Or.inl h
            · exact Or.inr ⟨entry, (hmem entry).1 hentry, rest⟩
          children := fun item hitem =>
            (hscan.children item hitem).mono fun entry hentry => (hmem entry).1 hentry }

theorem scanFolder_extends (volume : VolumeSnapshot) (ignores : IgnoreSet) (folder : Folder)
    (directory : RootedPath) (state : ScanState) :
    state.Extends (scanFolder volume ignores folder directory state).1 := by
  unfold scanFolder
  cases folder.failure with
  | none => exact scanEntries_extends ..
  | some failure =>
      exact ((ScanState.Extends.refl state).warn _ _ _).incomplete.trans (scanEntries_extends ..)

/-! ## The work list

The invariant is about every directory that was ever opened: it is finished, or
it still waits.  One round takes the first item, finishes it, and appends its
children, which are visible because it is. -/

/-- No parent of the path is ignored. -/
def Visible (ignores : IgnoreSet) (path : RelPath) : Prop :=
  ∀ parent ∈ path.parents, ignores.excludes parent true = false

/-- An item of the work list is a directory of the tree that was not
ignored, nor was any of its parents. -/
def IsFolderAt (tree : Tree) (ignores : IgnoreSet) (item : Folder × RootedPath) : Prop :=
  match item.2 with
  | none => item.1 = tree.root
  | some path => (∃ entry, tree.root.Has path.components entry ∧ entry.folder = item.1 ∧
      entry.info.isDir = .ok true) ∧ ignores.excludes path true = false ∧ Visible ignores path

/-- What holds of the records while the walk is complete. -/
structure WalkInv (tree : Tree) (ignores : IgnoreSet) (pending : Pending) (state : ScanState) :
    Prop where
  opened : ∀ item ∈ pending, IsFolderAt tree ignores item
  files : ∀ record ∈ state.files, (∃ entry, tree.root.Has record.relPath.components entry ∧
    entry.info.isDir = .ok false) ∧ Visible ignores record.relPath
  directories : ∀ record ∈ state.directories, ∀ path, record.relPath = some path →
    (∃ entry, tree.root.Has path.components entry ∧ entry.info.isDir = .ok true) ∧
      ignores.excludes path true = false ∧ Visible ignores path
  root : (tree.root, none) ∈ pending ∨ FolderDone ignores state tree.root none
  below : ∀ (path : RelPath) (entry : Entry), tree.root.Has path.components entry →
    state.HasDirectory path →
    (entry.folder, some path) ∈ pending ∨ FolderDone ignores state entry.folder (some path)

theorem FolderDone.mono {ignores : IgnoreSet} {a b : ScanState} {folder : Folder}
    {directory : RootedPath} (h : FolderDone ignores a folder directory) (hab : a.Extends b) :
    FolderDone ignores b folder directory :=
  fun entry hentry path hpath => (h entry hentry path hpath).mono hab

/-- The children of a folder of the tree are entries of the tree. -/
theorem IsFolderAt.has {tree : Tree} {ignores : IgnoreSet} {folder : Folder}
    {directory : RootedPath} (h : IsFolderAt tree ignores (folder, directory)) {entry : Entry}
    (hentry : entry ∈ folder.entries) :
    tree.root.Has (directory.components ++ [entry.name]) entry := by
  cases directory with
  | none =>
      obtain rfl : folder = tree.root := h
      exact .top hentry
  | some path =>
      obtain ⟨⟨parent, hparent, rfl, _⟩, _⟩ := h
      exact .inside hparent hentry

theorem IsFolderAt.listing {tree : Tree} {ignores : IgnoreSet} {folder : Folder}
    {directory : RootedPath} (h : IsFolderAt tree ignores (folder, directory)) :
    IsListing folder.entries := by
  cases directory with
  | none =>
      obtain rfl : folder = tree.root := h
      exact tree.root_listing
  | some path =>
      obtain ⟨⟨parent, hparent, rfl, _⟩, _⟩ := h
      exact tree.listing _ _ hparent

/-- The parents of a child are its directory and the directory's parents. -/
theorem IsFolderAt.visible {tree : Tree} {ignores : IgnoreSet} {folder : Folder}
    {directory : RootedPath} (h : IsFolderAt tree ignores (folder, directory)) {path : RelPath}
    {name : Str} (hpath : path.components = directory.components ++ [name]) :
    Visible ignores path := by
  cases directory with
  | none =>
      have hnone : path.parents = [] := RelPath.parents_of_singleton hpath
      intro parent hparent
      simp [hnone] at hparent
  | some directory =>
      obtain ⟨_, hin, hvisible⟩ := h
      intro parent hparent
      rw [RelPath.parents_of_append (q := directory) hpath, List.mem_cons] at hparent
      rcases hparent with rfl | hparent
      · exact hin
      · exact hvisible parent hparent

/-- One round of the work list: its first directory becomes a finished one. -/
theorem WalkInv.step {tree : Tree} {ignores : IgnoreSet} {volume : VolumeSnapshot}
    {folder : Folder} {directory : RootedPath} {pending : Pending} {state : ScanState}
    (hinv : WalkInv tree ignores ((folder, directory) :: pending) state)
    (hcomplete : (scanFolder volume ignores folder directory state).1.complete = true) :
    WalkInv tree ignores ((scanFolder volume ignores folder directory state).2 ++ pending)
      (scanFolder volume ignores folder directory state).1 := by
  have hat := hinv.opened _ List.mem_cons_self
  have hscan := scanFolder_listing hat.listing hcomplete
  generalize scanFolder volume ignores folder directory state = result at hscan hcomplete ⊢
  obtain ⟨after, children⟩ := result
  refine { opened := ?_, files := ?_, directories := ?_, root := ?_, below := ?_ }
  · intro item hitem
    rcases List.mem_append.1 hitem with hitem | hitem
    · obtain ⟨entry, hentry, path, rfl, hpath, hdir, hin⟩ := hscan.children item hitem
      exact ⟨⟨entry, hpath ▸ hat.has hentry, rfl, hdir⟩, hin, hat.visible hpath⟩
    · exact hinv.opened item (List.mem_cons_of_mem _ hitem)
  · intro record hrecord
    rcases hscan.files record hrecord with hold | ⟨entry, hentry, hpath, hdir⟩
    · exact hinv.files record hold
    · exact ⟨⟨entry, hpath ▸ hat.has hentry, hdir⟩, hat.visible hpath⟩
  · intro record hrecord path hrel
    rcases hscan.directories record hrecord with hold | ⟨entry, hentry, p, hp, hpath, hdir, hin, _⟩
    · exact hinv.directories record hold path hrel
    · obtain rfl : p = path := Option.some.inj (hp.symm.trans hrel)
      exact ⟨⟨entry, hpath ▸ hat.has hentry, hdir⟩, hin, hat.visible hpath⟩
  · rcases hinv.root with hpending | hdone
    · rcases List.mem_cons.1 hpending with heq | hpending
      · -- The root itself was the folder of this round.
        obtain ⟨rfl, rfl⟩ := Prod.mk.inj heq
        exact Or.inr hscan.resolved
      · exact Or.inl (List.mem_append_right _ hpending)
    · exact Or.inr (hdone.mono hscan.ext)
  · rintro path entry hhas ⟨record, hrecord, hrel⟩
    rcases hscan.directories record hrecord with hold | ⟨e, he, p, hp, hpath, _, _, hchild⟩
    · rcases hinv.below path entry hhas ⟨record, hold, hrel⟩ with hpending | hdone
      · rcases List.mem_cons.1 hpending with heq | hpending
        · obtain ⟨rfl, rfl⟩ := Prod.mk.inj heq
          exact Or.inr hscan.resolved
        · exact Or.inl (List.mem_append_right _ hpending)
      · exact Or.inr (hdone.mono hscan.ext)
    · obtain rfl : p = path := Option.some.inj (hp.symm.trans hrel)
      -- The directory recorded in this round is the entry at this path.
      obtain rfl : e = entry := Tree.has_unique (hpath ▸ hat.has he) hhas
      exact Or.inl (List.mem_append_left _ hchild)

theorem scanPending_extends (volume : VolumeSnapshot) (ignores : IgnoreSet) (fuel : Nat)
    (pending : Pending) (state : ScanState) :
    state.Extends (scanPending volume ignores fuel pending state).1 := by
  induction fuel generalizing pending state with
  | zero => exact .refl state
  | succ fuel ih =>
      cases pending with
      | nil => exact .refl state
      | cons item pending => exact (scanFolder_extends ..).trans (ih _ _)

/-- So the invariant holds when the list is empty, or the fuel is used up. -/
theorem WalkInv.run {tree : Tree} {ignores : IgnoreSet} {volume : VolumeSnapshot} {fuel : Nat}
    {pending : Pending} {state : ScanState} (hinv : WalkInv tree ignores pending state)
    (hcomplete : (scanPending volume ignores fuel pending state).1.complete = true) :
    WalkInv tree ignores (scanPending volume ignores fuel pending state).2
      (scanPending volume ignores fuel pending state).1 := by
  induction fuel generalizing pending state with
  | zero => exact hinv
  | succ fuel ih =>
      cases pending with
      | nil => exact hinv
      | cons item pending =>
          refine ih (hinv.step ?_) hcomplete
          exact (scanPending_extends ..).complete hcomplete

/-! ## The loop ends

The weight counts the directories below the pending ones.  A round takes one
item and adds its children, whose weight is smaller. -/

def Pending.weight (pending : Pending) : Nat := (pending.map fun item => item.1.weight).sum

omit [Unicode] in
theorem Entry.weightAll_eq (entries : List Entry) :
    Entry.weightAll entries = (entries.map Entry.weight).sum := by
  induction entries with
  | nil => rfl
  | cons entry rest ih => rw [Entry.weightAll, ih, List.map_cons, List.sum_cons]

omit [Unicode] in
theorem Entry.weight_folder (entry : Entry) : entry.folder.weight = entry.weight := by
  cases entry
  rfl

/-- An entry opens at most its own folder. -/
theorem scanOrdinary_children (volume : VolumeSnapshot) (entry : Entry) (path : RelPath)
    (isDirectory : Bool) (stat : StatResult) (state : ScanState) :
    (scanOrdinary volume entry path isDirectory stat state).2 = [] ∨
      (scanOrdinary volume entry path isDirectory stat state).2 = [(entry.folder, some path)] := by
  unfold scanOrdinary
  cases isDirectory with
  | true =>
      simp only [if_true]
      split
      · exact Or.inl rfl
      · exact Or.inr rfl
  | false =>
      simp only [Bool.false_eq_true, if_false]
      split <;> exact Or.inl rfl

theorem scanEntry_children (volume : VolumeSnapshot) (ignores : IgnoreSet)
    (directory : RootedPath) (entry : Entry) (state : ScanState) :
    (scanEntry volume ignores directory entry state).2 = [] ∨
      ∃ path, (scanEntry volume ignores directory entry state).2 = [(entry.folder, some path)] := by
  cases hpath : validateRelativePath (candidatePath directory entry.name) with
  | error error => exact Or.inl (by simp only [scanEntry, hpath])
  | ok path =>
      cases hdir : entry.info.isDir with
      | error error => exact Or.inl (by simp only [scanEntry, hpath, hdir])
      | ok isDirectory =>
          simp only [scanEntry, hpath, hdir]
          split
          · exact Or.inl rfl
          · split
            · exact Or.inl rfl
            · split
              · exact Or.inl rfl
              · split
                · exact Or.inl rfl
                · exact (scanOrdinary_children ..).imp_right fun h => ⟨path, h⟩

theorem scanEntries_weight (volume : VolumeSnapshot) (ignores : IgnoreSet)
    (directory : RootedPath) (entries : List Entry) (state : ScanState) :
    (scanEntries volume ignores directory entries state).2.weight ≤ Entry.weightAll entries := by
  induction entries generalizing state with
  | nil => exact Nat.zero_le _
  | cons entry rest ih =>
      have hrest := ih (scanEntry volume ignores directory entry state).1
      have hhere : (scanEntry volume ignores directory entry state).2.weight ≤ entry.weight := by
        rcases scanEntry_children volume ignores directory entry state with h | ⟨path, h⟩
        · rw [h]
          exact Nat.zero_le _
        · rw [h]
          simp [Pending.weight, Entry.weight_folder]
      simp only [scanEntries, Pending.weight, List.map_append, List.sum_append,
        Entry.weightAll] at *
      omega

/-- A round uses up the directory itself. -/
theorem scanFolder_weight (volume : VolumeSnapshot) (ignores : IgnoreSet) (folder : Folder)
    (directory : RootedPath) (state : ScanState) :
    (scanFolder volume ignores folder directory state).2.weight < folder.weight := by
  have hyielded : Entry.weightAll folder.yielded ≤ Entry.weightAll folder.entries := by
    unfold Folder.yielded
    split
    · exact Nat.le_refl _
    · next n _ _ =>
        have hsplit := congrArg Entry.weightAll (List.take_append_drop n folder.entries)
        simp only [Entry.weightAll_eq, List.map_append, List.sum_append] at hsplit ⊢
        omega
  have hsum : Entry.weightAll (sortedBy entrySortKey folder.yielded) ≤
      Entry.weightAll folder.entries := by
    refine Nat.le_trans (Nat.le_of_eq ?_) hyielded
    rw [Entry.weightAll_eq, Entry.weightAll_eq]
    exact ((List.perm_insertionSort _ folder.yielded).map Entry.weight).sum_nat
  have hentries (before : ScanState) := scanEntries_weight volume ignores directory
    (sortedBy entrySortKey folder.yielded) before
  unfold scanFolder Folder.weight
  exact Nat.lt_one_add_iff.2 ((hentries _).trans hsum)

/-- With fuel for every directory the work list runs empty. -/
theorem scanPending_done {volume : VolumeSnapshot} {ignores : IgnoreSet} {fuel : Nat}
    {pending : Pending} {state : ScanState} (hfuel : pending.weight ≤ fuel) :
    (scanPending volume ignores fuel pending state).2 = [] := by
  induction fuel generalizing pending state with
  | zero =>
      cases pending with
      | nil => rfl
      | cons item pending =>
          simp only [Pending.weight, List.map_cons, List.sum_cons, Folder.weight] at hfuel
          omega
  | succ fuel ih =>
      cases pending with
      | nil => rfl
      | cons item pending =>
          have hround := scanFolder_weight volume ignores item.1 item.2 state
          have hnext : Pending.weight
              ((scanFolder volume ignores item.1 item.2 state).2 ++ pending) ≤ fuel := by
            simp only [Pending.weight, List.map_append, List.sum_append, List.map_cons,
              List.sum_cons] at *
            omega
          exact ih hnext

/-! ## The whole scan

At the start only the root waits.  When the list is empty the invariant says
that every directory is finished, and an induction over the names brings this
down to every entry. -/

/-- The start of the walk. -/
theorem WalkInv.init (tree : Tree) (ignores : IgnoreSet) (snapshot : FileStat) :
    WalkInv tree ignores [(tree.root, none)]
      ((ScanState.addDirectory {} none snapshot).visit snapshot.fileIdentity) where
  opened := by
    intro item hitem
    obtain rfl := List.mem_singleton.1 hitem
    rfl
  files := fun record hrecord => absurd hrecord List.not_mem_nil
  directories := by
    intro record hrecord path hrel
    obtain rfl := List.mem_singleton.1 hrecord
    exact absurd hrel (by simp)
  root := Or.inl (List.mem_singleton_self _)
  below := by
    rintro path entry _ ⟨record, hrecord, hrel⟩
    obtain rfl := List.mem_singleton.1 hrecord
    exact absurd hrel (by simp)

/-- What a complete walk leaves: nothing waits any more. -/
theorem scanFull_walk {volume : VolumeSnapshot} {ignores : IgnoreSet} {backend : ScannerBackend}
    (hcomplete : (scanFull volume ignores backend).complete = true) :
    WalkInv backend.tree ignores [] (scanFull volume ignores backend) := by
  unfold scanFull at hcomplete ⊢
  cases hroot : backend.rootLstat with
  | error error =>
      rw [hroot] at hcomplete
      exact absurd hcomplete Bool.false_ne_true
  | ok stat =>
      rw [hroot] at hcomplete
      dsimp only at hcomplete ⊢
      have hrun := (WalkInv.init backend.tree ignores _).run hcomplete
      rwa [scanPending_done (by simp [Pending.weight])] at hrun

/-- A complete walk has dealt with every entry that is not behind an ignored
directory. -/
theorem WalkInv.covers {tree : Tree} {ignores : IgnoreSet} {state : ScanState}
    (hinv : WalkInv tree ignores [] state) {names : List Str} {entry : Entry}
    (hhas : tree.root.Has names entry) {path : RelPath} (hpath : path.components = names)
    (hvisible : Visible ignores path) : Resolved ignores state path entry := by
  induction hhas generalizing path with
  | @top entry h =>
      rcases hinv.root with hpending | hdone
      · exact absurd hpending List.not_mem_nil
      · exact hdone entry h path hpath
  | @inside names parent entry hparent h ih =>
      obtain ⟨q, hq, hnames⟩ := RelPath.exists_parent hparent.ne_nil (by simp) hpath
      have hparents : path.parents = q :: q.parents :=
        RelPath.parents_of_append (by rw [hnames, hpath])
      have hq_visible : Visible ignores q := by
        intro r hr
        exact hvisible r (by rw [hparents]; exact List.mem_cons_of_mem _ hr)
      obtain ⟨isDirectory, hdir, hcase⟩ := ih hnames hq_visible
      -- What has children is a directory.
      obtain rfl : isDirectory = true := by
        cases isDirectory with
        | true => rfl
        | false =>
            have hleaf := tree.leaf _ _ hparent hdir
            rw [hleaf] at h
            exact absurd h List.not_mem_nil
      have hin := hvisible q hq
      rcases hcase with hout | ⟨_, hrec⟩ | ⟨hfalse, _⟩
      · rw [hin] at hout
        exact absurd hout Bool.false_ne_true
      · rcases hinv.below q parent (hnames ▸ hparent) hrec with hpending | hdone
        · exact absurd hpending List.not_mem_nil
        · exact hdone entry h path (by rw [hpath]; simp [RootedPath.components, hnames])
      · exact absurd hfalse.symm Bool.false_ne_true

/-! ## The result

From the records of the walk to the lists of the result, with the collisions
taken into account: in a complete result no two paths share a key. -/

/-- The paths a scan result names. -/
def ScanResult.paths (result : ScanResult) : List RelPath :=
  result.files.map FileRecord.relPath ++ result.directories.filterMap DirRecord.relPath ++
    result.unsupported.map UnsupportedRecord.relPath

/-- The `IgnoreSet` leaves this entry out. -/
def Entry.ignoredAt (entry : Entry) (ignores : IgnoreSet) (path : RelPath) : Bool :=
  match entry.info.isDir with
  | .ok isDirectory => ignores.excludes path isDirectory
  | .error _ => false

/-- What a complete scan result says about the tree. -/
structure Covers (tree : Tree) (ignores : IgnoreSet) (result : ScanResult) : Prop where
  seen : ∀ (path : RelPath) (entry : Entry), tree.root.Has path.components entry →
    Visible ignores path → entry.ignoredAt ignores path = false →
    (∃ record ∈ result.files, record.relPath = path) ∨
      (∃ record ∈ result.directories, record.relPath = some path) ∨
      ∃ record ∈ result.unsupported, record.relPath = path
  files : ∀ record ∈ result.files, (∃ entry, tree.root.Has record.relPath.components entry ∧
    entry.info.isDir = .ok false) ∧ Visible ignores record.relPath
  directories : ∀ record ∈ result.directories, ∀ path, record.relPath = some path →
    (∃ entry, tree.root.Has path.components entry ∧ entry.info.isDir = .ok true) ∧
      Visible ignores path
  spelled : ∀ p ∈ result.paths, ∀ q ∈ result.paths, p.key = q.key → p = q

/-- Without collisions a key has one spelling among the paths. -/
theorem spelled_of_collisions {paths : List RelPath} (h : (collisions paths).isEmpty = true) :
    ∀ p ∈ paths, ∀ q ∈ paths, p.key = q.key → p = q := by
  intro p hp q hq hkey
  by_contra hne
  have hgroup : spellings paths p.key ∈ collisions paths := by
    refine List.mem_filter.2 ⟨List.mem_map.2 ⟨p.key, ?_, rfl⟩, ?_⟩
    · simpa using ⟨p, hp, rfl⟩
    · have hpm : p ∈ spellings paths p.key := by simp [spellings, hp]
      have hqm : q ∈ spellings paths p.key := by simp [spellings, hq, hkey]
      match hlist : spellings paths p.key with
      | [] =>
          rw [hlist] at hpm
          exact absurd hpm List.not_mem_nil
      | [only] =>
          rw [hlist, List.mem_singleton] at hpm hqm
          exact absurd (hpm.trans hqm.symm) hne
      | _ :: _ :: _ => simp
  rw [List.isEmpty_iff.1 h] at hgroup
  exact absurd hgroup List.not_mem_nil

/-- A complete result covers the tree. -/
theorem scan_covers {backend : ScannerBackend} {root : Root} {ignores : IgnoreSet}
    (hcomplete : (scan backend root ignores).complete = true) :
    Covers backend.tree ignores (scan backend root ignores) := by
  unfold scan at hcomplete ⊢
  cases hroot : backend.resolveRoot root with
  | error error =>
      rw [hroot] at hcomplete
      exact absurd hcomplete Bool.false_ne_true
  | ok resolved =>
      cases hvolume : backend.volumeSnapshot with
      | error error =>
          rw [hroot, hvolume] at hcomplete
          exact absurd hcomplete Bool.false_ne_true
      | ok volume =>
          rw [hroot, hvolume] at hcomplete
          dsimp only at hcomplete ⊢
          have hboth := Bool.and_eq_true_iff.1 hcomplete
          have hwalk := scanFull_walk hboth.1
          generalize scanFull volume ignores backend = walked at hboth hwalk
          refine { seen := ?_, files := ?_, directories := ?_, spelled := ?_ }
          · intro path entry hhas hvisible hin
            obtain ⟨isDirectory, hdir, hout | ⟨_, record, hmem, hrel⟩ |
              ⟨_, ⟨record, hmem, hrel⟩ | ⟨record, hmem, hrel⟩⟩⟩ := hwalk.covers hhas rfl hvisible
            · rw [Entry.ignoredAt, hdir] at hin
              exact absurd (hout.symm.trans hin) Bool.false_ne_true.symm
            · exact Or.inr (Or.inl ⟨record, mem_sortedBy.2 hmem, hrel⟩)
            · exact Or.inl ⟨record, mem_sortedBy.2 hmem, hrel⟩
            · exact Or.inr (Or.inr ⟨record, mem_sortedBy.2 hmem, hrel⟩)
          · intro record hrecord
            exact hwalk.files record (mem_sortedBy.1 hrecord)
          · intro record hrecord path hrel
            obtain ⟨hentry, _, hvisible⟩ :=
              hwalk.directories record (mem_sortedBy.1 hrecord) path hrel
            exact ⟨hentry, hvisible⟩
          · have hspelled := spelled_of_collisions hboth.2
            intro p hp q hq
            refine hspelled p ?_ q ?_
            · simpa [ScanResult.paths, ScanState.recordedPaths, ScanState.appendCollisionWarnings,
                ScanState.appendIdentityWarnings] using hp
            · simpa [ScanResult.paths, ScanState.recordedPaths, ScanState.appendCollisionWarnings,
                ScanState.appendIdentityWarnings] using hq

end NamiSync
