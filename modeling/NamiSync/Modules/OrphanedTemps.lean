/-
# `Modules.OrphanedTemps` — the temps of earlier runs

Two walks over the parents of an execution: `reclaimable_temp_bytes` of
`modules/preflight.py`, which counts the temps that earlier runs left, and
`remove_orphaned_temps` of `modules/executor.py`, which removes them.  They
agree on which parents and which entries matter.

They differ in what a second visit to one directory finds.  The parents are
texts, so a directory that the plan spells in two ways is visited twice: the
first walk counts its temps twice, the second finds nothing left.

## What is proved

    credit_eq_swept_iff : for any set of remaining operations, target tree and
      run, the bytes that preflight credits are those that the sweep of the
      same parents deletes, exactly when no directory with an orphan of any
      size has two spellings among the parents

## The argument

Both walks are folds over the same sorted parents.  The first adds the orphans
of a directory at each visit; after the first visit the second finds none
(`sweepParent_left`).  So the sum of the first exceeds that of the second by
the bytes of the directories visited again (`sweep_shortfall`), and this is
zero if and only if there is none with bytes to reclaim.
-/
import Mathlib.Data.List.Pairwise
import Mathlib.Tactic.Ring
import NamiSync.Modules.Observation
import NamiSync.Modules.OwnOperation

namespace NamiSync

/-! ## The tree -/

/-- An entry of a directory, not following links. -/
structure FolderEntry where
  name : Str
  isFile : Bool
  size : Nat
  deriving DecidableEq

/-- A temp that a run other than `current` left. -/
def FolderEntry.orphan (current : Str) (entry : FolderEntry) : Bool :=
  (match ownedTempRunId entry.name with
    | none => false
    | some owner => decide (owner ≠ current)) && entry.isFile

/-- The bytes that a list of entries holds. -/
def totalSize (entries : List FolderEntry) : Nat := (entries.map FolderEntry.size).sum

theorem totalSize_append (a b : List FolderEntry) :
    totalSize (a ++ b) = totalSize a + totalSize b := by
  simp [totalSize]

theorem foldl_size (entries : List FolderEntry) (total : Nat) :
    entries.foldl (fun total entry => total + entry.size) total = total + totalSize entries := by
  induction entries generalizing total with
  | nil => rfl
  | cons entry rest ih =>
      rw [List.foldl_cons, ih]
      simp only [totalSize, List.map_cons, List.sum_cons, Nat.add_assoc]

theorem totalSize_eq_zero {entries : List FolderEntry} :
    totalSize entries = 0 ↔ ∀ entry ∈ entries, entry.size = 0 := by
  simp [totalSize, List.sum_eq_zero_iff_forall_eq_nat]

section Tree

variable [Unicode]

/-- A case-insensitive directory on the volume of a device. -/
structure TargetFolder where
  device : Nat
  entries : List FolderEntry
  distinct : (entries.map fun entry => uppercaseOneCodepoint entry.name).Nodup := by decide +kernel

/-- The directories of a target.  Two devices with one serial are one
volume: one walk compares the serial alone. -/
structure TargetTree where
  root : TargetFolder
  below : Dict Str TargetFolder
  volume : Nat → VolumeId
  serial_inj : ∀ a b, (volume a).serial = (volume b).serial → volume a = volume b

/-- The directory at a key. -/
def TargetTree.folder (tree : TargetTree) (key : Str) : Option TargetFolder :=
  if key = [] then some tree.root else tree.below.get? key

def TargetTree.put (tree : TargetTree) (key : Str) (folder : TargetFolder) : TargetTree :=
  if key = [] then { tree with root := folder }
  else { tree with below := tree.below.set key folder }

/-- Both walks stay out of the trash. -/
def RootedPath.inSyncTrash (path : RootedPath) : Bool :=
  sameOrDescendant path.key syncTrashKey

/-- The order of both walks. -/
def RootedPath.order (path : RootedPath) : Str ×ₗ Str := toLex (path.key, path.text)

/-! ## The count -/

/-- The body of the loop of `reclaimable_temp_bytes`. -/
def TargetTree.countParent (tree : TargetTree) (currentRunId : Str) (total : Nat)
    (parent : RootedPath) : Nat :=
  if parent.inSyncTrash then total
  else
    match tree.folder parent.key with
    | none => total
    | some folder =>
        if tree.volume folder.device ≠ tree.volume tree.root.device then total
        else (folder.entries.filter (·.orphan currentRunId)).foldl
          (fun total entry => total + entry.size) total

/-- `reclaimable_temp_bytes`. -/
def TargetTree.reclaimableTempBytes (tree : TargetTree) (parentPaths : List RootedPath)
    (currentRunId : Str) : Nat :=
  (sortedBy RootedPath.order parentPaths).foldl (tree.countParent currentRunId) 0

/-- `LocalObservationFileSystem` before a tree that raises no error. -/
def localObservationFileSystem (others : ObservationFileSystem) (tree : TargetTree) :
    ObservationFileSystem :=
  { others with
    reclaimableTempBytes := fun _ parentPaths currentRunId =>
      .ok (tree.reclaimableTempBytes parentPaths currentRunId) }

/-! ## The sweep -/

/-- `remove_owned_temp`, with the entries removed so far. -/
def TargetFolder.removeOwnedTemp (state : TargetFolder × List FolderEntry) (name : Str) :
    TargetFolder × List FolderEntry :=
  let same (entry : FolderEntry) : Bool :=
    uppercaseOneCodepoint entry.name = uppercaseOneCodepoint name
  match state.1.entries.find? same with
  | none => state
  | some entry =>
      ({ state.1 with
          entries := state.1.entries.filter fun entry => !same entry
          distinct := state.1.distinct.sublist (List.filter_sublist.map _) },
        state.2 ++ [entry])

/-- The loop over the entries of one parent. -/
def TargetFolder.sweep (folder : TargetFolder) (current : Str) :
    TargetFolder × List FolderEntry :=
  folder.entries.foldl
    (fun state entry => if entry.orphan current then removeOwnedTemp state entry.name else state)
    (folder, [])

/-- The body of the loop of `remove_orphaned_temps`. -/
def TargetTree.sweepParent (current : Str) (state : TargetTree × List FolderEntry)
    (parent : RootedPath) : TargetTree × List FolderEntry :=
  if parent.inSyncTrash then state
  else
    match state.1.folder parent.key with
    | none => state
    | some folder =>
        if (state.1.volume folder.device).serial ≠ (state.1.volume state.1.root.device).serial then
          state
        else
          let swept := folder.sweep current
          (state.1.put parent.key swept.1, state.2 ++ swept.2)

/-- `remove_orphaned_temps`: the tree afterwards, and the files deleted. -/
def TargetTree.removeOrphanedTemps (tree : TargetTree) (parentPaths : List RootedPath)
    (currentRunId : Str) : TargetTree × List FolderEntry :=
  (sortedBy RootedPath.order parentPaths).foldl (sweepParent currentRunId) (tree, [])

/-! ## One directory

What a sweep leaves of a directory, and what it has deleted there. -/

/-- Removing an entry that is there removes that entry alone. -/
theorem removeOwnedTemp_of_mem {folder : TargetFolder} {deleted : List FolderEntry}
    {entry : FolderEntry} (h : entry ∈ folder.entries) :
    (TargetFolder.removeOwnedTemp (folder, deleted) entry.name).2 = deleted ++ [entry] ∧
      ∀ other, other ∈ (TargetFolder.removeOwnedTemp (folder, deleted) entry.name).1.entries ↔
        other ∈ folder.entries ∧ other ≠ entry := by
  have hinj := List.inj_on_of_nodup_map folder.distinct
  cases hfind : folder.entries.find? fun other =>
      decide (uppercaseOneCodepoint other.name = uppercaseOneCodepoint entry.name) with
  | none => exact absurd (List.find?_eq_none.1 hfind entry h) (by simp)
  | some found =>
      have hsame : found = entry :=
        hinj (List.mem_of_find?_eq_some hfind) h (by simpa using List.find?_some hfind)
      simp only [TargetFolder.removeOwnedTemp, hfind, hsame, true_and, List.mem_filter,
        Bool.not_eq_true', decide_eq_false_iff_not]
      intro other
      refine and_congr_right fun hother => not_congr ⟨fun hname => hinj hother h hname, ?_⟩
      rintro rfl
      rfl

/-- The loop over entries that are still there deletes the orphans among
them and nothing else. -/
theorem sweep_loop (current : Str) (entries : List FolderEntry) :
    ∀ (folder : TargetFolder) (deleted : List FolderEntry), entries.Nodup →
      (∀ entry ∈ entries, entry.orphan current = true → entry ∈ folder.entries) →
      (entries.foldl (fun state entry =>
          if entry.orphan current then TargetFolder.removeOwnedTemp state entry.name else state)
        (folder, deleted)).2 = deleted ++ entries.filter (·.orphan current) ∧
      ∀ other, other ∈ (entries.foldl (fun state entry =>
          if entry.orphan current then TargetFolder.removeOwnedTemp state entry.name else state)
        (folder, deleted)).1.entries ↔
          other ∈ folder.entries ∧ ¬ (other ∈ entries ∧ other.orphan current = true) := by
  -- Over the entries that are left to visit; the folder is what the earlier ones left.
  induction entries with
  | nil => simp
  | cons entry rest ih =>
      intro folder deleted hnodup hpresent
      obtain ⟨hfresh, hrest⟩ := List.nodup_cons.1 hnodup
      rw [List.foldl_cons, List.filter_cons]
      cases horphan : entry.orphan current with
      | false =>
          obtain ⟨hdeleted, hleft⟩ := ih folder deleted hrest
            fun other hother => hpresent other (List.mem_cons_of_mem _ hother)
          refine ⟨by simpa using hdeleted, fun other => ?_⟩
          simp only [Bool.false_eq_true, if_false, hleft, List.mem_cons]
          refine and_congr_right fun _ => not_congr (and_congr_left fun h => ?_)
          refine ⟨Or.inr, fun hor => hor.resolve_left ?_⟩
          rintro rfl
          exact absurd h (by simp [horphan])
      | true =>
          have hmem := hpresent entry List.mem_cons_self horphan
          have hremoved :
              (TargetFolder.removeOwnedTemp (folder, deleted) entry.name).2 = deleted ++ [entry] ∧
                ∀ other,
                  other ∈ (TargetFolder.removeOwnedTemp (folder, deleted) entry.name).1.entries ↔
                    other ∈ folder.entries ∧ other ≠ entry := removeOwnedTemp_of_mem hmem
          obtain ⟨hone, hkept⟩ := hremoved
          set state := TargetFolder.removeOwnedTemp (folder, deleted) entry.name with hstate
          obtain ⟨hdeleted, hleft⟩ := ih state.1 state.2 hrest fun other hother horphan =>
            (hkept other).2 ⟨hpresent other (List.mem_cons_of_mem _ hother) horphan, by
              rintro rfl
              exact hfresh hother⟩
          refine ⟨?_, fun other => ?_⟩
          · rw [if_pos rfl, if_pos rfl]
            exact hdeleted.trans (by rw [hone, List.append_assoc]; rfl)
          · rw [if_pos rfl]
            refine (hleft other).trans ?_
            rw [hkept, List.mem_cons]
            constructor
            · rintro ⟨⟨hin, hne⟩, hnot⟩
              exact ⟨hin, fun hboth => hnot ⟨hboth.1.resolve_left hne, hboth.2⟩⟩
            · rintro ⟨hin, hnot⟩
              refine ⟨⟨hin, ?_⟩, fun hboth => hnot ⟨Or.inr hboth.1, hboth.2⟩⟩
              rintro rfl
              exact hnot ⟨Or.inl rfl, horphan⟩

theorem TargetFolder.nodup_entries (folder : TargetFolder) : folder.entries.Nodup :=
  List.Nodup.of_map _ folder.distinct

/-- A directory is swept of its orphans, and they are what is deleted. -/
theorem TargetFolder.sweep_deleted (folder : TargetFolder) (current : Str) :
    (folder.sweep current).2 = folder.entries.filter (·.orphan current) :=
  (sweep_loop current folder.entries folder [] folder.nodup_entries fun _ h _ => h).1

/-- None is left. -/
theorem TargetFolder.sweep_clean (folder : TargetFolder) (current : Str) :
    (folder.sweep current).1.entries.filter (·.orphan current) = [] := by
  refine List.filter_eq_nil_iff.2 fun entry hentry horphan => ?_
  have hleft := ((sweep_loop current folder.entries folder [] folder.nodup_entries
    fun _ h _ => h).2 entry).1 hentry
  exact hleft.2 ⟨hleft.1, horphan⟩

/-- A sweep does not move the directory to another device. -/
theorem TargetFolder.sweep_device (folder : TargetFolder) (current : Str) :
    (folder.sweep current).1.device = folder.device := by
  have hone : ∀ (state : TargetFolder × List FolderEntry) (name : Str),
      (removeOwnedTemp state name).1.device = state.1.device := by
    intro state name
    unfold removeOwnedTemp
    dsimp only
    split <;> rfl
  have hloop : ∀ (entries : List FolderEntry) (state : TargetFolder × List FolderEntry),
      (entries.foldl (fun state entry =>
        if entry.orphan current then removeOwnedTemp state entry.name else state) state).1.device =
          state.1.device := by
    intro entries
    induction entries with
    | nil => exact fun _ => rfl
    | cons entry rest ih =>
        intro state
        rw [List.foldl_cons, ih]
        split
        · exact hone _ _
        · rfl
  exact hloop _ _

/-! ## One parent

A parent is a text, and the directory that it names is found under its key.  So
a second text for a directory is a second visit. -/

/-- The directory at a key, where both walks go in. -/
def TargetTree.visited (tree : TargetTree) (key : Str) : Option TargetFolder :=
  if sameOrDescendant key syncTrashKey then none
  else (tree.folder key).filter fun folder =>
    tree.volume folder.device = tree.volume tree.root.device

/-- The bytes of the orphans in the directory at a key. -/
def TargetTree.orphanBytes (tree : TargetTree) (currentRunId key : Str) : Nat :=
  match tree.visited key with
  | none => 0
  | some folder => totalSize (folder.entries.filter (·.orphan currentRunId))

theorem countParent_eq (tree : TargetTree) (currentRunId : Str) (total : Nat)
    (parent : RootedPath) :
    tree.countParent currentRunId total parent =
      total + tree.orphanBytes currentRunId parent.key := by
  unfold TargetTree.countParent TargetTree.orphanBytes TargetTree.visited RootedPath.inSyncTrash
  split
  · rfl
  · cases tree.folder parent.key with
    | none => rfl
    | some folder =>
        by_cases hvolume : tree.volume folder.device = tree.volume tree.root.device
        · simp [hvolume, Option.filter, foldl_size]
        · simp [hvolume, Option.filter]

theorem folder_put (tree : TargetTree) (key key' : Str) (folder : TargetFolder) :
    (tree.put key folder).folder key' = if key' = key then some folder else tree.folder key' := by
  unfold TargetTree.folder TargetTree.put
  by_cases hroot : key = []
  · by_cases hroot' : key' = []
    · simp [hroot, hroot']
    · simp [hroot, hroot']
  · by_cases hroot' : key' = []
    · have hne : key' ≠ key := fun heq => hroot (heq.symm.trans hroot')
      simp [hroot, hroot', Ne.symm hroot]
    · simp [hroot, hroot', Dict.get?_set]

theorem root_device_put {tree : TargetTree} {key : Str} {folder folder' : TargetFolder}
    (h : tree.folder key = some folder) (hdevice : folder'.device = folder.device) :
    (tree.put key folder').root.device = tree.root.device := by
  unfold TargetTree.folder at h
  unfold TargetTree.put
  split at h
  · next hroot =>
      rw [if_pos hroot]
      exact hdevice.trans (congrArg TargetFolder.device (Option.some.inj h).symm)
  · next hroot => rw [if_neg hroot]

theorem volume_put (tree : TargetTree) (key : Str) (folder : TargetFolder) :
    (tree.put key folder).volume = tree.volume := by
  unfold TargetTree.put
  split <;> rfl

theorem sweepParent_eq (current : Str) (tree : TargetTree) (deleted : List FolderEntry)
    (parent : RootedPath) :
    TargetTree.sweepParent current (tree, deleted) parent =
      match tree.visited parent.key with
      | none => (tree, deleted)
      | some folder =>
          (tree.put parent.key (folder.sweep current).1, deleted ++ (folder.sweep current).2) := by
  unfold TargetTree.sweepParent TargetTree.visited RootedPath.inSyncTrash
  split
  · rfl
  · cases tree.folder parent.key with
    | none => rfl
    | some folder =>
        by_cases hvolume : tree.volume folder.device = tree.volume tree.root.device
        · simp [hvolume, Option.filter]
        · have hserial : (tree.volume folder.device).serial ≠
              (tree.volume tree.root.device).serial := fun h => hvolume (tree.serial_inj _ _ h)
          simp [hvolume, hserial, Option.filter]

/-- What a directory is replaced by is visited in its place. -/
theorem visited_put {tree : TargetTree} {key : Str} {folder folder' : TargetFolder}
    (h : tree.visited key = some folder) (hdevice : folder'.device = folder.device) (key' : Str) :
    (tree.put key folder').visited key' =
      if key' = key then some folder' else tree.visited key' := by
  unfold TargetTree.visited at h ⊢
  split at h
  · exact absurd h (by simp)
  · next hin =>
      obtain ⟨hfolder, hvolume⟩ := Option.filter_eq_some_iff.1 h
      rw [folder_put, volume_put, root_device_put hfolder hdevice]
      by_cases hkey : key' = key
      · have hsame : tree.volume folder'.device = tree.volume tree.root.device := by
          rw [hdevice]
          exact of_decide_eq_true hvolume
        simp [hkey, hin, Option.filter, hsame]
      · rw [if_neg hkey, if_neg hkey]

/-- One parent is swept of the orphans it holds: their bytes are deleted. -/
theorem sweepParent_deleted (current : Str) (tree : TargetTree) (deleted : List FolderEntry)
    (parent : RootedPath) :
    totalSize (TargetTree.sweepParent current (tree, deleted) parent).2 =
      totalSize deleted + tree.orphanBytes current parent.key := by
  rw [sweepParent_eq, TargetTree.orphanBytes]
  cases tree.visited parent.key with
  | none => rfl
  | some folder =>
      dsimp only
      rw [totalSize_append, folder.sweep_deleted]

/-- None of them is left to count, and elsewhere nothing changes. -/
theorem sweepParent_left (current : Str) (tree : TargetTree) (deleted : List FolderEntry)
    (parent : RootedPath) (key : Str) :
    (TargetTree.sweepParent current (tree, deleted) parent).1.orphanBytes current key =
      if key = parent.key then 0 else tree.orphanBytes current key := by
  rw [sweepParent_eq]
  cases hvisited : tree.visited parent.key with
  | none =>
      dsimp only
      split
      · next hkey => rw [hkey, TargetTree.orphanBytes, hvisited]
      · rfl
  | some folder =>
      have hput := visited_put hvisited (folder.sweep_device current) key
      unfold TargetTree.orphanBytes
      by_cases hkey : key = parent.key
      · rw [if_pos hkey] at hput ⊢
        simp only [hput, folder.sweep_clean]
        rfl
      · rw [if_neg hkey] at hput ⊢
        simp only [hput]

/-! ## All parents

The two folds side by side: the sum of the count less the sum of the sweep is
the sum over the visits that are not a directory's first. -/

/-- A sum over keys, with those equal to one key apart. -/
theorem sum_apart (bytes : Str → Nat) (key : Str) (parents : List RootedPath) :
    (parents.map fun parent => bytes parent.key).sum =
      (parents.map fun parent => if parent.key = key then 0 else bytes parent.key).sum +
        parents.countP (fun parent => parent.key = key) * bytes key := by
  induction parents with
  | nil => simp
  | cons parent rest ih =>
      rw [List.map_cons, List.sum_cons, ih, List.map_cons, List.sum_cons, List.countP_cons]
      by_cases hkey : parent.key = key
      · simp only [hkey, if_true, decide_true]
        ring
      · simp only [hkey, if_false, decide_false]
        simp [Nat.add_assoc]

/-- What the sweep deletes falls short of what is counted by the bytes of
the directories that are visited again. -/
theorem sweep_shortfall (current : Str) (parents : List RootedPath) :
    ∀ (tree : TargetTree) (deleted : List FolderEntry), ∃ shortfall,
      totalSize (parents.foldl (TargetTree.sweepParent current) (tree, deleted)).2 + shortfall =
        totalSize deleted + (parents.map fun parent => tree.orphanBytes current parent.key).sum ∧
      (shortfall = 0 ↔ parents.Pairwise fun first second =>
        first.key = second.key → tree.orphanBytes current first.key = 0) := by
  induction parents with
  | nil => exact fun _ _ => ⟨0, by simp⟩
  | cons parent rest ih =>
      intro tree deleted
      set state := TargetTree.sweepParent current (tree, deleted) parent with hstate
      obtain ⟨shortfall, htotal, hzero⟩ := ih state.1 state.2
      have hleft : ∀ key, state.1.orphanBytes current key =
          if key = parent.key then 0 else tree.orphanBytes current key :=
        sweepParent_left current tree deleted parent
      simp only [hleft, Prod.mk.eta] at htotal hzero
      have hdeleted : totalSize state.2 = totalSize deleted + tree.orphanBytes current parent.key :=
        sweepParent_deleted current tree deleted parent
      have hsum := sum_apart (tree.orphanBytes current) parent.key rest
      refine ⟨shortfall + rest.countP (fun other => other.key = parent.key) *
        tree.orphanBytes current parent.key, ?_, ?_⟩
      · rw [List.foldl_cons, ← hstate, List.map_cons, List.sum_cons, hsum]
        omega
      · rw [Nat.add_eq_zero_iff, hzero, Nat.mul_eq_zero, List.countP_eq_zero, List.pairwise_cons]
        constructor
        · rintro ⟨hlater, honce⟩
          have hagain : ∀ other ∈ rest, other.key = parent.key →
              tree.orphanBytes current parent.key = 0 :=
            fun other hother hkey => honce.resolve_left fun hnone => hnone other hother (by simpa)
          refine ⟨fun other hother hkey => hagain other hother hkey.symm, ?_⟩
          refine hlater.imp_of_mem fun {first second} hfirst _ himp hkey => ?_
          by_cases hparent : first.key = parent.key
          · rw [hparent]
            exact hagain first hfirst hparent
          · simpa [hparent] using himp hkey
        · rintro ⟨hagain, hlater⟩
          refine ⟨hlater.imp fun himp hkey => ?_, ?_⟩
          · split
            · rfl
            · exact himp hkey
          · by_cases hbytes : tree.orphanBytes current parent.key = 0
            · exact Or.inr hbytes
            · refine Or.inl fun other hother hkey => hbytes (hagain other hother ?_)
              exact (of_decide_eq_true hkey).symm

theorem reclaimable_eq (tree : TargetTree) (parents : List RootedPath) (current : Str) :
    tree.reclaimableTempBytes parents current =
      ((sortedBy RootedPath.order parents).map fun parent =>
        tree.orphanBytes current parent.key).sum := by
  have hfold : ∀ (parents : List RootedPath) (total : Nat),
      parents.foldl (tree.countParent current) total =
        total + (parents.map fun parent => tree.orphanBytes current parent.key).sum := by
    intro parents
    induction parents with
    | nil => exact fun _ => rfl
    | cons parent rest ih =>
        intro total
        rw [List.foldl_cons, ih, countParent_eq, List.map_cons, List.sum_cons, Nat.add_assoc]
  rw [TargetTree.reclaimableTempBytes, hfold, Nat.zero_add]

/-- For a set of parents, the count is right exactly when no directory with
orphans to reclaim has two spellings in the set. -/
theorem reclaimable_eq_deleted_iff (tree : TargetTree) {parents : List RootedPath}
    (hnodup : parents.Nodup) (current : Str) :
    tree.reclaimableTempBytes parents current =
        totalSize (tree.removeOrphanedTemps parents current).2 ↔
      ∀ first ∈ parents, ∀ second ∈ parents, first ≠ second → first.key = second.key →
        tree.orphanBytes current first.key = 0 := by
  obtain ⟨shortfall, htotal, hzero⟩ :=
    sweep_shortfall current (sortedBy RootedPath.order parents) tree []
  rw [← reclaimable_eq] at htotal
  have hdeleted : totalSize ((sortedBy RootedPath.order parents).foldl
      (TargetTree.sweepParent current) (tree, [])).2 =
        totalSize (tree.removeOrphanedTemps parents current).2 := rfl
  have hempty : totalSize [] = 0 := rfl
  have hequal : tree.reclaimableTempBytes parents current =
      totalSize (tree.removeOrphanedTemps parents current).2 ↔ shortfall = 0 := by omega
  have hsorted : (sortedBy RootedPath.order parents).Nodup :=
    (List.perm_insertionSort _ parents).nodup_iff.2 hnodup
  rw [hequal, hzero]
  constructor
  · intro hpairwise first hfirst second hsecond hne hkey
    have hsymm : Std.Symm fun first second : RootedPath => first.key = second.key →
        tree.orphanBytes current first.key = 0 :=
      ⟨fun a b himp hkey => by rw [hkey]; exact himp hkey.symm⟩
    exact hpairwise.forall (mem_sortedBy.2 hfirst) (mem_sortedBy.2 hsecond) hne hkey
  · intro hall
    refine hsorted.imp_of_mem fun {first second} hfirst hsecond hne => ?_
    exact hall first (mem_sortedBy.1 hfirst) second (mem_sortedBy.1 hsecond) hne

/-- The credit of an observation is what the sweep of the same parents then
deletes, exactly when no directory that holds orphans of any size has two
spellings among the parents. -/
theorem credit_eq_swept_iff (xset : ExecutionSet) (others : ObservationFileSystem)
    (tree : TargetTree) (settings : SettingsReader) (runId : Str) :
    (observe xset (localObservationFileSystem others tree) settings runId).reclaimableTempBytes =
        totalSize (tree.removeOrphanedTemps
          (observe xset (localObservationFileSystem others tree) settings runId).targetParentPaths
          runId).2 ↔
      ∀ first ∈ (operationSubjects xset).targetParents,
        ∀ second ∈ (operationSubjects xset).targetParents,
          first ≠ second → first.key = second.key →
            ∀ folder, tree.visited first.key = some folder →
              ∀ entry ∈ folder.entries, entry.orphan runId = true → entry.size = 0 := by
  have hempty : ∀ key, tree.orphanBytes runId key = 0 ↔ ∀ folder, tree.visited key = some folder →
      ∀ entry ∈ folder.entries, entry.orphan runId = true → entry.size = 0 := by
    intro key
    unfold TargetTree.orphanBytes
    cases tree.visited key with
    | none => simp
    | some folder => simp [totalSize_eq_zero]
  refine (reclaimable_eq_deleted_iff tree (nodup_targetParents xset) runId).trans ?_
  simp only [hempty]

end Tree

/-! ## A directory with two spellings

The source spells a directory `sub`, the target `SUB`.  A file that both
have keeps the spelling of the target, a file that the target lacks gets
that of the source. -/

section Sample

local instance spelledUnicode : Unicode := asciiUnicode

/-- The digests of the two operations and of the default options. -/
local instance spelledDigest : Digest where
  operation kind _ _ _ _ :=
    if kind = .noop then 0x427601f9b52355a96a0b789ce5b0a472 else 0xe2e8cbd7ed5cffc4f0a0a133ef888210
  policy _ _ _ _ _ _ _ := str "b76cbc151bb77cf44410d52a81920a1d43824e657978598268e9074d4a4605ff"

def spelledFile (folder name : Str) (h : ∀ c ∈ [folder, name], IsComponent c) : FileRecord :=
  { lowerB with relPath := ⟨[folder, name], by simp, h⟩ }

def spelledFolder (name : Str) (h : IsComponent name) : DirRecord where
  relPath := some (.single name h)
  mtimeNs := 1700000000000000000
  metadata := ⟨0x10, none⟩
  fileIdentity := none

def spelledSource : ScanResult :=
  { ownScan [spelledFile (str "sub") (str "a") (by decide +kernel),
      spelledFile (str "sub") (str "b") (by decide +kernel)] with
    directories := [spelledFolder (str "sub") (by decide +kernel)] }

def spelledTarget : ScanResult :=
  { ownScan [spelledFile (str "SUB") (str "a") (by decide +kernel)] with
    directories := [spelledFolder (str "SUB") (by decide +kernel)] }

def spelledPlan : Plan :=
  (plan spelledSource spelledTarget {} {} .everything).toOption.get (by decide +kernel)

def spelledSet : ExecutionSet where
  plan := spelledPlan
  selection := spelledPlan.operations.map PlanOperation.opId
  selection_known := fun _ h => h

/-- The target with the temp of an earlier run in its directory. -/
def spelledTree : TargetTree where
  root := { device := 0, entries := [⟨str "SUB", false, 0⟩] }
  below := Dict.empty.set (str "SUB")
    { device := 0
      entries :=
        [⟨str "a", true, 3⟩,
          ⟨str "b.synctmp-11111111111111111111111111111111-22222222222222222222222222222222",
            true, 5⟩] }
  volume := fun _ => volumeB
  serial_inj := fun _ _ _ => rfl

def spelledRun : Str := str "33333333333333333333333333333333"

/-- The five bytes are counted twice and deleted once. -/
theorem credited_twice :
    spelledTree.reclaimableTempBytes (operationSubjects spelledSet).targetParents spelledRun = 10 ∧
      totalSize (spelledTree.removeOrphanedTemps
        (operationSubjects spelledSet).targetParents spelledRun).2 = 5 := by
  decide +kernel

theorem credit_not_swept :
    ¬ ∀ (xset : ExecutionSet) (others : ObservationFileSystem) (tree : TargetTree)
        (settings : SettingsReader) (runId : Str),
      (observe xset (localObservationFileSystem others tree) settings runId).reclaimableTempBytes =
        totalSize (tree.removeOrphanedTemps
          (observe xset (localObservationFileSystem others tree) settings runId).targetParentPaths
          runId).2 := by
  intro h
  have hequal : spelledTree.reclaimableTempBytes (operationSubjects spelledSet).targetParents
      spelledRun = totalSize (spelledTree.removeOrphanedTemps
        (operationSubjects spelledSet).targetParents spelledRun).2 :=
    h spelledSet
      { stat := fun _ _ _ => .error []
        observeRoot := fun _ => .error []
        freeSpace := fun _ => .error []
        reclaimableTempBytes := fun _ _ _ => .error []
        observeTrash := fun _ _ => .error [] }
      spelledTree ⟨.ok {}, .ok []⟩ spelledRun
  rw [credited_twice.1, credited_twice.2] at hequal
  exact absurd hequal (by decide)

end Sample

end NamiSync
