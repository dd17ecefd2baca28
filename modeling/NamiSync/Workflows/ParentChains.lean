/-
# `Workflows.ParentChains` — the folders above a selected operation

An operation depends on the nearest folder above it that the plan creates,
and on nothing else above it.  That folder has been planned before it and
depends on the next one, so the chain reaches every folder the target lacks;
the selection is closed under dependencies, so it holds the whole chain.

## What is proved

    parent_chain : each parent of what a selected operation places is a
      directory of the target that no operation removes, or is made by a
      selected operation that precedes it and that it depends on, directly or
      through others

under any destination policy, for a source scan with all its parents.

## The argument

Required directories are created shallow first, so an operation sees all that
will be created above it (`mem_mkdirLoop_final`), and depends on the nearest
(`placed_cases`).  The chain is then an induction on the depth
(`chain_reaches`).
-/
import NamiSync.Modules.ScanTree
import NamiSync.Workflows.SafeSubset

namespace NamiSync

open Listing

section Chains

variable [Unicode]

/-! ## Parents

Paths by their components, up to the keys of their parents. -/

namespace RelPath

/-- The parents after one of them are its parents. -/
theorem parents_of_split {path parent : RelPath} {nearer farther : List RelPath}
    (h : path.parents = nearer ++ parent :: farther) : parent.parents = farther := by
  induction nearer generalizing path with
  | nil =>
      rw [parents_eq] at h
      split at h
      · exact absurd h (by simp)
      · obtain ⟨rfl, hrest⟩ := List.cons.inj h
        exact hrest
  | cons first rest ih =>
      rw [parents_eq] at h
      split at h
      · exact absurd h (by simp)
      · obtain ⟨rfl, hrest⟩ := List.cons.inj h
        exact ih hrest

theorem depth_parent {path parent : RelPath} (h : parent ∈ path.parents) :
    parent.depth < path.depth := by
  obtain ⟨n, hn, rfl⟩ := List.mem_map.1 h
  rw [List.mem_reverse, List.mem_range] at hn
  rw [depth_upTo (by omega)]
  omega

/-- A parent in one spelling is a parent in the other. -/
theorem parent_of_key {p q parent : RelPath} (hkey : p.key = q.key) (h : parent ∈ p.parents) :
    ∃ other ∈ q.parents, other.key = parent.key := by
  have hmem : parent.key ∈ q.parents.map key := by
    rw [← map_key_parents hkey]
    exact List.mem_map_of_mem h
  exact List.mem_map.1 hmem

end RelPath

variable [Digest]

/-! ## The loop over the required directories

The loop sees the required directories by depth, so when it comes to one its
parent has been made or exists.  What it has made it never changes. -/

section Loop

variable {survey : Survey}

omit [Digest] in
theorem nearestCreatedParent_congr {created created' : Created} {path : RelPath}
    (h : ∀ parent ∈ path.parents, created.get? parent.key = created'.get? parent.key) :
    nearestCreatedParent path created = nearestCreatedParent path created' := by
  unfold nearestCreatedParent
  revert h
  induction path.parents with
  | nil =>
      intro _
      rfl
  | cons parent rest ih =>
      intro h
      rw [List.findSome?_cons, List.findSome?_cons, h parent List.mem_cons_self,
        ih fun above habove => h above (List.mem_cons_of_mem _ habove)]

theorem mkdirOperation_congr {created created' : Created} {path : RelPath}
    (h : ∀ parent ∈ path.parents, created.get? parent.key = created'.get? parent.key) :
    survey.mkdirOperation created path = survey.mkdirOperation created' path := by
  have hnearest := nearestCreatedParent_congr h
  unfold Survey.mkdirOperation
  simp only [hnearest]

/-- The loop touches the keys of its paths only. -/
theorem mkdirLoop_get?_of_fresh {paths : List RelPath} {created : Created} {key : Str}
    (h : ∀ path ∈ paths, path.key ≠ key) :
    (survey.mkdirLoop paths created).2.get? key = created.get? key := by
  induction paths generalizing created with
  | nil => rfl
  | cons path rest ih =>
      have hrest := fun p hp => h p (List.mem_cons_of_mem _ hp)
      unfold Survey.mkdirLoop
      split
      · dsimp only
        rw [ih hrest, Dict.get?_set_ne _ _ (h path List.mem_cons_self).symm]
      · exact ih hrest

/-- Shallow directories come first, so an operation sees the directories
above it as the loop leaves them. -/
theorem mem_mkdirLoop_final {paths : List RelPath} {created : Created}
    (hsorted : paths.Pairwise fun p q => p.depth ≤ q.depth) {operation : PlanOperation}
    (h : operation ∈ (survey.mkdirLoop paths created).1) :
    ∃ path ∈ paths, operation = survey.mkdirOperation (survey.mkdirLoop paths created).2 path := by
  induction paths generalizing created with
  | nil => exact absurd h List.not_mem_nil
  | cons path rest ih =>
      obtain ⟨hfirst, hsorted⟩ := List.pairwise_cons.1 hsorted
      unfold Survey.mkdirLoop at h ⊢
      split at h
      · next hlacks =>
          rw [if_pos hlacks]
          rcases List.mem_cons.1 h with rfl | h
          · refine ⟨path, List.mem_cons_self, mkdirOperation_congr fun parent hparent => ?_⟩
            have hshallow := RelPath.depth_parent hparent
            have hfresh : ∀ p ∈ rest, p.key ≠ parent.key := by
              intro p hp hkey
              have hdepth := RelPath.depth_eq_of_key hkey
              have hle := hfirst p hp
              omega
            dsimp only
            rw [mkdirLoop_get?_of_fresh hfresh, Dict.get?_set_ne]
            intro hkey
            have hdepth := RelPath.depth_eq_of_key hkey
            omega
          · obtain ⟨p, hp, heq⟩ := ih hsorted h
            exact ⟨p, List.mem_cons_of_mem _ hp, heq⟩
      · next hhas =>
          rw [if_neg hhas]
          obtain ⟨p, hp, heq⟩ := ih hsorted h
          exact ⟨p, List.mem_cons_of_mem _ hp, heq⟩

/-- What the loop keeps under a key it has emitted for the key. -/
theorem mkdirLoop_kept {paths : List RelPath} {created : Created} {key : Str}
    {operation : PlanOperation} (h : (survey.mkdirLoop paths created).2.get? key = some operation) :
    created.get? key = some operation ∨
      operation ∈ (survey.mkdirLoop paths created).1 ∧ operation.targetKey = key := by
  induction paths generalizing created with
  | nil => exact Or.inl h
  | cons path rest ih =>
      unfold Survey.mkdirLoop at h ⊢
      split at h
      · next hlacks =>
          rw [if_pos hlacks]
          rcases ih h with hset | ⟨hmem, hkey⟩
          · rw [Dict.get?_set] at hset
            split at hset
            · next hkey =>
                obtain rfl := Option.some.inj hset
                refine Or.inr ⟨List.mem_cons_self, ?_⟩
                rw [PlanOperation.targetKey, (mkdirOperation_kind survey created path).2, hkey]
            · exact Or.inl hset
          · exact Or.inr ⟨List.mem_cons_of_mem _ hmem, hkey⟩
      · next hhas =>
          rw [if_neg hhas]
          exact ih h

/-- A lacking directory that is required is created. -/
theorem mkdirLoop_made {paths : List RelPath} {created : Created} {path : RelPath}
    (hpath : path ∈ paths) (hlacks : survey.lacks path = true) :
    ∃ operation ∈ (survey.mkdirLoop paths created).1,
      (survey.mkdirLoop paths created).2.get? path.key = some operation ∧
        operation.targetKey = path.key := by
  induction paths generalizing created path with
  | nil => exact absurd hpath List.not_mem_nil
  | cons first rest ih =>
      unfold Survey.mkdirLoop
      by_cases hlater : ∃ other ∈ rest, other.key = path.key
      · obtain ⟨other, hother, hkey⟩ := hlater
        have hlacks' : survey.lacks other = true := by
          rw [Survey.lacks, hkey]
          exact hlacks
        split
        · obtain ⟨operation, hmem, hget, htarget⟩ := ih hother hlacks'
          rw [hkey] at hget htarget
          exact ⟨operation, List.mem_cons_of_mem _ hmem, hget, htarget⟩
        · rw [← hkey]
          exact ih hother hlacks'
      · -- The last spelling of the key is the one that stays.
        have hfresh : ∀ other ∈ rest, other.key ≠ path.key :=
          fun other hother hkey => hlater ⟨other, hother, hkey⟩
        obtain rfl : path = first := by
          rcases List.mem_cons.1 hpath with hfirst | hrest
          · exact hfirst
          · exact absurd rfl (hfresh path hrest)
        rw [if_pos (show (directoriesAt survey.targetDirs path.key).isEmpty = true from hlacks)]
        refine ⟨_, List.mem_cons_self, ?_, ?_⟩
        · dsimp only
          rw [mkdirLoop_get?_of_fresh hfresh, Dict.get?_set_self]
        · rw [PlanOperation.targetKey, (mkdirOperation_kind survey created path).2]

end Loop

/-! ## The chain

By induction on the depth: each created directory depends on the nearest created
one above it, down to a directory that the target has. -/

section Chain

variable {survey : Survey}

omit [Digest] in
theorem required_depth_sorted :
    (sortedBy (fun path => toLex (path.depth, recordKey path))
      survey.requiredDirectoryPaths).Pairwise fun p q => p.depth ≤ q.depth := by
  refine (pairwise_sortedBy (fun path : RelPath => toLex (path.depth, recordKey path)) _).imp
    fun {p q} hle => ?_
  rcases Prod.Lex.toLex_le_toLex.1 hle with hlt | ⟨heq, -⟩
  · exact Nat.le_of_lt hlt
  · exact Nat.le_of_eq heq

theorem mkdirs_final {operation : PlanOperation} (h : operation ∈ survey.mkdirs.1) :
    ∃ path ∈ survey.requiredDirectoryPaths,
      operation = survey.mkdirOperation survey.mkdirs.2 path := by
  obtain ⟨path, hpath, heq⟩ := mem_mkdirLoop_final required_depth_sorted h
  exact ⟨path, mem_sortedBy.1 hpath, heq⟩

/-- The folders that an operation needs, among those created. -/
abbrev Survey.Needs (survey : Survey) (operation folder : PlanOperation) : Prop :=
  NeededBy PlanOperation.opId PlanOperation.dependencies survey.mkdirs.1 operation folder

/-- From the nearest folder that is created above a path, the dependencies
reach the folder for every parent that the target lacks. -/
theorem chain_reaches
    (hclosed : ∀ path ∈ survey.requiredDirectoryPaths, ∀ parent ∈ path.parents,
      parent ∈ survey.requiredDirectoryPaths) {path parent : RelPath}
    (hrequired : ∀ parent ∈ path.parents, parent ∈ survey.requiredDirectoryPaths)
    (hparent : parent ∈ path.parents) (hlacks : survey.lacks parent = true) :
    ∃ first ∈ survey.mkdirs.1, nearestCreatedParent path survey.mkdirs.2 = some first ∧
      ∃ folder ∈ survey.mkdirs.1, folder.targetKey = parent.key ∧
        Relation.ReflTransGen survey.Needs first folder := by
  induction hdepth : path.depth using Nat.strong_induction_on generalizing path parent with
  | h depth ih =>
      have hmade {folder : RelPath} (hfolder : folder ∈ survey.requiredDirectoryPaths)
          (hlacks : survey.lacks folder = true) : ∃ operation ∈ survey.mkdirs.1,
            survey.mkdirs.2.get? folder.key = some operation ∧ operation.targetKey = folder.key :=
        mkdirLoop_made (mem_sortedBy.2 hfolder) hlacks
      obtain ⟨folder, hfolder, hget, hkey⟩ := hmade (hrequired parent hparent) hlacks
      cases hnearest : nearestCreatedParent path survey.mkdirs.2 with
      | none =>
          unfold nearestCreatedParent at hnearest
          rw [List.findSome?_eq_none_iff.1 hnearest parent hparent] at hget
          exact absurd hget (by simp)
      | some first =>
          obtain ⟨nearer, above, farther, hsplit, hfirst, hnone⟩ :=
            List.findSome?_eq_some_iff.1 hnearest
          obtain ⟨hfirstmem, hfirstkey⟩ := (mkdirLoop_kept hfirst).resolve_left (by simp)
          refine ⟨first, hfirstmem, rfl, ?_⟩
          have hnear : parent ∉ nearer := by
            intro hin
            rw [hnone parent hin] at hget
            exact absurd hget (by simp)
          have habove : above ∈ path.parents := by
            rw [hsplit]
            exact List.mem_append_right _ List.mem_cons_self
          rw [hsplit] at hparent
          rcases List.mem_cons.1 ((List.mem_append.1 hparent).resolve_left hnear) with rfl | hfar
          · obtain rfl := Option.some.inj (hfirst.symm.trans hget)
            exact ⟨first, hfirstmem, hkey, .refl⟩
          · -- The first folder's own path is another spelling of the parent.
            obtain ⟨made, hmadePath, hmadeEq⟩ := mkdirs_final hfirstmem
            have hmadeKey : above.key = made.key := by
              rw [← hfirstkey, hmadeEq, PlanOperation.targetKey, (mkdirOperation_kind ..).2]
            rw [← RelPath.parents_of_split hsplit] at hfar
            obtain ⟨other, hother, hotherKey⟩ := RelPath.parent_of_key hmadeKey hfar
            have hshallow : made.depth < depth := by
              rw [← hdepth, ← RelPath.depth_eq_of_key hmadeKey]
              exact RelPath.depth_parent habove
            have hotherLacks : survey.lacks other = true := by
              rw [Survey.lacks, hotherKey]
              exact hlacks
            obtain ⟨next, hnext, hnextNearest, folder, hfolder, hfolderKey, hreach⟩ :=
              ih made.depth hshallow (hclosed made hmadePath) hother hotherLacks rfl
            refine ⟨folder, hfolder, hfolderKey.trans hotherKey, .head ⟨hnext, ?_⟩ hreach⟩
            rw [hmadeEq, mkdirOperation_dependencies, hnextNearest]
            exact List.mem_singleton_self _

end Chain

/-! ## What stands above an operation

Nothing in the plan removes a directory that a selected operation needs, since
such a directory is required. -/

theorem matchedStep_kinds (survey : Survey) (item : DestinationAssignment)
    (source target : FileRecord) (mismatch : Bool) (dependency : Option PlanOperation) :
    (survey.matchedStep item source target mismatch dependency).operation.kind = .noop ∨
      (survey.matchedStep item source target mismatch dependency).operation.kind = .update ∨
      (survey.matchedStep item source target mismatch dependency).operation.kind = .recase := by
  unfold Survey.matchedStep
  dsimp only
  cases metadataEqual source.stat target.stat survey.granularity <;>
    split <;> try (split <;> try split) <;> simp

omit [Digest] in
/-- The state in which an operation expects what it takes away. -/
def PlanOperation.destroyedExpected (operation : PlanOperation) : Option FileStat :=
  match operation.kind with
  | .trash | .delete => operation.targetExpected
  | .move | .moveUpdate => operation.priorTargetExpected
  | _ => none

omit [Digest] in
/-- The operation takes a directory away at the key. -/
def PlanOperation.RemovesDirectory (operation : PlanOperation) (key : Str) : Prop :=
  (∃ path ∈ operation.destructivePaths, path.key = key) ∧
    ∃ stat ∈ operation.destroyedExpected, stat.kind = .directory

section Standing

variable {survey : Survey} {operation : PlanOperation}

/-- What a step for a file takes away is a file. -/
theorem contentStep_destroys {created : Created} {item : DestinationAssignment}
    {step : ContentStep} (h : survey.contentStep created item = some step) {stat : FileStat}
    (hstat : stat ∈ step.operation.destroyedExpected) : stat.kind = .file := by
  obtain ⟨source, -, hfrom⟩ := contentStep_from h
  cases hfrom with
  | blocked => exact absurd hstat (by simp [PlanOperation.destroyedExpected, blockedOperation])
  | matched target mismatch =>
      have hkind := matchedStep_kinds survey item source target mismatch
        (nearestCreatedParent item.targetRelPath created)
      revert hstat
      unfold PlanOperation.destroyedExpected
      obtain hkind | hkind | hkind := hkind <;> rw [hkind] <;> exact fun h => absurd h (by simp)
  | unmatched =>
      revert hstat
      unfold Survey.unmatchedStep
      split
      · next pair oldTarget _ =>
          dsimp only [PlanOperation.destroyedExpected]
          intro hstat
          cases hsame : metadataEqual source.stat oldTarget.stat survey.granularity <;>
            (rw [hsame] at hstat
             rw [← Option.some.inj hstat]
             rfl)
      · exact fun h => absurd h (by simp [PlanOperation.destroyedExpected])

/-- A required directory that the target has stays. -/
theorem required_stays {folder : RelPath} (hfolder : folder ∈ survey.requiredDirectoryPaths)
    (hmem : operation ∈ survey.operations) : ¬ operation.RemovesDirectory folder.key := by
  rintro ⟨⟨path, hpath, hkey⟩, stat, hstat, hkind⟩
  cases Survey.plans_of_mem hmem with
  | mkdir hmkdir => simp [PlanOperation.destructivePaths, mem_mkdirs hmkdir] at hpath
  | content item _ step hcase hstep =>
      subst hstep
      rw [contentStep_destroys hcase hstat] at hkind
      exact absurd hkind (by simp)
  | removal kind record _ hremoval hremovalEq =>
      subst hremovalEq
      have hfile : stat = record.stat := by
        revert hstat
        rw [hremoval]
        unfold PlanOperation.destroyedExpected Survey.removalOperation
        split_ifs <;> exact fun h => (Option.some.inj h).symm
      rw [hfile] at hkind
      exact absurd hkind (by simp [FileRecord.stat])
  | unsupported record _ _ hblocked =>
      subst hblocked
      exact absurd hpath List.not_mem_nil
  | cleanup directory _ cleaned _ before hkeep hcleanup =>
      subst hcleanup
      obtain rfl := List.mem_singleton.1 hpath
      exact (keepsDirectory_eq_false hkeep).1 folder hfolder hkey.symm

/-- A file or folder that the plan puts on the target depends on the
nearest folder above it that is created. -/
theorem placed_cases
    (hclosed : ∀ path ∈ survey.requiredDirectoryPaths, ∀ parent ∈ path.parents,
      parent ∈ survey.requiredDirectoryPaths)
    (hmem : operation ∈ survey.operations) (hfree : operation.blocked = false)
    (hkind : operation.kind ∈ [.mkdir, .copy, .move, .moveUpdate]) :
    (∀ parent ∈ operation.targetRelPath.parents, parent ∈ survey.requiredDirectoryPaths) ∧
      operation.dependencies = ((nearestCreatedParent operation.targetRelPath
        survey.mkdirs.2).map PlanOperation.opId).toList := by
  cases Survey.plans_of_mem hmem with
  | mkdir hmkdir =>
      obtain ⟨path, hpath, rfl⟩ := mkdirs_final hmkdir
      rw [mkdirOperation_dependencies, (mkdirOperation_kind ..).2]
      exact ⟨hclosed path hpath, rfl⟩
  | content item hitem step hcase hstep =>
      subst hstep
      rw [contentStep_dependencies hcase]
      have htarget : step.operation.targetRelPath = item.targetRelPath := by
        cases contentStep_branch hcase with
        | blocked _ htarget _ => exact htarget
        | matched source target mismatch _ _ hmatched =>
            have hkinds := matchedStep_kinds survey item source target mismatch
              (nearestCreatedParent item.targetRelPath survey.mkdirs.2)
            rw [← hmatched] at hkinds
            obtain hother | hother | hother := hkinds <;> rw [hother] at hkind <;>
              exact absurd hkind (by decide)
        | unmatched source _ _ _ hunmatched =>
            rw [hunmatched]
            exact (unmatchedStep_paths ..).1
      rw [htarget]
      refine ⟨fun parent hparent => ?_, rfl⟩
      unfold Survey.requiredDirectoryPaths
      rw [List.mem_dedup, List.mem_append]
      exact Or.inr (List.mem_flatMap.2 ⟨item, hitem, hparent⟩)
  | removal kind record _ hremoval hremovalEq =>
      subst hremovalEq
      rw [show (Survey.removalOperation kind record).kind = kind from rfl, hremoval] at hkind
      split_ifs at hkind <;> exact absurd hkind (by decide)
  | unsupported record _ _ hblocked =>
      subst hblocked
      exact absurd hfree (by simp [PlanOperation.blocked, blockedOperation])
  | cleanup directory _ cleaned _ before _ hcleanup =>
      subst hcleanup
      exact absurd hkind (by simp [Survey.cleanupOperation])

end Standing

/-! ## Complete chains

A selection keeps an operation only with its dependencies, so the chain above a
selected operation is selected. -/

omit [Digest] in
/-- Under the identity policy the required directories are closed. -/
theorem required_closed {source target : ScanResult} {correspondence : MappingSnapshot}
    {options : SyncOptions} (hrooted : source.Rooted) {path parent : RelPath}
    (hpath : path ∈ (survey source target correspondence options).requiredDirectoryPaths)
    (hparent : parent ∈ path.parents) :
    parent ∈ (survey source target correspondence options).requiredDirectoryPaths := by
  unfold Survey.requiredDirectoryPaths at hpath ⊢
  rw [List.mem_dedup, List.mem_append] at hpath ⊢
  rcases hpath with hdirectory | habove
  · obtain ⟨record, hrecord, hsome⟩ := List.mem_filterMap.1 hdirectory
    obtain ⟨hlisted, hvisible⟩ := (mem_sourceDirs hsome).1 hrecord
    have hentry : path ∈ source.entryPaths :=
      List.mem_append_left _ (List.mem_append_right _
        (List.mem_filterMap.2 ⟨record, hlisted, hsome⟩))
    obtain ⟨folder, hfolder, hfolderPath⟩ := List.mem_map.1 (hrooted path hentry parent hparent)
    refine Or.inl (List.mem_filterMap.2 ⟨folder, (mem_sourceDirs hfolderPath).2 ⟨hfolder, ?_⟩,
      hfolderPath⟩)
    exact options.filters.excludes_parent hvisible hparent
  · obtain ⟨item, hitem, hmem⟩ := List.mem_flatMap.1 habove
    exact Or.inr (List.mem_flatMap.2 ⟨item, hitem, RelPath.parents_trans hmem hparent⟩)

omit [Digest] in
/-- What a selected operation depends on is selected. -/
theorem selected_needs {plan : Plan} {operation needed : PlanOperation}
    (hmem : operation ∈ plan.operations)
    (hselected : operation.opId ∈ (deriveExecutionSelection plan).selection)
    (hneeds : Relation.TransGen
      (NeededBy PlanOperation.opId PlanOperation.dependencies plan.operations) operation needed) :
    needed ∈ plan.operations ∧ needed.opId ∈ (deriveExecutionSelection plan).selection := by
  have hclosed := plan.selection_greatest.1.closed
  induction hneeds with
  | single hstep => exact ⟨hstep.1, hclosed _ hselected _ ⟨operation, hmem, rfl, hstep.2⟩⟩
  | @tail middle last _ hstep ih =>
      exact ⟨hstep.1, hclosed _ ih.2 _ ⟨middle, ih.1, rfl, hstep.2⟩⟩

/-- **Parent chains are complete.**  Each folder above what a selected
operation puts on the target is on the target, to stay, or is made by a
selected operation that comes before it and that it depends on. -/
theorem parent_chain {source target : ScanResult} {correspondence : MappingSnapshot}
    {options : SyncOptions} {scope : Scope} {result : Plan} (hrooted : source.Rooted)
    (hplan : plan source target correspondence options scope = .ok result)
    {operation : PlanOperation} (hmem : operation ∈ result.operations)
    (hselected : operation.opId ∈ (deriveExecutionSelection result).selection)
    (hkind : operation.kind ∈ [.mkdir, .copy, .move, .moveUpdate]) {parent : RelPath}
    (hparent : parent ∈ operation.targetRelPath.parents) :
    (∃ directory ∈ target.directories, directory.key = parent.key ∧
      ∀ other ∈ result.operations, ¬ other.RemovesDirectory parent.key) ∨
    ∃ folder ∈ result.operations, folder.kind = .mkdir ∧ folder.targetKey = parent.key ∧
      folder.opId ∈ (deriveExecutionSelection result).selection ∧
      Precedes result.operations folder operation ∧
      Relation.TransGen (NeededBy PlanOperation.opId PlanOperation.dependencies result.operations)
        operation folder := by
  have hfree := (selected_cases hmem hselected).1
  have hclosed (path : RelPath)
      (hpath : path ∈ (survey source target correspondence options).requiredDirectoryPaths)
      (parent : RelPath) (hparent : parent ∈ path.parents) :=
    required_closed hrooted hpath hparent
  have hlisted (directory : DirRecord)
      (h : directory ∈ (survey source target correspondence options).targetDirs) :=
    (mem_targetDirs.1 h).1
  have hoperations := (plan_eq_ok hplan).1
  have hordered := @operations_ordered _ _ (survey source target correspondence options)
  generalize survey source target correspondence options = tables at *
  have hmem' : operation ∈ tables.operations := hoperations ▸ hmem
  obtain ⟨hrequired, hdependencies⟩ := placed_cases hclosed hmem' hfree hkind
  -- The target has the directory, and then nothing removes it, or the plan makes it.
  cases hlacks : tables.lacks parent with
  | false =>
      left
      obtain ⟨directory, hdirectory⟩ := List.exists_mem_of_ne_nil _
        (show directoriesAt tables.targetDirs parent.key ≠ [] by
          simpa [Survey.lacks] using hlacks)
      obtain ⟨hdirectory, hkey⟩ := mem_directoriesAt_iff.1 hdirectory
      refine ⟨directory, hlisted directory hdirectory, hkey, fun other hother => ?_⟩
      exact required_stays (hrequired parent hparent) (hoperations ▸ hother)
  | true =>
      right
      obtain ⟨first, hfirst, hnearest, folder, hfolder, hkey, hreach⟩ :=
        chain_reaches hclosed hrequired hparent hlacks
      have hmade {made : PlanOperation} (h : made ∈ tables.mkdirs.1) :
          made ∈ result.operations := by
        rw [hoperations, Survey.operations_eq]
        simp only [List.mem_append]
        exact Or.inl (Or.inl (Or.inl (Or.inl h)))
      -- From the operation to its nearest created parent, and on along the chain.
      have hneeds : Relation.TransGen
          (NeededBy PlanOperation.opId PlanOperation.dependencies result.operations) operation
          folder := by
        refine .head' ⟨hmade hfirst, ?_⟩ (Relation.ReflTransGen.mono
          (fun a b hab => ⟨hmade hab.1, hab.2⟩) _ _ hreach)
        rw [hdependencies, hnearest]
        exact List.mem_singleton_self _
      rw [← hoperations] at hordered
      refine ⟨folder, hmade hfolder, mem_mkdirs hfolder, hkey, ?_, ?_, hneeds⟩
      · exact (selected_needs hmem hselected hneeds).2
      · exact (hordered.precedes_of_transGen (nodup_of_checkOperations result.checked).1 hmem
          hneeds).2

end Chains

/-! A file in a folder that the target lacks. -/

section Sample

local instance nestedUnicode : Unicode := asciiUnicode

/-- The digests of the two operations and of the default options. -/
local instance nestedDigest : Digest where
  operation kind _ _ _ _ :=
    if kind = .mkdir then 0x14c994aeda10b56aacd324576e76f2e2 else 0x2c60e1b6c2c7c8ee179861c06de9f4c7
  policy _ _ _ _ _ _ _ := str "b76cbc151bb77cf44410d52a81920a1d43824e657978598268e9074d4a4605ff"

def nestedFolder : RelPath := ⟨[str "d"], by simp, by decide +kernel⟩

def nestedPath : RelPath := ⟨[str "d", str "f"], by simp, by decide +kernel⟩

def nestedSource : ScanResult :=
  { ownScan [{ lowerB with relPath := nestedPath }] with
    directories := [⟨some nestedFolder, 1700000000000000000, ⟨0x10, none⟩, none, 1, Nat.one_pos⟩] }

def nestedPlan : Plan :=
  (plan nestedSource (ownScan []) {} {} .everything).toOption.get (by decide +kernel)

theorem nested_planned : plan nestedSource (ownScan []) {} {} .everything = .ok nestedPlan :=
  Checked.ok_of_get _

def nestedCopy : PlanOperation := nestedPlan.operations.get ⟨1, by decide +kernel⟩

theorem nested_chain :
    ∃ folder ∈ nestedPlan.operations, folder.kind = .mkdir ∧ folder.targetKey = nestedFolder.key ∧
      Precedes nestedPlan.operations folder nestedCopy := by
  have hrooted : nestedSource.Rooted := by
    unfold ScanResult.Rooted
    decide +kernel
  have hmem : nestedCopy ∈ nestedPlan.operations := List.get_mem _ _
  have hparent : nestedFolder ∈ nestedCopy.targetRelPath.parents := by decide +kernel
  rcases parent_chain hrooted nested_planned hmem (by decide +kernel) (by decide +kernel)
    hparent with
    ⟨directory, hdirectory, -⟩ | ⟨folder, hmem, hkind, hkey, -, hprecedes, -⟩
  · exact absurd hdirectory List.not_mem_nil
  · exact ⟨folder, hmem, hkind, hkey, hprecedes⟩

end Sample

end NamiSync
