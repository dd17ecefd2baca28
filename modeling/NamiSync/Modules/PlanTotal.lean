/-
# `Modules.PlanTotal` — when the planner yields a plan

An operation's id is the digest of its intent.  The five groups of
operations differ in kind or reason; in four of them the target paths are
distinct, and an assigned file is told apart by its source path.  The one
slip is again that files with one key are reported by the first of them: two
of them with one destination have one intent.

## What is proved

    plan_total_iff : if the digest separates the intents of the plan and the
      assignment is valid, the loop finds the source of each item, and `plan`
      returns a plan exactly when no two files with one key are sent to one
      destination

## What it is not

It says nothing about a digest with collisions: two operations with different
intents and one id would be refused by `Plan.__post_init__`, and the
hypothesis excludes this for the intents at hand only, not for all texts.

## The argument

`Plan.__post_init__` checks that the ids are distinct and that dependencies
come first.  The second holds of every assignment (`operations_ordered`).
For the first, the groups of a plan differ in the kind or the reason of their
intents, and inside a group the targets are distinct; only the group of the
assigned files is left, and there `intent_eq_iff` says which two coincide.
-/
import Mathlib.Data.List.Pairwise
import NamiSync.Lib.Ordered
import NamiSync.Modules.OwnOperation
import NamiSync.Modules.PlanOrder

namespace NamiSync

open Listing

section Planning

variable [Unicode]

/-! ## Intents

The id of an operation is a digest of what it intends.  Two operations have one
id exactly when their intents are equal, as the digest does not collide on the
plan's own intents. -/

/-- What the id of an operation is the digest of. -/
structure Intent where
  kind : OperationKind
  source : Option RelPath
  target : RelPath
  priorTarget : Option RelPath
  reason : OperationReason
  deriving DecidableEq

def Intent.digest [Digest] (intent : Intent) : OpId :=
  deterministicOperationId intent.kind intent.source intent.target intent.priorTarget intent.reason

def PlanOperation.intent (operation : PlanOperation) : Intent :=
  ⟨operation.kind, operation.sourceRelPath, operation.targetRelPath, operation.priorTargetRelPath,
    operation.reason⟩

/-- The part of the plan that an intent belongs to. -/
def Intent.group (intent : Intent) : Nat :=
  match intent.kind, intent.reason with
  | .mkdir, _ => 0
  | _, .targetOnly => 2
  | _, .unsupported => 3
  | _, .directoryCleanup => 4
  | _, _ => 1

/-! ## `Plan.__post_init__`

The constructor goes through the operations once and checks that each id is new
and each dependency is known by then. -/

section Order

/-- Each operation comes after its dependencies. -/
abbrev DependencyOrdered (known : Set OpId) (operations : List PlanOperation) : Prop :=
  Ordered PlanOperation.opId PlanOperation.dependencies known operations

theorem checkOperations_eq_none {known : List OpId} {operations : List PlanOperation} :
    checkOperations known operations = none ↔
      (operations.map PlanOperation.opId).Nodup ∧
        (∀ operation ∈ operations, operation.opId ∉ known) ∧
        DependencyOrdered {id | id ∈ known} operations := by
  constructor
  · intro h
    obtain ⟨hnodup, hfresh⟩ := nodup_of_checkOperations h
    refine ⟨hnodup, hfresh, ?_⟩
    clear hnodup hfresh
    induction operations generalizing known with
    | nil => trivial
    | cons operation rest ih =>
        obtain ⟨-, hknown, hrest⟩ := checkOperations_cons.1 h
        refine ⟨hknown, (ih hrest).mono fun id hid => ?_⟩
        rcases List.mem_cons.1 hid with rfl | hid
        · exact Set.mem_insert _ _
        · exact Set.mem_insert_of_mem _ hid
  · rintro ⟨hnodup, hfresh, hordered⟩
    induction operations generalizing known with
    | nil => rfl
    | cons operation rest ih =>
        obtain ⟨hfirst, hnodup⟩ := List.nodup_cons.1 hnodup
        refine checkOperations_cons.2 ⟨hfresh _ List.mem_cons_self, hordered.1, ih hnodup ?_ ?_⟩
        · intro other hother hmem
          rcases List.mem_cons.1 hmem with hsame | hmem
          · exact hfirst (List.mem_map.2 ⟨other, hother, hsame⟩)
          · exact hfresh other (List.mem_cons_of_mem _ hother) hmem
        · refine hordered.2.mono fun id hid => ?_
          rcases Set.mem_insert_iff.1 hid with rfl | hid
          · exact List.mem_cons_self
          · exact List.mem_cons_of_mem _ hid

end Order

variable [Digest]

/-! ## Dependencies

Each operation depends on operations that the planner has made before it, so the
second check always passes. -/

section Dependencies

variable {survey : Survey}

theorem mkdirOperation_dependencies (created : Created) (path : RelPath) :
    (survey.mkdirOperation created path).dependencies =
      ((nearestCreatedParent path created).map PlanOperation.opId).toList := by
  unfold Survey.mkdirOperation
  dsimp only
  split
  · rfl
  · split <;> rfl

theorem matchedStep_dependencies (item : DestinationAssignment) (source target : FileRecord)
    (mismatch : Bool) (dependency : Option PlanOperation) :
    (survey.matchedStep item source target mismatch dependency).operation.dependencies =
      (dependency.map PlanOperation.opId).toList := by
  unfold Survey.matchedStep
  dsimp only
  split
  · rfl
  · split
    · split
      · split <;> rfl
      · rfl
    · rfl

theorem contentStep_dependencies {created : Created} {item : DestinationAssignment}
    {step : ContentStep} (h : survey.contentStep created item = some step) :
    step.operation.dependencies =
      ((nearestCreatedParent item.targetRelPath created).map PlanOperation.opId).toList := by
  obtain ⟨source, -, hfrom⟩ := contentStep_from h
  cases hfrom with
  | blocked => rfl
  | matched => exact matchedStep_dependencies ..
  | unmatched =>
      unfold Survey.unmatchedStep
      split <;> rfl

omit [Digest] in
/-- A created folder that is found is one of those created. -/
theorem nearestCreatedParent_mem {path : RelPath} {created : Created} {id : OpId}
    (h : id ∈ ((nearestCreatedParent path created).map PlanOperation.opId).toList) :
    ∃ key operation, created.get? key = some operation ∧ operation.opId = id := by
  cases hnearest : nearestCreatedParent path created with
  | none =>
      rw [hnearest] at h
      exact absurd h List.not_mem_nil
  | some operation =>
      rw [hnearest] at h
      obtain ⟨parent, -, hget⟩ := List.exists_of_findSome?_eq_some hnearest
      exact ⟨parent.key, operation, hget, (List.mem_singleton.1 h).symm⟩

/-- The loop over the required directories emits each directory after the
one it is in, and keeps no other operation. -/
theorem mkdirLoop_ordered {paths : List RelPath} {created : Created} {known : Set OpId}
    (hknown : ∀ key operation, created.get? key = some operation → operation.opId ∈ known) :
    DependencyOrdered known (survey.mkdirLoop paths created).1 ∧
      ∀ key operation, (survey.mkdirLoop paths created).2.get? key = some operation →
        operation.opId ∈ known ∪ names PlanOperation.opId (survey.mkdirLoop paths created).1 := by
  induction paths generalizing created known with
  | nil => exact ⟨trivial, fun key operation hget => Or.inl (hknown key operation hget)⟩
  | cons path rest ih =>
      unfold Survey.mkdirLoop
      split
      · have hnext : ∀ key operation,
            (created.set path.key (survey.mkdirOperation created path)).get? key = some operation →
            operation.opId ∈ insert (survey.mkdirOperation created path).opId known := by
          intro key operation hget
          rw [Dict.get?_set] at hget
          split at hget
          · rw [Option.some.inj hget]
            exact Set.mem_insert _ _
          · exact Set.mem_insert_of_mem _ (hknown key operation hget)
        obtain ⟨hordered, hkept⟩ := ih hnext
        refine ⟨⟨?_, hordered⟩, ?_⟩
        · intro id hid
          rw [mkdirOperation_dependencies] at hid
          obtain ⟨key, operation, hget, rfl⟩ := nearestCreatedParent_mem hid
          exact hknown key operation hget
        · intro key operation hget
          rw [← insert_names]
          exact hkept key operation hget
      · exact ih hknown

omit [Digest] in
theorem mem_foldl_set {ν : Type} {paths : List RelPath} {value v : ν} {before : Dict RelPath ν}
    {path : RelPath}
    (h : (paths.foldl (fun removals path => removals.set path value) before).get? path = some v) :
    v = value ∨ before.get? path = some v := by
  induction paths generalizing before with
  | nil => exact Or.inr h
  | cons first rest ih =>
      rcases ih h with hvalue | hset
      · exact Or.inl hvalue
      · rw [Dict.get?_set] at hset
        split at hset
        · exact Or.inl (Option.some.inj hset).symm
        · exact Or.inr hset

omit [Digest] in
theorem mem_foldl_removals {operations : List PlanOperation} {before : Dict RelPath PlanOperation}
    {path : RelPath} {operation : PlanOperation}
    (h : (operations.foldl (fun removals operation => operation.destructivePaths.foldl
      (fun removals path => removals.set path operation) removals) before).get? path =
        some operation) :
    operation ∈ operations ∨ before.get? path = some operation := by
  induction operations generalizing before with
  | nil => exact Or.inr h
  | cons first rest ih =>
      rcases ih h with hrest | hbefore
      · exact Or.inl (List.mem_cons_of_mem _ hrest)
      · rcases mem_foldl_set hbefore with rfl | hbefore
        · exact Or.inl List.mem_cons_self
        · exact Or.inr hbefore

omit [Digest] in
/-- `removal_by_path` holds operations it was given. -/
theorem mem_removalByPath {operations : List PlanOperation} {path : RelPath}
    {operation : PlanOperation} (h : (removalByPath operations).get? path = some operation) :
    operation ∈ operations :=
  (mem_foldl_removals h).resolve_right (by simp)

/-- The cleanup loop emits each directory after those below it. -/
theorem cleanupLoop_ordered {removed : List Str} {removals : Dict RelPath PlanOperation}
    {directories : List DirRecord} {cleaned : Dict Str PlanOperation} {known : Set OpId}
    (hremovals : ∀ path operation, removals.get? path = some operation → operation.opId ∈ known)
    (hcleaned : ∀ key operation, cleaned.get? key = some operation → operation.opId ∈ known) :
    DependencyOrdered known (survey.cleanupLoop removed removals directories cleaned) := by
  induction directories generalizing cleaned known with
  | nil => trivial
  | cons directory rest ih =>
      unfold Survey.cleanupLoop
      split
      · exact ih hremovals hcleaned
      · next path _ =>
          split
          · exact ih hremovals hcleaned
          · refine ⟨?_, ih ?_ ?_⟩
            · intro id hid
              obtain hbelow | hchild := List.mem_append.1
                (List.mem_dedup.1 (mem_sortedBy.1 (show id ∈ sortedBy _ _ from hid)))
              · obtain ⟨entry, hentry, rfl⟩ := List.mem_map.1 hbelow
                exact hremovals entry.1 entry.2
                  (Dict.get?_eq_some.2 (List.mem_filter.1 hentry).1)
              · obtain ⟨cleanup, hcleanup, rfl⟩ := List.mem_map.1 hchild
                obtain ⟨entry, hentry, rfl⟩ := List.mem_map.1 (List.mem_filter.1 hcleanup).1
                exact hcleaned entry.1 entry.2 (Dict.get?_eq_some.2 hentry)
            · intro path operation hget
              exact Set.mem_insert_of_mem _ (hremovals path operation hget)
            · intro key operation hget
              rw [Dict.get?_set] at hget
              split at hget
              · rw [Option.some.inj hget]
                exact Set.mem_insert _ _
              · exact Set.mem_insert_of_mem _ (hcleaned key operation hget)

/-- Whatever the assignment is, dependencies precede their dependents. -/
theorem operations_ordered : DependencyOrdered ∅ survey.operations := by
  obtain ⟨hmkdirs, hcreated⟩ := @mkdirLoop_ordered _ _ survey
    (sortedBy (fun path => toLex (path.depth, recordKey path)) survey.requiredDirectoryPaths)
    .empty ∅ (fun key operation hget => absurd hget (by simp))
  unfold Survey.operations
  dsimp only
  simp only [ordered_append, and_assoc]
  refine ⟨hmkdirs, ?_, ?_, ?_, ?_⟩
  · refine ordered_of_known fun operation hoperation id hid => ?_
    obtain ⟨step, hstep, rfl⟩ := List.mem_map.1 hoperation
    obtain ⟨item, -, hcase⟩ := mem_contentSteps hstep
    rw [contentStep_dependencies hcase] at hid
    obtain ⟨key, made, hget, rfl⟩ := nearestCreatedParent_mem hid
    exact hcreated key made hget
  · refine ordered_of_known fun operation hoperation id hid => ?_
    unfold Survey.removals at hoperation
    split at hoperation
    · exact absurd hoperation List.not_mem_nil
    · obtain ⟨record, -, rfl⟩ := List.mem_map.1 hoperation
      exact absurd hid List.not_mem_nil
  · refine ordered_of_known fun operation hoperation id hid => ?_
    obtain ⟨path, -, rfl⟩ := List.mem_map.1 hoperation
    exact absurd hid List.not_mem_nil
  · refine cleanupLoop_ordered (fun path operation hget => ?_) fun key operation hget =>
      absurd hget (by simp)
    refine Or.inr ⟨operation, ?_, rfl⟩
    simp only [List.mem_append]
    rcases List.mem_append.1 (mem_removalByPath hget) with hcontent | hremoval
    · exact Or.inl (Or.inl (Or.inr hcontent))
    · exact Or.inl (Or.inr hremoval)

end Dependencies

/-! ## Groups of intents

The five lists of a plan have intents that cannot be equal across the lists: the
kind tells the directories apart, the reason the others.  So distinctness is
shown list by list. -/

section Groups

variable {survey : Survey} {operation : PlanOperation}

/-- The id of an operation is the digest of its intent. -/
structure PlanOperation.OfGroup (group : Nat) (operation : PlanOperation) : Prop where
  opId_eq : operation.opId = operation.intent.digest
  group_eq : operation.intent.group = group

theorem mkdirs_group (h : operation ∈ survey.mkdirs.1) : operation.OfGroup 0 := by
  obtain ⟨path, -, before, rfl⟩ := mem_mkdirLoop h
  unfold Survey.mkdirOperation
  dsimp only
  split
  · exact ⟨rfl, rfl⟩
  · split <;> exact ⟨rfl, rfl⟩

theorem matchedStep_group (item : DestinationAssignment) (source target : FileRecord)
    (mismatch : Bool) (dependency : Option PlanOperation) :
    (survey.matchedStep item source target mismatch dependency).operation.OfGroup 1 := by
  unfold Survey.matchedStep
  dsimp only
  cases metadataEqual source.stat target.stat survey.granularity with
  | true =>
      split
      · exact ⟨rfl, rfl⟩
      · split
        · split <;> exact ⟨rfl, rfl⟩
        · exact ⟨rfl, rfl⟩
  | false =>
      split
      · exact ⟨rfl, rfl⟩
      · split
        · split <;> exact ⟨rfl, rfl⟩
        · exact ⟨rfl, rfl⟩

theorem contentStep_group {created : Created} {item : DestinationAssignment} {step : ContentStep}
    (h : survey.contentStep created item = some step) : step.operation.OfGroup 1 := by
  obtain ⟨source, -, hfrom⟩ := contentStep_from h
  cases hfrom with
  | blocked _ reason _ _ hreason =>
      refine ⟨rfl, ?_⟩
      simp only [List.mem_cons, List.not_mem_nil, or_false] at hreason
      obtain rfl | rfl | rfl | rfl := hreason <;> rfl
  | matched => exact matchedStep_group ..
  | unmatched =>
      unfold Survey.unmatchedStep
      split
      · next pair oldTarget _ =>
          cases metadataEqual source.stat oldTarget.stat survey.granularity <;> exact ⟨rfl, rfl⟩
      · exact ⟨rfl, rfl⟩

theorem removals_group {claimed movedFrom : List Str}
    (h : operation ∈ survey.removals claimed movedFrom) : operation.OfGroup 2 := by
  unfold Survey.removals at h
  split at h
  · exact absurd h List.not_mem_nil
  · obtain ⟨record, -, rfl⟩ := List.mem_map.1 h
    refine ⟨rfl, ?_⟩
    by_cases htrash : survey.options.deletionPolicy = .trash
    · rw [if_pos htrash]
      rfl
    · rw [if_neg htrash]
      rfl

theorem unsupportedOperations_group (h : operation ∈ survey.unsupportedOperations) :
    operation.OfGroup 3 := by
  obtain ⟨path, -, rfl⟩ := List.mem_map.1 h
  exact ⟨rfl, rfl⟩

theorem cleanupLoop_group {removed : List Str} {removals : Dict RelPath PlanOperation}
    {directories : List DirRecord} {cleaned : Dict Str PlanOperation}
    (h : operation ∈ survey.cleanupLoop removed removals directories cleaned) :
    operation.OfGroup 4 := by
  obtain ⟨directory, -, path, before, -, -, rfl⟩ := mem_cleanupLoop h
  exact ⟨rfl, rfl⟩

theorem operations_digest (h : operation ∈ survey.operations) :
    operation.opId = operation.intent.digest := by
  cases Survey.plans_of_mem h with
  | mkdir hmkdir => exact (mkdirs_group hmkdir).opId_eq
  | content item _ step hcase hstep =>
      subst hstep
      exact (contentStep_group hcase).opId_eq
  | removal kind record _ _ hremoval =>
      subst hremoval
      rfl
  | unsupported record _ _ hblocked =>
      subst hblocked
      rfl
  | cleanup directory _ path _ before _ hcleanup =>
      subst hcleanup
      rfl

/-- A list of a later group adds no intent that is there. -/
theorem nodup_append_group {n : Nat} {a b : List PlanOperation}
    (ha : ∀ operation ∈ a, operation.intent.group < n) (hb : ∀ operation ∈ b, operation.OfGroup n) :
    ((a ++ b).map PlanOperation.intent).Nodup ↔
      (a.map PlanOperation.intent).Nodup ∧ (b.map PlanOperation.intent).Nodup := by
  rw [List.map_append, List.nodup_append']
  refine ⟨fun h => ⟨h.1, h.2.1⟩, fun h => ⟨h.1, h.2, ?_⟩⟩
  intro intent hina hinb
  obtain ⟨p, hp, rfl⟩ := List.mem_map.1 hina
  obtain ⟨q, hq, hsame⟩ := List.mem_map.1 hinb
  have hlt := ha p hp
  rw [← hsame, (hb q hq).group_eq] at hlt
  exact lt_irrefl n hlt

theorem group_lt_append {n : Nat} {a b : List PlanOperation}
    (ha : ∀ operation ∈ a, operation.intent.group < n) (hb : ∀ operation ∈ b, operation.OfGroup n) :
    ∀ operation ∈ a ++ b, operation.intent.group < n + 1 := by
  intro operation hoperation
  rcases List.mem_append.1 hoperation with hin | hin
  · exact (ha operation hin).trans (Nat.lt_succ_self n)
  · rw [(hb operation hin).group_eq]
    exact Nat.lt_succ_self n

end Groups

/-! ## Distinct targets

Four of the lists have an operation for each path once, by what they iterate
over: the required directories, the target's records, and the unsupported ones. -/

section Targets

variable {survey : Survey}

theorem mkdirLoop_targets (paths : List RelPath) (created : Created) :
    ((survey.mkdirLoop paths created).1.map PlanOperation.targetRelPath).Sublist paths := by
  induction paths generalizing created with
  | nil => exact .slnil
  | cons path rest ih =>
      unfold Survey.mkdirLoop
      split
      · dsimp only
        rw [List.map_cons, (mkdirOperation_kind survey created path).2]
        exact (ih _).cons_cons path
      · exact (ih _).cons path

theorem mkdirs_targets_nodup : (survey.mkdirs.1.map PlanOperation.targetRelPath).Nodup :=
  (mkdirLoop_targets _ _).nodup
    ((List.perm_insertionSort _ _).nodup_iff.2 (List.nodup_dedup _))

theorem removals_targets_nodup (hfiles : (survey.targetFiles.map FileRecord.relPath).Nodup)
    (claimed movedFrom : List Str) :
    ((survey.removals claimed movedFrom).map PlanOperation.targetRelPath).Nodup := by
  unfold Survey.removals
  split
  · exact List.nodup_nil
  · rw [List.map_map]
    exact hfiles.sublist (List.filter_sublist.map FileRecord.relPath)

theorem unsupported_targets_nodup :
    (survey.unsupportedOperations.map PlanOperation.targetRelPath).Nodup := by
  unfold Survey.unsupportedOperations
  dsimp only
  rw [List.map_map]
  have hid : PlanOperation.targetRelPath ∘ (fun path : RelPath =>
      blockedOperation .noop (some path) path none none none .unsupported .unsupported none) =
        id := rfl
  rw [hid, List.map_id]
  exact (List.perm_insertionSort _ _).nodup_iff.2 (List.nodup_dedup _)

theorem cleanupLoop_targets (removed : List Str) (removals : Dict RelPath PlanOperation)
    (directories : List DirRecord) (cleaned : Dict Str PlanOperation) :
    ((survey.cleanupLoop removed removals directories cleaned).map
      PlanOperation.targetRelPath).Sublist (directories.filterMap DirRecord.relPath) := by
  induction directories generalizing cleaned with
  | nil => exact .slnil
  | cons directory rest ih =>
      unfold Survey.cleanupLoop
      split
      · next hnone =>
          rw [List.filterMap_cons_none hnone]
          exact ih _
      · next path hpath =>
          rw [List.filterMap_cons_some hpath]
          split
          · exact (ih _).cons path
          · exact (ih _).cons_cons path

omit [Digest] in
/-- Different intents in each list, and no intent in two lists. -/
theorem nodup_intents {operations : List PlanOperation}
    (h : (operations.map PlanOperation.targetRelPath).Nodup) :
    (operations.map PlanOperation.intent).Nodup := by
  refine List.Nodup.of_map Intent.target ?_
  rw [List.map_map]
  exact h

end Targets

/-! ## Assigned files

The list that is left.  Its intents hold the key of the source file and the
target, so two operations of it collide exactly for two assigned files with one
source key that are sent to one place. -/

section Content

variable {survey : Survey}

omit [Digest] in
/-- The loop over the assigned files knows the source of each. -/
theorem filesAt_source_ne_nil (hvalid : survey.validateAssignment = none)
    {item : DestinationAssignment} (hitem : item ∈ survey.assignment.items) :
    filesAt survey.sourceFiles item.sourceKey ≠ [] := by
  obtain ⟨record, hrecord, hpath⟩ := item_source hvalid hitem
  exact List.ne_nil_of_mem (mem_filesAt_iff.2 ⟨hrecord, congrArg RelPath.key hpath⟩)

omit [Digest] in
/-- Two assigned files with one key crowd it. -/
theorem crowded_of_items (hvalid : survey.validateAssignment = none)
    {i j : DestinationAssignment} (hi : i ∈ survey.assignment.items)
    (hj : j ∈ survey.assignment.items) (hne : i ≠ j) (hkey : i.sourceKey = j.sourceKey) :
    1 < (filesAt survey.sourceFiles j.sourceKey).length := by
  obtain ⟨a, ha, hpatha⟩ := item_source hvalid hi
  obtain ⟨b, hb, hpathb⟩ := item_source hvalid hj
  have hkeyb : b.key = j.sourceKey := congrArg RelPath.key hpathb
  have hkeya : a.key = b.key := (congrArg RelPath.key hpatha).trans (hkey.trans hkeyb.symm)
  rw [← hkeyb]
  refine two_at ha hb hkeya ?_
  rintro rfl
  exact hne (List.inj_on_of_nodup_map (items_nodup hvalid) hi hj (hpatha.symm.trans hpathb))

/-- Two assigned files have one intent when they share their key and their
destination. -/
theorem intent_eq_iff (hvalid : survey.validateAssignment = none) {created : Created}
    {i j : DestinationAssignment} (hi : i ∈ survey.assignment.items)
    (hj : j ∈ survey.assignment.items) (hne : i ≠ j) {s t : ContentStep}
    (hs : survey.contentStep created i = some s) (ht : survey.contentStep created j = some t) :
    s.operation.intent = t.operation.intent ↔
      i.sourceKey = j.sourceKey ∧ i.targetRelPath = j.targetRelPath := by
  obtain ⟨a, ha, -, hsourcea, -⟩ := contentStep_reports hs
  obtain ⟨b, hb, -, hsourceb, -⟩ := contentStep_reports ht
  have hcrowded (hkey : i.sourceKey = j.sourceKey) :=
    And.intro
      (contentStep_crowded hs (crowded_of_items hvalid hj hi hne.symm hkey.symm))
      (contentStep_crowded ht (crowded_of_items hvalid hi hj hne hkey))
  constructor
  · intro hsame
    have hpath : a.relPath = b.relPath := by
      have hsource := congrArg Intent.source hsame
      exact Option.some.inj (hsourcea.symm.trans (hsource.trans hsourceb))
    have hkeya : a.key = i.sourceKey := (mem_filesAt_iff.1 (List.mem_of_mem_head? ha)).2
    have hkeyb : b.key = j.sourceKey := (mem_filesAt_iff.1 (List.mem_of_mem_head? hb)).2
    have hkey : i.sourceKey = j.sourceKey :=
      hkeya.symm.trans ((congrArg RelPath.key hpath).trans hkeyb)
    obtain ⟨⟨-, htargeti, -⟩, -, htargetj, -⟩ := hcrowded hkey
    exact ⟨hkey, htargeti.symm.trans ((congrArg Intent.target hsame).trans htargetj)⟩
  · rintro ⟨hkey, htarget⟩
    obtain ⟨⟨hkindi, htargeti, hpriori, hreasoni⟩, hkindj, htargetj, hpriorj, hreasonj⟩ :=
      hcrowded hkey
    have hfirst : a = b := by
      rw [hkey] at ha
      exact Option.some.inj (ha.symm.trans hb)
    unfold PlanOperation.intent
    rw [hkindi, hkindj, htargeti, htargetj, hpriori, hpriorj, hreasoni, hreasonj, hsourcea,
      hsourceb, hfirst, htarget]

/-- Two files with one key and one destination. -/
def DestinationAssignment.Clash (i j : DestinationAssignment) : Prop :=
  i ≠ j ∧ i.sourceKey = j.sourceKey ∧ i.targetRelPath = j.targetRelPath

instance (i j : DestinationAssignment) : Decidable (i.Clash j) :=
  inferInstanceAs (Decidable (_ ∧ _))

/-- Among assigned files two intents are equal exactly for a clash. -/
theorem content_intents_nodup (hvalid : survey.validateAssignment = none) {created : Created} :
    ((survey.contentSteps created).map fun step => step.operation.intent).Nodup ↔
      ∀ i ∈ survey.assignment.items, ∀ j ∈ survey.assignment.items, ¬ i.Clash j := by
  have hitems : (sortedBy (fun item : DestinationAssignment => toLex (item.targetKey,
      toLex (item.targetRelPath.text, item.sourceRelPath.text))) survey.assignment.items).Nodup :=
    (List.perm_insertionSort _ _).nodup_iff.2 (items_nodup hvalid).of_map
  unfold Survey.contentSteps List.Nodup
  rw [List.pairwise_map, List.pairwise_filterMap]
  constructor
  · rintro hpairwise i hi j hj ⟨hne, hsame⟩
    have hstep : ∀ k ∈ survey.assignment.items, ∃ s, survey.contentStep created k = some s := by
      intro k hk
      obtain ⟨a, ha, hpath⟩ := item_source hvalid hk
      obtain ⟨s, -, hs⟩ := contentSteps_covers hk ha (congrArg RelPath.key hpath)
      exact ⟨s, hs⟩
    obtain ⟨s, hs⟩ := hstep i hi
    obtain ⟨t, ht⟩ := hstep j hj
    have hsymm : Std.Symm fun i j => ∀ s, survey.contentStep created i = some s →
        ∀ t, survey.contentStep created j = some t → s.operation.intent ≠ t.operation.intent :=
      ⟨fun i j hij t ht s hs hsame => hij s hs t ht hsame.symm⟩
    exact hpairwise.forall (mem_sortedBy.2 hi) (mem_sortedBy.2 hj) hne s hs t ht
      ((intent_eq_iff hvalid hi hj hne hs ht).2 hsame)
  · intro hfree
    refine hitems.imp_of_mem fun {i j} hi hj hne s hs t ht hsame => ?_
    have hi := mem_sortedBy.1 hi
    have hj := mem_sortedBy.1 hj
    exact hfree i hi j hj ⟨hne, (intent_eq_iff hvalid hi hj hne hs ht).1 hsame⟩

end Content

/-! ## The plan

The only way to fail is the clash of the section before. -/

section Plans

variable {survey : Survey}

theorem operations_intents_nodup (hvalid : survey.validateAssignment = none)
    (hfiles : (survey.targetFiles.map FileRecord.relPath).Nodup)
    (hdirectories : (survey.targetDirs.filterMap DirRecord.relPath).Nodup) :
    (survey.operations.map PlanOperation.intent).Nodup ↔
      ∀ i ∈ survey.assignment.items, ∀ j ∈ survey.assignment.items, ¬ i.Clash j := by
  have hcontent : ((survey.contentSteps survey.mkdirs.2).map fun step =>
      step.operation.intent).Nodup ↔
        ∀ i ∈ survey.assignment.items, ∀ j ∈ survey.assignment.items, ¬ i.Clash j :=
    content_intents_nodup hvalid
  rw [← hcontent]
  have hmkdirs : ∀ operation ∈ survey.mkdirs.1, operation.intent.group < 1 := by
    intro operation hoperation
    rw [(mkdirs_group hoperation).group_eq]
    exact Nat.one_pos
  have hcontent : ∀ operation ∈ (survey.contentSteps survey.mkdirs.2).map ContentStep.operation,
      operation.OfGroup 1 := by
    intro operation hoperation
    obtain ⟨step, hstep, rfl⟩ := List.mem_map.1 hoperation
    obtain ⟨item, -, hcase⟩ := mem_contentSteps hstep
    exact contentStep_group hcase
  have hmade := group_lt_append hmkdirs hcontent
  have hremoved (claimed movedFrom : List Str) := group_lt_append hmade
    fun operation (h : operation ∈ survey.removals claimed movedFrom) => removals_group h
  have hall (claimed movedFrom : List Str) := group_lt_append (hremoved claimed movedFrom)
    fun operation (h : operation ∈ survey.unsupportedOperations) => unsupportedOperations_group h
  have hcleaned := ((List.perm_insertionSort (fun a b => cleanupKey a ≤ cleanupKey b)
    survey.targetDirs).filterMap DirRecord.relPath).nodup_iff.2 hdirectories
  unfold Survey.operations
  dsimp only
  rw [nodup_append_group (hall _ _) fun _ => cleanupLoop_group,
    nodup_append_group (hremoved _ _) fun _ => unsupportedOperations_group,
    nodup_append_group hmade fun _ => removals_group, nodup_append_group hmkdirs hcontent]
  rw [List.map_map]
  constructor
  · rintro ⟨⟨⟨⟨-, hnodup⟩, -⟩, -⟩, -⟩
    exact hnodup
  · intro hnodup
    exact ⟨⟨⟨⟨nodup_intents mkdirs_targets_nodup, hnodup⟩,
      nodup_intents (removals_targets_nodup hfiles _ _)⟩, nodup_intents unsupported_targets_nodup⟩,
      nodup_intents ((cleanupLoop_targets _ _ _ _).nodup hcleaned)⟩

end Plans

theorem plan_ok_iff {source target : ScanResult} {correspondence : MappingSnapshot}
    {options : SyncOptions}
    (hvalid : (survey source target correspondence options).validateAssignment = none) :
    (∃ result, plan source target correspondence options .everything = .ok result) ↔
      checkOperations [] (survey source target correspondence options).operations = none := by
  constructor
  · rintro ⟨result, hplan⟩
    rw [← (plan_eq_ok hplan).1]
    exact result.checked
  · intro hchecked
    unfold plan
    rw [if_neg (by simp)]
    dsimp only
    split
    · next hinvalid => exact absurd (hvalid.symm.trans hinvalid) (by simp)
    · split
      · next hfailed => exact absurd (hchecked.symm.trans hfailed) (by simp)
      · exact ⟨_, rfl⟩

/-- **When planning succeeds.**  Where the digests of the plan's intents
differ, the loop knows every file it is given, and a plan is returned just
when no two source files with one key are sent to one path. -/
theorem plan_total_iff {source target : ScanResult} {correspondence : MappingSnapshot}
    {options : SyncOptions} (hdistinct : target.Distinct)
    (hdigest : Set.InjOn Intent.digest {intent | ∃ operation ∈
      (survey source target correspondence options).operations, operation.intent = intent})
    (hvalid : (survey source target correspondence options).validateAssignment = none) :
    (∀ item ∈ (survey source target correspondence options).assignment.items,
        filesAt (survey source target correspondence options).sourceFiles item.sourceKey ≠ []) ∧
      ((∃ result, plan source target correspondence options .everything = .ok result) ↔
        ∀ i ∈ (survey source target correspondence options).assignment.items,
          ∀ j ∈ (survey source target correspondence options).assignment.items, ¬ i.Clash j) := by
  have hfiles : ((survey source target correspondence options).targetFiles.map
      FileRecord.relPath).Nodup := by
    refine List.Nodup.sublist (List.filter_sublist.map _) ?_
    exact ((List.perm_insertionSort _ _).map _).nodup_iff.2 hdistinct.files
  have hdirectories : ((survey source target correspondence options).targetDirs.filterMap
      DirRecord.relPath).Nodup := by
    refine List.Nodup.sublist (List.filter_sublist.filterMap _) ?_
    refine ((List.perm_insertionSort _ _).filterMap _).nodup_iff.2 ?_
    have hsome : ∀ (a a' : RootedPath) (b : RelPath), b ∈ id a → b ∈ id a' → a = a' := by
      intro a a' b hb hb'
      exact (Option.mem_def.1 hb).trans (Option.mem_def.1 hb').symm
    have hpaths := hdistinct.directories.filterMap hsome
    rwa [List.filterMap_map] at hpaths
  refine ⟨fun item hitem => filesAt_source_ne_nil hvalid hitem, ?_⟩
  rw [plan_ok_iff hvalid, checkOperations_eq_none,
    ← operations_intents_nodup hvalid hfiles hdirectories]
  generalize survey source target correspondence options = tables at *
  have hids : tables.operations.map PlanOperation.opId =
      (tables.operations.map PlanOperation.intent).map Intent.digest := by
    rw [List.map_map]
    exact List.map_congr_left fun operation hoperation => operations_digest hoperation
  rw [hids]
  constructor
  · rintro ⟨hnodup, -, -⟩
    exact hnodup.of_map
  · intro hnodup
    refine ⟨hnodup.map_on ?_, fun _ _ => List.not_mem_nil, ?_⟩
    · intro a ha b hb hsame
      exact hdigest (List.mem_map.1 ha) (List.mem_map.1 hb) hsame
    · exact operations_ordered.mono (Set.empty_subset _)

end Planning

/-! A policy that sends every file to one path: two files that differ in
case, and two that do not. -/

section Sample

local instance flatUnicode : Unicode := asciiUnicode

/-- The digests of the operations and of the policy. -/
local instance flatDigest : Digest where
  operation _ source _ _ reason :=
    if reason = .caseCollision then 0x47d90b9621cb9720ba5cb17bfdaf542c
    else if source = some (str "A") then 0xa5ad9e4889b7b723407a9aeb2ca45329
    else 0xd800e1285b965cfe23c352019c03fa6e
  policy _ _ _ _ _ _ _ := str "4e901438269152f60222cf67b096594b3a258aa196e6b90d2580165193c9d486"

def flatOptions : SyncOptions where
  destinationPolicy :=
    { policy := ⟨str "flat", str "1"⟩
      assign := fun records _ =>
        { policy := ⟨str "flat", str "1"⟩
          items := records.map fun record =>
            { sourceRelPath := record.relPath
              targetRelPath := ⟨[str "X"], by decide, by decide +kernel⟩ } } }

theorem ownScan_distinct {files : List FileRecord} (h : (files.map FileRecord.relPath).Nodup) :
    (ownScan files).Distinct :=
  ⟨h, List.nodup_nil, List.nodup_nil⟩

/-- Two files with different names are reported, as blocked. -/
theorem flat_planned :
    ∃ result, plan (ownScan [upperA, lowerB]) (ownScan []) {} flatOptions .everything =
      .ok result := by
  refine (plan_total_iff (@ownScan_distinct [] List.nodup_nil) ?_ (by decide +kernel)).2.2
    (by decide +kernel)
  have hdigest : ∀ p ∈ (survey (ownScan [upperA, lowerB]) (ownScan []) {} flatOptions).operations,
      ∀ q ∈ (survey (ownScan [upperA, lowerB]) (ownScan []) {} flatOptions).operations,
        p.intent.digest = q.intent.digest → p.intent = q.intent := by
    decide +kernel
  rintro _ ⟨p, hp, rfl⟩ _ ⟨q, hq, rfl⟩ hsame
  exact hdigest p hp q hq hsame

/-- Two files whose names differ in case make the plan fail. -/
theorem planning_fails :
    ¬ ∀ (source target : ScanResult) (correspondence : MappingSnapshot) (options : SyncOptions),
      source.Distinct → target.Distinct →
      Set.InjOn Intent.digest {intent | ∃ operation ∈
        (survey source target correspondence options).operations, operation.intent = intent} →
      (survey source target correspondence options).validateAssignment = none →
      ∃ result, plan source target correspondence options .everything = .ok result := by
  intro h
  have hvalid :
      (survey (ownScan [upperA, lowerA]) (ownScan []) {} flatOptions).validateAssignment =
        none := by
    decide +kernel
  have hfailed : checkOperations []
      (survey (ownScan [upperA, lowerA]) (ownScan []) {} flatOptions).operations =
        some .duplicateOperationId := by
    decide +kernel
  have hdigest : ∀ p ∈ (survey (ownScan [upperA, lowerA]) (ownScan []) {} flatOptions).operations,
      ∀ q ∈ (survey (ownScan [upperA, lowerA]) (ownScan []) {} flatOptions).operations,
        p.intent = q.intent := by
    decide +kernel
  have hplanned := h (ownScan [upperA, lowerA]) (ownScan []) {} flatOptions
    (ownScan_distinct (by decide +kernel)) (@ownScan_distinct [] List.nodup_nil)
    (by
      rintro _ ⟨p, hp, rfl⟩ _ ⟨q, hq, rfl⟩ _
      exact hdigest p hp q hq)
    hvalid
  rw [plan_ok_iff hvalid, hfailed] at hplanned
  exact absurd hplanned (by simp)

end Sample

end NamiSync
