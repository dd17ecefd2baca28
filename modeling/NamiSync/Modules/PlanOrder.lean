/-
# `Modules.PlanOrder` — the plan does not depend on the order of a scan

Every listing is sorted by a key that tells its records apart before a loop
runs over it; what is read unsorted is only asked whether some record of it
has a property, or whether exactly one has.

## What is proved

    plan_order_independent : shuffled scans and a shuffled snapshot give the
      same plan, or the same error, under the identity policy and provided
      that no two records of a kind have one path

## The argument

`survey_shuffle` shows that the tables of the two surveys agree where they
are sorted, and are permutations of one another where they are not.  Then
each function of the planner has an `_eq` lemma, from the leaves to `plan`:
what it reads of a permuted table is `any`, a count, or a search for the one
record with a property, none of which sees the order.
-/
import NamiSync.Modules.Planner

namespace NamiSync

section Shuffles

variable [Unicode]

/-- The same scan with its records in another order. -/
inductive ScanResult.Shuffle (scan : ScanResult) : ScanResult → Prop
  | intro (files : List FileRecord) (directories : List DirRecord)
      (unsupported : List UnsupportedRecord) (hfiles : files.Perm scan.files)
      (hdirectories : directories.Perm scan.directories)
      (hunsupported : unsupported.Perm scan.unsupported) :
      scan.Shuffle { scan with
        files := files, directories := directories, unsupported := unsupported }

/-- No two records of a kind have one path. -/
structure ScanResult.Distinct (scan : ScanResult) : Prop where
  files : (scan.files.map FileRecord.relPath).Nodup
  directories : (scan.directories.map DirRecord.relPath).Nodup
  unsupported : (scan.unsupported.map UnsupportedRecord.relPath).Nodup

/-- The same snapshot with its pairs in another order. -/
inductive MappingSnapshot.Shuffle (snapshot : MappingSnapshot) : MappingSnapshot → Prop
  | intro (pairs : List MappingPair) (hpairs : pairs.Perm snapshot.pairs) :
      snapshot.Shuffle { snapshot with pairs := pairs }

/-- The tables of the planner, over shuffled inputs. -/
inductive Survey.Shuffle (survey : Survey) : Survey → Prop
  | intro (source target : ScanResult) (correspondence : MappingSnapshot)
      (hsource : survey.source.Shuffle source) (htarget : survey.target.Shuffle target)
      (hcorrespondence : survey.correspondence.Shuffle correspondence) :
      survey.Shuffle { survey with
        source := source, target := target, correspondence := correspondence }

/-! ## Sorting forgets the order

The planner sorts before it decides.  A key by which it sorts tells two records
of a scan apart, so the sorted list does not depend on the order it started
from. -/

theorem recordKey_inj {p q : RelPath} (h : recordKey p = recordKey q) : p = q :=
  RelPath.text_inj (Prod.mk.inj (toLex_inj.1 h)).2

theorem RootedPath.text_inj {p q : RootedPath} (h : p.text = q.text) : p = q := by
  cases p with
  | none =>
      cases q with
      | none => rfl
      | some q =>
          obtain ⟨c, rest, htext, -⟩ := q.head_text
          exact absurd (h.trans htext) (by simp [RootedPath.text])
  | some p =>
      cases q with
      | none =>
          obtain ⟨c, rest, htext, -⟩ := p.head_text
          exact absurd (htext.symm.trans h) (by simp [RootedPath.text])
      | some q => rw [RelPath.text_inj h]

theorem directoryKey_inj {a b : DirRecord} (h : directoryKey a = directoryKey b) :
    a.relPath = b.relPath :=
  RootedPath.text_inj (Prod.mk.inj (toLex_inj.1 (Prod.mk.inj (toLex_inj.1 h)).2)).2

/-- The survey of shuffled inputs has the same tables. -/
theorem survey_shuffle {source source' target target' : ScanResult}
    {correspondence correspondence' : MappingSnapshot} {options : SyncOptions}
    (hsource : source.Shuffle source') (htarget : target.Shuffle target')
    (hcorrespondence : correspondence.Shuffle correspondence')
    (hdistinct : source.Distinct) (hdistinct' : target.Distinct)
    (hpolicy : options.destinationPolicy = identityDestinationPolicy) :
    (survey source target correspondence options).Shuffle
      (survey source' target' correspondence' options) := by
  have hfiles {scan scan' : ScanResult} (hshuffle : scan.Shuffle scan') (hscan : scan.Distinct) :
      sortedBy (fun record => recordKey record.relPath) scan'.files =
        sortedBy (fun record => recordKey record.relPath) scan.files := by
    cases hshuffle with
    | intro files _ _ hperm _ _ =>
        refine (sortedBy_eq_of_perm hperm.symm fun a ha b hb hkey => ?_).symm
        exact List.inj_on_of_nodup_map hscan.files ha hb (recordKey_inj hkey)
  have hdirectories {scan scan' : ScanResult} (hshuffle : scan.Shuffle scan')
      (hscan : scan.Distinct) :
      sortedBy directoryKey scan'.directories = sortedBy directoryKey scan.directories := by
    cases hshuffle with
    | intro _ directories _ _ hperm _ =>
        refine (sortedBy_eq_of_perm hperm.symm fun a ha b hb hkey => ?_).symm
        exact List.inj_on_of_nodup_map hscan.directories ha hb (directoryKey_inj hkey)
  have htables : survey source' target' correspondence' options =
      { survey source target correspondence options with
        source := source', target := target', correspondence := correspondence' } := by
    simp only [survey, hpolicy, identityDestinationPolicy, hfiles hsource hdistinct,
      hfiles htarget hdistinct', hdirectories hsource hdistinct, hdirectories htarget hdistinct']
  rw [htables]
  exact .intro _ _ _ hsource htarget hcorrespondence

end Shuffles

namespace Survey.Shuffle

variable [Unicode] {survey survey' : Survey} (h : survey.Shuffle survey')

include h

/-! ## What reads the sorted tables

The helpers of the planner, each of which gives one answer for both surveys. -/

theorem validateAssignment_eq : survey'.validateAssignment = survey.validateAssignment := by
  cases h
  rfl

theorem granularity_eq : survey'.granularity = survey.granularity := by
  obtain ⟨_, _, _, ⟨⟩, ⟨⟩, -⟩ := h
  rfl

theorem normalizationPair_eq (item : DestinationAssignment) :
    survey'.normalizationPair item = survey.normalizationPair item := by
  cases h
  rfl

theorem requiredDirectoryPaths_eq :
    survey'.requiredDirectoryPaths = survey.requiredDirectoryPaths := by
  cases h
  rfl

/-- The pairs of an identity are one pair in both orders, or in neither. -/
theorem pairs_alike (identity : FileIdentity) :
    (∃ pair, survey.correspondence.pairs.filter (·.sourceIdentity = identity) = [pair] ∧
      survey'.correspondence.pairs.filter (·.sourceIdentity = identity) = [pair]) ∨
    ((∀ pair, survey.correspondence.pairs.filter (·.sourceIdentity = identity) ≠ [pair]) ∧
      ∀ pair, survey'.correspondence.pairs.filter (·.sourceIdentity = identity) ≠ [pair]) := by
  obtain ⟨source, target, correspondence, hsource, htarget, hcorrespondence⟩ := h
  cases hcorrespondence with
  | intro pairs hpairs =>
      have hperm := hpairs.filter (·.sourceIdentity = identity)
      by_cases hone : ∃ pair, survey.correspondence.pairs.filter
          (·.sourceIdentity = identity) = [pair]
      · obtain ⟨pair, hpair⟩ := hone
        rw [hpair] at hperm
        exact Or.inl ⟨pair, hpair, List.perm_singleton.1 hperm⟩
      · refine Or.inr ⟨fun pair hpair => hone ⟨pair, hpair⟩, fun pair hpair => hone ⟨pair, ?_⟩⟩
        rw [hpair] at hperm
        exact List.perm_singleton.1 hperm.symm

theorem movePair_eq (record : FileRecord) (desiredKey : Str) :
    survey'.movePair record desiredKey = survey.movePair record desiredKey := by
  have halike := h.pairs_alike
  obtain ⟨source, target, correspondence, ⟨⟩, ⟨⟩, ⟨⟩⟩ := h
  unfold Survey.movePair
  dsimp only
  split
  · next identity sourceVolume targetVolume _ _ _ =>
      split
      · rfl
      · rcases halike identity with ⟨pair, hpair, hpair'⟩ | ⟨hnone, hnone'⟩
        · rw [hpair, hpair']
        · split
          · next pair hpair => exact absurd hpair (hnone' pair)
          · rfl
  · rfl

/-! ## The loops

Each loop runs over a sorted list with the same body, hence makes the same
operations; the plan is the five of them. -/

variable [Digest]

theorem mkdirLoop_eq (paths : List RelPath) (created : Created) :
    survey'.mkdirLoop paths created = survey.mkdirLoop paths created := by
  have hoperation (created : Created) (path : RelPath) :
      survey'.mkdirOperation created path = survey.mkdirOperation created path := by
    cases h
    rfl
  have hdirs : survey'.targetDirs = survey.targetDirs := by
    cases h
    rfl
  induction paths generalizing created with
  | nil => rfl
  | cons path rest ih =>
      unfold Survey.mkdirLoop
      simp only [hdirs, hoperation, ih]

theorem mkdirs_eq : survey'.mkdirs = survey.mkdirs := by
  unfold Survey.mkdirs
  rw [h.requiredDirectoryPaths_eq, h.mkdirLoop_eq]

theorem matchedStep_eq (item : DestinationAssignment) (source target : FileRecord)
    (normalizationMismatch : Bool) (dependency : Option PlanOperation) :
    survey'.matchedStep item source target normalizationMismatch dependency =
      survey.matchedStep item source target normalizationMismatch dependency := by
  have hgranularity := h.granularity_eq
  have hoptions : survey'.options = survey.options := by
    cases h
    rfl
  unfold Survey.matchedStep
  rw [hgranularity, hoptions]

theorem unmatchedStep_eq (item : DestinationAssignment) (source : FileRecord)
    (dependency : Option PlanOperation) :
    survey'.unmatchedStep item source dependency = survey.unmatchedStep item source dependency := by
  unfold Survey.unmatchedStep
  rw [h.granularity_eq, h.movePair_eq]

theorem contentStep_eq (created : Created) (item : DestinationAssignment) :
    survey'.contentStep created item = survey.contentStep created item := by
  have hsource : survey'.sourceFiles = survey.sourceFiles := by
    cases h
    rfl
  have htarget : survey'.targetFiles = survey.targetFiles := by
    cases h
    rfl
  have hdirs : survey'.targetDirs = survey.targetDirs := by
    cases h
    rfl
  have hassigned (key : Str) : survey'.assignedTo key = survey.assignedTo key := by
    cases h
    rfl
  unfold Survey.contentStep
  rw [hsource, htarget, hdirs, hassigned, h.normalizationPair_eq]
  simp only [h.matchedStep_eq, h.unmatchedStep_eq]

theorem contentSteps_eq (created : Created) :
    survey'.contentSteps created = survey.contentSteps created := by
  have hassignment : survey'.assignment = survey.assignment := by
    cases h
    rfl
  unfold Survey.contentSteps
  rw [hassignment, funext (h.contentStep_eq created)]

theorem removals_eq (claimed movedFrom : List Str) :
    survey'.removals claimed movedFrom = survey.removals claimed movedFrom := by
  cases h
  rfl

theorem unsupportedOperations_eq :
    survey'.unsupportedOperations = survey.unsupportedOperations := by
  obtain ⟨source, target, correspondence, hsource, htarget, -⟩ := h
  have hperm : (source.unsupported ++ target.unsupported).Perm
      (survey.source.unsupported ++ survey.target.unsupported) := by
    cases hsource with
    | intro _ _ _ _ _ hleft =>
        cases htarget with
        | intro _ _ _ _ _ hright => exact hleft.append hright
  unfold Survey.unsupportedOperations
  refine congrArg (List.map _) (sortedBy_eq_of_perm ?_ fun a _ b _ hkey => recordKey_inj hkey)
  exact ((hperm.filter _).map _).dedup

omit [Digest] in
theorem keepsDirectory_eq (removed : List Str) (cleaned : Dict Str PlanOperation)
    (directory : RelPath) :
    survey'.keepsDirectory removed cleaned directory =
      survey.keepsDirectory removed cleaned directory := by
  obtain ⟨source, target, correspondence, -, htarget, -⟩ := h
  cases htarget with
  | intro files directories unsupported hfiles hdirectories hunsupported =>
      have hpaths : (files.map FileRecord.relPath ++ directories.filterMap DirRecord.relPath).Perm
          (survey.target.files.map FileRecord.relPath ++
            survey.target.directories.filterMap DirRecord.relPath) :=
        (hfiles.map _).append (hdirectories.filterMap _)
      unfold Survey.keepsDirectory
      dsimp only
      rw [hpaths.any_eq, hunsupported.any_eq, hfiles.any_eq]
      rfl

theorem cleanupLoop_eq (removed : List Str) (removals : Dict RelPath PlanOperation)
    (directories : List DirRecord) (cleaned : Dict Str PlanOperation) :
    survey'.cleanupLoop removed removals directories cleaned =
      survey.cleanupLoop removed removals directories cleaned := by
  induction directories generalizing cleaned with
  | nil => rfl
  | cons directory rest ih =>
      unfold Survey.cleanupLoop
      simp only [h.keepsDirectory_eq, ih]

theorem operations_eq : survey'.operations = survey.operations := by
  have hdirs : survey'.targetDirs = survey.targetDirs := by
    cases h
    rfl
  unfold Survey.operations
  rw [h.mkdirs_eq, hdirs, h.unsupportedOperations_eq]
  simp only [h.contentSteps_eq, h.removals_eq, h.cleanupLoop_eq]

end Survey.Shuffle

/-- A plan is the same whatever order the scans and the ledger list their
records in. -/
theorem plan_order_independent [Unicode] [Digest] {source source' target target' : ScanResult}
    {correspondence correspondence' : MappingSnapshot} {options : SyncOptions}
    (hsource : source.Shuffle source') (htarget : target.Shuffle target')
    (hcorrespondence : correspondence.Shuffle correspondence')
    (hdistinct : source.Distinct) (hdistinct' : target.Distinct)
    (hpolicy : options.destinationPolicy = identityDestinationPolicy) (scope : Scope) :
    plan source' target' correspondence' options scope =
      plan source target correspondence options scope := by
  have hshuffle := survey_shuffle hsource htarget hcorrespondence hdistinct hdistinct' hpolicy
  have hvalid := hshuffle.validateAssignment_eq
  have hoperations := hshuffle.operations_eq
  have hassignment : (survey source' target' correspondence' options).assignment =
      (survey source target correspondence options).assignment := by
    generalize survey source' target' correspondence' options = survey' at hshuffle
    cases hshuffle
    rfl
  unfold plan
  dsimp only
  generalize (survey source' target' correspondence' options).operations = operations',
    (survey source' target' correspondence' options).assignment = assignment',
    (survey source' target' correspondence' options).validateAssignment = valid' at *
  subst hoperations hassignment hvalid
  cases hsource
  cases htarget
  rfl

/-! Two files, listed either way. -/

section Sample

local instance orderUnicode : Unicode := asciiUnicode

local instance orderDigest : Digest where
  operation _ _ target _ _ :=
    if target = str "a" then 0x3c6f3a3319d889fc7c0fa9dd4e881a4b
    else 0x167da62d5499f2364fe04f7ddd049654
  policy _ _ _ _ _ _ _ := str "b76cbc151bb77cf44410d52a81920a1d43824e657978598268e9074d4a4605ff"

def orderRecord (name : Str) (hname : IsComponent name) : FileRecord where
  relPath := .single name hname
  size := 3
  mtimeNs := 1700000000000000000
  fileIdentity := none
  nlink := 1
  metadata := ⟨0x20, none⟩

def orderA : FileRecord := orderRecord (str "a") (by decide +kernel)

def orderB : FileRecord := orderRecord (str "b") (by decide +kernel)

theorem listed_either_way :
    plan (sampleScan none [orderB, orderA]) (sampleScan none []) {} {} .everything =
      plan (sampleScan none [orderA, orderB]) (sampleScan none []) {} {} .everything := by
  have hsource : (sampleScan none [orderA, orderB]).Shuffle (sampleScan none [orderB, orderA]) :=
    .intro [orderB, orderA] [] [] (.swap ..) .nil .nil
  have htarget : (sampleScan none []).Shuffle (sampleScan none []) := .intro [] [] [] .nil .nil .nil
  have hsnapshot : MappingSnapshot.Shuffle {} {} := .intro [] .nil
  have hdistinct : (sampleScan none [orderA, orderB]).Distinct :=
    ⟨by decide +kernel, List.nodup_nil, List.nodup_nil⟩
  have hdistinct' : (sampleScan none []).Distinct :=
    ⟨List.nodup_nil, List.nodup_nil, List.nodup_nil⟩
  exact plan_order_independent hsource htarget hsnapshot hdistinct hdistinct' rfl .everything

end Sample

end NamiSync
