/-
# `Modules.Drift` — preflight and the executor on the same live stats

Both judge an operation against its planned stats.  Preflight compares every
subject the operation names, and mtimes within the granularity of the
volume.  The executor guards what the kind of the operation touches, and
demands the very mtime; of a directory to be cleaned up it asks neither mtime
nor link count.  Apart from these differences the two agree.

## What is proved

    judged_alike : for an operation of a plan, and a world that holds its live
      stats, preflight reports no drift and the executor's guards accept, or
      both object, except where `PreflightOnly` or `ExecutorOnly` applies, and
      there they do differ

so the two lists of differences are complete and each entry is real
(`PreflightOnly.refused`, `ExecutorOnly.rejected`).

## What it is not

It is about the drift of planned entries.  Space, roots, settings and the
trash are preflight's alone, and what the executor finds after its first
change of the tree is `Modules.Executor`'s.

## The argument

Each side is first put into one form.  `drifts_stats` says that preflight
finds no drift exactly when source, target and prior target `Stand` within the
tolerance; `executorGuards_ok` says what the guards accept, kind by kind, with
tolerance zero.  Then the two are compared subject by subject.
-/
import NamiSync.Modules.StatSnapshot

namespace NamiSync

/-! ## What agrees with a listed file

Both sides compare a stat with the one in the plan: `Matches` has the fields
that are compared and the tolerance of the mtime, which is the only difference
between preflight and the executor that concerns a stat. -/

/-- The live stat is the planned one, with an mtime within the tolerance. -/
structure Matches (tolerance : Nat) (actual expected : FileStat) : Prop where
  kind_eq : actual.kind = expected.kind
  size_eq : actual.size = expected.size
  mtime_near : ((actual.mtimeNs : Int) - expected.mtimeNs).natAbs ≤ tolerance
  nlink_eq : actual.nlink = expected.nlink
  metadata_eq : actual.metadata = expected.metadata
  identity_eq : expected.fileIdentity.isSome = true → actual.fileIdentity = expected.fileIdentity

/-- What is live stands as planned: absent, or present and matching. -/
inductive Stands (tolerance : Nat) : Option FileStat → Option FileStat → Prop
  | absent : Stands tolerance none none
  | present {expected actual : FileStat} (h : Matches tolerance actual expected) :
      Stands tolerance (some expected) (some actual)

section Matching

variable {actual expected : FileStat} {tolerance : Nat}

@[simp] theorem stands_none {live : Option FileStat} :
    Stands tolerance none live ↔ live = none := by
  constructor
  · intro h
    cases h
    rfl
  · rintro rfl
    exact .absent

@[simp] theorem stands_some {live : Option FileStat} :
    Stands tolerance (some expected) live ↔
      ∃ actual, live = some actual ∧ Matches tolerance actual expected := by
  constructor
  · intro h
    cases h with
    | present h => exact ⟨_, rfl, h⟩
  · rintro ⟨actual, rfl, h⟩
    exact .present h

theorem matchRefusals_eq_nil {opId : OpId} {subject : Subject} :
    matchRefusals opId subject actual expected tolerance = [] ↔
      Matches tolerance actual expected := by
  simp only [matchRefusals, List.append_eq_nil_iff, ite_eq_right_iff, List.cons_ne_nil, imp_false]
  constructor
  · rintro ⟨⟨⟨⟨hkind, hidentity⟩, hsize⟩, hmtime⟩, hmetadata⟩
    simp only [not_or, not_not, not_and, not_lt] at hkind hidentity hsize hmtime hmetadata
    exact ⟨hkind, hsize, hmtime, hmetadata.2, hmetadata.1, hidentity⟩
  · intro h
    simp only [not_or, not_not, not_and, not_lt]
    exact ⟨⟨⟨⟨h.kind_eq, h.identity_eq⟩, h.size_eq⟩, h.mtime_near⟩, h.metadata_eq, h.nlink_eq⟩

/-- `matches_expected` is agreement within the tolerance of the profile. -/
theorem matchesExpected_iff :
    matchesExpected actual expected = true ↔ Matches 0 actual expected := by
  simp only [matchesExpected, Bool.and_eq_true, decide_eq_true_eq, Bool.or_eq_true,
    Option.isNone_iff_eq_none]
  constructor
  · rintro ⟨⟨⟨⟨⟨hkind, hsize⟩, hmtime⟩, hnlink⟩, hmetadata⟩, hidentity⟩
    refine ⟨hkind, hsize, by omega, hnlink, hmetadata, fun hsome => ?_⟩
    rcases hidentity with hnone | heq
    · exact absurd hsome (by simp [hnone])
    · exact heq
  · intro h
    have hmtime : actual.mtimeNs = expected.mtimeNs := by
      have := h.mtime_near
      omega
    refine ⟨⟨⟨⟨⟨h.kind_eq, h.size_eq⟩, hmtime⟩, h.nlink_eq⟩, h.metadata_eq⟩, ?_⟩
    cases hidentity : expected.fileIdentity with
    | none => exact Or.inl rfl
    | some identity => exact Or.inr (hidentity ▸ h.identity_eq (by simp [hidentity]))

theorem Matches.widen (h : Matches 0 actual expected) : Matches tolerance actual expected :=
  { h with mtime_near := h.mtime_near.trans (Nat.zero_le _) }

/-- Within the tolerance only the mtime can differ. -/
theorem Matches.exact (h : Matches tolerance actual expected)
    (hmtime : actual.mtimeNs = expected.mtimeNs) : Matches 0 actual expected :=
  { h with mtime_near := by omega }

theorem Stands.widen {expected live : Option FileStat} (h : Stands 0 expected live) :
    Stands tolerance expected live := by
  cases h with
  | absent => exact .absent
  | present h => exact .present h.widen

end Matching

/-! ## Preflight

Preflight gathers refusals and never stops at one.  `Drifts` picks those that
are about drift out of the list, and they are found block by block: the blocks
about roots, space, trash and the plan contribute none. -/

/-- The refusals that say a planned entry has changed. -/
@[simp] def RefusalCode.isDrift : RefusalCode → Bool
  | sourceDrift | targetDrift | typeChanged | identityChanged | sizeChanged | mtimeChanged
  | metadataChanged | destinationAppeared => true
  | _ => false

/-- The refusals hold one of drift. -/
def Drifts (refusals : List Refusal) : Prop := ∃ refusal ∈ refusals, refusal.code.isDrift = true

@[simp] theorem drifts_nil : ¬ Drifts [] := by
  rintro ⟨refusal, hmem, -⟩
  exact absurd hmem List.not_mem_nil

@[simp] theorem drifts_append {a b : List Refusal} : Drifts (a ++ b) ↔ Drifts a ∨ Drifts b := by
  simp only [Drifts, List.mem_append]
  constructor
  · rintro ⟨refusal, h | h, hcode⟩
    · exact Or.inl ⟨refusal, h, hcode⟩
    · exact Or.inr ⟨refusal, h, hcode⟩
  · rintro (⟨refusal, h, hcode⟩ | ⟨refusal, h, hcode⟩)
    · exact ⟨refusal, Or.inl h, hcode⟩
    · exact ⟨refusal, Or.inr h, hcode⟩

@[simp] theorem drifts_singleton {refusal : Refusal} :
    Drifts [refusal] ↔ refusal.code.isDrift = true := by
  simp [Drifts]

@[simp] theorem drifts_ite {c : Prop} [Decidable c] {a b : List Refusal} :
    Drifts (if c then a else b) ↔ c ∧ Drifts a ∨ ¬ c ∧ Drifts b := by
  split
  · next h => simp [h]
  · next h => simp [h]

theorem drifts_match {opId : OpId} {subject : Subject} {actual expected : FileStat}
    {tolerance : Nat} :
    Drifts (matchRefusals opId subject actual expected tolerance) ↔
      ¬ Matches tolerance actual expected := by
  have hall : ∀ refusal ∈ matchRefusals opId subject actual expected tolerance,
      refusal.code.isDrift = true := by
    intro refusal hmem
    simp only [matchRefusals, List.mem_append] at hmem
    rcases hmem with (((h | h) | h) | h) | h <;>
      · split at h
        · rw [List.mem_singleton.1 h]
          rfl
        · exact absurd h List.not_mem_nil
  rw [← @matchRefusals_eq_nil _ _ _ opId subject]
  constructor
  · rintro ⟨refusal, hmem, -⟩
    exact List.ne_nil_of_mem hmem
  · intro hne
    obtain ⟨refusal, hmem⟩ := List.exists_mem_of_ne_nil _ hne
    exact ⟨refusal, hmem, hall refusal hmem⟩

/-- Every refusal is of this operation, or of none. -/
def Under (opId : Option OpId) (refusals : List Refusal) : Prop :=
  ∀ refusal ∈ refusals, refusal.opId = opId

@[simp] theorem under_nil {opId : Option OpId} : Under opId [] := fun _ h =>
  absurd h List.not_mem_nil

@[simp] theorem under_singleton {opId : Option OpId} {refusal : Refusal} :
    Under opId [refusal] ↔ refusal.opId = opId := by
  simp [Under]

@[simp] theorem under_append {opId : Option OpId} {a b : List Refusal} :
    Under opId (a ++ b) ↔ Under opId a ∧ Under opId b :=
  List.forall_mem_append

@[simp] theorem under_ite {opId : Option OpId} {c : Prop} [Decidable c] {a b : List Refusal} :
    Under opId (if c then a else b) ↔ (c → Under opId a) ∧ (¬ c → Under opId b) := by
  split
  · next h => simp [h]
  · next h => simp [h]

theorem drifts_roots (expected : Option VolumeId) (observed : Option RootObservation) :
    ¬ Drifts (rootRefusals expected observed) := by
  unfold rootRefusals
  cases observed with
  | none => simp
  | some observed =>
      cases hevidence : observed.volumeEvidence <;> simp [hevidence]

theorem drifts_overlap [OsPath] (source target : Option RootObservation) :
    ¬ Drifts (overlapRefusals source target) := by
  unfold overlapRefusals
  split <;> simp

section Preflight

variable [Unicode]

/-- The observation reports the live stat. -/
def Reports (observation : Option StatObservation) (live : Option FileStat) : Prop :=
  ∃ seen, observation = some seen ∧ seen.error = none ∧ seen.stat = live

/-- Whether an observed subject drifts is what `Stands` says of it. -/
theorem drifts_addStat {operation : PlanOperation} {subject : Subject}
    {observation : Option StatObservation} {expected live : Option FileStat} {sourceSubject : Bool}
    {granularityNs : Nat} (h : Reports observation live) :
    Drifts (addStatRefusals operation subject observation expected sourceSubject granularityNs) ↔
      ¬ Stands granularityNs expected live := by
  obtain ⟨seen, rfl, herror, rfl⟩ := h
  cases expected with
  | none =>
      cases hstat : seen.stat <;> simp [addStatRefusals, herror, hstat]
  | some expected =>
      cases hstat : seen.stat with
      | none =>
          cases sourceSubject <;>
            simp [addStatRefusals, herror, hstat, absentCode]
      | some actual =>
          simp [addStatRefusals, herror, hstat, drifts_match]

theorem drifts_settings (plan : Plan) (world : ObservedWorld) :
    ¬ Drifts (settingsRefusals plan world) := by
  unfold settingsRefusals
  cases world.settingsError <;> simp

theorem drifts_space (xset : ExecutionSet) (world : ObservedWorld) :
    ¬ Drifts (spaceRefusals xset world) := by
  unfold spaceRefusals
  cases world.freeSpace <;> simp

theorem drifts_trash (xset : ExecutionSet) (world : ObservedWorld) :
    ¬ Drifts (trashRefusals xset world) := by
  unfold trashRefusals
  cases world.trash <;> simp

theorem drifts_plan (xset : ExecutionSet) (operation : PlanOperation) :
    ¬ Drifts (scanRefusals xset.plan operation) ∧ ¬ Drifts (blockedRefusals xset.plan operation) ∧
      ∀ dependency, ¬ Drifts (dependencyRefusals xset operation dependency) := by
  refine ⟨?_, ?_, fun dependency => ?_⟩
  · simp [scanRefusals]
  · unfold blockedRefusals
    cases operation.blockedReason <;> simp
  · simp [dependencyRefusals]

/-- A parent is refused under no operation's id. -/
theorem under_parent {xset : ExecutionSet} {world : ObservedWorld} {subject : Subject}
    {relPath : Str} {refusals : List Refusal}
    (h : parentRefusals xset world subject relPath = .ok refusals) : Under none refusals := by
  unfold parentRefusals at h
  split at h
  · obtain rfl := Except.ok.inj h
    exact under_nil
  · dsimp only at h
    split at h
    · obtain rfl := Except.ok.inj h
      simp
    · split at h
      · obtain rfl := Except.ok.inj h
        simp
      · split at h
        · cases hpath : validateRelativePath relPath with
          | error e =>
              rw [hpath] at h
              exact absurd h (by simp [bind, Except.bind])
          | ok path =>
              rw [hpath] at h
              simp only [bind, Except.bind, pure, Except.pure] at h
              split at h <;> obtain rfl := Except.ok.inj h <;> simp
        · split at h <;> obtain rfl := Except.ok.inj h <;> simp

theorem under_addStat (operation : PlanOperation) (subject : Subject)
    (observation : Option StatObservation) (expected : Option FileStat) (sourceSubject : Bool)
    (granularityNs : Nat) :
    Under (some operation.opId)
      (addStatRefusals operation subject observation expected sourceSubject granularityNs) := by
  unfold addStatRefusals
  cases observation with
  | none => simp
  | some observation =>
      cases herror : observation.error with
      | some error => simp [herror]
      | none =>
          cases expected with
          | none => cases hstat : observation.stat <;> simp [herror, hstat]
          | some expected =>
              cases hstat : observation.stat with
              | none => simp [herror, hstat]
              | some actual => simp [herror, hstat, matchRefusals]

/-- The stats of an operation are refused under its id. -/
theorem under_stats (plan : Plan) (world : ObservedWorld) (operation : PlanOperation) :
    Under (some operation.opId) (statRefusals plan world operation) := by
  unfold statRefusals
  refine under_append.2 ⟨under_append.2 ⟨?_, under_addStat _ _ _ _ _ _⟩, ?_⟩
  · split
    · exact under_addStat _ _ _ _ _ _
    · exact under_nil
  · split
    · exact under_addStat _ _ _ _ _ _
    · exact under_nil

/-- A verdict refuses an operation for drift exactly when its stats do. -/
theorem drifts_verdict [OsPath] {xset : ExecutionSet} {world : ObservedWorld} {verdict : Verdict}
    (h : preflight xset world = .ok verdict) {operation : PlanOperation}
    (hop : operation ∈ xset.remaining) :
    (∃ refusal ∈ verdict.refusals, refusal.opId = some operation.opId ∧
      refusal.code.isDrift = true) ↔ Drifts (statRefusals xset.plan world operation) := by
  constructor
  · rintro ⟨refusal, hmem, hid, hcode⟩
    have other : ∀ {refusals : List Refusal}, ¬ Drifts refusals → refusal ∉ refusals :=
      fun hnot hin => hnot ⟨refusal, hin, hcode⟩
    rcases (mem_verdict h).1 hmem with hin | hin | hin | hin | ⟨found, hfound, hin⟩ |
      ⟨parents, hparents, hin⟩ | hin | hin
    · exact absurd hin (other (drifts_roots _ _))
    · exact absurd hin (other (drifts_roots _ _))
    · exact absurd hin (other (drifts_overlap _ _))
    · exact absurd hin (other (drifts_settings _ _))
    · obtain ⟨hscan, hblocked, hdependency⟩ := drifts_plan xset found
      simp only [operationRefusals, List.mem_append, other hscan, other hblocked, false_or,
        List.mem_flatMap] at hin
      rcases hin with ⟨dependency, -, hin⟩ | hin
      · exact absurd hin (other (hdependency dependency))
      · -- the refusal is made under the id of the operation found
        have hsame : found.opId = operation.opId :=
          Option.some.inj ((under_stats _ _ found refusal hin).symm.trans hid)
        obtain rfl : found = operation :=
          xset.plan.eq_of_opId (List.mem_of_mem_filter hfound) (List.mem_of_mem_filter hop) hsame
        exact ⟨refusal, hin, hcode⟩
    · obtain ⟨subject, relPath, refusals, hparent, hin⟩ := mem_parents hparents hin
      have hnone := under_parent hparent refusal hin
      exact absurd (hnone.symm.trans hid) (by simp)
    · exact absurd hin (other (drifts_space _ _))
    · exact absurd hin (other (drifts_trash _ _))
  · rintro ⟨refusal, hin, hcode⟩
    refine ⟨refusal, (mem_verdict h).2 ?_, under_stats _ _ operation refusal hin, hcode⟩
    exact Or.inr (Or.inr (Or.inr (Or.inr (Or.inl
      ⟨operation, hop, List.mem_append_right _ hin⟩))))

/-- The live stats of the three subjects of an operation. -/
structure LiveTriple where
  source : Option FileStat
  target : Option FileStat
  prior : Option FileStat

/-- The observed world holds the live stats. -/
structure Sees (plan : Plan) (world : ObservedWorld) (operation : PlanOperation)
    (live : LiveTriple) : Prop where
  source : ∀ path, operation.sourceRelPath = some path →
    Reports (world.stats.get? (plan.sourceSubject path)) live.source
  target : Reports (world.stats.get? (plan.targetSubject operation.targetRelPath)) live.target
  prior : ∀ path, operation.priorTargetRelPath = some path →
    Reports (world.stats.get? (plan.targetSubject path)) live.prior

/-- The operation has a source to compare. -/
def PlanOperation.SourceStands (operation : PlanOperation) (tolerance : Nat)
    (live : LiveTriple) : Prop :=
  ∀ path expected, operation.sourceRelPath = some path → operation.sourceExpected = some expected →
    Stands tolerance (some expected) live.source

def PlanOperation.PriorStands (operation : PlanOperation) (tolerance : Nat)
    (live : LiveTriple) : Prop :=
  operation.priorTargetRelPath.isSome = true →
    Stands tolerance operation.priorTargetExpected live.prior

/-- Preflight finds no drift when all three subjects stand as planned. -/
theorem drifts_stats {plan : Plan} {world : ObservedWorld} {operation : PlanOperation}
    {live : LiveTriple} (h : Sees plan world operation live) :
    Drifts (statRefusals plan world operation) ↔
      ¬ (operation.SourceStands plan.sourceProfile.mtimeGranularityNs live ∧
        Stands plan.targetProfile.mtimeGranularityNs operation.targetExpected live.target ∧
          operation.PriorStands plan.targetProfile.mtimeGranularityNs live) := by
  unfold statRefusals
  rw [drifts_append, drifts_append]
  refine (or_congr (or_congr
    (c := ¬ operation.SourceStands plan.sourceProfile.mtimeGranularityNs live) ?_
    (drifts_addStat h.target))
    (d := ¬ operation.PriorStands plan.targetProfile.mtimeGranularityNs live) ?_).trans (by tauto)
  · unfold PlanOperation.SourceStands
    cases hpath : operation.sourceRelPath with
    | none => simp
    | some path =>
        cases hexpected : operation.sourceExpected with
        | none => simp
        | some expected =>
            simp only [drifts_addStat (h.source path hpath), Option.some.injEq]
            simp
  · unfold PlanOperation.PriorStands
    cases hpath : operation.priorTargetRelPath with
    | none => simp
    | some path =>
        simp only [drifts_addStat (h.prior path hpath)]
        simp

end Preflight

/-! ## The executor

The guards stop at the first mismatch.  For each kind the guards at its head
pass exactly when the evidence of the operation stands. -/

section Executor

variable [Unicode] {operation : PlanOperation} {live : LiveTriple}

/-- The answers of an executor's filesystem that sees the live stats. -/
def LiveTriple.answers (live : LiveTriple) : LiveStats where
  source := .ok live.source
  target := .ok live.target
  prior := .ok live.prior

/-- The kind guards its source. -/
def OperationKind.guardsSource (kind : OperationKind) : Bool :=
  kind ∈ [.copy, .update, .recase, .moveUpdate, .noop]

/-- The kind guards its prior target. -/
def OperationKind.guardsPrior (kind : OperationKind) : Bool :=
  kind ∈ [.move, .recase, .moveUpdate]

/-- The kind creates its target. -/
def OperationKind.createsTarget (kind : OperationKind) : Bool := kind ∈ [.move, .mkdir]

/-- The operation carries the evidence its kind needs. -/
def PlanOperation.evidenced (operation : PlanOperation) : Bool :=
  let source := operation.sourceRelPath.isSome && operation.sourceExpected.isSome
  let target := operation.targetExpected.isSome
  let prior := operation.priorTargetRelPath.isSome && operation.priorTargetExpected.isSome
  match operation.kind with
  | .copy => source
  | .update | .noop => source && target
  | .move => prior
  | .recase =>
      source && prior && operation.priorTargetRelPath.all fun old =>
        old ≠ operation.targetRelPath && old.key = operation.targetRelPath.key
  | .moveUpdate => source && prior
  | .trash | .delete => target
  | .mkdir => true

/-- What the executor demands of the target. -/
def PlanOperation.TargetAccepted (operation : PlanOperation) (live : Option FileStat) : Prop :=
  if operation.kind = .recase then True
  else if operation.kind.createsTarget then live = none
  else if operation.kind = .delete ∧ operation.directoryCleanup = true then
    ∃ expected actual, operation.targetExpected = some expected ∧ live = some actual ∧
      matchesDirectoryCleanup actual expected = true
  else Stands 0 operation.targetExpected live

theorem guardPresent_ok {actual : Option FileStat} {path : RelPath} {expected stat : FileStat}
    {missing drift : ExecutionReason} {matcher : FileStat → FileStat → Bool} :
    guardPresent (.ok actual) path expected missing drift matcher = .ok stat ↔
      actual = some stat ∧ matcher stat expected = true := by
  cases actual with
  | none => simp [guardPresent]
  | some actual =>
      simp only [guardPresent]
      split
      · next h =>
          simp only [Except.ok.injEq, Option.some.injEq]
          constructor
          · rintro rfl
            exact ⟨rfl, h⟩
          · exact fun hboth => hboth.1
      · next h =>
          simp only [reduceCtorEq, false_iff, Option.some.injEq]
          rintro ⟨rfl, hmatch⟩
          exact h hmatch

/-- A guard of presence in front of the rest. -/
theorem guardPresent_bind {α : Type} {actual : Option FileStat} {path : RelPath}
    {expected : FileStat} {missing drift : ExecutionReason}
    {rest : Except OperationError α} {a : α} :
    (guardPresent (.ok actual) path expected missing drift >>= fun _ => rest) = .ok a ↔
      Stands 0 (some expected) actual ∧ rest = .ok a := by
  rw [Checked.bind_eq_ok]
  simp only [guardPresent_ok, matchesExpected_iff, stands_some]
  constructor
  · rintro ⟨stat, h, hrest⟩
    exact ⟨⟨stat, h⟩, hrest⟩
  · rintro ⟨⟨stat, h⟩, hrest⟩
    exact ⟨stat, h, hrest⟩

theorem guardAbsent_ok {actual : Option FileStat} {path : RelPath} :
    guardAbsent (.ok actual) path = .ok () ↔ actual = none := by
  cases actual <;> simp [guardAbsent]

theorem guardExpectedTarget_ok :
    guardExpectedTarget operation live.answers = .ok () ↔
      Stands 0 operation.targetExpected live.target := by
  unfold guardExpectedTarget
  cases operation.targetExpected with
  | none => simp [LiveTriple.answers, guardAbsent_ok]
  | some expected =>
      simp only [guardTarget, LiveTriple.answers]
      exact guardPresent_bind.trans (and_iff_left rfl)

theorem prepareCopyGuards_ok :
    prepareCopyGuards operation live.answers = .ok () ↔
      (operation.sourceRelPath.isSome = true ∧ operation.sourceExpected.isSome = true) ∧
        operation.SourceStands 0 live ∧ Stands 0 operation.targetExpected live.target := by
  unfold prepareCopyGuards sourceEvidence PlanOperation.SourceStands
  cases hpath : operation.sourceRelPath with
  | none => simp [bind, Except.bind]
  | some path =>
      cases hexpected : operation.sourceExpected with
      | none => simp [bind, Except.bind]
      | some expected =>
          rw [Checked.ok_bind]
          refine guardPresent_bind.trans ?_
          rw [guardExpectedTarget_ok]
          simp

/-- The prior-target evidence, and its guard, in front of the rest. -/
theorem priorTarget_bind {rest : Except OperationError Unit} :
    (priorTarget operation >>= fun prior =>
        guardPrior live.answers prior.1 prior.2 >>= fun _ => rest) = .ok () ↔
      (operation.priorTargetRelPath.isSome = true ∧ operation.priorTargetExpected.isSome = true) ∧
        operation.PriorStands 0 live ∧ rest = .ok () := by
  unfold priorTarget PlanOperation.PriorStands
  cases hpath : operation.priorTargetRelPath with
  | none => simp [bind, Except.bind]
  | some path =>
      cases hexpected : operation.priorTargetExpected with
      | none => simp [bind, Except.bind]
      | some expected =>
          rw [Checked.ok_bind]
          refine guardPresent_bind.trans ?_
          simp

/-- The target evidence, and its guard. -/
theorem targetEvidence_bind {detail : String} {rest : Except OperationError Unit} :
    (targetEvidence operation detail >>= fun expected =>
        guardTarget operation live.answers expected >>= fun _ => rest) = .ok () ↔
      operation.targetExpected.isSome = true ∧
        Stands 0 operation.targetExpected live.target ∧ rest = .ok () := by
  unfold targetEvidence
  cases operation.targetExpected with
  | none => simp [bind, Except.bind]
  | some expected =>
      rw [Checked.ok_bind]
      refine guardPresent_bind.trans ?_
      simp

theorem updateGuards_ok :
    updateGuards operation live.answers = .ok () ↔
      operation.targetExpected.isSome = true ∧
        (operation.sourceRelPath.isSome = true ∧ operation.sourceExpected.isSome = true) ∧
          operation.SourceStands 0 live ∧ Stands 0 operation.targetExpected live.target := by
  unfold updateGuards targetEvidence
  cases htarget : operation.targetExpected with
  | none => simp [bind, Except.bind]
  | some expected =>
      rw [Checked.ok_bind, Checked.seq_eq_ok, prepareCopyGuards_ok]
      simp only [guardTarget, LiveTriple.answers]
      rw [guardPresent_bind, htarget]
      simp only [Option.isSome_some, true_and]
      constructor
      · rintro ⟨⟨hevidence, hsource, htarget⟩, -, -⟩
        exact ⟨hevidence, hsource, htarget⟩
      · rintro ⟨hevidence, hsource, htarget⟩
        exact ⟨⟨hevidence, hsource, htarget⟩, htarget, rfl⟩

theorem moveGuards_ok :
    moveGuards operation live.answers = .ok () ↔
      (operation.priorTargetRelPath.isSome = true ∧ operation.priorTargetExpected.isSome = true) ∧
        operation.PriorStands 0 live ∧ live.target = none := by
  rw [← @guardAbsent_ok _ live.target operation.targetRelPath]
  exact priorTarget_bind

theorem moveUpdateGuards_ok :
    moveUpdateGuards operation live.answers = .ok () ↔
      (operation.priorTargetRelPath.isSome = true ∧ operation.priorTargetExpected.isSome = true) ∧
        operation.PriorStands 0 live ∧
          (operation.sourceRelPath.isSome = true ∧ operation.sourceExpected.isSome = true) ∧
            operation.SourceStands 0 live ∧ Stands 0 operation.targetExpected live.target := by
  rw [← prepareCopyGuards_ok]
  exact priorTarget_bind

theorem recaseGuards_ok :
    recaseGuards operation live.answers = .ok () ↔
      (operation.priorTargetRelPath.isSome = true ∧ operation.priorTargetExpected.isSome = true) ∧
        (operation.sourceRelPath.isSome = true ∧ operation.sourceExpected.isSome = true) ∧
          (∀ old, operation.priorTargetRelPath = some old →
            old ≠ operation.targetRelPath ∧ old.key = operation.targetRelPath.key) ∧
            operation.SourceStands 0 live ∧ operation.PriorStands 0 live := by
  unfold recaseGuards priorTarget sourceEvidence PlanOperation.SourceStands
    PlanOperation.PriorStands
  cases hprior : operation.priorTargetRelPath with
  | none => simp [bind, Except.bind]
  | some old =>
      cases hold : operation.priorTargetExpected with
      | none => simp [bind, Except.bind]
      | some oldExpected =>
          cases hpath : operation.sourceRelPath with
          | none => simp [bind, Except.bind]
          | some path =>
              cases hexpected : operation.sourceExpected with
              | none => simp [bind, Except.bind]
              | some expected =>
                  rw [Checked.ok_bind]
                  dsimp only
                  rw [Checked.ok_bind]
                  dsimp only
                  split
                  · next hpaths =>
                      simp only [reduceCtorEq, Option.some.injEq, forall_eq', false_iff]
                      rintro ⟨-, -, hcase, -⟩
                      rcases hpaths with heq | hkey
                      · exact hcase.1 heq
                      · exact hkey hcase.2
                  · next hpaths =>
                      obtain ⟨hne, hkey⟩ := not_or.1 hpaths
                      simp only [guardSource, guardPrior, LiveTriple.answers]
                      rw [guardPresent_bind, guardPresent_bind]
                      simp [hne, not_not.1 hkey, pure, Except.pure]

theorem deleteGuards_ok :
    deleteGuards operation live.answers = .ok () ↔
      operation.targetExpected.isSome = true ∧
        if operation.directoryCleanup = true then
          ∃ expected actual, operation.targetExpected = some expected ∧
            live.target = some actual ∧ matchesDirectoryCleanup actual expected = true
        else Stands 0 operation.targetExpected live.target := by
  unfold deleteGuards
  split
  · next hcleanup =>
      unfold targetEvidence
      cases htarget : operation.targetExpected with
      | none => simp [bind, Except.bind]
      | some expected =>
          rw [Checked.ok_bind, Checked.bind_eq_ok]
          simp only [guardTarget, LiveTriple.answers, guardPresent_ok, pure, Except.pure, and_true]
          simp
  · exact targetEvidence_bind.trans (and_congr_right fun _ => and_iff_left rfl)

theorem noopGuards_ok :
    noopGuards operation live.answers = .ok () ↔
      (operation.sourceRelPath.isSome = true ∧ operation.sourceExpected.isSome = true) ∧
        operation.targetExpected.isSome = true ∧ operation.SourceStands 0 live ∧
          Stands 0 operation.targetExpected live.target := by
  unfold noopGuards PlanOperation.SourceStands
  cases hpath : operation.sourceRelPath with
  | none => simp
  | some path =>
      cases hexpected : operation.sourceExpected with
      | none => simp
      | some expected =>
          cases htarget : operation.targetExpected with
          | none => simp
          | some target =>
              simp only [guardSource, guardTarget, LiveTriple.answers]
              rw [guardPresent_bind, guardPresent_bind]
              simp [pure, Except.pure]

/-- What the executor's guards accept. -/
theorem executorGuards_ok :
    executorGuards operation live.answers = .ok () ↔
      operation.evidenced = true ∧
        (operation.kind.guardsSource = true → operation.SourceStands 0 live) ∧
          operation.TargetAccepted live.target ∧
            (operation.kind.guardsPrior = true → operation.PriorStands 0 live) := by
  unfold executorGuards PlanOperation.evidenced PlanOperation.TargetAccepted
  cases hkind : operation.kind with
  | copy =>
      simp [copyGuards, prepareCopyGuards_ok, OperationKind.guardsSource,
        OperationKind.guardsPrior, OperationKind.createsTarget]
  | update =>
      simp only [updateGuards_ok]
      simp [OperationKind.guardsSource, OperationKind.guardsPrior, OperationKind.createsTarget]
      tauto
  | move =>
      simp only [moveGuards_ok]
      simp [OperationKind.guardsSource, OperationKind.guardsPrior, OperationKind.createsTarget]
      tauto
  | moveUpdate =>
      simp only [moveUpdateGuards_ok]
      simp [OperationKind.guardsSource, OperationKind.guardsPrior, OperationKind.createsTarget]
      tauto
  | recase =>
      simp only [recaseGuards_ok]
      cases hprior : operation.priorTargetRelPath <;>
        simp [OperationKind.guardsSource, OperationKind.guardsPrior]
      tauto
  | mkdir =>
      simp [startDirectoryGuards, LiveTriple.answers, guardAbsent_ok, OperationKind.guardsSource,
        OperationKind.guardsPrior, OperationKind.createsTarget]
  | trash =>
      simp only [trashGuards, targetEvidence_bind]
      simp [OperationKind.guardsSource, OperationKind.guardsPrior, OperationKind.createsTarget,
        pure, Except.pure]
  | delete =>
      simp only [deleteGuards_ok]
      simp [OperationKind.guardsSource, OperationKind.guardsPrior, OperationKind.createsTarget]
  | noop =>
      simp only [noopGuards_ok]
      simp [OperationKind.guardsSource, OperationKind.guardsPrior, OperationKind.createsTarget]
      tauto

end Executor

/-! ## Both

The two predicates are compared field by field.  What is left over is named:
a time within preflight's tolerance, and the checks that only one of the two
makes. -/

section Both

variable [Unicode] {plan : Plan} {operation : PlanOperation} {live : LiveTriple}

/-- The live stat is the planned one but for an mtime off by no more than the
tolerance. -/
def TimeOnly (tolerance : Nat) (expected live : Option FileStat) : Prop :=
  ∃ planned actual, expected = some planned ∧ live = some actual ∧
    Matches tolerance actual planned ∧ actual.mtimeNs ≠ planned.mtimeNs

omit [Unicode] in
theorem timeOnly_iff {tolerance : Nat} {expected live : Option FileStat} :
    TimeOnly tolerance expected live ↔
      Stands tolerance expected live ∧ ¬ Stands 0 expected live := by
  constructor
  · rintro ⟨planned, actual, rfl, rfl, hmatches, hmtime⟩
    refine ⟨.present hmatches, ?_⟩
    intro h
    cases h with
    | present hexact =>
        have hnear := hexact.mtime_near
        omega
  · rintro ⟨hstands, hnot⟩
    cases hstands with
    | absent => exact absurd .absent hnot
    | present hmatches =>
        exact ⟨_, _, rfl, rfl, hmatches, fun hmtime => hnot (.present (hmatches.exact hmtime))⟩

/-- What preflight refuses and the executor lets through: a subject that the
kind does not guard, an absent target that the kind creates anyway, and a
directory to clean up that other removals have touched. -/
inductive PreflightOnly (plan : Plan) (operation : PlanOperation) (live : LiveTriple) : Prop
  | source (hkind : operation.kind.guardsSource = false)
      (h : ¬ operation.SourceStands plan.sourceProfile.mtimeGranularityNs live)
  | recased (hkind : operation.kind = .recase)
      (h : ¬ Stands plan.targetProfile.mtimeGranularityNs operation.targetExpected live.target)
  | created (hkind : operation.kind.createsTarget = true)
      (hexpected : operation.targetExpected.isSome = true) (h : live.target = none)
  | prior (hkind : operation.kind.guardsPrior = false)
      (h : ¬ operation.PriorStands plan.targetProfile.mtimeGranularityNs live)
  | churn (hkind : operation.kind = .delete) (hcleanup : operation.directoryCleanup = true)
      (h : ∃ expected actual, operation.targetExpected = some expected ∧
        live.target = some actual ∧ matchesDirectoryCleanup actual expected = true ∧
          ¬ Matches plan.targetProfile.mtimeGranularityNs actual expected)

/-- What the executor rejects and preflight lets through: an operation without
the evidence of its kind, an entry where the kind creates one, and an mtime
that is off within the granularity of the volume. -/
inductive ExecutorOnly (plan : Plan) (operation : PlanOperation) (live : LiveTriple) : Prop
  | evidence (h : operation.evidenced = false)
  | created (hkind : operation.kind.createsTarget = true)
      (hexpected : operation.targetExpected.isSome = true) (h : live.target.isSome = true)
  | sourceTime (hkind : operation.kind.guardsSource = true)
      (hpath : operation.sourceRelPath.isSome = true)
      (h : TimeOnly plan.sourceProfile.mtimeGranularityNs operation.sourceExpected live.source)
  | targetTime (hrecase : operation.kind ≠ .recase)
      (hcreates : operation.kind.createsTarget = false)
      (hcleanup : ¬ (operation.kind = .delete ∧ operation.directoryCleanup = true))
      (h : TimeOnly plan.targetProfile.mtimeGranularityNs operation.targetExpected live.target)
  | priorTime (hkind : operation.kind.guardsPrior = true)
      (hpath : operation.priorTargetRelPath.isSome = true)
      (h : TimeOnly plan.targetProfile.mtimeGranularityNs operation.priorTargetExpected live.prior)

theorem PlanOperation.SourceStands.widen {tolerance : Nat} (h : operation.SourceStands 0 live) :
    operation.SourceStands tolerance live :=
  fun path expected hpath hexpected => (h path expected hpath hexpected).widen

theorem PlanOperation.PriorStands.widen {tolerance : Nat} (h : operation.PriorStands 0 live) :
    operation.PriorStands tolerance live :=
  fun hpath => (h hpath).widen

/-- A source that stands within the tolerance only has an mtime that is off. -/
theorem sourceStands_timeOnly {tolerance : Nat} :
    operation.SourceStands tolerance live ∧ ¬ operation.SourceStands 0 live ↔
      operation.sourceRelPath.isSome = true ∧
        TimeOnly tolerance operation.sourceExpected live.source := by
  unfold PlanOperation.SourceStands
  cases hpath : operation.sourceRelPath with
  | none => simp
  | some path =>
      cases hexpected : operation.sourceExpected with
      | none => simp [timeOnly_iff]
      | some expected => simp [timeOnly_iff]

theorem priorStands_timeOnly {tolerance : Nat} :
    operation.PriorStands tolerance live ∧ ¬ operation.PriorStands 0 live ↔
      operation.priorTargetRelPath.isSome = true ∧
        TimeOnly tolerance operation.priorTargetExpected live.prior := by
  unfold PlanOperation.PriorStands
  cases hpath : operation.priorTargetRelPath with
  | none => simp
  | some path => simp [timeOnly_iff]

theorem PlanOperation.TargetAccepted.recase (hkind : operation.kind = .recase)
    (target : Option FileStat) : operation.TargetAccepted target := by
  rw [PlanOperation.TargetAccepted, if_pos hkind]
  trivial

theorem targetAccepted_creates (hkind : operation.kind.createsTarget = true)
    {target : Option FileStat} : operation.TargetAccepted target ↔ target = none := by
  have hrecase : operation.kind ≠ .recase := by
    intro h
    rw [h] at hkind
    exact absurd hkind (by decide)
  rw [PlanOperation.TargetAccepted, if_neg hrecase, if_pos hkind]

theorem targetAccepted_cleanup (hkind : operation.kind = .delete)
    (hcleanup : operation.directoryCleanup = true) {target : Option FileStat} :
    operation.TargetAccepted target ↔
      ∃ expected actual, operation.targetExpected = some expected ∧ target = some actual ∧
        matchesDirectoryCleanup actual expected = true := by
  have hrecase : operation.kind ≠ .recase := by simp [hkind]
  have hcreates : ¬ operation.kind.createsTarget = true := by
    rw [hkind]
    decide
  rw [PlanOperation.TargetAccepted, if_neg hrecase, if_neg hcreates, if_pos ⟨hkind, hcleanup⟩]

theorem targetAccepted_exact (hrecase : operation.kind ≠ .recase)
    (hcreates : operation.kind.createsTarget = false)
    (hcleanup : ¬ (operation.kind = .delete ∧ operation.directoryCleanup = true))
    {target : Option FileStat} :
    operation.TargetAccepted target ↔ Stands 0 operation.targetExpected target := by
  rw [PlanOperation.TargetAccepted, if_neg hrecase, if_neg (by simp [hcreates]), if_neg hcleanup]

omit [Unicode] in
/-- A directory that stands as planned may be cleaned up. -/
theorem Matches.cleanup {tolerance : Nat} {actual expected : FileStat}
    (h : Matches tolerance actual expected) (hkind : expected.kind = .directory) :
    matchesDirectoryCleanup actual expected = true := by
  have hidentity : expected.fileIdentity = none ∨ actual.fileIdentity = expected.fileIdentity := by
    cases hexpected : expected.fileIdentity with
    | none => exact Or.inl rfl
    | some identity => exact Or.inr (hexpected ▸ h.identity_eq (by simp [hexpected]))
  simp [matchesDirectoryCleanup, h.kind_eq, hkind, h.size_eq, h.metadata_eq, hidentity]

/-- What preflight alone says of the target. -/
theorem target_refused (hstands : ¬ Stands plan.targetProfile.mtimeGranularityNs
    operation.targetExpected live.target) (haccepted : operation.TargetAccepted live.target) :
    PreflightOnly plan operation live := by
  by_cases hrecase : operation.kind = .recase
  · exact .recased hrecase hstands
  by_cases hcreates : operation.kind.createsTarget = true
  · have hnone := (targetAccepted_creates hcreates).1 haccepted
    refine .created hcreates ?_ hnone
    cases hexpected : operation.targetExpected with
    | none =>
        rw [hexpected, hnone] at hstands
        exact absurd .absent hstands
    | some expected => rfl
  by_cases hcleanup : operation.kind = .delete ∧ operation.directoryCleanup = true
  · obtain ⟨expected, actual, hexpected, hactual, hmatch⟩ :=
      (targetAccepted_cleanup hcleanup.1 hcleanup.2).1 haccepted
    refine .churn hcleanup.1 hcleanup.2 ⟨expected, actual, hexpected, hactual, hmatch, ?_⟩
    intro hmatches
    rw [hexpected, hactual] at hstands
    exact hstands (.present hmatches)
  · exact absurd ((targetAccepted_exact hrecase (by simpa using hcreates) hcleanup).1
      haccepted).widen hstands

/-- What the executor alone says of the target. -/
theorem target_rejected (hstands : Stands plan.targetProfile.mtimeGranularityNs
    operation.targetExpected live.target) (hnot : ¬ operation.TargetAccepted live.target) :
    ExecutorOnly plan operation live := by
  by_cases hrecase : operation.kind = .recase
  · exact absurd (.recase hrecase _) hnot
  by_cases hcreates : operation.kind.createsTarget = true
  · have hsome : live.target ≠ none := fun h => hnot ((targetAccepted_creates hcreates).2 h)
    refine .created hcreates ?_ (Option.isSome_iff_ne_none.2 hsome)
    cases hexpected : operation.targetExpected with
    | none =>
        rw [hexpected] at hstands
        exact absurd (stands_none.1 hstands) hsome
    | some expected => rfl
  by_cases hcleanup : operation.kind = .delete ∧ operation.directoryCleanup = true
  · refine absurd ((targetAccepted_cleanup hcleanup.1 hcleanup.2).2 ?_) hnot
    have hdirectory := hcleanup.2
    simp only [PlanOperation.directoryCleanup, Bool.and_eq_true, Option.any_eq_true,
      decide_eq_true_eq] at hdirectory
    obtain ⟨⟨expected, hexpected, hkind⟩, -⟩ := hdirectory
    rw [hexpected] at hstands
    obtain ⟨actual, hactual, hmatches⟩ := stands_some.1 hstands
    exact ⟨expected, actual, hexpected, hactual, hmatches.cleanup hkind⟩
  · have hcreates' : operation.kind.createsTarget = false := by simpa using hcreates
    exact .targetTime hrecase hcreates' hcleanup (timeOnly_iff.2 ⟨hstands, fun hexact =>
      hnot ((targetAccepted_exact hrecase hcreates' hcleanup).2 hexact)⟩)

/-- Where the two differ on an operation, and that they do differ there. -/
structure JudgedAlike (plan : Plan) (operation : PlanOperation) (live : LiveTriple)
    (refused rejected : Prop) : Prop where
  rejected_of_refused : refused → rejected ∨ PreflightOnly plan operation live
  refused_of_rejected : rejected → refused ∨ ExecutorOnly plan operation live
  preflight_only : PreflightOnly plan operation live → refused
  executor_only : ExecutorOnly plan operation live → rejected

theorem PreflightOnly.refused (h : PreflightOnly plan operation live) :
    ¬ (operation.SourceStands plan.sourceProfile.mtimeGranularityNs live ∧
      Stands plan.targetProfile.mtimeGranularityNs operation.targetExpected live.target ∧
        operation.PriorStands plan.targetProfile.mtimeGranularityNs live) := by
  rintro ⟨hsource, htarget, hprior⟩
  cases h with
  | source hkind h => exact h hsource
  | recased hkind h => exact h htarget
  | created hkind hexpected h =>
      obtain ⟨expected, hsome⟩ := Option.isSome_iff_exists.1 hexpected
      rw [hsome, h] at htarget
      cases htarget
  | prior hkind h => exact h hprior
  | churn hkind hcleanup h =>
      obtain ⟨expected, actual, hexpected, hactual, -, hnot⟩ := h
      rw [hexpected, hactual] at htarget
      cases htarget with
      | present hmatches => exact hnot hmatches

theorem ExecutorOnly.rejected (h : ExecutorOnly plan operation live) :
    ¬ (operation.evidenced = true ∧
      (operation.kind.guardsSource = true → operation.SourceStands 0 live) ∧
        operation.TargetAccepted live.target ∧
          (operation.kind.guardsPrior = true → operation.PriorStands 0 live)) := by
  rintro ⟨hevidence, hsource, htarget, hprior⟩
  cases h with
  | evidence h => exact absurd hevidence (by simp [h])
  | created hkind hexpected h =>
      rw [(targetAccepted_creates hkind).1 htarget] at h
      exact absurd h (by simp)
  | sourceTime hkind hpath h => exact (sourceStands_timeOnly.2 ⟨hpath, h⟩).2 (hsource hkind)
  | targetTime hrecase hcreates hcleanup h =>
      exact (timeOnly_iff.1 h).2 ((targetAccepted_exact hrecase hcreates hcleanup).1 htarget)
  | priorTime hkind hpath h => exact (priorStands_timeOnly.2 ⟨hpath, h⟩).2 (hprior hkind)

/-- Preflight and the executor judge drift alike, but for the differences of
`PreflightOnly` and `ExecutorOnly`. -/
theorem judged_alike [OsPath] {xset : ExecutionSet} {world : ObservedWorld} {verdict : Verdict}
    (h : preflight xset world = .ok verdict) (hop : operation ∈ xset.remaining)
    (hsees : Sees xset.plan world operation live) :
    JudgedAlike xset.plan operation live
      (∃ refusal ∈ verdict.refusals, refusal.opId = some operation.opId ∧
        refusal.code.isDrift = true)
      (executorGuards operation live.answers ≠ .ok ()) := by
  rw [drifts_verdict h hop, drifts_stats hsees, ne_eq, executorGuards_ok]
  refine ⟨fun hrefused => ?_, fun hrejected => ?_, PreflightOnly.refused, ExecutorOnly.rejected⟩
  · by_contra hneither
    obtain ⟨haccepted, honly⟩ := not_or.1 hneither
    obtain ⟨-, hsource, htarget, hprior⟩ := not_not.1 haccepted
    refine hrefused ⟨?_, ?_, ?_⟩
    · by_contra hnot
      cases hkind : operation.kind.guardsSource with
      | true => exact hnot (hsource hkind).widen
      | false => exact honly (.source hkind hnot)
    · by_contra hnot
      exact honly (target_refused hnot htarget)
    · by_contra hnot
      cases hkind : operation.kind.guardsPrior with
      | true => exact hnot (hprior hkind).widen
      | false => exact honly (.prior hkind hnot)
  · by_contra hneither
    obtain ⟨hrefused, honly⟩ := not_or.1 hneither
    obtain ⟨hsource, htarget, hprior⟩ := not_not.1 hrefused
    refine hrejected ⟨?_, fun hkind => ?_, ?_, fun hkind => ?_⟩
    · by_contra hnot
      exact honly (.evidence (by simpa using hnot))
    · by_contra hnot
      obtain ⟨hpath, htime⟩ := sourceStands_timeOnly.1 ⟨hsource, hnot⟩
      exact honly (.sourceTime hkind hpath htime)
    · by_contra hnot
      exact honly (target_rejected htarget hnot)
    · by_contra hnot
      obtain ⟨hpath, htime⟩ := priorStands_timeOnly.1 ⟨hprior, hnot⟩
      exact honly (.priorTime hkind hpath htime)

end Both

/-! A file that both sides hold, planned as a no-op, and a target whose mtime
is then moved by the 100 ns that NTFS counts in. -/

section Sample

local instance driftUnicode : Unicode := asciiUnicode

local instance driftOsPath : OsPath := normalOsPath

def notesPath : RelPath := .single (str "notes") (by decide +kernel)

def notesStat (mtimeNs : Nat) : FileStat where
  kind := .file
  size := 5
  mtimeNs := mtimeNs
  fileIdentity := none
  nlink := 1
  metadata := ⟨0x20, some 1690000000000000000⟩

def keepNotes : PlanOperation where
  opId := 0x7f9c24e8
  kind := .noop
  sourceRelPath := some notesPath
  targetRelPath := notesPath
  sourceExpected := some (notesStat 1700000000000000000)
  targetExpected := some (notesStat 1700000000000000000)
  intended := some (notesStat 1700000000000000000)
  reason := .metadataMatch

def notesPlan : Plan where
  sourceRoot := dataRoot
  targetRoot := copyRoot
  sourceVolumeId := some volumeA
  targetVolumeId := some volumeB
  sourceVolumeEvidence := none
  targetVolumeEvidence := none
  sourceProfile := sampleVolume.profile
  targetProfile := sampleVolume.profile
  sourceComplete := true
  targetComplete := true
  operations := [keepNotes]
  assignment := ⟨⟨str "identity", str "1"⟩, []⟩
  preservation := {}
  filterSnapshot := {}
  deletionPolicy := .trash
  trashOnUpdate := true
  policyFingerprint := []
  workerCount := 1
  requiredVolumes := []
  requiredBytes := 0
  checked := by decide

def notesSet : ExecutionSet where
  plan := notesPlan
  selection := [keepNotes.opId]
  selection_known := fun _ h => h

/-- The world at preflight, with the mtime of the target. -/
def notesWorld (mtimeNs : Nat) : ObservedWorld where
  stats :=
    (Dict.empty.set ⟨str "source", notesPath.key⟩
      ⟨some (notesStat 1700000000000000000), none, true, true⟩).set
        ⟨str "target", notesPath.key⟩ ⟨some (notesStat mtimeNs), none, true, true⟩
  paths := .empty
  roots :=
    (Dict.empty.set (str "source")
      ⟨some (str "c:\\data"), notesPlan.sourceVolumeId, none, none⟩).set (str "target")
        ⟨some (str "d:\\copy"), notesPlan.targetVolumeId, none, none⟩
  freeSpace := some 0
  reclaimableTempBytes := 0
  trash := none
  currentFilters := {}
  currentPolicyFingerprint := []

def notesLive (mtimeNs : Nat) : LiveTriple where
  source := some (notesStat 1700000000000000000)
  target := some (notesStat mtimeNs)
  prior := none

theorem notes_seen (mtimeNs : Nat) :
    Sees notesPlan (notesWorld mtimeNs) keepNotes (notesLive mtimeNs) where
  source path hpath := by
    obtain rfl := Option.some.inj hpath
    exact ⟨⟨some (notesStat 1700000000000000000), none, true, true⟩, by rfl, rfl, rfl⟩
  target := ⟨⟨some (notesStat mtimeNs), none, true, true⟩, by rfl, rfl, rfl⟩
  prior path hpath := absurd hpath (by simp [keepNotes])

/-- What preflight answers on the sample. -/
def notesVerdict (mtimeNs : Nat) : Verdict := ⟨true, [], notesWorld mtimeNs, rfl⟩

theorem judged_alike_notes :
    JudgedAlike notesPlan keepNotes (notesLive 1700000000000000000)
      (∃ refusal ∈ (notesVerdict 1700000000000000000).refusals,
        refusal.opId = some keepNotes.opId ∧ refusal.code.isDrift = true)
      (executorGuards keepNotes (notesLive 1700000000000000000).answers ≠ .ok ()) :=
  judged_alike (show preflight notesSet _ = _ by rfl) (by decide +kernel) (notes_seen _)

theorem preflight_tolerates_mtime :
    preflight notesSet (notesWorld 1700000000000000100) =
        .ok (notesVerdict 1700000000000000100) ∧
      keepNotes ∈ notesSet.remaining ∧ keepNotes.blocked = false ∧
      Sees notesPlan (notesWorld 1700000000000000100) keepNotes (notesLive 1700000000000000100) ∧
      ¬ ((∃ refusal ∈ (notesVerdict 1700000000000000100).refusals,
          refusal.opId = some keepNotes.opId ∧ refusal.code.isDrift = true) ↔
        executorGuards keepNotes (notesLive 1700000000000000100).answers ≠ .ok ()) := by
  have hrejected : executorGuards keepNotes (notesLive 1700000000000000100).answers ≠ .ok () := by
    decide +kernel
  refine ⟨by rfl, by decide +kernel, rfl, notes_seen _, ?_⟩
  intro h
  obtain ⟨refusal, hmem, -⟩ := h.2 hrejected
  exact absurd hmem List.not_mem_nil

end Sample

end NamiSync
