/-
# `Modules.TrashUse` — who uses the trash, and who asks for it

Observation and preflight ask for the trash where a `TRASH` remains, or an
update while the old version is to be kept.  A move-update puts the old file
into the trash under either setting, so it is the one kind that is not asked
for in all the cases in which it needs the trash.

## What is proved

    trash_preflighted_iff : where a set that passes preflight in `world` has
      a remaining operation that uses the trash, the trash is usable there,
      exactly when the set asks for the trash, or the trash is usable in any
      case, or no remaining MOVE_UPDATE has an old file to displace

One half reads off the programs which of them make a change below the trash
(`Modules.Executor.Reach`); the other half is one run that makes one.
-/
import NamiSync.Modules.Drift
import NamiSync.Modules.Executor.Reach

namespace NamiSync

open Faulty Faulty.Prog Executor

section Use

variable [Unicode]

/-- An entry is put at its place in the trash of the run, by a rename, a link
or the last step of a copy; where the reviewed target is such a place, what is
published there does not count. -/
inductive Discards (runId : RunId) (operation : PlanOperation) : Call → Prop
  | rename (path : RelPath) (h : trashPath runId path ≠ operation.targetRelPath) :
      Discards runId operation (.change (.rename path (trashPath runId path)))
  | link (path : RelPath) :
      Discards runId operation (.change (.hardlink path (trashPath runId path)))
  | copy (path : RelPath) (h : trashPath runId path ≠ operation.targetRelPath) :
      Discards runId operation
        (.change (.rename (ownedTemp (trashPath runId path) runId operation.opId)
          (trashPath runId path)))

/-- The operation asks for the trash. -/
def ExecutionSet.asksTrash (xset : ExecutionSet) (operation : PlanOperation) : Bool :=
  operation.kind = .trash ||
    (xset.plan.trashOnUpdate && decide (operation.kind ∈ [.update, .moveUpdate]))

theorem needsTrash_eq (xset : ExecutionSet) :
    xset.needsTrash = xset.remaining.any xset.asksTrash := rfl

/-- Some tree shows the prior target as it was recorded. -/
def Displaced (operation : PlanOperation) : Prop :=
  ∃ old expected, priorTarget operation = .ok (old, expected) ∧
    ∃ (disk : Disk) (actual : FileStat), disk.stat old = some actual ∧
      matchesExpected actual expected = true

theorem discards_rename {runId : RunId} {operation : PlanOperation} {source target : RelPath}
    (h : Discards runId operation (.change (.rename source target))) :
    target ≠ operation.targetRelPath := by
  cases h with
  | rename path h => exact h
  | copy path h => exact h

/-- What the list of an operation's changes says about the trash. -/
theorem reaches_discards {xset : ExecutionSet} {runId : RunId} {operation : PlanOperation}
    {step : Change} (h : Reaches xset runId operation step)
    (hdiscard : Discards runId operation (.change step)) :
    xset.asksTrash operation = true ∨ operation.kind = .moveUpdate := by
  have hkept (hkind : operation.kind = .update) (htrash : xset.plan.trashOnUpdate = true) :
      xset.asksTrash operation = true := by
    rw [ExecutionSet.asksTrash, hkind, htrash]
    rfl
  cases h with
  | fill hkind h => cases h with
    | metadata h => cases h <;> cases hdiscard
    | _ => cases hdiscard
  | finish hkind h => cases h <;> cases hdiscard
  | publish hkind => exact absurd rfl (discards_rename hdiscard)
  | replace hkind => cases hdiscard
  | link hkind htrash => exact Or.inl (hkept hkind htrash)
  | fillBackup hkind htrash h => exact Or.inl (hkept hkind htrash)
  | publishBackup hkind htrash => exact Or.inl (hkept hkind htrash)
  | finishBackup hkind h => cases h <;> cases hdiscard
  | folder hpath h => cases hdiscard
  | move hkind hprior => exact absurd rfl (discards_rename hdiscard)
  | trashPrior hkind hprior => exact Or.inr hkind
  | trash hkind =>
      refine Or.inl ?_
      rw [ExecutionSet.asksTrash, hkind]
      rfl
  | removeFile hkind => cases hdiscard
  | removeDirectory hkind => cases hdiscard
  | readonly hkind h => cases h <;> cases hdiscard

theorem not_discards_metadata {runId : RunId} {operation : PlanOperation} {path : RelPath}
    {step : Change} (h : MetadataOf path step) : ¬ Discards runId operation (.change step) := by
  intro hdiscard
  cases h <;> cases hdiscard

end Use

section Runs

variable [Unicode] [Host] [Sha256] {xset : ExecutionSet} {runId : RunId}
  {policies : ExecutorPolicies} {operation : PlanOperation}

/-! ## Programs that leave the trash alone

A change into the trash occurs in three kinds of operations.  An update and a
trash use it only when the set asks for it, and preflight asks the same; the
third is the move with new content. -/

/-- Nothing that the program can do puts an entry into the trash. -/
abbrev Spares (runId : RunId) (operation : PlanOperation) {α : Type} (P : α → Prop) (m : Exec α) :
    Prop :=
  m.Does (fun _ => True) (fun call => ¬ Discards runId operation call) (fun _ => True) P

/-! ## A displaced file

For that kind there is a run in which the old file is brought to the trash,
whatever the plan says: no fault, and both files as the plan expects them. -/

/-- The run of an operation can put an entry into the trash. -/
def Trashes (xset : ExecutionSet) (operation : PlanOperation) : Prop :=
  ∃ runId policies,
    ¬ Spares runId operation (fun _ => True) (executeOperation xset runId policies operation)

omit [Host] [Sha256] in
theorem sparing (question : Question) : ¬ Discards runId operation (.ask question) := by
  intro h
  cases h

/-- The same operation, as a copy: what is prepared is the same. -/
theorem prepareCopy_spares {P : PreparedCopy → Prop} (hP : ∀ prepared, P prepared) :
    Spares runId operation P (prepareCopy xset runId policies operation) := by
  have hcopy : (prepareCopy xset runId policies { operation with kind := .copy }).Does
      (fun _ => True) (OpCall xset runId { operation with kind := .copy })
      (OpNote runId { operation with kind := .copy }) P := prepareCopy_does rfl hP
  refine hcopy.mono (fun _ h => h) (fun call hcall hdiscard => ?_) (fun _ _ => trivial)
    (fun _ h => h)
  cases call with
  | change step =>
      have hsame : Discards runId { operation with kind := .copy } (.change step) := by
        cases hdiscard with
        | rename path h => exact .rename path h
        | link path => exact .link path
        | copy path h => exact .copy path h
      rcases reaches_discards hcall hsame with hasks | hkind
      · rw [ExecutionSet.asksTrash, decide_eq_false (by simp), decide_eq_false (by simp),
          Bool.and_false] at hasks
        cases hasks
      · cases hkind
  | _ => cases hdiscard

theorem startMoveUpdate_spares {P : MoveUpdateContinuation → Prop}
    (hP : ∀ continuation, P continuation) :
    Spares runId operation P (startMoveUpdate xset runId policies operation) := by
  refine does_bind.2 (lift_does fun evidence _ => ?_)
  refine does_bind.2 (guardPresent_does sparing _ _ _ _ _ _ fun _ => ?_)
  refine does_bind.2 (prepareCopy_spares fun prepared => ?_)
  refine does_bind.2 (renameOr_does _ _ (fun h => discards_rename h rfl) ?_)
  refine does_bind.2 (note_does trivial ?_)
  refine does_bind.2 (requireStatPath_does sparing _ fun _ => ?_)
  exact does_bind.2 (note_does trivial (hP _))

omit [Sha256] in
theorem attestMoveUpdate_spares {P : MoveUpdateContinuation → Prop}
    (continuation : MoveUpdateContinuation) (hP : ∀ continuation, P continuation) :
    Spares runId operation P (attestMoveUpdate xset operation continuation) := by
  refine does_bind.2 (requireStatPath_does sparing _ fun _ => ?_)
  refine does_bind.2 (failIf_does _ _ fun _ => ?_)
  refine does_bind.2 (applyMetadata_does sparing _ _ _ (fun _ h => not_discards_metadata h) ?_)
  cases continuation.attestation with
  | some attestation => exact hP _
  | none =>
      refine does_bind.2 (observedStat_does sparing _ _ fun _ => ?_)
      refine does_bind.2 (attest_does _ _ (fun h => nomatch h) fun _ => ?_)
      exact does_bind.2 (note_does trivial (hP _))

omit [Sha256] in
/-- What `stat` returns is what some disk shows. -/
theorem stat_shows {P : Option FileStat → Prop} (side : Side) (path : RelPath)
    (hP : ∀ disk : Disk, P (disk.stat path)) :
    Spares runId operation P (stat side path) :=
  does_bind.2 (ask_does sparing _ fun world _ => hP (world.disk side))

omit [Sha256] in
/-- Where the old file never matches what was recorded, it stays. -/
theorem trashMoved_spares {P : Unit → Prop} {old : RelPath} {expected : FileStat}
    (hnever : ∀ (disk : Disk) (actual : FileStat), disk.stat old = some actual →
      matchesExpected actual expected = false)
    (continuation : MoveUpdateContinuation) (hP : P ()) :
    Spares runId operation P (trashMoved xset runId operation old expected continuation) := by
  have hrest : Spares runId operation P (moveIntoTrash xset runId old expected) := by
    refine does_bind.2 (ask_does sparing _ ?_)
    refine does_bind.2 (stat_shows _ _ fun disk => ?_)
    refine does_bind.2 (stat_does sparing _ _ fun trashActual => ?_)
    cases hold : disk.stat old with
    | none => exact failIf_does _ _ fun _ => hP
    | some actual =>
        have hfails := hnever disk actual hold
        dsimp only
        unfold guardPathStat
        rw [hfails]
        trivial
  refine does_bind.2 (onlyIf_does (fun _ => ?_) hrest)
  exact does_bind.2 (trashDestination_does sparing _ _ (fun _ _ h => nomatch h)
    (note_does trivial hrest))

theorem moveUpdate_spares (hnever : ¬ Displaced operation) :
    Spares runId operation (fun _ => True) (moveUpdate xset runId policies operation) := by
  refine does_bind.2 (get_does fun world _ => ?_)
  have hcontinuation : ∀ existing, Spares runId operation (fun _ => True)
      (moveUpdateContinuation xset runId policies operation existing) := by
    intro existing
    unfold moveUpdateContinuation
    split
    · exact startMoveUpdate_spares fun _ => trivial
    · trivial
    · trivial
  refine does_bind.2 ((hcontinuation _).post fun continuation _ => ?_)
  refine does_bind.2 (lift_does fun evidence hprior => ?_)
  obtain ⟨old, expected⟩ := evidence
  refine does_bind.2 (attestMoveUpdate_spares _ fun attested => ?_)
  refine does_bind.2 (trashMoved_spares (fun disk actual hactual => ?_) _ ?_)
  · rw [← Bool.not_eq_true]
    exact fun hmatches => hnever ⟨old, expected, hprior, disk, actual, hactual, hmatches⟩
  refine does_bind.2 (durabilityDetail_does sparing _ _ fun _ => ?_)
  cases attested.attestation with
  | none => trivial
  | some attestation =>
      exact does_bind.2 (record_does _ (fun h => nomatch h) trivial fun _ => trivial)

/-- Only an operation that asks for the trash, or a move-update whose old file
can be found, uses it. -/
theorem trashes_cases (h : Trashes xset operation) :
    xset.asksTrash operation = true ∨ operation.kind = .moveUpdate ∧ Displaced operation := by
  obtain ⟨runId, policies, hnot⟩ := h
  by_contra hother
  rw [not_or] at hother
  by_cases hkind : operation.kind = .moveUpdate
  · have hnever : ¬ Displaced operation := fun hdisplaced => hother.2 ⟨hkind, hdisplaced⟩
    refine hnot ?_
    unfold executeOperation
    rw [hkind]
    exact moveUpdate_spares hnever
  · refine hnot (executeOperation_does.mono (fun _ h => h) (fun call hcall hdiscard => ?_)
      (fun _ _ => trivial) (fun _ h => h))
    cases call with
    | change step => exact (reaches_discards hcall hdiscard).elim hother.1 hkind
    | _ => cases hdiscard

omit [Host] [Sha256] in
theorem trashPath_ne (path : RelPath) : trashPath 0 path ≠ trashPath 1 path := by
  intro h
  have hhead : hexDigits 32 (0 : RunId) = hexDigits 32 (1 : RunId) :=
    (List.cons.inj (List.cons.inj (congrArg RelPath.components h)).2).1
  exact absurd hhead (by decide)

omit [Host] [Sha256] in
/-- A run whose places in the trash are not the target. -/
theorem exists_runId (old target : RelPath) : ∃ runId, trashPath runId old ≠ target := by
  by_cases h : trashPath 0 old = target
  · exact ⟨1, fun h' => trashPath_ne old (h.trans h'.symm)⟩
  · exact ⟨0, h⟩

/-- A tree with one file. -/
def oneFile (path : RelPath) : Disk where
  store := FileStore.Store.empty.alloc (loc path) path.name ⟨false, [], ⟨0, 0, none⟩⟩
  serial := str "0"
  serial_ne := by decide

omit [Host] [Sha256] in
theorem stat_oneFile (path : RelPath) :
    (oneFile path).stat path =
      some ((oneFile path).statOf ⟨path.name, 0, false, [], ⟨0, 0, none⟩, 0⟩) := by
  have hlook : (oneFile path).look (loc path) =
      some ⟨path.name, 0, false, [], ⟨0, 0, none⟩, 0⟩ := by
    unfold oneFile Disk.look
    rw [FileStore.Store.look_alloc _ _ rfl, if_pos rfl]
    rfl
  exact congrArg (Option.map (oneFile path).statOf) hlook

/-- A world with this target tree. -/
def worldOf (disk : Disk) : World where
  source := disk
  target := disk

def noTree : Disk := ⟨.empty, str "0", by decide⟩

/-- What a file that was published and attested leaves behind. -/
def attestedContinuation (published : FileStat) : MoveUpdateContinuation where
  prepared := ⟨⟨List.replicate 32 0, 0, rfl⟩, published⟩
  publishedStat := published
  hasTrash := true
  attestation := some ⟨⟨List.replicate 32 0, 0, .copyAttested, 0, rfl⟩, published⟩

section Followed

variable {P : Unit → Prop}

omit [Sha256] in
theorem call_spared {c : Call} (h : Spares runId operation P (call (M := machine) c)) :
    ¬ Discards runId operation c ∧ P () :=
  ⟨h.1, h.2 none⟩

omit [Sha256] in
theorem restoreCreated_spared {path : RelPath} {found : FileStat} {preserveCreated : Bool}
    (h : Spares runId operation P (restoreCreated path found preserveCreated)) : P () := by
  unfold restoreCreated at h
  split at h
  · exact (call_spared h).2
  · exact h

omit [Sha256] in
theorem applyMetadata_spared {path : RelPath} {found : FileStat}
    {preserveCreated applyReadonly : Bool}
    (h : Spares runId operation P (applyMetadata path found preserveCreated applyReadonly)) :
    P () := by
  have htimes := (call_spared (does_bind.1 h)).2
  have hcreated := restoreCreated_spared (does_bind.1 htimes)
  have hread := (call_spared (does_bind.1 hcreated)).2
  exact (call_spared hread).2

omit [Sha256] in
theorem stat_spared {P : Option FileStat → Prop} {side : Side} {path : RelPath}
    (h : Spares runId operation P (stat side path)) (disk : Disk) : P (disk.stat path) := by
  have hget := (call_spared (does_bind.1 h)).2 (worldOf disk) trivial
  cases side with
  | source => exact hget
  | target => exact hget

omit [Sha256] in
theorem requireStatPath_spared {P : FileStat → Prop} {path : RelPath} {disk : Disk}
    {actual : FileStat} (h : Spares runId operation P (requireStatPath path))
    (hactual : disk.stat path = some actual) : P actual := by
  have hfound := stat_spared (does_bind.1 h) disk
  rw [hactual] at hfound
  exact hfound

omit [Sha256] in
theorem flushBeforeDestructive_spared (h : Spares runId operation P flushBeforeDestructive) :
    P () :=
  h.2 none

end Followed

omit [Sha256] in
/-- A published file that is there as it was published is attested. -/
theorem attestMoveUpdate_spared {P : MoveUpdateContinuation → Prop} {disk : Disk}
    {published : FileStat} (hpublished : disk.stat operation.targetRelPath = some published)
    (h : Spares runId operation P
      (attestMoveUpdate xset operation (attestedContinuation published))) :
    P (attestedContinuation published) := by
  have hfound := requireStatPath_spared (does_bind.1 h) hpublished
  have hsame : sameFileVersion published (attestedContinuation published).publishedStat = true := by
    simp [sameFileVersion, attestedContinuation]
  rw [hsame] at hfound
  have hfinish : Spares runId operation P (do
      applyMetadata operation.targetRelPath (attestedContinuation published).prepared.intended
        xset.plan.preservation.preserveCreated true
      pure (attestedContinuation published)) := does_bind.1 hfound
  exact applyMetadata_spared (does_bind.1 hfinish)

omit [Sha256] in
/-- An old file that is there as it was recorded goes into the trash. -/
theorem trashMoved_spared {P : Unit → Prop} {old : RelPath} {expected actual published : FileStat}
    {disk : Disk} (hactual : disk.stat old = some actual)
    (hmatches : matchesExpected actual expected = true)
    (h : Spares runId operation P
      (trashMoved xset runId operation old expected (attestedContinuation published))) :
    ¬ Discards runId operation (.change (.rename old (trashPath runId old))) := by
  have hrest : Spares runId operation P (moveIntoTrash xset runId old expected) := does_bind.1 h
  have hold := stat_spared (does_bind.1 (call_spared (does_bind.1 hrest)).2) disk
  have htrash := stat_spared (does_bind.1 hold) noTree
  rw [hactual] at htrash
  have hguard := does_bind.1 htrash
  unfold guardPathStat at hguard
  rw [if_pos hmatches] at hguard
  have hfree : Spares runId operation P (do
      failIf (noTree.stat (trashPath runId old)).isSome .trashCollision
        (str "move-update trash exists: " ++ absolute xset.plan.targetRoot (trashPath runId old))
      flushBeforeDestructive
      renameOr old (trashPath runId old) .trashCollision
        "move-update trash destination appeared before conditional rename") := hguard
  have hflush : Spares runId operation P (do
      flushBeforeDestructive
      renameOr old (trashPath runId old) .trashCollision
        "move-update trash destination appeared before conditional rename") := does_bind.1 hfree
  exact (flushBeforeDestructive_spared (does_bind.1 hflush)).1

theorem moveUpdateContinuation_spared {P : MoveUpdateContinuation → Prop}
    {existing : Option Continuation} {continuation : MoveUpdateContinuation}
    (hexisting : existing = some (.moveUpdate continuation))
    (h : Spares runId operation P
      (moveUpdateContinuation xset runId policies operation existing)) : P continuation := by
  subst hexisting
  exact h

/-- A move-update whose old file can be found uses the trash. -/
theorem trashes_displaced (hkind : operation.kind = .moveUpdate) (h : Displaced operation) :
    Trashes xset operation := by
  obtain ⟨old, expected, hprior, disk, actual, hactual, hmatches⟩ := h
  obtain ⟨runId, hplace⟩ := exists_runId old operation.targetRelPath
  obtain ⟨published, hpublished⟩ : ∃ published,
      (oneFile operation.targetRelPath).stat operation.targetRelPath = some published :=
    ⟨_, stat_oneFile _⟩
  refine ⟨runId, { failure := fun _ _ _ => .proceed }, fun hspares => ?_⟩
  unfold executeOperation at hspares
  rw [hkind] at hspares
  -- an attempt that follows one in which the new file was published
  let state : ExecutionState :=
    { retryContinuations := Dict.empty.set operation.opId
        (.moveUpdate (attestedContinuation published)) }
  have hcontinued := does_bind.1 (does_bind.1 hspares { worldOf disk with state := state } trivial)
  have hexisting : state.retryContinuations.get? operation.opId =
      some (.moveUpdate (attestedContinuation published)) := Dict.get?_set_self _ _ _
  have hattest := moveUpdateContinuation_spared hexisting hcontinued
  rw [hprior] at hattest
  have hlifted := does_bind.1 hattest
  change Spares runId operation _ (attestMoveUpdate xset operation _ >>= _) at hlifted
  have hmoved := attestMoveUpdate_spared hpublished (does_bind.1 hlifted)
  exact trashMoved_spared hactual hmatches (does_bind.1 hmoved) (.rename old hplace)

/-! ## What preflight has seen

Preflight refuses a set that needs the trash where it cannot be used.  So the
two agree exactly where nothing is displaced unasked. -/

/-- The trash was observed, and can be used. -/
def TrashUsable (world : ObservedWorld) : Prop :=
  ∃ trash, world.trash = some trash ∧ trash.available = true ∧ trash.contained = true ∧
    trash.sameVolume = true ∧ trash.writable = true ∧ trash.reparseSafe = true

omit [Host] [Sha256] in
theorem usable_of_refusals {world : ObservedWorld} (hneeds : xset.needsTrash = true)
    (h : trashRefusals xset world = []) : TrashUsable world := by
  unfold trashRefusals at h
  rw [if_pos hneeds] at h
  cases htrash : world.trash with
  | none =>
      rw [htrash] at h
      cases h
  | some trash =>
      rw [htrash] at h
      simp only [List.append_eq_nil_iff, ite_eq_left_iff, reduceCtorEq, imp_false, not_not] at h
      obtain ⟨⟨⟨⟨havailable, hcontained⟩, hvolume⟩, hwritable⟩, hreparse⟩ := h
      exact ⟨trash, htrash, havailable, hcontained, hvolume, hwritable, hreparse⟩

omit [Host] [Sha256] in
/-- A verdict without refusals has no refusal of the trash. -/
theorem no_trashRefusals [OsPath] {world : ObservedWorld} {verdict : Verdict}
    (h : preflight xset world = .ok verdict) (hok : verdict.ok = true) :
    trashRefusals xset world = [] := by
  refine List.eq_nil_iff_forall_not_mem.2 fun refusal hrefusal => ?_
  have hmem : refusal ∈ verdict.refusals := by
    simp only [mem_verdict h, hrefusal, or_true]
  rw [verdict.agree, List.isEmpty_iff] at hok
  rw [hok] at hmem
  exact absurd hmem List.not_mem_nil

/-- Preflight lets only such worlds pass in which the trash can be used, if a
remaining operation uses it. -/
def TrashPreflighted [OsPath] (xset : ExecutionSet) (world : ObservedWorld) : Prop :=
  ∀ verdict, preflight xset world = .ok verdict → verdict.ok = true →
    ∀ operation ∈ xset.remaining, Trashes xset operation → TrashUsable world

/-- Where preflight passes, the trash was asked for, or can be used anyway, or
no old file of a move-update can be found. -/
theorem trash_preflighted_iff [OsPath] (xset : ExecutionSet) (world : ObservedWorld) :
    TrashPreflighted xset world ↔
      ∀ verdict, preflight xset world = .ok verdict → verdict.ok = true →
        xset.needsTrash = true ∨ TrashUsable world ∨
          ∀ operation ∈ xset.remaining, operation.kind = .moveUpdate → ¬ Displaced operation := by
  constructor
  · intro h verdict hverdict hok
    by_cases husable : TrashUsable world
    · exact Or.inr (Or.inl husable)
    · refine Or.inr (Or.inr fun operation hmem hkind hdisplaced => husable ?_)
      exact h verdict hverdict hok operation hmem (trashes_displaced hkind hdisplaced)
  · intro h verdict hverdict hok operation hmem htrashes
    rcases h verdict hverdict hok with hneeds | husable | hnone
    · exact usable_of_refusals hneeds (no_trashRefusals hverdict hok)
    · exact husable
    · rcases trashes_cases htrashes with hasks | ⟨hkind, hdisplaced⟩
      · have hneeds : xset.needsTrash = true :=
          (needsTrash_eq xset).trans (List.any_eq_true.2 ⟨operation, hmem, hasks⟩)
        exact usable_of_refusals hneeds (no_trashRefusals hverdict hok)
      · exact absurd hdisplaced (hnone operation hmem hkind)

end Runs

/-! A file that has changed and has moved, in a plan that keeps no old
versions. -/

section Sample

local instance displacedUnicode : Unicode := asciiUnicode

local instance displacedOsPath : OsPath := normalOsPath

local instance displacedHost : Host where
  fileTime n := 1700000000000000000 + 1000000 * n
  storedTime mtimeNs := mtimeNs / 100 * 100
  fileAttributes := 0x20
  directoryAttributes := 0x10
  monotonic n := 1000 * n
  utcNow n := 1700000000000000 + 1000 * n

theorem displacedDigest_length :
    ([0xe3, 0xb0, 0xc4, 0x42, 0x98, 0xfc, 0x1c, 0x14, 0x9a, 0xfb, 0xf4, 0xc8, 0x99, 0x6f,
      0xb9, 0x24, 0x27, 0xae, 0x41, 0xe4, 0x64, 0x9b, 0x93, 0x4c, 0xa4, 0x95, 0x99, 0x1b,
      0x78, 0x52, 0xb8, 0x55] : List UInt8).length = 32 := by
  decide

local instance displacedDigest : Sha256 where
  digest _ := [0xe3, 0xb0, 0xc4, 0x42, 0x98, 0xfc, 0x1c, 0x14, 0x9a, 0xfb, 0xf4, 0xc8, 0x99, 0x6f,
    0xb9, 0x24, 0x27, 0xae, 0x41, 0xe4, 0x64, 0x9b, 0x93, 0x4c, 0xa4, 0x95, 0x99, 0x1b, 0x78, 0x52,
    0xb8, 0x55]
  digest_length _ := displacedDigest_length

def oldNotesPath : RelPath := .single (str "drafts") (by decide +kernel)

def newNotesPath : RelPath := .single (str "notes") (by decide +kernel)

def oldNotesStat : FileStat where
  kind := .file
  size := 0
  mtimeNs := 0
  fileIdentity := none
  nlink := 1
  metadata := ⟨0, none⟩

def displaceNotes : PlanOperation where
  opId := 0x3b9ac9ff
  kind := .moveUpdate
  sourceRelPath := some newNotesPath
  targetRelPath := newNotesPath
  sourceExpected := some (notesStat 1700000000000000000)
  targetExpected := none
  intended := some (notesStat 1700000000000000000)
  priorTargetRelPath := some oldNotesPath
  priorTargetExpected := some oldNotesStat
  contentBytes := 5

def displacedPlan : Plan :=
  { notesPlan with
    operations := [displaceNotes]
    trashOnUpdate := false
    requiredBytes := 5
    checked := by decide }

def displacedSet : ExecutionSet where
  plan := displacedPlan
  selection := [displaceNotes.opId]
  selection_known := fun _ h => h

def displacedWorld : ObservedWorld where
  stats :=
    ((Dict.empty.set ⟨str "source", newNotesPath.key⟩
      ⟨some (notesStat 1700000000000000000), none, true, true⟩).set
        ⟨str "target", newNotesPath.key⟩ ⟨none, none, true, true⟩).set
          ⟨str "target", oldNotesPath.key⟩ ⟨some oldNotesStat, none, true, true⟩
  paths := .empty
  roots :=
    (Dict.empty.set (str "source")
      ⟨some (str "c:\\data"), displacedPlan.sourceVolumeId, none, none⟩).set (str "target")
        ⟨some (str "d:\\copy"), displacedPlan.targetVolumeId, none, none⟩
  freeSpace := some 5
  reclaimableTempBytes := 0
  trash := none
  currentFilters := {}
  currentPolicyFingerprint := []

theorem displaced_notes : Displaced displaceNotes :=
  ⟨oldNotesPath, oldNotesStat, rfl, oneFile oldNotesPath, _, stat_oneFile _, by decide +kernel⟩

theorem trash_unobserved : ¬ TrashPreflighted displacedSet displacedWorld := by
  intro h
  have hpasses : preflight displacedSet displacedWorld =
      .ok ⟨true, [], displacedWorld, rfl⟩ := by rfl
  obtain ⟨trash, htrash, -⟩ := h _ hpasses rfl displaceNotes (by decide +kernel)
    (trashes_displaced rfl displaced_notes)
  cases htrash

end Sample

end NamiSync
