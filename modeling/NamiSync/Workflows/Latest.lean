/-
# `Workflows.Latest` — the correspondence of a target row and its last publication

A call that publishes a file pairs the row at its source path with the row at
its target path, and drops what either was paired with before.  A source
without an identity pairs nothing and drops nothing: it leaves the pair of the
last publication whose source had one.

## What is proved

    correspondence_latest : after any recorded calls of runs of a mapping that
      starts without correspondences, these are a matching between rows of the
      two locations, and the pair of a target row is that of the last
      publication to it whose source had an identity

`correspondence_outdated` is why the publications are restricted: a source
without an identity pairs nothing and drops nothing, by an explicit guard of
`_record_correspondence`.

## The argument

`Pairs` says what one publication leaves of the mapping's correspondences:
its own pair, and the old ones that share neither row.  `Latest` is the
invariant along the history; a call under an id that has its row already
changes neither side.
-/
import Mathlib.Data.List.Pairwise
import NamiSync.Db.Repositories
import NamiSync.Db.Tracked
import NamiSync.Modules.Planner

namespace NamiSync

namespace SyncRunRecorder

variable [Unicode] {recorder : SyncRunRecorder} {operation : PlanOperation}
  {ledger mid later : MainLedger} {sourceId targetId : Nat} {time : Utc}

/-! ## What a publication leaves

A call that publishes leaves one pair for its source and target, and no other
pair of the mapping with either. -/

/-- The identity of the reviewed source. -/
abbrev sourceIdentity (operation : PlanOperation) : Option FileIdentity :=
  operation.sourceExpected.bind FileStat.fileIdentity

/-- The rows of a publication and the correspondences of its mapping. -/
structure Pairs (recorder : SyncRunRecorder) (operation : PlanOperation) (published : FileStat)
    (ledger later : MainLedger) (sourceId targetId : Nat) : Prop where
  source : ∃ path, operation.sourceRelPath = some path ∧
    later.Sits sourceId recorder.command.sourceLocationId path
  target : later.Sits targetId recorder.command.targetLocationId operation.targetRelPath
  unidentified : sourceIdentity operation = none →
    ∀ pair ∈ later.correspondence, pair ∈ ledger.correspondence
  identified : ∀ identity, sourceIdentity operation = some identity →
    ∀ pair ∈ later.correspondence, pair.mappingId = recorder.command.mappingId →
      (pair.sourceInventoryId = sourceId ∧ pair.targetInventoryId = targetId ∧
        pair.sourceIdentity = identity ∧ pair.targetIdentity = published.fileIdentity) ∨
      (pair ∈ ledger.correspondence ∧ pair.targetInventoryId ≠ targetId)

/-- The end of a publishing call. -/
theorem pairs_of_recordCorrespondence {path : RelPath} {source target : FileStat}
    {observed : MainLedger}
    (hne : recorder.command.sourceLocationId ≠ recorder.command.targetLocationId)
    (hpath : operation.sourceRelPath = some path)
    (hexpected : operation.sourceExpected = some source)
    (hobserved : recorder.observeSource ledger path source time = (sourceId, observed))
    (hstep : TargetStep recorder operation observed mid)
    (htarget : mid.Sits targetId recorder.command.targetLocationId operation.targetRelPath)
    (h : recorder.recordCorrespondence mid operation sourceId targetId source target time =
      .ok later) :
    Pairs recorder operation target ledger later sourceId targetId := by
  have hobservedEq : observed = (recorder.observeSource ledger path source time).2 := by
    rw [hobserved]
  have hsourceId : sourceId = (recorder.observeSource ledger path source time).1 := by
    rw [hobserved]
  have hsits : observed.Sits sourceId recorder.command.sourceLocationId path := by
    rw [hobservedEq, hsourceId]
    exact MainLedger.sits_upserted
  have hpairs : ∀ pair ∈ mid.correspondence, pair ∈ ledger.correspondence := by
    intro pair hpair
    have hin := hstep.shrinks pair hpair
    rw [hobservedEq] at hin
    exact hin
  obtain ⟨-, -, hinventory, hwritten⟩ := recordCorrespondence_spec h
  refine ⟨⟨path, hpath, (sits_congr hinventory).2 (hstep.elsewhere _ _ _ hne hsits)⟩,
    (sits_congr hinventory).2 htarget, ?_, ?_⟩
  · intro hidentity pair hpair
    rw [sourceIdentity, hexpected, Option.bind_some] at hidentity
    rw [hidentity] at hwritten
    rw [hwritten] at hpair
    exact hpairs pair hpair
  · intro identity hidentity pair hpair hmapping
    rw [sourceIdentity, hexpected, Option.bind_some] at hidentity
    rw [hidentity] at hwritten
    rcases (hwritten pair).1 hpair with rfl | ⟨hold, hkept⟩
    · exact Or.inl ⟨rfl, rfl, rfl, rfl⟩
    · exact Or.inr ⟨hpairs pair hold, fun heq => hkept ⟨hmapping, Or.inr heq⟩⟩

/-! ## Calls

Which calls publish, and what: the outcome decides, and the identity of the
source file if there is one. -/

variable (hne : recorder.command.sourceLocationId ≠ recorder.command.targetLocationId)

include hne in
theorem recordCopyLike_pairs {attestation : Attestation}
    (h : recorder.recordCopyLike ledger operation attestation time = .ok later) :
    ∃ sourceId targetId, Pairs recorder operation attestation.subject ledger
      later sourceId targetId := by
  unfold recordCopyLike at h
  cases hpath : operation.sourceRelPath with
  | none => exact absurd h (by simp [hpath])
  | some path =>
      cases hexpected : operation.sourceExpected with
      | none => exact absurd h (by simp [hpath, hexpected])
      | some source =>
          simp only [hpath, hexpected] at h
          split at h
          · exact absurd h (by simp)
          · cases hobserved : recorder.observeSource ledger path source time with
            | mk sourceId observed =>
                cases htarget : recorder.observeTarget observed operation.targetRelPath
                    attestation.subject time with
                | mk targetId written =>
                    rw [hobserved] at h
                    dsimp only at h
                    rw [htarget] at h
                    obtain ⟨hstep, hsits, -⟩ := observeTarget_spec htarget
                    exact ⟨sourceId, targetId, pairs_of_recordCorrespondence hne hpath hexpected
                      hobserved (hstep.trans targetStep_storeAttestation)
                      (sits_storeAttestation.2 hsits) h⟩

include hne in
theorem recordNoop_pairs {source target : FileStat}
    (h : recorder.recordNoop ledger operation source target time = .ok later) :
    ∃ sourceId targetId, Pairs recorder operation target ledger later sourceId targetId := by
  unfold recordNoop at h
  split at h
  · exact absurd h (by simp)
  · next hmatch =>
      have hexpected := not_not.1 (not_or.1 hmatch).1
      cases hpath : operation.sourceRelPath with
      | none => exact absurd h (by simp [hpath])
      | some path =>
          rw [hpath] at h
          cases hobserved : recorder.observeSource ledger path source time with
          | mk sourceId observed =>
              cases htarget : recorder.observeTarget observed operation.targetRelPath target
                  time with
              | mk targetId written =>
                  dsimp only at h
                  rw [hobserved] at h
                  dsimp only at h
                  rw [htarget] at h
                  obtain ⟨hstep, hsits, -⟩ := observeTarget_spec htarget
                  exact ⟨sourceId, targetId, pairs_of_recordCorrespondence hne hpath hexpected
                    hobserved hstep hsits h⟩

include hne in
theorem recordMove_pairs {target : FileStat} {attestation : Option Attestation}
    (h : recorder.recordMove ledger operation target attestation time = .ok later) :
    ∃ sourceId targetId, Pairs recorder operation target ledger later sourceId targetId := by
  unfold recordMove at h
  cases hpath : operation.sourceRelPath with
  | none => exact absurd h (by simp [hpath])
  | some path =>
      cases hexpected : operation.sourceExpected with
      | none => exact absurd h (by simp [hpath, hexpected])
      | some source =>
          simp only [hpath, hexpected] at h
          split at h
          · exact absurd h (by simp)
          · cases hobserved : recorder.observeSource ledger path source time with
            | mk sourceId observed =>
                rw [hobserved] at h
                obtain ⟨⟨targetId, moved⟩, hmoved, h⟩ := Checked.bind_eq_ok.1 h
                obtain ⟨attested, hattested, h⟩ := Checked.bind_eq_ok.1 h
                obtain ⟨hstep, hsits, -⟩ := moveTargetRow_spec hmoved
                obtain ⟨hlast, hstays⟩ := attestMove_spec hattested
                exact ⟨sourceId, targetId, pairs_of_recordCorrespondence hne hpath hexpected
                  hobserved (hstep.trans hlast) (hstays _ _ _ hsits) h⟩

include hne in
/-- What a call that publishes leaves. -/
theorem apply_pairs {call : RecordCall} {target : FileStat}
    (h : recorder.apply ledger operation call time = .ok later)
    (hpublished : call.published = some target) :
    ∃ sourceId targetId, Pairs recorder operation target ledger later sourceId targetId := by
  cases call with
  | copied op attestation =>
      obtain rfl := Option.some.inj hpublished
      exact recordCopyLike_pairs hne h
  | updated op attestation =>
      obtain rfl := Option.some.inj hpublished
      exact recordCopyLike_pairs hne h
  | moved op stat =>
      obtain rfl := Option.some.inj hpublished
      exact recordMove_pairs hne h
  | recased op stat =>
      obtain rfl := Option.some.inj hpublished
      exact recordMove_pairs hne h
  | moveUpdated op attestation =>
      obtain rfl := Option.some.inj hpublished
      exact recordMove_pairs hne h
  | noop op source stat =>
      obtain rfl := Option.some.inj hpublished
      exact recordNoop_pairs hne h
  | mkdir op stat => exact absurd hpublished (by simp [RecordCall.published])
  | trashed op path stat => exact absurd hpublished (by simp [RecordCall.published])
  | deleted op prior => exact absurd hpublished (by simp [RecordCall.published])

/-- A call that publishes nothing leaves the correspondences. -/
theorem apply_unpublished {call : RecordCall}
    (h : recorder.apply ledger operation call time = .ok later) (hnone : call.published = none) :
    later.correspondence = ledger.correspondence := by
  have absent : ∀ {prior}, recorder.recordAbsent ledger operation prior time = .ok later →
      later.correspondence = ledger.correspondence := by
    intro prior h
    unfold recordAbsent at h
    split at h
    · exact absurd h (by simp)
    · rw [← Except.ok.inj h]
      rfl
  cases call with
  | trashed op path target => exact absent h
  | deleted op prior => exact absent h
  | mkdir op target =>
      simp only [apply, recordMkdir] at h
      split at h
      · exact absurd h (by simp)
      · rw [← Except.ok.inj h]
        rfl
  | _ => exact absurd hnone (by simp [RecordCall.published])

end SyncRunRecorder

open SyncRunRecorder

/-! ## Publications

The history of a mapping, as a list of what was published, latest first. -/

/-- A publication: the rows at its target path and at its source path, and
the two identities. -/
structure Publication where
  target : Nat
  source : Nat
  sourceIdentity : Option FileIdentity
  targetIdentity : Option FileIdentity
  deriving DecidableEq

/-- The source had an identity. -/
def Publication.identified (publication : Publication) : Bool := publication.sourceIdentity.isSome

/-- The last publication to the row that satisfies the predicate. -/
def lastPublication (counts : Publication → Bool) (history : List Publication) (row : Nat) :
    Option Publication :=
  history.find? fun publication => publication.target = row && counts publication

variable {counts : Publication → Bool} {last : Publication} {history : List Publication}
  {row : Nat}

theorem lastPublication_cons_pos (h : (last.target = row && counts last) = true) :
    lastPublication counts (last :: history) row = some last :=
  List.find?_cons_of_pos h

theorem lastPublication_cons_neg (h : ¬ (last.target = row && counts last) = true) :
    lastPublication counts (last :: history) row = lastPublication counts history row :=
  List.find?_cons_of_neg h

section Histories

variable [Unicode]

/-! ## Runs of one mapping

By induction over the calls: a pair of the ledger is the latest publication of
its paths. -/

/-- The publication of a call, by the ledger it has left. -/
def publication (recorder : SyncRunRecorder) (operation : PlanOperation) (call : RecordCall)
    (later : MainLedger) : Option Publication := do
  let published ← call.published
  let path ← operation.sourceRelPath
  let source ← Table.find (recorder.command.sourceLocationId, path.key) later.inventory
  let target ← Table.find (recorder.targetKey operation.targetRelPath) later.inventory
  return ⟨target.id, source.id, sourceIdentity operation, published.fileIdentity⟩

/-- What a call adds to the history: nothing if its operation has its row
already. -/
def publications (recorder : SyncRunRecorder) (ledger : MainLedger) (call : RecordCall)
    (later : MainLedger) : List Publication :=
  if (ledger.operations.find? fun prior =>
      prior.runId = recorder.runRowId ∧ prior.opToken = call.op).isSome then []
  else
    ((recorder.command.plan.operations.find? (·.opId = call.op)).bind fun operation =>
      publication recorder operation call later).toList

/-- The run is one of the mapping, as `begin_sync_run` has checked. -/
structure Serves (recorder : SyncRunRecorder) (mappingId : Nat) (mapping : MappingRow) : Prop where
  mappingId_eq : recorder.command.mappingId = mappingId
  source_eq : recorder.command.sourceLocationId = mapping.sourceLocationId
  target_eq : recorder.command.targetLocationId = mapping.targetLocationId

theorem Serves.ne {recorder : SyncRunRecorder} {mappingId : Nat} {mapping : MappingRow}
    (h : Serves recorder mappingId mapping) :
    recorder.command.sourceLocationId ≠ recorder.command.targetLocationId := by
  rw [h.source_eq, h.target_eq]
  exact mapping.distinct

variable [PayloadHash]

/-- The ledgers after recorded calls of runs of the mapping, with their
publications, the last one first. -/
inductive Recorded (mappingId : Nat) (mapping : MappingRow) (start : MainLedger) :
    List Publication → MainLedger → Prop
  | start : Recorded mappingId mapping start [] start
  | record {history : List Publication} {ledger later : MainLedger} {recorder : SyncRunRecorder}
      {call : RecordCall} {time : Utc}
      (h : Recorded mappingId mapping start history ledger)
      (hserves : Serves recorder mappingId mapping)
      (hok : recorder.record ledger call time = .ok later) :
      Recorded mappingId mapping start (publications recorder ledger call later ++ history) later

/-- The correspondences of the mapping are those of the last publications to
their target rows, of those that count. -/
def Latest (counts : Publication → Bool) (mappingId : Nat) (history : List Publication)
    (ledger : MainLedger) : Prop :=
  ∀ pair ∈ ledger.correspondence, pair.mappingId = mappingId →
    lastPublication counts history pair.targetInventoryId =
      some ⟨pair.targetInventoryId, pair.sourceInventoryId, some pair.sourceIdentity,
        pair.targetIdentity⟩

variable {recorder : SyncRunRecorder} {ledger later : MainLedger} {call : RecordCall} {time : Utc}

omit [PayloadHash] in
theorem find_key_of_sits {i locationId : Nat} {path : RelPath} (h : ledger.Sits i locationId path) :
    ∃ row, Table.find (locationId, path.key) ledger.inventory = some row ∧ row.id = i := by
  obtain ⟨row, hrow, hid, rfl, rfl⟩ := h
  exact ⟨row, (Table.find_eq_some ledger.inventory_keyed).2 ⟨hrow, rfl⟩, hid⟩

omit [PayloadHash] in
/-- What a publication to known rows adds to the history. -/
theorem publication_of_pairs {operation : PlanOperation} {target : FileStat}
    {sourceId targetId : Nat} (hpublished : call.published = some target)
    (h : Pairs recorder operation target ledger later sourceId targetId) :
    publication recorder operation call later =
      some ⟨targetId, sourceId, sourceIdentity operation, target.fileIdentity⟩ := by
  obtain ⟨path, hpath, hsource⟩ := h.source
  obtain ⟨source, hfind, rfl⟩ := find_key_of_sits hsource
  obtain ⟨row, hrow, rfl⟩ := find_key_of_sits h.target
  unfold publication targetKey
  rw [hpublished, hpath]
  simp only [Option.bind_eq_bind, Option.bind_some, hfind, hrow]
  rfl

omit [PayloadHash] in
theorem publication_none {operation : PlanOperation} (hnone : call.published = none) :
    publication recorder operation call later = none := by
  unfold publication
  rw [hnone]
  rfl

omit [PayloadHash] in
/-- A plan has one operation under an id. -/
theorem find_operation {operation : PlanOperation}
    (hmem : operation ∈ recorder.command.plan.operations) (hid : operation.opId = call.op) :
    recorder.command.plan.operations.find? (·.opId = call.op) = some operation := by
  cases hfind : recorder.command.plan.operations.find? (·.opId = call.op) with
  | none => exact absurd (List.find?_eq_none.1 hfind operation hmem) (by simpa using hid)
  | some other =>
      have hother : other.opId = call.op := by simpa using List.find?_some hfind
      exact congrArg some
        (Plan.eq_of_opId (List.mem_of_find?_eq_some hfind) hmem (hother.trans hid.symm))

omit [PayloadHash] in
/-- A fresh call adds its publication. -/
theorem publications_fresh {operation : PlanOperation}
    (hmem : operation ∈ recorder.command.plan.operations) (hid : operation.opId = call.op)
    (hfresh : ¬ Settled recorder ledger call.op) :
    publications recorder ledger call later =
      (publication recorder operation call later).toList := by
  unfold publications
  rw [if_neg, find_operation hmem hid, Option.bind_some]
  intro hsome
  obtain ⟨prior, hprior⟩ := Option.isSome_iff_exists.1 hsome
  exact hfresh ⟨prior, List.mem_of_find?_eq_some hprior, by simpa using List.find?_some hprior⟩

omit [PayloadHash] in
theorem publications_settled (h : Settled recorder ledger call.op) :
    publications recorder ledger call later = [] := by
  obtain ⟨prior, hprior, hrow⟩ := h
  unfold publications
  rw [if_pos]
  exact List.find?_isSome.2 ⟨prior, hprior, by simpa using hrow⟩

/-- One call. -/
theorem Latest.record {mappingId : Nat} {mapping : MappingRow} {history : List Publication}
    (h : Latest Publication.identified mappingId history ledger)
    (hserves : Serves recorder mappingId mapping)
    (hok : recorder.record ledger call time = .ok later) :
    Latest Publication.identified mappingId (publications recorder ledger call later ++ history)
      later := by
  obtain ⟨operation, hmem, hid, -, ⟨hsettled, rfl⟩ | ⟨hfresh, applied, happlied, hlater⟩⟩ :=
    record_cases hok
  · rw [publications_settled hsettled]
    exact h
  · have hcorrespondence : later.correspondence = applied.correspondence := by rw [hlater]
    have hpublication : publication recorder operation call later =
        publication recorder operation call applied := by rw [hlater]; rfl
    rw [publications_fresh hmem hid hfresh, hpublication]
    intro pair hin hmapping
    rw [hcorrespondence] at hin
    cases hpublished : call.published with
    | none =>
        rw [apply_unpublished happlied hpublished] at hin
        rw [publication_none hpublished]
        exact h pair hin hmapping
    | some target =>
        obtain ⟨sourceId, targetId, hpairs⟩ := apply_pairs hserves.ne happlied hpublished
        rw [publication_of_pairs hpublished hpairs]
        cases hidentity : sourceIdentity operation with
        | none =>
            -- the new publication does not count, and leaves the pairs
            rw [Option.toList_some, List.singleton_append,
              lastPublication_cons_neg (by simp [Publication.identified])]
            exact h pair (hpairs.unidentified hidentity pair hin) hmapping
        | some identity =>
            rw [Option.toList_some, List.singleton_append]
            rcases hpairs.identified identity hidentity pair hin
              (hmapping.trans hserves.mappingId_eq.symm) with
              ⟨rfl, rfl, rfl, hcopy⟩ | ⟨hbefore, hne⟩
            · rw [lastPublication_cons_pos (by simp [Publication.identified]), hcopy]
            · rw [lastPublication_cons_neg (by simpa [Publication.identified] using hne.symm)]
              exact h pair hbefore hmapping

namespace Recorded

variable {mappingId : Nat} {mapping : MappingRow} {start : MainLedger} {history : List Publication}

theorem mappings_eq (h : Recorded mappingId mapping start history ledger) :
    ledger.mappings = start.mappings := by
  induction h with
  | start => rfl
  | record _ hserves hok ih =>
      rcases record_frame hserves.ne hok with rfl | ⟨_, -, -, -, applied, hframe, -, rfl⟩
      · exact ih
      · exact hframe.mappings_eq.trans ih

theorem latest (h : Recorded mappingId mapping start history ledger)
    (hstart : ∀ pair ∈ start.correspondence, pair.mappingId ≠ mappingId) :
    Latest Publication.identified mappingId history ledger := by
  induction h with
  | start => exact fun pair hpair hm => absurd hm (hstart pair hpair)
  | record _ hserves hok ih => exact ih.record hserves hok

end Recorded

omit [PayloadHash] in
/-- The pairs of a mapping are a matching. -/
theorem correspondence_matches {pair other : CorrespondenceRow}
    (hpair : pair ∈ ledger.correspondence)
    (hother : other ∈ ledger.correspondence) (hmapping : pair.mappingId = other.mappingId) :
    pair.sourceInventoryId = other.sourceInventoryId ↔
      pair.targetInventoryId = other.targetInventoryId := by
  have hsymm : Std.Symm Distinct := ⟨fun first second h heq => by
    obtain ⟨hsource, htarget⟩ := h heq.symm
    exact ⟨hsource.symm, htarget.symm⟩⟩
  have hunique : pair.sourceInventoryId = other.sourceInventoryId ∨
      pair.targetInventoryId = other.targetInventoryId → pair = other := by
    intro hor
    by_contra hne
    obtain ⟨hsource, htarget⟩ := ledger.correspondence_distinct.forall hpair hother hne hmapping
    rcases hor with heq | heq
    · exact hsource heq
    · exact htarget heq
  constructor
  · intro heq
    rw [hunique (Or.inl heq)]
  · intro heq
    rw [hunique (Or.inr heq)]

/-- The correspondences of the mapping are a matching of rows of its two
locations, and the pair of a target row is that of the last publication to it
whose source had an identity. -/
theorem correspondence_latest {mappingId : Nat} {mapping : MappingRow} {start : MainLedger}
    {history : List Publication} (hmapping : start.mappings.get? mappingId = some mapping)
    (hstart : ∀ pair ∈ start.correspondence, pair.mappingId ≠ mappingId)
    (h : Recorded mappingId mapping start history ledger) :
    (∀ pair ∈ ledger.correspondence, ∀ other ∈ ledger.correspondence,
      pair.mappingId = mappingId → other.mappingId = mappingId →
      (pair.sourceInventoryId = other.sourceInventoryId ↔
        pair.targetInventoryId = other.targetInventoryId)) ∧
    (∀ pair ∈ ledger.correspondence, pair.mappingId = mappingId →
      (∃ path, ledger.Sits pair.sourceInventoryId mapping.sourceLocationId path) ∧
        ∃ path, ledger.Sits pair.targetInventoryId mapping.targetLocationId path) ∧
    Latest Publication.identified mappingId history ledger := by
  refine ⟨?_, ?_, h.latest hstart⟩
  · intro pair hpair other hother hm hm'
    exact correspondence_matches hpair hother (hm.trans hm'.symm)
  · intro pair hpair hm
    obtain ⟨found, hfound, ⟨source, hsource, hsid, hsloc⟩, target, htarget, htid, htloc⟩ :=
      ledger.correspondence_joins pair hpair
    rw [hm, h.mappings_eq, hmapping] at hfound
    obtain rfl := Option.some.inj hfound
    exact ⟨⟨_, source, hsource, hsid, hsloc, rfl⟩, _, target, htarget, htid, htloc, rfl⟩

end Histories

/-! ## An update of a file whose identity is not known

The second copy has no identity to record, so the pair of the first one stays. -/

section Sample

local instance republishedUnicode : Unicode := asciiUnicode

/-- The digests of the copy and of the update. -/
local instance republishedDigest : Digest where
  operation kind _ _ _ _ :=
    match kind with
    | .update => 0x2e8283cfb112ac47087e454d328d4a46
    | _ => 0x3c6f3a3319d889fc7c0fa9dd4e881a4b
  policy _ _ _ _ _ _ _ := str "b76cbc151bb77cf44410d52a81920a1d43824e657978598268e9074d4a4605ff"

local instance republishedHash : PayloadHash where
  call runToken _ _ :=
    if runToken = str "first" then
      str "acf2ea14d0bbec253cba1bbaa18df19acde5794b7075d04772a5d2aa2d287e16"
    else str "e6391acf67237006f2b42ff8a3342f6f69b11ea90f8eb5732d5377ea851e5fa8"

def republishedPath : RelPath := .single (str "a") (by decide +kernel)

def republishedRecord (mtimeNs : Nat) (identity : Option FileIdentity) : FileRecord where
  relPath := republishedPath
  size := 3
  mtimeNs := mtimeNs
  fileIdentity := identity
  nlink := 1
  metadata := ⟨0x20, some 1690000000000000000⟩

/-- The plan for the file and its copies, with the snapshot of the ledger. -/
def republishedPlan (ledger : MainLedger) (file : FileRecord) (copies : List FileRecord) :
    Option Plan := do
  let snapshot ← ledger.mappingSnapshot 1
  (plan (sampleScan (some volumeA) [file]) (sampleScan (some volumeB) copies)
    snapshot {} .everything).toOption

def republishedRecorder (runToken : String) (htoken : str runToken ≠ []) (runRowId : Nat)
    (result : Plan) : SyncRunRecorder where
  command :=
    { runToken := str runToken
      hostId := 1
      mappingId := 1
      sourceLocationId := 1
      targetLocationId := 2
      plan := result
      selection := result.operations.map PlanOperation.opId
      startedAt := 1704067200000000
      runToken_ne := htoken
      selection_known := fun _ h => h }
  runRowId := runRowId

def firstCopy : FileRecord :=
  republishedRecord 1700000000000000000 (some (volumeB.identity 8))

def secondCopy : FileRecord :=
  republishedRecord 1700003600000000000 (some (volumeB.identity 9))

def firstRecorder : SyncRunRecorder :=
  republishedRecorder "first" (by decide) 1 <|
    (republishedPlan emptyLedger
      (republishedRecord 1700000000000000000 (some (volumeA.identity 7))) []).get
      (by decide +kernel)

def firstCall : RecordCall :=
  .copied 0x3c6f3a3319d889fc7c0fa9dd4e881a4b
    { content := abcEvidence 1704067200000000
      subject := firstCopy.stat }

def publishedLedger : MainLedger :=
  (firstRecorder.record emptyLedger firstCall 1704067200000000).toOption.get
    (by decide +kernel)

/-- The file was written again, and the scan found no identity. -/
def secondRecorder : SyncRunRecorder :=
  republishedRecorder "second" (by decide) 2 <|
    (republishedPlan publishedLedger (republishedRecord 1700003600000000000 none) [firstCopy]).get
      (by decide +kernel)

def secondCall : RecordCall :=
  .updated 0x2e8283cfb112ac47087e454d328d4a46
    { content :=
        { digest := [165, 45, 21, 159, 38, 43, 44, 109, 219, 114, 74, 97, 132, 11, 239, 195, 110,
            179, 12, 136, 135, 122, 64, 48, 182, 92, 190, 134, 41, 132, 73, 201]
          size := 3
          provenance := .copyAttested
          observedAt := 1704070800000000 }
      subject := secondCopy.stat }

def republishedLedger : MainLedger :=
  (secondRecorder.record publishedLedger secondCall 1704070800000000).toOption.get
    (by decide +kernel)

def republishedHistory : List Publication :=
  [⟨2, 1, none, some (volumeB.identity 9)⟩,
    ⟨2, 1, some (volumeA.identity 7), some (volumeB.identity 8)⟩]

theorem republished_recorded :
    Recorded 1 sampleMapping emptyLedger republishedHistory republishedLedger := by
  have hfirst : Recorded 1 sampleMapping emptyLedger
      (publications firstRecorder emptyLedger firstCall publishedLedger ++ [])
      publishedLedger :=
    .record .start ⟨rfl, rfl, rfl⟩ (Checked.ok_of_get (by decide +kernel))
  have hok : secondRecorder.record publishedLedger secondCall 1704070800000000 =
      .ok republishedLedger := Checked.ok_of_get (by decide +kernel)
  have hsecond := hfirst.record ⟨rfl, rfl, rfl⟩ hok
  have hhistory : publications secondRecorder publishedLedger secondCall republishedLedger ++
      (publications firstRecorder emptyLedger firstCall publishedLedger ++ []) =
      republishedHistory := by
    decide +kernel
  rw [hhistory] at hsecond
  exact hsecond

theorem republished_paired : republishedLedger.correspondence ≠ [] := by decide +kernel

/-- The pair of the copy is the last one whose source had an identity. -/
theorem correspondence_latest_republished :
    Latest Publication.identified 1 republishedHistory republishedLedger := by
  have hmapping : emptyLedger.mappings.get? 1 = some sampleMapping := by decide +kernel
  exact (correspondence_latest hmapping (fun _ h => absurd h List.not_mem_nil)
    republished_recorded).2.2

/-- It is not that of the last publication, which was the update. -/
theorem correspondence_outdated :
    ∃ history ledger, Recorded 1 sampleMapping emptyLedger history ledger ∧
      ¬ Latest (fun _ => true) 1 history ledger := by
  refine ⟨republishedHistory, republishedLedger, republished_recorded, ?_⟩
  intro hlatest
  have hlast := hlatest _ (List.head_mem republished_paired) (by decide +kernel)
  revert hlast
  decide +kernel

end Sample

end NamiSync
