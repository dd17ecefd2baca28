/-
# `Db.Calls` — what a call of the recorder leaves behind

A call touches nothing but the rows at the paths its operation names and
their correspondences (`Frame`).  A call that publishes a file leaves one
correspondence of its two rows (`Pairing`).

## What is proved

    apply_spec : a call that succeeds leaves a `Frame` around the rows its
      operation names, and if it publishes a file whose source has an
      identity, one `Pairing` of the two rows at its paths

## The argument

A frame is proved for each statement and composed (`Frame.trans`); what makes
it compose is that it is stated by keys of the operation, not by rows, so a
row that was deleted and inserted again is covered.

The hard call is a move.  It clears the destination, then gives the row of the
prior path its new key, or inserts a row, and for a move-update attests what
was published as well; `clearDestination_spec`, `moveTargetRow_spec` and
`attestMove_spec` follow the source's order, since a row that is deleted takes
its correspondences with it.
-/
import NamiSync.Db.Statements

namespace NamiSync

namespace SyncRunRecorder

variable [Unicode] {recorder : SyncRunRecorder} {operation : PlanOperation}
  {ledger mid later : MainLedger}

/-- The operation names the key: as its source, its target or its prior
target. -/
inductive Names (recorder : SyncRunRecorder) (operation : PlanOperation) : Nat × Str → Prop
  | source {path : RelPath} (h : operation.sourceRelPath = some path) :
      Names recorder operation (recorder.command.sourceLocationId, path.key)
  | target : Names recorder operation (recorder.targetKey operation.targetRelPath)
  | prior {path : RelPath} (h : operation.priorTargetRelPath = some path) :
      Names recorder operation (recorder.targetKey path)

theorem names_prior :
    Names recorder operation
      (recorder.targetKey (operation.priorTargetRelPath.getD operation.targetRelPath)) := by
  cases h : operation.priorTargetRelPath with
  | none => exact .target
  | some path => exact .prior h

/-- Neither row of the correspondence sits at a path that is named. -/
def Clear (recorder : SyncRunRecorder) (operation : PlanOperation) (ledger : MainLedger)
    (pair : CorrespondenceRow) : Prop :=
  ∀ i locationId path, i = pair.sourceInventoryId ∨ i = pair.targetInventoryId →
    ledger.Sits i locationId path → ¬ Names recorder operation (locationId, path.key)

/-- What an operation leaves alone. -/
structure Frame (recorder : SyncRunRecorder) (operation : PlanOperation)
    (ledger later : MainLedger) : Prop where
  mappings_eq : later.mappings = ledger.mappings
  operations_eq : later.operations = ledger.operations
  sits : ∀ i locationId path, ¬ Names recorder operation (locationId, path.key) →
    (later.Sits i locationId path ↔ ledger.Sits i locationId path)
  new : ∀ pair ∈ later.correspondence, pair ∈ ledger.correspondence ∨
    pair.mappingId = recorder.command.mappingId ∧
      operation.sourceExpected.bind FileStat.fileIdentity = some pair.sourceIdentity
  kept : ∀ pair ∈ ledger.correspondence, Clear recorder operation ledger pair →
    pair ∈ later.correspondence

/-! ## Frames compose

A call of an operation is a few statements, each with a frame of its own.
Composing them needs that a pair that was clear of the operation still is when
its rows have not moved. -/

theorem Frame.refl : Frame recorder operation ledger ledger where
  mappings_eq := rfl
  operations_eq := rfl
  sits _ _ _ _ := Iff.rfl
  new _ h := Or.inl h
  kept _ h _ := h

/-- The rows of a correspondence sit somewhere. -/
theorem pair_sits {pair : CorrespondenceRow} (h : pair ∈ ledger.correspondence) :
    (∃ locationId path, ledger.Sits pair.sourceInventoryId locationId path) ∧
      ∃ locationId path, ledger.Sits pair.targetInventoryId locationId path := by
  obtain ⟨mapping, -, ⟨source, hsource, hsid, -⟩, target, htarget, htid, -⟩ :=
    ledger.correspondence_joins pair h
  exact ⟨⟨_, _, source, hsource, hsid, rfl, rfl⟩, _, _, target, htarget, htid, rfl, rfl⟩

/-- A clear correspondence stays clear in a frame. -/
theorem Frame.clear (h : Frame recorder operation ledger mid) {pair : CorrespondenceRow}
    (hpair : pair ∈ ledger.correspondence) (hclear : Clear recorder operation ledger pair) :
    Clear recorder operation mid pair := by
  intro i locationId path hi hsits
  obtain ⟨⟨sourceLoc, sourcePath, hsource⟩, targetLoc, targetPath, htarget⟩ := pair_sits hpair
  have stays : ∀ {j loc p}, j = pair.sourceInventoryId ∨ j = pair.targetInventoryId →
      ledger.Sits j loc p → mid.Sits j loc p := fun hj hold =>
    (h.sits _ _ _ (hclear _ _ _ hj hold)).2 hold
  rcases hi with rfl | rfl
  · obtain ⟨rfl, rfl⟩ := hsits.path_eq (stays (Or.inl rfl) hsource)
    exact hclear _ _ _ (Or.inl rfl) hsource
  · obtain ⟨rfl, rfl⟩ := hsits.path_eq (stays (Or.inr rfl) htarget)
    exact hclear _ _ _ (Or.inr rfl) htarget

theorem Frame.trans (h : Frame recorder operation ledger mid)
    (h' : Frame recorder operation mid later) : Frame recorder operation ledger later where
  mappings_eq := h'.mappings_eq.trans h.mappings_eq
  operations_eq := h'.operations_eq.trans h.operations_eq
  sits i locationId path hnot :=
    (h'.sits i locationId path hnot).trans (h.sits i locationId path hnot)
  new pair hpair := by
    rcases h'.new pair hpair with hmid | hnew
    · exact h.new pair hmid
    · exact Or.inr hnew
  kept pair hpair hclear := h'.kept pair (h.kept pair hpair hclear) (h.clear hpair hclear)

/-! ## Statements

The frame of each statement, when the key that it writes is one that the
operation names. -/

theorem frame_upsert {locationId hostId : Nat} {scopeToken : Str} {relPath : RelPath}
    {stat : FileStat} {time : Utc} (hnames : Names recorder operation (locationId, relPath.key)) :
    Frame recorder operation ledger
      (ledger.upsertObservation locationId hostId scopeToken relPath stat time).2 where
  mappings_eq := rfl
  operations_eq := rfl
  sits i loc path hnot := by
    have hne : (loc, path.key) ≠ (locationId, relPath.key) := by
      intro heq
      rw [heq] at hnot
      exact hnot hnames
    rw [MainLedger.sits_upsert]
    constructor
    · rintro (⟨-, rfl, rfl⟩ | ⟨hold, -⟩)
      · exact absurd rfl hne
      · exact hold
    · exact fun hold => Or.inr ⟨hold, hne⟩
  new _ h := Or.inl h
  kept _ h _ := h

theorem frame_amendRow {id : Nat} {f : InventoryRow → InventoryRow}
    {hf : ∀ row, (f row).id = row.id ∧ (f row).key = row.key}
    (hpath : ∀ row, (f row).relPath = row.relPath) :
    Frame recorder operation ledger (ledger.amendRow id f hf) where
  mappings_eq := rfl
  operations_eq := rfl
  sits _ _ _ _ := MainLedger.sits_amendRow hpath
  new _ h := Or.inl h
  kept _ h _ := h

theorem frame_storeAttestation {id : Nat} {attestation : Attestation} :
    Frame recorder operation ledger (ledger.storeAttestation id attestation) :=
  frame_amendRow fun _ => rfl

theorem sits_storeAttestation {id : Nat} {attestation : Attestation} {i locationId : Nat}
    {path : RelPath} :
    (ledger.storeAttestation id attestation).Sits i locationId path ↔
      ledger.Sits i locationId path :=
  MainLedger.sits_amendRow fun _ => rfl

/-- Deleting a row at a named path. -/
theorem frame_deleteRow {id locationId : Nat} {path : RelPath}
    (hsits : ledger.Sits id locationId path)
    (hnames : Names recorder operation (locationId, path.key)) :
    Frame recorder operation ledger (ledger.deleteRow id) where
  mappings_eq := rfl
  operations_eq := rfl
  sits i loc other hnot := by
    rw [MainLedger.sits_deleteRow]
    refine and_iff_left_of_imp fun hold => ?_
    rintro rfl
    obtain ⟨rfl, rfl⟩ := hold.path_eq hsits
    exact hnot hnames
  new pair h := Or.inl (MainLedger.mem_correspondence_deleteRow.1 h).1
  kept pair h hclear := by
    refine MainLedger.mem_correspondence_deleteRow.2 ⟨h, ?_, ?_⟩
    · intro heq
      exact hclear id locationId path (Or.inl heq.symm) hsits hnames
    · intro heq
      exact hclear id locationId path (Or.inr heq.symm) hsits hnames

/-- Moving a row from one named path to another. -/
theorem frame_moveRow {id hostId : Nat} {scopeToken : Str} {path relPath : RelPath}
    {stat : FileStat} {time : Utc}
    (hsits : ledger.Sits id recorder.command.targetLocationId path)
    (hnames : Names recorder operation (recorder.targetKey path))
    (htarget : relPath = operation.targetRelPath)
    (h : ledger.moveRow id hostId scopeToken relPath stat time = .ok later) :
    Frame recorder operation ledger later := by
  obtain ⟨⟨hmappings, hoperations, hcorrespondence⟩, hmoved⟩ := MainLedger.sits_moveRow h
  refine ⟨hmappings, hoperations, fun i loc other hnot => ?_, ?_, ?_⟩
  · rw [hmoved]
    constructor
    · rintro (⟨rfl, rfl, old, hold⟩ | ⟨-, hold⟩)
      · obtain ⟨rfl, -⟩ := hold.path_eq hsits
        exact absurd (htarget ▸ .target) hnot
      · exact hold
    · intro hold
      refine Or.inr ⟨?_, hold⟩
      rintro rfl
      obtain ⟨rfl, rfl⟩ := hold.path_eq hsits
      exact hnot hnames
  · intro pair hpair
    exact Or.inl (hcorrespondence ▸ hpair)
  · intro pair hpair _
    exact hcorrespondence ▸ hpair

/-! ## Correspondences

`record_correspondence` replaces the pairs of its two rows in its mapping by the
new pair, when the source has an identity, and does nothing otherwise. -/

/-- What `_record_correspondence` leaves. -/
theorem recordCorrespondence_spec {sourceId targetId : Nat} {source target : FileStat}
    {time : Utc}
    (h : recorder.recordCorrespondence ledger operation sourceId targetId source target time =
      .ok later) :
    later.mappings = ledger.mappings ∧ later.operations = ledger.operations ∧
      later.inventory = ledger.inventory ∧
      match source.fileIdentity with
      | none => later.correspondence = ledger.correspondence
      | some identity => ∀ other, other ∈ later.correspondence ↔
          other = recorder.correspondenceRow operation sourceId targetId identity target time ∨
            other ∈ ledger.correspondence ∧
              ¬ (other.mappingId = recorder.command.mappingId ∧
                (other.sourceInventoryId = sourceId ∨ other.targetInventoryId = targetId)) := by
  unfold recordCorrespondence at h
  cases hidentity : source.fileIdentity with
  | none =>
      rw [hidentity] at h
      obtain rfl := Except.ok.inj h
      exact ⟨rfl, rfl, rfl, rfl⟩
  | some identity =>
      rw [hidentity] at h
      dsimp only at h
      split at h
      · obtain rfl := Except.ok.inj h
        refine ⟨rfl, rfl, rfl, fun other => ?_⟩
        simp only [List.mem_append, List.mem_singleton, List.mem_filter, Bool.not_eq_true',
          Bool.and_eq_false_imp, decide_eq_true_eq, Bool.or_eq_false_iff, decide_eq_false_iff_not]
        rw [or_comm]
        refine or_congr Iff.rfl (and_congr_right fun _ => ?_)
        tauto
      · exact absurd h (by simp)

theorem sits_congr {i locationId : Nat} {path : RelPath} (h : later.inventory = ledger.inventory) :
    later.Sits i locationId path ↔ ledger.Sits i locationId path := by
  rw [MainLedger.Sits, MainLedger.Sits, h]

/-- A new pair is framed by the keys of its two rows. -/
theorem frame_recordCorrespondence {sourceId targetId sourceLocation targetLocation : Nat}
    {sourcePath targetPath : RelPath} {source target : FileStat} {time : Utc}
    (hsource : ledger.Sits sourceId sourceLocation sourcePath)
    (htarget : ledger.Sits targetId targetLocation targetPath)
    (hsourceNames : Names recorder operation (sourceLocation, sourcePath.key))
    (htargetNames : Names recorder operation (targetLocation, targetPath.key))
    (hexpected : operation.sourceExpected = some source)
    (h : recorder.recordCorrespondence ledger operation sourceId targetId source target time =
      .ok later) : Frame recorder operation ledger later := by
  obtain ⟨hmappings, hoperations, hinventory, hpairs⟩ := recordCorrespondence_spec h
  refine ⟨hmappings, hoperations, fun _ _ _ _ => sits_congr hinventory, fun pair hpair => ?_,
    fun pair hpair hclear => ?_⟩
  · cases hidentity : source.fileIdentity with
    | none =>
        rw [hidentity] at hpairs
        exact Or.inl (hpairs ▸ hpair)
    | some identity =>
        rw [hidentity] at hpairs
        rcases (hpairs pair).1 hpair with rfl | ⟨hold, -⟩
        · refine Or.inr ⟨rfl, ?_⟩
          rw [hexpected, Option.bind_some, hidentity]
          rfl
        · exact Or.inl hold
  · cases hidentity : source.fileIdentity with
    | none =>
        rw [hidentity] at hpairs
        exact hpairs ▸ hpair
    | some identity =>
        rw [hidentity] at hpairs
        refine (hpairs pair).2 (Or.inr ⟨hpair, ?_⟩)
        rintro ⟨-, heq | heq⟩
        · exact hclear _ _ _ (Or.inl heq.symm) hsource hsourceNames
        · exact hclear _ _ _ (Or.inr heq.symm) htarget htargetNames

/-! ## The target of a move

A move brings a row to another key.  What stood there is cleared first, with its
pairs; no pair is added, and the source side is not touched. -/

/-- A step within the rows of the target location. -/
structure TargetStep (recorder : SyncRunRecorder) (operation : PlanOperation)
    (ledger later : MainLedger) : Prop where
  frame : Frame recorder operation ledger later
  shrinks : ∀ pair ∈ later.correspondence, pair ∈ ledger.correspondence
  elsewhere : ∀ i locationId path, locationId ≠ recorder.command.targetLocationId →
    ledger.Sits i locationId path → later.Sits i locationId path

theorem TargetStep.trans (h : TargetStep recorder operation ledger mid)
    (h' : TargetStep recorder operation mid later) :
    TargetStep recorder operation ledger later where
  frame := h.frame.trans h'.frame
  shrinks pair hpair := h.shrinks pair (h'.shrinks pair hpair)
  elsewhere i locationId path hne hsits :=
    h'.elsewhere i locationId path hne (h.elsewhere i locationId path hne hsits)

theorem targetStep_refl : TargetStep recorder operation ledger ledger :=
  ⟨.refl, fun _ h => h, fun _ _ _ _ h => h⟩

theorem targetStep_observeTarget {relPath : RelPath} {stat : FileStat} {time : Utc}
    (hnames : Names recorder operation (recorder.targetKey relPath)) :
    TargetStep recorder operation ledger (recorder.observeTarget ledger relPath stat time).2 where
  frame := frame_upsert hnames
  shrinks _ h := h
  elsewhere _ _ _ hne hsits :=
    MainLedger.sits_upsert.2 (Or.inr ⟨hsits, fun heq => hne (congrArg Prod.fst heq)⟩)

/-- The prior row sits at the prior path. -/
theorem priorRow_sits {old : InventoryRow} (h : recorder.priorRow ledger operation = some old) :
    ledger.Sits old.id recorder.command.targetLocationId old.relPath ∧
      recorder.targetKey old.relPath =
        recorder.targetKey (operation.priorTargetRelPath.getD operation.targetRelPath) := by
  obtain ⟨hsits, hkey⟩ := MainLedger.sits_of_find h
  have hloc : old.locationId = recorder.command.targetLocationId := congrArg Prod.fst hkey
  rw [hloc] at hsits
  exact ⟨hsits, Prod.ext rfl (show old.relPath.key = _ from congrArg Prod.snd hkey)⟩

/-- The destination is cleared of every row but the one that moves. -/
theorem clearDestination_spec {cleared : MainLedger}
    (h : recorder.clearDestination ledger operation = .ok cleared) :
    TargetStep recorder operation ledger cleared ∧
      (∀ old, recorder.priorRow ledger operation = some old →
        cleared.Sits old.id recorder.command.targetLocationId old.relPath) := by
  unfold clearDestination at h
  cases hfind : Table.find (recorder.targetKey operation.targetRelPath) ledger.inventory with
  | none =>
      rw [hfind] at h
      obtain rfl := Except.ok.inj h
      exact ⟨targetStep_refl, fun old hold => (priorRow_sits hold).1⟩
  | some collision =>
      rw [hfind] at h
      dsimp only at h
      split at h
      · obtain rfl := Except.ok.inj h
        exact ⟨targetStep_refl, fun old hold => (priorRow_sits hold).1⟩
      · next hother =>
          split at h
          · exact absurd h (by simp)
          · obtain rfl := Except.ok.inj h
            obtain ⟨hsits, hkey⟩ := MainLedger.sits_of_find hfind
            have hloc : collision.locationId = recorder.command.targetLocationId :=
              congrArg Prod.fst hkey
            have hnames :
                Names recorder operation (collision.locationId, collision.relPath.key) := by
              have heq : (collision.locationId, collision.relPath.key) =
                  recorder.targetKey operation.targetRelPath := hkey
              rw [heq]
              exact .target
            refine ⟨⟨frame_deleteRow hsits hnames, fun pair hpair =>
              (MainLedger.mem_correspondence_deleteRow.1 hpair).1, ?_⟩, ?_⟩
            · intro i loc path hne hold
              refine MainLedger.sits_deleteRow.2 ⟨hold, ?_⟩
              rintro rfl
              exact hne ((hold.path_eq hsits).1.trans hloc)
            · intro old hold
              refine MainLedger.sits_deleteRow.2 ⟨(priorRow_sits hold).1, ?_⟩
              intro heq
              exact hother (by simp [hold, heq])

/-- What `_move_target_row` leaves: a row at the target, the one that was at
the prior path if there was one. -/
theorem moveTargetRow_spec {target : FileStat} {time : Utc} {id : Nat}
    (h : recorder.moveTargetRow ledger operation target time = .ok (id, later)) :
    TargetStep recorder operation ledger later ∧
      later.Sits id recorder.command.targetLocationId operation.targetRelPath ∧
      ∀ i path, ledger.Sits i recorder.command.targetLocationId path →
        path.key = (operation.priorTargetRelPath.getD operation.targetRelPath).key → i = id := by
  unfold moveTargetRow at h
  obtain ⟨cleared, hcleared, h⟩ := Checked.bind_eq_ok.1 h
  obtain ⟨hstep, hstays⟩ := clearDestination_spec hcleared
  split at h
  · exact absurd h (by simp)
  · cases hprior : recorder.priorRow ledger operation with
    | none =>
        rw [hprior] at h
        obtain ⟨rfl, rfl⟩ : _ = id ∧ _ = later := Prod.mk.inj (Except.ok.inj h)
        refine ⟨hstep.trans (targetStep_observeTarget .target), MainLedger.sits_upserted, ?_⟩
        intro i path hsits hkey
        exact absurd hkey (MainLedger.not_sits_of_find hprior hsits)
    | some old =>
        rw [hprior] at h
        obtain ⟨moved, hmoved, h⟩ := Checked.bind_eq_ok.1 h
        obtain ⟨rfl, rfl⟩ : old.id = id ∧ moved = later := Prod.mk.inj (Except.ok.inj h)
        obtain ⟨hold, hkey⟩ := priorRow_sits hprior
        have hsits := hstays old hprior
        have hnames : Names recorder operation (recorder.targetKey old.relPath) := by
          rw [hkey]
          exact names_prior
        obtain ⟨hkeeps, hrows⟩ := MainLedger.sits_moveRow hmoved
        refine ⟨hstep.trans ⟨frame_moveRow hsits hnames rfl hmoved, fun pair hpair =>
          hkeeps.correspondence_eq ▸ hpair, ?_⟩, (hrows _ _ _).2 (Or.inl ⟨rfl, rfl, _, hsits⟩), ?_⟩
        · intro i loc path hne hother
          refine (hrows i loc path).2 (Or.inr ⟨?_, hother⟩)
          rintro rfl
          exact hne (hother.path_eq hsits).1
        · intro i path hother hpath
          exact hother.unique hold (hpath.trans (congrArg Prod.snd hkey).symm)

/-! ## Calls

Each call of a run is one of the families: it publishes a pair, or it changes
rows without a new pair.  `apply_spec` says which, for every operation. -/

/-- What a call that publishes a file leaves: one correspondence of the row
at its source path and the row at its target path.  They are the rows that
sat there before, or for the target at `origin`. -/
structure Pairing (recorder : SyncRunRecorder) (operation : PlanOperation) (origin : RelPath)
    (ledger later : MainLedger) (pair : CorrespondenceRow) : Prop where
  mem : pair ∈ later.correspondence
  mapping : pair.mappingId = recorder.command.mappingId
  identity : operation.sourceExpected.bind FileStat.fileIdentity = some pair.sourceIdentity
  target : later.Sits pair.targetInventoryId recorder.command.targetLocationId
    operation.targetRelPath
  source : ∃ path, operation.sourceRelPath = some path ∧
    later.Sits pair.sourceInventoryId recorder.command.sourceLocationId path
  alone : ∀ other ∈ later.correspondence, other.mappingId = recorder.command.mappingId →
    other = pair ∨ other ∈ ledger.correspondence ∧
      other.sourceInventoryId ≠ pair.sourceInventoryId ∧
        other.targetInventoryId ≠ pair.targetInventoryId
  source_same : ∀ i old path, operation.sourceRelPath = some path →
    ledger.Sits i recorder.command.sourceLocationId old → old.key = path.key →
      i = pair.sourceInventoryId
  target_same : ∀ i old, ledger.Sits i recorder.command.targetLocationId old →
    old.key = origin.key → i = pair.targetInventoryId

/-- The end of a publishing call, after its source row and its target row
have been written. -/
theorem publishing_spec {sourceId targetId : Nat} {path origin : RelPath} {source target : FileStat}
    {time : Utc} {observed : MainLedger}
    (hne : recorder.command.sourceLocationId ≠ recorder.command.targetLocationId)
    (hpath : operation.sourceRelPath = some path)
    (hexpected : operation.sourceExpected = some source)
    (hobserved : recorder.observeSource ledger path source time = (sourceId, observed))
    (hstep : TargetStep recorder operation observed mid)
    (htarget : mid.Sits targetId recorder.command.targetLocationId operation.targetRelPath)
    (hsame : ∀ i old, observed.Sits i recorder.command.targetLocationId old →
      old.key = origin.key → i = targetId)
    (h : recorder.recordCorrespondence mid operation sourceId targetId source target time =
      .ok later) :
    Frame recorder operation ledger later ∧
      ∀ identity, source.fileIdentity = some identity → ∃ pair,
        Pairing recorder operation origin ledger later pair ∧
          pair.targetIdentity = target.fileIdentity := by
  have hsourceId : sourceId = (recorder.observeSource ledger path source time).1 := by
    rw [hobserved]
  have hobservedEq : observed = (recorder.observeSource ledger path source time).2 := by
    rw [hobserved]
  have hframe : Frame recorder operation ledger observed := by
    rw [hobservedEq]
    exact frame_upsert (.source hpath)
  have hsits : observed.Sits sourceId recorder.command.sourceLocationId path := by
    rw [hobservedEq, hsourceId]
    exact MainLedger.sits_upserted
  -- The target's step is in the other location, so the source row is where it was written.
  have hsource := hstep.elsewhere _ _ _ hne hsits
  refine ⟨(hframe.trans hstep.frame).trans (frame_recordCorrespondence hsource htarget
    (.source hpath) .target hexpected h), fun identity hidentity => ?_⟩
  obtain ⟨-, -, hinventory, hpairs⟩ := recordCorrespondence_spec h
  rw [hidentity] at hpairs
  refine ⟨recorder.correspondenceRow operation sourceId targetId identity target time,
    ⟨(hpairs _).2 (Or.inl rfl), rfl, ?_, (sits_congr hinventory).2 htarget,
      ⟨path, hpath, (sits_congr hinventory).2 hsource⟩, ?_, ?_, ?_⟩, rfl⟩
  · rw [hexpected, Option.bind_some, hidentity]
    rfl
  · intro other hother hmapping
    rcases (hpairs other).1 hother with rfl | ⟨hold, hnot⟩
    · exact Or.inl rfl
    · have hledger : other ∈ ledger.correspondence := by
        have hin := hstep.shrinks other hold
        rw [hobservedEq] at hin
        exact hin
      exact Or.inr ⟨hledger, fun heq => hnot ⟨hmapping, Or.inl heq⟩,
        fun heq => hnot ⟨hmapping, Or.inr heq⟩⟩
  · intro i old path' hpath' hold hkey
    obtain rfl := Option.some.inj (hpath.symm.trans hpath')
    rw [hsourceId]
    exact (MainLedger.upserted_id hold hkey).symm
  · intro i old hold hkey
    refine hsame i old ?_ hkey
    rw [hobservedEq]
    exact MainLedger.sits_upsert.2 (Or.inr ⟨hold, fun heq => hne (congrArg Prod.fst heq).symm⟩)

/-- The target of a call that writes to its target path. -/
theorem observeTarget_spec {observed : MainLedger} {stat : FileStat} {time : Utc} {targetId : Nat}
    (h : recorder.observeTarget observed operation.targetRelPath stat time = (targetId, mid)) :
    TargetStep recorder operation observed mid ∧
      mid.Sits targetId recorder.command.targetLocationId operation.targetRelPath ∧
      ∀ i old, observed.Sits i recorder.command.targetLocationId old →
        old.key = operation.targetRelPath.key → i = targetId := by
  have hid : targetId = (recorder.observeTarget observed operation.targetRelPath stat time).1 := by
    rw [h]
  have hmid : mid = (recorder.observeTarget observed operation.targetRelPath stat time).2 := by
    rw [h]
  rw [hid, hmid]
  refine ⟨targetStep_observeTarget .target, MainLedger.sits_upserted, fun i old hold hkey => ?_⟩
  exact (MainLedger.upserted_id hold hkey).symm

theorem targetStep_storeAttestation {id : Nat} {attestation : Attestation} :
    TargetStep recorder operation ledger (ledger.storeAttestation id attestation) :=
  ⟨frame_storeAttestation, fun _ h => h, fun _ _ _ _ h => sits_storeAttestation.2 h⟩

theorem attestMove_spec {targetId : Nat} {target : FileStat} {attestation : Option Attestation}
    (h : attestMove ledger targetId target attestation = .ok later) :
    TargetStep recorder operation ledger later ∧
      ∀ i locationId path, ledger.Sits i locationId path → later.Sits i locationId path := by
  unfold attestMove at h
  cases attestation with
  | none =>
      obtain rfl := Except.ok.inj h
      exact ⟨targetStep_refl, fun _ _ _ hsits => hsits⟩
  | some attestation =>
      dsimp only at h
      split at h
      · exact absurd h (by simp)
      · obtain rfl := Except.ok.inj h
        exact ⟨targetStep_storeAttestation, fun _ _ _ hsits => sits_storeAttestation.2 hsits⟩

/-- What a successful `_record_copy_like` or `record_noop` or `_record_move`
leaves. -/
def Publishes (recorder : SyncRunRecorder) (operation : PlanOperation) (origin : RelPath)
    (target : FileStat) (ledger later : MainLedger) : Prop :=
  Frame recorder operation ledger later ∧
    ∀ identity, operation.sourceExpected.bind FileStat.fileIdentity = some identity →
      ∃ pair, Pairing recorder operation origin ledger later pair ∧
        pair.targetIdentity = target.fileIdentity

variable (hne : recorder.command.sourceLocationId ≠ recorder.command.targetLocationId)
  {time : Utc}

include hne in
theorem recordCopyLike_spec {attestation : Attestation}
    (h : recorder.recordCopyLike ledger operation attestation time = .ok later) :
    Publishes recorder operation operation.targetRelPath attestation.subject ledger later := by
  unfold recordCopyLike at h
  cases hpath : operation.sourceRelPath with
  | none => exact absurd h (by simp [hpath])
  | some path =>
      cases hexpected : operation.sourceExpected with
      | none => exact absurd h (by simp [hpath, hexpected])
      | some source =>
          simp only [hpath, hexpected] at h
          split at h
          · exact absurd h (by simp)
          · cases hobserved : recorder.observeSource ledger path source time with
            | mk sourceId observed =>
                cases htarget : recorder.observeTarget observed operation.targetRelPath
                    attestation.subject time with
                | mk targetId written =>
                    rw [hobserved] at h
                    dsimp only at h
                    rw [htarget] at h
                    obtain ⟨hstep, hsits, hsame⟩ := observeTarget_spec htarget
                    obtain ⟨hframe, hpairing⟩ := publishing_spec hne hpath hexpected hobserved
                      (hstep.trans targetStep_storeAttestation) (sits_storeAttestation.2 hsits)
                      hsame h
                    refine ⟨hframe, fun identity hidentity => hpairing identity ?_⟩
                    rwa [hexpected, Option.bind_some] at hidentity

include hne in
theorem recordNoop_spec {source target : FileStat}
    (h : recorder.recordNoop ledger operation source target time = .ok later) :
    Publishes recorder operation operation.targetRelPath target ledger later := by
  unfold recordNoop at h
  split at h
  · exact absurd h (by simp)
  · next hmatch =>
      obtain ⟨hexpected, -⟩ := not_or.1 hmatch
      rw [not_not] at hexpected
      cases hpath : operation.sourceRelPath with
      | none => exact absurd h (by simp [hpath])
      | some path =>
          rw [hpath] at h
          cases hobserved : recorder.observeSource ledger path source time with
          | mk sourceId observed =>
              cases htarget : recorder.observeTarget observed operation.targetRelPath target
                  time with
              | mk targetId written =>
                  dsimp only at h
                  rw [hobserved] at h
                  dsimp only at h
                  rw [htarget] at h
                  obtain ⟨hstep, hsits, hsame⟩ := observeTarget_spec htarget
                  obtain ⟨hframe, hpairing⟩ :=
                    publishing_spec hne hpath hexpected hobserved hstep hsits hsame h
                  refine ⟨hframe, fun identity hidentity => hpairing identity ?_⟩
                  rwa [hexpected, Option.bind_some] at hidentity

include hne in
/-- A move publishes at its target, from the row at its old place. -/
theorem recordMove_spec {target : FileStat} {attestation : Option Attestation}
    (h : recorder.recordMove ledger operation target attestation time = .ok later) :
    Publishes recorder operation
      (operation.priorTargetRelPath.getD operation.targetRelPath) target ledger later := by
  unfold recordMove at h
  cases hpath : operation.sourceRelPath with
  | none => exact absurd h (by simp [hpath])
  | some path =>
      cases hexpected : operation.sourceExpected with
      | none => exact absurd h (by simp [hpath, hexpected])
      | some source =>
          simp only [hpath, hexpected] at h
          split at h
          · exact absurd h (by simp)
          · cases hobserved : recorder.observeSource ledger path source time with
            | mk sourceId observed =>
                rw [hobserved] at h
                obtain ⟨⟨targetId, moved⟩, hmoved, h⟩ := Checked.bind_eq_ok.1 h
                obtain ⟨attested, hattested, h⟩ := Checked.bind_eq_ok.1 h
                obtain ⟨hstep, hsits, hsame⟩ := moveTargetRow_spec hmoved
                obtain ⟨hlast, hstays⟩ := attestMove_spec hattested
                obtain ⟨hframe, hpairing⟩ := publishing_spec hne hpath hexpected hobserved
                  (hstep.trans hlast) (hstays _ _ _ hsits) hsame h
                refine ⟨hframe, fun identity hidentity => hpairing identity ?_⟩
                rwa [hexpected, Option.bind_some] at hidentity

end SyncRunRecorder

namespace RecordCall

variable [Unicode]

/-- The stat of the file that the call says is published. -/
def published : RecordCall → Option FileStat
  | copied _ attestation | updated _ attestation | moveUpdated _ attestation =>
      some attestation.subject
  | moved _ target | recased _ target | noop _ _ target => some target
  | mkdir _ _ | trashed _ _ _ | deleted _ _ => none

/-- The path at which the published file's row sat before. -/
def origin (call : RecordCall) (operation : PlanOperation) : RelPath :=
  match call with
  | moved _ _ | recased _ _ | moveUpdated _ _ =>
      operation.priorTargetRelPath.getD operation.targetRelPath
  | _ => operation.targetRelPath

end RecordCall

namespace SyncRunRecorder

variable [Unicode] {recorder : SyncRunRecorder} {operation : PlanOperation}
  {ledger later : MainLedger} {call : RecordCall} {time : Utc}

theorem recordAbsent_frame {prior : FileStat}
    (h : recorder.recordAbsent ledger operation prior time = .ok later) :
    Frame recorder operation ledger later := by
  unfold recordAbsent at h
  split at h
  · exact absurd h (by simp)
  · obtain rfl := Except.ok.inj h
    exact (frame_upsert .target).trans
      (frame_amendRow fun _ => rfl)

/-- What a call leaves: its frame, and the pairing where it publishes. -/
theorem apply_spec
    (hne : recorder.command.sourceLocationId ≠ recorder.command.targetLocationId)
    (h : recorder.apply ledger operation call time = .ok later) :
    Frame recorder operation ledger later ∧ ∀ target, call.published = some target →
      Publishes recorder operation (call.origin operation) target ledger later := by
  have publishes : ∀ {origin target},
      Publishes recorder operation origin target ledger later → call.published = some target →
        call.origin operation = origin →
        Frame recorder operation ledger later ∧ ∀ target, call.published = some target →
          Publishes recorder operation (call.origin operation) target ledger later := by
    intro origin target hpublishes hcall horigin
    refine ⟨hpublishes.1, fun target' hcall' => ?_⟩
    obtain rfl := Option.some.inj (hcall.symm.trans hcall')
    rwa [horigin]
  cases call with
  | copied op attestation => exact publishes (recordCopyLike_spec hne h) rfl rfl
  | updated op attestation => exact publishes (recordCopyLike_spec hne h) rfl rfl
  | moved op target => exact publishes (recordMove_spec hne h) rfl rfl
  | recased op target => exact publishes (recordMove_spec hne h) rfl rfl
  | moveUpdated op attestation => exact publishes (recordMove_spec hne h) rfl rfl
  | noop op source target => exact publishes (recordNoop_spec hne h) rfl rfl
  | trashed op path target => exact ⟨recordAbsent_frame h, fun _ hnone => by cases hnone⟩
  | deleted op prior => exact ⟨recordAbsent_frame h, fun _ hnone => by cases hnone⟩
  | mkdir op target =>
      refine ⟨?_, fun _ hnone => by cases hnone⟩
      simp only [apply, recordMkdir] at h
      split at h
      · exact absurd h (by simp)
      · obtain rfl := Except.ok.inj h
        exact frame_upsert .target

end SyncRunRecorder

end NamiSync
