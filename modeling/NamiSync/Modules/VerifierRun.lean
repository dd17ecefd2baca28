/-
# `Modules.VerifierRun` — what a verifier asks to be recorded

A row is recorded at most once, in the step that gives it its outcome, and
the command that is sent is sanctioned by what was read.  This holds over
any chain of calls on one selection, however each of them ends.

## What is proved

    Accounted.chain : over any chain of calls, each row has one outcome at
      most, the completed rows are those with an outcome, and every write that
      changed the ledger was sent for a row whose outcome says so, with a
      command that was `Sanctioned` by what was read

`Sanctioned` is what `Workflows.TrustChain` and `Db.EvidenceLaw` start from:
the digest is of all the bytes of the stream, the stats before and after are
of one subject, and in a verification the baseline agrees.

## The argument

`processItem_spec` says once what the step for a row does up to its outcome.
The loop and the branch for `Canceled` use it through `Accounted.complete`
and the list of the rows that are still waiting (`Awaiting`).
-/
import NamiSync.Modules.Verifier

namespace NamiSync

/-! ## What a command is built from

The end of one row's classification, traced back to what the environment
answered: whose row it is about, which bytes were read, and which stats were
taken before and after. -/

section Outcomes

/-- An outcome is about its row. -/
def IntegrityOutcome.About (outcome : IntegrityOutcome) (item : IntegritySelectionItem) : Prop :=
  outcome.itemId = item.itemId ∧ outcome.rowId = item.rowId ∧ outcome.locationId = item.locationId

theorem integrityOutcome_about {item : IntegritySelectionItem} {result : IntegrityResult}
    {reason : Option IntegrityReason} {detail : Option Str} {strategy : Option ReadStrategy}
    {recording : RecordingStatus} {disposition : Option RecordDisposition} :
    (integrityOutcome item result reason detail strategy recording disposition).About item :=
  ⟨rfl, rfl, rfl⟩

theorem faultOutcome_about {item : IntegritySelectionItem} {fault : ReadFault} :
    (faultOutcome item fault).About item := by
  cases fault <;> exact integrityOutcome_about

theorem recordedOutcome_spec {item : IntegritySelectionItem} {result : IntegrityResult}
    {strategy : ReadStrategy} {answer : Except Str RecordDisposition} :
    (recordedOutcome item result strategy answer).About item ∧
      (recordedOutcome item result strategy answer).result = result := by
  cases answer with
  | error detail => exact ⟨integrityOutcome_about, rfl⟩
  | ok disposition => cases disposition <;> exact ⟨integrityOutcome_about, rfl⟩

/-- The digest is fed all the bytes of a stream that is read to its end. -/
theorem readChunks_finished {selection : IntegritySelection} {displayPath : Str}
    {chunks : List ChunkAnswer} {progress progress' : VerifierProgress} {read bytes : List UInt8}
    (h : readChunks selection displayPath chunks progress read = (progress', .finished bytes)) :
    bytes = read ++ chunks.flatMap ChunkAnswer.bytes := by
  induction chunks generalizing progress read with
  | nil =>
      obtain ⟨-, hbytes⟩ := Prod.mk.inj h
      rw [List.flatMap_nil, List.append_nil]
      exact (ReadEnd.finished.inj hbytes).symm
  | cons answer rest ih =>
      cases answer with
      | raised fault => exact absurd (Prod.mk.inj h).2 (by simp)
      | chunk chunk signal due =>
          cases signal with
          | some signal => exact absurd (Prod.mk.inj h).2 (by simp)
          | none =>
              rw [ih h, List.flatMap_cons, ChunkAnswer.bytes, List.append_assoc]

end Outcomes

section Commands

variable [Sha256]

/-- What the verifier vouches for when it sends a command for a row. -/
structure Sanctioned (mode : IntegrityMode) (item : IntegritySelectionItem) (bytes : List UInt8)
    (result : IntegrityResult) (command : IntegrityRecordCommand) : Prop where
  rowId_eq : command.rowId = item.rowId
  locationId_eq : command.locationId = item.locationId
  digest_eq : command.attestation.content.digest = Sha256.digest bytes
  keeps : mode ≠ .rebaseline → ∀ established ∈ command.expectedBaseline,
    command.attestation.content.digest = established.content.digest
  advances : command.advancesLastVerified = true →
    result = .verified ∧ mode = .verify ∧ command.expectedBaseline.isSome = true
  result_eq : result = .verified ∨ result = .baselined

/-- What the end of a row's classification may be. -/
def ItemEnd.Fits (mode : IntegrityMode) (item : IntegritySelectionItem) (bytes : List UInt8) :
    ItemEnd → Prop
  | .raised _ => True
  | .settled outcome _ => outcome.About item
  | .record result _ command _ => Sanctioned mode item bytes result command

/-- What is concluded from a stream that was read to its end. -/
theorem concludeRead_fits (item : IntegritySelectionItem) (mode : IntegrityMode)
    (expectedStat : FileStat) (strategy : ReadStrategy) (before : FileStat)
    (after : Except ReadFault FileStat) (observedAt : Utc) (bytes : List UInt8) :
    (concludeRead item mode expectedStat strategy before after observedAt bytes).Fits mode item
      bytes := by
  unfold concludeRead
  cases after with
  | error fault => exact faultOutcome_about
  | ok after =>
      dsimp only
      split
      · exact integrityOutcome_about
      · split
        · exact integrityOutcome_about
        · split
          · exact integrityOutcome_about
          · next hmatch =>
              split
              · exact faultOutcome_about
              · next command hcommand =>
                  obtain ⟨hmode, hrow, hlocation, hbaseline, hattestation⟩ :=
                    IntegrityRecordCommand.checked_spec hcommand
                  refine ⟨hrow, hlocation, by rw [hattestation], ?_, ?_, ?_⟩
                  · intro hordinary established hestablished
                    rw [hbaseline] at hestablished
                    rw [hattestation]
                    by_contra hdiffers
                    cases mode with
                    | baseline =>
                        have hnone := command.baseline_none (by rw [hmode]; simp)
                        rw [hbaseline.symm, hnone] at hestablished
                        exact absurd hestablished (by simp)
                    | verify => exact hmatch ⟨rfl, established, hestablished, hdiffers⟩
                    | rebaseline => exact hordinary rfl
                  · intro hadvances
                    have hverify := command.advances_iff.1 hadvances
                    rw [hmode] at hverify
                    rw [hbaseline]
                    cases mode with
                    | baseline => exact absurd hverify (by simp)
                    | verify =>
                        cases hsome : item.baseline.isSome with
                        | true => simp
                        | false => simp [hsome] at hverify
                    | rebaseline => exact absurd hverify (by simp)
                  · split
                    · exact Or.inl rfl
                    · exact Or.inr rfl

/-- What is concluded from a stream, however its reading ends. -/
theorem readSubject_fits (selection : IntegritySelection) (item : IntegritySelectionItem)
    (mode : IntegrityMode) (expectedStat : FileStat) (answers : StreamAnswers)
    (progress : VerifierProgress) :
    (readSubject selection item mode expectedStat answers progress).2.Fits mode item
      answers.bytes := by
  unfold readSubject
  split
  · exact faultOutcome_about
  · split
    · exact faultOutcome_about
    · split
      · exact integrityOutcome_about
      · split
        · trivial
        · exact faultOutcome_about
        · next hread =>
            have hbytes := readChunks_finished hread
            rw [List.nil_append] at hbytes
            rw [hbytes]
            exact concludeRead_fits ..

/-- However a row is classified, the command that results is sanctioned. -/
theorem classifyItem_fits [Unicode] (selection : IntegritySelection) (item : IntegritySelectionItem)
    (mode : IntegrityMode) (answers : StreamAnswers) (progress : VerifierProgress) :
    (classifyItem selection item mode answers progress).2.Fits mode item answers.bytes := by
  unfold classifyItem
  dsimp only
  split
  · exact integrityOutcome_about
  · split
    · exact integrityOutcome_about
    · split
      · exact integrityOutcome_about
      · exact integrityOutcome_about
      · split
        · exact integrityOutcome_about
        · split
          · exact integrityOutcome_about
          · exact readSubject_fits ..

end Commands

/-! ## What a call leaves behind

`Accounted` ties three lists together: what was emitted, what the continuation
holds as completed, and what was asked of the recorder.  A quiet step changes
none of them; the step that completes a row adds to all three.  The loops carry
`Awaiting`, that the rows to come are those not completed, and a later call
starts from the continuation that the earlier one has left. -/

/-- The outcomes that have been emitted, in order. -/
def VerifierProgress.outcomes (progress : VerifierProgress) : List IntegrityOutcome :=
  progress.events.filterMap fun event =>
    match event with
    | .progress _ => none
    | .outcome outcome => some outcome

/-- No outcome is added and no row completed. -/
structure Quiet (progress progress' : VerifierProgress) : Prop where
  outcomes_eq : progress'.outcomes = progress.outcomes
  completed_eq : progress'.continuation.completedBytes = progress.continuation.completedBytes

namespace Quiet

variable {selection : IntegritySelection} {progress progress' progress'' : VerifierProgress}

theorem refl : Quiet progress progress := ⟨rfl, rfl⟩

theorem trans (h : Quiet progress progress') (h' : Quiet progress' progress'') :
    Quiet progress progress'' :=
  ⟨h'.outcomes_eq.trans h.outcomes_eq, h'.completed_eq.trans h.completed_eq⟩

theorem report (currentPath : Option Str) :
    Quiet progress (progress.report selection currentPath) := by
  refine ⟨?_, rfl⟩
  simp [VerifierProgress.outcomes, VerifierProgress.report, List.filterMap_append]

theorem bytesProcessed (size : Nat) (currentPath : Str) (due : Bool) :
    Quiet progress (progress.bytesProcessed selection size currentPath due) := by
  unfold VerifierProgress.bytesProcessed
  dsimp only
  split
  · refine ⟨?_, rfl⟩
    simp [VerifierProgress.outcomes, VerifierProgress.report, List.filterMap_append]
  · exact ⟨rfl, rfl⟩

theorem begin : Quiet progress (progress.begin selection) := by
  refine ⟨?_, rfl⟩
  simp [VerifierProgress.outcomes, VerifierProgress.begin, VerifierProgress.report,
    List.filterMap_append]

theorem readChunks (displayPath : Str) (chunks : List ChunkAnswer) (read : List UInt8) :
    Quiet progress (NamiSync.readChunks selection displayPath chunks progress read).1 := by
  induction chunks generalizing progress read with
  | nil => exact refl
  | cons answer rest ih =>
      cases answer with
      | raised fault => exact refl
      | chunk chunk signal due =>
          cases signal with
          | some signal => exact refl
          | none =>
              refine Quiet.trans ?_ (ih (read ++ chunk))
              split
              · exact refl
              · exact bytesProcessed _ _ _

theorem readSubject [Sha256] (item : IntegritySelectionItem) (mode : IntegrityMode)
    (expectedStat : FileStat) (answers : StreamAnswers) :
    Quiet progress (NamiSync.readSubject selection item mode expectedStat answers progress).1 := by
  unfold NamiSync.readSubject
  split
  · exact refl
  · split
    · exact refl
    · split
      · exact refl
      · have hquiet := @readChunks selection progress item.displayPath answers.chunks []
        split
        · next heq => rwa [heq] at hquiet
        · next heq => rwa [heq] at hquiet
        · next heq => rwa [heq] at hquiet

theorem classifyItem [Sha256] [Unicode] (item : IntegritySelectionItem) (mode : IntegrityMode)
    (answers : StreamAnswers) :
    Quiet progress (NamiSync.classifyItem selection item mode answers progress).1 := by
  unfold NamiSync.classifyItem
  dsimp only
  split
  · exact refl
  · split
    · exact refl
    · split
      · exact refl
      · exact refl
      · split
        · exact refl
        · split
          · exact refl
          · exact readSubject ..

end Quiet

section Runs

variable [Sha256] {Λ : Type} {mode : IntegrityMode} {recorder : IntegrityRecorder Λ}
  {selection : IntegritySelection} {state state' : VerifierState Λ}

/-- A call of the recorder changed nothing, or sent a sanctioned command for
a row whose outcome says so. -/
def IntegrityWrite.Fits (write : IntegrityWrite Λ) (mode : IntegrityMode)
    (recorder : IntegrityRecorder Λ) (outcomes : List IntegrityOutcome) : Prop :=
  write.after = write.before ∨
    ∃ command result, Sanctioned mode write.item write.bytes result command ∧
      write.after = (recorder command write.before).2 ∧
      ∃ outcome ∈ outcomes, outcome.About write.item ∧ outcome.result = result

/-- The outcomes, the continuation and the writes of a chain of calls
agree. -/
structure Accounted (mode : IntegrityMode) (recorder : IntegrityRecorder Λ)
    (selection : IntegritySelection) (state : VerifierState Λ) : Prop where
  outcomes_nodup : (state.outcomes.map IntegrityOutcome.itemId).Nodup
  completed_iff : ∀ itemId, state.continuation.completedBytes.contains itemId = true ↔
    itemId ∈ state.outcomes.map IntegrityOutcome.itemId
  outcomes_about : ∀ outcome ∈ state.outcomes, ∃ item ∈ selection.items, outcome.About item
  writes_item : ∀ write ∈ state.writes, write.item ∈ selection.items
  writes_fit : ∀ write ∈ state.writes, write.Fits mode recorder state.outcomes

theorem IntegrityWrite.Fits.mono {write : IntegrityWrite Λ} {outcomes more : List IntegrityOutcome}
    (h : write.Fits mode recorder outcomes) : write.Fits mode recorder (outcomes ++ more) := by
  rcases h with h | ⟨command, result, hsanctioned, hafter, outcome, houtcome, habout⟩
  · exact Or.inl h
  · exact Or.inr ⟨command, result, hsanctioned, hafter, outcome, List.mem_append_left _ houtcome,
      habout⟩

theorem Accounted.quiet (h : Accounted mode recorder selection state)
    (hquiet : Quiet state.toVerifierProgress state'.toVerifierProgress)
    (hwrites : state'.writes = state.writes) : Accounted mode recorder selection state' := by
  obtain ⟨houtcomes, hcompleted⟩ := hquiet
  constructor
  · rw [houtcomes]
    exact h.outcomes_nodup
  · rw [houtcomes, hcompleted]
    exact h.completed_iff
  · rw [houtcomes]
    exact h.outcomes_about
  · rw [hwrites]
    exact h.writes_item
  · rw [hwrites, houtcomes]
    exact h.writes_fit

omit [Sha256] in
/-- A row that is not completed gets its outcome. -/
theorem emitAndComplete_fresh {outcome : IntegrityOutcome}
    (hfresh : state.continuation.completedBytes.contains outcome.itemId = false) (bytesRead : Nat)
    (emitProgress : Bool) :
    ∃ progress, Quiet
        { state.toVerifierProgress with
          continuation := { state.continuation with
            completedBytes := state.continuation.completedBytes.set outcome.itemId bytesRead }
          events := state.events ++ [.outcome outcome] } progress ∧
      state.emitAndComplete selection outcome bytesRead emitProgress =
        ({ state with
            toVerifierProgress := progress, emitted := state.emitted ++ [outcome] }, none) := by
  unfold VerifierState.emitAndComplete IntegrityContinuation.markCompleted
  dsimp only
  rw [hfresh, if_neg Bool.false_ne_true]
  refine ⟨_, ?_, rfl⟩
  split
  · exact .report _
  · exact .refl

/-- The step that gives a row its outcome. -/
theorem Accounted.complete (h : Accounted mode recorder selection state)
    {item : IntegritySelectionItem} (hitem : item ∈ selection.items)
    (hpending : state.continuation.completedBytes.contains item.itemId = false)
    {outcome : IntegrityOutcome} (habout : outcome.About item)
    (ledger : Λ) {writes : List (IntegrityWrite Λ)}
    (hwrites : ∀ write ∈ writes, write.item = item ∧
      write.Fits mode recorder (state.outcomes ++ [outcome])) (bytesRead : Nat)
    (emitProgress : Bool) :
    ∃ later, ({ state with ledger := ledger, writes := state.writes ++ writes } :
        VerifierState Λ).emitAndComplete selection outcome bytesRead emitProgress = (later, none) ∧
      Accounted mode recorder selection later ∧
      ∀ itemId, later.continuation.completedBytes.contains itemId = true ↔
        itemId = item.itemId ∨ state.continuation.completedBytes.contains itemId = true := by
  obtain ⟨hid, hrow⟩ := habout
  -- The ledger and the writes do not matter to what is emitted.
  have hfresh : ({ state with ledger := ledger, writes := state.writes ++ writes } :
      VerifierState Λ).continuation.completedBytes.contains outcome.itemId = false := by
    rw [hid]
    exact hpending
  obtain ⟨progress, hquiet, heq⟩ := @emitAndComplete_fresh _ selection _ _ hfresh bytesRead
    emitProgress
  have houtcomes : progress.outcomes = state.outcomes ++ [outcome] := by
    rw [hquiet.outcomes_eq]
    simp [VerifierProgress.outcomes, List.filterMap_append]
  have hcompleted (itemId : Str) : progress.continuation.completedBytes.contains itemId = true ↔
      itemId = item.itemId ∨ state.continuation.completedBytes.contains itemId = true := by
    rw [hquiet.completed_eq]
    unfold Dict.contains
    dsimp only
    rw [Dict.get?_set, hid]
    by_cases hsame : itemId = item.itemId
    · simp [hsame]
    · simp [hsame]
  refine ⟨_, heq, ?_, hcompleted⟩
  constructor
  · rw [houtcomes, List.map_append, List.map_singleton, List.nodup_append]
    refine ⟨h.outcomes_nodup, List.nodup_singleton _, ?_⟩
    intro itemId hmem other hother heq
    obtain rfl := List.mem_singleton.1 hother
    have hdone := (h.completed_iff itemId).2 hmem
    rw [heq, hid, hpending] at hdone
    exact Bool.false_ne_true hdone
  · intro itemId
    rw [houtcomes, List.map_append, List.map_singleton, List.mem_append, List.mem_singleton,
      ← h.completed_iff, hid]
    exact (hcompleted itemId).trans or_comm
  · rw [houtcomes]
    intro other hother
    rcases List.mem_append.1 hother with hother | hother
    · exact h.outcomes_about other hother
    · rw [List.mem_singleton.1 hother]
      exact ⟨item, hitem, hid, hrow⟩
  · intro write hwrite
    rcases List.mem_append.1 hwrite with hwrite | hwrite
    · exact h.writes_item write hwrite
    · rw [(hwrites write hwrite).1]
      exact hitem
  · rw [houtcomes]
    intro write hwrite
    rcases List.mem_append.1 hwrite with hwrite | hwrite
    · exact (h.writes_fit write hwrite).mono
    · exact (hwrites write hwrite).2

variable [Unicode]

/-- What the step for a row does, up to its outcome. -/
theorem processItem_spec (state : VerifierState Λ) (selection : IntegritySelection)
    (mode : IntegrityMode) (recorder : IntegrityRecorder Λ) (item : IntegritySelectionItem)
    (answers : ItemAnswers Λ) :
    ∃ progress ledger writes ending, state.processItem selection mode recorder item answers =
        ({ state with
            toVerifierProgress := progress
            ledger := ledger
            writes := state.writes ++ writes }, ending) ∧
      Quiet state.toVerifierProgress progress ∧ (∀ write ∈ writes, write.item = item) ∧
      match ending with
      | .inl _ => writes = []
      | .inr (outcome, _) => outcome.About item ∧
          ∀ write ∈ writes, write.Fits mode recorder (state.outcomes ++ [outcome]) := by
  have hfits := classifyItem_fits selection item mode answers.stream state.toVerifierProgress
  have hquiet : Quiet state.toVerifierProgress (classifyItem selection item mode answers.stream
      state.toVerifierProgress).1 := Quiet.classifyItem ..
  unfold VerifierState.processItem
  cases hcase : classifyItem selection item mode answers.stream state.toVerifierProgress with
  | mk progress ending =>
      rw [hcase] at hfits hquiet
      cases ending with
      | raised signal =>
          exact ⟨progress, state.ledger, [], .inl signal, by simp, hquiet, by simp, rfl⟩
      | settled outcome bytesRead =>
          exact ⟨progress, state.ledger, [], .inr (outcome, bytesRead), by simp, hquiet, by simp,
            hfits, by simp⟩
      | record result strategy command bytesRead =>
          cases hfault : answers.recorderFault with
          | some detail =>
              refine ⟨progress, answers.interfere state.ledger, [⟨item, answers.stream.bytes,
                answers.interfere state.ledger, answers.interfere state.ledger⟩], _, rfl, hquiet,
                by simp, recordedOutcome_spec.1, ?_⟩
              intro write hwrite
              rw [List.mem_singleton.1 hwrite]
              exact Or.inl rfl
          | none =>
              have hspec := @recordedOutcome_spec item result strategy
                (recorder command (answers.interfere state.ledger)).1
              refine ⟨progress, _, [⟨item, answers.stream.bytes, answers.interfere state.ledger,
                (recorder command (answers.interfere state.ledger)).2⟩], _, rfl, hquiet, by simp,
                hspec.1, ?_⟩
              intro write hwrite
              rw [List.mem_singleton.1 hwrite]
              exact Or.inr ⟨command, result, hfits, rfl, _, List.mem_append_right _
                (List.mem_singleton_self _), hspec⟩

/-- The rows that a loop has still to settle. -/
structure Awaiting (selection : IntegritySelection) (progress : VerifierProgress)
    (items : List IntegritySelectionItem) : Prop where
  selected : ∀ item ∈ items, item ∈ selection.items
  pending : ∀ item ∈ items, progress.continuation.completedBytes.contains item.itemId = false
  distinct : (items.map IntegritySelectionItem.itemId).Nodup

omit [Sha256] [Unicode] in
theorem awaiting_pending (progress : VerifierProgress) :
    Awaiting selection progress (progress.continuation.pending selection) := by
  constructor
  · intro item hitem
    exact (List.mem_filter.1 hitem).1
  · intro item hitem
    simpa using (List.mem_filter.1 hitem).2
  · exact selection.itemIds_nodup.sublist (List.filter_sublist.map _)

omit [Sha256] [Unicode] in
theorem Awaiting.rest {progress later : VerifierProgress} {item : IntegritySelectionItem}
    {rest : List IntegritySelectionItem} (h : Awaiting selection progress (item :: rest))
    (hlater : ∀ itemId, later.continuation.completedBytes.contains itemId = true ↔
      itemId = item.itemId ∨ progress.continuation.completedBytes.contains itemId = true) :
    Awaiting selection later rest := by
  obtain ⟨hnot, hdistinct⟩ := List.nodup_cons.1 h.distinct
  refine ⟨fun other hother => h.selected other (List.mem_cons_of_mem _ hother), ?_, hdistinct⟩
  intro other hother
  rw [Bool.eq_false_iff]
  intro hdone
  rcases (hlater other.itemId).1 hdone with hsame | hdone
  · exact hnot (List.mem_map.2 ⟨other, hother, hsame⟩)
  · rw [h.pending other (List.mem_cons_of_mem _ hother)] at hdone
    exact Bool.false_ne_true hdone

/-- The loop over the rows that wait. -/
theorem Accounted.processPending (answers : IntegritySelectionItem → ItemAnswers Λ)
    {items : List IntegritySelectionItem} (h : Accounted mode recorder selection state)
    (hawaiting : Awaiting selection state.toVerifierProgress items) :
    Accounted mode recorder selection
      (state.processPending selection mode recorder answers items).1 := by
  induction items generalizing state with
  | nil => exact h
  | cons item rest ih =>
      unfold VerifierState.processPending
      cases (answers item).signal with
      | some signal => exact h
      | none =>
          obtain ⟨progress, ledger, writes, ending, heq, hquiet, hitems, hending⟩ :=
            processItem_spec state selection mode recorder item (answers item)
          dsimp only
          rw [heq]
          have hpending : progress.continuation.completedBytes.contains item.itemId = false := by
            rw [hquiet.completed_eq]
            exact hawaiting.pending item List.mem_cons_self
          cases ending with
          | inl signal =>
              obtain rfl := hending
              exact h.quiet hquiet (List.append_nil _)
          | inr settled =>
              obtain ⟨outcome, bytesRead⟩ := settled
              obtain ⟨habout, hfits⟩ := hending
              have hstate : Accounted mode recorder selection
                  { state with toVerifierProgress := progress } := h.quiet hquiet rfl
              obtain ⟨later, hcomplete, hlater, hdone⟩ := hstate.complete
                (hawaiting.selected item List.mem_cons_self) hpending habout ledger
                (fun write hwrite => ⟨hitems write hwrite, by
                  rw [hquiet.outcomes_eq]
                  exact hfits write hwrite⟩) bytesRead true
              dsimp only
              rw [hcomplete]
              refine ih hlater (hawaiting.rest fun itemId => ?_)
              rw [hdone itemId, hquiet.completed_eq]

omit [Unicode] in
/-- The loop of a cancel over the rows that are left. -/
theorem Accounted.cancelPending {items : List IntegritySelectionItem}
    (h : Accounted mode recorder selection state)
    (hawaiting : Awaiting selection state.toVerifierProgress items) :
    Accounted mode recorder selection (state.cancelPending selection items).1 := by
  induction items generalizing state with
  | nil => exact h.quiet (.report none) rfl
  | cons item rest ih =>
      unfold VerifierState.cancelPending
      have hpending := hawaiting.pending item List.mem_cons_self
      obtain ⟨later, hcomplete, hlater, hdone⟩ := h.complete
        (hawaiting.selected item List.mem_cons_self) hpending
        (@integrityOutcome_about item .canceled (some .canceled) none none .ok none) state.ledger
        (show ∀ write ∈ [], _ from fun write hwrite => absurd hwrite List.not_mem_nil) 0 false
      rw [List.append_nil] at hcomplete
      dsimp only
      rw [hcomplete]
      exact ih hlater (hawaiting.rest hdone)

/-- One call keeps the account, whatever its environment answers. -/
theorem Accounted.run (h : Accounted mode recorder selection state)
    (answers : IntegritySelectionItem → ItemAnswers Λ) :
    Accounted mode recorder selection (state.run selection mode recorder answers).1 := by
  have hbegun : Accounted mode recorder selection
      { state with toVerifierProgress := state.begin selection, emitted := [] } :=
    h.quiet .begin rfl
  have hran := hbegun.processPending answers (awaiting_pending _)
  unfold VerifierState.run
  dsimp only
  split
  · next heq =>
      rw [heq] at hran
      exact hran.cancelPending (awaiting_pending _)
  · next heq =>
      rw [heq] at hran
      exact hran

/-- A chain of calls on one selection: each goes on where the one before it
has stopped. -/
def VerifierState.chain (selection : IntegritySelection) (mode : IntegrityMode)
    (recorder : IntegrityRecorder Λ) :
    List (IntegritySelectionItem → ItemAnswers Λ) → VerifierState Λ → VerifierState Λ
  | [], state => state
  | answers :: rest, state =>
      VerifierState.chain selection mode recorder rest
        (state.run selection mode recorder answers).1

/-- So does any number of calls. -/
theorem Accounted.chain (h : Accounted mode recorder selection state)
    (calls : List (IntegritySelectionItem → ItemAnswers Λ)) :
    Accounted mode recorder selection (state.chain selection mode recorder calls) := by
  induction calls generalizing state with
  | nil => exact h
  | cons answers rest ih => exact ih (h.run answers)

omit [Unicode] in
/-- At the start nothing is emitted, completed or written. -/
theorem Accounted.initial (ledger : Λ) :
    Accounted mode recorder selection { ledger := ledger } where
  outcomes_nodup := List.nodup_nil
  completed_iff := by
    intro itemId
    simp [VerifierProgress.outcomes, Dict.contains]
  outcomes_about := fun outcome h => absurd h List.not_mem_nil
  writes_item := fun write h => absurd h List.not_mem_nil
  writes_fit := fun write h => absurd h List.not_mem_nil

end Runs

end NamiSync
