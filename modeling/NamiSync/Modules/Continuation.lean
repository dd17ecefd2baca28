/-
# `Modules.Continuation` — pausing and resuming a verification

What a call leaves in the continuation is what the next one starts from.  The
bytes of an abandoned read stay counted there, and are never part of a
completed row; the total of a call is counted anew, and stretched by a file
that grows.

## What is proved

    verification_continues : after any number of calls on one selection
      the continuation fits the selection, and is accepted by the next call,
      every report is valid, and none falls behind the one before it,
      no call ends in an error of its own, and
      where a call is not paused, each row has its outcome, just one, unless
      it was completed before the first call

A file may grow while it is read, or between two calls: the total of the call
is stretched, never cut, so a report stays within it.

## What it is not

Nothing is said about the result a row gets (`Modules.Classification`) nor
about the ledger (`Modules.VerifierRun`).
-/
import Mathlib.Data.List.Perm.Subperm
import NamiSync.Modules.VerifierRun

namespace NamiSync

/-! ## The continuation

It holds which rows are completed and how many bytes each has cost, and nothing
else.  It fits a selection when its rows are rows of the selection. -/

/-- What the constructor of `IntegritySelection` asks of a continuation. -/
structure IntegrityContinuation.Fits (selection : IntegritySelection)
    (continuation : IntegrityContinuation) : Prop where
  known : ∀ itemId ∈ continuation.completedBytes.keys,
    itemId ∈ selection.items.map IntegritySelectionItem.itemId
  covered : continuation.completedBytes.values.sum ≤ continuation.processedBytes

section Continuations

variable {selection : IntegritySelection} {continuation : IntegrityContinuation}

/-- There are at most as many completed rows as rows. -/
theorem IntegrityContinuation.Fits.completed_le (h : continuation.Fits selection) :
    continuation.completedBytes.keys.length ≤ selection.items.length := by
  have hsubperm : List.Subperm continuation.completedBytes.keys
      (selection.items.map IntegritySelectionItem.itemId) :=
    List.subperm_of_subset continuation.completedBytes.nodup fun _ => h.known _
  have hlength := hsubperm.length_le
  rwa [List.length_map] at hlength

theorem IntegrityContinuation.fits_fresh (selection : IntegritySelection) :
    IntegrityContinuation.Fits selection {} where
  known := fun _ h => absurd h List.not_mem_nil
  covered := Nat.le_refl 0

/-- A row is completed with what was read for it. -/
theorem IntegrityContinuation.Fits.complete {itemId : Str} {bytesRead : Nat}
    (h : continuation.Fits selection)
    (hitem : itemId ∈ selection.items.map IntegritySelectionItem.itemId)
    (hfresh : continuation.completedBytes.contains itemId = false)
    (hread : continuation.completedBytes.values.sum + bytesRead ≤ continuation.processedBytes) :
    IntegrityContinuation.Fits selection
      { continuation with completedBytes := continuation.completedBytes.set itemId bytesRead } := by
  have hentries := Dict.entries_set_of_fresh bytesRead hfresh
  constructor
  · intro other hother
    rw [Dict.keys, hentries, List.map_append, List.mem_append] at hother
    rcases hother with hother | hother
    · exact h.known other hother
    · rw [List.mem_singleton.1 hother]
      exact hitem
  · rw [Dict.values, hentries, List.map_append, List.sum_append]
    exact hread

end Continuations

/-! ## Progress

The reports are made from the counters, which a chunk raises by its size.  What
a row has read is bounded by what its stream gives, and is kept apart from what
the completed rows have cost. -/

/-- What the constructor of `Progress` asks. -/
structure ProgressReport.Valid (report : ProgressReport) : Prop where
  items_le : report.itemsDone ≤ report.itemsTotal
  bytes_le : report.bytesDone ≤ report.bytesTotal

/-- The emitted `Progress`, in order. -/
def VerifierProgress.reports (progress : VerifierProgress) : List ProgressReport :=
  progress.events.filterMap fun event =>
    match event with
    | .progress report => some report
    | .outcome _ => none

/-- The continuation fits, and so does all that was said about it. -/
structure Truthful (selection : IntegritySelection) (progress : VerifierProgress) : Prop where
  fits : progress.continuation.Fits selection
  valid : ∀ report ∈ progress.reports, report.Valid
  ordered : (progress.reports.map ProgressReport.bytesDone).Pairwise (· ≤ ·)
  reached : ∀ report ∈ progress.reports,
    report.bytesDone ≤ progress.continuation.processedBytes

/-- The total of a call bounds what it has processed. -/
def Bounded (progress : VerifierProgress) : Prop :=
  progress.continuation.processedBytes ≤ progress.bytesTotal

section Reports

variable {selection : IntegritySelection} {progress progress' progress'' : VerifierProgress}

theorem reports_report (currentPath : Option Str) :
    (progress.report selection currentPath).reports = progress.reports ++
      [{ itemsDone := progress.continuation.completedBytes.keys.length
         itemsTotal := selection.items.length
         bytesDone := progress.continuation.processedBytes
         bytesTotal := progress.bytesTotal
         currentPath := currentPath }] := by
  simp [VerifierProgress.reports, VerifierProgress.report, List.filterMap_append]

/-- A report of the counters as they are is valid. -/
theorem Truthful.report (h : Truthful selection progress) (hbounded : Bounded progress)
    (currentPath : Option Str) : Truthful selection (progress.report selection currentPath) := by
  constructor
  · exact h.fits
  · rw [reports_report]
    intro report hreport
    rcases List.mem_append.1 hreport with hreport | hreport
    · exact h.valid report hreport
    · rw [List.mem_singleton.1 hreport]
      exact ⟨h.fits.completed_le, hbounded⟩
  · rw [reports_report, List.map_append, List.pairwise_append]
    refine ⟨h.ordered, List.pairwise_singleton _ _, ?_⟩
    intro done hdone last hlast
    obtain ⟨report, hreport, rfl⟩ := List.mem_map.1 hdone
    rw [List.mem_singleton.1 hlast]
    exact h.reached report hreport
  · rw [reports_report]
    intro report hreport
    rcases List.mem_append.1 hreport with hreport | hreport
    · exact h.reached report hreport
    · rw [List.mem_singleton.1 hreport]
      exact Nat.le_refl _

/-- More bytes are processed, and nothing is said yet. -/
theorem Truthful.processed (h : Truthful selection progress) {processed : Nat} (bytesTotal : Nat)
    (hle : progress.continuation.processedBytes ≤ processed) :
    Truthful selection
      { progress with
        continuation := { progress.continuation with processedBytes := processed }
        bytesTotal := bytesTotal } where
  fits := ⟨h.fits.known, h.fits.covered.trans hle⟩
  valid := h.valid
  ordered := h.ordered
  reached := fun report hreport => (h.reached report hreport).trans hle

/-- What a part of a read leaves: at least so many bytes more are processed,
and no row is completed. -/
structure Reads (selection : IntegritySelection) (size : Nat)
    (progress progress' : VerifierProgress) : Prop where
  sound : Truthful selection progress'
  bounded : Bounded progress'
  completed_eq : progress'.continuation.completedBytes = progress.continuation.completedBytes
  processed_le : progress.continuation.processedBytes + size ≤ progress'.continuation.processedBytes

namespace Reads

variable {size size' : Nat}

theorem refl (h : Truthful selection progress) (hbounded : Bounded progress) :
    Reads selection 0 progress progress :=
  ⟨h, hbounded, rfl, Nat.le_refl _⟩

theorem trans (h : Reads selection size progress progress')
    (h' : Reads selection size' progress' progress'') :
    Reads selection (size + size') progress progress'' where
  sound := h'.sound
  bounded := h'.bounded
  completed_eq := h'.completed_eq.trans h.completed_eq
  processed_le := by
    have hfirst := h.processed_le
    have hsecond := h'.processed_le
    omega

theorem less (h : Reads selection size progress progress') (hle : size' ≤ size) :
    Reads selection size' progress progress' :=
  ⟨h.sound, h.bounded, h.completed_eq, (Nat.add_le_add_left hle _).trans h.processed_le⟩

/-- The total of the call grows with the file. -/
theorem bytesProcessed (h : Truthful selection progress) (size : Nat) (currentPath : Str)
    (due : Bool) :
    Reads selection size progress (progress.bytesProcessed selection size currentPath due) := by
  have htruthful :=
    h.processed (max progress.bytesTotal (progress.continuation.processedBytes + size))
      (Nat.le_add_right _ size)
  have hbounded : Bounded
      { progress with
        continuation :=
          { progress.continuation with
            processedBytes := progress.continuation.processedBytes + size }
        bytesTotal := max progress.bytesTotal (progress.continuation.processedBytes + size) } :=
    Nat.le_max_right _ _
  unfold VerifierProgress.bytesProcessed
  dsimp only
  split
  · exact ⟨htruthful.report hbounded _, hbounded, rfl, Nat.le_refl _⟩
  · exact ⟨htruthful, hbounded, rfl, Nat.le_refl _⟩

/-- What the digest was fed is processed. -/
theorem readChunks (h : Truthful selection progress) (hbounded : Bounded progress)
    (displayPath : Str) (chunks : List ChunkAnswer) (read : List UInt8) :
    ∃ size, Reads selection size progress
        (NamiSync.readChunks selection displayPath chunks progress read).1 ∧
      ∀ bytes, (NamiSync.readChunks selection displayPath chunks progress read).2 =
        .finished bytes → bytes.length = read.length + size := by
  induction chunks generalizing progress read with
  | nil =>
      refine ⟨0, refl h hbounded, ?_⟩
      intro bytes hbytes
      rw [← ReadEnd.finished.inj hbytes, Nat.add_zero]
  | cons answer rest ih =>
      cases answer with
      | raised fault =>
          exact ⟨0, refl h hbounded,
            fun bytes hbytes => absurd hbytes (by simp [NamiSync.readChunks])⟩
      | chunk chunk signal due =>
          cases signal with
          | some signal =>
              exact ⟨0, refl h hbounded, fun bytes hbytes =>
                absurd hbytes (by simp [NamiSync.readChunks])⟩
          | none =>
              have hfed : Reads selection chunk.length progress
                  (if chunk = [] then progress
                  else progress.bytesProcessed selection chunk.length displayPath due) := by
                split
                · next hempty =>
                    rw [hempty]
                    exact refl h hbounded
                · exact bytesProcessed h _ _ _
              obtain ⟨size, hreads, hfinished⟩ := ih hfed.sound hfed.bounded (read ++ chunk)
              refine ⟨chunk.length + size, hfed.trans hreads, ?_⟩
              intro bytes hbytes
              rw [hfinished bytes hbytes, List.length_append, Nat.add_assoc]

end Reads

/-- The bytes that are reported as read for a row. -/
def ItemEnd.bytesRead : ItemEnd → Nat
  | .raised _ => 0
  | .settled _ bytesRead => bytesRead
  | .record _ _ _ bytesRead => bytesRead

variable [Sha256]

theorem concludeRead_bytesRead (item : IntegritySelectionItem) (mode : IntegrityMode)
    (expectedStat : FileStat) (strategy : ReadStrategy) (before : FileStat)
    (after : Except ReadFault FileStat) (observedAt : Utc) (bytes : List UInt8) :
    (concludeRead item mode expectedStat strategy before after observedAt bytes).bytesRead ≤
      bytes.length := by
  unfold concludeRead
  cases after with
  | error fault => exact Nat.zero_le _
  | ok after =>
      dsimp only
      split
      · exact Nat.le_refl _
      · split
        · exact Nat.le_refl _
        · split
          · exact Nat.le_refl _
          · split
            · exact Nat.zero_le _
            · exact Nat.le_refl _

theorem Reads.readSubject (h : Truthful selection progress) (hbounded : Bounded progress)
    (item : IntegritySelectionItem) (mode : IntegrityMode) (expectedStat : FileStat)
    (answers : StreamAnswers) :
    Reads selection
      (NamiSync.readSubject selection item mode expectedStat answers progress).2.bytesRead progress
      (NamiSync.readSubject selection item mode expectedStat answers progress).1 := by
  unfold NamiSync.readSubject
  split
  · exact refl h hbounded
  · split
    · exact refl h hbounded
    · split
      · exact refl h hbounded
      · obtain ⟨size, hreads, hfinished⟩ :=
          readChunks h hbounded item.displayPath answers.chunks []
        split
        · next heq =>
            rw [heq] at hreads
            exact hreads.less (Nat.zero_le _)
        · next heq =>
            rw [heq] at hreads
            exact hreads.less (Nat.zero_le _)
        · next heq =>
            rw [heq] at hreads hfinished
            refine hreads.less ((concludeRead_bytesRead ..).trans ?_)
            rw [hfinished _ rfl, List.length_nil, Nat.zero_add]

variable [Unicode]

theorem Reads.classifyItem (h : Truthful selection progress) (hbounded : Bounded progress)
    (item : IntegritySelectionItem) (mode : IntegrityMode) (answers : StreamAnswers) :
    Reads selection (NamiSync.classifyItem selection item mode answers progress).2.bytesRead
      progress (NamiSync.classifyItem selection item mode answers progress).1 := by
  unfold NamiSync.classifyItem
  dsimp only
  split
  · exact refl h hbounded
  · split
    · exact refl h hbounded
    · split
      · exact refl h hbounded
      · exact refl h hbounded
      · split
        · exact refl h hbounded
        · split
          · exact refl h hbounded
          · exact readSubject h hbounded ..

end Reports

/-! ## Rows

A row is marked when its outcome is emitted, in one step.  So an outcome is
there exactly for the marked rows, and once. -/

section Rows

variable {selection : IntegritySelection} {start : IntegrityContinuation}
  {progress progress' : VerifierProgress}

/-- What a chain of calls has done since the continuation it started from:
the rows that are completed now, and were not then, are those of its
outcomes. -/
structure Continued (selection : IntegritySelection) (start : IntegrityContinuation)
    (progress : VerifierProgress) : Prop extends Truthful selection progress where
  outcomes_nodup : (progress.outcomes.map IntegrityOutcome.itemId).Nodup
  outcomes_fresh : ∀ outcome ∈ progress.outcomes,
    start.completedBytes.contains outcome.itemId = false
  completed_iff : ∀ itemId, progress.continuation.completedBytes.contains itemId = true ↔
    start.completedBytes.contains itemId = true ∨
      itemId ∈ progress.outcomes.map IntegrityOutcome.itemId

theorem Continued.quiet (h : Continued selection start progress)
    (htruthful : Truthful selection progress')
    (hquiet : Quiet progress progress') : Continued selection start progress' where
  toTruthful := htruthful
  outcomes_nodup := by
    rw [hquiet.outcomes_eq]
    exact h.outcomes_nodup
  outcomes_fresh := by
    rw [hquiet.outcomes_eq]
    exact h.outcomes_fresh
  completed_iff := by
    rw [hquiet.outcomes_eq, hquiet.completed_eq]
    exact h.completed_iff

/-- The outcome of a row, and the mark behind it. -/
def VerifierProgress.marked (progress : VerifierProgress) (outcome : IntegrityOutcome)
    (bytesRead : Nat) : VerifierProgress :=
  { progress with
    continuation :=
      { progress.continuation with
        completedBytes := progress.continuation.completedBytes.set outcome.itemId bytesRead }
    events := progress.events ++ [.outcome outcome] }

theorem contains_marked (progress : VerifierProgress) (outcome : IntegrityOutcome) (bytesRead : Nat)
    (itemId : Str) :
    (progress.marked outcome bytesRead).continuation.completedBytes.contains itemId = true ↔
      itemId = outcome.itemId ∨ progress.continuation.completedBytes.contains itemId = true := by
  unfold VerifierProgress.marked Dict.contains
  dsimp only
  rw [Dict.get?_set]
  by_cases hsame : itemId = outcome.itemId
  · simp [hsame]
  · simp [hsame]

theorem reports_marked (progress : VerifierProgress) (outcome : IntegrityOutcome)
    (bytesRead : Nat) : (progress.marked outcome bytesRead).reports = progress.reports := by
  simp [VerifierProgress.reports, VerifierProgress.marked, List.filterMap_append]

theorem outcomes_marked (progress : VerifierProgress) (outcome : IntegrityOutcome)
    (bytesRead : Nat) :
    (progress.marked outcome bytesRead).outcomes = progress.outcomes ++ [outcome] := by
  simp [VerifierProgress.outcomes, VerifierProgress.marked, List.filterMap_append]

/-- Marking a row and emitting its outcome is one step. -/
theorem Continued.marked (h : Continued selection start progress) {outcome : IntegrityOutcome}
    (hitem : outcome.itemId ∈ selection.items.map IntegritySelectionItem.itemId)
    (hpending : progress.continuation.completedBytes.contains outcome.itemId = false)
    {bytesRead : Nat}
    (hread : progress.continuation.completedBytes.values.sum + bytesRead ≤
      progress.continuation.processedBytes) :
    Continued selection start (progress.marked outcome bytesRead) := by
  constructor
  · constructor
    · exact h.fits.complete hitem hpending hread
    · rw [reports_marked]
      exact h.valid
    · rw [reports_marked]
      exact h.ordered
    · rw [reports_marked]
      exact h.reached
  · rw [outcomes_marked, List.map_append, List.map_singleton, List.nodup_append]
    refine ⟨h.outcomes_nodup, List.nodup_singleton _, ?_⟩
    intro itemId hmem other hother heq
    rw [List.mem_singleton.1 hother] at heq
    have hdone := (h.completed_iff itemId).2 (Or.inr hmem)
    rw [heq, hpending] at hdone
    exact Bool.false_ne_true hdone
  · rw [outcomes_marked]
    intro other hother
    rcases List.mem_append.1 hother with hother | hother
    · exact h.outcomes_fresh other hother
    · rw [List.mem_singleton.1 hother, Bool.eq_false_iff]
      intro hstarted
      rw [(h.completed_iff outcome.itemId).2 (Or.inl hstarted)] at hpending
      exact Bool.false_ne_true hpending.symm
  · intro itemId
    rw [outcomes_marked, List.map_append, List.map_singleton, List.mem_append, List.mem_singleton,
      contains_marked, h.completed_iff itemId]
    tauto

/-- Where all rows are completed, each has its outcome, and just one. -/
theorem Continued.outcome_once (h : Continued selection start progress)
    {item : IntegritySelectionItem}
    (hdone : progress.continuation.completedBytes.contains item.itemId = true) :
    (progress.outcomes.map IntegrityOutcome.itemId).count item.itemId =
      if start.completedBytes.contains item.itemId then 0 else 1 := by
  split
  · next hstarted =>
      rw [List.count_eq_zero]
      intro hmem
      obtain ⟨outcome, houtcome, hid⟩ := List.mem_map.1 hmem
      have hfresh := h.outcomes_fresh outcome houtcome
      rw [hid, hstarted] at hfresh
      exact Bool.false_ne_true hfresh.symm
  · next hfresh =>
      exact List.count_eq_one_of_mem h.outcomes_nodup
        (((h.completed_iff item.itemId).1 hdone).resolve_left hfresh)

end Rows

/-! ## Calls

The loop takes the rows that are not marked, in the order of the selection.
Whichever way it ends, by a pause, a cancel or the last row, what it leaves is
again a continuation of the selection. -/

section Calls

variable {Λ : Type} {selection : IntegritySelection} {start : IntegrityContinuation}
  {state : VerifierState Λ}

/-- A row gets its outcome, and is completed with what was read for it. -/
theorem Continued.complete (h : Continued selection start state.toVerifierProgress)
    (hbounded : Bounded state.toVerifierProgress) {item : IntegritySelectionItem}
    (hitem : item ∈ selection.items)
    (hpending : state.continuation.completedBytes.contains item.itemId = false)
    {outcome : IntegrityOutcome} (hid : outcome.itemId = item.itemId) {bytesRead : Nat}
    (hread : state.continuation.completedBytes.values.sum + bytesRead ≤
      state.continuation.processedBytes) (emitProgress : Bool) :
    ∃ later, state.emitAndComplete selection outcome bytesRead emitProgress = (later, none) ∧
      Continued selection start later.toVerifierProgress ∧ Bounded later.toVerifierProgress ∧
      ∀ itemId, later.continuation.completedBytes.contains itemId = true ↔
        itemId = item.itemId ∨ state.continuation.completedBytes.contains itemId = true := by
  rw [← hid] at hpending
  have hmarked := h.marked (List.mem_map.2 ⟨item, hitem, hid.symm⟩) hpending hread
  have hcompleted (itemId : Str) :=
    contains_marked state.toVerifierProgress outcome bytesRead itemId
  rw [hid] at hcompleted
  unfold VerifierState.emitAndComplete IntegrityContinuation.markCompleted
  dsimp only
  rw [hpending, if_neg Bool.false_ne_true]
  refine ⟨_, rfl, ?_⟩
  cases emitProgress with
  | false => exact ⟨hmarked, hbounded, hcompleted⟩
  | true =>
      exact ⟨hmarked.quiet (hmarked.report hbounded _) (.report _), hbounded, hcompleted⟩

/-- Every row waits for its outcome or is completed. -/
def Accounts (selection : IntegritySelection) (progress : VerifierProgress)
    (items : List IntegritySelectionItem) : Prop :=
  ∀ item ∈ selection.items,
    item ∈ items ∨ progress.continuation.completedBytes.contains item.itemId = true

/-- The rows that wait are those which are not completed. -/
theorem accounts_pending (progress : VerifierProgress) :
    Accounts selection progress (progress.continuation.pending selection) := by
  intro item hitem
  cases hdone : progress.continuation.completedBytes.contains item.itemId with
  | true => exact Or.inr rfl
  | false => exact Or.inl (List.mem_filter.2 ⟨hitem, by rw [hdone]; rfl⟩)

theorem Accounts.rest {progress later : VerifierProgress} {item : IntegritySelectionItem}
    {rest : List IntegritySelectionItem} (h : Accounts selection progress (item :: rest))
    (hlater : ∀ itemId, later.continuation.completedBytes.contains itemId = true ↔
      itemId = item.itemId ∨ progress.continuation.completedBytes.contains itemId = true) :
    Accounts selection later rest := by
  intro other hother
  rcases h other hother with hmem | hdone
  · rcases List.mem_cons.1 hmem with rfl | hmem
    · exact Or.inr ((hlater _).2 (Or.inl rfl))
    · exact Or.inl hmem
  · exact Or.inr ((hlater _).2 (Or.inr hdone))

/-- The rows that are to be completed where a call ends for good. -/
def CallEnd.Settles (selection : IntegritySelection) (progress : VerifierProgress) :
    CallEnd → Prop
  | .raised .pauseRequested => True
  | .returned _ | .raised .canceled =>
      ∀ item ∈ selection.items,
        progress.continuation.completedBytes.contains item.itemId = true
  | .failed _ => False

theorem CallEnd.Settles.completed {progress : VerifierProgress} {ending : CallEnd}
    (h : ending.Settles selection progress) (hunpaused : ending ≠ .raised .pauseRequested) :
    ∀ item ∈ selection.items,
      progress.continuation.completedBytes.contains item.itemId = true := by
  cases ending with
  | returned result => exact h
  | failed message => exact h.elim
  | raised signal =>
      cases signal with
      | canceled => exact h
      | pauseRequested => exact absurd rfl hunpaused

theorem Continued.cancelPending {items : List IntegritySelectionItem}
    (h : Continued selection start state.toVerifierProgress)
    (hbounded : Bounded state.toVerifierProgress)
    (hawaiting : Awaiting selection state.toVerifierProgress items)
    (haccounts : Accounts selection state.toVerifierProgress items) :
    Continued selection start (state.cancelPending selection items).1.toVerifierProgress ∧
      (state.cancelPending selection items).2.Settles selection
        (state.cancelPending selection items).1.toVerifierProgress := by
  induction items generalizing state with
  | nil =>
      refine ⟨h.quiet (h.report hbounded none) (.report none), ?_⟩
      intro item hitem
      exact (haccounts item hitem).resolve_left List.not_mem_nil
  | cons item rest ih =>
      have hid : (integrityOutcome item .canceled (some .canceled)).itemId = item.itemId := rfl
      have hread : state.continuation.completedBytes.values.sum + 0 ≤
          state.continuation.processedBytes := h.fits.covered
      obtain ⟨later, hcomplete, hlater, hbound, hdone⟩ := h.complete hbounded
        (hawaiting.selected item List.mem_cons_self) (hawaiting.pending item List.mem_cons_self) hid
        hread false
      unfold VerifierState.cancelPending
      dsimp only
      rw [hcomplete]
      exact ih hlater hbound (hawaiting.rest hdone) (haccounts.rest hdone)

variable [Sha256] [Unicode] {mode : IntegrityMode} {recorder : IntegrityRecorder Λ}

/-- The step for a row, up to its outcome. -/
theorem Continued.processItem (h : Continued selection start state.toVerifierProgress)
    (hbounded : Bounded state.toVerifierProgress) (item : IntegritySelectionItem)
    (answers : ItemAnswers Λ) :
    ∃ later ending, state.processItem selection mode recorder item answers = (later, ending) ∧
      Continued selection start later.toVerifierProgress ∧ Bounded later.toVerifierProgress ∧
      later.continuation.completedBytes = state.continuation.completedBytes ∧
      ∀ outcome bytesRead, ending = .inr (outcome, bytesRead) → outcome.itemId = item.itemId ∧
        later.continuation.completedBytes.values.sum + bytesRead ≤
          later.continuation.processedBytes := by
  have hreads := Reads.classifyItem h.toTruthful hbounded item mode answers.stream
  have hfits := classifyItem_fits selection item mode answers.stream state.toVerifierProgress
  have hquiet : Quiet state.toVerifierProgress (classifyItem selection item mode answers.stream
      state.toVerifierProgress).1 := Quiet.classifyItem ..
  unfold VerifierState.processItem
  cases hcase : classifyItem selection item mode answers.stream state.toVerifierProgress with
  | mk progress ending =>
      rw [hcase] at hreads hfits hquiet
      have hread : progress.continuation.completedBytes.values.sum + ending.bytesRead ≤
          progress.continuation.processedBytes := by
        rw [hreads.completed_eq]
        exact (Nat.add_le_add_right h.fits.covered _).trans hreads.processed_le
      have hnow := h.quiet hreads.sound hquiet
      cases ending with
      | raised signal =>
          exact ⟨_, _, rfl, hnow, hreads.bounded, hreads.completed_eq,
            fun outcome bytesRead heq => absurd heq (by simp)⟩
      | settled outcome bytesRead =>
          refine ⟨_, _, rfl, hnow, hreads.bounded, hreads.completed_eq, ?_⟩
          intro other size heq
          obtain ⟨rfl, rfl⟩ := Prod.mk.inj (Sum.inr.inj heq)
          exact ⟨hfits.1, hread⟩
      | record result strategy command bytesRead =>
          refine ⟨_, _, rfl, hnow, hreads.bounded, hreads.completed_eq, ?_⟩
          intro other size heq
          obtain ⟨rfl, rfl⟩ := Prod.mk.inj (Sum.inr.inj heq)
          exact ⟨recordedOutcome_spec.1.1, hread⟩

theorem Continued.processPending (answers : IntegritySelectionItem → ItemAnswers Λ)
    {items : List IntegritySelectionItem}
    (h : Continued selection start state.toVerifierProgress)
    (hbounded : Bounded state.toVerifierProgress)
    (hawaiting : Awaiting selection state.toVerifierProgress items)
    (haccounts : Accounts selection state.toVerifierProgress items) :
    ∃ later ending, state.processPending selection mode recorder answers items =
        (later, ending) ∧
      Continued selection start later.toVerifierProgress ∧ Bounded later.toVerifierProgress ∧
      (ending = .raised .canceled ∨ ending.Settles selection later.toVerifierProgress) := by
  induction items generalizing state with
  | nil =>
      refine ⟨_, _, rfl, h, hbounded, Or.inr ?_⟩
      intro item hitem
      exact (haccounts item hitem).resolve_left List.not_mem_nil
  | cons item rest ih =>
      unfold VerifierState.processPending
      cases (answers item).signal with
      | some signal =>
          refine ⟨_, _, rfl, h, hbounded, ?_⟩
          cases signal with
          | canceled => exact Or.inl rfl
          | pauseRequested => exact Or.inr trivial
      | none =>
          obtain ⟨read, ending, heq, hread, hbound, hsame, hending⟩ :=
            h.processItem hbounded item (answers item)
          dsimp only
          rw [heq]
          cases ending with
          | inl signal =>
              refine ⟨_, _, rfl, hread, hbound, ?_⟩
              cases signal with
              | canceled => exact Or.inl rfl
              | pauseRequested => exact Or.inr trivial
          | inr settled =>
              obtain ⟨outcome, bytesRead⟩ := settled
              obtain ⟨hid, hsum⟩ := hending outcome bytesRead rfl
              have hpending : read.continuation.completedBytes.contains item.itemId = false := by
                rw [hsame]
                exact hawaiting.pending item List.mem_cons_self
              obtain ⟨later, hcomplete, hlater, hbound, hdone⟩ := hread.complete hbound
                (hawaiting.selected item List.mem_cons_self) hpending hid hsum true
              rw [hsame] at hdone
              dsimp only
              rw [hcomplete]
              exact ih hlater hbound (hawaiting.rest hdone) (haccounts.rest hdone)

/-- A call, wherever it starts. -/
theorem Continued.run (h : Continued selection start state.toVerifierProgress)
    (answers : IntegritySelectionItem → ItemAnswers Λ) :
    Continued selection start (state.run selection mode recorder answers).1.toVerifierProgress ∧
      (state.run selection mode recorder answers).2.Settles selection
        (state.run selection mode recorder answers).1.toVerifierProgress := by
  have hbegun : Continued selection start (state.begin selection) := by
    refine h.quiet ?_ .begin
    exact (h.toTruthful.processed _ (Nat.le_refl _)).report (Nat.le_add_right _ _) none
  have hbounded : Bounded (state.begin selection) := Nat.le_add_right _ _
  obtain ⟨later, ending, heq, hlater, hbound, hending⟩ :=
    @Continued.processPending Λ selection start
      { state with toVerifierProgress := state.begin selection, emitted := [] } _ _ mode recorder
      answers _ hbegun hbounded (awaiting_pending _) (accounts_pending _)
  unfold VerifierState.run
  dsimp only
  rw [heq]
  rcases hending with rfl | hsettles
  · exact hlater.cancelPending hbound (awaiting_pending _) (accounts_pending _)
  · cases ending with
    | returned result => exact ⟨hlater, hsettles⟩
    | failed message => exact ⟨hlater, hsettles⟩
    | raised signal =>
        cases signal with
        | canceled => exact hlater.cancelPending hbound (awaiting_pending _) (accounts_pending _)
        | pauseRequested => exact ⟨hlater, hsettles⟩

/-- Any number of calls keep it, each from the continuation of the last. -/
theorem Continued.chain (h : Continued selection start state.toVerifierProgress)
    (calls : List (IntegritySelectionItem → ItemAnswers Λ)) :
    Continued selection start (state.chain selection mode recorder calls).toVerifierProgress := by
  induction calls generalizing state with
  | nil => exact h
  | cons answers rest ih => exact ih (h.run answers).1

omit [Sha256] [Unicode] in
theorem Continued.initial (hstart : start.Fits selection) :
    Continued selection start { continuation := start } where
  fits := hstart
  valid := fun _ h => absurd h List.not_mem_nil
  ordered := List.Pairwise.nil
  reached := fun _ h => absurd h List.not_mem_nil
  outcomes_nodup := List.nodup_nil
  outcomes_fresh := fun _ h => absurd h List.not_mem_nil
  completed_iff := fun itemId => by simp [VerifierProgress.outcomes]

/-- Any number of calls on one selection, and one more.  The continuation
fits wherever a call stops; every report is valid, and none falls behind the
one before it, in this call or an earlier one; the call returns, or raises
what a checkpoint has raised, and if it was not paused each row has its
outcome, and just one, in this call or an earlier one. -/
theorem verification_continues (selection : IntegritySelection) (start : IntegrityContinuation)
    (hstart : start.Fits selection) (mode : IntegrityMode) (recorder : IntegrityRecorder Λ)
    (calls : List (IntegritySelectionItem → ItemAnswers Λ))
    (answers : IntegritySelectionItem → ItemAnswers Λ) (ledger : Λ) :
    ∃ later ending,
      (VerifierState.chain selection mode recorder calls
        { continuation := start, ledger := ledger }).run selection mode recorder answers =
        (later, ending) ∧
      later.continuation.Fits selection ∧
      (∀ report ∈ later.reports, report.Valid) ∧
      (later.reports.map ProgressReport.bytesDone).Pairwise (· ≤ ·) ∧
      (∀ message, ending ≠ .failed message) ∧
      (ending ≠ .raised .pauseRequested → ∀ item ∈ selection.items,
        (later.outcomes.map IntegrityOutcome.itemId).count item.itemId =
          if start.completedBytes.contains item.itemId then 0 else 1) := by
  have hchained : Continued selection start (VerifierState.chain selection mode recorder calls
      { continuation := start, ledger := ledger }).toVerifierProgress :=
    Continued.chain (Continued.initial hstart) calls
  obtain ⟨hlater, hending⟩ := hchained.run answers
  cases hrun : (VerifierState.chain selection mode recorder calls
      { continuation := start, ledger := ledger }).run selection mode recorder answers with
  | mk later ending =>
      rw [hrun] at hlater hending
      refine ⟨later, ending, rfl, hlater.fits, hlater.valid, hlater.ordered, ?_, ?_⟩
      · rintro message rfl
        exact hending
      · intro hunpaused item hitem
        exact hlater.outcome_once (hending.completed hunpaused item hitem)

end Calls

/-! ## A file that grows between two calls

The first call reads two of the three bytes and is paused; the file has grown by
one when the second call reads it from its start. -/

section Sample

local instance grownUnicode : Unicode := asciiUnicode

/-- The digest of the four bytes. -/
local instance grownSha : Sha256 where
  digest _ := [136, 212, 38, 111, 212, 230, 51, 141, 19, 184, 69, 252, 242, 137, 87, 157, 32, 156,
    137, 120, 35, 185, 33, 125, 163, 225, 97, 147, 111, 3, 21, 137]
  digest_length _ := rfl

def grownStat (size : Nat) : FileStat where
  kind := .file
  size := size
  mtimeNs := 1700000000000000000
  fileIdentity := none
  nlink := 1
  metadata := ⟨0x20, some 1690000000000000000⟩

def grownItem : IntegritySelectionItem where
  itemId := str "1"
  rowId := 1
  locationId := 1
  root := str "C"
  relPathKey := str "A"
  displayPath := str "a"
  expectedState := .present
  expectedStat := some (grownStat 3)
  baseline := none
  scopeToken := str "s"

def grownSelection : IntegritySelection where
  items := [grownItem]
  itemIds_nodup := by decide
  rows_nodup := by decide
  paths_nodup := by decide

/-- The read gets these chunks, and then what the file has become. -/
def grownAnswers (chunks : List ChunkAnswer) (size : Nat) : ItemAnswers Unit where
  signal := none
  stream :=
    { opened := .ok .windowsUnbuffered
      before := .ok (grownStat 3)
      chunks := chunks
      after := .ok (grownStat size)
      observedAt := 1704067200000000 }
  interfere := id

/-- The first call is paused behind two bytes. -/
def pausedRead : ItemAnswers Unit :=
  grownAnswers [.chunk [97, 98] none true, .chunk [99] (some .pauseRequested) false] 3

def grownRead : ItemAnswers Unit :=
  grownAnswers [.chunk [97, 98, 99] none true, .chunk [100] none true] 4

def grownRecorder : IntegrityRecorder Unit := fun _ ledger => (.ok .applied, ledger)

def grownRun : VerifierState Unit × CallEnd :=
  (VerifierState.chain grownSelection .baseline grownRecorder [fun _ => pausedRead]
    { continuation := {}, ledger := () }).run grownSelection .baseline grownRecorder
    fun _ => grownRead

theorem verification_continues_grown :
    grownRun.1.continuation.processedBytes = 6 ∧ grownRun.1.continuation.Fits grownSelection ∧
      (∀ report ∈ grownRun.1.reports, report.Valid) ∧
      (grownRun.1.outcomes.map IntegrityOutcome.itemId).count grownItem.itemId = 1 := by
  obtain ⟨later, ending, hrun, hfits, hvalid, -, -, honce⟩ :=
    verification_continues grownSelection {} (IntegrityContinuation.fits_fresh _) .baseline
      grownRecorder [fun _ => pausedRead] (fun _ => grownRead) ()
  have hlater : grownRun = (later, ending) := hrun
  have hunpaused : grownRun.2 ≠ .raised .pauseRequested := by decide +kernel
  have hprocessed : grownRun.1.continuation.processedBytes = 6 := by decide +kernel
  rw [hlater] at hunpaused hprocessed ⊢
  exact ⟨hprocessed, hfits, hvalid, honce hunpaused grownItem (List.mem_singleton_self _)⟩

end Sample

end NamiSync
