/-
# `Modules.Classification` — which result a selected row gets

The checks of `_process_item` come in a fixed order, and each of them ends
the row.  `Intact` is what the checks before the digest amount to, in terms
of the item and the stream alone.  A row whose display path does not name
its key is given up before its stream is opened, whatever the stream holds.

## What is proved

    integrity_classified : for each mode and each row,
      VERIFIED    iff the row is intact and its digest is the baseline's
      MISMATCHED  iff it is intact and the digest differs
      recorded    iff it passes all the checks and there is no difference

and a row whose evidence is recorded counts as verified or as a baseline.
Every iff has the display path in it: `/` names no key, so such a row is given
up first (`intact_not_verified`).

## The argument

`ItemEnd.Unexamined` is what all early ends have in common.  Going through the
checks from the last to the first, each either ends unexamined or has passed
(`concludeRead_cases`, `readSubject_cases`, `classifyItem_cases`), and the
conjunction of what has passed is `Examined`.
-/
import NamiSync.Modules.VerifierRun

namespace NamiSync

/-! ## The two comparisons

What the booleans of the two comparisons say, field by field. -/

/-- The stat is of the expected kind, size and time, and of the expected
identity if one is expected. -/
structure FileStat.Describes (expected actual : FileStat) : Prop where
  kind_eq : actual.kind = expected.kind
  size_eq : actual.size = expected.size
  mtimeNs_eq : actual.mtimeNs = expected.mtimeNs
  identity_eq : expected.fileIdentity = none ∨ actual.fileIdentity = expected.fileIdentity

/-- The two stats are of one subject. -/
structure FileStat.SameSubject (before after : FileStat) : Prop where
  kind_eq : after.kind = before.kind
  size_eq : after.size = before.size
  mtimeNs_eq : after.mtimeNs = before.mtimeNs
  identity_eq : after.fileIdentity = before.fileIdentity

theorem matchesExpectedStat_iff {expected actual : FileStat} :
    matchesExpectedStat expected actual = true ↔ expected.Describes actual := by
  unfold matchesExpectedStat
  simp only [Bool.and_eq_true, Bool.or_eq_true, decide_eq_true_eq]
  constructor
  · rintro ⟨⟨hkind, hsize, hmtime⟩, hidentity⟩
    exact ⟨hkind.symm, hsize.symm, hmtime.symm, hidentity.imp id Eq.symm⟩
  · intro h
    exact ⟨⟨h.kind_eq.symm, h.size_eq.symm, h.mtimeNs_eq.symm⟩, h.identity_eq.imp id Eq.symm⟩

theorem sameOpenSubject_iff {before after : FileStat} :
    sameOpenSubject before after = true ↔ before.SameSubject after := by
  unfold sameOpenSubject
  simp only [Bool.and_eq_true, decide_eq_true_eq]
  constructor
  · rintro ⟨⟨hkind, hsize, hmtime⟩, hidentity⟩
    exact ⟨hkind.symm, hsize.symm, hmtime.symm, hidentity.symm⟩
  · intro h
    exact ⟨⟨h.kind_eq.symm, h.size_eq.symm, h.mtimeNs_eq.symm⟩, h.identity_eq.symm⟩

/-! ## What is checked before the digest

The checks of a row in the order of the source.  `Examined` is that they all
pass; where one does not, no result speaks of the digest. -/

/-- The stream opens and is read to its end, its subject stays the same, and
as many bytes come as it has. -/
structure StreamAnswers.Steady (answers : StreamAnswers) (before : FileStat) : Prop where
  opened : ∃ strategy, answers.opened = .ok strategy
  before_eq : answers.before = .ok before
  read : ∀ answer ∈ answers.chunks, ∃ bytes due, answer = .chunk bytes none due
  after_same : ∃ after, answers.after = .ok after ∧ before.SameSubject after
  length_eq : answers.bytes.length = before.size

namespace IntegritySelectionItem

/-- The display path is valid and names the key of the row. -/
def Located [Unicode] (item : IntegritySelectionItem) : Prop :=
  ∃ path, validateRelativePath item.displayPath = .ok path ∧ path.key = item.relPathKey

/-- The row is present with this baseline, and its stream is steady on a
subject that both the row and the baseline describe. -/
structure Intact (item : IntegritySelectionItem) (answers : StreamAnswers)
    (baseline : Attestation) : Prop where
  present : item.expectedState = .present
  baseline_eq : item.baseline = some baseline
  steady : ∃ before expected, answers.Steady before ∧ item.expectedStat = some expected ∧
    expected.Describes before ∧ baseline.subject.Describes before

/-- What a row is when its digest is looked at, in any of the three modes. -/
structure Examined (item : IntegritySelectionItem) (mode : IntegrityMode)
    (answers : StreamAnswers) : Prop where
  present : item.expectedState = .present
  fresh : mode = .baseline → item.baseline = none
  steady : ∃ before expected, answers.Steady before ∧ item.expectedStat = some expected ∧
    expected.Describes before ∧
    (mode = .verify → ∀ baseline ∈ item.baseline, baseline.subject.Describes before)

/-- The digest of the stream is not the one of the baseline. -/
def Differs [Sha256] (item : IntegritySelectionItem) (mode : IntegrityMode)
    (answers : StreamAnswers) : Prop :=
  mode = .verify ∧ ∃ baseline ∈ item.baseline, Sha256.digest answers.bytes ≠ baseline.content.digest

/-- What a row without a difference counts as. -/
def resultOf (item : IntegritySelectionItem) (mode : IntegrityMode) : IntegrityResult :=
  if mode = .verify ∧ item.baseline.isSome = true then .verified else .baselined

theorem examined_verify {item : IntegritySelectionItem} {answers : StreamAnswers}
    {baseline : Attestation} (hbaseline : item.baseline = some baseline) :
    item.Examined .verify answers ↔ item.Intact answers baseline := by
  constructor
  · intro h
    obtain ⟨before, expected, hsteady, hexpected, hdescribes, hsubject⟩ := h.steady
    exact ⟨h.present, hbaseline, before, expected, hsteady, hexpected, hdescribes,
      hsubject rfl baseline hbaseline⟩
  · intro h
    obtain ⟨before, expected, hsteady, hexpected, hdescribes, hsubject⟩ := h.steady
    refine ⟨h.present, by simp, before, expected, hsteady, hexpected, hdescribes, ?_⟩
    intro _ other hother
    rw [hbaseline] at hother
    rw [← Option.some.inj hother]
    exact hsubject

end IntegritySelectionItem

open IntegritySelectionItem

/-- The row ends before its digest is looked at. -/
def ItemEnd.Unexamined : ItemEnd → Prop
  | .raised _ => True
  | .settled outcome _ =>
      outcome.result ≠ .verified ∧ outcome.result ≠ .baselined ∧ outcome.result ≠ .mismatched
  | .record .. => False

theorem integrityOutcome_unexamined {item : IntegritySelectionItem} {result : IntegrityResult}
    {reason : Option IntegrityReason} {detail : Option Str} {strategy : Option ReadStrategy}
    {bytesRead : Nat} (h : result ≠ .verified ∧ result ≠ .baselined ∧ result ≠ .mismatched) :
    (ItemEnd.settled (integrityOutcome item result reason detail strategy) bytesRead).Unexamined :=
  h

theorem faultOutcome_unexamined {item : IntegritySelectionItem} {fault : ReadFault}
    {bytesRead : Nat} : (ItemEnd.settled (faultOutcome item fault) bytesRead).Unexamined := by
  cases fault <;> exact integrityOutcome_unexamined (by decide)

/-! ## The loop over the chunks

The digest is of what was read, and a stream that ends without a fault has been
read as a whole. -/

section Chunks

variable {selection : IntegritySelection} {displayPath : Str} {chunks : List ChunkAnswer}

/-- A stream that raises nothing is read to its end. -/
theorem readChunks_read (h : ∀ answer ∈ chunks, ∃ bytes due, answer = .chunk bytes none due)
    (progress : VerifierProgress) (read : List UInt8) :
    ∃ progress', readChunks selection displayPath chunks progress read =
      (progress', .finished (read ++ chunks.flatMap ChunkAnswer.bytes)) := by
  induction chunks generalizing progress read with
  | nil => exact ⟨progress, by rw [List.flatMap_nil, List.append_nil]; rfl⟩
  | cons answer rest ih =>
      obtain ⟨bytes, due, rfl⟩ := h _ List.mem_cons_self
      have hrest := ih fun other hother => h other (List.mem_cons_of_mem _ hother)
      obtain ⟨progress', hread⟩ := hrest (if bytes = [] then progress
        else progress.bytesProcessed selection bytes.length displayPath due) (read ++ bytes)
      refine ⟨progress', ?_⟩
      rw [List.flatMap_cons, ← List.append_assoc]
      exact hread

theorem read_of_finished {progress progress' : VerifierProgress} {read bytes : List UInt8}
    (h : readChunks selection displayPath chunks progress read = (progress', .finished bytes)) :
    ∀ answer ∈ chunks, ∃ bytes due, answer = .chunk bytes none due := by
  induction chunks generalizing progress read with
  | nil => exact fun answer hanswer => absurd hanswer List.not_mem_nil
  | cons answer rest ih =>
      intro other hother
      cases answer with
      | raised fault => exact absurd (Prod.mk.inj h).2 (by simp)
      | chunk chunk signal due =>
          cases signal with
          | some signal => exact absurd (Prod.mk.inj h).2 (by simp)
          | none =>
              rcases List.mem_cons.1 hother with rfl | hrest
              · exact ⟨chunk, due, rfl⟩
              · exact ih h other hrest

end Chunks

/-! ## One row

From the answers to the end of the classification, through the three functions
of the source. -/

section Rows

variable [Sha256] {selection : IntegritySelection} {item : IntegritySelectionItem}
  {mode : IntegrityMode} {expected before : FileStat} {strategy : ReadStrategy}

omit [Sha256] in
/-- The three constructors accept what a row that passed the checks gives
them. -/
theorem checked_of_subject {after : FileStat} (hpresent : item.expectedState = .present)
    (hfresh : mode = .baseline → item.baseline = none) (hdescribes : expected.Describes before)
    (hsame : before.SameSubject after) (content : ContentEvidence) :
    ∃ command, IntegrityRecordCommand.checked
      (if mode = .rebaseline then .rebaseline
        else if item.resultOf mode = .verified then .verify else .baseline)
      item expected
      ⟨content, if expected.fileIdentity.isSome then after else { after with fileIdentity := none }⟩
      (decide (item.resultOf mode = .verified)) = .ok command := by
  have hguarded : expected.guards
      (if expected.fileIdentity.isSome then after else { after with fileIdentity := none }) := by
    have hkind := hsame.kind_eq.trans hdescribes.kind_eq
    have hsize := hsame.size_eq.trans hdescribes.size_eq
    have hmtime := hsame.mtimeNs_eq.trans hdescribes.mtimeNs_eq
    cases hidentity : expected.fileIdentity with
    | none => exact ⟨hkind, hsize, hmtime, hidentity.symm⟩
    | some identity =>
        have hactual := hdescribes.identity_eq.resolve_left (by rw [hidentity]; simp)
        exact ⟨hkind, hsize, hmtime, hsame.identity_eq.trans hactual⟩
  unfold IntegrityRecordCommand.checked
  rw [dif_pos hpresent, dif_pos hguarded]
  unfold resultOf
  cases mode with
  | baseline =>
      have hnone := hfresh rfl
      rw [dif_pos (by simp [hnone]), dif_pos (by simp), dif_pos (by simp)]
      exact ⟨_, rfl⟩
  | rebaseline =>
      rw [dif_pos (by simp), dif_pos (by simp), dif_pos (by simp)]
      exact ⟨_, rfl⟩
  | verify =>
      cases hbaseline : item.baseline with
      | none =>
          rw [dif_pos (by simp), dif_pos (by simp), dif_pos (by simp)]
          exact ⟨_, rfl⟩
      | some baseline =>
          rw [dif_pos (by simp), dif_pos (by simp), dif_pos (by simp)]
          exact ⟨_, rfl⟩

/-- A row that passed the checks is mismatched, or a command is built for
it. -/
theorem concludeRead_examined {answers : StreamAnswers} {after : FileStat}
    (hpresent : item.expectedState = .present) (hfresh : mode = .baseline → item.baseline = none)
    (hdescribes : expected.Describes before) (hsame : before.SameSubject after)
    (hlength : answers.bytes.length = before.size) (observedAt : Utc) :
    (item.Differs mode answers ∧
      concludeRead item mode expected strategy before (.ok after) observedAt answers.bytes =
        .settled (integrityOutcome item .mismatched (some .hashMismatch) none (some strategy))
          answers.bytes.length) ∨
    (¬ item.Differs mode answers ∧ ∃ command,
      concludeRead item mode expected strategy before (.ok after) observedAt answers.bytes =
        .record (item.resultOf mode) strategy command answers.bytes.length) := by
  unfold concludeRead
  dsimp only
  rw [sameOpenSubject_iff.2 hsame, if_neg (by simp), if_neg (not_not.2 hlength)]
  by_cases hdiffers : item.Differs mode answers
  · refine Or.inl ⟨hdiffers, ?_⟩
    unfold Differs at hdiffers
    rw [if_pos hdiffers]
  · refine Or.inr ⟨hdiffers, ?_⟩
    unfold Differs at hdiffers
    rw [if_neg hdiffers]
    obtain ⟨command, hcommand⟩ := checked_of_subject hpresent hfresh hdescribes hsame
      { digest := Sha256.digest answers.bytes
        size := answers.bytes.length
        provenance := .verifyAttested
        observedAt := observedAt
        digest_length := Sha256.digest_length answers.bytes }
    unfold resultOf at hcommand
    rw [hcommand]
    exact ⟨command, rfl⟩

/-- The end of the `with` block is unexamined, or its three checks have
passed. -/
theorem concludeRead_cases (item : IntegritySelectionItem) (mode : IntegrityMode)
    (expected : FileStat) (strategy : ReadStrategy) (before : FileStat)
    (after : Except ReadFault FileStat) (observedAt : Utc) (bytes : List UInt8) :
    (concludeRead item mode expected strategy before after observedAt bytes).Unexamined ∨
      (∃ actual, after = .ok actual ∧ before.SameSubject actual) ∧ bytes.length = before.size := by
  unfold concludeRead
  cases after with
  | error fault => exact Or.inl faultOutcome_unexamined
  | ok after =>
      dsimp only
      split
      · exact Or.inl (integrityOutcome_unexamined (by decide))
      · next hsame =>
          split
          · exact Or.inl (integrityOutcome_unexamined (by decide))
          · next hlength =>
              refine Or.inr ⟨⟨after, rfl, sameOpenSubject_iff.1 ?_⟩, not_not.1 hlength⟩
              simpa using hsame

/-- So is the whole block, or all its checks have passed. -/
theorem readSubject_cases (selection : IntegritySelection) (item : IntegritySelectionItem)
    (mode : IntegrityMode) (expected : FileStat) (answers : StreamAnswers)
    (progress : VerifierProgress) :
    (readSubject selection item mode expected answers progress).2.Unexamined ∨
      ∃ before, answers.Steady before ∧ expected.Describes before ∧
        (mode = .verify → ∀ baseline ∈ item.baseline, baseline.subject.Describes before) := by
  unfold readSubject
  split
  · exact Or.inl faultOutcome_unexamined
  · next strategy hopened =>
      split
      · exact Or.inl faultOutcome_unexamined
      · next before hbefore =>
          split
          · exact Or.inl (integrityOutcome_unexamined (by decide))
          · next hchecks =>
              obtain ⟨hexpected, hbaseline⟩ := not_or.1 hchecks
              split
              · exact Or.inl trivial
              · exact Or.inl faultOutcome_unexamined
              · next bytes hread =>
                  have hbytes : bytes = answers.bytes := readChunks_finished hread
                  rcases concludeRead_cases item mode expected strategy before answers.after
                    answers.observedAt bytes with hend | ⟨hafter, hlength⟩
                  · exact Or.inl hend
                  · have hmatches := matchesExpectedStat_iff.1 (by simpa using hexpected)
                    refine Or.inr ⟨before, ⟨⟨strategy, hopened⟩, hbefore, read_of_finished hread,
                      hafter, hbytes ▸ hlength⟩, hmatches, ?_⟩
                    intro hverify baseline hmem
                    have hmatch := not_exists.1 (not_and.1 hbaseline hverify) baseline
                    exact matchesExpectedStat_iff.1 (by simpa [hmem] using hmatch)

/-- A steady stream is read to its end. -/
theorem readSubject_steady {answers : StreamAnswers} (hsteady : answers.Steady before)
    (hdescribes : expected.Describes before)
    (hsubject : mode = .verify → ∀ baseline ∈ item.baseline, baseline.subject.Describes before)
    (progress : VerifierProgress) :
    ∃ strategy after, before.SameSubject after ∧
      (readSubject selection item mode expected answers progress).2 =
        concludeRead item mode expected strategy before (.ok after) answers.observedAt
          answers.bytes := by
  obtain ⟨strategy, hopened⟩ := hsteady.opened
  obtain ⟨after, hafter, hsame⟩ := hsteady.after_same
  refine ⟨strategy, after, hsame, ?_⟩
  unfold readSubject
  rw [hopened]
  dsimp only
  rw [hsteady.before_eq]
  dsimp only
  have hchecks : ¬((!matchesExpectedStat expected before) = true ∨ mode = .verify ∧
      ∃ baseline ∈ item.baseline, (!matchesExpectedStat baseline.subject before) = true) := by
    rintro (h | ⟨hverify, baseline, hmem, h⟩)
    · simp [matchesExpectedStat_iff.2 hdescribes] at h
    · simp [matchesExpectedStat_iff.2 (hsubject hverify baseline hmem)] at h
  rw [if_neg hchecks]
  obtain ⟨progress', hread⟩ : ∃ progress', readChunks selection item.displayPath answers.chunks
      progress [] = (progress', .finished ([] ++ answers.bytes)) :=
    readChunks_read hsteady.read progress []
  rw [hread, hafter]
  rfl

variable [Unicode]

/-- A row is examined exactly if it gets as far as its digest. -/
theorem classifyItem_cases (selection : IntegritySelection) (item : IntegritySelectionItem)
    (mode : IntegrityMode) (answers : StreamAnswers) (progress : VerifierProgress) :
    (classifyItem selection item mode answers progress).2.Unexamined ∨
      item.Located ∧ item.Examined mode answers := by
  unfold classifyItem
  dsimp only
  split
  · exact Or.inl (integrityOutcome_unexamined (by decide))
  · next path hpath =>
      split
      · exact Or.inl (integrityOutcome_unexamined (by decide))
      · next hkey =>
          split
          · exact Or.inl (integrityOutcome_unexamined (by decide))
          · exact Or.inl (integrityOutcome_unexamined (by decide))
          · next hpresent =>
              split
              · exact Or.inl (integrityOutcome_unexamined (by decide))
              · next hfresh =>
                  split
                  · exact Or.inl (integrityOutcome_unexamined (by decide))
                  · next expected hexpected =>
                      rcases readSubject_cases selection item mode expected answers progress with
                        hend | ⟨before, hsteady, hdescribes, hsubject⟩
                      · exact Or.inl hend
                      · refine Or.inr ⟨⟨path, hpath, not_not.1 hkey⟩, hpresent, ?_, before,
                          expected, hsteady, hexpected, hdescribes, hsubject⟩
                        intro hmode
                        simpa [hmode] using hfresh

/-- An examined row is mismatched or recorded. -/
theorem classifyItem_examined {answers : StreamAnswers} (hlocated : item.Located)
    (h : item.Examined mode answers) (progress : VerifierProgress) :
    ∃ strategy,
      (item.Differs mode answers ∧ (classifyItem selection item mode answers progress).2 =
        .settled (integrityOutcome item .mismatched (some .hashMismatch) none (some strategy))
          answers.bytes.length) ∨
      (¬ item.Differs mode answers ∧ ∃ command,
        (classifyItem selection item mode answers progress).2 =
          .record (item.resultOf mode) strategy command answers.bytes.length) := by
  obtain ⟨path, hpath, hkey⟩ := hlocated
  obtain ⟨before, expected, hsteady, hexpected, hdescribes, hsubject⟩ := h.steady
  obtain ⟨strategy, after, hsame, hread⟩ : ∃ strategy after, before.SameSubject after ∧
      (readSubject selection item mode expected answers progress).2 =
        concludeRead item mode expected strategy before (.ok after) answers.observedAt
          answers.bytes := readSubject_steady hsteady hdescribes hsubject progress
  have hclassify : classifyItem selection item mode answers progress =
      readSubject selection item mode expected answers progress := by
    unfold classifyItem
    dsimp only
    rw [hpath]
    dsimp only
    rw [if_neg (not_not.2 hkey), h.present]
    dsimp only
    rw [if_neg, hexpected]
    rintro ⟨hmode, hsome⟩
    rw [h.fresh hmode] at hsome
    exact absurd hsome (by simp)
  rw [hclassify, hread]
  exact ⟨strategy, concludeRead_examined h.present h.fresh hdescribes hsame hsteady.length_eq _⟩

/-! ## The step for a row

With the recorder behind it: an outcome may be kept from the ledger, but its
result stays. -/

variable {Λ : Type}

/-- The result that a row gets, if it gets one. -/
def VerifierState.resultOfStep : VerifierState Λ × (Signal ⊕ IntegrityOutcome × Nat) →
    Option IntegrityResult
  | (_, .inl _) => none
  | (_, .inr (outcome, _)) => some outcome.result

/-- How the step ends follows from how the classification does. -/
theorem processItem_ends (state : VerifierState Λ) (recorder : IntegrityRecorder Λ)
    (answers : ItemAnswers Λ) :
    match (classifyItem selection item mode answers.stream state.toVerifierProgress).2 with
    | .raised _ =>
        VerifierState.resultOfStep (state.processItem selection mode recorder item answers) = none ∧
          (state.processItem selection mode recorder item answers).1.writes = state.writes
    | .settled outcome _ =>
        VerifierState.resultOfStep (state.processItem selection mode recorder item answers) =
            some outcome.result ∧
          (state.processItem selection mode recorder item answers).1.writes = state.writes
    | .record result _ _ _ =>
        VerifierState.resultOfStep (state.processItem selection mode recorder item answers) =
            some result ∧
          ∃ write, (state.processItem selection mode recorder item answers).1.writes =
            state.writes ++ [write] := by
  unfold VerifierState.processItem
  rcases classifyItem selection item mode answers.stream state.toVerifierProgress with
    ⟨progress, ending⟩
  cases ending with
  | raised signal => exact ⟨rfl, rfl⟩
  | settled outcome bytesRead => exact ⟨rfl, rfl⟩
  | record result strategy command bytesRead =>
      exact ⟨congrArg some recordedOutcome_spec.2, _, rfl⟩

omit [Unicode] in
theorem verified_iff {answers : StreamAnswers} :
    (mode = .verify ∧ ∃ baseline, item.Intact answers baseline ∧
        Sha256.digest answers.bytes = baseline.content.digest) ↔
      item.Examined mode answers ∧ ¬ item.Differs mode answers ∧
        item.resultOf mode = .verified := by
  unfold Differs resultOf
  constructor
  · rintro ⟨rfl, baseline, hintact, hdigest⟩
    refine ⟨(examined_verify hintact.baseline_eq).2 hintact, ?_, by simp [hintact.baseline_eq]⟩
    rintro ⟨-, other, hother, hdiffers⟩
    rw [hintact.baseline_eq] at hother
    rw [← Option.some.inj hother] at hdiffers
    exact hdiffers hdigest
  · rintro ⟨hexamined, hsame, hresult⟩
    obtain ⟨rfl, hsome⟩ : mode = .verify ∧ item.baseline.isSome = true := by
      by_contra hne
      rw [if_neg hne] at hresult
      exact absurd hresult (by decide)
    obtain ⟨baseline, hbaseline⟩ := Option.isSome_iff_exists.1 hsome
    refine ⟨rfl, baseline, (examined_verify hbaseline).1 hexamined, ?_⟩
    by_contra hdiffers
    exact hsame ⟨rfl, baseline, hbaseline, hdiffers⟩

omit [Unicode] in
theorem mismatched_iff {answers : StreamAnswers} :
    (mode = .verify ∧ ∃ baseline, item.Intact answers baseline ∧
        Sha256.digest answers.bytes ≠ baseline.content.digest) ↔
      item.Examined mode answers ∧ item.Differs mode answers := by
  unfold Differs
  constructor
  · rintro ⟨rfl, baseline, hintact, hdigest⟩
    exact ⟨(examined_verify hintact.baseline_eq).2 hintact, rfl, baseline, hintact.baseline_eq,
      hdigest⟩
  · rintro ⟨hexamined, rfl, baseline, hbaseline, hdigest⟩
    exact ⟨rfl, baseline, (examined_verify hbaseline).1 hexamined, hdigest⟩

/-- The step for a row gives it a result in one of three ways. -/
theorem processItem_cases (state : VerifierState Λ) (recorder : IntegrityRecorder Λ)
    (answers : ItemAnswers Λ) :
    let step := state.processItem selection mode recorder item answers
    (¬(item.Located ∧ item.Examined mode answers.stream) ∧ step.1.writes = state.writes ∧
      VerifierState.resultOfStep step ≠ some .verified ∧
      VerifierState.resultOfStep step ≠ some .mismatched) ∨
    (item.Located ∧ item.Examined mode answers.stream) ∧
      (item.Differs mode answers.stream ∧ step.1.writes = state.writes ∧
          VerifierState.resultOfStep step = some .mismatched ∨
        ¬ item.Differs mode answers.stream ∧
          (∃ write, step.1.writes = state.writes ++ [write]) ∧
          VerifierState.resultOfStep step = some (item.resultOf mode)) := by
  intro step
  have hends := @processItem_ends _ selection item mode _ _ state recorder answers
  by_cases hexamined : item.Located ∧ item.Examined mode answers.stream
  · refine Or.inr ⟨hexamined, ?_⟩
    obtain ⟨strategy, ⟨hdiffers, hend⟩ | ⟨hsame, command, hend⟩⟩ :=
      @classifyItem_examined _ selection item mode _ _ hexamined.1 hexamined.2
        state.toVerifierProgress
    · rw [hend] at hends
      exact Or.inl ⟨hdiffers, hends.2, hends.1⟩
    · rw [hend] at hends
      exact Or.inr ⟨hsame, hends.2, hends.1⟩
  · refine Or.inl ⟨hexamined, ?_⟩
    have hunexamined := (classifyItem_cases selection item mode answers.stream
      state.toVerifierProgress).resolve_right hexamined
    cases hend : (classifyItem selection item mode answers.stream state.toVerifierProgress).2 with
    | raised signal =>
        rw [hend] at hends
        exact ⟨hends.2, by rw [hends.1]; simp, by rw [hends.1]; simp⟩
    | settled outcome bytesRead =>
        rw [hend] at hends hunexamined
        obtain ⟨hverified, -, hmismatched⟩ := hunexamined
        exact ⟨hends.2, by rw [hends.1]; simpa using hverified,
          by rw [hends.1]; simpa using hmismatched⟩
    | record result strategy command bytesRead =>
        rw [hend] at hunexamined
        exact hunexamined.elim

omit [Sha256] [Unicode] in
theorem resultOf_cases (item : IntegritySelectionItem) (mode : IntegrityMode) :
    item.resultOf mode = .verified ∨ item.resultOf mode = .baselined := by
  unfold resultOf
  split
  · exact Or.inl rfl
  · exact Or.inr rfl

/-- A row is verified, mismatched or recorded exactly on what its stream
holds: the digest decides between the first two, and every row that passes
all the checks gets its command. -/
theorem integrity_classified (selection : IntegritySelection) (item : IntegritySelectionItem)
    (mode : IntegrityMode) (state : VerifierState Λ) (recorder : IntegrityRecorder Λ)
    (answers : ItemAnswers Λ) :
    let step := state.processItem selection mode recorder item answers
    (VerifierState.resultOfStep step = some .verified ↔
      item.Located ∧ mode = .verify ∧ ∃ baseline, item.Intact answers.stream baseline ∧
        Sha256.digest answers.stream.bytes = baseline.content.digest) ∧
    (VerifierState.resultOfStep step = some .mismatched ↔
      item.Located ∧ mode = .verify ∧ ∃ baseline, item.Intact answers.stream baseline ∧
        Sha256.digest answers.stream.bytes ≠ baseline.content.digest) ∧
    (step.1.writes ≠ state.writes →
      VerifierState.resultOfStep step = some .verified ∨
        VerifierState.resultOfStep step = some .baselined) ∧
    ((∃ write, step.1.writes = state.writes ++ [write]) ↔
      item.Located ∧ item.Examined mode answers.stream ∧ ¬ item.Differs mode answers.stream) := by
  intro step
  have hverified := @verified_iff _ item mode answers.stream
  have hmismatched := @mismatched_iff _ item mode answers.stream
  have hordinary := resultOf_cases item mode
  rw [hverified, hmismatched]
  rcases @processItem_cases _ selection item mode _ _ state recorder answers with
    ⟨hunexamined, hwrites, hnv, hnm⟩ | ⟨⟨hlocated, hexamined⟩,
      ⟨hdiffers, hwrites, hresult⟩ | ⟨hsame, ⟨write, hwrites⟩, hresult⟩⟩
  · refine ⟨iff_of_false hnv fun h => hunexamined ⟨h.1, h.2.1⟩,
      iff_of_false hnm fun h => hunexamined ⟨h.1, h.2.1⟩, fun h => absurd hwrites h,
      iff_of_false ?_ fun h => hunexamined ⟨h.1, h.2.1⟩⟩
    rintro ⟨write, h⟩
    exact absurd (hwrites.symm.trans h) (by simp)
  · refine ⟨iff_of_false (by rw [hresult]; decide) fun h => h.2.2.1 hdiffers,
      iff_of_true hresult ⟨hlocated, hexamined, hdiffers⟩, fun h => absurd hwrites h,
      iff_of_false ?_ fun h => h.2.2 hdiffers⟩
    rintro ⟨write, h⟩
    exact absurd (hwrites.symm.trans h) (by simp)
  · refine ⟨?_, iff_of_false ?_ fun h => hsame h.2.2, ?_,
      iff_of_true ⟨write, hwrites⟩ ⟨hlocated, hexamined, hsame⟩⟩
    · rw [hresult, Option.some_inj]
      exact ⟨fun h => ⟨hlocated, hexamined, hsame, h⟩, fun h => h.2.2.2⟩
    · rw [hresult]
      rcases hordinary with h | h <;> rw [h] <;> decide
    · intro _
      rw [hresult, Option.some_inj, Option.some_inj]
      exact hordinary

end Rows

/-! A row with the display path `/`, everything else of which is in order. -/

section Sample

local instance slashUnicode : Unicode := asciiUnicode

/-- The digest of the empty stream. -/
local instance slashDigest : Sha256 where
  digest _ :=
    [0xe3, 0xb0, 0xc4, 0x42, 0x98, 0xfc, 0x1c, 0x14, 0x9a, 0xfb, 0xf4, 0xc8, 0x99, 0x6f,
      0xb9, 0x24, 0x27, 0xae, 0x41, 0xe4, 0x64, 0x9b, 0x93, 0x4c, 0xa4, 0x95, 0x99, 0x1b,
      0x78, 0x52, 0xb8, 0x55]
  digest_length _ := by decide

def emptyFile : FileStat where
  kind := .file
  size := 0
  mtimeNs := 1
  fileIdentity := none
  nlink := 1
  metadata := { attributes := 0, createdNs := none }

def slashItem : IntegritySelectionItem where
  itemId := str "i"
  rowId := 1
  locationId := 1
  root := str "r"
  relPathKey := str "K"
  displayPath := str "/"
  expectedState := .present
  expectedStat := some emptyFile
  baseline := some
    { content :=
        { digest := Sha256.digest []
          size := 0
          provenance := .verifyAttested
          observedAt := 0 }
      subject := emptyFile }
  scopeToken := str "s"
  baseline_file := by simp [emptyFile]

def slashAnswers : ItemAnswers Unit where
  signal := none
  stream :=
    { opened := .ok .windowsUnbuffered
      before := .ok emptyFile
      chunks := []
      after := .ok emptyFile
      observedAt := 0 }
  interfere := id

/-- Without the display path the conditions are not enough. -/
theorem intact_not_verified : ¬ ∀ (selection : IntegritySelection) (item : IntegritySelectionItem)
    (mode : IntegrityMode) (state : VerifierState Unit) (recorder : IntegrityRecorder Unit)
    (answers : ItemAnswers Unit),
    VerifierState.resultOfStep (state.processItem selection mode recorder item answers) =
        some .verified ↔
      mode = .verify ∧ ∃ baseline, item.Intact answers.stream baseline ∧
        Sha256.digest answers.stream.bytes = baseline.content.digest := by
  intro h
  have hsame : emptyFile.SameSubject emptyFile := ⟨rfl, rfl, rfl, rfl⟩
  have hdescribes : emptyFile.Describes emptyFile := ⟨rfl, rfl, rfl, Or.inl rfl⟩
  have hsteady : slashAnswers.stream.Steady emptyFile :=
    ⟨⟨_, rfl⟩, rfl, fun _ hanswer => absurd hanswer List.not_mem_nil, ⟨_, rfl, hsame⟩, rfl⟩
  have hverified := (h ⟨[slashItem], by simp, by simp, by simp⟩ slashItem .verify
    { ledger := () } (fun _ ledger => (.ok .applied, ledger)) slashAnswers).2
    ⟨rfl, _, ⟨rfl, rfl, emptyFile, emptyFile, hsteady, rfl, hdescribes, hdescribes⟩, rfl⟩
  exact absurd hverified (by decide +kernel)

end Sample

end NamiSync
