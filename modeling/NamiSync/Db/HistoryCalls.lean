/-
# `Db.HistoryCalls` — what one call does to an observer and to the store

A row of the store is made of a report whose hash it holds, with all the
operations of that report; what is read back under its token is that report.
An observer holds the events it has taken: the hash of each, the items of the
first delivery of each number, in increasing order.

## How it is used

Three specifications, one for each thing that can happen to an observer:
`finalize_spec` (with `Ends`, the outcomes of an attempt), `Holds.again` and
`Holds.take` (the two ways an event is taken), `Made.get` (what is read back
of a row).  `Db.HistoryExact` uses nothing else of `Db.History`.
-/
import NamiSync.Db.HistoryText

namespace NamiSync

namespace History

/-! ## Reading back

The report is stored in rows and read back from them in the order of their
numbers.  `Made` is what the rows of one run are when they were made from one
report. -/

/-- What is read back of a report. -/
def Report.snapshot (report : Report) (endedAt : UtcTime) : RunSnapshot where
  runToken := report.runToken
  sessionId := report.sessionId
  activityKind := report.activityKind
  hostKey := report.hostKey
  subjectKind := report.subjectKind
  subjectId := report.subjectId
  sourceContext := report.sourceContext
  targetContext := report.targetContext
  startedAt := report.startedAt
  endedAt := endedAt
  filesystemStatus := report.result.status
  recording := report.result.recording
  audit := .ok
  disposition := report.result.disposition.value
  canceled := report.result.canceled
  bytesDone := report.result.bytesDone
  bytesTotal := report.result.bytesTotal
  operations := report.items.mapIdx fun order item =>
    { itemOrder := order
      eventSeq := item.1
      itemId := item.2.itemId
      kind := item.2.kind
      path := item.2.path
      outcome := item.2.outcome
      reason := item.2.reason
      detail := item.2.detail.value }
  errorType := report.result.error.map FailureDetail.typeName
  errorMessage := report.result.error.map FailureDetail.message

theorem map_mapIdx {α β γ : Type} (g : β → γ) (f : Nat → α → β) (values : List α) :
    (values.mapIdx f).map g = values.mapIdx fun i a => g (f i a) := by
  refine List.ext_getElem (by rw [List.length_map, List.length_mapIdx, List.length_mapIdx]) ?_
  intro i hi hi'
  rw [List.getElem_map, List.getElem_mapIdx, List.getElem_mapIdx]

theorem mapM_mapIdx {α β γ : Type} {f : Nat → α → β} {g : β → Option γ} {h : Nat → α → γ}
    {values : List α} (hfg : ∀ i, ∀ a ∈ values, g (f i a) = some (h i a)) :
    (values.mapIdx f).mapM g = some (values.mapIdx h) := by
  induction values generalizing f h with
  | nil => rfl
  | cons a values ih =>
      rw [List.mapIdx_cons, List.mapIdx_cons, List.mapM_cons, hfg 0 a List.mem_cons_self,
        ih fun i b hb => hfg (i + 1) b (List.mem_cons_of_mem _ hb)]
      rfl

/-- Rows that are numbered in order are read in order. -/
theorem sortedBy_mapIdx {α : Type} {f : Nat → α → OperationRow}
    (horder : ∀ i a, (f i a).itemOrder = i)
    (values : List α) : sortedBy OperationRow.itemOrder (values.mapIdx f) = values.mapIdx f := by
  refine List.Pairwise.insertionSort_eq (List.pairwise_iff_getElem.2 fun i j hi hj hij => ?_)
  rw [List.getElem_mapIdx, List.getElem_mapIdx, horder, horder]
  exact hij.le

/-- A row, with its operations, that was made of a report. -/
structure Made (report : Report) (endedAt : UtcTime) (hash : List UInt8) (store : Store)
    (run : RunRow) : Prop where
  row_eq : run = { report.row endedAt hash with id := run.id }
  operations_eq : store.operations.filter (·.runId = run.id) =
    report.operations.map fun operation => { operation with runId := run.id }

theorem find_run {store : Store} {run : RunRow} (h : run ∈ store.runs) :
    store.runs.find? (·.runToken = run.runToken) = some run := by
  cases hfound : store.runs.find? (·.runToken = run.runToken) with
  | none => exact absurd (decide_eq_true rfl) (List.find?_eq_none.1 hfound run h)
  | some found =>
      have htoken : found.runToken = run.runToken := by simpa using List.find?_some hfound
      rw [List.inj_on_of_nodup_map store.tokens_nodup (List.mem_of_find?_eq_some hfound) h htoken]

theorem OperationRow.snapshot_eq {row : OperationRow} {outcome : Outcome} {detail : Json}
    (houtcome : Outcome.ofValue row.outcome = some outcome)
    (hdetail : Json.loads row.detailJson = some detail) :
    row.snapshot =
      some
        { itemOrder := row.itemOrder
          eventSeq := row.eventSeq
          itemId := row.itemId
          kind := row.kind
          path := row.path
          outcome := outcome
          reason := row.reason
          detail := detail } := by
  rw [OperationRow.snapshot, houtcome, Option.bind_eq_bind, Option.bind_some, hdetail]
  rfl

/-- Rows that were made from a report are read back as the report's snapshot. -/
theorem Made.get {report : Report} {endedAt : UtcTime} {hash : List UInt8} {store : Store}
    {run : RunRow} (h : Made report endedAt hash store run) (hrun : run ∈ store.runs)
    (hdetails : ∀ item ∈ report.items, Json.loads item.2.detail.text = some item.2.detail.value) :
    store.get report.runToken = some (report.snapshot endedAt) := by
  have hrows : (sortedBy OperationRow.itemOrder (store.operations.filter (·.runId = run.id))).mapM
      OperationRow.snapshot = some (report.snapshot endedAt).operations := by
    rw [h.operations_eq, Report.operations, map_mapIdx, sortedBy_mapIdx fun _ _ => rfl]
    exact mapM_mapIdx fun order item hitem =>
      OperationRow.snapshot_eq (Outcome.ofValue_value item.2.outcome) (hdetails item hitem)
  obtain ⟨number, rfl⟩ : ∃ number, run = { report.row endedAt hash with id := number } :=
    ⟨run.id, h.row_eq⟩
  have hfind := find_run hrun
  have hstarted := decodeUtc_encodeUtc report.startedAt
  have hended := decodeUtc_encodeUtc endedAt
  have hstatus := SessionState.ofValue_value report.result.status
  have hrecording := RecordingStatus.ofValue_value report.result.recording
  have haudit := RecordingStatus.ofValue_value .ok
  unfold Store.get
  have htoken :
      report.runToken = ({ report.row endedAt hash with id := number } : RunRow).runToken := rfl
  rw [htoken, hfind, Option.bind_eq_bind, Option.bind_some, hrows]
  dsimp only [Report.row, Option.bind_eq_bind, Option.bind_some]
  rw [hstarted, hended, hstatus, hrecording, haudit]
  rfl

/-! ## The store

A transaction inserts a run that is not there, or finds it with the same hash.
A commit that is reported as failed may have taken effect; the next try then
finds its own rows. -/

section Digest

variable [Sha256]

/-- Every run was made of a report whose payload is among those hashed. -/
def Kept (hashed : List (List UInt8)) (store : Store) : Prop :=
  ∀ run ∈ store.runs, ∃ report endedAt, Made report endedAt report.hash store run ∧
    report.payload.canonicalBytes ∈ hashed

/-- The run of a report is there. -/
def Filed (report : Report) (store : Store) : Prop :=
  ∃ run ∈ store.runs, run.runToken = report.runToken ∧ run.payloadHash = report.hash

variable {hashed : List (List UInt8)} {store written : Store} {report : Report}

omit [Sha256] in
theorem insert_ok {row : RunRow} {operations : List OperationRow}
    (h : store.insert row operations = .ok written) :
    written.runs = store.runs ++ [{ row with id := store.freshId }] ∧
      written.operations = store.operations ++
        operations.map fun operation => { operation with runId := store.freshId } := by
  unfold Store.insert at h
  split_ifs at h
  obtain rfl := Except.ok.inj h
  exact ⟨rfl, rfl⟩

/-- The operations of the runs that were there, and of the new one. -/
theorem Kept.insert (hkept : Kept hashed store) (hbytes : report.payload.canonicalBytes ∈ hashed)
    {endedAt : UtcTime}
    (h : store.insert (report.row endedAt report.hash) report.operations = .ok written) :
    Kept hashed written := by
  obtain ⟨hruns, hoperations⟩ := insert_ok h
  intro run hrun
  rw [hruns] at hrun
  rcases List.mem_append.1 hrun with hold | hnew
  · obtain ⟨report', endedAt', hmade, hbytes'⟩ := hkept run hold
    have hne : store.freshId ≠ run.id := (Store.id_lt_freshId hold).ne'
    refine ⟨report', endedAt', ⟨hmade.row_eq, ?_⟩, hbytes'⟩
    rw [hoperations, List.filter_append, hmade.operations_eq]
    refine (congrArg _ (List.filter_eq_nil_iff.2 fun operation hmem => ?_)).trans
      (List.append_nil _)
    obtain ⟨added, -, rfl⟩ := List.mem_map.1 hmem
    exact decide_eq_true_iff.not.2 hne
  · obtain rfl := List.mem_singleton.1 hnew
    refine ⟨report, endedAt, ⟨rfl, ?_⟩, hbytes⟩
    have hold : store.operations.filter (·.runId = store.freshId) = [] :=
      List.filter_eq_nil_iff.2 fun operation hmem heq =>
        store.fresh (of_decide_eq_true heq ▸ store.joins operation hmem)
    have hadded : (report.operations.map fun operation =>
        { operation with runId := store.freshId }).filter (·.runId = store.freshId) =
          report.operations.map fun operation => { operation with runId := store.freshId } := by
      refine List.filter_eq_self.2 fun operation hmem => ?_
      obtain ⟨added, -, rfl⟩ := List.mem_map.1 hmem
      exact decide_eq_true rfl
    rw [hoperations, List.filter_append]
    show store.operations.filter (·.runId = store.freshId) ++ _ = _
    rw [hold, hadded]
    rfl

/-- The transaction of a report. -/
theorem apply_ok {now : UtcTime} (hkept : Kept hashed store)
    (hbytes : report.payload.canonicalBytes ∈ hashed) (h : report.apply now store = .ok written) :
    Kept hashed written ∧ store.runs ⊆ written.runs ∧ Filed report written := by
  unfold Report.apply at h
  split at h
  · next prior hprior =>
      split at h
      · cases h
      · next hhash =>
          obtain rfl := Except.ok.inj h
          refine ⟨hkept, fun _ => id, prior, List.mem_of_find?_eq_some hprior, ?_, not_not.1 hhash⟩
          simpa using List.find?_some hprior
  · obtain ⟨hruns, -⟩ := insert_ok h
    refine ⟨hkept.insert hbytes h, fun run hrun => ?_,
      { report.row now report.hash with id := store.freshId }, ?_, rfl, rfl⟩
    · rw [hruns]
      exact List.mem_append_left _ hrun
    · rw [hruns]
      exact List.mem_append_right _ (List.mem_singleton_self _)

theorem transact_report (now : UtcTime) (rounds : List WriterRound) (lost : HistoryError)
    (hkept : Kept hashed store) (hbytes : report.payload.canonicalBytes ∈ hashed) :
    Kept hashed (transact (report.apply now) lost rounds store).2 ∧
      store.runs ⊆ (transact (report.apply now) lost rounds store).2.runs ∧
      ((transact (report.apply now) lost rounds store).1 = .ok () →
        Filed report (transact (report.apply now) lost rounds store).2) := by
  obtain ⟨⟨hkept', hruns⟩, hfiled⟩ := transact_spec
    (I := fun later => Kept hashed later ∧ store.runs ⊆ later.runs) (Q := Filed report)
    (fun before after hinv hafter => by
      obtain ⟨hkept', hgrows, hfiled⟩ := apply_ok hinv.1 hbytes hafter
      exact ⟨⟨hkept', List.Subset.trans hinv.2 hgrows⟩, hfiled⟩) rounds
    ⟨hkept, List.Subset.refl _⟩
  exact ⟨hkept', hruns, hfiled⟩

namespace Observer

variable {observer : Observer} {result : OperationResult Detail} {now : UtcTime}
  {rounds : List WriterRound}

/-- What `finalize` may do: raise, with the transaction in effect or not;
find that it is done; or be done. -/
inductive Ends (observer : Observer) (result : OperationResult Detail) (store : Store) :
    Except HistoryError Unit × Observer × Store → Prop
  | raised (error : HistoryError) {later : Store} :
      (observer.finalized = true → later = store) →
      Ends observer result store (.error error, observer, later)
  | again : observer.finalized = true →
      observer.finalPayloadHash = some (observer.report result).hash →
      Ends observer result store (.ok (), observer, store)
  | done {later : Store} : observer.finalized = false → Filed (observer.report result) later →
      Ends observer result store
        (.ok (),
          { observer with
            finalPayloadHash := some (observer.report result).hash
            finalized := true },
          later)

theorem finalize_spec (observer : Observer) (result : OperationResult Detail) (now : UtcTime)
    (rounds : List WriterRound) (hkept : Kept hashed store)
    (hbytes : (observer.report result).payload.canonicalBytes ∈ hashed) :
    Ends observer result store (observer.finalize result now rounds store) ∧
      Kept hashed (observer.finalize result now rounds store).2.2 ∧
      store.runs ⊆ (observer.finalize result now rounds store).2.2.runs := by
  unfold finalize
  split
  · exact ⟨.raised _ fun _ => rfl, hkept, List.Subset.refl _⟩
  · dsimp only
    split
    · next hfinalized =>
        split
        · exact ⟨.raised _ fun _ => rfl, hkept, List.Subset.refl _⟩
        · next hhash => exact ⟨.again hfinalized (not_not.1 hhash).symm, hkept, List.Subset.refl _⟩
    · next hopen =>
        split
        · exact ⟨.raised _ fun _ => rfl, hkept, List.Subset.refl _⟩
        · obtain ⟨hkept', hruns, hfiled⟩ := transact_report now rounds
            (.recording "sqlite3.Error") hkept hbytes
          split
          · next error later heq =>
              rw [heq] at hkept' hruns
              exact ⟨.raised error fun h => absurd h hopen, hkept', hruns⟩
          · next later heq =>
              rw [heq] at hkept' hruns hfiled
              exact ⟨.done (Bool.not_eq_true _ ▸ hopen) (hfiled rfl), hkept', hruns⟩

/-- A finalized observer that is open answers by the hash alone. -/
theorem finalize_again (result : OperationResult Detail) (now : UtcTime) (rounds : List WriterRound)
    (store : Store) (hopen : observer.closed = false) (hfinalized : observer.finalized = true) :
    observer.finalize result now rounds store =
      if some (observer.report result).hash ≠ observer.finalPayloadHash then
        (.error (.tokenConflict "history finalize payload changed"), observer, store)
      else (.ok (), observer, store) := by
  unfold finalize
  rw [if_neg (by rw [hopen]; exact Bool.false_ne_true), if_pos hfinalized]

end Observer

/-! ## Events

The observer takes an event once: a redelivery is told by the hash that it keeps
of each position, and a new one must be later than all it has.  `Holds` says what
it has after any deliveries. -/

/-- The first delivery of each number. -/
def firsts (delivered : List (Envelope Detail)) : List (Envelope Detail) :=
  delivered.foldl (fun told envelope =>
    if told.any (·.seq = envelope.seq) then told else told ++ [envelope]) []

/-- The items among some events, with the numbers of these. -/
def numbered (envelopes : List (Envelope Detail)) : List (Nat × ItemOutcome Detail) :=
  envelopes.flatMap fun envelope => envelope.body.item.toList.map fun item => (envelope.seq, item)

omit [Sha256] in
theorem firsts_snoc (delivered : List (Envelope Detail)) (envelope : Envelope Detail) :
    firsts (delivered ++ [envelope]) =
      if (firsts delivered).any (·.seq = envelope.seq) then firsts delivered
      else firsts delivered ++ [envelope] := by
  rw [firsts, List.foldl_append]
  rfl

omit [Sha256] in
theorem any_firsts (delivered : List (Envelope Detail)) (seq : Nat) :
    (firsts delivered).any (·.seq = seq) = delivered.any (·.seq = seq) := by
  induction delivered using List.reverseRecOn with
  | nil => rfl
  | append_singleton delivered envelope ih =>
      rw [firsts_snoc, List.any_append, ← ih]
      split
      · next htold =>
          by_cases hseq : envelope.seq = seq
          · rw [← hseq, htold, Bool.true_or]
          · rw [List.any_cons, decide_eq_false hseq, List.any_nil, Bool.false_or, Bool.or_false]
      · rw [List.any_append]

omit [Sha256] in
theorem mem_firsts {delivered : List (Envelope Detail)} {envelope : Envelope Detail}
    (h : envelope ∈ firsts delivered) : envelope ∈ delivered := by
  induction delivered using List.reverseRecOn with
  | nil => exact h
  | append_singleton delivered last ih =>
      rw [firsts_snoc] at h
      split at h
      · exact List.mem_append_left _ (ih h)
      · exact (List.mem_append.1 h).elim (fun h => List.mem_append_left _ (ih h))
          (List.mem_append_right _)

/-- What an observer holds of the events it has taken. -/
structure Holds (delivered : List (Envelope Detail)) (observer : Observer) : Prop where
  hashes : ∀ seq digest, observer.eventHashes.get? seq = some digest ↔
    ∃ envelope ∈ delivered, envelope.seq = seq ∧ Sha256.digest envelope.bytes = digest
  items_eq : observer.items = numbered (firsts delivered)
  increasing : ((firsts delivered).map Envelope.seq).Pairwise (· < ·)

namespace Observer

/-- The observer takes events, and the envelope holds one of its session. -/
structure Open (observer : Observer) (envelope : Envelope Detail) : Prop where
  not_closed : observer.closed = false
  not_finalized : observer.finalized = false
  session_eq : envelope.sessionId = observer.record.sessionId
  reliable : envelope.body.reliable = true

variable {observer observer' : Observer} {envelope : Envelope Detail}
  {delivered : List (Envelope Detail)}

theorem onEvent_open (h : observer.Open envelope) :
    observer.onEvent envelope =
      match observer.eventHashes.get? envelope.seq with
      | some prior =>
          if prior ≠ Sha256.digest envelope.bytes then
            .error (.integrity "event sequence was reused with another payload")
          else .ok observer
      | none =>
          if observer.eventHashes.keys.any (envelope.seq < ·) then
            .error (.integrity "reliable events arrived out of order")
          else .ok (observer.take envelope (Sha256.digest envelope.bytes)) := by
  have hstate : ¬ (observer.closed || observer.finalized) = true := by
    rw [h.not_closed, h.not_finalized]
    exact Bool.false_ne_true
  have hreliable : ¬ (!envelope.body.reliable) = true := by
    rw [h.reliable]
    exact Bool.false_ne_true
  unfold onEvent
  exact (if_neg hstate).trans ((if_neg (not_not.2 h.session_eq)).trans (if_neg hreliable))

theorem open_of_ok (h : observer.onEvent envelope = .ok observer') : observer.Open envelope := by
  unfold onEvent at h
  split at h
  · cases h
  · next hstate =>
      split at h
      · cases h
      · next hsession =>
          split at h
          · cases h
          · next hreliable =>
              rw [Bool.or_eq_true, not_or, Bool.not_eq_true, Bool.not_eq_true] at hstate
              rw [Bool.not_eq_true', Bool.not_eq_false] at hreliable
              exact ⟨hstate.1, hstate.2, not_not.1 hsession, hreliable⟩

end Observer

variable {observer observer' : Observer} {envelope : Envelope Detail}
  {delivered : List (Envelope Detail)}

/-- No event has the number. -/
theorem Holds.get?_eq_none (h : Holds delivered observer) {seq : Nat} :
    observer.eventHashes.get? seq = none ↔ ∀ told ∈ delivered, told.seq ≠ seq := by
  constructor
  · intro hnone told htold hseq
    rw [(h.hashes seq _).2 ⟨told, htold, hseq, rfl⟩] at hnone
    cases hnone
  · intro hfresh
    cases hget : observer.eventHashes.get? seq with
    | none => rfl
    | some digest =>
        obtain ⟨told, htold, hseq, -⟩ := (h.hashes seq digest).1 hget
        exact absurd hseq (hfresh told htold)

/-- An event that is later than this one has been taken. -/
theorem Holds.any_keys (h : Holds delivered observer) {seq : Nat} :
    observer.eventHashes.keys.any (seq < ·) = true ↔ ∃ told ∈ delivered, seq < told.seq := by
  rw [List.any_eq_true]
  constructor
  · rintro ⟨key, hkey, hlt⟩
    obtain ⟨digest, hdigest⟩ := Option.isSome_iff_exists.1 (Dict.contains_iff.2 hkey)
    obtain ⟨told, htold, rfl, -⟩ := (h.hashes key digest).1 hdigest
    exact ⟨told, htold, of_decide_eq_true hlt⟩
  · rintro ⟨told, htold, hlt⟩
    refine ⟨told.seq, Dict.contains_iff.1 ?_, decide_eq_true hlt⟩
    rw [Dict.contains, (h.hashes told.seq _).2 ⟨told, htold, rfl, rfl⟩]
    rfl

/-- What is taken is a repetition or the next event. -/
theorem Holds.onEvent (h : Holds delivered observer)
    (hok : observer.onEvent envelope = .ok observer') :
    (observer' = observer ∧ ∃ told ∈ delivered, told.seq = envelope.seq ∧
        Sha256.digest told.bytes = Sha256.digest envelope.bytes) ∨
      (observer' = observer.take envelope (Sha256.digest envelope.bytes) ∧
        ∀ told ∈ delivered, told.seq < envelope.seq) := by
  rw [Observer.onEvent_open (Observer.open_of_ok hok)] at hok
  split at hok
  · next prior hprior =>
      split at hok
      · cases hok
      · next hsame =>
          obtain ⟨told, htold, hseq, hdigest⟩ := (h.hashes _ prior).1 hprior
          exact Or.inl ⟨(Except.ok.inj hok).symm, told, htold, hseq,
            hdigest.trans (not_not.1 hsame)⟩
  · next hnone =>
      split at hok
      · cases hok
      · next hlast =>
          refine Or.inr ⟨(Except.ok.inj hok).symm, fun told htold => ?_⟩
          have hne := (h.get?_eq_none.1 hnone) told htold
          have hle : ¬ envelope.seq < told.seq := fun hlt => hlast (h.any_keys.2 ⟨told, htold, hlt⟩)
          omega

theorem Holds.again (h : Holds delivered observer)
    (htold : ∃ told ∈ delivered, told.seq = envelope.seq ∧
      Sha256.digest told.bytes = Sha256.digest envelope.bytes) :
    Holds (delivered ++ [envelope]) observer := by
  obtain ⟨told, htold, hseq, hdigest⟩ := htold
  have hsame : firsts (delivered ++ [envelope]) = firsts delivered := by
    rw [firsts_snoc, any_firsts, if_pos]
    exact List.any_eq_true.2 ⟨told, htold, decide_eq_true hseq⟩
  refine ⟨fun seq digest => ?_, hsame ▸ h.items_eq, hsame ▸ h.increasing⟩
  rw [h.hashes]
  constructor
  · rintro ⟨other, hother, hfacts⟩
    exact ⟨other, List.mem_append_left _ hother, hfacts⟩
  · rintro ⟨other, hother, hseq', hdigest'⟩
    rcases List.mem_append.1 hother with hother | hother
    · exact ⟨other, hother, hseq', hdigest'⟩
    · obtain rfl := List.mem_singleton.1 hother
      exact ⟨told, htold, hseq.trans hseq', hdigest.trans hdigest'⟩

theorem Holds.take (h : Holds delivered observer)
    (hnext : ∀ told ∈ delivered, told.seq < envelope.seq) :
    Holds (delivered ++ [envelope]) (observer.take envelope (Sha256.digest envelope.bytes)) := by
  have hfresh : ¬ (firsts delivered).any (·.seq = envelope.seq) = true := by
    rw [any_firsts]
    intro hany
    obtain ⟨told, htold, hseq⟩ := List.any_eq_true.1 hany
    exact absurd (of_decide_eq_true hseq) (hnext told htold).ne
  have hsnoc : firsts (delivered ++ [envelope]) = firsts delivered ++ [envelope] := by
    rw [firsts_snoc, if_neg hfresh]
  refine ⟨fun seq digest => ?_, ?_, ?_⟩
  · show (observer.eventHashes.set envelope.seq _).get? seq = some digest ↔ _
    rw [Dict.get?_set]
    split
    · next hseq =>
        constructor
        · intro hdigest
          exact ⟨envelope, List.mem_append_right _ (List.mem_singleton_self _), hseq.symm,
            Option.some.inj hdigest⟩
        · rintro ⟨other, hother, hseq', hdigest⟩
          rcases List.mem_append.1 hother with hother | hother
          · exact absurd (hseq'.trans hseq) (hnext other hother).ne
          · rw [List.mem_singleton.1 hother] at hdigest
            rw [hdigest]
    · next hseq =>
        rw [h.hashes]
        constructor
        · rintro ⟨other, hother, hfacts⟩
          exact ⟨other, List.mem_append_left _ hother, hfacts⟩
        · rintro ⟨other, hother, hseq', hdigest⟩
          rcases List.mem_append.1 hother with hother | hother
          · exact ⟨other, hother, hseq', hdigest⟩
          · rw [List.mem_singleton.1 hother] at hseq'
            exact absurd hseq'.symm hseq
  · show observer.items ++ _ = numbered _
    rw [hsnoc, numbered, List.flatMap_append, h.items_eq, List.flatMap_singleton]
    rfl
  · rw [hsnoc, List.map_append, List.map_singleton]
    refine List.pairwise_append.2 ⟨h.increasing, List.pairwise_singleton _ _, ?_⟩
    intro seq hseq last hlast
    obtain ⟨told, htold, rfl⟩ := List.mem_map.1 hseq
    rw [List.mem_singleton.1 hlast]
    exact hnext told (mem_firsts htold)

end Digest

end History

end NamiSync
