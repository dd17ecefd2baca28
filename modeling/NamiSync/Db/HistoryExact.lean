/-
# `Db.HistoryExact` — a stored account is that of the run

Any calls on one observer, and any other observers at the same store, in any
order.  What the observer holds is determined by the events it has taken; a
row of the store by the payload behind its hash.  So where no two hashed
texts collide, a finalize that returns has stored these events, whichever
attempt it was that committed.

## What is proved

    history_exact : after any calls on one observer, if the hashed texts do
      not collide and the details have no lone surrogates,
      for each result a finalize has returned for, the run read back under
      the token is of the events delivered, the first delivery of each
      number, in order, and of that result;
      an event delivered once more is taken if it is the same one and refused
      otherwise; and
      another attempt returns if its result is the same and raises otherwise

A commit whose answer is lost is among the calls: the transaction has taken
effect, the observer does not know, and the next attempt finds its own report
under the token.

## What it is not

A finalize that never returns proves nothing about the store, and an observer
that is closed before its finalize leaves nothing.

## The argument

`Sound` keeps two things together: what the observer holds is a function of
the events it has taken (`Holds`), and every run of the store was made of a
report whose payload is among the texts hashed (`Kept`).  A hash found in the
store then says which report it is of, since no two hashed texts collide.
-/
import NamiSync.Db.HistoryCalls
import NamiSync.Workflows.Commitment

namespace NamiSync

namespace History

/-- An envelope, up to what is hashed of its detail. -/
def Envelope.normal (envelope : Envelope Detail) : Envelope NormalJson := envelope.map Detail.normal

def OperationResult.normal (result : OperationResult Detail) : OperationResult NormalJson :=
  result.map Detail.normal

/-- The details of an event have no lone surrogates. -/
def Envelope.Clean (envelope : Envelope Detail) : Prop :=
  ∀ item ∈ envelope.body.item, item.detail.Clean

/-! ## Runs

A session's observer, redelivered events, repeated attempts to finalize, and
commits whose report is lost, in any order. -/

inductive Call
  | deliver (envelope : Envelope Detail)
  /-- An attempt, with the clock and what SQLite answers. -/
  | finalize (result : OperationResult Detail) (now : UtcTime) (rounds : List WriterRound)
  | close
  /-- Another observer at the same store. -/
  | other (observer : Observer) (result : OperationResult Detail) (now : UtcTime)
      (rounds : List WriterRound)

/-- An observer and its store, with a record of the calls. -/
structure Watch where
  observer : Observer
  store : Store
  /-- The envelopes that were taken, repetitions included. -/
  delivered : List (Envelope Detail) := []
  /-- The results that a finalize returned for. -/
  succeeded : List (OperationResult Detail) := []
  /-- The texts that were hashed. -/
  hashed : List (List UInt8) := []

def Watch.start (record : Session) (context : Context) : Watch where
  observer := observe record context
  store := .empty

section Digest

variable [Sha256]

namespace Watch

def deliver (watch : Watch) (envelope : Envelope Detail) : Except HistoryError Unit × Watch :=
  match watch.observer.onEvent envelope with
  | .error error => (.error error, { watch with hashed := envelope.bytes :: watch.hashed })
  | .ok observer =>
      (.ok (),
        { watch with
          observer := observer
          delivered := watch.delivered ++ [envelope]
          hashed := envelope.bytes :: watch.hashed })

def finalize (watch : Watch) (result : OperationResult Detail) (now : UtcTime)
    (rounds : List WriterRound) : Except HistoryError Unit × Watch :=
  let hashed := (watch.observer.report result).payload.canonicalBytes :: watch.hashed
  match watch.observer.finalize result now rounds watch.store with
  | (.error error, observer, store) =>
      (.error error, { watch with observer := observer, store := store, hashed := hashed })
  | (.ok (), observer, store) =>
      (.ok (),
        { watch with
          observer := observer
          store := store
          succeeded := watch.succeeded ++ [result]
          hashed := hashed })

def call (watch : Watch) : Call → Except HistoryError Unit × Watch
  | .deliver envelope => watch.deliver envelope
  | .finalize result now rounds => watch.finalize result now rounds
  | .close => (.ok (), { watch with observer := watch.observer.close })
  | .other observer result now rounds =>
      let ended := observer.finalize result now rounds watch.store
      (ended.1,
        { watch with
          store := ended.2.2
          hashed := (observer.report result).payload.canonicalBytes :: watch.hashed })

/-- The calls one after the other, whatever each of them raises. -/
def run (watch : Watch) (calls : List Call) : Watch :=
  calls.foldl (fun watch call => (watch.call call).2) watch

end Watch

/-! ## The invariant

What the observer has taken is what was accepted, and the store has what an
attempt with these events has made. -/

/-- A run with this token and this hash is stored. -/
def Stored (token : Str) (hash : List UInt8) (store : Store) : Prop :=
  ∃ run ∈ store.runs, run.runToken = token ∧ run.payloadHash = hash

/-- The observer is done with the result. -/
structure Done (watch : Watch) (result : OperationResult Detail) : Prop where
  finalized : watch.observer.finalized = true
  hash_eq : watch.observer.finalPayloadHash = some (watch.observer.report result).hash
  bytes_mem : (watch.observer.report result).payload.canonicalBytes ∈ watch.hashed

/-- What holds of a watch at any time. -/
structure Sound (context : Context) (watch : Watch) : Prop where
  context_eq : watch.observer.context = context
  holds : Holds watch.delivered watch.observer
  kept : Kept watch.hashed watch.store
  bytes_mem : ∀ envelope ∈ watch.delivered, envelope.bytes ∈ watch.hashed
  done : ∀ result ∈ watch.succeeded, Done watch result
  stored : ∀ hash, watch.observer.finalPayloadHash = some hash →
    Stored context.runToken hash watch.store

variable {context : Context} {watch : Watch} {hashed hashed' : List (List UInt8)}
  {store later : Store}

omit [Sha256] in
theorem Stored.mono {token : Str} {hash : List UInt8} (h : Stored token hash store)
    (hruns : store.runs ⊆ later.runs) : Stored token hash later := by
  obtain ⟨run, hrun, hfacts⟩ := h
  exact ⟨run, hruns hrun, hfacts⟩

omit [Sha256] in
/-- A token has one run. -/
theorem Stored.unique {token : Str} {hash hash' : List UInt8} (h : Stored token hash store)
    (h' : Stored token hash' store) : hash = hash' := by
  obtain ⟨run, hrun, htoken, rfl⟩ := h
  obtain ⟨other, hother, htoken', rfl⟩ := h'
  rw [List.inj_on_of_nodup_map store.tokens_nodup hrun hother (htoken.trans htoken'.symm)]

theorem Kept.mono (h : Kept hashed store) (hmore : hashed ⊆ hashed') : Kept hashed' store := by
  intro run hrun
  obtain ⟨report, endedAt, hmade, hbytes⟩ := h run hrun
  exact ⟨report, endedAt, hmade, hmore hbytes⟩

theorem holds_start (record : Session) (context : Context) : Holds [] (observe record context) where
  hashes seq digest := by
    constructor
    · intro h
      cases h
    · rintro ⟨envelope, h, -⟩
      exact absurd h List.not_mem_nil
  items_eq := rfl
  increasing := List.Pairwise.nil

theorem sound_start (record : Session) (context : Context) :
    Sound context (Watch.start record context) where
  context_eq := rfl
  holds := holds_start record context
  kept _ h := absurd h List.not_mem_nil
  bytes_mem _ h := absurd h List.not_mem_nil
  done _ h := absurd h List.not_mem_nil
  stored hash h := by cases h

/-- More runs and more hashed texts change nothing. -/
theorem Sound.mono (h : Sound context watch) (hkept : Kept hashed later)
    (hruns : watch.store.runs ⊆ later.runs) (hmore : watch.hashed ⊆ hashed) :
    Sound context { watch with store := later, hashed := hashed } where
  context_eq := h.context_eq
  holds := h.holds
  kept := hkept
  bytes_mem envelope henvelope := hmore (h.bytes_mem envelope henvelope)
  done result hresult :=
    let hdone := h.done result hresult
    ⟨hdone.finalized, hdone.hash_eq, hmore hdone.bytes_mem⟩
  stored hash hhash := (h.stored hash hhash).mono hruns

/-- An observer that is open is done with nothing. -/
theorem Sound.succeeded_eq_nil (h : Sound context watch)
    (hopen : watch.observer.finalized = false) : watch.succeeded = [] := by
  refine List.eq_nil_iff_forall_not_mem.2 fun result hresult => ?_
  have hfinalized := (h.done result hresult).finalized
  rw [hopen] at hfinalized
  cases hfinalized

theorem Sound.deliver (h : Sound context watch) (envelope : Envelope Detail) :
    Sound context (watch.deliver envelope).2 := by
  have hmore : watch.hashed ⊆ envelope.bytes :: watch.hashed := List.subset_cons_self _ _
  unfold Watch.deliver
  split
  · exact h.mono (h.kept.mono hmore) (List.Subset.refl _) hmore
  · next observer heq =>
      have hnone := h.succeeded_eq_nil (Observer.open_of_ok heq).not_finalized
      have hdone : ∀ after, ∀ result ∈ watch.succeeded, Done after result := by
        rw [hnone]
        exact fun _ _ h => absurd h List.not_mem_nil
      have htold : ∀ told ∈ watch.delivered ++ [envelope],
          told.bytes ∈ envelope.bytes :: watch.hashed := by
        intro told htold
        rcases List.mem_append.1 htold with htold | htold
        · exact hmore (h.bytes_mem told htold)
        · rw [List.mem_singleton.1 htold]
          exact List.mem_cons_self
      rcases h.holds.onEvent heq with ⟨rfl, hagain⟩ | ⟨rfl, hnext⟩
      · exact ⟨h.context_eq, h.holds.again hagain, h.kept.mono hmore, htold, hdone _, h.stored⟩
      · exact ⟨h.context_eq, h.holds.take hnext, h.kept.mono hmore, htold, hdone _, h.stored⟩

theorem Sound.finalize (h : Sound context watch) (result : OperationResult Detail) (now : UtcTime)
    (rounds : List WriterRound) : Sound context (watch.finalize result now rounds).2 := by
  have hmore :
      watch.hashed ⊆ (watch.observer.report result).payload.canonicalBytes :: watch.hashed :=
    List.subset_cons_self _ _
  obtain ⟨hends, hkept, hruns⟩ := watch.observer.finalize_spec result now rounds
    (h.kept.mono hmore) List.mem_cons_self
  unfold Watch.finalize
  generalize watch.observer.finalize result now rounds watch.store = ended at hends hkept hruns ⊢
  have hsound := h.mono hkept hruns hmore
  cases hends with
  | raised error _ => exact hsound
  | again hfinalized hhash =>
      refine { hsound with done := fun prior hprior => ?_ }
      rcases List.mem_append.1 hprior with hprior | hprior
      · exact ⟨(hsound.done prior hprior).finalized, (hsound.done prior hprior).hash_eq,
          (hsound.done prior hprior).bytes_mem⟩
      · obtain rfl := List.mem_singleton.1 hprior
        exact ⟨hfinalized, hhash, List.mem_cons_self⟩
  | done hopen hfiled =>
      refine
        { context_eq := h.context_eq
          holds := ⟨h.holds.hashes, h.holds.items_eq, h.holds.increasing⟩
          kept := hkept
          bytes_mem := hsound.bytes_mem
          done := fun prior hprior => ?_
          stored := fun hash hhash => ?_ }
      · rw [h.succeeded_eq_nil hopen] at hprior
        obtain rfl := List.mem_singleton.1 hprior
        exact ⟨rfl, rfl, List.mem_cons_self⟩
      · obtain ⟨run, hrun, htoken, hstored⟩ := hfiled
        exact ⟨run, hrun, htoken.trans (congrArg Context.runToken h.context_eq),
          hstored.trans (Option.some.inj hhash)⟩

theorem Sound.call (h : Sound context watch) (call : Call) : Sound context (watch.call call).2 := by
  cases call with
  | deliver envelope => exact h.deliver envelope
  | finalize result now rounds => exact h.finalize result now rounds
  | close =>
      exact
        { context_eq := h.context_eq
          holds := ⟨h.holds.hashes, h.holds.items_eq, h.holds.increasing⟩
          kept := h.kept
          bytes_mem := h.bytes_mem
          done := fun result hresult =>
            let hdone := h.done result hresult
            ⟨hdone.finalized, hdone.hash_eq, hdone.bytes_mem⟩
          stored := h.stored }
  | other observer result now rounds =>
      obtain ⟨-, hkept, hruns⟩ := observer.finalize_spec result now rounds
        (h.kept.mono (List.subset_cons_self (observer.report result).payload.canonicalBytes _))
        List.mem_cons_self
      exact h.mono hkept hruns (List.subset_cons_self _ _)

theorem sound_run (record : Session) (context : Context) (calls : List Call) :
    Sound context ((Watch.start record context).run calls) := by
  induction calls using List.reverseRecOn with
  | nil => exact sound_start record context
  | append_singleton calls call ih =>
      rw [Watch.run, List.foldl_append]
      exact ih.call call

/-! ## The account

The statement, as a relation between what was delivered and attempted and what
the repository gives back. -/

omit [Sha256] in
/-- The operation of an item, as it is read back. -/
def recorded (order : Nat) (item : Nat × ItemOutcome Detail) : OperationSnapshot where
  itemOrder := order
  eventSeq := item.1
  itemId := item.2.itemId
  kind := item.2.kind
  path := item.2.path
  outcome := item.2.outcome
  reason := item.2.reason
  detail := item.2.detail.normal.value

/-- The snapshot is of these events and of this result. -/
structure Accounts (snapshot : RunSnapshot) (delivered : List (Envelope Detail))
    (result : OperationResult Detail) : Prop where
  operations_eq : snapshot.operations = (numbered (firsts delivered)).mapIdx recorded
  increasing : (snapshot.operations.map OperationSnapshot.eventSeq).Pairwise (· < ·)
  /-- Every delivery is there, a repetition too. -/
  all_recorded : ∀ envelope ∈ delivered, ∀ item ∈ envelope.body.item,
    ∃ order, recorded order (envelope.seq, item) ∈ snapshot.operations
  status_eq : snapshot.filesystemStatus = result.status
  recording_eq : snapshot.recording = result.recording
  disposition_eq : snapshot.disposition = result.disposition.value
  canceled_eq : snapshot.canceled = result.canceled
  bytesDone_eq : snapshot.bytesDone = result.bytesDone
  bytesTotal_eq : snapshot.bytesTotal = result.bytesTotal
  errorType_eq : snapshot.errorType = result.error.map FailureDetail.typeName
  errorMessage_eq : snapshot.errorMessage = result.error.map FailureDetail.message

/-- The answer to an event. -/
structure Delivery (watch : Watch) (envelope : Envelope Detail) : Prop where
  store_eq : (watch.deliver envelope).2.store = watch.store
  raised : ∀ error, (watch.deliver envelope).1 = .error error →
    (watch.deliver envelope).2.observer = watch.observer
  again : watch.observer.Open envelope →
    ∀ told ∈ watch.delivered, told.normal = envelope.normal →
      (watch.deliver envelope).1 = .ok () ∧
        (watch.deliver envelope).2.observer = watch.observer
  next : watch.observer.Open envelope → (∀ told ∈ watch.delivered, told.seq < envelope.seq) →
    (watch.deliver envelope).1 = .ok () ∧
      (watch.deliver envelope).2.observer.items =
        watch.observer.items ++ numbered [envelope]
  conflicting : ∀ told ∈ watch.delivered, told.seq = envelope.seq → told.normal ≠ envelope.normal →
    ∃ error, (watch.deliver envelope).1 = .error error
  late : (∀ told ∈ watch.delivered, told.seq ≠ envelope.seq) →
    ∀ told ∈ watch.delivered, envelope.seq < told.seq →
      ∃ error, (watch.deliver envelope).1 = .error error

/-- The answer to an attempt, after others. -/
structure Finalization (watch : Watch) (result : OperationResult Detail) (now : UtcTime)
    (rounds : List WriterRound) : Prop where
  again : watch.observer.closed = false →
    ∀ prior ∈ watch.succeeded, prior.normal = result.normal →
      (watch.finalize result now rounds).1 = .ok () ∧
        (watch.finalize result now rounds).2.observer = watch.observer ∧
        (watch.finalize result now rounds).2.store = watch.store
  different : ∀ prior ∈ watch.succeeded, prior.normal ≠ result.normal →
    (∃ error, (watch.finalize result now rounds).1 = .error error) ∧
      (watch.finalize result now rounds).2.observer = watch.observer ∧
      (watch.finalize result now rounds).2.store = watch.store
  /-- An attempt has committed, whether or not it was told so. -/
  committed : ∀ prior, (watch.observer.report prior).payload.canonicalBytes ∈ watch.hashed →
    Filed (watch.observer.report prior) watch.store →
      (watch.finalize result now rounds).2.store = watch.store ∧
        (prior.normal ≠ result.normal →
          ∃ error, (watch.finalize result now rounds).1 = .error error)

/-! ## Events are told apart

By the hash of the canonical bytes, which say the event up to the normal form of
its details. -/

omit [Sha256] in
theorem normal_of_bytes {envelope told : Envelope Detail} (h : told.bytes = envelope.bytes) :
    told.normal = envelope.normal :=
  faithful_envelope.of_canonicalBytes h

omit [Sha256] in
theorem bytes_of_normal {envelope told : Envelope Detail} (h : told.normal = envelope.normal) :
    told.bytes = envelope.bytes :=
  congrArg (fun envelope => envelope.primitive.canonicalBytes) h

variable {envelope : Envelope Detail} {result : OperationResult Detail} {now : UtcTime}
  {rounds : List WriterRound}

theorem deliver_raised {error : HistoryError} (h : watch.observer.onEvent envelope = .error error) :
    watch.deliver envelope =
      (.error error, { watch with hashed := envelope.bytes :: watch.hashed }) := by
  rw [Watch.deliver, h]

theorem deliver_ok {observer : Observer} (h : watch.observer.onEvent envelope = .ok observer) :
    watch.deliver envelope =
      (.ok (),
        { watch with
          observer := observer
          delivered := watch.delivered ++ [envelope]
          hashed := envelope.bytes :: watch.hashed }) := by
  rw [Watch.deliver, h]

/-- An event that cannot be taken is refused. -/
theorem deliver_refused
    (h : ∀ observer, watch.observer.onEvent envelope ≠ .ok observer) :
    ∃ error, (watch.deliver envelope).1 = .error error := by
  cases hanswer : watch.observer.onEvent envelope with
  | ok observer => exact absurd hanswer (h observer)
  | error error => exact ⟨error, by rw [deliver_raised hanswer]⟩

/-- The event is a repetition. -/
theorem onEvent_again (h : Holds watch.delivered watch.observer)
    (hopen : watch.observer.Open envelope) {told : Envelope Detail} (htold : told ∈ watch.delivered)
    (hnormal : told.normal = envelope.normal) :
    watch.observer.onEvent envelope = .ok watch.observer := by
  have hseq : told.seq = envelope.seq := congrArg (fun envelope => envelope.seq) hnormal
  rw [Observer.onEvent_open hopen, (h.hashes envelope.seq _).2 ⟨told, htold, hseq, rfl⟩,
    bytes_of_normal hnormal]
  exact if_neg (not_not.2 rfl)

/-- The event is later than all others. -/
theorem onEvent_next (h : Holds watch.delivered watch.observer)
    (hopen : watch.observer.Open envelope)
    (hnext : ∀ told ∈ watch.delivered, told.seq < envelope.seq) :
    watch.observer.onEvent envelope =
      .ok (watch.observer.take envelope (Sha256.digest envelope.bytes)) := by
  have hnone := h.get?_eq_none.2 fun told htold => (hnext told htold).ne
  have hlast : ¬ watch.observer.eventHashes.keys.any (envelope.seq < ·) = true := by
    intro hany
    obtain ⟨told, htold, hlt⟩ := h.any_keys.1 hany
    exact absurd hlt (hnext told htold).not_gt
  rw [Observer.onEvent_open hopen, hnone]
  exact if_neg hlast

theorem delivery (h : Holds watch.delivered watch.observer)
    (hhash : ∀ told ∈ watch.delivered, NoCollision told.bytes envelope.bytes) :
    Delivery watch envelope where
  store_eq := by
    unfold Watch.deliver
    split <;> rfl
  raised error herror := by
    cases hanswer : watch.observer.onEvent envelope with
    | ok observer =>
        rw [deliver_ok hanswer] at herror
        cases herror
    | error error => rw [deliver_raised hanswer]
  again hopen told htold hnormal := by
    rw [deliver_ok (onEvent_again h hopen htold hnormal)]
    exact ⟨rfl, rfl⟩
  next hopen hnext := by
    rw [deliver_ok (onEvent_next h hopen hnext)]
    refine ⟨rfl, ?_⟩
    rw [numbered, List.flatMap_singleton]
    rfl
  conflicting told htold hseq hnormal := by
    refine deliver_refused fun observer hok => ?_
    rcases h.onEvent hok with ⟨-, other, hother, hseq', hdigest⟩ | ⟨-, hnext⟩
    · have htwice := (h.hashes told.seq _).2 ⟨told, htold, rfl, rfl⟩
      rw [hseq, ← hseq', (h.hashes other.seq _).2 ⟨other, hother, rfl, rfl⟩] at htwice
      have hsame := (Option.some.inj htwice).symm.trans hdigest
      exact hnormal (normal_of_bytes (hhash told htold hsame))
    · exact absurd hseq (hnext told htold).ne
  late hfresh told htold hlt := by
    refine deliver_refused fun observer hok => ?_
    rcases h.onEvent hok with ⟨-, other, hother, hseq, -⟩ | ⟨-, hnext⟩
    · exact hfresh other hother hseq
    · exact absurd hlt (hnext told htold).not_gt

/-! ## Attempts are told apart

By the hash of the report. -/

omit [Sha256] in
theorem report_of_normal {observer : Observer} {prior : OperationResult Detail}
    (h : prior.normal = result.normal) : observer.report prior = observer.report result :=
  congrArg (fun normal => { observer.report result with result := normal }) h

/-- The same hash is the same report. -/
theorem normal_of_hash {observer : Observer} {prior : OperationResult Detail}
    (hhash : NoCollision (observer.report prior).payload.canonicalBytes
      (observer.report result).payload.canonicalBytes)
    (h : (observer.report prior).hash = (observer.report result).hash) :
    prior.normal = result.normal :=
  congrArg Report.result (faithful_report.of_canonicalBytes (hhash h))

theorem finalize_eq :
    (watch.finalize result now rounds).1 =
        (watch.observer.finalize result now rounds watch.store).1 ∧
      (watch.finalize result now rounds).2.observer =
        (watch.observer.finalize result now rounds watch.store).2.1 ∧
      (watch.finalize result now rounds).2.store =
        (watch.observer.finalize result now rounds watch.store).2.2 := by
  unfold Watch.finalize
  split
  · next heq =>
      exact ⟨(congrArg Prod.fst heq).symm, (congrArg (·.2.1) heq).symm, (congrArg (·.2.2) heq).symm⟩
  · next heq =>
      exact ⟨(congrArg Prod.fst heq).symm, (congrArg (·.2.1) heq).symm, (congrArg (·.2.2) heq).symm⟩

/-- The transaction of a report whose token is taken. -/
theorem apply_filed {report prior : Report} (htoken : report.runToken = prior.runToken)
    (h : Filed prior store) :
    report.apply now store =
      if prior.hash ≠ report.hash then .error (.tokenConflict "history run token payload changed")
      else .ok store := by
  obtain ⟨run, hrun, hrunToken, hstored⟩ := h
  have hfind := find_run hrun
  rw [hrunToken, ← htoken] at hfind
  unfold Report.apply
  rw [hfind, ← hstored]

/-- An attempt after one that has committed. -/
theorem finalize_filed {observer : Observer} {prior : OperationResult Detail}
    (result : OperationResult Detail) (now : UtcTime) (rounds : List WriterRound)
    (hfiled : Filed (observer.report prior) store)
    (hfinal : ∀ hash, observer.finalPayloadHash = some hash → (observer.report prior).hash = hash) :
    (observer.finalize result now rounds store).2.2 = store ∧
      ((observer.report prior).hash ≠ (observer.report result).hash →
        ∃ error, (observer.finalize result now rounds store).1 = .error error) := by
  have happly :=
    @apply_filed _ store now (observer.report result) (observer.report prior) rfl hfiled
  by_cases hclosed : observer.closed = true
  · unfold Observer.finalize
    rw [if_pos hclosed]
    exact ⟨rfl, fun _ => ⟨_, rfl⟩⟩
  by_cases hfinalized : observer.finalized = true
  · rw [Observer.finalize_again _ _ _ _ (Bool.not_eq_true _ ▸ hclosed) hfinalized]
    split
    · exact ⟨rfl, fun _ => ⟨_, rfl⟩⟩
    · next hhash => exact ⟨rfl, fun hne => absurd (hfinal _ (not_not.1 hhash).symm) hne⟩
  unfold Observer.finalize
  rw [if_neg hclosed, if_neg hfinalized]
  split
  · exact ⟨rfl, fun _ => ⟨_, rfl⟩⟩
  by_cases hhash : (observer.report prior).hash = (observer.report result).hash
  · rw [if_neg (not_not.2 hhash)] at happly
    have hstore : (transact ((observer.report result).apply now) (.recording "sqlite3.Error") rounds
        store).2 = store :=
      (transact_spec (I := fun later => later = store) (Q := fun _ => True)
        (fun before after hbefore hafter => by
          rw [hbefore, happly] at hafter
          exact ⟨(Except.ok.inj hafter).symm, trivial⟩) rounds rfl).1
    refine ⟨?_, fun hne => absurd hhash hne⟩
    split
    · next heq => rwa [heq] at hstore
    · next heq => rwa [heq] at hstore
  · rw [if_pos hhash] at happly
    obtain ⟨error, hraised⟩ : ∃ error, transact ((observer.report result).apply now)
        (.recording "sqlite3.Error") rounds store = (.error error, store) :=
      transact_refused happly rounds
    rw [hraised]
    exact ⟨rfl, fun _ => ⟨error, rfl⟩⟩

theorem finalization (h : Sound context watch)
    (hhash : ∀ prior : OperationResult Detail,
      (watch.observer.report prior).payload.canonicalBytes ∈ watch.hashed →
        NoCollision (watch.observer.report prior).payload.canonicalBytes
          (watch.observer.report result).payload.canonicalBytes) :
    Finalization watch result now rounds where
  again hopen prior hprior hnormal := by
    obtain ⟨hanswer, hobserver, hstore⟩ := @finalize_eq _ watch result now rounds
    have hdone := h.done prior hprior
    have hagain := Observer.finalize_again result now rounds watch.store hopen hdone.finalized
    rw [hdone.hash_eq, report_of_normal hnormal, if_neg (not_not.2 rfl)] at hagain
    rw [hanswer, hobserver, hstore, hagain]
    exact ⟨rfl, rfl, rfl⟩
  different prior hprior hnormal := by
    obtain ⟨hanswer, hobserver, hstore⟩ := @finalize_eq _ watch result now rounds
    have hdone := h.done prior hprior
    rw [hanswer, hobserver, hstore]
    by_cases hclosed : watch.observer.closed = true
    · unfold Observer.finalize
      rw [if_pos hclosed]
      exact ⟨⟨_, rfl⟩, rfl, rfl⟩
    · rw [Observer.finalize_again _ _ _ _ (Bool.not_eq_true _ ▸ hclosed) hdone.finalized,
        hdone.hash_eq, if_pos fun heq => hnormal
          (normal_of_hash (hhash prior hdone.bytes_mem) (Option.some.inj heq).symm)]
      exact ⟨⟨_, rfl⟩, rfl, rfl⟩
  committed prior hbytes hfiled := by
    obtain ⟨hanswer, -, hstore⟩ := @finalize_eq _ watch result now rounds
    have hfinal : ∀ hash, watch.observer.finalPayloadHash = some hash →
        (watch.observer.report prior).hash = hash := by
      intro hash hsome
      have hstored := h.stored hash hsome
      rw [← h.context_eq] at hstored
      exact Stored.unique hfiled hstored
    obtain ⟨hsame, hraised⟩ := finalize_filed result now rounds hfiled hfinal
    rw [hanswer, hstore]
    exact ⟨hsame, fun hnormal => hraised fun heq =>
      hnormal (normal_of_hash (hhash prior hbytes) heq)⟩

/-! ## The account of a run

The rows that are read back, traced through the store to the first accepted
event of each position. -/

/-- The first delivery of a number is like any other. -/
theorem exists_first (h : Holds watch.delivered watch.observer)
    (hhash : ∀ told ∈ watch.delivered, ∀ other ∈ watch.delivered,
      NoCollision told.bytes other.bytes)
    (hmem : envelope ∈ watch.delivered) :
    ∃ first ∈ firsts watch.delivered, first.normal = envelope.normal := by
  have hany : (firsts watch.delivered).any (·.seq = envelope.seq) = true := by
    rw [any_firsts]
    exact List.any_eq_true.2 ⟨envelope, hmem, decide_eq_true rfl⟩
  obtain ⟨first, hfirst, hseq⟩ := List.any_eq_true.1 hany
  have htold := mem_firsts hfirst
  have hdigest := (h.hashes first.seq _).2 ⟨first, htold, rfl, rfl⟩
  rw [of_decide_eq_true hseq, (h.hashes envelope.seq _).2 ⟨envelope, hmem, rfl, rfl⟩] at hdigest
  exact ⟨first, hfirst,
    normal_of_bytes (hhash first htold envelope hmem (Option.some.inj hdigest).symm)⟩

omit [Sha256] in
theorem recorded_of_normal {item other : ItemOutcome Detail}
    (h : item.map Detail.normal = other.map Detail.normal) (order seq : Nat) :
    recorded order (seq, item) = recorded order (seq, other) := by
  have hdetail : item.detail.normal = other.detail.normal := congrArg ItemOutcome.detail h
  obtain ⟨hid, hkind, hpath, houtcome, hreason, -⟩ := ItemOutcome.mk.inj h
  unfold recorded
  dsimp only
  rw [hid, hkind, hpath, houtcome, hreason, hdetail]

omit [Sha256] in
theorem item_map (body : EventBody Detail) :
    (body.map Detail.normal).item = body.item.map (ItemOutcome.map Detail.normal) := by
  cases body <;> rfl

omit [Sha256] in
/-- An item that is delivered is recorded under the number of its event. -/
theorem exists_recorded {first : Envelope Detail} {delivered : List (Envelope Detail)}
    (hfirst : first ∈ firsts delivered) (hnormal : first.normal = envelope.normal)
    {item : ItemOutcome Detail} (hitem : item ∈ envelope.body.item) :
    ∃ order, recorded order (envelope.seq, item) ∈
      (numbered (firsts delivered)).mapIdx recorded := by
  have hseq : first.seq = envelope.seq := congrArg (fun envelope => envelope.seq) hnormal
  have hbody : (first.body.map Detail.normal).item = (envelope.body.map Detail.normal).item :=
    congrArg (fun envelope => envelope.body.item) hnormal
  rw [item_map, item_map, Option.mem_def.1 hitem] at hbody
  obtain ⟨other, hother, hsame⟩ := Option.map_eq_some_iff.1 hbody
  have hmem : (envelope.seq, other) ∈ numbered (firsts delivered) := by
    refine List.mem_flatMap.2 ⟨first, hfirst, ?_⟩
    rw [hother, hseq]
    exact List.mem_singleton_self _
  obtain ⟨order, horder, heq⟩ := List.mem_iff_getElem.1 hmem
  refine ⟨order, ?_⟩
  rw [← recorded_of_normal hsame, ← heq]
  exact List.mem_iff_getElem.2
    ⟨order, by rwa [List.length_mapIdx], List.getElem_mapIdx⟩

omit [Sha256] in
/-- The numbers of the items are among those of the events, in their order. -/
theorem numbered_increasing {envelopes : List (Envelope Detail)}
    (h : (envelopes.map Envelope.seq).Pairwise (· < ·)) :
    ((numbered envelopes).map Prod.fst).Pairwise (· < ·) := by
  refine h.sublist ?_
  induction envelopes with
  | nil => exact List.Sublist.refl _
  | cons envelope envelopes ih =>
      have hrest := ih (List.pairwise_cons.1 h).2
      rw [numbered, List.flatMap_cons, List.map_append, List.map_cons]
      cases envelope.body.item with
      | none => exact hrest.cons _
      | some item => exact hrest.cons_cons _

omit [Sha256] in
theorem map_recorded (f : OperationSnapshot → Nat)
    (hf : ∀ order item, f (recorded order item) = item.1)
    (items : List (Nat × ItemOutcome Detail)) :
    (items.mapIdx recorded).map f = items.map Prod.fst := by
  rw [map_mapIdx]
  refine List.ext_getElem (by rw [List.length_mapIdx, List.length_map]) fun i hi hi' => ?_
  rw [List.getElem_mapIdx, List.getElem_map, hf]

/-- What is read back is the report of the observer. -/
theorem Sound.get (h : Sound context watch)
    (hhash : ∀ bytes ∈ watch.hashed, ∀ other ∈ watch.hashed, NoCollision bytes other)
    (hclean : ∀ envelope ∈ watch.delivered, envelope.Clean)
    (hresult : result ∈ watch.succeeded) :
    ∃ endedAt, watch.store.get context.runToken =
      some ((watch.observer.report result).snapshot endedAt) := by
  have hdone := h.done result hresult
  obtain ⟨run, hrun, htoken, hstored⟩ := h.stored _ hdone.hash_eq
  obtain ⟨report, endedAt, hmade, hbytes⟩ := h.kept run hrun
  have hsame : report.hash = (watch.observer.report result).hash := by
    rw [← hstored, hmade.row_eq]
    rfl
  obtain rfl := faithful_report.of_canonicalBytes (hhash _ hbytes _ hdone.bytes_mem hsame)
  have hdetails : ∀ item ∈ (watch.observer.report result).items,
      Json.loads item.2.detail.text = some item.2.detail.value := by
    intro item hitem
    obtain ⟨taken, htaken, rfl⟩ := List.mem_map.1 hitem
    rw [h.holds.items_eq] at htaken
    obtain ⟨first, hfirst, htaken⟩ := List.mem_flatMap.1 htaken
    obtain ⟨outcome, houtcome, rfl⟩ := List.mem_map.1 htaken
    exact loads_text (hclean first (mem_firsts hfirst) outcome (Option.mem_toList.1 houtcome))
  refine ⟨endedAt, ?_⟩
  rw [← h.context_eq]
  exact hmade.get hrun hdetails

/-- The report that is read back tells what was delivered. -/
theorem Sound.accounts (h : Sound context watch)
    (hhash : ∀ bytes ∈ watch.hashed, ∀ other ∈ watch.hashed, NoCollision bytes other)
    (endedAt : UtcTime) :
    Accounts ((watch.observer.report result).snapshot endedAt) watch.delivered result := by
  have hoperations : ((watch.observer.report result).snapshot endedAt).operations =
      (numbered (firsts watch.delivered)).mapIdx recorded := by
    show ((watch.observer.items.map fun item => (item.1, item.2.map Detail.normal)).mapIdx _) = _
    rw [h.holds.items_eq]
    refine List.ext_getElem (by rw [List.length_mapIdx, List.length_map, List.length_mapIdx]) ?_
    intro i hi hi'
    rw [List.getElem_mapIdx, List.getElem_mapIdx, List.getElem_map]
    rfl
  refine
    { operations_eq := hoperations
      increasing := ?_
      all_recorded := fun envelope hmem item hitem => ?_
      status_eq := rfl
      recording_eq := rfl
      disposition_eq := rfl
      canceled_eq := rfl
      bytesDone_eq := rfl
      bytesTotal_eq := rfl
      errorType_eq := rfl
      errorMessage_eq := rfl }
  · rw [hoperations, map_recorded _ fun _ _ => rfl]
    exact numbered_increasing h.holds.increasing
  · obtain ⟨first, hfirst, hnormal⟩ := exists_first h.holds
      (fun told htold other hother =>
        hhash _ (h.bytes_mem told htold) _ (h.bytes_mem other hother)) hmem
    rw [hoperations]
    exact exists_recorded hfirst hnormal hitem

/-- Where no two of the hashed texts collide, an account that was finalized is
that of the events and of the result; a further event or attempt answers as it
should, and what raises changes nothing. -/
theorem history_exact (record : Session) (context : Context) (calls : List Call) (watch : Watch)
    (hrun : (Watch.start record context).run calls = watch)
    (hhash : ∀ bytes ∈ watch.hashed, ∀ other ∈ watch.hashed, NoCollision bytes other)
    (hclean : ∀ envelope ∈ watch.delivered, envelope.Clean) :
    (∀ result ∈ watch.succeeded, ∃ snapshot,
      watch.store.get context.runToken = some snapshot ∧
        Accounts snapshot watch.delivered result) ∧
      (∀ envelope : Envelope Detail, (∀ bytes ∈ watch.hashed, NoCollision bytes envelope.bytes) →
        Delivery watch envelope) ∧
      ∀ (result : OperationResult Detail) (now : UtcTime) (rounds : List WriterRound),
        (∀ bytes ∈ watch.hashed,
          NoCollision bytes (watch.observer.report result).payload.canonicalBytes) →
        Finalization watch result now rounds := by
  have hsound : Sound context watch := hrun ▸ sound_run record context calls
  refine ⟨fun result hresult => ?_, fun envelope hnext => ?_, fun result now rounds hnext => ?_⟩
  · obtain ⟨endedAt, hget⟩ := hsound.get hhash hclean hresult
    exact ⟨_, hget, hsound.accounts hhash endedAt⟩
  · exact delivery hsound.holds fun told htold => hnext _ (hsound.bytes_mem told htold)
  · exact finalization hsound fun prior hprior => hnext _ hprior

end Digest

section Sample

def accountTime (second : Nat) (hsecond : second < 60 := by decide) : UtcTime where
  time :=
    { newYear with
      month := 3
      hour := 9
      minute := 30
      second := second
      month_range := by decide
      day_range := by decide
      time_range := ⟨by decide, by decide, hsecond, by decide⟩ }
  utc := rfl

def accountSession : Session where
  sessionId := str "5e"
  kind := str "sync"
  createdAt := accountTime 0

def accountContext : Context where
  runToken := str "run-7"
  hostKey := str "desk"

def accountItem : ItemOutcome Detail where
  itemId := str "op-1"
  kind := str "copy"
  path := str "a.txt"
  outcome := .succeeded
  reason := none
  detail := [(str "size", .int 3)]

def accountStarted : Envelope Detail where
  sessionId := str "5e"
  seq := 1
  time := accountTime 1
  body := .stateChanged .running

def accountCopied : Envelope Detail where
  sessionId := str "5e"
  seq := 4
  time := accountTime 2
  body := .itemOutcome accountItem

def accountResult : OperationResult Detail where
  status := .completed
  operations := [accountItem]
  bytesDone := 3
  bytesTotal := 3

/-- The copy is delivered twice; the first attempt commits and is told that
it did not. -/
def accountCalls : List Call :=
  [.deliver accountStarted, .deliver accountCopied, .deliver accountCopied,
    .finalize accountResult (accountTime 5) [⟨some .committed, false⟩],
    .finalize accountResult (accountTime 6) [{}]]

def accountReport : Report :=
  ({ observe accountSession accountContext with
      runningAt := some (accountTime 1)
      items := [(4, accountItem)] } : Observer).report accountResult

/-- SHA-256 of the three texts of the sample. -/
local instance accountDigest : Sha256 where
  digest bytes :=
    if bytes = accountStarted.bytes then
      [233, 40, 233, 8, 45, 247, 146, 10, 79, 6, 29, 158, 16, 226, 93, 254, 237, 20,
       157, 117, 54, 112, 98, 153, 244, 11, 175, 16, 62, 29, 0, 40]
    else if bytes = accountCopied.bytes then
      [150, 217, 209, 87, 253, 56, 72, 143, 220, 93, 133, 160, 29, 23, 206, 245, 238,
       97, 189, 121, 15, 65, 201, 153, 92, 45, 129, 166, 110, 146, 173, 182]
    else if bytes = accountReport.payload.canonicalBytes then
      [252, 233, 119, 48, 30, 38, 75, 201, 120, 249, 133, 121, 153, 1, 140, 135, 194,
       47, 77, 224, 21, 33, 102, 78, 102, 54, 77, 112, 155, 99, 80, 86]
    else List.replicate 32 0
  digest_length bytes := by
    split
    · rfl
    · split
      · rfl
      · split <;> rfl

def accountWatch : Watch := (Watch.start accountSession accountContext).run accountCalls

/-- The second attempt finds the run of the first. -/
theorem history_exact_sample :
    accountWatch.store.runs.length = 1 ∧ ∃ result ∈ accountWatch.succeeded,
      ∃ snapshot, accountWatch.store.get (str "run-7") = some snapshot ∧
        Accounts snapshot accountWatch.delivered result := by
  have hhash : ∀ bytes ∈ accountWatch.hashed, ∀ other ∈ accountWatch.hashed,
      NoCollision bytes other := by
    unfold NoCollision
    decide +kernel
  have hclean : ∀ envelope ∈ accountWatch.delivered, envelope.Clean := by
    unfold Envelope.Clean Detail.Clean Unpaired
    decide +kernel
  obtain ⟨result, hresult⟩ : ∃ result, result ∈ accountWatch.succeeded :=
    List.exists_mem_of_length_pos (by decide +kernel)
  obtain ⟨haccounts, -⟩ :=
    history_exact accountSession accountContext accountCalls accountWatch rfl hhash hclean
  exact ⟨by decide +kernel, result, hresult, haccounts result hresult⟩

end Sample

end History

end NamiSync
