/-
# `Workflows.RoundTrip` — a request comes back from its payload

A paused execution is written, and later read, opened and run again.  What
is read back differs from what was written in the order of its sets and of
its status, which neither the fingerprint nor the digest sees, so the same
commitment covers it however often it is paused.

## What is proved

    payload_round_trip : for requests whose strings are `Unpaired`
      an execution request is read back as the same request, with the same
      fingerprint and the same answer of `_commitment_error`;
      so is every snapshot of it that is taken after any number of pauses,
      each resumed from the snapshot before; and
      a plan request is read back as it was

A string is unpaired unless a high surrogate is followed by a low one: those
two would be read as one code point.  A lone surrogate is fine, and
`hostile_round_trip` has one.

## What it is not

Nothing is said about texts that no writer has written.  A reader may accept
those, with other spellings of numbers and other orders of keys.

## The idea

Sets and dictionaries come back in another order, so `Same` is the equality to
prove: up to the order of the volumes, of the selection and of the status.
Then the fingerprint must not see that order.  It is the digest of the sorted
members, each by its own text; `dumps_inj` shows that the text of a volume
tells the volume, so two orders of one set sort to one list
(`payload_volumes`), and the payloads are equal byte by byte.

A pause keeps the plan and the selection and changes the status, so `Kept` is
what one snapshot keeps of the first request, and the chain of pauses is an
induction on `Paused`.
-/
import NamiSync.Workflows.PayloadStrings

namespace NamiSync

open Checked Json Payloads

section Requests

variable [Unicode]

/-! ## What comes back

The request is read back up to the order of its sets, and a run that pauses
writes its request again with what it has done. -/

/-- Equal, where neither a set nor a dictionary has an order. -/
structure ExecutionRequest.Same (request other : ExecutionRequest) : Prop where
  content : request.executionSet.plan.SameContent other.executionSet.plan
  fingerprint : request.executionSet.plan.fingerprint = other.executionSet.plan.fingerprint
  selection : request.executionSet.selection.Perm other.executionSet.selection
  runId : request.executionSet.runId = other.executionSet.runId
  status : ∀ id, request.executionSet.status.get? id = other.executionSet.status.get? id
  commitment : request.executionSet.commitment = other.executionSet.commitment
  startedAt : request.startedAt = other.startedAt

/-- What a request is after it was opened and has run: a start time is
supplied where there is none, and operations settle. -/
structure ExecutionRequest.Ran (opened next : ExecutionRequest) : Prop where
  plan : next.executionSet.plan = opened.executionSet.plan
  selection : next.executionSet.selection = opened.executionSet.selection
  runId : next.executionSet.runId = opened.executionSet.runId
  commitment : next.executionSet.commitment = opened.executionSet.commitment
  startedAt : ∀ time ∈ opened.startedAt, next.startedAt = some time

/-- The requests that a session holds when it is paused: what a request has
become after some pauses, each with a snapshot, and runs between them. -/
inductive ExecutionRequest.Paused (request : ExecutionRequest) : ExecutionRequest → Prop
  | first {next : ExecutionRequest} : request.Ran next → Paused request next
  | again {paused opened next : ExecutionRequest} : Paused request paused →
      decodeExecutionRequest (encodeExecutionRequest paused) = .ok opened → opened.Ran next →
      Paused request next

/-! ## Reading a request

The three parts of a request have their readers in the modules before; what is
left is the status entries, whose keys are the ids of the operations, and the
selection. -/

omit [Unicode] in
theorem payload_read {value : Json} {kind : Str} {item : List (Str × Json)}
    (hproper : Proper Unpaired value) (hitem : mapping value.sorted = .ok item)
    (hversion : Payloads.get "schema_version" item = .int 1)
    (hkind : Payloads.get "kind" item = .string kind) :
    Payloads.payload value.canonicalBytes kind = .ok item := by
  rw [Payloads.payload, loads_canonicalBytes hproper, orValueError, ok_bind, hitem, ok_bind,
    hversion, hkind]
  exact if_pos rfl

theorem planRequest_read {request : PlanRequest}
    (hpolicy : request.options.destinationPolicy = identityDestinationPolicy)
    (hstrings : ∀ text ∈ request.strings, Unpaired text) :
    decodePlanRequest request.payload.canonicalBytes = .ok request := by
  obtain ⟨item, hitem, hread⟩ := @object_read request.payload rfl (of_decide_eq_true rfl)
  obtain ⟨options, hoptions, hoption⟩ := @object_read
    (.object
       [(str "deletion_policy", .string request.options.deletionPolicy.value),
        (str "preservation", request.options.preservation.primitive),
        (str "filters", .array (request.options.filters.patterns.map .string)),
        (str "worker_count", .int request.options.workerCount),
        (str "trash_on_update", .bool request.options.trashOnUpdate),
        (str "propagate_source_casing", .bool request.options.propagateSourceCasing),
        (str "internal_mirror_authorized", .bool request.options.internalMirrorAuthorized)])
    rfl (of_decide_eq_true rfl)
  obtain ⟨preservation, hpreservation, hpreserved⟩ :=
    decodePreservation_read request.options.preservation
  unfold decodePlanRequest
  rw [payload_read (proper_planRequest hstrings) hitem (hread 0 "schema_version" _ rfl).2
      (hread 1 "kind" _ rfl).2, ok_bind, (hread 5 "options" _ rfl).1, ok_bind, hoptions, ok_bind,
    (hoption 1 "preservation" _ rfl).1, ok_bind, hpreservation, ok_bind,
    (hread 2 "request_id" _ rfl).1, ok_bind, textOf_read, ok_bind,
    (hread 3 "source_path" _ rfl).1, ok_bind, textOf_read, ok_bind,
    (hread 4 "target_path" _ rfl).1, ok_bind, textOf_read, ok_bind,
    (hoption 0 "deletion_policy" _ rfl).1, ok_bind, member_read DeletionPolicy.ofValue_value,
    ok_bind, hpreserved, ok_bind, (hoption 2 "filters" _ rfl).1, ok_bind, decodeFilters_read,
    ok_bind, (hoption 3 "worker_count" _ rfl).1, ok_bind, intOf_read, ok_bind,
    (hoption 4 "trash_on_update" _ rfl).1, ok_bind,
    (hoption 5 "propagate_source_casing" _ rfl).1, ok_bind,
    (hoption 6 "internal_mirror_authorized" _ rfl).1, ok_bind, boolOf_read, boolOf_read,
    boolOf_read, dif_pos request.options.workerCount_pos,
    dif_pos request.options.mirror_authorized, ← hpolicy]

omit [Unicode] in
theorem decodeCommitment_read (commitment : Commitment) :
    decodeCommitment commitment.payload.sorted = .ok commitment := by
  obtain ⟨item, hitem, hread⟩ := @object_read commitment.payload rfl (of_decide_eq_true rfl)
  rw [decodeCommitment, hitem, ok_bind, (hread 0 "plan_fingerprint" _ rfl).1, ok_bind, textOf_read,
    ok_bind, (hread 1 "selection_digest" _ rfl).1, ok_bind, textOf_read, ok_bind,
    bytesFromHex_hexText, orValueError, ok_bind, (hread 2 "committed_at" _ rfl).1, ok_bind,
    time_read, ok_bind, Commitment.ofPayload_self]

omit [Unicode] in
theorem statusOf_entries {entries : List (OpId × Outcome)} (h : (entries.map Prod.fst).Nodup) :
    (statusOf entries).entries = entries := by
  rw [statusOf, Dict.entries_foldl_set]
  exact Dict.foldl_assign h

omit [Unicode] in
theorem decodeStatusEntry_read (entry : OpId × Outcome) :
    decodeStatusEntry (entry.1.text, .string entry.2.value) = .ok entry := by
  have hmember : member "Outcome" Outcome.ofValue (.string entry.2.value) = .ok entry.2 :=
    member_read Outcome.ofValue_value entry.2
  unfold decodeStatusEntry
  rw [hmember, ok_bind, OpId.text, fixedId_hexDigits, orValueError, ok_bind]

omit [Unicode] in
/-- The entries of a status come back in some order. -/
theorem status_read (status : Dict OpId Outcome) :
    ∃ raw entries, mapping (Json.object ((sortedBy Prod.fst status.entries).map fun entry =>
        (OpId.text entry.1, .string entry.2.value))).sorted = .ok raw ∧
      raw.mapM decodeStatusEntry = .ok entries ∧ entries.Perm status.entries := by
  have hdecode : (status.entries.map fun entry =>
      (OpId.text entry.1, Json.string entry.2.value)).mapM decodeStatusEntry =
        .ok (status.entries.map id) :=
    mapM_map fun entry _ => decodeStatusEntry_read entry
  rw [List.map_id] at hdecode
  have hraw : (status.entries.map fun entry => (OpId.text entry.1, Json.string entry.2.value)).Perm
      (sortedBy Prod.fst (sortedFields ((sortedBy Prod.fst status.entries).map fun entry =>
        (OpId.text entry.1, .string entry.2.value)))) := by
    refine List.Perm.trans ?_ (sortedBy_perm _ _).symm
    rw [sortedFields_eq, List.map_map]
    exact (sortedBy_perm _ _).symm.map _
  obtain ⟨entries, hentries, hperm⟩ := mapM_of_perm hraw hdecode
  exact ⟨_, entries, by rw [Json.sorted, mapping], hentries, hperm⟩

omit [Unicode] in
/-- So do the members of a selection. -/
theorem selection_read (message : String) (selection : List OpId) :
    ∃ raw members, list (selectionPayload (selection.map OpId.text)).sorted = .ok raw ∧
      raw.mapM (opId message) = .ok members ∧ members.Perm selection := by
  have hdecode : ((selection.map fun id => Json.string id.text).map Json.sorted).mapM
      (opId message) = .ok (selection.map id) :=
    mapM_read fun id _ => opId_read message id
  rw [List.map_id] at hdecode
  have hraw : ((selection.map fun id => Json.string id.text).map Json.sorted).Perm
      (((sortedBy id (selection.map OpId.text)).map Json.string).map Json.sorted) := by
    refine List.Perm.map _ ?_
    have hperm := (sortedBy_perm id (selection.map OpId.text)).symm.map Json.string
    rw [List.map_map] at hperm
    exact hperm
  obtain ⟨members, hmembers, hperm⟩ := mapM_of_perm hraw hdecode
  exact ⟨_, members, by rw [selectionPayload, list_read], hmembers, hperm⟩

theorem executionRequest_read {request : ExecutionRequest}
    (hstrings : ∀ text ∈ request.strings, Unpaired text) :
    ∃ opened, decodeExecutionRequest (encodeExecutionRequest request) = .ok opened ∧
      opened.Same request := by
  obtain ⟨item, hitem, hread⟩ := @object_read request.payload rfl (of_decide_eq_true rfl)
  obtain ⟨raw, entries, hraw, hentries, hstatus⟩ := status_read request.executionSet.status
  obtain ⟨rawSelection, members, hrawSelection, hmembers, hselection⟩ :=
    selection_read "selection contains unknown operation ids" request.executionSet.selection
  have hnodup : members.Nodup := hselection.nodup_iff.2 request.executionSet.selection_nodup
  have hkeys : (entries.map Prod.fst).Nodup :=
    (hstatus.map Prod.fst).nodup_iff.2 request.executionSet.status.nodup
  have hknown : ∀ id ∈ members.dedup,
      id ∈ (reread request.executionSet.plan).operations.map OperationRecord.opId := by
    intro id hid
    exact request.executionSet.selection_known id (hselection.mem_iff.1 (List.mem_dedup.1 hid))
  have hselected : ∀ id ∈ (statusOf entries).keys, id ∈ members.dedup := by
    intro id hid
    rw [Dict.keys, statusOf_entries hkeys] at hid
    refine List.mem_dedup.2 (hselection.mem_iff.2 ?_)
    exact request.executionSet.status_selected id ((hstatus.map Prod.fst).mem_iff.1 hid)
  -- What the constructor makes of the parts: the set is deduplicated again.
  let opened : ExecutionRecord :=
    { plan := reread request.executionSet.plan
      selection := members.dedup
      runId := request.executionSet.runId
      status := statusOf entries
      commitment := request.executionSet.commitment
      selection_nodup := List.nodup_dedup _
      selection_known := hknown
      status_selected := hselected }
  refine ⟨⟨opened, request.startedAt⟩, ?_, ?_⟩
  · unfold decodeExecutionRequest encodeExecutionRequest
    rw [payload_read (proper_execution hstrings) hitem (hread 0 "schema_version" _ rfl).2
        (hread 1 "kind" _ rfl).2, ok_bind, (hread 6 "commitment" _ rfl).2,
      optional_read (fun _ h => Json.noConfusion h) decodeCommitment_read, ok_bind,
      (hread 5 "status" _ rfl).1, ok_bind, hraw, ok_bind, (hread 2 "plan" _ rfl).1, ok_bind,
      decodePlan_read, ok_bind, (hread 3 "selection" _ rfl).1, ok_bind, hrawSelection, ok_bind,
      hmembers, ok_bind, (hread 4 "run_id" _ rfl).1, ok_bind, textOf_read, ok_bind,
      fixedId_hexDigits, orValueError, ok_bind, hentries, ok_bind, ExecutionRecord.ofPayload,
      dif_pos hknown, dif_pos hselected, ok_bind, (hread 7 "started_at" _ rfl).2,
      optional_read (fun _ h => Json.noConfusion h) time_read, ok_bind]
  · exact
      { content := ⟨rfl, fun volume => mem_sortedBy⟩
        fingerprint := rfl
        selection := by
          show members.dedup.Perm _
          rw [hnodup.dedup]
          exact hselection
        runId := rfl
        status := by
          intro id
          show (statusOf entries).get? id = _
          ext outcome
          rw [Dict.get?_eq_some, Dict.get?_eq_some, statusOf_entries hkeys]
          exact hstatus.mem_iff
        commitment := rfl
        startedAt := rfl }

/-! ## What the order does not change

The volumes of a plan are a frozen set.  They are sorted by their text when they
are written, so two orders have one payload, one fingerprint and one commitment. -/

/-- `ensure_ascii` with the default separators. -/
def asciiStyle : JsonStyle := ⟨escapeCharAscii, str ", ", str ": "⟩

omit [Unicode] in
theorem quoted_inj {value other rest rest' : Str} (hvalue : Unpaired value)
    (hother : Unpaired other)
    (h : quoted asciiStyle value ++ rest = quoted asciiStyle other ++ rest') :
    value = other ∧ rest = rest' := by
  have hscan : ∀ value rest : Str, scanUnits ((quoted asciiStyle value ++ rest).drop 1) =
      some (value.flatMap asciiUnits, rest) := by
    intro value rest
    rw [← scanUnits_quotedAscii value rest]
    simp [quoted, asciiStyle]
  obtain ⟨hunits, hrest⟩ := Prod.mk.inj (Option.some.inj
    ((hscan value rest).symm.trans ((congrArg (fun text => scanUnits (text.drop 1)) h).trans
      (hscan other rest'))))
  have hjoined := congrArg joinPairs hunits
  rw [joinPairs_asciiUnits hvalue, joinPairs_asciiUnits hother] at hjoined
  exact ⟨hjoined, hrest⟩

omit [Unicode] in
theorem dumps_volume (volume : VolumeId) : volume.primitive.dumps =
    str "\x7b\"fs_type\": " ++ (quoted asciiStyle volume.fsType ++
      (str ", \"serial\": " ++ (quoted asciiStyle volume.serial ++ str "\x7d"))) := by
  have hsorted : volume.primitive.sorted = .object
      [(str "fs_type", .string volume.fsType), (str "serial", .string volume.serial)] := by
    rw [VolumeId.primitive, Json.sorted, sortedBy]
    simp only [sortedFields, Json.sorted, List.insertionSort_cons, List.insertionSort_nil,
      List.orderedInsert_nil, List.orderedInsert_cons]
    rw [if_neg (by decide)]
  have hkeys : quoted asciiStyle (str "fs_type") = str "\"fs_type\"" ∧
      quoted asciiStyle (str "serial") = str "\"serial\"" := by
    constructor <;> decide
  rw [Json.dumps, hsorted]
  show text asciiStyle _ = _
  rw [text, textFields, textFields, text, text, hkeys.1, hkeys.2]
  simp [asciiStyle, str]
  rfl

omit [Unicode] in
theorem dumps_inj {volume other : VolumeId} (hvolume : ∀ text ∈ volume.strings, Unpaired text)
    (hother : ∀ text ∈ other.strings, Unpaired text)
    (h : volume.primitive.dumps = other.primitive.dumps) : volume = other := by
  simp only [VolumeId.strings, List.forall_mem_cons] at hvolume hother
  rw [dumps_volume, dumps_volume, List.append_cancel_left_eq] at h
  obtain ⟨htype, hrest⟩ := quoted_inj hvolume.2.1 hother.2.1 h
  rw [List.append_cancel_left_eq] at hrest
  obtain ⟨hserial, -⟩ := quoted_inj hvolume.1 hother.1 hrest
  cases volume
  cases other
  obtain rfl : _ = _ := htype
  obtain rfl : _ = _ := hserial
  rfl

/-- The payload of a plan, with its volumes put in. -/
theorem payload_volumes (plan : PlanRecord) :
    plan.payload = .object ((Payloads.fields { plan with
      requiredVolumes := [], fingerprint := [],
      requiredVolumes_nodup := List.nodup_nil }.payload).set 18
        (str "required_volumes", primitiveSet (plan.requiredVolumes.map VolumeId.primitive))) :=
  rfl

/-- Plans that differ in the order of their volumes have one payload. -/
theorem payload_of_same {plan other : PlanRecord} (h : plan.SameContent other)
    (hstrings : ∀ text ∈ plan.strings, Unpaired text) : plan.payload = other.payload := by
  have hvolumes : ∀ volume ∈ plan.requiredVolumes, ∀ text ∈ volume.strings, Unpaired text := by
    intro volume hvolume text htext
    refine hstrings text (List.mem_append_left _ (List.mem_append_right _ ?_))
    exact List.mem_flatMap.2 ⟨volume, hvolume, htext⟩
  -- The volumes are the one part that may stand in another order.
  have hperm : plan.requiredVolumes.Perm other.requiredVolumes :=
    (List.perm_ext_iff_of_nodup plan.requiredVolumes_nodup other.requiredVolumes_nodup).2 h.2
  have hset : primitiveSet (plan.requiredVolumes.map VolumeId.primitive) =
      primitiveSet (other.requiredVolumes.map VolumeId.primitive) := by
    unfold primitiveSet
    refine congrArg Json.array (sortedBy_eq_of_perm (hperm.map _) ?_)
    intro a ha b hb hab
    obtain ⟨volume, hvolume, rfl⟩ := List.mem_map.1 ha
    obtain ⟨volume', hvolume', rfl⟩ := List.mem_map.1 hb
    rw [dumps_inj (hvolumes volume hvolume) (hvolumes volume' hvolume') hab]
  rw [payload_volumes plan, payload_volumes other, h.1, hset]

/-- Nor are its strings others. -/
theorem strings_of_same {request other : ExecutionRequest} (h : request.Same other) :
    ∀ text, text ∈ request.strings ↔ text ∈ other.strings := by
  intro text
  have hcontent : request.executionSet.plan.contentStrings =
      other.executionSet.plan.contentStrings := by
    have hfields := congrArg PlanRecord.contentStrings h.content.1
    exact hfields
  unfold ExecutionRequest.strings PlanRecord.strings
  rw [hcontent, h.fingerprint, h.commitment]
  simp only [List.mem_append, List.mem_flatMap, h.content.2]

variable [Sha256]

theorem planFingerprint_of_same {plan other : PlanRecord} (h : plan.SameContent other)
    (hstrings : ∀ text ∈ plan.strings, Unpaired text) :
    planFingerprint plan = planFingerprint other := by
  rw [planFingerprint, payload_of_same h hstrings, planFingerprint]

omit [Unicode] in
theorem selectionDigest_of_perm {selection other : List OpId} (h : selection.Perm other) :
    selectionDigest (selection.map OpId.text) = selectionDigest (other.map OpId.text) := by
  have hsorted : sortedBy id (selection.map OpId.text) = sortedBy id (other.map OpId.text) :=
    sortedBy_eq_of_perm (h.map _) fun _ _ _ _ heq => heq
  rw [selectionDigest, selectionPayload, hsorted, selectionDigest, selectionPayload]

theorem commitmentError_of_same {request other : ExecutionRequest} (h : request.Same other)
    (hstrings : ∀ text ∈ request.strings, Unpaired text) :
    commitmentError request.executionSet = commitmentError other.executionSet := by
  unfold commitmentError
  rw [h.commitment, planFingerprint_of_same h.content
    fun text htext => hstrings text (List.mem_append_left _ htext), h.fingerprint,
    selectionDigest_of_perm h.selection]

/-! ## Any number of pauses

A step runs and pauses; what it writes is read back as the same request.  By
induction the request that is opened after any number of them is the first one,
with a status that has grown, and its commitment still holds. -/

omit [Sha256] in
theorem strings_of_ran {opened next : ExecutionRequest} (h : opened.Ran next) :
    next.strings = opened.strings := by
  rw [ExecutionRequest.strings, h.plan, h.commitment, ExecutionRequest.strings]

theorem commitmentError_of_ran {opened next : ExecutionRequest} (h : opened.Ran next) :
    commitmentError next.executionSet = commitmentError opened.executionSet := by
  rw [commitmentError, h.plan, h.commitment, h.selection, commitmentError]

/-- What a pause keeps. -/
structure Kept (request paused : ExecutionRequest) : Prop where
  strings : ∀ text ∈ paused.strings, Unpaired text
  fingerprint : planFingerprint paused.executionSet.plan = planFingerprint request.executionSet.plan
  commitment : commitmentError paused.executionSet = commitmentError request.executionSet

theorem Kept.ran {request opened next : ExecutionRequest} (h : Kept request opened)
    (hran : opened.Ran next) : Kept request next where
  strings := by
    rw [strings_of_ran hran]
    exact h.strings
  fingerprint := by
    rw [hran.plan]
    exact h.fingerprint
  commitment := (commitmentError_of_ran hran).trans h.commitment

/-- One snapshot. -/
theorem Kept.opened {request paused opened : ExecutionRequest} (h : Kept request paused)
    (hsame : opened.Same paused) : Kept request opened := by
  have hstrings : ∀ text ∈ opened.strings, Unpaired text :=
    fun text htext => h.strings text ((strings_of_same hsame text).1 htext)
  exact
    { strings := hstrings
      fingerprint := (planFingerprint_of_same hsame.content
        fun text htext => hstrings text (List.mem_append_left _ htext)).trans h.fingerprint
      commitment := (commitmentError_of_same hsame hstrings).trans h.commitment }

theorem kept_of_paused {request paused : ExecutionRequest}
    (hstrings : ∀ text ∈ request.strings, Unpaired text) (h : request.Paused paused) :
    Kept request paused := by
  -- A pause is of a request that was opened from the pause before, so the strings of that
  -- one are needed to read it back.
  induction h with
  | first hran => exact Kept.ran ⟨hstrings, rfl, rfl⟩ hran
  | again _ hdecode hran ih =>
      obtain ⟨opened, hopened, hsame⟩ := executionRequest_read ih.strings
      obtain rfl := Except.ok.inj (hopened.symm.trans hdecode)
      exact (ih.opened hsame).ran hran

omit [Sha256] in
theorem planRequest_round_trip {request : PlanRequest}
    [Decidable request.options.destinationPolicy.IsIdentity]
    (hpolicy : request.options.destinationPolicy = identityDestinationPolicy)
    (hstrings : ∀ text ∈ request.strings, Unpaired text) :
    (encodePlanRequest request).bind decodePlanRequest = .ok request := by
  have hidentity : request.options.destinationPolicy.IsIdentity := by
    rw [hpolicy]
    rfl
  have hencode : encodePlanRequest request = .ok request.payload.canonicalBytes := by
    rw [encodePlanRequest, if_pos hidentity]
  rw [hencode, Except.bind]
  exact planRequest_read hpolicy hstrings

/-- Whatever request has unpaired strings comes back from its payload, from
every snapshot that is taken of it, and with the same authorization. -/
theorem payload_round_trip :
    (∀ request : ExecutionRequest, (∀ text ∈ request.strings, Unpaired text) →
      ∃ opened, decodeExecutionRequest (encodeExecutionRequest request) = .ok opened ∧
        opened.Same request ∧
        planFingerprint opened.executionSet.plan = planFingerprint request.executionSet.plan ∧
        commitmentError opened.executionSet = commitmentError request.executionSet) ∧
    (∀ request paused : ExecutionRequest, (∀ text ∈ request.strings, Unpaired text) →
      request.Paused paused →
      ∃ opened, decodeExecutionRequest (encodeExecutionRequest paused) = .ok opened ∧
        opened.Same paused ∧
        planFingerprint opened.executionSet.plan = planFingerprint request.executionSet.plan ∧
        commitmentError opened.executionSet = commitmentError request.executionSet) ∧
    ∀ (request : PlanRequest) [Decidable request.options.destinationPolicy.IsIdentity],
      request.options.destinationPolicy = identityDestinationPolicy →
      (∀ text ∈ request.strings, Unpaired text) →
      (encodePlanRequest request).bind decodePlanRequest = .ok request := by
  -- One snapshot of a request that has kept what matters; the two cases below differ in
  -- how the request came about.
  have hsnapshot : ∀ {request paused : ExecutionRequest}, Kept request paused →
      ∃ opened, decodeExecutionRequest (encodeExecutionRequest paused) = .ok opened ∧
        opened.Same paused ∧
        planFingerprint opened.executionSet.plan = planFingerprint request.executionSet.plan ∧
        commitmentError opened.executionSet = commitmentError request.executionSet := by
    intro request paused hkept
    obtain ⟨opened, hopened, hsame⟩ := executionRequest_read hkept.strings
    have hagain := hkept.opened hsame
    exact ⟨opened, hopened, hsame, hagain.fingerprint, hagain.commitment⟩
  refine ⟨?_, ?_, fun request _ => planRequest_round_trip⟩
  · intro request hstrings
    have hkept : Kept request request := ⟨hstrings, rfl, rfl⟩
    exact hsnapshot hkept
  · intro request paused hstrings hpaused
    exact hsnapshot (kept_of_paused hstrings hpaused)

end Requests

/-! ## A root whose id no UTF-8 text can hold -/

section Sample

local instance hostileUnicode : Unicode := reviewedUnicode

local instance hostileSha256 : Sha256 := reviewedSha256

/-- `source_`, and half of a pair. -/
def hostilePlan : PlanRecord :=
  { reviewedPlan with
    sourceRoot :=
      { reviewedPlan.sourceRoot with rootId := str "source_" ++ [0xDCFF], rootId_ne := by decide } }

def hostileRequest : ExecutionRequest where
  executionSet :=
    { plan := hostilePlan
      selection := [reviewedCopy.opId]
      runId := 7
      status := ⟨[(reviewedCopy.opId, .succeeded)], reviewedSet.selection_nodup⟩
      selection_nodup := reviewedSet.selection_nodup
      selection_known := fun _ h => h
      status_selected := fun _ h => h }
  startedAt := some
    { year := 2024, month := 2, day := 29, hour := 0, minute := 0, second := 0, microsecond := 5,
      offset := some (-3600000000) }

def hostileReview : PlanRequest where
  requestId := str "r"
  sourcePath := [0xDCFF]
  targetPath := str "D:\\t"
  options := {}

local instance hostileIdentity : Decidable hostileReview.options.destinationPolicy.IsIdentity :=
  .isTrue rfl

theorem hostile_round_trip :
    (∃ opened, decodeExecutionRequest (encodeExecutionRequest hostileRequest) = .ok opened ∧
      opened.Same hostileRequest ∧
      planFingerprint opened.executionSet.plan = planFingerprint hostilePlan ∧
      commitmentError opened.executionSet = commitmentError hostileRequest.executionSet) ∧
    (∃ opened, decodeExecutionRequest (encodeExecutionRequest hostileRequest) = .ok opened ∧
      opened.Same hostileRequest) ∧
    (encodePlanRequest hostileReview).bind decodePlanRequest = .ok hostileReview := by
  have hstrings : ∀ text ∈ hostileRequest.strings, Unpaired text := by
    unfold Unpaired
    decide +kernel
  have hreview : ∀ text ∈ hostileReview.strings, Unpaired text := by
    unfold Unpaired
    decide +kernel
  refine ⟨payload_round_trip.1 hostileRequest hstrings, ?_,
    payload_round_trip.2.2 hostileReview rfl hreview⟩
  obtain ⟨opened, hopened, hsame, -⟩ :=
    payload_round_trip.2.1 hostileRequest hostileRequest hstrings
    (.first ⟨rfl, rfl, rfl, rfl, fun _ h => h⟩)
  exact ⟨opened, hopened, hsame⟩

end Sample

end NamiSync
