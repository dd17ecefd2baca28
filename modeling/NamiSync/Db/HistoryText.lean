/-
# `Db.HistoryText` — what a hash is of

What is hashed of an envelope and of a report says what these are, up to the
normal form of the details.  The body of an event is hashed without its
class, but no two classes have a field in common.

Faithfulness is proved from the leaves up with the combinators of
`Core.JsonText` (`comp`, `optional`, `array`, `faithful_object`).  The one
place that needs an argument of its own is the body of an event: its class is
not written, so the classes are told apart by a key that only one of them has
(`mark`).
-/
import NamiSync.Core.CanonicalText
import NamiSync.Db.History

namespace NamiSync

open Json

/-! ## The fields, one after another

Each is `Faithful`: its text tells it from every other value of its type, up to
the normal form.  An enumeration is told by its member's value, a record by the
values of its fields, and a field that may be absent by `null`. -/

theorem SessionState.ofValue_value (state : SessionState) : ofValue state.value = some state := by
  cases state <;> decide

theorem RecordingStatus.ofValue_value (status : RecordingStatus) :
    ofValue status.value = some status := by
  cases status <;> decide

theorem Disposition.value_injective : Function.Injective Disposition.value := by
  intro disposition other h
  cases disposition <;> cases other <;> first | rfl | exact absurd h (by decide)

theorem str_injective : Function.Injective str := by
  intro text other h
  refine String.toList_injective (List.map_injective_iff.2 ?_ h)
  intro c d hcd
  have hval : (CodePoint.ofChar c).val = (CodePoint.ofChar d).val := congrArg Fin.val hcd
  exact Char.ext (UInt32.toNat_inj.1 hval)

namespace History

section Leaves

theorem faithful_utc : Json.Faithful fun time : UtcTime => .string (encodeUtc time) :=
  faithful_string.comp fun _ _ h => encodeUtc_inj h

theorem faithful_outcome : Json.Faithful fun outcome : Outcome => .string outcome.value :=
  faithful_string.comp (injective_of_ofValue Outcome.ofValue_value)

theorem faithful_state : Json.Faithful fun state : SessionState => .string state.value :=
  faithful_string.comp (injective_of_ofValue SessionState.ofValue_value)

theorem faithful_recording : Json.Faithful fun status : RecordingStatus => .string status.value :=
  faithful_string.comp (injective_of_ofValue RecordingStatus.ofValue_value)

theorem faithful_disposition :
    Json.Faithful fun disposition : Disposition => .string disposition.value :=
  faithful_string.comp Disposition.value_injective

theorem faithful_currentPath : Json.Faithful (optional fun path : String => .string (str path)) :=
  (faithful_string.comp str_injective).optional fun _ h => Json.noConfusion h

end Leaves

section Records

theorem faithful_item : Json.Faithful ItemOutcome.primitive := by
  refine faithful_object (fun _ _ => ?_) (fun _ => ?_) (fun _ => ?_) fun a b h => ?_
  · simp only [List.map_cons, List.map_nil]
  · simp only [List.map_cons, List.map_nil]
    decide
  · simp only [List.forall_mem_cons]
    exact ⟨.string trivial, .string trivial, .string trivial, .string trivial,
      faithful_optionalString.proper _, faithful_normal.proper _, List.forall_mem_nil _⟩
  · simp only [List.map_cons, List.map_nil, List.cons.injEq, and_true] at h
    obtain ⟨hid, hkind, hpath, houtcome, hreason, hdetail⟩ := h
    cases a
    cases b
    obtain rfl := faithful_string.inj _ _ hid
    obtain rfl := faithful_string.inj _ _ hkind
    obtain rfl := faithful_string.inj _ _ hpath
    obtain rfl := faithful_outcome.inj _ _ houtcome
    obtain rfl := faithful_optionalString.inj _ _ hreason
    obtain rfl := faithful_normal.inj _ _ hdetail
    rfl

theorem faithful_failure : Json.Faithful FailureDetail.primitive := by
  refine faithful_object (fun _ _ => ?_) (fun _ => ?_) (fun _ => ?_) fun a b h => ?_
  · simp only [List.map_cons, List.map_nil]
  · simp only [List.map_cons, List.map_nil]
    decide
  · simp only [List.forall_mem_cons]
    exact ⟨.string trivial, .string trivial, List.forall_mem_nil _⟩
  · simp only [List.map_cons, List.map_nil, List.cons.injEq, and_true] at h
    obtain ⟨hname, hmessage⟩ := h
    cases a
    cases b
    obtain rfl := faithful_string.inj _ _ hname
    obtain rfl := faithful_string.inj _ _ hmessage
    rfl

theorem faithful_error : Json.Faithful (optional FailureDetail.primitive) :=
  faithful_failure.optional fun _ h => Json.noConfusion h

theorem faithful_result : Json.Faithful OperationResult.primitive := by
  refine faithful_object (fun _ _ => ?_) (fun _ => ?_) (fun _ => ?_) fun a b h => ?_
  · simp only [List.map_cons, List.map_nil]
  · simp only [List.map_cons, List.map_nil]
    decide
  · simp only [List.forall_mem_cons]
    exact ⟨.string trivial, .string trivial, .string trivial, .string trivial, .bool _,
      faithful_item.array.proper _, .int _, .int _, faithful_error.proper _, List.forall_mem_nil _⟩
  · simp only [List.map_cons, List.map_nil, List.cons.injEq, and_true] at h
    obtain ⟨hstatus, hrecording, haudit, hdisposition, hcanceled, hoperations, hdone, htotal,
      herror⟩ := h
    cases a
    cases b
    obtain rfl := faithful_state.inj _ _ hstatus
    obtain rfl := faithful_recording.inj _ _ hrecording
    obtain rfl := faithful_recording.inj _ _ haudit
    obtain rfl := faithful_disposition.inj _ _ hdisposition
    obtain rfl := faithful_bool.inj _ _ hcanceled
    obtain rfl := faithful_item.array.inj _ _ hoperations
    obtain rfl := faithful_int.inj _ _ hdone
    obtain rfl := faithful_int.inj _ _ htotal
    obtain rfl := faithful_error.inj _ _ herror
    rfl

/-- An item with the number of its event. -/
theorem faithful_numbered : Json.Faithful fun item : Nat × ItemOutcome NormalJson =>
    .array [.int item.1, item.2.primitive] where
  proper item := by
    refine .array ?_
    simp only [List.forall_mem_cons]
    exact ⟨.int _, faithful_item.proper _, List.forall_mem_nil _⟩
  inj a b h := by
    have hitems := Json.array.inj h
    simp only [sortedItems_eq, List.map_cons, List.map_nil, List.cons.injEq, and_true] at hitems
    exact Prod.ext (faithful_int.inj _ _ hitems.1) (faithful_item.inj _ _ hitems.2)

/-- What is hashed of a report: the result and the items with their numbers. -/
theorem faithful_report : Json.Faithful Report.payload := by
  refine faithful_object (fun _ _ => ?_) (fun _ => ?_) (fun _ => ?_) fun a b h => ?_
  · simp only [List.map_cons, List.map_nil]
  · simp only [List.map_cons, List.map_nil]
    decide
  · simp only [List.forall_mem_cons]
    exact ⟨.string trivial, .string trivial, .string trivial, .string trivial,
      faithful_optionalString.proper _, faithful_optionalString.proper _,
      faithful_optionalString.proper _, faithful_optionalString.proper _, .string trivial,
      faithful_result.proper _, faithful_numbered.array.proper _, List.forall_mem_nil _⟩
  · simp only [List.map_cons, List.map_nil, List.cons.injEq, and_true] at h
    obtain ⟨htoken, hsession, hactivity, hhost, hkind, hid, hsource, htarget, hstarted, hresult,
      hitems⟩ := h
    cases a
    cases b
    obtain rfl := faithful_string.inj _ _ htoken
    obtain rfl := faithful_string.inj _ _ hsession
    obtain rfl := faithful_string.inj _ _ hactivity
    obtain rfl := faithful_string.inj _ _ hhost
    obtain rfl := faithful_optionalString.inj _ _ hkind
    obtain rfl := faithful_optionalString.inj _ _ hid
    obtain rfl := faithful_optionalString.inj _ _ hsource
    obtain rfl := faithful_optionalString.inj _ _ htarget
    obtain rfl := faithful_utc.inj _ _ hstarted
    obtain rfl := faithful_result.inj _ _ hresult
    obtain rfl := faithful_numbered.array.inj _ _ hitems
    rfl

end Records

/-! ## Bodies

The hash of an envelope is taken of the fields of its body, without the class.
`mark` is a key that only one class has: two bodies that are written alike
have the same keys, so they are of one class, and then the fields decide. -/

/-- Objects written alike have the same keys. -/
theorem mem_keys_of_sorted {fields fields' : List (Str × Json)}
    (h : (Json.object fields).sorted = (Json.object fields').sorted) {key : Str}
    (hkey : key ∈ fields.map Prod.fst) : key ∈ fields'.map Prod.fst := by
  have hlists :
      sortedBy Prod.fst (sortedFields fields) = sortedBy Prod.fst (sortedFields fields') := by
    rw [Json.sorted, Json.sorted] at h
    exact Json.object.inj h
  rw [← keys_sortedFields] at hkey ⊢
  obtain ⟨field, hfield, rfl⟩ := List.mem_map.1 hkey
  rw [← @mem_sortedBy _ _ _ Prod.fst, hlists, mem_sortedBy] at hfield
  exact List.mem_map_of_mem hfield

namespace EventBody

/-- A key that only the bodies of one class have. -/
def mark {δ : Type} : EventBody δ → Str
  | .stateChanged _ => str "state"
  | .phaseChanged _ => str "phase"
  | .progress _ => str "items_done"
  | .itemOutcome _ => str "item_id"
  | .gap _ => str "first_missed_seq"
  | .terminal _ => str "result"

theorem mark_eq {body other : EventBody NormalJson}
    (h : body.mark ∈ other.fields.map Prod.fst) : other.mark = body.mark := by
  cases body <;> cases other <;> simp only [mark, fields, List.map_cons, List.map_nil] at h <;>
    first | rfl | exact absurd h (by decide)

theorem mark_mem (body : EventBody NormalJson) : body.mark ∈ body.fields.map Prod.fst := by
  cases body <;> exact List.mem_cons_self

theorem fields_nodup (body : EventBody NormalJson) : (body.fields.map Prod.fst).Nodup := by
  cases body <;> simp only [fields, List.map_cons, List.map_nil] <;> decide

theorem fields_proper (body : EventBody NormalJson) :
    ∀ field ∈ body.fields, Proper (fun _ => True) field.2 := by
  cases body with
  | stateChanged state =>
      simp only [fields, List.forall_mem_cons]
      exact ⟨.string trivial, List.forall_mem_nil _⟩
  | phaseChanged phase =>
      simp only [fields, List.forall_mem_cons]
      exact ⟨.string trivial, List.forall_mem_nil _⟩
  | progress value =>
      simp only [fields, List.forall_mem_cons]
      exact ⟨.int _, faithful_optionalInt.proper _, .int _, faithful_optionalInt.proper _,
        faithful_currentPath.proper _, List.forall_mem_nil _⟩
  | itemOutcome item =>
      simp only [fields, List.forall_mem_cons]
      exact ⟨.string trivial, .string trivial, .string trivial, .string trivial,
        faithful_optionalString.proper _, faithful_normal.proper _, List.forall_mem_nil _⟩
  | gap firstMissedSeq =>
      simp only [fields, List.forall_mem_cons]
      exact ⟨.int _, List.forall_mem_nil _⟩
  | terminal result =>
      simp only [fields, List.forall_mem_cons]
      exact ⟨faithful_result.proper _, List.forall_mem_nil _⟩

theorem values_of_sorted {body other : EventBody NormalJson}
    (h : (Json.object body.fields).sorted = (Json.object other.fields).sorted)
    (hkeys : body.fields.map Prod.fst = other.fields.map Prod.fst) :
    body.fields.map (fun field => field.2.sorted) = other.fields.map fun field => field.2.sorted :=
  values_eq_of_sorted body.fields_nodup hkeys h

/-- A body is told by its fields alone.  The classes are separated by their marks
first, and within one class each field is faithful. -/
theorem fields_inj {body other : EventBody NormalJson}
    (h : (Json.object body.fields).sorted = (Json.object other.fields).sorted) : body = other := by
  have hmark : other.mark = body.mark := mark_eq (mem_keys_of_sorted h body.mark_mem)
  cases body <;> cases other <;> first | exact absurd hmark (by simp only [mark]; decide) | skip
  · next state state' =>
      have hvalues := values_of_sorted h rfl
      simp only [fields, List.map_cons, List.map_nil, List.cons.injEq, and_true] at hvalues
      rw [faithful_state.inj _ _ hvalues]
  · next phase phase' =>
      have hvalues := values_of_sorted h rfl
      simp only [fields, List.map_cons, List.map_nil, List.cons.injEq, and_true] at hvalues
      rw [faithful_string.inj _ _ hvalues]
  · next value value' =>
      have hvalues := values_of_sorted h rfl
      simp only [fields, List.map_cons, List.map_nil, List.cons.injEq, and_true] at hvalues
      obtain ⟨hitems, hitemsTotal, hbytes, hbytesTotal, hpath⟩ := hvalues
      cases value
      cases value'
      obtain rfl := faithful_int.inj _ _ hitems
      obtain rfl := faithful_optionalInt.inj _ _ hitemsTotal
      obtain rfl := faithful_int.inj _ _ hbytes
      obtain rfl := faithful_optionalInt.inj _ _ hbytesTotal
      obtain rfl := faithful_currentPath.inj _ _ hpath
      rfl
  · next item item' => rw [faithful_item.inj item item' h]
  · next seq seq' =>
      have hvalues := values_of_sorted h rfl
      simp only [fields, List.map_cons, List.map_nil, List.cons.injEq, and_true] at hvalues
      rw [faithful_int.inj _ _ hvalues]
  · next result result' =>
      have hvalues := values_of_sorted h rfl
      simp only [fields, List.map_cons, List.map_nil, List.cons.injEq, and_true] at hvalues
      rw [faithful_result.inj _ _ hvalues]

end EventBody

theorem faithful_body : Json.Faithful fun body : EventBody NormalJson => .object body.fields where
  proper body := .object body.fields_nodup (fun _ _ => trivial) body.fields_proper
  inj _ _ h := EventBody.fields_inj h

/-- What is hashed of an envelope. -/
theorem faithful_envelope : Json.Faithful Envelope.primitive := by
  refine faithful_object (fun _ _ => ?_) (fun _ => ?_) (fun _ => ?_) fun a b h => ?_
  · simp only [List.map_cons, List.map_nil]
  · simp only [List.map_cons, List.map_nil]
    decide
  · simp only [List.forall_mem_cons]
    exact ⟨.string trivial, .int _, .string trivial, .int _, faithful_body.proper _,
      List.forall_mem_nil _⟩
  · simp only [List.map_cons, List.map_nil, List.cons.injEq, and_true] at h
    obtain ⟨hsession, hseq, htime, -, hbody⟩ := h
    cases a
    cases b
    obtain rfl := faithful_string.inj _ _ hsession
    obtain rfl := faithful_int.inj _ _ hseq
    obtain rfl := faithful_utc.inj _ _ htime
    obtain rfl := faithful_body.inj _ _ hbody
    rfl

end History

end NamiSync
