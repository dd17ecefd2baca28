/-
# `Core.CanonicalText` — the canonical bytes bind the plan

Each dataclass can be told from what `_primitive` makes of it: the keys of
an object are its own, an absent value is written `null`, which nothing else
is, and every member of an enumeration has a text of its own.  A frozen set
is told up to the order of its members.

## What is proved

    sameContent_of_canonicalBytes   equal bytes are equal plans, up to the
                                    fingerprint and the order of sets
    perm_of_selectionBytes          and equal selections up to order

with no assumption on strings: a lone surrogate has an escape of its own.

Each dataclass has a `faithful_…` lemma, put together from those of its fields
with `faithful_object`; a field that were left out of `_primitive` would fail
here.
-/
import NamiSync.Core.Canonical

namespace NamiSync

open Json

section Leaves

/-! ## One dataclass after another

The order is that of the definitions: a record comes after the records that it
contains.  Each proof gives the keys, which are literals, and names the lemma
of each field. -/

theorem faithful_optionalString : Faithful (optional Json.string) :=
  faithful_string.optional fun _ h => Json.noConfusion h

theorem faithful_optionalInt : Faithful (optional Json.int) :=
  faithful_int.optional fun _ h => Json.noConfusion h

theorem faithful_optionalBool : Faithful (optional Json.bool) :=
  faithful_bool.optional fun _ h => Json.noConfusion h

theorem faithful_entryKind : Faithful fun kind : EntryKind => .string kind.value :=
  faithful_string.comp (injective_of_ofValue EntryKind.ofValue_value)

theorem faithful_deletionPolicy : Faithful fun policy : DeletionPolicy => .string policy.value :=
  faithful_string.comp (injective_of_ofValue DeletionPolicy.ofValue_value)

theorem faithful_operationKind : Faithful fun kind : OperationKind => .string kind.value :=
  faithful_string.comp (injective_of_ofValue OperationKind.ofValue_value)

theorem faithful_operationReason : Faithful fun reason : OperationReason => .string reason.value :=
  faithful_string.comp (injective_of_ofValue OperationReason.ofValue_value)

theorem faithful_optionalBlocked :
    Faithful (optional fun reason : BlockedReason => .string reason.value) :=
  (faithful_string.comp (injective_of_ofValue BlockedReason.ofValue_value)).optional
    fun _ h => Json.noConfusion h

theorem OpId.text_injective : Function.Injective OpId.text := fun a b h =>
  Fin.val_injective (hexDigits_inj a.isLt b.isLt h)

theorem faithful_opId : Faithful fun id : OpId => .string id.text :=
  faithful_string.comp OpId.text_injective

end Leaves

section Records

theorem faithful_fileIdentity : Faithful FileIdentity.primitive := by
  refine faithful_object (fun _ _ => ?_) (fun _ => ?_) (fun _ => ?_) fun a b h => ?_
  · simp only [List.map_cons, List.map_nil]
  · simp only [List.map_cons, List.map_nil]
    decide
  · simp only [List.forall_mem_cons]
    exact ⟨.string trivial, .int _, List.forall_mem_nil _⟩
  · simp only [List.map_cons, List.map_nil, List.cons.injEq, and_true] at h
    obtain ⟨hserial, hindex⟩ := h
    cases a
    cases b
    obtain rfl := faithful_string.inj _ _ hserial
    obtain rfl := faithful_int.inj _ _ hindex
    rfl

theorem faithful_metadata : Faithful MetadataSnapshot.primitive := by
  refine faithful_object (fun _ _ => ?_) (fun _ => ?_) (fun _ => ?_) fun a b h => ?_
  · simp only [List.map_cons, List.map_nil]
  · simp only [List.map_cons, List.map_nil]
    decide
  · simp only [List.forall_mem_cons]
    exact ⟨.int _, faithful_optionalInt.proper _, List.forall_mem_nil _⟩
  · simp only [List.map_cons, List.map_nil, List.cons.injEq, and_true] at h
    obtain ⟨hattributes, hcreated⟩ := h
    cases a
    cases b
    obtain rfl := faithful_int.inj _ _ hattributes
    obtain rfl := faithful_optionalInt.inj _ _ hcreated
    rfl

theorem faithful_optionalIdentity : Faithful (optional FileIdentity.primitive) :=
  faithful_fileIdentity.optional fun _ h => Json.noConfusion h

theorem faithful_fileStat : Faithful FileStat.primitive := by
  refine faithful_object (fun _ _ => ?_) (fun _ => ?_) (fun _ => ?_) fun a b h => ?_
  · simp only [List.map_cons, List.map_nil]
  · simp only [List.map_cons, List.map_nil]
    decide
  · simp only [List.forall_mem_cons]
    exact ⟨.string trivial, .int _, .int _, faithful_optionalIdentity.proper _, .int _,
      faithful_metadata.proper _, List.forall_mem_nil _⟩
  · simp only [List.map_cons, List.map_nil, List.cons.injEq, and_true] at h
    obtain ⟨hkind, hsize, hmtime, hidentity, hnlink, hmetadata⟩ := h
    cases a
    cases b
    obtain rfl := faithful_entryKind.inj _ _ hkind
    obtain rfl := faithful_int.inj _ _ hsize
    obtain rfl := faithful_int.inj _ _ hmtime
    obtain rfl := faithful_optionalIdentity.inj _ _ hidentity
    obtain rfl := faithful_int.inj _ _ hnlink
    obtain rfl := faithful_metadata.inj _ _ hmetadata
    rfl

theorem faithful_optionalStat : Faithful (optional FileStat.primitive) :=
  faithful_fileStat.optional fun _ h => Json.noConfusion h

theorem faithful_optionalMetadata : Faithful (optional MetadataSnapshot.primitive) :=
  faithful_metadata.optional fun _ h => Json.noConfusion h

theorem faithful_root : Faithful Root.primitive := by
  refine faithful_object (fun _ _ => ?_) (fun _ => ?_) (fun _ => ?_) fun a b h => ?_
  · simp only [List.map_cons, List.map_nil]
  · simp only [List.map_cons, List.map_nil]
    decide
  · simp only [List.forall_mem_cons]
    exact ⟨.string trivial, .string trivial, List.forall_mem_nil _⟩
  · simp only [List.map_cons, List.map_nil, List.cons.injEq, and_true] at h
    obtain ⟨hpath, hid⟩ := h
    cases a
    cases b
    obtain rfl := faithful_string.inj _ _ hpath
    obtain rfl := faithful_string.inj _ _ hid
    rfl

theorem faithful_volumeId : Faithful VolumeId.primitive := by
  refine faithful_object (fun _ _ => ?_) (fun _ => ?_) (fun _ => ?_) fun a b h => ?_
  · simp only [List.map_cons, List.map_nil]
  · simp only [List.map_cons, List.map_nil]
    decide
  · simp only [List.forall_mem_cons]
    exact ⟨.string trivial, .string trivial, List.forall_mem_nil _⟩
  · simp only [List.map_cons, List.map_nil, List.cons.injEq, and_true] at h
    obtain ⟨hserial, htype⟩ := h
    cases a
    cases b
    obtain rfl := faithful_string.inj _ _ hserial
    obtain rfl := faithful_string.inj _ _ htype
    rfl

theorem faithful_optionalVolume : Faithful (optional VolumeId.primitive) :=
  faithful_volumeId.optional fun _ h => Json.noConfusion h

theorem faithful_optionalEvidence : Faithful (optional VolumeEvidence.primitive) := by
  refine Faithful.optional ?_ fun _ h => Json.noConfusion h
  refine faithful_object (fun _ _ => ?_) (fun _ => ?_) (fun _ => ?_) fun a b h => ?_
  · simp only [List.map_cons, List.map_nil]
  · simp only [List.map_cons, List.map_nil]
    decide
  · simp only [List.forall_mem_cons]
    exact ⟨faithful_optionalString.proper _, faithful_optionalString.proper _, .bool _,
      List.forall_mem_nil _⟩
  · simp only [List.map_cons, List.map_nil, List.cons.injEq, and_true] at h
    obtain ⟨hlabel, hdevice, hclone⟩ := h
    cases a
    cases b
    obtain rfl := faithful_optionalString.inj _ _ hlabel
    obtain rfl := faithful_optionalString.inj _ _ hdevice
    obtain rfl := faithful_bool.inj _ _ hclone
    rfl

theorem faithful_profile : Faithful CapabilityProfile.primitive := by
  refine faithful_object (fun _ _ => ?_) (fun _ => ?_) (fun _ => ?_) fun a b h => ?_
  · simp only [List.map_cons, List.map_nil]
  · simp only [List.map_cons, List.map_nil]
    decide
  · simp only [List.forall_mem_cons]
    exact ⟨.string trivial, .int _, .bool _, faithful_optionalBool.proper _, .int _, .bool _, .bool
      _, List.forall_mem_nil _⟩
  · simp only [List.map_cons, List.map_nil, List.cons.injEq, and_true] at h
    obtain ⟨htype, hgranularity, hstable, hseek, hmax, hads, hlinks⟩ := h
    cases a
    cases b
    obtain rfl := faithful_string.inj _ _ htype
    obtain rfl := faithful_int.inj _ _ hgranularity
    obtain rfl := faithful_bool.inj _ _ hstable
    obtain rfl := faithful_optionalBool.inj _ _ hseek
    obtain rfl := faithful_int.inj _ _ hmax
    obtain rfl := faithful_bool.inj _ _ hads
    obtain rfl := faithful_bool.inj _ _ hlinks
    rfl

theorem faithful_preservation : Faithful PreservationPolicy.primitive := by
  refine faithful_object (fun _ _ => ?_) (fun _ => ?_) (fun _ => ?_) fun a b h => ?_
  · simp only [List.map_cons, List.map_nil]
  · simp only [List.map_cons, List.map_nil]
    decide
  · simp only [List.forall_mem_cons]
    exact ⟨.bool _, .bool _, .bool _, List.forall_mem_nil _⟩
  · simp only [List.map_cons, List.map_nil, List.cons.injEq, and_true] at h
    obtain ⟨hads, hcreated, hacl⟩ := h
    cases a
    cases b
    obtain rfl := faithful_bool.inj _ _ hads
    obtain rfl := faithful_bool.inj _ _ hcreated
    obtain rfl := faithful_bool.inj _ _ hacl
    rfl

theorem faithful_filters : Faithful FilterSet.primitive := by
  refine faithful_object (fun _ _ => ?_) (fun _ => ?_) (fun _ => ?_) fun a b h => ?_
  · simp only [List.map_cons, List.map_nil]
  · simp only [List.map_cons, List.map_nil]
    decide
  · simp only [List.forall_mem_cons]
    exact ⟨faithful_string.array.proper _, List.forall_mem_nil _⟩
  · simp only [List.map_cons, List.map_nil, List.cons.injEq, and_true] at h
    cases a
    cases b
    obtain rfl := faithful_string.array.inj _ _ h
    rfl

/-! ## Frozen sets

`_primitive` sorts the members of a set by their text.  Two sets are therefore
told by their members, and not by the order in which these stand here. -/

/-- A frozen set is told by its canonical text. -/
theorem mem_of_primitiveSet {α : Type} {f : α → Json} (hf : Faithful f) {members others : List α}
    (h : (primitiveSet (members.map f)).sorted = (primitiveSet (others.map f)).sorted) (a : α) :
    a ∈ members → a ∈ others := by
  intro ha
  unfold primitiveSet at h
  rw [Json.sorted, Json.sorted, sortedItems_eq, sortedItems_eq] at h
  have hlists := Json.array.inj h
  have hmem : (f a).sorted ∈ (sortedBy dumps (members.map f)).map Json.sorted :=
    List.mem_map_of_mem (mem_sortedBy.2 (List.mem_map_of_mem ha))
  rw [hlists] at hmem
  obtain ⟨value, hvalue, heq⟩ := List.mem_map.1 hmem
  obtain ⟨b, hb, rfl⟩ := List.mem_map.1 (mem_sortedBy.1 hvalue)
  rwa [← hf.inj b a heq]

theorem proper_primitiveSet {α : Type} {f : α → Json} (hf : Faithful f) (members : List α) :
    Proper (fun _ => True) (primitiveSet (members.map f)) := by
  refine .array fun value hvalue => ?_
  obtain ⟨a, -, rfl⟩ := List.mem_map.1 (mem_sortedBy.1 hvalue)
  exact hf.proper a

section Plans

variable [Unicode]

/-! ## The plan

The payload of a plan has every field of the plan but the fingerprint itself. -/

theorem faithful_pathText : Faithful fun path : PathText => .string path.text :=
  faithful_string.comp PathText.text_injective

theorem faithful_optionalPath : Faithful (optional fun path : PathText => .string path.text) :=
  faithful_pathText.optional fun _ h => Json.noConfusion h

theorem faithful_operation : Faithful OperationRecord.primitive := by
  refine faithful_object (fun _ _ => ?_) (fun _ => ?_) (fun _ => ?_) fun a b h => ?_
  · simp only [List.map_cons, List.map_nil]
  · simp only [List.map_cons, List.map_nil]
    decide
  · simp only [List.forall_mem_cons]
    exact ⟨.string trivial, .string trivial, faithful_optionalPath.proper _, .string trivial,
      faithful_optionalStat.proper _, faithful_optionalStat.proper _, faithful_optionalStat.proper
      _, faithful_optionalPath.proper _, faithful_optionalStat.proper _,
      faithful_optionalMetadata.proper _, .int _, faithful_opId.array.proper _, .string trivial,
      faithful_optionalBlocked.proper _, List.forall_mem_nil _⟩
  · simp only [List.map_cons, List.map_nil, List.cons.injEq, and_true] at h
    obtain ⟨hid, hkind, hsource, htarget, hsourceExpected, htargetExpected, hintended, hprior,
      hpriorExpected, hmetadata, hbytes, hdependencies, hreason, hblocked⟩ := h
    cases a
    cases b
    obtain rfl := faithful_opId.inj _ _ hid
    obtain rfl := faithful_operationKind.inj _ _ hkind
    obtain rfl := faithful_optionalPath.inj _ _ hsource
    obtain rfl := faithful_pathText.inj _ _ htarget
    obtain rfl := faithful_optionalStat.inj _ _ hsourceExpected
    obtain rfl := faithful_optionalStat.inj _ _ htargetExpected
    obtain rfl := faithful_optionalStat.inj _ _ hintended
    obtain rfl := faithful_optionalPath.inj _ _ hprior
    obtain rfl := faithful_optionalStat.inj _ _ hpriorExpected
    obtain rfl := faithful_optionalMetadata.inj _ _ hmetadata
    obtain rfl := faithful_int.inj _ _ hbytes
    obtain rfl := faithful_opId.array.inj _ _ hdependencies
    obtain rfl := faithful_operationReason.inj _ _ hreason
    obtain rfl := faithful_optionalBlocked.inj _ _ hblocked
    rfl

theorem faithful_destination : Faithful DestinationRecord.primitive := by
  refine faithful_object (fun _ _ => ?_) (fun _ => ?_) (fun _ => ?_) fun a b h => ?_
  · simp only [List.map_cons, List.map_nil]
  · simp only [List.map_cons, List.map_nil]
    decide
  · simp only [List.forall_mem_cons]
    exact ⟨.string trivial, .string trivial, .string trivial, .string trivial,
      faithful_optionalString.proper _, faithful_optionalString.proper _, List.forall_mem_nil _⟩
  · simp only [List.map_cons, List.map_nil, List.cons.injEq, and_true] at h
    obtain ⟨hsource, -, htarget, -, hgroup, hconflict⟩ := h
    cases a
    cases b
    obtain rfl := faithful_pathText.inj _ _ hsource
    obtain rfl := faithful_pathText.inj _ _ htarget
    obtain rfl := faithful_optionalString.inj _ _ hgroup
    obtain rfl := faithful_optionalString.inj _ _ hconflict
    rfl

theorem faithful_assignment : Faithful AssignmentRecord.primitive := by
  refine faithful_object (fun _ _ => ?_) (fun _ => ?_) (fun _ => ?_) fun a b h => ?_
  · simp only [List.map_cons, List.map_nil]
  · simp only [List.map_cons, List.map_nil]
    decide
  · simp only [List.forall_mem_cons]
    exact ⟨.string trivial, .string trivial, faithful_destination.array.proper _,
      List.forall_mem_nil _⟩
  · simp only [List.map_cons, List.map_nil, List.cons.injEq, and_true] at h
    obtain ⟨hname, hversion, hitems⟩ := h
    cases a
    cases b
    obtain rfl := faithful_string.inj _ _ hname
    obtain rfl := faithful_string.inj _ _ hversion
    obtain rfl := faithful_destination.array.inj _ _ hitems
    rfl

theorem payload_nodup {plan : PlanRecord} {fields : List (Str × Json)}
    (h : plan.payload = .object fields) : (fields.map Prod.fst).Nodup := by
  obtain rfl := Json.object.inj h
  simp only [List.map_cons, List.map_nil]
  decide

/-- The payload can be written: its keys are distinct in every object. -/
theorem proper_payload (plan : PlanRecord) : Proper (fun _ => True) plan.payload := by
  refine .object (payload_nodup rfl) (fun _ _ => trivial) ?_
  · simp only [List.forall_mem_cons]
    exact ⟨faithful_root.proper _, faithful_root.proper _, faithful_optionalVolume.proper _,
      faithful_optionalVolume.proper _, faithful_optionalEvidence.proper _,
      faithful_optionalEvidence.proper _, faithful_profile.proper _, faithful_profile.proper _,
      .bool _, .bool _, faithful_operation.array.proper _, faithful_assignment.proper _,
      faithful_preservation.proper _, faithful_filters.proper _, .string trivial, .bool _,
      .string trivial, .int _, proper_primitiveSet faithful_volumeId _, .int _,
      List.forall_mem_nil _⟩

/-- Two plans with the same canonical bytes differ in their fingerprint at
most. -/
theorem sameContent_of_canonicalBytes {plan other : PlanRecord}
    (h : plan.payload.canonicalBytes = other.payload.canonicalBytes) : plan.SameContent other := by
  have hsorted := sorted_eq_of_canonicalBytes (proper_payload plan) (proper_payload other) h
  have hvalues := values_eq_of_sorted (@payload_nodup _ plan _ rfl)
    (by simp only [List.map_cons, List.map_nil]) hsorted
  simp only [List.map_cons, List.map_nil, List.cons.injEq, and_true] at hvalues
  obtain ⟨hsourceRoot, htargetRoot, hsourceVolume, htargetVolume, hsourceEvidence,
    htargetEvidence, hsourceProfile, htargetProfile, hsourceComplete, htargetComplete,
    hoperations, hassignment, hpreservation, hfilters, hdeletion, htrash, hpolicy, hworkers,
    hvolumes, hbytes⟩ := hvalues
  refine ⟨?_, fun volume => ⟨mem_of_primitiveSet faithful_volumeId hvolumes volume,
    mem_of_primitiveSet faithful_volumeId hvolumes.symm volume⟩⟩
  cases plan
  cases other
  obtain rfl := faithful_root.inj _ _ hsourceRoot
  obtain rfl := faithful_root.inj _ _ htargetRoot
  obtain rfl := faithful_optionalVolume.inj _ _ hsourceVolume
  obtain rfl := faithful_optionalVolume.inj _ _ htargetVolume
  obtain rfl := faithful_optionalEvidence.inj _ _ hsourceEvidence
  obtain rfl := faithful_optionalEvidence.inj _ _ htargetEvidence
  obtain rfl := faithful_profile.inj _ _ hsourceProfile
  obtain rfl := faithful_profile.inj _ _ htargetProfile
  obtain rfl := faithful_bool.inj _ _ hsourceComplete
  obtain rfl := faithful_bool.inj _ _ htargetComplete
  obtain rfl := faithful_operation.array.inj _ _ hoperations
  obtain rfl := faithful_assignment.inj _ _ hassignment
  obtain rfl := faithful_preservation.inj _ _ hpreservation
  obtain rfl := faithful_filters.inj _ _ hfilters
  obtain rfl := faithful_deletionPolicy.inj _ _ hdeletion
  obtain rfl := faithful_bool.inj _ _ htrash
  obtain rfl := faithful_string.inj _ _ hpolicy
  obtain rfl := faithful_int.inj _ _ hworkers
  obtain rfl := faithful_int.inj _ _ hbytes
  rfl

end Plans

end Records

section Selections

/-- Two selections with the same canonical bytes are the same up to their
order. -/
theorem perm_of_selectionBytes {selection other : List Str}
    (h : (selectionPayload selection).canonicalBytes = (selectionPayload other).canonicalBytes) :
    selection.Perm other := by
  have hlists := faithful_string.array.of_canonicalBytes h
  exact (sortedBy_perm id selection).symm.trans (hlists ▸ sortedBy_perm id other)

end Selections

end NamiSync
