/-
# `Workflows.PayloadStrings` — which requests can be written

What may stand in a request: any strings in which no high surrogate is
immediately followed by a low one, for these two are what the escapes of one
code point look like.  Everything else that is written is ASCII.

`strings` lists the strings of a request that a caller chooses, and
`proper_…` shows, part by part, that a payload whose strings are `Unpaired` can
be read back: keys are literals and distinct, numbers, times and hexadecimal
texts are ASCII.
-/
import NamiSync.Workflows.PayloadText

namespace NamiSync

open Checked Json

/-! ## The strings of a request

Everything in a request that a caller or a volume can choose.  The identifiers,
the times and the members of enumerations are left out: these are ASCII. -/

section Strings

variable [Unicode]

def VolumeId.strings (volume : VolumeId) : List Str := [volume.serial, volume.fsType]

def VolumeEvidence.strings (evidence : VolumeEvidence) : List Str :=
  evidence.label.toList ++ evidence.deviceId.toList

def FileStat.strings (stat : FileStat) : List Str :=
  stat.fileIdentity.toList.map FileIdentity.volumeSerial

def OperationRecord.strings (operation : OperationRecord) : List Str :=
  operation.sourceRelPath.toList.map PathText.text ++ [operation.targetRelPath.text] ++
    operation.priorTargetRelPath.toList.map PathText.text ++
    (operation.sourceExpected.toList ++ operation.targetExpected.toList ++
      operation.intended.toList ++ operation.priorTargetExpected.toList).flatMap FileStat.strings

def DestinationRecord.strings (item : DestinationRecord) : List Str :=
  [item.sourceRelPath.text, item.sourceRelPath.path.key, item.targetRelPath.text,
    item.targetRelPath.path.key] ++ item.groupId.toList ++ item.conflict.toList

def AssignmentRecord.strings (assignment : AssignmentRecord) : List Str :=
  [assignment.policyName, assignment.policyVersion] ++
    assignment.items.flatMap DestinationRecord.strings

/-- The strings of a plan besides its fingerprint and its volumes. -/
def PlanRecord.contentStrings (plan : PlanRecord) : List Str :=
  [plan.sourceRoot.path, plan.sourceRoot.rootId, plan.targetRoot.path, plan.targetRoot.rootId] ++
    (plan.sourceVolumeId.toList ++ plan.targetVolumeId.toList).flatMap VolumeId.strings ++
    (plan.sourceVolumeEvidence.toList ++ plan.targetVolumeEvidence.toList).flatMap
      VolumeEvidence.strings ++
    [plan.sourceProfile.fsType, plan.targetProfile.fsType] ++
    plan.operations.flatMap OperationRecord.strings ++ plan.assignment.strings ++
    plan.filterSnapshot.patterns ++ [plan.policyFingerprint]

def PlanRecord.strings (plan : PlanRecord) : List Str :=
  plan.contentStrings ++ plan.requiredVolumes.flatMap VolumeId.strings ++ [plan.fingerprint]

def ExecutionRequest.strings (request : ExecutionRequest) : List Str :=
  request.executionSet.plan.strings ++
    request.executionSet.commitment.toList.map Commitment.planFingerprint

def PlanRequest.strings (request : PlanRequest) : List Str :=
  [request.requestId, request.sourcePath, request.targetPath] ++ request.options.filters.patterns

end Strings

/-! ## Their payloads can be read

`Proper` is what `loads_canonicalBytes` asks of a value.  One lemma for each
part: the literal keys by evaluation, the digits and the times because they are
ASCII, the strings by hypothesis. -/

theorem unpaired_of_forall {value : Str} (h : ∀ c ∈ value, isSurrogate c = false) :
    Unpaired value := by
  unfold Unpaired
  refine List.Pairwise.isChain (List.pairwise_of_forall_mem_list fun c hc _ _ => ?_)
  have hlow := mt isSurrogate_iff.2 (by rw [h c hc]; exact Bool.false_ne_true)
  unfold isHighSurrogate
  rw [Bool.and_eq_false_iff, Bool.and_eq_false_iff, decide_eq_false_iff_not,
    decide_eq_false_iff_not]
  omega

theorem unpaired_plain {value : Str} (h : ∀ c ∈ value, c.val < 0x80) : Unpaired value :=
  unpaired_of_forall fun c hc => not_surrogate_of_lt (by have := h c hc; omega)

theorem unpaired_literal {value : Str} (h : value.all (fun c => decide (c.val < 0x80)) = true) :
    Unpaired value :=
  unpaired_plain (plain_text h)

section Proper

theorem keys_literal {fields : List (Str × Json)}
    (h : fields.all (fun field => field.1.all fun c => decide (c.val < 0x80)) = true) :
    ∀ field ∈ fields, Unpaired field.1 :=
  fun field hfield => unpaired_literal (List.all_eq_true.1 h field hfield)

theorem proper_optional {α : Type} {p : Str → Prop} {f : α → Json} {value : Option α}
    (h : ∀ a ∈ value.toList, Proper p (f a)) : Proper p (Json.optional f value) := by
  cases value with
  | none => exact .null
  | some a => exact h a List.mem_cons_self

theorem proper_list {α : Type} {p : Str → Prop} {f : α → Json} {values : List α}
    (h : ∀ a ∈ values, Proper p (f a)) : Proper p (.array (values.map f)) := by
  refine .array fun item hitem => ?_
  obtain ⟨a, ha, rfl⟩ := List.mem_map.1 hitem
  exact h a ha

theorem proper_optionalText {p : Str → Prop} {value : Option Str} (h : ∀ a ∈ value.toList, p a) :
    Proper p (Json.optional Json.string value) :=
  proper_optional fun a ha => .string (h a ha)

theorem proper_optionalInt {p : Str → Prop} (value : Option Nat) :
    Proper p (Json.optional Json.int value) :=
  proper_optional fun a _ => .int a

theorem proper_volume {volume : VolumeId} (h : ∀ text ∈ volume.strings, Unpaired text) :
    Proper Unpaired volume.primitive := by
  simp only [VolumeId.strings, List.forall_mem_cons] at h
  refine .object (of_decide_eq_true rfl) (keys_literal rfl) ?_
  simp only [List.forall_mem_cons]
  exact ⟨.string h.1, .string h.2.1, List.forall_mem_nil _⟩

theorem proper_evidence {evidence : VolumeEvidence} (h : ∀ text ∈ evidence.strings, Unpaired text) :
    Proper Unpaired evidence.primitive := by
  simp only [VolumeEvidence.strings, List.forall_mem_append] at h
  refine .object (of_decide_eq_true rfl) (keys_literal rfl) ?_
  simp only [List.forall_mem_cons]
  exact ⟨proper_optionalText h.1, proper_optionalText h.2, .bool _, List.forall_mem_nil _⟩

theorem proper_profile {profile : CapabilityProfile} (h : Unpaired profile.fsType) :
    Proper Unpaired profile.primitive := by
  refine .object (of_decide_eq_true rfl) (keys_literal rfl) ?_
  simp only [List.forall_mem_cons]
  exact ⟨.string h, .int _, .bool _, proper_optional fun a _ => .bool a, .int _, .bool _, .bool _,
    List.forall_mem_nil _⟩

theorem proper_metadata (metadata : MetadataSnapshot) : Proper Unpaired metadata.primitive := by
  refine .object (of_decide_eq_true rfl) (keys_literal rfl) ?_
  simp only [List.forall_mem_cons]
  exact ⟨.int _, proper_optionalInt _, List.forall_mem_nil _⟩

theorem proper_identity {identity : FileIdentity} (h : Unpaired identity.volumeSerial) :
    Proper Unpaired identity.primitive := by
  refine .object (of_decide_eq_true rfl) (keys_literal rfl) ?_
  simp only [List.forall_mem_cons]
  exact ⟨.string h, .int _, List.forall_mem_nil _⟩

theorem proper_stat {stat : Option FileStat}
    (h : ∀ text ∈ stat.toList.flatMap FileStat.strings, Unpaired text) :
    Proper Unpaired (Payloads.stat stat) := by
  refine proper_optional fun value hvalue => ?_
  have hidentity : ∀ identity ∈ value.fileIdentity.toList, Unpaired identity.volumeSerial :=
    fun identity hidentity =>
      h _ (List.mem_flatMap.2 ⟨value, hvalue, List.mem_map_of_mem hidentity⟩)
  refine .object (of_decide_eq_true rfl) (keys_literal rfl) ?_
  simp only [List.forall_mem_cons]
  refine ⟨.string ?_, .int _, .int _,
    proper_optional fun identity hmem => proper_identity (hidentity identity hmem), .int _,
    proper_metadata _, List.forall_mem_nil _⟩
  cases value.kind <;> exact unpaired_literal rfl

theorem unpaired_hexDigits (width n : Nat) : Unpaired (hexDigits width n) :=
  unpaired_plain fun _ hc => hexDigits_lt hc

theorem unpaired_hexText (bytes : List UInt8) : Unpaired (hexText bytes) := by
  refine unpaired_plain fun c hc => ?_
  obtain ⟨byte, -, hc⟩ := List.mem_flatMap.1 hc
  exact hexDigits_lt hc

theorem padded_lt {width n : Nat} {c : CodePoint} (h : c ∈ padded width n) : c.val < 0x80 := by
  induction width generalizing n with
  | zero => exact absurd h List.not_mem_nil
  | succ width ih =>
      rcases List.mem_append.1 h with h | h
      · exact ih h
      · rw [List.mem_singleton.1 h, decimalDigit, dif_pos (Nat.mod_lt n (by omega))]
        have hmod := Nat.mod_lt n (show 0 < 10 by omega)
        show 0x30 + n % 10 < 0x80
        omega

theorem fractionText_lt {microsecond : Nat} {c : CodePoint} (h : c ∈ fractionText microsecond) :
    c.val < 0x80 := by
  unfold fractionText at h
  split at h
  · exact absurd h List.not_mem_nil
  · rcases List.mem_cons.1 h with rfl | h
    · decide
    · exact padded_lt h

theorem offsetText_lt {offset : Option Int} {c : CodePoint} (h : c ∈ offsetText offset) :
    c.val < 0x80 := by
  cases offset with
  | none => exact absurd h List.not_mem_nil
  | some offset =>
      simp only [offsetText, List.cons_append, List.mem_cons, List.mem_append, List.append_assoc]
        at h
      rcases h with rfl | h | rfl | h | h
      · split <;> decide
      · exact padded_lt h
      · decide
      · exact padded_lt h
      · split at h
        · exact absurd h List.not_mem_nil
        · simp only [List.mem_cons, List.mem_append] at h
          rcases h with rfl | h | h
          · decide
          · exact padded_lt h
          · exact fractionText_lt h

theorem unpaired_isoformat (time : Datetime) : Unpaired time.isoformat := by
  refine unpaired_plain fun c hc => ?_
  simp only [Datetime.isoformat, List.cons_append, List.mem_cons, List.mem_append,
    List.append_assoc] at hc
  rcases hc with h | rfl | h | rfl | h | rfl | h | rfl | h | rfl | h | h | h
  · exact padded_lt h
  · decide
  · exact padded_lt h
  · decide
  · exact padded_lt h
  · decide
  · exact padded_lt h
  · decide
  · exact padded_lt h
  · decide
  · exact padded_lt h
  · exact fractionText_lt h
  · exact offsetText_lt h

theorem proper_preservation (preservation : PreservationPolicy) :
    Proper Unpaired preservation.primitive := by
  refine .object (of_decide_eq_true rfl) (keys_literal rfl) ?_
  simp only [List.forall_mem_cons]
  exact ⟨.bool _, .bool _, .bool _, List.forall_mem_nil _⟩

theorem proper_root {root : Root} (hpath : Unpaired root.path) (hid : Unpaired root.rootId) :
    Proper Unpaired root.primitive := by
  refine .object (of_decide_eq_true rfl) (keys_literal rfl) ?_
  simp only [List.forall_mem_cons]
  exact ⟨.string hpath, .string hid, List.forall_mem_nil _⟩

theorem proper_deletionPolicy (policy : DeletionPolicy) :
    Proper Unpaired (.string policy.value) := by
  cases policy <;> exact .string (unpaired_literal rfl)

variable [Unicode]

theorem proper_operation {operation : OperationRecord}
    (h : ∀ text ∈ operation.strings, Unpaired text) :
    Proper Unpaired (Payloads.operation operation) := by
  simp only [OperationRecord.strings, List.forall_mem_append, List.forall_mem_cons,
    List.flatMap_append, List.forall_mem_map] at h
  obtain ⟨⟨⟨hsource, htarget, -⟩, hprior⟩, ⟨⟨hsourceStat, htargetStat⟩, hintended⟩, hpriorStat⟩ := h
  refine .object (of_decide_eq_true rfl) (keys_literal rfl) ?_
  simp only [List.forall_mem_cons]
  refine ⟨.string (unpaired_hexDigits _ _), .string ?_,
    proper_optional fun path hpath => .string (hsource path hpath), .string htarget,
    proper_stat hsourceStat, proper_stat htargetStat, proper_stat hintended,
    proper_optional fun path hpath => .string (hprior path hpath), proper_stat hpriorStat,
    proper_optional fun metadata _ => proper_metadata metadata, .int _,
    proper_list fun id _ => .string (unpaired_hexDigits _ _), .string ?_,
    proper_optional fun reason _ => .string ?_, List.forall_mem_nil _⟩
  · cases operation.kind <;> exact unpaired_literal rfl
  · cases operation.reason <;> exact unpaired_literal rfl
  · cases reason <;> exact unpaired_literal rfl

theorem proper_assignment {assignment : AssignmentRecord}
    (h : ∀ text ∈ assignment.strings, Unpaired text) : Proper Unpaired assignment.primitive := by
  simp only [AssignmentRecord.strings, List.forall_mem_append, List.forall_mem_cons,
    List.forall_mem_flatMap] at h
  obtain ⟨⟨hname, hversion, -⟩, hitems⟩ := h
  refine .object (of_decide_eq_true rfl) (keys_literal rfl) ?_
  simp only [List.forall_mem_cons]
  refine ⟨.string hname, .string hversion, proper_list fun item hitem => ?_, List.forall_mem_nil _⟩
  have hstrings := hitems item hitem
  simp only [DestinationRecord.strings, List.forall_mem_append, List.forall_mem_cons] at hstrings
  obtain ⟨⟨⟨hsource, hsourceKey, htarget, htargetKey, -⟩, hgroup⟩, hconflict⟩ := hstrings
  refine .object (of_decide_eq_true rfl) (keys_literal rfl) ?_
  simp only [List.forall_mem_cons]
  exact ⟨.string hsource, .string hsourceKey, .string htarget, .string htargetKey,
    proper_optionalText hgroup, proper_optionalText hconflict, List.forall_mem_nil _⟩

theorem proper_plan {plan : PlanRecord} (h : ∀ text ∈ plan.strings, Unpaired text) :
    Proper Unpaired (Payloads.plan plan) := by
  simp only [PlanRecord.strings, PlanRecord.contentStrings, List.forall_mem_append,
    List.forall_mem_cons, List.forall_mem_flatMap] at h
  obtain ⟨⟨⟨⟨⟨⟨⟨⟨⟨⟨hsourcePath, hsourceId, htargetPath, htargetId, -⟩, hsourceVolume,
    htargetVolume⟩, hsourceEvidence, htargetEvidence⟩, hsourceProfile, htargetProfile, -⟩,
    hoperations⟩, hassignment⟩, hfilters⟩, hpolicy, -⟩, hvolumes⟩, hfingerprint, -⟩ := h
  refine .object (of_decide_eq_true rfl) (keys_literal rfl) ?_
  simp only [List.forall_mem_cons]
  exact ⟨proper_root hsourcePath hsourceId, proper_root htargetPath htargetId,
    proper_optional fun volume hvolume => proper_volume (hsourceVolume volume hvolume),
    proper_optional fun volume hvolume => proper_volume (htargetVolume volume hvolume),
    proper_optional fun evidence hevidence => proper_evidence (hsourceEvidence evidence hevidence),
    proper_optional fun evidence hevidence => proper_evidence (htargetEvidence evidence hevidence),
    proper_profile hsourceProfile, proper_profile htargetProfile, .bool _, .bool _,
    proper_list fun operation hmem => proper_operation (hoperations operation hmem),
    proper_assignment hassignment, proper_preservation _,
    proper_list fun pattern hpattern => .string (hfilters pattern hpattern),
    proper_deletionPolicy _, .bool _, .string hpolicy, .int _,
    proper_list fun volume hvolume => proper_volume (hvolumes volume (mem_sortedBy.1 hvolume)),
    .int _, .string hfingerprint, List.forall_mem_nil _⟩

omit [Unicode] in
theorem proper_status (status : Dict OpId Outcome) :
    Proper Unpaired (.object ((sortedBy Prod.fst status.entries).map fun entry =>
      (OpId.text entry.1, .string entry.2.value))) := by
  have hkeys : (((sortedBy Prod.fst status.entries).map fun entry =>
      (OpId.text entry.1, Json.string entry.2.value)).map Prod.fst).Nodup := by
    have hnodup : ((sortedBy Prod.fst status.entries).map Prod.fst).Nodup :=
      ((sortedBy_perm Prod.fst status.entries).map Prod.fst).nodup_iff.2 status.nodup
    have htexts := hnodup.map OpId.text_injective
    rw [List.map_map] at htexts ⊢
    exact htexts
  refine .object hkeys (fun field hfield => ?_) fun field hfield => ?_
  · obtain ⟨entry, -, rfl⟩ := List.mem_map.1 hfield
    exact unpaired_hexDigits _ _
  · obtain ⟨entry, -, rfl⟩ := List.mem_map.1 hfield
    show Proper Unpaired (.string entry.2.value)
    cases entry.2 <;> exact .string (unpaired_literal rfl)

/-- An execution request is read back when its strings can be. -/
theorem proper_execution {request : ExecutionRequest}
    (h : ∀ text ∈ request.strings, Unpaired text) : Proper Unpaired request.payload := by
  simp only [ExecutionRequest.strings, List.forall_mem_append, List.forall_mem_map] at h
  obtain ⟨hplan, hcommitment⟩ := h
  refine .object (of_decide_eq_true rfl) (keys_literal rfl) ?_
  simp only [List.forall_mem_cons]
  refine ⟨.int _, .string (unpaired_literal rfl), proper_plan hplan,
    proper_list fun id hid => .string ?_, .string (unpaired_hexDigits _ _), ?_,
    proper_optional fun commitment hmem => ?_,
    proper_optional fun time _ => .string (unpaired_isoformat time), List.forall_mem_nil _⟩
  · obtain ⟨id, -, rfl⟩ := List.mem_map.1 (mem_sortedBy.1 hid)
    exact unpaired_hexDigits _ _
  · exact proper_status _
  · refine .object (of_decide_eq_true rfl) (keys_literal rfl) ?_
    simp only [List.forall_mem_cons]
    exact ⟨.string (hcommitment commitment hmem), .string (unpaired_hexText _),
      .string (unpaired_isoformat _), List.forall_mem_nil _⟩

/-- A plan request is read back when its strings can be. -/
theorem proper_planRequest {request : PlanRequest}
    (h : ∀ text ∈ request.strings, Unpaired text) : Proper Unpaired request.payload := by
  simp only [PlanRequest.strings, List.forall_mem_append, List.forall_mem_cons] at h
  obtain ⟨⟨hid, hsource, htarget, -⟩, hfilters⟩ := h
  refine .object (of_decide_eq_true rfl) (keys_literal rfl) ?_
  simp only [List.forall_mem_cons]
  refine ⟨.int _, .string (unpaired_literal rfl), .string hid, .string hsource, .string htarget,
    .object (of_decide_eq_true rfl) (keys_literal rfl) ?_, List.forall_mem_nil _⟩
  simp only [List.forall_mem_cons]
  exact ⟨proper_deletionPolicy _, proper_preservation _,
    proper_list fun pattern hpattern => .string (hfilters pattern hpattern), .int _, .bool _,
    .bool _, .bool _, List.forall_mem_nil _⟩

end Proper

end NamiSync
