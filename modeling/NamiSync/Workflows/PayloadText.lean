/-
# `Workflows.PayloadText` — each part of a payload is read back

One lemma for each pair of a writer and its reader.  The reader of an object
asks for its keys, in whatever order they were sorted; the constructors
accept what they once built.

## How it is used

`…_read` takes an object as it arrives (its keys sorted) and gives the value it
was written from.  A plan comes back with its volumes sorted (`reread`), since
a frozen set has no order; everything else comes back as it was.
-/
import NamiSync.Workflows.Payloads

namespace NamiSync

open Checked

/-! ## Identifiers and bytes

An identifier and the bytes of a digest are written in hexadecimal digits and
read back from these. -/

theorem hexValues_append (digits : Str) (digit : CodePoint) :
    hexValues (digits ++ [digit]) = (hexValues digits).bind fun high =>
      (hexValue digit).map fun low => high * 16 + low := by
  induction digits with
  | nil =>
      rw [List.nil_append]
      show ((hexValue digit).bind fun high => (hexValues []).bind fun low =>
        some (high * 16 ^ 0 + low)) = _
      cases hexValue digit with
      | none => rfl
      | some low => simp [show hexValues [] = some 0 from rfl]
  | cons first digits ih =>
      rw [List.cons_append, hexValues, ih, hexValues]
      cases hexValue first with
      | none => rfl
      | some top =>
          cases hexValues digits with
          | none => rfl
          | some high =>
              cases hexValue digit with
              | none => rfl
              | some low =>
                  simp only [Option.bind_eq_bind, Option.bind_some, Option.map_some,
                    List.length_append, List.length_singleton, Nat.pow_succ]
                  congr 1
                  rw [Nat.add_mul, Nat.mul_assoc, Nat.add_assoc]

theorem hexValues_hexDigits {width n : Nat} (h : n < 16 ^ width) :
    hexValues (hexDigits width n) = some n := by
  induction width generalizing n with
  | zero =>
      obtain rfl : n = 0 := by omega
      rfl
  | succ width ih =>
      rw [Nat.pow_succ] at h
      rw [hexDigits, hexValues_append, ih (by omega), Option.bind_some,
        hexValue_hexDigit (Nat.mod_lt n (by omega)), Option.map_some]
      congr 1
      omega

theorem fixedId_hexDigits (id : Fin (16 ^ 32)) : fixedId (hexDigits 32 id) = some id := by
  have hlower : (hexDigits 32 id).all (fun c => c.val < 0x41 || 0x61 ≤ c.val) = true := by
    rw [List.all_eq_true]
    intro c hc
    rcases hexDigits_lower hc with h | h
    · simp only [Bool.or_eq_true, decide_eq_true_eq]
      omega
    · simp only [Bool.or_eq_true, decide_eq_true_eq]
      omega
  rw [fixedId, hexValues_hexDigits id.isLt, Option.bind_eq_bind, Option.bind_some, dif_pos id.isLt,
    if_pos ⟨hexDigits_length 32 id, hlower⟩]

theorem isAsciiSpace_hexDigit {n : Nat} (h : n < 16) : isAsciiSpace (hexDigit n) = false := by
  unfold isAsciiSpace
  rw [hexDigit_val h, Bool.or_eq_false_iff, Bool.and_eq_false_iff, decide_eq_false_iff_not,
    decide_eq_false_iff_not, decide_eq_false_iff_not]
  split <;> omega

theorem bytesFromHex_hexText (bytes : List UInt8) : bytesFromHex (hexText bytes) = some bytes := by
  induction bytes with
  | nil => rfl
  | cons byte bytes ih =>
      have hlt : byte.toNat < 256 := byte.toNat_lt
      have hdigits : hexDigits 2 byte.toNat =
          [hexDigit (byte.toNat / 16 % 16), hexDigit (byte.toNat % 16)] := rfl
      unfold hexText at ih ⊢
      rw [List.flatMap_cons, hdigits]
      show bytesFromHex (_ :: _ :: _) = _
      rw [bytesFromHex.eq_def]
      dsimp only
      rw [isAsciiSpace_hexDigit (Nat.mod_lt _ (by omega)), if_neg Bool.false_ne_true,
        hexValue_hexDigit (Nat.mod_lt _ (by omega)), hexValue_hexDigit (Nat.mod_lt _ (by omega)),
        List.append_eq, List.nil_append, ih]
      simp only [Option.bind_eq_bind, Option.bind_some]
      rw [show byte.toNat / 16 % 16 * 16 + byte.toNat % 16 = byte.toNat by omega, UInt8.ofNat_toNat]

theorem Outcome.ofValue_value (outcome : Outcome) : ofValue outcome.value = some outcome := by
  cases outcome <;> decide

/-! ## Constructors on what they built

The reader passes what it has read to the constructor, which checks again.
A value in hand has passed that constructor once, and each check is one of its
own fields, so the second pass accepts it and changes nothing. -/

theorem VolumeId.ofPayload_self (volume : VolumeId) :
    VolumeId.ofPayload volume.serial volume.fsType = .ok volume :=
  dif_pos ⟨volume.serial_ne, volume.fsType_ne⟩

theorem CapabilityProfile.ofPayload_self (profile : CapabilityProfile) :
    CapabilityProfile.ofPayload profile.fsType profile.mtimeGranularityNs profile.stableFileIdentity
      profile.incursSeekPenalty profile.maxPath profile.supportsAds profile.supportsHardlinks =
        .ok profile := by
  rw [CapabilityProfile.ofPayload, dif_pos profile.granularity_pos, dif_pos profile.maxPath_pos]

theorem FileIdentity.ofPayload_self (identity : FileIdentity) :
    FileIdentity.ofPayload identity.volumeSerial identity.fileIndex = .ok identity :=
  dif_pos identity.volumeSerial_ne

theorem FileStat.ofPayload_self (stat : FileStat) :
    FileStat.ofPayload stat.kind stat.size stat.mtimeNs stat.fileIdentity stat.nlink stat.metadata =
      .ok stat :=
  dif_pos stat.nlink_pos

theorem Root.ofPayload_self (root : Root) : Root.ofPayload root.path root.rootId = .ok root := by
  rw [Root.ofPayload, dif_pos ⟨root.path_ne, root.path_no_nul⟩, dif_pos root.rootId_ne]

theorem Commitment.ofPayload_self (commitment : Commitment) :
    Commitment.ofPayload commitment.planFingerprint commitment.selectionDigest
      commitment.committedAt = .ok commitment := by
  rw [Commitment.ofPayload, dif_pos commitment.planFingerprint_ne, dif_pos commitment.digest_length,
    if_pos (by rw [commitment.committedAt_utc]; exact Option.some_ne_none _),
    dif_pos commitment.committedAt_utc]

section Constructors

variable [Unicode]

omit [Unicode] in
theorem FilterSet.make_self (filters : FilterSet) : FilterSet.make filters.patterns = filters := by
  have hcanonical : filters.patterns.map canonicalText = filters.patterns := by
    conv_rhs => rw [← List.map_id filters.patterns]
    refine List.map_congr_left fun pattern hpattern => ?_
    conv_rhs => rw [id, ← List.map_id pattern]
    refine List.map_congr_left fun c hc => if_neg ?_
    rintro rfl
    exact filters.no_slash pattern hpattern hc
  have hsorted : sortedBy id filters.patterns = filters.patterns := by
    have : Std.Total fun a b : Str => id a ≤ id b := ⟨fun a b => le_total a b⟩
    have : IsTrans Str fun a b => id a ≤ id b := ⟨fun _ _ _ => le_trans⟩
    exact List.Pairwise.insertionSort_eq (filters.sorted.imp fun h => le_of_lt h)
  have hnodup : filters.patterns.Nodup := filters.sorted.imp fun h => ne_of_lt h
  obtain ⟨patterns, _, _⟩ := filters
  unfold FilterSet.make
  congr
  rw [hcanonical, hnodup.dedup, hsorted]

theorem PathText.ofPayload_self (path : PathText) : PathText.ofPayload path.text = .ok path := by
  unfold PathText.ofPayload
  split
  · next other h =>
      obtain rfl := Except.ok.inj (h.symm.trans path.valid)
      rfl
  · next error h => exact absurd (h.symm.trans path.valid) (by simp)

theorem PathText.ofPayloadOptional_self (path : Option PathText) :
    PathText.ofPayloadOptional (path.map PathText.text) = .ok path := by
  cases path with
  | none => rfl
  | some path => rw [Option.map_some, PathText.ofPayloadOptional, PathText.ofPayload_self]; rfl

theorem OperationRecord.ofPayload_self (operation : OperationRecord) :
    OperationRecord.ofPayload operation.opId.text operation.kind
      (operation.sourceRelPath.map PathText.text) operation.targetRelPath.text
      operation.sourceExpected operation.targetExpected operation.intended
      (operation.priorTargetRelPath.map PathText.text) operation.priorTargetExpected
      operation.metadata operation.contentBytes operation.dependencies operation.reason
      operation.blockedReason = .ok operation := by
  have hid : fixedId operation.opId.text = some operation.opId := fixedId_hexDigits operation.opId
  unfold OperationRecord.ofPayload
  rw [hid, orValueError, ok_bind, PathText.ofPayloadOptional_self, ok_bind, PathText.ofPayload_self,
    ok_bind, PathText.ofPayloadOptional_self, ok_bind, dif_pos operation.dependencies_nodup]

theorem DestinationRecord.ofPayload_self (item : DestinationRecord) :
    DestinationRecord.ofPayload item.sourceRelPath.text item.sourceRelPath.path.key
      item.targetRelPath.text item.targetRelPath.path.key item.groupId item.conflict =
        .ok item := by
  rw [DestinationRecord.ofPayload, PathText.ofPayload_self, ok_bind, if_neg (not_not.2 rfl),
    PathText.ofPayload_self, ok_bind, if_neg (not_not.2 rfl)]

end Constructors

namespace Payloads

/-! ## Readers

The keys of an object come back sorted.  `object_read` is the one lemma about
that: it finds each field under its name, and the lemmas about the records only
list their names.  Where a reader takes an item that is already a mapping, its
lemma gives the mapping. -/

/-- The fields of an object. -/
def fields : Json → List (Str × Json)
  | .object fields => fields
  | _ => []

/-- An object is read by its keys, in whatever order they have come. -/
theorem object_read {value : Json} (hobject : value = .object (fields value))
    (hnodup : ((fields value).map Prod.fst).Nodup) :
    ∃ item, mapping value.sorted = .ok item ∧ ∀ (i : Nat) (name : String) (field : Json),
      (fields value)[i]? = some (str name, field) →
        required name item = .ok field.sorted ∧ Payloads.get name item = field.sorted := by
  refine ⟨sortedBy Prod.fst (Json.sortedFields (fields value)), ?_, ?_⟩
  · conv_lhs => rw [hobject, Json.sorted]
    rfl
  · intro i name field hfield
    have hmem : (str name, field.sorted) ∈
        sortedBy Prod.fst (Json.sortedFields (fields value)) := by
      rw [mem_sortedBy, Json.sortedFields_eq]
      exact List.mem_map_of_mem (List.mem_of_getElem? hfield)
    have hkeys : ((sortedBy Prod.fst (Json.sortedFields (fields value))).map Prod.fst).Nodup := by
      refine ((sortedBy_perm Prod.fst _).map Prod.fst).nodup_iff.2 ?_
      rw [Json.keys_sortedFields]
      exact hnodup
    rw [required, Payloads.get, Dict.lookup_of_mem hkeys hmem]
    exact ⟨rfl, rfl⟩

section Leaves

variable {α : Type} {f : α → Json} {decode : Json → Except PayloadError α}

theorem textOf_read (value : Str) : textOf (Json.string value).sorted = .ok value := rfl

theorem intOf_read (value : Nat) : intOf (Json.int value).sorted = .ok value := rfl

theorem boolOf_read (value : Bool) : boolOf (Json.bool value).sorted = value := rfl

theorem optional_read (hnull : ∀ a, f a ≠ .null) (h : ∀ a, decode (f a).sorted = .ok a)
    (value : Option α) : optional decode (Json.optional f value).sorted = .ok value := by
  cases value with
  | none => rfl
  | some a =>
      have hne : (f a).sorted ≠ .null := fun h => hnull a (Json.sorted_eq_null h)
      show optional decode (f a).sorted = _
      unfold optional
      split
      · next heq => exact absurd heq hne
      · rw [h a]
        rfl

theorem list_read (items : List Json) :
    list (Json.array items).sorted = .ok (items.map Json.sorted) := by
  rw [Json.sorted, list, Json.sortedItems_eq]

theorem mapM_read {β : Type} {decode : Json → Except PayloadError β} {g : α → β} {values : List α}
    (h : ∀ a ∈ values, decode (f a).sorted = .ok (g a)) :
    ((values.map f).map Json.sorted).mapM decode = .ok (values.map g) := by
  rw [List.map_map]
  exact mapM_map h

theorem member_read {name : String} {toValue : α → Str} {ofValue : Str → Option α}
    (h : ∀ a, ofValue (toValue a) = some a) (a : α) :
    member name ofValue (Json.string (toValue a)).sorted = .ok a := by
  rw [member, textOf_read, ok_bind, h a, orValueError]

theorem opId_read (message : String) (id : OpId) :
    opId message (Json.string id.text).sorted = .ok id := by
  rw [opId, textOf_read, ok_bind, OpId.text, fixedId_hexDigits, orValueError]

theorem time_read (value : Datetime) : time (Json.string value.isoformat).sorted = .ok value := by
  rw [time, textOf_read, ok_bind, fromisoformat_isoformat, orValueError]

end Leaves

theorem optionalText_read (value : Option Str) :
    optional textOf (Json.optional Json.string value).sorted = .ok value :=
  optional_read (fun _ h => Json.noConfusion h) textOf_read value

theorem optionalInt_read (value : Option Nat) :
    optional intOf (Json.optional Json.int value).sorted = .ok value :=
  optional_read (fun _ h => Json.noConfusion h) intOf_read value

theorem optionalBool_read (value : Option Bool) :
    optional (fun value => .ok (boolOf value)) (Json.optional Json.bool value).sorted =
      .ok value :=
  optional_read (fun _ h => Json.noConfusion h) (fun _ => rfl) value

section Parts

theorem decodeVolume_read (value : Option VolumeId) :
    decodeVolume (volume value).sorted = .ok value := by
  refine optional_read (fun _ h => Json.noConfusion h) (fun value => ?_) value
  obtain ⟨item, hitem, hread⟩ := @object_read value.primitive rfl (of_decide_eq_true rfl)
  rw [hitem, ok_bind, (hread 0 "serial" _ rfl).1, ok_bind, textOf_read, ok_bind,
    (hread 1 "fs_type" _ rfl).1, ok_bind, textOf_read, ok_bind, VolumeId.ofPayload_self]

theorem decodeEvidence_read (value : Option VolumeEvidence) :
    decodeEvidence (evidence value).sorted = .ok value := by
  refine optional_read (fun _ h => Json.noConfusion h) (fun value => ?_) value
  obtain ⟨item, hitem, hread⟩ := @object_read value.primitive rfl (of_decide_eq_true rfl)
  rw [hitem, ok_bind, (hread 0 "label" _ rfl).2, optionalText_read, ok_bind,
    (hread 1 "device_id" _ rfl).2, optionalText_read, ok_bind,
    (hread 2 "clone_ambiguous" _ rfl).1, ok_bind, boolOf_read]

theorem decodeProfile_read (value : CapabilityProfile) :
    decodeProfile (profile value).sorted = .ok value := by
  obtain ⟨item, hitem, hread⟩ := @object_read (profile value) rfl (of_decide_eq_true rfl)
  rw [decodeProfile, hitem, ok_bind, (hread 0 "fs_type" _ rfl).1, ok_bind, textOf_read, ok_bind,
    (hread 1 "mtime_granularity_ns" _ rfl).1, ok_bind, intOf_read, ok_bind,
    (hread 2 "stable_file_identity" _ rfl).1, ok_bind, (hread 3 "incurs_seek_penalty" _ rfl).2,
    optionalBool_read, ok_bind, (hread 4 "max_path" _ rfl).1, ok_bind, intOf_read, ok_bind,
    (hread 5 "supports_ads" _ rfl).1, ok_bind, (hread 6 "supports_hardlinks" _ rfl).1, ok_bind,
    boolOf_read, boolOf_read, boolOf_read, CapabilityProfile.ofPayload_self]

theorem decodeMetadata_read (value : MetadataSnapshot) :
    decodeMetadata value.primitive.sorted = .ok value := by
  obtain ⟨item, hitem, hread⟩ := @object_read value.primitive rfl (of_decide_eq_true rfl)
  rw [decodeMetadata, hitem, ok_bind, (hread 0 "attributes" _ rfl).1, ok_bind, intOf_read, ok_bind,
    (hread 1 "created_ns" _ rfl).2, optionalInt_read, ok_bind]

theorem decodeIdentity_read (value : FileIdentity) :
    decodeIdentity value.primitive.sorted = .ok value := by
  obtain ⟨item, hitem, hread⟩ := @object_read value.primitive rfl (of_decide_eq_true rfl)
  rw [decodeIdentity, hitem, ok_bind, (hread 0 "volume_serial" _ rfl).1, ok_bind, textOf_read,
    ok_bind, (hread 1 "file_index" _ rfl).1, ok_bind, intOf_read, ok_bind,
    FileIdentity.ofPayload_self]

theorem decodeStat_read (value : Option FileStat) : decodeStat (stat value).sorted = .ok value := by
  refine optional_read (fun _ h => Json.noConfusion h) (fun value => ?_) value
  obtain ⟨item, hitem, hread⟩ := @object_read
    (.object
      [(str "kind", .string value.kind.value),
       (str "size", .int value.size),
       (str "mtime_ns", .int value.mtimeNs),
       (str "identity", Json.optional FileIdentity.primitive value.fileIdentity),
       (str "nlink", .int value.nlink),
       (str "metadata", value.metadata.primitive)]) rfl (of_decide_eq_true rfl)
  rw [hitem, ok_bind, (hread 3 "identity" _ rfl).2,
    optional_read (fun _ h => Json.noConfusion h) decodeIdentity_read, ok_bind,
    (hread 5 "metadata" _ rfl).1, ok_bind, (hread 0 "kind" _ rfl).1, ok_bind,
    member_read EntryKind.ofValue_value, ok_bind, (hread 1 "size" _ rfl).1, ok_bind, intOf_read,
    ok_bind, (hread 2 "mtime_ns" _ rfl).1, ok_bind, intOf_read, ok_bind,
    (hread 4 "nlink" _ rfl).1, ok_bind, intOf_read, ok_bind, decodeMetadata_read, ok_bind,
    FileStat.ofPayload_self]

theorem decodePreservation_read (value : PreservationPolicy) :
    ∃ item, mapping value.primitive.sorted = .ok item ∧ decodePreservation item = .ok value := by
  obtain ⟨item, hitem, hread⟩ := @object_read value.primitive rfl (of_decide_eq_true rfl)
  refine ⟨item, hitem, ?_⟩
  rw [decodePreservation, (hread 0 "preserve_ads" _ rfl).1, ok_bind,
    (hread 1 "preserve_created" _ rfl).1, ok_bind, (hread 2 "preserve_acl" _ rfl).1, ok_bind,
    boolOf_read, boolOf_read, boolOf_read]

theorem decodeRoot_read (value : Root) :
    ∃ item, mapping value.primitive.sorted = .ok item ∧ decodeRoot item = .ok value := by
  obtain ⟨item, hitem, hread⟩ := @object_read value.primitive rfl (of_decide_eq_true rfl)
  refine ⟨item, hitem, ?_⟩
  rw [decodeRoot, (hread 0 "path" _ rfl).1, ok_bind, textOf_read, ok_bind,
    (hread 1 "root_id" _ rfl).1, ok_bind, textOf_read, ok_bind, Root.ofPayload_self]

theorem decodeFilters_read (value : FilterSet) :
    decodeFilters (Json.array (value.patterns.map .string)).sorted = .ok value := by
  rw [decodeFilters, list_read, ok_bind, mapM_read fun pattern _ => textOf_read pattern, ok_bind,
    List.map_id', FilterSet.make_self]

variable [Unicode]

theorem decodeOperation_read (value : OperationRecord) :
    decodeOperation (operation value).sorted = .ok value := by
  obtain ⟨item, hitem, hread⟩ := @object_read (operation value) rfl (of_decide_eq_true rfl)
  have hpath : ∀ path : Option PathText,
      optional textOf (Json.optional (fun path => Json.string path.text) path).sorted =
        .ok (path.map PathText.text) := by
    intro path
    cases path with
    | none => rfl
    | some path => rfl
  rw [decodeOperation, hitem, ok_bind, (hread 9 "metadata" _ rfl).2,
    optional_read (fun _ h => Json.noConfusion h) decodeMetadata_read, ok_bind,
    (hread 0 "op_id" _ rfl).1, ok_bind, textOf_read, ok_bind, (hread 1 "kind" _ rfl).1, ok_bind,
    member_read OperationKind.ofValue_value, ok_bind, (hread 2 "source_rel_path" _ rfl).2, hpath,
    ok_bind, (hread 3 "target_rel_path" _ rfl).1, ok_bind, textOf_read, ok_bind,
    (hread 4 "source_expected" _ rfl).2, decodeStat_read, ok_bind,
    (hread 5 "target_expected" _ rfl).2, decodeStat_read, ok_bind, (hread 6 "intended" _ rfl).2,
    decodeStat_read, ok_bind, (hread 7 "prior_target_rel_path" _ rfl).2, hpath, ok_bind,
    (hread 8 "prior_target_expected" _ rfl).2, decodeStat_read, ok_bind,
    (hread 10 "content_bytes" _ rfl).1, ok_bind, intOf_read, ok_bind,
    (hread 11 "dependencies" _ rfl).1, ok_bind, list_read, ok_bind,
    mapM_read fun id _ => opId_read _ id, ok_bind, List.map_id', (hread 12 "reason" _ rfl).1,
    ok_bind, member_read OperationReason.ofValue_value, ok_bind,
    (hread 13 "blocked_reason" _ rfl).2,
    optional_read (fun _ h => Json.noConfusion h) (member_read BlockedReason.ofValue_value),
    ok_bind, OperationRecord.ofPayload_self]

theorem decodeDestination_read (value : DestinationRecord) :
    decodeDestination value.primitive.sorted = .ok value := by
  obtain ⟨item, hitem, hread⟩ := @object_read value.primitive rfl (of_decide_eq_true rfl)
  rw [decodeDestination, hitem, ok_bind, (hread 0 "source_rel_path" _ rfl).1, ok_bind,
    textOf_read, ok_bind, (hread 1 "source_rel_path_key" _ rfl).1, ok_bind, textOf_read, ok_bind,
    (hread 2 "target_rel_path" _ rfl).1, ok_bind, textOf_read, ok_bind,
    (hread 3 "target_rel_path_key" _ rfl).1, ok_bind, textOf_read, ok_bind,
    (hread 4 "group_id" _ rfl).2, optionalText_read, ok_bind, (hread 5 "conflict" _ rfl).2,
    optionalText_read, ok_bind, DestinationRecord.ofPayload_self]

theorem decodeAssignment_read (value : AssignmentRecord) :
    ∃ item, mapping value.primitive.sorted = .ok item ∧ decodeAssignment item = .ok value := by
  obtain ⟨item, hitem, hread⟩ := @object_read value.primitive rfl (of_decide_eq_true rfl)
  refine ⟨item, hitem, ?_⟩
  rw [decodeAssignment, (hread 0 "policy_name" _ rfl).1, ok_bind, textOf_read,
    ok_bind, (hread 1 "policy_version" _ rfl).1, ok_bind, textOf_read, ok_bind,
    (hread 2 "items" _ rfl).1, ok_bind, list_read, ok_bind,
    mapM_read fun item _ => decodeDestination_read item, ok_bind, List.map_id']

/-- The plan as it is read back: its volumes have been sorted. -/
def reread (value : PlanRecord) : PlanRecord :=
  { value with
    requiredVolumes := sortedBy volumeOrder value.requiredVolumes
    requiredVolumes_nodup :=
      (sortedBy_perm volumeOrder value.requiredVolumes).nodup_iff.2
        value.requiredVolumes_nodup }

/-- The plan comes back as it was written, its volumes apart: these were a set, and
are read back in the order in which they were sorted. -/
theorem decodePlan_read (value : PlanRecord) :
    decodePlan (plan value).sorted = .ok (reread value) := by
  obtain ⟨item, hitem, hread⟩ := @object_read (plan value) rfl (of_decide_eq_true rfl)
  obtain ⟨sourceRoot, hsource, hsourceRoot⟩ := decodeRoot_read value.sourceRoot
  obtain ⟨targetRoot, htarget, htargetRoot⟩ := decodeRoot_read value.targetRoot
  obtain ⟨assignment, hassignment, hassigned⟩ := decodeAssignment_read value.assignment
  obtain ⟨preservation, hpreservation, hpreserved⟩ := decodePreservation_read value.preservation
  have hvolumes : ((sortedBy volumeOrder value.requiredVolumes).map
      (some : VolumeId → Option VolumeId)).filterMap id =
        sortedBy volumeOrder value.requiredVolumes := by
    rw [List.filterMap_map]
    exact List.filterMap_some
  unfold decodePlan
  rw [hitem, ok_bind, (hread 0 "source_root" _ rfl).1, ok_bind, hsource, ok_bind,
    (hread 1 "target_root" _ rfl).1, ok_bind, htarget, ok_bind, (hread 11 "assignment" _ rfl).1,
    ok_bind, hassignment, ok_bind, (hread 12 "preservation" _ rfl).1, ok_bind, hpreservation,
    ok_bind, (hread 18 "required_volumes" _ rfl).1, ok_bind, list_read, ok_bind,
    mapM_read (f := fun item => volume (some item)) fun item _ => decodeVolume_read (some item),
    ok_bind, hsourceRoot, ok_bind, htargetRoot, ok_bind,
    (hread 2 "source_volume_id" _ rfl).2, decodeVolume_read, ok_bind,
    (hread 3 "target_volume_id" _ rfl).2, decodeVolume_read, ok_bind,
    (hread 4 "source_volume_evidence" _ rfl).2, decodeEvidence_read, ok_bind,
    (hread 5 "target_volume_evidence" _ rfl).2, decodeEvidence_read, ok_bind,
    (hread 6 "source_profile" _ rfl).1, ok_bind, decodeProfile_read, ok_bind,
    (hread 7 "target_profile" _ rfl).1, ok_bind, decodeProfile_read, ok_bind,
    (hread 8 "source_complete" _ rfl).1, ok_bind, (hread 9 "target_complete" _ rfl).1, ok_bind,
    (hread 10 "operations" _ rfl).1, ok_bind, list_read, ok_bind,
    mapM_read fun operation _ => decodeOperation_read operation, ok_bind, List.map_id', hassigned,
    ok_bind, hpreserved, ok_bind, (hread 13 "filters" _ rfl).1, ok_bind, decodeFilters_read,
    ok_bind, (hread 14 "deletion_policy" _ rfl).1, ok_bind,
    member_read DeletionPolicy.ofValue_value, ok_bind, (hread 15 "trash_on_update" _ rfl).1,
    ok_bind, (hread 16 "policy_fingerprint" _ rfl).1, ok_bind, textOf_read, ok_bind,
    (hread 17 "worker_count" _ rfl).1, ok_bind, intOf_read, ok_bind,
    (hread 19 "required_bytes" _ rfl).1, ok_bind, intOf_read, ok_bind,
    (hread 20 "fingerprint" _ rfl).1, ok_bind, textOf_read, ok_bind,
    dif_pos value.workerCount_pos]
  split
  · next hchecked => exact absurd (hchecked.symm.trans value.checked) (by simp)
  · next hchecked => exact absurd (hchecked.symm.trans value.checked) (by simp)
  · simp only [boolOf_read, hvolumes, reread]
    congr 2
    exact (reread value).requiredVolumes_nodup.dedup

end Parts

end Payloads

end NamiSync
