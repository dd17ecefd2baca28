/-
# `Workflows.Commitment` — what a human has authorized

`Commitment`, `ExecutionSet` and `_commitment_error`.  A commitment carries
digests; the canonical bytes behind them say which plan and which selection
were reviewed, so an execution that passes the check runs these and nothing
else.

## What is proved

    commitment_binds : an execution set that passes `_commitment_error` against
      the commitment for a reviewed plan and selection has this plan, up to the
      stored fingerprint, and this selection, up to its order

if SHA-256 tells apart the two texts in question.  That different plans have
different canonical bytes is proved (`Core.CanonicalText`), not assumed.
-/
import Mathlib.Data.Multiset.MapFold
import NamiSync.Core.CanonicalText
import NamiSync.Core.Datetime
import NamiSync.Core.Execution
import NamiSync.Lib.Checked

namespace NamiSync

/-- `Commitment`. -/
structure Commitment where
  planFingerprint : Str
  selectionDigest : List UInt8
  committedAt : Datetime
  planFingerprint_ne : planFingerprint ≠ []
  digest_length : selectionDigest.length = 32
  committedAt_utc : committedAt.offset = some 0

section Execution

variable [Unicode]

/-- The fields of an `ExecutionSet`. -/
structure ExecutionRecord where
  plan : PlanRecord
  selection : List OpId
  runId : RunId
  status : Dict OpId Outcome := .empty
  commitment : Option Commitment := none
  selection_nodup : selection.Nodup
  selection_known : ∀ id ∈ selection, id ∈ plan.operations.map OperationRecord.opId
  status_selected : ∀ id ∈ status.keys, id ∈ selection

variable [Sha256]

/-- `_commitment_error`. -/
def commitmentError (xset : ExecutionRecord) : Option Str :=
  match xset.commitment with
  | none => some (str "execution set is not committed")
  | some commitment =>
      let calculatedFingerprint := planFingerprint xset.plan
      if calculatedFingerprint ≠ xset.plan.fingerprint then
        some (str "reviewed plan content does not match its fingerprint")
      else if commitment.planFingerprint ≠ calculatedFingerprint then
        some (str "commitment plan fingerprint does not match the reviewed plan")
      else if commitment.selectionDigest ≠ selectionDigest (xset.selection.map OpId.text) then
        some (str "commitment selection digest does not match the reviewed selection")
      else none

/-- The commitment to a reviewed plan and a selection of it. -/
structure Commitment.MadeFor (commitment : Commitment) (plan : PlanRecord) (selection : List OpId) :
    Prop where
  fingerprint_eq : commitment.planFingerprint = NamiSync.planFingerprint plan
  digest_eq : commitment.selectionDigest = NamiSync.selectionDigest (selection.map OpId.text)

/-- SHA-256 tells the two texts apart, if they differ. -/
def NoCollision (bytes other : List UInt8) : Prop :=
  Sha256.digest bytes = Sha256.digest other → bytes = other

/-! ## What is committed to

A commitment holds two digests.  That it fits a plan and a selection says their
canonical bytes have these digests, and then no other pair of texts has them. -/

omit [Unicode] [Sha256] in
theorem hexText_inj {bytes other : List UInt8} (h : hexText bytes = hexText other) :
    bytes = other := by
  induction bytes generalizing other with
  | nil =>
      cases other with
      | nil => rfl
      | cons byte other =>
          have hlength := congrArg List.length h
          simp [hexText, hexDigits_length] at hlength
          omega
  | cons byte bytes ih =>
      cases other with
      | nil =>
          have hlength := congrArg List.length h
          simp [hexText, hexDigits_length] at hlength
      | cons byte' other =>
          unfold hexText at h ih
          rw [List.flatMap_cons, List.flatMap_cons] at h
          obtain ⟨hbyte, hrest⟩ := List.append_inj h (by rw [hexDigits_length, hexDigits_length])
          have hvalue : byte.toNat = byte'.toNat :=
            hexDigits_inj (show byte.toNat < 16 ^ 2 from byte.toNat_lt) byte'.toNat_lt hbyte
          rw [UInt8.toNat_inj.1 hvalue, ih hrest]

/-- What the three checks compare. -/
theorem commitmentError_eq_none {xset : ExecutionRecord} {commitment : Commitment}
    (hcommitment : xset.commitment = some commitment) :
    commitmentError xset = none ↔ planFingerprint xset.plan = xset.plan.fingerprint ∧
      commitment.planFingerprint = planFingerprint xset.plan ∧
      commitment.selectionDigest = selectionDigest (xset.selection.map OpId.text) := by
  unfold commitmentError
  rw [hcommitment]
  dsimp only
  split
  · next hfingerprint => exact ⟨fun h => absurd h (by simp), fun h => absurd h.1 hfingerprint⟩
  · next hfingerprint =>
      split
      · next hplan => exact ⟨fun h => absurd h (by simp), fun h => absurd h.2.1 hplan⟩
      · next hplan =>
          split
          · next hselection => exact ⟨fun h => absurd h (by simp), fun h => absurd h.2.2 hselection⟩
          · next hselection =>
              exact ⟨fun _ => ⟨not_not.1 hfingerprint, not_not.1 hplan, not_not.1 hselection⟩,
                fun _ => rfl⟩

theorem commitment_binds :
    (∀ plan other : PlanRecord,
      plan.payload.canonicalBytes = other.payload.canonicalBytes → plan.SameContent other) ∧
    (∀ selection other : List Str,
      (selectionPayload selection).canonicalBytes = (selectionPayload other).canonicalBytes →
        selection.Perm other) ∧
    ∀ (xset : ExecutionRecord) (commitment : Commitment) (plan : PlanRecord)
      (selection : List OpId), xset.commitment = some commitment →
      commitment.MadeFor plan selection →
      NoCollision xset.plan.payload.canonicalBytes plan.payload.canonicalBytes →
      NoCollision (selectionPayload (xset.selection.map OpId.text)).canonicalBytes
        (selectionPayload (selection.map OpId.text)).canonicalBytes →
      commitmentError xset = none →
        xset.plan.SameContent plan ∧ xset.selection.Perm selection := by
  refine ⟨fun _ _ => sameContent_of_canonicalBytes, fun _ _ => perm_of_selectionBytes, ?_⟩
  intro xset commitment plan selection hcommitment hmade hplans hselections hnone
  obtain ⟨-, hplan, hselection⟩ := (commitmentError_eq_none hcommitment).1 hnone
  constructor
  · have hdigest := hexText_inj (hplan.symm.trans hmade.fingerprint_eq)
    exact sameContent_of_canonicalBytes (hplans hdigest)
  · have hbytes := hselections (hselection.symm.trans hmade.digest_eq)
    have hperm := Multiset.coe_eq_coe.2 (perm_of_selectionBytes hbytes)
    rw [← Multiset.map_coe, ← Multiset.map_coe] at hperm
    exact Multiset.coe_eq_coe.1 (Multiset.map_injective OpId.text_injective hperm)

end Execution

/-! ## A reviewed copy -/

section Sample

local instance reviewedUnicode : Unicode := asciiUnicode

/-- A path that is spelled with a slash. -/
def slashPath : PathText where
  text := str "a/b"
  path := (validateRelativePath (str "a/b")).toOption.get (by decide +kernel)
  valid := Checked.ok_of_get _

def reviewedProfile : CapabilityProfile :=
  { ntfsProfile with maxPath := 260, maxPath_pos := by decide }

def reviewedVolume : VolumeId := ntfsVolume (str "T") (by decide)

def reviewedStat : FileStat where
  kind := .file
  size := 3
  mtimeNs := 1000
  fileIdentity := none
  nlink := 1
  metadata := ⟨32, some 500⟩

def reviewedCopy : OperationRecord where
  opId := 0x82d767871b0031dbfd458fded723dd32
  kind := .copy
  sourceRelPath := some slashPath
  targetRelPath := slashPath
  sourceExpected := some reviewedStat
  targetExpected := none
  intended := some reviewedStat
  contentBytes := 3

def reviewedPlan : PlanRecord where
  sourceRoot :=
    { dataRoot with path := str "C:\\s", path_ne := by decide, path_no_nul := by decide }
  targetRoot :=
    { copyRoot with path := str "D:\\t", path_ne := by decide, path_no_nul := by decide }
  sourceVolumeId := none
  targetVolumeId := some reviewedVolume
  sourceVolumeEvidence := none
  targetVolumeEvidence := none
  sourceProfile := reviewedProfile
  targetProfile := reviewedProfile
  sourceComplete := true
  targetComplete := true
  operations := [reviewedCopy]
  assignment :=
    ⟨str "identity", str "1", [{ sourceRelPath := slashPath, targetRelPath := slashPath }]⟩
  preservation := {}
  filterSnapshot := {}
  deletionPolicy := .trash
  trashOnUpdate := true
  policyFingerprint := str "p"
  workerCount := 1
  requiredVolumes := [reviewedVolume]
  requiredBytes := 3
  fingerprint := []
  workerCount_pos := Nat.one_pos
  requiredVolumes_nodup := List.nodup_singleton _
  checked := by decide +kernel

/-- SHA-256 of the two texts of the sample. -/
local instance reviewedSha256 : Sha256 where
  digest bytes :=
    if bytes = reviewedPlan.payload.canonicalBytes then
      [0x96, 0xab, 0xd2, 0xc4, 0xd6, 0x1d, 0x5e, 0x10, 0xc3, 0xc0, 0xef, 0xb4, 0xe8, 0xd9,
        0xa6, 0xf1, 0x77, 0xf3, 0xfc, 0x6d, 0xbf, 0xff, 0xe6, 0x13, 0x5c, 0x61, 0x37, 0x93,
        0x04, 0x54, 0x33, 0xbf]
    else if bytes = (selectionPayload [reviewedCopy.opId.text]).canonicalBytes then
      [0x55, 0xed, 0xa2, 0x7c, 0x3c, 0x31, 0xf8, 0xaf, 0x27, 0xfc, 0xf0, 0xfc, 0xda, 0x6a,
        0xce, 0x6b, 0x35, 0xd3, 0x24, 0xd2, 0x42, 0xf2, 0x26, 0x97, 0xb4, 0x4e, 0x3a, 0xe9,
        0x07, 0x45, 0xdd, 0xcd]
    else List.replicate 32 0
  digest_length := by
    intro bytes
    split
    · rfl
    · split
      · rfl
      · rfl

def reviewedCommitment : Commitment where
  planFingerprint := planFingerprint reviewedPlan
  selectionDigest := selectionDigest [reviewedCopy.opId.text]
  committedAt := newYear
  planFingerprint_ne := by
    intro h
    have hlength := congrArg List.length h
    rw [planFingerprint, hexText, List.length_flatMap] at hlength
    simp [hexDigits_length, Sha256.digest_length] at hlength
  digest_length := Sha256.digest_length _
  committedAt_utc := rfl

def reviewedSet : ExecutionRecord where
  plan := { reviewedPlan with fingerprint := planFingerprint reviewedPlan }
  selection := [reviewedCopy.opId]
  runId := 7
  commitment := some reviewedCommitment
  selection_nodup := List.nodup_singleton _
  selection_known := fun _ h => h
  status_selected := fun _ h => absurd h List.not_mem_nil

theorem reviewed_bound :
    reviewedSet.plan.SameContent reviewedPlan ∧ reviewedSet.selection.Perm [reviewedCopy.opId] := by
  have hpayload : reviewedSet.plan.payload = reviewedPlan.payload := payload_fingerprinted _ _
  have hfingerprint : planFingerprint reviewedSet.plan = planFingerprint reviewedPlan := by
    rw [planFingerprint, hpayload, planFingerprint]
  have hselection : reviewedCommitment.selectionDigest =
      selectionDigest ([reviewedCopy.opId].map OpId.text) := by
    rw [reviewedCommitment, List.map_cons, List.map_nil]
  have hplan : reviewedCommitment.planFingerprint = planFingerprint reviewedPlan := by
    rw [reviewedCommitment]
  have hown : reviewedSet.plan.fingerprint = planFingerprint reviewedPlan := by
    rw [reviewedSet]
  have hselected : reviewedSet.selection = [reviewedCopy.opId] := rfl
  have hnone : commitmentError reviewedSet = none :=
    (commitmentError_eq_none (show reviewedSet.commitment = some reviewedCommitment from rfl)).2
      ⟨hfingerprint.trans hown.symm, hplan.trans hfingerprint.symm, by rw [hselected, hselection]⟩
  refine commitment_binds.2.2 reviewedSet reviewedCommitment reviewedPlan [reviewedCopy.opId] rfl
    ⟨hplan, hselection⟩ ?_ ?_ hnone
  · intro _
    rw [hpayload]
  · intro _
    rw [hselected]

end Sample

end NamiSync
