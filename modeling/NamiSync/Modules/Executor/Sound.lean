/-
# `Modules.Executor.Sound` — what holds in every state of a call

The source is as it was, the target tree is intact and, where no operation of
the plan reaches, as it was; what has succeeded in bringing bytes has brought
those of its source; and what is attested in a record is true of them.

Most of what a program does leaves all of this alone (`Still`).  While an
operation runs there is also its continuation, which says what stands on the
disk for the next attempt.

## The three layers

    Sound     between the operations, in every state of a call
    Bare      and an operation is at work, with no continuation to rely on
    Running   and its continuation stands for something on the disk

Each layer has the same three lemmas: what is still keeps it (`Sound.still`),
a change of the operation keeps it, given `Ready` (`Sound.changed`), and a
note keeps it.  So the Hoare proofs of the programs have to look only at the
steps that publish, move or remove.
-/
import NamiSync.Modules.Executor.Intact

namespace NamiSync

/-- The attestation that a call records. -/
def RecordCall.attestation [Unicode] : RecordCall → Option Attestation
  | .copied _ attestation | .updated _ attestation | .moveUpdated _ attestation =>
      some attestation
  | _ => none

namespace Executor

open Faulty Faulty.Prog FileStore

/-- Only what brings bytes is attested. -/
theorem attestation_of_not_counts [Unicode] {call : RecordCall}
    (h : countsBytes call.kind = false) : call.attestation = none := by
  cases call with
  | copied op attestation => cases h
  | updated op attestation => cases h
  | moveUpdated op attestation => cases h
  | _ => rfl

section Sound

variable [Unicode] (base : World) (operation : PlanOperation)

/-- The bytes of the source of an operation. -/
def SourceBytes (bytes : List UInt8) : Prop :=
  ∃ path file, operation.sourceRelPath = some path ∧ base.source.fileAt (loc path) = some file ∧
    file.2 = bytes

/-- There is a file with these bytes. -/
def Holds (disk : Disk) (path : RelPath) (bytes : List UInt8) : Prop :=
  ∃ node, disk.fileAt (loc path) = some (node, bytes)

/-- The target has the bytes of the source. -/
def Delivered (disk : Disk) : Prop :=
  ∃ bytes, SourceBytes base operation bytes ∧ Holds disk operation.targetRelPath bytes

/-- The bytes of the target are in the trash. -/
def Backed (runId : RunId) (disk : Disk) : Prop :=
  ∀ file, disk.fileAt (loc operation.targetRelPath) = some file →
    ∃ kept, disk.fileAt (loc (trashPath runId operation.targetRelPath)) = some kept ∧
      kept.2 = file.2

variable [Sha256]

/-- The digest and the size of the bytes of the source. -/
def Vouches (digest : List UInt8) (size : Nat) : Prop :=
  ∃ bytes, SourceBytes base operation bytes ∧ digest = Sha256.digest bytes ∧ size = bytes.length

variable (xset : ExecutionSet) (runId : RunId)

structure Sound (world : World) : Prop where
  source : world.source = base.source
  intact : Intact xset runId base world.target
  frame : ∀ place, (∀ operation, Chosen xset operation → ¬ Touches runId operation place) →
    world.target.fileAt place = base.target.fileAt place
  delivered : ∀ operation, Chosen xset operation → countsBytes operation.kind = true →
    world.status.get? operation.opId = some .succeeded → Delivered base operation world.target
  attested : ∀ call ∈ world.records, call ∈ base.records ∨
    ∀ operation, Chosen xset operation → call.op = operation.opId →
      ∀ attestation ∈ call.attestation,
        Vouches base operation attestation.content.digest attestation.content.size

/-- The temp has the bytes, and those of the target are safe. -/
def Waiting (prepared : PreparedCopy) (disk : Disk) : Prop :=
  ∃ bytes, SourceBytes base operation bytes ∧ prepared.digest.digest = Sha256.digest bytes ∧
    prepared.digest.size = bytes.length ∧ Holds disk (tempOf runId operation) bytes ∧
    (xset.plan.trashOnUpdate = true → Backed operation runId disk)

/-- The target has the bytes. -/
def Done (prepared : PreparedCopy) (disk : Disk) : Prop :=
  ∃ bytes, SourceBytes base operation bytes ∧ prepared.digest.digest = Sha256.digest bytes ∧
    prepared.digest.size = bytes.length ∧ Holds disk operation.targetRelPath bytes

/-- What a continuation stands for. -/
def Stands (disk : Disk) : Continuation → Prop
  | .update continuation => operation.kind = .update →
      Done base operation continuation.prepared disk ∧
          (continuation.published = false → disk.look (loc (tempOf runId operation)) = none) ∨
        continuation.published = false ∧
          Waiting base operation xset runId continuation.prepared disk
  | .moveUpdate continuation => operation.kind = .moveUpdate →
      Done base operation continuation.prepared disk ∧
        ∀ attestation ∈ continuation.attestation,
          Vouches base operation attestation.content.digest attestation.content.size

/-- An operation is at work. -/
structure Bare (world : World) : Prop where
  sound : Sound base xset runId world
  tidy : Tidy xset runId world
  own : ∀ id continuation, world.state.retryContinuations.get? id = some continuation →
    id = operation.opId
  unsettled : world.status.get? operation.opId = none

/-- And its continuation stands. -/
structure Running (world : World) : Prop extends Bare base operation xset runId world where
  stands : ∀ continuation, world.state.retryContinuations.get? operation.opId = some continuation →
    Stands base operation xset runId world.target continuation
  -- A copy has none.
  copies : operation.kind = .copy →
    world.state.retryContinuations.get? operation.opId = none

end Sound

/-! ## What changes nothing of it

Programs that publish nothing and write no file of the run's own keep every part
of the invariant, with one proof for all of them. -/

section Still

variable [Unicode] (xset : ExecutionSet) (runId : RunId)

structure Still (before after : World) : Prop where
  source : after.source = before.source
  files : ∀ place, after.target.fileAt place = before.target.fileAt place
  absent : ∀ place, (after.target.look place).isSome = (before.target.look place).isSome
  rooted : before.target.store.Rooted → after.target.store.Rooted
  kept : after.state.retryContinuations = before.state.retryContinuations
  status : after.status = before.status
  records : after.records = before.records
  tidy : Tidy xset runId before → Tidy xset runId after

/-- Calls that are still. -/
def StillCall : Call → Prop
  | .ask _ | .clock | .emit _ | .emitProgress => True
  | .change step => ∃ path, MetadataOf path step
  | .record _ => False

/-- Notes that are. -/
def StillNote : Note → Prop
  | .keep _ _ | .forget _ | .settle _ _ => False
  | other => RunNote xset runId other

variable {xset runId}

theorem still_asks (question : Question) : StillCall (.ask question) := trivial

theorem still_metadata {path : RelPath} (step : Change) (h : MetadataOf path step) :
    StillCall (.change step) := ⟨path, h⟩

theorem Still.refl (world : World) : Still xset runId world world :=
  ⟨rfl, fun _ => rfl, fun _ => rfl, fun h => h, rfl, rfl, rfl, fun h => h⟩

theorem Still.none {before after : World} (h : Still xset runId before after) {place : List Str}
    (hnone : before.target.look place = none) : after.target.look place = none := by
  rw [← Option.not_isSome_iff_eq_none, h.absent, Option.not_isSome_iff_eq_none]
  exact hnone

theorem Still.holds {before after : World} (h : Still xset runId before after) {path : RelPath}
    {bytes : List UInt8} (hholds : Holds before.target path bytes) :
    Holds after.target path bytes := by
  obtain ⟨node, hfile⟩ := hholds
  exact ⟨node, (h.files _).trans hfile⟩

theorem still_effect [Host] {call : Call} {before after : World} (hcall : StillCall call)
    (h : call.effect before = .ok after) : Still xset runId before after := by
  cases call with
  | ask question =>
      obtain rfl := ask_eq h
      exact .refl _
  | change step =>
      obtain ⟨path, hmeta⟩ := hcall
      unfold Call.effect at h
      dsimp only at h
      split at h
      · next disk happly =>
          obtain rfl := Except.ok.inj h
          obtain ⟨hfiles, hlook, hrooted⟩ := metadata_spec hmeta happly
          exact ⟨rfl, hfiles, hlook, hrooted, rfl, rfl, rfl, fun h => ⟨h.inflight, h.pending⟩⟩
      · cases h
  | clock =>
      obtain rfl := Except.ok.inj h
      exact ⟨rfl, fun _ => rfl, fun _ => rfl, fun h => h, rfl, rfl, rfl,
        fun h => ⟨h.inflight, h.pending⟩⟩
  | emit body =>
      obtain rfl := Except.ok.inj h
      exact ⟨rfl, fun _ => rfl, fun _ => rfl, fun h => h, rfl, rfl, rfl,
        fun h => ⟨h.inflight, h.pending⟩⟩
  | emitProgress =>
      unfold Call.effect at h
      dsimp only at h
      split at h
      · obtain rfl := Except.ok.inj h
        exact ⟨rfl, fun _ => rfl, fun _ => rfl, fun h => h, rfl, rfl, rfl,
          fun h => ⟨h.inflight, h.pending⟩⟩
      · cases h
  | record call => exact hcall.elim

theorem still_noted {note : Note} (hnote : StillNote xset runId note) (world : World) :
    Still xset runId world (note.write world) := by
  have htidy : ∀ hrun : RunNote xset runId note,
      Tidy xset runId world → Tidy xset runId (note.write world) :=
    fun hrun h => h.noted xset runId hrun
  cases note with
  | keep id continuation => exact hnote.elim
  | forget id => exact hnote.elim
  | settle id item => exact hnote.elim
  | start restore tracker => exact False.elim hnote
  | _ => exact ⟨rfl, fun _ => rfl, fun _ => rfl, fun h => h, rfl, rfl, rfl, htidy hnote⟩

variable {base : World} {operation : PlanOperation}

theorem Delivered.still {before after : World} (h : Delivered base operation before.target)
    (hstill : Still xset runId before after) : Delivered base operation after.target := by
  obtain ⟨bytes, hbytes, hholds⟩ := h
  exact ⟨bytes, hbytes, hstill.holds hholds⟩

theorem Backed.still {before after : World} (h : Backed operation runId before.target)
    (hstill : Still xset runId before after) : Backed operation runId after.target := by
  intro file hfile
  rw [hstill.files] at hfile ⊢
  exact h file hfile

variable [Sha256]

theorem Sound.still {before after : World} (h : Sound base xset runId before)
    (hstill : Still xset runId before after) : Sound base xset runId after where
  source := hstill.source.trans h.source
  intact := h.intact.same hstill.files hstill.rooted
  frame place hplace := (hstill.files place).trans (h.frame place hplace)
  delivered operation hchosen hcounts hstatus :=
    (h.delivered operation hchosen hcounts (hstill.status ▸ hstatus)).still hstill
  attested call hmem := h.attested call (hstill.records ▸ hmem)

theorem Waiting.still {prepared : PreparedCopy} {before after : World}
    (h : Waiting base operation xset runId prepared before.target)
    (hstill : Still xset runId before after) :
    Waiting base operation xset runId prepared after.target := by
  obtain ⟨bytes, hbytes, hdigest, hsize, hholds, hbacked⟩ := h
  exact ⟨bytes, hbytes, hdigest, hsize, hstill.holds hholds,
    fun htrash => (hbacked htrash).still hstill⟩

theorem Done.still {prepared : PreparedCopy} {before after : World}
    (h : Done base operation prepared before.target) (hstill : Still xset runId before after) :
    Done base operation prepared after.target := by
  obtain ⟨bytes, hbytes, hdigest, hsize, hholds⟩ := h
  exact ⟨bytes, hbytes, hdigest, hsize, hstill.holds hholds⟩

theorem Stands.still {continuation : Continuation} {before after : World}
    (h : Stands base operation xset runId before.target continuation)
    (hstill : Still xset runId before after) :
    Stands base operation xset runId after.target continuation := by
  cases continuation with
  | update continuation =>
      intro hkind
      rcases h hkind with ⟨hdone, hgone⟩ | ⟨hopen, hwaiting⟩
      · exact Or.inl ⟨hdone.still hstill, fun hopen => hstill.none (hgone hopen)⟩
      · exact Or.inr ⟨hopen, hwaiting.still hstill⟩
  | moveUpdate continuation =>
      intro hkind
      exact ⟨(h hkind).1.still hstill, (h hkind).2⟩

theorem Bare.still {before after : World} (h : Bare base operation xset runId before)
    (hstill : Still xset runId before after) : Bare base operation xset runId after where
  sound := h.sound.still hstill
  tidy := hstill.tidy h.tidy
  own id continuation hget := h.own id continuation (hstill.kept ▸ hget)
  unsettled := by rw [hstill.status]; exact h.unsettled

theorem Running.still {before after : World} (h : Running base operation xset runId before)
    (hstill : Still xset runId before after) : Running base operation xset runId after where
  toBare := h.toBare.still hstill
  stands continuation hget := (h.stands continuation (hstill.kept ▸ hget)).still hstill
  copies hkind := by rw [hstill.kept]; exact h.copies hkind

end Still

/-! ## What changes some of it

The four ways in which a part of it changes: an operation is settled, a call is
recorded, a file is changed, and a temp is cleaned up. -/

section Steps

variable [Unicode] [Sha256] {base : World} {xset : ExecutionSet} {runId : RunId}
  {operation : PlanOperation} {world : World}

/-- An operation gets an outcome. -/
theorem Sound.settled (h : Sound base xset runId world) (hchosen : Chosen xset operation)
    {item : ItemOutcome} (hitem : item.outcome = .succeeded → countsBytes operation.kind = true →
      Delivered base operation world.target) :
    Sound base xset runId (Note.write world (.settle operation.opId item)) where
  source := h.source
  intact := h.intact
  frame := h.frame
  delivered other hother hcounts hstatus := by
    have hget : (world.status.set operation.opId item.outcome).get? other.opId = some .succeeded :=
      hstatus
    rw [Dict.get?_set] at hget
    split at hget
    · next hsame =>
        obtain rfl := Plan.eq_of_opId hother.1 hchosen.1 hsame
        exact hitem (Option.some.inj hget) hcounts
    · exact h.delivered other hother hcounts hget
  attested := h.attested

/-- A call is recorded, and what it attests is true. -/
theorem Sound.recorded (h : Sound base xset runId world) (hchosen : Chosen xset operation)
    {call : RecordCall} (hop : call.op = operation.opId)
    (htrue : ∀ attestation ∈ call.attestation,
      Vouches base operation attestation.content.digest attestation.content.size) :
    Sound base xset runId { world with records := world.records ++ [call] } where
  source := h.source
  intact := h.intact
  frame := h.frame
  delivered := h.delivered
  attested other hmem := by
    rcases List.mem_append.1 hmem with hmem | hmem
    · exact h.attested other hmem
    · obtain rfl := List.mem_singleton.1 hmem
      refine Or.inr fun owner howner howned => ?_
      obtain rfl := Plan.eq_of_opId howner.1 hchosen.1 (howned.symm.trans hop)
      exact htrue

variable [Host] {disk : Disk} {now : Nat} {step : Change}

/-- A change of an operation that has not yet succeeded. -/
theorem Sound.changed (hapart : Apart xset runId) (h : Sound base xset runId world)
    (hchosen : Chosen xset operation) (hstep : OwnChange xset runId operation step)
    (hready : Ready xset runId base world.target step)
    (hopen : countsBytes operation.kind = true →
      world.status.get? operation.opId ≠ some .succeeded)
    (happly : step.apply world.target now = .ok disk) (ticks : Nat) :
    Sound base xset runId { world with target := disk, ticks := ticks } where
  source := h.source
  intact := h.intact.change hapart hchosen hstep hready happly
  frame place hplace :=
    (h.intact.change_frame hchosen hstep (hplace operation hchosen) happly).trans
      (h.frame place hplace)
  delivered other hother hcounts hstatus := by
    have hne : other ≠ operation := by
      rintro rfl
      exact hopen hcounts hstatus
    obtain ⟨bytes, hbytes, node, hfile⟩ := h.delivered other hother hcounts hstatus
    have hout := hapart.others other operation hother hchosen hne hcounts
    exact ⟨bytes, hbytes, node, (h.intact.change_frame hchosen hstep hout happly).trans hfile⟩
  attested := h.attested

/-- A temp is cleaned up, whosever it is. -/
theorem Sound.cleaned (hapart : Apart xset runId) (h : Sound base xset runId world)
    {temp : RelPath} (htemp : Owned xset runId temp)
    (happly : (Change.removeOwnedTemp temp).apply world.target now = .ok disk) (ticks : Nat) :
    Sound base xset runId { world with target := disk, ticks := ticks } := by
  obtain ⟨owner, howner, hcounts, rfl⟩ := htemp
  have hplace : IsTemp xset runId (loc (tempOf runId owner)) := .own howner hcounts
  have hfiles : ∀ place, place ≠ loc (tempOf runId owner) →
      disk.fileAt place = world.target.fileAt place := by
    intro place hne
    unfold Change.apply Disk.removeOwnedTemp at happly
    dsimp only at happly
    split at happly
    · rw [Except.ok.inj happly]
    · obtain ⟨-, hfiles, -, -, -⟩ := Disk.unlink_spec happly
      rw [hfiles, if_neg hne]
  refine ⟨h.source, h.intact.filled hplace .remove happly, fun place hout => ?_,
    fun other hother hcounts' hstatus => ?_, h.attested⟩
  · have hmem : tempOf runId owner ∈ placesOf runId owner := by
      unfold placesOf countsBytes at *
      cases hkind : owner.kind <;> simp_all
    have hne : place ≠ loc (tempOf runId owner) := by
      rintro rfl
      exact hout owner howner ⟨_, hmem, List.prefix_rfl⟩
    exact (hfiles place hne).trans (h.frame place hout)
  · obtain ⟨bytes, hbytes, node, hfile⟩ := h.delivered other hother hcounts' hstatus
    have hne : loc other.targetRelPath ≠ loc (tempOf runId owner) := fun heq =>
      hapart.targets other hother hcounts' (heq ▸ hplace)
    exact ⟨bytes, hbytes, node, (hfiles _ hne).trans hfile⟩

theorem Bare.changed (hapart : Apart xset runId) (h : Bare base operation xset runId world)
    (hchosen : Chosen xset operation) (hstep : OwnChange xset runId operation step)
    (hready : Ready xset runId base world.target step)
    (happly : step.apply world.target now = .ok disk) (ticks : Nat) :
    Bare base operation xset runId { world with target := disk, ticks := ticks } where
  sound := h.sound.changed hapart hchosen hstep hready
    (fun _ hstatus => by rw [h.unsettled] at hstatus; cases hstatus) happly ticks
  tidy := ⟨h.tidy.inflight, h.tidy.pending⟩
  own := h.own
  unsettled := h.unsettled

/-- A change, as long as it leaves standing what the continuation stands for. -/
theorem Running.changed (hapart : Apart xset runId) (h : Running base operation xset runId world)
    (hchosen : Chosen xset operation) (hstep : OwnChange xset runId operation step)
    (hready : Ready xset runId base world.target step)
    (hstands : ∀ continuation,
      world.state.retryContinuations.get? operation.opId = some continuation →
      Stands base operation xset runId world.target continuation →
        Stands base operation xset runId disk continuation)
    (happly : step.apply world.target now = .ok disk) (ticks : Nat) :
    Running base operation xset runId { world with target := disk, ticks := ticks } where
  toBare := h.toBare.changed hapart hchosen hstep hready happly ticks
  stands continuation hget := hstands continuation hget (h.stands continuation hget)
  copies := h.copies

end Steps

end Executor

end NamiSync
