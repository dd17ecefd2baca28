/-
# `Modules.Executor.Updates` — what an update keeps until it is done

The continuation of an update says where an attempt that broke off has left
things: the temp is complete and the displaced bytes are safe, or the target
has its new bytes.  The next attempt goes on from there.  A move-update
publishes first and moves the old file into the trash at its end.

## What is proved

    update_wp             an attempt at an UPDATE
    moveUpdate_wp         an attempt at a MOVE_UPDATE
    executeOperation_wp   an attempt at any operation

each from any state in which the continuation of the operation stands
(`Running`): one that returns has delivered and has recorded a true
attestation, one that raises has left a continuation that stands.

## The idea

A continuation is a claim about the disk (`Stands`), and there are two kinds:

    Waiting   the temp has the bytes, and those of the target are safe
    Done      the target has the bytes

An update goes from the first to the second in one primitive, `os.replace`.
If that primitive raises, it may still have taken effect.  The source looks at
the target before it gives up, and the proof splits where the source does: in
`replaceTarget_wp` the target either still has its readonly bit and its old
bytes, or it has the new ones and the continuation is set to `published`.

What a retry needs is therefore nothing but `Running`, and `update_wp` starts
from it: the first attempt is the case with no continuation.

A move-update publishes at a free place first, so its old file stays whole
until the end.  `trashPrior_wp` has to tell the old file from the new one:
their places differ because the plan's operations are `Apart`.

## What it is not

It does not say that an attempt succeeds, nor how often one is made.  And an
update without a backup does lose the bytes of its target when it publishes:
`Prepares` asks for them in the trash only where the plan wants them there.
-/
import NamiSync.Modules.Executor.Backups

namespace NamiSync

namespace Executor

open Faulty Faulty.Prog FileStore

/-! ## The continuation of an update

An update can fail between its two phases, and a later attempt then finds the old
content at the target and the new content in the temp.  `Prepares` is what the
first phase has to establish; the second starts from it, whether it is reached
in the same attempt or in a later one. -/

section Update

variable [Unicode] [Host] [Sha256] {base : World} {xset : ExecutionSet} {runId : RunId}
  {policies : ExecutorPolicies} {operation : PlanOperation} {world : World}

omit [Host] [Sha256] in
theorem SourceBytes.unique {bytes other : List UInt8} (h : SourceBytes base operation bytes)
    (h' : SourceBytes base operation other) : bytes = other := by
  obtain ⟨path, file, hpath, hfile, rfl⟩ := h
  obtain ⟨path', file', hpath', hfile', rfl⟩ := h'
  obtain rfl := Option.some.inj (hpath.symm.trans hpath')
  rw [Option.some.inj (hfile.symm.trans hfile')]

omit [Host] in
/-- The bytes that a continuation is about. -/
theorem Stands.brought {disk : Disk} {continuation : UpdateContinuation}
    (hkind : operation.kind = .update)
    (h : Stands base operation xset runId disk (.update continuation)) :
    ∃ bytes, SourceBytes base operation bytes ∧
      continuation.prepared.digest.digest = Sha256.digest bytes ∧
        continuation.prepared.digest.size = bytes.length := by
  rcases h hkind with ⟨⟨bytes, hbytes, hdigest, hsize, -⟩, -⟩ |
    ⟨-, bytes, hbytes, hdigest, hsize, -, -⟩
  · exact ⟨bytes, hbytes, hdigest, hsize⟩
  · exact ⟨bytes, hbytes, hdigest, hsize⟩

omit [Host] in
/-- A continuation that stands is kept. -/
theorem Running.kept (hcopy : operation.kind ≠ .copy)
    (h : Running base operation xset runId world) {continuation : Continuation}
    (hstands : Stands base operation xset runId world.target continuation) :
    Running base operation xset runId
      (Note.write world (.keep operation.opId continuation)) where
  sound := ⟨h.sound.source, h.sound.intact, h.sound.frame, h.sound.delivered, h.sound.attested⟩
  tidy := ⟨h.tidy.inflight, h.tidy.pending⟩
  own id other hget := by
    have hget : (world.state.retryContinuations.set operation.opId continuation).get? id =
        some other := hget
    rw [Dict.get?_set] at hget
    split at hget
    · next hsame => exact hsame
    · exact h.own id other hget
  unsettled := h.unsettled
  stands other hget := by
    have hget : (world.state.retryContinuations.set operation.opId continuation).get?
        operation.opId = some other := hget
    rw [Dict.get?_set_self] at hget
    exact Option.some.inj hget ▸ hstands
  copies hkind := absurd hkind hcopy

omit [Host] in
theorem lasting_stands (continuation : Continuation) :
    Lasting base xset runId (Running base operation xset runId) fun world =>
      Running base operation xset runId world ∧
        Stands base operation xset runId world.target continuation where
  sound _ h := h.1.sound
  ends _ h := h.1
  still _ _ h hstill := ⟨h.1.still hstill, h.2.still hstill⟩

omit [Host] in
theorem lasting_waiting (prepared : PreparedCopy) :
    Lasting base xset runId (Running base operation xset runId) fun world =>
      Running base operation xset runId world ∧
        Waiting base operation xset runId prepared world.target where
  sound _ h := h.1.sound
  ends _ h := h.1
  still _ _ h hstill := ⟨h.1.still hstill, h.2.still hstill⟩

omit [Host] in
theorem lasting_done (prepared : PreparedCopy) :
    Lasting base xset runId (Running base operation xset runId) fun world =>
      Running base operation xset runId world ∧ Done base operation prepared world.target where
  sound _ h := h.1.sound
  ends _ h := h.1
  still _ _ h hstill := ⟨h.1.still hstill, h.2.still hstill⟩

omit [Host] [Sha256] in
/-- What a temp becomes when it takes a place. -/
theorem replace_holds {disk later : Disk} {now : Nat} {temp target : RelPath} {bytes : List UInt8}
    (hlength : (loc temp).length = (loc target).length) (hne : loc temp ≠ loc target)
    (hholds : Holds disk temp bytes) (happly : disk.replace now temp target = .ok later) :
    Holds later target bytes ∧ later.look (loc temp) = none := by
  -- The temp and the target are as deep as each other, so neither is above the other.
  have hout : ¬ loc target <+: loc temp := fun hpre =>
    hne (hpre.eq_of_length hlength.symm).symm
  have hrename : ∀ {disk : Disk}, Holds disk temp bytes →
      disk.rename now temp target = .ok later →
      Holds later target bytes ∧ later.look (loc temp) = none := by
    intro disk hholds happly
    -- Over a file that stands there: it goes first, and the temp is none of it.
    obtain ⟨node, hnode⟩ := hholds
    obtain ⟨-, -, -, hfiles, hvacant, -⟩ := Disk.rename_spec happly
    refine ⟨⟨node, (hfiles _).trans ?_⟩, hvacant _ hout (Or.inl List.prefix_rfl)⟩
    rw [if_pos List.prefix_rfl, List.drop_length, List.append_nil]
    exact hnode
  unfold Disk.replace at happly
  split at happly
  · exact hrename hholds happly
  · split at happly
    · cases happly
    · split at happly
      · cases happly
      · split at happly
        · cases happly
        · next cleared hcleared =>
            obtain ⟨node, hnode⟩ := hholds
            obtain ⟨-, hfiles, -, -, -⟩ := Disk.unlink_spec hcleared
            refine hrename ⟨node, (hfiles _).trans ?_⟩ happly
            rw [if_neg hne]
            exact hnode

variable (hapart : Apart xset runId) (hchosen : Chosen xset operation)
  (hkind : operation.kind = .update)

include hapart hchosen hkind

/-- The prepared file takes the place of the target, whose bytes are safe. -/
theorem replace_wp {continuation : UpdateContinuation}
    (h : Running base operation xset runId world)
    (hwaiting : Waiting base operation xset runId continuation.prepared world.target) :
    Works base xset runId operation
      (fun _ later => Running base operation xset runId later ∧
        Done base operation continuation.prepared later.target)
      (Executor.change (.replace (tempOf runId operation) operation.targetRelPath)) world := by
  have hcounts := counts_of_update hkind
  have hne : loc (tempOf runId operation) ≠ loc operation.targetRelPath := fun heq =>
    hapart.targets operation hchosen hcounts (heq ▸ .own hchosen hcounts)
  obtain ⟨bytes, hbytes, hdigest, hsize, ⟨node, hnode⟩, hbacked⟩ := hwaiting
  have hafter : ∀ disk, (Change.replace (tempOf runId operation) operation.targetRelPath).apply
      world.target (Host.fileTime world.ticks) = .ok disk →
      Holds disk operation.targetRelPath bytes ∧ disk.look (loc (tempOf runId operation)) = none :=
    fun disk happly => replace_holds (length_loc_ownedTemp _ _ _) hne ⟨node, hnode⟩ happly
  refine h.change hapart hchosen (Or.inl (.replace hkind)) ⟨⟨_, hnode, hbytes.known⟩, ?_⟩ ?_
    fun disk happly hlater => ⟨hlater, bytes, hbytes, hdigest, hsize, (hafter disk happly).1⟩
  · -- What the target held is kept only if the trash was asked for, and then the backup has it.
    intro file hkept hfile
    have htrash : xset.plan.trashOnUpdate = true := by
      by_contra hnot
      exact hkept (.update hchosen hkind (by simpa using hnot))
    obtain ⟨kept, hcopy, hsame⟩ := hbacked htrash file hfile
    exact ⟨_, kept, loc_trashPath_ne _ _, hapart.backups operation hchosen hkind htrash, hcopy,
      hsame⟩
  · -- The continuation in hand stands: where it was waiting, it is done now.
    intro disk other happly _ hstands
    cases other with
    | moveUpdate other =>
        intro hmoves
        rw [hkind] at hmoves
        cases hmoves
    | update other =>
        intro _
        obtain ⟨hholds, hgone⟩ := hafter disk happly
        obtain ⟨bytes', hbytes', hdigest', hsize'⟩ := hstands.brought hkind
        obtain rfl := hbytes.unique hbytes'
        exact Or.inl ⟨⟨bytes, hbytes', hdigest', hsize', hholds⟩, fun _ => hgone⟩

/-- `fs.replace` and what surrounds it. -/
theorem replaceTarget_wp {targetExpected : FileStat} {continuation : UpdateContinuation}
    (h : Running base operation xset runId world)
    (hwaiting : Waiting base operation xset runId continuation.prepared world.target) :
    Works base xset runId operation
      (fun _ later => Running base operation xset runId later ∧
        Done base operation continuation.prepared later.target)
      (replaceTarget xset runId operation targetExpected continuation) world := by
  have hcopy : operation.kind ≠ .copy := by rw [hkind]; simp
  have hX : Lasting base xset runId (Running base operation xset runId) fun world =>
      Running base operation xset runId world ∧
        Waiting base operation xset runId continuation.prepared world.target :=
    lasting_waiting _
  have hY : Lasting base xset runId (Running base operation xset runId) fun world =>
      Running base operation xset runId world ∧
        Done base operation continuation.prepared world.target :=
    lasting_done _
  have hcleared : StillNote xset runId (.inflight none) := fun path hpath => by cases hpath
  refine caught_bind ?_ fun error later hlater => ?_
  · refine hX.next ⟨h, hwaiting⟩ (onlyIf_does (fun _ => clearReadonly_does still_asks
      still_metadata trivial) trivial) fun _ later hlater => ?_
    refine hX.next hlater (flushBeforeDestructive_does still_asks trivial trivial)
      fun _ later hlater => ?_
    refine wp_bind.2 ((replace_wp hapart hchosen hkind hlater.1 hlater.2).mono
      (fun _ later hlater => ?_) fun _ _ h => h)
    refine hY.next hlater (does_put.2 ⟨hcleared, trivial⟩) fun _ later hlater => ?_
    -- The file is at its target before the continuation is marked as published.
    have hstands : Stands base operation xset runId later.target
        (.update { continuation with published := true }) := fun _ =>
      Or.inl ⟨hlater.2, fun hopen => by cases hopen⟩
    exact hY.next ⟨hlater.1.kept hcopy hstands, hlater.2⟩
      (stat_does still_asks _ _ fun _ => trivial) fun _ last hlast => hlast
  · -- A failure puts the attributes back; the invariant holds on either side of it.
    refine lasting_running.next hlater (stat_does still_asks _ _ fun _ => trivial)
      fun live later hlater => ?_
    exact lasting_running.next hlater (onlyIf_does (fun _ => applyMetadata_does still_asks _ _ _
      still_metadata trivial) trivial) fun _ last hlast => hlast

/-- The middle of `_update`: the target has the bytes, since now or since an
attempt before. -/
theorem publishUpdate_wp {targetExpected : FileStat} {continuation : UpdateContinuation}
    (hopen : continuation.published = false) (h : Running base operation xset runId world)
    (hstands : Stands base operation xset runId world.target (.update continuation)) :
    Works base xset runId operation
      (fun _ later => Running base operation xset runId later ∧
        Done base operation continuation.prepared later.target)
      (publishUpdate xset runId operation targetExpected continuation) world := by
  have hcopy : operation.kind ≠ .copy := by rw [hkind]; simp
  have hcleared : StillNote xset runId (.inflight none) := fun path hpath => by cases hpath
  refine (lasting_stands (.update continuation)).stat ⟨h, hstands⟩ fun later hlater => ?_
  obtain ⟨hrunning, hstands⟩ := hlater
  cases hfound : later.target.stat (tempOf runId operation) with
  -- The temp is gone, so an attempt before has published; there is nothing to replace.
  | none =>
      rw [show (later.disk .target).stat (tempOf runId operation) = none from hfound]
      have hdone : Done base operation continuation.prepared later.target := by
        rcases hstands hkind with ⟨hdone, -⟩ | ⟨-, bytes, -, -, -, ⟨node, hnode⟩, -⟩
        · exact hdone
        · rw [Disk.fileAt_of_look_none (Option.map_eq_none_iff.1 hfound)] at hnode
          cases hnode
      have hY : Lasting base xset runId (Running base operation xset runId) fun world =>
          Running base operation xset runId world ∧
            Done base operation continuation.prepared world.target :=
        lasting_done _
      refine hY.next ⟨hrunning, hdone⟩ (requireStatPath_does still_asks _ fun _ => trivial)
        fun published later hlater => ?_
      refine hY.next hlater (failIf_does _ _ fun _ => trivial) fun _ later hlater => ?_
      have hpublished : Stands base operation xset runId later.target
          (.update { continuation with published := true }) := fun _ =>
        Or.inl ⟨hlater.2, fun hopen => by cases hopen⟩
      refine wp_bind.2 (wp_put.2 ?_)
      exact hY.last ⟨hlater.1.kept hcopy hpublished, hlater.2⟩ (does_put.2 ⟨hcleared, trivial⟩)
  -- The temp is there, so the target has not been replaced yet.
  | some tempStat =>
      rw [show (later.disk .target).stat (tempOf runId operation) = some tempStat from hfound]
      have hwaiting : Waiting base operation xset runId continuation.prepared later.target := by
        rcases hstands hkind with ⟨-, hgone⟩ | ⟨-, hwaiting⟩
        · rw [Disk.stat, hgone hopen] at hfound
          cases hfound
        · exact hwaiting
      have hX : Lasting base xset runId (Running base operation xset runId) fun world =>
          Running base operation xset runId world ∧
            Waiting base operation xset runId continuation.prepared world.target :=
        lasting_waiting _
      refine hX.next ⟨hrunning, hwaiting⟩ (lift_does fun _ _ => trivial)
        fun evidence later hlater => ?_
      refine hX.next hlater (guardPresent_does still_asks _ _ _ _ _ _ fun _ => trivial)
        fun _ later hlater => ?_
      refine hX.next hlater (guardPathStat_does _ _ _ _ trivial) fun _ later hlater => ?_
      refine hX.next hlater (requireStatPath_does still_asks _ fun _ => trivial)
        fun live later hlater => ?_
      refine hX.next hlater (guardPathStat_does _ _ _ _ trivial) fun _ later hlater => ?_
      refine hX.next hlater ?_ fun _ later hlater =>
        replaceTarget_wp hapart hchosen hkind hlater.1 hlater.2
      unfold guardBackup
      split
      · trivial
      · exact does_bind.2 (requireStatPath_does still_asks _ fun _ =>
          guardPathStat_does _ _ _ _ trivial)

omit hapart in
/-- The end of `_update`. -/
theorem completeUpdate_wp {targetExpected : FileStat} {continuation : UpdateContinuation}
    (h : Running base operation xset runId world)
    (hdone : Done base operation continuation.prepared world.target) :
    Works base xset runId operation (Succeeds base operation xset runId)
      (completeUpdate xset runId operation targetExpected continuation) world := by
  have hcopy : operation.kind ≠ .copy := by rw [hkind]; simp
  have hX : Lasting base xset runId (Running base operation xset runId) fun world =>
      Running base operation xset runId world ∧
        Done base operation continuation.prepared world.target :=
    lasting_done _
  refine hX.next ⟨h, hdone⟩ (onlyIf_does (fun _ => applyMetadata_does still_asks _ _ _
    still_metadata trivial) trivial) fun _ later hlater => ?_
  refine hX.next hlater (applyMetadata_does still_asks _ _ _ still_metadata trivial)
    fun _ later hlater => ?_
  refine hX.next hlater (durabilityDetail_does still_asks _ _ fun _ => trivial)
    fun detail later hlater => ?_
  refine wp_bind.2 (wp_put.2 ?_)
  have hstands : Stands base operation xset runId later.target
      (.update { continuation with detail := detail, published := true }) := fun _ =>
    Or.inl ⟨hlater.2, fun hopen => by cases hopen⟩
  refine hX.next ⟨hlater.1.kept hcopy hstands, hlater.2⟩
    (observedStat_does still_asks _ _ fun _ => trivial)
    fun published later hlater => ?_
  refine hX.bind hlater (attest_live _ _) fun attestation later htrue hlater => ?_
  obtain ⟨bytes, hbytes, hdigest, hsize, -⟩ := hdone
  refine wp_bind.2 ((record_wp hX _ (fun later hlater => ⟨hlater.1.recorded hchosen rfl ?_,
    hlater.2⟩) hlater).mono (fun detail last hlast => ?_) fun _ _ h => h)
  · intro recorded hrecorded
    obtain rfl := Option.some.inj hrecorded
    exact ⟨bytes, hbytes, htrue.1.trans hdigest, htrue.2.trans hsize⟩
  · obtain ⟨hrunning, brought, hbrought, -, -, hholds⟩ := hlast
    exact ⟨hrunning, fun _ _ => ⟨brought, hbrought, hholds⟩⟩

/-- The bytes of the target are safe, as far as the plan wants them. -/
def Prepares (base : World) (operation : PlanOperation) (xset : ExecutionSet) (runId : RunId)
    (bytes old : List UInt8) (world : World) : Prop :=
  Guarded base operation xset runId bytes old world ∧
    (xset.plan.trashOnUpdate = true →
      Holds world.target (trashPath runId operation.targetRelPath) old)

omit hapart hchosen hkind [Host] in
theorem lasting_prepares (bytes old : List UInt8) :
    Lasting base xset runId (Running base operation xset runId)
      (Prepares base operation xset runId bytes old) where
  sound _ h := h.1.sound
  ends _ h := h.1.toRunning
  still _ _ h hstill := ⟨h.1.still hstill, fun htrash => hstill.holds (h.2 htrash)⟩

/-- The start of `_update`: what it leaves behind stands, also where making
the backup has failed after all. -/
theorem startUpdate_wp {targetExpected : FileStat}
    (hexpected : operation.targetExpected = some targetExpected)
    (h : Fresh base operation xset runId world) :
    Works base xset runId operation
      (fun continuation later => Running base operation xset runId later ∧
        Stands base operation xset runId later.target (.update continuation))
      (startUpdate xset runId policies operation targetExpected) world := by
  have hcopy : operation.kind ≠ .copy := by rw [hkind]; simp
  have hcounts := counts_of_update hkind
  refine wp_bind.2 ((prepareCopy_wp hapart hchosen hcounts h).mono
    (fun prepared later hprepared => ?_) fun _ _ h => h)
  obtain ⟨bytes, hfilled, hbytes, hdigest, hsize⟩ := hprepared
  have hfile : targetExpected.kind = .file :=
    hapart.displaced operation hchosen hkind targetExpected (by rw [hexpected]; rfl)
  refine (lasting_filled bytes).guard (C := True) (fun _ => hfile) hfilled
    fun _ later' hlater hold => ?_
  obtain ⟨⟨node, old⟩, hnode⟩ := hold trivial
  have hguarded : Guarded base operation xset runId bytes old later' := ⟨hlater, node, hnode⟩
  have hX : Lasting base xset runId (Running base operation xset runId)
      (Prepares base operation xset runId bytes old) :=
    lasting_prepares _ _
  -- With the trash asked for the old bytes are in it now, and otherwise they need not be.
  have hbackup : Works base xset runId operation
      (fun _ => Prepares base operation xset runId bytes old) (backUpIfAsked xset runId operation)
      later' := by
    unfold backUpIfAsked
    split
    · next htrash =>
        exact (backUp_wp hapart hchosen hkind htrash hguarded).mono
          (fun _ _ h => ⟨h.toGuarded, fun _ => h.trash⟩) fun _ _ h => h
    · next htrash => exact ⟨hguarded, fun h => absurd h htrash⟩
  refine wp_bind.2 (hbackup.mono (fun backupError later hlater => ?_) fun _ _ h => h)
  refine hX.next hlater (requireStatPath_does still_asks _ fun _ => trivial)
    fun preparedStat later hlater => ?_
  refine hX.next hlater (requireStatPath_does still_asks _ fun _ => trivial)
    fun liveStat later hlater => ?_
  refine hX.next hlater ?_ fun backupStat last hlast => ?_
  · unfold backupStatOf
    split
    · exact does_bind.2 (requireStatPath_does still_asks _ fun _ => trivial)
    · trivial
  · refine wp_bind.2 (wp_put.2 ?_)
    -- Both ways out leave the same continuation, up to what it says of the backup.
    have hstands : ∀ continuation : UpdateContinuation, continuation.prepared = prepared →
        continuation.published = false →
          Stands base operation xset runId last.target (.update continuation) := by
      rintro continuation rfl hopen
      refine fun _ => Or.inr ⟨hopen, bytes, hbytes, hdigest, hsize, hlast.1.holds, fun htrash => ?_⟩
      intro file hat
      obtain ⟨node, hnode⟩ := hlast.1.target
      obtain ⟨kept, hkept⟩ := hlast.2 htrash
      obtain rfl := Option.some.inj (hnode.symm.trans hat)
      exact ⟨_, hkept, rfl⟩
    split
    · exact hlast.1.toRunning.kept hcopy (hstands _ rfl rfl)
    · exact ⟨hlast.1.toRunning.kept hcopy (hstands _ rfl rfl), hstands _ rfl rfl⟩

/-- `_update`. -/
theorem update_wp (h : Running base operation xset runId world) :
    Works base xset runId operation (Succeeds base operation xset runId)
      (update xset runId policies operation) world := by
  refine lasting_running.bind h (lift_does fun expected hexpected => hexpected)
    fun targetExpected later hexpected hlater => ?_
  have hexpected : operation.targetExpected = some targetExpected := by
    unfold targetEvidence at hexpected
    split at hexpected
    · next hsome => rw [hsome, Except.ok.inj hexpected]
    · cases hexpected
  refine wp_bind.2 (wp_get.2 ?_)
  have hcontinuation : Works base xset runId operation
      (fun continuation last => Running base operation xset runId last ∧
        Stands base operation xset runId last.target (.update continuation))
      (updateContinuation xset runId policies operation targetExpected
        (later.state.retryContinuations.get? operation.opId)) later := by
    cases hget : later.state.retryContinuations.get? operation.opId with
    | none => exact startUpdate_wp hapart hchosen hkind hexpected ⟨hlater, hget⟩
    | some continuation =>
        cases continuation with
        | update continuation => exact ⟨hlater, hlater.stands _ hget⟩
        | moveUpdate continuation => exact hlater
  refine wp_bind.2 (hcontinuation.mono (fun continuation last hlast => ?_) fun _ _ h => h)
  have hpublish : Works base xset runId operation
      (fun _ later => Running base operation xset runId later ∧
        Done base operation continuation.prepared later.target)
      (onlyIf (!continuation.published)
        (publishUpdate xset runId operation targetExpected continuation)) last := by
    cases hpublished : continuation.published with
    | false => exact publishUpdate_wp hapart hchosen hkind hpublished hlast.1 hlast.2
    | true =>
        refine ⟨hlast.1, ?_⟩
        rcases hlast.2 hkind with ⟨hdone, -⟩ | ⟨hopen, -⟩
        · exact hdone
        · rw [hpublished] at hopen
          cases hopen
  refine wp_bind.2 (hpublish.mono (fun _ final hfinal => ?_) fun _ _ h => h)
  exact completeUpdate_wp hchosen hkind hfinal.1 hfinal.2

end Update

/-! ## A move-update

Here the new content is published at a place that was vacant, and the prior
target goes to the trash afterwards.  Between the two both contents stand, so
nothing is lost whenever the program stops. -/

section MoveUpdate

variable [Unicode] [Host] [Sha256] {base : World} {xset : ExecutionSet} {runId : RunId}
  {policies : ExecutorPolicies} {operation : PlanOperation} {world : World}

omit [Host] in
/-- What stands for a move-update is about its target only. -/
theorem Stands.moved (hkind : operation.kind = .moveUpdate) {disk later : Disk}
    (hfile : ∀ bytes, Holds disk operation.targetRelPath bytes →
      Holds later operation.targetRelPath bytes) {continuation : Continuation}
    (h : Stands base operation xset runId disk continuation) :
    Stands base operation xset runId later continuation := by
  cases continuation with
  | update continuation =>
      intro hupdate
      rw [hkind] at hupdate
      cases hupdate
  | moveUpdate continuation =>
      intro _
      obtain ⟨⟨bytes, hbytes, hdigest, hsize, hholds⟩, htrue⟩ := h hkind
      exact ⟨⟨bytes, hbytes, hdigest, hsize, hfile bytes hholds⟩, htrue⟩

variable (hapart : Apart xset runId) (hchosen : Chosen xset operation)
  (hkind : operation.kind = .moveUpdate)

include hapart hchosen hkind

/-- The start of `_move_update` publishes. -/
theorem startMoveUpdate_wp (h : Fresh base operation xset runId world) :
    Works base xset runId operation
      (fun continuation later => Running base operation xset runId later ∧
        Stands base operation xset runId later.target (.moveUpdate continuation))
      (startMoveUpdate xset runId policies operation) world := by
  have hcopy : operation.kind ≠ .copy := by rw [hkind]; simp
  have hcounts := counts_of_copies (Or.inr hkind)
  refine lasting_fresh.next h (lift_does fun _ _ => trivial) fun evidence later hlater => ?_
  refine lasting_fresh.next hlater (guardPresent_does still_asks _ _ _ _ _ _ fun _ => trivial)
    fun _ later hlater => ?_
  refine wp_bind.2 ((prepareCopy_wp hapart hchosen hcounts hlater).mono
    (fun prepared later hprepared => ?_) fun _ _ h => h)
  obtain ⟨bytes, hfilled, hbytes, hdigest, hsize⟩ := hprepared
  refine wp_bind.2 ((publish_wp hapart hchosen (Or.inr hkind) hbytes _ _ hfilled).mono
    (fun _ later hlater => ?_) fun _ _ h => h)
  have hX : Lasting base xset runId (Running base operation xset runId)
      (Landed base operation xset runId bytes) :=
    lasting_landed _
  have hcleared : StillNote xset runId (.inflight none) := fun path hpath => by cases hpath
  refine hX.next hlater.2 (does_put.2 ⟨hcleared, trivial⟩) fun _ later hlater => ?_
  refine hX.next hlater (requireStatPath_does still_asks _ fun _ => trivial)
    fun published last hlast => ?_
  have hstands : Stands base operation xset runId last.target
      (.moveUpdate { prepared := prepared, publishedStat := published }) := fun _ =>
    ⟨⟨bytes, hbytes, hdigest, hsize, hlast.holds⟩, fun _ hnone => by cases hnone⟩
  exact ⟨hlast.toRunning.kept hcopy hstands, hstands⟩

omit hapart hchosen in
/-- The middle of `_move_update` attests what was published. -/
theorem attestMoveUpdate_wp {continuation : MoveUpdateContinuation}
    (h : Running base operation xset runId world)
    (hstands : Stands base operation xset runId world.target (.moveUpdate continuation)) :
    Works base xset runId operation
      (fun attested later => Running base operation xset runId later ∧
        Stands base operation xset runId later.target (.moveUpdate attested))
      (attestMoveUpdate xset operation continuation) world := by
  have hcopy : operation.kind ≠ .copy := by rw [hkind]; simp
  have hX : Lasting base xset runId (Running base operation xset runId) fun world =>
      Running base operation xset runId world ∧
        Stands base operation xset runId world.target (.moveUpdate continuation) :=
    lasting_stands _
  refine hX.next ⟨h, hstands⟩ (requireStatPath_does still_asks _ fun _ => trivial)
    fun published later hlater => ?_
  refine hX.next hlater (failIf_does _ _ fun _ => trivial) fun _ later hlater => ?_
  refine hX.next hlater (applyMetadata_does still_asks _ _ _ still_metadata trivial)
    fun _ later hlater => ?_
  split
  · exact hlater
  · refine hX.next hlater (observedStat_does still_asks _ _ fun _ => trivial)
      fun published later hlater => ?_
    refine hX.bind hlater (attest_live _ _) fun attestation last htrue hlast => ?_
    have hattested : Stands base operation xset runId last.target
        (.moveUpdate { continuation with attestation := some attestation }) := by
      intro _
      obtain ⟨hdone, -⟩ := hlast.2 hkind
      refine ⟨hdone, fun recorded hrecorded => ?_⟩
      obtain rfl := Option.some.inj hrecorded
      obtain ⟨bytes, hbytes, hdigest, hsize, -⟩ := hdone
      exact ⟨bytes, hbytes, htrue.1.trans hdigest, htrue.2.trans hsize⟩
    exact ⟨hlast.1.kept hcopy hattested, hattested⟩

/-- The old file goes into the trash, not the new one. -/
theorem trashPrior_wp {oldRel : RelPath} (hold : operation.priorTargetRelPath = some oldRel)
    {continuation : MoveUpdateContinuation} (reason : ExecutionReason) (detail : String)
    (h : Running base operation xset runId world)
    (hstands : Stands base operation xset runId world.target (.moveUpdate continuation)) :
    Works base xset runId operation
      (fun _ later => Running base operation xset runId later ∧
        Stands base operation xset runId later.target (.moveUpdate continuation))
      (renameOr oldRel (trashPath runId oldRel) reason detail) world := by
  have hfile : ∀ disk, (Change.rename oldRel (trashPath runId oldRel)).apply world.target
      (Host.fileTime world.ticks) = .ok disk → ∀ bytes,
        Holds world.target operation.targetRelPath bytes →
          Holds disk operation.targetRelPath bytes := by
    intro disk happly bytes hholds
    obtain ⟨node, hnode⟩ := hholds
    have hsource := hapart.replaced operation oldRel hchosen hkind hold
    have htarget : ¬ loc (trashPath runId oldRel) <+: loc operation.targetRelPath := by
      intro hin
      obtain ⟨hvacant, -⟩ := Disk.rename_spec happly
      have hnone := hvacant _ hin hsource
      rw [Disk.fileAt_of_look_none hnone] at hnode
      cases hnode
    exact ⟨node, (rename_frame happly hsource htarget).trans hnode⟩
  have hready : Ready xset runId base world.target (.rename oldRel (trashPath runId oldRel)) :=
    fun hne htemp => absurd List.prefix_rfl
      ((hapart.moves _ _ (.prior hchosen hkind hold) hne).2.1 _ htemp)
  refine wp_catching.2 ((h.change hapart hchosen (Or.inl (.trashPrior hkind hold)) hready
    (fun disk _ happly _ hother => hother.moved hkind (hfile disk happly))
    fun disk happly hlater => ⟨hlater, hstands.moved hkind (hfile disk happly)⟩).mono
      (fun _ _ h => h) fun error later hlater => ?_)
  split
  · exact hlater
  · exact hlater

/-- The end of `_move_update`. -/
theorem trashMoved_wp {oldRel : RelPath} (hold : operation.priorTargetRelPath = some oldRel)
    {oldExpected : FileStat} {continuation : MoveUpdateContinuation}
    (h : Running base operation xset runId world)
    (hstands : Stands base operation xset runId world.target (.moveUpdate continuation)) :
    Works base xset runId operation
      (fun _ later => Running base operation xset runId later ∧
        Stands base operation xset runId later.target (.moveUpdate continuation))
      (trashMoved xset runId operation oldRel oldExpected continuation) world := by
  have hcopy : operation.kind ≠ .copy := by rw [hkind]; simp
  have hX : Lasting base xset runId (Running base operation xset runId) fun world =>
      Running base operation xset runId world ∧
        Stands base operation xset runId world.target (.moveUpdate continuation) :=
    lasting_stands _
  have hfolders : Works base xset runId operation
      (fun _ later => Running base operation xset runId later ∧
        Stands base operation xset runId later.target (.moveUpdate continuation))
      (onlyIf (!continuation.hasTrash) do
        let _ ← trashDestination runId oldRel
        put (.keep operation.opId (.moveUpdate { continuation with hasTrash := true }))) world := by
    unfold onlyIf
    split
    · refine wp_bind.2 ((trashDestination_wp hX (fun folder hfolder world disk hworld happly =>
        ?_) ⟨h, hstands⟩).mono (fun destination later hlater => ?_) fun _ _ h => h)
      · have hfile : ∀ bytes, Holds world.target operation.targetRelPath bytes →
            Holds disk operation.targetRelPath bytes := fun bytes ⟨node, hnode⟩ =>
          ⟨node, ((mkdir_spec happly).1 _).trans hnode⟩
        exact ⟨hworld.1.changed hapart hchosen (Or.inl (.folder (.inr ⟨hkind, hold⟩) hfolder))
          trivial (fun _ _ hother => hother.moved hkind hfile) happly _,
          hworld.2.moved hkind hfile⟩
      · exact ⟨hlater.2.1.kept hcopy hlater.2.2, hlater.2.2⟩
    · exact ⟨h, hstands⟩
  refine wp_bind.2 (hfolders.mono (fun _ later hlater => ?_) fun _ _ h => h)
  refine hX.next hlater (ask_does still_asks _ trivial) fun _ later hlater => ?_
  refine hX.next hlater (stat_does still_asks _ _ fun _ => trivial) fun oldActual later hlater => ?_
  refine hX.next hlater (stat_does still_asks _ _ fun _ => trivial)
    fun trashActual later hlater => ?_
  cases oldActual with
  | none => exact hX.last hlater (failIf_does _ _ fun _ => trivial)
  | some actual =>
      refine hX.next hlater (guardPathStat_does _ _ _ _ trivial) fun _ later hlater => ?_
      refine hX.next hlater (failIf_does _ _ fun _ => trivial) fun _ later hlater => ?_
      refine hX.next hlater (flushBeforeDestructive_does still_asks trivial trivial)
        fun _ later hlater => ?_
      exact trashPrior_wp hapart hchosen hkind hold _ _ hlater.1 hlater.2

/-- `_move_update`. -/
theorem moveUpdate_wp (h : Running base operation xset runId world) :
    Works base xset runId operation (Succeeds base operation xset runId)
      (moveUpdate xset runId policies operation) world := by
  refine wp_bind.2 (wp_get.2 ?_)
  have hcontinuation : Works base xset runId operation
      (fun continuation last => Running base operation xset runId last ∧
        Stands base operation xset runId last.target (.moveUpdate continuation))
      (moveUpdateContinuation xset runId policies operation
        (world.state.retryContinuations.get? operation.opId)) world := by
    cases hget : world.state.retryContinuations.get? operation.opId with
    | none => exact startMoveUpdate_wp hapart hchosen hkind ⟨h, hget⟩
    | some continuation =>
        cases continuation with
        | update continuation => exact h
        | moveUpdate continuation => exact ⟨h, h.stands _ hget⟩
  refine wp_bind.2 (hcontinuation.mono (fun continuation later hlater => ?_) fun _ _ h => h)
  refine (lasting_stands (.moveUpdate continuation)).bind hlater
    (lift_does fun evidence hevidence => hevidence) fun evidence later hevidence hlater => ?_
  obtain ⟨oldRel, oldExpected⟩ := evidence
  have hold := prior_of_ok hevidence
  refine wp_bind.2 ((attestMoveUpdate_wp hkind hlater.1 hlater.2).mono
    (fun attested later hlater => ?_) fun _ _ h => h)
  refine wp_bind.2 ((trashMoved_wp hapart hchosen hkind hold hlater.1 hlater.2).mono
    (fun _ later hlater => ?_) fun _ _ h => h)
  have hX : Lasting base xset runId (Running base operation xset runId) fun world =>
      Running base operation xset runId world ∧
        Stands base operation xset runId world.target (.moveUpdate attested) :=
    lasting_stands _
  refine hX.next hlater (durabilityDetail_does still_asks _ _ fun _ => trivial)
    fun detail later hlater => ?_
  split
  · exact hlater.1
  · next attestation hattestation =>
      have htrue := (hlater.2 hkind).2 attestation hattestation
      refine wp_bind.2 ((record_wp hX _ (fun later hlater => ⟨hlater.1.recorded hchosen rfl ?_,
        hlater.2⟩) hlater).mono (fun detail last hlast => ?_) fun _ _ h => h)
      · intro recorded hrecorded
        obtain rfl := Option.some.inj hrecorded
        exact htrue
      · obtain ⟨⟨bytes, hbytes, -, -, hholds⟩, -⟩ := hlast.2 hkind
        exact ⟨hlast.1, fun _ _ => ⟨bytes, hbytes, hholds⟩⟩

end MoveUpdate

/-! ## Every operation

The kinds that copy nothing keep the invariant by their reach alone.  With the
three that copy, every operation keeps it, whether it returns or raises. -/

section Operation

variable [Unicode] [Host] [Sha256] {base : World} {xset : ExecutionSet} {runId : RunId}
  {policies : ExecutorPolicies} {operation : PlanOperation} {world : World}
  (hapart : Apart xset runId) (hchosen : Chosen xset operation)

omit [Host] in
/-- A continuation of another kind of operation stands for nothing. -/
theorem stands_of_not_counts (hcounts : countsBytes operation.kind = false) (disk : Disk)
    (continuation : Continuation) : Stands base operation xset runId disk continuation := by
  cases continuation with
  | update continuation =>
      intro hkind
      rw [hkind] at hcounts
      cases hcounts
  | moveUpdate continuation =>
      intro hkind
      rw [hkind] at hcounts
      cases hcounts

include hapart hchosen

omit [Host] [Sha256] in
/-- The other kinds publish nothing. -/
theorem ready_of_not_counts (hcounts : countsBytes operation.kind = false) {step : Change}
    (h : Reaches xset runId operation step) (disk : Disk) : Ready xset runId base disk step := by
  have hupdate : operation.kind ≠ .update := by
    rintro hkind
    rw [hkind] at hcounts
    cases hcounts
  have hmoves : ∀ {source target : RelPath}, Moves xset runId source target →
      Ready xset runId base disk (.rename source target) := fun hmoves hne htemp =>
    absurd List.prefix_rfl ((hapart.moves _ _ hmoves hne).2.1 _ htemp)
  cases h with
  | fill hkind _ => rw [hkind] at hcounts; cases hcounts
  | finish hkind _ => rw [hkind] at hcounts; cases hcounts
  | publish hkind => rw [counts_of_copies hkind] at hcounts; cases hcounts
  | replace hkind => exact absurd hkind hupdate
  | link hkind _ => exact absurd hkind hupdate
  | fillBackup hkind _ _ => exact absurd hkind hupdate
  | publishBackup hkind _ => exact absurd hkind hupdate
  | finishBackup hkind _ => exact absurd hkind hupdate
  | folder _ _ => trivial
  | move hkind hprior => exact hmoves (.move hchosen hkind hprior)
  | trashPrior hkind hprior => exact hmoves (.prior hchosen hkind hprior)
  | trash hkind => exact hmoves (.trash hchosen hkind)
  | removeFile _ => trivial
  | removeDirectory _ => trivial
  | readonly _ hmeta => cases hmeta <;> trivial

/-- The kinds that bring no bytes: all their steps keep all of it. -/
theorem quiet_wp (hcounts : countsBytes operation.kind = false)
    (h : Running base operation xset runId world) :
    Works base xset runId operation (Succeeds base operation xset runId)
      (executeOperation xset runId policies operation) world := by
  have hcopy : operation.kind ≠ .copy := by
    rintro hkind
    rw [hkind] at hcounts
    cases hcounts
  have hdoes : (executeOperation xset runId policies operation).Does (fun _ => True)
      (OpCall xset runId operation) (OpNote runId operation) fun _ => True :=
    executeOperation_does
  refine (hdoes.wp (R := Safely base xset runId) (J := Running base operation xset runId)
    (fun _ _ => trivial) (fun call hcall before after hbefore heffect => ?_)
    (fun note hnote before hbefore => ?_) (fun _ h => h.sound) h).mono
      (fun settled later hlater => ⟨hlater.2, fun _ hcounts' => ?_⟩) fun _ _ h => h
  · -- The calls: a change is within reach of the kind, a record attests nothing.
    cases call with
    | change step =>
        unfold machine Call.effect at heffect
        dsimp only at heffect
        split at heffect
        · next disk happly =>
            obtain rfl := Except.ok.inj heffect
            exact hbefore.changed hapart hchosen (Or.inl hcall)
              (ready_of_not_counts hapart hchosen hcounts hcall _)
              (fun _ _ _ => stands_of_not_counts hcounts _ _) happly _
        · cases heffect
    | record call =>
        obtain rfl := Except.ok.inj heffect
        refine hbefore.recorded hchosen hcall.1 fun attestation hattestation => ?_
        rw [← hcall.2] at hcounts
        rw [attestation_of_not_counts hcounts] at hattestation
        cases hattestation
    | emit body => exact hcall.elim
    | ask question => exact hbefore.still (still_effect (still_asks question) heffect)
    | clock =>
        have hstill : StillCall .clock := trivial
        exact hbefore.still (still_effect hstill heffect)
    | emitProgress =>
        have hstill : StillCall .emitProgress := trivial
        exact hbefore.still (still_effect hstill heffect)
  · -- The notes: those of the loop around the operation cannot occur.
    cases note with
    | keep id continuation =>
        obtain rfl := hnote
        exact hbefore.kept hcopy (stands_of_not_counts hcounts _ _)
    | inflight temp =>
        rcases hnote with rfl | ⟨hbytes, -⟩
        · have hcleared : StillNote xset runId (.inflight none) := fun path hpath => by cases hpath
          exact hbefore.still (still_noted hcleared _)
        · rw [hcounts] at hbytes
          cases hbytes
    | progress step =>
        cases step with
        | copied size =>
            have hstill : StillNote xset runId (.progress (.copied size)) := trivial
            exact hbefore.still (still_noted hstill _)
        | emitted now =>
            have hstill : StillNote xset runId (.progress (.emitted now)) := trivial
            exact hbefore.still (still_noted hstill _)
        | start operation => exact hnote.elim
        | settled operation outcome => exact hnote.elim
    | degrade =>
        have hstill : StillNote xset runId .degrade := trivial
        exact hbefore.still (still_noted hstill _)
    | start restore tracker => exact hnote.elim
    | current id => exact hnote.elim
    | forget id => exact hnote.elim
    | pend operation => exact hnote.elim
    | takePending => exact hnote.elim
    | unready id => exact hnote.elim
    | settle id item => exact hnote.elim
    | filesystemFailed => exact hnote.elim
  · rw [hcounts] at hcounts'
    cases hcounts'

/-- `_execute_operation`: an attempt that returns has delivered, and one that
raises has left everything sound. -/
theorem executeOperation_wp (h : Running base operation xset runId world) :
    Works base xset runId operation (Succeeds base operation xset runId)
      (executeOperation xset runId policies operation) world := by
  cases hcounts : countsBytes operation.kind with
  | false => exact quiet_wp hapart hchosen hcounts h
  | true =>
      unfold executeOperation
      cases hkind : operation.kind with
      | copy => exact copy_wp hapart hchosen hkind h
      | update => exact update_wp hapart hchosen hkind h
      | moveUpdate => exact moveUpdate_wp hapart hchosen hkind h
      | _ =>
          rw [hkind] at hcounts
          cases hcounts

end Operation

end Executor

end NamiSync
