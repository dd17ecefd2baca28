/-
# `Modules.Executor.Backups` — the backup of an update

Before `_update` takes the place of a file, that file's bytes are in the
trash, if the plan wants them there: as a second name for it, or copied
through a temp of their own.  Where making the backup raises, there is none
or all of it, and `_update` looks which.

## What is proved

    backUp_wp : from a state in which the temp is complete and the target is
      as it was, the branch of `_update` for `trash_on_update` ends with the
      target's bytes in the trash, also where it catches an error

## The argument

Making the backup has three ends: it returns, it raises before anything is in
the trash, or it raises with everything there, since the last step of each
way (`os.link`, and the rename of the complete copy) is one primitive.
`Broken` is the disjunction, and `_update` decides it by a stat.  On the way
the trash holds at most the temp of the copy, which is a temp of the run and
so condemned from the start.
-/
import NamiSync.Modules.Executor.Deliveries

namespace NamiSync

namespace Executor

open Batches Faulty Faulty.Prog FileStore

section Places

variable [Unicode]

/-! ## Places are apart by their length

A place in the trash is two components deeper than the path it keeps, and a temp
is a sibling of its target; so none of them is above another. -/

@[simp]
theorem length_loc_trashPath (runId : RunId) (path : RelPath) :
    (loc (trashPath runId path)).length = (loc path).length + 2 := by
  simp [RelPath.keyParts, trashPath]

@[simp]
theorem length_loc_ownedTemp (target : RelPath) (runId : RunId) (opId : OpId) :
    (loc (ownedTemp target runId opId)).length = (loc target).length := by
  have hpos : 0 < target.components.length := List.length_pos_of_ne_nil target.ne_nil
  simp only [RelPath.keyParts, ownedTemp, List.length_map, List.length_append,
    List.length_dropLast, List.length_singleton]
  omega

omit [Unicode] in
/-- What is longer is not above. -/
theorem not_prefix_of_length {a b : List Str} (h : b.length < a.length) : ¬ a <+: b :=
  fun hpre => absurd hpre.length_le (by omega)

/-- The temp of a backup. -/
abbrev backupTempOf (runId : RunId) (operation : PlanOperation) : RelPath :=
  ownedTemp (trashPath runId operation.targetRelPath) runId operation.opId

/-- A step at a temp leaves other places vacant. -/
theorem Fills.vacant [Host] {temp : RelPath} {step : Change} (hstep : Fills temp step)
    {disk later : Disk} {now : Nat} (happly : step.apply disk now = .ok later) {place : List Str}
    (hne : place ≠ loc temp) (hnone : disk.look place = none) : later.look place = none := by
  cases hstep with
  | remove =>
      unfold Change.apply Disk.removeOwnedTemp at happly
      dsimp only at happly
      split at happly
      · exact Except.ok.inj happly ▸ hnone
      · obtain ⟨-, -, hvacant, -, -⟩ := Disk.unlink_spec happly
        exact hvacant place hnone
  | create =>
      unfold Change.apply at happly
      obtain ⟨-, -, hlook, -⟩ := Disk.create_spec happly
      rw [← Option.not_isSome_iff_eq_none, hlook place hne, Option.not_isSome_iff_eq_none]
      exact hnone
  | write bytes =>
      unfold Change.apply at happly
      obtain ⟨-, -, -, hlook, -⟩ := Disk.write_spec happly
      rw [← Option.not_isSome_iff_eq_none, hlook place, Option.not_isSome_iff_eq_none]
      exact hnone
  | metadata hmeta =>
      obtain ⟨-, hlook, -⟩ := metadata_spec hmeta happly
      rw [← Option.not_isSome_iff_eq_none, hlook place, Option.not_isSome_iff_eq_none]
      exact hnone

end Places

section Backup

variable [Unicode] [Host] [Sha256] {base : World} {xset : ExecutionSet} {runId : RunId}
  {operation : PlanOperation} {world : World} {bytes old : List UInt8}

/-! ## What the program goes through

The states between the first and the last change, each of which keeps the bytes
of the target somewhere: at the target itself, or at the backup as well. -/

/-- The temp is complete and the target as it was. -/
structure Guarded (base : World) (operation : PlanOperation) (xset : ExecutionSet) (runId : RunId)
    (bytes old : List UInt8) (world : World) : Prop
    extends Filled base operation xset runId bytes world where
  target : Holds world.target operation.targetRelPath old

/-- And nothing is in its place in the trash. -/
structure Cleared (base : World) (operation : PlanOperation) (xset : ExecutionSet) (runId : RunId)
    (bytes old : List UInt8) (world : World) : Prop
    extends Guarded base operation xset runId bytes old world where
  vacant : world.target.look (loc (trashPath runId operation.targetRelPath)) = none

/-- But the temp of the backup has some bytes. -/
structure Saving (base : World) (operation : PlanOperation) (xset : ExecutionSet) (runId : RunId)
    (bytes old saved : List UInt8) (world : World) : Prop
    extends Cleared base operation xset runId bytes old world where
  backup : Holds world.target (backupTempOf runId operation) saved

/-- The bytes of the target are in the trash. -/
structure Secured (base : World) (operation : PlanOperation) (xset : ExecutionSet) (runId : RunId)
    (bytes old : List UInt8) (world : World) : Prop
    extends Guarded base operation xset runId bytes old world where
  trash : Holds world.target (trashPath runId operation.targetRelPath) old

/-- Where making the backup breaks off: there is none, or all of it. -/
def Broken (base : World) (operation : PlanOperation) (xset : ExecutionSet) (runId : RunId)
    (bytes old : List UInt8) (world : World) : Prop :=
  Cleared base operation xset runId bytes old world ∨
    Secured base operation xset runId bytes old world

omit [Host] in
theorem Guarded.still {before after : World}
    (h : Guarded base operation xset runId bytes old before)
    (hstill : Still xset runId before after) :
    Guarded base operation xset runId bytes old after :=
  ⟨(lasting_filled bytes).still before after h.toFilled hstill, hstill.holds h.target⟩

omit [Host] in
theorem Cleared.still {before after : World}
    (h : Cleared base operation xset runId bytes old before)
    (hstill : Still xset runId before after) :
    Cleared base operation xset runId bytes old after :=
  ⟨h.toGuarded.still hstill, hstill.none h.vacant⟩

omit [Host] in
theorem lasting_guarded (bytes old : List UInt8) :
    Lasting base xset runId (Running base operation xset runId)
      (Guarded base operation xset runId bytes old) where
  sound _ h := h.sound
  ends _ h := h.toRunning
  still _ _ h hstill := h.still hstill

omit [Host] in
theorem lasting_cleared (bytes old : List UInt8) :
    Lasting base xset runId (Broken base operation xset runId bytes old)
      (Cleared base operation xset runId bytes old) where
  sound _ h := h.sound
  ends _ h := Or.inl h
  still _ _ h hstill := h.still hstill

omit [Host] in
theorem lasting_saving (bytes old saved : List UInt8) :
    Lasting base xset runId (Broken base operation xset runId bytes old)
      (Saving base operation xset runId bytes old saved) where
  sound _ h := h.sound
  ends _ h := Or.inl h.toCleared
  still _ _ h hstill := ⟨h.toCleared.still hstill, hstill.holds h.backup⟩

omit [Host] in
theorem lasting_secured (bytes old : List UInt8) :
    Lasting base xset runId (Broken base operation xset runId bytes old)
      (Secured base operation xset runId bytes old) where
  sound _ h := h.sound
  ends _ h := Or.inr h
  still _ _ h hstill := ⟨h.toGuarded.still hstill, hstill.holds h.trash⟩

variable (hapart : Apart xset runId) (hchosen : Chosen xset operation)

include hapart hchosen

/-! ## Making the backup

Each step of the program leads from one state to the next.  The answers in
between are arbitrary, so each step also says where a failure leaves the files. -/

/-- A change that leaves the temp and the target alone. -/
theorem Guarded.changed (h : Guarded base operation xset runId bytes old world) {step : Change}
    (hstep : OwnChange xset runId operation step)
    (hready : Ready xset runId base world.target step) {disk : Disk} {now : Nat}
    (htemp : disk.fileAt (loc (tempOf runId operation)) =
      world.target.fileAt (loc (tempOf runId operation)))
    (htarget : disk.fileAt (loc operation.targetRelPath) =
      world.target.fileAt (loc operation.targetRelPath))
    (happly : step.apply world.target now = .ok disk) (ticks : Nat) :
    Guarded base operation xset runId bytes old
      { world with target := disk, ticks := ticks } := by
  obtain ⟨node, hnode⟩ := h.holds
  obtain ⟨other, hother⟩ := h.target
  exact
    { toRunning := h.toRunning.changed hapart hchosen hstep hready
        (fun _ hget => by rw [h.fresh] at hget; cases hget) happly ticks
      fresh := h.fresh
      holds := ⟨node, htemp.trans hnode⟩
      target := ⟨other, htarget.trans hother⟩ }

omit [Host] [Sha256] hapart hchosen in
theorem ready_of_fills {temp : RelPath} {step : Change} {disk : Disk} (h : Fills temp step) :
    Ready xset runId base disk step := by
  cases h with
  | metadata hmeta => cases hmeta <;> trivial
  | _ => trivial

/-- A step at the temp of the backup. -/
theorem Cleared.fill (hkind : operation.kind = .update) (htrash : xset.plan.trashOnUpdate = true)
    (h : Cleared base operation xset runId bytes old world) {step : Change}
    (hstep : Fills (backupTempOf runId operation) step) {Q : Unit → World → Prop}
    (hQ : ∀ disk, step.apply world.target (Host.fileTime world.ticks) = .ok disk →
      Cleared base operation xset runId bytes old
        { world with target := disk, ticks := world.ticks + 1 } →
      Q () { world with target := disk, ticks := world.ticks + 1 }) :
    Ends base xset runId (Broken base operation xset runId bytes old) Q (Executor.change step)
      world := by
  refine change_wp (fun _ => Or.inl h) h.sound fun disk happly => ?_
  have hbackup : IsTemp xset runId (loc (backupTempOf runId operation)) := .backup hchosen hkind
  have hfar : ∀ path : RelPath, (loc path).length = (loc operation.targetRelPath).length →
      disk.fileAt (loc path) = world.target.fileAt (loc path) := by
    intro path hlength
    refine h.sound.intact.filled_frame hbackup hstep happly (not_prefix_of_length ?_)
    rw [length_loc_ownedTemp, length_loc_trashPath]
    omega
  have hne : loc (trashPath runId operation.targetRelPath) ≠ loc (backupTempOf runId operation) :=
    fun heq => hapart.backups operation hchosen hkind htrash (heq ▸ .temp hbackup)
  have hlater : Cleared base operation xset runId bytes old
      { world with target := disk, ticks := world.ticks + 1 } :=
    { toGuarded := h.toGuarded.changed hapart hchosen (Or.inl (.fillBackup hkind htrash hstep))
        (ready_of_fills hstep) (hfar _ (length_loc_ownedTemp _ _ _)) (hfar _ rfl) happly _
      vacant := hstep.vacant happly hne h.vacant }
  exact ⟨hlater.sound, hQ disk happly hlater, fun _ => Or.inl hlater⟩

theorem createBackup_wp (hkind : operation.kind = .update)
    (htrash : xset.plan.trashOnUpdate = true)
    (h : Cleared base operation xset runId bytes old world) :
    Ends base xset runId (Broken base operation xset runId bytes old)
      (fun _ => Saving base operation xset runId bytes old [])
      (Executor.change (.createTemp (backupTempOf runId operation))) world := by
  refine h.fill hapart hchosen hkind htrash .create fun disk happly hlater => ⟨hlater, ?_⟩
  unfold Change.apply at happly
  obtain ⟨-, hfiles, -, -⟩ := Disk.create_spec happly
  exact ⟨_, (hfiles _).trans (if_pos rfl)⟩

theorem writeBackup_wp (hkind : operation.kind = .update)
    (htrash : xset.plan.trashOnUpdate = true) {saved : List UInt8} (chunk : List UInt8)
    (h : Saving base operation xset runId bytes old saved world) :
    Ends base xset runId (Broken base operation xset runId bytes old)
      (fun _ => Saving base operation xset runId bytes old (saved ++ chunk))
      (Executor.change (.write (backupTempOf runId operation) chunk)) world := by
  refine h.toCleared.fill hapart hchosen hkind htrash (.write chunk)
    fun disk happly hlater => ⟨hlater, ?_⟩
  unfold Change.apply at happly
  obtain ⟨file, hfile, hfiles, -, -⟩ := Disk.write_spec happly
  obtain ⟨node, hnode⟩ := h.backup
  obtain rfl := Option.some.inj (hfile.symm.trans hnode)
  refine ⟨node, (hfiles _).trans ?_⟩
  rw [hfile, Option.map_some, if_pos rfl]

/-- The complete copy takes its place in the trash. -/
theorem publishBackup_wp (hkind : operation.kind = .update)
    (htrash : xset.plan.trashOnUpdate = true)
    (h : Saving base operation xset runId bytes old old world) :
    Ends base xset runId (Broken base operation xset runId bytes old)
      (fun _ => Secured base operation xset runId bytes old)
      (Executor.change (.rename (backupTempOf runId operation)
        (trashPath runId operation.targetRelPath))) world := by
  refine change_wp (fun _ => Or.inl h.toCleared) h.sound fun disk happly => ?_
  obtain ⟨node, hnode⟩ := h.backup
  obtain ⟨kept, hkept⟩ := h.target
  have hfar : ∀ path : RelPath, (loc path).length = (loc operation.targetRelPath).length →
      disk.fileAt (loc path) = world.target.fileAt (loc path) := by
    intro path hlength
    refine rename_frame happly (not_prefix_of_length ?_) (not_prefix_of_length ?_)
    · rw [length_loc_ownedTemp, length_loc_trashPath]
      omega
    · rw [length_loc_trashPath]
      omega
  have hknown : Known xset runId base old :=
    h.sound.intact.whole _ _ (hapart.targets operation hchosen (counts_of_update hkind)) hkept
  have hlater : Secured base operation xset runId bytes old
      { world with target := disk, ticks := world.ticks + 1 } :=
    { toGuarded := h.toGuarded.changed hapart hchosen (Or.inl (.publishBackup hkind htrash))
        (fun _ _ => ⟨_, hnode, hknown⟩) (hfar _ (length_loc_ownedTemp _ _ _)) (hfar _ rfl)
        happly _
      trash := by
        obtain ⟨-, -, -, hfiles, -, -⟩ := Disk.rename_spec happly
        refine ⟨node, (hfiles _).trans ?_⟩
        rw [if_pos List.prefix_rfl, List.drop_length, List.append_nil]
        exact hnode }
  exact ⟨hlater.sound, hlater, fun _ => Or.inr hlater⟩

/-- The target gets a second name in the trash. -/
theorem linkBackup_wp (hkind : operation.kind = .update)
    (htrash : xset.plan.trashOnUpdate = true)
    (h : Cleared base operation xset runId bytes old world) :
    Ends base xset runId (Broken base operation xset runId bytes old)
      (fun _ => Secured base operation xset runId bytes old)
      (Executor.change (.hardlink operation.targetRelPath
        (trashPath runId operation.targetRelPath))) world := by
  refine change_wp (fun _ => Or.inl h) h.sound fun disk happly => ?_
  have hlink : world.target.link (Host.fileTime world.ticks) operation.targetRelPath
      (trashPath runId operation.targetRelPath) = .ok disk := happly
  obtain ⟨-, -, hfiles, -, -⟩ := Disk.link_spec hlink
  obtain ⟨kept, hkept⟩ := h.target
  have hfar : ∀ path : RelPath, (loc path).length = (loc operation.targetRelPath).length →
      disk.fileAt (loc path) = world.target.fileAt (loc path) := by
    intro path hlength
    have hne : loc path ≠ loc (trashPath runId operation.targetRelPath) := by
      intro heq
      rw [heq, length_loc_trashPath] at hlength
      omega
    rw [hfiles, if_neg hne]
  have hlater : Secured base operation xset runId bytes old
      { world with target := disk, ticks := world.ticks + 1 } :=
    { toGuarded := h.toGuarded.changed hapart hchosen (Or.inl (.link hkind htrash)) trivial
        (hfar _ (length_loc_ownedTemp _ _ _)) (hfar _ rfl) happly _
      trash := ⟨kept, (hfiles _).trans ((if_pos rfl).trans hkept)⟩ }
  exact ⟨hlater.sound, hlater, fun _ => Or.inr hlater⟩

/-- `copy_backup`. -/
theorem copyBackup_wp (hkind : operation.kind = .update)
    (htrash : xset.plan.trashOnUpdate = true)
    (h : Cleared base operation xset runId bytes old world) :
    Ends base xset runId (Broken base operation xset runId bytes old)
      (fun _ => Secured base operation xset runId bytes old)
      (copyBackup operation.targetRelPath (backupTempOf runId operation)
        (trashPath runId operation.targetRelPath)) world := by
  refine (lasting_cleared bytes old).next h (ask_does still_asks _ trivial)
    fun _ later hlater => ?_
  refine wp_bind.2 ((createBackup_wp hapart hchosen hkind htrash hlater).mono
    (fun _ later hlater => ?_) fun _ _ h => h)
  have hcontent : (later.target.look (loc operation.targetRelPath)).elim [] (·.content) = old := by
    obtain ⟨node, hnode⟩ := hlater.target
    obtain ⟨sight, hlook, -, hbytes⟩ := Disk.fileAt_eq_some.1 hnode
    rw [hlook]
    exact congrArg Prod.snd hbytes
  refine wp_bind.2 (wp_get.2 ?_)
  show Ends base xset runId _ _ (stream .target operation.targetRelPath
    (backupTempOf runId operation) (fun _ => pure ()) (batches (4 * 1024 * 1024)
      ((later.target.look (loc operation.targetRelPath)).elim [] (·.content))) >>= _) later
  rw [hcontent]
  have hchunk : ∀ (size : Nat) (saved : List UInt8), (pure () : Exec Unit).Does
      (Saving base operation xset runId bytes old saved) StillCall (StillNote xset runId)
        fun _ => True := fun _ _ => trivial
  have hstream : Ends base xset runId (Broken base operation xset runId bytes old)
      (fun _ => Saving base operation xset runId bytes old
        ([] ++ (batches (4 * 1024 * 1024) old).flatten))
      (stream .target operation.targetRelPath (backupTempOf runId operation) (fun _ => pure ())
        (batches (4 * 1024 * 1024) old)) later :=
    stream_wp (Saving base operation xset runId bytes old) (lasting_saving bytes old)
      (fun saved chunk world => writeBackup_wp hapart hchosen hkind htrash chunk) hchunk _ hlater
  rw [flatten_batches (by decide), List.nil_append] at hstream
  have hX : Lasting base xset runId (Broken base operation xset runId bytes old)
      (Saving base operation xset runId bytes old old) :=
    lasting_saving _ _ _
  refine wp_bind.2 (hstream.mono (fun _ later hlater => ?_) fun _ _ h => h)
  refine hX.next hlater (ask_does still_asks _ trivial) fun _ later hlater => ?_
  refine hX.stat hlater fun later hlater => ?_
  split
  · exact hX.ends _ hlater
  · refine hX.next hlater (applyMetadata_does still_asks _ _ _ still_metadata trivial)
      fun _ later hlater => ?_
    refine hX.next hlater (ask_does still_asks _ trivial) fun _ later hlater => ?_
    refine wp_bind.2 ((publishBackup_wp hapart hchosen hkind htrash hlater).mono
      (fun _ later hlater => ?_) fun _ _ h => h)
    exact (lasting_secured bytes old).last hlater
      (applyMetadata_does still_asks _ _ _ still_metadata trivial)

theorem makeBackup_wp (hkind : operation.kind = .update)
    (htrash : xset.plan.trashOnUpdate = true)
    (h : Cleared base operation xset runId bytes old world) :
    Ends base xset runId (Broken base operation xset runId bytes old)
      (fun _ => Secured base operation xset runId bytes old)
      (makeBackup xset runId operation (trashPath runId operation.targetRelPath)) world := by
  unfold makeBackup
  split
  · exact linkBackup_wp hapart hchosen hkind htrash h
  · refine caught_bind (h.fill hapart hchosen hkind htrash .remove fun disk _ hlater =>
      copyBackup_wp hapart hchosen hkind htrash hlater) fun error later hlater => ?_
    split
    · exact hlater
    · exact hlater

omit hapart hchosen in
/-- `trash_destination`, for what no new folder changes. -/
theorem trashDestination_wp {E X : World → Prop} (hX : Lasting base xset runId E X)
    {path : RelPath}
    (hmkdir : ∀ folder ∈ (trashPath runId path).parents, ∀ world disk, X world →
      (Change.mkdir folder).apply world.target (Host.fileTime world.ticks) = .ok disk →
        X { world with target := disk, ticks := world.ticks + 1 }) (h : X world) :
    Ends base xset runId E (fun destination later => destination = trashPath runId path ∧ X later)
      (trashDestination runId path) world := by
  have hdoes : (trashDestination runId path).Does X
      (fun call => StillCall call ∨ ∃ folder ∈ (trashPath runId path).parents,
        call = Call.change (.mkdir folder)) (StillNote xset runId)
      fun destination => destination = trashPath runId path :=
    trashDestination_does (fun _ => Or.inl trivial) _ _ (fun folder hf => Or.inr ⟨folder, hf, rfl⟩)
      rfl
  refine (hdoes.wp (R := Safely base xset runId) (J := X) (fun _ h => h)
    (fun call hcall before after hbefore heffect => ?_) (fun note hnote before hbefore => ?_)
    (fun later hlater => hX.sound later hlater) h).mono (fun _ _ h => h)
      fun _ later hlater => hX.ends later hlater
  · rcases hcall with hcall | ⟨folder, hfolder, rfl⟩
    · exact hX.still before after hbefore (still_effect hcall heffect)
    · unfold machine Call.effect at heffect
      dsimp only at heffect
      split at heffect
      · next disk happly =>
          obtain rfl := Except.ok.inj heffect
          exact hmkdir folder hfolder before disk hbefore happly
      · cases heffect
  · exact hX.still before _ hbefore (still_noted hnote before)

/-- The branch of `_update` for `trash_on_update`: the backup is there, also
where making it has failed after all. -/
theorem backUp_wp (hkind : operation.kind = .update) (htrash : xset.plan.trashOnUpdate = true)
    (h : Guarded base operation xset runId bytes old world) :
    Works base xset runId operation (fun _ => Secured base operation xset runId bytes old)
      (backUp xset runId operation) world := by
  have hX : Lasting base xset runId (Running base operation xset runId)
      (Guarded base operation xset runId bytes old) :=
    lasting_guarded _ _
  refine wp_bind.2
    ((trashDestination_wp hX (fun folder hfolder world disk hworld happly => ?_) h).mono
      (fun destination later hlater => ?_) fun _ _ h => h)
  · have hfiles := (mkdir_spec happly).1
    exact hworld.changed hapart hchosen
      (Or.inl (.folder (.inl ⟨.inl ⟨hkind, htrash⟩, rfl⟩) hfolder)) trivial (hfiles _) (hfiles _)
      happly _
  · obtain ⟨rfl, hlater⟩ := hlater
    refine hX.stat hlater fun later hlater => ?_
    cases hfound : later.target.stat (trashPath runId operation.targetRelPath) with
    | some found =>
        rw [show (later.disk .target).stat (trashPath runId operation.targetRelPath) = some found
          from hfound]
        exact hlater.toRunning
    | none =>
        rw [show (later.disk .target).stat (trashPath runId operation.targetRelPath) = none
          from hfound]
        have hcleared : Cleared base operation xset runId bytes old later :=
          ⟨hlater, Option.map_eq_none_iff.1 hfound⟩
        refine wp_catching.2 (wp_bind.2 ((makeBackup_wp hapart hchosen hkind htrash hcleared).mono
          (fun _ last hlast => hlast) fun error last hlast => ?_))
        have hrunning : Running base operation xset runId last :=
          hlast.elim (fun h => h.toRunning) fun h => h.toRunning
        split
        · have hbroken : Lasting base xset runId (Running base operation xset runId)
              (Broken base operation xset runId bytes old) :=
            ⟨fun _ h => h.elim (fun h => h.sound) fun h => h.sound,
              fun _ h => h.elim (fun h => h.toRunning) fun h => h.toRunning,
              fun _ _ h hstill => h.imp (fun h => h.still hstill)
                fun h => (lasting_secured bytes old).still _ _ h hstill⟩
          refine hbroken.stat hlast fun last hlast => ?_
          split
          · exact hbroken.ends _ hlast
          · next hsome =>
              -- Something is in the trash, so it is the backup.
              refine hlast.resolve_left fun hcleared => hsome ?_
              rw [show (last.disk .target).stat (trashPath runId operation.targetRelPath) =
                (last.target.look (loc (trashPath runId operation.targetRelPath))).map _ from rfl,
                hcleared.vacant]
              rfl
        · exact hrunning

end Backup

end Executor

end NamiSync
