/-
# `Modules.Executor.Deliveries` — what an operation brings

`_prepare_copy` leaves a temp with the bytes of the source or raises, and so
does everything after it with the target: where an attempt at a copy, an
update or a move-update returns, the target has the bytes of the source, and
the attestation that was recorded is of these bytes.  Along the way, and
wherever an attempt breaks off, all that has to hold holds, against every
environment.

## How the triples read

`Works base operation xset runId Q m world` says that the program `m`, run
from `world` against an environment that may answer anything, keeps what has
to hold in every state on the way, ends in `Q` where it returns, and in
`Running` wherever it raises.  A program is followed with `Lasting.bind` and
`Lasting.next` past the steps that change nothing, and with `Running.change`
at the ones that do.

## What is proved

    prepareCopy_wp   the temp has the bytes of the source, and the digest
                     that goes with it is of these bytes
    publish_wp       a complete temp that is published makes the target land
    copy_wp          an attempt at a COPY that returns has delivered

The stream of a copy is read piece by piece, so the temp holds an initial
part of the bytes until the last piece: `stream_wp` is an induction over the
pieces that the environment chooses to answer with.
-/
import NamiSync.Modules.Executor.Sound

namespace NamiSync

namespace Executor

open Batches Faulty Faulty.Prog FileStore

section Deliveries

variable [Unicode] [Host] [Sha256]

/-- Any answers may come. -/
def Safely (base : World) (xset : ExecutionSet) (runId : RunId) : Regime machine where
  allows _ _ _ := True
  safe := Sound base xset runId

variable (base : World) (xset : ExecutionSet) (runId : RunId)

/-- What a program comes to, wherever it raises. -/
abbrev Ends {α : Type} (E : World → Prop) (Q : α → World → Prop) (m : Exec α) (world : World) :
    Prop :=
  Faulty.wp (Safely base xset runId) Q (fun _ => E) m world

/-- A part of an operation, which is still running where it raises. -/
abbrev Works {α : Type} (operation : PlanOperation) (Q : α → World → Prop) (m : Exec α)
    (world : World) : Prop :=
  Ends base xset runId (Running base operation xset runId) Q m world

/-- Something that lasts as long as nothing is changed, and that will do
where a program raises. -/
structure Lasting (E X : World → Prop) : Prop where
  sound : ∀ world, X world → Sound base xset runId world
  ends : ∀ world, X world → E world
  still : ∀ before after, X before → Still xset runId before after → X after

variable {base xset runId} {operation : PlanOperation} {α β : Type} {E X : World → Prop}
  {Q : β → World → Prop} {world : World}

omit [Host] in
theorem lasting_running : Lasting base xset runId (Running base operation xset runId)
    (Running base operation xset runId) :=
  ⟨fun _ h => h.sound, fun _ h => h, fun _ _ h hstill => h.still hstill⟩

/-- A still program keeps what lasts. -/
theorem Lasting.wp (hX : Lasting base xset runId E X) {P : α → Prop} {m : Exec α} (h : X world)
    (hm : m.Does X StillCall (StillNote xset runId) P) :
    Faulty.wp (Safely base xset runId) (fun a later => P a ∧ X later) (fun _ => X) m world := by
  refine hm.wp (R := Safely base xset runId) (J := X) (fun _ h => h)
    (fun call hcall before after hbefore heffect => ?_) (fun note hnote before hbefore => ?_)
    (fun later hlater => hX.sound later hlater) h
  · exact hX.still before after hbefore (still_effect hcall heffect)
  · exact hX.still before _ hbefore (still_noted hnote before)

/-- A still step. -/
theorem Lasting.bind (hX : Lasting base xset runId E X) {P : α → Prop} {m : Exec α}
    {k : α → Exec β} (h : X world) (hm : m.Does X StillCall (StillNote xset runId) P)
    (hk : ∀ a later, P a → X later → Ends base xset runId E Q (k a) later) :
    Ends base xset runId E Q (m >>= k) world :=
  wp_bind.2 ((hX.wp h hm).mono (fun a later h => hk a later h.1 h.2) fun _ later h =>
    hX.ends later h)

/-- A still step of which nothing has to be known. -/
theorem Lasting.next (hX : Lasting base xset runId E X) {m : Exec α} {k : α → Exec β} (h : X world)
    (hm : m.Does X StillCall (StillNote xset runId) fun _ => True)
    (hk : ∀ a later, X later → Ends base xset runId E Q (k a) later) :
    Ends base xset runId E Q (m >>= k) world :=
  hX.bind h hm fun a later _ => hk a later

/-- The last step, a still one. -/
theorem Lasting.last (hX : Lasting base xset runId E X) {m : Exec α} (h : X world)
    (hm : m.Does X StillCall (StillNote xset runId) fun _ => True) :
    Ends base xset runId E (fun _ => X) m world :=
  (hX.wp h hm).mono (fun _ _ h => h.2) fun _ later h => hX.ends later h

/-- A stat, and the state that it is of. -/
theorem Lasting.stat (hX : Lasting base xset runId E X) {side : Side} {path : RelPath}
    {k : Option FileStat → Exec β} (h : X world)
    (hk : ∀ later, X later →
      Ends base xset runId E Q (k ((later.disk side).stat path)) later) :
    Ends base xset runId E Q (Executor.stat side path >>= k) world :=
  wp_bind.2 (hX.next h (does_call trivial trivial) fun _ later hlater => hk later hlater)

/-- A change, and what follows where it has taken effect. -/
theorem change_wp {step : Change} {Q : Unit → World → Prop} {E : Error → World → Prop}
    (hsame : ∀ error, E error world) (hsafe : Sound base xset runId world)
    (hstep : ∀ disk, step.apply world.target (Host.fileTime world.ticks) = .ok disk →
      Sound base xset runId { world with target := disk, ticks := world.ticks + 1 } ∧
        Q () { world with target := disk, ticks := world.ticks + 1 } ∧
          ∀ error, E error { world with target := disk, ticks := world.ticks + 1 }) :
    Faulty.wp (Safely base xset runId) Q E (change step) world := by
  have heffect : ∀ later, Call.effect (.change step) world = .ok later →
      ∃ disk, step.apply world.target (Host.fileTime world.ticks) = .ok disk ∧
        later = { world with target := disk, ticks := world.ticks + 1 } := by
    intro later h
    unfold Call.effect at h
    dsimp only at h
    split at h
    · next disk happly => exact ⟨disk, happly, (Except.ok.inj h).symm⟩
    · cases h
  refine wp_call (fun later _ h => ?_) fun error later _ h => ?_
  · obtain ⟨disk, happly, rfl⟩ := heffect later h
    obtain ⟨hsound, hok, -⟩ := hstep disk happly
    exact ⟨hsound, hok⟩
  · rcases h with rfl | h
    · exact ⟨hsafe, hsame error⟩
    · obtain ⟨disk, happly, rfl⟩ := heffect later h
      obtain ⟨hsound, -, herror⟩ := hstep disk happly
      exact ⟨hsound, herror error⟩

/-- A change of the operation. -/
theorem Running.change {step : Change} {Q : Unit → World → Prop}
    (hapart : Apart xset runId) (hchosen : Chosen xset operation)
    (h : Running base operation xset runId world) (hstep : OwnChange xset runId operation step)
    (hready : Ready xset runId base world.target step)
    (hstands : ∀ disk continuation,
      step.apply world.target (Host.fileTime world.ticks) = .ok disk →
      world.state.retryContinuations.get? operation.opId = some continuation →
      Stands base operation xset runId world.target continuation →
        Stands base operation xset runId disk continuation)
    (hQ : ∀ disk, step.apply world.target (Host.fileTime world.ticks) = .ok disk →
      Running base operation xset runId { world with target := disk, ticks := world.ticks + 1 } →
        Q () { world with target := disk, ticks := world.ticks + 1 }) :
    Works base xset runId operation Q (Executor.change step) world := by
  refine change_wp (fun _ => h) h.sound fun disk happly => ?_
  have hlater : Running base operation xset runId
      { world with target := disk, ticks := world.ticks + 1 } :=
    h.changed hapart hchosen hstep hready (fun continuation => hstands disk continuation happly)
      happly _
  exact ⟨hlater.sound, hQ disk happly hlater, fun _ => hlater⟩

/-- Where what is caught is raised again as something else. -/
theorem caught_bind {m : Exec α} {k : α → Exec β} {handler : Error → Exec α}
    (hm : Ends base xset runId E (fun a => Ends base xset runId E Q (k a)) m world)
    (hhandler : ∀ error later, E later →
      Ends base xset runId E (fun a => Ends base xset runId E Q (k a)) (handler error) later) :
    Ends base xset runId E Q (m.catching handler >>= k) world :=
  wp_bind.2 (wp_catching.2 (hm.mono (fun _ _ h => h) hhandler))

/-! ## What is seen on the disk

A stat that the guards have seen is of what is there at that time, and then the
bytes under the path are those of the file. -/

section Live

variable {I : World → Prop} {A : Call → Prop} {N : Note → Prop}
  (hask : ∀ question, A (.ask question))

include hask

omit [Sha256] in
theorem stat_live {P : Option FileStat → Prop} (side : Side) (path : RelPath)
    (hP : ∀ world, I world → P ((world.disk side).stat path)) : (stat side path).Does I A N P :=
  does_bind.2 (ask_does hask _ fun world hworld => hP world hworld)

omit [Sha256] in
/-- What has passed the guard is there and matches. -/
theorem guardPresent_live {P : FileStat → Prop} (side : Side) (path : RelPath)
    (expected : FileStat) (missing drift : ExecutionReason)
    (matcher : FileStat → FileStat → Bool)
    (hP : ∀ world actual, I world → (world.disk side).stat path = some actual →
      matcher actual expected = true → P actual) :
    (guardPresent side path expected missing drift matcher).Does I A N P := by
  refine does_bind.2 (does_catching (stat_live hask _ _ fun world hworld =>
    lift_does fun actual hactual => ?_) fun error => ?_)
  · unfold NamiSync.guardPresent at hactual
    split at hactual
    · cases hactual
    · cases hactual
    · cases hactual
    · next found hfound =>
        split at hactual
        · next hmatch =>
            obtain rfl := Except.ok.inj hactual
            exact hP world _ hworld (Except.ok.inj hfound) hmatch
        · cases hactual
  · split
    · trivial
    · trivial

end Live

omit [Host] [Sha256] in
/-- A file, where a stat says so. -/
theorem Disk.fileAt_of_stat {disk : Disk} {path : RelPath} {actual : FileStat}
    (h : disk.stat path = some actual) (hkind : actual.kind = .file) :
    ∃ sight, disk.look (loc path) = some sight ∧
      disk.fileAt (loc path) = some (sight.node, sight.content) := by
  obtain ⟨sight, hlook, rfl⟩ := Option.map_eq_some_iff.1 h
  refine ⟨sight, hlook, Disk.fileAt_eq_some.2 ⟨sight, hlook, ?_, rfl⟩⟩
  unfold Disk.statOf at hkind
  cases hdirectory : sight.isDirectory with
  | false => rfl
  | true =>
      rw [hdirectory] at hkind
      cases hkind

omit [Unicode] [Host] [Sha256] in
theorem matchesExpected_kind {actual expected : FileStat}
    (h : matchesExpected actual expected = true) : actual.kind = expected.kind := by
  unfold matchesExpected at h
  simp only [Bool.and_eq_true, decide_eq_true_eq] at h
  exact h.1.1.1.1.1

/-- A guard of a file of the target: where it lets pass, the file is there. -/
theorem Lasting.guard (hX : Lasting base xset runId E X) {C : Prop} {path : RelPath}
    {expected : FileStat} {missing drift : ExecutionReason} {k : FileStat → Exec β}
    (hkind : C → expected.kind = .file) (h : X world)
    (hk : ∀ actual later, X later → (C → ∃ file, later.target.fileAt (loc path) = some file) →
      Ends base xset runId E Q (k actual) later) :
    Ends base xset runId E Q (guardPresent .target path expected missing drift >>= k) world := by
  -- Nothing changes while it is looked at.
  have hpinned : Lasting base xset runId E fun later =>
      X later ∧ ∀ place, later.target.fileAt place = world.target.fileAt place :=
    ⟨fun _ h => hX.sound _ h.1, fun _ h => hX.ends _ h.1, fun _ _ h hstill =>
      ⟨hX.still _ _ h.1 hstill, fun place => (hstill.files place).trans (h.2 place)⟩⟩
  refine hpinned.bind ⟨h, fun _ => rfl⟩ (guardPresent_live still_asks .target path expected _ _ _
    fun later actual hlater hstat hmatch => (?_ : C → ∃ file,
      world.target.fileAt (loc path) = some file)) fun actual later hfile hlater => ?_
  · intro hC
    obtain ⟨sight, -, hsight⟩ := Disk.fileAt_of_stat (show later.target.stat path = _ from hstat)
      ((matchesExpected_kind hmatch).trans (hkind hC))
    exact ⟨_, (hlater.2 _).symm.trans hsight⟩
  · refine hk actual later hlater.1 fun hC => ?_
    obtain ⟨file, hfile⟩ := hfile hC
    exact ⟨file, (hlater.2 _).trans hfile⟩

omit [Host] [Sha256] in
theorem source_of_ok {detail : String} {path : RelPath} {expected : FileStat}
    (h : sourceEvidence operation detail = .ok (path, expected)) :
    operation.sourceRelPath = some path ∧ operation.sourceExpected = some expected := by
  unfold sourceEvidence at h
  split at h
  · next hpath hexpected =>
      obtain ⟨rfl, rfl⟩ := Prod.mk.inj (Except.ok.inj h)
      exact ⟨hpath, hexpected⟩
  · cases h

/-! ## Copying into a temp

From the empty temp to the whole content, chunk by chunk. -/

/-- There is no continuation yet. -/
structure Fresh (base : World) (operation : PlanOperation) (xset : ExecutionSet) (runId : RunId)
    (world : World) : Prop extends Running base operation xset runId world where
  fresh : world.state.retryContinuations.get? operation.opId = none

/-- And the temp has the bytes. -/
structure Filled (base : World) (operation : PlanOperation) (xset : ExecutionSet) (runId : RunId)
    (bytes : List UInt8) (world : World) : Prop extends Fresh base operation xset runId world where
  holds : Holds world.target (tempOf runId operation) bytes

omit [Host] in
theorem lasting_fresh : Lasting base xset runId (Running base operation xset runId)
    (Fresh base operation xset runId) where
  sound _ h := h.sound
  ends _ h := h.toRunning
  still _ _ h hstill := ⟨h.toRunning.still hstill, by rw [hstill.kept]; exact h.fresh⟩

omit [Host] in
theorem lasting_filled (bytes : List UInt8) :
    Lasting base xset runId (Running base operation xset runId)
      (Filled base operation xset runId bytes) where
  sound _ h := h.sound
  ends _ h := h.toRunning
  still before after h hstill :=
    ⟨lasting_fresh.still before after h.toFresh hstill, hstill.holds h.holds⟩

/-- A change before there is a continuation. -/
theorem Fresh.change {step : Change} {Q : Unit → World → Prop} (hapart : Apart xset runId)
    (hchosen : Chosen xset operation) (h : Fresh base operation xset runId world)
    (hstep : OwnChange xset runId operation step)
    (hready : Ready xset runId base world.target step)
    (hQ : ∀ disk, step.apply world.target (Host.fileTime world.ticks) = .ok disk →
      Fresh base operation xset runId { world with target := disk, ticks := world.ticks + 1 } →
        Q () { world with target := disk, ticks := world.ticks + 1 }) :
    Works base xset runId operation Q (Executor.change step) world :=
  h.toRunning.change hapart hchosen hstep hready
    (fun _ _ _ hget => by rw [h.fresh] at hget; cases hget)
    fun disk happly hlater => hQ disk happly ⟨hlater, h.fresh⟩

/-- The loop of a copy: what is written comes together. -/
theorem stream_wp {side : Side} {source temp : RelPath} {onChunk : Nat → Exec Unit}
    (Y : List UInt8 → World → Prop) (hY : ∀ bytes, Lasting base xset runId E (Y bytes))
    (hwrite : ∀ bytes chunk world, Y bytes world →
      Ends base xset runId E (fun _ => Y (bytes ++ chunk))
        (Executor.change (.write temp chunk)) world)
    (hchunk : ∀ size bytes, (onChunk size).Does (Y bytes) StillCall (StillNote xset runId)
      fun _ => True)
    (chunks : List (List UInt8)) {bytes : List UInt8} (h : Y bytes world) :
    Ends base xset runId E (fun _ => Y (bytes ++ chunks.flatten))
      (stream side source temp onChunk chunks) world := by
  induction chunks generalizing bytes world with
  | nil =>
      refine (hY bytes).next h (ask_does still_asks _ trivial) fun _ later hlater => ?_
      rw [List.flatten_nil, List.append_nil]
      exact (hY bytes).last hlater (ask_does still_asks _ trivial)
  | cons chunk chunks ih =>
      refine (hY bytes).next h (ask_does still_asks _ trivial) fun _ later hlater => ?_
      refine (hY bytes).next hlater (ask_does still_asks _ trivial) fun _ later hlater => ?_
      refine wp_bind.2 ((hwrite bytes chunk later hlater).mono (fun _ later hlater => ?_)
        fun _ _ h => h)
      refine (hY _).next hlater (hchunk _ _) fun _ later hlater => ?_
      rw [List.flatten_cons, ← List.append_assoc]
      exact ih hlater

variable (hapart : Apart xset runId) (hchosen : Chosen xset operation)

include hapart hchosen

/-- The temp is made. -/
theorem createTemp_wp (hcounts : countsBytes operation.kind = true)
    (h : Fresh base operation xset runId world) :
    Works base xset runId operation (fun _ => Filled base operation xset runId [])
      (Executor.change (.createTemp (tempOf runId operation))) world := by
  refine h.change hapart hchosen (Or.inl (.fill hcounts .create)) trivial
    fun disk happly hlater => ⟨hlater, ?_⟩
  unfold Change.apply at happly
  obtain ⟨-, hfiles, -, -⟩ := Disk.create_spec happly
  exact ⟨_, (hfiles _).trans (if_pos rfl)⟩

/-- And written to. -/
theorem writeTemp_wp (hcounts : countsBytes operation.kind = true) {bytes : List UInt8}
    (chunk : List UInt8) (h : Filled base operation xset runId bytes world) :
    Works base xset runId operation (fun _ => Filled base operation xset runId (bytes ++ chunk))
      (Executor.change (.write (tempOf runId operation) chunk)) world := by
  refine h.toFresh.change hapart hchosen (Or.inl (.fill hcounts (.write chunk))) trivial
    fun disk happly hlater => ⟨hlater, ?_⟩
  unfold Change.apply at happly
  obtain ⟨file, hfile, hfiles, -, -⟩ := Disk.write_spec happly
  obtain ⟨node, hnode⟩ := h.holds
  obtain rfl := Option.some.inj (hfile.symm.trans hnode)
  refine ⟨node, (hfiles _).trans ?_⟩
  rw [hfile, Option.map_some, if_pos rfl]

/-- `copy_backend.copy`: the temp gets the bytes of the source. -/
theorem copyStream_wp {policies : ExecutorPolicies} {source : RelPath}
    (hcounts : countsBytes operation.kind = true) {file : Nat × List UInt8}
    (hsource : base.source.fileAt (loc source) = some file)
    (h : Fresh base operation xset runId world) :
    Works base xset runId operation
      (fun digest later => Filled base operation xset runId file.2 later ∧
        digest.digest = Sha256.digest file.2 ∧ digest.size = file.2.length)
      (copyStream policies source (tempOf runId operation)) world := by
  refine lasting_fresh.next h (ask_does still_asks _ trivial) fun _ later hlater => ?_
  refine wp_bind.2 ((createTemp_wp hapart hchosen hcounts hlater).mono (fun _ later hlater => ?_)
    fun _ _ h => h)
  have hcontent : (later.source.look (loc source)).elim [] (·.content) = file.2 := by
    rw [hlater.sound.source]
    obtain ⟨sight, hlook, -, hbytes⟩ := Disk.fileAt_eq_some.1 hsource
    rw [hlook]
    exact congrArg Prod.snd hbytes
  refine wp_bind.2 (wp_get.2 ?_)
  show Works base xset runId operation _ (stream .source source (tempOf runId operation)
    (fun size => advanceProgress policies (.copied size)) (batches policies.chunkSize
      ((later.source.look (loc source)).elim [] (·.content))) >>= _) later
  rw [hcontent]
  have hchunk : ∀ size bytes, (advanceProgress policies (.copied size)).Does
      (Filled base operation xset runId bytes) StillCall (StillNote xset runId) fun _ => True :=
    fun size bytes => does_bind.2 (does_put.2 ⟨trivial,
      emitProgress_does policies false trivial trivial (fun _ => trivial) trivial⟩)
  have hstream : Works base xset runId operation
      (fun _ => Filled base operation xset runId
        ([] ++ (batches policies.chunkSize file.2).flatten))
      (stream .source source (tempOf runId operation)
        (fun size => advanceProgress policies (.copied size))
        (batches policies.chunkSize file.2)) later :=
    stream_wp (Filled base operation xset runId) lasting_filled
      (fun bytes chunk world => writeTemp_wp hapart hchosen hcounts chunk) hchunk _ hlater
  rw [flatten_batches policies.chunkSize_pos, List.nil_append] at hstream
  refine wp_bind.2 (hstream.mono (fun _ later hlater => ?_) fun _ _ h => h)
  refine (lasting_filled file.2).next hlater (ask_does still_asks _ trivial) fun _ last hlast => ?_
  exact ⟨hlast, congrArg Sha256.digest hcontent, congrArg List.length hcontent⟩

/-- `_prepare_copy` returns with the bytes of the source in the temp. -/
theorem prepareCopy_wp {policies : ExecutorPolicies} (hcounts : countsBytes operation.kind = true)
    (h : Fresh base operation xset runId world) :
    Works base xset runId operation
      (fun prepared later => ∃ bytes, Filled base operation xset runId bytes later ∧
        SourceBytes base operation bytes ∧ prepared.digest.digest = Sha256.digest bytes ∧
          prepared.digest.size = bytes.length)
      (prepareCopy xset runId policies operation) world := by
  refine lasting_fresh.bind h (lift_does fun evidence hevidence => hevidence)
    fun evidence later hevidence hlater => ?_
  obtain ⟨source, expected⟩ := evidence
  obtain ⟨hsource, hexpected⟩ := source_of_ok hevidence
  have hkind : expected.kind = .file :=
    hapart.files operation hchosen hcounts expected (by rw [hexpected]; rfl)
  -- What is read is a file, and the source never changes.
  refine lasting_fresh.bind hlater (guardPresent_live still_asks .source source expected _ _ _
    fun world actual hworld hstat hmatch => (?_ : ∃ file, base.source.fileAt (loc source) =
      some file)) fun _ later hfile hlater => ?_
  · have hactual := (matchesExpected_kind hmatch).trans hkind
    rw [show world.disk .source = base.source from hworld.sound.source] at hstat
    obtain ⟨sight, -, hfile⟩ := Disk.fileAt_of_stat hstat hactual
    exact ⟨_, hfile⟩
  obtain ⟨file, hfile⟩ := hfile
  refine lasting_fresh.next hlater (guardExpectedTarget_does still_asks _ trivial)
    fun _ later hlater => ?_
  refine lasting_fresh.next hlater (ask_does still_asks _ trivial) fun _ later hlater => ?_
  refine lasting_fresh.next hlater (ask_does still_asks _ trivial) fun _ later hlater => ?_
  refine caught_bind (hlater.change hapart hchosen (Or.inl (.fill hcounts .remove)) trivial
    fun disk happly hremoved => ?_) fun error later hlater => ?_
  · have hinflight : StillNote xset runId (.inflight (some (tempOf runId operation))) := by
      intro path hpath
      exact ⟨operation, hchosen, hcounts, (Option.some.inj hpath).symm⟩
    refine lasting_fresh.next hremoved (does_put.2 ⟨hinflight, trivial⟩) fun _ later hlater => ?_
    refine wp_bind.2 ((copyStream_wp hapart hchosen hcounts hfile hlater).mono
      (fun digest later hcopied => ?_) fun _ _ h => h)
    obtain ⟨hlater, hdigest, hsize⟩ := hcopied
    have hX : Lasting base xset runId (Running base operation xset runId)
        (Filled base operation xset runId file.2) :=
      lasting_filled _
    refine hX.next hlater (failIf_does _ _ fun _ => trivial) fun _ later hlater => ?_
    refine hX.next hlater (onlyIf_does (fun _ => catchException_does
      (ask_does still_asks _ trivial) fun _ => trivial) trivial) fun _ later hlater => ?_
    refine hX.next hlater (applyMetadata_does still_asks _ _ _ still_metadata trivial)
      fun _ later hlater => ?_
    refine hX.next hlater (ask_does still_asks _ trivial) fun _ later hlater => ?_
    refine hX.next hlater (ask_does still_asks _ trivial) fun _ later hlater => ?_
    refine hX.next hlater (guardPresent_does still_asks _ _ _ _ _ _ fun _ => trivial)
      fun _ later hlater => ?_
    refine hX.next hlater (guardExpectedTarget_does still_asks _ trivial) fun _ last hlast => ?_
    exact ⟨file.2, hlast, ⟨source, file, hsource, hfile, rfl⟩, hdigest, hsize⟩
  · split
    · exact hlater
    · exact hlater

/-! ## What has been published

The temp is renamed to its target.  From then on the target holds the bytes, and
what is recorded afterwards attests them. -/

omit [Host] [Sha256] hapart hchosen in
theorem SourceBytes.known {bytes : List UInt8} (h : SourceBytes base operation bytes) :
    Known xset runId base bytes := by
  obtain ⟨path, file, -, hfile, hbytes⟩ := h
  exact Or.inl ⟨_, file, hfile, hbytes⟩

omit hapart hchosen in
/-- The target has the bytes. -/
structure Landed (base : World) (operation : PlanOperation) (xset : ExecutionSet) (runId : RunId)
    (bytes : List UInt8) (world : World) : Prop
    extends Running base operation xset runId world where
  holds : Holds world.target operation.targetRelPath bytes

omit [Host] hapart hchosen in
theorem lasting_landed (bytes : List UInt8) :
    Lasting base xset runId (Running base operation xset runId)
      (Landed base operation xset runId bytes) where
  sound _ h := h.sound
  ends _ h := h.toRunning
  still _ _ h hstill := ⟨h.toRunning.still hstill, hstill.holds h.holds⟩

omit [Host] hapart in
theorem Running.recorded (h : Running base operation xset runId world) {call : RecordCall}
    (hop : call.op = operation.opId)
    (htrue : ∀ attestation ∈ call.attestation,
      Vouches base operation attestation.content.digest attestation.content.size) :
    Running base operation xset runId { world with records := world.records ++ [call] } where
  sound := h.sound.recorded hchosen hop htrue
  tidy := ⟨h.tidy.inflight, h.tidy.pending⟩
  own := h.own
  unsettled := h.unsettled
  stands := h.stands
  copies := h.copies

omit hapart hchosen in
/-- `_record`: the call is recorded or the recording is degraded. -/
theorem record_wp (hX : Lasting base xset runId E X) {call : RecordCall} (detail : Detail)
    (hrecord : ∀ world, X world → X { world with records := world.records ++ [call] })
    (h : X world) : Ends base xset runId E (fun _ => X) (record detail call) world := by
  refine wp_catching.2
    (wp_bind.2 (wp_call (fun later _ heffect => ?_) fun error later _ hlater => ?_))
  · obtain rfl := Except.ok.inj heffect
    exact ⟨hX.sound _ (hrecord world h), hrecord world h⟩
  · have hlater : X later := by
      rcases hlater with rfl | heffect
      · exact h
      · obtain rfl := Except.ok.inj heffect
        exact hrecord world h
    refine ⟨hX.sound _ hlater, ?_⟩
    split
    · exact hX.next hlater (does_put.2 ⟨trivial, trivial⟩) fun _ _ h => h
    · exact hX.ends _ hlater

omit [Sha256] hapart hchosen in
theorem attest_live {I : World → Prop} (digest : CopyDigest) (subject : FileStat) :
    (attest digest subject).Does I StillCall (StillNote xset runId) fun attestation =>
      attestation.content.digest = digest.digest ∧ attestation.content.size = digest.size :=
  does_bind.2 (does_call trivial (does_bind.2 (does_get.2 fun _ _ => ⟨rfl, rfl⟩)))

/-- What an attempt that returns has come to. -/
def Succeeds (base : World) (operation : PlanOperation) (xset : ExecutionSet) (runId : RunId)
    (settled : Settled) (world : World) : Prop :=
  Running base operation xset runId world ∧ (settled.outcome = .succeeded →
    countsBytes operation.kind = true → Delivered base operation world.target)

/-- `publish_new` of a complete temp. -/
theorem publish_wp (hkind : operation.kind = .copy ∨ operation.kind = .moveUpdate)
    {bytes : List UInt8} (hbytes : SourceBytes base operation bytes) (reason : ExecutionReason)
    (detail : String) (h : Filled base operation xset runId bytes world) :
    Works base xset runId operation
      (fun _ later => Fresh base operation xset runId later ∧
        Landed base operation xset runId bytes later)
      (renameOr (tempOf runId operation) operation.targetRelPath reason detail) world := by
  obtain ⟨node, hnode⟩ := h.holds
  have hrename : Works base xset runId operation
      (fun _ later => Fresh base operation xset runId later ∧
        Landed base operation xset runId bytes later)
      (Executor.change (.rename (tempOf runId operation) operation.targetRelPath)) world := by
    refine h.toFresh.change hapart hchosen (Or.inl (.publish hkind))
      (fun _ _ => ⟨_, hnode, hbytes.known⟩) fun disk happly hlater => ⟨hlater, hlater.toRunning, ?_⟩
    obtain ⟨-, -, -, hfiles, -, -⟩ := Disk.rename_spec happly
    refine ⟨node, (hfiles _).trans ?_⟩
    rw [if_pos List.prefix_rfl, List.drop_length, List.append_nil]
    exact hnode
  refine wp_catching.2 (hrename.mono (fun _ _ h => h) fun error later hlater => ?_)
  split
  · exact hlater
  · exact hlater

/-- `_copy`. -/
theorem copy_wp {policies : ExecutorPolicies} (hkind : operation.kind = .copy)
    (h : Running base operation xset runId world) :
    Works base xset runId operation (Succeeds base operation xset runId)
      (copy xset runId policies operation) world := by
  have hcounts := counts_of_copies (Or.inl hkind)
  refine wp_bind.2 ((prepareCopy_wp hapart hchosen hcounts ⟨h, h.copies hkind⟩).mono
    (fun prepared later hprepared => ?_) fun _ _ h => h)
  obtain ⟨bytes, hfilled, hbytes, hdigest, hsize⟩ := hprepared
  refine wp_bind.2 ((publish_wp hapart hchosen (Or.inl hkind) hbytes _ _ hfilled).mono
    (fun _ later hlater => ?_) fun _ _ h => h)
  have hX : Lasting base xset runId (Running base operation xset runId)
      (Landed base operation xset runId bytes) :=
    lasting_landed _
  have hcleared : StillNote xset runId (.inflight none) := fun path hpath => by cases hpath
  refine hX.next hlater.2 (does_put.2 ⟨hcleared, trivial⟩) fun _ later hlater => ?_
  refine hX.next hlater (applyMetadata_does still_asks _ _ _ still_metadata trivial)
    fun _ later hlater => ?_
  refine hX.next hlater (durabilityDetail_does still_asks _ _ fun _ => trivial)
    fun detail later hlater => ?_
  refine hX.next hlater (observedStat_does still_asks _ _ fun _ => trivial)
    fun published later hlater => ?_
  refine hX.bind hlater (attest_live _ _) fun attestation later htrue hlater => ?_
  refine wp_bind.2 ((record_wp hX _ (fun later hlater => ⟨hlater.toRunning.recorded hchosen rfl ?_,
    hlater.holds⟩) hlater).mono (fun detail last hlast => ?_) fun _ _ h => h)
  · intro recorded hrecorded
    obtain rfl := Option.some.inj hrecorded
    exact ⟨bytes, hbytes, htrue.1.trans hdigest, htrue.2.trans hsize⟩
  · exact ⟨hlast.toRunning, fun _ _ => ⟨bytes, hbytes, hlast.holds⟩⟩

end Deliveries

end Executor

end NamiSync
