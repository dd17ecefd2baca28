/-
# `Modules.Executor.Conservation` — a call of `execute` loses nothing

From the operations to the whole call: the loop with its retries, the
directories, and the ways out.  Whatever the environment answers and however
the call ends, in every state that it leaves behind the source is as it was,
no file outside of the temps is torn, the bytes of every file that the plan
does not give up are still there, and what has succeeded has delivered.

Nothing is said about a plan whose operations get in each other's way, nor
about what others do to the trees in the meantime.

## What is proved

For a plan whose operations are `Apart`, and any sequence of calls of
`execute` on one execution set that starts as in `Begins`, in every state of
every call:

    no_bytes_lost       the bytes of a file that the plan does not give up are
                        the bytes of some file that is not a temp
    no_file_torn        a file that is not a temp has the bytes of a file that
                        was there, or of a source; and beyond the places of
                        the operations nothing has changed
    success_delivered   an operation that has succeeded in bringing bytes has
                        its source's bytes at its target, and what was
                        recorded for it is their digest and size

## The hypotheses on the start

`Begins` asks that the target is a tree, that a temp left by an earlier run
has no second name, and that what counts as succeeded already has delivered.
The last two hold of a fresh run on a tree without leftovers.

## The argument

`Secure` is the invariant between the operations and `Running` the one inside
an operation.  The programs of the loop that publish nothing are `Outside`,
and one lemma takes them all along (`Secure.wp`).  A retry is an induction on
the retries that are left (`attempt_ends`), the loop one on the operations
(`executeEach_ends`), the calls one on the list of calls (`calls_sound`).
-/
import NamiSync.Modules.Executor.Updates
import NamiSync.Modules.ProgressTruth

namespace NamiSync

namespace Executor

open Faulty Faulty.Prog FileStore

/-! ## Between the operations

The loop alternates between states in which no operation is at work and the
programs of the operations.  What the loop itself calls is limited to what
`OutsideCall` lists. -/

section Outside

variable [Unicode] [Sha256] (base : World) (xset : ExecutionSet) (runId : RunId)

/-- What holds wherever a call is. -/
structure Secure (world : World) : Prop where
  sound : Sound base xset runId world
  tidy : Tidy xset runId world

/-- No operation is at work. -/
structure Between (world : World) : Prop extends Secure base xset runId world where
  clear : ∀ id, world.state.retryContinuations.get? id = none

omit [Sha256] in
/-- The calls that are made outside of the operations. -/
def OutsideCall : Call → Prop
  | .change step => (∃ path, MetadataOf path step) ∨
      (∃ temp, Owned xset runId temp ∧ step = .removeOwnedTemp temp) ∨
      ∃ operation, Chosen xset operation ∧ operation.kind = .mkdir ∧
        step = .mkdir operation.targetRelPath
  | .record call => countsBytes call.kind = false
  | _ => True

omit [Sha256] in
/-- And the notes. -/
def OutsideNote : Note → Prop
  | .settle id item => ∃ operation, Chosen xset operation ∧ id = operation.opId ∧
      (item.outcome = .succeeded → countsBytes operation.kind = false)
  | .keep _ _ => False
  | other => RunNote xset runId other

variable {base xset runId} {world : World}

/-- A call is recorded that attests nothing. -/
theorem Sound.recorded_none (h : Sound base xset runId world) {call : RecordCall}
    (hnone : call.attestation = none) :
    Sound base xset runId { world with records := world.records ++ [call] } where
  source := h.source
  intact := h.intact
  frame := h.frame
  delivered := h.delivered
  attested other hmem := by
    rcases List.mem_append.1 hmem with hmem | hmem
    · exact h.attested other hmem
    · obtain rfl := List.mem_singleton.1 hmem
      refine Or.inr fun _ _ _ attestation hattestation => ?_
      rw [hnone] at hattestation
      cases hattestation

variable [Host]

theorem Secure.effect (hapart : Apart xset runId) {call : Call}
    (hcall : OutsideCall xset runId call)
    {after : World} (h : Secure base xset runId world) (heffect : call.effect world = .ok after) :
    Secure base xset runId after := by
  have hstill : StillCall call → Secure base xset runId after := fun hcall =>
    have hstill : Still xset runId world after := still_effect hcall heffect
    ⟨h.sound.still hstill, hstill.tidy h.tidy⟩
  cases call with
  | change step =>
      rcases hcall with hmeta | hcall
      · exact hstill hmeta
      · unfold Call.effect at heffect
        dsimp only at heffect
        split at heffect
        · next disk happly =>
            obtain rfl := Except.ok.inj heffect
            rcases hcall with ⟨temp, howned, rfl⟩ | ⟨operation, hchosen, hkind, rfl⟩
            · exact ⟨h.sound.cleaned hapart howned happly _, h.tidy.inflight, h.tidy.pending⟩
            · refine ⟨h.sound.changed hapart hchosen (Or.inr ⟨hkind, Or.inl rfl⟩) trivial
                (fun hcounts => ?_) happly _, h.tidy.inflight, h.tidy.pending⟩
              rw [hkind] at hcounts
              cases hcounts
        · cases heffect
  | record call =>
      obtain rfl := Except.ok.inj heffect
      exact ⟨h.sound.recorded_none (attestation_of_not_counts hcall), h.tidy.inflight,
        h.tidy.pending⟩
  | ask question => exact hstill trivial
  | clock => exact hstill trivial
  | emit body => exact hstill trivial
  | emitProgress => exact hstill trivial

omit [Host] in
theorem Secure.noted {note : Note} (hnote : OutsideNote xset runId note)
    (h : Secure base xset runId world) : Secure base xset runId (note.write world) := by
  have hstill : ∀ note, StillNote xset runId note → Secure base xset runId (note.write world) :=
    fun note hnote =>
      have hstill : Still xset runId world (note.write world) := still_noted hnote world
      ⟨h.sound.still hstill, hstill.tidy h.tidy⟩
  cases note with
  | settle id item =>
      obtain ⟨operation, hchosen, rfl, hitem⟩ := hnote
      refine ⟨h.sound.settled hchosen fun hsucceeded hcounts => ?_, h.tidy.inflight, h.tidy.pending⟩
      rw [hitem hsucceeded] at hcounts
      cases hcounts
  | keep id continuation => exact hnote.elim
  | start restore tracker => exact False.elim hnote
  | forget id =>
      exact ⟨⟨h.sound.source, h.sound.intact, h.sound.frame, h.sound.delivered, h.sound.attested⟩,
        h.tidy.inflight, h.tidy.pending⟩
  | _ =>
      refine hstill _ ?_
      exact hnote

theorem Between.effect (hapart : Apart xset runId) {call : Call}
    (hcall : OutsideCall xset runId call)
    {after : World} (h : Between base xset runId world) (heffect : call.effect world = .ok after) :
    Between base xset runId after where
  toSecure := h.toSecure.effect hapart hcall heffect
  clear id := by
    rw [(effect_eq heffect).2.1]
    exact h.clear id

omit [Host] in
theorem Between.noted {note : Note} (hnote : OutsideNote xset runId note)
    (h : Between base xset runId world) : Between base xset runId (note.write world) where
  toSecure := h.toSecure.noted hnote
  clear id := by
    cases note with
    | keep id continuation => exact hnote.elim
    | start restore tracker => exact False.elim hnote
    | forget other =>
        show (world.state.retryContinuations.pop other).get? id = none
        rw [Dict.get?_pop]
        split
        · rfl
        · exact h.clear id
    | _ => exact h.clear id

variable {α : Type} {P : α → Prop} {m : Exec α}

theorem Secure.wp (hapart : Apart xset runId) (h : Secure base xset runId world)
    (hm : m.Does (Tidy xset runId) (OutsideCall xset runId) (OutsideNote xset runId) P) :
    Ends base xset runId (Secure base xset runId)
      (fun a later => P a ∧ Secure base xset runId later) m world :=
  hm.wp (R := Safely base xset runId) (J := Secure base xset runId) (fun _ h => h.tidy)
    (fun _ hcall _ _ hbefore heffect => hbefore.effect hapart hcall heffect)
    (fun _ hnote _ hbefore => hbefore.noted hnote) (fun _ h => h.sound) h

theorem Between.wp (hapart : Apart xset runId) (h : Between base xset runId world)
    (hm : m.Does (Tidy xset runId) (OutsideCall xset runId) (OutsideNote xset runId) P) :
    Ends base xset runId (Between base xset runId)
      (fun a later => P a ∧ Between base xset runId later) m world :=
  hm.wp (R := Safely base xset runId) (J := Between base xset runId) (fun _ h => h.tidy)
    (fun _ hcall _ _ hbefore heffect => hbefore.effect hapart hcall heffect)
    (fun _ hnote _ hbefore => hbefore.noted hnote) (fun _ h => h.sound) h

end Outside

/-! ## The programs that publish nothing

Directories, the cleanup, the end of a run and the `except` branches.  None of
them touches a file other than an owned temp. -/

section Programs

variable [Unicode] [Host] {xset : ExecutionSet} {runId : RunId} {policies : ExecutorPolicies}
  {operation : PlanOperation}

/-- A program outside of the operations. -/
abbrev Outside (xset : ExecutionSet) (runId : RunId) {α : Type} (m : Exec α) : Prop :=
  m.Does (Tidy xset runId) (OutsideCall xset runId) (OutsideNote xset runId) fun _ => True

omit [Host] in
theorem outside_asks (question : Question) : OutsideCall xset runId (.ask question) := trivial

theorem emitProgress_outside (force : Bool) : Outside xset runId (emitProgress policies force) :=
  emitProgress_does policies force trivial trivial (fun _ => trivial) trivial

theorem settle_outside (hchosen : Chosen xset operation) {settled : Settled}
    (hsettled : settled.outcome = .succeeded → countsBytes operation.kind = false) :
    Outside xset runId (settle policies operation settled) := by
  refine does_bind.2 (get_does fun world _ => ?_)
  split
  · trivial
  · refine does_bind.2 (note_does ⟨operation, hchosen, rfl, hsettled⟩ ?_)
    refine does_bind.2 (does_call trivial (does_bind.2 (does_put.2 ⟨hchosen, ?_⟩)))
    exact emitProgress_outside false

theorem settleFailure_outside (hchosen : Chosen xset operation) (error : Error) :
    Outside xset runId (settleFailure policies operation error) :=
  settle_outside hchosen fun h => by cases h

theorem cleanupInflight_outside : Outside xset runId cleanupInflight :=
  cleanupInflight_does (fun _ htidy temp htemp => Or.inr (Or.inl ⟨temp, htidy.inflight temp htemp,
    rfl⟩)) fun path hpath => by cases hpath

theorem startDirectory_outside (hchosen : Chosen xset operation) (hkind : operation.kind = .mkdir) :
    Outside xset runId (startDirectory operation) :=
  startDirectory_does outside_asks (Or.inr (Or.inr ⟨operation, hchosen, hkind, rfl⟩))
    ⟨hchosen, hkind⟩

omit [Host] in
theorem outside_metadata {path : RelPath} (step : Change) (h : MetadataOf path step) :
    OutsideCall xset runId (.change step) :=
  Or.inl ⟨path, h⟩

theorem finalizeDirectory_outside (hchosen : Chosen xset operation)
    (hkind : operation.kind = .mkdir) :
    Outside xset runId (finalizeDirectory xset policies operation) := by
  unfold finalizeDirectory
  split
  · refine does_bind.2 (failIf_does _ _ fun _ => ?_)
    refine does_bind.2 (ask_does outside_asks _ ?_)
    refine does_bind.2 (applyMetadata_does outside_asks _ _ _ outside_metadata ?_)
    refine does_bind.2 (durabilityDetail_does outside_asks _ _ fun _ => ?_)
    refine does_bind.2 (observedStat_does outside_asks _ _ fun actual => ?_)
    have hrecord : OutsideCall xset runId (.record (.mkdir operation.opId actual)) := rfl
    refine does_bind.2 (record_does _ hrecord trivial fun _ => ?_)
    exact settle_outside hchosen fun _ => by rw [hkind]; rfl
  · trivial

theorem finalizeEach_outside {operations : List PlanOperation}
    (h : ∀ operation ∈ operations, Chosen xset operation ∧ operation.kind = .mkdir) :
    Outside xset runId (finalizeEach xset policies operations) := by
  induction operations with
  | nil => trivial
  | cons first rest ih =>
      obtain ⟨hfirst, hkind⟩ := h first List.mem_cons_self
      have hone : Outside xset runId
          ((catchFailure (finalizeDirectory xset policies first) fun error =>
            settleFailure policies first error).ensuring (put (.unready first.opId))) :=
        does_ensuring (catchFailure_does (finalizeDirectory_outside hfirst hkind)
          fun error => settleFailure_outside hfirst error) (note_does trivial trivial)
      exact does_bind.2 (hone.post fun _ _ =>
        ih fun operation hmem => h operation (List.mem_cons_of_mem _ hmem))

theorem finalizeDirectories_outside : Outside xset runId (finalizeDirectories xset policies) := by
  refine does_bind.2 (get_does fun world htidy => does_bind.2 (note_does trivial ?_))
  exact finalizeEach_outside fun operation hmem => htidy.pending operation (mem_sortedBy.1 hmem)

theorem restoreCompletedDirectoryMetadata_outside :
    Outside xset runId (restoreCompletedDirectoryMetadata xset) :=
  restoreCompletedDirectoryMetadata_does outside_asks
    (fun _ _ _ _ step hstep => outside_metadata step hstep) trivial

theorem flushAtEnd_outside : Outside xset runId flushAtEnd := flushAtEnd_does outside_asks trivial

theorem cancelEach_outside (cleanupError : Option Error) {operations : List PlanOperation}
    (h : ∀ operation ∈ operations, operation ∈ xset.plan.operations) :
    Outside xset runId (cancelEach xset policies cleanupError operations) := by
  induction operations with
  | nil => trivial
  | cons first rest ih =>
      have hrest := ih fun operation hmem => h operation (List.mem_cons_of_mem _ hmem)
      refine does_bind.2 (get_does fun world _ => ?_)
      refine does_bind.2 (onlyIf_does (fun hselected => ?_) hrest)
      exact (settle_outside ⟨h first List.mem_cons_self, of_decide_eq_true hselected⟩
        fun hout => by cases hout).post fun _ _ => hrest

/-- The `except` branches. -/
theorem leave_outside (error : Error) : Outside xset runId (leave xset policies error) := by
  unfold leave
  split
  · refine does_bind.2 (cleanupInflight_outside.post fun cleanup _ => ?_)
    refine does_bind.2 (finalizeDirectories_outside.post fun _ _ => ?_)
    refine does_bind.2 ((cancelEach_outside cleanup fun _ h => h).post fun _ _ => ?_)
    exact does_bind.2 (flushAtEnd_outside.post fun _ _ => trivial)
  · refine does_bind.2 (cleanupInflight_outside.post fun cleanup _ => ?_)
    refine does_bind.2 (finalizeDirectories_outside.post fun _ _ => ?_)
    refine does_bind.2 (restoreCompletedDirectoryMetadata_outside.post fun _ _ => ?_)
    exact does_bind.2 (flushAtEnd_outside.post fun _ _ => trivial)
  · refine does_bind.2 (cleanupInflight_outside.post fun cleanup _ => ?_)
    exact does_bind.2 (flushAtEnd_outside.post fun _ _ => trivial)

end Programs

/-! ## The loop

One attempt is one program of an operation, with its invariant from the modules
before.  A failed attempt may leave a continuation, which the next attempt starts
from; when the operation is settled there is none any more. -/

section Loop

variable [Unicode] [Host] [Sha256] {base : World} {xset : ExecutionSet} {runId : RunId}
  {policies : ExecutorPolicies} {operation : PlanOperation} {world : World}

omit [Host] in
theorem lasting_attempt : Lasting base xset runId (Secure base xset runId)
    (Running base operation xset runId) where
  sound _ h := h.sound
  ends _ h := ⟨h.sound, h.tidy⟩
  still _ _ h hstill := h.still hstill

omit [Host] in
/-- An operation that is about to be attempted. -/
theorem lasting_pending : Lasting base xset runId (Secure base xset runId) fun world =>
    Between base xset runId world ∧ world.status.get? operation.opId = none where
  sound _ h := h.1.sound
  ends _ h := h.1.toSecure
  still _ _ h hstill := ⟨⟨⟨h.1.sound.still hstill, hstill.tidy h.1.tidy⟩, fun id => by
    rw [hstill.kept]; exact h.1.clear id⟩, by rw [hstill.status]; exact h.2⟩

omit [Host] in
theorem Between.running (h : Between base xset runId world)
    (hopen : world.status.get? operation.opId = none) :
    Running base operation xset runId world where
  sound := h.sound
  tidy := h.tidy
  own id continuation hget := by rw [h.clear] at hget; cases hget
  unsettled := hopen
  stands continuation hget := by rw [h.clear] at hget; cases hget
  copies _ := h.clear _

omit [Host] in
/-- The continuation is dropped. -/
theorem Bare.forgotten (h : Bare base operation xset runId world) :
    Between base xset runId (Note.write world (.forget operation.opId)) where
  sound := ⟨h.sound.source, h.sound.intact, h.sound.frame, h.sound.delivered, h.sound.attested⟩
  tidy := ⟨h.tidy.inflight, h.tidy.pending⟩
  clear id := by
    show (world.state.retryContinuations.pop operation.opId).get? id = none
    rw [Dict.get?_pop]
    split
    · rfl
    · next hne =>
        cases hget : world.state.retryContinuations.get? id with
        | none => rfl
        | some continuation => exact absurd (h.own id continuation hget) hne

variable (hapart : Apart xset runId) (hchosen : Chosen xset operation)

include hapart

/-- A temp is cleaned up while an operation is at work; its continuation
stays. -/
theorem cleanup_ends (h : Bare base operation xset runId world) :
    Ends base xset runId (Secure base xset runId)
      (fun _ later => Bare base operation xset runId later ∧
        later.state.retryContinuations = world.state.retryContinuations)
      cleanupInflight world := by
  have hdoes : cleanupInflight.Does (Bare base operation xset runId)
      (fun call => ∃ temp, Owned xset runId temp ∧ call = Call.change (.removeOwnedTemp temp))
      (fun note => note = Note.inflight none) fun _ => True :=
    cleanupInflight_does (fun _ hbare temp htemp => ⟨temp, hbare.tidy.inflight temp htemp, rfl⟩) rfl
  refine (hdoes.wp (R := Safely base xset runId)
    (J := fun later => Bare base operation xset runId later ∧
      later.state.retryContinuations = world.state.retryContinuations)
    (fun _ h => h.1) (fun call hcall before after hbefore heffect => ?_)
    (fun note hnote before hbefore => ?_) (fun _ h => h.1.sound) ⟨h, rfl⟩).mono (fun _ _ h => h.2)
      fun _ _ h => ⟨h.1.sound, h.1.tidy⟩
  · refine ⟨?_, (congrArg _ (effect_eq heffect).2.1).trans hbefore.2⟩
    obtain ⟨temp, howned, rfl⟩ := hcall
    unfold machine Call.effect at heffect
    dsimp only at heffect
    split at heffect
    · next disk happly =>
        obtain rfl := Except.ok.inj heffect
        exact ⟨hbefore.1.sound.cleaned hapart howned happly _,
          ⟨hbefore.1.tidy.inflight, hbefore.1.tidy.pending⟩, hbefore.1.own, hbefore.1.unsettled⟩
    · cases heffect
  · obtain rfl := hnote
    have hcleared : StillNote xset runId (.inflight none) := fun path hpath => by cases hpath
    exact ⟨hbefore.1.still (still_noted hcleared before), hbefore.2⟩

include hchosen

/-- `_settle`: an operation that has brought bytes has delivered them. -/
theorem settle_ends {settled : Settled} (h : Between base xset runId world)
    (hsettled : settled.outcome = .succeeded → countsBytes operation.kind = true →
      Delivered base operation world.target) :
    Ends base xset runId (Secure base xset runId) (fun _ => Between base xset runId)
      (settle policies operation settled) world := by
  refine wp_bind.2 (wp_get.2 ?_)
  split
  · exact h
  · refine wp_bind.2 (wp_put.2 ?_)
    have hnoted : Between base xset runId
        (Note.write world (.settle operation.opId (itemOf operation settled))) :=
      ⟨⟨h.sound.settled hchosen hsettled, h.tidy.inflight, h.tidy.pending⟩, h.clear⟩
    have hrest : Outside xset runId (do
        emit (.itemOutcome (itemOf operation settled))
        advanceProgress policies (.settled operation settled.outcome)) :=
      does_bind.2 (does_call trivial (does_bind.2 (does_put.2 ⟨hchosen,
        emitProgress_outside false⟩)))
    exact (hnoted.wp hapart hrest).mono (fun _ _ h => h.2) fun _ _ h => h.toSecure

theorem settle_return {settled : Settled} {stopped : Bool} (h : Between base xset runId world)
    (hsettled : settled.outcome = .succeeded → countsBytes operation.kind = true →
      Delivered base operation world.target) :
    Ends base xset runId (Secure base xset runId) (fun _ => Between base xset runId)
      (do
        settle policies operation settled
        return stopped) world :=
  wp_bind.2 ((settle_ends hapart hchosen h hsettled).mono (fun _ _ h => h) fun _ _ h => h)

theorem giveUp_ends (error : Error) (h : Bare base operation xset runId world) :
    Ends base xset runId (Secure base xset runId) (fun _ => Between base xset runId)
      (giveUp policies operation error) world := by
  refine wp_bind.2 ((cleanup_ends hapart h).mono (fun cleanup later hlater => ?_) fun _ _ h => h)
  exact wp_bind.2 (wp_put.2 (settle_ends hapart hchosen hlater.1.forgotten
    fun hout => by cases hout))

omit hchosen in
/-- Before the next attempt: a temp that a continuation needs stays. -/
theorem beforeRetry_ends (after : Nat) (h : Running base operation xset runId world) :
    Ends base xset runId (Secure base xset runId) (fun _ => Running base operation xset runId)
      (beforeRetry operation after) world := by
  refine wp_bind.2 (wp_get.2 ?_)
  have hcleanup : Ends base xset runId (Secure base xset runId)
      (fun _ => Running base operation xset runId)
      (onlyIf (!world.state.retryContinuations.contains operation.opId) do
        let _ ← cleanupInflight) world := by
    cases hkept : world.state.retryContinuations.contains operation.opId with
    | true => exact h
    | false =>
        have hnone : world.state.retryContinuations.get? operation.opId = none := by
          simpa [Dict.contains] using hkept
        refine wp_bind.2 ((cleanup_ends hapart h.toBare).mono (fun _ later hlater => ?_)
          fun _ _ h => h)
        obtain ⟨hbare, hsame⟩ := hlater
        rw [← hsame] at hnone
        refine ⟨hbare, fun continuation hget => ?_, fun _ => hnone⟩
        rw [hnone] at hget
        cases hget
  refine wp_bind.2 (hcleanup.mono (fun _ later hlater => ?_) fun _ _ h => h)
  refine lasting_attempt.next hlater (ask_does still_asks _ trivial) fun _ later hlater => ?_
  refine lasting_attempt.next hlater (ask_does still_asks _ trivial) fun _ later hlater => ?_
  exact lasting_attempt.last hlater (ask_does still_asks _ trivial)

/-- One turn of `while True`. -/
theorem attemptOnce_ends (number : Nat) {again : Option (Exec Bool)}
    (hagain : ∀ m ∈ again, ∀ later, Running base operation xset runId later →
      Ends base xset runId (Secure base xset runId) (fun _ => Between base xset runId) m later)
    (h : Running base operation xset runId world) :
    Ends base xset runId (Secure base xset runId) (fun _ => Between base xset runId)
      (attemptOnce xset runId policies operation number again) world := by
  have htry : Ends base xset runId (Secure base xset runId)
      (fun attempted later => Running base operation xset runId later ∧
        ∀ settled, attempted = .ok settled → Succeeds base operation xset runId settled later)
      (tryOperation xset runId policies operation) world := by
    refine wp_catching.2 (wp_bind.2 ((executeOperation_wp hapart hchosen h).mono
      (fun settled later hlater => ⟨hlater.1, fun other hother => ?_⟩)
      fun error later hlater => ?_))
    · obtain rfl := Except.ok.inj hother
      exact hlater
    · split
      · exact ⟨hlater, fun _ hother => by cases hother⟩
      · exact ⟨hlater.sound, hlater.tidy⟩
  refine wp_bind.2 (htry.mono (fun attempted later hlater => ?_) fun _ _ h => h)
  cases attempted with
  | ok settled =>
      obtain ⟨hrunning, hdelivered⟩ := hlater.2 settled rfl
      refine wp_bind.2 (wp_put.2 ?_)
      exact settle_return hapart hchosen hrunning.toBare.forgotten hdelivered
  | error error =>
      refine lasting_attempt.next hlater.1 (ask_does still_asks _ trivial) fun _ later hlater => ?_
      have hgive : ∀ stopped : Bool, Ends base xset runId (Secure base xset runId)
          (fun _ => Between base xset runId) (do
            giveUp policies operation error
            return stopped) later := fun stopped =>
        wp_bind.2 ((giveUp_ends hapart hchosen error hlater.toBare).mono (fun _ _ h => h)
          fun _ _ h => h)
      split
      · next next _ =>
          refine wp_bind.2 ((beforeRetry_ends hapart _ hlater).mono (fun _ last hlast => ?_)
            fun _ _ h => h)
          exact hagain next rfl last hlast
      · exact hgive true
      · exact hgive false

/-- `while True`. -/
theorem attempt_ends (left number : Nat) (h : Running base operation xset runId world) :
    Ends base xset runId (Secure base xset runId) (fun _ => Between base xset runId)
      (attempt xset runId policies operation left number) world := by
  induction left generalizing number world with
  | zero => exact attemptOnce_ends hapart hchosen number (fun m hm => by cases hm) h
  | succ left ih =>
      refine attemptOnce_ends hapart hchosen number (fun m hm later hlater => ?_) h
      obtain rfl := Option.some.inj hm
      exact ih (number + 1) hlater

theorem executeOne_ends (stopRequested : Bool) (h : Between base xset runId world)
    (hopen : world.status.get? operation.opId = none) :
    Ends base xset runId (Secure base xset runId) (fun _ => Between base xset runId)
      (executeOne xset runId policies operation stopRequested) world := by
  have hX : Lasting base xset runId (Secure base xset runId) fun world =>
      Between base xset runId world ∧ world.status.get? operation.opId = none :=
    lasting_pending
  refine hX.next ⟨h, hopen⟩ (does_put.2 ⟨trivial, trivial⟩) fun _ later hlater => ?_
  refine hX.next hlater (ask_does still_asks _ trivial) fun _ later hlater => ?_
  have hstart : StillNote xset runId (.progress (.start operation)) := hchosen
  refine hX.next hlater (does_bind.2 (does_put.2 ⟨hstart, emitProgress_does policies false trivial
    trivial (fun _ => trivial) trivial⟩)) fun _ later hlater => ?_
  refine wp_bind.2 (wp_get.2 ?_)
  split
  · exact settle_return hapart hchosen hlater.1 fun hout => by cases hout
  · split
    · exact settle_return hapart hchosen hlater.1 fun hout => by cases hout
    · split
      · exact settle_return hapart hchosen hlater.1 fun hout => by cases hout
      · split
        · next hkind =>
            have hdirectory : Outside xset runId (catchFailure (startDirectory operation)
                fun error => settleFailure policies operation error) :=
              catchFailure_does (startDirectory_outside hchosen hkind)
                fun error => settleFailure_outside hchosen error
            exact wp_bind.2 ((hlater.1.wp hapart hdirectory).mono (fun _ _ h => h.2)
              fun _ _ h => h.toSecure)
        · exact attempt_ends hapart hchosen _ _ (hlater.1.running hlater.2)

omit hchosen in
theorem executeEach_ends {operations : List PlanOperation} (stopRequested : Bool)
    (hplan : ∀ operation ∈ operations, operation ∈ xset.plan.operations)
    (h : Between base xset runId world) :
    Ends base xset runId (Secure base xset runId) (fun _ => Between base xset runId)
      (executeEach xset runId policies operations stopRequested) world := by
  induction operations generalizing stopRequested world with
  | nil => exact h
  | cons first rest ih =>
      have hrest : ∀ stopRequested (world : World), Between base xset runId world →
          Ends base xset runId (Secure base xset runId) (fun _ => Between base xset runId)
            (executeEach xset runId policies rest stopRequested) world :=
        fun stopRequested world h => ih stopRequested
          (fun operation hmem => hplan operation (List.mem_cons_of_mem _ hmem)) h
      refine wp_bind.2 (wp_get.2 ?_)
      split
      · exact hrest stopRequested world h
      · next hpending =>
          rw [not_or, not_not, Bool.not_eq_true] at hpending
          have hopen : world.status.get? first.opId = none := by
            simpa [Dict.contains] using hpending.2
          refine wp_bind.2 ((executeOne_ends hapart ⟨hplan first List.mem_cons_self, hpending.1⟩
            stopRequested h hopen).mono (fun stopped later hlater => ?_) fun _ _ h => h)
          exact hrest stopped later hlater

omit hchosen in
/-- The whole of `execute`, from any state that is sound. -/
theorem execute_ends (h : Sound base xset runId world) :
    Ends base xset runId (Secure base xset runId) (fun _ => Secure base xset runId)
      (execute xset runId policies) world := by
  have hsecure : ∀ {α : Type} {m : Exec α} {world : World}, Secure base xset runId world →
      Outside xset runId m → Ends base xset runId (Secure base xset runId)
        (fun _ => Secure base xset runId) m world :=
    fun hworld hm => (hworld.wp hapart hm).mono (fun _ _ h => h.2) fun _ _ h => h
  refine wp_bind.2 (wp_get.2 (wp_bind.2 (wp_put.2 ?_)))
  have hstart : Between base xset runId (Note.write world
      (.start (completedDirectories xset world.status) (initialProgress xset world.status))) :=
    ⟨⟨⟨h.source, h.intact, h.frame, h.delivered, h.attested⟩, Tidy.start xset runId _ _ _⟩,
      fun _ => rfl⟩
  have hphase : Outside xset runId (emit (.phaseChanged "execute")) := does_call trivial trivial
  refine wp_bind.2 ((hstart.wp hapart hphase).mono (fun _ later hlater => ?_)
    fun _ _ h => h.toSecure)
  refine wp_bind.2 ((hlater.2.wp hapart (emitProgress_outside true)).mono (fun _ later hlater => ?_)
    fun _ _ h => h.toSecure)
  have hall : Ends base xset runId (Secure base xset runId) (fun _ => Secure base xset runId)
      (executeAll xset runId policies) later := by
    refine wp_bind.2 ((executeEach_ends hapart false (fun _ h => h) hlater.2).mono
      (fun _ later hlater => ?_) fun _ _ h => h)
    refine wp_bind.2 ((hsecure hlater.toSecure finalizeDirectories_outside).mono
      (fun _ later hlater => ?_) fun _ _ h => h)
    refine wp_bind.2 ((hsecure hlater restoreCompletedDirectoryMetadata_outside).mono
      (fun _ later hlater => ?_) fun _ _ h => h)
    exact hsecure hlater flushAtEnd_outside
  have hbody : Ends base xset runId (Secure base xset runId) (fun _ => Secure base xset runId)
      ((executeAll xset runId policies).catching (leave xset policies)) later :=
    wp_catching.2 (hall.mono (fun _ _ h => h) fun error _ hlater =>
      hsecure hlater (leave_outside error))
  refine wp_bind.2 (hbody.mono (fun _ later hlater => ?_) fun _ _ h => h)
  refine wp_bind.2 (wp_get.2 ?_)
  exact wp_bind.2
    ((hsecure hlater (emitProgress_outside true)).mono (fun _ _ h => h) fun _ _ h => h)

end Loop

/-! ## What is conserved

From a beginning that fits the set, any number of calls keeps the invariant in
every state on the way; the three results read it off. -/

section Conserved

variable [Unicode] [Host] [Sha256] (xset : ExecutionSet) (runId : RunId)

/-- The states that a call leaves behind, latest first. -/
def leftBehind (run : Except Error OperationResult × Config machine) : List World :=
  run.2.state :: run.2.trace.map Step.after

/-- Calls of `execute` on one execution set, one after another, however each
of them ends. -/
def callsOf : List (ExecutorPolicies × Env machine) → World →
    List (Except Error OperationResult × Config machine)
  | [], _ => []
  | (policies, env) :: calls, world =>
      let run := (execute xset runId policies).start env { world with state := {} }
      run :: callsOf calls run.2.state

/-- How things stand before the first call. -/
structure Begins (world : World) : Prop where
  rooted : world.target.store.Rooted
  -- A temp that an earlier run has left has no second name.
  temps : ∀ temp place file other, IsTemp xset runId temp → place ≠ temp →
    world.target.fileAt temp = some file → world.target.fileAt place = some other →
      file.1 ≠ other.1
  succeeded : ∀ operation, Chosen xset operation → countsBytes operation.kind = true →
    world.status.get? operation.opId = some .succeeded → Delivered world operation world.target

variable {xset runId} {base world : World}

omit [Host] in
theorem Begins.sound (h : Begins xset runId world) : Sound world xset runId world where
  source := rfl
  intact :=
    { rooted := h.rooted
      fresh := h.temps
      whole := fun place file hplace hfile => Or.inr ⟨place, file, hplace, hfile, rfl⟩
      held := fun place file hplace hfile => ⟨place, file, hplace, hfile, rfl⟩ }
  frame _ _ := rfl
  delivered := h.succeeded
  attested _ hmem := Or.inl hmem

/-- Every state of a call is sound. -/
theorem execute_sound (hapart : Apart xset runId) (h : Sound base xset runId world)
    (policies : ExecutorPolicies) (env : Env machine) :
    ∀ later ∈ leftBehind ((execute xset runId policies).start env { world with state := {} }),
      Sound base xset runId later := by
  have hstart : Sound base xset runId { world with state := {} } :=
    ⟨h.source, h.intact, h.frame, h.delivered, h.attested⟩
  have hgoverned : (Safely base xset runId).Governs
      ((execute xset runId policies).start env { world with state := {} }).2.trace :=
    fun _ _ => trivial
  have hends : Ends base xset runId (Secure base xset runId) (fun _ => Secure base xset runId)
      (execute xset runId policies) { world with state := {} } := execute_ends hapart hstart
  obtain ⟨hsteps, hend⟩ := hends.start hgoverned
  intro later hmem
  rcases List.mem_cons.1 hmem with rfl | hmem
  · cases hresult : ((execute xset runId policies).start env { world with state := {} }).1 with
    | ok result => exact (hend.of_ok hresult).sound
    | error error => exact (hend.of_error hresult).sound
  · obtain ⟨step, hstep, rfl⟩ := List.mem_map.1 hmem
    exact hsteps step hstep

/-- And so is every state of the calls after it. -/
theorem calls_sound (hapart : Apart xset runId) (calls : List (ExecutorPolicies × Env machine))
    (h : Sound base xset runId world) :
    ∀ run ∈ callsOf xset runId calls world, ∀ later ∈ leftBehind run,
      Sound base xset runId later := by
  induction calls generalizing world with
  | nil => exact fun run hmem => absurd hmem List.not_mem_nil
  | cons call calls ih =>
      obtain ⟨policies, env⟩ := call
      have hfirst := execute_sound hapart h policies env
      intro run hmem
      rcases List.mem_cons.1 hmem with rfl | hmem
      · exact hfirst
      · exact ih (hfirst _ List.mem_cons_self) run hmem

/-- However the calls go, the bytes of every file that the plan does not give
up are the bytes of a file, outside of the temps, in every state. -/
theorem no_bytes_lost (hapart : Apart xset runId) (hbegins : Begins xset runId world)
    (calls : List (ExecutorPolicies × Env machine)) :
    ∀ run ∈ callsOf xset runId calls world, ∀ later ∈ leftBehind run,
      ∀ place file, ¬ Condemned xset runId place → world.target.fileAt place = some file →
        ∃ home kept, ¬ IsTemp xset runId home ∧ later.target.fileAt home = some kept ∧
          kept.2 = file.2 := by
  intro run hrun later hlater place file hplace hfile
  have hsound := calls_sound hapart calls hbegins.sound run hrun later hlater
  obtain ⟨home, kept, hhome, hkept, hbytes⟩ := hsound.intact.held place file hplace hfile
  exact ⟨home, kept, not_temp_of_not_condemned hhome, hkept, hbytes⟩

/-- No state shows a torn file outside of the temps: what is there has the
bytes of a file of the source, or of one that was in the target; and beyond
the places of the operations nothing changes at all, nor in the source. -/
theorem no_file_torn (hapart : Apart xset runId) (hbegins : Begins xset runId world)
    (calls : List (ExecutorPolicies × Env machine)) :
    ∀ run ∈ callsOf xset runId calls world, ∀ later ∈ leftBehind run,
      later.source = world.source ∧
        (∀ place file, ¬ IsTemp xset runId place → later.target.fileAt place = some file →
          Known xset runId world file.2) ∧
        ∀ place, (∀ operation, Chosen xset operation → ¬ Touches runId operation place) →
          later.target.fileAt place = world.target.fileAt place := by
  intro run hrun later hlater
  have hsound := calls_sound hapart calls hbegins.sound run hrun later hlater
  exact ⟨hsound.source, hsound.intact.whole, hsound.frame⟩

/-- In every state, an operation that has succeeded in bringing bytes has the
bytes of its source at its target; and every attestation that was recorded
for one is the digest and the size of these bytes. -/
theorem success_delivered (hapart : Apart xset runId) (hbegins : Begins xset runId world)
    (calls : List (ExecutorPolicies × Env machine)) :
    ∀ run ∈ callsOf xset runId calls world, ∀ later ∈ leftBehind run,
      ∀ operation, Chosen xset operation → countsBytes operation.kind = true →
        (later.status.get? operation.opId = some .succeeded →
          Delivered world operation later.target) ∧
        ∀ call ∈ later.records, call ∉ world.records → call.op = operation.opId →
          ∀ attestation ∈ call.attestation,
            Vouches world operation attestation.content.digest attestation.content.size := by
  intro run hrun later hlater operation hchosen hcounts
  have hsound := calls_sound hapart calls hbegins.sound run hrun later hlater
  refine ⟨hsound.delivered operation hchosen hcounts, fun call hmem hnew hop => ?_⟩
  exact (hsound.attested call hmem).resolve_left hnew operation hchosen hop

end Conserved

/-! An update of two bytes by three.  The disk reports a sharing violation
once the new file is in place, so the second attempt finds it there. -/

section Sample

local instance replacedUnicode : Unicode := creditedUnicode

local instance replacedHost : Host := creditedHost

local instance replacedDigest : Sha256 := creditedDigest

def replacedStat : FileStat where
  kind := .file
  size := 2
  mtimeNs := 1680000000000000000
  fileIdentity := some (volumeB.identity 0)
  nlink := 1
  metadata := ⟨0x20, some 1680000000000000000⟩

def replacedUpdate : PlanOperation where
  opId := 0x51c0ffee
  kind := .update
  sourceRelPath := some creditedPath
  targetRelPath := creditedPath
  sourceExpected := some creditedStat
  targetExpected := some replacedStat
  intended := some creditedStat
  contentBytes := 3
  reason := .sourceOnly

def replacedSet : ExecutionSet where
  plan := { creditedPlan with operations := [replacedUpdate], checked := by decide }
  selection := [replacedUpdate.opId]
  selection_known := fun _ h => h

def replacedWorld : World where
  source := creditedWorld.source
  target :=
    { store := FileStore.Store.empty.alloc (loc creditedPath) (str "notes")
        ⟨false, [7, 8], ⟨1680000000000000000, 0x20, some 1680000000000000000⟩⟩
      serial := volumeB.serial
      serial_ne := volumeB.serial_ne }

def violated : Env machine
  | _, .change (.replace _ target), _ => some (.after (.os target.text (some 32)))
  | _, _, _ => none

def replacedCalls : List (ExecutorPolicies × Env machine) := [(creditedPolicies, violated)]

theorem chosen_replaced {operation : PlanOperation} (h : Chosen replacedSet operation) :
    operation = replacedUpdate :=
  List.mem_singleton.1 h.1

theorem temp_replaced {place : List Str} (h : IsTemp replacedSet 7 place) :
    place = loc (tempOf 7 replacedUpdate) ∨ place = loc (backupTempOf 7 replacedUpdate) := by
  cases h with
  | own hchosen hkind =>
      rw [chosen_replaced hchosen]
      exact Or.inl rfl
  | backup hchosen hkind =>
      rw [chosen_replaced hchosen]
      exact Or.inr rfl

theorem replaced_apart : Apart replacedSet 7 where
  moves source target hmoves hne := by
    cases hmoves with
    | move hchosen hkind hprior =>
        rw [chosen_replaced hchosen] at hkind
        rcases hkind with hkind | hkind <;> cases hkind
    | prior hchosen hkind hprior =>
        rw [chosen_replaced hchosen] at hkind
        cases hkind
    | trash hchosen hkind =>
        rw [chosen_replaced hchosen] at hkind
        cases hkind
  targets operation hchosen hcounts htemp := by
    rw [chosen_replaced hchosen] at htemp
    revert htemp
    have hout : loc replacedUpdate.targetRelPath ≠ loc (tempOf 7 replacedUpdate) ∧
        loc replacedUpdate.targetRelPath ≠ loc (backupTempOf 7 replacedUpdate) := by
      decide +kernel
    exact fun htemp => (temp_replaced htemp).elim hout.1 hout.2
  backups operation hchosen hkind htrash hgone := by
    rw [chosen_replaced hchosen] at hgone
    generalize hplace : loc (trashPath 7 replacedUpdate.targetRelPath) = place at hgone
    cases hgone with
    | temp htemp =>
        have hout : loc (trashPath 7 replacedUpdate.targetRelPath) ≠ loc (tempOf 7 replacedUpdate) ∧
            loc (trashPath 7 replacedUpdate.targetRelPath) ≠
              loc (backupTempOf 7 replacedUpdate) := by
          decide +kernel
        rw [← hplace] at htemp
        exact (temp_replaced htemp).elim hout.1 hout.2
    | delete hother hdelete _ =>
        rw [chosen_replaced hother] at hdelete
        cases hdelete
    | update hother hupdate hkeep => cases hkeep
  replaced operation old hchosen hkind hprior := by
    rw [chosen_replaced hchosen] at hkind
    cases hkind
  others operation other hchosen hother hne :=
    absurd ((chosen_replaced hchosen).trans (chosen_replaced hother).symm) hne
  files operation hchosen hcounts expected hexpected := by
    rw [chosen_replaced hchosen] at hexpected
    obtain rfl := Option.some.inj hexpected
    rfl
  displaced operation hchosen hkind expected hexpected := by
    rw [chosen_replaced hchosen] at hexpected
    obtain rfl := Option.some.inj hexpected
    rfl

theorem look_replaced {place : List Str} {sight : Sight}
    (h : replacedWorld.target.look place = some sight) : place = loc creditedPath := by
  have hfree : (FileStore.Store.empty : Store Str Str UInt8 Info).look (loc creditedPath) = none :=
    rfl
  have hlook := Store.look_alloc (str "notes")
    (⟨false, [7, 8], ⟨1680000000000000000, 0x20, some 1680000000000000000⟩⟩ : Node UInt8 Info)
    hfree place
  rw [show replacedWorld.target.look place = _ from hlook] at h
  split at h
  · next hplace => exact hplace
  · cases h

theorem replaced_begins : Begins replacedSet 7 replacedWorld where
  rooted place sight hlook hparent := by
    rw [look_replaced hlook] at hparent
    exact absurd rfl hparent
  temps temp place file other htemp hne hfile hother := by
    obtain ⟨sight, hlook, -⟩ := Disk.fileAt_eq_some.1 hfile
    obtain ⟨other, hlook', -⟩ := Disk.fileAt_eq_some.1 hother
    exact absurd ((look_replaced hlook').trans (look_replaced hlook).symm) hne
  succeeded operation hchosen hcounts hstatus := by cases hstatus

/-- The update succeeds at the second attempt. -/
def replacedOutcome : List (Option SessionState) :=
  (callsOf replacedSet 7 replacedCalls replacedWorld).map fun run => run.1.toOption.map (·.status)

theorem no_bytes_lost_replaced : replacedOutcome = [some .completed] ∧
    ∀ run ∈ callsOf replacedSet 7 replacedCalls replacedWorld, ∀ later ∈ leftBehind run,
      ∀ place file, ¬ Condemned replacedSet 7 place →
        replacedWorld.target.fileAt place = some file →
          ∃ home kept, ¬ IsTemp replacedSet 7 home ∧ later.target.fileAt home = some kept ∧
            kept.2 = file.2 :=
  ⟨by decide +kernel, no_bytes_lost replaced_apart replaced_begins replacedCalls⟩

theorem no_file_torn_replaced : replacedOutcome = [some .completed] ∧
    ∀ run ∈ callsOf replacedSet 7 replacedCalls replacedWorld, ∀ later ∈ leftBehind run,
      later.source = replacedWorld.source ∧
        (∀ place file, ¬ IsTemp replacedSet 7 place → later.target.fileAt place = some file →
          Known replacedSet 7 replacedWorld file.2) ∧
        ∀ place, (∀ operation, Chosen replacedSet operation → ¬ Touches 7 operation place) →
          later.target.fileAt place = replacedWorld.target.fileAt place :=
  ⟨by decide +kernel, no_file_torn replaced_apart replaced_begins replacedCalls⟩

theorem success_delivered_replaced :
    ((callsOf replacedSet 7 replacedCalls replacedWorld).map fun run =>
      run.2.state.status.get? replacedUpdate.opId) = [some .succeeded] ∧
    ∀ run ∈ callsOf replacedSet 7 replacedCalls replacedWorld, ∀ later ∈ leftBehind run,
      ∀ operation, Chosen replacedSet operation → countsBytes operation.kind = true →
        (later.status.get? operation.opId = some .succeeded →
          Delivered replacedWorld operation later.target) ∧
        ∀ call ∈ later.records, call ∉ replacedWorld.records → call.op = operation.opId →
          ∀ attestation ∈ call.attestation,
            Vouches replacedWorld operation attestation.content.digest attestation.content.size :=
  ⟨by decide +kernel, success_delivered replaced_apart replaced_begins replacedCalls⟩

end Sample

end Executor

end NamiSync
