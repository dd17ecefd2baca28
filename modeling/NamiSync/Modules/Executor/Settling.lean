/-
# `Modules.Executor.Settling` — an outcome is settled once

`settle` looks before it writes, so a status that is there stays, and an item
is announced only where its status was written: at most once.  The status
entries, what was announced and the items of the result never disagree.

## What is proved

    execute_accounts : a call keeps `Tallied` and moves `Onward`

`Tallied` has three lists agree for each item: the status entry, the outcomes
announced since the start of the call, and the outcomes kept for the result.
`Onward` says that an entry, once written, stays.  Together: an item is
announced at most once in the call, and with the outcome that the result has.

The proof needs nothing from the disk: `settle` is the only program that
writes an entry, and it looks first.
-/
import NamiSync.Modules.Executor.RunReach

namespace NamiSync

namespace Executor

open Faulty Faulty.Prog

/-- What the events say of one item. -/
def itemsOf (itemId : String) (events : List EventBody) : List ItemOutcome :=
  events.filterMap fun
    | .itemOutcome item => if item.itemId = itemId then some item else none
    | _ => none

theorem itemsOf_append (itemId : String) (first second : List EventBody) :
    itemsOf itemId (first ++ second) = itemsOf itemId first ++ itemsOf itemId second :=
  List.filterMap_append

section Tallied

variable [Unicode]

/-- What has been announced since `base`, and what is kept for the result, is
what the status entries say; nothing was announced twice. -/
structure Tallied (base world : World) : Prop where
  kept : ∀ id outcome, base.status.get? id = some outcome →
    world.status.get? id = some outcome
  events : ∃ emitted, world.events = base.events ++ emitted ∧ ∀ id : OpId,
    (itemsOf id.itemId emitted).length ≤ 1 ∧
      ∀ item ∈ itemsOf id.itemId emitted,
        base.status.get? id = none ∧ world.status.get? id = some item.outcome
  outcomes : ∀ id item, world.state.outcomes.get? id = some item →
    item.itemId = id.itemId ∧ world.status.get? id = some item.outcome

/-! ## What stays

Two orders of worlds.  The finalization of the directories takes the list of the
pending ones, so it keeps only the outcomes; every other program keeps both. -/

/-- A status entry stays as it is. -/
def StatusKept (before after : World) : Prop :=
  ∀ id outcome, before.status.get? id = some outcome → after.status.get? id = some outcome

/-- Status entries and pending directories stay. -/
structure Onward (before after : World) : Prop where
  status : StatusKept before after
  pending : ∀ operation ∈ before.state.pendingDirectories,
    operation ∈ after.state.pendingDirectories

/-- An outcome stays through no step at all. -/
theorem StatusKept.refl (world : World) : StatusKept world world := fun _ _ h => h

theorem StatusKept.trans {first second third : World} (h : StatusKept first second)
    (h' : StatusKept second third) : StatusKept first third :=
  fun id outcome hget => h' id outcome (h id outcome hget)

theorem Onward.refl (world : World) : Onward world world := ⟨.refl world, fun _ h => h⟩

theorem Onward.trans {first second third : World} (h : Onward first second)
    (h' : Onward second third) : Onward first third :=
  ⟨h.status.trans h'.status, fun operation hmem => h'.pending operation (h.pending operation hmem)⟩

/-! ## One step

Which calls and notes say nothing about an outcome, and what the two that do
say: the note of `settle` writes an entry where there is none, and the emission
after it announces this entry. -/

/-- The calls that announce no item. -/
def Hushed : Call → Prop
  | .emit (.itemOutcome _) => False
  | _ => True

/-- The notes that settle nothing and take no directory. -/
def Steadfast : Note → Prop
  | .start _ _ | .settle _ _ | .takePending => False
  | _ => True

/-- Nothing is announced and no entry is written. -/
theorem Tallied.quiet {base world later : World} (h : Tallied base world)
    (hstatus : later.status = world.status)
    (hitems : ∃ emitted, later.events = world.events ++ emitted ∧
      ∀ itemId, itemsOf itemId emitted = [])
    (houtcomes : ∀ id item, later.state.outcomes.get? id = some item →
      world.state.outcomes.get? id = some item) : Tallied base later := by
  obtain ⟨hkept, ⟨emitted, hevents, htold⟩, hout⟩ := h
  obtain ⟨more, hmore, hnone⟩ := hitems
  refine ⟨by rw [hstatus]; exact hkept, ⟨emitted ++ more, ?_, fun id => ?_⟩, fun id item hget => ?_⟩
  · rw [hmore, hevents, List.append_assoc]
  · rw [itemsOf_append, hnone, List.append_nil, hstatus]
    exact htold id
  · rw [hstatus]
    exact hout id item (houtcomes id item hget)

theorem Tallied.noted {base world : World} (h : Tallied base world) {note : Note}
    (hnote : ∀ id item, note ≠ .settle id item) : Tallied base (note.write world) := by
  have hquiet : ∃ emitted, world.events = world.events ++ emitted ∧
      ∀ itemId, itemsOf itemId emitted = [] := ⟨[], (List.append_nil _).symm, fun _ => rfl⟩
  cases note with
  | settle id item => exact absurd rfl (hnote id item)
  | start restore tracker => exact h.quiet rfl hquiet fun id item hget => by cases hget
  | _ => exact h.quiet rfl hquiet fun _ _ hget => hget

theorem Tallied.effect [Host] {base world later : World} (h : Tallied base world) {call : Call}
    (hcall : Hushed call) (heffect : call.effect world = .ok later) : Tallied base later := by
  obtain ⟨hstatus, hstate, -, -⟩ := effect_eq heffect
  refine h.quiet hstatus ?_ (by rw [hstate]; exact fun _ _ hget => hget)
  have hquiet : later.events = world.events → ∃ emitted, later.events = world.events ++ emitted ∧
      ∀ itemId, itemsOf itemId emitted = [] := fun hsame =>
    ⟨[], by rw [hsame, List.append_nil], fun _ => rfl⟩
  cases call with
  | ask question => exact hquiet (by rw [ask_eq heffect])
  | change step =>
      refine hquiet ?_
      unfold Call.effect at heffect
      dsimp only at heffect
      split at heffect
      · obtain rfl := Except.ok.inj heffect
        rfl
      · cases heffect
  | clock =>
      obtain rfl := Except.ok.inj heffect
      exact hquiet rfl
  | record call =>
      obtain rfl := Except.ok.inj heffect
      exact hquiet rfl
  | emit body =>
      obtain rfl := Except.ok.inj heffect
      refine ⟨[body], rfl, fun itemId => ?_⟩
      cases body with
      | itemOutcome item => exact hcall.elim
      | _ => rfl
  | emitProgress =>
      unfold Call.effect at heffect
      dsimp only at heffect
      split at heffect
      · obtain rfl := Except.ok.inj heffect
        exact ⟨_, rfl, fun itemId => rfl⟩
      · cases heffect

/-- An entry is written where there is none. -/
theorem Tallied.settled {base world : World} (h : Tallied base world) {operation : PlanOperation}
    (hopen : world.status.get? operation.opId = none) (settled : Settled) :
    Tallied base (Note.write world (.settle operation.opId (itemOf operation settled))) ∧
      Onward world (Note.write world (.settle operation.opId (itemOf operation settled))) := by
  have hkept : StatusKept world
      (Note.write world (.settle operation.opId (itemOf operation settled))) := by
    intro id outcome hget
    show (world.status.set _ _).get? id = _
    rw [Dict.get?_set_ne _ _ fun heq => by rw [heq, hopen] at hget; cases hget]
    exact hget
  obtain ⟨hbase, ⟨emitted, hevents, htold⟩, hout⟩ := h
  refine ⟨⟨fun id outcome hget => hkept id outcome (hbase id outcome hget),
    ⟨emitted, hevents, fun id => ⟨(htold id).1, fun item hmem => ?_⟩⟩, fun id item hget => ?_⟩,
    hkept, fun _ hmem => hmem⟩
  · obtain ⟨hnone, hstatus⟩ := (htold id).2 item hmem
    exact ⟨hnone, hkept id _ hstatus⟩
  · have hget : (world.state.outcomes.set operation.opId (itemOf operation settled)).get? id =
        some item := hget
    rw [Dict.get?_set] at hget
    split at hget
    · next hid =>
        obtain rfl := Option.some.inj hget
        refine ⟨by rw [hid]; rfl, ?_⟩
        show (world.status.set operation.opId _).get? id = _
        rw [hid, Dict.get?_set_self]
    · obtain ⟨hitem, hstatus⟩ := hout id item hget
      exact ⟨hitem, hkept id _ hstatus⟩

/-- The entry is announced. -/
theorem Tallied.announced {base world : World} {operation : PlanOperation}
    (h : Tallied base world) (hopen : world.status.get? operation.opId = none)
    (settled : Settled) :
    let noted := Note.write world (.settle operation.opId (itemOf operation settled))
    Tallied base
      { noted with events := noted.events ++ [.itemOutcome (itemOf operation settled)] } := by
  intro noted
  obtain ⟨hbase, ⟨emitted, hevents, htold⟩, hout⟩ := (h.settled hopen settled).1
  have hsilent : itemsOf operation.opId.itemId emitted = [] := by
    obtain ⟨before, hbefore, hearlier⟩ := h.events
    obtain rfl : emitted = before := List.append_cancel_left (hevents.symm.trans hbefore)
    refine List.eq_nil_iff_forall_not_mem.2 fun item hmem => ?_
    have hstatus := ((hearlier operation.opId).2 item hmem).2
    rw [hopen] at hstatus
    cases hstatus
  refine ⟨hbase, ⟨emitted ++ [.itemOutcome (itemOf operation settled)], ?_, fun id => ?_⟩, hout⟩
  · show noted.events ++ _ = _
    rw [hevents, List.append_assoc]
  · rw [itemsOf_append]
    by_cases hid : operation.opId = id
    · subst hid
      have hone : itemsOf operation.opId.itemId [.itemOutcome (itemOf operation settled)] =
          [itemOf operation settled] := by simp [itemsOf, itemOf]
      rw [hsilent, hone]
      refine ⟨le_refl 1, fun item hmem => ?_⟩
      obtain rfl := List.mem_singleton.1 hmem
      refine ⟨?_, Dict.get?_set_self _ _ _⟩
      cases hbefore : base.status.get? operation.opId with
      | none => rfl
      | some outcome =>
          have hlater := h.kept _ _ hbefore
          rw [hopen] at hlater
          cases hlater
    · have hnone : itemsOf id.itemId [.itemOutcome (itemOf operation settled)] = [] := by
        have hne : operation.opId.itemId ≠ id.itemId := fun heq => hid (OpId.itemId_inj heq)
        simp [itemsOf, itemOf, hne]
      rw [hnone, List.append_nil]
      exact htold id

end Tallied

/-! ## The programs of a call

One lemma for each program, by the rules of `Faulty`.  Only `settle` is not
quiet; every other program is a quiet one, or is composed of programs that come
before it here. -/

section Programs

variable [Unicode] [Host] {base : World} {xset : ExecutionSet} {runId : RunId}
  {policies : ExecutorPolicies} {operation : PlanOperation}

/-- Programs whose steps keep the accounts. -/
abbrev Tallies (base : World) (L : World → World → Prop) {α : Type} (m : Exec α) : Prop :=
  m.Keeps (Tallied base) L

theorem quiet_accounts {α : Type} {P : α → Prop} {m : Exec α}
    (h : m.Does (fun _ => True) Hushed Steadfast P) : Tallies base Onward m := by
  refine h.keeps (fun _ _ => trivial) (fun call hcall before after hbefore heffect => ?_)
    (fun note hnote before hbefore => ?_) Onward.refl
  · obtain ⟨hstatus, hstate, -, -⟩ := effect_eq heffect
    refine ⟨hbefore.effect hcall heffect, fun id outcome hget => ?_, fun operation hmem => ?_⟩
    · rw [hstatus]
      exact hget
    · rw [hstate]
      exact hmem
  · refine ⟨hbefore.noted fun id item heq => ?_, ?_⟩
    · rw [heq] at hnote
      exact hnote
    · cases note with
      | start restore tracker => exact hnote.elim
      | settle id item => exact hnote.elim
      | takePending => exact hnote.elim
      | pend other => exact ⟨fun _ _ h => h, fun _ hmem => List.mem_append_left _ hmem⟩
      | _ => exact ⟨fun _ _ h => h, fun _ h => h⟩

theorem advance_accounts (step : ProgressStep) :
    Tallies base Onward (advanceProgress policies step) := by
  have hshow : (emitProgress policies false).Does (fun _ => True) Hushed Steadfast fun _ => True :=
    emitProgress_does policies false trivial trivial (fun _ => trivial) trivial
  exact quiet_accounts (P := fun _ => True) (does_bind.2 (note_does trivial hshow))

/-- `settle` looks, writes and announces. -/
theorem settle_accounts (settled : Settled) :
    Tallies base Onward (settle policies operation settled) := by
  intro world hworld
  show Prog.KeepsFrom _ _ (if world.status.contains operation.opId = true then pure () else do
    put (.settle operation.opId (itemOf operation settled))
    emit (.itemOutcome (itemOf operation settled))
    advanceProgress policies (.settled operation settled.outcome)) world
  split
  · trivial
  · next halready =>
      have hopen : world.status.get? operation.opId = none := by
        simpa [Dict.contains] using halready
      obtain ⟨hnoted, honward⟩ := hworld.settled hopen settled
      suffices hemit : (emit (.itemOutcome (itemOf operation settled))).KeepsFrom (Tallied base)
          Onward (Note.write world (.settle operation.opId (itemOf operation settled))) by
        have hrest : Prog.KeepsFrom (Tallied base) Onward (do
            emit (.itemOutcome (itemOf operation settled))
            advanceProgress policies (.settled operation settled.outcome))
            (Note.write world (.settle operation.opId (itemOf operation settled))) :=
          keepsFrom_bind hemit hnoted fun _ => advance_accounts _
        exact ⟨hnoted, honward, hrest⟩
      intro answer later hanswer
      have hlater : Tallied base later ∧ Onward
          (Note.write world (.settle operation.opId (itemOf operation settled))) later := by
        have hsaid := hworld.announced hopen settled
        cases answer with
        | none =>
            obtain rfl := Except.ok.inj hanswer
            exact ⟨hsaid, fun _ _ h => h, fun _ h => h⟩
        | some error =>
            rcases hanswer with rfl | heffect
            · exact ⟨hnoted, .refl _⟩
            · obtain rfl := Except.ok.inj heffect
              exact ⟨hsaid, fun _ _ h => h, fun _ h => h⟩
      refine ⟨hlater.1, hlater.2, ?_⟩
      cases answer <;> trivial

theorem settleFailure_accounts (error : Error) :
    Tallies base Onward (settleFailure policies operation error) :=
  settle_accounts _

theorem catchFailure_accounts {L : World → World → Prop} {α : Type} {m : Exec α}
    {handler : Error → Exec α} (h : Tallies base L m)
    (hhandler : ∀ error, Tallies base L (handler error)) :
    Tallies base L (catchFailure m handler) := by
  refine keeps_catching h fun error => ?_
  split
  · exact hhandler error
  · exact keeps_raise

theorem note_accounts {note : Note} (h : Steadfast note) : Tallies base Onward (put note) :=
  quiet_accounts (P := fun _ => True) (note_does h trivial)

/-- A note that leaves the status alone. -/
theorem reset_accounts {note : Note} (hnote : ∀ id item, note ≠ .settle id item)
    (hstatus : ∀ world : World, (note.write world).status = world.status) :
    Tallies base StatusKept (put note) := by
  intro world hworld
  refine ⟨hworld.noted hnote, fun id outcome hget => ?_, trivial⟩
  show (note.write world).status.get? id = some outcome
  rw [hstatus]
  exact hget

theorem ask_accounts (question : Question) : Tallies base Onward (ask question) :=
  quiet_accounts (P := fun _ => True) (does_call trivial trivial)

theorem cleanupInflight_accounts : Tallies base Onward cleanupInflight :=
  quiet_accounts (cleanupInflight_does (fun _ _ _ _ => trivial) trivial)

theorem startDirectory_accounts : Tallies base Onward (startDirectory operation) :=
  quiet_accounts (startDirectory_does (fun _ => trivial) trivial trivial)

theorem flushAtEnd_accounts : Tallies base Onward flushAtEnd :=
  quiet_accounts (flushAtEnd_does (fun _ => trivial) trivial)

theorem restoreCompletedDirectoryMetadata_accounts :
    Tallies base Onward (restoreCompletedDirectoryMetadata xset) :=
  quiet_accounts (restoreCompletedDirectoryMetadata_does (fun _ => trivial)
    (fun _ _ _ _ _ _ => trivial) trivial)

theorem finalizeDirectory_accounts :
    Tallies base Onward (finalizeDirectory xset policies operation) := by
  unfold finalizeDirectory
  split
  · refine keeps_bind (quiet_accounts (P := fun _ => True) (failIf_does _ _ fun _ => trivial))
      fun _ => ?_
    refine keeps_bind (ask_accounts _) fun _ => ?_
    refine keeps_bind (quiet_accounts (P := fun _ => True)
      (applyMetadata_does (fun _ => trivial) _ _ _ (fun _ _ => trivial) trivial)) fun _ => ?_
    refine keeps_bind (quiet_accounts (P := fun _ => True)
      (durabilityDetail_does (fun _ => trivial) _ _ fun _ => trivial)) fun detail => ?_
    refine keeps_bind (quiet_accounts (P := fun _ => True)
      (observedStat_does (fun _ => trivial) _ _ fun _ => trivial)) fun actual => ?_
    refine keeps_bind (quiet_accounts (P := fun _ => True)
      (record_does _ trivial trivial fun _ => trivial)) fun detail => ?_
    exact settle_accounts _
  · exact keeps_raise

theorem finalizeEach_accounts (operations : List PlanOperation) :
    Tallies base Onward (finalizeEach xset policies operations) := by
  induction operations with
  | nil => exact keeps_pure
  | cons first rest ih =>
      have hone : Tallies base Onward
          (catchFailure (finalizeDirectory xset policies first) fun error =>
            settleFailure policies first error) :=
        catchFailure_accounts finalizeDirectory_accounts settleFailure_accounts
      exact keeps_bind (keeps_ensuring hone (note_accounts trivial)) fun _ => ih

/-- The pending directories are taken: only the status is kept. -/
theorem finalizeDirectories_accounts :
    Tallies base StatusKept (finalizeDirectories xset policies) := by
  have htake : Tallies base StatusKept (put .takePending) :=
    reset_accounts (fun _ _ heq => by cases heq) fun _ => rfl
  refine keeps_bind keeps_get fun pending => keeps_bind htake fun _ => ?_
  exact (finalizeEach_accounts _).mono fun _ _ h => h.status

/-- A retry that is given up settles its operation, as a failure does. -/
theorem giveUp_accounts (error : Error) :
    Tallies base Onward (giveUp policies operation error) := by
  refine keeps_bind cleanupInflight_accounts fun cleanup => ?_
  exact keeps_bind (note_accounts trivial) fun _ => settleFailure_accounts _

theorem beforeRetry_accounts (after : Nat) :
    Tallies base Onward (beforeRetry operation after) :=
  quiet_accounts (beforeRetry_does (fun _ => trivial) after (fun _ _ _ _ => trivial) trivial)

theorem cancelEach_accounts (cleanupError : Option Error) (operations : List PlanOperation) :
    Tallies base Onward (cancelEach xset policies cleanupError operations) := by
  induction operations with
  | nil => exact keeps_pure
  | cons first rest ih =>
      refine keeps_bind keeps_get fun current => ?_
      refine keeps_bind ?_ fun _ => ih
      unfold onlyIf
      split
      · exact settle_accounts _
      · exact keeps_pure

theorem leave_accounts (error : Error) :
    Tallies base StatusKept (leave xset policies error) := by
  have hcleanup : Tallies base StatusKept cleanupInflight :=
    cleanupInflight_accounts.mono fun _ _ h => h.status
  have hflush : Tallies base StatusKept flushAtEnd :=
    flushAtEnd_accounts.mono fun _ _ h => h.status
  unfold leave
  split
  · refine keeps_bind hcleanup fun cleanup => ?_
    refine keeps_bind finalizeDirectories_accounts fun _ => ?_
    refine keeps_bind ((cancelEach_accounts cleanup _).mono fun _ _ h => h.status) fun _ => ?_
    exact keeps_bind hflush fun _ => keeps_raise
  · refine keeps_bind hcleanup fun cleanup => ?_
    refine keeps_bind finalizeDirectories_accounts fun _ => ?_
    refine keeps_bind (restoreCompletedDirectoryMetadata_accounts.mono fun _ _ h => h.status)
      fun _ => ?_
    exact keeps_bind hflush fun _ => keeps_raise
  · exact keeps_bind hcleanup fun _ => keeps_bind hflush fun _ => keeps_raise

variable [Sha256]

/-- An operation settles nothing by itself: it returns what is to be settled. -/
theorem tryOperation_accounts :
    Tallies base Onward (tryOperation xset runId policies operation) := by
  have hop : (executeOperation xset runId policies operation).Does (fun _ => True) Hushed
      Steadfast fun _ => True := by
    refine executeOperation_does.mono (fun _ h => h) (fun call hcall => ?_) (fun note hnote => ?_)
      fun _ h => h
    · cases call with
      | emit body => exact hcall.elim
      | _ => trivial
    · cases note with
      | start restore tracker => exact hnote.elim
      | settle id item => exact hnote.elim
      | takePending => exact hnote.elim
      | _ => trivial
  exact catchFailure_accounts (keeps_bind (quiet_accounts hop) fun _ => keeps_pure)
    fun _ => keeps_pure

theorem attemptOnce_accounts (number : Nat) {again : Option (Exec Bool)}
    (hagain : ∀ m ∈ again, Tallies base Onward m) :
    Tallies base Onward (attemptOnce xset runId policies operation number again) := by
  refine keeps_bind tryOperation_accounts fun attempted => ?_
  cases attempted with
  | ok settled =>
      refine keeps_bind (note_accounts trivial) fun _ => ?_
      exact keeps_bind (settle_accounts settled) fun _ => keeps_pure
  | error error =>
      refine keeps_bind (ask_accounts _) fun _ => ?_
      split
      · next later _ => exact keeps_bind (beforeRetry_accounts _) fun _ => hagain later rfl
      · exact keeps_bind (giveUp_accounts error) fun _ => keeps_pure
      · exact keeps_bind (giveUp_accounts error) fun _ => keeps_pure

/-- The attempts of one operation, by induction over how many are left. -/
theorem attempt_accounts (left number : Nat) :
    Tallies base Onward (attempt xset runId policies operation left number) := by
  induction left generalizing number with
  | zero => exact attemptOnce_accounts number fun m hm => by cases hm
  | succ left ih =>
      refine attemptOnce_accounts number fun m hm => ?_
      obtain rfl := Option.some.inj hm
      exact ih (number + 1)

theorem executeOne_accounts (stopRequested : Bool) :
    Tallies base Onward (executeOne xset runId policies operation stopRequested) := by
  have hsettle : ∀ (settled : Settled) (stopped : Bool), Tallies base Onward (do
      settle policies operation settled
      return stopped) := fun settled stopped =>
    keeps_bind (settle_accounts settled) fun _ => keeps_pure
  refine keeps_bind (note_accounts trivial) fun _ => ?_
  refine keeps_bind (ask_accounts _) fun _ => ?_
  refine keeps_bind (advance_accounts _) fun _ => ?_
  refine keeps_bind keeps_get fun ready => ?_
  split
  · exact hsettle _ true
  · split
    · exact hsettle _ false
    · split
      · exact hsettle _ false
      · split
        · exact keeps_bind (catchFailure_accounts startDirectory_accounts settleFailure_accounts)
            fun _ => keeps_pure
        · exact attempt_accounts _ _

theorem executeEach_accounts (operations : List PlanOperation) (stopRequested : Bool) :
    Tallies base Onward (executeEach xset runId policies operations stopRequested) := by
  induction operations generalizing stopRequested with
  | nil => exact keeps_pure
  | cons first rest ih =>
      refine keeps_bind keeps_get fun settled => ?_
      split
      · exact ih stopRequested
      · exact keeps_bind (executeOne_accounts stopRequested) fun stopped => ih stopped

theorem executeAll_accounts : Tallies base StatusKept (executeAll xset runId policies) := by
  refine keeps_bind ((executeEach_accounts _ false).mono fun _ _ h => h.status) fun _ => ?_
  refine keeps_bind finalizeDirectories_accounts fun _ => ?_
  refine keeps_bind (restoreCompletedDirectoryMetadata_accounts.mono fun _ _ h => h.status)
    fun _ => ?_
  exact flushAtEnd_accounts.mono fun _ _ h => h.status

/-- A whole call keeps the accounts, whatever happens in it. -/
theorem execute_accounts : Tallies base StatusKept (execute xset runId policies) := by
  have hshow : Tallies base StatusKept (emitProgress policies true) := by
    have hdoes : (emitProgress policies true).Does (fun _ => True) Hushed Steadfast fun _ => True :=
      emitProgress_does policies true trivial trivial (fun _ => trivial) trivial
    exact (quiet_accounts hdoes).mono fun _ _ h => h.status
  have hstart : ∀ restore tracker, Tallies base StatusKept (put (.start restore tracker)) :=
    fun _ _ => reset_accounts (fun _ _ heq => by cases heq) fun _ => rfl
  have hphase : Tallies base StatusKept (emit (.phaseChanged "execute")) := by
    have hdoes : (emit (.phaseChanged "execute")).Does (fun _ => True) Hushed Steadfast
        fun _ => True := does_call trivial trivial
    exact (quiet_accounts hdoes).mono fun _ _ h => h.status
  refine keeps_bind keeps_get fun status => keeps_bind (hstart _ _) fun _ => ?_
  refine keeps_bind hphase fun _ => keeps_bind hshow fun _ => ?_
  refine keeps_bind (keeps_catching executeAll_accounts fun error => leave_accounts error)
    fun _ => keeps_bind keeps_get fun world => ?_
  exact keeps_bind hshow fun _ => keeps_pure

end Programs

end Executor

end NamiSync
