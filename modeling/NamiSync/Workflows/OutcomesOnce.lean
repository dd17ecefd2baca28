/-
# `Workflows.OutcomesOnce` — every operation has one outcome

A run that is paused goes on in further calls of `execute` on the same
execution set.  Over such a chain a status entry is written once and never
changes, its operation is announced at most once, and the last call answers
for every operation that was selected, in its result or, together with the
exclusions, in the result of `run_execution`.

## What is proved

    settled_once    over a chain of paused calls, in any environment, a status
                    entry never changes and no operation is announced twice
    chain_completes where signals come only from the points that ask for one,
                    a call that returns or raises `Canceled` has settled every
                    selected operation, and `run_execution` has one item for
                    each operation that was selected or excluded
    outcomes_once   both

## What it is not

The trees may change between two calls, but the execution set is the same: a
pause that is resumed after a restart goes through `Workflows.RoundTrip`.
That a chain ends is not stated.

## The argument

`Modules.Executor.Settling` has the accounts of one call, with the world at its
start as the base.  A call that follows a pause starts from the status of the
one before, so its base can be moved back to the first call's
(`Turn.run_accounts`), and the chain is an induction on the calls.
-/
import NamiSync.Modules.Executor.Completion
import NamiSync.Modules.ProgressTruth
import NamiSync.Workflows.SyncResult

namespace NamiSync

open Executor Faulty

section Chain

variable [Unicode] [Host] [Sha256] (xset : ExecutionSet) (runId : RunId)

/-- What a call of `execute` meets: its policies, what may fail, and the
trees as they stand by then. -/
structure Turn where
  policies : ExecutorPolicies
  env : Env machine
  source : Disk
  target : Disk

/-- One call of `execute`, which starts with a new `_ExecutionState`. -/
def Turn.run (turn : Turn) (world : World) : Except Error OperationResult × Config machine :=
  (execute xset runId turn.policies).start turn.env
    { world with source := turn.source, target := turn.target, state := {} }

/-- The calls, each after a pause of the one before. -/
def pausedRuns : List Turn → World → List (Except Error OperationResult × Config machine)
  | [], _ => []
  | turn :: turns, world =>
      let run := turn.run xset runId world
      run :: match run.1 with
        | .error (.signal .pauseRequested) => pausedRuns turns run.2.state
        | _ => []

/-- The states of the calls, latest first, down to the first. -/
def statesOf (runs : List (Except Error OperationResult × Config machine)) (world : World) :
    List World :=
  (runs.reverse.flatMap fun run => run.2.history) ++ [world]

variable {xset runId}

omit [Host] [Sha256] in
/-- Only the trees and the state of the call are new. -/
theorem accounted_turn {base world : World} (h : Tallied base world) (source target : Disk) :
    Tallied base { world with source := source, target := target, state := {} } :=
  ⟨h.kept, h.events, fun id item hget => by cases hget⟩

omit [Host] [Sha256] in
theorem accounted_self (world : World) (source target : Disk) :
    Tallied world { world with source := source, target := target, state := {} } where
  kept _ _ h := h
  events := ⟨[], (List.append_nil _).symm, fun _ => ⟨Nat.zero_le 1, fun _ hmem => absurd hmem
    List.not_mem_nil⟩⟩
  outcomes id item hget := by cases hget

variable (xset runId)

/-- A call, after what has passed. -/
theorem Turn.run_accounts {base world : World} {past : List World} (turn : Turn)
    (hbase : Tallied base
      { world with source := turn.source, target := turn.target, state := {} })
    (hpast : (world :: past).Pairwise fun later earlier => StatusKept earlier later) :
    Tallied base (turn.run xset runId world).2.state ∧
      ((turn.run xset runId world).2.history ++ (world :: past)).Pairwise
        fun later earlier => StatusKept earlier later := by
  have haccounts : Tallies base StatusKept (execute xset runId turn.policies) :=
    execute_accounts
  refine (haccounts _ hbase).run ⟨_, []⟩ hbase StatusKept.refl (fun _ _ _ h h' => h.trans h') ?_
  refine List.pairwise_cons.2 ⟨fun earlier hmem => ?_, hpast⟩
  rcases List.mem_cons.1 hmem with rfl | hmem
  · exact StatusKept.refl _
  · exact (List.pairwise_cons.1 hpast).1 earlier hmem

/-- The chain: the accounts are kept in every call, and the states stand in
order. -/
theorem pausedRuns_accounts {base : World} (turns : List Turn) {world : World}
    (past : List World)
    (hbase : ∀ source target, Tallied base
      { world with source := source, target := target, state := {} })
    (hpast : (world :: past).Pairwise fun later earlier => StatusKept earlier later) :
    (∀ run ∈ pausedRuns xset runId turns world, Tallied base run.2.state) ∧
      (((pausedRuns xset runId turns world).reverse.flatMap fun run => run.2.history) ++
        (world :: past)).Pairwise fun later earlier => StatusKept earlier later := by
  induction turns generalizing world past with
  | nil => exact ⟨fun run hmem => absurd hmem List.not_mem_nil, hpast⟩
  | cons turn turns ih =>
      obtain ⟨hafter, hpairs⟩ := turn.run_accounts xset runId
        (hbase turn.source turn.target) hpast
      have hlast : (∀ run ∈ [turn.run xset runId world], Tallied base run.2.state) ∧
          (([turn.run xset runId world].reverse.flatMap fun run => run.2.history) ++
            (world :: past)).Pairwise fun later earlier => StatusKept earlier later := by
        refine ⟨fun run hmem => ?_, by simpa using hpairs⟩
        rw [List.mem_singleton.1 hmem]
        exact hafter
      have hcons : pausedRuns xset runId (turn :: turns) world = turn.run xset runId world ::
          match (turn.run xset runId world).1 with
          | .error (.signal .pauseRequested) =>
              pausedRuns xset runId turns (turn.run xset runId world).2.state
          | _ => [] := rfl
      rw [hcons]
      split
      · obtain ⟨hruns, hstates⟩ := ih ((turn.run xset runId world).2.trace.flatMap
          (fun step => [step.after, step.before]) ++ (world :: past))
          (fun source target => accounted_turn hafter source target) hpairs
        refine ⟨fun run hmem => ?_, ?_⟩
        · rcases List.mem_cons.1 hmem with rfl | hmem
          · exact hafter
          · exact hruns run hmem
        · rw [List.reverse_cons, List.flatMap_append, List.append_assoc]
          simpa [Config.history] using hstates
      · exact hlast

variable {xset runId}

omit [Host] [Sha256] in
/-- No operation is announced twice, and its status is what was announced. -/
theorem announced_once {base world : World} (h : Tallied base world) :
    ∃ emitted, world.events = base.events ++ emitted ∧ ∀ id : OpId,
      (itemsOf id.itemId emitted).length ≤ 1 ∧
        ∀ item ∈ itemsOf id.itemId emitted, world.status.get? id = some item.outcome := by
  obtain ⟨emitted, hevents, htold⟩ := h.events
  exact ⟨emitted, hevents, fun id => ⟨(htold id).1, fun item hitem => ((htold id).2 item hitem).2⟩⟩

/-- However the calls of a chain go, a status entry never changes once it is
written, and no operation is announced twice. -/
theorem settled_once (xset : ExecutionSet) (runId : RunId) (turns : List Turn) (world : World) :
    (statesOf (pausedRuns xset runId turns world) world).Pairwise
        (fun later earlier => StatusKept earlier later) ∧
      ∀ run ∈ pausedRuns xset runId turns world, ∃ emitted,
        run.2.state.events = world.events ++ emitted ∧ ∀ id : OpId,
          (itemsOf id.itemId emitted).length ≤ 1 ∧
            ∀ item ∈ itemsOf id.itemId emitted,
              run.2.state.status.get? id = some item.outcome := by
  obtain ⟨hruns, hstates⟩ := pausedRuns_accounts xset runId turns []
    (fun source target => accounted_self world source target) (List.pairwise_singleton _ _)
  exact ⟨hstates, fun run hmem => announced_once (hruns run hmem)⟩

/-! ## The end of a chain -/

/-- What every call of a chain does, it does from the accounts of the calls
before. -/
theorem pausedRuns_forall {base : World} {P : Except Error OperationResult × Config machine → Prop}
    (turns : List Turn) {world : World}
    (hbase : ∀ source target, Tallied base
      { world with source := source, target := target, state := {} })
    (hrun : ∀ turn ∈ turns, ∀ before : World, Tallied base
      { before with source := turn.source, target := turn.target, state := {} } →
        P (turn.run xset runId before)) :
    ∀ run ∈ pausedRuns xset runId turns world, P run := by
  induction turns generalizing world with
  | nil => exact fun run hmem => absurd hmem List.not_mem_nil
  | cons turn turns ih =>
      have hfirst := hrun turn List.mem_cons_self world (hbase turn.source turn.target)
      obtain ⟨hafter, -⟩ := turn.run_accounts xset runId (hbase turn.source turn.target)
        (List.pairwise_singleton _ _)
      have hcons : pausedRuns xset runId (turn :: turns) world = turn.run xset runId world ::
          match (turn.run xset runId world).1 with
          | .error (.signal .pauseRequested) =>
              pausedRuns xset runId turns (turn.run xset runId world).2.state
          | _ => [] := rfl
      rw [hcons]
      intro run hmem
      rcases List.mem_cons.1 hmem with rfl | hmem
      · exact hfirst
      · split at hmem
        · exact ih (fun source target => accounted_turn hafter source target)
            (fun turn hturn => hrun turn (List.mem_cons_of_mem _ hturn)) run hmem
        · exact absurd hmem List.not_mem_nil

/-- A call of a chain that returns or raises `Canceled` leaves every selected
operation with a status, and its result answers for each of them. -/
theorem Turn.run_completes {base before : World} (turn : Turn) (hpunctual : Punctual turn.env)
    (hbefore : Tallied base
      { before with source := turn.source, target := turn.target, state := {} }) :
    ((turn.run xset runId before).1 = .error (.signal .canceled) →
        AllSettled xset (turn.run xset runId before).2.state) ∧
      ∀ result, (turn.run xset runId before).1 = .ok result →
        AllSettled xset (turn.run xset runId before).2.state ∧
        ∃ operations, executionOperations xset result = some operations ∧
          operations.map (·.itemId) = (xset.plan.operations.filter fun operation =>
            decide (operation.opId ∈ xset.selection) ||
              xset.plan.exclusions.contains operation.opId).map (·.opId.itemId) := by
  have hcompletes : Faulty.wp Orderly _ _ (execute xset runId turn.policies) _ :=
    execute_completes hbefore
  have hrun := (hcompletes.start (hpunctual.governs _ _)).2
  refine ⟨fun hcanceled => Lands.of_error hrun hcanceled rfl, fun result hresult => ?_⟩
  obtain ⟨hsettled, hlisted⟩ := Lands.of_ok hrun hresult
  refine ⟨hsettled, ?_⟩
  obtain ⟨items, hitems, hids⟩ := exclusionItems_eq xset.plan xset.selection
  have hexecuted : result.operations.map (·.itemId) = (xset.plan.operations.filter fun operation =>
      decide (operation.opId ∈ xset.selection)).map (·.opId.itemId) := by
    have hfirst := congrArg (List.map Prod.fst) hlisted
    simpa [Function.comp_def] using hfirst
  refine ⟨_, congrArg (Option.map _) hitems, (mergeOperationResults_ids hexecuted hids).trans ?_⟩
  refine congrArg (List.map _) (List.filter_congr fun operation _ => ?_)
  cases decide (operation.opId ∈ xset.selection) <;> simp

/-- When a call of a chain returns or raises `Canceled`, every selected
operation has a status; and what `run_execution` makes of the result has one
item for each operation that is selected or excluded, in the order of the
plan. -/
theorem chain_completes (xset : ExecutionSet) (runId : RunId) (turns : List Turn) (world : World)
    (hturns : ∀ turn ∈ turns, Punctual turn.env) :
    ∀ run ∈ pausedRuns xset runId turns world,
      (run.1 = .error (.signal .canceled) → AllSettled xset run.2.state) ∧
      ∀ result, run.1 = .ok result → AllSettled xset run.2.state ∧
        ∃ operations, executionOperations xset result = some operations ∧
          operations.map (·.itemId) = (xset.plan.operations.filter fun operation =>
            decide (operation.opId ∈ xset.selection) ||
              xset.plan.exclusions.contains operation.opId).map (·.opId.itemId) :=
  pausedRuns_forall turns (fun source target => accounted_self world source target)
    fun turn hturn _ hbefore => turn.run_completes (hturns turn hturn) hbefore

/-- **Every operation has one outcome.**  Over a chain of calls whose signals
come from the points that poll for them, a status entry never changes once it
is written and no operation is announced twice; and the call that returns or
raises `Canceled` leaves every selected operation with a status, the result of
`run_execution` having one item for each operation that is selected or
excluded. -/
theorem outcomes_once (xset : ExecutionSet) (runId : RunId) (turns : List Turn) (world : World)
    (hturns : ∀ turn ∈ turns, Punctual turn.env) :
    (statesOf (pausedRuns xset runId turns world) world).Pairwise
        (fun later earlier => StatusKept earlier later) ∧
      ∀ run ∈ pausedRuns xset runId turns world,
        (∃ emitted, run.2.state.events = world.events ++ emitted ∧ ∀ id : OpId,
          (itemsOf id.itemId emitted).length ≤ 1 ∧
            ∀ item ∈ itemsOf id.itemId emitted,
              run.2.state.status.get? id = some item.outcome) ∧
        (run.1 = .error (.signal .canceled) → AllSettled xset run.2.state) ∧
        ∀ result, run.1 = .ok result → AllSettled xset run.2.state ∧
          ∃ operations, executionOperations xset result = some operations ∧
            operations.map (·.itemId) = (xset.plan.operations.filter fun operation =>
              decide (operation.opId ∈ xset.selection) ||
                xset.plan.exclusions.contains operation.opId).map (·.opId.itemId) := by
  obtain ⟨hruns, hstates⟩ := pausedRuns_accounts xset runId turns []
    (fun source target => accounted_self world source target) (List.pairwise_singleton _ _)
  refine ⟨hstates, fun run hmem => ⟨announced_once (hruns run hmem), ?_⟩⟩
  revert run
  exact pausedRuns_forall turns (fun source target => accounted_self world source target)
    fun turn hturn _ hbefore => turn.run_completes (hturns turn hturn) hbefore

end Chain

/-! The copy of three bytes, paused before they are published and gone on with. -/

section Sample

local instance pausedUnicode : Unicode := creditedUnicode

local instance pausedHost : Host := creditedHost

local instance pausedDigest : Sha256 := creditedDigest

/-- A pause is asked for once the bytes have been written. -/
def pausing : Env machine
  | 18, .ask .checkpoint, _ => some (.before (.signal .pauseRequested))
  | _, _, _ => none

def pausedTurns : List Turn :=
  [⟨creditedPolicies, pausing, creditedWorld.source, creditedWorld.target⟩,
    ⟨creditedPolicies, quiet, creditedWorld.source, creditedWorld.target⟩]

theorem punctual_pausing : Punctual pausing := by
  intro number call world error hfault hunpolled
  unfold pausing at hfault
  split at hfault
  · exact hunpolled.elim
  · rcases hfault with hfault | hfault <;> cases hfault

theorem punctual_turns : ∀ turn ∈ pausedTurns, Punctual turn.env := by
  intro turn hturn
  rcases List.mem_cons.1 hturn with rfl | hturn
  · exact punctual_pausing
  · obtain rfl := List.mem_singleton.1 hturn
    intro number call world error hfault
    rcases hfault with hfault | hfault <;> cases hfault

theorem chain_completes_paused :
    (pausedRuns creditedSet 7 pausedTurns creditedWorld).map (fun run => run.1.toOption.isSome) =
        [false, true] ∧
      ∀ run ∈ pausedRuns creditedSet 7 pausedTurns creditedWorld,
        (run.1 = .error (.signal .canceled) → AllSettled creditedSet run.2.state) ∧
        ∀ result, run.1 = .ok result → AllSettled creditedSet run.2.state ∧
          ∃ operations, executionOperations creditedSet result = some operations ∧
            operations.map (·.itemId) = (creditedSet.plan.operations.filter fun operation =>
              decide (operation.opId ∈ creditedSet.selection) ||
                creditedSet.plan.exclusions.contains operation.opId).map (·.opId.itemId) :=
  ⟨by decide +kernel, chain_completes creditedSet 7 pausedTurns creditedWorld punctual_turns⟩

theorem outcomes_once_paused :
    (pausedRuns creditedSet 7 pausedTurns creditedWorld).map (fun run => run.1.toOption.isSome) =
        [false, true] ∧
      (statesOf (pausedRuns creditedSet 7 pausedTurns creditedWorld) creditedWorld).Pairwise
          (fun later earlier => StatusKept earlier later) ∧
        ∀ run ∈ pausedRuns creditedSet 7 pausedTurns creditedWorld,
          ∃ emitted, run.2.state.events = creditedWorld.events ++ emitted ∧ ∀ id : OpId,
            (itemsOf id.itemId emitted).length ≤ 1 := by
  have honce := outcomes_once creditedSet 7 pausedTurns creditedWorld punctual_turns
  refine ⟨by decide +kernel, honce.1, fun run hrun => ?_⟩
  obtain ⟨emitted, hevents, htold⟩ := (honce.2 run hrun).1
  exact ⟨emitted, hevents, fun id => (htold id).1⟩

end Sample

end NamiSync
