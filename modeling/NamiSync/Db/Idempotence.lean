/-
# `Db.Idempotence` — a command that is sent again

Every family of commands keeps its receipt in another place: a run in its row
of `runs`, a call of a run in its row of `operations`, the end of a run in a
column of the run's row, the others in `recording_commands`.  Nothing that is
sent later takes a receipt away, so a command that has succeeded finds its
own whenever it is sent again, and another payload finds that it is not its
own.

## What is proved

    commands_idempotent : in any trace of commands, one that has succeeded and
      is sent again at any later time succeeds and changes nothing; and a
      command with the same token and another payload raises and changes
      nothing, where no two payloads of the trace share a hash

## The argument

`RunLedger.Lasts` is what a receipt consists of, for each of the four places:
a row of `runs` or `operations` is still found under its token, the finish
column keeps what it has, a receipt is never overwritten.  Each command
either raises and leaves the ledger, or makes it last and leaves its own
receipt (`send_outcome`); an induction along the trace carries the receipt to
the point where the command is sent again (`accounted_step`).

## What it is not

The hypothesis on the hashes is about the payloads sent in this trace and the
one sent again.  Nothing is said about a writer that crashes between two
transactions, nor about two writers.
-/
import NamiSync.Db.Reconciled
import NamiSync.Db.Runs
import NamiSync.Db.Tracked

namespace NamiSync

open Transition

section Commands

variable [Unicode]

/-! ## What the statements leave alone

The statements change rows of the inventory and their correspondence.  The
locations, the mappings and the rows of `operations` stay: one lemma for each
statement, under the statement's name, and the loops by `SameTables.foldl`. -/

/-- The tables beside the inventory and its correspondence. -/
structure SameTables (ledger later : MainLedger) : Prop where
  locations_eq : later.locations = ledger.locations
  mappings_eq : later.mappings = ledger.mappings
  operations_eq : later.operations = ledger.operations

theorem SameTables.refl {ledger : MainLedger} : SameTables ledger ledger := ⟨rfl, rfl, rfl⟩

theorem SameTables.trans {ledger later last : MainLedger} (h : SameTables ledger later)
    (h' : SameTables later last) : SameTables ledger last :=
  ⟨h'.locations_eq.trans h.locations_eq, h'.mappings_eq.trans h.mappings_eq,
    h'.operations_eq.trans h.operations_eq⟩

theorem SameTables.foldl {α : Type} {f : MainLedger → α → MainLedger}
    (hf : ∀ ledger a, SameTables ledger (f ledger a)) (entries : List α)
    (ledger : MainLedger) : SameTables ledger (entries.foldl f ledger) := by
  induction entries generalizing ledger with
  | nil => exact .refl
  | cons a rest ih => exact (hf ledger a).trans (ih (f ledger a))

namespace SyncRunRecorder

variable {recorder : SyncRunRecorder} {operation : PlanOperation} {ledger later : MainLedger}
  {time : Utc}

theorem sameTables_recordCorrespondence {sourceId targetId : Nat} {source target : FileStat}
    (h : recorder.recordCorrespondence ledger operation sourceId targetId source target time =
      .ok later) : SameTables ledger later := by
  unfold recordCorrespondence at h
  split at h
  · obtain rfl := Except.ok.inj h
    exact .refl
  · dsimp only at h
    split at h
    · obtain rfl := Except.ok.inj h
      exact ⟨rfl, rfl, rfl⟩
    · exact absurd h (by simp)

theorem sameTables_recordCopyLike {attestation : Attestation}
    (h : recorder.recordCopyLike ledger operation attestation time = .ok later) :
    SameTables ledger later := by
  unfold recordCopyLike at h
  dsimp only at h
  split at h
  · split at h
    · exact absurd h (by simp)
    · have hlast := sameTables_recordCorrespondence h
      exact ⟨hlast.locations_eq, hlast.mappings_eq, hlast.operations_eq⟩
  · exact absurd h (by simp)

theorem sameTables_clearDestination (h : recorder.clearDestination ledger operation = .ok later) :
    SameTables ledger later := by
  unfold clearDestination at h
  split at h
  · obtain rfl := Except.ok.inj h
    exact .refl
  · split at h
    · obtain rfl := Except.ok.inj h
      exact .refl
    · split at h
      · exact absurd h (by simp)
      · obtain rfl := Except.ok.inj h
        exact ⟨rfl, rfl, rfl⟩

theorem sameTables_moveRow {id hostId : Nat} {scopeToken : Str} {relPath : RelPath}
    {stat : FileStat} (h : ledger.moveRow id hostId scopeToken relPath stat time = .ok later) :
    SameTables ledger later := by
  unfold MainLedger.moveRow at h
  split at h
  · obtain rfl := Except.ok.inj h
    exact ⟨rfl, rfl, rfl⟩
  · exact absurd h (by simp)

theorem sameTables_moveTargetRow {target : FileStat} {id : Nat}
    (h : recorder.moveTargetRow ledger operation target time = .ok (id, later)) :
    SameTables ledger later := by
  obtain ⟨cleared, hcleared, h⟩ := Checked.bind_eq_ok.1 h
  refine (sameTables_clearDestination hcleared).trans ?_
  split at h
  · exact absurd h (by simp)
  · split at h
    · obtain ⟨rfl, rfl⟩ := Prod.mk.inj (Except.ok.inj h)
      exact ⟨rfl, rfl, rfl⟩
    · obtain ⟨moved, hmoved, h⟩ := Checked.bind_eq_ok.1 h
      obtain ⟨-, rfl⟩ := Prod.mk.inj (Except.ok.inj h)
      exact sameTables_moveRow hmoved

theorem sameTables_attestMove {targetId : Nat} {target : FileStat}
    {attestation : Option Attestation}
    (h : attestMove ledger targetId target attestation = .ok later) : SameTables ledger later := by
  unfold attestMove at h
  split at h
  · obtain rfl := Except.ok.inj h
    exact .refl
  · split at h
    · exact absurd h (by simp)
    · obtain rfl := Except.ok.inj h
      exact ⟨rfl, rfl, rfl⟩

theorem sameTables_recordMove {target : FileStat} {attestation : Option Attestation}
    (h : recorder.recordMove ledger operation target attestation time = .ok later) :
    SameTables ledger later := by
  unfold recordMove at h
  split at h
  · next sourceRelPath sourceExpected _ _ =>
      split at h
      · exact absurd h (by simp)
      · obtain ⟨⟨targetId, moved⟩, hmoved, h⟩ := Checked.bind_eq_ok.1 h
        obtain ⟨attested, hattested, h⟩ := Checked.bind_eq_ok.1 h
        have hobserved : SameTables ledger
            (recorder.observeSource ledger sourceRelPath sourceExpected time).2 := ⟨rfl, rfl, rfl⟩
        exact ((hobserved.trans (sameTables_moveTargetRow hmoved)).trans
          (sameTables_attestMove hattested)).trans (sameTables_recordCorrespondence h)
  · exact absurd h (by simp)

theorem sameTables_recordAbsent {prior : FileStat}
    (h : recorder.recordAbsent ledger operation prior time = .ok later) :
    SameTables ledger later := by
  unfold recordAbsent at h
  split at h
  · exact absurd h (by simp)
  · obtain rfl := Except.ok.inj h
    exact ⟨rfl, rfl, rfl⟩

theorem sameTables_recordMkdir {target : FileStat}
    (h : recorder.recordMkdir ledger operation target time = .ok later) :
    SameTables ledger later := by
  unfold recordMkdir at h
  split at h
  · exact absurd h (by simp)
  · obtain rfl := Except.ok.inj h
    exact ⟨rfl, rfl, rfl⟩

theorem sameTables_recordNoop {source target : FileStat}
    (h : recorder.recordNoop ledger operation source target time = .ok later) :
    SameTables ledger later := by
  unfold recordNoop at h
  split at h
  · exact absurd h (by simp)
  · split at h
    · exact absurd h (by simp)
    · have hlast := sameTables_recordCorrespondence h
      exact ⟨hlast.locations_eq, hlast.mappings_eq, hlast.operations_eq⟩

theorem sameTables_apply {call : RecordCall}
    (h : recorder.apply ledger operation call time = .ok later) : SameTables ledger later := by
  cases call with
  | copied op attestation => exact sameTables_recordCopyLike h
  | updated op attestation => exact sameTables_recordCopyLike h
  | moved op target => exact sameTables_recordMove h
  | recased op target => exact sameTables_recordMove h
  | moveUpdated op attestation => exact sameTables_recordMove h
  | mkdir op target => exact sameTables_recordMkdir h
  | trashed op path target => exact sameTables_recordAbsent h
  | deleted op prior => exact sameTables_recordAbsent h
  | noop op source target => exact sameTables_recordNoop h

end SyncRunRecorder

namespace InventoryCommand

variable (command : InventoryCommand)

theorem sameTables_observeAll (ledger : MainLedger) :
    SameTables ledger (command.observeAll ledger) := by
  refine (SameTables.foldl (f := fun ledger seen => ledger.observe command seen)
    (fun _ _ => ⟨rfl, rfl, rfl⟩) command.scan.observations ledger).trans ?_
  exact SameTables.foldl (f := fun ledger record => ledger.observeUnsupported command record)
    (fun _ _ => ⟨rfl, rfl, rfl⟩) command.scan.unsupported _

theorem sameTables_chunks (chunks : List (List Str)) (missing : Nat) (ledger : MainLedger) :
    SameTables ledger (chunks.foldl (fun (missing, ledger) chunk =>
      (missing + (ledger.sweep command (command.unseenAmong chunk)).1,
        (ledger.sweep command (command.unseenAmong chunk)).2)) (missing, ledger)).2 := by
  induction chunks generalizing missing ledger with
  | nil => exact .refl
  | cons chunk rest ih =>
      have hswept : SameTables ledger (ledger.sweep command (command.unseenAmong chunk)).2 :=
        ⟨rfl, rfl, rfl⟩
      exact hswept.trans (ih _ _)

theorem sameTables_reconcile {ledger later : MainLedger} {counts : Nat × Nat}
    (h : command.reconcile ledger = .ok (counts, later)) : SameTables ledger later := by
  have hobserved := command.sameTables_observeAll ledger
  rcases reconcile_cases h with ⟨-, -, -, rfl⟩ | ⟨-, -, chunks, rfl⟩ | ⟨-, rfl⟩
  · exact hobserved.trans ⟨rfl, rfl, rfl⟩
  · exact hobserved.trans (command.sameTables_chunks chunks 0 _)
  · exact hobserved

end InventoryCommand

theorem sameTables_applyIntegrity (ledger : MainLedger) (command : IntegrityRecordCommand) :
    SameTables ledger (ledger.applyIntegrity command).2 := by
  unfold MainLedger.applyIntegrity
  split
  · exact .refl
  · split
    · exact .refl
    · split
      · exact .refl
      · exact ⟨rfl, rfl, rfl⟩

/-! ## Receipts last

`Lasts` is the order in which a ledger can only grow as far as repetitions are
concerned: a run's row keeps its start and, once it is there, its end, the rows
of `operations` are an initial segment, and no receipt goes. -/

section Rows

omit [Unicode]

/-- A row of `runs` keeps what a repetition compares with. -/
structure RunRow.Lasts (row row' : RunRow) : Prop where
  id_eq : row'.id = row.id
  startedAt_eq : row'.startedAt = row.startedAt
  startPayloadHash_eq : row'.startPayloadHash = row.startPayloadHash
  finished : ∀ hash, row.finishPayloadHash = some hash → row'.finishPayloadHash = some hash

theorem RunRow.Lasts.refl (row : RunRow) : row.Lasts row := ⟨rfl, rfl, rfl, fun _ h => h⟩

end Rows

/-- What no command takes away. -/
structure RunLedger.Lasts (ledger later : RunLedger) : Prop where
  locations_eq : later.main.locations = ledger.main.locations
  mappings_eq : later.main.mappings = ledger.main.mappings
  operations : ledger.main.operations <+: later.main.operations
  receipts : ∀ key receipt, ledger.receipts.get? key = some receipt →
    later.receipts.get? key = some receipt
  runs : ∀ token row, Table.find token ledger.runs = some row →
    ∃ row', Table.find token later.runs = some row' ∧ row.Lasts row'

namespace RunLedger.Lasts

variable {ledger later last : RunLedger}

theorem refl (ledger : RunLedger) : ledger.Lasts ledger where
  locations_eq := rfl
  mappings_eq := rfl
  operations := List.prefix_rfl
  receipts _ _ h := h
  runs _ row h := ⟨row, h, .refl row⟩

/-- A command that leaves the runs alone. -/
theorem of_main (hruns : later.runs = ledger.runs)
    (hlocations : later.main.locations = ledger.main.locations)
    (hmappings : later.main.mappings = ledger.main.mappings)
    (hoperations : ledger.main.operations <+: later.main.operations)
    (hreceipts : ∀ key receipt, ledger.receipts.get? key = some receipt →
      later.receipts.get? key = some receipt) : ledger.Lasts later where
  locations_eq := hlocations
  mappings_eq := hmappings
  operations := hoperations
  receipts := hreceipts
  runs token row hfind := ⟨row, by rw [hruns]; exact hfind, .refl row⟩

/-- The row that answers for an operation still answers for it. -/
theorem find_operation (h : ledger.Lasts later) {p : OperationRow → Bool} {row : OperationRow}
    (hfind : ledger.main.operations.find? p = some row) :
    later.main.operations.find? p = some row := by
  obtain ⟨more, hmore⟩ := h.operations
  rw [← hmore, List.find?_append, hfind]
  rfl

/-- The context of a run is as good as it was. -/
theorem validateRunContext_eq (h : ledger.Lasts later) (command : SyncRunCommand) :
    validateRunContext later.main command = validateRunContext ledger.main command := by
  unfold validateRunContext
  rw [h.locations_eq, h.mappings_eq]

end RunLedger.Lasts

section Lasting

variable [RunHash] {ledger : RunLedger}

/-- A new run is found under its token, and the others as before. -/
theorem find_insertRun (command : SyncRunCommand) (token : Str) :
    Table.find token (ledger.insertRun command).runs =
      if token = command.runToken then
        some (Table.upserted command.runToken (startedRow command) (fun row => row) ledger.runs)
      else Table.find token ledger.runs := by
  have hinsert : ∀ n, Table.Record.rowId (startedRow command n) = n ∧
      Table.Record.key (startedRow command n) = command.runToken := fun _ => ⟨rfl, rfl⟩
  exact Table.find_upsert ledger.runs_keyed hinsert (fun _ hkey => ⟨rfl, hkey⟩) token

/-- A run that is begun takes nothing away, since its token was not in use. -/
theorem lasts_insertRun {command : SyncRunCommand}
    (hfresh : Table.find command.runToken ledger.runs = none) :
    ledger.Lasts (ledger.insertRun command) where
  locations_eq := rfl
  mappings_eq := rfl
  operations := List.prefix_rfl
  receipts _ _ h := h
  runs token row hfind := by
    refine ⟨row, ?_, .refl row⟩
    rw [find_insertRun, if_neg, hfind]
    rintro rfl
    rw [hfresh] at hfind
    cases hfind

/-- The end is written into the run's own row. -/
theorem find_closeRun {command : FinishRunCommand} {token : Str} :
    Table.find token (ledger.closeRun command).runs =
      (Table.find token ledger.runs).map fun row =>
        if row.runToken = command.runToken then finishedRow command row else row :=
  Table.find_change fun _ => rfl

/-- Nor does one that is finished, since it had no end before. -/
theorem lasts_closeRun {command : FinishRunCommand} {row : RunRow}
    (hrow : Table.find command.runToken ledger.runs = some row)
    (hopen : row.finishPayloadHash = none) : ledger.Lasts (ledger.closeRun command) where
  locations_eq := rfl
  mappings_eq := rfl
  operations := List.prefix_rfl
  receipts _ _ h := h
  runs token other hfind := by
    rw [find_closeRun, hfind]
    refine ⟨_, rfl, ?_⟩
    dsimp only
    split
    · next htoken =>
        have hother := (Table.find_eq_some ledger.runs_keyed).1 hfind
        obtain rfl : other = row := ledger.runs_keyed.eq_of_key hother.1
          ((Table.find_eq_some ledger.runs_keyed).1 hrow).1
          (htoken.trans ((Table.find_eq_some ledger.runs_keyed).1 hrow).2.symm)
        exact ⟨rfl, rfl, rfl, fun hash hhash => by rw [hopen] at hhash; cases hhash⟩
    · exact .refl other

/-! ## What a command does

Each family is brought to the same three answers before anything is said about
repetitions: the command raises, it finds its receipt, or it leaves one. -/

/-- `begin_sync_run` raises, finds its run, or starts it. -/
theorem beginSyncRun_outcome (command : SyncRunCommand) (ledger : RunLedger) :
    (∃ error, beginSyncRun command ledger = (.error error, ledger)) ∨
    validateRunContext ledger.main command = .ok () ∧
      ((∃ row, Table.find command.runToken ledger.runs = some row ∧
          row.startPayloadHash = RunHash.start command ∧
          beginSyncRun command ledger = (.ok ⟨command, row.id⟩, ledger)) ∨
        Table.find command.runToken ledger.runs = none ∧
          beginSyncRun command ledger =
            (.ok ⟨command, Table.freshId ledger.runs⟩, ledger.insertRun command)) := by
  unfold beginSyncRun
  dsimp only
  split
  · exact Or.inl ⟨_, rfl⟩
  · next hvalid =>
      split
      · next row hrow =>
          split
          · exact Or.inl ⟨_, rfl⟩
          · next hhash => exact Or.inr ⟨hvalid, Or.inl ⟨row, hrow, not_not.1 hhash, rfl⟩⟩
      · next hfresh =>
          split
          · exact Or.inl ⟨_, rfl⟩
          · exact Or.inr ⟨hvalid, Or.inr ⟨hfresh, rfl⟩⟩

/-- `finish_run` raises, finds the run finished, or finishes it. -/
theorem finishRun_outcome (command : FinishRunCommand) (ledger : RunLedger) :
    (∃ error, finishRun command ledger = (.error error, ledger)) ∨
    ∃ row, Table.find command.runToken ledger.runs = some row ∧
      ¬ command.endedAt < row.startedAt ∧
      (row.finishPayloadHash = some (RunHash.finish command) ∧
          finishRun command ledger = (.ok .noop, ledger) ∨
        row.finishPayloadHash = none ∧
          finishRun command ledger = (.ok .applied, ledger.closeRun command)) := by
  unfold finishRun
  dsimp only
  split
  · exact Or.inl ⟨_, rfl⟩
  · next row hrow =>
      split
      · exact Or.inl ⟨_, rfl⟩
      · next hend =>
          split
          · next prior hprior =>
              split
              · exact Or.inl ⟨_, rfl⟩
              · next hhash =>
                  exact Or.inr ⟨row, hrow, hend,
                    Or.inl ⟨hprior.trans (by rw [not_not.1 hhash]), rfl⟩⟩
          · next hopen => exact Or.inr ⟨row, hrow, hend, Or.inr ⟨hopen, rfl⟩⟩

end Lasting

omit [Unicode] in
/-- A receipt is written where there is none. -/
theorem receipts_set {receipts : Dict Str CommandReceipt} {key : Str} {new : CommandReceipt}
    (hfresh : receipts.get? key = none) :
    ∀ other receipt, receipts.get? other = some receipt →
      (receipts.set key new).get? other = some receipt := by
  intro other receipt hget
  rw [Dict.get?_set_ne receipts new, hget]
  rintro rfl
  rw [hfresh] at hget
  cases hget

/-- A command with a receipt raises, which it does not where it finds its own,
or finds its own, or leaves it. -/
def Receipting {α : Type} (key : Str) (hash : List UInt8) (ledger : IntegrityLedger)
    (outcome : Except Str α × IntegrityLedger) : Prop :=
  (∃ error, (∀ receipt, ledger.receipts.get? key = some receipt → receipt.payloadHash ≠ hash) ∧
    outcome = (.error error, ledger)) ∨
  (∃ receipt result, ledger.receipts.get? key = some receipt ∧ receipt.payloadHash = hash ∧
    outcome = (.ok result, ledger)) ∨
  ledger.receipts.get? key = none ∧ ∃ result main receipt, SameTables ledger.main main ∧
    receipt.payloadHash = hash ∧
    outcome = (.ok result, ⟨main, ledger.receipts.set key receipt⟩)

theorem recordInventory_outcome [InventoryHash] {command : InventoryCommand}
    (honline : command.online = true) (ledger : IntegrityLedger) :
    Receipting command.commandKey (InventoryHash.inventory command) ledger
      (recordInventory command ledger) := by
  unfold recordInventory
  rw [honline, if_neg (by simp)]
  dsimp only
  split
  · next receipt hreceipt =>
      split
      · next hhash =>
          exact Or.inl ⟨_, fun _ h => Option.some.inj (hreceipt.symm.trans h) ▸ hhash, rfl⟩
      · next hhash =>
          split
          · exact Or.inr (Or.inl ⟨receipt, _, hreceipt, not_not.1 hhash, rfl⟩)
          · exact Or.inr (Or.inl ⟨receipt, _, hreceipt, not_not.1 hhash, rfl⟩)
  · next hfresh =>
      have hnone : ∀ receipt, ledger.receipts.get? command.commandKey = some receipt →
          receipt.payloadHash ≠ InventoryHash.inventory command := by
        intro receipt h
        rw [hfresh] at h
        cases h
      split
      · exact Or.inl ⟨_, hnone, rfl⟩
      · split
        · exact Or.inl ⟨_, hnone, rfl⟩
        · next hreconcile =>
            exact Or.inr (Or.inr ⟨hfresh, _, _, _,
              InventoryCommand.sameTables_reconcile command hreconcile, rfl, rfl⟩)

theorem recordIntegrity_outcome [CommandHash] (command : IntegrityRecordCommand)
    (ledger : IntegrityLedger) :
    Receipting command.commandKey (CommandHash.integrity command) ledger
      (recordIntegrity command ledger) := by
  unfold recordIntegrity
  dsimp only
  split
  · next receipt hreceipt =>
      split
      · next hhash =>
          exact Or.inl ⟨_, fun _ h => Option.some.inj (hreceipt.symm.trans h) ▸ hhash, rfl⟩
      · next hhash =>
          split
          · exact Or.inr (Or.inl ⟨receipt, _, hreceipt, not_not.1 hhash, rfl⟩)
          · exact Or.inr (Or.inl ⟨receipt, _, hreceipt, not_not.1 hhash, rfl⟩)
  · next hfresh =>
      exact Or.inr (Or.inr
        ⟨hfresh, _, _, _, sameTables_applyIntegrity ledger.main command, rfl, rfl⟩)

section Receipting

variable {α : Type} {key : Str} {hash : List UInt8} {ledger : IntegrityLedger}
  {outcome : Except Str α × IntegrityLedger} {receipt : CommandReceipt}

/-- The own receipt: nothing happens. -/
theorem Receipting.repeats (h : Receipting key hash ledger outcome)
    (hreceipt : ledger.receipts.get? key = some receipt) (hhash : receipt.payloadHash = hash) :
    ∃ result, outcome = (.ok result, ledger) := by
  rcases h with ⟨error, hnone, -⟩ | ⟨_, result, -, -, h⟩ | ⟨hfresh, -⟩
  · exact absurd hhash (hnone receipt hreceipt)
  · exact ⟨result, h⟩
  · rw [hfresh] at hreceipt
    cases hreceipt

/-- The receipt of another payload: it raises. -/
theorem Receipting.refuses (h : Receipting key hash ledger outcome)
    (hreceipt : ledger.receipts.get? key = some receipt) (hhash : receipt.payloadHash ≠ hash) :
    ∃ error, outcome = (.error error, ledger) := by
  rcases h with ⟨error, -, h⟩ | ⟨other, -, hother, hsame, -⟩ | ⟨hfresh, -⟩
  · exact ⟨error, h⟩
  · rw [hreceipt] at hother
    exact absurd (Option.some.inj hother ▸ hsame) hhash
  · rw [hfresh] at hreceipt
    cases hreceipt

end Receipting

/-- What a command with a receipt leaves. -/
theorem lasts_receipting {α : Type} {ledger : RunLedger} {key : Str} {hash : List UInt8}
    {outcome : Except Str α × IntegrityLedger}
    (h : Receipting key hash ledger.toIntegrityLedger outcome) :
    ledger.Lasts { ledger with toIntegrityLedger := outcome.2 } ∧
      ((∃ error, outcome = (.error error, ledger.toIntegrityLedger)) ∨
        ∃ result receipt, outcome.1 = .ok result ∧
          outcome.2.receipts.get? key = some receipt ∧ receipt.payloadHash = hash) := by
  rcases h with ⟨error, -, rfl⟩ | ⟨receipt, result, hreceipt, hhash, rfl⟩ |
    ⟨hfresh, result, main, receipt, hsame, hhash, rfl⟩
  · exact ⟨.refl ledger, Or.inl ⟨error, rfl⟩⟩
  · exact ⟨.refl ledger, Or.inr ⟨result, receipt, rfl, hreceipt, hhash⟩⟩
  · exact ⟨.of_main rfl hsame.locations_eq hsame.mappings_eq
      (hsame.operations_eq ▸ List.prefix_rfl) (receipts_set hfresh),
      Or.inr ⟨result, receipt, rfl, Dict.get?_set_self _ _ _, hhash⟩⟩

/-! ## The receipt of a command

`Receipted` says for each family where the receipt stands and what it holds.
That it lasts, that it is left by a success, and that it makes a repetition
answer without a change are the three facts behind the result. -/

namespace LedgerCommand

variable [PayloadHash] [CommandHash] [InventoryHash] [RunHash]

/-- The ledger holds what a repetition of the command looks for. -/
def Receipted (ledger : RunLedger) : LedgerCommand → Prop
  | beginSyncRun command =>
      validateRunContext ledger.main command = .ok () ∧
        ∃ row, Table.find command.runToken ledger.runs = some row ∧
          row.startPayloadHash = RunHash.start command
  | record recorder call =>
      call.op ∈ recorder.command.selection ∧ ∃ operation,
        recorder.command.plan.operations.find? (·.opId = call.op) = some operation ∧
        operation.kind = call.kind ∧ ∃ prior, ledger.main.operations.find? (fun prior =>
            prior.runId = recorder.runRowId ∧ prior.opToken = call.op) = some prior ∧
          prior.payloadHash = PayloadHash.call recorder.command.runToken operation call
  | finishRun command =>
      ∃ row, Table.find command.runToken ledger.runs = some row ∧
        ¬ command.endedAt < row.startedAt ∧
        row.finishPayloadHash = some (RunHash.finish command)
  | recordInventory command _ =>
      ∃ receipt, ledger.receipts.get? command.commandKey = some receipt ∧
        receipt.payloadHash = InventoryHash.inventory command
  | recordIntegrity command =>
      ∃ receipt, ledger.receipts.get? command.commandKey = some receipt ∧
        receipt.payloadHash = CommandHash.integrity command

variable {ledger later : RunLedger} {command : LedgerCommand} {now : Utc} {reply : Reply}

/-- It holds it from then on. -/
theorem Receipted.lasts (h : command.Receipted ledger) (hlasts : ledger.Lasts later) :
    command.Receipted later := by
  cases command with
  | beginSyncRun command =>
      obtain ⟨hvalid, row, hrow, hhash⟩ := h
      obtain ⟨row', hrow', hsame⟩ := hlasts.runs _ row hrow
      exact ⟨(hlasts.validateRunContext_eq command).trans hvalid, row', hrow',
        hsame.startPayloadHash_eq.trans hhash⟩
  | record recorder call =>
      obtain ⟨hselected, operation, hfind, hkind, prior, hprior, hhash⟩ := h
      exact ⟨hselected, operation, hfind, hkind, prior, hlasts.find_operation hprior, hhash⟩
  | finishRun command =>
      obtain ⟨row, hrow, hend, hhash⟩ := h
      obtain ⟨row', hrow', hsame⟩ := hlasts.runs _ row hrow
      exact ⟨row', hrow', by rw [hsame.startedAt_eq]; exact hend, hsame.finished _ hhash⟩
  | recordInventory command online =>
      obtain ⟨receipt, hreceipt, hhash⟩ := h
      exact ⟨receipt, hlasts.receipts _ receipt hreceipt, hhash⟩
  | recordIntegrity command =>
      obtain ⟨receipt, hreceipt, hhash⟩ := h
      exact ⟨receipt, hlasts.receipts _ receipt hreceipt, hhash⟩

/-- What a call of a run leaves. -/
theorem lasts_record {recorder : SyncRunRecorder} {call : RecordCall} {main : MainLedger}
    (h : recorder.record ledger.main call now = .ok main) :
    ledger.Lasts { ledger with main := main } ∧
      (record recorder call).Receipted { ledger with main := main } := by
  obtain ⟨hselected, operation, hfind, hkind, hcases⟩ := SyncRunRecorder.record_outcome h
  rcases hcases with ⟨prior, hprior, hhash, rfl⟩ | ⟨hnone, applied, happlied, rfl⟩
  · exact ⟨.refl ledger, hselected, operation, hfind, hkind, prior, hprior, hhash⟩
  · have hsame := SyncRunRecorder.sameTables_apply happlied
    refine ⟨.of_main rfl hsame.locations_eq hsame.mappings_eq ?_ fun _ _ h => h,
      hselected, operation, hfind, hkind, recorder.operationRow operation call now, ?_, rfl⟩
    · exact hsame.operations_eq ▸ List.prefix_append _ _
    · show (applied.operations ++ [_]).find? _ = _
      rw [hsame.operations_eq, List.find?_append, hnone]
      simp [SyncRunRecorder.operationRow]

/-- A command raises and leaves the ledger as it was, or takes nothing away
and leaves its receipt. -/
theorem send_outcome (command : LedgerCommand) (now : Utc) (ledger : RunLedger) :
    (∃ error, command.send now ledger = (.error error, ledger)) ∨
    ∃ reply later, command.send now ledger = (.ok reply, later) ∧ ledger.Lasts later ∧
      command.Receipted later := by
  cases command with
  | beginSyncRun command =>
      rcases beginSyncRun_outcome command ledger with ⟨error, h⟩ |
        ⟨hvalid, ⟨row, hrow, hhash, h⟩ | ⟨hfresh, h⟩⟩
      · exact Or.inl ⟨error, by simp only [send, h]; rfl⟩
      · exact Or.inr ⟨_, _, by simp only [send, h]; rfl, .refl ledger, hvalid, row, hrow, hhash⟩
      · have hlasts := lasts_insertRun hfresh
        refine Or.inr ⟨_, _, by simp only [send, h]; rfl, hlasts, ?_,
          startedRow command (Table.freshId ledger.runs), ?_, rfl⟩
        · rw [hlasts.validateRunContext_eq, hvalid]
        · rw [find_insertRun, if_pos rfl, Table.upserted, hfresh]
  | record recorder call =>
      cases h : recorder.record ledger.main call now with
      | error error => exact Or.inl ⟨.recording error, by simp only [send, h]⟩
      | ok main =>
          obtain ⟨hlasts, hreceipted⟩ := lasts_record h
          exact Or.inr ⟨.recorded, _, by simp only [send, h], hlasts, hreceipted⟩
  | finishRun command =>
      rcases finishRun_outcome command ledger with ⟨error, h⟩ |
        ⟨row, hrow, hend, ⟨hhash, h⟩ | ⟨hopen, h⟩⟩
      · exact Or.inl ⟨error, by simp only [send, h]; rfl⟩
      · exact Or.inr ⟨_, _, by simp only [send, h]; rfl, .refl ledger, row, hrow, hend, hhash⟩
      · have hkey : row.runToken = command.runToken :=
          ((Table.find_eq_some ledger.runs_keyed).1 hrow).2
        refine Or.inr ⟨_, _, by simp only [send, h]; rfl, lasts_closeRun hrow hopen,
          finishedRow command row, ?_, hend, rfl⟩
        rw [find_closeRun, hrow, Option.map_some, if_pos hkey]
  | recordInventory command online =>
      obtain ⟨hlasts, hcases⟩ := lasts_receipting (recordInventory_outcome online
        ledger.toIntegrityLedger)
      rcases hcases with ⟨error, h⟩ | ⟨result, receipt, h, hreceipt⟩
      · exact Or.inl ⟨.raised error, by simp only [send, h]; rfl⟩
      · exact Or.inr ⟨.reconciled result, _, by simp only [send, h]; rfl, hlasts, receipt, hreceipt⟩
  | recordIntegrity command =>
      obtain ⟨hlasts, hcases⟩ := lasts_receipting (recordIntegrity_outcome command
        ledger.toIntegrityLedger)
      rcases hcases with ⟨error, h⟩ | ⟨result, receipt, h, hreceipt⟩
      · exact Or.inl ⟨.raised error, by simp only [send, h]; rfl⟩
      · exact Or.inr ⟨.disposition result, _, by simp only [send, h]; rfl, hlasts, receipt,
          hreceipt⟩

/-- A command with its receipt changes nothing. -/
theorem Receipted.repeats (h : command.Receipted ledger) :
    ∃ reply, command.send now ledger = (.ok reply, ledger) := by
  cases command with
  | beginSyncRun command =>
      obtain ⟨hvalid, row, hrow, hhash⟩ := h
      refine ⟨.recorder ⟨command, row.id⟩, ?_⟩
      simp only [send, NamiSync.beginSyncRun, hvalid, hrow, hhash, ne_eq, not_true_eq_false,
        if_false]
      rfl
  | record recorder call =>
      obtain ⟨hselected, operation, hfind, hkind, prior, hprior, hhash⟩ := h
      refine ⟨.recorded, ?_⟩
      have hrecord : recorder.record ledger.main call now = .ok ledger.main := by
        unfold SyncRunRecorder.record
        rw [if_neg (not_not.2 hselected), hfind]
        dsimp only
        rw [if_neg (not_not.2 hkind), hprior]
        exact if_neg (not_not.2 hhash)
      simp only [send, hrecord]
  | finishRun command =>
      obtain ⟨row, hrow, hend, hhash⟩ := h
      refine ⟨.disposition .noop, ?_⟩
      simp only [send, NamiSync.finishRun, hrow, hend, hhash, ne_eq, not_true_eq_false, if_false]
      rfl
  | recordInventory command online =>
      obtain ⟨receipt, hreceipt, hhash⟩ := h
      obtain ⟨result, h⟩ := (recordInventory_outcome online _).repeats hreceipt hhash
      exact ⟨.reconciled result, by simp only [send, h]; rfl⟩
  | recordIntegrity command =>
      obtain ⟨receipt, hreceipt, hhash⟩ := h
      obtain ⟨result, h⟩ := (recordIntegrity_outcome command _).repeats hreceipt hhash
      exact ⟨.disposition result, by simp only [send, h]; rfl⟩

end LedgerCommand

/-! ## Another payload

A repetition is told from another command by the hash of its payload.  The one
hypothesis is that no two payloads of the run collide; with it, a receipt under
the same token and another payload makes the command raise. -/

/-- No two payloads that are sent have one hash; a set of the source is a list
in one order. -/
structure CollisionFree [PayloadHash] [CommandHash] [InventoryHash] [RunHash]
    (sent : List LedgerCommand) : Prop where
  start : ∀ command command', .beginSyncRun command ∈ sent → .beginSyncRun command' ∈ sent →
    RunHash.start command = RunHash.start command' → command = command'
  call : ∀ recorder call call', .record recorder call ∈ sent → .record recorder call' ∈ sent →
    ∀ operation ∈ recorder.command.plan.operations, operation.opId = call.op →
      operation.opId = call'.op → operation.kind = call.kind → operation.kind = call'.kind →
      PayloadHash.call recorder.command.runToken operation call =
        PayloadHash.call recorder.command.runToken operation call' → call = call'
  finish : ∀ command command', .finishRun command ∈ sent → .finishRun command' ∈ sent →
    RunHash.finish command = RunHash.finish command' → command = command'
  inventory : ∀ command online command' online', .recordInventory command online ∈ sent →
    .recordInventory command' online' ∈ sent →
    InventoryHash.inventory command = InventoryHash.inventory command' → command = command'
  integrity : ∀ command command', .recordIntegrity command ∈ sent →
    .recordIntegrity command' ∈ sent →
    CommandHash.integrity command = CommandHash.integrity command' → command = command'

namespace LedgerCommand

variable [PayloadHash] [CommandHash] [InventoryHash] [RunHash] {ledger : RunLedger}
  {sent : List LedgerCommand} {now : Utc}

theorem refuses_beginSyncRun {first again : SyncRunCommand} (hfree : CollisionFree sent)
    (hfirst : .beginSyncRun first ∈ sent) (hagain : .beginSyncRun again ∈ sent)
    (h : (beginSyncRun first).Receipted ledger) (htoken : again.runToken = first.runToken)
    (hne : again ≠ first) :
    ∃ error, (beginSyncRun again).send now ledger = (.error error, ledger) := by
  obtain ⟨-, row, hrow, hhash⟩ := h
  rcases beginSyncRun_outcome again ledger with ⟨error, h⟩ |
    ⟨-, ⟨row', hrow', hhash', -⟩ | ⟨hfresh, -⟩⟩
  · exact ⟨error, by simp only [send, h]; rfl⟩
  · rw [htoken, hrow] at hrow'
    obtain rfl := Option.some.inj hrow'
    exact absurd (hfree.start _ _ hagain hfirst (hhash'.symm.trans hhash)) hne
  · rw [htoken, hrow] at hfresh
    cases hfresh

theorem refuses_record {recorder : SyncRunRecorder} {first again : RecordCall}
    (hfree : CollisionFree sent) (hfirst : .record recorder first ∈ sent)
    (hagain : .record recorder again ∈ sent) (h : (record recorder first).Receipted ledger)
    (hop : again.op = first.op) (hne : again ≠ first) :
    ∃ error, (record recorder again).send now ledger = (.error error, ledger) := by
  obtain ⟨-, operation, hfind, hkind, prior, hprior, hhash⟩ := h
  cases hrecord : recorder.record ledger.main again now with
  | error error => exact ⟨.recording error, by simp only [send, hrecord]⟩
  | ok main =>
      obtain ⟨-, operation', hfind', hkind', hcases⟩ := SyncRunRecorder.record_outcome hrecord
      rw [hop, hfind] at hfind'
      obtain rfl := Option.some.inj hfind'
      have hid : operation.opId = first.op := by simpa using List.find?_some hfind
      rw [hop, hprior] at hcases
      rcases hcases with ⟨_, hsame, hhash', -⟩ | ⟨hnone, -⟩
      · obtain rfl := Option.some.inj hsame
        exact absurd (hfree.call recorder again first hagain hfirst operation
          (List.mem_of_find?_eq_some hfind) (hid.trans hop.symm) hid hkind' hkind
          (hhash'.symm.trans hhash)) hne
      · cases hnone

theorem refuses_finishRun {first again : FinishRunCommand} (hfree : CollisionFree sent)
    (hfirst : .finishRun first ∈ sent) (hagain : .finishRun again ∈ sent)
    (h : (finishRun first).Receipted ledger) (htoken : again.runToken = first.runToken)
    (hne : again ≠ first) :
    ∃ error, (finishRun again).send now ledger = (.error error, ledger) := by
  obtain ⟨row, hrow, -, hhash⟩ := h
  rcases finishRun_outcome again ledger with ⟨error, h⟩ |
    ⟨row', hrow', -, ⟨hhash', -⟩ | ⟨hopen, -⟩⟩
  · exact ⟨error, by simp only [send, h]; rfl⟩
  · rw [htoken, hrow] at hrow'
    obtain rfl := Option.some.inj hrow'
    exact absurd (hfree.finish _ _ hagain hfirst
      (Option.some.inj (hhash'.symm.trans hhash))) hne
  · rw [htoken, hrow] at hrow'
    obtain rfl := Option.some.inj hrow'
    rw [hhash] at hopen
    cases hopen

theorem refuses_recordInventory {first again : InventoryCommand} {online : first.online = true}
    {online' : again.online = true} (hfree : CollisionFree sent)
    (hfirst : .recordInventory first online ∈ sent) (hagain : .recordInventory again online' ∈ sent)
    (h : (recordInventory first online).Receipted ledger)
    (htoken : (recordInventory again online').token = (recordInventory first online).token)
    (hne : again ≠ first) :
    ∃ error, (recordInventory again online').send now ledger = (.error error, ledger) := by
  obtain ⟨receipt, hreceipt, hhash⟩ := h
  obtain ⟨hlocation, hscope⟩ := CommandToken.inventory.inj htoken
  have hkey : first.commandKey = again.commandKey := by
    unfold InventoryCommand.commandKey
    rw [hlocation, hscope]
  rw [hkey] at hreceipt
  obtain ⟨error, h⟩ := (recordInventory_outcome online' _).refuses hreceipt fun hsame =>
    hne (hfree.inventory _ _ _ _ hagain hfirst (hsame.symm.trans hhash))
  exact ⟨.raised error, by simp only [send, h]; rfl⟩

theorem refuses_recordIntegrity {first again : IntegrityRecordCommand} (hfree : CollisionFree sent)
    (hfirst : .recordIntegrity first ∈ sent) (hagain : .recordIntegrity again ∈ sent)
    (h : (recordIntegrity first).Receipted ledger)
    (htoken : (recordIntegrity again).token = (recordIntegrity first).token)
    (hne : again ≠ first) :
    ∃ error, (recordIntegrity again).send now ledger = (.error error, ledger) := by
  obtain ⟨receipt, hreceipt, hhash⟩ := h
  obtain ⟨hscope, hitem⟩ := CommandToken.integrity.inj htoken
  have hkey : first.commandKey = again.commandKey := by
    unfold IntegrityRecordCommand.commandKey
    rw [hscope, hitem]
  rw [hkey] at hreceipt
  obtain ⟨error, h⟩ := (recordIntegrity_outcome again _).refuses hreceipt fun hsame =>
    hne (hfree.integrity _ _ hagain hfirst (hsame.symm.trans hhash))
  exact ⟨.raised error, by simp only [send, h]; rfl⟩

end LedgerCommand

/-! ## Runs

The recorders that a run hands out belong to rows of `runs`; `Accounted` is
this together with the receipts of everything that has succeeded so far.  It is
kept by a step, hence along a run, and a repetition at any later time meets the
receipt of its first sending. -/

namespace Recording

variable [PayloadHash] [CommandHash] [InventoryHash] [RunHash]

/-- A recorder is that of a run in the ledger which was begun with its
command. -/
def Opened (ledger : RunLedger)
    (trace : List (LedgerCommand × Except CommandError Reply)) (recorder : SyncRunRecorder) :
    Prop :=
  (∃ reply, (.beginSyncRun recorder.command, reply) ∈ trace) ∧
    ∃ row, Table.find recorder.command.runToken ledger.runs = some row ∧
      row.id = recorder.runRowId ∧ row.startPayloadHash = RunHash.start recorder.command

/-- What holds after every command. -/
structure Accounted (recording : Recording)
    (trace : List (LedgerCommand × Except CommandError Reply)) : Prop where
  receipted : ∀ command reply, (command, .ok reply) ∈ trace → command.Receipted recording.ledger
  opened : ∀ recorder ∈ recording.recorders, Opened recording.ledger trace recorder
  issued : ∀ recorder call reply, (.record recorder call, reply) ∈ trace →
    recorder ∈ recording.recorders

omit [PayloadHash] [CommandHash] [InventoryHash] [RunHash] in
theorem handedOut_map {α : Type} {outcome : Except CommandError α} {f : α → Reply}
    (hf : ∀ a, handedOut (.ok (f a)) = []) : handedOut (outcome.map f) = [] := by
  cases outcome with
  | error error => rfl
  | ok result => exact hf result

/-- A recorder that is handed out is opened. -/
theorem opened_of_handedOut {ledger later : RunLedger} {command : LedgerCommand} {now : Utc}
    {reply : Except CommandError Reply} (h : command.send now ledger = (reply, later))
    {recorder : SyncRunRecorder} (hmem : recorder ∈ handedOut reply) :
    command = .beginSyncRun recorder.command ∧
      ∃ row, Table.find recorder.command.runToken later.runs = some row ∧
        row.id = recorder.runRowId ∧ row.startPayloadHash = RunHash.start recorder.command := by
  cases command with
  | beginSyncRun command =>
      rcases beginSyncRun_outcome command ledger with ⟨error, hbegin⟩ |
        ⟨-, ⟨row, hrow, hhash, hbegin⟩ | ⟨hfresh, hbegin⟩⟩ <;>
        simp only [LedgerCommand.send, hbegin] at h <;>
        obtain ⟨rfl, rfl⟩ := Prod.mk.inj h
      · cases hmem
      · obtain rfl := List.mem_singleton.1 hmem
        exact ⟨rfl, row, hrow, rfl, hhash⟩
      · obtain rfl := List.mem_singleton.1 hmem
        refine ⟨rfl, startedRow command (Table.freshId ledger.runs), ?_, rfl, rfl⟩
        rw [find_insertRun, if_pos rfl, Table.upserted, hfresh]
  | record recorder call =>
      simp only [LedgerCommand.send] at h
      split at h <;> obtain ⟨rfl, rfl⟩ := Prod.mk.inj h <;> cases hmem
  | finishRun command =>
      obtain ⟨rfl, -⟩ := Prod.mk.inj h
      rw [handedOut_map fun _ => rfl] at hmem
      cases hmem
  | recordInventory command online =>
      obtain ⟨rfl, -⟩ := Prod.mk.inj h
      rw [handedOut_map fun _ => rfl] at hmem
      cases hmem
  | recordIntegrity command =>
      obtain ⟨rfl, -⟩ := Prod.mk.inj h
      rw [handedOut_map fun _ => rfl] at hmem
      cases hmem

/-- A step keeps the account: what is in the trace has left its receipt. -/
theorem accounted_step {recording later : Recording}
    {trace : List (LedgerCommand × Except CommandError Reply)} {sent : LedgerCommand × Utc}
    (h : recording.Accounted trace) (hstep : recording.step sent = some later) :
    later.Accounted (trace ++ recording.replies sent) := by
  obtain ⟨command, now⟩ := sent
  unfold step at hstep
  split at hstep
  · next hissued =>
      cases hsend : command.send now recording.ledger with
      | mk reply ledger =>
          have hreplies : recording.replies (command, now) = [(command, reply)] := by
            unfold replies
            rw [hsend]
          have hlasts : recording.ledger.Lasts ledger := by
            rcases command.send_outcome now recording.ledger with ⟨_, h⟩ | ⟨_, _, h, hlasts, -⟩ <;>
              obtain ⟨rfl, rfl⟩ := Prod.mk.inj (hsend.symm.trans h)
            · exact .refl _
            · exact hlasts
          rw [hsend] at hstep
          obtain rfl := Option.some.inj hstep
          rw [hreplies]
          constructor
          · intro other otherReply hmem
            rcases List.mem_append.1 hmem with hmem | hmem
            · exact (h.receipted other otherReply hmem).lasts hlasts
            · obtain ⟨rfl, rfl⟩ := Prod.mk.inj (List.mem_singleton.1 hmem)
              rcases other.send_outcome now recording.ledger with ⟨_, h⟩ | ⟨_, _, h, -, hreceipted⟩
              · cases (Prod.mk.inj (hsend.symm.trans h)).1
              · obtain ⟨-, rfl⟩ := Prod.mk.inj (hsend.symm.trans h)
                exact hreceipted
          · intro recorder hmem
            rcases List.mem_append.1 hmem with hmem | hmem
            · obtain ⟨rfl, hrow⟩ := opened_of_handedOut hsend hmem
              exact ⟨⟨reply, List.mem_append_right _ List.mem_cons_self⟩, hrow⟩
            · obtain ⟨⟨begun, hbegun⟩, row, hrow, hid, hhash⟩ := h.opened recorder hmem
              obtain ⟨row', hrow', hsame⟩ := hlasts.runs _ row hrow
              exact ⟨⟨begun, List.mem_append_left _ hbegun⟩, row', hrow', hsame.id_eq.trans hid,
                hsame.startPayloadHash_eq.trans hhash⟩
          · intro recorder call otherReply hmem
            refine List.mem_append_right _ ?_
            rcases List.mem_append.1 hmem with hmem | hmem
            · exact h.issued recorder call otherReply hmem
            · obtain ⟨rfl, -⟩ := Prod.mk.inj (List.mem_singleton.1 hmem)
              exact hissued
  · cases hstep

/-- Two recorders of one run are one. -/
theorem Opened.unique {ledger : RunLedger}
    {trace : List (LedgerCommand × Except CommandError Reply)} {first again : SyncRunRecorder}
    {sent : List LedgerCommand} (hfree : CollisionFree sent)
    (hsent : ∀ entry ∈ trace, entry.1 ∈ sent) (hfirst : Opened ledger trace first)
    (hagain : Opened ledger trace again)
    (htoken : again.command.runToken = first.command.runToken) : again = first := by
  obtain ⟨⟨_, hbegun⟩, row, hrow, hid, hhash⟩ := hfirst
  obtain ⟨⟨_, hbegun'⟩, row', hrow', hid', hhash'⟩ := hagain
  rw [htoken, hrow] at hrow'
  obtain rfl := Option.some.inj hrow'
  have hcommand : again.command = first.command :=
    hfree.start _ _ (hsent _ hbegun') (hsent _ hbegun) (hhash'.symm.trans hhash)
  cases first
  cases again
  simp only at hid hid' hcommand
  rw [hcommand, ← hid, ← hid']

/-- The trace names the commands. -/
theorem commands_of_exec {recording later : Recording} {sent : List (LedgerCommand × Utc)}
    (h : exec step recording sent = some later) :
    (execTrace step replies recording sent).map Prod.fst = sent.map Prod.fst := by
  induction sent generalizing recording with
  | nil => rfl
  | cons first rest ih =>
      simp only [exec] at h
      cases hstep : recording.step first with
      | none => simp [hstep] at h
      | some next =>
          rw [hstep] at h
          simp only [execTrace, hstep, List.map_append, ih h]
          rfl

end Recording

/-- A command that has succeeded can be sent again at any later time: it
succeeds and changes nothing.  Another command with its token raises and
changes nothing. -/
theorem commands_idempotent [PayloadHash] [CommandHash] [InventoryHash] [RunHash]
    {start : RunLedger} {recording : Recording}
    {trace : List (LedgerCommand × Except CommandError Reply)}
    (hrun : Traced Recording.step Recording.replies { ledger := start } trace recording)
    {first again : LedgerCommand} {reply : Reply} (hfirst : (first, .ok reply) ∈ trace)
    (hissued : recording.Issued again) (htoken : again.token = first.token)
    (hfree : CollisionFree (again :: trace.map Prod.fst)) (now : Utc) :
    (again = first →
      ∃ reply, again.send now recording.ledger = (.ok reply, recording.ledger)) ∧
    (again ≠ first →
      ∃ error, again.send now recording.ledger = (.error error, recording.ledger)) := by
  have haccounted : recording.Accounted trace :=
    hrun.invariant (fun _ _ _ _ h hstep => Recording.accounted_step h hstep)
      ⟨fun _ _ h => (List.not_mem_nil h).elim, fun _ h => (List.not_mem_nil h).elim,
        fun _ _ _ h => (List.not_mem_nil h).elim⟩
  have hreceipted := haccounted.receipted first reply hfirst
  have hsent : ∀ entry ∈ trace, entry.1 ∈ again :: trace.map Prod.fst := fun entry hmem =>
    List.mem_cons_of_mem _ (List.mem_map_of_mem hmem)
  have hfirst' := hsent _ hfirst
  have hagain : again ∈ again :: trace.map Prod.fst := List.mem_cons_self
  constructor
  · rintro rfl
    exact hreceipted.repeats
  · -- The token tells the family, and within it whose receipt it is.
    intro hne
    cases first with
    | beginSyncRun first =>
        cases again with
        | beginSyncRun again =>
            exact LedgerCommand.refuses_beginSyncRun hfree hfirst' hagain hreceipted
              (CommandToken.run.inj htoken) fun h => hne (h ▸ rfl)
        | _ => cases htoken
    | record recorder first =>
        cases again with
        | record recorder' again =>
            obtain ⟨hrunToken, hop⟩ := CommandToken.operation.inj htoken
            -- One run token is one run, so the two calls were sent by one recorder.
            obtain rfl : recorder' = recorder :=
              Recording.Opened.unique hfree hsent
                (haccounted.opened recorder (haccounted.issued recorder first _ hfirst))
                (haccounted.opened recorder' hissued) hrunToken
            exact LedgerCommand.refuses_record hfree hfirst' hagain hreceipted hop
              fun h => hne (h ▸ rfl)
        | _ => cases htoken
    | finishRun first =>
        cases again with
        | finishRun again =>
            exact LedgerCommand.refuses_finishRun hfree hfirst' hagain hreceipted
              (CommandToken.finish.inj htoken) fun h => hne (h ▸ rfl)
        | _ => cases htoken
    | recordInventory first online =>
        cases again with
        | recordInventory again online' =>
            refine LedgerCommand.refuses_recordInventory hfree hfirst' hagain hreceipted htoken
              fun h => hne ?_
            subst h
            rfl
        | _ => cases htoken
    | recordIntegrity first =>
        cases again with
        | recordIntegrity again =>
            exact LedgerCommand.refuses_recordIntegrity hfree hfirst' hagain hreceipted htoken
              fun h => hne (h ▸ rfl)
        | _ => cases htoken

end Commands

/-! ## A folder reported twice

The run of the example sends two reports of one folder that differ in the mtime
alone.  The hashes are a lookup that separates what is sent here and nothing
else, which is all that `CollisionFree` asks. -/

section Sample

local instance reportedUnicode : Unicode := asciiUnicode

/-- The hashes of the two reports. -/
def reportedHash (mtimeNs : Nat) : Str :=
  if mtimeNs = 1700000000000000000 then
    str "1268956df55408f3ec823bf687e6549f5a1d0b8d653e582950c960834925b966"
  else str "b2234ee21db4f191c7bb224b8e48d6dbd008be6dcad656b54a4644631c1ac79c"

local instance reportedCallHash : PayloadHash where
  call _ _ call :=
    match call with
    | .mkdir _ target => reportedHash target.mtimeNs
    | _ => []

/-- The hashes of the start and of the end. -/
local instance reportedRunHash : RunHash where
  start _ :=
    [123, 6, 127, 42, 253, 16, 164, 124, 46, 248, 80, 87, 251, 255, 122, 237, 111, 14, 245, 122,
      138, 193, 191, 101, 207, 242, 104, 199, 165, 34, 216, 250]
  finish _ :=
    [16, 244, 222, 252, 181, 190, 115, 94, 145, 96, 118, 246, 52, 218, 119, 158, 243, 38, 26, 237,
      78, 169, 151, 211, 135, 37, 56, 201, 246, 216, 126, 181]

local instance reportedCommandHash : CommandHash := ⟨fun _ => []⟩

local instance reportedInventoryHash : InventoryHash := ⟨fun _ => []⟩

def reportedStat (mtimeNs : Nat) (identity : FileIdentity) : FileStat where
  kind := .directory
  size := 0
  mtimeNs := mtimeNs
  fileIdentity := some identity
  nlink := 1
  metadata := ⟨0x10, some 1690000000000000000⟩

def reportedOperation : PlanOperation where
  opId := 0x14c994aeda10b56aacd324576e76f2e2
  kind := .mkdir
  sourceRelPath := some (.single (str "d") (by decide +kernel))
  targetRelPath := .single (str "d") (by decide +kernel)
  sourceExpected := some (reportedStat 1700000000000000000 (volumeA.identity 7))
  targetExpected := none
  intended := some (reportedStat 1700000000000000000 (volumeA.identity 7))
  metadata := some ⟨0x10, some 1690000000000000000⟩
  reason := .requiredDirectory

theorem reportedTarget_ne : str "T" ≠ [] := by decide

def reportedPlan : Plan where
  sourceRoot := ⟨str "S", str "s", by decide, by decide, by decide⟩
  targetRoot := ⟨str "T", str "t", reportedTarget_ne, by decide, by decide⟩
  sourceVolumeId := some volumeA
  targetVolumeId := some volumeB
  sourceVolumeEvidence := none
  targetVolumeEvidence := none
  sourceProfile := ntfsProfile
  targetProfile := ntfsProfile
  sourceComplete := true
  targetComplete := true
  operations := [reportedOperation]
  assignment := ⟨⟨str "identity", str "1"⟩, []⟩
  preservation := {}
  filterSnapshot := {}
  deletionPolicy := .trash
  trashOnUpdate := true
  policyFingerprint := str "b76cbc151bb77cf44410d52a81920a1d43824e657978598268e9074d4a4605ff"
  workerCount := 1
  requiredVolumes := [volumeA, volumeB]
  requiredBytes := 0
  checked := by decide

def reportedCommand : SyncRunCommand where
  runToken := str "run"
  hostId := 1
  mappingId := 1
  sourceLocationId := 1
  targetLocationId := 2
  plan := reportedPlan
  selection := [reportedOperation.opId]
  startedAt := 1704067200000000
  runToken_ne := by decide
  selection_known := fun _ h => h

def reportedRecorder : SyncRunRecorder := ⟨reportedCommand, 1⟩

/-- The report of the folder, made at the given time. -/
def reportedCall (mtimeNs : Nat) : RecordCall :=
  .mkdir reportedOperation.opId (reportedStat mtimeNs (volumeB.identity 8))

def reportedFinish : FinishRunCommand where
  runToken := str "run"
  status := .completed
  recording := .ok
  endedAt := 1704070800000000

def unreportedLedger : RunLedger where
  main := emptyLedger
  hosts := [1]
  runs := []
  runs_keyed := Table.keyed_nil

def firstReport : LedgerCommand := .record reportedRecorder (reportedCall 1700000000000000000)

def otherReport : LedgerCommand := .record reportedRecorder (reportedCall 1700003600000000000)

/-- The run: it begins, the folder is reported, and it ends. -/
def reportedSent : List (LedgerCommand × Utc) :=
  [(.beginSyncRun reportedCommand, 1704067200000000), (firstReport, 1704067200000001),
    (.finishRun reportedFinish, 1704070800000000)]

def reportedRun : Recording :=
  (exec Recording.step { ledger := unreportedLedger } reportedSent).getD
    { ledger := unreportedLedger }

/-- The commands of the run, and the other report. -/
theorem reported_collisionFree :
    CollisionFree (otherReport :: reportedSent.map Prod.fst) where
  start command command' h h' _ := by
    simp [reportedSent, firstReport, otherReport] at h h'
    rw [h, h']
  call recorder call call' h h' operation hmem _ _ _ _ hhash := by
    have hne : reportedHash 1700000000000000000 ≠ reportedHash 1700003600000000000 := by decide
    simp [reportedSent, firstReport, otherReport] at h h'
    rcases h with ⟨rfl, rfl⟩ | ⟨-, rfl⟩ <;> rcases h' with ⟨-, rfl⟩ | ⟨-, rfl⟩
    · rfl
    · exact absurd hhash.symm hne
    · exact absurd hhash hne
    · rfl
  finish command command' h h' _ := by
    simp [reportedSent, firstReport, otherReport] at h h'
    rw [h, h']
  inventory command online command' online' h _ _ := by
    simp [reportedSent, firstReport, otherReport] at h
  integrity command command' h _ _ := by
    simp [reportedSent, firstReport, otherReport] at h

/-- The other report is refused, also after the end of the run. -/
theorem commands_idempotent_reported :
    ∃ error, otherReport.send 1704070800000001 reportedRun.ledger =
      (.error error, reportedRun.ledger) := by
  have hexec : exec Recording.step { ledger := unreportedLedger } reportedSent =
      some reportedRun := exec_getD (by decide +kernel)
  have hrun : Traced Recording.step Recording.replies { ledger := unreportedLedger } _ _ :=
    exec_traced hexec
  have hcommands := Recording.commands_of_exec hexec
  have hall : ∀ entry ∈ execTrace Recording.step Recording.replies
      { ledger := unreportedLedger } reportedSent, entry.2.toOption.isSome = true := by
    rw [← List.all_eq_true]
    decide +kernel
  have hmem : firstReport ∈ (execTrace Recording.step Recording.replies
      { ledger := unreportedLedger } reportedSent).map Prod.fst := by
    rw [hcommands]
    exact List.mem_cons_of_mem _ List.mem_cons_self
  obtain ⟨⟨command, reply⟩, hentry, rfl⟩ := List.mem_map.1 hmem
  have hreply : reply = .ok (reply.toOption.get (hall _ hentry)) := Checked.ok_of_get _
  rw [hreply] at hentry
  have hissued : reportedRun.Issued otherReport := by decide +kernel
  have hfree : CollisionFree (otherReport :: (execTrace Recording.step Recording.replies
      { ledger := unreportedLedger } reportedSent).map Prod.fst) := by
    rw [hcommands]
    exact reported_collisionFree
  refine (commands_idempotent hrun hentry hissued rfl hfree 1704070800000001).2 fun heq => ?_
  have hcall := (LedgerCommand.record.inj heq).2
  revert hcall
  decide +kernel

end Sample

end NamiSync
