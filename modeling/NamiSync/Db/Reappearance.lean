/-
# `Db.Reappearance` — files that vanish and come back

A row that was missing owes a reappearance until it is marked.  Only the
upsert of a file or a directory pays, and only where it finds the row
missing: an upsert of an unsupported entry in between takes the debt away,
and the row is present later without a mark.

## What is proved

    reappearance_retained : if a row is missing after some commands and present
      after some more, it has the mark of its reappearance, provided that none
      of the commands hides it

`Hides` is asked of the command and the ledger it meets: it shows a missing
row as unsupported.  `reappearance_lost` is such a history: the row is missing,
then unsupported, then present without a mark.

## The argument

From the state in which it is missing on, the row *owes* its mark: it is
missing, or it is marked (`MarkedAt`).  One upsert at the row's key pays, the
others and the sweep leave the debt as it is.
-/
import NamiSync.Db.Reconciled

namespace NamiSync

section Reappearance

variable [Unicode]

open MainLedger InventoryCommand

variable {command : InventoryCommand} {ledger later : MainLedger} {key : Nat × Str}

namespace MainLedger

/-- The row under the key is marked as reappeared. -/
def MarkedAt (ledger : MainLedger) (key : Nat × Str) : Prop :=
  ∃ row, ledger.rowAt key = some row ∧ row.reappearedAt.isSome = true

/-- The row under the key is missing or marked. -/
def OwesAt (ledger : MainLedger) (key : Nat × Str) : Prop :=
  ∃ row, ledger.rowAt key = some row ∧
    (row.presence = .missing ∨ row.reappearedAt.isSome = true)

theorem MarkedAt.owes (h : ledger.MarkedAt key) : ledger.OwesAt key := by
  obtain ⟨row, hrow, hmarked⟩ := h
  exact ⟨row, hrow, Or.inr hmarked⟩

variable (command) in
/-- An observation keeps a mark, and pays for the row that it finds
missing. -/
theorem owes_observe (seen : RelPath × FileStat) (h : ledger.OwesAt key) :
    (key = (command.locationId, seen.1.key) → (ledger.observe command seen).MarkedAt key) ∧
      (ledger.observe command seen).OwesAt key := by
  obtain ⟨row, hrow, hor⟩ := h
  by_cases hkey : key = (command.locationId, seen.1.key)
  · have hmarked : (ledger.observe command seen).MarkedAt key := by
      refine ⟨observedRow command.hostId command.scopeToken seen.1 seen.2 command.observedAt row,
        ?_, ?_⟩
      · rw [rowAt_observe, if_pos hkey, ← hkey, hrow]
      · show (if row.presence = .missing then some command.observedAt
          else row.reappearedAt).isSome = true
        split
        · rfl
        · next hpresence => exact hor.resolve_left hpresence
    exact ⟨fun _ => hmarked, hmarked.owes⟩
  · refine ⟨fun heq => absurd heq hkey, row, ?_, hor⟩
    rw [rowAt_observe, if_neg hkey, hrow]

theorem marked_observe (seen : RelPath × FileStat) (h : ledger.MarkedAt key) :
    (ledger.observe command seen).MarkedAt key := by
  by_cases hkey : key = (command.locationId, seen.1.key)
  · exact (owes_observe command seen h.owes).1 hkey
  · obtain ⟨row, hrow, hmarked⟩ := h
    exact ⟨row, by rw [rowAt_observe, if_neg hkey, hrow], hmarked⟩

theorem marked_observeUnsupported (record : UnsupportedRecord) (h : ledger.MarkedAt key) :
    (ledger.observeUnsupported command record).MarkedAt key := by
  obtain ⟨row, hrow, hmarked⟩ := h
  by_cases hkey : key = (command.locationId, record.key)
  · refine ⟨unsupportedAgain command record row, ?_, hmarked⟩
    rw [rowAt_observeUnsupported, if_pos hkey, ← hkey, hrow]
  · exact ⟨row, by rw [rowAt_observeUnsupported, if_neg hkey, hrow], hmarked⟩

theorem owes_sweep (p : InventoryRow → Bool) (h : ledger.OwesAt key) :
    (ledger.sweep command p).2.OwesAt key := by
  obtain ⟨row, hrow, hor⟩ := h
  refine ⟨_, by rw [rowAt_sweep, hrow, Option.map_some], ?_⟩
  split
  · exact Or.inl rfl
  · exact hor

/-! ## The loops

A loop keeps the debt, and a loop with a statement for the row's own key pays it. -/

variable (command) in
theorem owes_observations (entries : List (RelPath × FileStat)) (h : ledger.OwesAt key) :
    ((∃ seen ∈ entries, key = (command.locationId, seen.1.key)) →
      (entries.foldl (fun ledger seen => ledger.observe command seen) ledger).MarkedAt key) ∧
    (entries.foldl (fun ledger seen => ledger.observe command seen) ledger).OwesAt key := by
  induction entries generalizing ledger with
  | nil =>
      refine ⟨?_, h⟩
      rintro ⟨seen, hseen, -⟩
      exact absurd hseen List.not_mem_nil
  | cons first rest ih =>
      obtain ⟨hpaid, howes⟩ := owes_observe command first h
      refine ⟨?_, (ih howes).2⟩
      rintro ⟨seen, hseen, hkey⟩
      rcases List.mem_cons.1 hseen with rfl | hseen
      · exact List.foldlRecOn (motive := fun ledger : MainLedger => ledger.MarkedAt key) rest _
          (hpaid hkey) fun ledger hmarked seen _ => marked_observe seen hmarked
      · exact (ih howes).1 ⟨seen, hseen, hkey⟩

theorem marked_unsupported (entries : List UnsupportedRecord) (h : ledger.MarkedAt key) :
    (entries.foldl (fun ledger record => ledger.observeUnsupported command record)
      ledger).MarkedAt key :=
  List.foldlRecOn (motive := fun ledger : MainLedger => ledger.MarkedAt key) entries _ h
    fun _ hmarked record _ => marked_observeUnsupported record hmarked

/-- Entries under other keys leave the row alone. -/
theorem owes_unsupported (entries : List UnsupportedRecord) (h : ledger.OwesAt key)
    (hkey : ∀ record ∈ entries, key ≠ (command.locationId, record.key)) :
    (entries.foldl (fun ledger record => ledger.observeUnsupported command record)
      ledger).OwesAt key := by
  refine List.foldlRecOn (motive := fun ledger : MainLedger => ledger.OwesAt key) entries _ h
    fun ledger howes record hrecord => ?_
  obtain ⟨row, hrow, hor⟩ := howes
  exact ⟨row, by rw [rowAt_observeUnsupported, if_neg (hkey record hrecord), hrow], hor⟩

theorem owes_chunks (chunks : List (List Str)) (missing : Nat) (h : ledger.OwesAt key) :
    (chunks.foldl (fun (missing, ledger) chunk =>
      (missing + (ledger.sweep command (command.unseenAmong chunk)).1,
        (ledger.sweep command (command.unseenAmong chunk)).2)) (missing, ledger)).2.OwesAt key := by
  induction chunks generalizing missing ledger with
  | nil => exact h
  | cons chunk rest ih => exact ih _ (owes_sweep _ h)

end MainLedger

/-! ## A command

First the upserts, then the sweep, which can only make the row missing again. -/

/-- The command hides the row under the key: it finds the row missing and
without a mark, and records it as unsupported, not having seen it
otherwise. -/
def InventoryCommand.Hides (command : InventoryCommand) (ledger : IntegrityLedger)
    (key : Nat × Str) : Prop :=
  command.Takes ledger ∧
    (∃ record ∈ command.scan.unsupported, key = (command.locationId, record.key)) ∧
    (∀ seen ∈ command.scan.observations, key ≠ (command.locationId, seen.1.key)) ∧
    ∃ row, ledger.main.rowAt key = some row ∧ row.presence = .missing ∧ row.reappearedAt = none

variable (command) in
/-- A command that does not hide a row leaves it missing or marked. -/
theorem owes_observeAll (h : ledger.OwesAt key)
    (hspared : ¬((∃ record ∈ command.scan.unsupported, key = (command.locationId, record.key)) ∧
      (∀ seen ∈ command.scan.observations, key ≠ (command.locationId, seen.1.key)) ∧
      ∃ row, ledger.rowAt key = some row ∧ row.presence = .missing ∧ row.reappearedAt = none)) :
    (command.observeAll ledger).OwesAt key := by
  obtain ⟨hpaid, howes⟩ := owes_observations command command.scan.observations h
  by_cases hrefused : ∃ record ∈ command.scan.unsupported, key = (command.locationId, record.key)
  · by_cases hseen : ∃ seen ∈ command.scan.observations, key = (command.locationId, seen.1.key)
    · exact (marked_unsupported _ (hpaid hseen)).owes
    · have hmarked : ledger.MarkedAt key := by
        obtain ⟨row, hrow, hor⟩ := h
        refine ⟨row, hrow, ?_⟩
        by_contra hnone
        refine hspared ⟨hrefused, fun seen hmem heq => hseen ⟨seen, hmem, heq⟩, row, hrow,
          hor.resolve_right hnone, ?_⟩
        simpa using hnone
      refine (marked_unsupported _ ?_).owes
      exact List.foldlRecOn (motive := fun ledger : MainLedger => ledger.MarkedAt key) _ _ hmarked
        fun _ hmarked seen _ => marked_observe seen hmarked
  · exact owes_unsupported _ howes fun record hrecord heq => hrefused ⟨record, hrecord, heq⟩

theorem owes_recordInventory [InventoryHash] {ledger : IntegrityLedger}
    (h : ledger.main.OwesAt key) (hspared : ¬ command.Hides ledger key) :
    (recordInventory command ledger).2.main.OwesAt key := by
  rcases recordInventory_cases command ledger with
    hsame | ⟨htakes, counts, later, hreconcile, hmain⟩
  · rw [hsame]
    exact h
  · rw [hmain]
    have howes := owes_observeAll command h fun hhides => hspared ⟨htakes, hhides⟩
    rcases reconcile_cases hreconcile with ⟨-, -, -, rfl⟩ | ⟨-, -, chunks, rfl⟩ | ⟨-, rfl⟩
    · exact owes_sweep _ howes
    · exact owes_chunks chunks 0 howes
    · exact howes

/-! ## A run of commands -/

/-- The ledger after a run of commands. -/
def recordInventories [InventoryHash] (ledger : IntegrityLedger)
    (commands : List InventoryCommand) : IntegrityLedger :=
  commands.foldl (fun ledger command => (recordInventory command ledger).2) ledger

theorem owes_recordInventories [InventoryHash] {ledger : IntegrityLedger}
    {commands : List InventoryCommand} (h : ledger.main.OwesAt key)
    (hspared : ∀ before command after, commands = before ++ command :: after →
      ¬ command.Hides (recordInventories ledger before) key) :
    (recordInventories ledger commands).main.OwesAt key := by
  induction commands generalizing ledger with
  | nil => exact h
  | cons command rest ih =>
      refine ih (owes_recordInventory h (hspared [] command rest rfl)) ?_
      intro before other after heq
      exact hspared (command :: before) other after (congrArg (command :: ·) heq)

/-- In a run that hides no missing row, a row that was missing at some point
is marked as reappeared at every later point where it is present. -/
theorem reappearance_retained [InventoryHash] (ledger : IntegrityLedger)
    (first second : List InventoryCommand) (key : Nat × Str)
    (hspared : ∀ before command after, first ++ second = before ++ command :: after →
      ¬ command.Hides (recordInventories ledger before) key)
    (old row : InventoryRow) (hold : (recordInventories ledger first).main.rowAt key = some old)
    (hmissing : old.presence = .missing)
    (hrow : (recordInventories ledger (first ++ second)).main.rowAt key = some row)
    (hpresent : row.presence = .present) : row.reappearedAt.isSome = true := by
  have happend : recordInventories ledger (first ++ second) =
      recordInventories (recordInventories ledger first) second := List.foldl_append
  have howes : (recordInventories (recordInventories ledger first) second).main.OwesAt key := by
    refine owes_recordInventories ⟨old, hold, Or.inl hmissing⟩ ?_
    intro before command after heq
    have hhides := hspared (first ++ before) command after (by rw [heq, List.append_assoc])
    rwa [show recordInventories ledger (first ++ before) =
      recordInventories (recordInventories ledger first) before from List.foldl_append] at hhides
  rw [happend] at hrow
  obtain ⟨other, hother, hor⟩ := howes
  obtain rfl := Option.some.inj (hrow.symm.trans hother)
  refine hor.resolve_left ?_
  rw [hpresent]
  decide

end Reappearance

/-! A file is seen, is gone, is there but not accessible, and is seen
again. -/

section Sample

local instance vanishedUnicode : Unicode := asciiUnicode

local instance vanishedHash : InventoryHash where
  inventory command :=
    if command.scopeToken = str "1" then
      [117, 96, 100, 9, 79, 103, 229, 83, 144, 172, 67, 170, 12, 47, 237, 153, 3, 80, 228, 183, 40,
        202, 4, 41, 97, 53, 152, 45, 58, 251, 115, 97]
    else if command.scopeToken = str "2" then
      [14, 219, 113, 132, 164, 20, 171, 19, 72, 220, 185, 40, 108, 39, 28, 210, 159, 112, 43, 7, 47,
        100, 160, 86, 215, 105, 3, 139, 128, 34, 246, 44]
    else if command.scopeToken = str "3" then
      [184, 44, 214, 231, 236, 159, 30, 82, 45, 159, 161, 73, 0, 121, 4, 129, 58, 149, 30, 10, 208,
        50, 161, 65, 93, 175, 225, 146, 129, 59, 10, 241]
    else
      [178, 59, 92, 6, 217, 252, 66, 225, 142, 43, 46, 220, 166, 170, 194, 112, 59, 5, 222, 102, 82,
        166, 27, 255, 224, 201, 191, 217, 200, 179, 60, 183]

def vanishedPath : RelPath := .single (str "a") (by decide +kernel)

/-- The scans of the location, one a day. -/
def vanishedCommand (day : Nat) (token : String) (htoken : str token ≠ []) (files : List FileRecord)
    (unsupported : List UnsupportedRecord) : InventoryCommand where
  locationId := 1
  hostId := 1
  scan := { sampleScan (some volumeA) files with unsupported := unsupported }
  scopeToken := str token
  observedAt := 1704067200000000 + day * 86400000000
  scopeToken_ne := htoken

def vanishedFile : FileRecord where
  relPath := vanishedPath
  size := 3
  mtimeNs := 1700000000000000000
  fileIdentity := none
  nlink := 1
  metadata := ⟨0x20, none⟩

theorem seenToken_ne : str "1" ≠ [] := by decide

def seenCommand : InventoryCommand := vanishedCommand 0 "1" seenToken_ne [vanishedFile] []

def goneCommand : InventoryCommand := vanishedCommand 1 "2" (by decide) [] []

def deniedCommand : InventoryCommand :=
  vanishedCommand 2 "3" (by decide) [] [⟨vanishedPath, .accessDenied, none⟩]

def backCommand : InventoryCommand := vanishedCommand 3 "4" (by decide) [vanishedFile] []

def vanishedLedger : IntegrityLedger where
  main :=
    { locations := Dict.empty.set 1 volumeA
      mappings := .empty
      inventory := []
      correspondence := []
      operations := []
      inventory_keyed := Table.keyed_nil
      correspondence_distinct := List.Pairwise.nil
      correspondence_joins := fun _ h => absurd h List.not_mem_nil }

/-- Without the scan in between the mark is set. -/
theorem reappearance_retained_sample :
    ∃ row, (recordInventories vanishedLedger [seenCommand, goneCommand, backCommand]).main.rowAt
      (1, vanishedPath.key) = some row ∧ row.presence = .present ∧
        row.reappearedAt.isSome = true := by
  have hmissing : ∃ old, (recordInventories vanishedLedger [seenCommand, goneCommand]).main.rowAt
      (1, vanishedPath.key) = some old ∧ old.presence = .missing := by
    have h : ((recordInventories vanishedLedger [seenCommand, goneCommand]).main.rowAt
        (1, vanishedPath.key)).any (fun old => old.presence = .missing) = true := by decide +kernel
    obtain ⟨old, hold, hgone⟩ := (Option.any_eq_true _ _).1 h
    exact ⟨old, hold, of_decide_eq_true hgone⟩
  have hback : ∃ row,
      (recordInventories vanishedLedger [seenCommand, goneCommand, backCommand]).main.rowAt
        (1, vanishedPath.key) = some row ∧ row.presence = .present := by
    have h : ((recordInventories vanishedLedger [seenCommand, goneCommand, backCommand]).main.rowAt
        (1, vanishedPath.key)).any (fun row => row.presence = .present) = true := by decide +kernel
    obtain ⟨row, hrow, hpresent⟩ := (Option.any_eq_true _ _).1 h
    exact ⟨row, hrow, of_decide_eq_true hpresent⟩
  obtain ⟨old, hold, hgone⟩ := hmissing
  obtain ⟨row, hrow, hpresent⟩ := hback
  refine ⟨row, hrow, hpresent, reappearance_retained vanishedLedger [seenCommand, goneCommand]
    [backCommand] (1, vanishedPath.key) ?_ old row hold hgone hrow hpresent⟩
  rintro before command after heq ⟨-, ⟨record, hrecord, -⟩, -⟩
  have hmem : command ∈ [seenCommand, goneCommand] ++ [backCommand] := by
    rw [heq]
    exact List.mem_append_right _ List.mem_cons_self
  have hnone : ∀ command ∈ [seenCommand, goneCommand] ++ [backCommand],
      command.scan.unsupported = [] := by
    intro command hcommand
    simp only [List.cons_append, List.nil_append, List.mem_cons, List.not_mem_nil,
      or_false] at hcommand
    rcases hcommand with rfl | rfl | rfl <;> rfl
  rw [hnone command hmem] at hrecord
  exact absurd hrecord List.not_mem_nil

/-- With it the file is back without a mark. -/
theorem reappearance_lost : ¬ ∀ (first second : List InventoryCommand) (old row : InventoryRow),
    (recordInventories vanishedLedger first).main.rowAt (1, vanishedPath.key) = some old →
    old.presence = .missing →
    (recordInventories vanishedLedger (first ++ second)).main.rowAt (1, vanishedPath.key) =
      some row →
    row.presence = .present → row.reappearedAt.isSome = true := by
  intro h
  have hmissing : ((recordInventories vanishedLedger [seenCommand, goneCommand]).main.rowAt
      (1, vanishedPath.key)).any (fun old => old.presence = .missing) = true := by decide +kernel
  have hback : ((recordInventories vanishedLedger
      ([seenCommand, goneCommand] ++ [deniedCommand, backCommand])).main.rowAt
      (1, vanishedPath.key)).any
        (fun row => row.presence = .present && row.reappearedAt.isNone) = true := by decide +kernel
  obtain ⟨old, hold, hgone⟩ := (Option.any_eq_true _ _).1 hmissing
  obtain ⟨row, hrow, hpresent⟩ := (Option.any_eq_true _ _).1 hback
  simp only [Bool.and_eq_true, decide_eq_true_eq, Option.isNone_iff_eq_none] at hgone hpresent
  have hmarked := h _ _ old row hold hgone hrow hpresent.1
  rw [hpresent.2] at hmarked
  exact absurd hmarked (by simp)

end Sample

end NamiSync
