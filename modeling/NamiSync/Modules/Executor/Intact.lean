/-
# `Modules.Executor.Intact` — what every change of a run leaves intact

The bytes of the files of the target tree, while a call of `execute` works on
it.  Outside of the temps every file is complete: it has the bytes of a file
that was there before, or of one of the source.  And no bytes are lost: those
of every file that the plan does not give up are still the bytes of a file.

A change keeps this on its own, except for the ones that publish what was
copied: these need a complete temp, and where a file is replaced its bytes
have to be elsewhere by then.  Beyond the places of its operation a change
leaves every file alone.

## What is proved

    Intact.change       a change of an operation keeps `Intact`, given `Ready`
    Intact.change_frame a change of an operation leaves a file beyond its
                        places as it was

`Ready` is asked of the two changes that publish: the temp is complete, and
if a file is in the way its bytes are in the trash or the plan gives it up.
`Modules.Executor.Deliveries` and `Modules.Executor.Updates` show that the
programs provide it.

## The hypothesis

`Apart` is about the plan alone.  What is moved away is above no place where
something goes; an operation that brings bytes brings them to no temp, and to
no place that another operation touches; a backup goes where nothing is given
up; and what is copied or displaced is a file.  `Workflows.Untangled` proves
this, and more, of the plans that `planner.py` makes.

## The argument

The primitives do one of seven things to the files of a tree, and each has
its lemma: a file goes, comes into being, is written to, gets a second name,
moves with its subtree, is published over nothing, is published over a file.
Only the first and the last can lose bytes.  That a temp can be written to
without a file of the user changing is because it is a node of its own
(`Intact.fresh`): no other name leads to it.
-/
import NamiSync.Modules.Executor.Files
import NamiSync.Modules.Executor.RunReach

namespace NamiSync

namespace Executor

open Faulty FileStore

section Intact

variable [Unicode] (xset : ExecutionSet) (runId : RunId)

/-- A place where a selected operation keeps a temp. -/
inductive IsTemp : List Str → Prop
  | own {operation : PlanOperation} (hchosen : Chosen xset operation)
      (hkind : countsBytes operation.kind = true) : IsTemp (loc (tempOf runId operation))
  | backup {operation : PlanOperation} (hchosen : Chosen xset operation)
      (hkind : operation.kind = .update) :
      IsTemp (loc (ownedTemp (trashPath runId operation.targetRelPath) runId operation.opId))

/-- A place whose file the plan gives up: a temp, a file that is deleted, and
what is updated without a backup. -/
inductive Condemned : List Str → Prop
  | temp {place : List Str} (h : IsTemp xset runId place) : Condemned place
  | delete {operation : PlanOperation} (hchosen : Chosen xset operation)
      (hkind : operation.kind = .delete)
      (hfile : ∃ expected ∈ operation.targetExpected, expected.kind ≠ .directory) :
      Condemned (loc operation.targetRelPath)
  | update {operation : PlanOperation} (hchosen : Chosen xset operation)
      (hkind : operation.kind = .update) (htrash : xset.plan.trashOnUpdate = false) :
      Condemned (loc operation.targetRelPath)

/-- The renamings that move a file of the user. -/
inductive Moves : RelPath → RelPath → Prop
  | move {operation : PlanOperation} {old : RelPath} (hchosen : Chosen xset operation)
      (hkind : operation.kind = .move ∨ operation.kind = .recase)
      (hprior : operation.priorTargetRelPath = some old) : Moves old operation.targetRelPath
  | prior {operation : PlanOperation} {old : RelPath} (hchosen : Chosen xset operation)
      (hkind : operation.kind = .moveUpdate) (hprior : operation.priorTargetRelPath = some old) :
      Moves old (trashPath runId old)
  | trash {operation : PlanOperation} (hchosen : Chosen xset operation)
      (hkind : operation.kind = .trash) :
      Moves operation.targetRelPath (trashPath runId operation.targetRelPath)

/-- The paths at or below which an operation can change files. -/
def placesOf (operation : PlanOperation) : List RelPath :=
  match operation.kind with
  | .copy => [operation.targetRelPath, tempOf runId operation]
  | .update =>
      [operation.targetRelPath, tempOf runId operation, trashPath runId operation.targetRelPath,
        ownedTemp (trashPath runId operation.targetRelPath) runId operation.opId]
  | .moveUpdate =>
      [operation.targetRelPath, tempOf runId operation] ++
        operation.priorTargetRelPath.toList.flatMap fun old => [old, trashPath runId old]
  | .move | .recase => operation.targetRelPath :: operation.priorTargetRelPath.toList
  | .trash => [operation.targetRelPath, trashPath runId operation.targetRelPath]
  | .delete => [operation.targetRelPath]
  | .mkdir | .noop => []

/-- A place where an operation can change a file. -/
def Touches (operation : PlanOperation) (place : List Str) : Prop :=
  ∃ path ∈ placesOf runId operation, loc path <+: place

/-- The operations of the plan do not get in each other's way. -/
structure Apart : Prop where
  moves : ∀ source target, Moves xset runId source target → loc source ≠ loc target →
    ¬ loc source <+: loc target ∧
      (∀ place, IsTemp xset runId place → ¬ loc source <+: place) ∧
      ∀ place, Condemned xset runId place → ¬ loc target <+: place
  targets : ∀ operation, Chosen xset operation → countsBytes operation.kind = true →
    ¬ IsTemp xset runId (loc operation.targetRelPath)
  backups : ∀ operation, Chosen xset operation → operation.kind = .update →
    xset.plan.trashOnUpdate = true →
    ¬ Condemned xset runId (loc (trashPath runId operation.targetRelPath))
  replaced : ∀ operation old, Chosen xset operation → operation.kind = .moveUpdate →
    operation.priorTargetRelPath = some old → ¬ loc old <+: loc operation.targetRelPath
  others : ∀ operation other, Chosen xset operation → Chosen xset other → operation ≠ other →
    countsBytes operation.kind = true → ¬ Touches runId other (loc operation.targetRelPath)
  files : ∀ operation, Chosen xset operation → countsBytes operation.kind = true →
    ∀ expected ∈ operation.sourceExpected, expected.kind = .file
  displaced : ∀ operation, Chosen xset operation → operation.kind = .update →
    ∀ expected ∈ operation.targetExpected, expected.kind = .file

/-- The bytes of a file of the source, or of one that was in the target. -/
def Known (base : World) (bytes : List UInt8) : Prop :=
  (∃ place file, base.source.fileAt place = some file ∧ file.2 = bytes) ∨
    ∃ place file, ¬ IsTemp xset runId place ∧ base.target.fileAt place = some file ∧
      file.2 = bytes

/-- The target tree is intact, compared with `base`. -/
structure Intact (base : World) (disk : Disk) : Prop where
  rooted : disk.store.Rooted
  -- No node of a temp is found anywhere else.
  fresh : ∀ temp place file other, IsTemp xset runId temp → place ≠ temp →
    disk.fileAt temp = some file → disk.fileAt place = some other → file.1 ≠ other.1
  whole : ∀ place file, ¬ IsTemp xset runId place → disk.fileAt place = some file →
    Known xset runId base file.2
  held : ∀ place file, ¬ Condemned xset runId place → base.target.fileAt place = some file →
    ∃ home kept, ¬ Condemned xset runId home ∧ disk.fileAt home = some kept ∧ kept.2 = file.2

/-- What a change that publishes needs. -/
def Ready (base : World) (disk : Disk) : Change → Prop
  | .rename source target => loc source ≠ loc target → IsTemp xset runId (loc source) →
      ∃ file, disk.fileAt (loc source) = some file ∧ Known xset runId base file.2
  | .replace source target =>
      (∃ file, disk.fileAt (loc source) = some file ∧ Known xset runId base file.2) ∧
        ∀ file, ¬ Condemned xset runId (loc target) → disk.fileAt (loc target) = some file →
          ∃ home kept, home ≠ loc target ∧ ¬ Condemned xset runId home ∧
            disk.fileAt home = some kept ∧ kept.2 = file.2
  | _ => True

variable {xset runId}

/-- The same files in a tree. -/
theorem Intact.same {base : World} {disk later : Disk} (h : Intact xset runId base disk)
    (hfiles : ∀ place, later.fileAt place = disk.fileAt place)
    (hrooted : disk.store.Rooted → later.store.Rooted) : Intact xset runId base later where
  rooted := hrooted h.rooted
  fresh temp place file other htemp hplace hfile hother :=
    h.fresh temp place file other htemp hplace (hfiles temp ▸ hfile) (hfiles place ▸ hother)
  whole place file hplace hfile := h.whole place file hplace (hfiles place ▸ hfile)
  held place file hplace hfile := by
    obtain ⟨home, kept, hhome, hkept, hbytes⟩ := h.held place file hplace hfile
    exact ⟨home, kept, hhome, (hfiles home).trans hkept, hbytes⟩

theorem not_temp_of_not_condemned {place : List Str} (h : ¬ Condemned xset runId place) :
    ¬ IsTemp xset runId place :=
  fun htemp => h (.temp htemp)

/-! ## One primitive

What each change of the store does to the invariant, in terms of places: a file
is removed, created, written, linked, moved or published over another. -/

/-- A file goes from a place that is given up, or whose bytes are elsewhere. -/
theorem Intact.removed {base : World} {disk later : Disk} (h : Intact xset runId base disk)
    {gone : List Str}
    (hgone : ∀ file, ¬ Condemned xset runId gone → disk.fileAt gone = some file →
      ∃ home kept, home ≠ gone ∧ ¬ Condemned xset runId home ∧
        disk.fileAt home = some kept ∧ kept.2 = file.2)
    (hfiles : ∀ place, later.fileAt place = if place = gone then none else disk.fileAt place)
    (hrooted : disk.store.Rooted → later.store.Rooted) : Intact xset runId base later := by
  have hstill : ∀ place file, later.fileAt place = some file → disk.fileAt place = some file := by
    intro place file hfile
    rw [hfiles] at hfile
    split at hfile
    · cases hfile
    · exact hfile
  refine ⟨hrooted h.rooted, ?_, ?_, ?_⟩
  · intro temp place file other htemp hplace hfile hother
    exact h.fresh temp place file other htemp hplace (hstill _ _ hfile) (hstill _ _ hother)
  · intro place file hplace hfile
    exact h.whole place file hplace (hstill _ _ hfile)
  · intro place file hplace hfile
    obtain ⟨home, kept, hhome, hkept, hbytes⟩ := h.held place file hplace hfile
    by_cases hlost : home = gone
    · subst hlost
      obtain ⟨other, copy, hne, hother, hcopy, hsame⟩ := hgone kept hhome hkept
      refine ⟨other, copy, hother, ?_, hsame.trans hbytes⟩
      rw [hfiles, if_neg hne]
      exact hcopy
    · refine ⟨home, kept, hhome, ?_, hbytes⟩
      rw [hfiles, if_neg hlost]
      exact hkept

/-- A temp comes into being. -/
theorem Intact.created {base : World} {disk later : Disk} (h : Intact xset runId base disk)
    {temp : List Str} (htemp : IsTemp xset runId temp)
    (hfiles : ∀ place, later.fileAt place =
      if place = temp then some (disk.store.nodes.length, []) else disk.fileAt place)
    (hrooted : disk.store.Rooted → later.store.Rooted) : Intact xset runId base later := by
  have hother : ∀ place, place ≠ temp → later.fileAt place = disk.fileAt place := by
    intro place hplace
    rw [hfiles, if_neg hplace]
  have hnew : later.fileAt temp = some (disk.store.nodes.length, []) := by
    rw [hfiles, if_pos rfl]
  have hbound : ∀ place file, disk.fileAt place = some file →
      file.1 < disk.store.nodes.length := by
    intro place file hfile
    obtain ⟨sight, hlook, -, rfl⟩ := Disk.fileAt_eq_some.1 hfile
    exact Store.node_lt hlook
  have hout : ∀ place, ¬ Condemned xset runId place → place ≠ temp := fun place hplace heq =>
    hplace (heq ▸ .temp htemp)
  refine ⟨hrooted h.rooted, ?_, ?_, ?_⟩
  · intro first place file other hfirst hne hfile hplaced
    by_cases hsame : first = temp
    · subst hsame
      obtain rfl := Option.some.inj (hnew.symm.trans hfile)
      exact (hbound place other (hother place hne ▸ hplaced)).ne'
    · rw [hother first hsame] at hfile
      by_cases hplace : place = temp
      · subst hplace
        obtain rfl := Option.some.inj (hnew.symm.trans hplaced)
        exact (hbound first file hfile).ne
      · exact h.fresh first place file other hfirst hne hfile (hother place hplace ▸ hplaced)
  · intro place file hplace hfile
    have hne : place ≠ temp := fun heq => hplace (heq ▸ htemp)
    exact h.whole place file hplace (hother place hne ▸ hfile)
  · intro place file hplace hfile
    obtain ⟨home, kept, hhome, hkept, hbytes⟩ := h.held place file hplace hfile
    exact ⟨home, kept, hhome, (hother home (hout home hhome)).trans hkept, hbytes⟩

/-- A temp is written to. -/
theorem Intact.written {base : World} {disk later : Disk} (h : Intact xset runId base disk)
    {temp : List Str} (htemp : IsTemp xset runId temp) {file : Nat × List UInt8}
    {bytes : List UInt8} (hfile : disk.fileAt temp = some file)
    (hfiles : ∀ place, later.fileAt place = (disk.fileAt place).map fun other =>
      if other.1 = file.1 then (other.1, other.2 ++ bytes) else other)
    (hrooted : disk.store.Rooted → later.store.Rooted) : Intact xset runId base later := by
  have hother : ∀ place, place ≠ temp → later.fileAt place = disk.fileAt place := by
    intro place hplace
    rw [hfiles]
    cases hget : disk.fileAt place with
    | none => rfl
    | some other =>
        rw [Option.map_some, if_neg (h.fresh temp place file other htemp hplace hfile hget).symm]
  have hout : ∀ place, ¬ Condemned xset runId place → place ≠ temp := fun place hplace heq =>
    hplace (heq ▸ .temp htemp)
  have hnode : ∀ place written, later.fileAt place = some written →
      ∃ old, disk.fileAt place = some old ∧ written.1 = old.1 := by
    intro place written hwritten
    rw [hfiles] at hwritten
    obtain ⟨old, hold, rfl⟩ := Option.map_eq_some_iff.1 hwritten
    refine ⟨old, hold, ?_⟩
    split <;> rfl
  refine ⟨hrooted h.rooted, ?_, ?_, ?_⟩
  · intro first place written other hfirst hne hwritten hplaced
    obtain ⟨old, hold, hsame⟩ := hnode first written hwritten
    obtain ⟨old', hold', hsame'⟩ := hnode place other hplaced
    rw [hsame, hsame']
    exact h.fresh first place old old' hfirst hne hold hold'
  · intro place kept hplace hkept
    have hne : place ≠ temp := fun heq => hplace (heq ▸ htemp)
    exact h.whole place kept hplace (hother place hne ▸ hkept)
  · intro place kept hplace hkept
    obtain ⟨home, found, hhome, hfound, hbytes⟩ := h.held place kept hplace hkept
    exact ⟨home, found, hhome, (hother home (hout home hhome)).trans hfound, hbytes⟩

/-- A file gets a second name in the trash. -/
theorem Intact.linked {base : World} {disk later : Disk} (h : Intact xset runId base disk)
    {source target : List Str} (hsource : ¬ IsTemp xset runId source)
    (htarget : ¬ IsTemp xset runId target)
    (hfree : disk.look target = none)
    (hfiles : ∀ place, later.fileAt place =
      if place = target then disk.fileAt source else disk.fileAt place)
    (hrooted : disk.store.Rooted → later.store.Rooted) : Intact xset runId base later := by
  refine ⟨hrooted h.rooted, ?_, ?_, ?_⟩
  · intro temp place file other htemp hne hfile hother
    have hapart : temp ≠ target := fun heq => htarget (heq ▸ htemp)
    rw [hfiles, if_neg hapart] at hfile
    rw [hfiles] at hother
    split at hother
    · have hsame : source ≠ temp := fun heq => hsource (heq ▸ htemp)
      exact h.fresh temp source file other htemp hsame hfile hother
    · exact h.fresh temp place file other htemp hne hfile hother
  · intro place file hplace hfile
    rw [hfiles] at hfile
    split at hfile
    · exact h.whole source file hsource hfile
    · exact h.whole place file hplace hfile
  · intro place file hplace hfile
    obtain ⟨home, kept, hhome, hkept, hbytes⟩ := h.held place file hplace hfile
    have hne : home ≠ target := by
      rintro rfl
      rw [Disk.fileAt_of_look_none hfree] at hkept
      cases hkept
    refine ⟨home, kept, hhome, ?_, hbytes⟩
    rw [hfiles, if_neg hne]
    exact hkept

/-- A subtree of the user moves to a vacant place. -/
theorem Intact.moved {base : World} {disk later : Disk} (h : Intact xset runId base disk)
    {source target : List Str}
    (htemps : ∀ place, IsTemp xset runId place → ¬ source <+: place ∧ ¬ target <+: place)
    (hcondemned : ∀ place, Condemned xset runId place → ¬ target <+: place)
    (hvacant : disk.store.Vacant source target)
    (hfiles : ∀ place, later.fileAt place =
      if target <+: place then disk.fileAt (source ++ place.drop target.length)
      else if source <+: place then none else disk.fileAt place)
    (hrooted : disk.store.Rooted → later.store.Rooted) : Intact xset runId base later := by
  have hbelow : ∀ rest, ¬ IsTemp xset runId (source ++ rest) := fun rest htemp =>
    (htemps _ htemp).1 (List.prefix_append _ _)
  have hstill : ∀ place file, ¬ IsTemp xset runId place → later.fileAt place = some file →
      ∃ earlier, ¬ IsTemp xset runId earlier ∧ disk.fileAt earlier = some file := by
    intro place file hplace hfile
    rw [hfiles] at hfile
    split at hfile
    · exact ⟨_, hbelow _, hfile⟩
    · split at hfile
      · cases hfile
      · exact ⟨place, hplace, hfile⟩
  refine ⟨hrooted h.rooted, ?_, ?_, ?_⟩
  · intro temp place file other htemp hne hfile hother
    rw [hfiles, if_neg (htemps temp htemp).2, if_neg (htemps temp htemp).1] at hfile
    rw [hfiles] at hother
    split at hother
    · have hapart : source ++ place.drop target.length ≠ temp := fun heq =>
        hbelow _ (heq ▸ htemp)
      exact h.fresh temp _ file other htemp hapart hfile hother
    · split at hother
      · cases hother
      · exact h.fresh temp place file other htemp hne hfile hother
  · intro place file hplace hfile
    obtain ⟨earlier, hearlier, hold⟩ := hstill place file hplace hfile
    exact h.whole earlier file hearlier hold
  · intro place file hplace hfile
    obtain ⟨home, kept, hhome, hkept, hbytes⟩ := h.held place file hplace hfile
    by_cases hmoved : source <+: home
    · obtain ⟨rest, rfl⟩ := hmoved
      refine ⟨target ++ rest, kept, fun hout => hcondemned _ hout (List.prefix_append _ _), ?_,
        hbytes⟩
      rw [hfiles, if_pos (List.prefix_append _ _), List.drop_left]
      exact hkept
    · have hout : ¬ target <+: home := by
        intro hin
        have hnone := hvacant home hin hmoved
        rw [Disk.fileAt_of_look_none hnone] at hkept
        cases hkept
      refine ⟨home, kept, hhome, ?_, hbytes⟩
      rw [hfiles, if_neg hout, if_neg hmoved]
      exact hkept

/-- A complete temp goes to a place where no file is. -/
theorem Intact.published {base : World} {disk later : Disk} (h : Intact xset runId base disk)
    {temp target : List Str} (htemp : IsTemp xset runId temp) (hne : temp ≠ [])
    {file : Nat × List UInt8} (hfile : disk.fileAt temp = some file)
    (hknown : Known xset runId base file.2) (hfinal : ¬ IsTemp xset runId target)
    (hvacant : disk.store.Vacant temp target)
    (hfiles : ∀ place, later.fileAt place =
      if target <+: place then disk.fileAt (temp ++ place.drop target.length)
      else if temp <+: place then none else disk.fileAt place)
    (hrooted : disk.store.Rooted → later.store.Rooted) : Intact xset runId base later := by
  have hleaf : ∀ rest, rest ≠ [] → disk.fileAt (temp ++ rest) = none := fun rest hrest =>
    Disk.fileAt_of_look_none (Disk.look_below h.rooted hfile hne hrest)
  -- What is at a place afterwards: the published file, or what was there.
  have hcases : ∀ place found, later.fileAt place = some found →
      place = target ∧ found = file ∨ place ≠ target ∧ ¬ target <+: place ∧
        ¬ temp <+: place ∧ disk.fileAt place = some found := by
    intro place found hfound
    rw [hfiles] at hfound
    split at hfound
    · next hin =>
        obtain ⟨rest, rfl⟩ := hin
        rw [List.drop_left] at hfound
        by_cases hrest : rest = []
        · subst hrest
          rw [List.append_nil, hfile] at hfound
          exact Or.inl ⟨List.append_nil _, (Option.some.inj hfound).symm⟩
        · rw [hleaf rest hrest] at hfound
          cases hfound
    · next hout =>
        split at hfound
        · cases hfound
        · next hmoved =>
            exact Or.inr ⟨fun heq => hout (heq ▸ List.prefix_rfl), hout, hmoved, hfound⟩
  refine ⟨hrooted h.rooted, ?_, ?_, ?_⟩
  · intro first place found other hfirst hne hfound hother
    rcases hcases first found hfound with ⟨rfl, -⟩ | ⟨-, -, hmoved, hold⟩
    · exact absurd hfirst hfinal
    · rcases hcases place other hother with ⟨rfl, rfl⟩ | ⟨-, -, -, hother⟩
      · have hapart : temp ≠ first := fun heq => hmoved (heq ▸ List.prefix_rfl)
        exact h.fresh first temp found _ hfirst hapart hold hfile
      · exact h.fresh first place found other hfirst hne hold hother
  · intro place found hplace hfound
    rcases hcases place found hfound with ⟨-, rfl⟩ | ⟨-, -, -, hold⟩
    · exact hknown
    · exact h.whole place found hplace hold
  · intro place found hplace hfound
    obtain ⟨home, kept, hhome, hkept, hbytes⟩ := h.held place found hplace hfound
    have hmoved : ¬ temp <+: home := by
      rintro ⟨rest, rfl⟩
      by_cases hrest : rest = []
      · subst hrest
        rw [List.append_nil] at hhome
        exact hhome (.temp htemp)
      · rw [hleaf rest hrest] at hkept
        cases hkept
    have hout : ¬ target <+: home := by
      intro hin
      have hnone := hvacant home hin hmoved
      rw [Disk.fileAt_of_look_none hnone] at hkept
      cases hkept
    refine ⟨home, kept, hhome, ?_, hbytes⟩
    rw [hfiles, if_neg hout, if_neg hmoved]
    exact hkept

/-! ## The changes of a run

The same for each change that an operation can make, by its reach.  This is
where `Apart` is used: the place that a change is about is a temp of the run, a
condemned place, or a target that was vacant. -/

/-- A path is not where its trash is. -/
theorem loc_trashPath_ne (runId : RunId) (path : RelPath) :
    loc (trashPath runId path) ≠ loc path := by
  intro heq
  have hlength := congrArg List.length heq
  simp only [RelPath.keyParts, trashPath, List.length_map, List.length_cons] at hlength
  omega

variable [Host] {base : World} {disk later : Disk} {now : Nat}

/-- Metadata does not matter. -/
theorem metadata_spec {path : RelPath} {step : Change} (hstep : MetadataOf path step)
    (h : step.apply disk now = .ok later) :
    (∀ place, later.fileAt place = disk.fileAt place) ∧
      (∀ place, (later.look place).isSome = (disk.look place).isSome) ∧
      (disk.store.Rooted → later.store.Rooted) := by
  cases hstep with
  | times mtimeNs =>
      unfold Change.apply at h
      exact Disk.amendInfo_spec h
  | created createdNs =>
      unfold Change.apply at h
      exact Disk.amendInfo_spec h
  | attributes cleared set =>
      unfold Change.apply at h
      exact Disk.amendInfo_spec h

/-- A new directory does not matter. -/
theorem mkdir_spec {path : RelPath} (h : (Change.mkdir path).apply disk now = .ok later) :
    (∀ place, later.fileAt place = disk.fileAt place) ∧
      (∀ place, place ≠ loc path → (later.look place).isSome = (disk.look place).isSome) ∧
      (disk.store.Rooted → later.store.Rooted) := by
  unfold Change.apply at h
  obtain ⟨hfree, hfiles, hlook, hrooted⟩ := Disk.create_spec h
  refine ⟨fun place => ?_, hlook, hrooted⟩
  rw [hfiles]
  split
  · next heq => rw [heq, Disk.fileAt_of_look_none hfree]; rfl
  · rfl

omit [Host] in
theorem Intact.unlinked (h : Intact xset runId base disk) {path : RelPath}
    (hgone : Condemned xset runId (loc path))
    (hunlink : disk.unlink now path = .ok later) : Intact xset runId base later := by
  obtain ⟨-, hfiles, -, -, hrooted⟩ := Disk.unlink_spec hunlink
  exact h.removed (fun _ hkept => absurd hgone hkept) hfiles hrooted

/-- A temp is removed, made, written to or given metadata. -/
theorem Intact.filled (h : Intact xset runId base disk) {temp : RelPath} {step : Change}
    (htemp : IsTemp xset runId (loc temp)) (hstep : Fills temp step)
    (happly : step.apply disk now = .ok later) : Intact xset runId base later := by
  cases hstep with
  | remove =>
      unfold Change.apply Disk.removeOwnedTemp at happly
      dsimp only at happly
      split at happly
      · exact Except.ok.inj happly ▸ h
      · exact h.unlinked (.temp htemp) happly
  | create =>
      unfold Change.apply at happly
      obtain ⟨-, hfiles, -, hrooted⟩ := Disk.create_spec happly
      exact h.created htemp hfiles hrooted
  | write bytes =>
      unfold Change.apply at happly
      obtain ⟨file, hfile, hfiles, -, hrooted⟩ := Disk.write_spec happly
      exact h.written htemp hfile hfiles hrooted
  | metadata hmeta =>
      obtain ⟨hfiles, -, hrooted⟩ := metadata_spec hmeta happly
      exact h.same hfiles hrooted

omit [Host] in
/-- A complete temp is published where nothing is. -/
theorem Intact.renamedTemp (h : Intact xset runId base disk) {temp target : RelPath}
    (htemp : IsTemp xset runId (loc temp)) (hfinal : ¬ IsTemp xset runId (loc target))
    (hready : Ready xset runId base disk (.rename temp target))
    (happly : disk.rename now temp target = .ok later) : Intact xset runId base later := by
  obtain ⟨hvacant, -, hfolder, hfiles, -, hrooted⟩ := Disk.rename_spec happly
  have hapart : loc temp ≠ loc target := fun heq => hfinal (heq ▸ htemp)
  obtain ⟨file, hfile, hknown⟩ := hready hapart htemp
  refine h.published htemp temp.keyParts_ne_nil hfile hknown hfinal hvacant hfiles
    (hrooted fun _ => ?_)
  exact Disk.not_prefix_of_folder h.rooted hfile temp.keyParts_ne_nil hfolder hapart

omit [Host] in
/-- A renaming of the user's, be it of a name only. -/
theorem Intact.renamed (hapart : Apart xset runId) (h : Intact xset runId base disk)
    {source target : RelPath} (hmoves : Moves xset runId source target)
    (happly : disk.rename now source target = .ok later) : Intact xset runId base later := by
  obtain ⟨hvacant, -, -, hfiles, -, hrooted⟩ := Disk.rename_spec happly
  by_cases hsame : loc source = loc target
  · refine h.same (fun place => ?_) (hrooted fun hne => absurd hsame hne)
    rw [hfiles, hsame]
    split
    · next hin =>
        obtain ⟨rest, rfl⟩ := hin
        rw [List.drop_left]
    · rfl
  · obtain ⟨hout, htemps, hcondemned⟩ := hapart.moves source target hmoves hsame
    exact h.moved (fun place htemp => ⟨htemps place htemp, hcondemned place (.temp htemp)⟩)
      hcondemned hvacant hfiles (hrooted fun _ => hout)

omit [Host] in
/-- A complete temp takes the place of a file. -/
theorem Intact.replaced (h : Intact xset runId base disk) {temp target : RelPath}
    (htemp : IsTemp xset runId (loc temp)) (hfinal : ¬ IsTemp xset runId (loc target))
    (hready : Ready xset runId base disk (.replace temp target))
    (happly : disk.replace now temp target = .ok later) : Intact xset runId base later := by
  have hapart : loc temp ≠ loc target := fun heq => hfinal (heq ▸ htemp)
  obtain ⟨⟨file, hfile, hknown⟩, hsafe⟩ := hready
  unfold Disk.replace at happly
  split at happly
  · exact h.renamedTemp htemp hfinal (fun _ _ => ⟨file, hfile, hknown⟩) happly
  · split at happly
    · cases happly
    · split at happly
      · cases happly
      · split at happly
        · cases happly
        · next cleared hcleared =>
            obtain ⟨-, hfiles, -, -, hrooted⟩ := Disk.unlink_spec hcleared
            have hintact : Intact xset runId base cleared :=
              h.removed hsafe hfiles hrooted
            refine hintact.renamedTemp htemp hfinal (fun _ _ => ⟨file, ?_, hknown⟩) happly
            rw [hfiles, if_neg hapart]
            exact hfile

/-- The changes of one operation. -/
def OwnChange (xset : ExecutionSet) (runId : RunId) (operation : PlanOperation) (step : Change) :
    Prop :=
  Reaches xset runId operation step ∨ operation.kind = .mkdir ∧
    (step = .mkdir operation.targetRelPath ∨ MetadataOf operation.targetRelPath step)

omit [Host] in
theorem counts_of_copies {operation : PlanOperation}
    (h : operation.kind = .copy ∨ operation.kind = .moveUpdate) :
    countsBytes operation.kind = true := by
  rcases h with h | h <;> rw [h] <;> rfl

omit [Host] in
theorem counts_of_update {operation : PlanOperation} (h : operation.kind = .update) :
    countsBytes operation.kind = true := by
  rw [h]
  rfl

/-- Every change of an operation keeps the target tree intact, where one
that publishes finds what it needs. -/
theorem Intact.change (hapart : Apart xset runId) (h : Intact xset runId base disk)
    {operation : PlanOperation} (hchosen : Chosen xset operation) {step : Change}
    (hstep : OwnChange xset runId operation step) (hready : Ready xset runId base disk step)
    (happly : step.apply disk now = .ok later) : Intact xset runId base later := by
  rcases hstep with hreach | ⟨hkind, rfl | hmeta⟩
  · cases hreach with
    | fill hkind hfills => exact h.filled (.own hchosen hkind) hfills happly
    | finish hkind hmeta =>
        obtain ⟨hfiles, -, hrooted⟩ := metadata_spec hmeta happly
        exact h.same hfiles hrooted
    | publish hkind =>
        have hcounts := counts_of_copies hkind
        exact h.renamedTemp (.own hchosen hcounts) (hapart.targets operation hchosen hcounts)
          hready happly
    | replace hkind =>
        have hcounts := counts_of_update hkind
        exact h.replaced (.own hchosen hcounts) (hapart.targets operation hchosen hcounts)
          hready happly
    | link hkind htrash =>
        unfold Change.apply at happly
        obtain ⟨hfree, -, hfiles, -, hrooted⟩ := Disk.link_spec happly
        exact h.linked (hapart.targets operation hchosen (counts_of_update hkind))
          (not_temp_of_not_condemned (hapart.backups operation hchosen hkind htrash))
          hfree hfiles hrooted
    | fillBackup hkind htrash hfills => exact h.filled (.backup hchosen hkind) hfills happly
    | publishBackup hkind htrash =>
        exact h.renamedTemp (.backup hchosen hkind)
          (not_temp_of_not_condemned (hapart.backups operation hchosen hkind htrash))
          hready happly
    | finishBackup hkind hmeta =>
        obtain ⟨hfiles, -, hrooted⟩ := metadata_spec hmeta happly
        exact h.same hfiles hrooted
    | folder hpath hfolder =>
        obtain ⟨hfiles, -, hrooted⟩ := mkdir_spec happly
        exact h.same hfiles hrooted
    | move hkind hprior => exact h.renamed hapart (.move hchosen hkind hprior) happly
    | trashPrior hkind hprior => exact h.renamed hapart (.prior hchosen hkind hprior) happly
    | trash hkind => exact h.renamed hapart (.trash hchosen hkind) happly
    | removeFile hkind hfile => exact h.unlinked (.delete hchosen hkind hfile) happly
    | removeDirectory hkind =>
        unfold Change.apply at happly
        obtain ⟨hfiles, -, hrooted⟩ := Disk.rmdir_spec happly
        exact h.same hfiles hrooted
    | readonly hkind hmeta =>
        obtain ⟨hfiles, -, hrooted⟩ := metadata_spec hmeta happly
        exact h.same hfiles hrooted
  · obtain ⟨hfiles, -, hrooted⟩ := mkdir_spec happly
    exact h.same hfiles hrooted
  · obtain ⟨hfiles, -, hrooted⟩ := metadata_spec hmeta happly
    exact h.same hfiles hrooted

/-! ## What a change leaves alone

The converse: a place that an operation does not touch keeps its file. -/

omit [Host] in
theorem rename_frame {source target : RelPath} {place : List Str}
    (happly : disk.rename now source target = .ok later) (hsource : ¬ loc source <+: place)
    (htarget : ¬ loc target <+: place) : later.fileAt place = disk.fileAt place := by
  obtain ⟨-, -, -, hfiles, -, -⟩ := Disk.rename_spec happly
  rw [hfiles, if_neg htarget, if_neg hsource]

omit [Host] in
theorem unlink_frame {path : RelPath} {place : List Str}
    (happly : disk.unlink now path = .ok later) (hout : ¬ loc path <+: place) :
    later.fileAt place = disk.fileAt place := by
  obtain ⟨-, hfiles, -, -, -⟩ := Disk.unlink_spec happly
  have hne : place ≠ loc path := fun heq => hout (heq ▸ List.prefix_rfl)
  rw [hfiles, if_neg hne]

omit [Host] in
theorem replace_frame {source target : RelPath} {place : List Str}
    (happly : disk.replace now source target = .ok later) (hsource : ¬ loc source <+: place)
    (htarget : ¬ loc target <+: place) : later.fileAt place = disk.fileAt place := by
  unfold Disk.replace at happly
  split at happly
  · exact rename_frame happly hsource htarget
  · split at happly
    · cases happly
    · split at happly
      · cases happly
      · split at happly
        · cases happly
        · next hcleared =>
            exact (rename_frame happly hsource htarget).trans (unlink_frame hcleared htarget)

theorem Intact.filled_frame (h : Intact xset runId base disk) {temp : RelPath} {step : Change}
    (htemp : IsTemp xset runId (loc temp)) (hstep : Fills temp step) {place : List Str}
    (happly : step.apply disk now = .ok later) (hout : ¬ loc temp <+: place) :
    later.fileAt place = disk.fileAt place := by
  have hne : place ≠ loc temp := fun heq => hout (heq ▸ List.prefix_rfl)
  cases hstep with
  | remove =>
      unfold Change.apply Disk.removeOwnedTemp at happly
      dsimp only at happly
      split at happly
      · rw [Except.ok.inj happly]
      · exact unlink_frame happly hout
  | create =>
      unfold Change.apply at happly
      obtain ⟨-, hfiles, -, -⟩ := Disk.create_spec happly
      rw [hfiles, if_neg hne]
  | write bytes =>
      unfold Change.apply at happly
      obtain ⟨file, hfile, hfiles, -, -⟩ := Disk.write_spec happly
      rw [hfiles]
      cases hget : disk.fileAt place with
      | none => rfl
      | some other =>
          rw [Option.map_some, if_neg (h.fresh _ place file other htemp hne hfile hget).symm]
  | metadata hmeta => exact (metadata_spec hmeta happly).1 place

/-- A change of an operation touches no file beyond its places. -/
theorem Intact.change_frame (h : Intact xset runId base disk) {operation : PlanOperation}
    (hchosen : Chosen xset operation) {step : Change}
    (hstep : OwnChange xset runId operation step) {place : List Str}
    (hout : ¬ Touches runId operation place) (happly : step.apply disk now = .ok later) :
    later.fileAt place = disk.fileAt place := by
  have hfar : ∀ path ∈ placesOf runId operation, ¬ loc path <+: place :=
    fun path hmem hin => hout ⟨path, hmem, hin⟩
  rcases hstep with hreach | ⟨hkind, rfl | hmeta⟩
  · cases hreach with
    | fill hkind hfills =>
        refine h.filled_frame (.own hchosen hkind) hfills happly (hfar _ ?_)
        unfold placesOf countsBytes at *
        cases hoperation : operation.kind <;> simp_all
    | finish hkind hmeta => exact (metadata_spec hmeta happly).1 place
    | publish hkind =>
        refine rename_frame happly (hfar _ ?_) (hfar _ ?_)
        · rcases hkind with hkind | hkind <;> simp [placesOf, hkind]
        · rcases hkind with hkind | hkind <;> simp [placesOf, hkind]
    | replace hkind =>
        exact replace_frame happly (hfar _ (by simp [placesOf, hkind]))
          (hfar _ (by simp [placesOf, hkind]))
    | link hkind htrash =>
        unfold Change.apply at happly
        obtain ⟨-, -, hfiles, -, -⟩ := Disk.link_spec happly
        have hout : ¬ loc (trashPath runId operation.targetRelPath) <+: place :=
          hfar _ (by simp [placesOf, hkind])
        have hne : place ≠ loc (trashPath runId operation.targetRelPath) := fun heq =>
          hout (heq ▸ List.prefix_rfl)
        rw [hfiles, if_neg hne]
    | fillBackup hkind htrash hfills =>
        exact h.filled_frame (.backup hchosen hkind) hfills happly
          (hfar _ (by simp [placesOf, hkind]))
    | publishBackup hkind htrash =>
        exact rename_frame happly (hfar _ (by simp [placesOf, hkind]))
          (hfar _ (by simp [placesOf, hkind]))
    | finishBackup hkind hmeta => exact (metadata_spec hmeta happly).1 place
    | folder hpath hfolder => exact (mkdir_spec happly).1 place
    | move hkind hprior =>
        refine rename_frame happly (hfar _ ?_) (hfar _ ?_)
        · rcases hkind with hkind | hkind <;> simp [placesOf, hkind, hprior]
        · rcases hkind with hkind | hkind <;> simp [placesOf, hkind]
    | trashPrior hkind hprior =>
        exact rename_frame happly (hfar _ (by simp [placesOf, hkind, hprior]))
          (hfar _ (by simp [placesOf, hkind, hprior]))
    | trash hkind =>
        exact rename_frame happly (hfar _ (by simp [placesOf, hkind]))
          (hfar _ (by simp [placesOf, hkind]))
    | removeFile hkind => exact unlink_frame happly (hfar _ (by simp [placesOf, hkind]))
    | removeDirectory hkind =>
        unfold Change.apply at happly
        exact (Disk.rmdir_spec happly).1 place
    | readonly hkind hmeta => exact (metadata_spec hmeta happly).1 place
  · exact (mkdir_spec happly).1 place
  · exact (metadata_spec hmeta happly).1 place

end Intact

end Executor

end NamiSync
