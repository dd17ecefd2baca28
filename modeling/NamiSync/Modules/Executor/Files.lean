/-
# `Modules.Executor.Files` — the files of a tree

What the primitives do to the bytes that are found under each name, and that
they leave a tree a tree.  Directories, times and attributes do not matter
here: a place holds a file, that is a node with its bytes, or it holds none.

## How it is used

There is one `_spec` lemma for each primitive.  It says what `fileAt` and
`look` are afterwards at every place, given that the primitive did not raise,
and that a rooted tree stays rooted.  No module above unfolds a primitive:
the arguments about bytes go through `fileAt`, those about directories through
`look` and `isFolder`.

A directory moves with all that is below it, so `rename_spec` speaks of a
prefix of the place, not of the place.
-/
import NamiSync.Modules.Executor.Disk

namespace NamiSync

namespace Executor

open FileStore

namespace Disk

/-- The node and the bytes of the file at a place. -/
def fileAt (disk : Disk) (place : List Str) : Option (Nat × List UInt8) :=
  (disk.look place).bind fun sight =>
    if sight.isDirectory then none else some (sight.node, sight.content)

variable {disk later : Disk} {place : List Str} {now : Nat}

/-! ## Looking a file up

What the look at a place has to do with the file there.  A vacant place and a
directory are alike: neither holds a file. -/

theorem fileAt_eq_some {file : Nat × List UInt8} :
    disk.fileAt place = some file ↔ ∃ sight, disk.look place = some sight ∧
      sight.isDirectory = false ∧ (sight.node, sight.content) = file := by
  unfold fileAt
  rw [Option.bind_eq_some_iff]
  refine exists_congr fun sight => and_congr_right fun _ => ?_
  cases sight.isDirectory <;> simp

theorem fileAt_of_look_none (h : disk.look place = none) : disk.fileAt place = none := by
  unfold fileAt
  rw [h]
  rfl

theorem fileAt_of_folder {sight : Sight} (h : disk.look place = some sight)
    (hkind : sight.isDirectory = true) : disk.fileAt place = none := by
  unfold fileAt
  rw [h]
  exact if_pos hkind

/-- A change of the look that keeps node and bytes keeps the file. -/
theorem fileAt_map {g : Sight → Sight} (h : later.look place = (disk.look place).map g)
    (hg : ∀ sight, disk.look place = some sight → (g sight).isDirectory = sight.isDirectory ∧
      (g sight).node = sight.node ∧ (g sight).content = sight.content) :
    later.fileAt place = disk.fileAt place := by
  unfold fileAt
  rw [h]
  cases hlook : disk.look place with
  | none => rfl
  | some sight =>
      obtain ⟨hkind, hnode, hcontent⟩ := hg sight hlook
      show (if (g sight).isDirectory then none else some ((g sight).node, (g sight).content)) =
        if sight.isDirectory then none else some (sight.node, sight.content)
      rw [hkind, hnode, hcontent]

/-! ## Metadata

Times and attributes are data of a node, and so is the time of a directory that
an entry comes to or goes from.  The files do not see these; then each primitive
gets its specification, which says where files are afterwards, that a vacant
place stays vacant where nothing is made, and that the tree stays rooted. -/

theorem amend_fileAt (disk : Disk) (node : Nat) (f : Info → Info) (place : List Str) :
    ({ disk with store := disk.store.amend node fun n =>
      { n with info := f n.info } } : Disk).fileAt place = disk.fileAt place := by
  refine fileAt_map (Store.look_amend _ _ _ _) fun sight _ => ?_
  split
  · exact ⟨rfl, rfl, rfl⟩
  · exact ⟨rfl, rfl, rfl⟩

theorem touch_fileAt (disk : Disk) (folder : List Str) (now : Nat) (place : List Str) :
    (disk.touch folder now).fileAt place = disk.fileAt place := by
  unfold touch
  split
  · split
    · exact amend_fileAt disk _ (fun info => { info with mtimeNs := now }) place
    · rfl
  · rfl

theorem touch_look (disk : Disk) (folder : List Str) (now : Nat) (place : List Str) :
    ((disk.touch folder now).look place).isSome = (disk.look place).isSome := by
  unfold touch
  split
  · split
    · show (Store.look _ _).isSome = _
      rw [Store.look_amend, Option.isSome_map]
    · rfl
  · rfl

theorem touch_rooted (h : disk.store.Rooted) (folder : List Str) (now : Nat) :
    (disk.touch folder now).store.Rooted := by
  unfold touch
  split
  · split
    · exact h.amend _ _ fun _ => rfl
    · exact h
  · exact h

theorem isFolder_iff : disk.isFolder place = true ↔ place = [] ∨ disk.store.HasFolder place := by
  unfold isFolder Store.HasFolder
  rw [Bool.or_eq_true, decide_eq_true_iff, Option.any_eq_true_iff_get]
  refine or_congr_right ⟨fun ⟨hsome, hkind⟩ => ?_, fun ⟨sight, hlook, hkind⟩ => ?_⟩
  · exact ⟨_, Option.eq_some_of_isSome hsome, hkind⟩
  · refine ⟨by rw [look, hlook]; rfl, ?_⟩
    simpa [look, hlook] using hkind

/-- Nothing is below a file. -/
theorem look_below (h : disk.store.Rooted) {file : Nat × List UInt8}
    (hfile : disk.fileAt place = some file) (hplace : place ≠ []) {rest : List Str}
    (hrest : rest ≠ []) : disk.look (place ++ rest) = none := by
  obtain ⟨sight, hlook, hkind, -⟩ := fileAt_eq_some.1 hfile
  refine h.below hplace (fun ⟨folder, hfolder, hdirectory⟩ => ?_) hrest
  rw [show disk.store.look place = some sight from hlook] at hfolder
  rw [Option.some.inj hfolder, hdirectory] at hkind
  cases hkind

/-- A file is not above a directory. -/
theorem not_prefix_of_folder (h : disk.store.Rooted) {file : Nat × List UInt8}
    (hfile : disk.fileAt place = some file) (hplace : place ≠ []) {other : List Str}
    (hfolder : disk.isFolder other.dropLast = true) (hne : place ≠ other) : ¬ place <+: other := by
  rintro ⟨rest, rfl⟩
  have hrest : rest ≠ [] := by
    rintro rfl
    exact hne (List.append_nil place).symm
  rw [List.dropLast_append_of_ne_nil hrest] at hfolder
  rcases isFolder_iff.1 hfolder with htop | ⟨sight, hlook, hdirectory⟩
  · exact hplace (List.append_eq_nil_iff.1 htop).1
  · by_cases hlast : rest.dropLast = []
    · rw [hlast, List.append_nil] at hlook
      rw [fileAt_of_folder hlook hdirectory] at hfile
      cases hfile
    · have hnone := look_below h hfile hplace hlast
      rw [show disk.look (place ++ rest.dropLast) = some sight from hlook] at hnone
      cases hnone

section Primitives

variable [Unicode] {path source target : RelPath}

/-- What `amendInfo` does: files and places stay. -/
theorem amendInfo_spec {f : Info → Info} (h : disk.amendInfo f path = .ok later) :
    (∀ place, later.fileAt place = disk.fileAt place) ∧
      (∀ place, (later.look place).isSome = (disk.look place).isSome) ∧
      (disk.store.Rooted → later.store.Rooted) := by
  unfold amendInfo at h
  split at h
  · cases h
  · obtain rfl := Except.ok.inj h
    refine ⟨fun place => amend_fileAt disk _ f place, fun place => ?_, fun hrooted => ?_⟩
    · show (Store.look _ _).isSome = _
      rw [Store.look_amend, Option.isSome_map]
    · exact hrooted.amend _ _ fun _ => rfl

/-- A new entry is at a free place of a directory. -/
theorem create_spec {isDirectory : Bool} {attributes : Nat}
    (h : disk.create isDirectory attributes now path = .ok later) :
    disk.look (loc path) = none ∧
      (∀ place, later.fileAt place = if place = loc path then
          if isDirectory then none else some (disk.store.nodes.length, [])
        else disk.fileAt place) ∧
      (∀ place, place ≠ loc path → (later.look place).isSome = (disk.look place).isSome) ∧
      (disk.store.Rooted → later.store.Rooted) := by
  unfold create at h
  split at h
  · cases h
  · next hsome =>
      have hfree : disk.look (loc path) = none := by simpa using hsome
      split at h
      · cases h
      · next hfolder =>
          obtain rfl := Except.ok.inj h
          have hlook := Store.look_alloc path.name
            (⟨isDirectory, [], ⟨now, attributes, some now⟩⟩ : Node UInt8 Info) hfree
          refine ⟨hfree, fun place => ?_, fun place hplace => ?_, fun hrooted => ?_⟩
          · rw [touch_fileAt]
            unfold fileAt look
            rw [hlook]
            split
            · rfl
            · rfl
          · rw [touch_look]
            show (Store.look _ _).isSome = _
            rw [hlook, if_neg hplace]
          · refine touch_rooted (hrooted.alloc hfree fun htop => ?_) _ _
            rw [Bool.not_eq_true, Bool.not_eq_false'] at hfolder
            exact (isFolder_iff.1 (by simpa using hfolder)).resolve_left htop

/-- What is written is added wherever the node is found. -/
theorem write_spec {bytes : List UInt8} (h : disk.write bytes now path = .ok later) :
    ∃ file, disk.fileAt (loc path) = some file ∧
      (∀ place, later.fileAt place = (disk.fileAt place).map fun other =>
        if other.1 = file.1 then (other.1, other.2 ++ bytes) else other) ∧
      (∀ place, (later.look place).isSome = (disk.look place).isSome) ∧
      (disk.store.Rooted → later.store.Rooted) := by
  unfold write at h
  split at h
  · cases h
  · next sight hlook =>
      split at h
      · cases h
      · next hkind =>
          obtain rfl := Except.ok.inj h
          rw [Bool.not_eq_true] at hkind
          refine ⟨(sight.node, sight.content), fileAt_eq_some.2 ⟨sight, hlook, hkind, rfl⟩,
            fun place => ?_, fun place => ?_, fun hrooted => hrooted.amend _ _ fun _ => rfl⟩
          · unfold fileAt look
            rw [Store.look_amend]
            cases disk.store.look place with
            | none => rfl
            | some other =>
                rw [Option.map_some, Option.bind_some, Option.bind_some]
                by_cases hnode : other.node = sight.node
                · rw [if_pos hnode]
                  show (if other.isDirectory then none
                    else some (other.node, other.content ++ bytes)) = _
                  cases other.isDirectory <;> simp [hnode]
                · rw [if_neg hnode]
                  cases other.isDirectory <;> simp [hnode]
          · show (Store.look _ _).isSome = _
            rw [Store.look_amend, Option.isSome_map]

/-- A subtree moves to a vacant place. -/
theorem rename_spec (h : disk.rename now source target = .ok later) :
    disk.store.Vacant (loc source) (loc target) ∧
      (disk.look (loc source)).isSome = true ∧
      disk.isFolder (loc target).dropLast = true ∧
      (∀ place, later.fileAt place =
        if loc target <+: place then disk.fileAt (loc source ++ place.drop (loc target).length)
        else if loc source <+: place then none else disk.fileAt place) ∧
      (∀ place, ¬ loc target <+: place → loc source <+: place ∨ disk.look place = none →
        later.look place = none) ∧
      ((loc source ≠ loc target → ¬ loc source <+: loc target) →
        disk.store.Rooted → later.store.Rooted) := by
  unfold rename at h
  split at h
  · cases h
  · next sight hlook =>
      split at h
      · cases h
      · next hfolder =>
          split at h
          · -- The two touches concern the times of the parents alone;
            -- the rest is the store's rename.
            next hvacant =>
              obtain rfl := Except.ok.inj h
              have hrename := Store.look_rename (s := disk.store) target.name hvacant
              refine ⟨hvacant, by rw [hlook]; rfl, by simpa using hfolder, fun place => ?_,
                fun place hout hnone => ?_, fun hout hrooted => ?_⟩
              · rw [touch_fileAt, touch_fileAt]
                split
                · next hbelow =>
                    unfold fileAt look
                    rw [hrename, if_pos hbelow]
                    cases disk.store.look (loc source ++ place.drop (loc target).length) with
                    | none => rfl
                    | some moved =>
                        rw [Option.map_some, Option.bind_some, Option.bind_some]
                        split <;> rfl
                · next hbelow =>
                    split
                    · next hmoved =>
                        refine fileAt_of_look_none ?_
                        show Store.look _ _ = none
                        rw [hrename, if_neg hbelow, if_pos hmoved]
                    · next hmoved =>
                        unfold fileAt look
                        rw [hrename, if_neg hbelow, if_neg hmoved]
              · rw [← Option.not_isSome_iff_eq_none, touch_look, touch_look,
                  Option.not_isSome_iff_eq_none]
                show Store.look _ _ = none
                rw [hrename, if_neg hout]
                split
                · rfl
                · next hkept => exact hnone.resolve_left hkept
              · refine touch_rooted (touch_rooted ?_ _ _) _ _
                refine hrooted.rename _ hvacant source.keyParts_ne_nil target.keyParts_ne_nil hout
                  fun htop => ?_
                exact (isFolder_iff.1 (by simpa using hfolder)).resolve_left htop
          · cases h

/-- A file goes. -/
theorem unlink_spec (h : disk.unlink now path = .ok later) :
    (∃ file, disk.fileAt (loc path) = some file) ∧
      (∀ place, later.fileAt place = if place = loc path then none else disk.fileAt place) ∧
      (∀ place, disk.look place = none → later.look place = none) ∧
      later.look (loc path) = none ∧
      (disk.store.Rooted → later.store.Rooted) := by
  unfold unlink at h
  split at h
  · cases h
  · next sight hlook =>
      split at h
      · cases h
      · next hkind =>
          obtain rfl := Except.ok.inj h
          have hgone := Store.look_unlink (s := disk.store) hlook
          rw [Bool.or_eq_true, not_or, Bool.not_eq_true, Bool.not_eq_true] at hkind
          have hfile := fileAt_eq_some.2 ⟨sight, hlook, hkind.1, rfl⟩
          refine ⟨⟨_, hfile⟩, fun place => ?_, fun place hnone => ?_, ?_, fun hrooted => ?_⟩
          · rw [touch_fileAt]
            split
            · next heq =>
                refine fileAt_of_look_none ?_
                show Store.look _ _ = none
                rw [hgone, if_pos heq]
            · next hne =>
                refine fileAt_map (g := fun k =>
                  if k.node = sight.node then { k with others := k.others - 1 } else k) ?_
                  fun k _ => ?_
                · show Store.look _ _ = _
                  rw [hgone, if_neg hne]
                · split <;> exact ⟨rfl, rfl, rfl⟩
          · rw [← Option.not_isSome_iff_eq_none, touch_look, Option.not_isSome_iff_eq_none]
            show Store.look _ _ = none
            have hnone : disk.store.look place = none := hnone
            rw [hgone, hnone]
            split <;> rfl
          · rw [← Option.not_isSome_iff_eq_none, touch_look, Option.not_isSome_iff_eq_none]
            show Store.look _ _ = none
            rw [hgone, if_pos rfl]
          · refine touch_rooted (hrooted.unlink hlook fun key => ?_) _ _
            exact look_below hrooted hfile path.keyParts_ne_nil (List.cons_ne_nil _ _)

/-- A directory goes: no file does. -/
theorem rmdir_spec (h : disk.rmdir now path = .ok later) :
    (∀ place, later.fileAt place = disk.fileAt place) ∧
      (∀ place, disk.look place = none → later.look place = none) ∧
      (disk.store.Rooted → later.store.Rooted) := by
  unfold rmdir at h
  split at h
  · cases h
  · next sight hlook =>
      split at h
      · cases h
      · next hkind =>
          split at h
          · cases h
          · split at h
            · cases h
            · next hempty =>
                obtain rfl := Except.ok.inj h
                have hgone := Store.look_unlink (s := disk.store) hlook
                rw [Bool.not_eq_true, Bool.not_eq_false'] at hkind
                refine ⟨fun place => ?_, fun place hnone => ?_, fun hrooted => ?_⟩
                · rw [touch_fileAt]
                  by_cases heq : place = loc path
                  · rw [heq, fileAt_of_folder hlook hkind]
                    refine fileAt_of_look_none ?_
                    show Store.look _ _ = none
                    rw [hgone, if_pos rfl]
                  · refine fileAt_map (g := fun k =>
                      if k.node = sight.node then { k with others := k.others - 1 } else k) ?_
                      fun k _ => ?_
                    · show Store.look _ _ = _
                      rw [hgone, if_neg heq]
                    · split <;> exact ⟨rfl, rfl, rfl⟩
                · rw [← Option.not_isSome_iff_eq_none, touch_look, Option.not_isSome_iff_eq_none]
                  show Store.look _ _ = none
                  have hnone : disk.store.look place = none := hnone
                  rw [hgone, hnone]
                  split <;> rfl
                · refine touch_rooted (hrooted.unlink hlook fun key => ?_) _ _
                  rw [Store.look_eq_none]
                  by_contra hsome
                  obtain ⟨entry, hentry⟩ := Option.ne_none_iff_exists'.1 hsome
                  rw [Bool.not_eq_true, Bool.not_eq_false'] at hempty
                  have := List.all_eq_true.1 hempty _ (Dict.get?_eq_some.1 hentry)
                  simp at this

/-- A second name for a file. -/
theorem link_spec (h : disk.link now source target = .ok later) :
    disk.look (loc target) = none ∧
      (∃ file, disk.fileAt (loc source) = some file) ∧
      (∀ place, later.fileAt place =
        if place = loc target then disk.fileAt (loc source) else disk.fileAt place) ∧
      (∀ place, place ≠ loc target → disk.look place = none → later.look place = none) ∧
      (disk.store.Rooted → later.store.Rooted) := by
  unfold link at h
  split at h
  · cases h
  · next sight hlook =>
      split at h
      · cases h
      · next hkind =>
          split at h
          · cases h
          · next hsome =>
              have hfree : disk.look (loc target) = none := by simpa using hsome
              split at h
              · cases h
              · next hfolder =>
                  obtain rfl := Except.ok.inj h
                  have hlink := Store.look_link (s := disk.store) target.name hlook hfree
                  rw [Bool.not_eq_true] at hkind
                  have hfile := fileAt_eq_some.2 ⟨sight, hlook, hkind, rfl⟩
                  refine ⟨hfree, ⟨_, hfile⟩, fun place => ?_, fun place hne hnone => ?_,
                    fun hrooted => ?_⟩
                  · rw [touch_fileAt]
                    split
                    · next heq =>
                        rw [hfile]
                        refine fileAt_eq_some.2
                          ⟨{ sight with name := target.name, others := sight.others + 1 },
                            ?_, hkind, rfl⟩
                        show Store.look _ _ = _
                        rw [hlink, if_pos heq]
                    · next hne =>
                        refine fileAt_map (g := fun k =>
                          if k.node = sight.node then { k with others := k.others + 1 } else k) ?_
                          fun k _ => ?_
                        · show Store.look _ _ = _
                          rw [hlink, if_neg hne]
                        · split <;> exact ⟨rfl, rfl, rfl⟩
                  · rw [← Option.not_isSome_iff_eq_none, touch_look, Option.not_isSome_iff_eq_none]
                    show Store.look _ _ = none
                    have hnone : disk.store.look place = none := hnone
                    rw [hlink, if_neg hne, hnone]
                    rfl
                  · refine touch_rooted (hrooted.link _ hlook hfree fun htop => ?_) _ _
                    exact (isFolder_iff.1 (by simpa using hfolder)).resolve_left htop

end Primitives

end Disk

end Executor

end NamiSync
