/-
# `Modules.Executor.TempNames` — whose temporary file a name is

The name of a temp file is the target's with a suffix of a fixed length, so a
name can be read from its end in one way only.  The grammar stops at a
newline, which the name of a target may hold.

## What is proved

    owned_temp_decodes : the name of an owned temp tells its run, and the
      default ignore rules cover it, exactly when the target's name has no
      newline; and a name that tells a run is put together in one way of a
      stem that is not empty, a run id and an operation id

The regular expression is modelled by what it matches: a stem of at least one
character that is not a newline, the mark, two texts of 32 lowercase digits.
-/
import NamiSync.Modules.Executor.Disk

namespace NamiSync

namespace Executor

/-! ## Hexadecimal texts -/

theorem isLowerHex_hexDigits {width n : Nat} : (hexDigits width n).all isLowerHex = true := by
  rw [List.all_eq_true]
  intro c hc
  rw [isLowerHex, Bool.or_eq_true, Bool.and_eq_true, Bool.and_eq_true, decide_eq_true_eq,
    decide_eq_true_eq, decide_eq_true_eq, decide_eq_true_eq]
  rcases hexDigits_lower hc with ⟨hlo, hhi⟩ | ⟨hlo, hhi⟩
  · exact Or.inl ⟨hlo, Nat.le_of_lt_succ hhi⟩
  · exact Or.inr ⟨hlo, Nat.le_of_lt_succ hhi⟩

theorem exists_hexDigit {c : CodePoint} (h : isLowerHex c = true) : ∃ d < 16, hexDigit d = c := by
  rw [isLowerHex, Bool.or_eq_true, Bool.and_eq_true, Bool.and_eq_true, decide_eq_true_eq,
    decide_eq_true_eq, decide_eq_true_eq, decide_eq_true_eq] at h
  rcases h with ⟨hlo, hhi⟩ | ⟨hlo, hhi⟩
  · have hlo : 0x30 ≤ c.val := hlo
    have hhi : c.val ≤ 0x39 := hhi
    refine ⟨c.val - 0x30, by omega, Fin.ext ?_⟩
    rw [hexDigit_val (by omega), if_pos (by omega)]
    omega
  · have hlo : 0x61 ≤ c.val := hlo
    have hhi : c.val ≤ 0x66 := hhi
    refine ⟨c.val - 0x57, by omega, Fin.ext ?_⟩
    rw [hexDigit_val (by omega), if_neg (by omega)]
    omega

/-- A text of hexadecimal digits is that of a number of its width. -/
theorem exists_hexDigits {text : Str} (h : text.all isLowerHex = true) :
    ∃ n < 16 ^ text.length, hexDigits text.length n = text := by
  induction text using List.reverseRecOn with
  | nil => exact ⟨0, by decide, rfl⟩
  | append_singleton text c ih =>
      rw [List.all_append, Bool.and_eq_true, List.all_cons, List.all_nil, Bool.and_true] at h
      obtain ⟨n, hn, htext⟩ := ih h.1
      obtain ⟨d, hd, hdigit⟩ := exists_hexDigit h.2
      refine ⟨n * 16 + d, ?_, ?_⟩
      · rw [List.length_append, List.length_singleton, Nat.pow_succ]
        omega
      · rw [List.length_append, List.length_singleton, hexDigits,
          show (n * 16 + d) / 16 = n by omega, show (n * 16 + d) % 16 = d by omega, htext, hdigit]

/-! ## Names -/

/-- The pieces of a suffix. -/
theorem tempSuffix_eq (runId : RunId) (opId : OpId) :
    tempSuffix runId opId =
      str ".synctmp-" ++ (hexDigits 32 runId ++ (0x2D :: hexDigits 32 opId)) := by
  have hdash : str "-" = [0x2D] := by decide
  rw [tempSuffix, List.append_assoc, List.append_assoc, hdash, OpId.text, List.singleton_append]

theorem length_tempSuffix (runId : RunId) (opId : OpId) : (tempSuffix runId opId).length = 74 := by
  have hword : (str ".synctmp-").length = 9 := by decide
  rw [tempSuffix_eq, List.length_append, List.length_append, List.length_cons, hexDigits_length,
    hexDigits_length, hword]

/-- What the grammar makes of a stem and a suffix. -/
theorem ownedTempRunId_append (stem : Str) (runId : RunId) (opId : OpId) :
    ownedTempRunId (stem ++ tempSuffix runId opId) =
      if stem ≠ [] ∧ 0x0A ∉ stem then some (hexDigits 32 runId) else none := by
  have hlength := length_tempSuffix runId opId
  have hstem : (stem ++ tempSuffix runId opId).length - 74 = stem.length := by
    rw [List.length_append, hlength, Nat.add_sub_cancel]
  have hword : (str ".synctmp-").length = 9 := by decide
  have hdigits : (hexDigits 32 runId).length = 32 := hexDigits_length 32 runId
  have hrun : (tempSuffix runId opId).drop 9 = hexDigits 32 runId ++ 0x2D :: hexDigits 32 opId := by
    rw [tempSuffix_eq, List.drop_left' hword]
  have hdash : (tempSuffix runId opId).drop 41 = 0x2D :: hexDigits 32 opId := by
    rw [show 41 = 9 + 32 from rfl, ← List.drop_drop, hrun, List.drop_left' hdigits]
  have hop : (tempSuffix runId opId).drop 42 = hexDigits 32 opId := by
    rw [show 42 = 41 + 1 from rfl, ← List.drop_drop, hdash]
    rfl
  have hmark : (tempSuffix runId opId).take 9 = str ".synctmp-" := by
    rw [tempSuffix_eq, List.take_left' hword]
  have hid : ((tempSuffix runId opId).drop 9).take 32 = hexDigits 32 runId := by
    rw [hrun, List.take_left' hdigits]
  have hlong : 74 < (stem ++ tempSuffix runId opId).length ↔ stem ≠ [] := by
    rw [List.length_append, hlength, ← List.length_pos_iff]
    omega
  unfold ownedTempRunId
  rw [hstem, List.take_left, List.drop_left]
  dsimp only
  rw [hid, hmark, hdash, hop]
  simp only [hlong, isLowerHex_hexDigits, List.head?_cons, and_true]

/-- A text of the grammar's length is put together of its pieces. -/
theorem eq_tempSuffix {tail : Str} {runId : RunId} {opId : OpId}
    (hmark : tail.take 9 = str ".synctmp-")
    (hrun : (tail.drop 9).take 32 = hexDigits 32 runId) (hdash : (tail.drop 41).head? = some 0x2D)
    (hop : tail.drop 42 = hexDigits 32 opId) : tail = tempSuffix runId opId := by
  have hend : tail.drop 41 = 0x2D :: hexDigits 32 opId := by
    rw [← hop, ← List.cons_head?_tail hdash, List.tail_drop]
  calc tail = tail.take 9 ++ ((tail.drop 9).take 32 ++ (tail.drop 9).drop 32) := by
        rw [List.take_append_drop, List.take_append_drop]
    _ = tempSuffix runId opId := by
        rw [hmark, hrun, List.drop_drop, hend, tempSuffix_eq]

/-- A name that the grammar accepts. -/
theorem exists_tempSuffix {name : Str} (h : ownedTempRunId name ≠ none) :
    ∃ stem runId opId, stem ≠ [] ∧ name = stem ++ tempSuffix runId opId := by
  unfold ownedTempRunId at h
  dsimp only at h
  split at h
  · next haccepted =>
      obtain ⟨hlong, -, hmark, hrun, hdash, hop⟩ := haccepted
      have htail : (name.drop (name.length - 74)).length = 74 := by
        rw [List.length_drop]
        omega
      have hrunLength : (((name.drop (name.length - 74)).drop 9).take 32).length = 32 := by
        rw [List.length_take, List.length_drop, htail]
        rfl
      have hopLength : ((name.drop (name.length - 74)).drop 42).length = 32 := by
        rw [List.length_drop, htail]
      obtain ⟨run, hrunLt, hrunText⟩ := exists_hexDigits hrun
      obtain ⟨op, hopLt, hopText⟩ := exists_hexDigits hop
      rw [hrunLength] at hrunLt hrunText
      rw [hopLength] at hopLt hopText
      refine ⟨name.take (name.length - 74), ⟨run, hrunLt⟩, ⟨op, hopLt⟩, ?_, ?_⟩
      · intro hnil
        have hlen := congrArg List.length hnil
        rw [List.length_take, List.length_nil] at hlen
        omega
      · have hsplit : name.drop (name.length - 74) = tempSuffix ⟨run, hrunLt⟩ ⟨op, hopLt⟩ :=
          eq_tempSuffix hmark hrunText.symm hdash hopText.symm
        rw [← hsplit, List.take_append_drop]
  · exact absurd rfl h

theorem tempSuffix_inj {stem stem' : Str} {runId runId' : RunId} {opId opId' : OpId}
    (h : stem ++ tempSuffix runId opId = stem' ++ tempSuffix runId' opId') :
    stem = stem' ∧ runId = runId' ∧ opId = opId' := by
  obtain ⟨hstem, hsuffix⟩ := List.append_inj' h (by rw [length_tempSuffix, length_tempSuffix])
  rw [tempSuffix_eq, tempSuffix_eq] at hsuffix
  obtain ⟨hrun, hop⟩ := List.append_inj (List.append_cancel_left hsuffix)
    (by rw [hexDigits_length, hexDigits_length])
  exact ⟨hstem, Fin.ext (hexDigits_inj runId.isLt runId'.isLt hrun),
    Fin.ext (hexDigits_inj opId.isLt opId'.isLt (List.cons.inj hop).2)⟩

section Paths

variable [Unicode]

theorem name_ownedTemp (target : RelPath) (runId : RunId) (opId : OpId) :
    (ownedTemp target runId opId).name = target.name ++ tempSuffix runId opId :=
  List.getLast_append_singleton _

/-- A temp name says which run it is of, and is kept out of the scans,
exactly when there is no newline in the target's name; and a name that says
so is that of one target, one run and one operation. -/
theorem owned_temp_decodes :
    (∀ (target : RelPath) (runId : RunId) (opId : OpId),
      (ownedTempRunId (ownedTemp target runId opId).name = some (hexDigits 32 runId) ∧
        ({} : IgnoreSet).excludes (ownedTemp target runId opId) false = true) ↔
      0x0A ∉ target.name) ∧
    ∀ name, ownedTempRunId name ≠ none →
      ∃! owner : Str × RunId × OpId,
        owner.1 ≠ [] ∧ name = owner.1 ++ tempSuffix owner.2.1 owner.2.2 := by
  constructor
  · intro target runId opId
    have hne : target.name ≠ [] := target.isComponent_name.ne_nil
    have hdecode := ownedTempRunId_append target.name runId opId
    rw [← name_ownedTemp] at hdecode
    constructor
    · rintro ⟨hrun, -⟩ hnewline
      rw [hdecode, if_neg fun h => h.2 hnewline] at hrun
      cases hrun
    · intro hplain
      rw [if_pos ⟨hne, hplain⟩] at hdecode
      refine ⟨hdecode, ?_⟩
      unfold IgnoreSet.excludes
      rw [hdecode]
      simp only [Option.isSome_some, Bool.not_false, Bool.and_true]
      split
      · rfl
      · split
        · rfl
        · split <;> rfl
  · intro name hname
    obtain ⟨stem, runId, opId, hstem, rfl⟩ := exists_tempSuffix hname
    refine ⟨(stem, runId, opId), ⟨hstem, rfl⟩, ?_⟩
    rintro ⟨stem', runId', opId'⟩ ⟨-, heq⟩
    obtain ⟨rfl, rfl, rfl⟩ := tempSuffix_inj heq
    rfl

end Paths

section Sample

local instance newlineUnicode : Unicode := asciiUnicode

/-- The target `a`, newline, `b`. -/
def newlineTarget : RelPath := ⟨[[0x61, 0x0A, 0x62]], by decide, by decide +kernel⟩

theorem owned_temp_newline :
    validateRelativePath [0x61, 0x0A, 0x62] = .ok newlineTarget ∧
      ownedTempRunId (ownedTemp newlineTarget 1 2).name = none ∧
      ({} : IgnoreSet).excludes (ownedTemp newlineTarget 1 2) false = false := by
  refine ⟨validate_text newlineTarget, by decide +kernel, by decide +kernel⟩

end Sample

end Executor

end NamiSync
