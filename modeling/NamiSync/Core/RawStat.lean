/-
# `Core.RawStat` — an `os.stat_result` and the checked records

What the operating system reports, with every number an integer of either
sign, and the constructors of the records of `core/models.py` with the checks
of their `__post_init__`, which raise `ValueError`.

`checked_eq_ok` says for each constructor when it returns and what it returns.
`Modules.StatSnapshot` and `Modules.Totality` compare and follow the four
conversions with these alone.
-/
import NamiSync.Core.Models
import Mathlib.Data.Int.Bitwise

namespace NamiSync

/-- The `OSError` subclasses that are told apart. -/
inductive OsErrorKind
  | permission | fileNotFound | other
  deriving DecidableEq, Repr

structure OsError where
  kind : OsErrorKind
  text : Str
  deriving DecidableEq

/-- What `S_ISREG`, `S_ISDIR` and `S_ISLNK` say of `st_mode`. -/
inductive FileMode
  | regular | directory | link | other
  deriving DecidableEq, Repr

/-- The fields of `os.stat_result` that are read; those that some platforms
lack are optional. -/
structure RawStat where
  mode : FileMode
  size : Int
  mtimeNs : Int
  ino : Int
  nlink : Int
  fileAttributes : Option Int := none
  reparseTag : Option Int := none
  birthtimeNs : Option Int := none
  ctimeNs : Option Int := none
  deriving DecidableEq

/-- `getattr(stat, "st_file_attributes", 0)`. -/
def RawStat.attributes (stat : RawStat) : Int := stat.fileAttributes.getD 0

/-- `st_birthtime_ns`, or on Windows `st_ctime_ns`. -/
def RawStat.createdNs (nt : Bool) (stat : RawStat) : Option Int :=
  match stat.birthtimeNs with
  | some value => some value
  | none => if nt then stat.ctimeNs else none

/-- The text of a `ValueError`. -/
structure ValueError where
  text : Str
  deriving DecidableEq

/-- `MetadataSnapshot(attributes, created_ns)`. -/
def MetadataSnapshot.checked (attributes : Int) (createdNs : Option Int) :
    Except ValueError MetadataSnapshot :=
  if attributes < 0 then .error ⟨str "attributes cannot be negative"⟩
  else
    match createdNs with
    | none => .ok ⟨attributes.toNat, none⟩
    | some created =>
        if created < 0 then .error ⟨str "creation time cannot be negative"⟩
        else .ok ⟨attributes.toNat, some created.toNat⟩

/-- `FileIdentity(volume_serial, file_index)`. -/
def FileIdentity.checked (volumeSerial : Str) (fileIndex : Int) : Except ValueError FileIdentity :=
  if h : volumeSerial = [] ∨ fileIndex < 0 then .error ⟨str "invalid file identity"⟩
  else .ok ⟨volumeSerial, fileIndex.toNat, fun hnil => h (Or.inl hnil)⟩

/-- `FileStat(kind, size, mtime_ns, file_identity, nlink, metadata)`. -/
def FileStat.checked (kind : EntryKind) (size mtimeNs : Int) (fileIdentity : Option FileIdentity)
    (nlink : Int) (metadata : MetadataSnapshot) : Except ValueError FileStat :=
  if size < 0 ∨ mtimeNs < 0 then .error ⟨str "file stat size and mtime cannot be negative"⟩
  else if h : nlink < 1 then .error ⟨str "link count must be positive"⟩
  else
    .ok
      { kind := kind
        size := size.toNat
        mtimeNs := mtimeNs.toNat
        fileIdentity := fileIdentity
        nlink := nlink.toNat
        metadata := metadata
        nlink_pos := by omega }

/-! ## When a record can be built -/

/-- The creation time is missing or not before the epoch. -/
def CreatedRepresentable (createdNs : Option Int) : Prop :=
  ∀ created, createdNs = some created → 0 ≤ created

theorem MetadataSnapshot.checked_eq_ok {attributes : Int} {createdNs : Option Int}
    {metadata : MetadataSnapshot} :
    MetadataSnapshot.checked attributes createdNs = .ok metadata ↔
      0 ≤ attributes ∧ CreatedRepresentable createdNs ∧
        metadata = ⟨attributes.toNat, createdNs.map Int.toNat⟩ := by
  unfold MetadataSnapshot.checked CreatedRepresentable
  by_cases hneg : attributes < 0
  · rw [if_pos hneg]
    simp only [reduceCtorEq, false_iff]
    exact fun h => absurd h.1 (by omega)
  · rw [if_neg hneg]
    have hnonneg : 0 ≤ attributes := by omega
    cases createdNs with
    | none => simp [hnonneg, eq_comm]
    | some created =>
        dsimp only
        split
        · next h =>
            simp only [reduceCtorEq, false_iff]
            exact fun hall => absurd (hall.2.1 created rfl) (by omega)
        · next h =>
            have hcreated : 0 ≤ created := by omega
            simp [hnonneg, hcreated, eq_comm]

theorem FileIdentity.checked_eq_ok {volumeSerial : Str} {fileIndex : Int}
    (hserial : volumeSerial ≠ []) {identity : FileIdentity} :
    FileIdentity.checked volumeSerial fileIndex = .ok identity ↔
      0 ≤ fileIndex ∧ identity = ⟨volumeSerial, fileIndex.toNat, hserial⟩ := by
  unfold FileIdentity.checked
  split
  · next h =>
      simp only [reduceCtorEq, false_iff]
      exact fun hall => absurd hall.1 (by rcases h with h | h <;> [exact absurd h hserial; omega])
  · next h =>
      have hnonneg : 0 ≤ fileIndex := by
        by_contra hneg
        exact h (Or.inr (by omega))
      simp [hnonneg, eq_comm]

theorem FileStat.checked_eq_ok {kind : EntryKind} {size mtimeNs nlink : Int}
    {fileIdentity : Option FileIdentity} {metadata : MetadataSnapshot} {stat : FileStat} :
    FileStat.checked kind size mtimeNs fileIdentity nlink metadata = .ok stat ↔
      (0 ≤ size ∧ 0 ≤ mtimeNs ∧ 1 ≤ nlink) ∧
        stat.kind = kind ∧ stat.size = size.toNat ∧ stat.mtimeNs = mtimeNs.toNat ∧
          stat.fileIdentity = fileIdentity ∧ stat.nlink = nlink.toNat ∧
            stat.metadata = metadata := by
  unfold FileStat.checked
  split
  · next h =>
      simp only [reduceCtorEq, false_iff]
      exact fun hall => absurd h (by omega)
  · next h =>
      split
      · next hlink =>
          simp only [reduceCtorEq, false_iff]
          exact fun hall => absurd hlink (by omega)
      · next hlink =>
          have hbounds : 0 ≤ size ∧ 0 ≤ mtimeNs ∧ 1 ≤ nlink := by omega
          obtain ⟨kind', size', mtimeNs', fileIdentity', nlink', metadata', pos⟩ := stat
          simp only [Except.ok.injEq, FileStat.mk.injEq, hbounds, true_and, and_self]
          constructor
          · rintro ⟨rfl, rfl, rfl, rfl, rfl, rfl⟩
            simp
          · rintro ⟨rfl, rfl, rfl, rfl, rfl, rfl⟩
            simp

end NamiSync
