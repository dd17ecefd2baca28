/-
# `Modules.StatSnapshot` — four conversions of one `os.stat` result

The scanner, the preflight observer and the executor (twice) each turn an
`os.stat_result` into a `FileStat` of their own.  The scanner tolerates a
link count of zero, an odd inode number and a creation time before the epoch,
the observer the first two, the executor none: there the checks of the
records raise.

## What is proved

    stats_agree : for every stat result that the scanner records, observer and
      executor make the same stat of it, preflight finds no difference and the
      executor's guards accept, exactly when the inode number is not negative,
      the link count is positive and the creation time is missing or not
      before the epoch

`ancient_file` is a file with the creation time of FILETIME zero, which the
scanner records without a creation time and the observer cannot read.

## What it is not

All four conversions get one and the same result.  A file that changes
between the scan and the observation is drift, the subject of
`Modules.Drift`.
-/
import NamiSync.Modules.Guards
import NamiSync.Modules.Preflight
import NamiSync.Modules.Scanner

namespace NamiSync

/-! ## The scanner -/

namespace RawStat

variable (nt : Bool) (volume : VolumeSnapshot) (stat : RawStat)

/-- `_created_ns`. -/
def scannedCreatedNs : Option Int := (stat.createdNs nt).filter (0 ≤ ·)

/-- `_file_identity`. -/
def scannedIdentity : Except ValueError (Option FileIdentity) :=
  if volume.profile.stableFileIdentity then
    if stat.ino ≤ 0 then .ok none
    else some <$> FileIdentity.checked volume.volumeId.serial stat.ino
  else .ok none

/-- `_to_stat`. -/
def scanned (kind : EntryKind) : Except ValueError FileStat := do
  let identity ← scannedIdentity volume stat
  let metadata ← MetadataSnapshot.checked stat.attributes (scannedCreatedNs nt stat)
  FileStat.checked kind (if kind = .file then stat.size else 0) stat.mtimeNs identity
    (max 1 stat.nlink) metadata

/-- `_is_placeholder`. -/
def placeholder : Bool :=
  Int.land stat.attributes fileAttributeReparsePoint ≠ 0 &&
    Int.land stat.attributes (fileAttributeOffline ||| fileAttributeRecallOnOpen |||
      fileAttributeRecallOnDataAccess : Nat) ≠ 0

/-- `_is_reparse`. -/
def reparse : Bool :=
  Int.land stat.attributes fileAttributeReparsePoint ≠ 0 || stat.reparseTag.getD 0 ≠ 0

/-- What the scanner records of an entry, if it supports it: the tests on
the stat result in the loop of `_scan_full`. -/
def recorded : Except ValueError (Option FileStat) :=
  if stat.placeholder || stat.reparse then .ok none
  else
    match stat.mode with
    | .directory => some <$> stat.scanned nt volume .directory
    | .regular => some <$> stat.scanned nt volume .file
    | .link | .other => .ok none

end RawStat

/-- The result as the walking scanner's model reads it. -/
def StatResult.raw (mode : FileMode) (stat : StatResult) : RawStat where
  mode := mode
  size := stat.size
  mtimeNs := stat.mtimeNs
  ino := stat.ino
  nlink := stat.nlink
  fileAttributes := some (stat.fileAttributes : Int)
  reparseTag := some (stat.reparseTag : Int)
  birthtimeNs := stat.birthtimeNs
  ctimeNs := some stat.ctimeNs

/-- On Windows, and of a result without negative numbers, the scanner makes
what the walking scanner's model says. -/
theorem StatResult.scanned_raw (stat : StatResult) (mode : FileMode) (kind : EntryKind)
    (volume : VolumeSnapshot) :
    (stat.raw mode).scanned true volume kind = .ok (toStat stat kind volume) := by
  have hidentity : (stat.raw mode).scannedIdentity volume = .ok (fileIdentity stat volume) := by
    unfold RawStat.scannedIdentity fileIdentity
    split
    · by_cases hino : stat.ino = 0
      · simp [raw, hino]
      · have hpos : ¬ (stat.raw mode).ino ≤ 0 := by simp [raw]; omega
        rw [if_neg hpos, if_neg hino]
        exact Checked.map_eq_ok.2 ⟨_, (FileIdentity.checked_eq_ok volume.volumeId.serial_ne).2
          ⟨by simp [raw], rfl⟩, by simp [raw]⟩
    · rfl
  have hcreated : CreatedRepresentable ((stat.raw mode).scannedCreatedNs true) := by
    intro created h
    exact of_decide_eq_true (Option.filter_eq_some_iff.1 h).2
  have hmap : ((stat.raw mode).scannedCreatedNs true).map Int.toNat = createdNs stat := by
    unfold RawStat.scannedCreatedNs RawStat.createdNs createdNs
    cases hbirth : stat.birthtimeNs with
    | none => by_cases h : 0 ≤ stat.ctimeNs <;> simp [raw, hbirth, Option.filter, h]
    | some value => by_cases h : 0 ≤ value <;> simp [raw, hbirth, Option.filter, h]
  unfold RawStat.scanned
  rw [hidentity, Checked.ok_bind]
  refine Checked.bind_eq_ok.2
    ⟨_, MetadataSnapshot.checked_eq_ok.2 ⟨by simp [raw, RawStat.attributes], hcreated, rfl⟩,
      FileStat.checked_eq_ok.2 ⟨⟨by split <;> simp [raw], by simp [raw], by simp⟩, rfl, ?_,
        by simp [raw, toStat], rfl, ?_, ?_⟩⟩
  · unfold toStat
    cases kind <;> simp [raw]
  · simp only [toStat, raw]
    omega
  · rw [hmap]
    simp [toStat, raw, RawStat.attributes]

/-! ## The preflight observer -/

/-- What the operating system answers the observer about one path. -/
structure LocalAnswers where
  resolvedRoot : Except OsError Str
  resolvedCandidate : Except OsError Str
  observed : Except OsError RawStat
  volumeId : Except OsError VolumeId

namespace RawStat

variable (nt : Bool) (profile : CapabilityProfile) (volumeId : VolumeId) (stat : RawStat)

/-- The identity the observer gives an entry. -/
def observedIdentity : Except ValueError (Option FileIdentity) :=
  if profile.stableFileIdentity ∧ 0 < stat.ino then
    some <$> FileIdentity.checked volumeId.serial stat.ino
  else .ok none

/-- The snapshot of `LocalObservationFileSystem.stat`. -/
def observedStat (kind : EntryKind) (size : Int) : Except ValueError FileStat := do
  let identity ← observedIdentity profile volumeId stat
  let metadata ← MetadataSnapshot.checked stat.attributes (stat.createdNs nt)
  FileStat.checked kind size stat.mtimeNs identity (max 1 stat.nlink) metadata

end RawStat

/-- The end of the observer's `stat`, from the kind of the entry on. -/
def observeEntry (nt : Bool) (profile : CapabilityProfile) (volumeId : Except OsError VolumeId)
    (representable : Bool) (stat : RawStat) : StatObservation :=
  let snapshot (kind : EntryKind) (size : Int) : StatObservation :=
    match volumeId with
    | .error error => ⟨none, some error.text, true, false⟩
    | .ok volumeId =>
        match stat.observedStat nt profile volumeId kind size with
        | .error error => ⟨none, some error.text, true, false⟩
        | .ok stat => ⟨some stat, none, true, representable⟩
  match stat.mode with
  | .regular => snapshot .file stat.size
  | .directory => snapshot .directory 0
  | .link | .other => ⟨none, some (str "unsupported entry type"), true, representable⟩

/-- `LocalObservationFileSystem.stat`. -/
def localStat [Unicode] [OsPath] (nt : Bool) (root : Root) (path : RelPath)
    (profile : CapabilityProfile) (answers : LocalAnswers) : StatObservation :=
  match joinUnderRoot root.path path, answers.resolvedRoot, answers.resolvedCandidate with
  | none, _, _ => ⟨none, some (str "relative path escapes its root"), true, false⟩
  | _, .error error, _ | _, _, .error error => ⟨none, some error.text, true, false⟩
  | some _, .ok resolvedRoot, .ok resolvedCandidate =>
      let contained := isPathBelow resolvedCandidate resolvedRoot
      let representable := decide (resolvedCandidate.length ≤ profile.maxPath)
      if contained then
        match answers.observed with
        | .error error =>
            if error.kind = .fileNotFound then ⟨none, none, true, representable⟩
            else ⟨none, some error.text, true, false⟩
        | .ok stat => observeEntry nt profile answers.volumeId representable stat
      else ⟨none, some (str "resolved path escapes root"), false, representable⟩

/-! ## The executor -/

/-- What the operating system answers the executor about one path; `resolve`
is what `NativeFileSystem.resolve` raises, if it does. -/
structure NativeAnswers where
  path : Str
  resolve : Except NativeError Unit
  lexists : Bool
  lstat : Except OsError RawStat
  stat : Except OsError RawStat
  volumeSerial : Except OsError Str

/-- Lift what a system call or a record raises. -/
def raises {α ε : Type} (wrap : ε → NativeError) : Except ε α → Except NativeError α
  | .ok a => .ok a
  | .error error => .error (wrap error)

theorem raises_eq_ok {α ε : Type} {wrap : ε → NativeError} {x : Except ε α} {a : α} :
    raises wrap x = .ok a ↔ x = .ok a := by
  cases x <;> simp [raises]

/-- `_reject_reparse`. -/
def rejectReparse (answers : NativeAnswers) : Except NativeError Unit := do
  let info ← raises .os answers.lstat
  if info.mode = .link ∨ Int.land info.attributes fileAttributeReparsePoint ≠ 0 then
    .error (.unsafePath (str "reparse points are not executable: " ++ answers.path))
  else .ok ()

/-- The `FileStat` both of the executor's functions build. -/
def nativeSnapshot (nt : Bool) (volumeSerial : Except OsError Str) (info : RawStat)
    (kind : EntryKind) (size : Int) : Except NativeError FileStat := do
  let serial ← raises .os volumeSerial
  let identity ← raises .value (FileIdentity.checked serial info.ino)
  let metadata ← raises .value (MetadataSnapshot.checked info.attributes (info.createdNs nt))
  raises .value (FileStat.checked kind size info.mtimeNs (some identity) info.nlink metadata)

/-- What both functions do once the path is known. -/
def nativeEntry (nt : Bool) (answers : NativeAnswers) : StatAnswer :=
  if answers.lexists then do
    rejectReparse answers
    let info ← raises .os answers.stat
    match info.mode with
    | .regular => some <$> nativeSnapshot nt answers.volumeSerial info .file info.size
    | .directory => some <$> nativeSnapshot nt answers.volumeSerial info .directory 0
    | .link | .other => .error (.unsafePath (str "unsupported filesystem entry: " ++ answers.path))
  else .ok none

/-- `NativeFileSystem.stat`. -/
def nativeStat (nt : Bool) (answers : NativeAnswers) : StatAnswer := do
  answers.resolve
  nativeEntry nt answers

/-- `NativeFileSystem.stat_path`. -/
def nativeStatPath (nt : Bool) (answers : NativeAnswers) : StatAnswer := nativeEntry nt answers

/-! ## What each conversion yields

When a conversion succeeds, and with which fields.  All of them copy kind, size
and mtime; they differ in the link count, the identity and the creation time. -/

/-- The kind and the size a conversion reads off the mode. -/
inductive RawStat.Entry (stat : RawStat) : EntryKind → Int → Prop
  | file : stat.mode = .regular → Entry stat .file stat.size
  | directory : stat.mode = .directory → Entry stat .directory 0

section Conversions

variable {nt : Bool} {volume : VolumeSnapshot} {raw : RawStat} {kind : EntryKind} {size : Int}

theorem RawStat.scannedIdentity_ok {identity : Option FileIdentity}
    (h : raw.scannedIdentity volume = .ok identity) :
    identity = if volume.profile.stableFileIdentity ∧ 0 < raw.ino then
      some ⟨volume.volumeId.serial, raw.ino.toNat, volume.volumeId.serial_ne⟩ else none := by
  unfold scannedIdentity at h
  split at h
  · next hstable =>
      split at h
      · next hino =>
          obtain rfl := Except.ok.inj h
          rw [if_neg (by omega)]
      · next hino =>
          obtain ⟨given, hgiven, rfl⟩ := Checked.map_eq_ok.1 h
          obtain ⟨-, rfl⟩ := (FileIdentity.checked_eq_ok volume.volumeId.serial_ne).1 hgiven
          rw [if_pos ⟨hstable, by omega⟩]
  · next hstable =>
      obtain rfl := Except.ok.inj h
      rw [if_neg (fun hboth => hstable hboth.1)]

/-- What the scanner puts down. -/
structure RawStat.Scanned (nt : Bool) (volume : VolumeSnapshot) (raw : RawStat) (kind : EntryKind)
    (size : Int) (stat : FileStat) : Prop where
  size_nonneg : 0 ≤ size
  mtime_nonneg : 0 ≤ raw.mtimeNs
  attributes_nonneg : 0 ≤ raw.attributes
  kind_eq : stat.kind = kind
  size_eq : stat.size = size.toNat
  mtime_eq : stat.mtimeNs = raw.mtimeNs.toNat
  nlink_eq : stat.nlink = (max 1 raw.nlink).toNat
  metadata_eq : stat.metadata = ⟨raw.attributes.toNat, (raw.scannedCreatedNs nt).map Int.toNat⟩
  identity_eq : stat.fileIdentity = if volume.profile.stableFileIdentity ∧ 0 < raw.ino then
    some ⟨volume.volumeId.serial, raw.ino.toNat, volume.volumeId.serial_ne⟩ else none

theorem RawStat.recorded_ok {scanned : FileStat} (h : raw.recorded nt volume = .ok (some scanned)) :
    Int.land raw.attributes fileAttributeReparsePoint = 0 ∧
      ∃ kind size, raw.Entry kind size ∧ raw.Scanned nt volume kind size scanned := by
  have spec : ∀ kind, raw.scanned nt volume kind = .ok scanned →
      raw.Scanned nt volume kind (if kind = .file then raw.size else 0) scanned := by
    intro kind hscanned
    obtain ⟨identity, hidentity, hrest⟩ := Checked.bind_eq_ok.1 hscanned
    obtain ⟨metadata, hmetadata, hstat⟩ := Checked.bind_eq_ok.1 hrest
    obtain ⟨hattributes, -, rfl⟩ := MetadataSnapshot.checked_eq_ok.1 hmetadata
    obtain ⟨⟨hsize, hmtime, -⟩, hkind, hsz, hmt, hid, hlink, hmeta⟩ :=
      FileStat.checked_eq_ok.1 hstat
    exact ⟨hsize, hmtime, hattributes, hkind, hsz, hmt, hlink, hmeta,
      hid.trans (scannedIdentity_ok hidentity)⟩
  unfold recorded at h
  split at h
  · exact absurd (Except.ok.inj h) (by simp)
  · next hplain =>
      have hclear : Int.land raw.attributes fileAttributeReparsePoint = 0 := by
        by_contra hset
        exact hplain (by simp [reparse, hset])
      refine ⟨hclear, ?_⟩
      split at h
      · next hmode =>
          obtain ⟨stat, hstat, heq⟩ := Checked.map_eq_ok.1 h
          obtain rfl := Option.some.inj heq
          exact ⟨_, _, .directory hmode, spec _ hstat⟩
      · next hmode =>
          obtain ⟨stat, hstat, heq⟩ := Checked.map_eq_ok.1 h
          obtain rfl := Option.some.inj heq
          exact ⟨_, _, .file hmode, spec _ hstat⟩
      · exact absurd (Except.ok.inj h) (by simp)
      · exact absurd (Except.ok.inj h) (by simp)

theorem RawStat.observedIdentity_eq (raw : RawStat) (profile : CapabilityProfile)
    (volumeId : VolumeId) :
    raw.observedIdentity profile volumeId = .ok
      (if profile.stableFileIdentity ∧ 0 < raw.ino then
        some ⟨volumeId.serial, raw.ino.toNat, volumeId.serial_ne⟩ else none) := by
  unfold observedIdentity
  split
  · next h =>
      have hino : 0 ≤ raw.ino := by omega
      exact Checked.map_eq_ok.2
        ⟨_, (FileIdentity.checked_eq_ok volumeId.serial_ne).2 ⟨hino, rfl⟩, rfl⟩
  · rfl

/-- The facts that both the observer and the executor copy as they are. -/
structure RawStat.Copied (nt : Bool) (raw : RawStat) (kind : EntryKind) (size : Int)
    (stat : FileStat) : Prop where
  kind_eq : stat.kind = kind
  size_eq : stat.size = size.toNat
  mtime_eq : stat.mtimeNs = raw.mtimeNs.toNat
  metadata_eq : stat.metadata = ⟨raw.attributes.toNat, (raw.createdNs nt).map Int.toNat⟩

theorem RawStat.observedStat_ok {profile : CapabilityProfile} {volumeId : VolumeId}
    {stat : FileStat} :
    raw.observedStat nt profile volumeId kind size = .ok stat ↔
      (0 ≤ raw.attributes ∧ 0 ≤ size ∧ 0 ≤ raw.mtimeNs) ∧
        CreatedRepresentable (raw.createdNs nt) ∧
          raw.Copied nt kind size stat ∧ stat.nlink = (max 1 raw.nlink).toNat ∧
            stat.fileIdentity = if profile.stableFileIdentity ∧ 0 < raw.ino then
              some ⟨volumeId.serial, raw.ino.toNat, volumeId.serial_ne⟩ else none := by
  unfold observedStat
  rw [observedIdentity_eq, Checked.ok_bind, Checked.bind_eq_ok]
  constructor
  · rintro ⟨metadata, hmetadata, hstat⟩
    obtain ⟨hattributes, hcreated, rfl⟩ := MetadataSnapshot.checked_eq_ok.1 hmetadata
    obtain ⟨⟨hsize, hmtime, -⟩, hkind, hsz, hmt, hid, hlink, hmeta⟩ :=
      FileStat.checked_eq_ok.1 hstat
    exact ⟨⟨hattributes, hsize, hmtime⟩, hcreated, ⟨hkind, hsz, hmt, hmeta⟩, hlink, hid⟩
  · rintro ⟨⟨hattributes, hsize, hmtime⟩, hcreated, hcopied, hlink, hid⟩
    exact ⟨_, MetadataSnapshot.checked_eq_ok.2 ⟨hattributes, hcreated, rfl⟩,
      FileStat.checked_eq_ok.2 ⟨⟨hsize, hmtime, le_max_left _ _⟩, hcopied.kind_eq, hcopied.size_eq,
        hcopied.mtime_eq, hid, hlink, hcopied.metadata_eq⟩⟩

theorem nativeSnapshot_ok {serial : Str} (hserial : serial ≠ []) {stat : FileStat} :
    nativeSnapshot nt (.ok serial) raw kind size = .ok stat ↔
      (0 ≤ raw.attributes ∧ 0 ≤ size ∧ 0 ≤ raw.mtimeNs) ∧
        (0 ≤ raw.ino ∧ 1 ≤ raw.nlink ∧ CreatedRepresentable (raw.createdNs nt)) ∧
          raw.Copied nt kind size stat ∧ stat.nlink = raw.nlink.toNat ∧
            stat.fileIdentity = some ⟨serial, raw.ino.toNat, hserial⟩ := by
  unfold nativeSnapshot
  simp only [Checked.bind_eq_ok, raises_eq_ok, Except.ok.injEq, exists_eq_left']
  constructor
  · rintro ⟨identity, hidentity, metadata, hmetadata, hstat⟩
    obtain ⟨hino, rfl⟩ := (FileIdentity.checked_eq_ok hserial).1 hidentity
    obtain ⟨hattributes, hcreated, rfl⟩ := MetadataSnapshot.checked_eq_ok.1 hmetadata
    obtain ⟨⟨hsize, hmtime, hnlink⟩, hkind, hsz, hmt, hid, hlink, hmeta⟩ :=
      FileStat.checked_eq_ok.1 hstat
    exact ⟨⟨hattributes, hsize, hmtime⟩, ⟨hino, hnlink, hcreated⟩, ⟨hkind, hsz, hmt, hmeta⟩,
      hlink, hid⟩
  · rintro ⟨⟨hattributes, hsize, hmtime⟩, ⟨hino, hnlink, hcreated⟩, hcopied, hlink, hid⟩
    exact ⟨_, (FileIdentity.checked_eq_ok hserial).2 ⟨hino, rfl⟩, _,
      MetadataSnapshot.checked_eq_ok.2 ⟨hattributes, hcreated, rfl⟩,
      FileStat.checked_eq_ok.2 ⟨⟨hsize, hmtime, hnlink⟩, hcopied.kind_eq, hcopied.size_eq,
        hcopied.mtime_eq, hid, hlink, hcopied.metadata_eq⟩⟩

end Conversions

/-! ## Agreement

Two stats mirror each other when neither side would see a difference. -/

/-- A second stat says what the scanned one says, with the same identity
whenever that one has an identity. -/
structure Mirrors (scanned stat : FileStat) : Prop where
  kind_eq : stat.kind = scanned.kind
  size_eq : stat.size = scanned.size
  mtime_eq : stat.mtimeNs = scanned.mtimeNs
  nlink_eq : stat.nlink = scanned.nlink
  metadata_eq : stat.metadata = scanned.metadata
  identity_eq : scanned.fileIdentity.isSome = true → stat.fileIdentity = scanned.fileIdentity

/-- Preflight finds no difference. -/
theorem Mirrors.no_refusal {scanned stat : FileStat} (h : Mirrors scanned stat) (opId : OpId)
    (subject : Subject) (granularityNs : Nat) :
    matchRefusals opId subject stat scanned granularityNs = [] := by
  have hidentity : ¬ (scanned.fileIdentity.isSome = true ∧
      stat.fileIdentity ≠ scanned.fileIdentity) := fun hboth => hboth.2 (h.identity_eq hboth.1)
  simp only [matchRefusals, h.kind_eq, h.size_eq, h.mtime_eq, h.nlink_eq, h.metadata_eq, hidentity]
  simp

/-- The executor's guard accepts. -/
theorem Mirrors.matches {scanned stat : FileStat} (h : Mirrors scanned stat) :
    matchesExpected stat scanned = true := by
  simp only [matchesExpected, h.kind_eq, h.size_eq, h.mtime_eq, h.nlink_eq, h.metadata_eq]
  cases hidentity : scanned.fileIdentity with
  | none => simp
  | some identity => simp [h.identity_eq (by simp [hidentity]), hidentity]

/-- All three see the scanned stat, preflight refuses nothing and the
executor's guard accepts. -/
def StatsAgree (scanned : FileStat) (observation : StatObservation)
    (native nativePath : StatAnswer) : Prop :=
  (∃ stat, observation.stat = some stat ∧ observation.error = none ∧ Mirrors scanned stat ∧
    ∀ opId subject granularityNs, matchRefusals opId subject stat scanned granularityNs = []) ∧
  ∀ answer ∈ [native, nativePath],
    ∃ stat, answer = .ok (some stat) ∧ Mirrors scanned stat ∧ matchesExpected stat scanned = true

/-- The observer and the executor find the path where the scanner found it,
and the operating system gives all of them the same stat result. -/
structure SameResult [Unicode] [OsPath] (volume : VolumeSnapshot) (raw : RawStat) (root : Root)
    (path : RelPath) (answers : LocalAnswers) (native : NativeAnswers) : Prop where
  joined : (joinUnderRoot root.path path).isSome = true
  contained : ∃ resolvedRoot resolvedCandidate, answers.resolvedRoot = .ok resolvedRoot ∧
    answers.resolvedCandidate = .ok resolvedCandidate ∧
      isPathBelow resolvedCandidate resolvedRoot = true
  observed : answers.observed = .ok raw
  volumeId : answers.volumeId = .ok volume.volumeId
  resolve : native.resolve = .ok ()
  lexists : native.lexists = true
  lstat : native.lstat = .ok raw
  stat : native.stat = .ok raw
  volumeSerial : native.volumeSerial = .ok volume.volumeId.serial

section Agreement

variable {nt : Bool} {volume : VolumeSnapshot} {raw : RawStat} {kind : EntryKind} {size : Int}
  {scanned : FileStat}

/-- The creation time the scanner keeps is the one the others keep, when they
can. -/
theorem RawStat.scannedCreatedNs_eq (h : CreatedRepresentable (raw.createdNs nt)) :
    raw.scannedCreatedNs nt = raw.createdNs nt := by
  unfold scannedCreatedNs
  cases hcreated : raw.createdNs nt with
  | none => rfl
  | some created => simp [Option.filter, h created hcreated]

theorem RawStat.Scanned.mirrors (h : raw.Scanned nt volume kind size scanned) {stat : FileStat}
    (hcreated : CreatedRepresentable (raw.createdNs nt)) (hcopied : raw.Copied nt kind size stat)
    (hnlink : stat.nlink = (max 1 raw.nlink).toNat)
    (hidentity : scanned.fileIdentity.isSome = true → stat.fileIdentity = scanned.fileIdentity) :
    Mirrors scanned stat where
  kind_eq := hcopied.kind_eq.trans h.kind_eq.symm
  size_eq := hcopied.size_eq.trans h.size_eq.symm
  mtime_eq := hcopied.mtime_eq.trans h.mtime_eq.symm
  nlink_eq := hnlink.trans h.nlink_eq.symm
  metadata_eq := by rw [hcopied.metadata_eq, h.metadata_eq, scannedCreatedNs_eq hcreated]
  identity_eq := hidentity

theorem localStat_eq [Unicode] [OsPath] {root : Root} {path : RelPath} {answers : LocalAnswers}
    {native : NativeAnswers} (h : SameResult volume raw root path answers native) :
    ∃ representable, localStat nt root path volume.profile answers =
      observeEntry nt volume.profile (.ok volume.volumeId) representable raw := by
  obtain ⟨resolvedRoot, resolvedCandidate, hroot, hcandidate, hbelow⟩ := h.contained
  obtain ⟨candidate, hjoined⟩ := Option.isSome_iff_exists.1 h.joined
  refine ⟨decide (resolvedCandidate.length ≤ volume.profile.maxPath), ?_⟩
  simp [localStat, hjoined, hroot, hcandidate, hbelow, h.observed, h.volumeId]

theorem observeEntry_stat (hentry : raw.Entry kind size) (profile : CapabilityProfile)
    (volumeId : VolumeId) (representable : Bool) (stat : FileStat) :
    ((observeEntry nt profile (.ok volumeId) representable raw).stat = some stat ∧
      (observeEntry nt profile (.ok volumeId) representable raw).error = none) ↔
        raw.observedStat nt profile volumeId kind size = .ok stat := by
  cases hentry with
  | file hmode =>
      simp only [observeEntry, hmode]
      split <;> simp_all
  | directory hmode =>
      simp only [observeEntry, hmode]
      split <;> simp_all

theorem nativeEntry_eq {native : NativeAnswers} (hentry : raw.Entry kind size)
    (hclear : Int.land raw.attributes fileAttributeReparsePoint = 0)
    (hlexists : native.lexists = true) (hlstat : native.lstat = .ok raw)
    (hstat : native.stat = .ok raw) :
    nativeEntry nt native = some <$> nativeSnapshot nt native.volumeSerial raw kind size := by
  have hlink : raw.mode ≠ .link := by
    cases hentry with
    | file hmode => simp [hmode]
    | directory hmode => simp [hmode]
  have hreject : rejectReparse native = .ok () := by
    simp [rejectReparse, hlstat, raises, Checked.ok_bind, hlink, hclear]
  unfold nativeEntry
  rw [if_pos hlexists, hreject, hstat]
  cases hentry with
  | file hmode => simp [Checked.ok_bind, raises, hmode]
  | directory hmode => simp [Checked.ok_bind, raises, hmode]

/-- The three agree with the scanner exactly when the inode number is not
negative, the link count is positive and the creation time is missing or not
before the epoch. -/
theorem stats_agree [Unicode] [OsPath] {root : Root} {path : RelPath} {answers : LocalAnswers}
    {native : NativeAnswers} (hrecorded : raw.recorded nt volume = .ok (some scanned))
    (hsame : SameResult volume raw root path answers native) :
    StatsAgree scanned (localStat nt root path volume.profile answers) (nativeStat nt native)
        (nativeStatPath nt native) ↔
      0 ≤ raw.ino ∧ 1 ≤ raw.nlink ∧ CreatedRepresentable (raw.createdNs nt) := by
  obtain ⟨hclear, kind, size, hentry, hscanned⟩ := RawStat.recorded_ok hrecorded
  obtain ⟨representable, hlocal⟩ : ∃ representable, localStat nt root path volume.profile answers =
      observeEntry nt volume.profile (.ok volume.volumeId) representable raw := localStat_eq hsame
  have hpath : nativeStatPath nt native =
      some <$> nativeSnapshot nt (.ok volume.volumeId.serial) raw kind size := by
    rw [← hsame.volumeSerial]
    exact nativeEntry_eq hentry hclear hsame.lexists hsame.lstat hsame.stat
  have hnative : nativeStat nt native = nativeStatPath nt native := by
    unfold nativeStat
    rw [hsame.resolve]
    rfl
  have hgiven : 0 ≤ raw.attributes ∧ 0 ≤ size ∧ 0 ≤ raw.mtimeNs :=
    ⟨hscanned.attributes_nonneg, hscanned.size_nonneg, hscanned.mtime_nonneg⟩
  rw [hlocal, hnative, hpath]
  constructor
  · -- One answer of the native side is enough: a refused field refuses it.
    rintro ⟨-, hanswers⟩
    obtain ⟨stat, hstat, -⟩ := hanswers _ List.mem_cons_self
    obtain ⟨snapshot, hsnapshot, -⟩ := Checked.map_eq_ok.1 hstat
    exact ((nativeSnapshot_ok volume.volumeId.serial_ne).1 hsnapshot).2.1
  · rintro ⟨hino, hnlink, hcreated⟩
    have hmax : max 1 raw.nlink = raw.nlink := max_eq_right hnlink
    constructor
    · -- The local side drops the identity that the profile does not trust.
      let stat : FileStat :=
        { scanned with metadata := ⟨raw.attributes.toNat, (raw.createdNs nt).map Int.toNat⟩ }
      have hcopied : raw.Copied nt kind size stat :=
        ⟨hscanned.kind_eq, hscanned.size_eq, hscanned.mtime_eq, rfl⟩
      have hmirrors := hscanned.mirrors hcreated hcopied hscanned.nlink_eq (fun _ => rfl)
      obtain ⟨hsome, hnone⟩ := (observeEntry_stat hentry _ _ representable stat).2
        (RawStat.observedStat_ok.2
          ⟨hgiven, hcreated, hcopied, hscanned.nlink_eq, hscanned.identity_eq⟩)
      exact ⟨stat, hsome, hnone, hmirrors, hmirrors.no_refusal⟩
    · let stat : FileStat :=
        { scanned with
          metadata := ⟨raw.attributes.toNat, (raw.createdNs nt).map Int.toNat⟩
          fileIdentity := some ⟨volume.volumeId.serial, raw.ino.toNat, volume.volumeId.serial_ne⟩ }
      have hcopied : raw.Copied nt kind size stat :=
        ⟨hscanned.kind_eq, hscanned.size_eq, hscanned.mtime_eq, rfl⟩
      have hsnapshot := (nativeSnapshot_ok volume.volumeId.serial_ne).2
        ⟨hgiven, ⟨hino, hnlink, hcreated⟩, hcopied, by rw [← hmax]; exact hscanned.nlink_eq, rfl⟩
      have hmirrors := hscanned.mirrors hcreated hcopied hscanned.nlink_eq (by
        intro hsome
        rw [hscanned.identity_eq] at hsome ⊢
        split at hsome
        · next h => rw [if_pos h]
        · exact absurd hsome (by simp))
      intro answer hanswer
      have heq :
          answer = some <$> nativeSnapshot nt (.ok volume.volumeId.serial) raw kind size := by
        simpa using hanswer
      refine ⟨stat, ?_, hmirrors, hmirrors.matches⟩
      rw [heq]
      exact Checked.map_eq_ok.2 ⟨stat, hsnapshot, rfl⟩

end Agreement

/-! A file on an NTFS volume, seen where the scanner found it: once with a
creation time of the year 2023, and once with one of 1601, the zero of
Windows file times. -/

section Sample

local instance sampleUnicode : Unicode := asciiUnicode

local instance sampleOsPath : OsPath := normalOsPath

def sampleVolume : VolumeSnapshot where
  volumeId := volumeA
  evidence := {}
  profile := ntfsProfile

def sampleRaw (createdNs : Int) : RawStat where
  mode := .regular
  size := 5
  mtimeNs := 1700000000000000000
  ino := 562949953421399
  nlink := 1
  fileAttributes := some 0x20
  reparseTag := some 0
  birthtimeNs := some createdNs
  ctimeNs := some createdNs

def samplePath : RelPath := .single (str "notes") (by decide +kernel)

def sampleLocal (raw : RawStat) : LocalAnswers where
  resolvedRoot := .ok (str "c:\\data")
  resolvedCandidate := .ok (str "c:\\data\\notes")
  observed := .ok raw
  volumeId := .ok sampleVolume.volumeId

def sampleNative (raw : RawStat) : NativeAnswers where
  path := str "c:\\data\\notes"
  resolve := .ok ()
  lexists := true
  lstat := .ok raw
  stat := .ok raw
  volumeSerial := .ok sampleVolume.volumeId.serial

theorem sample_same (raw : RawStat) :
    SameResult sampleVolume raw dataRoot samplePath (sampleLocal raw) (sampleNative raw) where
  joined := by decide +kernel
  contained := ⟨_, _, rfl, rfl, by decide +kernel⟩
  observed := rfl
  volumeId := rfl
  resolve := rfl
  lexists := rfl
  lstat := rfl
  stat := rfl
  volumeSerial := rfl

/-- What the scanner keeps of the sample file. -/
def sampleScanned (createdNs : Option Nat) : FileStat where
  kind := .file
  size := 5
  mtimeNs := 1700000000000000000
  fileIdentity := some (volumeA.identity 562949953421399)
  nlink := 1
  metadata := ⟨0x20, createdNs⟩

theorem stats_agree_recent :
    StatsAgree (sampleScanned (some 1690000000000000000))
      (localStat true dataRoot samplePath sampleVolume.profile
        (sampleLocal (sampleRaw 1690000000000000000)))
      (nativeStat true (sampleNative (sampleRaw 1690000000000000000)))
      (nativeStatPath true (sampleNative (sampleRaw 1690000000000000000))) :=
  (stats_agree (by decide) (sample_same _)).2 ⟨by decide, by decide, by
    intro created h
    obtain rfl := Option.some.inj h
    decide⟩

theorem ancient_file :
    (sampleRaw (-11644473600000000000)).recorded true sampleVolume =
        .ok (some (sampleScanned none)) ∧
      SameResult sampleVolume (sampleRaw (-11644473600000000000)) dataRoot samplePath
        (sampleLocal (sampleRaw (-11644473600000000000)))
        (sampleNative (sampleRaw (-11644473600000000000))) ∧
      localStat true dataRoot samplePath sampleVolume.profile
          (sampleLocal (sampleRaw (-11644473600000000000))) =
        ⟨none, some (str "creation time cannot be negative"), true, false⟩ ∧
      ¬ StatsAgree (sampleScanned none)
        (localStat true dataRoot samplePath sampleVolume.profile
          (sampleLocal (sampleRaw (-11644473600000000000))))
        (nativeStat true (sampleNative (sampleRaw (-11644473600000000000))))
        (nativeStatPath true (sampleNative (sampleRaw (-11644473600000000000)))) := by
  have hlocal : localStat true dataRoot samplePath sampleVolume.profile
      (sampleLocal (sampleRaw (-11644473600000000000))) =
        ⟨none, some (str "creation time cannot be negative"), true, false⟩ := by decide +kernel
  refine ⟨by decide, sample_same _, hlocal, ?_⟩
  rintro ⟨⟨stat, hstat, -⟩, -⟩
  rw [hlocal] at hstat
  exact absurd hstat (by simp)

end Sample

end NamiSync
