/-
# `Core.Preflight` — observations and the verdict

The records of `core/preflight.py`.  A number of bytes is a `Nat`, and the
timestamp of an observation, which no judgment reads, is left out.

`Verdict` carries that `ok` is the emptiness of its refusals, as the source
checks when it builds one; so a verdict that allows a run and refuses
something does not exist here.
-/
import NamiSync.Core.Planning
import NamiSync.Lib.Dict

namespace NamiSync

structure Subject where
  rootId : Str
  relPathKey : Str
  deriving DecidableEq

structure StatObservation where
  stat : Option FileStat
  error : Option Str := none
  contained : Bool := true
  representable : Bool := true
  deriving DecidableEq

structure RootObservation where
  resolvedPath : Option Str
  volumeId : Option VolumeId
  volumeEvidence : Option VolumeEvidence
  error : Option Str := none
  deriving DecidableEq

structure TrashObservation where
  resolvedPath : Option Str
  available : Bool
  contained : Bool
  sameVolume : Bool
  writable : Bool
  reparseSafe : Bool
  error : Option Str := none
  deriving DecidableEq

/-- `ObservedWorld`.  The values of `paths` are texts that the judgment
validates when it needs their key. -/
structure ObservedWorld where
  stats : Dict Subject StatObservation
  paths : Dict Subject Str
  roots : Dict Str RootObservation
  freeSpace : Option Nat
  reclaimableTempBytes : Nat
  trash : Option TrashObservation
  currentFilters : FilterSet
  currentPolicyFingerprint : Fingerprint
  settingsError : Option Str := none

inductive RefusalCode
  | incompleteSourceScan | incompleteTargetScan | rootUnavailable | rootChanged | rootsOverlap
  | volumeCloneAmbiguous | selectionNotClosed | operationBlocked | blockedCorrespondence
  | dependencyUnavailable | observationUnavailable | sourceDrift | targetDrift
  | destinationAppeared | typeChanged | identityChanged | sizeChanged | mtimeChanged
  | metadataChanged | filterDrift | optionsDrift | insufficientSpace | trashUnavailable
  | trashEscape | trashOffVolume | trashNotWritable | trashReparse | pathEscape
  | pathUnrepresentable
  deriving DecidableEq, Repr

/-- `code.value`. -/
def RefusalCode.value : RefusalCode → Str
  | incompleteSourceScan => str "incomplete_source_scan"
  | incompleteTargetScan => str "incomplete_target_scan"
  | rootUnavailable => str "root_unavailable"
  | rootChanged => str "root_changed"
  | rootsOverlap => str "roots_overlap"
  | volumeCloneAmbiguous => str "volume_clone_ambiguous"
  | selectionNotClosed => str "selection_not_closed"
  | operationBlocked => str "operation_blocked"
  | blockedCorrespondence => str "blocked_correspondence"
  | dependencyUnavailable => str "dependency_unavailable"
  | observationUnavailable => str "observation_unavailable"
  | sourceDrift => str "source_drift"
  | targetDrift => str "target_drift"
  | destinationAppeared => str "destination_appeared"
  | typeChanged => str "type_changed"
  | identityChanged => str "identity_changed"
  | sizeChanged => str "size_changed"
  | mtimeChanged => str "mtime_changed"
  | metadataChanged => str "metadata_changed"
  | filterDrift => str "filter_drift"
  | optionsDrift => str "options_drift"
  | insufficientSpace => str "insufficient_space"
  | trashUnavailable => str "trash_unavailable"
  | trashEscape => str "trash_escape"
  | trashOffVolume => str "trash_off_volume"
  | trashNotWritable => str "trash_not_writable"
  | trashReparse => str "trash_reparse"
  | pathEscape => str "path_escape"
  | pathUnrepresentable => str "path_unrepresentable"

/-- `Refusal`.  A `detail` is `None` where the source passes on the `error`
of an observation that has none. -/
structure Refusal where
  code : RefusalCode
  opId : Option OpId := none
  subject : Option Subject := none
  detail : Option Str := some []
  deriving DecidableEq

structure Verdict where
  ok : Bool
  refusals : List Refusal
  observed : ObservedWorld
  agree : ok = refusals.isEmpty

end NamiSync
