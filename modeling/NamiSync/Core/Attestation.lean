/-
# `Core.Attestation` — content evidence and its subject

The content half of `core/evidence.py`.  A UTC time is the number of
microseconds that its canonical text writes: the texts have one width, so
they compare like the numbers.

`Sha256` is a parameter of which only the length of a digest is known.  Where
a result needs that two texts have different digests it says so of these two
texts (`NoCollision` of `Workflows.Commitment`).
-/
import NamiSync.Core.Models

namespace NamiSync

/-- `hashlib.sha256(…).digest()`. -/
class Sha256 where
  digest : List UInt8 → List UInt8
  digest_length : ∀ bytes, (digest bytes).length = 32

/-- An aware UTC `datetime`. -/
abbrev Utc := Nat

inductive Provenance
  | copyAttested | readbackAttested | verifyAttested
  deriving DecidableEq, Repr

/-- `ContentEvidence`; its algorithm is always `sha256`. -/
structure ContentEvidence where
  digest : List UInt8
  size : Nat
  provenance : Provenance
  observedAt : Utc
  digest_length : digest.length = 32 := by decide
  deriving DecidableEq

structure Attestation where
  content : ContentEvidence
  subject : FileStat
  deriving DecidableEq

section Sample

/-- What a copy of the three bytes `abc` attests. -/
def abcEvidence (observedAt : Utc) : ContentEvidence where
  digest := [186, 120, 22, 191, 143, 1, 207, 234, 65, 65, 64, 222, 93, 174, 34, 35, 176, 3,
    97, 163, 150, 23, 122, 156, 180, 16, 255, 97, 242, 0, 21, 173]
  size := 3
  provenance := .copyAttested
  observedAt := observedAt

end Sample

end NamiSync
