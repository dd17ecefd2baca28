/-
# `Db.Timestamps` — times in the databases

`db/timestamps.py`.  A stored time has a fixed width, so the order of the
texts is that of the times.

`decodeUtc_encodeUtc` and `encodeUtc_inj` are what the codecs of `Db.History`
and `Workflows.Payloads` need of a time; the comparison `before` is the
source's, on the fields.
-/
import NamiSync.Core.Datetime

namespace NamiSync

/-- An aware `datetime` at offset zero: what `encode_utc` takes, and
`decode_utc` returns. -/
structure UtcTime where
  time : Datetime
  utc : time.offset = some 0
  deriving DecidableEq

namespace UtcTime

/-- The tuple that `<` compares. -/
def fields (value : UtcTime) : List Nat :=
  [value.time.year, value.time.month, value.time.day, value.time.hour, value.time.minute,
    value.time.second, value.time.microsecond]

/-- `value < other`. -/
def before (value other : UtcTime) : Bool := decide (value.fields < other.fields)

end UtcTime

/-- `isoformat(timespec="microseconds")`, up to the offset. -/
def isoformatMicroseconds (time : Datetime) : Str :=
  padded 4 time.year ++ 0x2D :: padded 2 time.month ++ 0x2D :: padded 2 time.day ++
    0x54 :: padded 2 time.hour ++ 0x3A :: padded 2 time.minute ++ 0x3A :: padded 2 time.second ++
    0x2E :: padded 6 time.microsecond

/-- `encode_utc`: the offset, which is `+00:00`, is replaced. -/
def encodeUtc (value : UtcTime) : Str := isoformatMicroseconds value.time ++ [0x5A]

/-- `value.replace("Z", "+00:00")`. -/
def replaceZ (value : Str) : Str := value.flatMap fun c => if c = 0x5A then str "+00:00" else [c]

/-- `decode_utc`; `none` is its `ValueError`. -/
def decodeUtc (value : Str) : Option UtcTime :=
  match Datetime.fromisoformat (replaceZ value) with
  | none => none
  | some parsed => if utc : parsed.offset = some 0 then some ⟨parsed, utc⟩ else none

theorem replaceZ_of_not_mem {value : Str} (h : 0x5A ∉ value) : replaceZ value = value := by
  induction value with
  | nil => rfl
  | cons c value ih =>
      rw [List.mem_cons, not_or] at h
      have hne : c ≠ 0x5A := fun heq => h.1 heq.symm
      have hrest := ih h.2
      unfold replaceZ at hrest ⊢
      rw [List.flatMap_cons, if_neg hne, hrest, List.singleton_append]

theorem replaceZ_append (value rest : Str) :
    replaceZ (value ++ rest) = replaceZ value ++ replaceZ rest := List.flatMap_append

theorem no_Z_padded {width n : Nat} : (0x5A : CodePoint) ∉ padded width n := by
  induction width generalizing n with
  | zero => exact List.not_mem_nil
  | succ width ih =>
      rw [padded, List.mem_append, List.mem_singleton, not_or]
      refine ⟨ih, fun heq => ?_⟩
      have hlt := Nat.mod_lt n (show 0 < 10 by omega)
      have hval := congrArg Fin.val heq
      rw [decimalDigit, dif_pos hlt] at hval
      have hdigit : (0x5A : Nat) = 0x30 + n % 10 := hval
      omega

theorem no_Z_isoformat (time : Datetime) : (0x5A : CodePoint) ∉ isoformatMicroseconds time := by
  simp only [isoformatMicroseconds, List.append_assoc, List.cons_append, List.mem_append,
    List.mem_cons, no_Z_padded, or_false, false_or]
  decide

theorem fromisoformat_microseconds (time : Datetime) (hutc : time.offset = some 0) :
    Datetime.fromisoformat (isoformatMicroseconds time ++ str "+00:00") = some time := by
  obtain ⟨hhour, hminute, hsecond, hmicrosecond⟩ := time.time_range
  have hyear := time.year_range
  have hmonth := time.month_range
  have hday : time.day < 100 := by
    have hrange := time.day_range
    have hmax : daysInMonth time.year time.month ≤ 31 := by
      unfold daysInMonth
      split
      · split <;> omega
      · split <;> omega
    omega
  have hfraction : ∀ rest, readFraction (0x2E :: (padded 6 time.microsecond ++ rest)) =
      some (time.microsecond, rest) :=
    fun rest => readNumber_padded (show time.microsecond < 10 ^ 6 by omega) rest
  have hoffset : readOffset (str "+00:00") = some time.offset := by
    rw [hutc]
    rfl
  unfold Datetime.fromisoformat isoformatMicroseconds
  simp only [List.append_assoc, List.cons_append]
  rw [readNumber_padded (by omega), Option.bind_eq_bind, Option.bind_some]
  simp only [readMark_cons, Option.bind_some, readNumber_padded (show time.month < 10 ^ 2 by omega),
    readNumber_padded (show time.day < 10 ^ 2 by omega),
    readNumber_padded (show time.hour < 10 ^ 2 by omega),
    readNumber_padded (show time.minute < 10 ^ 2 by omega),
    readNumber_padded (show time.second < 10 ^ 2 by omega), hfraction, hoffset,
    Datetime.checked_self, Option.bind_eq_bind]

theorem decodeUtc_encodeUtc (value : UtcTime) : decodeUtc (encodeUtc value) = some value := by
  have hreplaced : replaceZ (encodeUtc value) =
      isoformatMicroseconds value.time ++ str "+00:00" := by
    rw [encodeUtc, replaceZ_append, replaceZ_of_not_mem (no_Z_isoformat value.time)]
    rfl
  rw [decodeUtc, hreplaced, fromisoformat_microseconds value.time value.utc]
  dsimp only
  rw [dif_pos value.utc]

theorem encodeUtc_inj {value other : UtcTime} (h : encodeUtc value = encodeUtc other) :
    value = other := by
  have hdecode := decodeUtc_encodeUtc value
  rw [h, decodeUtc_encodeUtc] at hdecode
  exact (Option.some.inj hdecode).symm

end NamiSync
