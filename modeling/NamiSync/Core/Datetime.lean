/-
# `Core.Datetime` — aware and naive times

`datetime` as its fields and its UTC offset.  Two that agree in these are
equal; the source never looks at a `tzinfo` otherwise.  `fromisoformat` is
here for the texts that `isoformat` writes.

`fromisoformat_isoformat` is the round trip, offsets with seconds and fractions
included.  Times are compared by their fields, as the source compares aware
times of one offset; a calendar is not needed.
-/
import NamiSync.Core.Text

namespace NamiSync

def isLeapYear (year : Nat) : Bool := year % 4 = 0 && (year % 100 ≠ 0 || year % 400 = 0)

def daysInMonth (year month : Nat) : Nat :=
  if month = 2 then if isLeapYear year then 29 else 28
  else if month ∈ [4, 6, 9, 11] then 30 else 31

/-- A `datetime`; the offset is in microseconds. -/
structure Datetime where
  year : Nat
  month : Nat
  day : Nat
  hour : Nat
  minute : Nat
  second : Nat
  microsecond : Nat
  offset : Option Int
  year_range : 1 ≤ year ∧ year ≤ 9999 := by decide
  month_range : 1 ≤ month ∧ month ≤ 12 := by decide
  day_range : 1 ≤ day ∧ day ≤ daysInMonth year month := by decide
  time_range : hour < 24 ∧ minute < 60 ∧ second < 60 ∧ microsecond < 1000000 := by decide
  offset_range : ∀ o ∈ offset, o.natAbs < 86400000000 := by decide
  deriving DecidableEq

/-! ## `isoformat`

Fields of fixed width, a fraction only when there are microseconds, and an
offset only when there is one. -/

theorem decimalDigit_lt {n : Nat} (h : n < 10) : 0x30 + n < 0x110000 := by omega

def decimalDigit (n : Nat) : CodePoint := if h : n < 10 then ⟨0x30 + n, decimalDigit_lt h⟩ else 0x3F

/-- `%0*d`, for a number that fits the width. -/
def padded : Nat → Nat → Str
  | 0, _ => []
  | width + 1, n => padded width (n / 10) ++ [decimalDigit (n % 10)]

/-- A fraction of a second, unless it is zero. -/
def fractionText (microsecond : Nat) : Str :=
  if microsecond = 0 then [] else 0x2E :: padded 6 microsecond

/-- `_format_offset`. -/
def offsetText : Option Int → Str
  | none => []
  | some offset =>
      let size := offset.natAbs
      let second := size / 1000000 % 60
      let microsecond := size % 1000000
      (if offset < 0 then 0x2D else 0x2B) :: padded 2 (size / 3600000000) ++
        0x3A :: padded 2 (size / 60000000 % 60) ++
        if second = 0 ∧ microsecond = 0 then []
        else 0x3A :: padded 2 second ++ fractionText microsecond

def Datetime.isoformat (time : Datetime) : Str :=
  padded 4 time.year ++ 0x2D :: padded 2 time.month ++ 0x2D :: padded 2 time.day ++
    0x54 :: padded 2 time.hour ++ 0x3A :: padded 2 time.minute ++ 0x3A :: padded 2 time.second ++
    fractionText time.microsecond ++ offsetText time.offset

/-! ## `fromisoformat`

The reader of the same form, with the range of each field checked as the
constructor of a `datetime` does. -/

def digitValue (c : CodePoint) : Option Nat :=
  if 0x30 ≤ c.val ∧ c.val < 0x3A then some (c.val - 0x30) else none

/-- A number of so many digits, on top of those read before. -/
def readNumber : Nat → Nat → Str → Option (Nat × Str)
  | 0, value, text => some (value, text)
  | _ + 1, _, [] => none
  | width + 1, value, c :: text => do
      let digit ← digitValue c
      readNumber width (value * 10 + digit) text

def readMark (mark : CodePoint) : Str → Option Str
  | [] => none
  | c :: text => if c = mark then some text else none

def readFraction : Str → Option (Nat × Str)
  | 0x2E :: text => readNumber 6 0 text
  | text => some (0, text)

/-- The seconds of an offset, which may be missing. -/
def readOffsetSeconds : Str → Option (Nat × Nat × Str)
  | 0x3A :: text => do
      let (second, text) ← readNumber 2 0 text
      let (microsecond, text) ← readFraction text
      some (second, microsecond, text)
  | text => some (0, 0, text)

def readOffset : Str → Option (Option Int)
  | [] => some none
  | sign :: text => do
      let (hour, text) ← readNumber 2 0 text
      let text ← readMark 0x3A text
      let (minute, text) ← readNumber 2 0 text
      let (second, microsecond, text) ← readOffsetSeconds text
      let size : Int := ((hour * 60 + minute) * 60 + second) * 1000000 + microsecond
      if text ≠ [] then none
      else if sign = 0x2B then some (some size)
      else if sign = 0x2D then some (some (-size))
      else none

/-- The constructor; `none` is its `ValueError`. -/
def Datetime.checked (year month day hour minute second microsecond : Nat) (offset : Option Int) :
    Option Datetime :=
  if hyear : 1 ≤ year ∧ year ≤ 9999 then
    if hmonth : 1 ≤ month ∧ month ≤ 12 then
      if hday : 1 ≤ day ∧ day ≤ daysInMonth year month then
        if htime : hour < 24 ∧ minute < 60 ∧ second < 60 ∧ microsecond < 1000000 then
          if hoffset : ∀ o ∈ offset, o.natAbs < 86400000000 then
            some
              { year := year
                month := month
                day := day
                hour := hour
                minute := minute
                second := second
                microsecond := microsecond
                offset := offset
                year_range := hyear
                month_range := hmonth
                day_range := hday
                time_range := htime
                offset_range := hoffset }
          else none
        else none
      else none
    else none
  else none

def Datetime.fromisoformat (text : Str) : Option Datetime := do
  let (year, text) ← readNumber 4 0 text
  let text ← readMark 0x2D text
  let (month, text) ← readNumber 2 0 text
  let text ← readMark 0x2D text
  let (day, text) ← readNumber 2 0 text
  let text ← readMark 0x54 text
  let (hour, text) ← readNumber 2 0 text
  let text ← readMark 0x3A text
  let (minute, text) ← readNumber 2 0 text
  let text ← readMark 0x3A text
  let (second, text) ← readNumber 2 0 text
  let (microsecond, text) ← readFraction text
  let offset ← readOffset text
  Datetime.checked year month day hour minute second microsecond offset

/-! ## Reading back

Each reader, on what its writer has made and whatever stands behind it. -/

theorem digitValue_decimalDigit {n : Nat} (h : n < 10) : digitValue (decimalDigit n) = some n := by
  unfold decimalDigit digitValue
  rw [dif_pos h]
  dsimp only
  rw [if_pos (by omega)]
  congr 1
  omega

/-- A padded number is read behind what was read before. -/
theorem readNumber_append (width more n value : Nat) (rest : Str) (h : n < 10 ^ width) :
    readNumber (width + more) value (padded width n ++ rest) =
      readNumber more (value * 10 ^ width + n) rest := by
  induction width generalizing more n value rest with
  | zero =>
      obtain rfl : n = 0 := by omega
      simp [padded]
  | succ width ih =>
      rw [Nat.pow_succ] at h
      rw [padded, List.append_assoc, show width + 1 + more = width + (more + 1) by omega,
        ih (more + 1) (n / 10) value _ (by omega), List.singleton_append, readNumber,
        digitValue_decimalDigit (Nat.mod_lt n (by omega)), Option.bind_eq_bind, Option.bind_some]
      congr 1
      rw [Nat.pow_succ, Nat.add_mul, Nat.mul_assoc]
      omega

theorem readNumber_padded {width n : Nat} (h : n < 10 ^ width) (rest : Str) :
    readNumber width 0 (padded width n ++ rest) = some (n, rest) := by
  have hread := readNumber_append width 0 n 0 rest h
  rw [Nat.add_zero, Nat.zero_mul, Nat.zero_add] at hread
  rw [hread, readNumber]

theorem readFraction_fractionText {microsecond : Nat} (h : microsecond < 1000000) {rest : Str}
    (hrest : ∀ c ∈ rest.head?, c ≠ 0x2E) :
    readFraction (fractionText microsecond ++ rest) = some (microsecond, rest) := by
  unfold fractionText
  split
  · next hzero =>
      rw [List.nil_append, hzero]
      unfold readFraction
      split
      · exact absurd rfl (hrest 0x2E rfl)
      · rfl
  · exact readNumber_padded (show microsecond < 10 ^ 6 by omega) rest

theorem offsetText_head (offset : Option Int) : ∀ c ∈ (offsetText offset).head?, c ≠ 0x2E := by
  intro c hc
  cases offset with
  | none => exact absurd hc (by simp [offsetText])
  | some offset =>
      obtain rfl := Option.some.inj hc
      split
      · decide
      · decide

theorem readOffsetSeconds_text {second microsecond : Nat} (hsecond : second < 60)
    (hmicrosecond : microsecond < 1000000) :
    readOffsetSeconds (if second = 0 ∧ microsecond = 0 then []
      else 0x3A :: padded 2 second ++ fractionText microsecond) =
        some (second, microsecond, []) := by
  split
  · next hzero =>
      rw [hzero.1, hzero.2]
      rfl
  · have hfraction := readFraction_fractionText hmicrosecond
      (show ∀ c ∈ ([] : Str).head?, c ≠ 0x2E from fun c hc => absurd hc (by simp))
    rw [List.append_nil] at hfraction
    rw [List.cons_append, readOffsetSeconds, readNumber_padded (by omega), Option.bind_eq_bind,
      Option.bind_some]
    dsimp only
    rw [hfraction]
    rfl

theorem readMark_cons (mark : CodePoint) (text : Str) : readMark mark (mark :: text) = some text :=
  if_pos rfl

theorem readOffset_offsetText {offset : Option Int} (h : ∀ o ∈ offset, o.natAbs < 86400000000) :
    readOffset (offsetText offset) = some offset := by
  cases offset with
  | none => rfl
  | some offset =>
      have hsize := h offset rfl
      have hseconds := @readOffsetSeconds_text (offset.natAbs / 1000000 % 60)
        (offset.natAbs % 1000000) (Nat.mod_lt _ (by omega)) (Nat.mod_lt _ (by omega))
      rw [offsetText, List.cons_append, List.cons_append, List.append_assoc, readOffset,
        readNumber_padded (by omega), Option.bind_eq_bind, Option.bind_some]
      dsimp only
      rw [List.cons_append, readMark_cons, Option.bind_eq_bind, Option.bind_some,
        readNumber_padded (by omega), Option.bind_eq_bind, Option.bind_some]
      dsimp only
      rw [hseconds, Option.bind_some, if_neg (not_not.2 rfl)]
      dsimp only
      split
      · rw [if_neg (by decide), if_pos rfl]
        congr 2
        omega
      · rw [if_pos rfl]
        congr 2
        omega

theorem Datetime.checked_self (time : Datetime) :
    Datetime.checked time.year time.month time.day time.hour time.minute time.second
      time.microsecond time.offset = some time := by
  unfold Datetime.checked
  rw [dif_pos time.year_range, dif_pos time.month_range, dif_pos time.day_range,
    dif_pos time.time_range, dif_pos time.offset_range]

theorem fromisoformat_isoformat (time : Datetime) :
    Datetime.fromisoformat time.isoformat = some time := by
  obtain ⟨hhour, hminute, hsecond, hmicrosecond⟩ := time.time_range
  have hyear := time.year_range
  have hmonth := time.month_range
  have hday : time.day < 100 := by
    have hrange := time.day_range
    have hmax : daysInMonth time.year time.month ≤ 31 := by
      unfold daysInMonth
      split
      · split <;> omega
      · split <;> omega
    omega
  unfold Datetime.fromisoformat Datetime.isoformat
  simp only [List.append_assoc, List.cons_append]
  rw [readNumber_padded (by omega), Option.bind_eq_bind, Option.bind_some]
  simp only [readMark_cons, Option.bind_some, readNumber_padded (show time.month < 10 ^ 2 by omega),
    readNumber_padded (show time.day < 10 ^ 2 by omega),
    readNumber_padded (show time.hour < 10 ^ 2 by omega),
    readNumber_padded (show time.minute < 10 ^ 2 by omega),
    readNumber_padded (show time.second < 10 ^ 2 by omega),
    readFraction_fractionText hmicrosecond (offsetText_head time.offset),
    readOffset_offsetText time.offset_range, Datetime.checked_self, Option.bind_eq_bind]

section Sample

/-- The time that the samples of the later modules count from. -/
def newYear : Datetime where
  year := 2026
  month := 1
  day := 1
  hour := 0
  minute := 0
  second := 0
  microsecond := 0
  offset := some 0

end Sample

end NamiSync
