/-
# `Core.Utf8` — bytes of a text

`str.encode("utf-8", errors="backslashreplace")` and `bytes.decode("utf-8")`.
A lone surrogate, which UTF-8 cannot hold, is written as the six ASCII
characters of its escape; so what is read back is the text with its
surrogates escaped.

`decodeUtf8_encodeUtf8` goes through the four lengths of a character.  The
decoder refuses overlong forms and surrogates, as Python's does, so the two
directions are inverse on what the encoder writes.
-/
import NamiSync.Core.Pathing

namespace NamiSync

/-- The code point with a number. -/
def CodePoint.ofNat (n : Nat) : CodePoint := if h : n < 0x110000 then ⟨n, h⟩ else 0

theorem CodePoint.ofNat_val (c : CodePoint) : CodePoint.ofNat c.val = c := dif_pos c.isLt

/-- The bytes of one code point, and how `decode` counts them. -/
def utf8Char (c : CodePoint) : List UInt8 :=
  let n := c.val
  if n < 0x80 then [.ofNat n]
  else if n < 0x800 then [.ofNat (0xC0 + n / 64), .ofNat (0x80 + n % 64)]
  else if n < 0x10000 then
    [.ofNat (0xE0 + n / 4096), .ofNat (0x80 + n / 64 % 64), .ofNat (0x80 + n % 64)]
  else
    [.ofNat (0xF0 + n / 262144), .ofNat (0x80 + n / 4096 % 64), .ofNat (0x80 + n / 64 % 64),
      .ofNat (0x80 + n % 64)]

/-- What `backslashreplace` puts for a surrogate. -/
def backslashReplace (c : CodePoint) : Str :=
  if isSurrogate c then str "\\u" ++ hexDigits 4 c else [c]

/-- `value.encode("utf-8", errors="backslashreplace")`. -/
def encodeUtf8 (value : Str) : List UInt8 := (value.flatMap backslashReplace).flatMap utf8Char

def isTail (byte : UInt8) : Bool := 0x80 ≤ byte.toNat && byte.toNat < 0xC0

/-- `payload.decode("utf-8")`: no overlong form, no surrogate, nothing above
the last code point. -/
def decodeUtf8 : List UInt8 → Option Str
  | [] => some []
  | a :: rest =>
      if a.toNat < 0x80 then (decodeUtf8 rest).map (CodePoint.ofNat a.toNat :: ·)
      else match rest with
        | [] => none
        | b :: rest =>
            if 0xC2 ≤ a.toNat ∧ a.toNat < 0xE0 ∧ isTail b then
              (decodeUtf8 rest).map
                (CodePoint.ofNat ((a.toNat - 0xC0) * 64 + (b.toNat - 0x80)) :: ·)
            else match rest with
              | [] => none
              | c :: rest =>
                  let three := (a.toNat - 0xE0) * 4096 + (b.toNat - 0x80) * 64 + (c.toNat - 0x80)
                  if 0xE0 ≤ a.toNat ∧ a.toNat < 0xF0 ∧ isTail b ∧ isTail c ∧ 0x800 ≤ three ∧
                      (three < 0xD800 ∨ 0xDFFF < three) then
                    (decodeUtf8 rest).map (CodePoint.ofNat three :: ·)
                  else match rest with
                    | [] => none
                    | d :: rest =>
                        let four := (a.toNat - 0xF0) * 262144 + (b.toNat - 0x80) * 4096 +
                          (c.toNat - 0x80) * 64 + (d.toNat - 0x80)
                        if 0xF0 ≤ a.toNat ∧ a.toNat < 0xF8 ∧ isTail b ∧ isTail c ∧ isTail d ∧
                            0x10000 ≤ four ∧ four < 0x110000 then
                          (decodeUtf8 rest).map (CodePoint.ofNat four :: ·)
                        else none

theorem toNat_ofNat_byte {n : Nat} (h : n < 256) : (UInt8.ofNat n).toNat = n := by
  simp [Nat.mod_eq_of_lt h]

theorem isTail_ofNat {n : Nat} (h : n < 64) : isTail (UInt8.ofNat (0x80 + n)) = true := by
  unfold isTail
  rw [toNat_ofNat_byte (by omega)]
  simp only [Bool.and_eq_true, decide_eq_true_eq]
  omega

/-- A code point that is no surrogate is read back. -/
theorem decodeUtf8_char {c : CodePoint} (h : isSurrogate c = false) (rest : List UInt8) :
    decodeUtf8 (utf8Char c ++ rest) = (decodeUtf8 rest).map (c :: ·) := by
  have hlt := c.isLt
  have hsurrogate : c.val < 0xD800 ∨ 0xDFFF < c.val := by
    by_contra hnot
    have hlow : (0xD800 : CodePoint) ≤ c := by
      rw [Fin.le_def]
      show 0xD800 ≤ c.val
      omega
    have hhigh : c ≤ (0xDFFF : CodePoint) := by
      rw [Fin.le_def]
      show c.val ≤ 0xDFFF
      omega
    simp [isSurrogate, hlow, hhigh] at h
  have hread := CodePoint.ofNat_val c
  unfold utf8Char
  dsimp only
  generalize c.val = n at hlt hsurrogate hread
  split
  · next hone =>
      rw [List.singleton_append, decodeUtf8.eq_def]
      dsimp only
      rw [toNat_ofNat_byte (by omega), if_pos hone, hread]
  · split
    · next hone htwo =>
        rw [List.cons_append, List.singleton_append, decodeUtf8.eq_def]
        dsimp only
        rw [toNat_ofNat_byte (by omega), toNat_ofNat_byte (by omega), if_neg (by omega),
          if_pos ⟨by omega, by omega, isTail_ofNat (by omega)⟩,
          show (0xC0 + n / 64 - 0xC0) * 64 + (0x80 + n % 64 - 0x80) = n by omega, hread]
    · split
      · next hone htwo hthree =>
          rw [List.cons_append, List.cons_append, List.singleton_append, decodeUtf8.eq_def]
          dsimp only
          rw [toNat_ofNat_byte (by omega), toNat_ofNat_byte (by omega),
            toNat_ofNat_byte (by omega), if_neg (by omega), if_neg (by omega),
            show (0xE0 + n / 4096 - 0xE0) * 4096 + (0x80 + n / 64 % 64 - 0x80) * 64 +
              (0x80 + n % 64 - 0x80) = n by omega,
            if_pos ⟨by omega, by omega, isTail_ofNat (by omega), isTail_ofNat (by omega), by omega,
              hsurrogate⟩, hread]
      · next hone htwo hthree =>
          rw [List.cons_append, List.cons_append, List.cons_append, List.singleton_append,
            decodeUtf8.eq_def]
          dsimp only
          rw [toNat_ofNat_byte (by omega), toNat_ofNat_byte (by omega),
            toNat_ofNat_byte (by omega), toNat_ofNat_byte (by omega), if_neg (by omega),
            if_neg (by omega), if_neg (by omega),
            show (0xF0 + n / 262144 - 0xF0) * 262144 + (0x80 + n / 4096 % 64 - 0x80) * 4096 +
              (0x80 + n / 64 % 64 - 0x80) * 64 + (0x80 + n % 64 - 0x80) = n by omega,
            if_pos ⟨by omega, by omega, isTail_ofNat (by omega), isTail_ofNat (by omega),
              isTail_ofNat (by omega), by omega, by omega⟩, hread]

theorem not_surrogate_of_lt {c : CodePoint} (h : c.val < 0xD800) : isSurrogate c = false := by
  have hnot : ¬ (0xD800 : CodePoint) ≤ c := by
    rw [Fin.le_def]
    show ¬ 0xD800 ≤ c.val
    omega
  simp [isSurrogate, hnot]

theorem backslashReplace_not_surrogate {c d : CodePoint} (h : d ∈ backslashReplace c) :
    isSurrogate d = false := by
  unfold backslashReplace at h
  split at h
  · rcases List.mem_append.1 h with h | h
    · have hplain : ∀ d ∈ str "\\u", d.val < 0x80 := by
        simp [str, CodePoint.ofChar]
      have := hplain d h
      exact not_surrogate_of_lt (by omega)
    · have := hexDigits_lt h
      exact not_surrogate_of_lt (by omega)
  · next hc =>
      rw [List.mem_singleton.1 h]
      simpa using hc

/-- What has been written is read back, with its surrogates escaped. -/
theorem decodeUtf8_encodeUtf8 (value : Str) :
    decodeUtf8 (encodeUtf8 value) = some (value.flatMap backslashReplace) := by
  have hread : ∀ text : Str, (∀ c ∈ text, isSurrogate c = false) →
      decodeUtf8 (text.flatMap utf8Char) = some text := by
    intro text
    induction text with
    | nil => exact fun _ => rfl
    | cons c rest ih =>
        intro h
        rw [List.flatMap_cons, decodeUtf8_char (h c List.mem_cons_self),
          ih fun d hd => h d (List.mem_cons_of_mem _ hd)]
        rfl
  refine hread _ fun d hd => ?_
  obtain ⟨c, -, hd⟩ := List.mem_flatMap.1 hd
  exact backslashReplace_not_surrogate hd

end NamiSync
