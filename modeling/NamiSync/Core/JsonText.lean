/-
# `Core.JsonText` — what is written is read back

A text that `dumps` has written and `encode` has passed on holds the value
it was written from: each code point of a string has one spelling, which
`scanUnits` undoes, and behind a value stands a separator or a bracket.

## What is proved

    loads_canonicalBytes         `loads` undoes `dumps` and `encode`, where no
                                 high surrogate is followed by a low one
    sorted_eq_of_canonicalBytes  equal bytes are equal values, up to the order
                                 of keys, with no condition on strings

and a small calculus of faithful encodings (`Faithful`), with which the later
modules show that a record can be told from its text.

## The argument

The text arrives with some code points escaped (`wire`).  A string is read up
to its quote as code units, and the units determine the string in two ways:
joined, if no two of them form a pair by accident, or kept as they are.  For
values, `Proper` is the grammar of what is written; `scanValue_text` is an
induction over it, with what stands behind a value as the third thing to know
besides the fuel and the value.
-/
import NamiSync.Core.Json

namespace NamiSync

/-! ## Strings

`dumps` writes with `ensure_ascii` off and the text is then encoded with
`backslashreplace`, so a surrogate that UTF-8 cannot write arrives as an escape
which JSON reads again.  `wireEscape` is both steps in one, and the scanner is
shown to undo it code point by code point. -/

/-- How a code point of a string arrives: its escape, and the escape of a
surrogate. -/
def wireEscape (c : CodePoint) : Str := (escapeChar c).flatMap backslashReplace

/-- It arrives as `\uXXXX`. -/
def escapedUnit (c : CodePoint) : Bool :=
  (decide (c.val < 0x20) && (shortEscape c).isNone) || isSurrogate c

/-- The units that a string is read as. -/
def unitsOf (value : Str) : List CodeUnit := value.map fun c => (c, escapedUnit c)

theorem isSurrogate_iff {c : CodePoint} :
    isSurrogate c = true ↔ 0xD800 ≤ c.val ∧ c.val < 0xE000 := by
  unfold isSurrogate
  simp only [Bool.and_eq_true, decide_eq_true_eq]
  constructor
  · rintro ⟨hlow, hhigh⟩
    have hlow' : 0xD800 ≤ c.val := hlow
    have hhigh' : c.val ≤ 0xDFFF := hhigh
    omega
  · rintro ⟨hlow, hhigh⟩
    refine ⟨show 0xD800 ≤ c.val from hlow, show c.val ≤ 0xDFFF from ?_⟩
    omega

theorem backslashReplace_plain {c : CodePoint} (h : c.val < 0xD800) : backslashReplace c = [c] := by
  unfold backslashReplace
  rw [not_surrogate_of_lt h]
  rfl

theorem flatMap_plain {f : CodePoint → Str} (hf : ∀ c, c.val < 0x80 → f c = [c]) {text : Str}
    (htext : ∀ c ∈ text, c.val < 0x80) : text.flatMap f = text := by
  induction text with
  | nil => rfl
  | cons c rest ih =>
      rw [List.flatMap_cons, hf c (htext c List.mem_cons_self),
        ih fun d hd => htext d (List.mem_cons_of_mem _ hd)]
      rfl

theorem unicodeEscape_plain {n : Nat} : ∀ c ∈ unicodeEscape n, c.val < 0x80 := by
  intro c hc
  rcases List.mem_append.1 hc with hc | hc
  · revert hc
    simp [str, CodePoint.ofChar]
    rintro (rfl | rfl) <;> simp
  · exact hexDigits_lt hc

/-- The short escapes. -/
theorem shortEscape_spec {c : CodePoint} {text : Str} (h : shortEscape c = some text) :
    c.val < 0x80 ∧
      ∃ e, text = [backslash, e] ∧ e ≠ 0x75 ∧ e.val < 0x80 ∧ simpleEscape e = some c := by
  unfold shortEscape at h
  split at h
  · next hc => exact ⟨by rw [hc]; decide, 0x22, (Option.some.inj h).symm, by decide, by decide,
      by rw [hc]; rfl⟩
  · split at h
    · next hc =>
        exact ⟨by rw [hc]; decide, backslash, (Option.some.inj h).symm, by decide, by decide,
          by rw [hc]; rfl⟩
    · split at h
      · next hc => exact ⟨by rw [hc]; decide, 0x6E, (Option.some.inj h).symm, by decide, by decide,
          by rw [hc]; rfl⟩
      · split at h
        · next hc =>
            exact ⟨by rw [hc]; decide, 0x72, (Option.some.inj h).symm, by decide, by decide,
              by rw [hc]; rfl⟩
        · split at h
          · next hc =>
              exact ⟨by rw [hc]; decide, 0x74, (Option.some.inj h).symm, by decide, by decide,
                by rw [hc]; rfl⟩
          · split at h
            · next hc =>
                exact ⟨by rw [hc]; decide, 0x66, (Option.some.inj h).symm, by decide, by decide,
                  by rw [hc]; rfl⟩
            · split at h
              · next hc =>
                  exact ⟨by rw [hc]; decide, 0x62, (Option.some.inj h).symm, by decide, by decide,
                    by rw [hc]; rfl⟩
              · exact absurd h (by simp)

theorem hexValue_hexDigit {n : Nat} (h : n < 16) : hexValue (hexDigit n) = some n := by
  unfold hexValue
  rw [hexDigit_val h]
  split
  · rw [if_pos (by omega)]
    congr 1
    omega
  · rw [if_neg (by omega), if_pos (by omega)]
    congr 1
    omega

/-- Four digits are read as the number they write. -/
theorem hexDigits_four {n : Nat} (h : n < 0x10000) :
    ∃ a b c d, hexDigits 4 n = [a, b, c, d] ∧ hexValues [a, b, c, d] = some n := by
  refine ⟨hexDigit (n / 4096 % 16), hexDigit (n / 256 % 16), hexDigit (n / 16 % 16),
    hexDigit (n % 16), ?_, ?_⟩
  · simp only [hexDigits, List.nil_append, List.cons_append, Nat.div_div_eq_div_mul]
  · simp only [hexValues, hexValue_hexDigit (Nat.mod_lt _ (show 0 < 16 by omega)),
      Option.bind_eq_bind, Option.bind_some, List.length_cons, List.length_nil]
    congr 1
    omega

theorem scanUnits_unicode {c : CodePoint} (hc : c.val < 0x10000) (rest : Str) :
    scanUnits (unicodeEscape c ++ rest) =
      (scanUnits rest).map fun scanned => ((c, true) :: scanned.1, scanned.2) := by
  obtain ⟨x, y, z, w, hdigits, hvalue⟩ := hexDigits_four hc
  unfold unicodeEscape
  rw [hdigits, show str "\\u" = [backslash, 0x75] from rfl]
  show scanUnits (backslash :: 0x75 :: x :: y :: z :: w :: rest) = _
  rw [scanUnits]
  rw [if_neg (by decide), if_pos rfl, if_pos rfl, hvalue]
  cases scanUnits rest with
  | none => rfl
  | some scanned => simp [CodePoint.ofNat_val]

/-- The spellings of a code point. -/
theorem wireEscape_cases (c : CodePoint) :
    (∃ e, wireEscape c = [backslash, e] ∧ e ≠ 0x75 ∧ simpleEscape e = some c ∧
        escapedUnit c = false) ∨
      (wireEscape c = unicodeEscape c ∧ c.val < 0x10000 ∧ escapedUnit c = true) ∨
      (wireEscape c = [c] ∧ c ≠ 0x22 ∧ c ≠ backslash ∧ 0x20 ≤ c.val ∧ escapedUnit c = false) := by
  unfold wireEscape escapeChar
  cases hshort : shortEscape c with
  | some text =>
      obtain ⟨hc, e, rfl, hne, hlt, hsimple⟩ := shortEscape_spec hshort
      refine Or.inl ⟨e, ?_, hne, hsimple, ?_⟩
      · exact flatMap_plain (fun d hd => backslashReplace_plain (by omega)) (by
          intro d hd
          simp only [List.mem_cons, List.not_mem_nil, or_false] at hd
          rcases hd with rfl | rfl
          · decide
          · exact hlt)
      · unfold escapedUnit
        rw [hshort, not_surrogate_of_lt (by omega)]
        simp
  | none =>
      dsimp only
      split
      · next hlt =>
          refine Or.inr (Or.inl ⟨?_, by omega, ?_⟩)
          · exact flatMap_plain (fun d hd => backslashReplace_plain (by omega)) unicodeEscape_plain
          · unfold escapedUnit
            rw [hshort, decide_eq_true hlt]
            rfl
      · next hle =>
          rw [List.flatMap_singleton]
          cases hsurrogate : isSurrogate c with
          | true =>
              refine Or.inr (Or.inl ⟨?_, ?_, ?_⟩)
              · unfold backslashReplace
                rw [hsurrogate]
                rfl
              · have := isSurrogate_iff.1 hsurrogate
                omega
              · unfold escapedUnit
                rw [hsurrogate, Bool.or_true]
          | false =>
              refine Or.inr (Or.inr ⟨?_, ?_, ?_, by omega, ?_⟩)
              · unfold backslashReplace
                rw [hsurrogate]
                rfl
              · rintro rfl
                exact absurd hshort (by simp [shortEscape])
              · rintro rfl
                exact absurd hshort (by simp [shortEscape, backslash])
              · unfold escapedUnit
                rw [hsurrogate, decide_eq_false hle]
                rfl

/-- The scanner takes one code point's spelling off the text. -/
theorem scanUnits_wireEscape (c : CodePoint) (rest : Str) :
    scanUnits (wireEscape c ++ rest) =
      (scanUnits rest).map fun scanned => ((c, escapedUnit c) :: scanned.1, scanned.2) := by
  rcases wireEscape_cases c with ⟨e, heq, hne, hsimple, hunit⟩ | ⟨heq, hlt, hunit⟩ |
    ⟨heq, hquote, hslash, hle, hunit⟩
  · rw [heq, hunit]
    show scanUnits (backslash :: e :: rest) = _
    rw [scanUnits.eq_def]
    dsimp only
    rw [if_neg (by decide), if_pos rfl, if_neg hne, hsimple]
    cases scanUnits rest with
    | none => rfl
    | some scanned => rfl
  · rw [heq, hunit]
    exact scanUnits_unicode hlt rest
  · rw [heq, hunit]
    show scanUnits (c :: rest) = _
    rw [scanUnits.eq_def]
    dsimp only
    rw [if_neg hquote, if_neg hslash, if_neg (by omega)]
    cases scanUnits rest with
    | none => rfl
    | some scanned => rfl

/-- A quoted string is read as its units. -/
theorem scanUnits_quoted (value rest : Str) :
    scanUnits (value.flatMap wireEscape ++ 0x22 :: rest) = some (unitsOf value, rest) := by
  induction value with
  | nil =>
      rw [List.flatMap_nil, List.nil_append, scanUnits.eq_def]
      dsimp only
      rw [if_pos rfl]
      rfl
  | cons c value ih =>
      rw [List.flatMap_cons, List.append_assoc, scanUnits_wireEscape, ih]
      rfl

/-! ## Joining the units

`loads` joins an escaped high surrogate and the escaped low one behind it into
one code point.  Read without this joining a string comes back as it was; with
it, it comes back when no such pair stands in it. -/

theorem keepUnits_unitsOf (value : Str) : keepUnits (unitsOf value) = value := by
  unfold keepUnits unitsOf
  rw [List.map_map]
  exact List.map_id value

/-- No high surrogate is immediately followed by a low one. -/
def Unpaired (value : Str) : Prop :=
  value.IsChain fun c next => (isHighSurrogate c && isLowSurrogate next) = false

/-- A unit that is not half of a pair stands for itself. -/
theorem joinPairs_cons {c : CodePoint} {flag : Bool} {units : List CodeUnit}
    (h : ∀ unit ∈ units.head?, (isHighSurrogate c && isLowSurrogate unit.1) = false) :
    joinPairs ((c, flag) :: units) = c :: joinPairs units := by
  cases units with
  | nil => rfl
  | cons next units =>
      have hpair := h next rfl
      rw [joinPairs.eq_def]
      split
      · next heq => exact absurd heq (by simp)
      · next heq => exact absurd heq (by simp)
      · next high low rest heq =>
          obtain ⟨hfirst, hothers⟩ := List.cons.inj heq
          obtain ⟨rfl, -⟩ := Prod.mk.inj hfirst
          obtain ⟨rfl, rfl⟩ := List.cons.inj hothers
          rw [hpair, if_neg Bool.false_ne_true]
      · next c' flag' next' rest _ heq =>
          obtain ⟨hfirst, hothers⟩ := List.cons.inj heq
          obtain ⟨rfl, -⟩ := Prod.mk.inj hfirst
          rw [← hothers]

/-- A string without such a pair is joined to itself. -/
theorem joinPairs_unitsOf {value : Str} (h : Unpaired value) :
    joinPairs (unitsOf value) = value := by
  unfold Unpaired at h
  induction value with
  | nil => rfl
  | cons c rest ih =>
      have htail := ih h.of_cons
      unfold unitsOf at htail ⊢
      rw [List.map_cons, joinPairs_cons, htail]
      intro unit hunit
      cases rest with
      | nil => exact absurd hunit (by simp)
      | cons next rest =>
          obtain rfl := Option.some.inj hunit
          exact (List.isChain_cons_cons.1 h).1

/-! ## Strings of `ensure_ascii`

The other spelling, by which the members of a frozen set are sorted: everything
outside ASCII is an escape, and a code point beyond four digits is written as a
pair, which the joining puts together again. -/

/-- The units of a code point that is written in ASCII: two for one that
does not fit four digits. -/
def asciiUnits (c : CodePoint) : List CodeUnit :=
  if c.val < 0x10000 then
    [(c, (shortEscape c).isNone && !(decide (0x20 ≤ c.val) && decide (c.val < 0x7F)))]
  else
    [(CodePoint.ofNat (0xD800 + (c.val - 0x10000) / 0x400), true),
     (CodePoint.ofNat (0xDC00 + (c.val - 0x10000) % 0x400), true)]

theorem ofNat_val {n : Nat} (h : n < 0x110000) : (CodePoint.ofNat n).val = n := by
  unfold CodePoint.ofNat
  rw [dif_pos h]

theorem scanUnits_ascii (c : CodePoint) (rest : Str) :
    scanUnits (escapeCharAscii c ++ rest) =
      (scanUnits rest).map fun scanned => (asciiUnits c ++ scanned.1, scanned.2) := by
  unfold escapeCharAscii asciiUnits
  cases hshort : shortEscape c with
  | some text =>
      obtain ⟨hc, e, rfl, hne, -, hsimple⟩ := shortEscape_spec hshort
      show scanUnits (backslash :: e :: rest) = _
      rw [if_pos (show c.val < 0x10000 by omega), scanUnits.eq_def]
      dsimp only
      rw [if_neg (by decide), if_pos rfl, if_neg hne, hsimple]
      cases scanUnits rest with
      | none => rfl
      | some scanned => rfl
  | none =>
      dsimp only
      split
      · next hplain =>
          have hquote : c ≠ 0x22 := by
            rintro rfl
            exact absurd hshort (by simp [shortEscape])
          have hslash : c ≠ backslash := by
            rintro rfl
            exact absurd hshort (by simp [shortEscape, backslash])
          rw [if_pos (by omega)]
          show scanUnits (c :: rest) = _
          rw [scanUnits.eq_def]
          dsimp only
          rw [if_neg hquote, if_neg hslash, if_neg (by omega), decide_eq_true hplain.1,
            decide_eq_true hplain.2]
          cases scanUnits rest with
          | none => rfl
          | some scanned => rfl
      · next hplain =>
          split
          · next hlt =>
              have hflag : (decide (0x20 ≤ c.val) && decide (c.val < 0x7F)) = false := by
                simpa using hplain
              rw [scanUnits_unicode hlt, hflag]
              rfl
          · -- Two escapes, each of which fits four digits.
            next hlarge =>
              have hc := c.isLt
              have hhigh := @ofNat_val (0xD800 + (c.val - 0x10000) / 0x400) (by omega)
              have hlow := @ofNat_val (0xDC00 + (c.val - 0x10000) % 0x400) (by omega)
              have hfirst := @scanUnits_unicode
                (CodePoint.ofNat (0xD800 + (c.val - 0x10000) / 0x400)) (by omega)
              have hsecond := @scanUnits_unicode
                (CodePoint.ofNat (0xDC00 + (c.val - 0x10000) % 0x400)) (by omega)
              rw [hhigh] at hfirst
              rw [hlow] at hsecond
              rw [List.append_assoc, hfirst, hsecond]
              cases scanUnits rest with
              | none => rfl
              | some scanned => rfl

theorem scanUnits_quotedAscii (value rest : Str) :
    scanUnits (value.flatMap escapeCharAscii ++ 0x22 :: rest) =
      some (value.flatMap asciiUnits, rest) := by
  induction value with
  | nil =>
      rw [List.flatMap_nil, List.nil_append, scanUnits.eq_def]
      dsimp only
      rw [if_pos rfl]
      rfl
  | cons c value ih =>
      rw [List.flatMap_cons, List.append_assoc, scanUnits_ascii, ih]
      rfl

theorem joinPairs_pair {high low : CodePoint} {units : List CodeUnit}
    (hhigh : isHighSurrogate high = true) (hlow : isLowSurrogate low = true) :
    joinPairs ((high, true) :: (low, true) :: units) =
      CodePoint.ofNat (0x10000 + (high.val - 0xD800) * 0x400 + (low.val - 0xDC00)) ::
        joinPairs units := by
  rw [joinPairs, hhigh, hlow]
  rfl

/-- Pairs that were split for writing are joined again, and no others are there. -/
theorem joinPairs_asciiUnits {value : Str} (h : Unpaired value) :
    joinPairs (value.flatMap asciiUnits) = value := by
  unfold Unpaired at h
  induction value with
  | nil => rfl
  | cons c rest ih =>
      have htail := ih h.of_cons
      rw [List.flatMap_cons]
      by_cases hc : c.val < 0x10000
      · have hunits : asciiUnits c = [(c, (asciiUnits c).head?.all Prod.snd)] := by
          unfold asciiUnits
          rw [if_pos hc]
          rfl
        rw [hunits, List.singleton_append, joinPairs_cons, htail]
        intro unit hunit
        cases rest with
        | nil => exact absurd hunit (by simp)
        | cons next rest =>
            have hpair := (List.isChain_cons_cons.1 h).1
            rw [List.flatMap_cons] at hunit
            unfold asciiUnits at hunit
            split at hunit
            · obtain rfl := Option.some.inj hunit
              exact hpair
            · next hlarge =>
                obtain rfl := Option.some.inj hunit
                have hlt := next.isLt
                have hnot : isLowSurrogate
                    (CodePoint.ofNat (0xD800 + (next.val - 0x10000) / 0x400)) = false := by
                  unfold isLowSurrogate
                  rw [ofNat_val (by omega), Bool.and_eq_false_iff, decide_eq_false_iff_not]
                  omega
                rw [hnot, Bool.and_false]
      · have hlt := c.isLt
        have hhigh := @ofNat_val (0xD800 + (c.val - 0x10000) / 0x400) (by omega)
        have hlow := @ofNat_val (0xDC00 + (c.val - 0x10000) % 0x400) (by omega)
        unfold asciiUnits
        rw [if_neg hc]
        show joinPairs (_ :: _ :: rest.flatMap asciiUnits) = _
        rw [joinPairs_pair, hhigh, hlow, htail,
          show 0x10000 + (0xD800 + (c.val - 0x10000) / 0x400 - 0xD800) * 0x400 +
            (0xDC00 + (c.val - 0x10000) % 0x400 - 0xDC00) = c.val by omega, CodePoint.ofNat_val]
        · unfold isHighSurrogate
          rw [hhigh]
          simp only [Bool.and_eq_true, decide_eq_true_eq]
          omega
        · unfold isLowSurrogate
          rw [hlow]
          simp only [Bool.and_eq_true, decide_eq_true_eq]
          omega

/-! ## Integers

A number is its digits, and the scanner takes digits as long as there are any.
So what stands behind a number must not begin with one. -/

theorem digit_val {n : Nat} (h : n < 10) : (CodePoint.ofChar n.digitChar).val = 0x30 + n := by
  have hall : ∀ m : Fin 10, (CodePoint.ofChar m.val.digitChar).val = 0x30 + m.val := by decide
  exact hall ⟨n, h⟩

theorem decimal_eq (n : Nat) : decimal n = (Nat.toDigits 10 n).map CodePoint.ofChar := by
  unfold decimal str
  rw [Nat.toString_eq_ofList_toDigits, String.toList_ofList]

theorem decimal_small {n : Nat} (h : n < 10) : decimal n = [CodePoint.ofChar n.digitChar] := by
  rw [decimal_eq, Nat.toDigits_of_lt_base h]
  rfl

theorem decimal_large {n : Nat} (h : 10 ≤ n) :
    decimal n = decimal (n / 10) ++ [CodePoint.ofChar (n % 10).digitChar] := by
  rw [decimal_eq, decimal_eq, Nat.toDigits_of_base_le (by omega) h, List.map_append]
  rfl

theorem isDigit_digit {n : Nat} (h : n < 10) : isDigit (CodePoint.ofChar n.digitChar) = true := by
  unfold isDigit
  rw [digit_val h]
  simp only [Bool.and_eq_true, decide_eq_true_eq]
  omega

/-- The digits of a number, and the first of them. -/
theorem decimal_spec (n : Nat) :
    (∀ c ∈ decimal n, isDigit c = true) ∧ digitsValue (decimal n) = n ∧
      ∃ c rest, decimal n = c :: rest ∧ (c = 0x30 → n = 0) := by
  induction n using Nat.strongRecOn with
  | ind n ih =>
      by_cases hsmall : n < 10
      · rw [decimal_small hsmall]
        refine ⟨?_, ?_, _, _, rfl, ?_⟩
        · intro c hc
          rw [List.mem_singleton.1 hc]
          exact isDigit_digit hsmall
        · show 0 * 10 + ((CodePoint.ofChar n.digitChar).val - 0x30) = n
          rw [digit_val hsmall]
          omega
        · intro hzero
          have hval := congrArg Fin.val hzero
          rw [digit_val hsmall] at hval
          have : 0x30 + n = 0x30 := hval
          omega
      · have hlarge : 10 ≤ n := by omega
        have hmod : n % 10 < 10 := Nat.mod_lt _ (by omega)
        obtain ⟨hdigits, hvalue, c, rest, heq, hfirst⟩ := ih (n / 10) (by omega)
        rw [decimal_large hlarge]
        refine ⟨?_, ?_, c, rest ++ [CodePoint.ofChar (n % 10).digitChar], ?_, ?_⟩
        · intro d hd
          rcases List.mem_append.1 hd with hd | hd
          · exact hdigits d hd
          · rw [List.mem_singleton.1 hd]
            exact isDigit_digit hmod
        · unfold digitsValue at hvalue ⊢
          rw [List.foldl_append, hvalue]
          show n / 10 * 10 + ((CodePoint.ofChar (n % 10).digitChar).val - 0x30) = n
          rw [digit_val hmod]
          omega
        · rw [heq]
          rfl
        · intro hzero
          have := hfirst hzero
          omega

/-- What may stand behind a value: anything but a digit. -/
def Ends (rest : Str) : Prop := ∀ c ∈ rest.head?, isDigit c = false

/-- The digits of a number are read as the number. -/
theorem scanInt_decimal {n : Nat} {rest : Str} (h : Ends rest) :
    scanInt (decimal n ++ rest) = some (n, rest) := by
  obtain ⟨hdigits, hvalue, c, digits, heq, hfirst⟩ := decimal_spec n
  have htake : (decimal n ++ rest).takeWhile isDigit = decimal n := by
    rw [List.takeWhile_append_of_pos hdigits]
    cases rest with
    | nil => exact List.append_nil _
    | cons d rest => rw [List.takeWhile_cons, h d rfl, if_neg Bool.false_ne_true, List.append_nil]
  have hdrop : (decimal n ++ rest).dropWhile isDigit = rest := by
    rw [List.dropWhile_append_of_pos hdigits]
    cases rest with
    | nil => rfl
    | cons d rest => rw [List.dropWhile_cons, h d rfl, if_neg Bool.false_ne_true]
  by_cases hzero : c = 0x30
  · obtain rfl := hfirst hzero
    rfl
  · have hc : isDigit c = true := hdigits c (by rw [heq]; exact List.mem_cons_self)
    rw [heq, List.cons_append] at htake hdrop ⊢
    unfold scanInt
    dsimp only
    rw [if_neg hzero, if_pos hc, htake, hdrop, ← heq, hvalue]

/-! ## Values

The scanner is total by fuel, and the fuel it is given is the length of the
text.  Hence each lemma is about a text with an arbitrary rest behind it and
asks for as much fuel as the text is long; the induction over the value passes
each item what its own text needs. -/

namespace Json

/-- How a text arrives. -/
def wire : JsonStyle := ⟨wireEscape, str ",", str ":"⟩

/-- What a text is written with: it has distinct keys in every object, and
its strings satisfy `p`. -/
inductive Proper (p : Str → Prop) : Json → Prop
  | null : Proper p .null
  | bool (value : Bool) : Proper p (.bool value)
  | int (value : Nat) : Proper p (.int value)
  | string {value : Str} : p value → Proper p (.string value)
  | array {items : List Json} : (∀ item ∈ items, Proper p item) → Proper p (.array items)
  | object {fields : List (Str × Json)} : (fields.map Prod.fst).Nodup →
      (∀ field ∈ fields, p field.1) → (∀ field ∈ fields, Proper p field.2) →
      Proper p (.object fields)

/-- Induction over a value, with the hypothesis for every item and field. -/
theorem induct {motive : Json → Prop} (null : motive .null) (bool : ∀ value, motive (.bool value))
    (int : ∀ value, motive (.int value)) (string : ∀ value, motive (.string value))
    (array : ∀ items, (∀ item ∈ items, motive item) → motive (.array items))
    (object : ∀ fields, (∀ field ∈ fields, motive field.2) → motive (.object fields))
    (value : Json) : motive value := by
  refine @Json.rec motive (fun items => ∀ item ∈ items, motive item)
    (fun fields => ∀ field ∈ fields, motive field.2) (fun field => motive field.2) null bool int
    string array object ?_ ?_ ?_ ?_ ?_ value
  · exact fun item h => absurd h List.not_mem_nil
  · intro item rest hitem hrest other hother
    rcases List.mem_cons.1 hother with rfl | hother
    · exact hitem
    · exact hrest other hother
  · exact fun field h => absurd h List.not_mem_nil
  · intro field rest hfield hrest other hother
    rcases List.mem_cons.1 hother with rfl | hother
    · exact hfield
    · exact hrest other hother
  · exact fun key value hvalue => hvalue

/-- A value starts with a character that is neither white space nor a
closing bracket. -/
theorem text_head (style : JsonStyle) (value : Json) :
    ∃ c rest, text style value = c :: rest ∧ isJsonSpace c = false ∧ c ≠ 0x5D := by
  cases value with
  | null => exact ⟨_, _, rfl, rfl, by decide⟩
  | bool value =>
      cases value with
      | true => exact ⟨_, _, rfl, rfl, by decide⟩
      | false => exact ⟨_, _, rfl, rfl, by decide⟩
  | int value =>
      obtain ⟨hdigits, -, c, rest, heq, -⟩ := decimal_spec value
      have hc := hdigits c (by rw [heq]; exact List.mem_cons_self)
      have hbound : 0x30 ≤ c.val ∧ c.val < 0x3A := by simpa [isDigit] using hc
      refine ⟨c, rest, heq, ?_, ?_⟩
      · cases hspace : isJsonSpace c with
        | false => rfl
        | true =>
            simp only [isJsonSpace, Bool.or_eq_true, decide_eq_true_eq] at hspace
            rcases hspace with ((rfl | rfl) | rfl) | rfl <;> exact absurd hbound (by decide)
      · rintro rfl
        exact absurd hbound (by decide)
  | string value => exact ⟨_, _, rfl, rfl, by decide⟩
  | array items =>
      cases items with
      | nil => exact ⟨_, _, rfl, rfl, by decide⟩
      | cons item rest => exact ⟨_, _, rfl, rfl, by decide⟩
  | object fields =>
      cases fields with
      | nil => exact ⟨_, _, rfl, rfl, by decide⟩
      | cons field rest => exact ⟨_, _, rfl, rfl, by decide⟩

theorem skipSpace_text (style : JsonStyle) (value : Json) (rest : Str) :
    skipSpace (text style value ++ rest) = text style value ++ rest := by
  obtain ⟨c, tail, heq, hspace, -⟩ := text_head style value
  rw [heq]
  show List.dropWhile isJsonSpace (c :: (tail ++ rest)) = _
  rw [List.dropWhile_cons, hspace, if_neg Bool.false_ne_true]
  rfl

/-- What stands behind an item or a field is no space and no digit. -/
theorem follows {c : CodePoint} (h : c = 0x5D ∨ c = 0x7D ∨ c = 0x2C) (rest : Str) :
    skipSpace (c :: rest) = c :: rest ∧ Ends (c :: rest) := by
  constructor
  · rcases h with rfl | rfl | rfl <;> rfl
  · intro d hd
    obtain rfl := Option.some.inj hd
    rcases h with rfl | rfl | rfl <;> rfl

theorem textItems_head (items : List Json) (rest : Str) :
    skipSpace (textItems wire items ++ rest) = textItems wire items ++ rest ∧
      Ends (textItems wire items ++ rest) := by
  cases items with
  | nil => exact follows (Or.inl rfl) rest
  | cons item items => exact follows (Or.inr (Or.inr rfl)) _

theorem textFields_head (fields : List (Str × Json)) (rest : Str) :
    skipSpace (textFields wire fields ++ rest) = textFields wire fields ++ rest ∧
      Ends (textFields wire fields ++ rest) := by
  cases fields with
  | nil => exact follows (Or.inr (Or.inl rfl)) rest
  | cons field fields => exact follows (Or.inr (Or.inr rfl)) _

theorem quoted_append (value rest : Str) :
    quoted wire value ++ rest = 0x22 :: (value.flatMap wireEscape ++ 0x22 :: rest) := by
  simp [quoted, wire]

/-- A field on the wire. -/
def fieldText (field : Str × Json) : Str := quoted wire field.1 ++ 0x3A :: text wire field.2

theorem text_array_cons (item : Json) (items : List Json) :
    text wire (.array (item :: items)) = 0x5B :: (text wire item ++ textItems wire items) := by
  rw [text]

theorem textItems_cons (item : Json) (items : List Json) :
    textItems wire (item :: items) = 0x2C :: (text wire item ++ textItems wire items) := rfl

theorem text_object_cons (field : Str × Json) (fields : List (Str × Json)) :
    text wire (.object (field :: fields)) =
      0x7B :: (fieldText field ++ textFields wire fields) := by
  obtain ⟨key, value⟩ := field
  rw [text, fieldText]
  simp [wire, str, CodePoint.ofChar]

theorem textFields_cons (field : Str × Json) (fields : List (Str × Json)) :
    textFields wire (field :: fields) = 0x2C :: (fieldText field ++ textFields wire fields) := by
  obtain ⟨key, value⟩ := field
  rw [textFields, fieldText]
  simp [wire, str, CodePoint.ofChar]

theorem fieldText_append (field : Str × Json) (rest : Str) : fieldText field ++ rest =
    0x22 :: (field.1.flatMap wireEscape ++ 0x22 :: 0x3A :: (text wire field.2 ++ rest)) := by
  rw [fieldText, List.append_assoc, quoted_append]
  rfl

theorem text_lt_fieldText (field : Str × Json) :
    (text wire field.2).length < (fieldText field).length := by
  rw [fieldText, List.length_append, List.length_cons]
  omega

/-- `dict` keeps fields with distinct keys as they are. -/
theorem dictFields_nodup {fields : List (Str × Json)} (h : (fields.map Prod.fst).Nodup) :
    dictFields fields = fields :=
  Dict.foldl_assign h

section Scanning

variable {join : List CodeUnit → Str} {p : Str → Prop}

/-- A value is read back from the text it arrives as. -/
def ReadBack (join : List CodeUnit → Str) (value : Json) : Prop :=
  ∀ fuel rest, (text wire value).length ≤ fuel → Ends rest →
    scanValue join fuel (text wire value ++ rest) = some (value, rest)

/-- The rest of an array behind its first item. -/
theorem scanItems_text {items : List Json} (hitems : ∀ item ∈ items, ReadBack join item)
    (fuel : Nat) (rest : Str) (hfuel : (textItems wire items).length ≤ fuel) :
    scanItems join fuel (textItems wire items ++ rest) = some (items, rest) := by
  induction items generalizing fuel with
  | nil =>
      cases fuel with
      | zero => exact absurd hfuel (by simp [textItems, str])
      | succ fuel => rfl
  | cons item items ih =>
      cases fuel with
      | zero => exact absurd hfuel (by simp [textItems_cons])
      | succ fuel =>
          rw [textItems_cons, List.length_cons, List.length_append] at hfuel
          obtain ⟨hskip, hends⟩ := textItems_head items rest
          rw [textItems_cons, List.cons_append, List.append_assoc, scanItems, if_neg (by decide),
            if_pos rfl, skipSpace_text, hitems item List.mem_cons_self fuel _ (by omega) hends]
          dsimp only [Option.bind_eq_bind, Option.bind_some]
          rw [hskip, ih (fun other hother => hitems other (List.mem_cons_of_mem _ hother)) fuel
            (by omega)]
          rfl

theorem scanField_text (hread : ∀ value, p value → join (unitsOf value) = value)
    {field : Str × Json} (hkey : p field.1) (hvalue : ReadBack join field.2) {fuel : Nat}
    {rest : Str} (hfuel : (fieldText field).length ≤ fuel) (hends : Ends rest) :
    scanField join fuel (fieldText field ++ rest) = some (field, rest) := by
  have hlt := text_lt_fieldText field
  cases fuel with
  | zero => omega
  | succ fuel =>
      rw [fieldText_append, scanField, if_pos rfl, scanUnits_quoted, Option.bind_eq_bind,
        Option.bind_some]
      show (scanValue join fuel (skipSpace (text wire field.2 ++ rest))).bind _ = _
      rw [skipSpace_text, hvalue fuel rest (by omega) hends, Option.bind_some, hread _ hkey]

/-- The rest of an object behind its first field. -/
theorem scanFields_text (hread : ∀ value, p value → join (unitsOf value) = value)
    {fields : List (Str × Json)} (hkeys : ∀ field ∈ fields, p field.1)
    (hfields : ∀ field ∈ fields, ReadBack join field.2) (fuel : Nat) (rest : Str)
    (hfuel : (textFields wire fields).length ≤ fuel) :
    scanFields join fuel (textFields wire fields ++ rest) = some (fields, rest) := by
  induction fields generalizing fuel with
  | nil =>
      cases fuel with
      | zero => exact absurd hfuel (by simp [textFields, str])
      | succ fuel => rfl
  | cons field fields ih =>
      cases fuel with
      | zero => exact absurd hfuel (by simp [textFields_cons])
      | succ fuel =>
          rw [textFields_cons, List.length_cons, List.length_append] at hfuel
          obtain ⟨hskip, hends⟩ := textFields_head fields rest
          have hskipField : ∀ tail : Str, skipSpace (fieldText field ++ tail) =
              fieldText field ++ tail := by
            intro tail
            rw [fieldText_append]
            rfl
          rw [textFields_cons, List.cons_append, List.append_assoc, scanFields,
            if_neg (by decide), if_pos rfl, hskipField,
            scanField_text hread (hkeys _ List.mem_cons_self) (hfields _ List.mem_cons_self)
              (by omega) hends]
          dsimp only [Option.bind_eq_bind, Option.bind_some]
          rw [hskip, ih (fun other hother => hkeys other (List.mem_cons_of_mem _ hother))
            (fun other hother => hfields other (List.mem_cons_of_mem _ hother)) fuel (by omega)]
          rfl

theorem scanValue_int (value : Nat) : ReadBack join (.int value) := by
  intro fuel rest hfuel hends
  obtain ⟨hdigits, -, c, digits, heq, -⟩ := decimal_spec value
  have hc : isDigit c = true := hdigits c (by rw [heq]; exact List.mem_cons_self)
  have hscan := scanInt_decimal hends (n := value)
  cases fuel with
  | zero => exact absurd hfuel (by simp [text, heq])
  | succ fuel =>
      rw [heq, List.cons_append] at hscan
      rw [text, heq, List.cons_append]
      have hne : ∀ d, isDigit d = false → c ≠ d := by
        rintro d hd rfl
        rw [hc] at hd
        exact Bool.false_ne_true hd.symm
      have hword : ∀ word d more, word = d :: more → isDigit d = false →
          ¬ List.isPrefixOf word (c :: (digits ++ rest)) = true := by
        rintro word d more rfl hd
        simp [List.isPrefixOf, (hne d hd).symm]
      rw [scanValue, if_neg (hne _ (by decide)), if_neg (hne _ (by decide)),
        if_neg (hne _ (by decide)), if_neg (hword (str "null") _ _ rfl (by decide)),
        if_neg (hword (str "true") _ _ rfl (by decide)),
        if_neg (hword (str "false") _ _ rfl (by decide)), hscan]
      rfl

/-- By induction over the value; the fuel of each part is a part of its own text's length. -/
theorem scanValue_text (hread : ∀ value, p value → join (unitsOf value) = value) (value : Json)
    (hvalue : Proper p value) : ReadBack join value := by
  induction value using induct with
  | null =>
      intro fuel rest hfuel _
      cases fuel with
      | zero => exact absurd hfuel (by simp [text, str])
      | succ fuel => rfl
  | bool value =>
      intro fuel rest hfuel _
      cases fuel with
      | zero => exact absurd hfuel (by cases value <;> simp [text, str])
      | succ fuel => cases value <;> rfl
  | int value => exact scanValue_int value
  | string value =>
      intro fuel rest hfuel _
      obtain ⟨⟩ | ⟨⟩ | ⟨⟩ | ⟨hp⟩ := hvalue
      cases fuel with
      | zero => exact absurd hfuel (by simp [text, quoted])
      | succ fuel =>
          rw [text, quoted_append, scanValue, if_pos rfl, scanUnits_quoted]
          dsimp only [Option.bind_eq_bind, Option.bind_some]
          rw [hread value hp]
  | array items ih =>
      intro fuel rest hfuel hends
      cases hvalue with
      | array hproper =>
          -- The items are read with one unit of fuel less, which their bracket pays for.
          have hback : ∀ item ∈ items, ReadBack join item := fun item hitem =>
            ih item hitem (hproper item hitem)
          cases items with
          | nil =>
              cases fuel with
              | zero => exact absurd hfuel (by simp [text, str])
              | succ fuel => rfl
          | cons item items =>
              cases fuel with
              | zero => exact absurd hfuel (by simp [text_array_cons])
              | succ fuel =>
                  rw [text_array_cons, List.length_cons, List.length_append] at hfuel
                  obtain ⟨c, tail, heq, -, hne⟩ := text_head wire item
                  obtain ⟨hskip, hbehind⟩ := textItems_head items rest
                  have hitem := hback item List.mem_cons_self fuel
                    (textItems wire items ++ rest) (by omega) hbehind
                  rw [text_array_cons, List.cons_append, List.append_assoc, scanValue,
                    if_neg (by decide), if_pos rfl, skipSpace_text]
                  split
                  · -- No item begins with the bracket that closes an empty array.
                    next heq' =>
                      rw [heq] at heq'
                      exact absurd (List.cons.inj heq').1 hne
                  · rw [hitem]
                    dsimp only [Option.bind_eq_bind, Option.bind_some]
                    rw [hskip, scanItems_text (fun other hother =>
                      hback other (List.mem_cons_of_mem _ hother)) fuel rest (by omega)]
                    rfl
  | object fields ih =>
      intro fuel rest hfuel hends
      cases hvalue with
      | object hnodup hkeys hproper =>
          have hback : ∀ field ∈ fields, ReadBack join field.2 := fun field hfield =>
            ih field hfield (hproper field hfield)
          cases fields with
          | nil =>
              cases fuel with
              | zero => exact absurd hfuel (by simp [text, str])
              | succ fuel => rfl
          | cons field fields =>
              cases fuel with
              | zero => exact absurd hfuel (by simp [text_object_cons])
              | succ fuel =>
                  rw [text_object_cons, List.length_cons, List.length_append] at hfuel
                  obtain ⟨hskip, hbehind⟩ := textFields_head fields rest
                  have hfield := scanField_text hread (hkeys field List.mem_cons_self)
                    (hback field List.mem_cons_self)
                    (show (fieldText field).length ≤ fuel by omega) hbehind
                  have hstart := fieldText_append field (textFields wire fields ++ rest)
                  rw [text_object_cons, List.cons_append, List.append_assoc, scanValue,
                    if_neg (by decide), if_neg (by decide), if_pos rfl]
                  have hskipField :
                      skipSpace (fieldText field ++ (textFields wire fields ++ rest)) =
                        fieldText field ++ (textFields wire fields ++ rest) := by
                    rw [hstart]
                    rfl
                  rw [hskipField]
                  split
                  · next heq' =>
                      rw [hstart] at heq'
                      exact absurd (List.cons.inj heq').1 (by decide)
                  · rw [hfield]
                    dsimp only [Option.bind_eq_bind, Option.bind_some]
                    rw [hskip, scanFields_text hread
                      (fun other hother => hkeys other (List.mem_cons_of_mem _ hother))
                      (fun other hother => hback other (List.mem_cons_of_mem _ hother)) fuel rest
                      (by omega), Option.bind_some, dictFields_nodup hnodup]

/-- The text of a value is read back as the value, whatever its strings are, when
`join` gives these back. -/
theorem read_text (hread : ∀ value, p value → join (unitsOf value) = value) {value : Json}
    (hvalue : Proper p value) : read join (text wire value) = some value := by
  have hscan := scanValue_text hread value hvalue ((text wire value).length + 1) [] (by omega)
    (fun c hc => absurd hc (by simp))
  have hskip := skipSpace_text wire value []
  rw [List.append_nil] at hscan hskip
  unfold read
  rw [hskip, hscan]
  rfl

end Scanning

/-! ## Sorting the keys

`sort_keys` sorts the fields of every object, at every depth, by key.  Sorting
keeps the fields and their values, so a record with known keys can be told by
its sorted form. -/

section Sorting

variable {p : Str → Prop}

theorem sortedItems_eq (items : List Json) : sortedItems items = items.map sorted := by
  induction items with
  | nil => rfl
  | cons item items ih => rw [sortedItems, ih, List.map_cons]

theorem sortedFields_eq (fields : List (Str × Json)) :
    sortedFields fields = fields.map fun field => (field.1, field.2.sorted) := by
  induction fields with
  | nil => rfl
  | cons field fields ih => rw [sortedFields, ih, List.map_cons]

theorem keys_sortedFields (fields : List (Str × Json)) :
    (sortedFields fields).map Prod.fst = fields.map Prod.fst := by
  rw [sortedFields_eq, List.map_map]
  rfl

theorem Proper.sorted {value : Json} (h : Proper p value) : Proper p value.sorted := by
  induction value using induct with
  | null => exact .null
  | bool value => exact .bool value
  | int value => exact .int value
  | string value => exact h
  | array items ih =>
      cases h with
      | array hitems =>
          rw [Json.sorted, sortedItems_eq]
          refine .array fun item hitem => ?_
          obtain ⟨item, hmem, rfl⟩ := List.mem_map.1 hitem
          exact ih item hmem (hitems item hmem)
  | object fields ih =>
      cases h with
      | object hnodup hkeys hfields =>
          have hmem : ∀ field ∈ sortedBy Prod.fst (sortedFields fields),
              ∃ old ∈ fields, field = (old.1, old.2.sorted) := by
            intro field hfield
            rw [mem_sortedBy, sortedFields_eq] at hfield
            obtain ⟨old, hold, rfl⟩ := List.mem_map.1 hfield
            exact ⟨old, hold, rfl⟩
          rw [Json.sorted]
          refine .object ?_ ?_ ?_
          · refine (((sortedBy_perm Prod.fst (sortedFields fields)).map Prod.fst).nodup_iff).2 ?_
            rw [keys_sortedFields]
            exact hnodup
          · intro field hfield
            obtain ⟨old, hold, rfl⟩ := hmem field hfield
            exact hkeys old hold
          · intro field hfield
            obtain ⟨old, hold, rfl⟩ := hmem field hfield
            exact ih old hold (hfields old hold)

/-- Objects with the same keys, written alike, have the same values. -/
theorem values_eq_of_sorted {fields fields' : List (Str × Json)}
    (hnodup : (fields.map Prod.fst).Nodup) (hkeys : fields.map Prod.fst = fields'.map Prod.fst)
    (h : (Json.object fields).sorted = (Json.object fields').sorted) :
    fields.map (fun field => field.2.sorted) = fields'.map fun field => field.2.sorted := by
  have hlists :
      sortedBy Prod.fst (sortedFields fields) = sortedBy Prod.fst (sortedFields fields') := by
    rw [Json.sorted, Json.sorted] at h
    exact Json.object.inj h
  have hmem : ∀ field, field ∈ sortedFields fields ↔ field ∈ sortedFields fields' := by
    intro field
    rw [← @mem_sortedBy _ _ _ Prod.fst, hlists, mem_sortedBy]
  rw [sortedFields_eq, sortedFields_eq] at hmem
  clear h hlists
  induction fields generalizing fields' with
  | nil =>
      obtain rfl : fields' = [] := List.map_eq_nil_iff.1 hkeys.symm
      rfl
  | cons field fields ih =>
      cases fields' with
      | nil => exact absurd hkeys (by simp)
      | cons field' fields' =>
          rw [List.map_cons, List.map_cons] at hkeys
          obtain ⟨hkey, hkeys⟩ := List.cons.inj hkeys
          rw [List.map_cons, List.nodup_cons] at hnodup
          have hother : ∀ {l : List (Str × Json)} {key : Str} {value : Json},
              (key, value) ∈ l.map (fun field => (field.1, field.2.sorted)) →
                key ∈ l.map Prod.fst := by
            intro l key value hin
            obtain ⟨old, hold, heq⟩ := List.mem_map.1 hin
            rw [← (Prod.mk.inj heq).1]
            exact List.mem_map_of_mem hold
          have hvalue : field.2.sorted = field'.2.sorted := by
            rcases List.mem_cons.1 ((hmem (field.1, field.2.sorted)).1 List.mem_cons_self) with
              heq | hin
            · exact (Prod.mk.inj heq).2
            · exact absurd (hkeys ▸ hother hin) hnodup.1
          rw [List.map_cons, List.map_cons, hvalue]
          refine congrArg _ (ih hnodup.2 hkeys fun other => ?_)
          constructor
          · intro hin
            rcases List.mem_cons.1 ((hmem other).1 (List.mem_cons_of_mem _ hin)) with rfl | hin'
            · exact absurd (hkey ▸ hother hin) hnodup.1
            · exact hin'
          · intro hin
            rcases List.mem_cons.1 ((hmem other).2 (List.mem_cons_of_mem _ hin)) with rfl | hin'
            · exact absurd (hkeys ▸ hother hin) hnodup.1
            · exact hin'

end Sorting

/-! ## Bytes

The canonical bytes are the ASCII frame of the text with the strings encoded.
An encoding that leaves ASCII alone commutes with writing, which makes decoded
bytes a text again, and the sections before apply. -/

section Bytes

variable {style : JsonStyle} {f : CodePoint → Str}

theorem plain_text {value : Str} (h : value.all (fun c => decide (c.val < 0x80)) = true) :
    ∀ c ∈ value, c.val < 0x80 := by
  intro c hc
  simpa using List.all_eq_true.1 h c hc

theorem quoted_flatMap (hf : ∀ c, c.val < 0x80 → f c = [c]) (value : Str) :
    (quoted style value).flatMap f =
      quoted { style with escape := fun c => (style.escape c).flatMap f } value := by
  have hquote : f 0x22 = [0x22] := hf _ (by decide)
  simp only [quoted, List.cons_append, List.flatMap_cons, List.flatMap_append, List.flatMap_nil,
    hquote, List.flatMap_assoc, List.nil_append, List.append_nil]

mutual

/-- A rewriting of the text that spares ASCII is one of the escapes. -/
theorem text_flatMap (hf : ∀ c, c.val < 0x80 → f c = [c])
    (hitem : ∀ c ∈ style.itemSep, c.val < 0x80) (hkey : ∀ c ∈ style.keySep, c.val < 0x80) :
    ∀ value, (text style value).flatMap f =
      text { style with escape := fun c => (style.escape c).flatMap f } value
  | .null => flatMap_plain hf (plain_text rfl)
  | .bool true => flatMap_plain hf (plain_text rfl)
  | .bool false => flatMap_plain hf (plain_text rfl)
  | .int value => by
      refine flatMap_plain hf fun c hc => ?_
      have hdigit := (decimal_spec value).1 c hc
      simp only [isDigit, Bool.and_eq_true, decide_eq_true_eq] at hdigit
      omega
  | .string value => quoted_flatMap hf value
  | .array [] => flatMap_plain hf (plain_text rfl)
  | .array (item :: rest) => by
      have hbracket : f 0x5B = [0x5B] := hf _ (by decide)
      rw [text, text, List.flatMap_cons, List.flatMap_append, text_flatMap hf hitem hkey item,
        textItems_flatMap hf hitem hkey rest, hbracket]
      rfl
  | .object [] => flatMap_plain hf (plain_text rfl)
  | .object ((key, value) :: rest) => by
      have hbrace : f 0x7B = [0x7B] := hf _ (by decide)
      rw [text, text, List.flatMap_cons, List.flatMap_append, List.flatMap_append,
        List.flatMap_append, quoted_flatMap hf, flatMap_plain hf hkey,
        text_flatMap hf hitem hkey value, textFields_flatMap hf hitem hkey rest, hbrace]
      rfl

theorem textItems_flatMap (hf : ∀ c, c.val < 0x80 → f c = [c])
    (hitem : ∀ c ∈ style.itemSep, c.val < 0x80) (hkey : ∀ c ∈ style.keySep, c.val < 0x80) :
    ∀ items, (textItems style items).flatMap f =
      textItems { style with escape := fun c => (style.escape c).flatMap f } items
  | [] => flatMap_plain hf (plain_text rfl)
  | item :: rest => by
      rw [textItems, textItems, List.flatMap_append, List.flatMap_append, flatMap_plain hf hitem,
        text_flatMap hf hitem hkey item, textItems_flatMap hf hitem hkey rest]

theorem textFields_flatMap (hf : ∀ c, c.val < 0x80 → f c = [c])
    (hitem : ∀ c ∈ style.itemSep, c.val < 0x80) (hkey : ∀ c ∈ style.keySep, c.val < 0x80) :
    ∀ fields, (textFields style fields).flatMap f =
      textFields { style with escape := fun c => (style.escape c).flatMap f } fields
  | [] => flatMap_plain hf (plain_text rfl)
  | (key, value) :: rest => by
      rw [textFields, textFields, List.flatMap_append, List.flatMap_append, List.flatMap_append,
        List.flatMap_append, flatMap_plain hf hitem, quoted_flatMap hf, flatMap_plain hf hkey,
        text_flatMap hf hitem hkey value, textFields_flatMap hf hitem hkey rest]

end

/-- What arrives of the canonical bytes of a value. -/
theorem decode_canonicalBytes (value : Json) :
    decodeUtf8 (canonicalBytes value) = some (text wire value.sorted) := by
  rw [canonicalBytes, decodeUtf8_encodeUtf8,
    text_flatMap (fun c hc => backslashReplace_plain (by omega))
      (plain_text rfl) (plain_text rfl)]
  rfl

/-- The canonical bytes of a value say what the value is, up to the order of
its keys. -/
theorem sorted_eq_of_canonicalBytes {value other : Json} (hvalue : Proper (fun _ => True) value)
    (hother : Proper (fun _ => True) other) (h : canonicalBytes value = canonicalBytes other) :
    value.sorted = other.sorted := by
  have htext := (decode_canonicalBytes value).symm.trans
    ((congrArg decodeUtf8 h).trans (decode_canonicalBytes other))
  have hread := read_text (fun value _ => keepUnits_unitsOf value) hvalue.sorted
  rw [Option.some.inj htext,
    read_text (fun value _ => keepUnits_unitsOf value) hother.sorted] at hread
  exact (Option.some.inj hread).symm

/-- `loads` undoes `dumps` where no two surrogates pair up. -/
theorem loads_canonicalBytes {value : Json} (h : Proper Unpaired value) :
    (decodeUtf8 (canonicalBytes value)).bind loads = some value.sorted := by
  rw [decode_canonicalBytes, Option.bind_some]
  exact read_text (fun value hvalue => joinPairs_unitsOf hvalue) h.sorted

end Bytes

/-! ## Faithful encodings

The notion the fingerprints use.  It composes: an injective map before it, an
option, a list and a record of faithful fields are faithful again, so a
dataclass is settled by the list of its fields. -/

section Encodings

variable {α β : Type*} {f : α → Json}

/-- A value can be told from its canonical text. -/
structure Faithful (f : α → Json) : Prop where
  proper : ∀ a, Proper (fun _ => True) (f a)
  inj : ∀ a b, (f a).sorted = (f b).sorted → a = b

/-- Equal bytes come from equal values. -/
theorem Faithful.of_canonicalBytes (h : Faithful f) {a b : α}
    (heq : canonicalBytes (f a) = canonicalBytes (f b)) : a = b :=
  h.inj a b (sorted_eq_of_canonicalBytes (h.proper a) (h.proper b) heq)

theorem faithful_string : Faithful Json.string where
  proper _ := .string trivial
  inj _ _ h := Json.string.inj h

theorem faithful_int : Faithful Json.int where
  proper := .int
  inj _ _ h := Json.int.inj h

theorem faithful_bool : Faithful Json.bool where
  proper := .bool
  inj _ _ h := Json.bool.inj h

theorem Faithful.comp (h : Faithful f) {g : β → α} (hg : Function.Injective g) :
    Faithful fun b => f (g b) where
  proper b := h.proper (g b)
  inj _ _ heq := hg (h.inj _ _ heq)

/-- `None` is `null`. -/
def optional (f : α → Json) : Option α → Json
  | none => .null
  | some a => f a

theorem sorted_eq_null {value : Json} (h : value.sorted = .null) : value = .null := by
  cases value with
  | null => rfl
  | _ => exact absurd h (by simp [Json.sorted])

theorem Faithful.optional (h : Faithful f) (hne : ∀ a, f a ≠ .null) :
    Faithful (Json.optional f) where
  proper a := by
    cases a with
    | none => exact .null
    | some a => exact h.proper a
  inj a b heq := by
    cases a with
    | none =>
        cases b with
        | none => rfl
        | some b => exact absurd (sorted_eq_null (show (f b).sorted = .null from heq.symm)) (hne b)
    | some a =>
        cases b with
        | none => exact absurd (sorted_eq_null (show (f a).sorted = .null from heq)) (hne a)
        | some b => exact congrArg some (h.inj a b heq)

theorem Faithful.array (h : Faithful f) : Faithful fun items : List α => .array (items.map f) where
  proper items := by
    refine .array fun item hitem => ?_
    obtain ⟨a, -, rfl⟩ := List.mem_map.1 hitem
    exact h.proper a
  inj items items' heq := by
    have hlists := Json.array.inj heq
    rw [sortedItems_eq, sortedItems_eq, List.map_map, List.map_map] at hlists
    exact List.map_injective_iff.2 (fun a b hab => h.inj a b hab) hlists

/-- A record is told by the values of its fields. -/
theorem faithful_object {fields : α → List (Str × Json)}
    (hkeys : ∀ a b, (fields a).map Prod.fst = (fields b).map Prod.fst)
    (hnodup : ∀ a, ((fields a).map Prod.fst).Nodup)
    (hproper : ∀ a, ∀ field ∈ fields a, Proper (fun _ => True) field.2)
    (hinj : ∀ a b, (fields a).map (fun field => field.2.sorted) =
      (fields b).map (fun field => field.2.sorted) → a = b) :
    Faithful fun a => .object (fields a) where
  proper a := .object (hnodup a) (fun _ _ => trivial) (hproper a)
  inj a b h := hinj a b (values_eq_of_sorted (hnodup a) (hkeys a b) h)

end Encodings

end Json

end NamiSync
