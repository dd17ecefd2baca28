/-
# `Core.Text` — strings as the source sees them

A Python `str` is a list of code points, lone surrogates included: the
scanner meets names that no UTF-8 text can hold.  The tables behind
`str.upper` and `unicodedata.normalize` are a parameter.

## What is assumed of Unicode

`Unicode` is a class: the tables are data of the interpreter, not of the
repository.  Its laws are three facts that the tables have and that the path
code relies on: the upper case of a character is not empty, that of a
backslash is a backslash, and no other character's contains one.
`asciiUnicode` is an instance, which the samples of the later modules use.
-/
import Mathlib.Algebra.Ring.Nat
import Mathlib.Data.List.Lex
import Mathlib.Data.List.Sort
import Mathlib.Data.Prod.Lex
import Mathlib.Order.Fin.Basic

namespace NamiSync

abbrev CodePoint := Fin 0x110000

abbrev Str := List CodePoint

instance codePoint_neZero : NeZero 0x110000 := ⟨by decide⟩

instance codePoint_lawful : LawfulBEq CodePoint := inferInstance

instance str_lawful : LawfulBEq Str := inferInstance

def CodePoint.ofChar (character : Char) : CodePoint :=
  ⟨character.val.toNat, by
    rcases character.valid with h | ⟨_, h⟩ <;>
      · have := h
        omega⟩

/-- The `Str` of a literal. -/
def str (literal : String) : Str := literal.toList.map CodePoint.ofChar

/-- `\`, the canonical separator. -/
abbrev backslash : CodePoint := 0x5C

abbrev slash : CodePoint := 0x2F

abbrev dot : CodePoint := 0x2E

abbrev colon : CodePoint := 0x3A

abbrev space : CodePoint := 0x20

/-- The Unicode tables the source consults: `character.upper()`, which may
expand, and `unicodedata.normalize("NFC", ·)`.  Of the first two facts are
used: it is never empty, and it makes no separator out of anything else. -/
class Unicode where
  upper : CodePoint → Str
  nfc : Str → Str
  upper_ne_nil : ∀ c, upper c ≠ []
  upper_backslash : upper backslash = [backslash]
  eq_backslash_of_upper : ∀ c, backslash ∈ upper c → c = backslash

section Casing

variable [Unicode]

/-- One character of `_uppercase_one_codepoint`: a character whose
uppercase form expands is retained. -/
def upperOne (character : CodePoint) : CodePoint :=
  match Unicode.upper character with
  | [uppercase] => uppercase
  | _ => character

/-- `_uppercase_one_codepoint`. -/
def uppercaseOneCodepoint (value : Str) : Str := value.map upperOne

@[simp] theorem upperOne_backslash : upperOne backslash = backslash := by
  unfold upperOne
  rw [Unicode.upper_backslash]

theorem upperOne_eq_backslash {c : CodePoint} : upperOne c = backslash ↔ c = backslash := by
  constructor
  · intro h
    unfold upperOne at h
    split at h
    · next u hu =>
        exact Unicode.eq_backslash_of_upper c (by rw [hu, h]; exact List.mem_singleton_self _)
    · exact h
  · rintro rfl
    exact upperOne_backslash

@[simp] theorem backslash_mem_uppercase {value : Str} :
    backslash ∈ uppercaseOneCodepoint value ↔ backslash ∈ value := by
  simp only [uppercaseOneCodepoint, List.mem_map, upperOne_eq_backslash]
  constructor
  · rintro ⟨c, hc, rfl⟩
    exact hc
  · intro h
    exact ⟨backslash, h, rfl⟩

end Casing

/-- `str.upper` and NFC restricted to ASCII, where neither expands. -/
@[reducible] def asciiUnicode : Unicode where
  upper c := if 0x61 ≤ c ∧ c ≤ 0x7A then [c - 0x20] else [c]
  nfc value := value
  upper_ne_nil := by
    intro c
    split <;> simp
  upper_backslash := by decide
  eq_backslash_of_upper := by
    intro c h
    split at h
    · next hc =>
        have hval := congrArg Fin.val (List.mem_singleton.1 h).symm
        have hlo : 0x61 ≤ c.val := hc.1
        have hhi : c.val ≤ 0x7A := hc.2
        simp only [Fin.sub_def, backslash] at hval
        have : (0x110000 - 0x20 + c.val) % 0x110000 = 0x5C := hval
        omega
    · exact (List.mem_singleton.1 h).symm

/-- `sorted(values, key=key)`: stable. -/
def sortedBy {α β : Type*} [LinearOrder β] (key : α → β) (values : List α) : List α :=
  values.insertionSort fun a b => key a ≤ key b

@[simp] theorem mem_sortedBy {α β : Type*} [LinearOrder β] {key : α → β} {values : List α}
    {a : α} : a ∈ sortedBy key values ↔ a ∈ values :=
  List.mem_insertionSort _

theorem sortedBy_perm {α β : Type*} [LinearOrder β] (key : α → β) (values : List α) :
    (sortedBy key values).Perm values := List.perm_insertionSort _ values

theorem pairwise_sortedBy {α β : Type*} [LinearOrder β] (key : α → β) (values : List α) :
    (sortedBy key values).Pairwise fun a b => key a ≤ key b :=
  haveI : Std.Total fun a b => key a ≤ key b := ⟨fun a b => le_total (key a) (key b)⟩
  haveI : IsTrans α fun a b => key a ≤ key b := ⟨fun _ _ _ => le_trans⟩
  List.pairwise_insertionSort _ values

/-- Values with distinct keys are sorted alike from any order. -/
theorem sortedBy_eq_of_perm {α β : Type*} [LinearOrder β] {key : α → β} {values values' : List α}
    (hperm : values.Perm values')
    (hkey : ∀ a ∈ values, ∀ b ∈ values, key a = key b → a = b) :
    sortedBy key values = sortedBy key values' := by
  refine List.Perm.eq_of_pairwise ?_ (pairwise_sortedBy key values)
    (pairwise_sortedBy key values') ?_
  · intro a b ha hb hab hba
    exact hkey a (mem_sortedBy.1 ha) b (hperm.mem_iff.2 (mem_sortedBy.1 hb)) (le_antisymm hab hba)
  · exact (List.perm_insertionSort _ values).trans
      (hperm.trans (List.perm_insertionSort _ values').symm)

/-! ## `ascii` -/

def hexDigit (n : Nat) : CodePoint :=
  if h : n < 10 then ⟨0x30 + n, by omega⟩
  else if h' : n < 16 then ⟨0x57 + n, by omega⟩ else 0x3F

/-- The last `width` hexadecimal digits of `n`. -/
def hexDigits : Nat → Nat → Str
  | 0, _ => []
  | width + 1, n => hexDigits width (n / 16) ++ [hexDigit (n % 16)]

theorem hexDigits_length : ∀ width n : Nat, (hexDigits width n).length = width
  | 0, _ => rfl
  | width + 1, n => by simp [hexDigits, hexDigits_length width]

theorem hexDigit_val {n : Nat} (h : n < 16) :
    (hexDigit n).val = if n < 10 then 0x30 + n else 0x57 + n := by
  unfold hexDigit
  split
  · rfl
  · rfl

theorem hexDigits_lt {width n : Nat} {c : CodePoint} (h : c ∈ hexDigits width n) :
    c.val < 0x80 := by
  induction width generalizing n with
  | zero => exact absurd h List.not_mem_nil
  | succ width ih =>
      rcases List.mem_append.1 h with h | h
      · exact ih h
      · rw [List.mem_singleton.1 h, hexDigit_val (Nat.mod_lt n (by omega))]
        have hlt := Nat.mod_lt n (show 0 < 16 by omega)
        split <;> omega

theorem hexDigits_lower {width n : Nat} {c : CodePoint} (h : c ∈ hexDigits width n) :
    (0x30 ≤ c.val ∧ c.val < 0x3A) ∨ (0x61 ≤ c.val ∧ c.val < 0x67) := by
  induction width generalizing n with
  | zero => exact absurd h List.not_mem_nil
  | succ width ih =>
      rcases List.mem_append.1 h with h | h
      · exact ih h
      · have hlt := Nat.mod_lt n (show 0 < 16 by omega)
        rw [List.mem_singleton.1 h, hexDigit_val hlt]
        split <;> omega

/-- Numbers of a width are told apart by their digits. -/
theorem hexDigits_inj {width m n : Nat} (hm : m < 16 ^ width) (hn : n < 16 ^ width)
    (h : hexDigits width m = hexDigits width n) : m = n := by
  induction width generalizing m n with
  | zero =>
      rw [Nat.pow_zero] at hm hn
      omega
  | succ width ih =>
      rw [Nat.pow_succ] at hm hn
      obtain ⟨hhigh, hlow⟩ := List.append_inj h (by simp [hexDigits_length])
      have hquot : m / 16 = n / 16 := ih (by omega) (by omega) hhigh
      have hdigit := congrArg Fin.val (List.singleton_inj.1 hlow)
      rw [hexDigit_val (Nat.mod_lt m (by omega)), hexDigit_val (Nat.mod_lt n (by omega))] at hdigit
      have hrem : m % 16 = n % 16 := by
        split at hdigit <;> split at hdigit <;> omega
      omega

/-! ## Text for events -/

/-- A text as the string that an event carries.  The few paths with a lone
surrogate, which no event can carry, lose it. -/
def render (value : Str) : String := String.ofList (value.map fun c => Char.ofNat c.val)

theorem render_inj {value value' : Str} (hvalue : ∀ c ∈ value, c.val < 0x80)
    (hvalue' : ∀ c ∈ value', c.val < 0x80) (h : render value = render value') : value = value' := by
  have hchar : ∀ {n : Nat}, n < 0x80 → (Char.ofNat n).toNat = n := by
    intro n hn
    have hvalid : n.isValidChar := Or.inl (by omega)
    rw [Char.ofNat, dif_pos hvalid]
    rfl
  have hcodes : ∀ {text : Str}, (∀ c ∈ text, c.val < 0x80) →
      (text.map fun c => Char.ofNat c.val).map Char.toNat = text.map Fin.val := by
    intro text htext
    rw [List.map_map]
    exact List.map_congr_left fun c hc => hchar (htext c hc)
  have hlists := congrArg (List.map Char.toNat) (String.ofList_injective h)
  rw [hcodes hvalue, hcodes hvalue'] at hlists
  exact List.map_injective_iff.2 Fin.val_injective hlists

/-- The decimal digits of `n`. -/
def decimal (n : Nat) : Str := str (toString n)

/-- The escape `repr` writes for one character inside quotes `quote`. -/
def asciiEscape (quote character : CodePoint) : Str :=
  if character = backslash ∨ character = quote then [backslash, character]
  else if character = 0x09 then str "\\t"
  else if character = 0x0A then str "\\n"
  else if character = 0x0D then str "\\r"
  else if space ≤ character ∧ character < 0x7F then [character]
  else if character < 0x100 then str "\\x" ++ hexDigits 2 character
  else if character < 0x10000 then str "\\u" ++ hexDigits 4 character
  else str "\\U" ++ hexDigits 8 character

/-- `ascii(value)[1:-1]`: double quotes are used for a text that holds a
single quote and no double one. -/
def asciiText (value : Str) : Str :=
  let quote : CodePoint := if 0x27 ∈ value ∧ 0x22 ∉ value then 0x22 else 0x27
  value.flatMap (asciiEscape quote)

/-! ## `fnmatch.fnmatchcase` -/

/-- One element of a shell pattern. -/
inductive GlobToken
  | star
  | any
  | char (c : CodePoint)
  | set (negated : Bool) (items : Str)
  deriving DecidableEq

/-- Membership in the body of a bracket: single characters and ranges. -/
def inBracket (c : CodePoint) : Str → Bool
  | lo :: 0x2D :: hi :: rest => (lo ≤ c && c ≤ hi) || inBracket c rest
  | x :: rest => x = c || inBracket c rest
  | [] => false

/-- What stands between a `[` and its `]`, and what follows; a `]` or `!]`
right behind the `[` belongs to the body. -/
def bracketBody (pattern : Str) : Option (Bool × Str × Str) :=
  let negated := pattern.head? = some 0x21
  let pattern := if negated then pattern.tail else pattern
  let first := pattern.head? = some 0x5D
  let rest := if first then pattern.tail else pattern
  let body := rest.takeWhile (· ≠ 0x5D)
  match rest.dropWhile (· ≠ 0x5D) with
  | [] => none
  | _ :: rest => some (negated, (if first then 0x5D :: body else body), rest)

/-- `fnmatch.translate`; every token consumes a character, so the length of
the pattern is enough fuel. -/
def globTokens : Nat → Str → List GlobToken
  | 0, _ | _, [] => []
  | fuel + 1, c :: rest =>
      if c = 0x2A then .star :: globTokens fuel rest
      else if c = 0x3F then .any :: globTokens fuel rest
      else if c = 0x5B then
        match bracketBody rest with
        | none => .char c :: globTokens fuel rest
        | some (negated, items, rest) => .set negated items :: globTokens fuel rest
      else .char c :: globTokens fuel rest

def GlobToken.accepts (c : CodePoint) : GlobToken → Bool
  | .star | .any => true
  | .char x => x = c
  | .set negated items => inBracket c items != negated

def globMatch : List GlobToken → Str → Bool
  | [], name => name.isEmpty
  | .star :: tokens, name => name.tails.any (globMatch tokens)
  | token :: tokens, c :: name => token.accepts c && globMatch tokens name
  | _ :: _, [] => false

/-- `fnmatch.fnmatchcase`. -/
def fnmatchcase (name pattern : Str) : Bool :=
  globMatch (globTokens pattern.length pattern) name

example : fnmatchcase (str "BUILD\\A-1.O") (str "BUILD\\[!x]-[0-9].*") = true := by decide

end NamiSync
