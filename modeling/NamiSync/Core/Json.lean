/-
# `Core.Json` — the JSON texts of the source

`json.dumps(..., sort_keys=True)` with the escapes of `ensure_ascii` either
way, and `json.loads`.  The numbers are the ones that occur, which are not
negative; a reader refuses any other.

A string is read as its code units, of which two that were escaped may be
the halves of one code point.  With the halves joined this is `json.loads`;
with the units kept it undoes `dumps` on every text.

## The parser

`scanValue` has fuel, one unit for each call, and every call takes a character
at least; `loads` gives it the length of the text, so it never runs out on a
text that `dumps` wrote (`Core.JsonText`).  On others running out is a
`JSONDecodeError` like the rest: nothing is claimed about those.
-/
import NamiSync.Core.Utf8
import NamiSync.Lib.Dict

namespace NamiSync

inductive Json
  | null
  | bool (value : Bool)
  | int (value : Nat)
  | string (value : Str)
  | array (items : List Json)
  | object (fields : List (Str × Json))

/-! ## Writing -/

/-- `ESCAPE_DCT`. -/
def shortEscape (c : CodePoint) : Option Str :=
  if c = 0x22 then some (str "\\\"")
  else if c = backslash then some (str "\\\\")
  else if c = 0x0A then some (str "\\n")
  else if c = 0x0D then some (str "\\r")
  else if c = 0x09 then some (str "\\t")
  else if c = 0x0C then some (str "\\f")
  else if c = 0x08 then some (str "\\b")
  else none

def unicodeEscape (n : Nat) : Str := str "\\u" ++ hexDigits 4 n

/-- `ensure_ascii=False`. -/
def escapeChar (c : CodePoint) : Str :=
  match shortEscape c with
  | some text => text
  | none => if c.val < 0x20 then unicodeEscape c else [c]

/-- `ensure_ascii=True`. -/
def escapeCharAscii (c : CodePoint) : Str :=
  match shortEscape c with
  | some text => text
  | none =>
      if 0x20 ≤ c.val ∧ c.val < 0x7F then [c]
      else if c.val < 0x10000 then unicodeEscape c
      else
        let n := c.val - 0x10000
        unicodeEscape (0xD800 + n / 0x400) ++ unicodeEscape (0xDC00 + n % 0x400)

structure JsonStyle where
  escape : CodePoint → Str
  itemSep : Str
  keySep : Str

namespace Json

section Writing

variable (style : JsonStyle)

def quoted (value : Str) : Str := 0x22 :: value.flatMap style.escape ++ [0x22]

mutual

def text : Json → Str
  | .null => str "null"
  | .bool true => str "true"
  | .bool false => str "false"
  | .int value => decimal value
  | .string value => quoted style value
  | .array [] => str "[]"
  | .array (item :: rest) => 0x5B :: (text item ++ textItems rest)
  | .object [] => str "{}"
  | .object ((key, value) :: rest) =>
      0x7B :: (quoted style key ++ style.keySep ++ text value ++ textFields rest)

/-- The items behind the first, with the bracket. -/
def textItems : List Json → Str
  | [] => str "]"
  | item :: rest => style.itemSep ++ text item ++ textItems rest

/-- The fields behind the first, with the brace. -/
def textFields : List (Str × Json) → Str
  | [] => str "\x7d"
  | (key, value) :: rest =>
      style.itemSep ++ quoted style key ++ style.keySep ++ text value ++ textFields rest

end

end Writing

mutual

/-- `sort_keys=True`. -/
def sorted : Json → Json
  | .null => .null
  | .bool value => .bool value
  | .int value => .int value
  | .string value => .string value
  | .array items => .array (sortedItems items)
  | .object fields => .object (sortedBy Prod.fst (sortedFields fields))

def sortedItems : List Json → List Json
  | [] => []
  | item :: rest => sorted item :: sortedItems rest

def sortedFields : List (Str × Json) → List (Str × Json)
  | [] => []
  | (key, value) :: rest => (key, sorted value) :: sortedFields rest

end

/-- `json.dumps(value, sort_keys=True)`. -/
def dumps (value : Json) : Str := text ⟨escapeCharAscii, str ", ", str ": "⟩ value.sorted

/-- `json.dumps(value, ensure_ascii=False, sort_keys=True,
separators=(",", ":")).encode("utf-8", errors="backslashreplace")`. -/
def canonicalBytes (value : Json) : List UInt8 :=
  encodeUtf8 (text ⟨escapeChar, str ",", str ":"⟩ value.sorted)

end Json

/-! ## Reading -/

/-- A code point of a string, and whether it was written as `\uXXXX`. -/
abbrev CodeUnit := CodePoint × Bool

def hexValue (c : CodePoint) : Option Nat :=
  if 0x30 ≤ c.val ∧ c.val < 0x3A then some (c.val - 0x30)
  else if 0x61 ≤ c.val ∧ c.val < 0x67 then some (c.val - 0x57)
  else if 0x41 ≤ c.val ∧ c.val < 0x47 then some (c.val - 0x37)
  else none

/-- `int(esc, 16)` of four digits. -/
def hexValues : List CodePoint → Option Nat
  | [] => some 0
  | digit :: rest => do
      let high ← hexValue digit
      let low ← hexValues rest
      some (high * 16 ^ rest.length + low)

/-- `BACKSLASH`. -/
def simpleEscape (c : CodePoint) : Option CodePoint :=
  if c = 0x22 ∨ c = backslash ∨ c = slash then some c
  else if c = 0x6E then some 0x0A
  else if c = 0x72 then some 0x0D
  else if c = 0x74 then some 0x09
  else if c = 0x66 then some 0x0C
  else if c = 0x62 then some 0x08
  else none

/-- The code units up to the closing quote, and the text behind it. -/
def scanUnits : Str → Option (List CodeUnit × Str)
  | [] => none
  | c :: rest =>
      if c = 0x22 then some ([], rest)
      else if c = backslash then
        match rest with
        | [] => none
        | e :: rest =>
            if e = 0x75 then
              match rest with
              | a :: b :: c :: d :: rest => do
                  let value ← hexValues [a, b, c, d]
                  let (units, rest) ← scanUnits rest
                  some ((CodePoint.ofNat value, true) :: units, rest)
              | _ => none
            else do
              let value ← simpleEscape e
              let (units, rest) ← scanUnits rest
              some ((value, false) :: units, rest)
      else if c.val < 0x20 then none
      else do
        let (units, rest) ← scanUnits rest
        some ((c, false) :: units, rest)

def isHighSurrogate (c : CodePoint) : Bool := 0xD800 ≤ c.val && c.val < 0xDC00

def isLowSurrogate (c : CodePoint) : Bool := 0xDC00 ≤ c.val && c.val < 0xE000

/-- Two escaped halves are one code point. -/
def joinPairs : List CodeUnit → Str
  | [] => []
  | [(c, _)] => [c]
  | (high, true) :: (low, true) :: rest =>
      if isHighSurrogate high && isLowSurrogate low then
        CodePoint.ofNat (0x10000 + (high.val - 0xD800) * 0x400 + (low.val - 0xDC00)) ::
          joinPairs rest
      else high :: joinPairs ((low, true) :: rest)
  | (c, _) :: next :: rest => c :: joinPairs (next :: rest)

/-- The units as they are. -/
def keepUnits (units : List CodeUnit) : Str := units.map Prod.fst

def isDigit (c : CodePoint) : Bool := 0x30 ≤ c.val && c.val < 0x3A

def digitsValue (digits : Str) : Nat := digits.foldl (fun n digit => n * 10 + (digit.val - 0x30)) 0

/-- The integers among the numbers: no leading zero. -/
def scanInt : Str → Option (Nat × Str)
  | [] => none
  | c :: rest =>
      if c = 0x30 then some (0, rest)
      else if isDigit c then
        some (digitsValue ((c :: rest).takeWhile isDigit), (c :: rest).dropWhile isDigit)
      else none

def isJsonSpace (c : CodePoint) : Bool := c = 0x20 || c = 0x09 || c = 0x0A || c = 0x0D

def skipSpace (text : Str) : Str := text.dropWhile isJsonSpace

/-- `dict(pairs)`. -/
def dictFields (fields : List (Str × Json)) : List (Str × Json) :=
  fields.foldl (fun entries field => Dict.assign field.1 field.2 entries) []

namespace Json

section Reading

variable (join : List CodeUnit → Str)

mutual

/-- `scan_once`; every call takes one unit of fuel, and at least one
character. -/
def scanValue : Nat → Str → Option (Json × Str)
  | 0, _ => none
  | _ + 1, [] => none
  | fuel + 1, c :: rest =>
      if c = 0x22 then do
        let (units, rest) ← scanUnits rest
        some (.string (join units), rest)
      else if c = 0x5B then
        match skipSpace rest with
        | 0x5D :: rest => some (.array [], rest)
        | rest => do
            let (item, rest) ← scanValue fuel rest
            let (items, rest) ← scanItems fuel (skipSpace rest)
            some (.array (item :: items), rest)
      else if c = 0x7B then
        match skipSpace rest with
        | 0x7D :: rest => some (.object [], rest)
        | rest => do
            let (field, rest) ← scanField fuel rest
            let (fields, rest) ← scanFields fuel (skipSpace rest)
            some (.object (dictFields (field :: fields)), rest)
      else if (str "null").isPrefixOf (c :: rest) then some (.null, rest.drop 3)
      else if (str "true").isPrefixOf (c :: rest) then some (.bool true, rest.drop 3)
      else if (str "false").isPrefixOf (c :: rest) then some (.bool false, rest.drop 4)
      else do
        let (value, rest) ← scanInt (c :: rest)
        some (.int value, rest)

/-- The loop of `JSONArray` behind an item. -/
def scanItems : Nat → Str → Option (List Json × Str)
  | 0, _ => none
  | _ + 1, [] => none
  | fuel + 1, c :: rest =>
      if c = 0x5D then some ([], rest)
      else if c = 0x2C then do
        let (item, rest) ← scanValue fuel (skipSpace rest)
        let (items, rest) ← scanItems fuel (skipSpace rest)
        some (item :: items, rest)
      else none

/-- A key and its value. -/
def scanField : Nat → Str → Option ((Str × Json) × Str)
  | 0, _ => none
  | _ + 1, [] => none
  | fuel + 1, c :: rest =>
      if c = 0x22 then do
        let (units, rest) ← scanUnits rest
        match skipSpace rest with
        | 0x3A :: rest => do
            let (value, rest) ← scanValue fuel (skipSpace rest)
            some ((join units, value), rest)
        | _ => none
      else none

/-- The loop of `JSONObject` behind a field. -/
def scanFields : Nat → Str → Option (List (Str × Json) × Str)
  | 0, _ => none
  | _ + 1, [] => none
  | fuel + 1, c :: rest =>
      if c = 0x7D then some ([], rest)
      else if c = 0x2C then do
        let (field, rest) ← scanField fuel (skipSpace rest)
        let (fields, rest) ← scanFields fuel (skipSpace rest)
        some (field :: fields, rest)
      else none

end

/-- The value that a whole text holds. -/
def read (text : Str) : Option Json := do
  let (value, rest) ← scanValue join (text.length + 1) (skipSpace text)
  if skipSpace rest = [] then some value else none

end Reading

/-- `json.loads`; `none` is a `JSONDecodeError`. -/
def loads (text : Str) : Option Json := read joinPairs text

end Json

end NamiSync
