import Outpost.Json.Parser
import Outpost.Json.Printer

/-!
# What JSON values stand for

Fields of a known kind, read from values that may be anything: a field that is missing or of another
kind counts as not given.

Where a number is asked for, other values may stand in for one: a truth value, nothing at all, and
a text that spells a number between blanks, in decimal notation or, without a sign, in one of the
bases two, eight and sixteen. An array counts as the text that it shows.

Bytes that encode a text stand as that text, and all other bytes as hexadecimal digits in an object
of one field.

## Contents

* `Json.given?`, `Json.text?`, `Json.number?`, `Json.flag`, `Json.items?`, `Json.members`,
  `Json.place?`: fields of a known kind.
* `Json.spelled?`: the number that a text spells; `Json.numeric?`: the number that a value counts
  as.
* `Json.ofBytes`, `Json.toBytes`: bytes as values.
-/

namespace Outpost

namespace Json

/-! ## Fields -/

/-- A field that is there and not `null`. -/
def given? (j : Json) (key : String) : Option Json :=
  match j.field? key with
  | some .null => none
  | found => found

/-- The text in the field `key`. -/
def text? (j : Json) (key : String) : Option String :=
  match j.field? key with
  | some (.string s) => some s
  | _ => none

/-- The text in the field `key`, empty if there is none. -/
def text (j : Json) (key : String) : String := (j.text? key).getD ""

/-- The number in the field `key`. -/
def number? (j : Json) (key : String) : Option Number :=
  match j.field? key with
  | some (.number n) => some n
  | _ => none

/-- Whether the field `key` is there and says something, so that it is not `isVoid`. -/
def flag (j : Json) (key : String) : Bool := (j.field? key).any fun value => !value.isVoid

/-- The items of the array in the field `key`. -/
def items? (j : Json) (key : String) : Option (List Json) :=
  match j.field? key with
  | some (.array items) => some items
  | _ => none

/-- The items of the array in the field `key`, none if there is no array. -/
def items (j : Json) (key : String) : List Json := (j.items? key).getD []

/-- The fields of an object; other values have none. -/
def members : Json → List (String × Json)
  | .object fields => fields
  | _ => []

/-- The place in a list that a value counts to, by `index?`: values count as the texts that
`display` has for them. -/
def place? (value : Json) : Option Nat := index? value.display

/-! ## Values that count as numbers -/

/-- The value of digits in a `base` of at most sixteen; there must be one at least. -/
def digitsIn? (base : Nat) : List Char → Option Nat
  | [] => none
  | digits => digits.foldlM (fun n c =>
      (hexValue? c).bind fun digit => if digit < base then some (n * base + digit) else none) 0

/-- The number that a decimal without its sign spells. Either side of the point may be empty, but
not both. -/
def decimal? (negative : Bool) (s : List Char) : Option Number := do
  let (whole, rest) := s.span Char.isDigit
  let (fraction, rest) :=
    match rest with
    | '.' :: more => more.span Char.isDigit
    | other => ([], other)
  if whole = [] && fraction = [] then none
  let (exponent, rest) ← exponentPart rest
  if rest ≠ [] then none
  return .ofDecimal negative (Text.digitsValue (whole ++ fraction)) (exponent - fraction.length)

/-- The number that a text without its sign spells: `Infinity`, or a `decimal?`. -/
def unsigned? (negative : Bool) (s : List Char) : Option Number :=
  if s = "Infinity".toList then some (.infinite negative) else decimal? negative s

/-- The number that characters spell without blanks around them: digits in a base of their own, by
`digitsIn?`, or an `unsigned?` number behind its sign; where there are no characters, zero. -/
def trimmed? (s : List Char) : Option Number :=
  match s with
  | [] => some (.ofInt 0)
  | '0' :: 'x' :: digits | '0' :: 'X' :: digits => (digitsIn? 16 digits).map (.ofDecimal false · 0)
  | '0' :: 'o' :: digits | '0' :: 'O' :: digits => (digitsIn? 8 digits).map (.ofDecimal false · 0)
  | '0' :: 'b' :: digits | '0' :: 'B' :: digits => (digitsIn? 2 digits).map (.ofDecimal false · 0)
  | '-' :: rest => unsigned? true rest
  | '+' :: rest => unsigned? false rest
  | rest => unsigned? false rest

/-- The number that a text spells between blanks, by `trimmed?`. -/
def spelled? (text : String) : Option Number := trimmed? (Text.trimChars text.toList)

/-- The number that a value counts as, if it counts as one. A text counts as what it has `spelled?`,
and what is neither a number nor a text as the text that `display` has for it. -/
def numeric? : Json → Option Number
  | .null | .bool false => some (.ofInt 0)
  | .bool true => some (.ofInt 1)
  | .number n => some n
  | .string text => spelled? text
  | other => spelled? other.display

/-! ## Bytes -/

/-- The bytes that pairs of hexadecimal digits spell, up to the first pair that is none, by
`hexValue?`. -/
def bytesOfDigits : List Char → Bytes
  | high :: low :: rest =>
    match hexValue? high, hexValue? low with
    | some high, some low => UInt8.ofNat (16 * high + low) :: bytesOfDigits rest
    | _, _ => []
  | _ => []

/-- Bytes as pairs of hexadecimal digits. -/
def digitsOfBytes (bytes : Bytes) : List Char :=
  bytes.flatMap fun b => [hexDigit (b.toNat / 16), hexDigit (b.toNat % 16)]

/-- The bytes that a value stands for: a text for its `encodeUtf8`, and an object for the digits in
its field `hex`. -/
def toBytes : Json → Bytes
  | .string s => Text.encodeUtf8 s
  | other => bytesOfDigits (other.text "hex").toList

/-- The value that stands for bytes: the text that they encode, if they are `isUtf8`, and their
digits otherwise. -/
def ofBytes (bytes : Bytes) : Json :=
  if Text.isUtf8 bytes then .string (Text.decodeUtf8 bytes)
  else .object [("hex", .string (String.ofList (digitsOfBytes bytes)))]

end Json

end Outpost
