import Outpost.Json

/-!
# Writing JSON

The compact text of a value: no blanks, object fields in their order, and in strings an escape for
the quote, the backslash, the control characters and halves of surrogate pairs only. An infinite
number is written `null`.

## Contents

* `Json.escape`, `Json.escapePiece`: one character or piece of a string.
* `Json.render`: a value.
-/

namespace Outpost

namespace Json

/-- The hexadecimal digit of a number below sixteen. -/
def hexDigit (n : Nat) : Char :=
  if n < 10 then Char.ofNat (0x30 + n) else Char.ofNat (0x61 + (n - 10))

/-- How a character stands in a string: as itself, or as an escape that `unescape?` or `hexFour?`
reads back. -/
def escape (c : Char) : List Char :=
  if c = '"' then ['\\', '"']
  else if c = '\\' then ['\\', '\\']
  else if c = '\x08' then ['\\', 'b']
  else if c = '\x0c' then ['\\', 'f']
  else if c = '\n' then ['\\', 'n']
  else if c = '\r' then ['\\', 'r']
  else if c = '\t' then ['\\', 't']
  else if c.toNat < 0x20 then
    ['\\', 'u', '0', '0', hexDigit (c.toNat / 16), hexDigit (c.toNat % 16)]
  else [c]

/-- How a piece of a `Loose` text stands in a string: a `half` as an escape of four digits. -/
def escapePiece : Text.Piece → List Char
  | .char c => escape c
  | .half unit =>
    let n := unit.toNat
    ['\\', 'u', hexDigit (n / 0x1000), hexDigit (n / 0x100 % 16), hexDigit (n / 0x10 % 16),
      hexDigit (n % 16)]

/-- A text in quotes, each character by `escape`. -/
def quoted (s : List Char) : List Char := '"' :: (s.flatMap escape ++ ['"'])

mutual

/-- The compact text of a value, which has no blanks between its tokens. An `infinite` number
becomes `null`. -/
def renderChars : Json → List Char
  | .null => "null".toList
  | .bool true => "true".toList
  | .bool false => "false".toList
  | .number (.infinite _) => "null".toList
  | .number n => n.chars
  | .string s => quoted s.toList
  | .loose text => '"' :: (text.flatMap escapePiece ++ ['"'])
  | .array items => '[' :: renderItems items
  | .object fields => '\x7b' :: renderFields fields

/-- The items of an array, each by `renderChars`, and its closing bracket. -/
def renderItems : List Json → List Char
  | [] => [']']
  | [item] => renderChars item ++ [']']
  | item :: rest => renderChars item ++ ',' :: renderItems rest

/-- The fields of an object, each a `quoted` key and a value by `renderChars`, and its closing
brace. -/
def renderFields : List (String × Json) → List Char
  | [] => ['\x7d']
  | [(key, value)] => quoted key.toList ++ ':' :: (renderChars value ++ ['\x7d'])
  | (key, value) :: rest =>
    quoted key.toList ++ ':' :: (renderChars value ++ ',' :: renderFields rest)

end

/-- The compact text of a value, by `renderChars`. -/
def render (value : Json) : String := String.ofList (renderChars value)

/-- A text as a JSON string, by `quoted`. -/
def quote (s : String) : String := String.ofList (quoted s.toList)

end Json

end Outpost
