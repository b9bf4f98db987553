import Outpost.Json
import Outpost.Text

/-!
# Reading JSON

A strict reader of JSON text: the grammar of the standard and nothing beside it, with blanks (space,
tab, line feed, carriage return) around every token. Of two fields with one key the later gives the
value. Half of a surrogate pair that stands alone makes a string a loose one; in a key it reads as a
replacement character.

## Contents

* `Json.stringBody`, `Json.numeral`: the two kinds of leaf that have an inner structure.
* `Json.value`, with a bound on the depth of the reading; `Json.parse?`, whose bound suffices.
-/

namespace Outpost

namespace Json

/-- A blank between two tokens. -/
def isSpace (c : Char) : Bool := c = ' ' || c = '\t' || c = '\n' || c = '\r'

/-- What follows the blanks, as `isSpace` has them. -/
def skipSpace (s : List Char) : List Char := s.dropWhile isSpace

/-! ## Strings -/

/-- The value of a hexadecimal digit. -/
def hexValue? (c : Char) : Option Nat :=
  if c.isDigit then some (c.toNat - 0x30)
  else if 'a' ≤ c && c ≤ 'f' then some (c.toNat - 0x61 + 10)
  else if 'A' ≤ c && c ≤ 'F' then some (c.toNat - 0x41 + 10)
  else none

/-- The value of four hexadecimal digits, each by `hexValue?`. -/
def hexFour? (a b c d : Char) : Option Nat := do
  let a ← hexValue? a
  let b ← hexValue? b
  let c ← hexValue? c
  let d ← hexValue? d
  return ((a * 16 + b) * 16 + c) * 16 + d

/-- What an escape of one letter stands for, as `\n` does. -/
def unescape? (c : Char) : Option Char :=
  if c = '"' || c = '\\' || c = '/' then some c
  else if c = 'b' then some '\x08'
  else if c = 'f' then some '\x0c'
  else if c = 'n' then some '\n'
  else if c = 'r' then some '\r'
  else if c = 't' then some '\t'
  else none

/-- The first half of a surrogate pair. -/
def isHighHalf (n : Nat) : Bool := 0xd800 ≤ n && n ≤ 0xdbff

/-- The second half of a surrogate pair. -/
def isLowHalf (n : Nat) : Bool := 0xdc00 ≤ n && n ≤ 0xdfff

/-- A `piece` in front of what was read of a string. -/
def prepend (piece : Text.Piece) :
    Option (Text.Loose × List Char) → Option (Text.Loose × List Char)
  | some (body, rest) => some (piece :: body, rest)
  | none => none

/-- The pieces of a string up to its closing quote, and what follows that. Two escapes `\u` that
make up a pair are one character, and a half that stands alone is kept as `Piece.half`. -/
def stringBody : List Char → Option (Text.Loose × List Char)
  | [] => none
  | '"' :: rest => some ([], rest)
  | '\\' :: 'u' :: a :: b :: c :: d :: rest =>
    match hexFour? a b c d with
    | none => none
    | some n =>
      if isHighHalf n then
        match rest with
        | '\\' :: 'u' :: e :: f :: g :: h :: more =>
          match hexFour? e f g h with
          | none => none
          | some m =>
            if isLowHalf m then
              prepend (.char (Char.ofNat (0x10000 + (n - 0xd800) * 0x400 + (m - 0xdc00))))
                (stringBody more)
            else
              prepend (.half n.toUInt16) (stringBody ('\\' :: 'u' :: e :: f :: g :: h :: more))
        | other => prepend (.half n.toUInt16) (stringBody other)
      else if isLowHalf n then prepend (.half n.toUInt16) (stringBody rest)
      else prepend (.char (Char.ofNat n)) (stringBody rest)
  | '\\' :: c :: rest =>
    match unescape? c with
    | none => none
    | some plain => prepend (.char plain) (stringBody rest)
  | c :: rest => if c.toNat < 0x20 || c = '\\' then none else prepend (.char c) (stringBody rest)

/-! ## Numbers -/

/-- The exponent part of a number, zero where there is none, and what follows it. -/
def exponentPart (s : List Char) : Option (Int × List Char) :=
  match s with
  | 'e' :: rest | 'E' :: rest =>
    let (negative, rest) :=
      match rest with
      | '-' :: more => (true, more)
      | '+' :: more => (false, more)
      | other => (false, other)
    match rest.span Char.isDigit with
    | ([], _) => none
    | (digits, rest) =>
      let magnitude : Int := Text.digitsValue digits
      some (if negative then -magnitude else magnitude, rest)
  | other => some (0, other)

/-- The digits after the decimal point, none where there is no point, and what follows them. -/
def fractionPart (s : List Char) : Option (List Char × List Char) :=
  match s with
  | '.' :: rest =>
    match rest.span Char.isDigit with
    | ([], _) => none
    | split => some split
  | other => some ([], other)

/-- A number without its sign, which is told by `negative`, and what follows it. -/
def magnitude (negative : Bool) (s : List Char) : Option (Json × List Char) := do
  let (whole, rest) := s.span Char.isDigit
  if whole = [] || (whole.length ≠ 1 && whole.head? = some '0') then none
  let (fraction, rest) ← fractionPart rest
  let (exponent, rest) ← exponentPart rest
  let digits := Text.digitsValue (whole ++ fraction)
  return (.number (.ofDecimal negative digits (exponent - fraction.length)), rest)

/-- A number, by `magnitude` behind its sign, and what follows it. -/
def numeral (s : List Char) : Option (Json × List Char) :=
  match s with
  | '-' :: rest => magnitude true rest
  | other => magnitude false other

/-! ## Values -/

mutual

/-- A value behind any blanks, and what follows it; the first argument bounds the depth of
`arrayBody` and `objectBody`. -/
def value : Nat → List Char → Option (Json × List Char)
  | 0, _ => none
  | fuel + 1, s =>
    match skipSpace s with
    | 'n' :: 'u' :: 'l' :: 'l' :: rest => some (.null, rest)
    | 't' :: 'r' :: 'u' :: 'e' :: rest => some (.bool true, rest)
    | 'f' :: 'a' :: 'l' :: 's' :: 'e' :: rest => some (.bool false, rest)
    | '"' :: rest => (stringBody rest).map fun (body, rest) => (ofLoose body, rest)
    | '[' :: rest =>
      match skipSpace rest with
      | ']' :: rest => some (.array [], rest)
      | other => (arrayBody fuel other).map fun (found, rest) => (.array found, rest)
    | '\x7b' :: rest =>
      match skipSpace rest with
      | '\x7d' :: rest => some (.object [], rest)
      | other => (objectBody fuel other).map fun (found, rest) => (mkObject found, rest)
    | other => numeral other

/-- The items of a non-empty array, each a `value`, up to and with its closing bracket. -/
def arrayBody : Nat → List Char → Option (List Json × List Char)
  | 0, _ => none
  | fuel + 1, s =>
    match value fuel s with
    | none => none
    | some (first, rest) =>
      match skipSpace rest with
      | ']' :: rest => some ([first], rest)
      | ',' :: rest => (arrayBody fuel rest).map fun (more, rest) => (first :: more, rest)
      | _ => none

/-- The fields of a non-empty object, each a `stringBody` and a `value`, up to and with its closing
brace. -/
def objectBody : Nat → List Char → Option (List (String × Json) × List Char)
  | 0, _ => none
  | fuel + 1, s =>
    match skipSpace s with
    | '"' :: rest =>
      match stringBody rest with
      | none => none
      | some (key, rest) =>
        match skipSpace rest with
        | ':' :: rest =>
          match value fuel rest with
          | none => none
          | some (first, rest) =>
            let field := (key.shown, first)
            match skipSpace rest with
            | '\x7d' :: rest => some ([field], rest)
            | ',' :: rest => (objectBody fuel rest).map fun (more, rest) => (field :: more, rest)
            | _ => none
        | _ => none
    | _ => none

end

/-- The value that a list of characters spells, blanks around it allowed. Every second step of
`value` takes a character, so twice the length bounds its depth. -/
def parseChars? (s : List Char) : Option Json :=
  match value (2 * s.length + 2) s with
  | some (found, rest) => if (skipSpace rest).isEmpty then some found else none
  | none => none

/-- The value that a text spells, by `parseChars?`. -/
def parse? (s : String) : Option Json := parseChars? s.toList

end Json

end Outpost
