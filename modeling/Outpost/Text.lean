/-!
# Texts

What is asked of texts and of the bytes that encode them: where they are blank, how they are split,
what bytes decode to, and how long a text is in UTF-16 units.

Trimming removes the ASCII blanks from tab to carriage return, the space separators of Unicode, the
two line separators and the byte order mark. A next-line character (U+0085), a zero-width space
(U+200B) and a Mongolian vowel separator (U+180E) are not among them.

Output of processes is kept as `Bytes` and shown as text. Decoding never fails: each maximal part of
the input that begins a well-formed sequence without completing it, and each byte that begins none,
becomes one `Text.replacement` character. A byte order mark is kept like any other character.

Some limits on shown text count UTF-16 units, of which a character past U+FFFF has two. A cut that
falls between the two leaves half a character, which is shown as a replacement character. Nothing
keeps the two units together: a string of JSON can spell one half of a pair without the other, and a
string that is taken apart into units falls into halves. A `Text.Loose` text has such halves beside
its characters. One that has none is a text, and a loose text that has some is equal to no text.

## Contents

* `Text.isBlank`, `Text.trimChars`, `Text.trim`; `Text.allBlank`: what trims to nothing.
* `Text.split`: the parts of a text between the occurrences of one character;
  `Text.digitsValue`: the number that a run of decimal digits spells.
* `Bytes`, `Text.encodeUtf8`, `Text.decodeUtf8`; `Text.isUtf8`: whether bytes are the encoding of a
  text.
* `Text.units`, `Text.takeUnits`; `Text.unitPieces`: a character taken apart.
* `Text.Piece`, `Text.Loose`, `Text.Loose.ofString`, `Text.Loose.shown`, `Text.Loose.whole?`.
* `Text.Given`, `Text.Given.shown`: a string as it is given.
-/

namespace Outpost

/-- A sequence of bytes. -/
abbrev Bytes := List UInt8

namespace Text

/-! ## White space -/

/-- Whether `trim` removes a character. -/
def isBlank (c : Char) : Bool :=
  let n := c.toNat
  (0x09 ≤ n && n ≤ 0x0d) || n = 0x20 || n = 0xa0 || n = 0x1680 || (0x2000 ≤ n && n ≤ 0x200a)
    || n = 0x2028 || n = 0x2029 || n = 0x202f || n = 0x205f || n = 0x3000 || n = 0xfeff

/-- A list of characters without those at its two ends that are `isBlank`. -/
def trimChars (s : List Char) : List Char :=
  ((s.dropWhile isBlank).reverse.dropWhile isBlank).reverse

/-- A text without the blanks at its two ends, by `trimChars`. -/
def trim (s : String) : String := String.ofList (trimChars s.toList)

/-- Whether `trimChars` leaves nothing of a list of characters. -/
def allBlank (s : List Char) : Bool := s.all isBlank

/-- The characters that end a line: line feed, carriage return and the two Unicode separators. -/
def isLineEnd (c : Char) : Bool :=
  c = '\n' || c = '\r' || c.toNat = 0x2028 || c.toNat = 0x2029

/-! ## Splitting -/

/-- Puts the character `c` in front of the first part, or starts a new first part if it is the
`mark`. -/
def splitStep (mark c : Char) (parts : List (List Char)) : List (List Char) :=
  if c = mark then [] :: parts
  else
    match parts with
    | [] => [[c]]
    | first :: rest => (c :: first) :: rest

/-- The parts between the occurrences of `mark`, one more than there are occurrences. -/
def split (mark : Char) (text : List Char) : List (List Char) :=
  text.foldr (splitStep mark) [[]]

/-- The number that a run of decimal `digits` spells. -/
def digitsValue (digits : List Char) : Nat :=
  digits.foldl (fun n c => 10 * n + (c.toNat - '0'.toNat)) 0

/-! ## UTF-8 -/

/-- The replacement character `U+FFFD`, which stands for bytes that are no text. -/
def replacement : Char := '\uFFFD'

/-- The UTF-8 encoding of a list of characters. -/
def encodeChars (s : List Char) : Bytes := s.flatMap String.utf8EncodeChar

/-- The UTF-8 encoding of a text, by `encodeChars`. -/
def encodeUtf8 (s : String) : Bytes := encodeChars s.toList

/-- Whether a byte continues a sequence, which is `10` in its two highest bits. -/
def continues (b : UInt8) : Bool := 0x80 ≤ b && b ≤ 0xbf

/-- The six bits that a byte holds if it `continues` a sequence. -/
def payload (b : UInt8) : Nat := b.toNat - 0x80

/-- Whether the second byte of a sequence of three fits the first: no overlong form and no
surrogate. -/
def fitsThree (first second : UInt8) : Bool :=
  if first = 0xe0 then 0xa0 ≤ second && second ≤ 0xbf
  else if first = 0xed then 0x80 ≤ second && second ≤ 0x9f
  else continues second

/-- Whether the second byte of a sequence of four fits the first: no overlong form and nothing past
the last code point. -/
def fitsFour (first second : UInt8) : Bool :=
  if first = 0xf0 then 0x90 ≤ second && second ≤ 0xbf
  else if first = 0xf4 then 0x80 ≤ second && second ≤ 0x8f
  else continues second

/-- The characters that bytes decode to. A sequence that breaks off becomes one `replacement` as far
as it was well formed, and decoding goes on with the byte that broke it. -/
def decodeBytes : Bytes → List Char
  | [] => []
  | a :: rest =>
    if a < 0x80 then Char.ofNat a.toNat :: decodeBytes rest
    else if 0xc2 ≤ a && a ≤ 0xdf then
      match rest with
      | [] => [replacement]
      | b :: more =>
        if continues b then Char.ofNat ((a.toNat - 0xc0) * 0x40 + payload b) :: decodeBytes more
        else replacement :: decodeBytes (b :: more)
    else if 0xe0 ≤ a && a ≤ 0xef then
      match rest with
      | [] => [replacement]
      | b :: more =>
        if fitsThree a b then
          match more with
          | [] => [replacement]
          | c :: last =>
            if continues c then
              Char.ofNat ((a.toNat - 0xe0) * 0x1000 + payload b * 0x40 + payload c)
                :: decodeBytes last
            else replacement :: decodeBytes (c :: last)
        else replacement :: decodeBytes (b :: more)
    else if 0xf0 ≤ a && a ≤ 0xf4 then
      match rest with
      | [] => [replacement]
      | b :: more =>
        if fitsFour a b then
          match more with
          | [] => [replacement]
          | c :: last =>
            if continues c then
              match last with
              | [] => [replacement]
              | d :: tail =>
                if continues d then
                  Char.ofNat ((a.toNat - 0xf0) * 0x40000 + payload b * 0x1000 + payload c * 0x40
                    + payload d) :: decodeBytes tail
                else replacement :: decodeBytes (d :: tail)
            else replacement :: decodeBytes (c :: last)
        else replacement :: decodeBytes (b :: more)
    else replacement :: decodeBytes rest

/-- The text that bytes decode to, by `decodeBytes`. -/
def decodeUtf8 (bytes : Bytes) : String := String.ofList (decodeBytes bytes)

/-- Whether bytes are the `encodeChars` of some text, which is then what they decode to. -/
def isUtf8 (bytes : Bytes) : Bool := encodeChars (decodeBytes bytes) == bytes

/-! ## Lengths in UTF-16 units -/

/-- How many UTF-16 units a character takes: two from `0x10000` on, and one below. -/
def units (c : Char) : Nat := if c.toNat < 0x10000 then 1 else 2

/-- The characters that fit into the first `limit` UTF-16 units. -/
def takeUnits : Nat → List Char → List Char
  | _, [] => []
  | 0, _ => []
  | limit + 1, c :: rest =>
    if units c = 1 then c :: takeUnits limit rest
    else
      match limit with
      | 0 => [replacement]
      | limit + 1 => c :: takeUnits limit rest

/-! ## Loose texts -/

/-- A piece of a `Loose` text. -/
inductive Piece where
  | char (c : Char)
  /-- Half of a pair that stands alone, a `unit` that is no character. -/
  | half (unit : UInt16)
deriving DecidableEq

/-- A piece as a character: a `half` shows as the `replacement` character. -/
def Piece.shown : Piece → Char
  | .char c => c
  | .half _ => replacement

/-- Whether a piece is a `char`. -/
def Piece.isChar : Piece → Bool
  | .char _ => true
  | .half _ => false

/-- A text in which halves of pairs may stand alone, as a list of `Piece`. -/
abbrev Loose := List Piece

/-- A text as a `Loose` one. -/
def Loose.ofString (text : String) : Loose := text.toList.map Piece.char

/-- A `Loose` text as it shows, piece by piece. -/
def Loose.shown (text : Loose) : String := String.ofList (text.map Piece.shown)

/-- The text that a `Loose` text is, if it has no `half`. -/
def Loose.whole? (text : Loose) : Option String :=
  if text.all Piece.isChar then some text.shown else none

@[simp]
theorem Loose.shown_ofString (text : String) : (Loose.ofString text).shown = text := by
  have shows : Piece.shown ∘ Piece.char = id := rfl
  simp [Loose.shown, Loose.ofString, shows]

@[simp]
theorem Loose.whole?_ofString (text : String) : (Loose.ofString text).whole? = some text := by
  have characters : (Loose.ofString text).all Piece.isChar = true := by
    simp [Loose.ofString, Piece.isChar]
  rw [Loose.whole?, if_pos characters, Loose.shown_ofString]

/-- A string as it is given: a text, or one in which halves of pairs stand alone. Where it is shown
or written somewhere, such a half becomes a `replacement` character. -/
inductive Given where
  | whole (text : String)
  | loose (text : Loose)
deriving DecidableEq

instance : Coe String Given := ⟨Given.whole⟩

/-- A `Given` string as it shows. -/
def Given.shown : Given → String
  | .whole text => text
  | .loose text => text.shown

@[simp]
theorem Given.shown_whole (text : String) : (Given.whole text).shown = text := rfl

/-- The pieces that a character falls into when it is taken apart into units: itself, or two of
`half`. -/
def unitPieces (c : Char) : Loose :=
  if units c = 1 then [.char c]
  else
    let offset := c.toNat - 0x10000
    [.half (0xd800 + offset / 0x400).toUInt16, .half (0xdc00 + offset % 0x400).toUInt16]

end Text

end Outpost
