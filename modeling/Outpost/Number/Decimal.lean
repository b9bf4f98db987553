import Outpost.Number

/-!
# Decimal text of numbers

A number is written with the fewest significant digits that read back as the same number, the
nearest of those to its value. The digits stand in positional notation as long as the decimal point
falls at most 21 places after the first digit and at most 6 places before it; other numbers are
written with a signed exponent of ten.

## Contents

* `Number.shortest`: the digits and the exponent of a positive value.
* `Number.layout`: where the point and the exponent go.
* `Number.text`: the whole text.
-/

namespace Outpost

namespace Number

/-- A decimal `digits * 10 ^ exponent`. -/
structure Decimal where
  digits : Nat
  exponent : Int
deriving DecidableEq

/-- The place of the leading decimal digit of `num / den`: the power of ten that it counts. -/
def leadingPlace (num den : Nat) : Int :=
  if den ≤ num then (decimalLength (num / den) : Int) - 1
  else -(decimalLength ((den - 1) / num) : Int)

/-- Whether a positive decimal reads as `x`. -/
def Decimal.readsAs (d : Decimal) (x : Number) : Bool :=
  ofDecimal false d.digits d.exponent == x

/-- The two neighbours of `num / den` among the decimals with last place `10 ^ exponent`, the nearer
one first, and of two equally near ones the even one first. -/
def neighbours (num den : Nat) (exponent : Int) : List Decimal :=
  let scaledNum := num * Nat.pow 10 (-exponent).toNat
  let scaledDen := den * Nat.pow 10 exponent.toNat
  let below := scaledNum / scaledDen
  let nearest := roundDiv scaledNum scaledDen
  if nearest = below then [⟨below, exponent⟩, ⟨below + 1, exponent⟩]
  else [⟨below + 1, exponent⟩, ⟨below, exponent⟩]

/-- The exact decimal value of `num / 2 ^ places`. -/
def exactDecimal (num places : Nat) : Decimal := ⟨num * Nat.pow 5 places, -(places : Int)⟩

/-- A decimal without the zeros at its end, of which it has at most `fuel`. -/
def Decimal.dropZeros : Nat → Decimal → Decimal
  | 0, d => d
  | fuel + 1, d =>
    if d.digits % 10 = 0 && d.digits != 0 then dropZeros fuel ⟨d.digits / 10, d.exponent + 1⟩ else d

/-- The shortest decimal that reads as the positive value `num / den`, and of those with the fewest
digits the nearest. Seventeen digits always suffice for a binary64 value; the exact decimal stands
for any other dyadic rational. -/
def shortest (value : Dyadic) : Decimal :=
  let num := value.toRat.num.natAbs
  let den := value.toRat.den
  let place := leadingPlace num den
  let candidates := (List.range 17).flatMap fun (k : Nat) => neighbours num den (place - k)
  let reading := candidates.find? fun d => d.readsAs (.finite value)
  let found := reading.getD (exactDecimal num den.log2)
  found.dropZeros (decimalLength found.digits)

/-- Digits with a point after the first `point` of them, in positional notation where the point
falls near the digits, and with an exponent of ten elsewhere. -/
def layout (digits : List Char) (point : Int) : List Char :=
  let count : Int := digits.length
  if count ≤ point && point ≤ 21 then
    digits ++ List.replicate (point - count).toNat '0'
  else if 0 < point && point ≤ 21 then
    digits.take point.toNat ++ '.' :: digits.drop point.toNat
  else if -6 < point && point ≤ 0 then
    '0' :: '.' :: (List.replicate (-point).toNat '0' ++ digits)
  else
    let exponent := point - 1
    let tail := 'e' :: (if exponent < 0 then '-' else '+') :: Nat.toDigits 10 exponent.natAbs
    match digits with
    | [] => tail
    | [d] => d :: tail
    | d :: more => d :: '.' :: (more ++ tail)

/-- The text of a positive finite value: the `layout` of its `shortest` decimal. -/
def magnitudeText (value : Dyadic) : List Char :=
  let d := shortest value
  let digits := Nat.toDigits 10 d.digits
  layout digits (digits.length + d.exponent)

/-- The text of a number, by `magnitudeText` behind its sign. -/
def chars : Number → List Char
  | .infinite negative => (if negative then ['-'] else []) ++ "Infinity".toList
  | .finite x =>
    if x.toRat.num = 0 then ['0']
    else if x.toRat.num < 0 then '-' :: magnitudeText (-x)
    else magnitudeText x

/-- The text of a number, by `chars`. -/
def text (x : Number) : String := String.ofList x.chars

end Number

end Outpost
