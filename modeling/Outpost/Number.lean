/-!
# Numbers

The numbers that configuration values, log entries and waiting times carry: the values of IEEE
binary64 without the one that is not a number. A finite number is an exact dyadic rational, so
order, integrality and truncation are those of the rationals, and no rounding happens anywhere but
in `Number.ofDecimal`, which reads decimal notation.

## Contents

* `Number` with its order, its integer parts, its sums and its remainders.
* `Number.gap`, `Number.Advances`: the way from one number to a greater one, and steps on it.
* `Number.ofRatio`, `Number.ofDecimal`: the nearest number to a quotient, a tie going to the even
  significand, and to a written decimal.
-/

namespace Outpost

/-- A binary64 value: an exact `finite` value, or an `infinite` one. Zero has no sign, since nothing
that is computed or written from a number tells two zeros apart. -/
inductive Number where
  /-- A finite `value`, exactly. -/
  | finite (value : Dyadic)
  /-- Beyond the greatest finite value, on the negative side if `negative`. -/
  | infinite (negative : Bool)
deriving DecidableEq

namespace Number

/-- The number that the integer `n` stands for. -/
def ofInt (n : Int) : Number := .finite (Dyadic.ofInt n)

/-- The number that the natural number `n` stands for. -/
def ofNat (n : Nat) : Number := .ofInt n

instance : Inhabited Number := ⟨.ofInt 0⟩

/-! ## Order -/

/-- The strict order of values, with the `infinite` ones at the two ends. -/
def lt : Number → Number → Bool
  | .finite x, .finite y => decide (x < y)
  | .finite _, .infinite negative => !negative
  | .infinite negative, .finite _ => negative
  | .infinite a, .infinite b => a && !b

/-- The order of values, which is the converse of `lt` being false. -/
def le (x y : Number) : Bool := !lt y x

/-! ## Integer parts -/

/-- A dyadic rational without its fraction, hence rounded toward zero. -/
def truncateDyadic (x : Dyadic) : Int :=
  let r := x.toRat
  r.num.tdiv r.den

/-- The integer that a number is, if it is one. -/
def toInt? : Number → Option Int
  | .finite x => if x.toRat.den = 1 then some x.toRat.num else none
  | .infinite _ => none

/-- A number without its fraction, by `truncateDyadic`; an `infinite` one has no integer part and
gives zero. -/
def truncate : Number → Int
  | .finite x => truncateDyadic x
  | .infinite _ => 0

/-- The natural number that a number is, if it is one, by `toInt?`. -/
def toNat? (x : Number) : Option Nat :=
  match x.toInt? with
  | some (.ofNat n) => some n
  | _ => none

/-- Whether a number is an integer, by `toInt?`; an `infinite` one is none. -/
def isInteger (x : Number) : Bool := x.toInt?.isSome

/-! ## Reading decimals -/

/-- The quotient `num / den`, rounded to the nearest integer, a tie going to the even one. -/
def roundDiv (num den : Nat) : Nat :=
  let quotient := num / den
  let remainder := num % den
  if 2 * remainder < den then quotient
  else if den < 2 * remainder then quotient + 1
  else quotient + quotient % 2

/-- The exponent of the last place of a significand: the significand of `num / den` has 53 binary
digits there, or fewer at the least exponent, `-1074`. -/
def lastPlace (num den : Nat) : Int :=
  let estimate : Int := (num.log2 : Int) - (den.log2 : Int) - 52
  let exponent :=
    if num * Nat.pow 2 (-estimate).toNat < Nat.pow 2 52 * (den * Nat.pow 2 estimate.toNat) then
      estimate - 1
    else estimate
  max exponent (-1074)

/-- The number nearest to `num / den`, a tie going to the even significand. A quotient that rounds
to `2 ^ 1024` or beyond is infinite. -/
def ofRatio (negative : Bool) (num den : Nat) : Number :=
  let exponent := lastPlace num den
  let significand :=
    roundDiv (num * Nat.pow 2 (-exponent).toNat) (den * Nat.pow 2 exponent.toNat)
  if Nat.pow 2 1024 ≤ significand * Nat.pow 2 exponent.toNat then .infinite negative
  else
    let magnitude := Dyadic.ofIntWithPrec significand (-exponent)
    .finite (if negative then -magnitude else magnitude)

/-- How many decimal digits `n` has; zero has none. -/
def decimalLength (n : Nat) : Nat :=
  if n = 0 then 0 else (Nat.toDigits 10 n).length

/-- The number nearest to `digits * 10 ^ exponent`. Values past `10 ^ 400` are infinite and values
below `10 ^ -400` are zero, so no power of ten larger than that is ever formed. -/
def ofDecimal (negative : Bool) (digits : Nat) (exponent : Int) : Number :=
  let magnitude := exponent + decimalLength digits
  if digits = 0 || magnitude < -400 then .ofInt 0
  else if 400 < magnitude then .infinite negative
  else ofRatio negative (digits * Nat.pow 10 exponent.toNat) (Nat.pow 10 (-exponent).toNat)

/-! ## Sums -/

/-- A sum, rounded by `ofRatio`. An `infinite` summand decides it, the first one if both are. -/
def add : Number → Number → Number
  | .finite x, .finite y =>
    let sum := (x + y).toRat
    ofRatio (decide (sum.num < 0)) sum.num.natAbs sum.den
  | .finite _, y => y
  | x, _ => x

/-- What is left of a number after whole multiples of `n`, on the same side of zero. Of an infinity
nothing is. -/
def rem (x : Number) (n : Nat) : Number :=
  match x with
  | .finite value =>
    let r := value.toRat
    .finite (value - Dyadic.ofInt (n * r.num.tdiv (n * r.den)))
  | .infinite _ => .ofInt 0

/-- The number on the other side of zero. -/
def neg : Number → Number
  | .finite x => .finite (-x)
  | .infinite negative => .infinite !negative

/-! ## Distances -/

/-- How many units it takes from one value to reach another one, the last unit whole or begun: none
if the other one is not greater, or one of them is `infinite`. -/
def gap : Number → Number → Nat
  | .finite x, .finite y => (y - x).toRat.ceil.toNat
  | _, _ => 0

/-- Whether a value lies a unit or more above another one, as far as both are `finite`. -/
def Advances : Number → Number → Prop
  | .finite x, .finite y => x + 1 ≤ y
  | _, _ => True

instance (x y : Number) : Decidable (Advances x y) := by
  cases x <;> cases y <;> unfold Advances <;> infer_instance

/-- A value one unit above a `finite` one, without rounding. -/
def next : Number → Number
  | .finite x => .finite (x + 1)
  | x => x

theorem advances_next (x : Number) : x.Advances x.next := by
  cases x with
  | finite x => exact Dyadic.le_refl _
  | infinite negative => trivial

/-- What has advanced is nearer to its `goal`. -/
theorem gap_lt_gap {x y goal : Number} (advances : x.Advances y) (apart : x.gap goal ≠ 0) :
    y.gap goal < x.gap goal := by
  match x, y, goal with
  | .finite x, .finite y, .finite z =>
    simp only [gap] at *
    have one : (1 : Dyadic).toRat = 1 := by decide
    have step : (z - y).toRat ≤ (z - x).toRat + ((-1 : Int) : Rat) := by
      have later : (x + 1).toRat ≤ y.toRat := Dyadic.toRat_le_toRat_iff.2 advances
      rw [Dyadic.toRat_add, one] at later
      rw [Dyadic.toRat_sub, Dyadic.toRat_sub]
      grind
    have near : (((z - y).toRat.ceil : Int) : Rat) < (((z - x).toRat.ceil : Int) : Rat) := by
      have reached := @Rat.le_ceil ((z - x).toRat + ((-1 : Int) : Rat))
      have close := @Rat.ceil_lt (z - y).toRat
      rw [Rat.ceil_add_intCast, Rat.intCast_add] at reached
      grind
    have := Rat.intCast_lt_intCast.1 near
    omega
  | .finite _, .infinite _, .finite _ => exact Nat.pos_of_ne_zero apart
  | .finite _, _, .infinite _ => exact absurd rfl apart
  | .infinite _, _, _ => exact absurd rfl apart

end Number

end Outpost
