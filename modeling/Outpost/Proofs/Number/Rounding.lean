import Mathlib.Algebra.Order.Field.Power
import Mathlib.Data.Int.Log
import Mathlib.Data.Rat.Floor
import Mathlib.Tactic.FieldSimp
import Mathlib.Tactic.Linarith
import Mathlib.Tactic.Positivity
import Outpost.Number

/-!
# Rounding

What `Number.ofRatio` makes of a quotient depends on the quotient alone, not on how it is written
(`ofRatio_congr`). So of a written decimal, zeros at the end count for nothing
(`ofDecimal_mul_pow_ten`). And a quotient that is a value of binary64 is not rounded at all
(`ofRatio_of_isBinary64`), so integers are added as they are (`add_ofInt`).

## Contents

* `Number.IsBinary64`: the finite values.
* `roundDiv_mul_left`, `roundDiv_mul_right_self`, `lastPlace_eq`: the parts of a rounding.
* `ofRatio_congr`, `ofRatio_of_isBinary64`, `ofRatio_true`.
* `isInteger_iff`, `lt_ofInt_iff`, `toNat_truncateDyadic`, `add_ofInt`, `gap_ofInt`: integers.
* `ofDecimal_mul_pow_ten`, `ofDecimal_true`.
* `ofDecimal_of_lt`, `le_ofDecimal_iff`: natural numbers that are read from their digits.
-/

namespace Outpost

namespace Number

/-- The finite values of binary64: a significand of 53 binary digits at most, and the exponent of
its last place. -/
def IsBinary64 (x : Dyadic) : Prop :=
  ∃ significand exponent : Int, significand.natAbs < 2 ^ 53 ∧ -1074 ≤ exponent ∧ exponent ≤ 971 ∧
    x = Dyadic.ofIntWithPrec significand (-exponent)

/-- Integers of 53 binary digits are `IsBinary64`. -/
theorem isBinary64_ofInt {n : Int} (h : n.natAbs < 2 ^ 53) : IsBinary64 (Dyadic.ofInt n) :=
  ⟨n, 0, h, by decide, by decide, rfl⟩

/-! ## Quotients -/

theorem roundDiv_mul_left {k : Nat} (hk : 0 < k) (num den : Nat) :
    roundDiv (k * num) (k * den) = roundDiv num den := by
  have hremainder : k * num % (k * den) = k * (num % den) := Nat.mul_mod_mul_left k num den
  have hbelow : 2 * (k * (num % den)) < k * den ↔ 2 * (num % den) < den := by
    rw [Nat.mul_left_comm, Nat.mul_lt_mul_left hk]
  have habove : k * den < 2 * (k * (num % den)) ↔ den < 2 * (num % den) := by
    rw [Nat.mul_left_comm, Nat.mul_lt_mul_left hk]
  simp only [roundDiv, hremainder, hbelow, habove, Nat.mul_div_mul_left num den hk]

/-- Equal quotients are rounded alike by `roundDiv`. -/
theorem roundDiv_congr {num den num' den' : Nat} (hden : 0 < den) (hden' : 0 < den')
    (h : num * den' = num' * den) : roundDiv num den = roundDiv num' den' := by
  rw [← roundDiv_mul_left hden' num den, ← roundDiv_mul_left hden num' den',
    Nat.mul_comm den' num, h, Nat.mul_comm num' den, Nat.mul_comm den' den]

theorem roundDiv_mul_right_self (n : Nat) {den : Nat} (hden : 0 < den) :
    roundDiv (n * den) den = n := by
  simp [roundDiv, hden]

/-- A quotient whose numerator `num` and denominator `den` are multiplied up to a place. -/
theorem scaled_eq (num den : Nat) (place : Int) :
    ((num * 2 ^ (-place).toNat : Nat) : Rat) / ((den * 2 ^ place.toNat : Nat) : Rat)
      = num / den / 2 ^ place := by
  obtain ⟨n, rfl | rfl⟩ := place.eq_nat_or_neg
  · have hzero : (-(n : Int)).toNat = 0 := by omega
    rw [hzero, Int.toNat_natCast, zpow_natCast, pow_zero, mul_one, Nat.cast_mul, Nat.cast_pow,
      Nat.cast_ofNat, div_div]
  · have hzero : (-(n : Int)).toNat = 0 := by omega
    rw [neg_neg, hzero, Int.toNat_natCast, zpow_neg, zpow_natCast, pow_zero, mul_one, Nat.cast_mul,
      Nat.cast_pow, Nat.cast_ofNat, div_inv_eq_mul, mul_div_right_comm]

theorem scaled_lt_iff (num : Nat) {den : Nat} (hden : 0 < den) (place : Int) (c : Nat) :
    num * 2 ^ (-place).toNat < c * (den * 2 ^ place.toNat) ↔ (num : Rat) / den < c * 2 ^ place := by
  have hscale : (0 : Rat) < 2 ^ place := zpow_pos (by decide) place
  have hpos : 0 < den * 2 ^ place.toNat := Nat.mul_pos hden (Nat.two_pow_pos _)
  rw [← div_lt_iff₀ hscale, ← scaled_eq, div_lt_iff₀ (Nat.cast_pos.2 hpos)]
  exact_mod_cast Iff.rfl

/-- The logarithm of a quotient lies near the difference of the logarithms. -/
theorem log_bounds {num den : Nat} (hnum : 0 < num) (hden : 0 < den) :
    (2 : Rat) ^ ((num.log2 : Int) - den.log2 - 1) ≤ (num : Rat) / den ∧
      (num : Rat) / den < 2 ^ ((num.log2 : Int) - den.log2 + 1) := by
  have hdenPos : (0 : Rat) < den := Nat.cast_pos.2 hden
  have hnumLow : (2 : Rat) ^ num.log2 ≤ num := by exact_mod_cast Nat.log2_self_le hnum.ne'
  have hnumHigh : (num : Rat) < 2 ^ (num.log2 + 1) := by exact_mod_cast Nat.lt_log2_self
  have hdenLow : (2 : Rat) ^ den.log2 ≤ den := by exact_mod_cast Nat.log2_self_le hden.ne'
  have hdenHigh : (den : Rat) < 2 ^ (den.log2 + 1) := by exact_mod_cast Nat.lt_log2_self
  have hlow : (2 : Rat) ^ ((num.log2 : Int) - den.log2 - 1) * 2 ^ (den.log2 + 1)
      = 2 ^ num.log2 := by
    rw [← zpow_natCast, ← zpow_natCast, ← zpow_add₀ two_ne_zero]
    congr 1
    push_cast
    omega
  have hhigh : (2 : Rat) ^ ((num.log2 : Int) - den.log2 + 1) * 2 ^ den.log2
      = 2 ^ (num.log2 + 1) := by
    rw [← zpow_natCast, ← zpow_natCast, ← zpow_add₀ two_ne_zero]
    congr 1
    push_cast
    omega
  constructor
  · rw [le_div_iff₀ hdenPos]
    calc (2 : Rat) ^ ((num.log2 : Int) - den.log2 - 1) * den
        ≤ 2 ^ ((num.log2 : Int) - den.log2 - 1) * 2 ^ (den.log2 + 1) := by gcongr
      _ = 2 ^ num.log2 := hlow
      _ ≤ num := hnumLow
  · rw [div_lt_iff₀ hdenPos]
    calc (num : Rat) < 2 ^ (num.log2 + 1) := hnumHigh
      _ = 2 ^ ((num.log2 : Int) - den.log2 + 1) * 2 ^ den.log2 := hhigh.symm
      _ ≤ 2 ^ ((num.log2 : Int) - den.log2 + 1) * den := by gcongr

/-- The `lastPlace` of a significand, from the logarithm of the quotient. -/
theorem lastPlace_eq {num den : Nat} (hnum : 0 < num) (hden : 0 < den) :
    lastPlace num den = max (Int.log 2 ((num : Rat) / den) - 52) (-1074) := by
  have hpos : (0 : Rat) < num / den := div_pos (Nat.cast_pos.2 hnum) (Nat.cast_pos.2 hden)
  have hbase : 1 < 2 := by decide
  obtain ⟨hlow, hhigh⟩ := log_bounds hnum hden
  simp only [lastPlace, Nat.pow_eq]
  generalize (num.log2 : Int) - den.log2 = shift at hlow hhigh ⊢
  have hestimate : num * 2 ^ (-(shift - 52)).toNat < 2 ^ 52 * (den * 2 ^ (shift - 52).toNat)
      ↔ (num : Rat) / den < 2 ^ shift := by
    have hplace : ((2 ^ 52 : Nat) : Rat) * 2 ^ (shift - 52) = 2 ^ shift := by
      rw [Nat.cast_pow, Nat.cast_ofNat, ← zpow_natCast, ← zpow_add₀ two_ne_zero]
      congr 1
      omega
    rw [scaled_lt_iff num hden, hplace]
  have hlog (e : Int) : (num : Rat) / den < 2 ^ e ↔ Int.log 2 ((num : Rat) / den) < e := by
    rw [← Int.lt_zpow_iff_log_lt hbase hpos, Nat.cast_ofNat]
  rw [← not_lt, hlog] at hlow
  rw [hlog] at hhigh hestimate
  simp only [hestimate]
  split <;> omega

/-- Equal quotients have the same `lastPlace`. -/
theorem lastPlace_congr {num den num' den' : Nat} (hnum : 0 < num) (hden : 0 < den)
    (hden' : 0 < den') (h : num * den' = num' * den) : lastPlace num den = lastPlace num' den' := by
  have hnum' : 0 < num' := Nat.pos_of_mul_pos_right (h ▸ Nat.mul_pos hnum hden')
  have hratio : (num : Rat) / den = num' / den' := by
    rw [div_eq_div_iff (Nat.cast_pos.2 hden).ne' (Nat.cast_pos.2 hden').ne']
    exact_mod_cast h
  rw [lastPlace_eq hnum hden, lastPlace_eq hnum' hden', hratio]

/-- Rounding by `ofRatio` depends on the quotient alone. -/
theorem ofRatio_congr (negative : Bool) {num den num' den' : Nat} (hnum : 0 < num) (hden : 0 < den)
    (hden' : 0 < den') (h : num * den' = num' * den) :
    ofRatio negative num den = ofRatio negative num' den' := by
  have hround (e : Int) : roundDiv (num * Nat.pow 2 (-e).toNat) (den * Nat.pow 2 e.toNat)
      = roundDiv (num' * Nat.pow 2 (-e).toNat) (den' * Nat.pow 2 e.toNat) := by
    refine roundDiv_congr (Nat.mul_pos hden (Nat.two_pow_pos _))
      (Nat.mul_pos hden' (Nat.two_pow_pos _)) ?_
    rw [Nat.mul_mul_mul_comm, h, Nat.mul_mul_mul_comm]
  simp only [ofRatio, lastPlace_congr hnum hden hden' h, hround]

/-- At its `lastPlace`, a value of binary64 is a natural number of 53 binary digits at most. -/
theorem exists_eq_mul_two_pow_lastPlace {num den : Nat} {x : Dyadic} (hnum : 0 < num)
    (hden : 0 < den) (hx : x.toRat = (num : Rat) / den) (h : IsBinary64 x) :
    ∃ n : Nat, n < 2 ^ 53 ∧ lastPlace num den ≤ 971 ∧
      (n : Rat) * 2 ^ lastPlace num den = (num : Rat) / den := by
  obtain ⟨significand, exponent, hsignificand, hexponentLow, hexponentHigh, rfl⟩ := h
  have hpos : (0 : Rat) < num / den := div_pos (Nat.cast_pos.2 hnum) (Nat.cast_pos.2 hden)
  rw [Dyadic.toRat_ofIntWithPrec_eq_mul_two_pow, neg_neg] at hx
  have hscale (e : Int) : (0 : Rat) < 2 ^ e := zpow_pos (by decide) e
  have hsign : 0 < significand := by
    rw [← hx] at hpos
    exact_mod_cast pos_of_mul_pos_left hpos (hscale exponent).le
  obtain ⟨m, rfl⟩ := Int.eq_ofNat_of_zero_le hsign.le
  rw [Int.cast_natCast] at hx
  -- the last place is not above that of the significand
  have hlog : Int.log 2 ((num : Rat) / den) < 53 + exponent := by
    rw [← Int.lt_zpow_iff_log_lt (by decide) hpos, ← hx, Nat.cast_ofNat, zpow_add₀ two_ne_zero]
    have hm : (m : Rat) < 2 ^ (53 : Int) := by exact_mod_cast hsignificand
    exact mul_lt_mul_of_pos_right hm (hscale exponent)
  rw [lastPlace_eq hnum hden]
  generalize hplace : max (Int.log 2 ((num : Rat) / den) - 52) (-1074) = place
  obtain ⟨k, hk⟩ := Int.eq_ofNat_of_zero_le (show 0 ≤ exponent - place by omega)
  have hvalue : ((m * 2 ^ k : Nat) : Rat) * 2 ^ place = num / den := by
    have hexponent : exponent = (k : Int) + place := by omega
    rw [← hx, hexponent, zpow_add₀ two_ne_zero, zpow_natCast, ← mul_assoc]
    push_cast
    rfl
  refine ⟨m * 2 ^ k, ?_, by omega, hvalue⟩
  have hbelow : (num : Rat) / den < 2 ^ (53 : Int) * 2 ^ place := by
    have hsucc := Int.lt_zpow_succ_log_self (b := 2) (by decide) ((num : Rat) / den)
    rw [Nat.cast_ofNat] at hsucc
    refine hsucc.trans_le ?_
    rw [← zpow_add₀ two_ne_zero]
    exact zpow_le_zpow_right₀ one_le_two (by omega)
  rw [← hvalue, mul_lt_mul_iff_left₀ (hscale place)] at hbelow
  exact_mod_cast hbelow

/-- A quotient that is `IsBinary64` is not rounded. -/
theorem ofRatio_of_isBinary64 {num den : Nat} {x : Dyadic} (hnum : 0 < num) (hden : 0 < den)
    (hx : x.toRat = (num : Rat) / den) (h : IsBinary64 x) : ofRatio false num den = .finite x := by
  obtain ⟨n, hbound, hplace, hvalue⟩ := exists_eq_mul_two_pow_lastPlace hnum hden hx h
  rw [ofRatio]
  generalize lastPlace num den = place at hplace hvalue ⊢
  have hpositive : 0 < den * 2 ^ place.toNat := Nat.mul_pos hden (Nat.two_pow_pos _)
  have hrounded : roundDiv (num * Nat.pow 2 (-place).toNat) (den * Nat.pow 2 place.toNat) = n := by
    have hwhole : num * 2 ^ (-place).toNat = n * (den * 2 ^ place.toNat) := by
      have hquotient := scaled_eq num den place
      rw [← hvalue, mul_div_cancel_right₀ _ (zpow_ne_zero place two_ne_zero),
        div_eq_iff (Nat.cast_pos.2 hpositive).ne'] at hquotient
      exact_mod_cast hquotient
    rw [Nat.pow_eq, Nat.pow_eq, hwhole, roundDiv_mul_right_self _ hpositive]
  have hnumber : Dyadic.ofIntWithPrec n (-place) = x := by
    rw [← Dyadic.toRat_inj, Dyadic.toRat_ofIntWithPrec_eq_mul_two_pow, neg_neg, Int.cast_natCast,
      hvalue, hx]
  have hfits {limit : Nat} (hlimit : 1024 ≤ limit) : n * 2 ^ place.toNat < Nat.pow 2 limit := by
    obtain ⟨room, rfl⟩ : ∃ room, limit = 53 + (place.toNat + room) :=
      ⟨limit - 53 - place.toNat, by omega⟩
    rw [Nat.pow_eq, Nat.pow_add]
    exact Nat.mul_lt_mul_of_lt_of_le hbound
      (Nat.pow_le_pow_right (by decide) (Nat.le_add_right _ room)) (Nat.two_pow_pos _)
  dsimp only
  rw [hrounded, hnumber]
  -- named, so that the power is not computed
  generalize hlimit : 1024 = limit
  exact if_neg (Nat.not_le.2 (hfits hlimit.le))

/-- A sign makes no difference for the magnitude of `ofRatio`. -/
theorem ofRatio_true (num den : Nat) : ofRatio true num den = (ofRatio false num den).neg := by
  rw [ofRatio, ofRatio]
  dsimp only
  split <;> rfl

/-! ## Integers -/

theorem toRat_ofInt (n : Int) : (Dyadic.ofInt n).toRat = n := by
  have hvalue : (Dyadic.ofIntWithPrec n 0).toRat = (n : Rat) * 2 ^ (-0 : Int) :=
    Dyadic.toRat_ofIntWithPrec_eq_mul_two_pow
  rw [neg_zero, zpow_zero, mul_one] at hvalue
  exact hvalue

theorem lt_ofInt_iff {a b : Int} : lt (ofInt a) (ofInt b) = true ↔ a < b := by
  rw [ofInt, ofInt, lt, decide_eq_true_eq, ← Dyadic.toRat_lt_toRat_iff, toRat_ofInt, toRat_ofInt,
    Int.cast_lt]

/-- The whole units of a value, of which a negative one has none. -/
theorem toNat_truncateDyadic (x : Dyadic) : (truncateDyadic x).toNat = ⌊x.toRat⌋₊ := by
  rw [← Int.floor_toNat, Rat.floor_def', truncateDyadic]
  rcases le_total 0 x.toRat.num with hnum | hnum
  · rw [Int.tdiv_eq_ediv_of_nonneg hnum]
  · have htoward : x.toRat.num.tdiv x.toRat.den ≤ 0 := by
      rw [← neg_nonneg, ← Int.neg_tdiv]
      exact Int.tdiv_nonneg (neg_nonneg.2 hnum) (Int.natCast_nonneg _)
    have hdown : x.toRat.num / x.toRat.den ≤ 0 :=
      Int.ediv_nonpos_of_nonpos_of_neg hnum (Int.natCast_pos.2 x.toRat.den_pos)
    rw [Int.toNat_of_nonpos htoward, Int.toNat_of_nonpos hdown]

theorem isInteger_iff {x : Number} : x.isInteger = true ↔ ∃ n, x = ofInt n := by
  cases x with
  | infinite negative => exact iff_of_false Bool.false_ne_true nofun
  | finite x =>
    have hinteger : (Number.finite x).isInteger = true ↔ x.toRat.den = 1 := by
      rw [isInteger, toInt?]
      split <;> simp_all
    rw [hinteger, Rat.den_eq_one_iff]
    constructor
    · intro h
      exact ⟨x.toRat.num, congrArg finite (Dyadic.toRat_inj.1 (h.symm.trans (toRat_ofInt _).symm))⟩
    · rintro ⟨n, h⟩
      obtain rfl := Number.finite.inj h
      rw [toRat_ofInt, Rat.num_intCast]

theorem gap_ofInt (a b : Int) : (ofInt a).gap (ofInt b) = (b - a).toNat := by
  have hdifference : (Dyadic.ofInt b - Dyadic.ofInt a).toRat = ((b - a : Int) : Rat) := by
    rw [Dyadic.toRat_sub, toRat_ofInt, toRat_ofInt, Int.cast_sub]
  simp only [ofInt, gap, hdifference, Rat.ceil_intCast]

theorem ofRatio_zero (negative : Bool) : ofRatio negative 0 1 = ofInt 0 := by
  cases negative <;> decide +kernel

/-- A natural number of 53 binary digits is not rounded by `ofRatio`. -/
theorem ofRatio_natCast {n : Nat} (h : n < 2 ^ 53) : ofRatio false n 1 = ofInt n := by
  rcases Nat.eq_zero_or_pos n with rfl | hpos
  · exact ofRatio_zero false
  · refine ofRatio_of_isBinary64 hpos Nat.one_pos ?_ (isBinary64_ofInt h)
    rw [toRat_ofInt, Nat.cast_one, div_one, Int.cast_natCast]

/-- Sums of integers by `add` are exact as long as they have 53 binary digits. -/
theorem add_ofInt {a b : Int} (h : (a + b).natAbs < 2 ^ 53) :
    (ofInt a).add (ofInt b) = ofInt (a + b) := by
  have hsum : (Dyadic.ofInt a + Dyadic.ofInt b).toRat = ((a + b : Int) : Rat) := by
    rw [Dyadic.toRat_add, toRat_ofInt, toRat_ofInt, Int.cast_add]
  rw [ofInt, ofInt, add, hsum, Rat.num_intCast, Rat.den_intCast]
  generalize a + b = n at h
  rcases lt_or_ge n 0 with hneg | hpos
  · have hnumber : (ofInt n.natAbs).neg = ofInt n := by
      rw [ofInt, neg, ofInt, Number.finite.injEq, ← Dyadic.toRat_inj, Dyadic.toRat_neg, toRat_ofInt,
        toRat_ofInt, Int.ofNat_natAbs_of_nonpos hneg.le, Int.cast_neg, neg_neg]
    rw [decide_eq_true hneg, ofRatio_true, ofRatio_natCast h, hnumber]
  · rw [decide_eq_false hpos.not_gt, ofRatio_natCast h, Int.natAbs_of_nonneg hpos]

/-! ## Written decimals -/

theorem decimalLength_of_pos {n : Nat} (hn : 0 < n) :
    decimalLength n = (Nat.toDigits 10 n).length := if_neg hn.ne'

/-- The digits of a natural number fit into `k` places if it is below that power of ten. -/
theorem decimalLength_le_iff (n k : Nat) : decimalLength n ≤ k ↔ n < 10 ^ k := by
  rcases Nat.eq_zero_or_pos n with rfl | hn
  · simp [decimalLength]
  rw [decimalLength_of_pos hn]
  rcases Nat.eq_zero_or_pos k with rfl | hk
  · have hlength := Nat.length_toDigits_pos (b := 10) (n := n)
    omega
  · exact Nat.length_toDigits_le_iff (by decide) hk

theorem decimalLength_mul_ten {n : Nat} (hn : 0 < n) :
    decimalLength (n * 10) = decimalLength n + 1 := by
  have hshift (k : Nat) : decimalLength (n * 10) ≤ k + 1 ↔ decimalLength n ≤ k := by
    rw [decimalLength_le_iff, decimalLength_le_iff, Nat.pow_succ, Nat.mul_lt_mul_right (by decide)]
  have hsome : ¬ decimalLength (n * 10) ≤ 0 := by
    rw [decimalLength_le_iff]
    omega
  have hle := (hshift (decimalLength n)).2 le_rfl
  have hge := hshift (decimalLength (n * 10) - 1)
  omega

/-- A zero at the end of a decimal is a place. -/
theorem ofDecimal_mul_ten (negative : Bool) (digits : Nat) (exponent : Int) :
    ofDecimal negative (digits * 10) exponent = ofDecimal negative digits (exponent + 1) := by
  rcases Nat.eq_zero_or_pos digits with rfl | hdigits
  · rfl
  have hpow (n : Nat) : 0 < Nat.pow 10 n := Nat.pow_pos (by decide)
  have hnumber : ofRatio negative (digits * 10 * Nat.pow 10 exponent.toNat)
        (Nat.pow 10 (-exponent).toNat)
      = ofRatio negative (digits * Nat.pow 10 (exponent + 1).toNat)
        (Nat.pow 10 (-(exponent + 1)).toNat) := by
    refine ofRatio_congr negative (Nat.mul_pos (by omega) (hpow _)) (hpow _) (hpow _) ?_
    simp only [Nat.pow_eq]
    rw [Nat.mul_assoc digits 10, ← Nat.pow_succ', Nat.mul_assoc, Nat.mul_assoc, ← Nat.pow_add,
      ← Nat.pow_add]
    congr 2
    omega
  have hplace : exponent + (decimalLength (digits * 10) : Int)
      = exponent + 1 + decimalLength digits := by
    rw [decimalLength_mul_ten hdigits]
    omega
  have hzero : decide (digits * 10 = 0) = decide (digits = 0) := by
    simp
  rw [ofDecimal, ofDecimal, hnumber, hplace, hzero]

/-- Zeros at the end of a decimal are places, so `ofDecimal` counts them in the exponent. -/
theorem ofDecimal_mul_pow_ten (negative : Bool) (digits k : Nat) (exponent : Int) :
    ofDecimal negative (digits * 10 ^ k) exponent = ofDecimal negative digits (exponent + k) := by
  induction k generalizing exponent with
  | zero => simp
  | succ k ih =>
    rw [Nat.pow_succ, ← Nat.mul_assoc, ofDecimal_mul_ten, ih]
    congr 1
    omega

theorem ofDecimal_true (digits : Nat) (exponent : Int) :
    ofDecimal true digits exponent = (ofDecimal false digits exponent).neg := by
  rw [ofDecimal, ofDecimal]
  split
  · rfl
  split
  · rfl
  · exact ofRatio_true _ _

/-! ## Natural numbers -/

theorem le_finite_iff (x y : Dyadic) :
    le (.finite x) (.finite y) = true ↔ x.toRat ≤ y.toRat := by
  rw [le, lt, Bool.not_eq_true', decide_eq_false_iff_not, ← Dyadic.toRat_lt_toRat_iff, not_lt]

theorem div_le_roundDiv (num den : Nat) : num / den ≤ roundDiv num den := by
  simp only [roundDiv]
  split
  · exact Nat.le_refl _
  split <;> omega

/-- The `lastPlace` of a natural number of more than 53 binary digits. -/
theorem exists_lastPlace_natCast {n : Nat} (hn : 2 ^ 53 ≤ n) :
    ∃ place : Nat, lastPlace n 1 = place ∧ 1 ≤ place ∧ 2 ^ (52 + place) ≤ n := by
  have hpos : 0 < n := Nat.lt_of_lt_of_le (by decide) hn
  have hlog : (53 : Int) ≤ Int.log 2 (n : Rat) := by
    rw [Int.log_natCast]
    exact_mod_cast Nat.le_log_of_pow_le (by decide) hn
  have hplace := lastPlace_eq hpos Nat.one_pos
  rw [Nat.cast_one, div_one, max_eq_left (by omega)] at hplace
  obtain ⟨place, hlogPlace⟩ : ∃ place : Nat, Int.log 2 (n : Rat) = 52 + place :=
    ⟨(Int.log 2 (n : Rat) - 52).toNat, by omega⟩
  refine ⟨place, by omega, by omega, ?_⟩
  rw [Int.log_natCast] at hlogPlace
  have hnat : Nat.log 2 n = 52 + place := by exact_mod_cast hlogPlace
  rw [← hnat]
  exact Nat.pow_log_le_self 2 hpos.ne'

/-- A natural number of more than 53 binary digits is rounded to none of 53 digits or less. -/
theorem not_le_ofRatio_natCast {n k : Nat} (hn : 2 ^ 53 ≤ n) (hk : k < 2 ^ 53) :
    le (ofRatio false n 1) (ofNat k) = false := by
  obtain ⟨place, hplace, hone, hlow⟩ := exists_lastPlace_natCast hn
  have hsignificand : 2 ^ 52 ≤ roundDiv n (2 ^ place) := by
    refine Nat.le_trans ?_ (div_le_roundDiv n (2 ^ place))
    rw [Nat.le_div_iff_mul_le (Nat.two_pow_pos place), ← Nat.pow_add]
    exact hlow
  have hscaled : roundDiv (n * Nat.pow 2 (-(place : Int)).toNat)
      (1 * Nat.pow 2 (place : Int).toNat) = roundDiv n (2 ^ place) := by
    have hzero : (-(place : Int)).toNat = 0 := by omega
    rw [hzero, Int.toNat_natCast, Nat.pow_eq, Nat.pow_eq, Nat.pow_zero, Nat.mul_one, Nat.one_mul]
  rw [ofRatio, hplace]
  dsimp only
  rw [hscaled]
  split
  · rfl
  · have hvalue : k < roundDiv n (2 ^ place) * 2 ^ place := by
      calc k < 2 ^ 52 * 2 ^ 1 := hk
        _ ≤ roundDiv n (2 ^ place) * 2 ^ place :=
          Nat.mul_le_mul hsignificand (Nat.pow_le_pow_right (by decide) hone)
    rw [Bool.eq_false_iff, ofNat, ofInt, Ne, if_neg Bool.false_ne_true, le_finite_iff, toRat_ofInt,
      Dyadic.toRat_ofIntWithPrec_eq_mul_two_pow, not_le, neg_neg, Int.cast_natCast,
      Int.cast_natCast, zpow_natCast]
    exact_mod_cast hvalue

/-- A natural number is rounded by `ofDecimal` as it is written, unless it has so many digits that
it counts as `infinite`. -/
theorem ofDecimal_natCast (n : Nat) :
    ofDecimal false n 0
      = if decimalLength n ≤ 400 then ofRatio false n 1 else .infinite false := by
  rcases Nat.eq_zero_or_pos n with rfl | hpos
  · rw [ofRatio_zero]
    rfl
  · have hsome : (decide (n = 0) || decide (0 + (decimalLength n : Int) < -400)) = false := by
      rw [decide_eq_false hpos.ne', decide_eq_false (by omega)]
      rfl
    have hmany : (400 : Int) < 0 + decimalLength n ↔ ¬ decimalLength n ≤ 400 := by
      omega
    rw [ofDecimal, hsome]
    simp only [Bool.false_eq_true, if_false, hmany, ite_not]
    rw [Int.toNat_zero, Int.neg_zero, Int.toNat_zero, Nat.pow_eq, Nat.pow_zero, Nat.mul_one]

/-- A natural number of 53 binary digits is read by `ofDecimal` as it is. -/
theorem ofDecimal_of_lt {n : Nat} (h : n < 2 ^ 53) : ofDecimal false n 0 = ofNat n := by
  have hshort : decimalLength n ≤ 53 :=
    (decimalLength_le_iff n 53).2 (h.trans_le (Nat.pow_le_pow_left (by decide) 53))
  rw [ofDecimal_natCast, if_pos (by omega), ofRatio_natCast h]
  rfl

/-- **A natural number of any length is read as at most `k` just if it is at most `k`**, where `k`
has 53 binary digits. -/
theorem le_ofDecimal_iff {n k : Nat} (hk : k < 2 ^ 53) :
    le (ofDecimal false n 0) (ofNat k) = true ↔ n ≤ k := by
  rcases Nat.lt_or_ge n (2 ^ 53) with hn | hn
  · rw [ofDecimal_of_lt hn, ofNat, ofInt, ofNat, ofInt, le_finite_iff, toRat_ofInt, toRat_ofInt]
    norm_cast
  · have hbeyond : ¬ n ≤ k := Nat.not_le.2 (Nat.lt_of_lt_of_le hk hn)
    rw [iff_false_right hbeyond, Bool.not_eq_true, ofDecimal_natCast]
    split
    · exact not_le_ofRatio_natCast hn hk
    · rfl

end Number

end Outpost
