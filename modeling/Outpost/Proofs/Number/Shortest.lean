import Outpost.Number.Decimal
import Outpost.Proofs.Number.Rounding

/-!
# Decimals that read back

The decimal that a value of binary64 is written as reads as that value. A decimal that was found by
trying does so because it was tried; and the exact decimal does so because its value is not rounded.

## Contents

* `le_of_den_eq_two_pow`, `num_lt_of_isBinary64`: the size of a value.
* `le_decimalLength_mul_five_pow`, `decimalLength_mul_five_pow_le`: the size of its exact decimal.
* `ofDecimal_exactDecimal`, `ofDecimal_dropZeros`, `ofDecimal_shortest`.
-/

namespace Outpost

namespace Number

/-! ## The size of a value -/

variable {x : Dyadic}

theorem exists_den_eq_two_pow (x : Dyadic) : ∃ places, x.toRat.den = 2 ^ places := by
  cases x with
  | zero => exact ⟨0, rfl⟩
  | ofOdd n k hn =>
    cases k with
    | ofNat k => exact ⟨k, by rw [Dyadic.toRat]⟩
    | negSucc k => exact ⟨0, by rw [Dyadic.toRat, Rat.den_intCast, Nat.pow_zero]⟩

/-- A value that `IsBinary64` has 1074 binary places at most. -/
theorem le_of_den_eq_two_pow (h : IsBinary64 x) {places : Nat} (hden : x.toRat.den = 2 ^ places) :
    places ≤ 1074 := by
  obtain ⟨significand, exponent, -, hexponent, -, rfl⟩ := h
  rw [Dyadic.toRat_ofIntWithPrec_eq_mul_two_pow, neg_neg] at hden
  obtain ⟨k, rfl | rfl⟩ := exponent.eq_nat_or_neg
  · -- an integer has no places
    have hone : (significand * 2 ^ (k : Int) : Rat).den = 1 := by
      rw [zpow_natCast]
      exact_mod_cast Rat.den_intCast (significand * 2 ^ k)
    rw [hone] at hden
    rcases Nat.eq_zero_or_pos places with rfl | hplaces
    · exact Nat.zero_le _
    · exact absurd hden (Nat.one_lt_two_pow hplaces.ne').ne
  · have hdvd : ((significand * 2 ^ (-(k : Int)) : Rat).den : Int) ∣ (2 ^ k : Nat) := by
      rw [zpow_neg, zpow_natCast, ← div_eq_mul_inv]
      exact_mod_cast Rat.den_dvd significand (2 ^ k : Nat)
    rw [hden] at hdvd
    have hle : places ≤ k :=
      (Nat.pow_dvd_pow_iff_le_right (by decide)).1 (Int.natCast_dvd_natCast.1 hdvd)
    omega

theorem natAbs_num_pos (hx : 0 < x.toRat) : 0 < x.toRat.num.natAbs := by
  have hpos : 0 < x.toRat.num := Rat.num_pos.2 hx
  omega

/-- A positive value as a quotient. -/
theorem toRat_eq_div (hx : 0 < x.toRat) :
    x.toRat = (x.toRat.num.natAbs : Rat) / x.toRat.den := by
  have hnum : (x.toRat.num.natAbs : Int) = x.toRat.num := by
    have hpos : 0 < x.toRat.num := Rat.num_pos.2 hx
    omega
  have hcast : ((x.toRat.num.natAbs : Int) : Rat) = x.toRat.num := congrArg Int.cast hnum
  rw [Int.cast_natCast] at hcast
  rw [hcast, Rat.num_div_den]

/-- A value that `IsBinary64` is below two to the 1024. -/
theorem num_lt_of_isBinary64 (hx : 0 < x.toRat) (h : IsBinary64 x) {limit : Nat}
    (hlimit : 1024 ≤ limit) : x.toRat.num.natAbs < x.toRat.den * 2 ^ limit := by
  have hden : (0 : Rat) < x.toRat.den := Nat.cast_pos.2 x.toRat.den_pos
  obtain ⟨n, hn, hplace, hvalue⟩ :=
    exists_eq_mul_two_pow_lastPlace (natAbs_num_pos hx) x.toRat.den_pos (toRat_eq_div hx) h
  generalize lastPlace x.toRat.num.natAbs x.toRat.den = place at hplace hvalue
  have hsignificand : (n : Rat) < 2 ^ (53 : Int) := by exact_mod_cast hn
  have hscale : (0 : Rat) < 2 ^ place := zpow_pos (by decide) place
  have hquotient : (x.toRat.num.natAbs : Rat) / x.toRat.den < 2 ^ limit := by
    calc (x.toRat.num.natAbs : Rat) / x.toRat.den
        = n * 2 ^ place := hvalue.symm
      _ < 2 ^ (53 : Int) * 2 ^ place := mul_lt_mul_of_pos_right hsignificand hscale
      _ = 2 ^ (53 + place) := (zpow_add₀ two_ne_zero 53 place).symm
      _ ≤ 2 ^ (limit : Int) := zpow_le_zpow_right₀ one_le_two (by omega)
      _ = 2 ^ limit := zpow_natCast 2 limit
  rw [div_lt_iff₀ hden, mul_comm] at hquotient
  exact_mod_cast hquotient

/-! ## The two ways of writing a value -/

theorem two_pow_le_ten_pow {n k : Nat} (h : n ≤ 3 * k) : 2 ^ n ≤ 10 ^ k := by
  calc 2 ^ n ≤ 2 ^ (3 * k) := Nat.pow_le_pow_right (by decide) h
    _ = 8 ^ k := Nat.pow_mul 2 3 k
    _ ≤ 10 ^ k := Nat.pow_le_pow_left (by decide) k

theorem ten_pow_eq (places : Nat) : 10 ^ places = 2 ^ places * 5 ^ places :=
  Nat.mul_pow 2 5 places

/-- No value is so small that its exact decimal would be taken for zero. -/
theorem le_decimalLength_mul_five_pow {num places : Nat} (hnum : 0 < num)
    (hplaces : places ≤ 1074) :
    places ≤ decimalLength (num * 5 ^ places) + 400 := by
  by_contra hsmall
  obtain ⟨k, room, hk, hroom, hlength⟩ : ∃ k room, places = k + room ∧ places ≤ 3 * room ∧
      decimalLength (num * 5 ^ places) ≤ k := ⟨places - 401, 401, by omega, by omega, by omega⟩
  rw [decimalLength_le_iff] at hlength
  have htwo : 2 ^ places ≤ 10 ^ room := two_pow_le_ten_pow hroom
  have hlt : num * 10 ^ room * 5 ^ places < 2 ^ places * 5 ^ places := by
    calc num * 10 ^ room * 5 ^ places
        = num * 5 ^ places * 10 ^ room := Nat.mul_right_comm _ _ _
      _ < 10 ^ k * 10 ^ room := Nat.mul_lt_mul_of_pos_right hlength (Nat.pow_pos (by decide))
      _ = 2 ^ places * 5 ^ places := by rw [← Nat.pow_add, ← hk, ten_pow_eq]
  have hle : 10 ^ room ≤ num * 10 ^ room := Nat.le_mul_of_pos_left _ hnum
  exact absurd (Nat.lt_of_mul_lt_mul_right hlt) (Nat.not_lt.2 (htwo.trans hle))

/-- No value is so great that its exact decimal would be taken for infinite. -/
theorem decimalLength_mul_five_pow_le {num places : Nat} (hhigh : num < 2 ^ places * 2 ^ 1200) :
    decimalLength (num * 5 ^ places) ≤ places + 400 := by
  have htwo : 2 ^ 1200 ≤ 10 ^ 400 := two_pow_le_ten_pow (by decide)
  rw [decimalLength_le_iff, Nat.pow_add, ten_pow_eq]
  calc num * 5 ^ places
      < 2 ^ places * 2 ^ 1200 * 5 ^ places :=
        Nat.mul_lt_mul_of_pos_right hhigh (Nat.pow_pos (by decide))
    _ = 2 ^ places * 5 ^ places * 2 ^ 1200 := Nat.mul_right_comm _ _ _
    _ ≤ 2 ^ places * 5 ^ places * 10 ^ 400 := Nat.mul_le_mul_left _ htwo

/-- The `exactDecimal` of a value reads as that value. -/
theorem ofDecimal_exactDecimal (hx : 0 < x.toRat) (h : IsBinary64 x) :
    let d := exactDecimal x.toRat.num.natAbs x.toRat.den.log2
    ofDecimal false d.digits d.exponent = .finite x := by
  intro d
  obtain ⟨places, hden⟩ := exists_den_eq_two_pow x
  have hplaces := le_of_den_eq_two_pow h hden
  have hvalue := toRat_eq_div hx
  have hnum := natAbs_num_pos hx
  have hhigh := num_lt_of_isBinary64 hx h (show 1024 ≤ 1200 by decide)
  have hd : d = ⟨x.toRat.num.natAbs * 5 ^ places, -(places : Int)⟩ := by
    simp [d, exactDecimal, hden, Nat.log2_two_pow]
  rw [hd]
  rw [hden] at hvalue hhigh
  generalize x.toRat.num.natAbs = num at hvalue hnum hhigh ⊢
  have hfive : 0 < 5 ^ places := Nat.pow_pos (by decide)
  have hlow : ¬ -(places : Int) + decimalLength (num * 5 ^ places) < -400 := by
    have hlength := le_decimalLength_mul_five_pow hnum hplaces
    omega
  have hupper : ¬ 400 < -(places : Int) + decimalLength (num * 5 ^ places) := by
    have hlength := decimalLength_mul_five_pow_le hhigh
    omega
  have hnonzero : num * 5 ^ places ≠ 0 := (Nat.mul_pos hnum hfive).ne'
  rw [ofDecimal]
  simp only [hnonzero, hlow, hupper, decide_false, Bool.or_self, Bool.false_eq_true, if_false]
  have hnone : (-(places : Int)).toNat = 0 := by omega
  rw [neg_neg, Int.toNat_natCast, hnone, Nat.pow_eq, Nat.pow_eq, Nat.pow_zero, Nat.mul_one]
  have hcongr : num * 5 ^ places * 2 ^ places = num * 10 ^ places := by
    rw [ten_pow_eq, Nat.mul_assoc, Nat.mul_comm (5 ^ places)]
  rw [ofRatio_congr false (Nat.mul_pos hnum hfive) (Nat.pow_pos (by decide)) (Nat.two_pow_pos _)
    hcongr]
  exact ofRatio_of_isBinary64 hnum (Nat.two_pow_pos _) hvalue h

/-- Zeros that `dropZeros` drops make no difference. -/
theorem ofDecimal_dropZeros (negative : Bool) (fuel : Nat) (d : Decimal) :
    ofDecimal negative (d.dropZeros fuel).digits (d.dropZeros fuel).exponent
      = ofDecimal negative d.digits d.exponent := by
  induction fuel generalizing d with
  | zero => rfl
  | succ fuel ih =>
    rw [Decimal.dropZeros]
    split
    · rename_i hzero
      simp only [Bool.and_eq_true, decide_eq_true_eq] at hzero
      rw [ih]
      have hdigits : d.digits / 10 * 10 = d.digits := by omega
      rw [← ofDecimal_mul_ten, hdigits]
    · rfl

/-- **The `shortest` decimal of a value reads as that value.** -/
theorem ofDecimal_shortest (hx : 0 < x.toRat) (h : IsBinary64 x) :
    ofDecimal false (shortest x).digits (shortest x).exponent = .finite x := by
  rw [shortest, ofDecimal_dropZeros]
  generalize hreading : List.find? _ _ = reading
  cases reading with
  | none => exact ofDecimal_exactDecimal hx h
  | some d =>
    rw [List.find?_eq_some_iff_append] at hreading
    exact eq_of_beq hreading.1

theorem shortest_digits_pos (hx : 0 < x.toRat) (h : IsBinary64 x) : 0 < (shortest x).digits := by
  refine Nat.pos_of_ne_zero fun hzero => ?_
  have hreads := ofDecimal_shortest hx h
  rw [hzero] at hreads
  have hvalue : Dyadic.ofInt 0 = x := Number.finite.inj hreads
  rw [← hvalue] at hx
  exact absurd hx (by decide)

theorem IsBinary64.neg (h : IsBinary64 x) : IsBinary64 (-x) := by
  obtain ⟨significand, exponent, hsignificand, hlow, hhigh, rfl⟩ := h
  exact ⟨-significand, exponent, by rwa [Int.natAbs_neg], hlow, hhigh, Dyadic.neg_ofIntWithPrec⟩

end Number

end Outpost
