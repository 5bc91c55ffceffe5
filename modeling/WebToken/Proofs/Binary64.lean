import Mathlib.Algebra.Order.Field.Power
import Mathlib.Tactic.FieldSimp
import Mathlib.Tactic.Linarith
import Mathlib.Tactic.NormNum
import Mathlib.Tactic.Positivity
import Mathlib.Tactic.Ring
import WebToken.Number.Binary64

/-! How far rounding goes. The number nearest to a quotient is off by at most half a unit of its last
place, and it is finite if the quotient is below the point where rounding up would need one exponent
more than there are. -/

namespace WebToken

/-- A power with a whole exponent, as the quotient of two powers with natural ones. -/
theorem zpow_eq_div {base : ℚ} (hbase : base ≠ 0) (exponent : ℤ) :
    base ^ exponent = base ^ exponent.toNat / base ^ (-exponent).toNat := by
  rw [← zpow_natCast, ← zpow_natCast, ← zpow_sub₀ hbase]
  congr 1
  omega

namespace Binary64

/-- The magnitude of a finite number. -/
def magnitude (x : Binary64) : ℚ :=
  x.significand * 2 ^ x.exponent

theorem magnitude_eq_div (x : Binary64) : x.magnitude = x.numerator / x.denominator := by
  rw [magnitude, numerator, denominator, Nat.shiftLeft_eq, Nat.one_shiftLeft,
    zpow_eq_div two_ne_zero]
  push_cast
  rw [mul_div_assoc]

theorem denominator_pos (x : Binary64) : 0 < x.denominator := by
  rw [denominator, Nat.one_shiftLeft]
  exact Nat.two_pow_pos _

theorem magnitude_nonneg (x : Binary64) : 0 ≤ x.magnitude := by
  rw [magnitude]
  positivity

/-! ### Bits -/

section

variable {negative : Bool} {bits : Nat} (hbits : bits < 2 ^ 63)
include hbits

theorem toNat_ofSignBits :
    (ofSignBits negative bits).bits.toNat = (if negative then 2 ^ 63 else 0) + bits := by
  rw [ofSignBits, UInt64.toNat_ofNat', Nat.one_shiftLeft]
  apply Nat.mod_eq_of_lt
  split <;> omega

theorem biasedExponent_ofSignBits :
    (ofSignBits negative bits).biasedExponent = bits / 2 ^ 52 := by
  rw [biasedExponent, toNat_ofSignBits hbits, Nat.shiftRight_eq_div_pow]
  split <;> omega

theorem fraction_ofSignBits : (ofSignBits negative bits).fraction = bits % 2 ^ 52 := by
  rw [fraction, toNat_ofSignBits hbits, Nat.one_shiftLeft]
  split <;> omega

theorem isFinite_ofSignBits_iff :
    (ofSignBits negative bits).isFinite = true ↔ bits < 2047 * 2 ^ 52 := by
  rw [isFinite, biasedExponent_ofSignBits hbits, bne_iff_ne]
  omega

theorem isNegative_ofSignBits : (ofSignBits negative bits).isNegative = negative := by
  rw [isNegative, toNat_ofSignBits hbits, Nat.one_shiftLeft]
  cases negative with
  | false => simpa using hbits
  | true => simp

end

/-- The lower 63 bits of a number hold its exponent and its fraction. -/
theorem lower_bits (x : Binary64) : x.bits.toNat % 1 <<< 63 < 2 ^ 63 ∧
    (x.bits.toNat % 1 <<< 63) / 2 ^ 52 = x.biasedExponent ∧
    (x.bits.toNat % 1 <<< 63) % 2 ^ 52 = x.fraction := by
  rw [biasedExponent, fraction, Nat.shiftRight_eq_div_pow, Nat.one_shiftLeft, Nat.one_shiftLeft]
  omega

@[simp]
theorem isFinite_neg (x : Binary64) : x.neg.isFinite = x.isFinite := by
  obtain ⟨hlt, hexponent, _⟩ := x.lower_bits
  rw [isFinite, neg, biasedExponent_ofSignBits hlt, hexponent, isFinite]

theorem isNegative_neg (x : Binary64) : x.neg.isNegative = !x.isNegative :=
  isNegative_ofSignBits x.lower_bits.1

theorem isFinite_of_isZero {x : Binary64} (h : x.isZero = true) : x.isFinite = true := by
  rw [isZero, Bool.and_eq_true, beq_iff_eq] at h
  rw [isFinite, h.1]
  rfl

theorem magnitude_of_fields {x : Binary64} {exponent fraction : Nat}
    (hexponent : x.biasedExponent = exponent) (hfraction : x.fraction = fraction) :
    x.magnitude = (if exponent = 0 then fraction else fraction + 2 ^ 52 : Nat) *
      2 ^ (((max 1 exponent : Nat) : ℤ) - 1075) := by
  rw [magnitude, significand, Binary64.exponent, hexponent, hfraction, Nat.one_shiftLeft]

theorem magnitude_neg (x : Binary64) : x.neg.magnitude = x.magnitude := by
  obtain ⟨hlt, hexponent, hfraction⟩ := x.lower_bits
  rw [neg, magnitude_of_fields ((biasedExponent_ofSignBits hlt).trans hexponent)
    ((fraction_ofSignBits hlt).trans hfraction), magnitude_of_fields rfl rfl]

/-- Finite numbers have a significand of 53 bits, or fewer with the least exponent. -/
theorem significand_bounds {x : Binary64} (h : x.isFinite = true) :
    x.significand < 2 ^ 53 ∧ x.exponent ≤ 971 ∧
      (x.exponent = -1074 ∨ -1074 < x.exponent ∧ 2 ^ 52 ≤ x.significand) := by
  have hfraction : x.fraction < 2 ^ 52 := Nat.mod_lt _ (by decide)
  have hexponent : x.biasedExponent < 2048 := Nat.mod_lt _ (by decide)
  rw [isFinite, bne_iff_ne] at h
  rw [significand, exponent, Nat.one_shiftLeft]
  split <;> omega

theorem significand_pos {x : Binary64} (h : x.isZero = false) : 0 < x.significand := by
  rw [isZero, Bool.and_eq_false_iff, beq_eq_false_iff_ne, beq_eq_false_iff_ne] at h
  rw [significand]
  split
  · rename_i hexponent
    rcases h with h | h
    · exact absurd hexponent h
    · exact Nat.pos_of_ne_zero h
  · exact Nat.add_pos_right _ (by decide)

theorem magnitude_of_isZero {x : Binary64} (h : x.isZero = true) : x.magnitude = 0 := by
  rw [isZero, Bool.and_eq_true, beq_iff_eq, beq_iff_eq] at h
  rw [magnitude, significand, if_pos h.1, h.2, Nat.cast_zero, zero_mul]

/-- A significand of 53 bits, or any smaller one with the least exponent, is put into the bits so that
adding it carries into the exponent. -/
theorem magnitude_ofSignBits {place significand : Nat} (negative : Bool)
    (hsignificand : significand ≤ 2 ^ 53) (hnormal : place = 0 ∨ 2 ^ 52 ≤ significand)
    (hbits : place * 2 ^ 52 + significand < 2 ^ 63) :
    (ofSignBits negative (place * 2 ^ 52 + significand)).magnitude =
      significand * 2 ^ ((place : ℤ) - 1074) := by
  rw [magnitude_of_fields (biasedExponent_ofSignBits hbits) (fraction_ofSignBits hbits)]
  -- Without the hidden bit, with it, and with a carry into the exponent.
  obtain hsubnormal | hmiddle | rfl : significand < 2 ^ 52 ∨
      2 ^ 52 ≤ significand ∧ significand < 2 ^ 53 ∨ significand = 2 ^ 53 := by omega
  · obtain rfl : place = 0 := by omega
    have hplace : (0 * 2 ^ 52 + significand) / 2 ^ 52 = 0 := by omega
    have hrest : (0 * 2 ^ 52 + significand) % 2 ^ 52 = significand := by omega
    rw [hplace, hrest]
    norm_num
  · have hplace : (place * 2 ^ 52 + significand) / 2 ^ 52 = place + 1 := by omega
    have hrest : (place * 2 ^ 52 + significand) % 2 ^ 52 + 2 ^ 52 = significand := by omega
    have hexponent : (((max 1 (place + 1) : Nat) : ℤ) - 1075) = (place : ℤ) - 1074 := by omega
    rw [hplace, if_neg (Nat.succ_ne_zero place), hrest, hexponent]
  · have hplace : (place * 2 ^ 52 + 2 ^ 53) / 2 ^ 52 = place + 2 := by omega
    have hrest : (place * 2 ^ 52 + 2 ^ 53) % 2 ^ 52 = 0 := by omega
    have hexponent : (((max 1 (place + 2) : Nat) : ℤ) - 1075) = (place : ℤ) - 1074 + 1 := by omega
    rw [hplace, if_neg (Nat.succ_ne_zero _), hrest, hexponent, zpow_add_one₀ two_ne_zero]
    push_cast
    ring

theorem magnitude_zero (negative : Bool) : (zero negative).magnitude = 0 := by
  have hmagnitude : (ofSignBits negative (0 * 2 ^ 52 + 0)).magnitude = _ :=
    magnitude_ofSignBits negative (Nat.zero_le _) (Or.inl rfl) (by decide)
  exact hmagnitude.trans (by rw [Nat.cast_zero, zero_mul])

/-! ### Rounding -/

/-- A rounded quotient is off by at most a half. -/
theorem roundQuotient_bounds (numerator : Nat) {denominator : Nat} (h : 0 < denominator) :
    2 * numerator ≤ 2 * roundQuotient numerator denominator * denominator + denominator ∧
      2 * roundQuotient numerator denominator * denominator ≤ 2 * numerator + denominator := by
  have hdivides := Nat.div_add_mod numerator denominator
  have hrest := Nat.mod_lt numerator h
  rw [Nat.mul_comm] at hdivides
  rw [roundQuotient]
  split
  · rw [Nat.mul_assoc]
    omega
  · rw [Nat.mul_assoc, Nat.add_one_mul (numerator / denominator)]
    omega

theorem abs_roundQuotient_sub_le (numerator : Nat) {denominator : Nat} (h : 0 < denominator) :
    |(roundQuotient numerator denominator : ℚ) - numerator / denominator| ≤ 1 / 2 := by
  have hpos : (0 : ℚ) < denominator := Nat.cast_pos.mpr h
  obtain ⟨hlow, hhigh⟩ := roundQuotient_bounds numerator h
  have hlow : (2 * numerator : ℚ) ≤
      2 * roundQuotient numerator denominator * denominator + denominator := by
    exact_mod_cast hlow
  have hhigh : (2 * roundQuotient numerator denominator * denominator : ℚ) ≤
      2 * numerator + denominator := by
    exact_mod_cast hhigh
  rw [abs_sub_le_iff, sub_le_iff_le_add, sub_le_iff_le_add, ← mul_le_mul_iff_left₀ hpos,
    div_le_iff₀ hpos, add_mul, div_mul_cancel₀ _ hpos.ne', add_mul]
  constructor <;> linarith

theorem scaleDown_div (numerator : Nat) {denominator : Nat} (h : 0 < denominator)
    (exponent : ℤ) :
    ((scaleDown numerator denominator exponent).1 : ℚ) /
      (scaleDown numerator denominator exponent).2 = numerator / denominator / 2 ^ exponent := by
  have hpos : (denominator : ℚ) ≠ 0 := Nat.cast_ne_zero.mpr h.ne'
  rw [scaleDown, Nat.shiftLeft_eq, Nat.shiftLeft_eq, zpow_eq_div two_ne_zero]
  push_cast
  field_simp

theorem scaleDown_pos (numerator : Nat) {denominator : Nat} (h : 0 < denominator)
    (exponent : ℤ) : 0 < (scaleDown numerator denominator exponent).2 := by
  simp only [scaleDown, Nat.shiftLeft_eq]
  exact Nat.mul_pos h (Nat.two_pow_pos _)

section

variable {numerator denominator : Nat} (hnumerator : 0 < numerator)
  (hdenominator : 0 < denominator)
include hnumerator hdenominator

/-- The logarithms of two numbers tell their quotient up to a factor of two. -/
theorem quotient_bounds :
    (2 : ℚ) ^ ((numerator.log2 : ℤ) - denominator.log2 - 1) < numerator / denominator ∧
      (numerator / denominator : ℚ) < 2 ^ ((numerator.log2 : ℤ) - denominator.log2 + 1) := by
  have hpos : (0 : ℚ) < denominator := Nat.cast_pos.mpr hdenominator
  have hnumeratorLow : (2 : ℚ) ^ (numerator.log2 : ℤ) ≤ numerator := by
    exact_mod_cast Nat.log2_self_le hnumerator.ne'
  have hnumeratorHigh : (numerator : ℚ) < 2 ^ ((numerator.log2 : ℤ) + 1) := by
    exact_mod_cast Nat.lt_log2_self
  have hdenominatorLow : (2 : ℚ) ^ (denominator.log2 : ℤ) ≤ denominator := by
    exact_mod_cast Nat.log2_self_le hdenominator.ne'
  have hdenominatorHigh : (denominator : ℚ) < 2 ^ ((denominator.log2 : ℤ) + 1) := by
    exact_mod_cast Nat.lt_log2_self
  constructor
  · rw [lt_div_iff₀ hpos]
    calc (2 : ℚ) ^ ((numerator.log2 : ℤ) - denominator.log2 - 1) * denominator
        < 2 ^ ((numerator.log2 : ℤ) - denominator.log2 - 1) * 2 ^ ((denominator.log2 : ℤ) + 1) := by
          gcongr
      _ = 2 ^ (numerator.log2 : ℤ) := by
          rw [← zpow_add₀ two_ne_zero]
          congr 1
          ring
      _ ≤ numerator := hnumeratorLow
  · rw [div_lt_iff₀ hpos]
    calc (numerator : ℚ)
        < 2 ^ ((numerator.log2 : ℤ) + 1) := hnumeratorHigh
      _ = 2 ^ ((numerator.log2 : ℤ) - denominator.log2 + 1) * 2 ^ (denominator.log2 : ℤ) := by
          rw [← zpow_add₀ two_ne_zero]
          congr 1
          ring
      _ ≤ 2 ^ ((numerator.log2 : ℤ) - denominator.log2 + 1) * denominator := by gcongr

/-- At its exponent the quotient has 53 bits, or fewer if the exponent is the least one. -/
theorem exponentOf_spec :
    -1074 ≤ exponentOf numerator denominator ∧
      (numerator / denominator / 2 ^ exponentOf numerator denominator : ℚ) < 2 ^ 53 ∧
      (exponentOf numerator denominator = -1074 ∨
        (2 : ℚ) ^ 52 ≤ numerator / denominator / 2 ^ exponentOf numerator denominator) := by
  obtain ⟨hlow, hhigh⟩ := quotient_bounds hnumerator hdenominator
  rw [exponentOf]
  generalize hleast : max ((numerator.log2 : ℤ) - denominator.log2 - 53) (-1074) = least
  have hleastLe : -1074 ≤ least ∧ (numerator.log2 : ℤ) - denominator.log2 - 53 ≤ least := by
    rw [← hleast]
    exact ⟨le_max_right _ _, le_max_left _ _⟩
  have hscaled : (scaleDown numerator denominator least).1 /
      (scaleDown numerator denominator least).2 < 1 <<< 53 ↔
        (numerator / denominator / 2 ^ least : ℚ) < 2 ^ 53 := by
    have hpos := scaleDown_pos numerator hdenominator least
    rw [← scaleDown_div numerator hdenominator, div_lt_iff₀ (Nat.cast_pos.mpr hpos),
      Nat.div_lt_iff_lt_mul hpos, Nat.one_shiftLeft]
    norm_cast
  -- The logarithms leave two candidates, of which a quotient of 54 bits rules out the smaller.
  split
  · rename_i hfits
    refine ⟨hleastLe.1, hscaled.mp hfits, ?_⟩
    rcases Int.le_total ((numerator.log2 : ℤ) - denominator.log2 - 53) (-1074) with hcase | hcase
    · exact Or.inl (hleast ▸ max_eq_right hcase)
    · right
      rw [max_eq_left hcase] at hleast
      rw [le_div_iff₀ (by positivity), ← zpow_natCast, ← zpow_add₀ two_ne_zero]
      refine le_trans (le_of_eq ?_) hlow.le
      congr 1
      omega
  · rename_i hbeyond
    rw [hscaled, not_lt] at hbeyond
    refine ⟨by omega, ?_, Or.inr ?_⟩
    · rw [div_lt_iff₀ (by positivity), ← zpow_natCast, ← zpow_add₀ two_ne_zero]
      refine lt_of_lt_of_le hhigh (zpow_le_zpow_right₀ one_le_two ?_)
      omega
    · rw [le_div_iff₀ (by positivity)] at hbeyond ⊢
      refine le_trans (le_of_eq ?_) hbeyond
      rw [zpow_add_one₀ two_ne_zero]
      ring

/-- The bits of the nearest number hold a whole multiple of a power of two that is off by at most half
of that power, unless they are those of an infinity. -/
theorem roundBits_spec :
    ∃ place rounded : Nat,
      roundBits numerator denominator = min (place * 2 ^ 52 + rounded) (2047 * 2 ^ 52) ∧
      rounded ≤ 2 ^ 53 ∧ (place = 0 ∨ 2 ^ 52 ≤ rounded) ∧
      (place = 0 ∨ (2 : ℚ) ^ 52 * 2 ^ ((place : ℤ) - 1074) ≤ numerator / denominator) ∧
      |(rounded : ℚ) * 2 ^ ((place : ℤ) - 1074) - numerator / denominator| ≤
        2 ^ ((place : ℤ) - 1074) / 2 := by
  obtain ⟨hleast, hhigh, hlow⟩ := exponentOf_spec hnumerator hdenominator
  generalize hexponent : exponentOf numerator denominator = exponent at *
  have hround := abs_roundQuotient_sub_le (scaleDown numerator denominator exponent).1
    (scaleDown_pos numerator hdenominator exponent)
  rw [scaleDown_div numerator hdenominator] at hround
  generalize hrounded : roundQuotient (scaleDown numerator denominator exponent).1
    (scaleDown numerator denominator exponent).2 = rounded at hround
  obtain ⟨place, rfl⟩ : ∃ place : Nat, exponent = (place : ℤ) - 1074 :=
    ⟨(exponent + 1074).toNat, by omega⟩
  have hunit : (0 : ℚ) < 2 ^ ((place : ℤ) - 1074) := by positivity
  obtain ⟨hroundLow, hroundHigh⟩ := abs_sub_le_iff.mp hround
  refine ⟨place, rounded, ?_, ?_, ?_, ?_, ?_⟩
  · have hplace : ((place : ℤ) - 1074 + 1074).toNat = place := by omega
    rw [roundBits, hexponent, hrounded, hplace, Nat.shiftLeft_eq, Nat.shiftLeft_eq]
  · have hlt : (rounded : ℚ) < (2 ^ 53 + 1 : Nat) := by
      push_cast
      linarith
    exact Nat.lt_succ_iff.mp (Nat.cast_lt.mp hlt)
  · refine hlow.imp (fun h => by omega) fun h => ?_
    have hlt : ((2 ^ 52 : Nat) : ℚ) < (rounded + 1 : Nat) := by
      push_cast
      linarith
    exact Nat.lt_succ_iff.mp (Nat.cast_lt.mp hlt)
  · refine hlow.imp (fun h => by omega) fun h => ?_
    rwa [le_div_iff₀ hunit] at h
  · calc |(rounded : ℚ) * 2 ^ ((place : ℤ) - 1074) - numerator / denominator|
        = |(rounded : ℚ) - numerator / denominator / 2 ^ ((place : ℤ) - 1074)| *
            2 ^ ((place : ℤ) - 1074) := by
          rw [← abs_of_pos hunit, ← abs_mul, abs_of_pos hunit, sub_mul,
            div_mul_cancel₀ _ hunit.ne']
      _ ≤ 1 / 2 * 2 ^ ((place : ℤ) - 1074) := by gcongr
      _ = 2 ^ ((place : ℤ) - 1074) / 2 := by ring

end

/-- Quotients from here on are rounded to an infinity. -/
def finiteLimit : ℚ := (2 ^ 54 - 1) * 2 ^ 970

theorem bits_lt_of_lt_finiteLimit {place rounded : Nat} {value : ℚ} (hvalue : value < finiteLimit)
    (hrounded : rounded ≤ 2 ^ 53)
    (hnormal : place = 0 ∨ (2 : ℚ) ^ 52 * 2 ^ ((place : ℤ) - 1074) ≤ value)
    (herror : |(rounded : ℚ) * 2 ^ ((place : ℤ) - 1074) - value| ≤ 2 ^ ((place : ℤ) - 1074) / 2) :
    place * 2 ^ 52 + rounded < 2047 * 2 ^ 52 := by
  have hpos : (0 : ℚ) < 2 ^ 970 := by positivity
  rw [finiteLimit] at hvalue
  by_contra hbits
  obtain hplace | ⟨rfl, rfl⟩ : 2046 ≤ place ∨ place = 2045 ∧ rounded = 2 ^ 53 := by omega
  · have hlow : (2 : ℚ) ^ 52 * 2 ^ ((place : ℤ) - 1074) ≤ value := by
      rcases hnormal with hzero | hlow
      · omega
      · exact hlow
    have hunit : (2 : ℚ) ^ 2 * 2 ^ 970 ≤ 2 ^ ((place : ℤ) - 1074) := by
      rw [← pow_add, ← zpow_natCast]
      exact zpow_le_zpow_right₀ one_le_two (by omega)
    generalize (2 : ℚ) ^ 970 = unit at *
    linarith
  · have hunit : (2 : ℚ) ^ (((2045 : ℕ) : ℤ) - 1074) = 2 * 2 ^ 970 := by
      rw [← pow_succ', ← zpow_natCast]
      norm_num
    have hlow := (abs_sub_le_iff.mp herror).1
    rw [hunit] at hlow
    push_cast at hlow
    generalize (2 : ℚ) ^ 970 = unit at *
    linarith

theorem roundBits_lt (numerator denominator : Nat) : roundBits numerator denominator < 2 ^ 63 :=
  lt_of_le_of_lt (Nat.min_le_right _ _) (by decide)

theorem isNegative_ofQuotient (negative : Bool) (numerator denominator : Nat) :
    (ofQuotient negative numerator denominator).isNegative = negative := by
  rw [ofQuotient]
  split
  · exact isNegative_ofSignBits (by decide)
  · exact isNegative_ofSignBits (roundBits_lt _ _)

/-- What is below the limit is rounded to a finite number. -/
theorem isFinite_ofQuotient (negative : Bool) (numerator : Nat) {denominator : Nat}
    (hdenominator : 0 < denominator) (hlimit : (numerator / denominator : ℚ) < finiteLimit) :
    (ofQuotient negative numerator denominator).isFinite = true := by
  rw [ofQuotient]
  split
  · exact (isFinite_ofSignBits_iff (by decide)).mpr (by decide)
  · rename_i hnonzero
    obtain ⟨place, rounded, hround, hrounded, hnormal, hlow, herror⟩ :=
      roundBits_spec (Nat.pos_of_ne_zero hnonzero) hdenominator
    have hbits := bits_lt_of_lt_finiteLimit hlimit hrounded hlow herror
    rw [isFinite_ofSignBits_iff (roundBits_lt _ _), hround]
    exact (Nat.min_le_left _ _).trans_lt hbits

/-- A quotient that is rounded to a finite number is off by at most half a unit, which is a part in
`2 ^ 52` of it or the least there is. -/
theorem exists_unit {negative : Bool} {numerator denominator : Nat} (hdenominator : 0 < denominator)
    (hfinite : (ofQuotient negative numerator denominator).isFinite = true) :
    ∃ unit : ℤ, -1074 ≤ unit ∧
      (unit = -1074 ∨ (2 : ℚ) ^ 52 * 2 ^ unit ≤ numerator / denominator) ∧
      |(ofQuotient negative numerator denominator).magnitude - numerator / denominator| ≤
        2 ^ unit / 2 := by
  rw [ofQuotient] at hfinite ⊢
  split
  · rename_i hzero
    subst hzero
    refine ⟨-1074, le_refl _, Or.inl rfl, ?_⟩
    rw [magnitude_zero, Nat.cast_zero, zero_div, sub_zero, abs_zero]
    positivity
  · rename_i hnonzero
    rw [if_neg hnonzero, isFinite_ofSignBits_iff (roundBits_lt _ _)] at hfinite
    obtain ⟨place, rounded, hround, hrounded, hnormal, hlow, herror⟩ :=
      roundBits_spec (Nat.pos_of_ne_zero hnonzero) hdenominator
    rw [hround] at hfinite ⊢
    have hbits : place * 2 ^ 52 + rounded < 2047 * 2 ^ 52 := by omega
    refine ⟨(place : ℤ) - 1074, by omega, hlow.imp (by omega) id, ?_⟩
    rw [Nat.min_eq_left hbits.le, magnitude_ofSignBits negative hrounded hnormal (by omega)]
    exact herror

/-- A finite result is off by at most a part in `2 ^ 53`, or by as much as the least normal number
would be. -/
theorem ofQuotient_error {negative : Bool} {numerator denominator : Nat}
    (hdenominator : 0 < denominator)
    (hfinite : (ofQuotient negative numerator denominator).isFinite = true) :
    |(ofQuotient negative numerator denominator).magnitude - numerator / denominator| ≤
      max (numerator / denominator : ℚ) (2 ^ (-1022 : ℤ)) / 2 ^ 53 := by
  obtain ⟨unit, _, hlow, herror⟩ := exists_unit hdenominator hfinite
  refine herror.trans ?_
  rcases hlow with rfl | hlow
  · have hnormal : (2 : ℚ) ^ (-1022 : ℤ) = 2 ^ (-1074 : ℤ) * 2 ^ 52 := by
      rw [← zpow_natCast, ← zpow_add₀ two_ne_zero]
      norm_num
    refine le_trans (le_of_eq ?_) (div_le_div_of_nonneg_right (le_max_right _ _) (by positivity))
    rw [hnormal]
    ring
  · refine le_trans ?_ (div_le_div_of_nonneg_right (le_max_left _ _) (by positivity))
    linarith

/-- What is below the limit is rounded to a finite number, off by at most a part in `2 ^ 53`, or by as
much as one would be. -/
theorem ofQuotient_spec (negative : Bool) (numerator : Nat) {denominator : Nat}
    (hdenominator : 0 < denominator) (hlimit : (numerator / denominator : ℚ) < finiteLimit) :
    (ofQuotient negative numerator denominator).isFinite = true ∧
      |(ofQuotient negative numerator denominator).magnitude - numerator / denominator| ≤
        max (numerator / denominator : ℚ) 1 / 2 ^ 53 := by
  have hfinite := isFinite_ofQuotient negative numerator hdenominator hlimit
  have hone : (2 : ℚ) ^ (-1022 : ℤ) ≤ 1 := zpow_le_one_of_nonpos₀ one_le_two (by decide)
  refine ⟨hfinite, (ofQuotient_error hdenominator hfinite).trans ?_⟩
  gcongr

/-! ### Arithmetic -/

section

variable {x y : Binary64}

theorem cast_product (x y : Binary64) :
    ((x.numerator * y.numerator : Nat) : ℚ) / (x.denominator * y.denominator : Nat) =
      x.magnitude * y.magnitude := by
  rw [magnitude_eq_div, magnitude_eq_div, div_mul_div_comm]
  push_cast
  rfl

theorem cast_quotient (x y : Binary64) :
    ((x.numerator * y.denominator : Nat) : ℚ) / (x.denominator * y.numerator : Nat) =
      x.magnitude / y.magnitude := by
  rw [magnitude_eq_div, magnitude_eq_div, div_div_div_eq]
  push_cast
  rfl

/-- The product is rounded from the product of the magnitudes. -/
theorem mul_spec (h : x.magnitude * y.magnitude < finiteLimit) : (x.mul y).isFinite = true := by
  refine isFinite_ofQuotient _ _ (Nat.mul_pos x.denominator_pos y.denominator_pos) ?_
  rwa [cast_product]

theorem mul_error (h : (x.mul y).isFinite = true) :
    |(x.mul y).magnitude - x.magnitude * y.magnitude| ≤
      max (x.magnitude * y.magnitude) (2 ^ (-1022 : ℤ)) / 2 ^ 53 := by
  rw [← cast_product]
  exact ofQuotient_error (Nat.mul_pos x.denominator_pos y.denominator_pos) h

theorem numerator_pos_of_magnitude (h : 0 < y.magnitude) : 0 < y.numerator := by
  refine Nat.pos_of_ne_zero fun hzero => ?_
  rw [magnitude_eq_div, hzero, Nat.cast_zero, zero_div] at h
  exact lt_irrefl _ h

/-- The quotient is rounded from the quotient of the magnitudes. -/
theorem div_spec (hpos : 0 < y.magnitude) (h : x.magnitude / y.magnitude < finiteLimit) :
    (x.div y).isFinite = true ∧
      |(x.div y).magnitude - x.magnitude / y.magnitude| ≤
        max (x.magnitude / y.magnitude) 1 / 2 ^ 53 := by
  have hdenominator : 0 < x.denominator * y.numerator :=
    Nat.mul_pos x.denominator_pos (numerator_pos_of_magnitude hpos)
  rw [← cast_quotient] at h ⊢
  exact ofQuotient_spec _ _ hdenominator h

theorem div_error (hpos : 0 < y.magnitude) (h : (x.div y).isFinite = true) :
    |(x.div y).magnitude - x.magnitude / y.magnitude| ≤
      max (x.magnitude / y.magnitude) (2 ^ (-1022 : ℤ)) / 2 ^ 53 := by
  rw [← cast_quotient]
  exact ofQuotient_error (Nat.mul_pos x.denominator_pos (numerator_pos_of_magnitude hpos)) h

theorem ofNat_spec {value : Nat} (h : (value : ℚ) < finiteLimit) :
    (ofNat value).isFinite = true ∧ |(ofNat value).magnitude - value| ≤ max (value : ℚ) 1 / 2 ^ 53 := by
  have hspec := ofQuotient_spec false value Nat.one_pos (by rwa [Nat.cast_one, div_one])
  rwa [Nat.cast_one, div_one] at hspec

end

/-! ### Signs -/

/-- What a finite number stands for. Both zeros stand for zero. -/
def toRat (x : Binary64) : ℚ :=
  if x.isNegative then -x.magnitude else x.magnitude

theorem abs_toRat (x : Binary64) : |x.toRat| = x.magnitude := by
  rw [toRat]
  split
  · rw [abs_neg, abs_of_nonneg x.magnitude_nonneg]
  · exact abs_of_nonneg x.magnitude_nonneg

theorem toRat_neg (x : Binary64) : x.neg.toRat = -x.toRat := by
  rw [toRat, toRat, isNegative_neg, magnitude_neg]
  cases x.isNegative <;> simp

end Binary64

end WebToken
