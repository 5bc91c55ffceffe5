import WebToken.Proofs.Json.Accuracy
import WebToken.Proofs.Json.FloatText

/-! What numbers come back as from their own text: as numbers within a few units of their last place. Where
the significand and the power of ten are exact there is one rounding only, and it undoes the choice of the
decimal. Whole numbers of up to sixteen digits come back although they are scaled: they are even beyond
`2 ^ 53`, and a tenth of the rounding is less than what divides them. -/

namespace WebToken.Json

open Binary64 (Near)

/-! ### What is read back -/

section

variable {value : Binary64} (finite : value.isFinite = true)
include finite

theorem abs_value_decimalOf_sub_le :
    |(decimalOf value).value - value.magnitude| ≤ 2 ^ value.exponent / 2 := by
  cases hzero : value.isZero with
  | true =>
      rw [decimalOf, if_pos hzero, Decimal.value, Binary64.magnitude_of_isZero hzero, Nat.cast_zero,
        zero_mul, sub_zero, abs_zero]
      positivity
  | false =>
      have hcoarsest := coarsest_decimalOf finite hzero
      have hlow := hcoarsest.low_le (Binary64.significand_pos hzero)
      have hhigh := hcoarsest.value_le
      rw [Binary64.magnitude, abs_sub_le_iff]
      constructor <;> linarith

theorem value_decimalOf_le : (decimalOf value).value ≤ 2 ^ 53 * 2 ^ value.exponent := by
  have hunit : (0 : ℚ) < 2 ^ value.exponent := by positivity
  have hsignificand : (value.significand : ℚ) + 1 ≤ 2 ^ 53 := by
    exact_mod_cast (Binary64.significand_bounds finite).1
  have hhigh := (abs_sub_le_iff.mp (abs_value_decimalOf_sub_le finite)).1
  rw [Binary64.magnitude] at hhigh
  calc (decimalOf value).value
      ≤ (value.significand + 1 / 2) * 2 ^ value.exponent := by linarith
    _ ≤ 2 ^ 53 * 2 ^ value.exponent := mul_le_mul_of_nonneg_right (by linarith) hunit.le

/-- Scaling the decimal of a number leads at most seven units of its last place away from it. -/
theorem abs_magnitude_sub_le {result : Binary64} (h : Scaled (decimalOf value).value result) :
    |result.magnitude - value.magnitude| ≤ 7 * 2 ^ value.exponent := by
  have hleast : (2 : ℚ) ^ (-1075 : ℤ) ≤ 2 ^ value.exponent / 2 := by
    rw [le_div_iff₀ two_pos, ← zpow_add_one₀ two_ne_zero]
    refine zpow_le_zpow_right₀ one_le_two ?_
    have hexponent := (Binary64.significand_bounds finite).2.2
    omega
  have hdecimal := abs_value_decimalOf_sub_le finite
  have hbound := value_decimalOf_le finite
  have hnear := h.near
  have hunit : (0 : ℚ) < 2 ^ value.exponent := by positivity
  rw [Near] at hnear
  generalize (2 : ℚ) ^ (-1075 : ℤ) = least at hleast hnear
  calc |result.magnitude - value.magnitude|
      ≤ |result.magnitude - (decimalOf value).value| +
          |(decimalOf value).value - value.magnitude| := abs_sub_le _ _ _
    _ ≤ 7 * 2 ^ value.exponent := by linarith

end

theorem signed_eq_some {negative : Bool} {result : Binary64} {found : JsonNumber}
    (h : signed negative result = some found) :
    found.toBinary64.isFinite = true ∧
      found.toBinary64 = if negative then result.neg else result := by
  rw [signed] at h
  generalize (if negative then result.neg else result) = value at h ⊢
  split at h
  · rename_i hfinite
    cases h
    exact ⟨hfinite, rfl⟩
  · cases h

theorem toRat_of_signed {negative : Bool} {result : Binary64} {found : JsonNumber}
    (hpositive : result.isNegative = false) (h : signed negative result = some found) :
    found.toBinary64.toRat = if negative then -result.magnitude else result.magnitude := by
  have hresult : result.toRat = result.magnitude := by
    rw [Binary64.toRat, hpositive, if_neg (by decide)]
  rw [(signed_eq_some h).2]
  cases negative with
  | false => exact hresult
  | true => exact (Binary64.toRat_neg result).trans (congrArg Neg.neg hresult)

/-- Numbers of one sign are as far from each other as their magnitudes. -/
theorem abs_toRat_sub {value found result : Binary64}
    (h : found.toRat = if value.isNegative then -result.magnitude else result.magnitude) :
    |found.toRat - value.toRat| = |result.magnitude - value.magnitude| := by
  rw [h, Binary64.toRat]
  split
  · rw [neg_sub_neg, abs_sub_comm]
  · rfl

/-- What is read back is what the decimal is scaled to, with the sign. -/
theorem exists_scaled_of_readBack {value : Binary64} (finite : value.isFinite = true)
    {found : JsonNumber} (h : readBack? value = some found) :
    ∃ result, scale (.ofNat (spelled (decimalOf value)).1) (spelled (decimalOf value)).2 =
        some result ∧ Scaled (decimalOf value).value result ∧ found.toBinary64.isFinite = true ∧
      found.toBinary64.toRat = if value.isNegative then -result.magnitude else result.magnitude := by
  have hproper := proper_decimalOf finite
  have hpower : -616 ≤ (spelled (decimalOf value)).2 ∧ (spelled (decimalOf value)).2 ≤ 308 := by
    have hexponent := hproper.exponent
    rw [spelled]
    split <;> dsimp only <;> omega
  rw [readBack?, scaledNumber] at h
  obtain ⟨result, hresult, hsigned⟩ := Option.bind_eq_some_iff.mp h
  have hscaled := scaled_of_scale hproper.spelled_lt hpower hresult
  rw [value_spelled] at hscaled
  exact ⟨result, hresult, hscaled, (signed_eq_some hsigned).1,
    toRat_of_signed hscaled.positive hsigned⟩

/-! ### Exact steps -/

theorem magnitude_powerOfTen {power : Nat} (h : power ≤ 22) :
    (powerOfTen power).magnitude = 10 ^ power := by
  have hexact : ∀ power < 23, (powerOfTen power).numerator =
      10 ^ power * (powerOfTen power).denominator := by
    decide +kernel
  have hpos : ((powerOfTen power).denominator : ℚ) ≠ 0 :=
    Nat.cast_ne_zero.mpr (powerOfTen power).denominator_pos.ne'
  rw [Binary64.magnitude_eq_div, hexact power (by omega), Nat.cast_mul, mul_div_cancel_right₀ _ hpos]
  norm_cast

section

variable {value : Binary64} (finite : value.isFinite = true) (hzero : value.isZero = false)
include finite hzero

/-- With an exact significand and an exact power of ten there is one rounding, to the number that the
decimal was chosen for. -/
theorem magnitude_scale_of_holds {significand : Nat} (hpos : 0 < significand)
    (hsignificand : significand ≤ 2 ^ 53) {power : ℤ} (hpower : power.natAbs ≤ 22)
    (hholds : (Decimal.Interval.of value.significand value.exponent).Holds value.exponent
      (significand * 10 ^ power)) {result : Binary64}
    (h : scale (.ofNat significand) power = some result) : result.magnitude = value.magnitude := by
  have hexact : (Binary64.ofNat significand).magnitude = significand :=
    (Binary64.ofQuotient_of_le false hsignificand).2
  have hvalue : 0 < (Binary64.ofNat significand).magnitude := by
    rw [hexact]
    exact Nat.cast_pos.mpr hpos
  rcases le_or_gt 0 power with hup | hdown
  · obtain ⟨power, rfl⟩ := Int.eq_ofNat_of_zero_le hup
    have hten : (powerOfTen power).magnitude = 10 ^ power := magnitude_powerOfTen (by omega)
    obtain ⟨rfl, _⟩ := scale_of_nonneg (by omega) h
    apply Binary64.magnitude_mul_of_holds finite hzero hvalue
    · rw [hten]
      positivity
    · rwa [hexact, hten, ← zpow_natCast]
  · obtain ⟨power, rfl⟩ : ∃ count : Nat, power = -(count : ℤ) := ⟨power.natAbs, by omega⟩
    have hten : (powerOfTen power).magnitude = 10 ^ power := magnitude_powerOfTen (by omega)
    rw [scale_of_neg (by omega) (by omega)] at h
    cases h
    apply Binary64.magnitude_div_of_holds finite hzero hvalue
    · rw [hten]
      positivity
    · rwa [hexact, hten, ← mul_zpow_neg_natCast]

/-- A whole decimal up to `2 ^ 53` is the number that it was chosen for. -/
theorem magnitude_of_whole {whole : Nat} (hpos : 0 < whole) (hsmall : whole ≤ 2 ^ 53)
    (h : (Decimal.Interval.of value.significand value.exponent).Holds value.exponent whole) :
    value.magnitude = whole := by
  obtain ⟨hsignificand, hlimit, hnormal⟩ := Binary64.significand_bounds finite
  have hexact := (Binary64.ofQuotient_of_le false hsmall).2
  rw [← div_one (whole : ℚ), ← Nat.cast_one] at h
  have hrounded := (Binary64.ofQuotient_of_holds false hpos Nat.one_pos
    (Binary64.significand_pos hzero) hsignificand hlimit hnormal h).2
  exact hrounded.symm.trans hexact

end

/-! ### Whole numbers -/

section

variable {value : Binary64} (finite : value.isFinite = true)
include finite

/-- Below `10 ^ 16` all numbers are known to the last place but one at least. -/
theorem exponent_le_one (h : (value.significand - 1 / 2) * 2 ^ value.exponent < (10 : ℚ) ^ 16) :
    value.exponent ≤ 1 := by
  by_contra hlarge
  have hnormal : 2 ^ 52 ≤ value.significand := by
    have hbounds := (Binary64.significand_bounds finite).2.2
    omega
  have hleast : (2 : ℚ) ^ 52 ≤ value.significand := by exact_mod_cast hnormal
  have hunit : (2 : ℚ) ^ (2 : ℤ) ≤ 2 ^ value.exponent := zpow_le_zpow_right₀ one_le_two (by omega)
  have hfour : (2 : ℚ) ^ (2 : ℤ) = 4 := by norm_num
  rw [hfour] at hunit
  have hproduct : ((2 : ℚ) ^ 52 - 1 / 2) * 4 ≤ (value.significand - 1 / 2) * 2 ^ value.exponent :=
    mul_le_mul (by linarith) hunit (by norm_num) (by linarith)
  linarith

/-- From `2 ^ 53` up they are even. -/
theorem exponent_of_bounds (hlow : 2 ^ 53 ≤ value.magnitude) (hhigh : value.magnitude < 10 ^ 16) :
    value.exponent = 1 := by
  have hunit : (0 : ℚ) < 2 ^ value.exponent := by positivity
  rw [Binary64.magnitude] at hlow hhigh
  have hlimit := exponent_le_one finite (by linarith)
  suffices hpos : 0 < value.exponent by omega
  by_contra hnone
  have hsignificand : (value.significand : ℚ) < 2 ^ 53 := by
    exact_mod_cast (Binary64.significand_bounds finite).1
  have hsmall : (2 : ℚ) ^ value.exponent ≤ 1 := zpow_le_one_of_nonpos₀ one_le_two (by omega)
  have hproduct := mul_le_mul_of_nonneg_left hsmall (Nat.cast_nonneg (α := ℚ) value.significand)
  linarith

variable (hzero : value.isZero = false)
include hzero

/-- A whole number is off by at most eight when ten times as much is rounded, and the division takes that
back: its neighbours are two away. -/
theorem magnitude_scale_of_even (hexponent : value.exponent = 1) (hbound : value.magnitude < 10 ^ 16)
    {result : Binary64} (h : scale (.ofNat (20 * value.significand)) (-1) = some result) :
    result.magnitude = value.magnitude := by
  have hnormal : 2 ^ 52 ≤ value.significand := by
    have hbounds := (Binary64.significand_bounds finite).2.2
    omega
  have hsmall : 20 * value.significand < 2 ^ 57 := by
    have hcast : value.significand * 2 < 10 ^ 16 := by
      rw [Binary64.magnitude, hexponent, zpow_one] at hbound
      exact_mod_cast hbound
    omega
  have hten : (powerOfTen 1).magnitude = 10 := by
    rw [magnitude_powerOfTen (by decide), pow_one]
  have hquotient : scale (.ofNat (20 * value.significand)) (-1) =
      some ((Binary64.ofNat (20 * value.significand)).div (powerOfTen 1)) :=
    scale_of_neg Nat.one_pos (by decide)
  rw [hquotient] at h
  cases h
  -- Below the first of these numbers the neighbour is one away only, and it needs no rounding.
  rcases hnormal.eq_or_lt with hfirst | hnormal
  · rw [← hfirst, Binary64.magnitude, Binary64.magnitude, hexponent, ← hfirst]
    decide +kernel
  · have herror := Binary64.abs_ofNat_sub_le hsmall
    rw [abs_sub_le_iff] at herror
    push_cast at herror
    have hlow : (2 : ℚ) ^ 52 + 1 ≤ value.significand := by exact_mod_cast hnormal
    have hlower : ((Decimal.Interval.of value.significand 1).low : ℚ) =
        4 * value.significand - 2 := by
      rw [Decimal.Interval.of, if_neg (by rw [Nat.one_shiftLeft]; omega), Nat.cast_sub (by omega)]
      push_cast
      ring
    have hupper : ((Decimal.Interval.of value.significand 1).high : ℚ) =
        4 * value.significand + 2 := by
      rw [Decimal.Interval.of]
      push_cast
      ring
    refine Binary64.magnitude_div_of_holds finite hzero (by linarith) (by rw [hten]; norm_num) ?_
    rw [hten, hexponent]
    apply Decimal.Interval.holds_of_lt
    · rw [hlower, lt_div_iff₀ (by norm_num)]
      norm_num
      linarith
    · rw [hupper, div_lt_iff₀ (by norm_num)]
      norm_num
      linarith

/-- Such a number is written as a whole one, and its decimal is the number. -/
theorem spelled_of_even (hexponent : value.exponent = 1) (hbound : value.magnitude < 10 ^ 16) :
    spelled (decimalOf value) = (20 * value.significand, -1) := by
  have hcoarsest := coarsest_decimalOf finite hzero
  have hpos := Binary64.significand_pos hzero
  have hdigits := hcoarsest.digits_pos hpos
  rw [hexponent] at hcoarsest
  obtain ⟨hpower, hvalue⟩ := hcoarsest.value_of_even hpos
  have hlead : lead (decimalOf value) < 16 := by
    rw [Binary64.magnitude, hexponent, zpow_one, mul_comm] at hbound
    rw [lead_lt_iff hdigits, hvalue]
    push_cast
    exact_mod_cast hbound
  rw [spelled, if_pos ⟨hpower, hlead⟩]
  congr 1
  obtain ⟨places, hplaces⟩ := Int.eq_ofNat_of_zero_le hpower
  rw [Decimal.value, hplaces, zpow_natCast] at hvalue
  have hsame : (decimalOf value).digits * 10 ^ places = 2 * value.significand := by
    exact_mod_cast hvalue
  rw [hplaces, Int.toNat_natCast, pow_succ, ← Nat.mul_assoc, hsame]
  omega

theorem magnitude_scale_of_whole {whole : Nat} (hmagnitude : value.magnitude = whole)
    (hlow : 2 ^ 53 ≤ whole) (hhigh : whole < 10 ^ 16) {result : Binary64}
    (h : scale (.ofNat (spelled (decimalOf value)).1) (spelled (decimalOf value)).2 = some result) :
    result.magnitude = value.magnitude := by
  have hlow : (2 : ℚ) ^ 53 ≤ value.magnitude := by
    rw [hmagnitude]
    exact_mod_cast hlow
  have hhigh : value.magnitude < 10 ^ 16 := by
    rw [hmagnitude]
    exact_mod_cast hhigh
  have hexponent := exponent_of_bounds finite hlow hhigh
  rw [spelled_of_even finite hzero hexponent hhigh] at h
  exact magnitude_scale_of_even finite hzero hexponent hhigh h

/-- What is written as a whole number is one: a decimal without a fraction is exact up to `2 ^ 53`, and
above it the number is even. -/
theorem whole_of_spelled (hexponent : 0 ≤ (decimalOf value).exponent)
    (hlead : lead (decimalOf value) < 16) :
    ∃ whole : Nat, whole < 10 ^ 16 ∧ value.magnitude = whole := by
  have hcoarsest := coarsest_decimalOf finite hzero
  have hpos := Binary64.significand_pos hzero
  have hdigits := hcoarsest.digits_pos hpos
  obtain ⟨places, hplaces⟩ := Int.eq_ofNat_of_zero_le hexponent
  have hvalue : (decimalOf value).value = ((decimalOf value).digits * 10 ^ places : Nat) := by
    rw [Decimal.value, hplaces, zpow_natCast]
    push_cast
    rfl
  have hwhole : 0 < (decimalOf value).digits * 10 ^ places :=
    Nat.mul_pos hdigits (Nat.pow_pos (by decide))
  have hholds := hcoarsest.holds
  have hlow := hcoarsest.low_le hpos
  have hhigh := hcoarsest.value_le
  rw [lead_lt_iff hdigits] at hlead
  rw [hvalue] at hlead hholds hlow hhigh
  generalize (decimalOf value).digits * 10 ^ places = whole at hvalue hwhole hlead hholds hlow hhigh
  refine ⟨whole, by exact_mod_cast hlead, ?_⟩
  have hlimit := exponent_le_one finite (hlow.trans_lt hlead)
  rcases le_or_gt value.exponent 0 with hnone | hone
  · apply magnitude_of_whole finite hzero hwhole _ hholds
    have hsignificand : (value.significand : ℚ) + 1 ≤ 2 ^ 53 := by
      exact_mod_cast (Binary64.significand_bounds finite).1
    have hunit : (2 : ℚ) ^ value.exponent ≤ 1 := zpow_le_one_of_nonpos₀ one_le_two hnone
    have hbound : (whole : ℚ) ≤ 2 ^ 53 := by
      calc (whole : ℚ)
          ≤ (value.significand + 1 / 2) * 2 ^ value.exponent := hhigh
        _ ≤ (value.significand + 1 / 2) * 1 := mul_le_mul_of_nonneg_left hunit (by positivity)
        _ ≤ 2 ^ 53 := by linarith
    exact_mod_cast hbound
  · have hexponent : value.exponent = 1 := by omega
    rw [hexponent] at hcoarsest
    rw [Binary64.magnitude, hexponent, zpow_one, ← hvalue, (hcoarsest.value_of_even hpos).2]
    push_cast
    ring

end

/-! ### Coming back -/

/-- What a number may come back as when it has been written: a number within few units of its last place.
Nothing changes if it is whole and has no more than sixteen digits, or if the significand and the power of
ten that its shortest decimal has are exact. -/
structure ComesBack (value found : Binary64) : Prop where
  finite : found.isFinite = true
  close : |found.toRat - value.toRat| ≤ 7 * 2 ^ value.exponent
  whole : ∀ whole : ℤ, value.toRat = whole → whole.natAbs < 10 ^ 16 → found.toRat = value.toRat
  short : (decimalOf value).digits ≤ 2 ^ 53 → (decimalOf value).exponent.natAbs ≤ 22 →
    found.toRat = value.toRat

theorem ComesBack.of_eq {value found : Binary64} (finite : found.isFinite = true)
    (h : found.toRat = value.toRat) : ComesBack value found := by
  refine ⟨finite, ?_, fun _ _ _ => h, fun _ _ => h⟩
  rw [h, sub_self, abs_zero]
  positivity

/-- A number that is written with a point or an exponent comes back from its text. -/
theorem comesBack_of_readBack {value : Binary64} (finite : value.isFinite = true)
    (hlarge : ∀ whole, value.toInt? = some whole → 2 ^ 53 ≤ whole.natAbs) {found : JsonNumber}
    (h : readBack? value = some found) : ComesBack value found.toBinary64 := by
  obtain ⟨result, hresult, hscaled, hfinite, hvalue⟩ := exists_scaled_of_readBack finite h
  have hexact : result.magnitude = value.magnitude → found.toBinary64.toRat = value.toRat := by
    intro hsame
    rw [hvalue, Binary64.toRat, hsame]
  have hsize : ∀ whole : Nat, value.magnitude = whole → 2 ^ 53 ≤ whole := by
    intro whole hwhole
    have hbound := hlarge _ (Binary64.toInt?_of_magnitude finite hwhole)
    split at hbound
    · rwa [Int.natAbs_neg, Int.natAbs_natCast] at hbound
    · exact hbound
  have hzero : value.isZero = false := by
    by_contra hzero
    have hnone : value.magnitude = (0 : Nat) := by
      rw [Binary64.magnitude_of_isZero (Bool.not_eq_false _ ▸ hzero), Nat.cast_zero]
    exact absurd (hsize 0 hnone) (by decide)
  have hwhole : ∀ whole : Nat, value.magnitude = whole → whole < 10 ^ 16 →
      found.toBinary64.toRat = value.toRat := by
    intro whole hmagnitude hlimit
    exact hexact (magnitude_scale_of_whole finite hzero hmagnitude (hsize whole hmagnitude) hlimit
      hresult)
  refine ⟨hfinite, ?_, ?_, ?_⟩
  · rw [abs_toRat_sub hvalue]
    exact abs_magnitude_sub_le finite hscaled
  · intro whole htoRat hlimit
    apply hwhole whole.natAbs _ hlimit
    rw [← Binary64.abs_toRat, htoRat, Nat.cast_natAbs, Int.cast_abs]
  · intro hdigits hpower
    by_cases hspelled : 0 ≤ (decimalOf value).exponent ∧ lead (decimalOf value) < 16
    · obtain ⟨whole, hlimit, hmagnitude⟩ := whole_of_spelled finite hzero hspelled.1 hspelled.2
      exact hwhole whole hmagnitude hlimit
    · have hcoarsest := coarsest_decimalOf finite hzero
      rw [spelled, if_neg hspelled] at hresult
      exact hexact (magnitude_scale_of_holds finite hzero
        (hcoarsest.digits_pos (Binary64.significand_pos hzero)) hdigits hpower hcoarsest.holds hresult)

end WebToken.Json
