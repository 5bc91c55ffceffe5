import WebToken.Proofs.Shortest

/-! What is rounded to a given number: everything in its interval, the ends included if its significand is
even. Whole numbers up to `2 ^ 53` are rounded to themselves. -/

namespace WebToken.Binary64

open Decimal (Interval)

/-- Whether a quotient is nearest to a whole number; the half between two is nearer to the even one. -/
def Nearest (x : ℚ) (whole : Nat) : Prop :=
  if whole % 2 = 0 then whole - 1 / 2 ≤ x ∧ x ≤ whole + 1 / 2
  else whole - 1 / 2 < x ∧ x < whole + 1 / 2

theorem nearest_of_lt {x : ℚ} {whole : Nat} (hlow : whole - 1 / 2 < x) (hhigh : x < whole + 1 / 2) :
    Nearest x whole := by
  rw [Nearest]
  split
  · exact ⟨hlow.le, hhigh.le⟩
  · exact ⟨hlow, hhigh⟩

/-- The same in whole numbers. -/
theorem nearest_div_iff {numerator denominator whole : Nat} (hdenominator : 0 < denominator) :
    Nearest (numerator / denominator) whole ↔
      if whole % 2 = 0 then
        2 * (whole * denominator) ≤ 2 * numerator + denominator ∧
          2 * numerator ≤ 2 * (whole * denominator) + denominator
      else
        2 * (whole * denominator) < 2 * numerator + denominator ∧
          2 * numerator < 2 * (whole * denominator) + denominator := by
  have hpos : (0 : ℚ) < denominator := Nat.cast_pos.mpr hdenominator
  rw [Nearest]
  split
  · rw [le_div_iff₀ hpos, div_le_iff₀ hpos, ← Nat.cast_le (α := ℚ), ← Nat.cast_le (α := ℚ)]
    push_cast
    constructor <;> intro h <;> constructor <;> linarith [h.1, h.2]
  · rw [lt_div_iff₀ hpos, div_lt_iff₀ hpos, ← Nat.cast_lt (α := ℚ), ← Nat.cast_lt (α := ℚ)]
    push_cast
    constructor <;> intro h <;> constructor <;> linarith [h.1, h.2]

theorem roundQuotient_of_nearest {numerator denominator whole : Nat} (hdenominator : 0 < denominator)
    (h : Nearest (numerator / denominator) whole) : roundQuotient numerator denominator = whole := by
  rw [nearest_div_iff hdenominator] at h
  have hdivides := Nat.div_add_mod numerator denominator
  have hrest := Nat.mod_lt numerator hdenominator
  rw [Nat.mul_comm] at hdivides
  rw [roundQuotient]
  generalize numerator / denominator = floor at *
  generalize numerator % denominator = rest at *
  have hbounds : 2 * (whole * denominator) ≤ 2 * numerator + denominator ∧
      2 * numerator ≤ 2 * (whole * denominator) + denominator ∧
      (whole % 2 = 1 → 2 * (whole * denominator) ≠ 2 * numerator + denominator ∧
        2 * numerator ≠ 2 * (whole * denominator) + denominator) := by
    split at h <;> omega
  have hfloor : floor ≤ whole := by
    refine Nat.lt_succ_iff.mp (Nat.lt_of_mul_lt_mul_right (a := denominator) ?_)
    rw [Nat.succ_mul]
    omega
  have hwhole : whole ≤ floor + 1 := by
    refine Nat.lt_succ_iff.mp (Nat.lt_of_mul_lt_mul_right (a := denominator) ?_)
    rw [Nat.succ_mul, Nat.add_one_mul]
    omega
  obtain hsame | hnext : whole = floor ∨ whole = floor + 1 := by omega
  · rw [hsame] at hbounds
    rw [if_pos (by omega), hsame]
  · rw [hnext, Nat.add_one_mul floor] at hbounds
    rw [if_neg (by omega), hnext]

section

variable (negative : Bool) {numerator denominator : Nat} (hnumerator : 0 < numerator)
  (hdenominator : 0 < denominator)
include hnumerator hdenominator

/-- What the quotient is nearest to, in units of its exponent, is what it is rounded to. -/
theorem ofQuotient_of_nearest {unit : ℤ} {rounded : Nat} (hunit : exponentOf numerator denominator = unit)
    (hnearest : Nearest (numerator / denominator / 2 ^ unit) rounded) (hrounded : rounded ≤ 2 ^ 53)
    (hnormal : unit = -1074 ∨ -1074 < unit ∧ 2 ^ 52 ≤ rounded)
    (hfits : unit ≤ 970 ∨ unit = 971 ∧ rounded < 2 ^ 53) :
    (ofQuotient negative numerator denominator).isFinite = true ∧
      (ofQuotient negative numerator denominator).magnitude = rounded * 2 ^ unit := by
  obtain ⟨place, rfl⟩ : ∃ place : Nat, unit = (place : ℤ) - 1074 :=
    ⟨(unit + 1074).toNat, by omega⟩
  rw [← scaleDown_div numerator hdenominator] at hnearest
  have hround := roundQuotient_of_nearest (scaleDown_pos numerator hdenominator _) hnearest
  have hplace : ((place : ℤ) - 1074 + 1074).toNat = place := by omega
  have hbits : place * 2 ^ 52 + rounded < 2047 * 2 ^ 52 := by omega
  have hsame : roundBits numerator denominator = place * 2 ^ 52 + rounded := by
    rw [roundBits, hunit, hround, hplace, Nat.shiftLeft_eq, Nat.shiftLeft_eq, Nat.min_eq_left hbits.le]
  rw [ofQuotient, if_neg hnumerator.ne', hsame]
  exact ⟨(isFinite_ofSignBits_iff (by omega)).mpr hbits,
    magnitude_ofSignBits negative hrounded (by omega) (by omega)⟩

end

/-- In units of the number, its interval reaches half a unit up and down. Only in front of a power of two
the half below belongs to the number before, but for the upper half of it. -/
theorem nearest_of_holds {significand : Nat} (hpos : 0 < significand) {exponent : ℤ} {x : ℚ}
    (h : (Interval.of significand exponent).Holds exponent x) :
    Nearest (x / 2 ^ exponent) significand ∧
      (significand = 2 ^ 52 → -1074 < exponent → significand - 1 / 4 ≤ x / 2 ^ exponent) := by
  have hunit : (0 : ℚ) < 2 ^ exponent := by positivity
  have hquarter : (2 : ℚ) ^ (exponent - 2) = 2 ^ exponent / 4 := by
    rw [zpow_sub₀ two_ne_zero]
    norm_num
  rw [Interval.Holds, hquarter] at h
  rw [Nearest, le_div_iff₀ hunit, le_div_iff₀ hunit, div_le_iff₀ hunit, lt_div_iff₀ hunit,
    div_lt_iff₀ hunit]
  simp only [Interval.of, Nat.one_shiftLeft] at h
  by_cases hpower : significand = 2 ^ 52 ∧ -1074 < exponent
  · rw [if_pos hpower, hpower.1] at h
    rw [hpower.1]
    norm_num at h ⊢
    constructor
    · constructor <;> linarith [h.1, h.2]
    · intro
      linarith [h.1]
  · rw [if_neg hpower, Nat.cast_sub (by omega)] at h
    refine ⟨?_, fun hsame hlarge => absurd ⟨hsame, hlarge⟩ hpower⟩
    by_cases heven : significand % 2 = 0
    · rw [if_pos (by simpa using heven)] at h
      rw [if_pos heven]
      push_cast at h
      constructor <;> linarith [h.1, h.2]
    · rw [if_neg (by simpa using heven)] at h
      rw [if_neg heven]
      push_cast at h
      constructor <;> linarith [h.1, h.2]

section

variable (negative : Bool) {numerator denominator : Nat} (hnumerator : 0 < numerator)
  (hdenominator : 0 < denominator)
include hnumerator hdenominator

/-- Everything in the interval of a number is rounded to it. -/
theorem ofQuotient_of_holds {significand : Nat} {exponent : ℤ} (hpos : 0 < significand)
    (hsignificand : significand < 2 ^ 53) (hlimit : exponent ≤ 971)
    (hnormal : exponent = -1074 ∨ -1074 < exponent ∧ 2 ^ 52 ≤ significand)
    (h : (Interval.of significand exponent).Holds exponent (numerator / denominator)) :
    (ofQuotient negative numerator denominator).isFinite = true ∧
      (ofQuotient negative numerator denominator).magnitude = significand * 2 ^ exponent := by
  obtain ⟨hnearest, hpower⟩ := nearest_of_holds hpos h
  obtain ⟨hleast, hhigh, hlow⟩ := exponentOf_spec hnumerator hdenominator
  generalize hunit : exponentOf numerator denominator = unit at hleast hhigh hlow
  have hone : (0 : ℚ) < 2 ^ exponent := by positivity
  obtain ⟨hbottom, htop⟩ : (significand : ℚ) - 1 / 2 ≤ numerator / denominator / 2 ^ exponent ∧
      (numerator / denominator / 2 ^ exponent : ℚ) ≤ significand + 1 / 2 := by
    rw [Nearest] at hnearest
    split at hnearest
    · exact hnearest
    · exact ⟨hnearest.1.le, hnearest.2.le⟩
  have hscaled : ∀ shift : ℤ, unit + shift = exponent →
      (numerator / denominator / 2 ^ unit : ℚ) = numerator / denominator / 2 ^ exponent * 2 ^ shift := by
    rintro shift rfl
    rw [zpow_add₀ two_ne_zero]
    field_simp
  have hnonneg : (0 : ℚ) ≤ numerator / denominator / 2 ^ exponent := by positivity
  rcases lt_trichotomy unit exponent with hless | rfl | hmore
  · -- The quotient is just below a power of two, and is rounded up to it.
    have hnormal : -1074 < exponent ∧ 2 ^ 52 ≤ significand := by omega
    have hlowest : (2 : ℚ) ^ 52 ≤ significand := by exact_mod_cast hnormal.2
    have hgrows : ∀ least : ℤ, least ≤ exponent - unit →
        (numerator / denominator / 2 ^ exponent : ℚ) * 2 ^ least < 2 ^ 53 := by
      intro least hleast
      refine lt_of_le_of_lt ?_ hhigh
      rw [hscaled (exponent - unit) (by omega)]
      exact mul_le_mul_of_nonneg_left (zpow_le_zpow_right₀ one_le_two hleast) hnonneg
    have hdouble := hgrows 1 (by omega)
    rw [zpow_one] at hdouble
    have hsame : significand = 2 ^ 52 := by
      refine le_antisymm (Nat.lt_succ_iff.mp ?_) hnormal.2
      rw [← Nat.cast_lt (α := ℚ)]
      push_cast
      linarith
    have habove := hpower hsame hnormal.1
    have hnext : unit = exponent - 1 := by
      by_contra hbelow
      have hfourfold := hgrows 2 (by omega)
      rw [zpow_ofNat] at hfourfold
      linarith
    have hnear : Nearest (numerator / denominator / 2 ^ unit) (2 ^ 53) := by
      rw [Nearest, if_pos (by decide), hscaled 1 (by omega), zpow_one]
      rw [hsame] at habove
      push_cast at habove ⊢
      constructor <;> linarith
    rw [hsame, show exponent = unit + 1 by omega, zpow_add_one₀ two_ne_zero]
    obtain ⟨hfinite, hmagnitude⟩ := ofQuotient_of_nearest negative hnumerator hdenominator hunit hnear
      (le_refl _) (by omega) (by omega)
    refine ⟨hfinite, hmagnitude.trans ?_⟩
    push_cast
    ring
  · exact ofQuotient_of_nearest negative hnumerator hdenominator hunit hnearest hsignificand.le
      hnormal (by omega)
  · -- A greater exponent would take a quotient beyond the interval.
    have hhalf : (2 : ℚ) ^ (exponent - unit) ≤ 2 ^ (-1 : ℤ) :=
      zpow_le_zpow_right₀ one_le_two (by omega)
    have hlarge : (2 : ℚ) ^ 52 ≤ numerator / denominator / 2 ^ exponent * 2 ^ (-1 : ℤ) := by
      refine (hlow.resolve_left (by omega)).trans ?_
      rw [hscaled (exponent - unit) (by omega)]
      exact mul_le_mul_of_nonneg_left hhalf hnonneg
    have hcast : (significand : ℚ) + 1 ≤ 2 ^ 53 := by exact_mod_cast hsignificand
    rw [zpow_neg_one] at hlarge
    linarith

end

/-! ### Arithmetic -/

section

variable {value x y : Binary64} (finite : value.isFinite = true) (hzero : value.isZero = false)
  (hx : 0 < x.magnitude) (hy : 0 < y.magnitude)
include finite hzero hx hy

/-- A product in the interval of a number is rounded to it. -/
theorem magnitude_mul_of_holds (h : (Interval.of value.significand value.exponent).Holds value.exponent
    (x.magnitude * y.magnitude)) : (x.mul y).magnitude = value.magnitude := by
  obtain ⟨hsignificand, hlimit, hnormal⟩ := significand_bounds finite
  rw [← cast_product] at h
  exact (ofQuotient_of_holds _
    (Nat.mul_pos (numerator_pos_of_magnitude hx) (numerator_pos_of_magnitude hy))
    (Nat.mul_pos x.denominator_pos y.denominator_pos) (significand_pos hzero) hsignificand hlimit
    hnormal h).2

/-- A quotient in the interval of a number is rounded to it. -/
theorem magnitude_div_of_holds (h : (Interval.of value.significand value.exponent).Holds value.exponent
    (x.magnitude / y.magnitude)) : (x.div y).magnitude = value.magnitude := by
  obtain ⟨hsignificand, hlimit, hnormal⟩ := significand_bounds finite
  rw [← cast_quotient] at h
  exact (ofQuotient_of_holds _
    (Nat.mul_pos (numerator_pos_of_magnitude hx) y.denominator_pos)
    (Nat.mul_pos x.denominator_pos (numerator_pos_of_magnitude hy)) (significand_pos hzero)
    hsignificand hlimit hnormal h).2

end

/-! ### Whole numbers -/

/-- Whole numbers up to `2 ^ 53` are rounded to themselves. -/
theorem ofQuotient_of_le (negative : Bool) {value : Nat} (h : value ≤ 2 ^ 53) :
    (ofQuotient negative value 1).isFinite = true ∧ (ofQuotient negative value 1).magnitude = value := by
  rcases Nat.eq_zero_or_pos value with rfl | hpos
  · rw [ofQuotient, if_pos rfl, magnitude_zero, Nat.cast_zero]
    exact ⟨(isFinite_ofSignBits_iff (by decide)).mpr (by decide), rfl⟩
  · obtain ⟨hleast, hhigh, hlow⟩ := exponentOf_spec hpos Nat.one_pos
    generalize hunit : exponentOf value 1 = unit at hleast hhigh hlow
    rw [Nat.cast_one, div_one] at hhigh hlow
    have hone : (0 : ℚ) < 2 ^ unit := by positivity
    have hcast : (value : ℚ) ≤ 2 ^ 53 := by exact_mod_cast h
    have hunitLe : unit ≤ 1 := by
      rcases hlow with rfl | hlow
      · decide
      · rw [le_div_iff₀ hone] at hlow
        have hsmall : (2 : ℚ) ^ unit ≤ 2 ^ (1 : ℤ) := by
          rw [zpow_one]
          linarith
        exact (zpow_le_zpow_iff_right₀ one_lt_two).mp hsmall
    obtain ⟨rounded, hrounded⟩ : ∃ rounded : Nat, (value : ℚ) / 2 ^ unit = rounded := by
      rcases le_or_gt unit 0 with hdown | hup
      · refine ⟨value * 2 ^ (-unit).toNat, ?_⟩
        push_cast
        rw [← zpow_natCast, Int.toNat_of_nonneg (by omega), zpow_neg, div_eq_mul_inv]
      · -- Only the greatest of these numbers has a unit greater than one.
        obtain rfl : unit = 1 := by omega
        have hlarge := (le_div_iff₀ hone).mp (hlow.resolve_left (by decide))
        obtain rfl : value = 2 ^ 53 := by
          refine le_antisymm h ?_
          rw [← Nat.cast_le (α := ℚ)]
          push_cast
          linarith
        exact ⟨2 ^ 52, by norm_num⟩
    have hvalue : (value : ℚ) = rounded * 2 ^ unit := (div_eq_iff hone.ne').mp hrounded
    rw [hrounded] at hhigh hlow
    have hbound : rounded < 2 ^ 53 := by exact_mod_cast hhigh
    have hnear : Nearest (value / (1 : Nat) / 2 ^ unit) rounded := by
      rw [Nat.cast_one, div_one, hrounded]
      exact nearest_of_lt (by linarith) (by linarith)
    have hnormal : unit = -1074 ∨ -1074 < unit ∧ 2 ^ 52 ≤ rounded := by
      rcases hlow with hlow | hlow
      · exact Or.inl hlow
      · have hcast : 2 ^ 52 ≤ rounded := by exact_mod_cast hlow
        omega
    obtain ⟨hfinite, hmagnitude⟩ :=
      ofQuotient_of_nearest negative hpos Nat.one_pos hunit hnear hbound.le hnormal (by omega)
    exact ⟨hfinite, hmagnitude.trans hvalue.symm⟩

theorem toRat_ofInt {value : ℤ} (h : value.natAbs ≤ 2 ^ 53) :
    (ofInt value).isFinite = true ∧ (ofInt value).toRat = value := by
  obtain ⟨hfinite, hmagnitude⟩ := ofQuotient_of_le (decide (value < 0)) h
  refine ⟨hfinite, ?_⟩
  rw [toRat, ofInt, isNegative_ofQuotient, hmagnitude, Nat.cast_natAbs, Int.cast_abs]
  by_cases hsign : value < 0
  · have hcast : (value : ℚ) < 0 := Int.cast_lt_zero.mpr hsign
    rw [if_pos (decide_eq_true hsign), abs_of_neg hcast, neg_neg]
  · have hcast : (0 : ℚ) ≤ value := by exact_mod_cast not_lt.mp hsign
    rw [if_neg (by simpa using hsign), abs_of_nonneg hcast]

/-- A whole number is found for the numbers that are whole. -/
theorem toRat_of_toInt? {x : Binary64} {whole : ℤ} (h : x.toInt? = some whole) :
    x.isFinite = true ∧ x.toRat = whole := by
  rw [toInt?] at h
  split at h
  · rename_i hchecks
    obtain ⟨hfinite, hdivides⟩ := Bool.and_eq_true_iff.mp hchecks
    obtain ⟨count, hcount⟩ := Nat.dvd_of_mod_eq_zero (beq_iff_eq.mp hdivides)
    have hpos : (x.denominator : ℚ) ≠ 0 := Nat.cast_ne_zero.mpr x.denominator_pos.ne'
    have hmagnitude : x.magnitude = count := by
      rw [magnitude_eq_div, hcount, Nat.cast_mul, mul_div_cancel_left₀ _ hpos]
    refine ⟨hfinite, ?_⟩
    rw [toRat, hmagnitude, ← Option.some.inj h, hcount, Nat.mul_div_cancel_left _ x.denominator_pos]
    cases x.isNegative <;> simp
  · cases h

theorem toInt?_of_magnitude {x : Binary64} (finite : x.isFinite = true) {whole : Nat}
    (h : x.magnitude = whole) : x.toInt? = some (if x.isNegative then -(whole : ℤ) else whole) := by
  have hpos : (x.denominator : ℚ) ≠ 0 := Nat.cast_ne_zero.mpr x.denominator_pos.ne'
  have hnumerator : x.numerator = whole * x.denominator := by
    rw [magnitude_eq_div, div_eq_iff hpos] at h
    exact_mod_cast h
  have hchecks : (true && 0 == 0) = true := rfl
  rw [toInt?, hnumerator, Nat.mul_mod_left, finite, if_pos hchecks,
    Nat.mul_div_cancel _ x.denominator_pos]

/-- It is found exactly for the finite numbers that are equal to it. -/
theorem toInt?_eq_some_iff (x : Binary64) (whole : ℤ) :
    x.toInt? = some whole ↔ x.isFinite = true ∧ x.toRat = whole := by
  constructor
  · exact toRat_of_toInt?
  · rintro ⟨hfinite, hvalue⟩
    have hmagnitude : x.magnitude = whole.natAbs := by
      rw [← abs_toRat, hvalue, Nat.cast_natAbs, Int.cast_abs]
    have hsigned : (if x.isNegative then -(whole.natAbs : ℤ) else whole.natAbs) = whole := by
      rw [toRat, hmagnitude] at hvalue
      split at hvalue
      · rename_i hnegative
        rw [if_pos hnegative]
        exact_mod_cast hvalue
      · rename_i hpositive
        rw [if_neg hpositive]
        exact Int.cast_injective (α := ℚ) ((Int.cast_natCast _).trans hvalue)
    rw [toInt?_of_magnitude hfinite hmagnitude, hsigned]

end WebToken.Binary64
