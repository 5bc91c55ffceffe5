import WebToken.Proofs.Json.Scaling
import WebToken.Proofs.Nearest

/-! How far scaling goes. Each step is off by a part in `2 ^ 53` for each of its operands and one for its own
rounding, or by half the least number where the result is subnormal; and there are two steps at most. -/

namespace WebToken

namespace Binary64

/-- A number that is off by so many parts in `2 ^ 53` of what it stands for, and a rest, at most. -/
def Near (parts rest : ℚ) (x : Binary64) (target : ℚ) : Prop :=
  |x.magnitude - target| ≤ parts * (target / 2 ^ 53) + rest

theorem near_ofNat {value : Nat} (h : (value : ℚ) < finiteLimit) : Near 1 0 (ofNat value) value := by
  rw [Near, one_mul, add_zero]
  rcases Nat.eq_zero_or_pos value with rfl | hpos
  · have hexact := (ofQuotient_of_le false (Nat.zero_le (2 ^ 53))).2
    rw [ofNat, hexact]
    simp
  · have hone : (1 : ℚ) ≤ value := Nat.one_le_cast.mpr hpos
    have herror := (ofNat_spec h).2
    rwa [max_eq_left hone] at herror

/-- Whole numbers of 57 bits are rounded in steps of at most sixteen. -/
theorem abs_ofNat_sub_le {value : Nat} (h : value < 2 ^ 57) :
    |(ofNat value).magnitude - value| ≤ 8 := by
  have hvalue : (value : ℚ) < 2 ^ 57 := by exact_mod_cast h
  have hlimit : (value : ℚ) < finiteLimit :=
    Json.lt_finiteLimit_of_le (hvalue.le.trans (pow_le_pow_right₀ one_le_two (by decide)))
  obtain ⟨unit, _, hunit, herror⟩ := exists_unit Nat.one_pos (ofNat_spec hlimit).1
  rw [Nat.cast_one, div_one] at hunit herror
  refine herror.trans ?_
  have hsmall : (2 : ℚ) ^ unit ≤ 2 ^ (4 : ℤ) := by
    refine zpow_le_zpow_right₀ one_le_two ?_
    rcases hunit with rfl | hunit
    · decide
    · have hpower : (2 : ℚ) ^ unit < 2 ^ (5 : ℤ) := by
        have hfive : (2 : ℚ) ^ (5 : ℤ) = 32 := by norm_num
        rw [hfive]
        linarith
      have hless := (zpow_lt_zpow_iff_right₀ one_lt_two).mp hpower
      omega
  have hfour : (2 : ℚ) ^ (4 : ℤ) = 16 := by norm_num
  rw [hfour] at hsmall
  linarith

section

variable {x y : Binary64} {parts rest target factor : ℚ}

/-- A factor that is nearly exact lies between these bounds. -/
theorem Near.factor_bounds (h : Near 1 0 y factor) :
    factor * (1 - 1 / 2 ^ 53) ≤ y.magnitude ∧ y.magnitude ≤ factor * (1 + 1 / 2 ^ 53) := by
  rw [Near, abs_sub_le_iff] at h
  constructor <;> linarith [h.1, h.2]

/-- What is computed from two operands is off by a part for the second, and by another one once it is
rounded, or by half the least number if it is small. A twentieth of a part in each covers the products of
these errors. -/
theorem Near.rounded {exact : ℚ} (hparts : 0 ≤ parts ∧ parts ≤ 8) (htarget : 0 ≤ target)
    (hrest : 0 ≤ rest) (hexact : |exact - target| ≤ (parts + 21 / 20) * (target / 2 ^ 53) + rest)
    (herror : |x.magnitude - exact| ≤ max exact (2 ^ (-1022 : ℤ)) / 2 ^ 53) :
    Near (parts + 21 / 10) (rest * (101 / 100) + 2 ^ (-1075 : ℤ)) x target := by
  have hleast : (2 : ℚ) ^ (-1022 : ℤ) = 2 ^ (-1075 : ℤ) * 2 ^ 53 := by
    rw [← zpow_natCast, ← zpow_add₀ two_ne_zero]
    norm_num
  have hsmall : (0 : ℚ) < 2 ^ (-1075 : ℤ) := by positivity
  rw [hleast] at herror
  generalize (2 : ℚ) ^ (-1075 : ℤ) = least at herror hsmall ⊢
  generalize hpart : target / 2 ^ 53 = part at hexact
  have htargetEq : target = part * 2 ^ 53 := by
    rw [← hpart]
    ring
  have hpartNonneg : 0 ≤ part := by
    rw [← hpart]
    positivity
  have hall : parts * part ≤ 8 * part := mul_le_mul_of_nonneg_right hparts.2 hpartNonneg
  have hnone : 0 ≤ parts * part := mul_nonneg hparts.1 hpartNonneg
  have hmax : max exact (least * 2 ^ 53) ≤
      target + ((parts + 21 / 20) * part + rest) + least * 2 ^ 53 := by
    have hupper := (abs_sub_le_iff.mp hexact).1
    apply max_le
    · linarith
    · linarith [mul_nonneg hpartNonneg (by norm_num : (0 : ℚ) ≤ 2 ^ 53)]
  rw [Near, hpart]
  calc |x.magnitude - target|
      ≤ |x.magnitude - exact| + |exact - target| := abs_sub_le _ _ _
    _ ≤ max exact (least * 2 ^ 53) / 2 ^ 53 + ((parts + 21 / 20) * part + rest) :=
        add_le_add herror hexact
    _ ≤ (target + ((parts + 21 / 20) * part + rest) + least * 2 ^ 53) / 2 ^ 53 +
        ((parts + 21 / 20) * part + rest) := by
          gcongr
    _ ≤ (parts + 21 / 10) * part + (rest * (101 / 100) + least) := by
        rw [htargetEq]
        linarith

/-- A product of what is near with a factor that is nearly exact. -/
theorem Near.mul (hx : Near parts 0 x target) (hparts : 0 ≤ parts ∧ parts ≤ 8) (htarget : 0 ≤ target)
    (hy : Near 1 0 y factor) (hfactor : 0 ≤ factor) (hfinite : (x.mul y).isFinite = true) :
    Near (parts + 21 / 10) (2 ^ (-1075 : ℤ)) (x.mul y) (target * factor) := by
  obtain ⟨_, hhigh⟩ := hy.factor_bounds
  rw [Near, add_zero] at hx
  rw [Near, one_mul, add_zero] at hy
  have hproduct : |x.magnitude * y.magnitude - target * factor| ≤
      (parts + 21 / 20) * (target * factor / 2 ^ 53) + 0 := by
    have hpart : 0 ≤ target * factor / 2 ^ 53 := by positivity
    have hall : parts * (target * factor / 2 ^ 53) ≤ 8 * (target * factor / 2 ^ 53) :=
      mul_le_mul_of_nonneg_right hparts.2 hpart
    calc |x.magnitude * y.magnitude - target * factor|
        = |(x.magnitude - target) * y.magnitude + target * (y.magnitude - factor)| := by
          congr 1
          ring
      _ ≤ |x.magnitude - target| * y.magnitude + target * |y.magnitude - factor| := by
          refine (abs_add_le _ _).trans_eq ?_
          rw [abs_mul, abs_mul, abs_of_nonneg y.magnitude_nonneg, abs_of_nonneg htarget]
      _ ≤ parts * (target / 2 ^ 53) * (factor * (1 + 1 / 2 ^ 53)) + target * (factor / 2 ^ 53) := by
          have hbound : 0 ≤ parts * (target / 2 ^ 53) := mul_nonneg hparts.1 (by positivity)
          exact add_le_add (mul_le_mul hx hhigh y.magnitude_nonneg hbound)
            (mul_le_mul_of_nonneg_left hy htarget)
      _ = parts * (target * factor / 2 ^ 53) * (1 + 1 / 2 ^ 53) + target * factor / 2 ^ 53 := by
          ring
      _ ≤ (parts + 21 / 20) * (target * factor / 2 ^ 53) + 0 := by linarith
  have hnear := Near.rounded hparts (mul_nonneg htarget hfactor) le_rfl hproduct (mul_error hfinite)
  rwa [zero_mul, zero_add] at hnear

/-- A quotient of what is near by a divisor that is nearly exact. The rest shrinks with it. -/
theorem Near.div (hx : Near parts rest x target) (hparts : 0 ≤ parts ∧ parts ≤ 8)
    (htarget : 0 ≤ target) (hrest : 0 ≤ rest) (hy : Near 1 0 y factor) (hfactor : 10 ≤ factor)
    (hfinite : (x.div y).isFinite = true) :
    Near (parts + 21 / 10) (rest / 5 + 2 ^ (-1075 : ℤ)) (x.div y) (target / factor) := by
  obtain ⟨hlow, _⟩ := hy.factor_bounds
  have hpos : 0 < y.magnitude := by linarith
  have hfactorPos : 0 < factor := by linarith
  rw [Near] at hx
  rw [Near, one_mul, add_zero] at hy
  have hinverse : 1 / y.magnitude ≤ 1 / factor * (1 + 1 / 2 ^ 52) := by
    rw [div_mul_eq_mul_div, one_mul, div_le_div_iff₀ hpos hfactorPos, one_mul]
    linarith
  have hpart : 0 ≤ target / factor / 2 ^ 53 := by positivity
  have hall : parts * (target / factor / 2 ^ 53) ≤ 8 * (target / factor / 2 ^ 53) :=
    mul_le_mul_of_nonneg_right hparts.2 hpart
  have htenth : rest / factor ≤ rest / 10 := div_le_div_of_nonneg_left hrest (by norm_num) hfactor
  have hquotient : |x.magnitude / y.magnitude - target / factor| ≤
      (parts + 21 / 20) * (target / factor / 2 ^ 53) + rest / 6 := by
    have hsum : 0 ≤ parts * (target / 2 ^ 53) + rest + target / 2 ^ 53 :=
      add_nonneg (add_nonneg (mul_nonneg hparts.1 (by positivity)) hrest) (by positivity)
    calc |x.magnitude / y.magnitude - target / factor|
        = |((x.magnitude - target) + target / factor * (factor - y.magnitude)) *
            (1 / y.magnitude)| := by
          congr 1
          field_simp
          ring
      _ = |(x.magnitude - target) + target / factor * (factor - y.magnitude)| *
            (1 / y.magnitude) := by
          rw [abs_mul, abs_of_pos (one_div_pos.mpr hpos)]
      _ ≤ (parts * (target / 2 ^ 53) + rest + target / 2 ^ 53) * (1 / y.magnitude) := by
          refine mul_le_mul_of_nonneg_right ?_ (one_div_pos.mpr hpos).le
          refine (abs_add_le _ _).trans (add_le_add hx ?_)
          rw [abs_mul, abs_sub_comm, abs_of_nonneg (by positivity)]
          calc target / factor * |y.magnitude - factor|
              ≤ target / factor * (factor / 2 ^ 53) := by gcongr
            _ = target / 2 ^ 53 := by field_simp
      _ ≤ (parts * (target / 2 ^ 53) + rest + target / 2 ^ 53) * (1 / factor * (1 + 1 / 2 ^ 52)) :=
          mul_le_mul_of_nonneg_left hinverse hsum
      _ = (parts * (target / factor / 2 ^ 53) + rest / factor + target / factor / 2 ^ 53) *
            (1 + 1 / 2 ^ 52) := by
          ring
      _ ≤ (parts + 21 / 20) * (target / factor / 2 ^ 53) + rest / 6 := by linarith
  have hnear := Near.rounded hparts (by positivity) (by positivity) hquotient (div_error hpos hfinite)
  rw [Near] at hnear ⊢
  linarith

theorem Near.mono {most all : ℚ} (h : Near parts rest x target) (htarget : 0 ≤ target)
    (hparts : parts ≤ most) (hrest : rest ≤ all) : Near most all x target := by
  rw [Near] at h ⊢
  refine h.trans ?_
  gcongr

end

theorem isNegative_mul (x y : Binary64) :
    (x.mul y).isNegative = (x.isNegative != y.isNegative) :=
  isNegative_ofQuotient _ _ _

theorem isNegative_div (x y : Binary64) :
    (x.div y).isNegative = (x.isNegative != y.isNegative) :=
  isNegative_ofQuotient _ _ _

theorem isNegative_ofNat (value : Nat) : (ofNat value).isNegative = false :=
  isNegative_ofQuotient _ _ _

end Binary64

namespace Json

open Binary64 (Near finiteLimit)

/-! ### Steps -/

theorem near_powerOfTen {power : Nat} (h : power ≤ 308) : Near 1 0 (powerOfTen power) (10 ^ power) := by
  obtain ⟨hlow, hhigh⟩ := powerOfTen_bounds h
  rw [Near, abs_sub_le_iff]
  constructor <;> linarith

section

variable {value result : Binary64}

theorem scale_of_nonneg {power : Nat} (h : power ≤ 308) (hscale : scale value power = some result) :
    result = value.mul (powerOfTen power) ∧ result.isFinite = true := by
  rw [scale, if_neg (by omega), if_pos (by omega), Int.toNat_natCast] at hscale
  dsimp only at hscale
  split at hscale
  · rename_i hfinite
    rw [← Option.some.inj hscale]
    exact ⟨rfl, hfinite⟩
  · cases hscale

theorem scale_of_neg {power : Nat} (hpos : 0 < power) (h : power ≤ 308) :
    scale value (-power) = some (value.div (powerOfTen power)) := by
  rw [scale, if_neg (by omega), if_neg (by omega), if_pos (by omega), neg_neg, Int.toNat_natCast]

theorem scale_far {power : ℤ} (h : power < -308) (hvalue : value.isZero = false) :
    scale value power = scale (value.div (powerOfTen 308)) (power + 308) := by
  rw [scale, if_neg (by omega), if_neg (by omega), if_neg (by omega), if_neg (by simp [hvalue])]

end

theorem near_significand {significand : Nat} (h : significand < 2 ^ 64) :
    Near 1 0 (.ofNat significand) significand ∧ (Binary64.ofNat significand).magnitude ≤ 2 ^ 65 := by
  have hvalue : (significand : ℚ) ≤ 2 ^ 64 := by exact_mod_cast h.le
  have hnear := Binary64.near_ofNat
    (lt_finiteLimit_of_le (hvalue.trans (pow_le_pow_right₀ one_le_two (by decide))))
  have hhigh := hnear.factor_bounds.2
  exact ⟨hnear, by linarith⟩

/-- What scaling ends in: a finite number without a sign, near to the decimal. Of the parts one is that of
the significand, and each of two steps adds two. -/
structure Scaled (target : ℚ) (result : Binary64) : Prop where
  finite : result.isFinite = true
  positive : result.isNegative = false
  near : Near (26 / 5) (6 / 5 * 2 ^ (-1075 : ℤ)) result target

theorem mul_zpow_neg_natCast (target : ℚ) (power : Nat) :
    target * 10 ^ (-(power : ℤ)) = target / 10 ^ power := by
  rw [zpow_neg, zpow_natCast, div_eq_mul_inv]

theorem ten_le_pow {power : Nat} (h : 0 < power) : (10 : ℚ) ≤ 10 ^ power :=
  le_self_pow₀ (by norm_num) h.ne'

section

variable {significand : Nat} (hsignificand : significand < 2 ^ 64) {power : Nat} {result : Binary64}
include hsignificand

theorem scaled_of_nonneg (hpower : power ≤ 308)
    (h : scale (.ofNat significand) power = some result) :
    Scaled (significand * 10 ^ power) result := by
  obtain ⟨hnear, _⟩ := near_significand hsignificand
  obtain ⟨rfl, hfinite⟩ := scale_of_nonneg hpower h
  have hproduct := hnear.mul (by norm_num) (Nat.cast_nonneg _) (near_powerOfTen hpower)
    (by positivity) hfinite
  refine ⟨hfinite, Binary64.isNegative_mul _ _ |>.trans ?_, ?_⟩
  · rw [powerOfTen, Binary64.isNegative_ofNat, Binary64.isNegative_ofNat]
    rfl
  · refine hproduct.mono (by positivity) (by norm_num) ?_
    have hleast : (0 : ℚ) ≤ 2 ^ (-1075 : ℤ) := by positivity
    linarith

theorem scaled_of_neg (hpos : 0 < power) (hpower : power ≤ 308)
    (h : scale (.ofNat significand) (-power) = some result) :
    Scaled (significand / 10 ^ power) result := by
  obtain ⟨hnear, hvalue⟩ := near_significand hsignificand
  rw [scale_of_neg hpos hpower] at h
  cases h
  have hfinite := (div_powerOfTen hvalue hpower).1
  have hquotient := hnear.div (by norm_num) (Nat.cast_nonneg _) le_rfl (near_powerOfTen hpower)
    (ten_le_pow hpos) hfinite
  refine ⟨hfinite, Binary64.isNegative_div _ _ |>.trans ?_, ?_⟩
  · rw [powerOfTen, Binary64.isNegative_ofNat, Binary64.isNegative_ofNat]
    rfl
  · refine hquotient.mono (by positivity) (by norm_num) ?_
    have hleast : (0 : ℚ) ≤ 2 ^ (-1075 : ℤ) := by positivity
    linarith

/-- Beyond `10 ^ -308` there are two divisions, of which the second divides the rest of the first. -/
theorem scaled_of_far (hpos : 0 < power) (hpower : power ≤ 308)
    (h : scale (.ofNat significand) (-(308 + power : Nat)) = some result) :
    Scaled (significand / 10 ^ (308 + power)) result := by
  obtain ⟨hnear, hvalue⟩ := near_significand hsignificand
  have hleast : (0 : ℚ) ≤ 2 ^ (-1075 : ℤ) := by positivity
  cases hzero : (Binary64.ofNat significand).isZero with
  | true =>
      rw [scale, if_neg (by omega), if_neg (by omega), if_neg (by omega), if_pos hzero] at h
      cases h
      have hlow := hnear.factor_bounds.1
      rw [Binary64.magnitude_of_isZero hzero] at hlow
      have hnone : (significand : ℚ) = 0 := by linarith [significand.cast_nonneg (α := ℚ)]
      refine ⟨Binary64.isFinite_of_isZero hzero, Binary64.isNegative_ofNat _, ?_⟩
      rw [Near, Binary64.magnitude_of_isZero hzero, hnone, zero_div, sub_zero, abs_zero, zero_div,
        mul_zero, zero_add]
      positivity
  | false =>
      have hsplit : -((308 + power : Nat) : ℤ) + 308 = -(power : ℤ) := by omega
      rw [scale_far (by omega) hzero, hsplit, scale_of_neg hpos hpower] at h
      cases h
      have hfirst := (div_powerOfTen hvalue (Nat.le_refl 308)).1
      have hmiddle := hnear.div (by norm_num) (Nat.cast_nonneg _) le_rfl
        (near_powerOfTen (Nat.le_refl 308)) (ten_le_pow (by decide)) hfirst
      have hbound : ((Binary64.ofNat significand).div (powerOfTen 308)).magnitude ≤ 2 ^ 65 := by
        have hsmall : (significand : ℚ) / 10 ^ 308 ≤ 2 ^ 64 :=
          (div_le_self (Nat.cast_nonneg _) (one_le_pow₀ (by norm_num))).trans
            (by exact_mod_cast hsignificand.le)
        have hone : (2 : ℚ) ^ (-1075 : ℤ) ≤ 1 := zpow_le_one_of_nonpos₀ one_le_two (by decide)
        have hupper := (abs_sub_le_iff.mp hmiddle).1
        generalize (significand : ℚ) / 10 ^ 308 = target at hsmall hupper
        generalize (2 : ℚ) ^ (-1075 : ℤ) = least at hone hupper
        linarith
      have hfinite := (div_powerOfTen hbound hpower).1
      have hlast := hmiddle.div (by norm_num) (by positivity) (by positivity)
        (near_powerOfTen hpower) (ten_le_pow hpos) hfinite
      refine ⟨hfinite, Binary64.isNegative_div _ _ |>.trans ?_, ?_⟩
      · rw [Binary64.isNegative_div, powerOfTen, powerOfTen, Binary64.isNegative_ofNat,
          Binary64.isNegative_ofNat, Binary64.isNegative_ofNat]
        rfl
      · rw [pow_add, ← div_div]
        refine hlast.mono (by positivity) (by norm_num) ?_
        linarith

end

theorem scaled_of_scale {significand : Nat} (hsignificand : significand < 2 ^ 64) {power : ℤ}
    (hpower : -616 ≤ power ∧ power ≤ 308) {result : Binary64}
    (h : scale (.ofNat significand) power = some result) :
    Scaled (significand * 10 ^ power) result := by
  obtain ⟨count, rfl⟩ | ⟨count, hpos, hlast, rfl⟩ | ⟨count, hpos, rfl⟩ :
      (∃ count : Nat, power = count) ∨
        (∃ count : Nat, 0 < count ∧ count ≤ 308 ∧ power = -(count : ℤ)) ∨
        ∃ count : Nat, 0 < count ∧ power = -((308 + count : Nat) : ℤ) := by
    rcases le_or_gt 0 power with hup | hdown
    · exact Or.inl ⟨power.toNat, by omega⟩
    · rcases le_or_gt (-308) power with hlast | hfar
      · exact Or.inr (Or.inl ⟨power.natAbs, by omega, by omega, by omega⟩)
      · exact Or.inr (Or.inr ⟨power.natAbs - 308, by omega, by omega⟩)
  · rw [zpow_natCast]
    exact scaled_of_nonneg hsignificand (by omega) h
  · rw [mul_zpow_neg_natCast]
    exact scaled_of_neg hsignificand hpos hlast h
  · rw [mul_zpow_neg_natCast]
    exact scaled_of_far hsignificand hpos (by omega) h

end Json

end WebToken
