import WebToken.Json.Numeral
import WebToken.Proofs.Binary64

/-! Which numerals have a value. Scaling down always ends in a finite number. Scaling up rounds twice on
the way and once at the end, so that a product close below the largest finite number could be rounded to
an infinity; it cannot if two units of the last place are left. -/

namespace WebToken.Json

open Binary64 (finiteLimit)

theorem natCast_lt_finiteLimit {value : Nat} (h : value < (2 ^ 54 - 1) * 2 ^ 970) :
    (value : ℚ) < finiteLimit := by
  have hcast : (((2 ^ 54 - 1) * 2 ^ 970 : Nat) : ℚ) = finiteLimit := by
    rw [finiteLimit, Nat.cast_mul, Nat.cast_pow]
    congr 1
    norm_num
  rw [← hcast]
  exact Nat.cast_lt.mpr h

theorem lt_finiteLimit_of_le {value : ℚ} (h : value ≤ 2 ^ 970) : value < finiteLimit := by
  have hpos : (0 : ℚ) < 2 ^ 970 := by positivity
  rw [finiteLimit]
  generalize (2 : ℚ) ^ 970 = unit at *
  linarith

/-- A power of ten that can be a factor is off by at most a part in `2 ^ 53`. -/
theorem powerOfTen_bounds {power : Nat} (h : power ≤ 308) :
    (10 : ℚ) ^ power * (1 - 1 / 2 ^ 53) ≤ (powerOfTen power).magnitude ∧
      (powerOfTen power).magnitude ≤ 10 ^ power * (1 + 1 / 2 ^ 53) := by
  have hlimit : 10 ^ power < (2 ^ 54 - 1) * 2 ^ 970 :=
    lt_of_le_of_lt (Nat.pow_le_pow_right (by decide) h) (by decide +kernel)
  have hone : (1 : ℚ) ≤ 10 ^ power := one_le_pow₀ (by norm_num)
  have herror := (Binary64.ofNat_spec (natCast_lt_finiteLimit hlimit)).2
  push_cast at herror
  rw [max_eq_left hone, abs_sub_le_iff] at herror
  rw [powerOfTen, Nat.pow_eq]
  constructor <;> linarith

theorem half_le_powerOfTen {power : Nat} (h : power ≤ 308) :
    1 / 2 ≤ (powerOfTen power).magnitude := by
  have hone : (1 : ℚ) ≤ 10 ^ power := one_le_pow₀ (by norm_num)
  have hlow := (powerOfTen_bounds h).1
  linarith

/-- Dividing by a power of ten leaves less than twice as much. -/
theorem div_powerOfTen {value : Binary64} (hvalue : value.magnitude ≤ 2 ^ 65) {power : Nat}
    (h : power ≤ 308) :
    (value.div (powerOfTen power)).isFinite = true ∧
      (value.div (powerOfTen power)).magnitude ≤ 2 * (value.magnitude / (powerOfTen power).magnitude)
        + 1 := by
  have hhalf := half_le_powerOfTen h
  have hpos : 0 < (powerOfTen power).magnitude := by linarith
  have hquotient : value.magnitude / (powerOfTen power).magnitude ≤ 2 ^ 66 := by
    rw [div_le_iff₀ hpos]
    linarith
  have hlimit : value.magnitude / (powerOfTen power).magnitude < finiteLimit :=
    lt_finiteLimit_of_le (hquotient.trans (pow_le_pow_right₀ one_le_two (by decide)))
  have hnonneg : 0 ≤ value.magnitude / (powerOfTen power).magnitude :=
    div_nonneg value.magnitude_nonneg hpos.le
  obtain ⟨hfinite, herror⟩ := Binary64.div_spec hpos hlimit
  refine ⟨hfinite, ?_⟩
  have hhigh := (abs_sub_le_iff.mp herror).1
  have hmax : max (value.magnitude / (powerOfTen power).magnitude) 1 ≤
      value.magnitude / (powerOfTen power).magnitude + 1 := max_le (by linarith) (by linarith)
  linarith

/-- Scaling down ends in a finite number, in however many steps. -/
theorem scale_of_nonpos {value : Binary64} (hvalue : value.magnitude ≤ 2 ^ 65) {power : ℤ}
    (hpower : power ≤ 0) : ∃ result, scale value power = some result ∧ result.isFinite = true := by
  induction hsteps : (-power).toNat using Nat.strongRecOn generalizing value power with
  | ind steps ih =>
      rw [scale, if_neg (by omega)]
      by_cases hzero : 0 ≤ power
      · have hone : (powerOfTen power.toNat).magnitude ≤ 2 := by
          have hnone : power.toNat = 0 := by omega
          have hhigh := (powerOfTen_bounds (Nat.zero_le 308)).2
          rw [hnone]
          linarith
        have hfinite : (value.mul (powerOfTen power.toNat)).isFinite = true := by
          refine Binary64.mul_spec (lt_finiteLimit_of_le ?_)
          calc value.magnitude * (powerOfTen power.toNat).magnitude
              ≤ 2 ^ 65 * 2 := by
                gcongr
                exact Binary64.magnitude_nonneg _
            _ = 2 ^ 66 := by norm_num
            _ ≤ 2 ^ 970 := pow_le_pow_right₀ one_le_two (by decide)
        rw [if_pos hzero]
        exact ⟨_, if_pos hfinite, hfinite⟩
      rw [if_neg hzero]
      by_cases hlast : -308 ≤ power
      · rw [if_pos hlast]
        exact ⟨_, rfl, (div_powerOfTen hvalue (by omega)).1⟩
      rw [if_neg hlast]
      split
      · rename_i hnone
        exact ⟨value, rfl, Binary64.isFinite_of_isZero hnone⟩
      · -- A step divides by four at the least, which leaves room for its own rounding.
        have hten : (10 : ℚ) ≤ 10 ^ 308 := le_self_pow₀ (by norm_num) (by decide)
        have hfour : 4 ≤ (powerOfTen 308).magnitude := by
          have hlow := (powerOfTen_bounds (Nat.le_refl 308)).1
          generalize (10 : ℚ) ^ 308 = factor at *
          linarith
        have hquotient : value.magnitude / (powerOfTen 308).magnitude ≤ 2 ^ 63 := by
          rw [div_le_iff₀ (by linarith)]
          linarith
        have hhigh := (div_powerOfTen hvalue (Nat.le_refl 308)).2
        exact ih (-(power + 308)).toNat (by omega) (by linarith) (by omega) rfl

theorem ofNat_le {value : Nat} (hpos : 0 < value) (h : (value : ℚ) < finiteLimit) :
    (Binary64.ofNat value).magnitude ≤ value * (1 + 1 / 2 ^ 53) := by
  have hone : (1 : ℚ) ≤ value := Nat.one_le_cast.mpr hpos
  have herror := (abs_sub_le_iff.mp (Binary64.ofNat_spec h).2).1
  rw [max_eq_left hone] at herror
  linarith

/-- What numerals may be scaled up to: the largest finite number but two, and half a unit more. -/
def scaleLimit : ℚ := (2 ^ 54 - 5) * 2 ^ 970

theorem scaleLimit_lt_pow : scaleLimit < 10 ^ 309 := by
  have hlt : (2 ^ 54 - 5) * 2 ^ 970 < 10 ^ 309 := by decide +kernel
  have hcast : (((2 ^ 54 - 5) * 2 ^ 970 : Nat) : ℚ) = scaleLimit := by
    rw [scaleLimit, Nat.cast_mul, Nat.cast_pow]
    congr 1
    norm_num
  have hlt : (((2 ^ 54 - 5) * 2 ^ 970 : Nat) : ℚ) < (10 ^ 309 : Nat) := Nat.cast_lt.mpr hlt
  rwa [hcast, Nat.cast_pow, Nat.cast_ofNat] at hlt

theorem scaleLimit_lt : scaleLimit < finiteLimit := by
  have hpos : (0 : ℚ) < 2 ^ 970 := by positivity
  exact mul_lt_mul_of_pos_right (by norm_num) hpos

/-- Two more roundings do not lead from there to the limit of the finite numbers. -/
theorem scaleLimit_mul_lt : scaleLimit * (1 + 1 / 2 ^ 53) ^ 2 < finiteLimit := by
  have hpos : (0 : ℚ) < 2 ^ 970 := by positivity
  rw [scaleLimit, finiteLimit, mul_right_comm]
  exact mul_lt_mul_of_pos_right (by norm_num) hpos

theorem scale_zero (power : ℕ) :
    ∃ result, scale (.ofNat 0) power = some result ∧ result.isFinite = true := by
  have hzero : Binary64.ofNat 0 = .zero false := rfl
  rw [scale, hzero]
  split
  · exact ⟨_, if_pos (by decide), by decide⟩
  · have hfinite : ((Binary64.zero false).mul (powerOfTen (power : ℤ).toNat)).isFinite = true := by
      apply Binary64.mul_spec
      rw [Binary64.magnitude_zero, zero_mul]
      exact lt_finiteLimit_of_le (by positivity)
    rw [if_pos (Int.natCast_nonneg power)]
    exact ⟨_, if_pos hfinite, hfinite⟩

/-- Scaling up ends in a finite number, if two units of the last place are left to the largest. -/
theorem scale_of_le {significand : Nat} {power : ℕ}
    (h : (significand : ℚ) * 10 ^ power ≤ scaleLimit) :
    ∃ result, scale (.ofNat significand) power = some result ∧ result.isFinite = true := by
  have hten : (1 : ℚ) ≤ 10 ^ power := one_le_pow₀ (by norm_num)
  rcases Nat.eq_zero_or_pos significand with rfl | hpos
  · exact scale_zero power
  · have hone : (1 : ℚ) ≤ significand := Nat.one_le_cast.mpr hpos
    have hpower : power ≤ 308 := by
      by_contra hbeyond
      refine absurd scaleLimit_lt_pow (not_lt_of_ge ?_)
      calc (10 : ℚ) ^ 309
          ≤ 10 ^ power := pow_le_pow_right₀ (by norm_num) (by omega)
        _ ≤ significand * 10 ^ power := le_mul_of_one_le_left (by positivity) hone
        _ ≤ scaleLimit := h
    have hsmall : (significand : ℚ) ≤ significand * 10 ^ power :=
      le_mul_of_one_le_right (by positivity) hten
    have hfactor := ofNat_le hpos ((hsmall.trans h).trans_lt scaleLimit_lt)
    have hfinite : ((Binary64.ofNat significand).mul (powerOfTen power)).isFinite = true := by
      apply Binary64.mul_spec
      calc (Binary64.ofNat significand).magnitude * (powerOfTen power).magnitude
          ≤ significand * (1 + 1 / 2 ^ 53) * (10 ^ power * (1 + 1 / 2 ^ 53)) := by
            gcongr
            · exact Binary64.magnitude_nonneg _
            · exact (powerOfTen_bounds hpower).2
        _ = significand * 10 ^ power * (1 + 1 / 2 ^ 53) ^ 2 := by ring
        _ ≤ scaleLimit * (1 + 1 / 2 ^ 53) ^ 2 := by gcongr
        _ < finiteLimit := scaleLimit_mul_lt
    rw [scale, if_neg (by omega), if_pos (by omega)]
    exact ⟨_, if_pos hfinite, hfinite⟩

/-- A numeral whose significand fits 64 bits has a value if it is scaled down, or up to less than the
largest finite number. -/
theorem exists_scaledNumber (negative : Bool) {significand : Nat} (hsignificand : significand < 2 ^ 64)
    {power : ℤ} (h : power ≤ 0 ∨ (significand : ℚ) * 10 ^ power ≤ scaleLimit) :
    ∃ number, scaledNumber negative significand power = some number := by
  have hscaled : ∃ result, scale (.ofNat significand) power = some result ∧
      result.isFinite = true := by
    rcases le_or_gt power 0 with hdown | hup
    · have hvalue : (significand : ℚ) ≤ 2 ^ 64 := by exact_mod_cast hsignificand.le
      have hmax : max (significand : ℚ) 1 ≤ 2 ^ 64 := max_le hvalue (by norm_num)
      have hlimit : (significand : ℚ) < finiteLimit :=
        lt_finiteLimit_of_le (hvalue.trans (pow_le_pow_right₀ one_le_two (by decide)))
      have hhigh := (abs_sub_le_iff.mp (Binary64.ofNat_spec hlimit).2).1
      exact scale_of_nonpos (by linarith) hdown
    · obtain ⟨power, rfl⟩ := Int.eq_ofNat_of_zero_le hup.le
      refine scale_of_le (h.elim (fun hdown => absurd hdown (not_le_of_gt hup)) ?_)
      rw [zpow_natCast]
      exact id
  obtain ⟨result, hresult, hfinite⟩ := hscaled
  rw [scaledNumber, hresult, Option.bind_some, signed]
  cases negative with
  | false => exact ⟨_, dif_pos hfinite⟩
  | true => exact ⟨_, dif_pos ((Binary64.isFinite_neg result).trans hfinite)⟩

end WebToken.Json
