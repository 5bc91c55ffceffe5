import WebToken.Number.Shortest
import WebToken.Proofs.Binary64

/-! The shortest decimal for a binary number lies among the numbers that round to it. It is the point of
the coarsest grid that has one there, so that its digits are few; and where the number itself is on that
grid it is the number. -/

namespace WebToken.Decimal

/-- The number that a decimal stands for. -/
def value (decimal : Decimal) : ℚ :=
  decimal.digits * 10 ^ decimal.exponent

namespace Interval

/-- Whether a number lies in the interval. -/
def Holds (interval : Interval) (exponent : ℤ) (x : ℚ) : Prop :=
  if interval.closed then
    interval.low * 2 ^ (exponent - 2) ≤ x ∧ x ≤ interval.high * 2 ^ (exponent - 2)
  else interval.low * 2 ^ (exponent - 2) < x ∧ x < interval.high * 2 ^ (exponent - 2)

variable {interval : Interval} {exponent : ℤ} {x : ℚ}

theorem Holds.bounds (h : interval.Holds exponent x) :
    interval.low * 2 ^ (exponent - 2) ≤ x ∧ x ≤ interval.high * 2 ^ (exponent - 2) := by
  rw [Holds] at h
  split at h
  · exact h
  · exact ⟨h.1.le, h.2.le⟩

theorem holds_of_lt (hlow : interval.low * 2 ^ (exponent - 2) < x)
    (hhigh : x < interval.high * 2 ^ (exponent - 2)) : interval.Holds exponent x := by
  rw [Holds]
  split
  · exact ⟨hlow.le, hhigh.le⟩
  · exact ⟨hlow, hhigh⟩

theorem cast_high (significand : Nat) (exponent : ℤ) :
    ((Interval.of significand exponent).high : ℚ) * 2 ^ (exponent - 2) =
      (significand + 1 / 2) * 2 ^ exponent := by
  rw [zpow_sub₀ two_ne_zero]
  simp only [Interval.of]
  push_cast
  ring

theorem cast_centre (significand : Nat) (exponent : ℤ) :
    ((Interval.of significand exponent).centre : ℚ) * 2 ^ (exponent - 2) =
      significand * 2 ^ exponent := by
  rw [zpow_sub₀ two_ne_zero]
  simp only [Interval.of]
  push_cast
  ring

theorem low_bounds {significand : Nat} (hpos : 0 < significand) (exponent : ℤ) :
    4 * significand ≤ (Interval.of significand exponent).low + 2 ∧
      (Interval.of significand exponent).low < 4 * significand ∧
      0 < (Interval.of significand exponent).low := by
  simp only [Interval.of]
  split <;> omega

end Interval

/-! ### Grids -/

section

variable (exponent power : ℤ)

/-- Quarters of the unit, in units of which the points of the grid are whole. -/
def quarter : Nat :=
  Nat.pow 10 (-power).toNat <<< (exponent - 2).toNat

/-- The step of the grid, in the same units. -/
def step : Nat :=
  Nat.pow 10 power.toNat <<< (2 - exponent).toNat

/-- Both are whole multiples of one number. -/
theorem exists_common :
    ∃ common : ℚ, 0 < common ∧ (quarter exponent power : ℚ) = common * 2 ^ (exponent - 2) ∧
      (step exponent power : ℚ) = common * 10 ^ power := by
  have hneg : 2 - exponent = -(exponent - 2) := by omega
  refine ⟨10 ^ (-power).toNat * 2 ^ (2 - exponent).toNat, by positivity, ?_, ?_⟩
  · rw [quarter, Nat.shiftLeft_eq, Nat.pow_eq, zpow_eq_div two_ne_zero, hneg]
    push_cast
    field_simp
  · rw [step, Nat.shiftLeft_eq, Nat.pow_eq, zpow_eq_div (by norm_num)]
    push_cast
    field_simp

theorem step_pos : 0 < step exponent power := by
  rw [step, Nat.shiftLeft_eq, Nat.pow_eq]
  positivity

variable {exponent power} {count point : Nat}

theorem mul_quarter_le_iff : count * quarter exponent power ≤ point * step exponent power ↔
    (count : ℚ) * 2 ^ (exponent - 2) ≤ point * 10 ^ power := by
  obtain ⟨common, hpos, hquarter, hstep⟩ := exists_common exponent power
  rw [← Nat.cast_le (α := ℚ), Nat.cast_mul, Nat.cast_mul, hquarter, hstep, mul_left_comm,
    mul_left_comm (point : ℚ), mul_le_mul_iff_right₀ hpos]

theorem le_mul_quarter_iff : point * step exponent power ≤ count * quarter exponent power ↔
    (point : ℚ) * 10 ^ power ≤ count * 2 ^ (exponent - 2) := by
  obtain ⟨common, hpos, hquarter, hstep⟩ := exists_common exponent power
  rw [← Nat.cast_le (α := ℚ), Nat.cast_mul, Nat.cast_mul, hquarter, hstep, mul_left_comm,
    mul_left_comm (count : ℚ), mul_le_mul_iff_right₀ hpos]

theorem mul_quarter_lt_iff : count * quarter exponent power < point * step exponent power ↔
    (count : ℚ) * 2 ^ (exponent - 2) < point * 10 ^ power := by
  rw [← not_le, le_mul_quarter_iff, not_le]

theorem lt_mul_quarter_iff : point * step exponent power < count * quarter exponent power ↔
    (point : ℚ) * 10 ^ power < count * 2 ^ (exponent - 2) := by
  rw [← not_le, mul_quarter_le_iff, not_le]

/-- Whether a point of the grid lies in the interval, as it is computed. -/
def contains (interval : Interval) (exponent power : ℤ) (point : Nat) : Bool :=
  if interval.closed then
    interval.low * quarter exponent power ≤ point * step exponent power &&
      point * step exponent power ≤ interval.high * quarter exponent power
  else interval.low * quarter exponent power < point * step exponent power &&
    point * step exponent power < interval.high * quarter exponent power

theorem contains_iff {interval : Interval} :
    contains interval exponent power point = true ↔ interval.Holds exponent (point * 10 ^ power) := by
  rw [contains, Interval.Holds]
  split
  · rw [Bool.and_eq_true, decide_eq_true_eq, decide_eq_true_eq, mul_quarter_le_iff, le_mul_quarter_iff]
  · rw [Bool.and_eq_true, decide_eq_true_eq, decide_eq_true_eq, mul_quarter_lt_iff, lt_mul_quarter_iff]

variable {interval : Interval}

/-- The last point of the grid up to the centre of the interval. -/
def below (interval : Interval) (exponent power : ℤ) : Nat :=
  interval.centre * quarter exponent power / step exponent power

theorem below_le : (below interval exponent power : ℚ) * 10 ^ power ≤
    interval.centre * 2 ^ (exponent - 2) := by
  rw [← le_mul_quarter_iff]
  exact Nat.div_mul_le_self _ _

theorem lt_above : (interval.centre : ℚ) * 2 ^ (exponent - 2) <
    (below interval exponent power + 1 : Nat) * 10 ^ power := by
  rw [← mul_quarter_lt_iff]
  exact Nat.lt_mul_of_div_lt (Nat.lt_succ_self _) (step_pos exponent power)

/-- Whether the point below the centre is preferred to the one above, if both lie in the interval. -/
def PrefersBelow (interval : Interval) (exponent power : ℤ) : Prop :=
  interval.centre * quarter exponent power - below interval exponent power * step exponent power <
      (below interval exponent power + 1) * step exponent power -
        interval.centre * quarter exponent power ∨
    interval.centre * quarter exponent power - below interval exponent power * step exponent power =
        (below interval exponent power + 1) * step exponent power -
          interval.centre * quarter exponent power ∧
      below interval exponent power % 2 = 0

instance : Decidable (PrefersBelow interval exponent power) := inferInstanceAs (Decidable (_ ∨ _))

theorem pointOn?_eq : pointOn? interval exponent power =
    match contains interval exponent power (below interval exponent power),
      contains interval exponent power (below interval exponent power + 1) with
    | false, false => none
    | true, false => some (below interval exponent power)
    | false, true => some (below interval exponent power + 1)
    | true, true =>
        if PrefersBelow interval exponent power then some (below interval exponent power)
        else some (below interval exponent power + 1) := rfl

/-- A point that is found lies in the interval. -/
theorem holds_of_pointOn? (h : pointOn? interval exponent power = some point) :
    interval.Holds exponent (point * 10 ^ power) := by
  have hcontains : ∀ candidate, contains interval exponent power candidate = true →
      some candidate = some point → interval.Holds exponent (point * 10 ^ power) := by
    intro candidate hcandidate hsame
    cases hsame
    exact contains_iff.mp hcandidate
  rw [pointOn?_eq] at h
  split at h
  · cases h
  · rename_i hbelow _
    exact hcontains _ hbelow h
  · rename_i _ habove
    exact hcontains _ habove h
  · rename_i hbelow habove
    split at h
    · exact hcontains _ hbelow h
    · exact hcontains _ habove h

/-- A grid that is fine enough has a point above the centre that lies in the interval. -/
theorem pointOn?_ne_none (hlow : interval.low < interval.centre)
    (hhigh : interval.centre + 2 ≤ interval.high) (hfine : (10 : ℚ) ^ power < 2 ^ (exponent - 1)) :
    pointOn? interval exponent power ≠ none := by
  have hunit : (0 : ℚ) < 2 ^ (exponent - 2) := by positivity
  have htwo : (2 : ℚ) ^ (exponent - 1) = 2 * 2 ^ (exponent - 2) := by
    rw [← zpow_one_add₀ two_ne_zero]
    congr 1
    ring
  have hcentre : (interval.low : ℚ) < interval.centre := Nat.cast_lt.mpr hlow
  have hend : (interval.centre : ℚ) + 2 ≤ interval.high := by exact_mod_cast hhigh
  have habove : contains interval exponent power (below interval exponent power + 1) = true := by
    refine contains_iff.mpr (Interval.holds_of_lt ?_ ?_)
    · exact lt_trans (mul_lt_mul_of_pos_right hcentre hunit) lt_above
    · calc ((below interval exponent power + 1 : Nat) : ℚ) * 10 ^ power
          = below interval exponent power * 10 ^ power + 10 ^ power := by
            push_cast
            ring
        _ < interval.centre * 2 ^ (exponent - 2) + 2 * 2 ^ (exponent - 2) := by
            rw [← htwo]
            exact add_lt_add_of_le_of_lt below_le hfine
        _ ≤ interval.high * 2 ^ (exponent - 2) := by
            rw [← add_mul]
            exact mul_le_mul_of_nonneg_right hend hunit.le
  rw [pointOn?_eq]
  split
  · rename_i hnone
    cases hnone.symm.trans habove
  · exact Option.some_ne_none _
  · exact Option.some_ne_none _
  · split <;> exact Option.some_ne_none _

/-- A centre that is on the grid is its nearest point. -/
theorem pointOn?_of_centre (hlow : interval.low < interval.centre)
    (hhigh : interval.centre < interval.high)
    (hcentre : (point : ℚ) * 10 ^ power = interval.centre * 2 ^ (exponent - 2)) :
    pointOn? interval exponent power = some point := by
  have hunit : (0 : ℚ) < 2 ^ (exponent - 2) := by positivity
  have hsame : point * step exponent power = interval.centre * quarter exponent power :=
    le_antisymm (le_mul_quarter_iff.mpr hcentre.le) (mul_quarter_le_iff.mpr hcentre.ge)
  have hpoint : below interval exponent power = point := by
    rw [below, ← hsame, Nat.mul_div_cancel _ (step_pos exponent power)]
  have hinside : contains interval exponent power point = true := by
    refine contains_iff.mpr (Interval.holds_of_lt ?_ ?_)
    · rw [hcentre]
      exact mul_lt_mul_of_pos_right (Nat.cast_lt.mpr hlow) hunit
    · rw [hcentre]
      exact mul_lt_mul_of_pos_right (Nat.cast_lt.mpr hhigh) hunit
  have hnear : PrefersBelow interval exponent power := by
    refine Or.inl ?_
    rw [hpoint, ← hsame, Nat.sub_self, Nat.add_one_mul, Nat.add_sub_cancel_left]
    exact step_pos exponent power
  rw [pointOn?_eq, hpoint, hinside]
  cases contains interval exponent power (point + 1) with
  | false => rfl
  | true => exact if_pos hnear

end

/-! ### The coarsest grid -/

theorem mem_powers_iff (power : ℤ) : power ∈ powers ↔ -343 ≤ power ∧ power ≤ 308 := by
  rw [powers, List.mem_map]
  constructor
  · rintro ⟨place, hplace, rfl⟩
    rw [List.mem_range] at hplace
    omega
  · intro h
    exact ⟨(308 - power).toNat, List.mem_range.mpr (by omega), by omega⟩

theorem pairwise_powers : powers.Pairwise fun coarse fine => fine < coarse := by
  rw [powers, List.pairwise_map]
  exact List.pairwise_lt_range.imp fun h => by omega

/-- What the shortest decimal is found as: a point of a grid, where all coarser grids have none. -/
structure Coarsest (significand : Nat) (exponent : ℤ) (decimal : Decimal) : Prop where
  power : -343 ≤ decimal.exponent ∧ decimal.exponent ≤ 308
  point : pointOn? (Interval.of significand exponent) exponent decimal.exponent = some decimal.digits
  coarser : ∀ power, decimal.exponent < power → power ≤ 308 →
    pointOn? (Interval.of significand exponent) exponent power = none

section

variable {significand : Nat} {exponent : ℤ}

theorem exists_point (hpos : 0 < significand) {power : ℤ}
    (hfine : (10 : ℚ) ^ power < 2 ^ (exponent - 1)) :
    pointOn? (Interval.of significand exponent) exponent power ≠ none :=
  pointOn?_ne_none (Interval.low_bounds hpos exponent).2.1 (Nat.le_refl _) hfine

/-- The finest grid always has a point, so that the shortest decimal is found. -/
theorem coarsest_shortest (hpos : 0 < significand) (hexponent : -1074 ≤ exponent) :
    Coarsest significand exponent (shortest significand exponent) := by
  have hfinest : (10 : ℚ) ^ (-343 : ℤ) < 2 ^ (exponent - 1) := by
    have hpow : 2 ^ 1075 < 10 ^ 343 := by decide +kernel
    have hcast : (2 : ℚ) ^ 1075 < 10 ^ 343 := by exact_mod_cast hpow
    calc (10 : ℚ) ^ (-343 : ℤ)
        < 2 ^ (-1075 : ℤ) := by
          rw [zpow_neg, zpow_neg, zpow_ofNat, zpow_ofNat]
          exact inv_strictAnti₀ (by positivity) hcast
      _ ≤ 2 ^ (exponent - 1) := zpow_le_zpow_right₀ one_le_two (by omega)
  rw [shortest]
  cases hfound : powers.findSome? fun power =>
      (pointOn? (Interval.of significand exponent) exponent power).map
        fun digits => Decimal.mk digits power with
  | none =>
      rw [List.findSome?_eq_none_iff] at hfound
      have hnone := hfound (-343) ((mem_powers_iff _).mpr (by decide))
      exact absurd (Option.map_eq_none_iff.mp hnone) (exists_point hpos hfinest)
  | some decimal =>
      obtain ⟨coarse, power, fine, hpowers, hdecimal, hcoarse⟩ := List.findSome?_eq_some_iff.mp hfound
      obtain ⟨digits, hdigits, rfl⟩ := Option.map_eq_some_iff.mp hdecimal
      have hpower : power ∈ powers := by
        rw [hpowers]
        exact List.mem_append_right _ List.mem_cons_self
      refine ⟨(mem_powers_iff power).mp hpower, hdigits, fun other hother hlimit => ?_⟩
      have hlow := ((mem_powers_iff power).mp hpower).1
      have hmem : other ∈ coarse ++ power :: fine := by
        rw [← hpowers, mem_powers_iff]
        exact ⟨hlow.trans hother.le, hlimit⟩
      rcases List.mem_append.mp hmem with hmem | hmem
      · exact Option.map_eq_none_iff.mp (hcoarse other hmem)
      · -- The powers come in descending order.
        have hsorted := pairwise_powers
        rw [hpowers, List.pairwise_append] at hsorted
        rcases List.mem_cons.mp hmem with rfl | hfine
        · exact absurd hother (lt_irrefl _)
        · exact absurd hother ((List.pairwise_cons.mp hsorted.2.1).1 other hfine).not_gt

namespace Coarsest

variable {decimal : Decimal}

theorem holds (h : Coarsest significand exponent decimal) :
    (Interval.of significand exponent).Holds exponent decimal.value :=
  holds_of_pointOn? h.point

theorem value_le (h : Coarsest significand exponent decimal) :
    decimal.value ≤ (significand + 1 / 2) * 2 ^ exponent := by
  rw [← Interval.cast_high]
  exact h.holds.bounds.2

theorem digits_pos (h : Coarsest significand exponent decimal) (hpos : 0 < significand) :
    0 < decimal.digits := by
  have hlow : (0 : ℚ) < (Interval.of significand exponent).low :=
    Nat.cast_pos.mpr (Interval.low_bounds hpos exponent).2.2
  have hvalue : 0 < decimal.value := lt_of_lt_of_le (by positivity) h.holds.bounds.1
  refine Nat.pos_of_ne_zero fun hzero => ?_
  rw [value, hzero, Nat.cast_zero, zero_mul] at hvalue
  exact lt_irrefl _ hvalue

/-- If there were more digits the next coarser grid would have had a point. -/
theorem digits_lt (h : Coarsest significand exponent decimal) (hpos : 0 < significand)
    (hsignificand : significand < 2 ^ 53) (hexponent : exponent ≤ 971) :
    decimal.digits < 2 ^ 58 := by
  by_contra hmany
  have hunit : (0 : ℚ) < 2 ^ exponent := by positivity
  have hdigits : (2 : ℚ) ^ 58 ≤ decimal.digits := by exact_mod_cast Nat.not_lt.mp hmany
  have hcast : (significand : ℚ) + 1 ≤ 2 ^ 53 := by exact_mod_cast hsignificand
  have hstep : (32 : ℚ) * 10 ^ decimal.exponent ≤ 2 ^ exponent := by
    have hvalue : (2 : ℚ) ^ 58 * 10 ^ decimal.exponent ≤ 2 ^ 53 * 2 ^ exponent := by
      calc (2 : ℚ) ^ 58 * 10 ^ decimal.exponent
          ≤ decimal.value := mul_le_mul_of_nonneg_right hdigits (by positivity)
        _ ≤ (significand + 1 / 2) * 2 ^ exponent := h.value_le
        _ ≤ 2 ^ 53 * 2 ^ exponent := mul_le_mul_of_nonneg_right (by linarith) hunit.le
    linarith
  have hnext : (10 : ℚ) ^ (decimal.exponent + 1) < 2 ^ (exponent - 1) := by
    rw [zpow_add_one₀ (by norm_num), zpow_sub_one₀ two_ne_zero]
    linarith
  by_cases hlast : decimal.exponent = 308
  · have hpow : 2 ^ 971 < 10 ^ 308 := by decide +kernel
    have hlarge : (2 : ℚ) ^ (971 : ℤ) < 10 ^ (308 : ℤ) := by exact_mod_cast hpow
    have hlimit : (2 : ℚ) ^ exponent ≤ 2 ^ (971 : ℤ) := zpow_le_zpow_right₀ one_le_two hexponent
    have hpositive : (0 : ℚ) < 10 ^ (308 : ℤ) := by positivity
    rw [hlast] at hstep
    have hbeyond := (hstep.trans hlimit).trans_lt hlarge
    generalize (10 : ℚ) ^ (308 : ℤ) = coarse at hbeyond hpositive
    linarith only [hbeyond, hpositive]
  · have hpower := h.power
    exact exists_point hpos hnext (h.coarser _ (lt_add_one _) (by omega))

theorem low_le (h : Coarsest significand exponent decimal) (hpos : 0 < significand) :
    (significand - 1 / 2) * 2 ^ exponent ≤ decimal.value := by
  have hlow : ((4 * significand : Nat) : ℚ) ≤
      ((Interval.of significand exponent).low + 2 : Nat) :=
    Nat.cast_le.mpr (Interval.low_bounds hpos exponent).1
  push_cast at hlow
  refine le_trans ?_ h.holds.bounds.1
  calc ((significand : ℚ) - 1 / 2) * 2 ^ exponent
      = (4 * significand - 2) * 2 ^ (exponent - 2) := by
        rw [zpow_sub₀ two_ne_zero]
        ring
    _ ≤ (Interval.of significand exponent).low * 2 ^ (exponent - 2) :=
        mul_le_mul_of_nonneg_right (by linarith) (by positivity)

/-- Even numbers that are known to the last digit are their own shortest decimals: the next multiple of
ten is further away than the next number of this format. -/
theorem value_of_even (h : Coarsest significand 1 decimal) (hpos : 0 < significand) :
    0 ≤ decimal.exponent ∧ decimal.value = (2 * significand : Nat) := by
  obtain ⟨_, hlow, _⟩ := Interval.low_bounds hpos 1
  have hunits : pointOn? (Interval.of significand 1) 1 0 = some (2 * significand) := by
    refine pointOn?_of_centre hlow (Nat.lt_add_of_pos_right (by decide)) ?_
    rw [Interval.cast_centre]
    push_cast
    ring
  have hexponent : 0 ≤ decimal.exponent := by
    by_contra hfine
    cases (h.coarser 0 (not_le.mp hfine) (by decide)).symm.trans hunits
  refine ⟨hexponent, ?_⟩
  rcases hexponent.eq_or_lt with hzero | hcoarse
  · have hpoint := h.point
    rw [← hzero, hunits] at hpoint
    rw [value, ← hzero, zpow_zero, mul_one, Option.some.inj hpoint]
  · obtain ⟨places, hplaces⟩ : ∃ places : Nat, decimal.exponent = (places + 1 : Nat) :=
      ⟨(decimal.exponent - 1).toNat, by omega⟩
    have hvalue : decimal.value = (2 * (decimal.digits * 5 * 10 ^ places) : Nat) := by
      rw [value, hplaces, zpow_natCast, pow_succ]
      push_cast
      ring
    have hhigh := h.value_le
    have hbottom := h.low_le hpos
    rw [hvalue] at hhigh hbottom ⊢
    have hupper : 2 * (decimal.digits * 5 * 10 ^ places) < 2 * significand + 2 := by
      rw [← Nat.cast_lt (α := ℚ)]
      push_cast at hhigh ⊢
      linarith
    have hlower : 2 * significand < 2 * (decimal.digits * 5 * 10 ^ places) + 2 := by
      rw [← Nat.cast_lt (α := ℚ)]
      push_cast at hbottom ⊢
      linarith
    congr 1
    omega

end Coarsest

end

end WebToken.Decimal
