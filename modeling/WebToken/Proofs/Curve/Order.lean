import WebToken.Proofs.Curve.Group

/-! The order of the generating point. Its multiples are followed without inverses, up to a common factor
of the coordinates, as far as the opposite of the point. -/

namespace WebToken.Curve

/-- A point up to a common factor of its coordinates: `(x / z, y / z)`. -/
structure Scaled where
  x : Nat
  y : Nat
  z : Nat

namespace Scaled

/-- Twice a point, by its tangent. -/
def double (curve : Curve) (point : Scaled) : Scaled :=
  let tangent := curve.sub (3 * (point.x * point.x)) (3 * (point.z * point.z))
  let s := point.y * point.z % curve.fieldPrime
  let b := point.x * point.y % curve.fieldPrime * s % curve.fieldPrime
  let h := curve.sub (tangent * tangent) (8 * b)
  let square := s * s % curve.fieldPrime
  ⟨2 * h * s % curve.fieldPrime,
   curve.sub (tangent * curve.sub (4 * b) h)
     (8 * (point.y * point.y % curve.fieldPrime * square)),
   8 * square * s % curve.fieldPrime⟩

/-- The sum with a point of known coordinates, by their chord. -/
def add (curve : Curve) (point : Scaled) (x y : Nat) : Scaled :=
  let u := curve.sub (y * point.z) point.y
  let v := curve.sub (x * point.z) point.x
  let square := v * v % curve.fieldPrime
  let cube := square * v % curve.fieldPrime
  let r := square * point.x % curve.fieldPrime
  let a := curve.sub (u * u % curve.fieldPrime * point.z) (cube + 2 * r)
  ⟨v * a % curve.fieldPrime, curve.sub (u * curve.sub r a) (cube * point.y),
   cube * point.z % curve.fieldPrime⟩

/-- The point, unless it has no coordinates. -/
def finite? (curve : Curve) (point : Scaled) : Option Scaled :=
  if point.z % curve.fieldPrime = 0 then none else some point

end Scaled

/-- A positive multiple of a point, as long as none on the way is at infinity. -/
def multiple? (curve : Curve) (x y scalar : Nat) : Option Scaled :=
  if scalar ≤ 1 then some ⟨x, y, 1⟩
  else do
    let half ← multiple? curve x y (scalar / 2)
    let doubled ← (half.double curve).finite? curve
    if scalar % 2 = 1 then (doubled.add curve x y).finite? curve else some doubled
termination_by scalar
decreasing_by omega

variable {curve : Curve}

/-- The coordinates of an element of the group, up to a common factor. -/
inductive Scales : Scaled → curve.equation.Point → Prop
  | intro {x y z : Nat} (hz : (z : ZMod curve.fieldPrime) ≠ 0)
      (h : curve.equation.Nonsingular ((x : ZMod curve.fieldPrime) / z) (y / z)) :
      Scales ⟨x, y, z⟩ (.some _ _ h)

theorem Scales.of_eq {point : Scaled} {x y : ZMod curve.fieldPrime}
    (hz : (point.z : ZMod curve.fieldPrime) ≠ 0) (hx : x = point.x / point.z)
    (hy : y = point.y / point.z) (h : curve.equation.Nonsingular x y) :
    Scales point (.some x y h) := by
  subst hx hy
  exact .intro hz h

theorem Scales.double {point : Scaled} {q : curve.equation.Point} (hq : Scales point q)
    (hz : ((point.double curve).z : ZMod curve.fieldPrime) ≠ 0) :
    Scales (point.double curve) (q + q) := by
  cases hq with
  | @intro x y z hnonzero h =>
      have hcast : (((Scaled.mk x y z).double curve).z : ZMod curve.fieldPrime) =
          (2 * (y * z)) ^ 3 := by
        simp only [Scaled.double, ZMod.natCast_mod, Nat.cast_mul, Nat.cast_ofNat]
        ring
      have hproduct : (2 * (y * z) : ZMod curve.fieldPrime) ≠ 0 :=
        ne_zero_pow three_ne_zero (hcast ▸ hz)
      have htwo : (2 : ZMod curve.fieldPrime) ≠ 0 := left_ne_zero_of_mul hproduct
      have hy : (y : ZMod curve.fieldPrime) ≠ 0 :=
        left_ne_zero_of_mul (right_ne_zero_of_mul hproduct)
      have hne : (y / z : ZMod curve.fieldPrime) ≠ curve.equation.negY (x / z) (y / z) := by
        rw [negY_eq, Ne, eq_neg_iff_add_eq_zero, ← two_mul]
        exact mul_ne_zero htwo (div_ne_zero hy hnonzero)
      have hslope : curve.equation.slope (x / z : ZMod curve.fieldPrime) (x / z) (y / z) (y / z) =
          (3 * x ^ 2 - 3 * z ^ 2) / (2 * (y * z)) := by
        rw [WeierstrassCurve.Affine.slope_of_Y_ne rfl hne, negY_eq, sub_neg_eq_add, ← two_mul]
        simp only [equation]
        field_simp
        ring
      rw [WeierstrassCurve.Affine.Point.add_self_of_Y_ne hne]
      refine .of_eq hz ?_ ?_ _
      · rw [hslope, hcast, addX_eq]
        simp only [Scaled.double, ZMod.natCast_mod, Nat.cast_mul, Nat.cast_ofNat, cast_sub]
        field_simp
        ring
      · rw [hslope, hcast, addY_eq, addX_eq]
        simp only [Scaled.double, ZMod.natCast_mod, Nat.cast_mul, Nat.cast_ofNat, cast_sub]
        field_simp
        ring

theorem Scales.add {point : Scaled} {q : curve.equation.Point} (hq : Scales point q) {x y : Nat}
    (h : curve.equation.Nonsingular x y)
    (hz : ((point.add curve x y).z : ZMod curve.fieldPrime) ≠ 0) :
    Scales (point.add curve x y) (q + .some _ _ h) := by
  cases hq with
  | @intro x₁ y₁ z₁ hnonzero hpoint =>
      obtain ⟨u, hu⟩ : ∃ u : ZMod curve.fieldPrime, y * z₁ - y₁ = u := ⟨_, rfl⟩
      obtain ⟨v, hv⟩ : ∃ v : ZMod curve.fieldPrime, x * z₁ - x₁ = v := ⟨_, rfl⟩
      have hx : (x : ZMod curve.fieldPrime) = (v + x₁) / z₁ := by
        rw [← hv, sub_add_cancel, mul_div_cancel_right₀ _ hnonzero]
      have hcast : (((Scaled.mk x₁ y₁ z₁).add curve x y).z : ZMod curve.fieldPrime) =
          v ^ 3 * z₁ := by
        simp only [Scaled.add, ZMod.natCast_mod, Nat.cast_mul, cast_sub, hv]
        ring
      have hdifference : v ≠ 0 := ne_zero_pow three_ne_zero (left_ne_zero_of_mul (hcast ▸ hz))
      have hne : (x₁ / z₁ : ZMod curve.fieldPrime) ≠ x := by
        intro heq
        apply hdifference
        rw [← hv, ← heq, div_mul_cancel₀ _ hnonzero, sub_self]
      have hslope : curve.equation.slope (x₁ / z₁ : ZMod curve.fieldPrime) x (y₁ / z₁) y = u / v := by
        rw [WeierstrassCurve.Affine.slope_of_X_ne hne, ← neg_div_neg_eq, neg_sub, neg_sub, ← hu, ← hv,
          sub_div' hnonzero, sub_div' hnonzero, div_div_div_cancel_right₀ hnonzero]
      rw [WeierstrassCurve.Affine.Point.add_of_X_ne hne]
      refine .of_eq hz ?_ ?_ _
      · rw [hslope, hcast, addX_eq]
        simp only [Scaled.add, ZMod.natCast_mod, Nat.cast_mul, Nat.cast_add, Nat.cast_ofNat, cast_sub,
          hu, hv]
        rw [hx]
        field_simp
        ring
      · rw [hslope, hcast, addY_eq, addX_eq]
        simp only [Scaled.add, ZMod.natCast_mod, Nat.cast_mul, Nat.cast_add, Nat.cast_ofNat, cast_sub,
          hu, hv]
        rw [hx]
        field_simp
        ring

theorem Scaled.eq_some_of_finite? {point found : Scaled} (h : point.finite? curve = some found) :
    found = point ∧ (point.z : ZMod curve.fieldPrime) ≠ 0 := by
  rw [finite?] at h
  split at h
  · cases h
  · rename_i hz
    cases h
    refine ⟨rfl, fun hzero => hz ?_⟩
    exact Nat.mod_eq_zero_of_dvd ((ZMod.natCast_eq_zero_iff _ _).mp hzero)

/-- Where the multiples can be followed, they are those of the group. -/
theorem scales_multiple {x y : Nat} (h : curve.equation.Nonsingular x y) {scalar : Nat}
    (hpos : 0 < scalar) {point : Scaled} (hpoint : curve.multiple? x y scalar = some point) :
    Scales point (scalar • WeierstrassCurve.Affine.Point.some _ _ h) := by
  induction scalar using Nat.strongRecOn generalizing point with
  | ind scalar ih =>
      rw [multiple?] at hpoint
      split at hpoint
      · rename_i hone
        cases hpoint
        obtain rfl : scalar = 1 := by omega
        rw [one_nsmul]
        refine .of_eq ?_ ?_ ?_ h
        · rw [Nat.cast_one]
          exact one_ne_zero
        · rw [Nat.cast_one, div_one]
        · rw [Nat.cast_one, div_one]
      · rename_i hlarge
        simp only [Option.bind_eq_bind, Option.bind_eq_some_iff] at hpoint
        obtain ⟨half, hhalf, doubled, hdoubled, hlast⟩ := hpoint
        obtain ⟨rfl, hz⟩ := Scaled.eq_some_of_finite? hdoubled
        have htwice := (ih (scalar / 2) (by omega) (by omega) hhalf).double hz
        rw [← two_nsmul, ← mul_nsmul'] at htwice
        split at hlast
        · rename_i hodd
          obtain ⟨rfl, hz⟩ := Scaled.eq_some_of_finite? hlast
          have hsum := htwice.add h hz
          rw [← succ_nsmul] at hsum
          rwa [show 2 * (scalar / 2) + 1 = scalar by omega] at hsum
        · rename_i heven
          cases hlast
          rwa [show 2 * (scalar / 2) = scalar by omega] at htwice

/-- Whether the base lies on the curve, and its last multiple before the order is its opposite. -/
def closes (curve : Curve) : Bool :=
  match curve.base with
  | .infinity => false
  | .affine x y =>
      decide (x < curve.fieldPrime) && decide (y < curve.fieldPrime) && curve.satisfies x y &&
        match curve.multiple? x y (curve.order - 1) with
        | none => false
        | some point =>
            point.x % curve.fieldPrime == x * point.z % curve.fieldPrime &&
              (point.y + y * point.z) % curve.fieldPrime == 0

theorem closes_eq_true (curve : Curve) : curve.closes = true := by
  cases curve <;> decide +kernel

theorem Scales.eq_neg {point : Scaled} {q : curve.equation.Point} (hq : Scales point q) {x y : Nat}
    (h : curve.equation.Nonsingular x y)
    (hx : point.x % curve.fieldPrime = x * point.z % curve.fieldPrime)
    (hy : (point.y + y * point.z) % curve.fieldPrime = 0) : q = -.some _ _ h := by
  cases hq with
  | @intro x₁ y₁ z₁ hz hpoint =>
      rw [WeierstrassCurve.Affine.Point.neg_some, WeierstrassCurve.Affine.Point.some.injEq]
      refine ⟨?_, ?_⟩
      · rw [div_eq_iff hz, ← Nat.cast_mul, ZMod.natCast_eq_natCast_iff]
        exact hx
      · rw [negY_eq, div_eq_iff hz, ← sub_eq_zero, neg_mul, sub_neg_eq_add, ← Nat.cast_mul,
          ← Nat.cast_add, ZMod.natCast_eq_zero_iff]
        exact Nat.dvd_of_mod_eq_zero hy

/-- The base generates a group of the order of the curve. -/
theorem exists_generator (curve : Curve) : ∃ generator : curve.equation.Point,
    Represents curve.base generator ∧ addOrderOf generator = curve.order := by
  have hcloses := curve.closes_eq_true
  rw [closes] at hcloses
  split at hcloses
  · cases hcloses
  rename_i x y hbase
  simp only [Bool.and_eq_true, decide_eq_true_eq] at hcloses
  obtain ⟨⟨⟨hx, hy⟩, hsatisfies⟩, hlast⟩ := hcloses
  have h := satisfies_iff.mp hsatisfies
  refine ⟨.some _ _ h, hbase ▸ .affine h hx hy, ?_⟩
  split at hlast
  · cases hlast
  rename_i point hpoint
  simp only [Bool.and_eq_true, beq_iff_eq] at hlast
  obtain ⟨hxEq, hyEq⟩ := hlast
  have hpred : 0 < curve.order - 1 := Nat.sub_pos_of_lt curve.prime_order.one_lt
  have hopposite : (curve.order - 1) • WeierstrassCurve.Affine.Point.some _ _ h =
      -WeierstrassCurve.Affine.Point.some _ _ h :=
    (scales_multiple h hpred hpoint).eq_neg h hxEq hyEq
  have : Fact curve.order.Prime := ⟨curve.prime_order⟩
  refine addOrderOf_eq_prime ?_ (WeierstrassCurve.Affine.Point.some_ne_zero h)
  rw [← Nat.sub_add_cancel curve.prime_order.one_le, succ_nsmul, hopposite, neg_add_cancel]

end WebToken.Curve
