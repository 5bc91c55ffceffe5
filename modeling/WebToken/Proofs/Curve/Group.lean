import Mathlib.AlgebraicGeometry.EllipticCurve.Affine.Point
import Mathlib.Tactic.LinearCombination
import WebToken.Proofs.Curve.Primes

/-! The points of a curve as the group of its equation. Addition by chords and tangents is addition in
the group, and so are its multiples. -/

namespace WebToken.Curve

instance (curve : Curve) : Fact curve.fieldPrime.Prime := ⟨curve.prime_fieldPrime⟩

/-- The equation `y² = x³ - 3 x + b` over the field of the curve. -/
def equation (curve : Curve) : WeierstrassCurve.Affine (ZMod curve.fieldPrime) :=
  ⟨0, 0, 0, -3, curve.constantTerm⟩

variable {curve : Curve}

theorem discriminant_ne_zero (curve : Curve) : curve.equation.Δ ≠ 0 := by
  have hdiscriminant : curve.equation.Δ =
      ((1728 : Nat) : ZMod curve.fieldPrime) -
        ((432 * (curve.constantTerm * curve.constantTerm) : Nat) : ZMod curve.fieldPrime) := by
    simp only [equation, WeierstrassCurve.Δ, WeierstrassCurve.b₂, WeierstrassCurve.b₄,
      WeierstrassCurve.b₆, WeierstrassCurve.b₈, Nat.cast_mul, Nat.cast_ofNat]
    ring
  rw [hdiscriminant, sub_ne_zero, Ne, ZMod.natCast_eq_natCast_iff]
  cases curve <;> decide +kernel

theorem nonsingular_iff {x y : ZMod curve.fieldPrime} :
    curve.equation.Nonsingular x y ↔ y ^ 2 = x ^ 3 - 3 * x + curve.constantTerm := by
  rw [← WeierstrassCurve.Affine.equation_iff_nonsingular_of_Δ_ne_zero curve.discriminant_ne_zero,
    WeierstrassCurve.Affine.equation_iff]
  simp only [equation]
  ring_nf

theorem negY_eq (x y : ZMod curve.fieldPrime) : curve.equation.negY x y = -y := by
  simp only [WeierstrassCurve.Affine.negY, equation]
  ring

theorem addX_eq (x₁ x₂ slope : ZMod curve.fieldPrime) :
    curve.equation.addX x₁ x₂ slope = slope * slope - (x₁ + x₂) := by
  simp only [WeierstrassCurve.Affine.addX, equation]
  ring

theorem addY_eq (x₁ x₂ y₁ slope : ZMod curve.fieldPrime) :
    curve.equation.addY x₁ x₂ y₁ slope =
      slope * (x₁ - curve.equation.addX x₁ x₂ slope) - y₁ := by
  rw [WeierstrassCurve.Affine.addY, WeierstrassCurve.Affine.negAddY, negY_eq]
  ring

/-! ### Field elements -/

theorem cast_sub (left right : Nat) :
    (curve.sub left right : ZMod curve.fieldPrime) = left - right := by
  have hle : right % curve.fieldPrime ≤ curve.fieldPrime :=
    (Nat.mod_lt _ curve.prime_fieldPrime.pos).le
  rw [sub, ZMod.natCast_mod, Nat.cast_add, Nat.cast_sub hle, ZMod.natCast_self, ZMod.natCast_mod,
    zero_sub, sub_eq_add_neg]

theorem sub_lt (left right : Nat) : curve.sub left right < curve.fieldPrime :=
  Nat.mod_lt _ curve.prime_fieldPrime.pos

theorem cast_div (left right : Nat) :
    (curve.div left right : ZMod curve.fieldPrime) = left / right := by
  rw [div]
  cases hinverse : Modular.inverse? right curve.fieldPrime with
  | some inverse =>
      have hone : (inverse : ZMod curve.fieldPrime) * right = 1 := by
        rw [← Nat.cast_mul, ← Nat.cast_one, ZMod.natCast_eq_natCast_iff]
        exact Modular.mul_modEq_one_of_inverse? curve.prime_fieldPrime.pos hinverse
      have hne : (right : ZMod curve.fieldPrime) ≠ 0 := right_ne_zero_of_mul_eq_one hone
      rw [ZMod.natCast_mod, Nat.cast_mul, eq_div_iff hne, mul_assoc, hone, mul_one]
  | none =>
      have hzero : (right : ZMod curve.fieldPrime) = 0 := by
        rw [ZMod.natCast_eq_zero_iff]
        by_contra hndvd
        have hsome := (Modular.isSome_inverse?_iff right curve.fieldPrime).mpr
          ((curve.prime_fieldPrime.coprime_iff_not_dvd.mpr hndvd).symm)
        rw [hinverse] at hsome
        cases hsome
      rw [hzero, div_zero, Nat.cast_zero]

theorem eq_of_cast_eq {left right : Nat} (hleft : left < curve.fieldPrime)
    (hright : right < curve.fieldPrime) (h : (left : ZMod curve.fieldPrime) = right) :
    left = right :=
  Nat.ModEq.eq_of_lt_of_lt ((ZMod.natCast_eq_natCast_iff _ _ _).mp h) hleft hright

theorem satisfies_iff {x y : Nat} :
    curve.satisfies x y = true ↔ curve.equation.Nonsingular x y := by
  rw [satisfies, beq_iff_eq, nonsingular_iff]
  have hcast : y * y % curve.fieldPrime =
      curve.sub (x * x % curve.fieldPrime * x + curve.constantTerm) (3 * x) ↔
      ((y * y % curve.fieldPrime : Nat) : ZMod curve.fieldPrime) =
        (curve.sub (x * x % curve.fieldPrime * x + curve.constantTerm) (3 * x) : Nat) :=
    ⟨congrArg _, eq_of_cast_eq (Nat.mod_lt _ curve.prime_fieldPrime.pos) (sub_lt _ _)⟩
  rw [hcast, cast_sub, ZMod.natCast_mod]
  push_cast [ZMod.natCast_mod]
  constructor
  · intro h
    linear_combination h
  · intro h
    linear_combination h

/-! ### Points -/

/-- A point stands for an element of the group: the same coordinates, as numbers below the field
prime. -/
inductive Represents : Point → curve.equation.Point → Prop
  | infinity : Represents .infinity 0
  | affine {x y : Nat} (h : curve.equation.Nonsingular x y) : x < curve.fieldPrime →
      y < curve.fieldPrime → Represents (.affine x y) (.some x y h)

/-- The third point of a line, mirrored, is where the group has the sum of the other two. -/
theorem represents_reflect {slope x₁ y₁ x₂ : Nat} {line : ZMod curve.fieldPrime}
    (hslope : (slope : ZMod curve.fieldPrime) = line)
    (h : curve.equation.Nonsingular (curve.equation.addX x₁ x₂ line)
      (curve.equation.addY x₁ x₂ y₁ line)) :
    Represents (curve.reflect slope x₁ y₁ x₂) (.some _ _ h) := by
  subst hslope
  have hx : ((curve.sub (slope * slope) (x₁ + x₂) : Nat) : ZMod curve.fieldPrime) =
      curve.equation.addX x₁ x₂ slope := by
    rw [cast_sub, Nat.cast_mul, Nat.cast_add, addX_eq]
  have hy : ((curve.sub (slope * curve.sub x₁ (curve.sub (slope * slope) (x₁ + x₂))) y₁ : Nat) :
      ZMod curve.fieldPrime) = curve.equation.addY x₁ x₂ y₁ slope := by
    rw [cast_sub, Nat.cast_mul, cast_sub, hx, addY_eq]
  revert h
  rw [← hx, ← hy]
  exact fun h => .affine h (sub_lt _ _) (sub_lt _ _)

/-- Chords and tangents add in the group. -/
theorem represents_add {left right : Point} {p q : curve.equation.Point} (hp : Represents left p)
    (hq : Represents right q) : Represents (curve.add left right) (p + q) := by
  cases hp with
  | infinity =>
      rw [zero_add]
      exact hq
  | @affine x₁ y₁ h₁ hx₁ hy₁ =>
      cases hq with
      | infinity =>
          rw [add_zero]
          exact .affine h₁ hx₁ hy₁
      | @affine x₂ y₂ h₂ hx₂ hy₂ =>
          rw [add]
          by_cases hx : x₁ = x₂
          · subst hx
            rw [if_pos rfl]
            by_cases hy : (y₁ + y₂) % curve.fieldPrime = 0
            · have hopposite : (y₁ : ZMod curve.fieldPrime) = curve.equation.negY x₁ y₂ := by
                rw [negY_eq, eq_neg_iff_add_eq_zero, ← Nat.cast_add, ZMod.natCast_eq_zero_iff]
                exact Nat.dvd_of_mod_eq_zero hy
              rw [if_pos hy, WeierstrassCurve.Affine.Point.add_of_Y_eq rfl hopposite]
              exact .infinity
            · have hne : (y₁ : ZMod curve.fieldPrime) ≠ curve.equation.negY x₁ y₂ := by
                rw [negY_eq, Ne, eq_neg_iff_add_eq_zero, ← Nat.cast_add, ZMod.natCast_eq_zero_iff]
                exact fun hdvd => hy (Nat.mod_eq_zero_of_dvd hdvd)
              rw [if_neg hy, WeierstrassCurve.Affine.Point.add_of_Y_ne hne]
              refine represents_reflect ?_ _
              rw [WeierstrassCurve.Affine.slope_of_Y_ne rfl hne, cast_div, cast_sub, negY_eq]
              simp only [equation]
              push_cast
              congr 1 <;> ring
          · have hne : (x₁ : ZMod curve.fieldPrime) ≠ x₂ :=
              fun heq => hx (eq_of_cast_eq hx₁ hx₂ heq)
            rw [if_neg hx, WeierstrassCurve.Affine.Point.add_of_X_ne hne]
            refine represents_reflect ?_ _
            rw [WeierstrassCurve.Affine.slope_of_X_ne hne, cast_div, cast_sub, cast_sub,
              ← neg_sub, ← neg_sub (x₁ : ZMod curve.fieldPrime), neg_div_neg_eq]

theorem represents_mulOnto {acc point : Point} {p q : curve.equation.Point} (scalar : Nat)
    (hp : Represents acc p) (hq : Represents point q) :
    Represents (curve.mulOnto acc scalar point) (p + scalar • q) := by
  induction scalar using Nat.strongRecOn generalizing acc point p q with
  | ind scalar ih =>
      rw [mulOnto]
      by_cases hzero : scalar = 0
      · rw [if_pos hzero, hzero, zero_nsmul, add_zero]
        exact hp
      have hdouble : Represents (curve.add point point) (2 • q) := by
        rw [two_nsmul]
        exact represents_add hq hq
      have hhalf : scalar / 2 < scalar := by omega
      rw [if_neg hzero]
      by_cases hodd : scalar % 2 = 1
      · have hsum : p + scalar • q = p + q + (scalar / 2) • 2 • q := by
          rw [← mul_nsmul', add_assoc, ← succ_nsmul']
          congr 2
          omega
        rw [if_pos hodd, hsum]
        exact ih _ hhalf (represents_add hp hq) hdouble
      · have hsum : scalar • q = (scalar / 2) • 2 • q := by
          rw [← mul_nsmul']
          congr 1
          omega
        rw [if_neg hodd, hsum]
        exact ih _ hhalf hp hdouble

/-- Doubling and adding makes multiples of the group. -/
theorem represents_mul {point : Point} {q : curve.equation.Point} (scalar : Nat)
    (hq : Represents point q) : Represents (curve.mul scalar point) (scalar • q) := by
  have hmul := represents_mulOnto scalar .infinity hq
  rwa [zero_add] at hmul

theorem Represents.exists_affine {point : Point} {p : curve.equation.Point} (h : Represents point p)
    (hne : p ≠ 0) : ∃ x y, point = .affine x y ∧ x < curve.fieldPrime ∧ y < curve.fieldPrime ∧
      curve.satisfies x y = true := by
  cases h with
  | infinity => exact absurd rfl hne
  | affine hpoint hx hy => exact ⟨_, _, rfl, hx, hy, satisfies_iff.mpr hpoint⟩

/-- Two points that stand for one element are the same. -/
theorem Represents.eq {left right : Point} {p q : curve.equation.Point} (hleft : Represents left p)
    (hright : Represents right q) (h : p = q) : left = right := by
  cases hleft with
  | infinity =>
      cases hright with
      | infinity => rfl
      | affine hpoint => exact absurd h.symm (WeierstrassCurve.Affine.Point.some_ne_zero hpoint)
  | affine hpoint hx₁ hy₁ =>
      cases hright with
      | infinity => exact absurd h (WeierstrassCurve.Affine.Point.some_ne_zero hpoint)
      | affine hother hx₂ hy₂ =>
          obtain ⟨hx, hy⟩ := WeierstrassCurve.Affine.Point.some.inj h
          rw [eq_of_cast_eq hx₁ hx₂ hx, eq_of_cast_eq hy₁ hy₂ hy]

end WebToken.Curve
