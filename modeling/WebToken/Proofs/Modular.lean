import Mathlib.Data.Int.ModEq
import Mathlib.Data.Nat.ModEq
import Mathlib.Tactic.Ring
import WebToken.Number.Modular

/-! Powers by squaring are remainders of powers, and what Euclid's algorithm finds as an inverse is
one. -/

namespace WebToken.Modular

theorem powOnto_eq (modulus acc base exponent : Nat) :
    powOnto modulus acc base exponent = acc * base ^ exponent % modulus := by
  induction exponent using Nat.strongRecOn generalizing acc base with
  | ind exponent ih =>
      rw [powOnto]
      by_cases hzero : exponent = 0
      · rw [if_pos hzero, hzero, pow_zero, Nat.mul_one]
      have hsquare : (base * base % modulus) ^ (exponent / 2) ≡ base ^ (2 * (exponent / 2))
          [MOD modulus] := by
        rw [pow_mul, pow_two]
        exact (Nat.mod_modEq _ _).pow _
      have hhalf : exponent / 2 < exponent := by omega
      rw [if_neg hzero, ih _ hhalf]
      by_cases hodd : exponent % 2 = 1
      · have hexponent : base ^ exponent = base * base ^ (2 * (exponent / 2)) := by
          rw [← pow_succ']
          congr 1
          omega
        rw [if_pos hodd, hexponent, ← Nat.mul_assoc]
        exact (Nat.mod_modEq _ _).mul hsquare
      · have hexponent : 2 * (exponent / 2) = exponent := by omega
        rw [if_neg hodd]
        rw [hexponent] at hsquare
        exact hsquare.mul_left acc

theorem pow_eq (base exponent modulus : Nat) :
    pow base exponent modulus = base ^ exponent % modulus := by
  rw [pow, powOnto_eq, Nat.one_mul]
  exact (Nat.mod_modEq _ _).pow _

theorem pow_lt (base exponent : Nat) {modulus : Nat} (h : 0 < modulus) :
    pow base exponent modulus < modulus := by
  rw [pow_eq]
  exact Nat.mod_lt _ h

/-! ### Inverses -/

/-- Each remainder stays the multiple of the value by its factor, up to the modulus. -/
theorem euclid_modEq {value modulus oldFactor newFactor : Int} {old new : Nat}
    (hold : (old : Int) ≡ oldFactor * value [ZMOD modulus])
    (hnew : (new : Int) ≡ newFactor * value [ZMOD modulus]) :
    ((euclid old new oldFactor newFactor).1 : Int) ≡
      (euclid old new oldFactor newFactor).2 * value [ZMOD modulus] := by
  induction new using Nat.strongRecOn generalizing old oldFactor newFactor with
  | ind new ih =>
      rw [euclid]
      by_cases hzero : new = 0
      · rw [if_pos hzero]
        exact hold
      have hrest : ((old % new : Nat) : Int) ≡
          (oldFactor - (old / new : Nat) * newFactor) * value [ZMOD modulus] := by
        have hdivision : ((old % new : Nat) : Int) = old - (old / new : Nat) * new := by
          have hparts := congrArg (Nat.cast : Nat → Int) (Nat.div_add_mod' old new)
          rw [Nat.cast_add, Nat.cast_mul] at hparts
          omega
        rw [hdivision, sub_mul, mul_assoc]
        exact hold.sub (hnew.mul_left _)
      rw [if_neg hzero]
      exact ih _ (Nat.mod_lt _ (Nat.pos_of_ne_zero hzero)) hnew hrest

theorem mul_modEq_one_of_inverse? {value modulus inverse : Nat} (hpos : 0 < modulus)
    (h : inverse? value modulus = some inverse) : inverse * value ≡ 1 [MOD modulus] := by
  have hstart : (modulus : Int) ≡ 0 * value [ZMOD modulus] := by
    rw [zero_mul]
    exact Int.emod_self
  have hvalue : ((value % modulus : Nat) : Int) ≡ 1 * value [ZMOD modulus] := by
    rw [one_mul, Int.natCast_mod]
    exact Int.mod_modEq _ _
  have hend := euclid_modEq hstart hvalue
  rw [inverse?] at h
  split at h
  rename_i divisor factor heuclid
  rw [heuclid] at hend
  split at h
  · rename_i hone
    have hinverse : (inverse : Int) = factor % modulus := by
      cases h
      exact Int.toNat_of_nonneg (Int.emod_nonneg _ (by omega))
    apply Int.natCast_modEq_iff.mp
    rw [Nat.cast_mul, hinverse]
    calc factor % modulus * value
        ≡ factor * value [ZMOD modulus] := (Int.mod_modEq _ _).mul_right _
      _ ≡ (divisor : Int) [ZMOD modulus] := hend.symm
      _ = ((1 : Nat) : Int) := by rw [hone]
  · cases h

theorem euclid_eq_gcd (old new : Nat) (oldFactor newFactor : Int) :
    (euclid old new oldFactor newFactor).1 = old.gcd new := by
  induction new using Nat.strongRecOn generalizing old oldFactor newFactor with
  | ind new ih =>
      rw [euclid]
      by_cases hzero : new = 0
      · rw [if_pos hzero, hzero, Nat.gcd_zero_right]
      · rw [if_neg hzero, ih _ (Nat.mod_lt _ (Nat.pos_of_ne_zero hzero)), Nat.gcd_comm new,
          ← Nat.gcd_rec, Nat.gcd_comm]

/-- What is coprime to the modulus has an inverse, and nothing else has. -/
theorem isSome_inverse?_iff (value modulus : Nat) :
    (inverse? value modulus).isSome ↔ Nat.Coprime value modulus := by
  have hgcd := euclid_eq_gcd modulus (value % modulus) 0 1
  rw [Nat.gcd_comm, ← Nat.gcd_rec, Nat.gcd_comm] at hgcd
  rw [inverse?, Nat.coprime_iff_gcd_eq_one, ← hgcd]
  split
  rename_i divisor factor heuclid
  rw [heuclid]
  split <;> simp_all

end WebToken.Modular
