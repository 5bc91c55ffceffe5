import Mathlib.FieldTheory.Finite.Basic
import WebToken.Proofs.Modular

/-! Proofs of primality that can be checked by evaluation. By Pocklington's criterion a number is prime
if its predecessor has a factor above its root, and modulo each of its prime divisors some base has an
order that the factor divides. A list of such steps, each resting on the primes of those before it, proves
large primes from small ones. -/

namespace WebToken.Primality

variable {number base factored : Nat}

/-- Modulo a prime divisor of the number, the base has an order that the factor divides. -/
theorem factored_dvd_pred {prime : Nat} (hprime : prime.Prime) (hdvd : prime ∣ number)
    (hnumber : 1 < number) (hfactored : factored ∣ number - 1)
    (hpower : base ^ (number - 1) % number = 1)
    (hcoprime : ∀ factor : Nat, factor.Prime → factor ∣ factored →
      Nat.Coprime (base ^ ((number - 1) / factor) % number + (number - 1)) number) :
    factored ∣ prime - 1 := by
  have : Fact prime.Prime := ⟨hprime⟩
  have hpos : 0 < factored := Nat.pos_of_dvd_of_pos hfactored (Nat.sub_pos_of_lt hnumber)
  have hresidue : ∀ exponent : Nat,
      ((base ^ exponent % number : Nat) : ZMod prime) = (base : ZMod prime) ^ exponent := by
    intro exponent
    rw [← Nat.cast_pow, ZMod.natCast_eq_natCast_iff]
    exact (Nat.mod_modEq _ _).of_dvd hdvd
  have hone : (base : ZMod prime) ^ (number - 1) = 1 := by
    rw [← hresidue, hpower, Nat.cast_one]
  have horder : orderOf ((base : ZMod prime) ^ ((number - 1) / factored)) = factored := by
    refine orderOf_eq_of_pow_and_pow_div_prime hpos ?_ fun factor hfactor hdivides hreached => ?_
    · rw [← pow_mul, Nat.div_mul_cancel hfactored, hone]
    · obtain ⟨rest, rfl⟩ := hdivides
      obtain ⟨cofactor, hcofactor⟩ := hfactored
      have hexponent : (number - 1) / (factor * rest) * (factor * rest / factor) =
          (number - 1) / factor := by
        rw [hcofactor, Nat.mul_div_cancel_left _ hpos, Nat.mul_div_cancel_left _ hfactor.pos,
          Nat.mul_assoc, Nat.mul_div_cancel_left _ hfactor.pos, Nat.mul_comm]
      rw [← pow_mul, hexponent, ← hresidue] at hreached
      -- Otherwise the prime would divide two numbers that are coprime.
      have hdifference :
          prime ∣ base ^ ((number - 1) / factor) % number + (number - 1) := by
        rw [← ZMod.natCast_eq_zero_iff, Nat.cast_add, hreached, ← Nat.cast_one (R := ZMod prime),
          ← Nat.cast_add, ZMod.natCast_eq_zero_iff, Nat.add_sub_cancel' hnumber.le]
        exact hdvd
      have hdividesOne := Nat.dvd_gcd hdifference hdvd
      rw [hcoprime factor hfactor (Nat.dvd_mul_right _ _)] at hdividesOne
      exact hprime.one_lt.ne' (Nat.dvd_one.mp hdividesOne)
  have hne : (base : ZMod prime) ^ ((number - 1) / factored) ≠ 0 := by
    intro hzero
    have hpower := pow_orderOf_eq_one ((base : ZMod prime) ^ ((number - 1) / factored))
    rw [horder, hzero, zero_pow hpos.ne'] at hpower
    exact zero_ne_one hpower
  rw [← horder]
  exact ZMod.orderOf_dvd_card_sub_one hne

/-- A prime divisor up to the root would lie below the factor. -/
theorem prime_of_factored (hnumber : 1 < number) (hfactored : factored ∣ number - 1)
    (hlarge : number < factored * factored) (hpower : base ^ (number - 1) % number = 1)
    (hcoprime : ∀ factor : Nat, factor.Prime → factor ∣ factored →
      Nat.Coprime (base ^ ((number - 1) / factor) % number + (number - 1)) number) :
    number.Prime := by
  by_contra hcomposite
  have hprime : number.minFac.Prime := Nat.minFac_prime hnumber.ne'
  have hdvd := factored_dvd_pred hprime (Nat.minFac_dvd _) hnumber hfactored hpower hcoprime
  have hbelow : factored ≤ number.minFac - 1 :=
    Nat.le_of_dvd (Nat.sub_pos_of_lt hprime.one_lt) hdvd
  have hsquare : number.minFac ^ 2 ≤ number := Nat.minFac_sq_le_self (Nat.zero_lt_of_lt hnumber) hcomposite
  have hroot : factored * factored ≤ number.minFac ^ 2 := by
    rw [pow_two]
    exact Nat.mul_le_mul (by omega) (by omega)
  omega

/-- Why a number is prime: a base, and the prime factors, with multiplicity, of a factor of its
predecessor. -/
structure Step where
  number : Nat
  base : Nat
  factors : List Nat

/-- Whether a number is a small prime, or one of some known primes. -/
def isKnown (primes : List Nat) (number : Nat) : Bool :=
  (decide (number < 1000) && decide number.Prime) || primes.contains number

/-- Whether the criterion applies, given some primes. -/
def Step.holds (primes : List Nat) (step : Step) : Bool :=
  decide (1 < step.number) && decide (step.factors.prod ∣ step.number - 1) &&
    decide (step.number < step.factors.prod * step.factors.prod) &&
    Modular.pow step.base (step.number - 1) step.number == 1 &&
    step.factors.all fun factor => isKnown primes factor &&
      Nat.gcd (Modular.pow step.base ((step.number - 1) / factor) step.number + (step.number - 1))
        step.number == 1

/-- Whether each step rests on the given primes and on those of the steps before it. -/
def check (primes : List Nat) : List Step → Bool
  | [] => true
  | step :: steps => step.holds primes && check (step.number :: primes) steps

variable {primes : List Nat}

theorem prime_of_isKnown (hprimes : ∀ prime ∈ primes, prime.Prime)
    (h : isKnown primes number = true) : number.Prime := by
  simp only [isKnown, Bool.or_eq_true, Bool.and_eq_true, decide_eq_true_eq,
    List.contains_iff_mem] at h
  rcases h with ⟨_, hprime⟩ | hmem
  · exact hprime
  · exact hprimes number hmem

theorem prime_of_holds (hprimes : ∀ prime ∈ primes, prime.Prime) {step : Step}
    (h : step.holds primes = true) : step.number.Prime := by
  simp only [Step.holds, Bool.and_eq_true, decide_eq_true_eq, beq_iff_eq, List.all_eq_true,
    Modular.pow_eq] at h
  obtain ⟨⟨⟨⟨hnumber, hfactored⟩, hlarge⟩, hpower⟩, hfactors⟩ := h
  refine prime_of_factored hnumber hfactored hlarge hpower fun factor hfactor hdvd => ?_
  obtain ⟨found, hfound, hdivides⟩ := (Nat.prime_iff.mp hfactor).dvd_prod_iff.mp hdvd
  obtain ⟨hknown, hgcd⟩ := hfactors found hfound
  rw [(Nat.prime_dvd_prime_iff_eq hfactor (prime_of_isKnown hprimes hknown)).mp hdivides]
  exact hgcd

theorem prime_of_check (hprimes : ∀ prime ∈ primes, prime.Prime) {steps : List Step}
    (h : check primes steps = true) : ∀ step ∈ steps, step.number.Prime := by
  induction steps generalizing primes with
  | nil =>
      intro step hstep
      cases hstep
  | cons step steps ih =>
      obtain ⟨hfirst, hrest⟩ := Bool.and_eq_true_iff.mp h
      have hnumber := prime_of_holds hprimes hfirst
      intro found hfound
      rcases List.mem_cons.mp hfound with rfl | hfound
      · exact hnumber
      · refine ih (fun prime hprime => ?_) hrest found hfound
        rcases List.mem_cons.mp hprime with rfl | hprime
        · exact hnumber
        · exact hprimes prime hprime

/-- The last number of a checked list is prime. -/
theorem prime_of_checked {steps : List Step} (h : check [] steps = true)
    (hmem : number ∈ steps.map Step.number) : number.Prime := by
  obtain ⟨step, hstep, rfl⟩ := List.mem_map.mp hmem
  exact prime_of_check (fun _ hprime => absurd hprime List.not_mem_nil) h step hstep

end WebToken.Primality
