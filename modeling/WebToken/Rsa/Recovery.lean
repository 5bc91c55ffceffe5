import WebToken.Rsa.Key

/-! The prime factors of a modulus, found from the exponents. -/

namespace WebToken.Rsa

/-- How the search for the factors ends. It has no result at all where it would have to go below
zero. -/
inductive Recovery where
  | found (p q : Nat)
  | refused (fault : Fault)
  | belowZero
deriving DecidableEq, Repr

/-- The factors of a modulus, the larger one first, from an equation that both solve: their sum is
found from the exponents, their difference from sum and product. -/
def recover (modulus exponent privateExponent : Nat) : Recovery :=
  if exponent ≤ 1 <<< 16 ∨ 1 <<< 256 ≤ exponent then .refused .invalidArguments
  else if modulus = 0 ∨ privateExponent = 0 then .belowZero
  else
    let order := privateExponent * exponent - 1
    let multiple := order * Nat.gcd (modulus - 1) order
    let quotient := multiple / modulus
    let rest := multiple % modulus
    if (modulus - rest) % (quotient + 1) ≠ 0 then .refused .invalidArguments
    else
      let sum := (modulus - rest) / (quotient + 1) + 1
      if sum * sum ≤ 4 * modulus then .refused .invalidArguments
      else
        let square := sum * sum - 4 * modulus
        let difference := Modular.sqrt square
        if difference * difference ≠ square then .refused .invalidArguments
        else .found ((sum + difference) / 2) ((sum - difference) / 2)

end WebToken.Rsa
