/-! Arithmetic modulo a number: powers, inverses, and whole square roots. -/

namespace WebToken.Modular

/-- Multiplies `acc` by `base ^ exponent` modulo the modulus, by squaring. -/
def powOnto (modulus acc base exponent : Nat) : Nat :=
  if exponent = 0 then acc % modulus
  else
    powOnto modulus (if exponent % 2 = 1 then acc * base % modulus else acc)
      (base * base % modulus) (exponent / 2)
termination_by exponent
decreasing_by omega

def pow (base exponent modulus : Nat) : Nat :=
  powOnto modulus 1 (base % modulus) exponent

/-- Euclid's algorithm on two remainders, each with the factor that it is a multiple of the value
by. The result is the greatest common divisor with its factor. -/
def euclid (old new : Nat) (oldFactor newFactor : Int) : Nat × Int :=
  if new = 0 then (old, oldFactor)
  else euclid new (old % new) newFactor (oldFactor - (old / new : Nat) * newFactor)
termination_by new
decreasing_by exact Nat.mod_lt _ (Nat.pos_of_ne_zero ‹_›)

/-- The number below the modulus whose product with the value is one. -/
def inverse? (value modulus : Nat) : Option Nat :=
  let (divisor, factor) := euclid modulus (value % modulus) 0 1
  if divisor = 1 then some (factor % modulus).toNat else none

/-- The largest number whose square is at most the value. -/
def sqrt (value : Nat) : Nat :=
  if value = 0 then 0
  else
    let root := 2 * sqrt (value / 4)
    if (root + 1) * (root + 1) ≤ value then root + 1 else root
termination_by value
decreasing_by omega

end WebToken.Modular
