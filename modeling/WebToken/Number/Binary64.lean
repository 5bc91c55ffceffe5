/-! Numbers in the 64-bit binary format, as their bits. A finite number is `± m · 2 ^ q` for whole
`m` and `q`; arithmetic is exact on these and rounds once, to nearest with ties to even. -/

namespace WebToken

structure Binary64 where
  bits : UInt64
deriving DecidableEq, Repr

namespace Binary64

def isNegative (x : Binary64) : Bool :=
  1 <<< 63 ≤ x.bits.toNat

def biasedExponent (x : Binary64) : Nat :=
  (x.bits.toNat >>> 52) % 2048

def fraction (x : Binary64) : Nat :=
  x.bits.toNat % (1 <<< 52)

/-- The largest biased exponent is kept for the infinities and NaNs. -/
def isFinite (x : Binary64) : Bool :=
  x.biasedExponent != 2047

def isNaN (x : Binary64) : Bool :=
  x.biasedExponent == 2047 && x.fraction != 0

/-- The whole number `m` of a finite number; subnormal ones have no hidden bit. -/
def significand (x : Binary64) : Nat :=
  if x.biasedExponent = 0 then x.fraction else x.fraction + 1 <<< 52

/-- The exponent `q` of a finite number. -/
def exponent (x : Binary64) : Int :=
  (max 1 x.biasedExponent : Nat) - 1075

/-- The magnitude of a finite number is `numerator / denominator`. -/
def numerator (x : Binary64) : Nat :=
  x.significand <<< x.exponent.toNat

def denominator (x : Binary64) : Nat :=
  1 <<< (-x.exponent).toNat

/-- The number with the sign and the lower 63 bits. -/
def ofSignBits (negative : Bool) (magnitude : Nat) : Binary64 :=
  ⟨UInt64.ofNat ((if negative then 1 <<< 63 else 0) + magnitude)⟩

def zero (negative : Bool) : Binary64 :=
  ofSignBits negative 0

/-- The whole number nearest to a quotient; a half goes to the even neighbour. -/
def roundQuotient (numerator denominator : Nat) : Nat :=
  let whole := numerator / denominator
  let rest := 2 * (numerator % denominator)
  if rest < denominator ∨ rest = denominator ∧ whole % 2 = 0 then whole else whole + 1

/-- The fraction `numerator / (denominator · 2 ^ exponent)`. -/
def scaleDown (numerator denominator : Nat) (exponent : Int) : Nat × Nat :=
  (numerator <<< (-exponent).toNat, denominator <<< exponent.toNat)

/-- The exponent at which the quotient has a significand of 53 bits, and the least exponent for
quotients too small for that. -/
def exponentOf (numerator denominator : Nat) : Int :=
  let low := max ((numerator.log2 : Int) - denominator.log2 - 53) (-1074)
  let scaled := scaleDown numerator denominator low
  if scaled.1 / scaled.2 < 1 <<< 53 then low else low + 1

/-- The lower 63 bits of the number nearest to the quotient. Rounding up to `2 ^ 53` carries into
the exponent, and what has no exponent left is infinite. -/
def roundBits (numerator denominator : Nat) : Nat :=
  let exponent := exponentOf numerator denominator
  let scaled := scaleDown numerator denominator exponent
  min ((exponent + 1074).toNat <<< 52 + roundQuotient scaled.1 scaled.2) (2047 <<< 52)

/-- The number nearest to `± numerator / denominator`, infinite if that is too large. -/
def ofQuotient (negative : Bool) (numerator denominator : Nat) : Binary64 :=
  if numerator = 0 then zero negative
  else ofSignBits negative (roundBits numerator denominator)

def ofNat (value : Nat) : Binary64 :=
  ofQuotient false value 1

def ofInt (value : Int) : Binary64 :=
  ofQuotient (value < 0) value.natAbs 1

/-- The product of two finite numbers. -/
def mul (x y : Binary64) : Binary64 :=
  ofQuotient (x.isNegative != y.isNegative) (x.numerator * y.numerator)
    (x.denominator * y.denominator)

/-- The quotient of two finite numbers, the second of which is not zero. -/
def div (x y : Binary64) : Binary64 :=
  ofQuotient (x.isNegative != y.isNegative) (x.numerator * y.denominator)
    (x.denominator * y.numerator)

def isZero (x : Binary64) : Bool :=
  x.biasedExponent == 0 && x.fraction == 0

def neg (x : Binary64) : Binary64 :=
  ofSignBits (!x.isNegative) (x.bits.toNat % (1 <<< 63))

/-- The whole number that a finite number equals. -/
def toInt? (x : Binary64) : Option Int :=
  if x.isFinite && x.numerator % x.denominator == 0 then
    let magnitude : Int := (x.numerator / x.denominator : Nat)
    some (if x.isNegative then -magnitude else magnitude)
  else none

end Binary64

end WebToken
