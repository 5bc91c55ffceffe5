import WebToken.Number.Modular

/-! The prime curves `y² = x³ - 3x + b` over fields of 256, 384 and 521 bits, and the group of
their points. -/

namespace WebToken

inductive Curve where
  | p256
  | p384
  | p521
deriving DecidableEq, Repr

namespace Curve

def name : Curve → String
  | p256 => "P-256"
  | p384 => "P-384"
  | p521 => "P-521"

def ofName? (name : String) : Option Curve :=
  [p256, p384, p521].find? (·.name == name)

/-- The length of a coordinate or scalar in octets. -/
def fieldSize : Curve → Nat
  | p256 => 32
  | p384 => 48
  | p521 => 66

/-- The prime of the coordinate field: `2²⁵⁶ - 2²²⁴ + 2¹⁹² + 2⁹⁶ - 1`, `2³⁸⁴ - 2¹²⁸ - 2⁹⁶ + 2³² - 1`
and `2⁵²¹ - 1`. -/
def fieldPrime : Curve → Nat
  | p256 => 0xffffffff00000001000000000000000000000000ffffffffffffffffffffffff
  | p384 => 0xfffffffffffffffffffffffffffffffffffffffffffffffffffffffffffffffeffffffff0000000000000000ffffffff
  | p521 => 0x1ffffffffffffffffffffffffffffffffffffffffffffffffffffffffffffffffffffffffffffffffffffffffffffffffffffffffffffffffffffffffffffffffff

/-- The constant term `b` of the equation. -/
def constantTerm : Curve → Nat
  | p256 => 0x5ac635d8aa3a93e7b3ebbd55769886bc651d06b0cc53b0f63bce3c3e27d2604b
  | p384 => 0xb3312fa7e23ee7e4988e056be3f82d19181d9c6efe8141120314088f5013875ac656398d8a2ed19d2a85c8edd3ec2aef
  | p521 => 0x51953eb9618e1c9a1f929a21a0b68540eea2da725b99b315f3b8b489918ef109e156193951ec7e937b1652c0bd3bb1bf073573df883d2c34f1ef451fd46b503f00

/-- The number of points, a prime. -/
def order : Curve → Nat
  | p256 => 0xffffffff00000000ffffffffffffffffbce6faada7179e84f3b9cac2fc632551
  | p384 => 0xffffffffffffffffffffffffffffffffffffffffffffffffc7634d81f4372ddf581a0db248b0a77aecec196accc52973
  | p521 => 0x1fffffffffffffffffffffffffffffffffffffffffffffffffffffffffffffffffa51868783bf2f966b7fcc0148f709a5d03bb5c9b8899c47aebb6fb71e91386409

end Curve

/-- A point: the one at infinity, or two coordinates below the field prime. -/
inductive Point where
  | infinity
  | affine (x y : Nat)
deriving DecidableEq, Repr

namespace Curve

/-- The point that generates all others. -/
def base : Curve → Point
  | p256 => .affine
      0x6b17d1f2e12c4247f8bce6e563a440f277037d812deb33a0f4a13945d898c296
      0x4fe342e2fe1a7f9b8ee7eb4a7c0f9e162bce33576b315ececbb6406837bf51f5
  | p384 => .affine
      0xaa87ca22be8b05378eb1c71ef320ad746e1d3b628ba79b9859f741e082542a385502f25dbf55296c3a545e3872760ab7
      0x3617de4a96262c6f5d9e98bf9292dc29f8f41dbd289a147ce9da3113b5f0b8c00a60b1ce1d7e819d7a431d7c90ea0e5f
  | p521 => .affine
      0xc6858e06b70404e9cd9e3ecb662395b4429c648139053fb521f828af606b4d3dbaa14b5e77efe75928fe1dc127a2ffa8de3348b3c1856a429bf97e7e31c2e5bd66
      0x11839296a789a3bc0045c8a5fb42c7d1bd998f54449579b446817afbd17273e662c97ee72995ef42640c550b9013fad0761353c7086a272c24088be94769fd16650

/-- The difference of two field elements. -/
def sub (curve : Curve) (left right : Nat) : Nat :=
  (left + (curve.fieldPrime - right % curve.fieldPrime)) % curve.fieldPrime

/-- The quotient of two field elements; zero if the divisor is zero. -/
def div (curve : Curve) (left right : Nat) : Nat :=
  match Modular.inverse? right curve.fieldPrime with
  | some inverse => left * inverse % curve.fieldPrime
  | none => 0

/-- Whether the coordinates satisfy the equation of the curve. -/
def satisfies (curve : Curve) (x y : Nat) : Bool :=
  y * y % curve.fieldPrime
    == curve.sub ((x * x % curve.fieldPrime) * x + curve.constantTerm) (3 * x)

/-- The third point of the line with the slope through a point and one at `x`, mirrored. -/
def reflect (curve : Curve) (slope x₁ y₁ x₂ : Nat) : Point :=
  let x := curve.sub (slope * slope) (x₁ + x₂)
  .affine x (curve.sub (slope * curve.sub x₁ x) y₁)

/-- The sum of two points, by the chord or the tangent through them. -/
def add (curve : Curve) : Point → Point → Point
  | .infinity, right => right
  | left, .infinity => left
  | .affine x₁ y₁, .affine x₂ y₂ =>
      if x₁ = x₂ then
        if (y₁ + y₂) % curve.fieldPrime = 0 then .infinity
        else curve.reflect (curve.div (curve.sub (3 * (x₁ * x₁)) 3) (2 * y₁)) x₁ y₁ x₂
      else curve.reflect (curve.div (curve.sub y₂ y₁) (curve.sub x₂ x₁)) x₁ y₁ x₂

/-- Adds so many times the point to `acc`, by doubling. -/
def mulOnto (curve : Curve) (acc : Point) (scalar : Nat) (point : Point) : Point :=
  if scalar = 0 then acc
  else
    mulOnto curve (if scalar % 2 = 1 then curve.add acc point else acc) (scalar / 2)
      (curve.add point point)
termination_by scalar
decreasing_by omega

def mul (curve : Curve) (scalar : Nat) (point : Point) : Point :=
  curve.mulOnto .infinity scalar point

end Curve

end WebToken
