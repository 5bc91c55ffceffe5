import WebToken.Curve.Nonce

/-! Signatures on curves: two scalars, each written at the width of the field. -/

namespace WebToken.Ecdsa

/-- A private scalar of a curve. -/
structure SigningKey where
  curve : Curve
  scalar : Nat
deriving DecidableEq, Repr

/-- The coordinates of a public point of a curve. -/
structure VerifyingKey where
  curve : Curve
  x : Nat
  y : Nat
deriving DecidableEq, Repr

/-- The public point of a private scalar. -/
def SigningKey.point (key : SigningKey) : Point :=
  key.curve.mul key.scalar key.curve.base

def VerifyingKey.point (key : VerifyingKey) : Point :=
  .affine key.x key.y

/-- A key, of which the private half may be missing. -/
inductive Key where
  | signing (key : SigningKey)
  | verifying (key : VerifyingKey)
deriving DecidableEq, Repr

namespace Key

def curve : Key → Curve
  | signing key => key.curve
  | verifying key => key.curve

/-- The public point. -/
def point : Key → Point
  | signing key => key.point
  | verifying key => key.point

end Key

/-- The octets of a digest that a signature covers, at the width of the field. A longer digest is
cut off, a shorter one padded, and one shorter than half the width refused. -/
def coveredDigest (curve : Curve) (digest : Octets) : Option Octets :=
  if digest.length < curve.fieldSize / 2 then none
  else
    let kept := digest.take curve.fieldSize
    some (List.replicate (curve.fieldSize - kept.length) 0 ++ kept)

def writeScalars (curve : Curve) (r s : Nat) : Octets :=
  Octets.ofNat curve.fieldSize r ++ Octets.ofNat curve.fieldSize s

/-- Two scalars between zero and the order of the curve. -/
def readScalars (curve : Curve) (signature : Octets) : Option (Nat × Nat) :=
  if signature.length ≠ 2 * curve.fieldSize then none
  else
    let r := Octets.toNat (signature.take curve.fieldSize)
    let s := Octets.toNat (signature.drop curve.fieldSize)
    if 0 < r ∧ r < curve.order ∧ 0 < s ∧ s < curve.order then some (r, s) else none

/-- The signature with a given nonce; none if one of its scalars would be zero. -/
def SigningKey.signWith (key : SigningKey) (nonce : Nat) (covered : Octets) : Option Octets :=
  let curve := key.curve
  match curve.mul nonce curve.base, Modular.inverse? nonce curve.order with
  | .affine x _, some inverse =>
      let r := x % curve.order
      let s := inverse * (Octets.toNat covered + r * key.scalar) % curve.order
      if r = 0 ∨ s = 0 then none else some (writeScalars curve r s)
  | _, _ => none

/-- The signature of a digest with the nonce that is derived for it, one of many that it may have. -/
def SigningKey.sign (key : SigningKey) (digest : Octets) : Option Octets := do
  let covered ← coveredDigest key.curve digest
  let nonce ← Nonce.derive key.curve key.scalar covered
  key.signWith nonce covered

/-- Whether the signature of a digest fits a public point. -/
def verifies (curve : Curve) (point : Point) (digest signature : Octets) : Bool :=
  match readScalars curve signature, coveredDigest curve digest with
  | some (r, s), some covered =>
      match Modular.inverse? s curve.order with
      | none => false
      | some inverse =>
          let forBase := Octets.toNat covered * inverse % curve.order
          let forPoint := r * inverse % curve.order
          match curve.add (curve.mul forBase curve.base) (curve.mul forPoint point) with
          | .infinity => false
          | .affine x _ => x % curve.order == r
  | _, _ => false

end WebToken.Ecdsa
