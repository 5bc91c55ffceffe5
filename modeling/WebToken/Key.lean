import WebToken.Action
import WebToken.Curve.Ecdsa

/-! Keys for signing and for verification, built from the big-endian octets of their numbers. -/

namespace WebToken

inductive Key where
  | symmetric (secret : Octets)
  | rsa (key : Rsa.Key)
  | ecdsa (key : Ecdsa.Key)
deriving DecidableEq, Repr

namespace Key

/-- What kind of key it is. -/
def kind : Key → String
  | symmetric _ => "Symmetric"
  | rsa (.privateKey _) => "RSA private"
  | rsa (.publicKey _) => "RSA public"
  | ecdsa (.signing _) => "ECDSA signing"
  | ecdsa (.verifying _) => "ECDSA verifying"

/-- The kind of the key, without its numbers. -/
def summary (key : Key) : String :=
  "Key(\"" ++ key.kind ++ "\")"

/-- The length of a secret, without its octets. -/
def secretSummary (secret : Octets) : String :=
  s!"SymmetricKey \x7b len: {secret.length} \x7d"

/-- The secret, if the key is one. -/
def asSymmetric (key : Key) : Except Error Octets :=
  match key with
  | symmetric secret => .ok secret
  | _ => .error (.keyTypeMismatch "HMAC" "Symmetric" key.kind)

def asRsa (key : Key) : Except Error Rsa.Key :=
  match key with
  | rsa key => .ok key
  | _ => .error (.keyTypeMismatch "RSA" "RSA" key.kind)

def asEcdsa (key : Key) : Except Error Ecdsa.Key :=
  match key with
  | ecdsa key => .ok key
  | _ => .error (.keyTypeMismatch "ECDSA" "ECDSA" key.kind)

def ofRsaPublic (modulus exponent : Octets) : Except Error Key :=
  match Rsa.PublicKey.build (Octets.toNat modulus) (Octets.toNat exponent) with
  | .ok key => .ok (rsa (.publicKey key))
  | .error fault => .error (.keyInvalid (.rsa fault))

def ofRsaPrivate (components : Rsa.Components) : Outcome Key :=
  match Rsa.PrivateKey.build components with
  | .built key => .ok (rsa (.privateKey key))
  | .refused fault => .error (.error (.keyInvalid (.rsa fault)))
  | .belowZero => .error .crash

/-- The number that octets spell, of which there may be as many as the field of the curve has. -/
def coordinate (curve : Curve) (octets : Octets) : Except Error Nat :=
  if curve.fieldSize < octets.length then
    .error (.keyInvalid (.coordinateTooLong curve octets.length))
  else .ok (Octets.toNat octets)

def ofEcdsaScalar (curve : Curve) (octets : Octets) : Except Error Key := do
  let scalar ← coordinate curve octets
  if 0 < scalar ∧ scalar < curve.order then .ok (ecdsa (.signing ⟨curve, scalar⟩))
  else .error (.keyInvalid (.invalidScalar curve))

def ofEcdsaPoint (curve : Curve) (xOctets yOctets : Octets) : Except Error Key := do
  let x ← coordinate curve xOctets
  let y ← coordinate curve yOctets
  if x < curve.fieldPrime ∧ y < curve.fieldPrime ∧ curve.satisfies x y then
    .ok (ecdsa (.verifying ⟨curve, x, y⟩))
  else .error (.keyInvalid (.pointOffCurve curve))

end Key

end WebToken
