import WebToken.Number.Modular
import WebToken.Octets

/-! RSA keys, what they are built from, and why they are refused. A private key always has both
prime factors. -/

namespace WebToken.Rsa

structure PublicKey where
  modulus : Nat
  exponent : Nat
deriving DecidableEq, Repr

/-- The length of the modulus in octets, which every signature has too. -/
def PublicKey.size (key : PublicKey) : Nat :=
  Octets.byteLength key.modulus

/-- The two factors of a modulus with what evaluation modulo each of them needs. -/
structure Factors where
  p : Nat
  q : Nat
  exponentP : Nat
  exponentQ : Nat
  coefficient : Nat
deriving DecidableEq, Repr

structure PrivateKey extends PublicKey where
  privateExponent : Nat
  factors : Factors
deriving DecidableEq, Repr

/-- A key, of which the private half may be missing. -/
inductive Key where
  | publicKey (key : PublicKey)
  | privateKey (key : PrivateKey)
deriving DecidableEq, Repr

/-- The half that verifies. -/
def Key.publicHalf : Key → PublicKey
  | publicKey key => key
  | privateKey key => key.toPublicKey

/-- What a private key is built from; `crt` are the two reduced exponents and the coefficient. -/
structure Components where
  modulus : Nat
  exponent : Nat
  privateExponent : Nat
  primes : Option (Nat × Nat)
  crt : Option (Nat × Nat × Nat)
deriving DecidableEq, Repr

inductive Fault where
  | modulusTooLarge
  | exponentTooLarge
  | exponentTooSmall
  | invalidModulus
  | invalidExponent
  | invalidArguments
  | invalidPrime
  | modulusBeyondLimit (bits : Nat)
  | crtExponents
  | crtCoefficient
deriving DecidableEq, Repr

/-- The largest modulus has this many bits. -/
def modulusLimit : Nat := 8192

def Fault.message : Fault → String
  | modulusTooLarge => "modulus too large"
  | exponentTooLarge => "public exponent too large"
  | exponentTooSmall => "public exponent too small"
  | invalidModulus => "invalid modulus"
  | invalidExponent => "invalid exponent"
  | invalidArguments => "invalid arguments"
  | invalidPrime => "invalid prime value"
  | modulusBeyondLimit bits => s!"modulus of {bits} bits exceeds {modulusLimit}"
  | crtExponents => "CRT exponents do not match the prime factors"
  | crtCoefficient => "CRT coefficient does not match the prime factors"

/-- Whether modulus and exponent make a usable public key, whatever the size of the modulus. -/
def PublicKey.check (key : PublicKey) : Except Fault Unit :=
  if 1 <<< 64 ≤ key.exponent then .error .exponentTooLarge
  else if key.modulus ≤ key.exponent ∨ key.modulus % 2 = 0 then .error .invalidModulus
  else if key.exponent % 2 = 0 then .error .invalidExponent
  else if key.exponent < 2 then .error .exponentTooSmall
  else if 1 <<< 33 ≤ key.exponent then .error .exponentTooLarge
  else .ok ()

def PublicKey.build (modulus exponent : Nat) : Except Fault PublicKey :=
  if modulusLimit < Octets.bitLength modulus then .error .modulusTooLarge
  else
    let key : PublicKey := ⟨modulus, exponent⟩
    match key.check with
    | .error fault => .error fault
    | .ok () => .ok key

end WebToken.Rsa
