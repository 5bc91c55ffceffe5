import WebToken.Rsa.Recovery

/-! Building private keys. All numbers that describe a key must agree with its factors. -/

namespace WebToken.Rsa

/-- Whether two factors fit modulus and exponents. That they are prime is not tested. -/
def checkFactors (key : PublicKey) (privateExponent p q : Nat) : Except Fault Unit :=
  let product := privateExponent * key.exponent
  if p ≤ 1 ∨ q ≤ 1 then .error .invalidPrime
  else if p * q ≠ key.modulus then .error .invalidModulus
  else if product % (p - 1) ≠ 1 ∨ product % (q - 1) ≠ 1 then .error .invalidExponent
  else .ok ()

/-- Whether supplied values for evaluation modulo the factors are the right ones. -/
def checkCrt (factors : Factors) (crt : Nat × Nat × Nat) : Except Fault Unit :=
  let (exponentP, exponentQ, coefficient) := crt
  if exponentP ≠ factors.exponentP ∨ exponentQ ≠ factors.exponentQ then .error .crtExponents
  else if factors.p ≤ coefficient ∨ coefficient * factors.q % factors.p ≠ 1 then
    .error .crtCoefficient
  else .ok ()

/-- A private key with two factors, and with supplied values for evaluation modulo them if there
are any. -/
def PrivateKey.ofFactors (components : Components) (p q : Nat)
    (crt : Option (Nat × Nat × Nat)) : Except Fault PrivateKey := do
  let key : PublicKey := ⟨components.modulus, components.exponent⟩
  key.check
  checkFactors key components.privateExponent p q
  if modulusLimit < 8 * key.size then .error (.modulusBeyondLimit (8 * key.size))
  else
    match Modular.inverse? q p with
    | none => .error .invalidPrime
    | some coefficient => do
        let factors : Factors :=
          ⟨p, q, components.privateExponent % (p - 1), components.privateExponent % (q - 1),
            coefficient⟩
        match crt with
        | none => .ok ()
        | some crt => checkCrt factors crt
        .ok ⟨key, components.privateExponent, factors⟩

/-- How building a private key ends. -/
inductive Building where
  | built (key : PrivateKey)
  | refused (fault : Fault)
  | belowZero
deriving DecidableEq, Repr

def Building.ofExcept : Except Fault PrivateKey → Building
  | .ok key => built key
  | .error fault => refused fault

def PrivateKey.build (components : Components) : Building :=
  match components.primes with
  | some (p, q) => .ofExcept (ofFactors components p q components.crt)
  | none =>
      match recover components.modulus components.exponent components.privateExponent with
      | .found p q => .ofExcept (ofFactors components p q none)
      | .refused fault => .refused fault
      | .belowZero => .belowZero

end WebToken.Rsa
