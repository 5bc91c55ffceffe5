import WebToken.Algorithm.Name
import WebToken.Json.Members
import WebToken.Key

/-! Key documents: JSON objects that describe a key. Only the members that a key needs are read. -/

namespace WebToken

structure Jwk where
  members : Members

namespace Jwk

/-- Members stand for at most this many octets. -/
def valueLimit : Base64Url.Limit := ⟨1024, by decide⟩

/-- The longest text that writes a member. -/
def textLimit : Nat := (Base64Url.encodedLength valueLimit).toNat

def ofJson : Json → Except Error Jwk
  | .object members => .ok ⟨members⟩
  | _ => .error .keyDocumentMissing

/-- A member, if it is there and a string. -/
def text? (jwk : Jwk) (member : String) : Option String :=
  (jwk.members.find? member).bind Json.asString?

/-- A string member that must be there. -/
def requiredText (jwk : Jwk) (member : String) : Except Error String :=
  match jwk.members.find? member with
  | none => .error (.memberMissing member)
  | some (.string text) => .ok text
  | some _ => .error (.memberInvalid member .notString)

/-- The octets that a member writes, if it is there. -/
def octets? (jwk : Jwk) (member : String) : Except Error (Option Octets) :=
  match jwk.members.find? member with
  | none => .ok none
  | some (.string text) =>
      if textLimit < text.utf8ByteSize then
        .error (.memberTooLarge member text.utf8ByteSize textLimit)
      else
        match Base64Url.decode text valueLimit with
        | .error fault => .error (.memberInvalid member (.undecodable fault))
        | .ok [] => .error (.memberInvalid member .empty)
        | .ok octets => .ok (some octets)
  | some _ => .error (.memberInvalid member .notBase64String)

/-- The octets that a member writes, which must be there. -/
def octets (jwk : Jwk) (member : String) : Except Error Octets := do
  match ← jwk.octets? member with
  | some octets => .ok octets
  | none => .error (.memberMissing member)

/-- Whether the key type fits the family of the algorithm. That the document names another
algorithm is only reported. -/
def checkAlgorithm (jwk : Jwk) (algorithm : Algorithm) (family : Family) : Attempt Unit := do
  let keyType ← jwk.requiredText "kty"
  if keyType ∉ ["oct", "RSA", "EC"] then throw (.keyTypeUnsupported keyType)
  if keyType ≠ family.keyType then
    throw (.keyTypeMismatch algorithm.name family.keyType keyType)
  match jwk.text? "alg" with
  | some named =>
      if named ≠ algorithm.name then Attempt.report (.algorithmDisagrees named algorithm)
  | none => return

/-- The family of an algorithm that signs. -/
def familyOf (algorithm : Algorithm) : Except Error Family :=
  match algorithm.family? with
  | some family => .ok family
  | none => .error (.algorithmUnsupported (.unknown algorithm.name))

/-- The curve that the document names, which must be the algorithm's. -/
def curve (jwk : Jwk) (algorithm : Algorithm) : Except Error Curve := do
  let found ← Curve.ofName (← jwk.requiredText "crv")
  match algorithm.curve? with
  | some expected =>
      if expected = found then .ok found else .error (.curveMismatch algorithm expected found)
  | none => .error (.algorithmUnsupported (.unknown algorithm.name))

def symmetricKey (jwk : Jwk) : Except Error Key := do
  return .symmetric (← jwk.octets "k")

/-- The prime factors, if the document has both. -/
def primes (jwk : Jwk) : Attempt (Option (Nat × Nat)) := do
  let p ← jwk.octets? "p"
  let q ← jwk.octets? "q"
  match p, q with
  | some p, some q => return some (Octets.toNat p, Octets.toNat q)
  | none, none => return none
  | _, _ =>
      Attempt.report .lonePrime
      return none

/-- The values for evaluation modulo the factors, if the document has all three. -/
def crt (jwk : Jwk) : Attempt (Option (Nat × Nat × Nat)) := do
  let exponentP ← jwk.octets? "dp"
  let exponentQ ← jwk.octets? "dq"
  let coefficient ← jwk.octets? "qi"
  match exponentP, exponentQ, coefficient with
  | some exponentP, some exponentQ, some coefficient =>
      return some (Octets.toNat exponentP, Octets.toNat exponentQ, Octets.toNat coefficient)
  | none, none, none => return none
  | _, _, _ =>
      Attempt.report .partialCrt
      return none

def rsaComponents (jwk : Jwk) : Attempt Rsa.Components := do
  let modulus ← jwk.octets "n"
  let exponent ← jwk.octets "e"
  let privateExponent ← jwk.octets "d"
  let primes ← jwk.primes
  let crt ← jwk.crt
  if crt.isSome ∧ primes.isNone then Attempt.report .crtWithoutPrimes
  return ⟨Octets.toNat modulus, Octets.toNat exponent, Octets.toNat privateExponent, primes,
    if primes.isSome then crt else none⟩

def rsaPrivateKey (jwk : Jwk) : Action Key := do
  Key.ofRsaPrivate (← jwk.rsaComponents)

def rsaPublicKey (jwk : Jwk) : Except Error Key := do
  let modulus ← jwk.octets "n"
  let exponent ← jwk.octets "e"
  Key.ofRsaPublic modulus exponent

def ecdsaSigningKey (jwk : Jwk) (algorithm : Algorithm) : Except Error Key := do
  let curve ← jwk.curve algorithm
  let scalar ← jwk.octets "d"
  Key.ofEcdsaScalar curve scalar

def ecdsaVerifyingKey (jwk : Jwk) (algorithm : Algorithm) : Except Error Key := do
  let curve ← jwk.curve algorithm
  let x ← jwk.octets "x"
  let y ← jwk.octets "y"
  Key.ofEcdsaPoint curve x y

/-- The document, if its key type fits the algorithm. -/
def fitting (purpose : Purpose) (document : Json) (algorithm : Algorithm) :
    Attempt (Jwk × Family) := do
  let jwk ← ofJson document
  let family ← familyOf algorithm
  jwk.checkAlgorithm algorithm family
  Attempt.report (.buildingKey purpose algorithm family)
  return (jwk, family)

end Jwk

/-- The key for signing with an algorithm that a document describes. Of elliptic-curve keys only the
scalar is read, never the point. -/
def signingKey (document : Json) (algorithm : Algorithm) : Action Key := do
  let (jwk, family) ← Jwk.fitting .signing document algorithm
  match family with
  | .symmetric => jwk.symmetricKey
  | .rsa => jwk.rsaPrivateKey
  | .ecdsa => jwk.ecdsaSigningKey algorithm

/-- The key for verification with an algorithm that a document describes. -/
def verifyingKey (document : Json) (algorithm : Algorithm) : Attempt Key := do
  let (jwk, family) ← Jwk.fitting .verification document algorithm
  match family with
  | .symmetric => jwk.symmetricKey
  | .rsa => jwk.rsaPublicKey
  | .ecdsa => jwk.ecdsaVerifyingKey algorithm

end WebToken
