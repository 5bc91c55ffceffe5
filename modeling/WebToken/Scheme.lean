import WebToken.Hash.Hmac
import WebToken.Key
import WebToken.Octets.Bounded

/-! Signature schemes, and signing and verification of octets by them. A key of another family or
another curve is refused, never used. -/

namespace WebToken

/-- An algorithm with the functions that it computes with. -/
inductive Scheme where
  | hmac (algorithm : Algorithm) (hash : Hash)
  | rsa (algorithm : Algorithm) (hash : Hash)
  | ecdsa (algorithm : Algorithm) (hash : Hash) (curve : Curve)
deriving DecidableEq, Repr

namespace Scheme

def algorithm : Scheme → Algorithm
  | hmac algorithm _ => algorithm
  | rsa algorithm _ => algorithm
  | ecdsa algorithm _ _ => algorithm

def name (scheme : Scheme) : String := scheme.algorithm.name

def ofAlgorithm : Algorithm → Except Error Scheme
  | .none => .error (.algorithmUnsupported (.unknown Algorithm.none.name))
  | .signing .symmetric hash => .ok (hmac (.signing .symmetric hash) hash)
  | .signing .rsa hash => .ok (rsa (.signing .rsa hash) hash)
  | .signing .ecdsa hash =>
      .ok (ecdsa (.signing .ecdsa hash) hash (Algorithm.curveFor hash))

/-- Keys on another curve than the scheme's are refused. -/
def checkCurve (algorithm : Algorithm) (expected found : Curve) : Except Error Unit :=
  if found = expected then .ok () else .error (.curveMismatch algorithm expected found)

def sign (scheme : Scheme) (key : Key) (input : Octets) : Except Error Signature :=
  match scheme with
  | hmac _ hash => do
      let secret ← key.asSymmetric
      BoundedOctets.ofOctets (hash.hmac secret input)
  | rsa algorithm hash => do
      match ← key.asRsa with
      | .publicKey _ => .error (.keyTypeMismatch algorithm.name "RSA private" key.kind)
      | .privateKey pair =>
          match pair.sign hash input with
          | .ok signature => BoundedOctets.ofOctets signature
          | .error fault => .error (.signingFailed (.rsa fault))
  | ecdsa algorithm hash curve => do
      let found ← key.asEcdsa
      checkCurve algorithm curve found.curve
      match found with
      | .verifying _ => .error (.keyTypeMismatch algorithm.name "ECDSA signing" key.kind)
      | .signing pair =>
          match pair.sign (hash.digest input) with
          | some signature => BoundedOctets.ofOctets signature
          | none => .error (.signingFailed .ecdsa)

def accept (valid : Bool) : Except Error Unit :=
  if valid then .ok () else .error .signatureInvalid

def verify (scheme : Scheme) (key : Key) (input signature : Octets) : Except Error Unit :=
  match scheme with
  | hmac _ hash => do
      let secret ← key.asSymmetric
      accept (signature == hash.hmac secret input)
  | rsa _ hash => do
      let found ← key.asRsa
      accept (found.publicHalf.verifies hash input signature)
  | ecdsa algorithm hash curve => do
      let found ← key.asEcdsa
      checkCurve algorithm curve found.curve
      accept (Ecdsa.verifies curve found.point (hash.digest input) signature)

end Scheme

namespace Algorithm

/-- Signs octets, and reports how that went. -/
def sign (algorithm : Algorithm) (key : Key) (input : Octets) : Attempt Signature := do
  let scheme ← Scheme.ofAlgorithm algorithm
  match scheme.sign key input with
  | .ok signature =>
      Attempt.report (.signed scheme.algorithm signature.length)
      return signature
  | .error cause =>
      Attempt.report (.signingFailed scheme.algorithm key.kind cause)
      throw cause

/-- Why a signature does not fit the octets, if it does not. -/
def check (algorithm : Algorithm) (key : Key) (input signature : Octets) : Except Error Unit := do
  let scheme ← Scheme.ofAlgorithm algorithm
  scheme.verify key input signature

/-- Whether a signature fits the octets; if it does not, the cause is only reported. -/
def verify (algorithm : Algorithm) (key : Key) (input signature : Octets) : Logged Bool := do
  match algorithm.check key input signature with
  | .ok () => return true
  | .error cause =>
      Logged.report (.signatureRejected algorithm signature.length cause)
      return false

end Algorithm

end WebToken
