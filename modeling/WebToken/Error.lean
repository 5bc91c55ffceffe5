import WebToken.Algorithm.Basic
import WebToken.Json.Fault
import WebToken.Number.Binary64
import WebToken.Rsa.Signature
import WebToken.Text.Base64Url.Decode

/-! Why an operation is refused. Each cause has a category and a message. -/

namespace WebToken

/-- The parts of a compact token. -/
inductive Segment where
  | header
  | claims
  | signature
deriving DecidableEq, Repr

def Segment.name : Segment → String
  | header => "header"
  | claims => "claims"
  | signature => "signature"

inductive Category where
  | malformedInput
  | invalidArgument
  | keyMaterial
  | provider
deriving DecidableEq, Repr

def Category.name : Category → String
  | malformedInput => "MalformedInput"
  | invalidArgument => "InvalidArgument"
  | keyMaterial => "KeyMaterial"
  | provider => "Provider"

/-- Why a text was expected to be JSON and is not fit. -/
inductive JsonFault where
  | unreadable (fault : Json.Fault)
  | unreadableSegment (segment : Segment) (fault : Json.Fault)
  | notObject (segment : Segment)
deriving DecidableEq, Repr

def JsonFault.message : JsonFault → String
  | unreadable fault => fault.message
  | unreadableSegment segment fault => s!"{segment.name}: {fault.message}"
  | notObject segment => s!"{segment.name} is not a JSON object"

/-- Why an algorithm name stands for none. -/
inductive NameFault where
  | unknown (name : String)
  | tooLong (size limit : Nat)
deriving DecidableEq, Repr

def NameFault.message : NameFault → String
  | unknown name => name
  | tooLong size limit =>
      s!"Algorithm string too long: {size} bytes (maximum: {limit} bytes)"

/-- Why a member of a key document has no value. -/
inductive MemberFault where
  | notString
  | notBase64String
  | undecodable (fault : Base64Url.Fault)
  | empty
deriving DecidableEq, Repr

def base64Message (fault : Base64Url.Fault) : String :=
  s!"Base64URL decoding failed: {fault.message}"

def MemberFault.message : MemberFault → String
  | notString => "expected a string"
  | notBase64String => "expected a Base64URL string"
  | undecodable fault => base64Message fault
  | empty => "empty value"

/-- Why numbers make no key. -/
inductive KeyFault where
  | rsa (fault : Rsa.Fault)
  | coordinateTooLong (curve : Curve) (length : Nat)
  | invalidScalar (curve : Curve)
  | pointOffCurve (curve : Curve)
deriving DecidableEq, Repr

def KeyFault.message : KeyFault → String
  | rsa fault => s!"rsa: {fault.message}"
  | coordinateTooLong curve length =>
      s!"ecdsa: coordinate of {length} bytes is too long for {curve.name} ({curve.fieldSize} bytes)"
  | invalidScalar curve => s!"ecdsa: private scalar is invalid for {curve.name}"
  | pointOffCurve curve => s!"ecdsa: point is not on {curve.name}"

/-- Why a fitting key gives no signature. -/
inductive SigningFault where
  | rsa (fault : Rsa.SigningFault)
  | ecdsa
deriving DecidableEq, Repr

def SigningFault.message : SigningFault → String
  | rsa fault => s!"rsa: {fault.message}"
  | ecdsa => "ecdsa: signature error"

inductive Error where
  | segmentCount
  | base64 (fault : Base64Url.Fault)
  | json (fault : JsonFault)
  | segmentTooLarge (segment : Segment) (size limit : Nat)
  | signatureMismatch (algorithm : Algorithm) (length : Nat)
  | noneCannotSign
  | algorithmUnsupported (fault : NameFault)
  | keyDocumentMissing
  | numberNotFinite (value : Binary64)
  | memberMissing (member : String)
  | memberInvalid (member : String) (fault : MemberFault)
  | memberTooLarge (member : String) (size limit : Nat)
  | keyTypeUnsupported (keyType : String)
  | curveUnsupported (name : String)
  | keyTypeMismatch (algorithm expected found : String)
  | curveMismatch (algorithm : Algorithm) (expected found : Curve)
  | keyInvalid (fault : KeyFault)
  | signingFailed (fault : SigningFault)
  | signatureInvalid
  | capacityExceeded (size limit : Nat)
deriving DecidableEq, Repr

namespace Error

def category : Error → Category
  | segmentCount | base64 _ | json _ | segmentTooLarge .. | signatureMismatch .. => .malformedInput
  | noneCannotSign | algorithmUnsupported _ | keyDocumentMissing | numberNotFinite _ =>
      .invalidArgument
  | memberMissing _ | memberInvalid .. | memberTooLarge .. | keyTypeUnsupported _
  | curveUnsupported _ | keyTypeMismatch .. | curveMismatch .. | keyInvalid _ => .keyMaterial
  | signingFailed _ | signatureInvalid | capacityExceeded .. => .provider

/-- The text of a number that is not finite. -/
def nonFiniteText (value : Binary64) : String :=
  if value.isNaN then "NaN" else if value.isNegative then "-inf" else "inf"

def message : Error → String
  | segmentCount => "Invalid JWT format: expected three parts separated by '.'"
  | base64 fault => base64Message fault
  | json fault => s!"JSON parsing failed: {fault.message}"
  | segmentTooLarge segment size limit =>
      s!"Token segment '{segment.name}' too large: {size} bytes (maximum: {limit} bytes)"
  | signatureMismatch algorithm length =>
      s!"Algorithm '{algorithm.name}' is inconsistent with a signature of {length} bytes"
  | noneCannotSign => "The 'none' algorithm cannot be used to sign"
  | algorithmUnsupported fault => s!"Algorithm '{fault.message}' is not supported or not enabled"
  | keyDocumentMissing => "Key description must be a JSON object"
  | numberNotFinite value => s!"Claim number must be finite, got {nonFiniteText value}"
  | memberMissing member => s!"JWK is missing required field '{member}'"
  | memberInvalid member fault => s!"JWK field '{member}' could not be decoded: {fault.message}"
  | memberTooLarge member size limit =>
      s!"JWK field '{member}' too large: {size} bytes (maximum: {limit} bytes)"
  | keyTypeUnsupported keyType => s!"JWK key type '{keyType}' is not supported"
  | curveUnsupported name => s!"JWK curve '{name}' is not supported"
  | keyTypeMismatch algorithm expected found =>
      s!"Key type mismatch for algorithm '{algorithm}': expected {expected}, got {found}"
  | curveMismatch algorithm expected found =>
      s!"Curve mismatch for algorithm '{algorithm.name}': " ++
        s!"expected {expected.name}, got {found.name}"
  | keyInvalid fault => s!"Key material rejected: {fault.message}"
  | signingFailed fault => s!"Signing failed: {fault.message}"
  | signatureInvalid => "Signature verification failed"
  | capacityExceeded size limit =>
      s!"Buffer capacity exceeded: {size} bytes (maximum: {limit} bytes)"

end Error

end WebToken
