import WebToken.Error

/-! What operations report while they run. -/

namespace WebToken

inductive Level where
  | trace
  | debug
  | warn
deriving DecidableEq, Repr

def Level.name : Level → String
  | trace => "TRACE"
  | debug => "DEBUG"
  | warn => "WARN"

/-- What a key is built for. -/
inductive Purpose where
  | signing
  | verification
deriving DecidableEq, Repr

/-- An event, with what it tells. No event tells a key or a signature. -/
inductive Event where
  | decoding (headerLength claimsLength signatureLength : Nat)
  | encoded (length : Nat) (isSigned : Bool)
  | imported (algorithm : Algorithm) (claims signatureLength : Nat)
  | buildingKey (purpose : Purpose) (algorithm : Algorithm) (family : Family)
  | algorithmDisagrees (named : String) (algorithm : Algorithm)
  | lonePrime
  | partialCrt
  | crtWithoutPrimes
  | signed (algorithm : Algorithm) (signatureLength : Nat)
  | signingFailed (algorithm : Algorithm) (keyType : String) (error : Error)
  | signatureRejected (algorithm : Algorithm) (signatureLength : Nat) (error : Error)
  | unsigned
  | verifyingKeyRejected (algorithm : Algorithm) (error : Error)
  | signingKeyRejected (algorithm : Algorithm) (error : Error)
deriving DecidableEq, Repr

namespace Event

def level : Event → Level
  | decoding .. | encoded .. | imported .. | buildingKey .. => .trace
  | algorithmDisagrees .. | lonePrime | partialCrt | crtWithoutPrimes => .warn
  | signed .. | signingFailed .. | signatureRejected .. | unsigned | verifyingKeyRejected ..
  | signingKeyRejected .. => .debug

def message : Event → String
  | decoding .. => "decoding compact token"
  | encoded .. => "encoded compact token"
  | imported .. => "imported token"
  | buildingKey .signing _ _ => "materializing signing key"
  | buildingKey .verification _ _ => "materializing verification key"
  | algorithmDisagrees .. => "JWK alg member does not match the requested algorithm"
  | lonePrime => "JWK carries only one of p/q; recovering primes from n, e, d"
  | partialCrt => "JWK carries a partial dp/dq/qi set; ignoring CRT parameters"
  | crtWithoutPrimes => "JWK carries CRT parameters without p and q; ignoring CRT parameters"
  | signed .. => "signed"
  | signingFailed .. => "signing failed"
  | signatureRejected .. => "signature rejected"
  | unsigned => "token is unsigned"
  | verifyingKeyRejected .. => "verification key rejected"
  | signingKeyRejected .. => "signing key rejected"

/-- The named values of an event, as texts. -/
def fields : Event → List (String × String)
  | decoding headerLength claimsLength signatureLength =>
      [("header_len", headerLength.repr), ("claims_len", claimsLength.repr),
       ("signature_len", signatureLength.repr)]
  | encoded length isSigned =>
      [("len", length.repr), ("signed", if isSigned then "true" else "false")]
  | imported algorithm claims signatureLength =>
      [("algorithm", algorithm.name), ("claims", claims.repr),
       ("signature_len", signatureLength.repr)]
  | buildingKey _ algorithm family =>
      [("algorithm", algorithm.name), ("kty", family.keyType)]
  | algorithmDisagrees named algorithm =>
      [("jwk_alg", named), ("algorithm", algorithm.name)]
  | lonePrime | partialCrt | crtWithoutPrimes | unsigned => []
  | signed algorithm signatureLength =>
      [("algorithm", algorithm.name), ("signature_len", signatureLength.repr)]
  | signingFailed algorithm keyType error =>
      [("algorithm", algorithm.name), ("key", keyType), ("error", error.message)]
  | signatureRejected algorithm signatureLength error =>
      [("algorithm", algorithm.name), ("signature_len", signatureLength.repr),
       ("category", error.category.name), ("error", error.message)]
  | verifyingKeyRejected algorithm error =>
      [("algorithm", algorithm.name), ("category", error.category.name),
       ("error", error.message)]
  | signingKeyRejected algorithm error =>
      [("algorithm", algorithm.name), ("error", error.message)]

end Event

end WebToken
