import WebToken.Compact
import WebToken.Json.Parser
import WebToken.Json.Printer
import WebToken.Jwk
import WebToken.Scheme

/-! Tokens: a header and claims with their texts as far as these are known, and a signature with its
algorithm. The algorithm is none exactly when the signature is empty. -/

namespace WebToken

structure Token where
  header : Members
  claims : Members
  headerText : Option String
  claimsText : Option String
  algorithm : Algorithm
  signature : Signature

namespace Token

def defaultType : String := "JWT"

/-- An unsigned token without claims, of a type that its header tells. -/
def new (type : Option String) : Token where
  header := [("typ", .string (type.getD defaultType))]
  claims := []
  headerText := none
  claimsText := none
  algorithm := .none
  signature := .empty

/-- The type that the header tells, if it is a string. -/
def type? (token : Token) : Option String :=
  (token.header.find? "typ").bind Json.asString?

/-- The text of the header: the known one, or else the members printed. -/
def writtenHeader (token : Token) : String :=
  token.headerText.getD (Json.object token.header).print

def writtenClaims (token : Token) : String :=
  token.claimsText.getD (Json.object token.claims).print

/-- The token with both its texts known. -/
def settled (token : Token) : Token :=
  { token with headerText := some token.writtenHeader, claimsText := some token.writtenClaims }

/-- The object that a segment of a token holds. -/
def readObject (segment : Segment) (text : String) : Except Error Members :=
  match Json.parse text with
  | .ok (.object members) => .ok members
  | .ok _ => .error (.json (.notObject segment))
  | .error fault => .error (.json (.unreadableSegment segment fault))

/-- The algorithm that a header names; none if it names no known one. -/
def headerAlgorithm (header : Members) : Algorithm :=
  match (header.find? "alg").bind Json.asString? with
  | some name =>
      match Algorithm.ofName name with
      | .ok algorithm => algorithm
      | .error _ => .none
  | none => .none

/-- The token that compact parts make. Its texts are kept as they were received. -/
def ofParts (parts : Compact) : Except Error Token := do
  let header ← readObject .header parts.header
  let claims ← readObject .claims parts.claims
  let algorithm := headerAlgorithm header
  if algorithm.isSigning = parts.signature.isEmpty then
    .error (.signatureMismatch algorithm parts.signature.length)
  else
    .ok
      { header := header
        claims := claims
        headerText := some parts.header
        claimsText := some parts.claims
        algorithm := algorithm
        signature := parts.signature }

/-- The token that a compact form writes. -/
def read (text : String) : Attempt Token := do
  let parts ← Compact.decode text
  let token ← ofParts parts
  Attempt.report (.imported token.algorithm token.claims.length token.signature.length)
  return token

/-- The compact form of the token, with or without the segment of its signature. -/
def write (token : Token) (withSignature : Bool) : Logged (Token × String) := do
  let signature := if withSignature then some token.signature.octets else none
  let text ← Compact.encode token.writtenHeader token.writtenClaims signature
  return (token.settled, text)

/-- What the signature of the token covers. -/
def signingInput (token : Token) : Octets :=
  Octets.ofText (Compact.signingInput token.writtenHeader token.writtenClaims)

/-- The token about to be signed: without signature, with the algorithm in its header. -/
def prepared (token : Token) (algorithm : Algorithm) : Token :=
  { token with
    header := token.header.insert "alg" (.string algorithm.name)
    headerText := none
    algorithm := .none
    signature := .empty }

/-- The token after an attempt to sign was refused: unsigned, with no algorithm in its header. -/
def withdrawn (token : Token) : Token :=
  { token with header := token.header.erase "alg", headerText := none }

/-- The signature for a token that is prepared for it. -/
def computeSignature (token : Token) (algorithm : Algorithm) (document : Json) :
    Action Signature := do
  let found ← ExceptT.lift (signingKey document algorithm).run
  match found with
  | .ok key => algorithm.sign key token.signingInput
  | .error (.error cause) =>
      Attempt.report (.signingKeyRejected algorithm cause)
      throw (.error cause)
  | .error .crash => throw .crash

/-- Signs the token with the key that a document describes. If key or signature is refused the token
is left unsigned, without an algorithm in its header; if the arguments allow no signature at all it is
left alone. What breaks off leaves it as it was prepared, with the algorithm in its header. -/
def sign (token : Token) (algorithm : Algorithm) (document : Json) :
    Logged (Token × Outcome Unit) := do
  if !algorithm.isSigning then return (token, .error (.error .noneCannotSign))
  if document.asObject?.isNone then return (token, .error (.error .keyDocumentMissing))
  let ready := (token.prepared algorithm).settled
  match ← (ready.computeSignature algorithm document).run with
  | .ok signature =>
      return ({ ready with algorithm := algorithm, signature := signature }, .ok ())
  | .error (.error cause) => return (ready.withdrawn, .error (.error cause))
  | .error .crash => return (ready, .error .crash)

/-- Whether the signature fits the key that a document describes. Why it does not is only
reported. -/
def hasValidSignature (token : Token) (document : Json) : Logged (Token × Bool) := do
  if !token.algorithm.isSigning || token.signature.isEmpty then
    Logged.report .unsigned
    return (token, false)
  match ← (verifyingKey document token.algorithm).run with
  | .ok key =>
      let valid ← token.algorithm.verify key token.signingInput token.signature.octets
      return (token.settled, valid)
  | .error cause =>
      Logged.report (.verifyingKeyRejected token.algorithm cause)
      return (token, false)

end Token

end WebToken
