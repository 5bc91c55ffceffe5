import WebToken.Action
import WebToken.Octets.Bounded

/-! The compact form of tokens: header, claims and signature, each written in base-64 and separated
by points. The octets that are signed end before the last point. -/

namespace WebToken

structure Compact where
  header : String
  claims : String
  signature : Signature
deriving DecidableEq, Repr

namespace Compact

/-- Header and claims have at most this many octets. -/
def textLimit : Base64Url.Limit := ⟨65536, by decide⟩

def signatureLimit : Base64Url.Limit := ⟨2048, by decide⟩

/-- The three segments of a text, as written. -/
def segments (text : String) : Except Error (String × String × String) :=
  match text.toList.splitOn '.' with
  | [header, claims, signature] =>
      .ok (String.ofList header, String.ofList claims, String.ofList signature)
  | _ => .error .segmentCount

/-- A segment longer than the written form of so many octets is refused before it is decoded. -/
def checkSize (segment : Segment) (written : String) (limit : Base64Url.Limit) :
    Except Error Unit :=
  let longest := (Base64Url.encodedLength limit).toNat
  if longest < written.utf8ByteSize then
    .error (.segmentTooLarge segment written.utf8ByteSize longest)
  else .ok ()

def readText (segment : Segment) (written : String) : Except Error String := do
  checkSize segment written textLimit
  match Base64Url.decodeText written textLimit with
  | .ok text => .ok text
  | .error fault => .error (.base64 fault)

def readSignature (written : String) : Except Error Signature := do
  checkSize .signature written signatureLimit
  match Base64Url.decode written signatureLimit with
  | .ok octets => BoundedOctets.ofOctets octets
  | .error fault => .error (.base64 fault)

/-- The parts that three segments write. -/
def ofSegments (header claims signature : String) : Except Error Compact := do
  let header ← readText .header header
  let claims ← readText .claims claims
  let signature ← readSignature signature
  .ok ⟨header, claims, signature⟩

/-- The parts of a compact token. -/
def read (text : String) : Except Error Compact := do
  let (header, claims, signature) ← segments text
  ofSegments header claims signature

/-- What is signed: header and claims as they are written. -/
def signingInput (header claims : String) : String :=
  Base64Url.encodeText header ++ "." ++ Base64Url.encodeText claims

/-- The compact form; without signature it is what is signed. -/
def write (header claims : String) : Option Octets → String
  | some signature => signingInput header claims ++ "." ++ Base64Url.encode signature
  | none => signingInput header claims

/-- Reads a compact token and reports the lengths of its segments. -/
def decode (text : String) : Attempt Compact := do
  let (header, claims, signature) ← segments text
  Attempt.report (.decoding header.utf8ByteSize claims.utf8ByteSize signature.utf8ByteSize)
  ofSegments header claims signature

/-- Writes a compact token and reports its length. -/
def encode (header claims : String) (signature : Option Octets) : Logged String := do
  let text := write header claims signature
  Logged.report (.encoded text.utf8ByteSize signature.isSome)
  return text

end Compact

end WebToken
