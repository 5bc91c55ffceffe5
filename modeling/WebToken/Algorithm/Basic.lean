import WebToken.Curve.Basic
import WebToken.Hash.Sha2

/-! The algorithms that a token header can name: none, or a family of keys with a hash function. -/

namespace WebToken

/-- The kinds of keys, one for each way to sign. -/
inductive Family where
  | symmetric
  | rsa
  | ecdsa
deriving DecidableEq, Repr

namespace Family

def name : Family → String
  | symmetric => "Symmetric"
  | rsa => "Rsa"
  | ecdsa => "Ecdsa"

/-- The `kty` member of key documents of the family. -/
def keyType : Family → String
  | symmetric => "oct"
  | rsa => "RSA"
  | ecdsa => "EC"

end Family

inductive Algorithm where
  | none
  | signing (family : Family) (hash : Hash)
deriving DecidableEq, Repr

namespace Algorithm

def all : List Algorithm :=
  [none,
   signing .symmetric .sha256, signing .symmetric .sha384, signing .symmetric .sha512,
   signing .rsa .sha256, signing .rsa .sha384, signing .rsa .sha512,
   signing .ecdsa .sha256, signing .ecdsa .sha384, signing .ecdsa .sha512]

def name : Algorithm → String
  | none => "none"
  | signing .symmetric .sha256 => "HS256"
  | signing .symmetric .sha384 => "HS384"
  | signing .symmetric .sha512 => "HS512"
  | signing .rsa .sha256 => "RS256"
  | signing .rsa .sha384 => "RS384"
  | signing .rsa .sha512 => "RS512"
  | signing .ecdsa .sha256 => "ES256"
  | signing .ecdsa .sha384 => "ES384"
  | signing .ecdsa .sha512 => "ES512"

def isSigning : Algorithm → Bool
  | none => false
  | signing _ _ => true

def family? : Algorithm → Option Family
  | none => Option.none
  | signing family _ => some family

def hash? : Algorithm → Option Hash
  | none => Option.none
  | signing _ hash => some hash

/-- The curve that goes with a hash function. -/
def curveFor : Hash → Curve
  | .sha256 => .p256
  | .sha384 => .p384
  | .sha512 => .p521

/-- The curve that keys of an elliptic-curve algorithm are on. -/
def curve? : Algorithm → Option Curve
  | signing .ecdsa hash => some (curveFor hash)
  | _ => Option.none

def isSymmetric (algorithm : Algorithm) : Bool :=
  algorithm.family? == some .symmetric

end Algorithm

end WebToken
