import WebToken.Hash.Sha2
import WebToken.Rsa.Building

/-! Signatures by a power of a padded digest. Evaluation goes modulo both factors, and its result
is checked before it is given away. -/

namespace WebToken.Rsa

/-- The octets that name the hash function in front of a digest. -/
def digestHeader : Hash → Octets
  | .sha256 => [0x30, 0x31, 0x30, 0x0d, 0x06, 0x09, 0x60, 0x86, 0x48, 0x01, 0x65, 0x03, 0x04, 0x02,
      0x01, 0x05, 0x00, 0x04, 0x20]
  | .sha384 => [0x30, 0x41, 0x30, 0x0d, 0x06, 0x09, 0x60, 0x86, 0x48, 0x01, 0x65, 0x03, 0x04, 0x02,
      0x02, 0x05, 0x00, 0x04, 0x30]
  | .sha512 => [0x30, 0x51, 0x30, 0x0d, 0x06, 0x09, 0x60, 0x86, 0x48, 0x01, 0x65, 0x03, 0x04, 0x02,
      0x03, 0x05, 0x00, 0x04, 0x40]

/-- The padded digest, `size` octets long; none if fewer than eight octets are left for padding. -/
def encodeDigest (hash : Hash) (digest : Octets) (size : Nat) : Option Octets :=
  let body := digestHeader hash ++ digest
  if size < body.length + 11 then none
  else some (0x00 :: 0x01 :: (List.replicate (size - body.length - 3) 0xff ++ 0x00 :: body))

inductive SigningFault where
  | messageTooLong
  | inconsistent
deriving DecidableEq, Repr

def SigningFault.message : SigningFault → String
  | messageTooLong => "message too long"
  | inconsistent => "internal error"

/-- The private power of a number, put together from its remainders by the two factors. -/
def PrivateKey.power (key : PrivateKey) (value : Nat) : Nat :=
  let f := key.factors
  let byP := Modular.pow value f.exponentP f.p
  let byQ := Modular.pow value f.exponentQ f.q
  let difference := (((byP : Int) - byQ) % f.p).toNat
  byQ + difference * f.coefficient % f.p * f.q

def PrivateKey.sign (key : PrivateKey) (hash : Hash) (message : Octets) :
    Except SigningFault Octets :=
  match encodeDigest hash (hash.digest message) key.size with
  | none => .error .messageTooLong
  | some block =>
      let value := Octets.toNat block
      let signature := key.power value
      if Modular.pow signature key.exponent key.modulus = value then
        .ok (Octets.ofNat key.size signature)
      else .error .inconsistent

def PublicKey.verifies (key : PublicKey) (hash : Hash) (message signature : Octets) : Bool :=
  let value := Octets.toNat signature
  if signature.length ≠ key.size ∨ key.modulus ≤ value then false
  else
    match encodeDigest hash (hash.digest message) key.size with
    | none => false
    | some block =>
        Octets.ofNat key.size (Modular.pow value key.exponent key.modulus) == block

end WebToken.Rsa
