import WebToken.Curve.Basic
import WebToken.Hash.Hmac

/-! Nonces for signatures, drawn from a keyed hash of the private scalar and the digest. A signature may
be made with any nonce between zero and the order of the curve, and a signer may draw it at random, as is
usual for P-521; the nonce derived here is one of those allowed. -/

namespace WebToken.Nonce

/-- The hash function whose digests are as strong as the curve. -/
def hashFor : Curve → Hash
  | .p256 => .sha256
  | .p384 => .sha384
  | .p521 => .sha512

/-- A generator of octets: a key, and the value that was last put out under it. -/
structure Generator where
  hash : Hash
  key : Octets
  value : Octets

namespace Generator

/-- Mixes octets into the key. -/
def mix (generator : Generator) (marker : UInt8) (input : Octets) : Generator :=
  let key := generator.hash.hmac generator.key (generator.value ++ marker :: input)
  { generator with key := key, value := generator.hash.hmac key generator.value }

def seeded (hash : Hash) (seed : Octets) : Generator :=
  let blank : Generator :=
    ⟨hash, List.replicate hash.length 0x00, List.replicate hash.length 0x01⟩
  (blank.mix 0x00 seed).mix 0x01 seed

/-- The next octets, in so many pieces of the length of a digest. -/
def draw (generator : Generator) : Nat → Octets → Octets × Generator
  | 0, drawn => (drawn, generator)
  | pieces + 1, drawn =>
      let value := generator.hash.hmac generator.key generator.value
      draw { generator with value := value } pieces (drawn ++ value)

end Generator

/-- The leading bits of the octets, as many as the order of the curve has. -/
def leadingBits (curve : Curve) (octets : Octets) : Nat :=
  Octets.toNat octets >>> (8 * octets.length - Octets.bitLength curve.order)

/-- The first candidate between zero and the order, among so many. -/
def search (curve : Curve) : Nat → Nonce.Generator → Option Nat
  | 0, _ => none
  | tries + 1, generator =>
      let pieces := (curve.fieldSize + generator.hash.length - 1) / generator.hash.length
      let (drawn, generator) := generator.draw pieces []
      let candidate := leadingBits curve (drawn.take curve.fieldSize)
      if 0 < candidate ∧ candidate < curve.order then some candidate
      else search curve tries (generator.mix 0x00 [])

/-- The nonce for a private scalar and the field-width octets of a digest. -/
def derive (curve : Curve) (scalar : Nat) (digest : Octets) : Option Nat :=
  search curve 256
    (.seeded (hashFor curve) (Octets.ofNat curve.fieldSize scalar ++ digest))

end WebToken.Nonce
