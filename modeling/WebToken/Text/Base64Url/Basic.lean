import WebToken.Octets

/-! The unpadded URL-safe base-64 form of octets: its alphabet, and how it is written. -/

namespace WebToken.Base64Url

/-- The character that writes a sextet: `A–Z`, `a–z`, `0–9`, `-`, `_`. -/
def symbol (sextet : Nat) : Char :=
  if sextet < 26 then Char.ofNat (65 + sextet)
  else if sextet < 52 then Char.ofNat (71 + sextet)
  else if sextet < 62 then Char.ofNat (sextet - 4)
  else if sextet = 62 then '-'
  else '_'

def sextet? (octet : UInt8) : Option Nat :=
  let code := octet.toNat
  if 65 ≤ code ∧ code ≤ 90 then some (code - 65)
  else if 97 ≤ code ∧ code ≤ 122 then some (code - 71)
  else if 48 ≤ code ∧ code ≤ 57 then some (code + 4)
  else if code = 45 then some 62
  else if code = 95 then some 63
  else none

/-- The octet of `=`, which the padded variants of the form end with. -/
def padding : UInt8 := 61

/-- Writes the octets behind a text, three octets as four symbols. -/
def encodeOnto (text : String) : Octets → String
  | a :: b :: c :: rest =>
      encodeOnto
        ((((text.push (symbol (a.toNat / 4))).push
          (symbol (a.toNat % 4 * 16 + b.toNat / 16))).push
          (symbol (b.toNat % 16 * 4 + c.toNat / 64))).push
          (symbol (c.toNat % 64))) rest
  | [a, b] =>
      ((text.push (symbol (a.toNat / 4))).push
        (symbol (a.toNat % 4 * 16 + b.toNat / 16))).push (symbol (b.toNat % 16 * 4))
  | [a] => (text.push (symbol (a.toNat / 4))).push (symbol (a.toNat % 4 * 16))
  | [] => text

def encode (octets : Octets) : String :=
  encodeOnto "" octets

def encodeText (text : String) : String :=
  encode (Octets.ofText text)

/-- A limit on octets for which the length of the longest written form can be computed in machine
words. -/
structure Limit where
  octets : UInt64
  fits : octets.toNat * 4 + 2 < 0x10000000000000000

/-- The limit of so many octets, unless computing that length leaves the machine words. -/
def Limit.of? (octets : UInt64) : Option Limit :=
  if fits : octets.toNat * 4 + 2 < 0x10000000000000000 then some ⟨octets, fits⟩ else none

/-- The length of the longest written form that a limit allows. -/
def encodedLength (limit : Limit) : UInt64 :=
  (limit.octets * 4 + 2) / 3

end WebToken.Base64Url
