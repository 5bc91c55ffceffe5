import WebToken.Text.Base64Url.Basic
import WebToken.Text.Utf8

/-! Reading the unpadded URL-safe base-64 form. It is strict: each octet string has one written
form, and every other text is refused with its first fault. -/

namespace WebToken.Base64Url

inductive Fault where
  | encodedTooLong (length limit : Nat)
  | decodedTooLong (length limit : Nat)
  | invalidSymbol (octet : UInt8) (offset : Nat)
  | invalidLength (length : Nat)
  | invalidPadding
  | invalidLastSymbol (octet : UInt8) (offset : Nat)
  | notText (fault : Utf8.Fault)
deriving DecidableEq, Repr

namespace Fault

def message : Fault → String
  | encodedTooLong length limit =>
      s!"Encoded size exceeds limit: {length} characters (max: {limit})"
  | decodedTooLong length limit =>
      s!"Decoded size exceeds limit: {length} bytes (max: {limit})"
  | invalidSymbol octet offset =>
      s!"Base64URL decode failed: Invalid symbol {octet.toNat}, offset {offset}."
  | invalidLength length => s!"Base64URL decode failed: Invalid input length: {length}"
  | invalidPadding => "Base64URL decode failed: Invalid padding"
  | invalidLastSymbol octet offset =>
      s!"Base64URL decode failed: Invalid last symbol {octet.toNat}, offset {offset}."
  | notText fault => s!"Invalid UTF-8: {fault.message}"

end Fault

/-- The sextet of an octet of the text; the octet at `offset` is refused if it is no symbol. -/
def readSymbol (offset : Nat) (octet : UInt8) : Except Fault Nat :=
  match sextet? octet with
  | some sextet => .ok sextet
  | none => .error (.invalidSymbol octet offset)

/-- A last octet that is neither a symbol nor padding, in a text one octet longer than whole
groups, is reported before any other fault. -/
def strayLast? (text : Octets) : Option Fault :=
  if text.length % 4 = 1 then
    match text.getLast? with
    | some octet =>
        if octet ≠ padding ∧ sextet? octet = none then
          some (.invalidSymbol octet (text.length - 1))
        else none
    | none => none
  else none

/-- The last group as read so far: its symbols, latest first, and where padding began. -/
structure LastGroup where
  symbols : List (UInt8 × Nat)
  paddedFrom : Option Nat

/-- Reads the octets of the last group one by one, the next at `index` within it. -/
def readLast (start index : Nat) (group : LastGroup) : Octets → Except Fault LastGroup
  | [] => .ok group
  | octet :: rest =>
      if octet = padding then
        if index < 2 then .error (.invalidSymbol padding (start + index))
        else readLast start (index + 1)
          { group with paddedFrom := group.paddedFrom <|> some index } rest
      else
        match group.paddedFrom with
        | some first => .error (.invalidSymbol padding (start + first))
        | none =>
            match sextet? octet with
            | none => .error (.invalidSymbol octet (start + index))
            | some sextet =>
                readLast start (index + 1)
                  { group with symbols := (octet, sextet) :: group.symbols } rest

/-- The octets of a last group, which stand behind `decoded`, latest first. Bits of its last symbol
that no octet takes must be zero. -/
def closeLast (start : Nat) (decoded : Octets) (group : LastGroup) : Except Fault Octets :=
  match group.paddedFrom, group.symbols with
  | none, [] => .ok decoded.reverse
  | some _, [] => .error (.invalidLength start)
  | _, [_] => .error (.invalidLength (start + 1))
  | some _, _ => .error .invalidPadding
  | none, [(octet, second), (_, first)] =>
      if second % 16 = 0 then
        .ok (UInt8.ofNat (first * 4 + second / 16) :: decoded).reverse
      else .error (.invalidLastSymbol octet (start + 1))
  | none, [(octet, third), (_, second), (_, first)] =>
      if third % 4 = 0 then
        .ok (UInt8.ofNat (second % 16 * 16 + third / 4) ::
          UInt8.ofNat (first * 4 + second / 16) :: decoded).reverse
      else .error (.invalidLastSymbol octet (start + 2))
  | none, (_, fourth) :: (_, third) :: (_, second) :: (_, first) :: _ =>
      .ok (UInt8.ofNat (third % 4 * 64 + fourth) ::
        UInt8.ofNat (second % 16 * 16 + third / 4) ::
        UInt8.ofNat (first * 4 + second / 16) :: decoded).reverse

/-- Decodes the groups from `start` on. The octets of those before it are `decoded`, latest
first. -/
def decodeFrom (start : Nat) (decoded : Octets) : Octets → Except Fault Octets
  | a :: b :: c :: d :: e :: rest => do
      let first ← readSymbol start a
      let second ← readSymbol (start + 1) b
      let third ← readSymbol (start + 2) c
      let fourth ← readSymbol (start + 3) d
      decodeFrom (start + 4)
        (UInt8.ofNat (third % 4 * 64 + fourth) ::
          UInt8.ofNat (second % 16 * 16 + third / 4) ::
          UInt8.ofNat (first * 4 + second / 16) :: decoded) (e :: rest)
  | last => do
      let group ← readLast start 0 ⟨[], none⟩ last
      closeLast start decoded group

/-- The octets that the text writes. -/
def decodeOctets (text : Octets) : Except Fault Octets :=
  match strayLast? text with
  | some fault => .error fault
  | none => decodeFrom 0 [] text

/-- The octets that the text writes, at most `limit` of them. The length of the text is checked
first. -/
def decode (text : String) (limit : Limit) : Except Fault Octets :=
  let longest := (encodedLength limit).toNat
  if longest < text.utf8ByteSize then .error (.encodedTooLong text.utf8ByteSize longest)
  else
    match decodeOctets (Octets.ofText text) with
    | .error fault => .error fault
    | .ok octets =>
        if limit.octets.toNat < octets.length then
          .error (.decodedTooLong octets.length limit.octets.toNat)
        else .ok octets

/-- The text whose UTF-8 octets, at most `limit` of them, are written. -/
def decodeText (text : String) (limit : Limit) : Except Fault String :=
  match decode text limit with
  | .error fault => .error fault
  | .ok octets =>
      match Utf8.decode octets with
      | .error fault => .error (.notText fault)
      | .ok decoded => .ok decoded

end WebToken.Base64Url
