/-! Octet strings, read as big-endian numbers and as UTF-8 text. -/

namespace WebToken

abbrev Octets := List UInt8

namespace Octets

/-- The octets of a text in UTF-8. -/
def ofText (text : String) : Octets :=
  text.toUTF8.data.toList

/-- The number that the octets spell, most significant octet first. -/
def toNat (octets : Octets) : Nat :=
  octets.foldl (fun value octet => value * 256 + octet.toNat) 0

/-- The last `width` octets of the number's big-endian form, padded with zeros. -/
def ofNat : (width value : Nat) → Octets
  | 0, _ => []
  | width + 1, value => ofNat width (value / 256) ++ [UInt8.ofNat value]

@[simp]
theorem length_ofNat (width value : Nat) : (ofNat width value).length = width := by
  induction width generalizing value with
  | zero => rfl
  | succ width ih => rw [ofNat, List.length_append, ih, List.length_singleton]

/-- How many bits the number takes; zero takes none. -/
def bitLength (value : Nat) : Nat :=
  if value = 0 then 0 else value.log2 + 1

/-- How many octets the number takes; zero takes none. -/
def byteLength (value : Nat) : Nat :=
  (bitLength value + 7) / 8

/-- The shortest nonempty big-endian form. -/
def minimal (value : Nat) : Octets :=
  ofNat (max 1 (byteLength value)) value

end Octets

end WebToken
