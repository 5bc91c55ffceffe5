import WebToken.Error

/-! Octets that never exceed a capacity. -/

namespace WebToken

structure BoundedOctets (capacity : Nat) where
  octets : Octets
  bounded : octets.length ≤ capacity
deriving DecidableEq, Repr

namespace BoundedOctets

variable {capacity : Nat}

def empty : BoundedOctets capacity := ⟨[], Nat.zero_le _⟩

def ofOctets (octets : Octets) : Except Error (BoundedOctets capacity) :=
  if bounded : octets.length ≤ capacity then .ok ⟨octets, bounded⟩
  else .error (.capacityExceeded octets.length capacity)

def length (bounded : BoundedOctets capacity) : Nat := bounded.octets.length

def isEmpty (bounded : BoundedOctets capacity) : Bool := bounded.octets.isEmpty

/-- Length and capacity, without the octets. -/
def summary (bounded : BoundedOctets capacity) : String :=
  s!"BoundedBuffer \x7b len: {bounded.length}, capacity: {capacity} \x7d"

end BoundedOctets

/-- The octets of a signature; none of them if there is none. -/
abbrev Signature := BoundedOctets 2048

/-- The octets of a digest. -/
abbrev Digest := BoundedOctets 128

/-- The digest of a message, at a capacity that all digests fit. -/
def Digest.of (hash : Hash) (message : Octets) : Except Error Digest :=
  BoundedOctets.ofOctets (hash.digest message)

end WebToken
