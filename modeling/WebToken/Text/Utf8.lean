import WebToken.Octets

/-! Strict UTF-8 decoding. Ill-formed octets are refused with the place where well-formed text
ends. -/

namespace WebToken.Utf8

/-- Where well-formed text ends: after `validLength` octets comes a sequence that breaks off after
`brokenLength` octets, or that the end of the text cuts short. -/
structure Fault where
  validLength : Nat
  brokenLength : Option Nat
deriving DecidableEq, Repr

namespace Fault

def message (fault : Fault) : String :=
  match fault.brokenLength with
  | some length => s!"invalid utf-8 sequence of {length} bytes from index {fault.validLength}"
  | none => s!"incomplete utf-8 byte sequence from index {fault.validLength}"

end Fault

/-- An inclusive range of octets. -/
structure Span where
  first : UInt8
  last : UInt8
deriving DecidableEq, Repr

namespace Span

def contains (span : Span) (octet : UInt8) : Bool :=
  span.first ≤ octet && octet ≤ span.last

def continuation : Span := ⟨0x80, 0xbf⟩

end Span

/-- What may follow a leading octet, octet by octet; none if no sequence starts with it. -/
def followers? (lead : UInt8) : Option (List Span) :=
  if lead < 0x80 then some []
  else if lead < 0xc2 then none
  else if lead < 0xe0 then some [.continuation]
  else if lead = 0xe0 then some [⟨0xa0, 0xbf⟩, .continuation]
  else if lead = 0xed then some [⟨0x80, 0x9f⟩, .continuation]
  else if lead < 0xf0 then some [.continuation, .continuation]
  else if lead = 0xf0 then some [⟨0x90, 0xbf⟩, .continuation, .continuation]
  else if lead < 0xf4 then some [.continuation, .continuation, .continuation]
  else if lead = 0xf4 then some [⟨0x80, 0x8f⟩, .continuation, .continuation]
  else none

/-- Reads on in a sequence that began at `start`, of which `seen` octets are read and `expected`
are to follow. -/
def faultFrom (start seen : Nat) (expected : List Span) : Octets → Fault
  | [] => ⟨start, none⟩
  | octet :: rest =>
      match expected with
      | [] =>
          match followers? octet with
          | none => ⟨start, some 1⟩
          | some [] => faultFrom (start + 1) 0 [] rest
          | some spans => faultFrom start 1 spans rest
      | span :: more =>
          if span.contains octet then
            if more.isEmpty then faultFrom (start + seen + 1) 0 [] rest
            else faultFrom start (seen + 1) more rest
          else ⟨start, some seen⟩

def decode (octets : Octets) : Except Fault String :=
  match String.fromUTF8? octets.toByteArray with
  | some text => .ok text
  | none => .error (faultFrom 0 0 [] octets)

end WebToken.Utf8
