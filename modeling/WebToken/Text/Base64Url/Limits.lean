import WebToken.Action

/-! Decoding under limits of any size, as callers choose them. It breaks off under those for which the
length of the longest written form leaves the machine words, whatever the text. -/

namespace WebToken.Base64Url

/-- What decoding comes to under a limit that a caller chooses. -/
def underLimit {α : Type} (octets : UInt64) (decode : Limit → Except Fault α) : Outcome α :=
  match Limit.of? octets with
  | some limit => Outcome.ofExcept ((decode limit).mapError Error.base64)
  | none => .error .crash

def decodeUpTo (text : String) (octets : UInt64) : Outcome Octets :=
  underLimit octets (decode text)

def decodeTextUpTo (text : String) (octets : UInt64) : Outcome String :=
  underLimit octets (decodeText text)

end WebToken.Base64Url
