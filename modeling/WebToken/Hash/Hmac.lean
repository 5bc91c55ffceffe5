import WebToken.Hash.Sha2

/-! Keyed hashing of messages. -/

namespace WebToken.Hash

/-- The secret as one block: a longer one is hashed first, a shorter one padded with zeros. -/
def keyBlock (hash : Hash) (secret : Octets) : Octets :=
  let short := if hash.blockLength < secret.length then hash.digest secret else secret
  short ++ List.replicate (hash.blockLength - short.length) 0

def hmac (hash : Hash) (secret message : Octets) : Octets :=
  let block := hash.keyBlock secret
  let inner := hash.digest (block.map (· ^^^ 0x36) ++ message)
  hash.digest (block.map (· ^^^ 0x5c) ++ inner)

end WebToken.Hash
