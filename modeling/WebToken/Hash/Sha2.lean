import WebToken.Octets

/-! The hash functions SHA-256, SHA-384 and SHA-512. One compression function serves all three; it
works on words of 32 or 64 bits. -/

namespace WebToken

namespace Sha2

/-- Words of one width, the rotations that mix them and the number of rounds for a block. -/
class Word (α : Type) where
  octets : Nat
  rounds : Nat
  ofNat : Nat → α
  toNat : α → Nat
  add : α → α → α
  xor : α → α → α
  and : α → α → α
  not : α → α
  mixE : α → α
  mixA : α → α
  spreadNear : α → α
  spreadFar : α → α

def rotate32 (word : UInt32) (count : UInt32) : UInt32 :=
  word >>> count ||| word <<< (32 - count)

def rotate64 (word : UInt64) (count : UInt64) : UInt64 :=
  word >>> count ||| word <<< (64 - count)

instance : Word UInt32 where
  octets := 4
  rounds := 64
  ofNat := UInt32.ofNat
  toNat := UInt32.toNat
  add := (· + ·)
  xor := (· ^^^ ·)
  and := (· &&& ·)
  not := (~~~ ·)
  mixE word := rotate32 word 6 ^^^ rotate32 word 11 ^^^ rotate32 word 25
  mixA word := rotate32 word 2 ^^^ rotate32 word 13 ^^^ rotate32 word 22
  spreadNear word := rotate32 word 7 ^^^ rotate32 word 18 ^^^ word >>> 3
  spreadFar word := rotate32 word 17 ^^^ rotate32 word 19 ^^^ word >>> 10

instance : Word UInt64 where
  octets := 8
  rounds := 80
  ofNat := UInt64.ofNat
  toNat := UInt64.toNat
  add := (· + ·)
  xor := (· ^^^ ·)
  and := (· &&& ·)
  not := (~~~ ·)
  mixE word := rotate64 word 14 ^^^ rotate64 word 18 ^^^ rotate64 word 41
  mixA word := rotate64 word 28 ^^^ rotate64 word 34 ^^^ rotate64 word 39
  spreadNear word := rotate64 word 1 ^^^ rotate64 word 8 ^^^ word >>> 7
  spreadFar word := rotate64 word 19 ^^^ rotate64 word 61 ^^^ word >>> 6

/-- The first 64 bits behind the point of the cube roots of the first eighty primes. -/
def roundConstants : List Nat :=
  [0x428a2f98d728ae22, 0x7137449123ef65cd, 0xb5c0fbcfec4d3b2f, 0xe9b5dba58189dbbc,
   0x3956c25bf348b538, 0x59f111f1b605d019, 0x923f82a4af194f9b, 0xab1c5ed5da6d8118,
   0xd807aa98a3030242, 0x12835b0145706fbe, 0x243185be4ee4b28c, 0x550c7dc3d5ffb4e2,
   0x72be5d74f27b896f, 0x80deb1fe3b1696b1, 0x9bdc06a725c71235, 0xc19bf174cf692694,
   0xe49b69c19ef14ad2, 0xefbe4786384f25e3, 0x0fc19dc68b8cd5b5, 0x240ca1cc77ac9c65,
   0x2de92c6f592b0275, 0x4a7484aa6ea6e483, 0x5cb0a9dcbd41fbd4, 0x76f988da831153b5,
   0x983e5152ee66dfab, 0xa831c66d2db43210, 0xb00327c898fb213f, 0xbf597fc7beef0ee4,
   0xc6e00bf33da88fc2, 0xd5a79147930aa725, 0x06ca6351e003826f, 0x142929670a0e6e70,
   0x27b70a8546d22ffc, 0x2e1b21385c26c926, 0x4d2c6dfc5ac42aed, 0x53380d139d95b3df,
   0x650a73548baf63de, 0x766a0abb3c77b2a8, 0x81c2c92e47edaee6, 0x92722c851482353b,
   0xa2bfe8a14cf10364, 0xa81a664bbc423001, 0xc24b8b70d0f89791, 0xc76c51a30654be30,
   0xd192e819d6ef5218, 0xd69906245565a910, 0xf40e35855771202a, 0x106aa07032bbd1b8,
   0x19a4c116b8d2d0c8, 0x1e376c085141ab53, 0x2748774cdf8eeb99, 0x34b0bcb5e19b48a8,
   0x391c0cb3c5c95a63, 0x4ed8aa4ae3418acb, 0x5b9cca4f7763e373, 0x682e6ff3d6b2b8a3,
   0x748f82ee5defb2fc, 0x78a5636f43172f60, 0x84c87814a1f0ab72, 0x8cc702081a6439ec,
   0x90befffa23631e28, 0xa4506cebde82bde9, 0xbef9a3f7b2c67915, 0xc67178f2e372532b,
   0xca273eceea26619c, 0xd186b8c721c0c207, 0xeada7dd6cde0eb1e, 0xf57d4f7fee6ed178,
   0x06f067aa72176fba, 0x0a637dc5a2c898a6, 0x113f9804bef90dae, 0x1b710b35131c471b,
   0x28db77f523047d84, 0x32caab7b40c72493, 0x3c9ebe0a15c9bebc, 0x431d67c49c100d4c,
   0x4cc5d4becb3e42b6, 0x597f299cfc657e2a, 0x5fcb6fab3ad6faec, 0x6c44198c4a475817]

/-- The first 64 bits behind the point of the square roots of the first eight primes. -/
def rootsOfFirstPrimes : List Nat :=
  [0x6a09e667f3bcc908, 0xbb67ae8584caa73b, 0x3c6ef372fe94f82b, 0xa54ff53a5f1d36f1,
   0x510e527fade682d1, 0x9b05688c2b3e6c1f, 0x1f83d9abfb41bd6b, 0x5be0cd19137e2179]

/-- The same of the next eight primes. -/
def rootsOfNextPrimes : List Nat :=
  [0xcbbb9d5dc1059ed8, 0x629a292a367cd507, 0x9159015a3070dd17, 0x152fecd8f70e5939,
   0x67332667ffc00b31, 0x8eb44a8768581511, 0xdb0c2e0d64f98fa7, 0x47b5481dbefa4fa4]

structure Registers (α : Type) where
  a : α
  b : α
  c : α
  d : α
  e : α
  f : α
  g : α
  h : α

section

variable {α : Type} [Word α]

/-- The leading bits of a 64-bit constant, as many as a word has. -/
def leading (α : Type) [Word α] (constant : Nat) : α :=
  Word.ofNat (constant >>> (64 - 8 * Word.octets α))

def Registers.ofList (values : List α) : Registers α where
  a := values.getD 0 (Word.ofNat 0)
  b := values.getD 1 (Word.ofNat 0)
  c := values.getD 2 (Word.ofNat 0)
  d := values.getD 3 (Word.ofNat 0)
  e := values.getD 4 (Word.ofNat 0)
  f := values.getD 5 (Word.ofNat 0)
  g := values.getD 6 (Word.ofNat 0)
  h := values.getD 7 (Word.ofNat 0)

def Registers.toList (registers : Registers α) : List α :=
  [registers.a, registers.b, registers.c, registers.d,
   registers.e, registers.f, registers.g, registers.h]

def Registers.add (left right : Registers α) : Registers α where
  a := Word.add left.a right.a
  b := Word.add left.b right.b
  c := Word.add left.c right.c
  d := Word.add left.d right.d
  e := Word.add left.e right.e
  f := Word.add left.f right.f
  g := Word.add left.g right.g
  h := Word.add left.h right.h

/-- One round with a word of the message and a constant. -/
@[specialize]
def Registers.step (registers : Registers α) (word constant : α) : Registers α :=
  let ⟨a, b, c, d, e, f, g, h⟩ := registers
  let choice := Word.xor (Word.and e f) (Word.and (Word.not e) g)
  let majority := Word.xor (Word.xor (Word.and a b) (Word.and a c)) (Word.and b c)
  let first := Word.add (Word.add (Word.add (Word.add h (Word.mixE e)) choice) constant) word
  let second := Word.add (Word.mixA a) majority
  ⟨Word.add first second, a, b, c, Word.add d first, e, f, g⟩

/-- The word that follows a window of sixteen. -/
@[specialize]
def nextWord (window : List α) : α :=
  let pick (index : Nat) := window.getD index (Word.ofNat 0)
  Word.add (Word.add (Word.spreadFar (pick 14)) (pick 9))
    (Word.add (Word.spreadNear (pick 1)) (pick 0))

/-- All rounds over the sixteen words of a block. -/
@[specialize]
def rounds (constants : List α) (registers : Registers α) (block : List α) : Registers α :=
  let finish := constants.foldl (fun (state : Registers α × List α) constant =>
    (state.1.step (state.2.headD (Word.ofNat 0)) constant, state.2.tail ++ [nextWord state.2]))
    (registers, block)
  finish.1

def blockOctets (α : Type) [Word α] : Nat :=
  16 * Word.octets α

/-- The words that the octets of a block spell. -/
@[specialize]
def blockWords (block : Octets) : List α :=
  (List.range 16).map fun index =>
    Word.ofNat (Octets.toNat ((block.drop (index * Word.octets α)).take (Word.octets α)))

/-- Takes in so many blocks of a padded message. -/
@[specialize]
def absorb (constants : List α) : Nat → Octets → Registers α → Registers α
  | 0, _, registers => registers
  | count + 1, message, registers =>
      let block := blockWords (message.take (blockOctets α))
      absorb constants count (message.drop (blockOctets α))
        (registers.add (rounds constants registers block))

/-- The message, a one bit, zeros up to whole blocks and the message's length in bits. -/
def padded (α : Type) [Word α] (message : Octets) : Octets :=
  let lengthOctets := 2 * Word.octets α
  let size := blockOctets α
  let zeros := (size - (message.length + 1 + lengthOctets) % size) % size
  message ++ 0x80 :: (List.replicate zeros 0 ++ Octets.ofNat lengthOctets (8 * message.length))

/-- The octets of all registers after the message. -/
@[specialize]
def run (α : Type) [Word α] (initial : List Nat) (message : Octets) : Octets :=
  let constants := (roundConstants.take (Word.rounds α)).map (leading α)
  let text := padded α message
  let final := absorb constants (text.length / blockOctets α) text
    (Registers.ofList (initial.map (leading α)))
  final.toList.flatMap fun word => Octets.ofNat (Word.octets α) (Word.toNat word)

end

end Sha2

inductive Hash where
  | sha256
  | sha384
  | sha512
deriving DecidableEq, Repr

namespace Hash

def name : Hash → String
  | sha256 => "Sha256"
  | sha384 => "Sha384"
  | sha512 => "Sha512"

/-- The length of a digest in octets. -/
def length : Hash → Nat
  | sha256 => 32
  | sha384 => 48
  | sha512 => 64

/-- The length of a block in octets. -/
def blockLength : Hash → Nat
  | sha256 => Sha2.blockOctets UInt32
  | sha384 => Sha2.blockOctets UInt64
  | sha512 => Sha2.blockOctets UInt64

def digest (hash : Hash) (message : Octets) : Octets :=
  match hash with
  | sha256 => Sha2.run UInt32 Sha2.rootsOfFirstPrimes message
  | sha384 => (Sha2.run UInt64 Sha2.rootsOfNextPrimes message).take 48
  | sha512 => Sha2.run UInt64 Sha2.rootsOfFirstPrimes message

end Hash

end WebToken
