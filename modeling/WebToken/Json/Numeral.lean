import WebToken.Json.Basic
import WebToken.Json.Cursor

/-! Numbers in JSON texts. Digits are gathered into a significand of 64 bits, which a power of ten
then scales; each step of the scaling rounds. -/

namespace WebToken.Json

/-- Digits gathered so far: those that did not fit are only counted. -/
structure Gathered where
  significand : Nat
  taken : Nat
  dropped : Nat
deriving DecidableEq, Repr

/-- Gathers digits into the significand until the next would overflow 64 bits. The rest is
counted. -/
def Gathered.digits (gathered : Gathered) : List Nat → Gathered
  | [] => gathered
  | digit :: rest =>
      if gathered.significand * 10 + digit < 0x10000000000000000 then
        digits { gathered with
          significand := gathered.significand * 10 + digit
          taken := gathered.taken + 1 } rest
      else { gathered with dropped := rest.length + 1 }

/-- The decimal exponent that a numeral spells, negative or not. From 2³¹ on it is only known
to be beyond all limits, after the digit that shows it. -/
inductive Power where
  | exact (value : Int)
  | beyond (negative : Bool) (digitsRead : Nat)
deriving DecidableEq, Repr

def Power.ofDigits (negative : Bool) (digits : List Nat) : Power :=
  go 0 0 digits
where
  go (value read : Nat) : List Nat → Power
    | [] => .exact (if negative then -(value : Int) else value)
    | digit :: rest =>
        if value * 10 + digit < 0x80000000 then go (value * 10 + digit) (read + 1) rest
        else .beyond negative (read + 1)

/-- The binary number nearest to a power of ten. -/
def powerOfTen (power : Nat) : Binary64 :=
  .ofNat (Nat.pow 10 power)

/-- Multiplies by a power of ten: a product of two binary numbers, or a quotient, taken in steps of
`10 ^ 308`. Nothing stands for a product that is too large. -/
def scale (value : Binary64) (power : Int) : Option Binary64 :=
  if 308 < power then
    if value.isZero then some value else none
  else if 0 ≤ power then
    let product := value.mul (powerOfTen power.toNat)
    if product.isFinite then some product else none
  else if -308 ≤ power then some (value.div (powerOfTen (-power).toNat))
  else if value.isZero then some value
  else scale (value.div (powerOfTen 308)) (power + 308)
termination_by (-power).toNat
decreasing_by omega

/-- The number with the sign, if it is finite. -/
def signed (negative : Bool) (value : Binary64) : Option JsonNumber :=
  let value := if negative then value.neg else value
  if finite : value.isFinite then some (.float value finite) else none

/-- The number that a significand without fraction and exponent spells. -/
def wholeNumber (negative : Bool) (significand : Nat) : Option JsonNumber :=
  let value : Int := if negative then -significand else significand
  if bounded : (negative → value ≠ 0) ∧
      -0x8000000000000000 ≤ value ∧ value < 0x10000000000000000 then
    some (.integer value bounded.2)
  else signed negative (.ofNat significand)

/-- The number that a significand and a power of ten spell. -/
def scaledNumber (negative : Bool) (significand : Nat) (power : Int) : Option JsonNumber :=
  (scale (.ofNat significand) power).bind (signed negative)

/-- Ends a numeral that has been read up to the cursor. -/
def finishNumber (number : Option JsonNumber) (cursor : Cursor) :
    Except Stop (JsonNumber × Cursor) :=
  match number with
  | some number => .ok (number, cursor)
  | none => .error (cursor.stop .numberOutOfRange)

/-- Reads an exponent behind its letter. -/
def readPower (negative : Bool) (significand : Nat) (shift : Int) (cursor : Cursor) :
    Except Stop (JsonNumber × Cursor) :=
  let (down, cursor) := match cursor.rest with
    | '+' :: _ => (false, cursor.advance 1)
    | '-' :: _ => (true, cursor.advance 1)
    | _ => (false, cursor)
  let (digits, after) := cursor.digits
  if digits.isEmpty then
    if cursor.rest.isEmpty then .error (cursor.stop .unfinishedValue)
    else .error (cursor.stopAfter .invalidNumber)
  else
    match Power.ofDigits down digits with
    | .exact power => finishNumber (scaledNumber negative significand (shift + power)) after
    | .beyond down read =>
        if significand = 0 ∨ down then
          finishNumber (signed negative (.zero false)) after
        else .error ((cursor.advance read).stop .numberOutOfRange)

/-- Reads an exponent if one follows. -/
def readScaled (negative : Bool) (significand : Nat) (shift : Int) (cursor : Cursor) :
    Except Stop (JsonNumber × Cursor) :=
  match cursor.rest with
  | 'e' :: _ | 'E' :: _ => readPower negative significand shift (cursor.advance 1)
  | _ => finishNumber (scaledNumber negative significand shift) cursor

/-- Reads the digits behind a point. Digits that no longer fit are ignored. -/
def readFraction (negative : Bool) (whole : Gathered) (cursor : Cursor) :
    Except Stop (JsonNumber × Cursor) :=
  let (digits, after) := cursor.digits
  if digits.isEmpty then
    .error (cursor.stopAhead (if cursor.rest.isEmpty then .unfinishedValue else .invalidNumber))
  else
    let all := Gathered.digits ⟨whole.significand, 0, 0⟩ digits
    readScaled negative all.significand (whole.dropped - all.taken) after

/-- Reads a numeral behind its sign. -/
def readMagnitude (negative : Bool) (cursor : Cursor) : Except Stop (JsonNumber × Cursor) :=
  let (digits, after) := cursor.digits
  match digits with
  | [] =>
      if cursor.rest.isEmpty then .error (cursor.stop .unfinishedValue)
      else .error (cursor.stopAfter .invalidNumber)
  | 0 :: _ :: _ => .error ((cursor.advance 1).stopAhead .invalidNumber)
  | _ =>
      let whole := Gathered.digits ⟨0, 0, 0⟩ digits
      match after.rest with
      | '.' :: _ => readFraction negative whole (after.advance 1)
      | _ =>
          if whole.dropped = 0 ∧ after.rest.head? ≠ some 'e' ∧ after.rest.head? ≠ some 'E' then
            finishNumber (wholeNumber negative whole.significand) after
          else readScaled negative whole.significand whole.dropped after

/-- Reads a numeral. -/
def readNumber (cursor : Cursor) : Except Stop (JsonNumber × Cursor) :=
  match cursor.rest with
  | '-' :: _ => readMagnitude true (cursor.advance 1)
  | _ => readMagnitude false cursor

end WebToken.Json
