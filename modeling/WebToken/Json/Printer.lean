import WebToken.Json.Basic
import WebToken.Json.Quoted
import WebToken.Number.Shortest

/-! The compact text of a JSON value: no blanks, members in order, and no character escaped that
need not be. -/

namespace WebToken.Json

/-- Where the point goes in the text of a number: positional notation for decimal exponents from
`least` on and below `limit`, scientific notation for all others. -/
structure NumberLayout where
  least : Int
  limit : Int

/-- Numbers from `0.00001` on and below `10 ^ 16` are written without an exponent. -/
def numberLayout : NumberLayout := ⟨-5, 16⟩

/-- The text of a positive decimal. A point or an exponent always tells it from a whole number. -/
def NumberLayout.write (layout : NumberLayout) (decimal : Decimal) : String :=
  let digits := decimal.digits.repr
  let width : Int := digits.length
  let lead := decimal.exponent + width - 1
  if layout.least ≤ lead ∧ lead < layout.limit then
    if 0 ≤ decimal.exponent then
      digits ++ String.ofList (List.replicate decimal.exponent.toNat '0') ++ ".0"
    else if 0 ≤ lead then
      let whole := (lead + 1).toNat
      String.ofList (digits.toList.take whole) ++ "." ++ String.ofList (digits.toList.drop whole)
    else
      "0." ++ String.ofList (List.replicate (-lead - 1).toNat '0') ++ digits
  else
    let fraction := digits.toList.drop 1
    let mantissa := String.ofList (digits.toList.take 1) ++
      (if fraction.isEmpty then "" else "." ++ String.ofList fraction)
    let sign := if lead < 0 then "-" else "+"
    mantissa ++ "e" ++ sign ++ lead.natAbs.repr

/-- The text of a finite binary number: the shortest decimal that rounds to it. -/
def floatText (value : Binary64) : String :=
  let sign := if value.isNegative then "-" else ""
  if value.isZero then sign ++ "0.0"
  else sign ++ numberLayout.write (Decimal.shortest value.significand value.exponent)

def integerText (value : Int) : String :=
  (if value < 0 then "-" else "") ++ value.natAbs.repr

def numberText : JsonNumber → String
  | .integer value _ => integerText value
  | .float value _ => floatText value

mutual

/-- Writes a value behind a text. -/
def emit (out : String) : Json → String
  | .null => out ++ "null"
  | .bool true => out ++ "true"
  | .bool false => out ++ "false"
  | .number value => out ++ numberText value
  | .string value => emitString out value
  | .array [] => out ++ "[]"
  | .array (item :: items) => (emitItems (emit (out.push '[') item) items).push ']'
  | .object [] => out ++ "\x7b\x7d"
  | .object ((name, value) :: members) =>
      (emitMembers (emit ((emitString (out.push '\x7b') name).push ':') value) members).push '\x7d'

/-- Writes the items that follow a first one. -/
def emitItems (out : String) : List Json → String
  | [] => out
  | item :: items => emitItems (emit (out.push ',') item) items

/-- Writes the members that follow a first one. -/
def emitMembers (out : String) : List (String × Json) → String
  | [] => out
  | (name, value) :: members =>
      emitMembers (emit ((emitString (out.push ',') name).push ':') value) members

end

def print (value : Json) : String :=
  emit "" value

end WebToken.Json
