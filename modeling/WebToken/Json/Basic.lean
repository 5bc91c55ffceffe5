import WebToken.Number.Binary64

/-! JSON values. An object keeps its members in order and has one for each name. -/

namespace WebToken

/-- A number of a JSON text: whole numbers of 64 bits, signed or unsigned, are kept exactly, all
others as finite binary numbers. -/
inductive JsonNumber where
  | integer (value : Int) (bounded : -0x8000000000000000 ≤ value ∧ value < 0x10000000000000000)
  | float (value : Binary64) (finite : value.isFinite = true)
deriving DecidableEq, Repr

namespace JsonNumber

def toBinary64 : JsonNumber → Binary64
  | integer value _ => .ofInt value
  | float value _ => value

end JsonNumber

inductive Json where
  | null
  | bool (value : Bool)
  | number (value : JsonNumber)
  | string (value : String)
  | array (items : List Json)
  | object (members : List (String × Json))
deriving Repr

/-- The members of an object, in order. -/
abbrev Members := List (String × Json)

namespace Json

def asString? : Json → Option String
  | string value => some value
  | _ => none

def asNumber? : Json → Option Binary64
  | number value => some value.toBinary64
  | _ => none

def asObject? : Json → Option Members
  | object members => some members
  | _ => none

/-- The kind of a value, as far as it shows in a claim. -/
inductive Kind where
  | null
  | false
  | true
  | number
  | string
  | array
  | object
deriving DecidableEq, Repr

def kind : Json → Kind
  | null => .null
  | bool .false => .false
  | bool .true => .true
  | number _ => .number
  | string _ => .string
  | array _ => .array
  | object _ => .object

def Kind.name : Kind → String
  | .null => "Null"
  | .false => "False"
  | .true => "True"
  | .number => "Number"
  | .string => "String"
  | .array => "Array"
  | .object => "Object"

end Json

end WebToken
