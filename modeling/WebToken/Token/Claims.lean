import WebToken.Token.Basic

/-! The claims of a token, one by one. -/

namespace WebToken

/-- The JSON number for a binary one: whole numbers that such numbers tell apart from their
neighbours are kept as whole. -/
def JsonNumber.ofBinary64? (value : Binary64) : Option JsonNumber :=
  match value.toInt? with
  | some whole =>
      if small : whole.natAbs < 0x20000000000000 then some (.integer whole (by omega))
      else if finite : value.isFinite then some (.float value finite)
      else none
  | none => if finite : value.isFinite then some (.float value finite) else none

namespace Token

def claim? (token : Token) (name : String) : Option Json :=
  token.claims.find? name

/-- A numeric claim; none if there is none or it is no number. -/
def claimNumber? (token : Token) (name : String) : Option Binary64 :=
  (token.claim? name).bind Json.asNumber?

def claimString? (token : Token) (name : String) : Option String :=
  (token.claim? name).bind Json.asString?

/-- The kind of a claim; a missing one counts as null. -/
def claimKind (token : Token) (name : String) : Json.Kind :=
  match token.claim? name with
  | some value => value.kind
  | none => .null

def setClaim (token : Token) (name : String) (value : Json) : Token :=
  { token with claims := token.claims.insert name value, claimsText := none }

def setString (token : Token) (name value : String) : Token :=
  token.setClaim name (.string value)

/-- Sets a numeric claim, which must be finite. -/
def setNumber (token : Token) (name : String) (value : Binary64) : Except Error Token :=
  match JsonNumber.ofBinary64? value with
  | some number => .ok (token.setClaim name (.number number))
  | none => .error (.numberNotFinite value)

/-- Removes a claim and gives its value. -/
def removeClaim (token : Token) (name : String) : Token × Option Json :=
  match token.claim? name with
  | some value =>
      ({ token with claims := token.claims.erase name, claimsText := none }, some value)
  | none => (token, none)

end Token

end WebToken
