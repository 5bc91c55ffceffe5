import WebToken.Error

/-! Algorithms and curves by their names. -/

namespace WebToken

namespace Algorithm

/-- The longest algorithm name that is looked up, in octets. -/
def nameLimit : Nat := 16

def ofName (name : String) : Except Error Algorithm :=
  if nameLimit < name.utf8ByteSize then
    .error (.algorithmUnsupported (.tooLong name.utf8ByteSize nameLimit))
  else
    match all.find? (·.name == name) with
    | some algorithm => .ok algorithm
    | Option.none => .error (.algorithmUnsupported (.unknown name))

end Algorithm

namespace Curve

def ofName (name : String) : Except Error Curve :=
  match ofName? name with
  | some curve => .ok curve
  | none => .error (.curveUnsupported name)

end Curve

end WebToken
