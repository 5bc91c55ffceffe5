import WebToken.Json.Fault

/-! A place in a text under reading: what is left of it, and how many octets are read. -/

namespace WebToken.Json

structure Cursor where
  rest : List Char
  offset : Nat
deriving Repr

namespace Cursor

def start (text : List Char) : Cursor := ⟨text, 0⟩

/-- A cause found at the last octet read. -/
def stop (cursor : Cursor) (cause : Cause) : Stop :=
  ⟨cause, cursor.offset⟩

/-- A cause found by looking at the next octet, if there is one. -/
def stopAhead (cursor : Cursor) (cause : Cause) : Stop :=
  ⟨cause, if cursor.rest.isEmpty then cursor.offset else cursor.offset + 1⟩

/-- A cause found by reading the next octet. -/
def stopAfter (cursor : Cursor) (cause : Cause) : Stop :=
  ⟨cause, cursor.offset + 1⟩

/-- The cursor after characters of one octet each. -/
def advance (cursor : Cursor) (count : Nat) : Cursor :=
  ⟨cursor.rest.drop count, cursor.offset + count⟩

def isBlank (char : Char) : Bool :=
  char == ' ' || char == '\t' || char == '\n' || char == '\r'

def skipBlanks (cursor : Cursor) : Cursor :=
  go cursor.offset cursor.rest
where
  go (offset : Nat) : List Char → Cursor
    | [] => ⟨[], offset⟩
    | char :: rest => if isBlank char then go (offset + 1) rest else ⟨char :: rest, offset⟩

/-- The decimal digits ahead, as numbers, and the cursor after them. -/
def digits (cursor : Cursor) : List Nat × Cursor :=
  let ahead := cursor.rest.takeWhile Char.isDigit
  (ahead.map fun char => char.toNat - 48, cursor.advance ahead.length)

end Cursor

end WebToken.Json
