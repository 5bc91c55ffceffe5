/-! Why a text is no JSON text, and where. -/

namespace WebToken.Json

inductive Cause where
  | unfinishedValue
  | unfinishedList
  | unfinishedObject
  | unfinishedString
  | expectedValue
  | expectedWord
  | expectedColon
  | expectedListEnd
  | expectedObjectEnd
  | keyNotString
  | trailingComma
  | trailingCharacters
  | tooDeep
  | invalidNumber
  | numberOutOfRange
  | invalidEscape
  | loneSurrogate
  | unfinishedEscape
  | controlCharacter
deriving DecidableEq, Repr

def Cause.message : Cause → String
  | unfinishedValue => "EOF while parsing a value"
  | unfinishedList => "EOF while parsing a list"
  | unfinishedObject => "EOF while parsing an object"
  | unfinishedString => "EOF while parsing a string"
  | expectedValue => "expected value"
  | expectedWord => "expected ident"
  | expectedColon => "expected `:`"
  | expectedListEnd => "expected `,` or `]`"
  | expectedObjectEnd => "expected `,` or `\x7d`"
  | keyNotString => "key must be a string"
  | trailingComma => "trailing comma"
  | trailingCharacters => "trailing characters"
  | tooDeep => "recursion limit exceeded"
  | invalidNumber => "invalid number"
  | numberOutOfRange => "number out of range"
  | invalidEscape => "invalid escape"
  | loneSurrogate => "lone leading surrogate in hex escape"
  | unfinishedEscape => "unexpected end of hex escape"
  | controlCharacter => "control character (\\u0000-\\u001F) found while parsing a string"

/-- A cause found when `offset` octets of the text were read. -/
structure Stop where
  cause : Cause
  offset : Nat
deriving DecidableEq, Repr

/-- A cause with its place: lines count from one, columns count octets since the last line end. -/
structure Fault where
  cause : Cause
  line : Nat
  column : Nat
deriving DecidableEq, Repr

def Fault.message (fault : Fault) : String :=
  s!"{fault.cause.message} at line {fault.line} column {fault.column}"

/-- Line and column after the first `offset` octets of the text. -/
def place (text : List Char) (offset : Nat) : Nat × Nat :=
  go 1 0 0 text
where
  go (line column read : Nat) : List Char → Nat × Nat
    | [] => (line, column)
    | char :: rest =>
        if offset < read + char.utf8Size then (line, column + (offset - read))
        else if char = '\n' then go (line + 1) 0 (read + 1) rest
        else go line (column + char.utf8Size) (read + char.utf8Size) rest

def Stop.locate (stop : Stop) (text : List Char) : Fault :=
  let (line, column) := place text stop.offset
  ⟨stop.cause, line, column⟩

end WebToken.Json
