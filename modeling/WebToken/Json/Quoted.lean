import WebToken.Json.Cursor

/-! Strings in JSON texts: how they are written, with as few escapes as can be, and how they are
read, with all. -/

namespace WebToken.Json

def hexDigit (digit : Nat) : Char :=
  if digit < 10 then Char.ofNat (48 + digit) else Char.ofNat (87 + digit)

/-- How a character is written inside a string. -/
def escape (char : Char) : List Char :=
  if char = '"' then ['\\', '"']
  else if char = '\\' then ['\\', '\\']
  else if 32 ≤ char.toNat then [char]
  else if char.toNat = 8 then ['\\', 'b']
  else if char.toNat = 12 then ['\\', 'f']
  else if char = '\n' then ['\\', 'n']
  else if char = '\r' then ['\\', 'r']
  else if char = '\t' then ['\\', 't']
  else ['\\', 'u', '0', '0', hexDigit (char.toNat / 16), hexDigit (char.toNat % 16)]

/-- Writes a string behind a text. -/
def emitString (out value : String) : String :=
  let body := value.toList.foldl (fun text char => (escape char).foldl String.push text)
    (out.push '"')
  body.push '"'

def hexValue? (char : Char) : Option Nat :=
  if char.isDigit then some (char.toNat - 48)
  else if 'a' ≤ char ∧ char ≤ 'f' then some (char.toNat - 87)
  else if 'A' ≤ char ∧ char ≤ 'F' then some (char.toNat - 55)
  else none

/-- Reads four hexadecimal digits. They take four octets, whatever characters these belong to. -/
def readHex (cursor : Cursor) : Except Stop Nat :=
  let ahead := cursor.rest.take 4
  let octets := (String.ofList ahead).utf8ByteSize
  if octets < 4 then .error ⟨.unfinishedString, cursor.offset + octets⟩
  else
    match ahead.mapM hexValue? with
    | some digits => .ok (digits.foldl (fun value digit => value * 16 + digit) 0)
    | none => .error ⟨.invalidEscape, cursor.offset + 4⟩

def isHighSurrogate (unit : Nat) : Bool := 0xd800 ≤ unit && unit < 0xdc00

def isLowSurrogate (unit : Nat) : Bool := 0xdc00 ≤ unit && unit < 0xe000

/-- Reads the character that one or two `\u` escapes spell, behind the first `\u`. Surrogates count
only in pairs. -/
def readUnits (cursor : Cursor) : Except Stop (Char × Cursor) := do
  let unit ← readHex cursor
  let cursor := cursor.advance 4
  if isLowSurrogate unit then .error (cursor.stop .loneSurrogate)
  else if isHighSurrogate unit then
    match cursor.rest with
    | '\\' :: 'u' :: _ =>
        let cursor := cursor.advance 2
        let second ← readHex cursor
        let cursor := cursor.advance 4
        if isLowSurrogate second then
          .ok (Char.ofNat (0x10000 + (unit - 0xd800) * 0x400 + (second - 0xdc00)), cursor)
        else .error (cursor.stop .loneSurrogate)
    | [] => .error (cursor.stop .unfinishedString)
    | ['\\'] => .error ((cursor.advance 1).stop .unfinishedString)
    | '\\' :: _ => .error ((cursor.advance 1).stopAfter .unfinishedEscape)
    | _ => .error (cursor.stopAfter .unfinishedEscape)
  else .ok (Char.ofNat unit, cursor)

/-- The characters that a letter behind a backslash stands for. -/
def unescape? : Char → Option Char
  | '"' => some '"'
  | '\\' => some '\\'
  | '/' => some '/'
  | 'b' => some (Char.ofNat 8)
  | 'f' => some (Char.ofNat 12)
  | 'n' => some '\n'
  | 'r' => some '\r'
  | 't' => some '\t'
  | _ => none

/-- Reads an escape behind its backslash. -/
def readEscape (cursor : Cursor) : Except Stop (Char × Cursor) :=
  match cursor.rest with
  | [] => .error (cursor.stop .unfinishedString)
  | 'u' :: _ => readUnits (cursor.advance 1)
  | letter :: _ =>
      match unescape? letter with
      | some char => .ok (char, cursor.advance 1)
      | none => .error (cursor.stopAfter .invalidEscape)

/-- Reads a string behind its opening quote onto `out`. Every round takes a character, so that as
many rounds as the text has characters are enough. -/
def readString : Nat → String → Cursor → Except Stop (String × Cursor)
  | 0, _, cursor => .error (cursor.stop .unfinishedString)
  | rounds + 1, out, cursor =>
      match cursor.rest with
      | [] => .error (cursor.stop .unfinishedString)
      | '"' :: rest => .ok (out, ⟨rest, cursor.offset + 1⟩)
      | '\\' :: rest => do
          let (char, cursor) ← readEscape ⟨rest, cursor.offset + 1⟩
          readString rounds (out.push char) cursor
      | char :: rest =>
          if char.toNat < 32 then .error (cursor.stopAfter .controlCharacter)
          else readString rounds (out.push char) ⟨rest, cursor.offset + char.utf8Size⟩

end WebToken.Json
