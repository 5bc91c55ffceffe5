import WebToken.Json.Members
import WebToken.Json.Numeral
import WebToken.Json.Quoted

/-! Reading JSON texts. Containers nest at most 127 deep, and of members with one name the last
value counts. The first fault of a text is reported with its place. Each loop is given as many
rounds as the text has characters, and takes at least one character in a round. -/

namespace WebToken.Json

/-- Containers may nest this deep. -/
def depthLimit : Nat := 127

/-- Reads the letters of a word behind its first one. -/
def readWord (value : Json) : List Char → List Char → Nat → Except Stop (Json × Cursor)
  | [], rest, offset => .ok (value, ⟨rest, offset⟩)
  | _ :: _, [], offset => .error ⟨.unfinishedValue, offset⟩
  | letter :: letters, char :: rest, offset =>
      if char = letter then readWord value letters rest (offset + 1)
      else .error ⟨.expectedWord, offset + 1⟩

/-- Reads the items behind the first one up to the end of the list. -/
def readItems (readItem : Cursor → Except Stop (Json × Cursor)) :
    Nat → List Json → Cursor → Except Stop (Json × Cursor)
  | 0, _, cursor => .error (cursor.stopAhead .expectedListEnd)
  | rounds + 1, items, cursor =>
      let cursor := cursor.skipBlanks
      match cursor.rest with
      | [] => .error (cursor.stopAhead .unfinishedList)
      | ']' :: rest => .ok (.array items.reverse, ⟨rest, cursor.offset + 1⟩)
      | ',' :: rest =>
          let cursor := Cursor.skipBlanks ⟨rest, cursor.offset + 1⟩
          match cursor.rest with
          | [] => .error (cursor.stopAhead .unfinishedValue)
          | ']' :: _ => .error (cursor.stopAhead .trailingComma)
          | _ => do
              let (item, cursor) ← readItem cursor
              readItems readItem rounds (item :: items) cursor
      | _ => .error (cursor.stopAhead .expectedListEnd)

/-- Reads a list behind its opening bracket. -/
def readList (readItem : Cursor → Except Stop (Json × Cursor)) (rounds : Nat) (cursor : Cursor) :
    Except Stop (Json × Cursor) :=
  let cursor := cursor.skipBlanks
  match cursor.rest with
  | [] => .error (cursor.stopAhead .unfinishedList)
  | ']' :: rest => .ok (.array [], ⟨rest, cursor.offset + 1⟩)
  | _ => do
      let (item, cursor) ← readItem cursor
      readItems readItem rounds [item] cursor

/-- Reads a member at the opening quote of its name. -/
def readMember (readItem : Cursor → Except Stop (Json × Cursor)) (rounds : Nat) (cursor : Cursor) :
    Except Stop ((String × Json) × Cursor) := do
  let (name, cursor) ← readString rounds "" (cursor.advance 1)
  let cursor := cursor.skipBlanks
  match cursor.rest with
  | ':' :: rest =>
      let (value, cursor) ← readItem (Cursor.skipBlanks ⟨rest, cursor.offset + 1⟩)
      .ok ((name, value), cursor)
  | [] => .error (cursor.stopAhead .unfinishedObject)
  | _ => .error (cursor.stopAhead .expectedColon)

/-- Reads the members behind the first one up to the end of the object. -/
def readMembers (readItem : Cursor → Except Stop (Json × Cursor)) (limit : Nat) :
    Nat → Members → Cursor → Except Stop (Json × Cursor)
  | 0, _, cursor => .error (cursor.stopAhead .expectedObjectEnd)
  | rounds + 1, members, cursor =>
      let cursor := cursor.skipBlanks
      match cursor.rest with
      | [] => .error (cursor.stopAhead .unfinishedObject)
      | '}' :: rest => .ok (.object members, ⟨rest, cursor.offset + 1⟩)
      | ',' :: rest =>
          let cursor := Cursor.skipBlanks ⟨rest, cursor.offset + 1⟩
          match cursor.rest with
          | [] => .error (cursor.stopAhead .unfinishedValue)
          | '}' :: _ => .error (cursor.stopAhead .trailingComma)
          | '"' :: _ => do
              let (member, cursor) ← readMember readItem limit cursor
              readMembers readItem limit rounds (members.insert member.1 member.2) cursor
          | _ => .error (cursor.stopAhead .keyNotString)
      | _ => .error (cursor.stopAhead .expectedObjectEnd)

/-- Reads an object behind its opening brace. -/
def readObject (readItem : Cursor → Except Stop (Json × Cursor)) (rounds : Nat) (cursor : Cursor) :
    Except Stop (Json × Cursor) :=
  let cursor := cursor.skipBlanks
  match cursor.rest with
  | [] => .error (cursor.stopAhead .unfinishedObject)
  | '}' :: rest => .ok (.object [], ⟨rest, cursor.offset + 1⟩)
  | '"' :: _ => do
      let (member, cursor) ← readMember readItem rounds cursor
      readMembers readItem rounds rounds [member] cursor
  | _ => .error (cursor.stopAhead .keyNotString)

/-- Reads a value that starts at the cursor and whose containers nest at most `depth` deep. -/
def readValue (rounds : Nat) : Nat → Cursor → Except Stop (Json × Cursor)
  | depth, cursor =>
      match cursor.rest with
      | [] => .error (cursor.stopAhead .unfinishedValue)
      | 'n' :: rest => readWord .null ['u', 'l', 'l'] rest (cursor.offset + 1)
      | 't' :: rest => readWord (.bool true) ['r', 'u', 'e'] rest (cursor.offset + 1)
      | 'f' :: rest => readWord (.bool false) ['a', 'l', 's', 'e'] rest (cursor.offset + 1)
      | '"' :: rest => do
          let (value, cursor) ← readString rounds "" ⟨rest, cursor.offset + 1⟩
          .ok (.string value, cursor)
      | '[' :: rest =>
          match depth with
          | 0 => .error (cursor.stopAhead .tooDeep)
          | depth + 1 => readList (readValue rounds depth) rounds ⟨rest, cursor.offset + 1⟩
      | '{' :: rest =>
          match depth with
          | 0 => .error (cursor.stopAhead .tooDeep)
          | depth + 1 => readObject (readValue rounds depth) rounds ⟨rest, cursor.offset + 1⟩
      | char :: _ =>
          if char = '-' ∨ char.isDigit then do
            let (numeral, cursor) ← readNumber cursor
            .ok (.number numeral, cursor)
          else .error (cursor.stopAhead .expectedValue)

/-- Reads a whole text: one value between blanks. -/
def readText (text : List Char) : Except Stop Json := do
  let (value, cursor) ← readValue text.length depthLimit (Cursor.start text).skipBlanks
  let cursor := cursor.skipBlanks
  if cursor.rest.isEmpty then .ok value else .error (cursor.stopAhead .trailingCharacters)

def parse (text : String) : Except Fault Json :=
  match readText text.toList with
  | .ok value => .ok value
  | .error stop => .error (stop.locate text.toList)

end WebToken.Json
