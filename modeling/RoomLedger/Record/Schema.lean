import RoomLedger.Record.Field

/-!
Contract: stored structures as JSON objects with known members.

Owns:
- `Schema`, the name of a structure and its fields in their order;
- `Row`, a value for every field, and `Draft`, the values met so far;
- `Row.setText`, a row with another value in one of its texts;
- `Schema.isSound`, by which what is written can be read back;
- `Schema.write`, which writes the members in order without white space;
- `Schema.read`, which takes the members in any order, passes over members of
  other names, and also takes an array of the values in order.

Of several faults the first one in the text is the answer. Missing members are
looked for where the object ends, in the order of the fields.

Does not own: which structures there are.
-/

namespace RoomLedger.Record

open RoomLedger.Text (Bytes)
open RoomLedger.Json

/-- A structure that is stored as a JSON object. -/
structure Schema where
  name : String
  fields : List Field

/-- No two fields have the same name, and members that are left out read as the
values they had. -/
def Schema.isSound (schema : Schema) : Bool :=
  decide (schema.fields.map Field.name).Nodup && schema.fields.all Field.restores

abbrev Row : List Field → Type
  | [] => Unit
  | field :: others => field.type.Value × Row others

/-- The row in which the text field of that name has another value. -/
def Row.setText (name value : String) : (fields : List Field) → Row fields → Row fields
  | [], row => row
  | ⟨fieldName, .text, _⟩ :: others, (old, rest) =>
      if fieldName = name then (value, rest) else (old, setText name value others rest)
  | _ :: others, (old, rest) => (old, setText name value others rest)

/-- The values that an object has given so far. -/
abbrev Draft : List Field → Type
  | [] => Unit
  | field :: others => Option field.type.Value × Draft others

/-- A draft in which every member is still to come. -/
def Draft.empty : (fields : List Field) → Draft fields
  | [] => ()
  | _ :: others => (none, empty others)

/-- The row of a draft at the end of its object. -/
def Draft.complete : (fields : List Field) → Draft fields → Except Fault (Row fields)
  | [], _ => .ok ()
  | field :: others, (found, rest) =>
      match found.or field.fallback with
      | none => .error (.missingField field.name)
      | some value =>
          match complete others rest with
          | .error fault => .error fault
          | .ok row => .ok (value, row)

/-! ## Writing -/

/-- The members of a row, without those that are left out. -/
def Row.members : (fields : List Field) → Row fields → List Bytes
  | [], _ => []
  | field :: others, (value, rest) =>
      if field.type.isLeftOut value then members others rest
      else (writeString field.name ++ 0x3A :: field.type.write value) :: members others rest

def joinMembers : List Bytes → Bytes
  | [] => []
  | [member] => member
  | member :: others => member ++ 0x2C :: joinMembers others

/-- A row as a JSON object without white space. -/
def Schema.write (schema : Schema) (row : Row schema.fields) : Bytes :=
  0x7B :: joinMembers (Row.members schema.fields row) ++ [0x7D]

/-! ## Reading an object -/

/-- Reads the colon and the value of the member whose name has been read, into
the draft. There is no answer for a name that is none of the fields. A member
that comes again is a fault before its value is looked at. -/
def Draft.readMember :
    (fields : List Field) → Draft fields → (name : String) → (tokens : List Token) →
    Option (Except Fault (Draft fields × List Token))
  | [], _, _, _ => none
  | field :: others, (found, rest), name, tokens =>
      if field.name = name then
        match found, tokens with
        | some _, _ => some (.error (.duplicateField name))
        | none, .colon :: content =>
            match field.type.read content with
            | .error fault => some (.error fault)
            | .ok (value, left) => some (.ok ((some value, rest), left))
        | none, _ => some (.error .malformed)
      else
        match readMember others rest name tokens with
        | none => none
        | some (.error fault) => some (.error fault)
        | some (.ok (draft, left)) => some (.ok ((found, draft), left))

def Draft.readAnyMember (fields : List Field) (draft : Draft fields) (name : String)
    (tokens : List Token) : Except Fault (Draft fields × List Token) :=
  match draft.readMember fields name tokens with
  | some result => result
  | none =>
      match tokens with
      | .colon :: content =>
          match skipValue content with
          | .ok left => .ok (draft, left)
          | .error fault => .error fault
      | _ => .error .malformed

/-- Reads members up to the closing brace. Every member takes at least one
token, so the number of tokens bounds the number of members. -/
def readMembers (fields : List Field) :
    (fuel : Nat) → (isFirst : Bool) → Draft fields → Reader (Row fields)
  | 0, _, _, _ => .error .malformed
  | _ + 1, _, draft, .closeBrace :: rest =>
      match draft.complete fields with
      | .error fault => .error fault
      | .ok row => .ok (row, rest)
  | fuel + 1, true, draft, .text (some name) :: rest =>
      match draft.readAnyMember fields name rest with
      | .error fault => .error fault
      | .ok (next, left) => readMembers fields fuel false next left
  | fuel + 1, false, draft, .comma :: .text (some name) :: rest =>
      match draft.readAnyMember fields name rest with
      | .error fault => .error fault
      | .ok (next, left) => readMembers fields fuel false next left
  | _ + 1, _, _, _ => .error .malformed

/-! ## Reading an array -/

/-- Reads the values of the fields in order, up to the closing bracket. `index`
counts the fields before. -/
def readElements (expected : String) : (fields : List Field) → (index : Nat) → Reader (Row fields)
  | [], _, .closeBracket :: rest => .ok ((), rest)
  | [], _, _ => .error .malformed
  | field :: others, index, .closeBracket :: rest =>
      match field.fallback with
      | none => .error (.shortSequence index expected)
      | some value =>
          match readElements expected others (index + 1) (.closeBracket :: rest) with
          | .error fault => .error fault
          | .ok (row, left) => .ok ((value, row), left)
  | field :: others, index, tokens =>
      let content : Option (List Token) :=
        if index = 0 then some tokens
        else match tokens with
          | .comma :: rest => some rest
          | _ => none
      match content with
      | none => .error .malformed
      | some content =>
          match field.type.read content with
          | .error fault => .error fault
          | .ok (value, left) =>
              match readElements expected others (index + 1) left with
              | .error fault => .error fault
              | .ok (row, rest) => .ok ((value, row), rest)

/-! ## Reading a structure -/

def Schema.title (schema : Schema) : String :=
  "struct " ++ schema.name

/-- What a message calls the structure as an array. -/
def Schema.arrayTitle (schema : Schema) : String :=
  s!"{schema.title} with {schema.fields.length} elements"

def Schema.read (schema : Schema) : Reader (Row schema.fields)
  | .openBrace :: rest =>
      readMembers schema.fields (rest.length + 1) true (Draft.empty schema.fields) rest
  | .openBracket :: rest => readElements schema.arrayTitle schema.fields 0 rest
  | tokens => .error (mismatch schema.title tokens)

def Schema.decode (schema : Schema) (bytes : Bytes) : Except Fault (Row schema.fields) :=
  Json.read schema.read bytes

end RoomLedger.Record
