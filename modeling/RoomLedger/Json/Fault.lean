import RoomLedger.Decimal.Shortest
import RoomLedger.Json.Numeral
import RoomLedger.Text.Quoted
import RoomLedger.Time.Scan

/-!
Contract: why JSON text is not the value that was wanted.

Owns:
- `Found`, what stands where something else was expected;
- `Fault`, the causes, of which `malformed` covers every text that is not JSON;
- `Fault.message`, their wording.

Does not own: the order in which faults are met.
-/

namespace RoomLedger.Json

/-- What stands where something else was expected. -/
inductive Found where
  | null
  | boolean (value : Bool)
  | number (value : Number)
  | text (value : String)
  | sequence
  | map
deriving DecidableEq, Repr

/-- What a message calls a thing that was found. -/
def Found.describe : Found → String
  | .null => "null"
  | .boolean value => s!"boolean `{value}`"
  | .number (.natural value) => s!"integer `{value}`"
  | .number (.negative magnitude) => s!"integer `-{magnitude}`"
  | .number (.real negative magnitude) =>
      let mark := if negative then "-" else ""
      s!"floating point `{mark}{String.ofList magnitude.text}`"
  | .text value => "string " ++ Text.quoted value
  | .sequence => "sequence"
  | .map => "map"

/-- Why JSON text is not the value that was wanted. -/
inductive Fault where
  /-- The text is no JSON, or goes on after the value. -/
  | malformed
  /-- A value of another type. -/
  | wrongType (found : Found) (expected : String)
  /-- A number outside the range of its type. -/
  | wrongValue (found : Number) (expected : String)
  | missingField (name : String)
  | duplicateField (name : String)
  /-- A name that is none of the choices. -/
  | unknownVariant (name : String) (choices : List String)
  /-- A sequence that ends before its field of that number. -/
  | shortSequence (index : Nat) (expected : String)
  /-- A text that is no timestamp. -/
  | timestamp (fault : Time.TimestampFault)
deriving DecidableEq, Repr

/-- A name between the marks that messages put around names. -/
def marked (name : String) : String :=
  "`" ++ name ++ "`"

/-- The choices that a message offers: two with a word between them, more as a
list. -/
def offered : List String → String
  | [first, second] => marked first ++ " or " ++ marked second
  | choices => "one of " ++ ", ".intercalate (choices.map marked)

def Fault.message : Fault → String
  | .malformed => "syntax"
  | .wrongType found expected => s!"invalid type: {found.describe}, expected {expected}"
  | .wrongValue found expected =>
      s!"invalid value: {(Found.number found).describe}, expected {expected}"
  | .missingField name => s!"missing field {marked name}"
  | .duplicateField name => s!"duplicate field {marked name}"
  | .unknownVariant name choices =>
      s!"unknown variant {marked name}, expected {offered choices}"
  | .shortSequence index expected => s!"invalid length {index}, expected {expected}"
  | .timestamp fault => fault.message

end RoomLedger.Json
