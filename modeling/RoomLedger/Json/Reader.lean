import RoomLedger.Json.Fault
import RoomLedger.Json.Token
import RoomLedger.Time.Relaxed

/-!
Contract: reading single values from tokens.

Owns:
- `Reader`, which takes a value off the front of a list of tokens;
- the readers of the types that fields have;
- `skipValue`, which passes over a value of any shape and depth;
- `read`, which reads a whole text.

The first fault met is the answer. A value of another type is named by its
first token alone.

Does not own: objects with known members.
-/

namespace RoomLedger.Json

/-- Takes a value off the front of a list of tokens. -/
abbrev Reader (α : Type) := List Token → Except Fault (α × List Token)

/-- The fault for a value that does not begin as expected. -/
def mismatch (expected : String) : List Token → Fault
  | .null :: _ => .wrongType .null expected
  | .boolean value :: _ => .wrongType (.boolean value) expected
  | .number numeral :: _ =>
      match numeral.number? with
      | some number => .wrongType (.number number) expected
      | none => .malformed
  | .text (some content) :: _ => .wrongType (.text content) expected
  | .openBracket :: _ => .wrongType .sequence expected
  | .openBrace :: _ => .wrongType .map expected
  | _ => .malformed

def readTextAs (expected : String) : Reader String
  | .text (some content) :: rest => .ok (content, rest)
  | tokens => .error (mismatch expected tokens)

def readText : Reader String :=
  readTextAs "a string"

/-- A string, or nothing where there is `null`. -/
def readOptionalText : Reader (Option String)
  | .null :: rest => .ok (none, rest)
  | tokens =>
      match readText tokens with
      | .ok (content, rest) => .ok (some content, rest)
      | .error fault => .error fault

def readFlag : Reader Bool
  | .boolean value :: rest => .ok (value, rest)
  | tokens => .error (mismatch "a boolean" tokens)

def readCount (limit : Nat) (expected : String) : Reader { value : Nat // value < limit }
  | .number numeral :: rest =>
      match numeral.number? with
      | some (.natural value) =>
          if small : value < limit then .ok (⟨value, small⟩, rest)
          else .error (.wrongValue (.natural value) expected)
      | some (.negative magnitude) => .error (.wrongValue (.negative magnitude) expected)
      | some (.real negative magnitude) =>
          .error (.wrongType (.number (.real negative magnitude)) expected)
      | none => .error .malformed
  | tokens => .error (mismatch expected tokens)

def readUInt32 : Reader UInt32 := fun tokens =>
  match readCount UInt32.size "u32" tokens with
  | .ok (value, rest) => .ok (UInt32.ofNatLT value.val value.property, rest)
  | .error fault => .error fault

def readUInt64 : Reader UInt64 := fun tokens =>
  match readCount UInt64.size "u64" tokens with
  | .ok (value, rest) => .ok (UInt64.ofNatLT value.val value.property, rest)
  | .error fault => .error fault

def readTimestamp : Reader Time.Timestamp := fun tokens =>
  match readTextAs "an RFC 3339 formatted date and time string" tokens with
  | .ok (content, rest) =>
      match Time.Timestamp.ofRelaxed? content.toList with
      | .ok timestamp => .ok (timestamp, rest)
      | .error fault => .error (.timestamp fault)
  | .error fault => .error fault

def nameValue {α : Type} (choices : List String) (ofName? : String → Option α) (name : String) :
    Except Fault α :=
  match ofName? name with
  | some value => .ok value
  | none => .error (.unknownVariant name choices)

/-- Reads what follows the name of a value in an object of its own: nothing, and
the end of the object. -/
def readUnit {α : Type} (value : α) : Reader α
  | .colon :: .null :: .closeBrace :: rest => .ok (value, rest)
  | .colon :: .null :: _ => .error .malformed
  | .colon :: content => .error (mismatch "unit" content)
  | _ => .error .malformed

/-- One of several named values: its name, or an object with its name and
nothing. -/
def readVariant {α : Type} (choices : List String) (ofName? : String → Option α) : Reader α
  | .text (some name) :: rest =>
      match nameValue choices ofName? name with
      | .ok value => .ok (value, rest)
      | .error fault => .error fault
  | .openBrace :: .text (some name) :: rest =>
      match nameValue choices ofName? name with
      | .ok value => readUnit value rest
      | .error fault => .error fault
  | _ => .error .malformed

/-! ## Passing over a value -/

/-- A bracket that waits for its partner. -/
inductive Bracket where
  | array
  | object
deriving DecidableEq, Repr

mutual

/-- Passes over a value and then over the brackets that wait around it. -/
def skipFrom : List Token → List Bracket → Option (List Token)
  | .null :: rest, waiting => skipAfter rest waiting
  | .boolean _ :: rest, waiting => skipAfter rest waiting
  | .number _ :: rest, waiting => skipAfter rest waiting
  | .text _ :: rest, waiting => skipAfter rest waiting
  | .openBracket :: .closeBracket :: rest, waiting => skipAfter rest waiting
  | .openBracket :: rest, waiting => skipFrom rest (.array :: waiting)
  | .openBrace :: .closeBrace :: rest, waiting => skipAfter rest waiting
  | .openBrace :: .text _ :: .colon :: rest, waiting => skipFrom rest (.object :: waiting)
  | _, _ => none
termination_by structural tokens => tokens

/-- Goes on after a value, inside the brackets that wait around it. -/
def skipAfter : List Token → List Bracket → Option (List Token)
  | tokens, [] => some tokens
  | .comma :: rest, .array :: waiting => skipFrom rest (.array :: waiting)
  | .closeBracket :: rest, .array :: waiting => skipAfter rest waiting
  | .comma :: .text _ :: .colon :: rest, .object :: waiting => skipFrom rest (.object :: waiting)
  | .closeBrace :: rest, .object :: waiting => skipAfter rest waiting
  | _, _ => none
termination_by structural tokens => tokens

end

/-- Passes over a value of any shape and depth. -/
def skipValue (tokens : List Token) : Except Fault (List Token) :=
  match skipFrom tokens [] with
  | some rest => .ok rest
  | none => .error .malformed

/-! ## Whole texts -/

def read {α : Type} (reader : Reader α) (bytes : Text.Bytes) : Except Fault α :=
  match reader (Token.lex bytes) with
  | .error fault => .error fault
  | .ok (value, []) => .ok value
  | .ok _ => .error .malformed

end RoomLedger.Json
