import RoomLedger.Record.Basic
import RoomLedger.Text.Pieces

/-!
Contract: a whole collection as lines of JSON.

Owns:
- `encode`, one record a line, with newlines between them and none at the end;
- `decode`, which skips lines of white space and stops at the first line that is
  no record;
- `LineFault`, that line's number with its fault;
- the name of the format.

Does not own: where the bytes are kept.
-/

namespace RoomLedger.Collection

open RoomLedger.Text (Bytes)

/-- The content type under which collections are stored. -/
def contentType : String :=
  "application/x-ndjson"

/-- A line that is no record. Lines are counted from one. -/
structure LineFault where
  line : Nat
  fault : Json.Fault
deriving DecidableEq, Repr

def LineFault.message (found : LineFault) : String :=
  s!"line {found.line}: {found.fault.message}"

def newline : UInt8 := 0x0A

/-- A line without one carriage return at its end. -/
def dropReturn (line : Bytes) : Bytes :=
  if line.getLast? = some 0x0D then line.dropLast else line

/-- White space of ASCII: the space, the tab, the line feed, the form feed and
the carriage return. -/
def isAsciiSpace (byte : UInt8) : Bool :=
  byte == 0x20 || byte == 0x09 || byte == 0x0A || byte == 0x0C || byte == 0x0D

def isEmptyLine (line : Bytes) : Bool :=
  line.all isAsciiSpace

variable {R : Type} [Record R]

def encode (records : List R) : Bytes :=
  Text.joined newline (records.map Record.write)

/-- The records of lines, of which the first has the given number. -/
def decodeLines : (number : Nat) → List Bytes → Except LineFault (List R)
  | _, [] => .ok []
  | number, line :: lines =>
      let content := dropReturn line
      if isEmptyLine content then decodeLines (number + 1) lines
      else
        match Record.decode? content with
        | .error fault => .error ⟨number, fault⟩
        | .ok record =>
            match decodeLines (number + 1) lines with
            | .error found => .error found
            | .ok records => .ok (record :: records)

def decode (bytes : Bytes) : Except LineFault (List R) :=
  decodeLines 1 (Text.pieces newline bytes)

@[simp] theorem encode_nil : encode ([] : List R) = [] := rfl

/-- The empty byte string is the empty collection. -/
@[simp] theorem decode_nil : decode [] = .ok ([] : List R) := rfl

end RoomLedger.Collection
