import RoomLedger.Decimal.Digits
import RoomLedger.Json.Reader
import RoomLedger.Record.Role
import RoomLedger.Time.Printer

/-!
Contract: the fields of stored structures and their JSON values.

Owns:
- `FieldType`, the types that fields have, with the values of each;
- the writer and the reader of a value of each type;
- `Field`, a name with a type and the value that stands for a missing member;
- `Field.restores`, which asks that a member that is left out reads as its value.

Does not own: how fields make up a structure.
-/

namespace RoomLedger.Record

open RoomLedger.Text (Bytes)
open RoomLedger.Json

/-- The types that fields have. -/
inductive FieldType where
  | text
  /-- A text that may be absent; its member is then left out. -/
  | optionalText
  | flag
  | count32
  | count64
  | timestamp
  | role
  | memberRole
deriving DecidableEq, Repr

namespace FieldType

abbrev Value : FieldType → Type
  | text => String
  | optionalText => Option String
  | flag => Bool
  | count32 => UInt32
  | count64 => UInt64
  | timestamp => Time.Timestamp
  | role => Role
  | memberRole => MemberRole

def write : (type : FieldType) → type.Value → Bytes
  | text, value => writeString value
  | optionalText, some value => writeString value
  | optionalText, none => [0x6E, 0x75, 0x6C, 0x6C]
  | flag, true => [0x74, 0x72, 0x75, 0x65]
  | flag, false => [0x66, 0x61, 0x6C, 0x73, 0x65]
  | count32, value => Decimal.asciiBytes value.toNat
  | count64, value => Decimal.asciiBytes value.toNat
  | timestamp, value => writeString value.stored
  | role, value => writeString value.name
  | memberRole, value => writeString value.name

def read : (type : FieldType) → Reader type.Value
  | text => readText
  | optionalText => readOptionalText
  | flag => readFlag
  | count32 => readUInt32
  | count64 => readUInt64
  | timestamp => readTimestamp
  | role => readVariant (Role.all.map Role.name) Role.ofName?
  | memberRole => readVariant (MemberRole.all.map MemberRole.name) MemberRole.ofName?

/-- The member of a value is left out when it is written. -/
def isLeftOut : (type : FieldType) → type.Value → Bool
  | optionalText, value => value.isNone
  | _, _ => false

end FieldType

/-- A field of a stored structure. -/
structure Field where
  name : String
  type : FieldType
  /-- The value of a missing member, where the member may be missing. -/
  fallback : Option type.Value

def Field.required (name : String) (type : FieldType) : Field :=
  ⟨name, type, none⟩

/-- A field with a value for when its member is missing. -/
def Field.withFallback (name : String) (type : FieldType) (value : type.Value) : Field :=
  ⟨name, type, some value⟩

/-- A value whose member is left out is the one that stands for a missing
member. -/
def Field.restores : Field → Bool
  | ⟨_, .optionalText, fallback⟩ => fallback == some none
  | _ => true

end RoomLedger.Record
