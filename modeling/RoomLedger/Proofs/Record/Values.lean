import RoomLedger.Proofs.Json.Characters
import RoomLedger.Proofs.Json.Shape
import RoomLedger.Proofs.Time.Reading
import RoomLedger.Record.Field

/-!
Contract: the value of a field is one token, and is read back from it.

Owns:
- `FieldType.token`, the token of a value;
- `FieldType.isSpelled_write`, by which the written value is a spelling of that token;
- `FieldType.read_token`, by which that token is read as the value;
- `FieldType.write_injective`, by which different values are written differently.

Does not own: members and objects.
-/

namespace RoomLedger.Record.FieldType

open RoomLedger.Text (Bytes)
open RoomLedger.Json

/-- The token of a value. -/
def token : (type : FieldType) → type.Value → Token
  | text, value => .text (some value)
  | optionalText, some value => .text (some value)
  | optionalText, none => .null
  | flag, value => .boolean value
  | count32, value => .number (Numeral.ofNat value.toNat)
  | count64, value => .number (Numeral.ofNat value.toNat)
  | timestamp, value => .text (some value.stored)
  | role, value => .text (some value.name)
  | memberRole, value => .text (some value.name)

/-! ## Lexing -/

/-- A written value is a spelling of its token. -/
theorem isSpelled_write (type : FieldType) (value : type.Value) :
    (type.token value).IsSpelled (type.write value) := by
  cases type with
  | text => exact Token.isSpelled_writeString value
  | optionalText =>
      cases value with
      | none => exact .word (by decide)
      | some value => exact Token.isSpelled_writeString value
  | flag =>
      cases value with
      | true => exact .word (by decide)
      | false => exact .word (by decide)
  | count32 => exact Token.isSpelled_asciiBytes value.toNat
  | count64 => exact Token.isSpelled_asciiBytes value.toNat
  | timestamp => exact Token.isSpelled_writeString value.stored
  | role => exact Token.isSpelled_writeString value.name
  | memberRole => exact Token.isSpelled_writeString value.name

theorem lex_write (type : FieldType) (value : type.Value) :
    Token.lex (type.write value) = [type.token value] := by
  rw [← List.append_nil (type.write value)]
  exact lex_of_laysOut (.token (isSpelled_write type value) .nil) (.singleton _)

/-- A value is a value of JSON. -/
theorem isValue_token (type : FieldType) (value : type.Value) : IsValue [type.token value] := by
  cases type with
  | text => exact .text _
  | optionalText =>
      cases value with
      | none => exact .null
      | some value => exact .text _
  | flag => exact .boolean value
  | count32 => exact .number _
  | count64 => exact .number _
  | timestamp => exact .text _
  | role => exact .text _
  | memberRole => exact .text _

/-! ## Reading -/

private theorem readCount_ofNat {limit number : Nat} (expected : String) (rest : List Token)
    (small : number < limit) (fits : limit ≤ wordLimit) :
    readCount limit expected (.number (Numeral.ofNat number) :: rest) =
      .ok (⟨number, small⟩, rest) := by
  rw [readCount, number?_ofNat (Nat.lt_of_lt_of_le small fits)]
  simp only [small, dite_true]

private theorem readVariant_name {α : Type} {value : α} {name : String} {choices : List String}
    {ofName? : String → Option α} (found : ofName? name = some value) (rest : List Token) :
    readVariant choices ofName? (.text (some name) :: rest) = .ok (value, rest) := by
  simp only [readVariant, nameValue, found]

/-- The token of a value is read as that value. -/
theorem read_token (type : FieldType) (value : type.Value) (rest : List Token) :
    type.read (type.token value :: rest) = .ok (value, rest) := by
  cases type with
  | text => rfl
  | optionalText =>
      cases value with
      | none => rfl
      | some value => rfl
  | flag => rfl
  | count32 =>
      have small : value.toNat < UInt32.size := value.toNat_lt
      simp only [read, token, readUInt32, readCount_ofNat "u32" rest small (by decide)]
      simp
  | count64 =>
      have small : value.toNat < UInt64.size := value.toNat_lt
      simp only [read, token, readUInt64, readCount_ofNat "u64" rest small (by decide)]
      simp
  | timestamp =>
      simp only [read, token, readTimestamp, readTextAs, Time.Timestamp.ofRelaxed?_stored]
  | role => exact readVariant_name (Role.ofName?_name value) rest
  | memberRole => exact readVariant_name (MemberRole.ofName?_name value) rest

/-- Different values are written differently. -/
theorem write_injective {type : FieldType} {left right : type.Value}
    (same : type.write left = type.write right) :
    left = right := by
  have tokens : [type.token left] = [type.token right] := by
    rw [← lex_write, ← lex_write, same]
  have read := read_token type left []
  rw [tokens, read_token] at read
  cases read
  rfl

/-! ## No controls -/

private theorem space_le_of_mem_asciiBytes {number : Nat} {byte : UInt8}
    (member : byte ∈ Decimal.asciiBytes number) :
    0x20 ≤ byte := by
  obtain ⟨digit, digitMember, rfl⟩ := List.mem_map.mp member
  have small := Decimal.lt_ten_of_mem_digits digitMember
  have each : ∀ digit : Fin 10, 0x20 ≤ Decimal.digitByte digit := by decide
  exact each ⟨digit, small⟩

/-- A written value holds no control. -/
theorem space_le_of_mem_write {type : FieldType} {value : type.Value} {byte : UInt8}
    (member : byte ∈ type.write value) :
    0x20 ≤ byte := by
  cases type with
  | text => exact space_le_of_mem_writeString member
  | optionalText =>
      cases value with
      | none =>
          have all : (write optionalText none).all (fun byte => decide (0x20 ≤ byte)) = true := by
            decide
          exact of_decide_eq_true (List.all_eq_true.mp all byte member)
      | some value => exact space_le_of_mem_writeString member
  | flag =>
      have each : ∀ value : Bool,
          (write flag value).all (fun byte => decide (0x20 ≤ byte)) = true := by decide
      exact of_decide_eq_true (List.all_eq_true.mp (each value) byte member)
  | count32 => exact space_le_of_mem_asciiBytes member
  | count64 => exact space_le_of_mem_asciiBytes member
  | timestamp => exact space_le_of_mem_writeString member
  | role => exact space_le_of_mem_writeString member
  | memberRole => exact space_le_of_mem_writeString member

end RoomLedger.Record.FieldType
