import RoomLedger.Proofs.Record.Objects
import RoomLedger.Store.FileFormat

/-!
Contract: a blob is read back from the content of its file.

Owns:
- the header's line, which is read back and holds no newline;
- `bytes_asciiText`, by which the digits of a digest come back as bytes;
- `decodeFile_encodeFile`, the round trip of a blob.

The payload may hold anything, lines that look like headers among it: the first
newline is the one after the header. Of the digest only that it is a function of
the payload plays a part.

Does not own: files that were written in another way.
-/

namespace RoomLedger.Store

open RoomLedger.Record
open RoomLedger.Text (Bytes)

/-! ## The line of a header -/

private theorem Header.isSound_schema : Header.schema.isSound = true := by decide

theorem Header.decode?_write (header : Header) : Header.decode? header.write = .ok header := by
  have row := decode_write Header.isSound_schema header.toRow
  simp only [decode?, write, row, ofRow_toRow]

theorem Header.newline_not_mem_write (header : Header) : 0x0A ∉ header.write := by
  intro found
  have visible : (0x20 : UInt8) ≤ 0x0A := space_le_of_mem_write found
  exact absurd visible (by decide)

/-- A line without a newline is split from what follows its end. -/
theorem splitHeader?_append {line : Bytes} (payload : Bytes) (single : 0x0A ∉ line) :
    splitHeader? (line ++ 0x0A :: payload) = some (line, payload) := by
  induction line with
  | nil => rfl
  | cons byte rest inductionHypothesis =>
      simp only [List.mem_cons, not_or] at single
      have differs : byte ≠ 0x0A := fun same => single.1 same.symm
      rw [List.cons_append, splitHeader?, if_neg differs, inductionHypothesis single.2]

/-! ## The digits of a digest -/

private theorem utf8EncodeChar_of_lt {byte : UInt8} (ascii : byte < 0x80) :
    String.utf8EncodeChar (Char.ofNat byte.toNat) = [byte] := by
  have small : byte.toNat < 128 := UInt8.lt_iff_toNat_lt.mp ascii
  have each : ∀ code : Fin 128,
      String.utf8EncodeChar (Char.ofNat code.val) = [UInt8.ofNat code.val] := by
    decide +kernel
  have found := each ⟨byte.toNat, small⟩
  simpa using found

theorem bytes_asciiText {content : Bytes} (ascii : ∀ byte ∈ content, byte < 0x80) :
    Text.bytes (asciiText content) = content := by
  have spelled :
      (content.map fun byte => Char.ofNat byte.toNat).flatMap String.utf8EncodeChar =
        content := by
    induction content with
    | nil => rfl
    | cons byte rest inductionHypothesis =>
        rw [List.map_cons, List.flatMap_cons, utf8EncodeChar_of_lt (ascii byte (by simp)),
          inductionHypothesis fun other found => ascii other (by simp [found])]
        rfl
  rw [Text.bytes, asciiText, String.toByteArray_ofList, List.utf8Encode, spelled]
  exact List.toList_data_toByteArray

private theorem hexDigitByte_lt {digit : Nat} (small : digit < 16) :
    Text.hexDigitByte digit < 0x80 :=
  (by decide : ∀ digit : Fin 16, Text.hexDigitByte digit.val < 0x80) ⟨digit, small⟩

private theorem lt_of_mem_hex {content : Bytes} {digit : UInt8} (found : digit ∈ Text.hex content) :
    digit < 0x80 := by
  obtain ⟨byte, -, half⟩ := List.mem_flatMap.mp found
  have bound := byte.toNat_lt
  simp only [List.mem_cons, List.not_mem_nil, or_false] at half
  rcases half with rfl | rfl
  · exact hexDigitByte_lt (by omega)
  · exact hexDigitByte_lt (by omega)

/-! ## Files -/

/-- The digest of a header is that of its payload. -/
theorem ofHex?_digest (generation : Generation) (contentType : String) (payload : Bytes) :
    Text.ofHex? (Text.bytes (headerOf generation contentType payload).digest) =
      .ok (Digest.Blake3.digest payload) := by
  rw [headerOf, bytes_asciiText fun _ => lt_of_mem_hex, Text.ofHex?_hex]

/-- A payload passes the check against its own header, unless the mark says that
there is none. -/
theorem checkPayload_headerOf {generation : Generation} (present : generation ≠ .absent)
    (contentType : String) (payload : Bytes) :
    checkPayload (headerOf generation contentType payload) payload = .ok () := by
  have stated := ofHex?_digest generation contentType payload
  have marked : (headerOf generation contentType payload).generation.isAbsent = false :=
    Bool.eq_false_iff.mpr fun absent => present (Generation.isAbsent_iff generation |>.mp absent)
  have length : UInt64.ofNat payload.length =
      (headerOf generation contentType payload).length := rfl
  simp only [checkPayload, stated, marked, length, ne_eq, not_true_eq_false, if_false,
    Bool.false_eq_true]

/-- Behind the line of a header only the payload is judged. -/
theorem decodeFile_write_append (header : Header) (payload : Bytes) :
    decodeFile (header.write ++ 0x0A :: payload) =
      match checkPayload header payload with
      | .error damage => .error damage
      | .ok () => .ok
          { content := some payload,
            contentType := some header.contentType,
            generation := header.generation } := by
  have split := splitHeader?_append payload (Header.newline_not_mem_write header)
  cases judged : checkPayload header payload with
  | error damage => simp only [decodeFile, split, Header.decode?_write, judged]
  | ok => simp only [decodeFile, split, Header.decode?_write, judged]

/-- A blob is read back from its file. -/
theorem decodeFile_encodeFile {generation : Generation} (present : generation ≠ .absent)
    (contentType : String) (payload : Bytes) :
    decodeFile (encodeFile generation contentType payload) =
      .ok { content := some payload, contentType := some contentType, generation } := by
  rw [encodeFile, decodeFile_write_append, checkPayload_headerOf present]
  rfl

end RoomLedger.Store
