import RoomLedger.Digest.Blake3
import RoomLedger.Record.Schema
import RoomLedger.Store.Basic

/-!
Contract: a blob as the content of a file.

Owns:
- `Header` and its stored form, a line of JSON before the payload;
- `encodeFile`, the line, a newline and the payload;
- `decodeFile`, which refuses what was torn or changed.

The checks of the reader come in this order: that there is a line, that it is a
header, the length of the payload, the digits of the digest, the digest, and the
mark.

Does not own: where the file is.
-/

namespace RoomLedger.Store

open RoomLedger.Record
open RoomLedger.Text (Bytes)

/-- What a file says about its payload. -/
structure Header where
  generation : Generation
  contentType : String
  /-- The length of the payload. -/
  length : UInt64
  /-- The hexadecimal form of the digest of the payload. -/
  digest : String
deriving DecidableEq, Repr

namespace Header

def schema : Schema where
  name := "BlobHeader"
  fields := [
    .required "generation" .count64,
    .required "content_type" .text,
    .required "len" .count64,
    .required "digest" .text]

def toRow (header : Header) : Row schema.fields :=
  (header.generation.value, header.contentType, header.length, header.digest, ())

def ofRow : Row schema.fields → Header
  | (generation, contentType, length, digest, ()) =>
      { generation := ⟨generation⟩, contentType, length, digest }

@[simp] theorem ofRow_toRow (header : Header) : ofRow header.toRow = header := rfl

/-- The header as a line of JSON, without the end of the line. -/
def write (header : Header) : Bytes :=
  schema.write header.toRow

def decode? (line : Bytes) : Except Json.Fault Header :=
  match schema.decode line with
  | .error fault => .error fault
  | .ok row => .ok (ofRow row)

end Header

/-- A byte string as text, one character for each byte. -/
def asciiText (content : Bytes) : String :=
  String.ofList (content.map fun byte => Char.ofNat byte.toNat)

def headerOf (generation : Generation) (contentType : String) (payload : Bytes) : Header where
  generation := generation
  contentType := contentType
  length := UInt64.ofNat payload.length
  digest := asciiText (Text.hex (Digest.Blake3.digest payload))

def encodeFile (generation : Generation) (contentType : String) (payload : Bytes) : Bytes :=
  (headerOf generation contentType payload).write ++ 0x0A :: payload

/-- The bytes up to the first newline and those after it. -/
def splitHeader? : Bytes → Option (Bytes × Bytes)
  | [] => none
  | byte :: rest =>
      if byte = 0x0A then some ([], rest)
      else
        match splitHeader? rest with
        | none => none
        | some (line, payload) => some (byte :: line, payload)

/-- Whether the payload is the one that the header tells of. -/
def checkPayload (header : Header) (payload : Bytes) : Except Damage Unit :=
  if UInt64.ofNat payload.length ≠ header.length then
    .error (.wrongLength payload.length header.length.toNat)
  else
    match Text.ofHex? (Text.bytes header.digest) with
    | .error fault => .error (.badDigest fault)
    | .ok stated =>
        if Digest.Blake3.digest payload ≠ stated then .error .wrongDigest
        else if header.generation.isAbsent then .error .zeroGeneration
        else .ok ()

/-- The blob that the content of a file holds. -/
def decodeFile (content : Bytes) : Except Damage Version :=
  match splitHeader? content with
  | none => .error .missingHeader
  | some (line, payload) =>
      match Header.decode? line with
      | .error fault => .error (.badHeader fault)
      | .ok header =>
          match checkPayload header payload with
          | .error damage => .error damage
          | .ok () => .ok
              { content := some payload,
                contentType := some header.contentType,
                generation := header.generation }

end RoomLedger.Store
