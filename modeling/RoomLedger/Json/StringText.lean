import RoomLedger.Text.Bytes
import RoomLedger.Text.Hex

/-!
Contract: the strings of JSON text.

Owns:
- `scanString`, which takes a string apart into pieces and finds its end;
- `pieceText?`, the text that pieces spell, if they spell one;
- `writeString`, the one form in which strings are written.

A string is scanned without a look at whether its bytes are UTF-8 and its
surrogates come in pairs: that is asked only of a string whose text is wanted.

Does not own: where a string may stand.
-/

namespace RoomLedger.Json

open RoomLedger.Text (Bytes)

/-- A piece of a string: a byte of its text, or a sixteen-bit unit that an
escape names. -/
inductive Piece where
  | byte (value : UInt8)
  | unit (value : Nat)
deriving DecidableEq, Repr

/-- The byte that the letter of a short escape stands for. -/
def shortEscape? (letter : UInt8) : Option UInt8 :=
  if letter == 0x22 || letter == 0x5C || letter == 0x2F then some letter
  else if letter == 0x62 then some 0x08
  else if letter == 0x66 then some 0x0C
  else if letter == 0x6E then some 0x0A
  else if letter == 0x72 then some 0x0D
  else if letter == 0x74 then some 0x09
  else none

/-- The number that four hexadecimal digits stand for. -/
def fourHexDigits? (first second third fourth : UInt8) : Option Nat := do
  let first ← Text.hexDigitOf? first
  let second ← Text.hexDigitOf? second
  let third ← Text.hexDigitOf? third
  let fourth ← Text.hexDigitOf? fourth
  return 4096 * first + 256 * second + 16 * third + fourth

/-- Puts a piece in front of those already read. -/
def Piece.inFront (piece : Piece) (scanned : List Piece × Bytes) : List Piece × Bytes :=
  (piece :: scanned.1, scanned.2)

/-- The pieces of a string after its opening quote, and the bytes after its
closing quote. A control below the space must not stand for itself. -/
def scanString : Bytes → Option (List Piece × Bytes)
  | [] => none
  | 0x22 :: rest => some ([], rest)
  | 0x5C :: 0x75 :: first :: second :: third :: fourth :: rest =>
      match fourHexDigits? first second third fourth with
      | none => none
      | some value => (scanString rest).map (Piece.unit value).inFront
  | 0x5C :: letter :: rest =>
      match shortEscape? letter with
      | none => none
      | some value => (scanString rest).map (Piece.byte value).inFront
  | byte :: rest =>
      if byte < 0x20 then none else (scanString rest).map (Piece.byte byte).inFront

/-- The UTF-8 bytes of a code point outside the surrogates. -/
def codePointBytes (code : Nat) : Bytes :=
  String.utf8EncodeChar (Char.ofNat code)

/-- The bytes that pieces stand for. A unit of the first half of a surrogate
pair needs one of the second half right after it. -/
def pieceBytes? : List Piece → Option Bytes
  | [] => some []
  | .byte value :: rest => (pieceBytes? rest).map (value :: ·)
  | .unit value :: rest =>
      if value < 0xD800 ∨ 0xE000 ≤ value then
        (pieceBytes? rest).map (codePointBytes value ++ ·)
      else match rest with
        | .unit low :: others =>
            if value < 0xDC00 ∧ 0xDC00 ≤ low ∧ low < 0xE000 then
              (pieceBytes? others).map
                (codePointBytes (0x10000 + 1024 * (value - 0xD800) + (low - 0xDC00)) ++ ·)
            else none
        | _ => none

/-- The text that pieces stand for, if they spell one. -/
def pieceText? (pieces : List Piece) : Option String :=
  (pieceBytes? pieces).bind Text.ofBytes?

/-! ## Writing -/

/-- The byte of a string as it is written: a quote and a backslash take a
backslash, five controls have letters, the others below the space are written as
units, and every other byte stands for itself. -/
def escapeByte (byte : UInt8) : Bytes :=
  if byte == 0x22 || byte == 0x5C then [0x5C, byte]
  else if byte == 0x08 then [0x5C, 0x62]
  else if byte == 0x0C then [0x5C, 0x66]
  else if byte == 0x0A then [0x5C, 0x6E]
  else if byte == 0x0D then [0x5C, 0x72]
  else if byte == 0x09 then [0x5C, 0x74]
  else if byte < 0x20 then
    [0x5C, 0x75, 0x30, 0x30, Text.hexDigitByte (byte.toNat / 16),
      Text.hexDigitByte (byte.toNat % 16)]
  else [byte]

def writeString (text : String) : Bytes :=
  0x22 :: (Text.bytes text).flatMap escapeByte ++ [0x22]

/-! ## Lengths -/

private theorem length_of_map_inFront {bytes left : Bytes} {piece : Piece} {pieces : List Piece}
    (scanned : (scanString bytes).map piece.inFront = some (pieces, left))
    (shorter : ∀ {inner : List Piece}, scanString bytes = some (inner, left) →
      left.length < bytes.length) :
    left.length < bytes.length := by
  simp only [Option.map_eq_some_iff, Prod.exists, Piece.inFront, Prod.mk.injEq] at scanned
  obtain ⟨inner, tail, found, -, rfl⟩ := scanned
  exact shorter found

theorem length_scanString_lt {bytes left : Bytes} {pieces : List Piece}
    (scanned : scanString bytes = some (pieces, left)) :
    left.length < bytes.length := by
  fun_induction scanString bytes generalizing pieces with
  | case1 => cases scanned
  | case2 rest => cases scanned; simp
  | case3 => cases scanned
  | case4 _ _ _ _ rest _ _ inductionHypothesis =>
    have := length_of_map_inFront scanned inductionHypothesis
    simp only [List.length_cons]
    omega
  | case5 => cases scanned
  | case6 _ rest _ _ _ inductionHypothesis =>
    have := length_of_map_inFront scanned inductionHypothesis
    simp only [List.length_cons]
    omega
  | case7 => cases scanned
  | case8 _ rest _ _ _ _ inductionHypothesis =>
    have := length_of_map_inFront scanned inductionHypothesis
    simp only [List.length_cons]
    omega

end RoomLedger.Json
