import RoomLedger.Json.Numeral
import RoomLedger.Json.StringText

/-!
Contract: JSON text as a list of tokens.

Owns:
- `Token`, with the texts and numbers already taken apart;
- `Token.lex`, the tokens of a byte string up to and including the first place
  where no token can be read.

White space between tokens leaves no trace, so a reader of tokens cannot tell
two layouts apart. A string that spells no text is a token without content: it
can be passed over but not read.

Does not own: which sequences of tokens are values.
-/

namespace RoomLedger.Json

open RoomLedger.Text (Bytes)

/-- A token of JSON text. -/
inductive Token where
  | openBrace
  | closeBrace
  | openBracket
  | closeBracket
  | colon
  | comma
  | null
  | boolean (value : Bool)
  | number (numeral : Numeral)
  | text (content : Option String)
  /-- A place where no token can be read; nothing after it is looked at. -/
  | broken
deriving DecidableEq, Repr

def isSpace (byte : UInt8) : Bool :=
  byte == 0x20 || byte == 0x0A || byte == 0x09 || byte == 0x0D

def punctuation? (byte : UInt8) : Option Token :=
  if byte == 0x7B then some .openBrace
  else if byte == 0x7D then some .closeBrace
  else if byte == 0x5B then some .openBracket
  else if byte == 0x5D then some .closeBracket
  else if byte == 0x3A then some .colon
  else if byte == 0x2C then some .comma
  else none

/-- The token that the word in front is, and the bytes after it. -/
def scanWord : Bytes → Option (Token × Bytes)
  | 0x6E :: 0x75 :: 0x6C :: 0x6C :: rest => some (.null, rest)
  | 0x74 :: 0x72 :: 0x75 :: 0x65 :: rest => some (.boolean true, rest)
  | 0x66 :: 0x61 :: 0x6C :: 0x73 :: 0x65 :: rest => some (.boolean false, rest)
  | _ => none

/-- The token in front, which is not white space, and the bytes after it. -/
def scanToken : Bytes → Option (Token × Bytes)
  | [] => none
  | byte :: rest =>
      match punctuation? byte with
      | some token => some (token, rest)
      | none =>
          if byte == 0x22 then
            match scanString rest with
            | some (pieces, left) => some (.text (pieceText? pieces), left)
            | none => none
          else if byte == 0x2D || (Decimal.digitOfByte? byte).isSome then
            match scanNumber (byte :: rest) with
            | some (numeral, left) => some (.number numeral, left)
            | none => none
          else scanWord (byte :: rest)

theorem length_scanWord_lt {bytes left : Bytes} {token : Token}
    (scanned : scanWord bytes = some (token, left)) :
    left.length < bytes.length := by
  unfold scanWord at scanned
  split at scanned <;> simp_all <;> omega

theorem length_scanToken_lt {bytes left : Bytes} {token : Token}
    (scanned : scanToken bytes = some (token, left)) :
    left.length < bytes.length := by
  unfold scanToken at scanned
  split at scanned
  · cases scanned
  · rename_i byte rest
    split at scanned
    · cases scanned
      simp
    · split at scanned
      · split at scanned
        · cases scanned
          have := length_scanString_lt ‹_›
          simp only [List.length_cons]
          omega
        · cases scanned
      · split at scanned
        · split at scanned
          · cases scanned
            exact length_scanNumber_lt ‹_›
          · cases scanned
        · exact length_scanWord_lt scanned

/-- The tokens of a byte string. Where no token can be read the list ends with
the token that says so. -/
def Token.lex (bytes : Bytes) : List Token :=
  match bytes with
  | [] => []
  | byte :: rest =>
      if isSpace byte then lex rest
      else
        match _scanned : scanToken (byte :: rest) with
        | some (token, left) => token :: lex left
        | none => [.broken]
termination_by bytes.length
decreasing_by
  · simp
  · exact length_scanToken_lt _scanned

theorem Token.lex_cons_of_isSpace {byte : UInt8} (rest : Bytes) (space : isSpace byte = true) :
    lex (byte :: rest) = lex rest := by
  rw [lex]
  simp [space]

theorem Token.lex_of_scanToken {byte : UInt8} {rest left : Bytes} {token : Token}
    (visible : isSpace byte = false) (scanned : scanToken (byte :: rest) = some (token, left)) :
    lex (byte :: rest) = token :: lex left := by
  rw [lex]
  simp only [visible, Bool.false_eq_true, if_false]
  split
  · rename_i found
    rw [scanned] at found
    cases found
    rfl
  · rename_i found
    rw [scanned] at found
    cases found

end RoomLedger.Json
