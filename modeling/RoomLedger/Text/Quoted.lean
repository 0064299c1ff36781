import RoomLedger.Text.Visible

/-!
Contract: text and characters in quotes, as error messages show them.

Owns:
- `quoted`, a text between double quotes;
- `quotedChar`, a character between single quotes;
- the escapes that both share.

A character without a visible mark is written by its code point in lower-case
hexadecimal digits, as in `\u{301}`.

Does not own: the escapes of JSON, which are a different set.
-/

namespace RoomLedger.Text

/-- The lower-case hexadecimal digits of a number, without leading zeros. -/
def hexDigits (number : Nat) : List Char :=
  Nat.toDigits 16 number

/-- A character as it stands between the given quotes: the quote and the
backslash take a backslash, four controls have letters, and a character without
a visible mark is written by its code point. -/
def escapeBetween (quote character : Char) : List Char :=
  if character == quote || character == '\\' then ['\\', character]
  else match character with
    | '\t' => ['\\', 't']
    | '\n' => ['\\', 'n']
    | '\r' => ['\\', 'r']
    | '\x00' => ['\\', '0']
    | _ =>
      if isVisible character then [character]
      else ['\\', 'u', '{'] ++ hexDigits character.toNat ++ ['}']

def quoted (text : String) : String :=
  String.ofList ('"' :: text.toList.flatMap (escapeBetween '"') ++ ['"'])

def quotedChar (character : Char) : String :=
  String.ofList ('\'' :: escapeBetween '\'' character ++ ['\''])

end RoomLedger.Text
