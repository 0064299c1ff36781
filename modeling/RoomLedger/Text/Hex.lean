import RoomLedger.Text.Bytes
import RoomLedger.Text.Quoted

/-!
Contract: bytes as pairs of hexadecimal digits.

Owns:
- `hex`, the lower-case form of a byte string;
- `ofHex?`, the byte string that a run of digits of either case stands for;
- `HexFault`, the two ways in which a run is no such form.

Does not own: the length that a particular digest has.
-/

namespace RoomLedger.Text

/-- Why a run of characters is no hexadecimal form. -/
inductive HexFault where
  /-- The digits do not pair up. -/
  | oddLength
  /-- A byte that is no digit, and its place. -/
  | notADigit (byte : UInt8) (position : Nat)
deriving DecidableEq, Repr

/-- The wording of a fault; a byte is shown as the character of that code. -/
def HexFault.message : HexFault → String
  | .oddLength => "Odd number of digits"
  | .notADigit byte position =>
      s!"Invalid character {quotedChar (Char.ofNat byte.toNat)} at position {position}"

/-- The lower-case digit of a number below sixteen, as a byte. -/
def hexDigitByte (digit : Nat) : UInt8 :=
  if digit < 10 then UInt8.ofNat (48 + digit) else UInt8.ofNat (87 + digit)

/-- The number that a hexadecimal digit of either case stands for. -/
def hexDigitOf? (byte : UInt8) : Option Nat :=
  let code := byte.toNat
  if 48 ≤ code ∧ code ≤ 57 then some (code - 48)
  else if 97 ≤ code ∧ code ≤ 102 then some (code - 87)
  else if 65 ≤ code ∧ code ≤ 70 then some (code - 55)
  else none

def hex (content : Bytes) : Bytes :=
  content.flatMap fun byte => [hexDigitByte (byte.toNat / 16), hexDigitByte (byte.toNat % 16)]

/-- Reads pairs of digits; `position` is the place of the first of them. -/
def ofHexFrom (position : Nat) : Bytes → Except HexFault Bytes
  | high :: low :: rest =>
      match hexDigitOf? high, hexDigitOf? low with
      | some upper, some lower =>
          (ofHexFrom (position + 2) rest).map (UInt8.ofNat (16 * upper + lower) :: ·)
      | none, _ => .error (.notADigit high position)
      | some _, none => .error (.notADigit low (position + 1))
  | _ => .ok []

/-- The bytes that a run of digits stands for. That the digits pair up is
checked first. -/
def ofHex? (content : Bytes) : Except HexFault Bytes :=
  if content.length % 2 = 1 then .error .oddLength else ofHexFrom 0 content

theorem hexDigitOf?_hexDigitByte {digit : Nat} (small : digit < 16) :
    hexDigitOf? (hexDigitByte digit) = some digit :=
  (by decide : ∀ digit : Fin 16, hexDigitOf? (hexDigitByte digit) = some digit.val) ⟨digit, small⟩

@[simp] theorem length_hex (content : Bytes) : (hex content).length = 2 * content.length := by
  induction content with
  | nil => rfl
  | cons byte rest inductionHypothesis =>
    have step : hex (byte :: rest) =
        hexDigitByte (byte.toNat / 16) :: hexDigitByte (byte.toNat % 16) :: hex rest := rfl
    simp only [step, List.length_cons, inductionHypothesis]
    omega

theorem ofHexFrom_hex (position : Nat) (content : Bytes) :
    ofHexFrom position (hex content) = .ok content := by
  induction content generalizing position with
  | nil => rfl
  | cons byte rest inductionHypothesis =>
    have step : hex (byte :: rest) =
        hexDigitByte (byte.toNat / 16) :: hexDigitByte (byte.toNat % 16) :: hex rest := rfl
    have bound := byte.toNat_lt
    rw [step, ofHexFrom, hexDigitOf?_hexDigitByte (by omega),
      hexDigitOf?_hexDigitByte (by omega)]
    simp only [inductionHypothesis, Except.map]
    have whole : 16 * (byte.toNat / 16) + byte.toNat % 16 = byte.toNat := by omega
    simp [whole]

/-- A byte string is read back from its form. -/
@[simp] theorem ofHex?_hex (content : Bytes) : ofHex? (hex content) = .ok content := by
  simp [ofHex?, ofHexFrom_hex]

end RoomLedger.Text
