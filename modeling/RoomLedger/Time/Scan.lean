import RoomLedger.Decimal.Digits
import RoomLedger.Text.Blank
import RoomLedger.Time.Timestamp

/-!
Contract: the pieces that both readers of timestamps are made of.

Owns:
- `TimestampFault`, the five ways in which a text is no timestamp;
- the readers of a number, a separator, a fraction of a second and an offset;
- `isDateEnd`, what may stand between date and time.

Every reader takes the text that is left and returns its value with the rest;
the first fault met is the answer.

Does not own: which pieces a form consists of.
-/

namespace RoomLedger.Time

/-- Why a text is no timestamp. -/
inductive TimestampFault where
  /-- The text ran out. -/
  | premature
  /-- A character that the form does not have at its place. -/
  | invalid
  /-- A field outside its range, or a day that does not exist. -/
  | outOfRange
  /-- Text after the end of the form. -/
  | trailing
  /-- A local reading whose UTC date the calendar cannot name. -/
  | impossible
deriving DecidableEq, Repr

def TimestampFault.message : TimestampFault → String
  | .premature => "premature end of input"
  | .invalid => "input contains invalid characters"
  | .outOfRange => "input is out of range"
  | .trailing => "trailing input"
  | .impossible => "no possible date and time matching input"

namespace Scan

/-- A reader of one piece: its value and the text after it. -/
abbrev Scanner (α : Type) := List Char → Except TimestampFault (α × List Char)

/-- The leading digits, at most so many, and the text after them. -/
def takeDigits : (most : Nat) → List Char → List Nat × List Char
  | 0, characters => ([], characters)
  | _ + 1, [] => ([], [])
  | most + 1, character :: rest =>
      match Decimal.digitOf? character with
      | none => ([], character :: rest)
      | some digit =>
          let (run, left) := takeDigits most rest
          (digit :: run, left)

/-- A number of one to `most` digits, as long as the text has digits. -/
def number (most : Nat) : Scanner Nat := fun characters =>
  match takeDigits most characters with
  | ([], []) => .error .premature
  | ([], _) => .error .invalid
  | (run, rest) =>
      let value := Decimal.value run
      if value < Decimal.signedLimit64 then .ok (value, rest) else .error .outOfRange

/-- A number of exactly so many digits, read after the digits before it. -/
def digitsAfter : (count start : Nat) → Scanner Nat
  | 0, start, characters => .ok (start, characters)
  | _ + 1, _, [] => .error .invalid
  | count + 1, start, character :: rest =>
      match Decimal.digitOf? character with
      | none => .error .invalid
      | some digit => digitsAfter count (10 * start + digit) rest

def exactly (count : Nat) : Scanner Nat :=
  digitsAfter count 0

def separator (isSeparator : Char → Bool) : Scanner Unit
  | [] => .error .premature
  | character :: rest => if isSeparator character then .ok ((), rest) else .error .invalid

/-- A character that may stand between the date and the time. -/
def isDateEnd (character : Char) : Bool :=
  character == 'T' || character == 't' || character == ' '

/-- The digits of a fraction of a second after its point, in nanoseconds: at
least one digit, and digits past the ninth do not count. -/
def nanoseconds : Scanner Nat := fun characters => do
  let (value, rest) ← number 9 characters
  let places := characters.length - rest.length
  let further := rest.dropWhile fun character => (Decimal.digitOf? character).isSome
  return (value * Decimal.tenTo (9 - places), further)

/-- A fraction of a second, or zero nanoseconds where the text has no point. -/
def secondFraction : Scanner Nat
  | '.' :: rest => nanoseconds rest
  | characters => .ok (0, characters)

/-- The sign of an offset: true for either of the two signs of the west. -/
def sign : Scanner Bool
  | [] => .error .premature
  | '+' :: rest => .ok (false, rest)
  | '-' :: rest => .ok (true, rest)
  | '\u2212' :: rest => .ok (true, rest)
  | _ => .error .invalid

/-- Two digits. A single ASCII character is a text that ran out; a single other
character is more than one byte long, and no digit. -/
def twoDigits : Scanner (Nat × Nat)
  | [] => .error .premature
  | [character] => if character.toNat < 128 then .error .premature else .error .invalid
  | first :: second :: rest =>
      match Decimal.digitOf? first, Decimal.digitOf? second with
      | some high, some low => .ok ((high, low), rest)
      | _, _ => .error .invalid

/-- An offset in minutes: a sign, two digits of hours, what `between` reads, and
two digits of minutes. -/
def signedMinutes (between : Scanner Unit) : Scanner Int := fun characters => do
  let (west, rest) ← sign characters
  let ((hourHigh, hourLow), rest) ← twoDigits rest
  let ((), rest) ← between rest
  let ((minuteHigh, minuteLow), rest) ← twoDigits rest
  if 6 ≤ minuteHigh then throw .outOfRange
  let total : Int := 60 * (10 * hourHigh + hourLow) + (10 * minuteHigh + minuteLow)
  return (if west then -total else total, rest)

/-- An offset in minutes: the letter `Z` of either case, or one with a sign. -/
def offsetMinutes (between : Scanner Unit) : Scanner Int
  | 'Z' :: rest => .ok (0, rest)
  | 'z' :: rest => .ok (0, rest)
  | characters => signedMinutes between characters

def orFault {α : Type} (fault : TimestampFault) : Option α → Except TimestampFault α
  | some value => .ok value
  | none => .error fault

end Scan

end RoomLedger.Time
