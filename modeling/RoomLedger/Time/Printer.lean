import RoomLedger.Decimal.Digits
import RoomLedger.Time.Timestamp

/-!
Contract: the written form of timestamps.

Owns:
- `Timestamp.write`, the one form with its two spellings of the offset zero;
- `Timestamp.rfc3339`, which writes that offset as `+00:00`;
- `Timestamp.stored`, which writes it as `Z`;
- `Timestamp.minuteText`, the local date and time to the minute.

The fraction has the fewest of 0, 3, 6 and 9 digits that show it whole. A year
outside 0 to 9999 has a sign.

Does not own: the readers.
-/

namespace RoomLedger.Time

def fixedText (width number : Nat) : List Char :=
  (Decimal.fixed width number).map Decimal.digitChar

/-- A year as four digits, or as a sign and at least four. -/
def yearText (year : Int) : List Char :=
  if 0 ≤ year ∧ year ≤ 9999 then fixedText 4 year.toNat
  else (if year < 0 then '-' else '+') :: Decimal.padded 4 year.natAbs

/-- A fraction of a second with its point, or nothing. -/
def fractionText (nano : Nat) : List Char :=
  if nano = 0 then []
  else if nano % 1000000 = 0 then '.' :: fixedText 3 (nano / 1000000)
  else if nano % 1000 = 0 then '.' :: fixedText 6 (nano / 1000)
  else '.' :: fixedText 9 nano

/-- An offset as a sign with hours and minutes. -/
def Offset.text (offset : Offset) : List Char :=
  let size := offset.minutes.natAbs
  (if offset.minutes < 0 then '-' else '+') ::
    (fixedText 2 (size / 60) ++ ':' :: fixedText 2 (size % 60))

def Date.text (date : Date) : List Char :=
  yearText date.year ++ '-' :: (fixedText 2 date.month ++ '-' :: fixedText 2 date.day)

def TimeOfDay.text (time : TimeOfDay) : List Char :=
  fixedText 2 time.hour ++ ':' :: (fixedText 2 time.minute ++
    ':' :: (fixedText 2 time.second ++ fractionText time.nano))

namespace Timestamp

/-- The written form, with the given spelling of the offset zero. -/
def write (zero : List Char) (timestamp : Timestamp) : List Char :=
  timestamp.date.text ++ 'T' :: (timestamp.time.text ++
    if timestamp.offset.minutes = 0 then zero else timestamp.offset.text)

/-- The form for people: the offset zero is `+00:00`. -/
def rfc3339 (timestamp : Timestamp) : String :=
  String.ofList (timestamp.write ['+', '0', '0', ':', '0', '0'])

/-- The form in stored records: the offset zero is `Z`. -/
def stored (timestamp : Timestamp) : String :=
  String.ofList (timestamp.write ['Z'])

def minuteText (timestamp : Timestamp) : String :=
  String.ofList (timestamp.date.text ++ ' ' :: (fixedText 2 timestamp.time.hour ++
    ':' :: fixedText 2 timestamp.time.minute))

end Timestamp

end RoomLedger.Time
