import RoomLedger.Time.Scan

/-!
Contract: the strict reader of timestamps, for text that a person entered.

Owns:
- `Timestamp.ofStrict?`, the reader of the form
  `YYYY-MM-DD`, one of `T`, `t` or a space, `HH:MM:SS`, an optional fraction,
  and `Z`, `z` or a sign with `HH:MM`;
- `Timestamp.parse?`, the same after trimming.

The order of the checks is fixed: a text of fewer bytes than the shortest date
and time is premature whatever it holds, the date is checked before the
character after it, the time of day before the offset, and the end of the text
before the size of the offset.

Does not own: the reader of timestamps in stored records.
-/

namespace RoomLedger.Time.Timestamp

open Scan

/-- The bytes of a date and a time of day without a fraction. -/
def shortestLength : Nat := 19

/-- A timestamp of the strict form, which is the whole text. -/
def ofStrict? (characters : List Char) : Except TimestampFault Timestamp := do
  if (String.ofList characters).utf8ByteSize < shortestLength then throw .premature
  let (year, rest) ← exactly 4 characters
  let ((), rest) ← separator (· == '-') rest
  let (month, rest) ← exactly 2 rest
  let ((), rest) ← separator (· == '-') rest
  let (day, rest) ← exactly 2 rest
  let date ← orFault .outOfRange (Date.ofCivil? year month day)
  let ((), rest) ← separator isDateEnd rest
  let (hour, rest) ← exactly 2 rest
  let ((), rest) ← separator (· == ':') rest
  let (minute, rest) ← exactly 2 rest
  let ((), rest) ← separator (· == ':') rest
  let (second, rest) ← exactly 2 rest
  let (nano, rest) ← secondFraction rest
  let time ← orFault .outOfRange (TimeOfDay.ofFields? hour minute second nano)
  let (minutes, rest) ← offsetMinutes (separator (· == ':')) rest
  if !rest.isEmpty then throw .trailing
  let offset ← orFault .outOfRange (Offset.ofMinutes? minutes)
  orFault .impossible (ofLocal? date time offset)

/-- A timestamp of the strict form, with white space around it or not. -/
def parse? (text : String) : Except TimestampFault Timestamp :=
  ofStrict? (Text.trim text.toList)

end RoomLedger.Time.Timestamp
