import RoomLedger.Time.Scan

/-!
Contract: the relaxed reader of timestamps, for text in stored records.

Owns:
- `Timestamp.ofRelaxed?`: a year with an optional sign, one or two digits for
  every other field, `T`, `t` or a space right after the day, `UTC` or `Z` in
  either case or an offset whose parts may be set apart by colons and white
  space;
- the places where white space may stand: before each number, before `-` and
  `:`, before the offset and at the end.

The range of a field is checked as soon as it is read; that the day exists is
checked at the end.

Does not own: the reader of text that a person entered.
-/

namespace RoomLedger.Time.Timestamp

open Scan

/-- A number of at most two digits in a range, after white space. -/
def fieldWithin (first last : Nat) : Scanner Nat := fun characters => do
  let (value, rest) ← number 2 (Text.trimStart characters)
  if first ≤ value ∧ value ≤ last then return (value, rest) else throw .outOfRange

/-- A year of any size: any number of digits after a sign, and at most four
without one. -/
def writtenYear : Scanner Int := fun characters =>
  match Text.trimStart characters with
  | '-' :: rest => do
      let (value, left) ← number rest.length rest
      return (-(value : Int), left)
  | '+' :: rest => do
      let (value, left) ← number rest.length rest
      return ((value : Int), left)
  | rest => do
      let (value, left) ← number 4 rest
      return ((value : Int), left)

/-- A year that thirty-two bits with a sign hold. -/
def relaxedYear : Scanner Int := fun characters => do
  let (year, rest) ← writtenYear characters
  if -(Decimal.signedLimit32 : Int) ≤ year ∧ year < Decimal.signedLimit32 then return (year, rest)
  else throw .outOfRange

def spaced (character : Char) : Scanner Unit := fun characters =>
  separator (· == character) (Text.trimStart characters)

def loose : Scanner Unit := fun characters =>
  .ok ((), characters.dropWhile fun character => character == ':' || Text.isBlank character)

/-- The name of the zone without an offset, in either case. -/
def isUtcName : List Char → Bool
  | [first, second, third] =>
      first.toLower == 'u' && second.toLower == 't' && third.toLower == 'c'
  | _ => false

/-- An offset after white space, or the name of the zone without one. -/
def relaxedOffset : Scanner Int := fun characters =>
  let rest := Text.trimStart characters
  if isUtcName (rest.take 3) then .ok (0, rest.drop 3) else offsetMinutes loose rest

/-- A timestamp of the relaxed form, which is the whole text but for white space
at its end. -/
def ofRelaxed? (characters : List Char) : Except TimestampFault Timestamp := do
  let (year, rest) ← relaxedYear characters
  let ((), rest) ← spaced '-' rest
  let (month, rest) ← fieldWithin 1 12 rest
  let ((), rest) ← spaced '-' rest
  let (day, rest) ← fieldWithin 1 31 rest
  let ((), rest) ← separator isDateEnd rest
  let (hour, rest) ← fieldWithin 0 23 rest
  let ((), rest) ← spaced ':' rest
  let (minute, rest) ← fieldWithin 0 59 rest
  let ((), rest) ← spaced ':' rest
  let (second, rest) ← fieldWithin 0 60 rest
  let (nano, rest) ← secondFraction rest
  let (minutes, rest) ← relaxedOffset rest
  if !(Text.trimStart rest).isEmpty then throw .trailing
  let date ← orFault .outOfRange (Date.ofCivil? year month day)
  let time ← orFault .outOfRange (TimeOfDay.ofFields? hour minute second nano)
  let offset ← orFault .outOfRange (Offset.ofMinutes? minutes)
  orFault .impossible (ofLocal? date time offset)

end RoomLedger.Time.Timestamp
