/-!
Contract: the ids of records that come without one.

Owns: `Identifier.ofMoment`, an id that is made of a time and of random bits, in
the form of a UUID of version 7. Ids of a later millisecond are greater.

Does not own: where the time and the random bits come from.
-/

namespace RoomLedger.Identifier

/-- A number as so many lower-case hexadecimal digits. -/
def hexFixed : (width : Nat) → (number : Nat) → List Char
  | 0, _ => []
  | width + 1, number => hexFixed width (number / 16) ++ [Nat.digitChar (number % 16)]

/-- The id of a millisecond, counted from 1970-01-01 at midnight UTC, and of
seventy-four random bits. -/
def ofMoment (millis random : Nat) : String :=
  let high := hexFixed 12 millis
  let middle := '7' :: hexFixed 3 (random / 0x4000000000000000)
  let low := hexFixed 16 (0x8000000000000000 + random % 0x4000000000000000)
  String.ofList (high.take 8 ++ '-' :: high.drop 8 ++ '-' :: middle ++ '-' :: low.take 4 ++
    '-' :: low.drop 4)

end RoomLedger.Identifier
