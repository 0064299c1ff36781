import RoomLedger.Decimal.Binary64
import RoomLedger.Decimal.Digits

/-!
Contract: the shortest decimal form of a binary64 number.

Owns:
- `Binary64.shortest`, the fewest digits that are read back as the number, and
  of those the nearest to it;
- `Binary64.text`, those digits written out: with a point where the first digit
  stands for a power of ten from -5 to 15, with an exponent elsewhere.

Does not own: reading decimal text.
-/

namespace RoomLedger.Decimal.Binary64

/-- A ratio lies among the numbers that are rounded to `value`. Half the
distance to each neighbour belongs to it, with the end itself if its significand
is even; below a power of two the neighbour is twice as near. -/
def holds (value : Binary64) (top bottom : Nat) : Bool :=
  let scaledTop := top * value.denominator
  let unit := bottom * twoTo value.exponent.toNat
  let narrow := value.significand = leastFull && leastExponent < value.exponent
  let gap := if narrow then 1 else 2
  let lower := (4 * value.significand - gap) * unit
  let upper := (4 * value.significand + 2) * unit
  if value.significand % 2 = 0 then lower ≤ 4 * scaledTop && 4 * scaledTop ≤ upper
  else lower < 4 * scaledTop && 4 * scaledTop < upper

/-- The power of ten of the first digit of a positive ratio. -/
def leadingPower (top bottom : Nat) : Int :=
  let estimate : Int := ((digits top).length : Int) - (digits bottom).length
  if bottom * tenTo estimate.toNat ≤ top * tenTo (-estimate).toNat then estimate else estimate - 1

/-- The point of the grid of a power of ten nearest to the number among its two
neighbours that are read back as it, if one is. -/
def onGrid? (value : Binary64) (power : Int) : Option Nat :=
  let raise := tenTo (-power).toNat
  let lower := tenTo power.toNat
  let below := value.numerator * raise / (value.denominator * lower)
  let isRead := fun point : Nat => value.holds (point * lower) raise
  match isRead below, isRead (below + 1) with
  | true, true =>
      let distance := 2 * (value.numerator * raise - below * (value.denominator * lower))
      if distance < value.denominator * lower then some below
      else if value.denominator * lower < distance then some (below + 1)
      else some (below + below % 2)
  | true, false => some below
  | false, true => some (below + 1)
  | false, false => none

/-- The first grid of a run of ever finer ones with a point that is read back. -/
def firstGrid (value : Binary64) : (count : Nat) → (power : Int) → Nat × Int
  | 0, power => (0, power)
  | count + 1, power =>
      match value.onGrid? power with
      | some point => (point, power)
      | none => firstGrid value count (power - 1)

/-- Moves the zeros at the end of a number into the power of ten. -/
def dropZeros : (fuel number : Nat) → (power : Int) → Nat × Int
  | 0, number, power => (number, power)
  | fuel + 1, number, power =>
      if number ≠ 0 ∧ number % 10 = 0 then dropZeros fuel (number / 10) (power + 1)
      else (number, power)

/-- The shortest digits of a positive number, as a whole number and a power of
ten. Seventeen digits are always enough. -/
def shortest (value : Binary64) : Nat × Int :=
  let (number, power) := firstGrid value 17 (leadingPower value.numerator value.denominator)
  dropZeros 20 number power

/-- The digits with a point, for a first digit that stands for the given power
of ten. -/
def positional (run : List Nat) (power : Int) : List Char :=
  if power < 0 then
    '0' :: '.' :: (List.replicate ((-power).toNat - 1) '0' ++ run.map digitChar)
  else
    let places := power.toNat + 1
    let whole := run.take places
    let decimals := run.drop places
    (whole ++ List.replicate (places - whole.length) 0).map digitChar ++
      '.' :: (if decimals.isEmpty then ['0'] else decimals.map digitChar)

/-- The digits with an exponent and its sign. -/
def scientific (run : List Nat) (power : Int) : List Char :=
  let decimals := (run.drop 1).map digitChar
  (run.take 1).map digitChar ++ (if decimals.isEmpty then [] else '.' :: decimals) ++
    'e' :: (if power < 0 then '-' else '+') :: Decimal.text power.natAbs

def text (value : Binary64) : List Char :=
  if value.significand = 0 then ['0', '.', '0']
  else
    let (number, power) := value.shortest
    let run := digits number
    let leading := power + run.length - 1
    if -5 ≤ leading ∧ leading ≤ 15 then positional run leading else scientific run leading

end RoomLedger.Decimal.Binary64
