import RoomLedger.Decimal.Power

/-!
Contract: the finite numbers of the binary64 format, in exact arithmetic.

Owns:
- `Binary64`, a significand and an exponent of two, without a sign;
- `Binary64.ofRatio?`, the nearest number of the format to a ratio, a tie going
  to the even significand;
- rounded products and quotients.

Does not own: signs, infinities and the decimal form.
-/

namespace RoomLedger.Decimal

/-- The number `significand * 2 ^ exponent`. -/
structure Binary64 where
  significand : Nat
  exponent : Int
deriving DecidableEq, Repr

namespace Binary64

def leastExponent : Int := -1074

def greatestExponent : Int := 971

/-- The first number with more than fifty-three binary digits. -/
def significandLimit : Nat := 9007199254740992

/-- The first number with fifty-three binary digits. -/
def leastFull : Nat := 4503599627370496

def zero : Binary64 := ⟨0, leastExponent⟩

def numerator (value : Binary64) : Nat :=
  value.significand * twoTo value.exponent.toNat

/-- The denominator of a number as a ratio. -/
def denominator (value : Binary64) : Nat :=
  twoTo (-value.exponent).toNat

/-- The quotient rounded to the nearest whole number, a tie to the even one. -/
def divideToEven (dividend divisor : Nat) : Nat :=
  let quotient := dividend / divisor
  let twice := 2 * (dividend % divisor)
  if divisor < twice then quotient + 1
  else if twice = divisor then quotient + quotient % 2
  else quotient

/-- The rounded significand of a ratio at an exponent of two. -/
def significandAt (top bottom : Nat) (exponent : Int) : Nat :=
  divideToEven (top * twoTo (-exponent).toNat) (bottom * twoTo exponent.toNat)

/-- The number of the format nearest to a ratio, or nothing where the ratio is
beyond the format. The exponent is the least one at which the ratio has no more
than fifty-three binary digits. -/
def ofRatio? (top bottom : Nat) : Option Binary64 :=
  if top = 0 then some zero
  else
    let estimate : Int := (Nat.log2 top : Int) - (Nat.log2 bottom : Int)
    let low := max leastExponent (estimate - 53)
    let whole := (top * twoTo (-low).toNat) / (bottom * twoTo low.toNat)
    let exponent := if significandLimit ≤ whole then low + 1 else low
    let significand := significandAt top bottom exponent
    let value : Binary64 :=
      if significand = significandLimit then ⟨leastFull, exponent + 1⟩ else ⟨significand, exponent⟩
    if value.exponent ≤ greatestExponent then some value else none

def mul? (left right : Binary64) : Option Binary64 :=
  ofRatio? (left.numerator * right.numerator) (left.denominator * right.denominator)

def div? (left right : Binary64) : Option Binary64 :=
  ofRatio? (left.numerator * right.denominator) (left.denominator * right.numerator)

end Binary64

end RoomLedger.Decimal
