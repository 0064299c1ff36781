/-!
Contract: the powers of two and of ten.

Owns:
- `twoTo` and `tenTo`;
- `signedLimit32` and `signedLimit64`, the ends of words with a sign.

Does not own: exponents below zero.
-/

namespace RoomLedger.Decimal

def twoTo : (exponent : Nat) → Nat
  | 0 => 1
  | exponent + 1 => 2 * twoTo exponent

def tenTo : (exponent : Nat) → Nat
  | 0 => 1
  | exponent + 1 => 10 * tenTo exponent

/-- The first number that thirty-two bits with a sign do not hold. -/
def signedLimit32 : Nat := 2147483648

/-- The first number that sixty-four bits with a sign do not hold. -/
def signedLimit64 : Nat := 9223372036854775808

end RoomLedger.Decimal
