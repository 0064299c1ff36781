import RoomLedger.Decimal.Binary64
import RoomLedger.Decimal.Digits
import RoomLedger.Text.Bytes

/-!
Contract: the numbers of JSON text.

Owns:
- `Numeral`, a number as it is written, and its scanner;
- `Number`, what a numeral stands for: a whole number of sixty-four bits or a
  real number of the binary64 format;
- `Numeral.number?`, which has no answer for a number beyond that format.

A number with a point or an exponent, a negative zero and a whole number beyond
sixty-four bits are real. The real number is found as the sixty-four bits of
leading digits, rounded, times or divided by a rounded power of ten.

Does not own: where a number may stand.
-/

namespace RoomLedger.Json

open RoomLedger.Text (Bytes)
open RoomLedger.Decimal (Binary64)

/-- A number as it is written. `decimals` are the digits after the point, none
where there is no point; an exponent has a sign, true where it is negative. -/
structure Numeral where
  negative : Bool
  whole : List Nat
  decimals : List Nat
  exponent : Option (Bool × List Nat)
deriving DecidableEq, Repr

/-- The leading digits and the bytes after them. -/
def scanDigits : Bytes → List Nat × Bytes
  | [] => ([], [])
  | byte :: rest =>
      match Decimal.digitOfByte? byte with
      | none => ([], byte :: rest)
      | some digit =>
          let (run, left) := scanDigits rest
          (digit :: run, left)

/-- At least one digit and the bytes after the last. -/
def scanSomeDigits (bytes : Bytes) : Option (List Nat × Bytes) :=
  match scanDigits bytes with
  | ([], _) => none
  | found => some found

/-- The digits before the point: a zero stands alone. -/
def scanWhole (bytes : Bytes) : Option (List Nat × Bytes) :=
  match scanDigits bytes with
  | ([], _) => none
  | (0 :: _ :: _, _) => none
  | found => some found

/-- The digits after a point, if there is one. -/
def scanDecimals : Bytes → Option (List Nat × Bytes)
  | 0x2E :: rest => scanSomeDigits rest
  | bytes => some ([], bytes)

/-- The sign of an exponent, if there is one. -/
def scanExponentSign : Bytes → Bool × Bytes
  | 0x2B :: rest => (false, rest)
  | 0x2D :: rest => (true, rest)
  | bytes => (false, bytes)

def scanExponent : Bytes → Option (Option (Bool × List Nat) × Bytes)
  | [] => some (none, [])
  | byte :: rest =>
      if byte == 0x65 || byte == 0x45 then
        let signed := scanExponentSign rest
        (scanSomeDigits signed.2).map fun found => (some (signed.1, found.1), found.2)
      else some (none, byte :: rest)

def scanUnsigned (negative : Bool) (bytes : Bytes) : Option (Numeral × Bytes) :=
  match scanWhole bytes with
  | none => none
  | some (whole, afterWhole) =>
      match scanDecimals afterWhole with
      | none => none
      | some (decimals, afterDecimals) =>
          match scanExponent afterDecimals with
          | none => none
          | some (exponent, left) => some (⟨negative, whole, decimals, exponent⟩, left)

def scanNumber : Bytes → Option (Numeral × Bytes)
  | 0x2D :: rest => scanUnsigned true rest
  | bytes => scanUnsigned false bytes

/-! ## What a numeral stands for -/

/-- What a numeral stands for. -/
inductive Number where
  /-- A whole number that is not negative. -/
  | natural (value : Nat)
  /-- A whole number below zero. -/
  | negative (magnitude : Nat)
  /-- A real number with its sign. -/
  | real (negative : Bool) (magnitude : Binary64)
deriving DecidableEq, Repr

/-- The first number that sixty-four bits do not hold. -/
def wordLimit : Nat := UInt64.size

/-- Takes digits into a significand as long as sixty-four bits hold it. The
digits left begin with the first that does not fit. -/
def absorb (significand : Nat) : List Nat → Nat × List Nat
  | [] => (significand, [])
  | digit :: rest =>
      if 10 * significand + digit < wordLimit then absorb (10 * significand + digit) rest
      else (significand, digit :: rest)

/-- The greatest power of ten in the table by which numbers are scaled. -/
def tablePower : Nat := 308

/-- A number times a power of ten. A power beyond the table is divided out a
table at a time; a result of zero needs no more. -/
def scale : (fuel : Nat) → Binary64 → (power : Int) → Option Binary64
  | 0, value, _ => some value
  | fuel + 1, value, power =>
      if power.natAbs ≤ tablePower then do
        let factor ← Binary64.ofRatio? (Decimal.tenTo power.natAbs) 1
        if 0 ≤ power then value.mul? factor else value.div? factor
      else if value.significand = 0 then some value
      else if 0 ≤ power then none
      else do
        let factor ← Binary64.ofRatio? (Decimal.tenTo tablePower) 1
        let smaller ← value.div? factor
        scale fuel smaller (power + tablePower)

/-- The real number that a significand and a power of ten stand for. Three
tables take every significand of sixty-four bits to zero. -/
def realOf? (negative : Bool) (significand : Nat) (power : Int) : Option Number := do
  let rounded ← Binary64.ofRatio? significand 1
  let magnitude ← scale 4 rounded power
  return .real negative magnitude

namespace Numeral

def writtenPower (numeral : Numeral) : Int :=
  match numeral.exponent with
  | none => 0
  | some (true, run) => -(Decimal.value run : Int)
  | some (false, run) => Decimal.value run

/-- The number is written without a point and without an exponent. -/
def isWhole (numeral : Numeral) : Bool :=
  numeral.decimals.isEmpty && numeral.exponent.isNone

/-- What a numeral stands for, if it is within the format. -/
def number? (numeral : Numeral) : Option Number :=
  let (significand, wholeLeft) := absorb 0 numeral.whole
  if numeral.isWhole && wholeLeft.isEmpty then
    if !numeral.negative then some (.natural significand)
    else if 0 < significand ∧ significand ≤ Decimal.signedLimit64 then some (.negative significand)
    else realOf? true significand 0
  else
    let (significand, decimalsLeft) := absorb significand numeral.decimals
    let places := numeral.decimals.length - decimalsLeft.length
    realOf? numeral.negative significand
      ((wholeLeft.length : Int) - places + numeral.writtenPower)

end Numeral

/-! ## Lengths -/

theorem length_scanDigits_le (bytes : Bytes) : (scanDigits bytes).2.length ≤ bytes.length := by
  fun_induction scanDigits bytes with
  | case1 => simp
  | case2 => simp
  | case3 byte rest digit _ run left equation inductionHypothesis =>
    simp only [equation] at inductionHypothesis
    simp only [List.length_cons]
    omega

theorem length_scanDigits_lt {bytes left : Bytes} {digit : Nat} {run : List Nat}
    (scanned : scanDigits bytes = (digit :: run, left)) :
    left.length < bytes.length := by
  cases bytes with
  | nil => simp [scanDigits] at scanned
  | cons byte rest =>
    have shorter := length_scanDigits_le rest
    rw [scanDigits] at scanned
    split at scanned
    · simp at scanned
    · simp only [Prod.mk.injEq] at scanned
      rw [← scanned.2]
      simp only [List.length_cons]
      omega

theorem length_scanSomeDigits_lt {bytes left : Bytes} {run : List Nat}
    (scanned : scanSomeDigits bytes = some (run, left)) :
    left.length < bytes.length := by
  unfold scanSomeDigits at scanned
  split at scanned
  · cases scanned
  · rename_i notEmpty
    have found := Option.some.inj scanned
    cases run with
    | nil => exact absurd found (notEmpty left)
    | cons digit run => exact length_scanDigits_lt found

theorem length_scanWhole_lt {bytes left : Bytes} {run : List Nat}
    (scanned : scanWhole bytes = some (run, left)) :
    left.length < bytes.length := by
  unfold scanWhole at scanned
  split at scanned
  · cases scanned
  · cases scanned
  · rename_i notEmpty _
    have found := Option.some.inj scanned
    cases run with
    | nil => exact absurd found (notEmpty left)
    | cons digit run => exact length_scanDigits_lt found

theorem length_scanDecimals_le {bytes left : Bytes} {run : List Nat}
    (scanned : scanDecimals bytes = some (run, left)) :
    left.length ≤ bytes.length := by
  unfold scanDecimals at scanned
  split at scanned
  · have := length_scanSomeDigits_lt scanned
    simp only [List.length_cons]
    omega
  · cases scanned
    exact Nat.le_refl _

theorem length_scanExponentSign_le (bytes : Bytes) :
    (scanExponentSign bytes).2.length ≤ bytes.length := by
  unfold scanExponentSign
  split <;> simp

theorem length_scanExponent_le {bytes left : Bytes} {exponent : Option (Bool × List Nat)}
    (scanned : scanExponent bytes = some (exponent, left)) :
    left.length ≤ bytes.length := by
  unfold scanExponent at scanned
  split at scanned
  · cases scanned
    exact Nat.le_refl _
  · rename_i byte rest
    split at scanned
    · simp only [Option.map_eq_some_iff, Prod.exists, Prod.mk.injEq] at scanned
      obtain ⟨run, tail, found, -, rfl⟩ := scanned
      have := length_scanSomeDigits_lt found
      have := length_scanExponentSign_le rest
      simp only [List.length_cons]
      omega
    · cases scanned
      exact Nat.le_refl _

theorem length_scanUnsigned_lt {negative : Bool} {bytes left : Bytes} {numeral : Numeral}
    (scanned : scanUnsigned negative bytes = some (numeral, left)) :
    left.length < bytes.length := by
  unfold scanUnsigned at scanned
  split at scanned
  · cases scanned
  · split at scanned
    · cases scanned
    · split at scanned
      · cases scanned
      · cases scanned
        have := length_scanWhole_lt ‹_›
        have := length_scanDecimals_le ‹_›
        have := length_scanExponent_le ‹_›
        omega

theorem length_scanNumber_lt {bytes left : Bytes} {numeral : Numeral}
    (scanned : scanNumber bytes = some (numeral, left)) :
    left.length < bytes.length := by
  unfold scanNumber at scanned
  split at scanned
  · have := length_scanUnsigned_lt scanned
    simp only [List.length_cons]
    omega
  · exact length_scanUnsigned_lt scanned

end RoomLedger.Json
