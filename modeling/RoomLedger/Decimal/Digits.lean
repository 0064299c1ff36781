import RoomLedger.Decimal.Power

/-!
Contract: natural numbers as decimal digits.

Owns:
- `digits`, the digits of a number without leading zeros;
- `fixed`, exactly so many digits, with leading zeros;
- `value`, the number that a run of digits stands for;
- the digit characters and bytes;
- `ofDigits?` and `ofUnsigned?`, the number of a run of digit characters;
- the laws that `value` undoes `digits` and `fixed`.

Does not own: fractions, exponents and other signs than the plus.
-/

namespace RoomLedger.Decimal

/-- The digits of a number, most significant first, without leading zeros;
zero has the one digit zero. -/
def digits (number : Nat) : List Nat :=
  if number < 10 then [number] else digits (number / 10) ++ [number % 10]

/-- The last `width` digits of a number, with leading zeros where it is short. -/
def fixed : (width number : Nat) → List Nat
  | 0, _ => []
  | width + 1, number => fixed width (number / 10) ++ [number % 10]

/-- The number that the digits stand for, read after those already read. -/
def valueFrom (start : Nat) (run : List Nat) : Nat :=
  run.foldl (fun total digit => 10 * total + digit) start

def value (run : List Nat) : Nat :=
  valueFrom 0 run

def digitChar (digit : Nat) : Char :=
  Char.ofNat (48 + digit)

def digitByte (digit : Nat) : UInt8 :=
  UInt8.ofNat (48 + digit)

/-- The digit that a character stands for; only ASCII digits do. -/
def digitOf? (character : Char) : Option Nat :=
  if 48 ≤ character.toNat ∧ character.toNat ≤ 57 then some (character.toNat - 48) else none

def digitOfByte? (byte : UInt8) : Option Nat :=
  if 48 ≤ byte.toNat ∧ byte.toNat ≤ 57 then some (byte.toNat - 48) else none

/-- The number that a run of digit characters stands for, if it is one and not
empty. -/
def ofDigits? (characters : List Char) : Option Nat :=
  if characters.isEmpty then none else (characters.mapM digitOf?).map value

/-- The number that a run of digit characters stands for, with a plus before it
or not. -/
def ofUnsigned? : List Char → Option Nat
  | '+' :: characters => ofDigits? characters
  | characters => ofDigits? characters

def text (number : Nat) : List Char :=
  (digits number).map digitChar

/-- A number as decimal text of at least `width` digits. -/
def padded (width number : Nat) : List Char :=
  let run := digits number
  (List.replicate (width - run.length) 0 ++ run).map digitChar

def asciiBytes (number : Nat) : List UInt8 :=
  (digits number).map digitByte

/-- One more digit multiplies by ten and adds. -/
theorem value_append_singleton (run : List Nat) (digit : Nat) :
    value (run ++ [digit]) = 10 * value run + digit := by
  simp [value, valueFrom, List.foldl_append]

@[simp] theorem value_digits (number : Nat) : value (digits number) = number := by
  induction number using Nat.strongRecOn with
  | _ number inductionHypothesis =>
    rw [digits]
    split
    · simp [value, valueFrom]
    · rw [value_append_singleton, inductionHypothesis (number / 10) (by omega)]
      omega

theorem lt_ten_of_mem_digits {number digit : Nat} (member : digit ∈ digits number) :
    digit < 10 := by
  induction number using Nat.strongRecOn with
  | _ number inductionHypothesis =>
    rw [digits] at member
    split at member
    · simp only [List.mem_singleton] at member
      omega
    · simp only [List.mem_append, List.mem_singleton] at member
      rcases member with member | rfl
      · exact inductionHypothesis (number / 10) (by omega) member
      · omega

theorem digits_ne_nil (number : Nat) : digits number ≠ [] := by
  rw [digits]
  split <;> simp

@[simp] theorem length_fixed (width number : Nat) : (fixed width number).length = width := by
  induction width generalizing number with
  | zero => rfl
  | succ width inductionHypothesis => simp [fixed, inductionHypothesis]

theorem lt_ten_of_mem_fixed {width number digit : Nat} (member : digit ∈ fixed width number) :
    digit < 10 := by
  induction width generalizing number with
  | zero => simp [fixed] at member
  | succ width inductionHypothesis =>
    simp only [fixed, List.mem_append, List.mem_singleton] at member
    rcases member with member | rfl
    · exact inductionHypothesis member
    · omega

/-- Fixed digits stand for the number, if it has no more digits than that. -/
theorem value_fixed {width number : Nat} (fits : number < tenTo width) :
    value (fixed width number) = number := by
  induction width generalizing number with
  | zero =>
    simp only [tenTo, Nat.lt_one_iff] at fits
    simp [fixed, value, valueFrom, fits]
  | succ width inductionHypothesis =>
    rw [fixed, value_append_singleton, inductionHypothesis (by rw [tenTo] at fits; omega)]
    omega

/-- The character of a digit is read as that digit. -/
theorem digitOf?_digitChar {digit : Nat} (small : digit < 10) :
    digitOf? (digitChar digit) = some digit := by
  match digit, small with
  | 0, _ | 1, _ | 2, _ | 3, _ | 4, _ | 5, _ | 6, _ | 7, _ | 8, _ | 9, _ => rfl

/-- The byte of a digit is read as that digit. -/
theorem digitOfByte?_digitByte {digit : Nat} (small : digit < 10) :
    digitOfByte? (digitByte digit) = some digit := by
  match digit, small with
  | 0, _ | 1, _ | 2, _ | 3, _ | 4, _ | 5, _ | 6, _ | 7, _ | 8, _ | 9, _ => rfl

end RoomLedger.Decimal
