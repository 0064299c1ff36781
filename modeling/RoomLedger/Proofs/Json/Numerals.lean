import RoomLedger.Json.Numeral

/-!
Contract: natural numbers keep their value as JSON text.

Owns:
- `EndsNumber`, what may follow a number so that it ends there;
- `Numeral.ofNat`, the numeral whose digits are those of a natural number;
- `scanDigits_append` and `scanWhole_append`, the scan of a run of digits;
- `number?_ofNat`, the value of that numeral.

Does not own: the sign, the point and the exponent of a number.
-/

namespace RoomLedger.Json

open RoomLedger.Text (Bytes)
open RoomLedger.Decimal (digits digitByte digitOfByte? asciiBytes valueFrom)

/-- The bytes do not begin with one that a number could go on with. -/
def EndsNumber (rest : Bytes) : Prop :=
  ∀ byte ∈ rest.head?,
    digitOfByte? byte = none ∧ byte ≠ 0x2E ∧ byte ≠ 0x65 ∧ byte ≠ 0x45

/-- The numeral whose digits are those of a natural number. -/
def Numeral.ofNat (number : Nat) : Numeral :=
  ⟨false, digits number, [], none⟩

/-! ## Scanning -/

theorem scanDigits_of_endsNumber {rest : Bytes} (ends : EndsNumber rest) :
    scanDigits rest = ([], rest) := by
  cases rest with
  | nil => rfl
  | cons byte rest =>
      have noDigit := (ends byte rfl).1
      rw [scanDigits, noDigit]

theorem scanDigits_append {run : List Nat} {rest : Bytes} (small : ∀ digit ∈ run, digit < 10)
    (stops : scanDigits rest = ([], rest)) :
    scanDigits (run.map digitByte ++ rest) = (run, rest) := by
  induction run with
  | nil => exact stops
  | cons digit run inductionHypothesis =>
      have first := Decimal.digitOfByte?_digitByte (small digit (by simp))
      have others := inductionHypothesis fun other member => small other (by simp [member])
      rw [List.map_cons, List.cons_append, scanDigits, first]
      simp only [others]

/-- Digits are scanned up to the first byte that is none, unless a zero leads. -/
theorem scanWhole_append {run : List Nat} {rest : Bytes} (present : run ≠ [])
    (alone : ∀ others, run = 0 :: others → others = []) (small : ∀ digit ∈ run, digit < 10)
    (stops : scanDigits rest = ([], rest)) :
    scanWhole (run.map digitByte ++ rest) = some (run, rest) := by
  unfold scanWhole
  rw [scanDigits_append small stops]
  split
  · rename_i none
    exact absurd (congrArg Prod.fst none) present
  · rename_i leading
    cases alone _ (congrArg Prod.fst leading)
  · rfl

/-- The first digit of a number is no zero, unless it is the only one. -/
theorem digits_eq_cons (number : Nat) :
    ∃ first others, digits number = first :: others ∧ (first = 0 → others = []) := by
  induction number using Nat.strongRecOn with
  | _ number inductionHypothesis =>
      rw [digits]
      split
      · exact ⟨number, [], rfl, fun _ => rfl⟩
      · rename_i large
        obtain ⟨first, others, equation, alone⟩ := inductionHypothesis (number / 10) (by omega)
        refine ⟨first, others ++ [number % 10], by rw [equation]; rfl, fun zero => ?_⟩
        have value := Decimal.value_digits (number / 10)
        rw [equation, zero, alone zero] at value
        simp only [Decimal.value, valueFrom, List.foldl_cons, List.foldl_nil] at value
        omega

theorem scanDecimals_of_endsNumber {rest : Bytes} (ends : EndsNumber rest) :
    scanDecimals rest = some ([], rest) := by
  unfold scanDecimals
  split
  · exact absurd rfl (ends _ rfl).2.1
  · rfl

theorem scanExponent_of_endsNumber {rest : Bytes} (ends : EndsNumber rest) :
    scanExponent rest = some (none, rest) := by
  cases rest with
  | nil => rfl
  | cons byte rest =>
      obtain ⟨-, -, small, capital⟩ := ends byte rfl
      simp [scanExponent, small, capital]

/-! ## Values -/

private theorem le_valueFrom (start : Nat) (run : List Nat) : start ≤ valueFrom start run := by
  induction run generalizing start with
  | nil => exact Nat.le_refl start
  | cons digit run inductionHypothesis =>
      have later := inductionHypothesis (10 * start + digit)
      have step : valueFrom start (digit :: run) = valueFrom (10 * start + digit) run := rfl
      omega

private theorem absorb_of_lt {start : Nat} {run : List Nat}
    (fits : valueFrom start run < wordLimit) :
    absorb start run = (valueFrom start run, []) := by
  induction run generalizing start with
  | nil => rfl
  | cons digit run inductionHypothesis =>
      have step : valueFrom start (digit :: run) = valueFrom (10 * start + digit) run := rfl
      have grows := le_valueFrom (10 * start + digit) run
      rw [step] at fits ⊢
      rw [absorb, if_pos (by omega)]
      exact inductionHypothesis fits

/-- The numeral of a number of sixty-four bits stands for that number. -/
theorem number?_ofNat {number : Nat} (fits : number < wordLimit) :
    (Numeral.ofNat number).number? = some (.natural number) := by
  have value : valueFrom 0 (digits number) = number := Decimal.value_digits number
  have absorbed : absorb 0 (digits number) = (number, []) := by
    rw [absorb_of_lt (by rw [value]; exact fits), value]
  simp [Numeral.number?, Numeral.ofNat, absorbed, Numeral.isWhole]

end RoomLedger.Json
