import RoomLedger.Time.Printer
import RoomLedger.Time.Scan

/-!
Contract: the numbers of written timestamps are scanned whole.

Owns: the scan of a number of fixed width, and of one that is padded and ends
before another character.

Does not own: the order of the fields.
-/

namespace RoomLedger.Time

open RoomLedger.Decimal (digitChar digitOf? digits fixed tenTo signedLimit64)

/-- The text does not begin with a digit. -/
def EndsDigits (rest : List Char) : Prop :=
  ∀ character ∈ rest.head?, digitOf? character = none

theorem endsDigits_cons {character : Char} (noDigit : digitOf? character = none)
    (rest : List Char) :
    EndsDigits (character :: rest) := by
  intro other member
  cases member
  exact noDigit

namespace Scan

/-! ## Runs of digits -/

private theorem takeDigits_of_endsDigits (most : Nat) {rest : List Char} (ends : EndsDigits rest) :
    takeDigits most rest = ([], rest) := by
  cases most with
  | zero => rfl
  | succ most =>
      cases rest with
      | nil => rfl
      | cons character rest => rw [takeDigits, ends character rfl]

/-- A run of digits is taken whole if it is as long as it may be, or if no digit
follows. -/
theorem takeDigits_append {most : Nat} {run : List Nat} {rest : List Char}
    (small : ∀ digit ∈ run, digit < 10) (room : run.length ≤ most)
    (ends : run.length = most ∨ EndsDigits rest) :
    takeDigits most (run.map digitChar ++ rest) = (run, rest) := by
  induction run generalizing most with
  | nil =>
      rcases ends with full | ends
      · rw [← full]
        rfl
      · exact takeDigits_of_endsDigits most ends
  | cons digit run inductionHypothesis =>
      cases most with
      | zero => cases room
      | succ most =>
          have first := Decimal.digitOf?_digitChar (small digit (by simp))
          have others : takeDigits most (run.map digitChar ++ rest) = (run, rest) :=
            inductionHypothesis
              (fun other member => small other (by simp [member]))
              (by simpa using room)
              (by simpa using ends)
          rw [List.map_cons, List.cons_append, takeDigits, first]
          simp only [others]

private theorem number_of_takeDigits {most : Nat} {characters rest : List Char} {run : List Nat}
    (taken : takeDigits most characters = (run, rest)) (present : run ≠ [])
    (fits : Decimal.value run < signedLimit64) :
    number most characters = .ok (Decimal.value run, rest) := by
  cases run with
  | nil => exact absurd rfl present
  | cons digit run =>
      unfold number
      rw [taken]
      simp only [fits, if_true]

/-- A number of fixed width is read back. -/
theorem number_fixedText {most width value : Nat} {rest : List Char} (wide : 0 < width)
    (room : width ≤ most) (fits : value < tenTo width) (small : value < signedLimit64)
    (ends : width = most ∨ EndsDigits rest) :
    number most (fixedText width value ++ rest) = .ok (value, rest) := by
  have taken : takeDigits most (fixedText width value ++ rest) = (fixed width value, rest) :=
    takeDigits_append (fun _ member => Decimal.lt_ten_of_mem_fixed member)
      (by simpa using room) (by simpa using ends)
  have same : Decimal.value (fixed width value) = value := Decimal.value_fixed fits
  have present : fixed width value ≠ [] := by
    intro none
    have length := Decimal.length_fixed width value
    rw [none] at length
    simp only [List.length_nil] at length
    omega
  have read := number_of_takeDigits taken present (by rw [same]; exact small)
  rw [read, same]

private theorem value_replicate_zero_append (count : Nat) (run : List Nat) :
    Decimal.value (List.replicate count 0 ++ run) = Decimal.value run := by
  induction count with
  | zero => rfl
  | succ count inductionHypothesis =>
      rw [List.replicate_succ, List.cons_append]
      exact inductionHypothesis

/-- A padded number is read back, if no digit follows and there is room for it. -/
theorem number_padded {most width value : Nat} {rest : List Char}
    (room : (Decimal.padded width value).length ≤ most) (small : value < signedLimit64)
    (ends : EndsDigits rest) :
    number most (Decimal.padded width value ++ rest) = .ok (value, rest) := by
  have digitsSmall :
      ∀ digit ∈ List.replicate (width - (digits value).length) 0 ++ digits value, digit < 10 := by
    intro digit member
    rcases List.mem_append.mp member with zero | member
    · have := (List.mem_replicate.mp zero).2
      omega
    · exact Decimal.lt_ten_of_mem_digits member
  have taken : takeDigits most (Decimal.padded width value ++ rest) = (_, rest) :=
    takeDigits_append digitsSmall (by simpa [Decimal.padded] using room) (Or.inr ends)
  have same := value_replicate_zero_append (width - (digits value).length) (digits value)
  rw [Decimal.value_digits] at same
  have present : List.replicate (width - (digits value).length) 0 ++ digits value ≠ [] := by
    simp [Decimal.digits_ne_nil]
  have read := number_of_takeDigits taken present (by rw [same]; exact small)
  rw [same] at read
  exact read

end Scan

end RoomLedger.Time
