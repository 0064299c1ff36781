import RoomLedger.Proofs.Time.Scanning
import RoomLedger.Time.Relaxed

/-!
Contract: the relaxed reader takes every written timestamp back.

Owns:
- the ranges of the fields of a day;
- the reading of each written field, with what may follow it;
- `ofRelaxed?_of_spelled`, for any spelling of the fraction and the offset;
- `ofRelaxed?_write` and `ofRelaxed?_stored`, which keep the local reading and
  the offset, for all years, leap seconds and offsets.

Does not own: spellings that are never written.
-/

namespace RoomLedger.Time

open RoomLedger.Decimal (digitChar digitOf? fixed tenTo signedLimit64)
open Scan

/-! ## Ranges -/

private theorem daysInMonth_le (year : Int) (month : Nat) : daysInMonth year month ≤ 31 := by
  unfold daysInMonth
  split <;> try split
  all_goals omega

private theorem month_of_daysInMonth_pos {year : Int} {month : Nat}
    (some : 0 < daysInMonth year month) :
    1 ≤ month ∧ month ≤ 12 := by
  unfold daysInMonth at some
  split at some <;> omega

/-- The fields of a day are within the ranges that the reader asks for. -/
theorem Date.fields_within (date : Date) :
    (1 ≤ date.month ∧ date.month ≤ 12) ∧ 1 ≤ date.day ∧ date.day ≤ 31 := by
  obtain ⟨-, -, first, last⟩ := date.civil
  have most := daysInMonth_le date.year date.month
  have some : 0 < daysInMonth date.year date.month := by omega
  exact ⟨month_of_daysInMonth_pos some, first, by omega⟩

/-! ## Characters of the form -/

/-- A digit that is written is no white space and no sign. -/
theorem digitChar_visible {digit : Nat} (small : digit < 10) :
    Text.isBlank (digitChar digit) = false ∧ digitChar digit ≠ '-' ∧ digitChar digit ≠ '+' := by
  have each : ∀ digit : Fin 10, Text.isBlank (digitChar digit) = false ∧
      digitChar digit ≠ '-' ∧ digitChar digit ≠ '+' := by decide
  exact each ⟨digit, small⟩

private theorem fixedText_eq_cons {width : Nat} (wide : 0 < width) (value : Nat) :
    ∃ digit others, digit < 10 ∧ fixedText width value = digitChar digit :: others := by
  have length := Decimal.length_fixed width value
  cases run : fixed width value with
  | nil =>
      rw [run, List.length_nil] at length
      omega
  | cons digit others =>
      have small : digit < 10 := Decimal.lt_ten_of_mem_fixed (by rw [run]; simp)
      exact ⟨digit, others.map digitChar, small, by rw [fixedText, run, List.map_cons]⟩

private theorem trimStart_fixedText {width : Nat} (wide : 0 < width) (value : Nat)
    (rest : List Char) :
    Text.trimStart (fixedText width value ++ rest) = fixedText width value ++ rest := by
  obtain ⟨digit, others, small, equation⟩ := fixedText_eq_cons wide value
  rw [equation, List.cons_append]
  exact Text.trimStart_cons_of_not_blank _ (digitChar_visible small).1

/-- The hours, minutes and seconds of a time of day, with what follows them. -/
def TimeOfDay.clockText (time : TimeOfDay) (behind : List Char) : List Char :=
  fixedText 2 time.hour ++ ':' :: (fixedText 2 time.minute ++
    ':' :: (fixedText 2 time.second ++ behind))

namespace Timestamp

/-! ## Fields -/

private theorem fieldWithin_fixedText {first last value : Nat}
    (within : first ≤ value ∧ value ≤ last) (small : value < 100) (rest : List Char) :
    fieldWithin first last (fixedText 2 value ++ rest) = .ok (value, rest) := by
  have read : number 2 (fixedText 2 value ++ rest) = .ok (value, rest) :=
    number_fixedText (by omega) (by omega) (by simpa [tenTo] using small)
      (by simp only [signedLimit64]; omega) (Or.inl rfl)
  rw [fieldWithin, trimStart_fixedText (by omega), read]
  simp only [bind, Except.bind, within, and_self, if_true, pure, Except.pure]

private theorem spaced_cons {character : Char} (visible : Text.isBlank character = false)
    (rest : List Char) :
    spaced character (character :: rest) = .ok ((), rest) := by
  simp [spaced, visible, separator]

private theorem writtenYear_unsigned {value : Nat} (small : value < 10000) (rest : List Char) :
    writtenYear (fixedText 4 value ++ '-' :: rest) = .ok ((value : Int), '-' :: rest) := by
  have read : number 4 (fixedText 4 value ++ '-' :: rest) = .ok (value, '-' :: rest) :=
    number_fixedText (by omega) (by omega) (by simpa [tenTo] using small)
      (by simp only [signedLimit64]; omega) (Or.inl rfl)
  obtain ⟨digit, others, digitSmall, equation⟩ := fixedText_eq_cons (show 0 < 4 by omega) value
  obtain ⟨-, noMinus, noPlus⟩ := digitChar_visible digitSmall
  rw [writtenYear, trimStart_fixedText (by omega)]
  rw [equation, List.cons_append] at read ⊢
  split
  · rename_i minus
    exact absurd (List.cons.inj minus).1 noMinus
  · rename_i plus
    exact absurd (List.cons.inj plus).1 noPlus
  · rw [read]
    rfl

private theorem writtenYear_signed {sign : Char} {value : Nat} (isSign : sign = '-' ∨ sign = '+')
    (small : value < signedLimit64) (rest : List Char) :
    writtenYear (sign :: (Decimal.padded 4 value ++ '-' :: rest)) =
      .ok (if sign = '-' then -(value : Int) else value, '-' :: rest) := by
  have read : number (Decimal.padded 4 value ++ '-' :: rest).length
      (Decimal.padded 4 value ++ '-' :: rest) = .ok (value, '-' :: rest) :=
    number_padded (by simp) small (endsDigits_cons rfl rest)
  rcases isSign with rfl | rfl
  · rw [writtenYear, Text.trimStart_cons_of_not_blank _ rfl]
    simp only [read, bind, Except.bind, if_true]
    rfl
  · rw [writtenYear, Text.trimStart_cons_of_not_blank _ rfl]
    simp only [read, bind, Except.bind]
    rfl

private theorem writtenYear_yearText {year : Int} (small : year.natAbs < signedLimit64)
    (rest : List Char) :
    writtenYear (yearText year ++ '-' :: rest) = .ok (year, '-' :: rest) := by
  unfold yearText
  split
  · rename_i short
    have same : (year.toNat : Int) = year := Int.toNat_of_nonneg short.1
    rw [writtenYear_unsigned (by omega), same]
  · by_cases negative : year < 0
    · have same : -(year.natAbs : Int) = year := by omega
      rw [if_pos negative, List.cons_append, writtenYear_signed (Or.inl rfl) small,
        if_pos rfl, same]
    · have same : (year.natAbs : Int) = year := by omega
      rw [if_neg negative, List.cons_append, writtenYear_signed (Or.inr rfl) small,
        if_neg (by decide), same]

/-- A written year of the calendar is read back. -/
theorem relaxedYear_yearText {year : Int} (first : firstYear ≤ year) (last : year ≤ lastYear)
    (rest : List Char) :
    relaxedYear (yearText year ++ '-' :: rest) = .ok (year, '-' :: rest) := by
  have lowest : firstYear = -262143 := rfl
  have highest : lastYear = 262142 := rfl
  have word : signedLimit64 = 9223372036854775808 := rfl
  have half : (Decimal.signedLimit32 : Int) = 2147483648 := rfl
  have within : -(Decimal.signedLimit32 : Int) ≤ year ∧ year < Decimal.signedLimit32 := by omega
  rw [relaxedYear, writtenYear_yearText (by omega)]
  exact if_pos within

/-! ## Fractions -/

private theorem nanoseconds_fixedText {width value : Nat} {rest : List Char} (wide : 0 < width)
    (room : width ≤ 9) (fits : value < tenTo width) (small : value < 1000000000)
    (ends : EndsDigits rest) :
    nanoseconds (fixedText width value ++ rest) = .ok (value * tenTo (9 - width), rest) := by
  have read : number 9 (fixedText width value ++ rest) = .ok (value, rest) :=
    number_fixedText wide room fits (by simp only [signedLimit64]; omega) (Or.inr ends)
  have places : (fixedText width value ++ rest).length - rest.length = width := by
    simp [fixedText]
  have kept : rest.dropWhile (fun character => (digitOf? character).isSome) = rest := by
    cases rest with
    | nil => rfl
    | cons character rest => simp [List.dropWhile, ends character rfl]
  rw [nanoseconds, read]
  simp only [bind, Except.bind, places, kept]
  rfl

private theorem secondFraction_of_not_point {rest : List Char} (noPoint : rest.head? ≠ some '.') :
    secondFraction rest = .ok (0, rest) := by
  unfold secondFraction
  split
  · exact absurd rfl noPoint
  · rfl

/-- A written fraction is read back, whatever its length. -/
theorem secondFraction_fractionText {nano : Nat} {rest : List Char} (small : nano < 1000000000)
    (ends : EndsDigits rest) (noPoint : rest.head? ≠ some '.') :
    secondFraction (fractionText nano ++ rest) = .ok (nano, rest) := by
  unfold fractionText
  split
  · rename_i zero
    rw [zero]
    exact secondFraction_of_not_point noPoint
  split
  · rename_i millis
    have whole : nano / 1000000 * tenTo (9 - 3) = nano := by
      simp only [tenTo, Nat.reduceSub]
      omega
    rw [List.cons_append, secondFraction, nanoseconds_fixedText (by omega) (by omega)
      (by simp only [tenTo]; omega) (by omega) ends, whole]
  split
  · rename_i micros
    have whole : nano / 1000 * tenTo (9 - 6) = nano := by
      simp only [tenTo, Nat.reduceSub]
      omega
    rw [List.cons_append, secondFraction, nanoseconds_fixedText (by omega) (by omega)
      (by simp only [tenTo]; omega) (by omega) ends, whole]
  · have whole : nano * tenTo (9 - 9) = nano := by simp [tenTo]
    rw [List.cons_append, secondFraction, nanoseconds_fixedText (by omega) (by omega)
      (by simp only [tenTo]; omega) small ends, whole]

/-! ## Offsets -/

/-- Two digits that are written are read as themselves. -/
theorem twoDigits_fixedText {value : Nat} (small : value < 100) (rest : List Char) :
    twoDigits (fixedText 2 value ++ rest) = .ok ((value / 10, value % 10), rest) := by
  have high := Decimal.digitOf?_digitChar (show value / 10 % 10 < 10 by omega)
  have low := Decimal.digitOf?_digitChar (show value % 10 < 10 by omega)
  have same : value / 10 % 10 = value / 10 := by omega
  rw [same] at high
  simp [fixedText, fixed, twoDigits, same, high, low]

theorem loose_colon_fixedText (value : Nat) (rest : List Char) :
    loose (':' :: (fixedText 2 value ++ rest)) = .ok ((), fixedText 2 value ++ rest) := by
  obtain ⟨digit, others, small, equation⟩ := fixedText_eq_cons (show 0 < 2 by omega) value
  have visible := (digitChar_visible small).1
  have noColon : (digitChar digit == ':') = false := by
    have each : ∀ digit : Fin 10, (digitChar digit == ':') = false := by decide
    exact each ⟨digit, small⟩
  rw [equation]
  simp [loose, List.dropWhile, visible, noColon]

/-- The sign of a written offset. -/
def signOf (offset : Offset) : Char :=
  if offset.minutes < 0 then '-' else '+'

theorem signOf_eq (offset : Offset) : signOf offset = '-' ∨ signOf offset = '+' := by
  unfold signOf
  split
  · exact Or.inl rfl
  · exact Or.inr rfl

private theorem sign_signOf (offset : Offset) (rest : List Char) :
    sign (signOf offset :: rest) = .ok (decide (offset.minutes < 0), rest) := by
  unfold signOf
  split
  · rename_i west
    simp only [west, decide_true]
    rfl
  · rename_i east
    simp only [east, decide_false]
    rfl

theorem text_eq_cons (offset : Offset) :
    offset.text = signOf offset :: (fixedText 2 (offset.minutes.natAbs / 60) ++
      ':' :: fixedText 2 (offset.minutes.natAbs % 60)) := rfl

/-- A written offset is read back, if what stands between its hours and minutes
takes the colon and no more. -/
theorem signedMinutes_text {between : Scanner Unit} (offset : Offset)
    (takesColon : ∀ value, between (':' :: fixedText 2 value) = .ok ((), fixedText 2 value)) :
    signedMinutes between offset.text = .ok (offset.minutes, []) := by
  obtain ⟨early, late⟩ := offset.lessThanADay
  have hours := twoDigits_fixedText (show offset.minutes.natAbs / 60 < 100 by omega)
    (':' :: fixedText 2 (offset.minutes.natAbs % 60))
  have minutes := twoDigits_fixedText (show offset.minutes.natAbs % 60 < 100 by omega) []
  have inHour : ¬ 6 ≤ (offset.minutes.natAbs % 60) / 10 := by omega
  rw [List.append_nil] at minutes
  rw [signedMinutes, text_eq_cons, sign_signOf]
  simp only [bind, Except.bind, hours, takesColon, minutes, inHour, if_false, pure, Except.pure,
    decide_eq_true_eq]
  congr 2
  split <;> omega

theorem offsetMinutes_text {between : Scanner Unit} (offset : Offset)
    (takesColon : ∀ value, between (':' :: fixedText 2 value) = .ok ((), fixedText 2 value)) :
    offsetMinutes between offset.text = .ok (offset.minutes, []) := by
  have signed := signedMinutes_text offset takesColon
  rw [text_eq_cons] at signed ⊢
  rcases signOf_eq offset with west | east
  · rw [west] at signed ⊢
    exact signed
  · rw [east] at signed ⊢
    exact signed

/-- A written offset is no name of a zone. -/
theorem isUtcName_take_text (offset : Offset) : isUtcName (offset.text.take 3) = false := by
  obtain ⟨digit, others, -, equation⟩ :=
    fixedText_eq_cons (show 0 < 2 by omega) (offset.minutes.natAbs / 60)
  rw [text_eq_cons, equation]
  rcases signOf_eq offset with west | east
  · rw [west]
    cases others <;> rfl
  · rw [east]
    cases others <;> rfl

private theorem relaxedOffset_text (offset : Offset) :
    relaxedOffset offset.text = .ok (offset.minutes, []) := by
  have minutes : offsetMinutes loose offset.text = .ok (offset.minutes, []) :=
    offsetMinutes_text offset fun value => by simpa using loose_colon_fixedText value []
  have kept : Text.trimStart offset.text = offset.text := by
    rw [text_eq_cons]
    rcases signOf_eq offset with west | east
    · exact Text.trimStart_cons_of_not_blank _ (by rw [west]; rfl)
    · exact Text.trimStart_cons_of_not_blank _ (by rw [east]; rfl)
  rw [relaxedOffset, kept, isUtcName_take_text]
  exact minutes

/-! ## The whole form -/

/-- What follows the time of day: one of the two spellings of the offset zero,
or an offset. -/
def zoneText (zero : List Char) (offset : Offset) : List Char :=
  if offset.minutes = 0 then zero else offset.text

/-- The two spellings of the offset zero. -/
def IsZero (zero : List Char) : Prop :=
  zero = ['Z'] ∨ zero = ['+', '0', '0', ':', '0', '0']

theorem zoneText_eq {zero : List Char} (spelling : IsZero zero) (offset : Offset) :
    (zoneText zero offset = ['Z'] ∧ offset.minutes = 0) ∨ zoneText zero offset = offset.text := by
  unfold zoneText
  split
  · rename_i none
    rcases spelling with rfl | rfl
    · exact Or.inl ⟨rfl, none⟩
    · right
      rw [Offset.text, none]
      rfl
  · exact Or.inr rfl

private theorem relaxedOffset_zoneText {zero : List Char} (spelling : IsZero zero)
    (offset : Offset) :
    relaxedOffset (zoneText zero offset) = .ok (offset.minutes, []) := by
  rcases zoneText_eq spelling offset with ⟨letter, none⟩ | signed
  · rw [letter, none]
    rfl
  · rw [signed]
    exact relaxedOffset_text offset

/-- No fraction goes on with what follows it. -/
theorem zoneText_ends {zero : List Char} (spelling : IsZero zero) (offset : Offset) :
    EndsDigits (zoneText zero offset) ∧ (zoneText zero offset).head? ≠ some '.' := by
  rcases zoneText_eq spelling offset with ⟨letter, -⟩ | signed
  · rw [letter]
    exact ⟨endsDigits_cons rfl [], by decide⟩
  · rw [signed, text_eq_cons]
    rcases signOf_eq offset with west | east
    · exact ⟨endsDigits_cons (by rw [west]; rfl) _, by simp [west]⟩
    · exact ⟨endsDigits_cons (by rw [east]; rfl) _, by simp [east]⟩

/-- A date and a time of day are read back, whatever ends the date and however the fraction
and the offset are spelled. -/
theorem ofRelaxed?_of_spelled {timestamp : Timestamp} {dateEnd : Char} {fraction zone : List Char}
    (endsDate : isDateEnd dateEnd = true)
    (isFraction : secondFraction fraction = .ok (timestamp.time.nano, zone))
    (isZone : relaxedOffset zone = .ok (timestamp.offset.minutes, [])) :
    ofRelaxed? (timestamp.date.text ++ dateEnd :: timestamp.time.clockText fraction) =
      .ok timestamp := by
  obtain ⟨date, time, offset, nameable⟩ := timestamp
  obtain ⟨⟨firstMonth, lastMonth⟩, firstDay, lastDay⟩ := date.fields_within
  obtain ⟨hours, minutes, seconds, -⟩ := time.valid
  dsimp only at isFraction isZone ⊢
  have year := relaxedYear_yearText date.civil.1 date.civil.2.1
  have month := fieldWithin_fixedText ⟨firstMonth, lastMonth⟩ (by omega)
  have day := fieldWithin_fixedText ⟨firstDay, lastDay⟩ (by omega)
  have hour := fieldWithin_fixedText (show 0 ≤ time.hour ∧ time.hour ≤ 23 by omega) (by omega)
  have minute :=
    fieldWithin_fixedText (show 0 ≤ time.minute ∧ time.minute ≤ 59 by omega) (by omega)
  have second :=
    fieldWithin_fixedText (show 0 ≤ time.second ∧ time.second ≤ 60 by omega) (by omega)
  have dash := spaced_cons (show Text.isBlank '-' = false from rfl)
  have colon := spaced_cons (show Text.isBlank ':' = false from rfl)
  have letter : ∀ rest, separator isDateEnd (dateEnd :: rest) = .ok ((), rest) :=
    fun _ => if_pos endsDate
  have whole : ofLocal? date time offset = some ⟨date, time, offset, nameable⟩ :=
    ofLocal?_self ⟨date, time, offset, nameable⟩
  simp only [Date.text, TimeOfDay.clockText, List.append_assoc, List.cons_append]
  simp only [ofRelaxed?, year, month, day, hour, minute, second, isFraction, dash, colon, letter,
    isZone, bind, Except.bind, Text.trimStart_nil, List.isEmpty_nil,
    Bool.not_true, Bool.false_eq_true, if_false, Date.ofCivil?_self, TimeOfDay.ofFields?_self,
    Offset.ofMinutes?_self, orFault, whole]

theorem write_eq_clockText (zero : List Char) (timestamp : Timestamp) :
    timestamp.write zero = timestamp.date.text ++ 'T' :: timestamp.time.clockText
      (fractionText timestamp.time.nano ++ zoneText zero timestamp.offset) := by
  simp only [write, TimeOfDay.text, TimeOfDay.clockText, zoneText, List.append_assoc,
    List.cons_append]

/-- A written timestamp is read back with its local reading and its offset. -/
theorem ofRelaxed?_write {zero : List Char} (spelling : IsZero zero) (timestamp : Timestamp) :
    ofRelaxed? (timestamp.write zero) = .ok timestamp := by
  obtain ⟨-, -, -, nanos⟩ := timestamp.time.valid
  obtain ⟨ends, noPoint⟩ := zoneText_ends spelling timestamp.offset
  rw [write_eq_clockText]
  exact ofRelaxed?_of_spelled rfl (secondFraction_fractionText nanos ends noPoint)
    (relaxedOffset_zoneText spelling timestamp.offset)

/-- What is stored is read back. -/
theorem ofRelaxed?_stored (timestamp : Timestamp) :
    ofRelaxed? timestamp.stored.toList = .ok timestamp := by
  rw [stored, String.toList_ofList]
  exact ofRelaxed?_write (Or.inl rfl) timestamp

end Timestamp

end RoomLedger.Time
