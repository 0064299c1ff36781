import RoomLedger.Proofs.Record.Values
import RoomLedger.Proofs.Text.Trimming
import RoomLedger.Proofs.Time.Strictness

/-!
Contract: a timestamp that was entered is read as the same one where it is stored, and is
entered again by what is written of it.

Owns:
- `isStrictForm_write`, by which a timestamp of a year of four digits is written in the
  strict form;
- `letters`, the characters of written timestamps, none of which is white space or is
  escaped in a string;
- `parse?_between`, by which white space around a text makes no difference;
- `entered_timestamps_are_read_as_stored`, for every text that is read as a timestamp.

A text that was entered names a year of four digits, also where the UTC date is in another
year, so what is written of it never has a sign in front.

Does not own: texts that are read in stored records only.
-/

namespace RoomLedger.Time.Timestamp

open RoomLedger.Decimal (digitChar)
open RoomLedger.Json
open RoomLedger.Record (FieldType)
open Scan

/-! ## What is written -/

/-- In the years of four digits, what is written is of the strict form. -/
theorem isStrictForm_write {zero : List Char} {timestamp : Timestamp} (spelling : IsZero zero)
    (year : 0 ≤ timestamp.date.year ∧ timestamp.date.year ≤ 9999) :
    IsStrictForm (timestamp.write zero) timestamp := by
  obtain ⟨ends, noPoint⟩ := zoneText_ends spelling timestamp.offset
  obtain ⟨-, -, -, nanos⟩ := timestamp.time.valid
  refine ⟨year, 'T', fractionText timestamp.time.nano ++ zoneText zero timestamp.offset,
    zoneText zero timestamp.offset, rfl, ?shape, secondFraction_fractionText nanos ends noPoint,
    ?zone⟩
  case shape =>
    exact write_eq_clockText zero timestamp
  case zone =>
    rcases zoneText_eq spelling timestamp.offset with ⟨letter, none⟩ | signed
    · rw [letter, none]
      rfl
    · rw [signed]
      exact offsetMinutes_text timestamp.offset fun _ => rfl

/-- The characters of written timestamps. -/
def letters : List Char :=
  ['0', '1', '2', '3', '4', '5', '6', '7', '8', '9', '+', '-', '.', ':', 'T', 'Z']

private theorem map_digitChar_subset {run : List Nat} (small : ∀ digit ∈ run, digit < 10) :
    run.map digitChar ⊆ letters := by
  have each : ∀ digit : Fin 10, digitChar digit ∈ letters := by decide
  intro character member
  obtain ⟨digit, isDigit, rfl⟩ := List.mem_map.mp member
  exact each ⟨digit, small digit isDigit⟩

private theorem fixedText_subset (width number : Nat) : fixedText width number ⊆ letters :=
  map_digitChar_subset fun _ member => Decimal.lt_ten_of_mem_fixed member

private theorem yearText_subset (year : Int) : yearText year ⊆ letters := by
  unfold yearText
  split
  · exact fixedText_subset 4 _
  · apply List.cons_subset.mpr
    constructor
    · split <;> decide
    · apply map_digitChar_subset
      intro digit member
      rcases List.mem_append.mp member with zero | member
      · have := (List.mem_replicate.mp zero).2
        omega
      · exact Decimal.lt_ten_of_mem_digits member

private theorem fractionText_subset (nano : Nat) : fractionText nano ⊆ letters := by
  have point : ∀ width number, '.' :: fixedText width number ⊆ letters :=
    fun width number => List.cons_subset.mpr ⟨by decide, fixedText_subset width number⟩
  unfold fractionText
  split
  · exact List.nil_subset _
  split
  · exact point 3 _
  split
  · exact point 6 _
  · exact point 9 _

private theorem zoneText_subset {zero : List Char} (spelling : IsZero zero) (offset : Offset) :
    zoneText zero offset ⊆ letters := by
  rcases zoneText_eq spelling offset with ⟨letter, -⟩ | signed
  · rw [letter]
    decide
  · rw [signed, text_eq_cons]
    have isSign : signOf offset ∈ letters := by
      rcases signOf_eq offset with west | east
      · rw [west]
        decide
      · rw [east]
        decide
    have colon : ':' ∈ letters := by decide
    simp only [List.cons_subset, List.append_subset, isSign, colon, fixedText_subset, and_self]

private theorem write_subset {zero : List Char} (spelling : IsZero zero) (timestamp : Timestamp) :
    timestamp.write zero ⊆ letters := by
  have zone := zoneText_subset spelling timestamp.offset
  have dash : '-' ∈ letters := by decide
  have colon : ':' ∈ letters := by decide
  have letter : 'T' ∈ letters := by decide
  rw [zoneText] at zone
  simp only [write, Date.text, TimeOfDay.text, List.cons_subset, List.append_subset, dash, colon,
    letter, fixedText_subset, yearText_subset, fractionText_subset, zone, and_self]

/-! ## White space -/

/-- White space around a text makes no difference. -/
theorem parse?_between {before after : String} (isSpaceBefore : Text.blank before = true)
    (isSpaceAfter : Text.blank after = true) (text : String) :
    parse? (before ++ text ++ after) = parse? text := by
  rw [parse?, parse?, String.toList_append, String.toList_append,
    Text.trim_between (List.all_eq_true.mp isSpaceBefore) (List.all_eq_true.mp isSpaceAfter)]

/-- What is written of a timestamp of a year of four digits is read as that timestamp. -/
theorem parse?_write {zero : List Char} {timestamp : Timestamp} (spelling : IsZero zero)
    (year : 0 ≤ timestamp.date.year ∧ timestamp.date.year ≤ 9999) :
    parse? (String.ofList (timestamp.write zero)) = .ok timestamp := by
  have each : letters.all (fun letter => decide (Text.isBlank letter = false)) = true := by decide
  have visible : ∀ character ∈ timestamp.write zero, Text.isBlank character = false :=
    fun character member => of_decide_eq_true
      (List.all_eq_true.mp each character (write_subset spelling timestamp member))
  rw [parse?, String.toList_ofList, Text.trim_of_visible visible]
  exact ofStrict?_eq_ok_iff.mpr (isStrictForm_write spelling year)

/-- A stored timestamp is its text between quotes. -/
theorem write_timestamp_eq (timestamp : Timestamp) :
    FieldType.timestamp.write timestamp =
      0x22 :: (Text.bytes timestamp.stored ++ [0x22]) := by
  have each : letters.all (fun letter =>
      decide (0x20 ≤ letter.toNat ∧ letter.toNat ≠ 0x22 ∧ letter.toNat ≠ 0x5C)) = true := by
    decide
  apply Json.writeString_of_plain
  intro character member
  rw [stored, String.toList_ofList] at member
  exact of_decide_eq_true
    (List.all_eq_true.mp each character (write_subset (.inl rfl) timestamp member))

/-! ## Entered and stored timestamps -/

/-- A text that was entered as a timestamp, without the white space around it, is read as the
same timestamp in JSON, with the same reading of the clock, fraction and offset: as a field,
and as a text of its own in any layout and with any escapes. Both forms in which this timestamp is
written are entered as the same one again, the stored one without its quotes. And white
space around any text makes no difference. -/
theorem entered_timestamps_are_read_as_stored :
    (∀ (text : String) (timestamp : Timestamp),
      parse? text = .ok timestamp →
      let trimmed := String.ofList (Text.trim text.toList)
      (∀ rest, FieldType.timestamp.read (.text (some trimmed) :: rest) = .ok (timestamp, rest)) ∧
      (∀ document, LaysOut [.text (some trimmed)] document →
        Json.read readTimestamp document = .ok timestamp) ∧
      parse? timestamp.rfc3339 = .ok timestamp ∧
      FieldType.timestamp.write timestamp =
        0x22 :: (Text.bytes timestamp.stored ++ [0x22]) ∧
      parse? timestamp.stored = .ok timestamp) ∧
    ∀ before text after : String,
      Text.blank before = true →
      Text.blank after = true →
      parse? (before ++ text ++ after) = parse? text := by
  constructor
  · intro text timestamp isRead trimmed
    have isStrict : IsStrictForm (Text.trim text.toList) timestamp :=
      ofStrict?_eq_ok_iff.mp isRead
    have asField : ∀ rest,
        FieldType.timestamp.read (.text (some trimmed) :: rest) = .ok (timestamp, rest) := by
      intro rest
      have content : ofRelaxed? trimmed.toList = .ok timestamp := by
        rw [String.toList_ofList]
        exact isStrict.ofRelaxed?
      simp only [FieldType.read, readTimestamp, Json.readTextAs, content]
    refine ⟨asField, ?document, ?printed, write_timestamp_eq timestamp, ?stored⟩
    case document =>
      intro document laysOut
      have tokens := Json.lex_of_laysOut laysOut (.singleton _)
      have field := asField []
      simp only [FieldType.read] at field
      simp only [Json.read, tokens, field]
    case printed => exact parse?_write (.inr rfl) isStrict.year
    case stored => exact parse?_write (.inl rfl) isStrict.year
  · intro before text after isSpaceBefore isSpaceAfter
    exact parse?_between isSpaceBefore isSpaceAfter text

/-- A leap second at the end of the year zero, whose date in UTC is in the year after. -/
def endOfYearZero : Timestamp where
  date := ⟨0, 12, 31, by decide⟩
  time := ⟨23, 59, 60, 999999999, by decide⟩
  offset := ⟨-1439, by decide⟩
  nameable := by decide

/-- A text of it with a tenth digit of the fraction and a minus sign that is no hyphen. -/
def endOfYearZeroText : String :=
  "0000-12-31t23:59:60.9999999994\u221223:59"

/-- That text in JSON, with the minus sign by its number. -/
def endOfYearZeroDocument : Text.Bytes :=
  Text.bytes "\t\"0000-12-31t23:59:60.9999999994\\u221223:59\"\n"

private theorem laysOut_endOfYearZeroDocument :
    LaysOut [.text (some endOfYearZeroText)] endOfYearZeroDocument := by
  have written : ∀ characters : List Char, List.Forall₂ CharacterIsSpelled characters
      (characters.map fun character => (String.utf8EncodeChar character).flatMap escapeByte) :=
    fun characters => List.forall₂_map_right_iff.mpr
      (List.forall₂_same.mpr fun character _ => characterIsSpelled_flatMap_escapeByte character)
  have minus : CharacterIsSpelled '\u2212' (Text.bytes "\\u2212") := .unit (by decide)
  have spelled : Token.IsSpelled (.text (some endOfYearZeroText)) _ :=
    Token.isSpelled_text (List.rel_append (written "0000-12-31t23:59:60.9999999994".toList)
      (.cons minus (written "23:59".toList)))
  have document : LaysOut [.text (some endOfYearZeroText)] (0x09 :: (_ ++ [0x0A])) :=
    .space (by decide) (.token spelled (.space (by decide) .nil))
  refine (congrArg (LaysOut [.text (some endOfYearZeroText)]) ?spelling).mp document
  case spelling => decide +kernel

/-- The text between white space and the document are read as this timestamp, and so is what
is written of it. -/
theorem entered_timestamps_are_read_as_stored_past_year_zero :
    let entered := "\u00a0 " ++ endOfYearZeroText ++ "\u3000"
    parse? entered = .ok endOfYearZero ∧
    Json.read readTimestamp endOfYearZeroDocument = .ok endOfYearZero ∧
    parse? endOfYearZero.rfc3339 = .ok endOfYearZero ∧
    parse? endOfYearZero.stored = .ok endOfYearZero ∧
    parse? ("\n" ++ entered ++ "\u2003") = .ok endOfYearZero := by
  intro entered
  have isRead : parse? entered = .ok endOfYearZero := by decide +kernel
  have trimmed : String.ofList (Text.trim entered.toList) = endOfYearZeroText := by
    decide +kernel
  obtain ⟨readAgain, spaced⟩ := entered_timestamps_are_read_as_stored
  obtain ⟨-, document, printed, -, stored⟩ := readAgain entered endOfYearZero isRead
  rw [trimmed] at document
  refine ⟨isRead, document _ laysOut_endOfYearZeroDocument, printed, stored, ?_⟩
  rw [spaced "\n" entered "\u2003" (by decide) (by decide), isRead]

end RoomLedger.Time.Timestamp
