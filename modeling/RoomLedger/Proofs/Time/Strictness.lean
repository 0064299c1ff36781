import Mathlib.Data.List.Induction
import RoomLedger.Proofs.Time.Reading
import RoomLedger.Time.Strict

/-!
Contract: the texts that the strict reader takes.

Owns:
- `Scan.exactly_eq_ok_iff`, by which a number of fixed width is read from the one text that
  is written for it;
- `Scan.bind_eq_ok_iff`, by which a reader that succeeds is taken apart into its pieces;
- `Timestamp.IsStrictForm`, the texts of the strict form and what they spell, and
  `Timestamp.ofStrict?_eq_ok_iff`, by which the strict reader takes exactly these;
- `Timestamp.relaxedOffset_of_offsetMinutes` and `Timestamp.IsStrictForm.ofRelaxed?`, by which
  the relaxed reader takes them too.

Both readers share the fraction, so its digits are not looked at. Of the offset the relaxed
reader takes more spellings, and the letter or sign at its front keeps it apart from the name
of the zone.

Does not own: white space around the form.
-/

namespace RoomLedger

/-- No character has fewer bytes than one. -/
theorem Text.length_le_utf8ByteSize (characters : List Char) :
    characters.length ≤ (String.ofList characters).utf8ByteSize := by
  induction characters with
  | nil => exact Nat.zero_le _
  | cons character rest inductionHypothesis =>
      have some : 0 < character.utf8Size := character.utf8Size_pos
      rw [String.ofList_cons, String.utf8ByteSize_append, String.utf8ByteSize_singleton,
        List.length_cons]
      omega

/-! ## Digits -/

namespace Decimal

/-- A character that is read as a digit is the one as which this digit is written. -/
theorem eq_digitChar_of_digitOf? {character : Char} {digit : Nat}
    (found : digitOf? character = some digit) :
    digit < 10 ∧ character = digitChar digit := by
  unfold digitOf? at found
  split at found
  · rename_i within
    cases found
    have same : 48 + (character.toNat - 48) = character.toNat := by omega
    exact ⟨by omega, by rw [digitChar, same, Char.ofNat_toNat]⟩
  · cases found

/-- Digits are those of their number in so many places. -/
theorem fixed_value {run : List Nat} (small : ∀ digit ∈ run, digit < 10) :
    fixed run.length (value run) = run ∧ value run < tenTo run.length := by
  induction run using List.reverseRecOn with
  | nil => exact ⟨rfl, by decide⟩
  | append_singleton others last inductionHypothesis =>
      obtain ⟨same, bound⟩ :=
        inductionHypothesis fun digit member => small digit (List.mem_append_left [last] member)
      have lastSmall : last < 10 := small last (by simp)
      have front : (10 * value others + last) / 10 = value others := by omega
      have behind : (10 * value others + last) % 10 = last := by omega
      rw [value_append_singleton, List.length_append, List.length_singleton, fixed, tenTo, front,
        behind, same]
      exact ⟨rfl, by omega⟩

end Decimal

namespace Time

open RoomLedger.Decimal (digitChar digitOf? tenTo)

namespace Scan

private theorem digitsAfter_eq_ok_iff {count start number : Nat} {characters rest : List Char} :
    digitsAfter count start characters = .ok (number, rest) ↔
      ∃ run : List Nat, run.length = count ∧ (∀ digit ∈ run, digit < 10) ∧
        characters = run.map digitChar ++ rest ∧ number = Decimal.valueFrom start run := by
  induction count generalizing start characters with
  | zero =>
      constructor
      · intro read
        cases read
        exact ⟨[], rfl, nofun, rfl, rfl⟩
      · rintro ⟨run, length, -, rfl, rfl⟩
        rw [List.length_eq_zero_iff.mp length]
        rfl
  | succ count inductionHypothesis =>
      constructor
      · intro read
        cases characters with
        | nil => cases read
        | cons character others =>
            rw [digitsAfter] at read
            cases found : digitOf? character with
            | none =>
                rw [found] at read
                cases read
            | some digit =>
                rw [found] at read
                obtain ⟨small, rfl⟩ := Decimal.eq_digitChar_of_digitOf? found
                obtain ⟨run, length, smallRun, rfl, rfl⟩ := inductionHypothesis.mp read
                refine ⟨digit :: run, by rw [List.length_cons, length], ?_, rfl, rfl⟩
                exact List.forall_mem_cons.mpr ⟨small, smallRun⟩
      · rintro ⟨run, length, small, rfl, rfl⟩
        cases run with
        | nil => cases length
        | cons digit run =>
            obtain ⟨digitSmall, smallRun⟩ := List.forall_mem_cons.mp small
            rw [List.map_cons, List.cons_append, digitsAfter, Decimal.digitOf?_digitChar digitSmall]
            exact inductionHypothesis.mpr ⟨run, Nat.succ.inj length, smallRun, rfl, rfl⟩

/-- Exactly the written form of a number in so many places is read as that number. -/
theorem exactly_eq_ok_iff {count number : Nat} {characters rest : List Char} :
    exactly count characters = .ok (number, rest) ↔
      number < tenTo count ∧ characters = fixedText count number ++ rest := by
  rw [exactly, digitsAfter_eq_ok_iff]
  constructor
  · rintro ⟨run, rfl, small, rfl, rfl⟩
    obtain ⟨same, bound⟩ := Decimal.fixed_value small
    exact ⟨bound, by rw [fixedText, ← Decimal.value, same]⟩
  · rintro ⟨bound, rfl⟩
    refine ⟨Decimal.fixed count number, Decimal.length_fixed count number,
      fun digit member => Decimal.lt_ten_of_mem_fixed member, rfl, ?_⟩
    exact (Decimal.value_fixed bound).symm

private theorem separator_eq_ok_iff {isSeparator : Char → Bool} {characters rest : List Char}
    {passed : Unit} :
    separator isSeparator characters = .ok (passed, rest) ↔
      ∃ character, isSeparator character = true ∧ characters = character :: rest := by
  cases characters with
  | nil => simp [separator]
  | cons character others =>
      rw [separator]
      split
      · rename_i passes
        constructor
        · intro read
          cases read
          exact ⟨character, passes, rfl⟩
        · rintro ⟨other, -, same⟩
          cases same
          rfl
      · rename_i stops
        constructor
        · intro read
          cases read
        · rintro ⟨other, passes, same⟩
          cases same
          exact absurd passes stops

private theorem orFault_eq_ok_iff {α : Type} {fault : TimestampFault} {found : Option α}
    {value : α} :
    orFault fault found = .ok value ↔ found = some value := by
  cases found with
  | none => simp [orFault]
  | some other => simp [orFault]

/-- Two steps succeed one after another exactly if the first one does and the second one
does with what it returns. -/
theorem bind_eq_ok_iff {α β : Type} {first : Except TimestampFault α}
    {next : α → Except TimestampFault β} {result : β} :
    first >>= next = .ok result ↔ ∃ value, first = .ok value ∧ next value = .ok result := by
  cases first with
  | error fault =>
      constructor
      · intro read
        cases read
      · rintro ⟨value, impossible, -⟩
        cases impossible
  | ok value =>
      constructor
      · intro read
        exact ⟨value, rfl, read⟩
      · rintro ⟨other, same, read⟩
        cases same
        exact read

end Scan

/-! ## The strict form -/

private theorem length_fixedText (width number : Nat) :
    (fixedText width number).length = width := by
  rw [fixedText, List.length_map, Decimal.length_fixed]

private theorem yearText_natCast {year : Nat} (small : year < 10000) :
    yearText (year : Int) = fixedText 4 year := by
  have short : 0 ≤ (year : Int) ∧ (year : Int) ≤ 9999 := by omega
  rw [yearText, if_pos short, Int.toNat_natCast]

private theorem TimeOfDay.fields_of_ofFields? {hour minute second nano : Nat} {time : TimeOfDay}
    (found : TimeOfDay.ofFields? hour minute second nano = some time) :
    time.hour = hour ∧ time.minute = minute ∧ time.second = second ∧ time.nano = nano := by
  unfold TimeOfDay.ofFields? at found
  split at found
  · cases found
    exact ⟨rfl, rfl, rfl, rfl⟩
  · cases found

private theorem Offset.minutes_of_ofMinutes? {minutes : Int} {offset : Offset}
    (found : Offset.ofMinutes? minutes = some offset) :
    offset.minutes = minutes := by
  unfold Offset.ofMinutes? at found
  split at found
  · cases found
    rfl
  · cases found

namespace Timestamp

open Scan

private theorem fields_of_ofLocal? {date : Date} {time : TimeOfDay} {offset : Offset}
    {timestamp : Timestamp} (found : ofLocal? date time offset = some timestamp) :
    timestamp.date = date ∧ timestamp.time = time ∧ timestamp.offset = offset := by
  unfold ofLocal? at found
  split at found
  · cases found
    exact ⟨rfl, rfl, rfl⟩
  · cases found

/-! ## Offsets -/

private theorem twoDigits_eq_ok {high low : Nat} {characters rest : List Char}
    (read : twoDigits characters = .ok ((high, low), rest)) :
    characters = fixedText 2 (10 * high + low) ++ rest := by
  unfold twoDigits at read
  split at read
  · cases read
  · split at read <;> cases read
  · split at read
    · rename_i isHigh isLow
      cases read
      obtain ⟨highSmall, rfl⟩ := Decimal.eq_digitChar_of_digitOf? isHigh
      obtain ⟨lowSmall, rfl⟩ := Decimal.eq_digitChar_of_digitOf? isLow
      have front : (10 * high + low) / 10 % 10 = high := by omega
      have behind : (10 * high + low) % 10 = low := by omega
      simp [fixedText, Decimal.fixed, front, behind]
    · cases read

private theorem sign_eq_ok {west : Bool} {characters rest : List Char}
    (read : sign characters = .ok (west, rest)) :
    ∃ mark ∈ ['+', '-', '\u2212'], characters = mark :: rest := by
  unfold sign at read
  split at read
  · cases read
  · cases read
    exact ⟨'+', by decide, rfl⟩
  · cases read
    exact ⟨'-', by decide, rfl⟩
  · cases read
    exact ⟨'\u2212', by decide, rfl⟩
  · cases read

/-- An offset whose parts are set apart by one colon is taken by the reader that lets them
be set apart in other ways, too. -/
theorem signedMinutes_loose {minutes : Int} {characters rest : List Char}
    (read : signedMinutes (separator (· == ':')) characters = .ok (minutes, rest)) :
    signedMinutes loose characters = .ok (minutes, rest) ∧
      ∃ mark ∈ ['+', '-', '\u2212'], ∃ others, characters = mark :: others := by
  simp only [signedMinutes, bind_eq_ok_iff, Prod.exists, separator_eq_ok_iff, beq_iff_eq,
    exists_eq_left, exists_const] at read ⊢
  obtain ⟨west, behindSign, isSign, hourHigh, hourLow, behindHours, isHour, behindColon, rfl,
    minuteHigh, minuteLow, left, isMinute, total⟩ := read
  obtain ⟨mark, isMark, rfl⟩ := sign_eq_ok isSign
  refine ⟨⟨west, behindSign, isSign, hourHigh, hourLow, _, isHour, (), behindColon, ?_,
    minuteHigh, minuteLow, left, isMinute, total⟩, mark, isMark, behindSign, rfl⟩
  rw [twoDigits_eq_ok isMinute]
  exact loose_colon_fixedText _ _

private theorem isUtcName_take_cons {first : Char} (otherName : (first.toLower == 'u') = false)
    (others : List Char) :
    isUtcName ((first :: others).take 3) = false := by
  rw [List.take_succ_cons]
  unfold isUtcName
  split
  · rename_i same
    rw [← (List.cons.inj same).1, otherName]
    rfl
  · rfl

/-- An offset of the strict form is read in the relaxed form, too. -/
theorem relaxedOffset_of_offsetMinutes {minutes : Int} {characters rest : List Char}
    (read : offsetMinutes (separator (· == ':')) characters = .ok (minutes, rest)) :
    relaxedOffset characters = .ok (minutes, rest) := by
  have found : offsetMinutes loose characters = .ok (minutes, rest) ∧
      ∃ mark ∈ ['Z', 'z', '+', '-', '\u2212'], ∃ others, characters = mark :: others := by
    unfold offsetMinutes at read ⊢
    split at read
    · exact ⟨read, 'Z', by decide, _, rfl⟩
    · exact ⟨read, 'z', by decide, _, rfl⟩
    · obtain ⟨signed, mark, isMark, others, rfl⟩ := signedMinutes_loose read
      exact ⟨signed, mark, List.mem_cons_of_mem _ (List.mem_cons_of_mem _ isMark), others, rfl⟩
  obtain ⟨minutesRead, mark, isMark, others, rfl⟩ := found
  have each : ['Z', 'z', '+', '-', '\u2212'].all (fun mark =>
      decide (Text.isBlank mark = false ∧ (mark.toLower == 'u') = false)) = true := by decide
  obtain ⟨visible, otherName⟩ := of_decide_eq_true (List.all_eq_true.mp each mark isMark)
  rw [relaxedOffset, Text.trimStart_cons_of_not_blank others visible,
    isUtcName_take_cons otherName]
  exact minutesRead

/-! ## The form -/

/-- The text is of the strict form and spells the timestamp: four digits of the year and two
of every other field, with one character for each of the marks between them. -/
structure IsStrictForm (characters : List Char) (timestamp : Timestamp) : Prop where
  year : 0 ≤ timestamp.date.year ∧ timestamp.date.year ≤ 9999
  spelled : ∃ dateEnd fraction zone,
    isDateEnd dateEnd = true ∧
    characters = timestamp.date.text ++ dateEnd :: timestamp.time.clockText fraction ∧
    secondFraction fraction = .ok (timestamp.time.nano, zone) ∧
    offsetMinutes (separator (· == ':')) zone = .ok (timestamp.offset.minutes, [])

private theorem isStrictForm_of_ofStrict? {characters : List Char} {timestamp : Timestamp}
    (read : ofStrict? characters = .ok timestamp) :
    IsStrictForm characters timestamp := by
  unfold ofStrict? at read
  split at read
  · cases read
  simp only [bind_eq_ok_iff, Prod.exists, exactly_eq_ok_iff, separator_eq_ok_iff,
    orFault_eq_ok_iff, beq_iff_eq, exists_eq_left, exists_const] at read
  obtain ⟨year, rest, ⟨yearSmall, rfl⟩, rest, rfl, month, rest, ⟨-, rfl⟩, rest, rfl,
    day, rest, ⟨-, rfl⟩, date, isDate, rest, ⟨dateEnd, endsDate, rfl⟩,
    hour, rest, ⟨-, rfl⟩, rest, rfl, minute, rest, ⟨-, rfl⟩, rest, rfl,
    second, fraction, ⟨-, rfl⟩, nano, zone, isFraction, time, isTime,
    minutes, left, isZone, read⟩ := read
  split at read
  · cases read
  rename_i whole
  obtain rfl : left = [] := by simpa using whole
  simp only [bind_eq_ok_iff, orFault_eq_ok_iff] at read
  obtain ⟨offset, isOffset, isTimestamp⟩ := read
  -- Each field of the timestamp is what was read for it.
  obtain ⟨sameYear, rfl, rfl⟩ := Date.fields_of_ofCivil? isDate
  obtain ⟨rfl, rfl, rfl, rfl⟩ := TimeOfDay.fields_of_ofFields? isTime
  obtain rfl := Offset.minutes_of_ofMinutes? isOffset
  obtain ⟨rfl, rfl, rfl⟩ := fields_of_ofLocal? isTimestamp
  refine ⟨?years, dateEnd, fraction, zone, endsDate, ?shape, isFraction, isZone⟩
  case years =>
    have limit : tenTo 4 = 10000 := rfl
    omega
  case shape =>
    rw [Date.text, sameYear, yearText_natCast yearSmall]
    simp only [TimeOfDay.clockText, List.append_assoc, List.cons_append]

/-- A text of the form is not too short, whatever its fraction and offset. -/
theorem shortestLength_le {date : Date} (year : 0 ≤ date.year ∧ date.year ≤ 9999) (time : TimeOfDay)
    (dateEnd : Char) (fraction : List Char) :
    shortestLength ≤
      (String.ofList (date.text ++ dateEnd :: time.clockText fraction)).utf8ByteSize := by
  have bytes := Text.length_le_utf8ByteSize (date.text ++ dateEnd :: time.clockText fraction)
  have yearDigits : yearText date.year = fixedText 4 date.year.toNat := if_pos year
  rw [shortestLength]
  simp only [Date.text, TimeOfDay.clockText, yearDigits, List.length_append, List.length_cons,
    length_fixedText] at bytes ⊢
  omega

namespace IsStrictForm

variable {characters : List Char} {timestamp : Timestamp}

/-- The relaxed reader takes the strict form. -/
theorem ofRelaxed? (isStrict : IsStrictForm characters timestamp) :
    ofRelaxed? characters = .ok timestamp := by
  obtain ⟨-, dateEnd, fraction, zone, endsDate, rfl, isFraction, isZone⟩ := isStrict
  exact ofRelaxed?_of_spelled endsDate isFraction (relaxedOffset_of_offsetMinutes isZone)

/-- So does the strict one, and reads the same timestamp. -/
theorem ofStrict? (isStrict : IsStrictForm characters timestamp) :
    ofStrict? characters = .ok timestamp := by
  obtain ⟨date, time, offset, nameable⟩ := timestamp
  obtain ⟨⟨first, last⟩, dateEnd, fraction, zone, endsDate, rfl, isFraction, isZone⟩ := isStrict
  dsimp only at first last isFraction isZone ⊢
  obtain ⟨⟨-, lastMonth⟩, -, lastDay⟩ := date.fields_within
  obtain ⟨hours, minutes, seconds, -⟩ := time.valid
  have monthSmall : date.month < 100 := by omega
  have daySmall : date.day < 100 := by omega
  have hourSmall : time.hour < 100 := by omega
  have minuteSmall : time.minute < 100 := by omega
  have secondSmall : time.second < 100 := by omega
  have sameYear : ((date.year.toNat : Nat) : Int) = date.year := Int.toNat_of_nonneg first
  have yearDigits : yearText date.year = fixedText 4 date.year.toNat := if_pos ⟨first, last⟩
  have year : ∀ rest, exactly 4 (fixedText 4 date.year.toNat ++ rest) =
      .ok (date.year.toNat, rest) :=
    fun rest => exactly_eq_ok_iff.mpr ⟨by rw [show tenTo 4 = 10000 from rfl]; omega, rfl⟩
  have two : ∀ {number : Nat}, number < 100 → ∀ rest,
      exactly 2 (fixedText 2 number ++ rest) = .ok (number, rest) :=
    fun small rest => exactly_eq_ok_iff.mpr ⟨small, rfl⟩
  have mark : ∀ {isSeparator : Char → Bool} {character : Char}, isSeparator character = true →
      ∀ rest, separator isSeparator (character :: rest) = .ok ((), rest) :=
    fun passes rest => separator_eq_ok_iff.mpr ⟨_, passes, rfl⟩
  have long := shortestLength_le ⟨first, last⟩ time dateEnd fraction
  have whole : ofLocal? date time offset = some ⟨date, time, offset, nameable⟩ :=
    ofLocal?_self ⟨date, time, offset, nameable⟩
  rw [Timestamp.ofStrict?, if_neg (Nat.not_lt.mpr long)]
  simp only [Date.text, TimeOfDay.clockText, List.append_assoc, List.cons_append]
  simp only [yearDigits, year, mark, endsDate, beq_self_eq_true, two monthSmall, two daySmall,
    two hourSmall, two minuteSmall, two secondSmall, sameYear, isFraction, isZone, bind,
    Except.bind, List.isEmpty_nil, Bool.not_true, Bool.false_eq_true, if_false,
    Date.ofCivil?_self, TimeOfDay.ofFields?_self, Offset.ofMinutes?_self, orFault, whole]

end IsStrictForm

theorem ofStrict?_eq_ok_iff {characters : List Char} {timestamp : Timestamp} :
    ofStrict? characters = .ok timestamp ↔ IsStrictForm characters timestamp :=
  ⟨isStrictForm_of_ofStrict?, IsStrictForm.ofStrict?⟩

end Timestamp

end Time

end RoomLedger
