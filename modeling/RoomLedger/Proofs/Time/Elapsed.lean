import RoomLedger.Time.Timestamp

/-!
Contract: when time has elapsed from one timestamp to a later one.

Owns:
- `Timestamp.lt_iff`, by which timestamps are ordered by their second, not counting leap
  seconds, and within it by their fraction;
- `Timestamp.MissesLeapSecond`, the pairs whose leap second is not counted although it lies
  between them;
- `Timestamp.elapsed_pos_iff`, by which time has elapsed up to a later timestamp apart from
  these pairs, and `Timestamp.elapsed_of_missesLeapSecond`, what is counted for them.

The order and the count treat a leap second in different ways. For the order it is the tail
of the second before it. The count adds it where the times of day show it between them, so
not where the later time of day is the smaller one.

Does not own: which timestamps are compared.
-/

namespace RoomLedger.Time.Timestamp

/-! ## Seconds without leap seconds, and their fractions -/

private theorem nano_lt (timestamp : Timestamp) : timestamp.time.nano < 1000000000 :=
  timestamp.time.valid.2.2.2

private theorem second_le (timestamp : Timestamp) : timestamp.time.second ≤ 60 :=
  timestamp.time.valid.2.2.1

private theorem fraction_lt (timestamp : Timestamp) : timestamp.fraction < 2000000000 := by
  have nano := timestamp.nano_lt
  have second := timestamp.second_le
  unfold fraction
  omega

/-- A fraction of a second or more is a leap second. -/
theorem le_fraction_iff (timestamp : Timestamp) :
    1000000000 ≤ timestamp.fraction ↔ timestamp.time.second = 60 := by
  have nano := timestamp.nano_lt
  have second := timestamp.second_le
  unfold fraction
  omega

private theorem fraction_of_leap {timestamp : Timestamp} (leap : timestamp.time.second = 60) :
    timestamp.fraction = timestamp.time.nano + 1000000000 := by
  rw [fraction, leap]

/-- A leap second is shown as the last second of its minute, in every offset. -/
theorem unixSeconds_emod_of_leap {timestamp : Timestamp} (leap : timestamp.time.second = 60) :
    timestamp.unixSeconds % 60 = 59 := by
  unfold unixSeconds steadySecond
  omega

/-- Timestamps are ordered by their second, and within one second by its fraction. -/
theorem lt_iff (left right : Timestamp) :
    left < right ↔
      left.unixSeconds < right.unixSeconds ∨
        left.unixSeconds = right.unixSeconds ∧ left.fraction < right.fraction := by
  have leftNano := left.nano_lt
  have leftSecond := left.second_le
  have rightNano := right.nano_lt
  have rightSecond := right.second_le
  rw [lt_def]
  unfold moment unixSeconds steadySecond fraction
  omega

/-! ## The count -/

/-- The start is in a leap second at the end of a UTC day, and the finish comes in the first
second of the next day, no further into it than the start is into the leap second. -/
structure MissesLeapSecond (start finish : Timestamp) : Prop where
  leap : start.time.second = 60
  lastOfDay : start.utcSecondOfDay = 86399
  next : finish.unixSeconds = start.unixSeconds + 1
  early : finish.time.nano ≤ start.time.nano

/-- The first second of a day is no leap second. -/
theorem MissesLeapSecond.fraction_finish {start finish : Timestamp}
    (misses : MissesLeapSecond start finish) :
    finish.fraction = finish.time.nano := by
  have second := finish.second_le
  have lastOfDay := misses.lastOfDay
  have next := misses.next
  unfold utcSecondOfDay at lastOfDay
  unfold fraction
  by_cases leap : finish.time.second = 60
  · have steady := unixSeconds_emod_of_leap leap
    omega
  · omega

/-- What is counted then is the difference of the fractions, which has the wrong sign. -/
theorem elapsed_of_missesLeapSecond {start finish : Timestamp}
    (misses : MissesLeapSecond start finish) :
    elapsed start finish = finish.time.nano - start.time.nano := by
  have between : leapBetween start finish = 0 := by
    have lastOfDay := misses.lastOfDay
    have next := misses.next
    have ends := finish.nano_lt
    have fraction := misses.fraction_finish
    unfold utcSecondOfDay at lastOfDay
    unfold leapBetween utcSecondOfDay
    rw [if_neg (by omega), if_neg (by omega)]
  rw [elapsed, between, misses.next, misses.fraction_finish, fraction_of_leap misses.leap]
  omega

/-- Two timestamps of one second have no leap second between them. -/
theorem elapsed_of_unixSeconds_eq {start finish : Timestamp}
    (same : start.unixSeconds = finish.unixSeconds) :
    elapsed start finish = finish.fraction - start.fraction := by
  have between : leapBetween start finish = 0 := by
    unfold leapBetween utcSecondOfDay
    rw [same, if_neg (by omega), if_neg (by omega)]
  rw [elapsed, between, same]
  omega

/-- A leap second is added after a start in one, and taken off before a finish in one whose
time of day is the smaller one. -/
theorem leapBetween_cases (start finish : Timestamp) :
    (start.time.second = 60 ∧ start.utcSecondOfDay < finish.utcSecondOfDay ∧
      leapBetween start finish = 1) ∨
    (finish.time.second = 60 ∧ finish.utcSecondOfDay < start.utcSecondOfDay ∧
      leapBetween start finish = -1) ∨
    leapBetween start finish = 0 := by
  unfold leapBetween
  split
  case isTrue added => exact Or.inl ⟨(le_fraction_iff start).mp added.2, added.1, rfl⟩
  case isFalse =>
    right
    split
    case isTrue taken => exact Or.inl ⟨(le_fraction_iff finish).mp taken.2, taken.1, rfl⟩
    case isFalse => exact Or.inr rfl

/-- Where a leap second is followed by the finish and not added, a day has ended. -/
theorem lastOfDay_of_next {start finish : Timestamp} (leap : start.time.second = 60)
    (next : finish.unixSeconds = start.unixSeconds + 1) (none : leapBetween start finish = 0) :
    start.utcSecondOfDay = 86399 := by
  have behind : ¬ start.utcSecondOfDay < finish.utcSecondOfDay := by
    intro ahead
    have added : leapBetween start finish = 1 :=
      if_pos ⟨ahead, (le_fraction_iff start).mpr leap⟩
    omega
  unfold utcSecondOfDay at behind ⊢
  omega

/-- From outside a leap second, time has elapsed up to every later second. -/
theorem elapsed_pos_of_steady {start finish : Timestamp}
    (later : start.unixSeconds < finish.unixSeconds) (steady : start.time.second ≠ 60) :
    0 < elapsed start finish := by
  have small : start.fraction < 1000000000 :=
    Nat.lt_of_not_le fun large => steady ((le_fraction_iff start).mp large)
  unfold elapsed
  rcases leapBetween_cases start finish with ⟨leap, -, -⟩ | ⟨leap, -, taken⟩ | none
  · exact absurd leap steady
  · have large : 1000000000 ≤ finish.fraction := (le_fraction_iff finish).mpr leap
    rw [taken]
    omega
  · rw [none]
    omega

/-- From a leap second, time has elapsed up to every later second unless it is missed. -/
theorem elapsed_pos_of_leap {start finish : Timestamp}
    (later : start.unixSeconds < finish.unixSeconds) (leap : start.time.second = 60)
    (counted : ¬ MissesLeapSecond start finish) :
    0 < elapsed start finish := by
  have start_lt := start.fraction_lt
  have start_eq := fraction_of_leap leap
  unfold elapsed
  rcases leapBetween_cases start finish with ⟨-, -, added⟩ | ⟨leapToo, behind, taken⟩ | none
  · rw [added]
    omega
  · -- Both times of day end a minute, so the finish is a minute or more after the start.
    have startEnds := unixSeconds_emod_of_leap leap
    have finishEnds := unixSeconds_emod_of_leap leapToo
    rw [taken]
    omega
  · rw [none]
    by_cases next : finish.unixSeconds = start.unixSeconds + 1
    · have lastOfDay : start.utcSecondOfDay = 86399 := lastOfDay_of_next leap next none
      have early : start.time.nano < finish.time.nano :=
        Nat.lt_of_not_le fun early => counted ⟨leap, lastOfDay, next, early⟩
      have whole : finish.time.nano ≤ finish.fraction := Nat.le_add_right _ _
      omega
    · omega

/-- Time has elapsed from one timestamp to a later one, unless the leap second between them
is missed. -/
theorem elapsed_pos_iff {start finish : Timestamp} (later : start < finish) :
    0 < elapsed start finish ↔ ¬ MissesLeapSecond start finish := by
  constructor
  · intro positive misses
    have early := misses.early
    rw [elapsed_of_missesLeapSecond misses] at positive
    omega
  · intro counted
    rcases (lt_iff start finish).mp later with laterSecond | ⟨same, laterFraction⟩
    · by_cases leap : start.time.second = 60
      · exact elapsed_pos_of_leap laterSecond leap counted
      · exact elapsed_pos_of_steady laterSecond leap
    · rw [elapsed_of_unixSeconds_eq same]
      omega

end RoomLedger.Time.Timestamp
