/-!
Contract: days of the proleptic Gregorian calendar.

Owns:
- `Date`, a day that exists, in the years that a timestamp can name;
- `Date.ofCivil?`, the day of a year, month and day number;
- `Date.dayNumber`, the days since 1970-01-01, and its inverse.

Does not own: times of day and offsets.
-/

namespace RoomLedger.Time

/-- The rule of the Gregorian calendar for the years with a 29th of February. -/
def isLeapYear (year : Int) : Bool :=
  year % 4 == 0 && (year % 100 != 0 || year % 400 == 0)

/-- The number of days in a month; a month that does not exist has none. -/
def daysInMonth (year : Int) : (month : Nat) → Nat
  | 1 | 3 | 5 | 7 | 8 | 10 | 12 => 31
  | 4 | 6 | 9 | 11 => 30
  | 2 => if isLeapYear year then 29 else 28
  | _ => 0

/-- The first year that a timestamp can name. -/
def firstYear : Int := -262143

/-- The last year that a timestamp can name. -/
def lastYear : Int := 262142

def IsCivil (year : Int) (month day : Nat) : Prop :=
  firstYear ≤ year ∧ year ≤ lastYear ∧ 1 ≤ day ∧ day ≤ daysInMonth year month

instance (year : Int) (month day : Nat) : Decidable (IsCivil year month day) :=
  inferInstanceAs (Decidable (_ ∧ _))

/-- A day of the calendar. -/
structure Date where
  year : Int
  month : Nat
  day : Nat
  civil : IsCivil year month day
deriving DecidableEq, Repr

namespace Date

/-- The day with that year, month and day number, if there is one. -/
def ofCivil? (year : Int) (month day : Nat) : Option Date :=
  if civil : IsCivil year month day then some ⟨year, month, day, civil⟩ else none

/-- The days of the months before this one in a common year. -/
def daysBeforeMonth : (month : Nat) → Nat
  | 1 => 0 | 2 => 31 | 3 => 59 | 4 => 90 | 5 => 120 | 6 => 151
  | 7 => 181 | 8 => 212 | 9 => 243 | 10 => 273 | 11 => 304 | 12 => 334
  | _ => 0

/-- The days from 1970-01-01 to the first day of a year. -/
def daysBeforeYear (year : Int) : Int :=
  let before := year - 1
  365 * before + before / 4 - before / 100 + before / 400 - 719162

/-- The days from 1970-01-01 to a year, month and day number. -/
def dayNumberOf (year : Int) (month day : Nat) : Int :=
  let leapDay : Nat := if 2 < month && isLeapYear year then 1 else 0
  daysBeforeYear year + ((daysBeforeMonth month + leapDay + day : Nat) : Int) - 1

def dayNumber (date : Date) : Int :=
  dayNumberOf date.year date.month date.day

/-- The day number of the first day that a timestamp can name. -/
def firstDay : Int := dayNumberOf firstYear 1 1

/-- The day number of the last day that a timestamp can name. -/
def lastDay : Int := dayNumberOf lastYear 12 31

/-- The month and day number of the day at a distance from the first of the
given month, walking the months of one year. -/
def monthOf (year : Int) : (fuel month distance : Nat) → Nat × Nat
  | 0, month, distance => (month, distance + 1)
  | fuel + 1, month, distance =>
      let size := daysInMonth year month
      if distance < size then (month, distance + 1)
      else monthOf year fuel (month + 1) (distance - size)

/-- The day with that day number, if a timestamp can name it. The year is
estimated by the mean length of a year in a cycle of four hundred, and the
estimate is at most one year late or early. -/
def ofDayNumber? (number : Int) : Option Date :=
  let estimate := (400 * (number + 719162)) / 146097 + 1
  let year :=
    if number < daysBeforeYear estimate then estimate - 1
    else if daysBeforeYear (estimate + 1) ≤ number then estimate + 1
    else estimate
  let (month, day) := monthOf year 12 1 (number - daysBeforeYear year).toNat
  ofCivil? year month day

@[simp] theorem ofCivil?_self (date : Date) :
    ofCivil? date.year date.month date.day = some date := by
  simp [ofCivil?, date.civil]

/-- What is read as a date has the fields that were read. -/
theorem fields_of_ofCivil? {year : Int} {month day : Nat} {date : Date}
    (read : ofCivil? year month day = some date) :
    date.year = year ∧ date.month = month ∧ date.day = day := by
  unfold ofCivil? at read
  split at read
  · cases read
    exact ⟨rfl, rfl, rfl⟩
  · cases read

end Date

end RoomLedger.Time
