import RoomLedger.Time.Date

/-!
Contract: points in time together with the UTC offset they were expressed in.

Owns:
- `TimeOfDay`, which may be a leap second, and `Offset`, a whole number of
  minutes of less than a day;
- `Timestamp`, a local date and time with an offset, whose UTC date the calendar
  can name;
- `Timestamp.moment`, the place on the time line by which timestamps compare;
- `Timestamp.elapsed`, the time between two of them;
- `Timestamp.addMillis?`, a later or earlier reading.

Two timestamps are the same moment whatever their offsets; the order of
timestamps is the order of their moments.

Does not own: any written form.
-/

namespace RoomLedger.Time

/-- A time of day. Second 60 is a leap second. -/
structure TimeOfDay where
  hour : Nat
  minute : Nat
  second : Nat
  nano : Nat
  valid : hour < 24 ∧ minute < 60 ∧ second ≤ 60 ∧ nano < 1000000000
deriving DecidableEq, Repr

namespace TimeOfDay

/-- The time of day with those fields, if there is one. -/
def ofFields? (hour minute second nano : Nat) : Option TimeOfDay :=
  if valid : hour < 24 ∧ minute < 60 ∧ second ≤ 60 ∧ nano < 1000000000 then
    some ⟨hour, minute, second, nano, valid⟩
  else none

def minuteOfDay (time : TimeOfDay) : Nat :=
  60 * time.hour + time.minute

@[simp] theorem ofFields?_self (time : TimeOfDay) :
    ofFields? time.hour time.minute time.second time.nano = some time := by
  simp [ofFields?, time.valid]

end TimeOfDay

/-- The distance of local time from UTC, positive to the east. -/
structure Offset where
  minutes : Int
  lessThanADay : -1440 < minutes ∧ minutes < 1440
deriving DecidableEq, Repr

namespace Offset

def utc : Offset := ⟨0, by decide⟩

/-- The offset of so many minutes, if they are less than a day. -/
def ofMinutes? (minutes : Int) : Option Offset :=
  if small : -1440 < minutes ∧ minutes < 1440 then some ⟨minutes, small⟩ else none

@[simp] theorem ofMinutes?_self (offset : Offset) : ofMinutes? offset.minutes = some offset := by
  simp [ofMinutes?, offset.lessThanADay]

end Offset

/-- The minutes from 1970-01-01 at midnight UTC to a local reading. -/
def utcMinuteOf (date : Date) (time : TimeOfDay) (offset : Offset) : Int :=
  1440 * date.dayNumber + time.minuteOfDay - offset.minutes

/-- The calendar can name the UTC date of a minute. -/
def IsNameable (utcMinute : Int) : Prop :=
  Date.firstDay ≤ utcMinute / 1440 ∧ utcMinute / 1440 ≤ Date.lastDay

instance (utcMinute : Int) : Decidable (IsNameable utcMinute) :=
  inferInstanceAs (Decidable (_ ∧ _))

/-- A point in time with the UTC offset it was expressed in. -/
structure Timestamp where
  date : Date
  time : TimeOfDay
  offset : Offset
  nameable : IsNameable (utcMinuteOf date time offset)
deriving DecidableEq, Repr

namespace Timestamp

/-- The timestamp of a local reading, if the calendar can name its UTC date. -/
def ofLocal? (date : Date) (time : TimeOfDay) (offset : Offset) : Option Timestamp :=
  if nameable : IsNameable (utcMinuteOf date time offset) then
    some ⟨date, time, offset, nameable⟩
  else none

@[simp] theorem ofLocal?_self (timestamp : Timestamp) :
    ofLocal? timestamp.date timestamp.time timestamp.offset = some timestamp := by
  simp [ofLocal?, timestamp.nameable]

/-- The UTC minute, counted from 1970-01-01 at midnight. -/
def utcMinute (timestamp : Timestamp) : Int :=
  utcMinuteOf timestamp.date timestamp.time timestamp.offset

/-- The place on the time line, where every minute has room for sixty-one
seconds: a leap second lies after the second 59 and before the next minute. -/
def moment (timestamp : Timestamp) : Int :=
  61000000000 * timestamp.utcMinute +
    ((1000000000 * timestamp.time.second + timestamp.time.nano : Nat) : Int)

instance : LE Timestamp := ⟨fun left right => left.moment ≤ right.moment⟩

instance : LT Timestamp := ⟨fun left right => left.moment < right.moment⟩

instance (left right : Timestamp) : Decidable (left ≤ right) :=
  inferInstanceAs (Decidable (left.moment ≤ right.moment))

instance (left right : Timestamp) : Decidable (left < right) :=
  inferInstanceAs (Decidable (left.moment < right.moment))

theorem le_def (left right : Timestamp) : left ≤ right ↔ left.moment ≤ right.moment := Iff.rfl

theorem lt_def (left right : Timestamp) : left < right ↔ left.moment < right.moment := Iff.rfl

/-- The second of the minute on a clock that shows a leap second as 59. -/
def steadySecond (timestamp : Timestamp) : Nat :=
  min timestamp.time.second 59

/-- The nanoseconds since the steady second began: a thousand million or more
in a leap second. -/
def fraction (timestamp : Timestamp) : Nat :=
  timestamp.time.nano + 1000000000 * (timestamp.time.second - 59)

/-- The seconds since 1970-01-01 at midnight UTC, not counting leap seconds. -/
def unixSeconds (timestamp : Timestamp) : Int :=
  60 * timestamp.utcMinute + timestamp.steadySecond

/-- The second of the UTC day, not counting leap seconds. -/
def utcSecondOfDay (timestamp : Timestamp) : Int :=
  timestamp.unixSeconds % 86400

/-- The leap second to count between two times of one day: one lies between
them when the earlier one falls into a leap second and the later one does not
fall into the same second. -/
def leapBetween (start finish : Timestamp) : Int :=
  if start.utcSecondOfDay < finish.utcSecondOfDay ∧ 1000000000 ≤ start.fraction then 1
  else if finish.utcSecondOfDay < start.utcSecondOfDay ∧ 1000000000 ≤ finish.fraction then -1
  else 0

/-- The nanoseconds from one timestamp to another: the UTC dates count as whole
days, and the times of day differ by their seconds, the leap second that lies
between them and their fractions. -/
def elapsed (start finish : Timestamp) : Int :=
  1000000000 * (finish.unixSeconds - start.unixSeconds + leapBetween start finish) +
    (finish.fraction - start.fraction : Int)

/-- The local reading of a whole second and a fraction of it, the second counted
from 1970-01-01 at local midnight without leap seconds. -/
def ofLocalSecond? (second : Int) (fraction : Nat) (offset : Offset) : Option Timestamp := do
  let ofDay := (second % 86400).toNat
  let date ← Date.ofDayNumber? (second / 86400)
  let time ← TimeOfDay.ofFields? (ofDay / 3600) (ofDay / 60 % 60)
    (ofDay % 60 + fraction / 1000000000) (fraction % 1000000000)
  ofLocal? date time offset

/-- The reading of a whole second and a fraction of it, the second counted from
1970-01-01 at midnight UTC without leap seconds. Where the calendar cannot name
the local day, the reading is in UTC. -/
def ofUnixSecond? (second : Int) (fraction : Nat) (offset : Offset) : Option Timestamp :=
  match ofLocalSecond? (second + 60 * offset.minutes) fraction offset with
  | some timestamp => some timestamp
  | none => ofLocalSecond? second fraction .utc

/-- The timestamp so many milliseconds later, with the same offset, or in UTC
where the calendar cannot name the local day. A leap second is left as a whole:
only a step that stays inside it keeps it. -/
def addMillis? (timestamp : Timestamp) (millis : Int) : Option Timestamp :=
  let wholeSeconds := millis.tdiv 1000
  let extra := millis.tmod 1000 * 1000000
  let fraction : Int := timestamp.fraction
  let start := timestamp.unixSeconds
  if 1000000000 ≤ fraction ∧ wholeSeconds = 0 ∧ fraction + extra < 2000000000 then
    ofUnixSecond? start (fraction + extra).toNat timestamp.offset
  else
    let left : Int × Int :=
      if fraction < 1000000000 then (start, fraction)
      else if wholeSeconds < 0 then (start + 1, fraction - 1000000000)
      else (start, fraction - 1000000000)
    let total := 1000000000 * (left.1 + wholeSeconds) + left.2 + extra
    ofUnixSecond? (total / 1000000000) (total % 1000000000).toNat timestamp.offset

end Timestamp

end RoomLedger.Time
