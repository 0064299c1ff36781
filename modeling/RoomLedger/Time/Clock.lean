import RoomLedger.Time.Printer

/-!
Contract: clocks that are told what to show.

Owns:
- `Clock`, which moves on by a fixed step at every reading;
- `Clock.read?` and `Clock.describe`.

A clock whose step is zero stands still. There is no reading after the last time
that the calendar can name.

Does not own: the time of the machine.
-/

namespace RoomLedger.Time

/-- A clock that moves on by a fixed step at every reading. -/
structure Clock where
  time : Timestamp
  /-- The milliseconds by which it moves on. -/
  step : Int := 0
deriving DecidableEq, Repr

namespace Clock

/-- The next reading, and the clock after it. -/
def read? (clock : Clock) : Option (Timestamp × Clock) :=
  match clock.time.addMillis? clock.step with
  | none => none
  | some time => some (time, { clock with time })

/-- The text that names a clock that stands still in a log. -/
def describe (clock : Clock) : String :=
  s!"FixedClock({clock.time.rfc3339})"

end Clock

end RoomLedger.Time
