import Mathlib.Data.List.Basic
import RoomLedger.Proofs.Time.Elapsed
import RoomLedger.Record.Event
import RoomLedger.Time.Strict

/-!
Contract: what a new event must satisfy, and how long such an event is.

Owns:
- `Event.check_eq_ok_iff`, the conditions that the check of an event asks for, and
  `Event.HasFlaw`, what it can find otherwise;
- `Event.duration_pos_iff`, by which an event that passes the check has a positive duration
  unless a leap second at midnight is missed;
- an event that passes the check and has a negative duration.

The check compares the two times of an event, and the duration counts from one to the other.

Does not own: the rule that a new event lies in the future.
-/

namespace RoomLedger

open RoomLedger.Time (Timestamp)

/-- A required field is refused for being blank. -/
theorem Record.blank_of_require {field value : String} {flaw : Flaw}
    (refused : Record.require field value = .error flaw) :
    Text.blank value = true ∧ flaw = .blank field := by
  unfold Record.require at refused
  split at refused
  case isTrue blank =>
    cases refused
    exact ⟨blank, rfl⟩
  case isFalse => cases refused

namespace Event

theorem check_eq_ok_iff (event : Event) :
    event.check = .ok () ↔
      Text.blank event.creatorId = false ∧ Text.blank event.title = false ∧
        event.capacity ≠ 0 ∧ ¬ event.endTime ≤ event.startTime := by
  have creator : Record.require "creator_id" event.creatorId = .ok () ↔
      Text.blank event.creatorId = false := Record.require_eq_ok_iff
  have title : Record.require "title" event.title = .ok () ↔
      Text.blank event.title = false := Record.require_eq_ok_iff
  rw [← creator, ← title]
  unfold Event.check
  cases Record.require "creator_id" event.creatorId with
  | error flaw => simp [bind, Except.bind]
  | ok named =>
      cases Record.require "title" event.title with
      | error flaw => simp [bind, Except.bind]
      | ok titled =>
          by_cases empty : event.capacity = 0
          · simp [bind, Except.bind, empty, throw, throwThe, MonadExceptOf.throw]
          · by_cases late : event.endTime ≤ event.startTime
            · simp [bind, Except.bind, empty, late, throw, throwThe, MonadExceptOf.throw]
            · simp [bind, Except.bind, empty, late, pure, Except.pure]

/-- What the check of an event can find. -/
inductive HasFlaw (event : Event) : Flaw → Prop
  | noCreator (blank : Text.blank event.creatorId = true) : HasFlaw event (.blank "creator_id")
  | noTitle (blank : Text.blank event.title = true) : HasFlaw event (.blank "title")
  | noCapacity (none : event.capacity = 0) : HasFlaw event .noCapacity
  | endsTooEarly (order : event.endTime ≤ event.startTime) : HasFlaw event .endsTooEarly

/-- What the check of an event finds is there. -/
theorem hasFlaw_of_check {event : Event} {flaw : Flaw} (refused : event.check = .error flaw) :
    event.HasFlaw flaw := by
  unfold Event.check at refused
  cases named : Record.require "creator_id" event.creatorId with
  | error found =>
      rw [named] at refused
      cases refused
      obtain ⟨blank, rfl⟩ := Record.blank_of_require named
      exact .noCreator blank
  | ok done =>
      cases titled : Record.require "title" event.title with
      | error found =>
          rw [named, titled] at refused
          cases refused
          obtain ⟨blank, rfl⟩ := Record.blank_of_require titled
          exact .noTitle blank
      | ok done =>
          simp only [named, titled, bind, Except.bind] at refused
          split at refused
          case isTrue none =>
            cases refused
            exact .noCapacity none
          case isFalse =>
            simp only [pure, Except.pure] at refused
            split at refused
            case isTrue order =>
              cases refused
              exact .endsTooEarly order
            case isFalse => cases refused

private theorem startTime_lt_endTime {event : Event} (passed : event.check = .ok ()) :
    event.startTime < event.endTime :=
  Int.not_le.mp ((check_eq_ok_iff event).mp passed).2.2.2

/-- An event that passes the check has a positive duration, unless it begins in the leap
second at the end of a UTC day and ends in the first second of the next day, no further into
it than the beginning is into the leap second. The leap second is missed then, and what is
left as the duration is the difference of the two fractions of a second. -/
theorem duration_pos_iff {event : Event} (passed : event.check = .ok ()) :
    (0 < event.duration ↔ ¬ Timestamp.MissesLeapSecond event.startTime event.endTime) ∧
    (Timestamp.MissesLeapSecond event.startTime event.endTime →
      event.duration = event.endTime.time.nano - event.startTime.time.nano) := by
  constructor
  · exact Timestamp.elapsed_pos_iff (startTime_lt_endTime passed)
  · exact Timestamp.elapsed_of_missesLeapSecond

/-- A toast at the end of 2016, from the middle of the leap second on. The given timestamp
is its end. -/
def toast (endTime : Timestamp) : Event where
  chatRoomId := "C1"
  creatorId := "u-1"
  title := "Toast"
  startTime := {
    date := ⟨2017, 1, 1, by decide⟩
    time := ⟨0, 59, 60, 500000000, by decide⟩
    offset := ⟨60, by decide⟩
    nameable := by decide }
  endTime := endTime
  fee := "free"
  capacity := 12
  description := ""
  showCreator := true

/-- Six tenths of the first second of 2017. -/
def pastHalf : Timestamp where
  date := ⟨2017, 1, 1, by decide⟩
  time := ⟨0, 0, 0, 600000000, by decide⟩
  offset := .utc
  nameable := by decide

/-- Two tenths of the first second of 2017. -/
def beforeHalf : Timestamp where
  date := ⟨2017, 1, 1, by decide⟩
  time := ⟨0, 0, 0, 200000000, by decide⟩
  offset := .utc
  nameable := by decide

/-- The toast is as far past midnight in the end as in the leap second, and a tenth more. -/
theorem duration_pos_iff_past_half :
    (toast pastHalf).check = .ok () ∧ 0 < (toast pastHalf).duration := by
  have passed : (toast pastHalf).check = .ok () :=
    (check_eq_ok_iff _).mpr (by decide +kernel)
  refine ⟨passed, (duration_pos_iff passed).1.mpr ?_⟩
  intro misses
  exact absurd misses.early (by decide)

/-- A toast that ends earlier in its second has a negative duration. Its times are those of
texts that people can enter, and it passes the check. -/
theorem toast_has_negative_duration :
    Timestamp.parse? "2017-01-01T00:59:60.5+01:00" = .ok (toast beforeHalf).startTime ∧
    Timestamp.parse? "2017-01-01T00:00:00.2Z" = .ok (toast beforeHalf).endTime ∧
    (toast beforeHalf).check = .ok () ∧
    (toast beforeHalf).startTime < (toast beforeHalf).endTime ∧
    (toast beforeHalf).duration = -300000000 := by
  refine ⟨by decide +kernel, by decide +kernel, ?_, by decide +kernel, by decide +kernel⟩
  exact (check_eq_ok_iff _).mpr (by decide +kernel)

end Event

end RoomLedger
