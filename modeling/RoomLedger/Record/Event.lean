import RoomLedger.Record.Basic

/-!
Contract: gatherings that are scheduled in chat rooms.

Owns:
- `Event` and its stored form: a room has at most one event, so the room is the
  key, and the description is the field that may change;
- `Event.isCreatedBy` and `Event.duration`.

Does not own: the rule that a new event lies in the future.
-/

namespace RoomLedger

open Record

/-- A gathering that is scheduled in a chat room. -/
structure Event where
  chatRoomId : String
  creatorId : String
  title : String
  startTime : Time.Timestamp
  endTime : Time.Timestamp
  /-- The price of taking part, in any words. -/
  fee : String
  /-- The most people that can take part. -/
  capacity : UInt32
  description : String
  /-- The creator's name is shown. -/
  showCreator : Bool
deriving DecidableEq, Repr

namespace Event

def schema : Schema where
  name := "Event"
  fields := [
    .required "chat_room_id" .text,
    .required "creator_id" .text,
    .required "title" .text,
    .required "start_time" .timestamp,
    .required "end_time" .timestamp,
    .required "fee" .text,
    .required "capacity" .count32,
    .required "description" .text,
    .required "show_creator" .flag]

def toRow (event : Event) : Row schema.fields :=
  (event.chatRoomId, event.creatorId, event.title, event.startTime, event.endTime, event.fee,
    event.capacity, event.description, event.showCreator, ())

def ofRow : Row schema.fields → Event
  | (chatRoomId, creatorId, title, startTime, endTime, fee,
      capacity, description, showCreator, ()) =>
      { chatRoomId, creatorId, title, startTime, endTime, fee, capacity, description, showCreator }

/-- What a new event must satisfy, apart from lying in the future. -/
def check (event : Event) : Except Flaw Unit := do
  require "creator_id" event.creatorId
  require "title" event.title
  if event.capacity = 0 then throw .noCapacity
  if event.endTime ≤ event.startTime then throw .endsTooEarly

instance : Record Event where
  kind := "event"
  schema := schema
  toRow := toRow
  ofRow := ofRow
  key := chatRoomId
  owner := creatorId
  timestamp := startTime
  amendable := "description"
  amend value event := { event with description := value }
  check := check
  ofRow_toRow _ := rfl
  toRow_ofRow _ := rfl
  isSound_schema := by decide
  toRow_amend _ _ := by simp [Row.setText, schema, toRow, Field.required]
  key_amend _ _ := rfl
  owner_amend _ _ := rfl
  timestamp_amend _ _ := rfl

def isCreatedBy (event : Event) (user : String) : Bool :=
  event.creatorId == user

/-- The length of the event in nanoseconds. -/
def duration (event : Event) : Int :=
  Time.Timestamp.elapsed event.startTime event.endTime

end Event

end RoomLedger
