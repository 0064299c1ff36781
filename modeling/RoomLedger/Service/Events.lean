import RoomLedger.Collection.Basic
import RoomLedger.Record.Event

/-!
Contract: the schedule of events.

Owns:
- `Events.collection`, where every event is kept;
- the operations on events, of which `create` also asks that the event lies in
  the future, and `upcoming` lists what has not begun.

Who may change an event is not asked here. An event that has begun can still be
changed.

Does not own: the time, which the caller tells.
-/

namespace RoomLedger.Events

def collection : Collection Event :=
  ⟨"events.jsonl", by decide +kernel⟩

/-- The text that names the service in a log. -/
def describe : String :=
  s!"EventService \x7b events: {collection.describe}, .. \x7d"

/-- Adds an event that begins after now. The start is looked at before anything
else. -/
def create (now : Time.Timestamp) (event : Event) : Operation Event :=
  if event.startTime ≤ now then
    Operation.fail (.invalid event.chatRoomId (.notInFuture event.startTime))
  else collection.create event

def get (room : String) : Operation Event :=
  collection.get room

/-- Gives the event of a room another description. -/
def updateDescription (room description : String) : Operation Event :=
  collection.update room description

def remove (room : String) : Operation Event :=
  collection.remove room

def list (query : Query) : Operation (List Event) :=
  collection.list query

/-- The first so many of the events from now on. -/
def upcoming (now : Time.Timestamp) (limit : Nat) : Operation (List Event) :=
  list ((Query.all.since now).capped limit)

end RoomLedger.Events
