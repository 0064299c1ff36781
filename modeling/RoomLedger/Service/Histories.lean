import RoomLedger.Collection.Basic
import RoomLedger.Record.HistoryEntry

/-!
Contract: the history of every chat room.

Owns:
- `Histories.blobKey`, the key under which a room's history is kept;
- `Histories.room`, which refuses what is no room;
- the operations on entries.

Each room has a collection of its own.

Does not own: the time and the id of a new entry, which the caller tells.
-/

namespace RoomLedger.Histories

/-- The key under which a room's history is kept. -/
def blobKey (room : String) : String :=
  s!"history/{room}.jsonl"

/-- The text that names the service in a log. -/
def describe : String :=
  "HistoryService \x7b .. \x7d"

/-- Where a room's history is kept. A failure names the room as it was given. -/
def room (name : String) : Except Failure (Collection HistoryEntry) :=
  if Text.blank name then .error (.invalid name (.flaw (.blank "chat_room_id")))
  else
    match Collection.ofKey (blobKey name) with
    | .error (.invalid _ objection) => .error (.invalid name objection)
    | .error failure => .error failure
    | .ok collection => .ok collection

def append (now : Time.Timestamp) (freshId : String) (name author : String) (role : Role)
    (content : String) : Operation HistoryEntry :=
  let entry : HistoryEntry :=
    { id := freshId, chatRoomId := name, authorId := author, role, content, createdAt := now }
  Operation.after (room name) fun collection => collection.create entry

def get (name id : String) : Operation HistoryEntry :=
  Operation.after (room name) fun collection => collection.get id

def edit (name id content : String) : Operation HistoryEntry :=
  Operation.after (room name) fun collection => collection.update id content

def remove (name id : String) : Operation HistoryEntry :=
  Operation.after (room name) fun collection => collection.remove id

def list (name : String) (query : Query) : Operation (List HistoryEntry) :=
  Operation.after (room name) fun collection => collection.list query

def lastOf {α : Type} (count : Nat) (entries : List α) : List α :=
  entries.drop (entries.length - count)

/-- The newest so many entries, the oldest of them first. Entries with a time to
come count too. -/
def recent (name : String) (count : Nat) : Operation (List HistoryEntry) :=
  (list name Query.all).mapResult (lastOf count)

/-- Forgets all entries of a room, and tells how many they were. -/
def clear (name : String) : Operation Nat :=
  Operation.after (room name) fun collection => collection.removeWhere fun _ => true

end RoomLedger.Histories
