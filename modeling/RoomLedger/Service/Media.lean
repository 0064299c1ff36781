import RoomLedger.Collection.Basic
import RoomLedger.Record.MediaItem

/-!
Contract: the index of uploads.

Owns:
- `Media.collection`, where every item is kept;
- the operations on items.

Does not own: the id of an item that comes without one, which the caller tells.
-/

namespace RoomLedger.Media

def collection : Collection MediaItem :=
  ⟨"media.jsonl", by decide +kernel⟩

/-- The text that names the service in a log. -/
def describe : String :=
  s!"MediaService \x7b media: {collection.describe} \x7d"

def needsId (item : MediaItem) : Bool :=
  Text.blank item.mediaId

/-- Adds an item, with a new id if it comes without one. -/
def register (freshId : String) (item : MediaItem) : Operation MediaItem :=
  collection.create (if needsId item then { item with mediaId := freshId } else item)

def get (id : String) : Operation MediaItem :=
  collection.get id

def updateCaption (id caption : String) : Operation MediaItem :=
  collection.update id caption

def remove (id : String) : Operation MediaItem :=
  collection.remove id

def list (query : Query) : Operation (List MediaItem) :=
  collection.list query

def inRoom (room : String) : Operation (List MediaItem) :=
  (list Query.all).mapResult fun items => items.filter fun item => item.chatRoomId == room

end RoomLedger.Media
