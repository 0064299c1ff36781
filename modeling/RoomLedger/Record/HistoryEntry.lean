import RoomLedger.Record.Basic

/-!
Contract: messages in the history of a chat room.

Owns: `HistoryEntry` and its stored form. The content is the field that may
change.

Does not own: how an entry comes by its id.
-/

namespace RoomLedger

open Record

/-- A message in the history of a chat room. -/
structure HistoryEntry where
  id : String
  chatRoomId : String
  authorId : String
  role : Role
  content : String
  createdAt : Time.Timestamp
deriving DecidableEq, Repr

namespace HistoryEntry

def schema : Schema where
  name := "HistoryEntry"
  fields := [
    .required "id" .text,
    .required "chat_room_id" .text,
    .required "author_id" .text,
    .required "role" .role,
    .required "content" .text,
    .required "created_at" .timestamp]

def toRow (entry : HistoryEntry) : Row schema.fields :=
  (entry.id, entry.chatRoomId, entry.authorId, entry.role, entry.content, entry.createdAt, ())

def ofRow : Row schema.fields → HistoryEntry
  | (id, chatRoomId, authorId, role, content, createdAt, ()) =>
      { id, chatRoomId, authorId, role, content, createdAt }

def check (entry : HistoryEntry) : Except Flaw Unit := do
  require "chat_room_id" entry.chatRoomId
  require "author_id" entry.authorId

instance : Record HistoryEntry where
  kind := "history entry"
  schema := schema
  toRow := toRow
  ofRow := ofRow
  key := id
  owner := authorId
  timestamp := createdAt
  amendable := "content"
  amend value entry := { entry with content := value }
  check := check
  ofRow_toRow _ := rfl
  toRow_ofRow _ := rfl
  isSound_schema := by decide
  toRow_amend _ _ := by simp [Row.setText, schema, toRow, Field.required]
  key_amend _ _ := rfl
  owner_amend _ _ := rfl
  timestamp_amend _ _ := rfl

end HistoryEntry

end RoomLedger
