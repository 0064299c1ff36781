import RoomLedger.Record.Basic

/-!
Contract: the index of images and files that were uploaded into chat rooms.

Owns:
- `MediaItem` and its stored form; the caption is the field that may change;
- `MediaItem.isImage`.

Does not own: the bytes of an upload.
-/

namespace RoomLedger

open Record

/-- An image or a file that was uploaded into a chat room. -/
structure MediaItem where
  mediaId : String
  chatRoomId : String
  uploaderId : String
  fileName : String
  contentType : String
  sizeBytes : UInt64
  /-- Where the bytes are. -/
  storageRef : String
  caption : String
  uploadedAt : Time.Timestamp
deriving DecidableEq, Repr

namespace MediaItem

def schema : Schema where
  name := "MediaItem"
  fields := [
    .required "media_id" .text,
    .required "chat_room_id" .text,
    .required "uploader_id" .text,
    .required "file_name" .text,
    .required "content_type" .text,
    .required "size_bytes" .count64,
    .required "storage_ref" .text,
    .withFallback "caption" .text "",
    .required "uploaded_at" .timestamp]

def toRow (item : MediaItem) : Row schema.fields :=
  (item.mediaId, item.chatRoomId, item.uploaderId, item.fileName, item.contentType,
    item.sizeBytes, item.storageRef, item.caption, item.uploadedAt, ())

def ofRow : Row schema.fields → MediaItem
  | (mediaId, chatRoomId, uploaderId, fileName, contentType, sizeBytes, storageRef, caption,
      uploadedAt, ()) =>
      { mediaId, chatRoomId, uploaderId, fileName, contentType, sizeBytes, storageRef, caption,
        uploadedAt }

def check (item : MediaItem) : Except Flaw Unit := do
  require "chat_room_id" item.chatRoomId
  require "uploader_id" item.uploaderId
  require "file_name" item.fileName
  require "storage_ref" item.storageRef
  if !item.contentType.toList.contains '/' then throw (.notMimeType item.contentType)

instance : Record MediaItem where
  kind := "media"
  schema := schema
  toRow := toRow
  ofRow := ofRow
  key := mediaId
  owner := uploaderId
  timestamp := uploadedAt
  amendable := "caption"
  amend value item := { item with caption := value }
  check := check
  ofRow_toRow _ := rfl
  toRow_ofRow _ := rfl
  isSound_schema := by decide
  toRow_amend _ _ := by simp [Row.setText, schema, toRow, Field.required, Field.withFallback]
  key_amend _ _ := rfl
  owner_amend _ _ := rfl
  timestamp_amend _ _ := rfl

def isImage (item : MediaItem) : Bool :=
  "image/".toList.isPrefixOf item.contentType.toList

end MediaItem

end RoomLedger
