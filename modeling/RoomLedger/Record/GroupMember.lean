import RoomLedger.Record.Basic

/-!
Contract: simulated membership of users in chat rooms.

Owns:
- `GroupMember` and its stored form; the nickname is the field that may change;
- `GroupMember.membershipKey`, the room and the user with a slash between them.

Does not own: who may join.
-/

namespace RoomLedger

open Record

/-- A user's membership in a chat room. -/
structure GroupMember where
  chatRoomId : String
  userId : String
  /-- The name that the user goes by in this room. -/
  nickname : String
  role : MemberRole
  joinedAt : Time.Timestamp
deriving DecidableEq, Repr

namespace GroupMember

def schema : Schema where
  name := "GroupMember"
  fields := [
    .required "chat_room_id" .text,
    .required "user_id" .text,
    .required "nickname" .text,
    .withFallback "role" .memberRole .member,
    .required "joined_at" .timestamp]

def toRow (member : GroupMember) : Row schema.fields :=
  (member.chatRoomId, member.userId, member.nickname, member.role, member.joinedAt, ())

def ofRow : Row schema.fields → GroupMember
  | (chatRoomId, userId, nickname, role, joinedAt, ()) =>
      { chatRoomId, userId, nickname, role, joinedAt }

/-- The key of a user's membership in a room. -/
def membershipKey (room user : String) : String :=
  room ++ "/" ++ user

def check (member : GroupMember) : Except Flaw Unit := do
  requireKeyPart "chat_room_id" member.chatRoomId
  requireKeyPart "user_id" member.userId
  require "nickname" member.nickname

instance : Record GroupMember where
  kind := "group member"
  schema := schema
  toRow := toRow
  ofRow := ofRow
  key member := membershipKey member.chatRoomId member.userId
  owner := userId
  timestamp := joinedAt
  amendable := "nickname"
  amend value member := { member with nickname := value }
  check := check
  ofRow_toRow _ := rfl
  toRow_ofRow _ := rfl
  isSound_schema := by decide
  toRow_amend _ _ := by simp [Row.setText, schema, toRow, Field.required, Field.withFallback]
  key_amend _ _ := rfl
  owner_amend _ _ := rfl
  timestamp_amend _ _ := rfl

end GroupMember

end RoomLedger
