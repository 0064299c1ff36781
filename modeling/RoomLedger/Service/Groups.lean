import RoomLedger.Collection.Basic
import RoomLedger.Record.GroupMember

/-!
Contract: who is in which chat room, for rooms that are simulated.

Owns:
- `Groups.collection`, where every membership is kept;
- `Groups.memberKey`, which refuses names that would make a key ambiguous;
- the operations on memberships.

Does not own: the time of joining, which the caller tells.
-/

namespace RoomLedger.Groups

def collection : Collection GroupMember :=
  ⟨"groupsim.jsonl", by decide +kernel⟩

/-- The text that names the service in a log. -/
def describe : String :=
  s!"GroupSimService \x7b members: {collection.describe}, .. \x7d"

/-- A name that is a part of the key, or the failure that names it. -/
def requirePart (field name : String) : Except Failure Unit :=
  match Record.requireKeyPart field name with
  | .error flaw => .error (.invalid name (.flaw flaw))
  | .ok () => .ok ()

/-- The key of a membership. The room is looked at before the user. -/
def memberKey (room user : String) : Except Failure String :=
  match requirePart "chat_room_id" room with
  | .error failure => .error failure
  | .ok () =>
      match requirePart "user_id" user with
      | .error failure => .error failure
      | .ok () => .ok (GroupMember.membershipKey room user)

def join (now : Time.Timestamp) (room user nickname : String) (role : MemberRole) :
    Operation GroupMember :=
  collection.create { chatRoomId := room, userId := user, nickname, role, joinedAt := now }

def member (room user : String) : Operation GroupMember :=
  Operation.after (memberKey room user) fun key => collection.get key

/-- Gives a member another nickname in a room. -/
def rename (room user nickname : String) : Operation GroupMember :=
  Operation.after (memberKey room user) fun key => collection.update key nickname

def leave (room user : String) : Operation GroupMember :=
  Operation.after (memberKey room user) fun key => collection.remove key

/-- The members of a room in the order in which they joined. -/
def members (room : String) : Operation (List GroupMember) :=
  (collection.list Query.all).mapResult fun found =>
    found.filter fun member => member.chatRoomId == room

/-- The rooms of a user in the order in which the user joined them. -/
def roomsOf (user : String) : Operation (List String) :=
  (collection.list (Query.all.createdBy user)).mapResult fun found =>
    found.map GroupMember.chatRoomId

end RoomLedger.Groups
