import RoomLedger.Collection.Basic
import RoomLedger.Record.UserProfile

/-!
Contract: the profiles of users.

Owns:
- `Profiles.collection`, where every profile is kept;
- the operations on profiles.

Does not own: the time of a new profile, which the caller tells.
-/

namespace RoomLedger.Profiles

def collection : Collection UserProfile :=
  ⟨"profiles.jsonl", by decide +kernel⟩

/-- The text that names the service in a log. -/
def describe : String :=
  s!"ProfileService \x7b profiles: {collection.describe}, .. \x7d"

def create (now : Time.Timestamp) (user displayName : String) (timezone : Option String) :
    Operation UserProfile :=
  collection.create
    { userId := user, displayName, timezone, notes := "", createdAt := now }

def get (user : String) : Operation UserProfile :=
  collection.get user

def updateNotes (user notes : String) : Operation UserProfile :=
  collection.update user notes

def remove (user : String) : Operation UserProfile :=
  collection.remove user

def list (query : Query) : Operation (List UserProfile) :=
  collection.list query

end RoomLedger.Profiles
