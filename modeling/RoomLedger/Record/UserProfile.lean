import RoomLedger.Record.Basic

/-!
Contract: what is remembered about users.

Owns: `UserProfile` and its stored form. The notes are the field that may
change; a profile without a time zone has no member for it.

Does not own: which names of time zones there are.
-/

namespace RoomLedger

open Record

/-- What is remembered about a user. -/
structure UserProfile where
  userId : String
  displayName : String
  /-- The name of the zone in which the user wants to see times. -/
  timezone : Option String
  notes : String
  createdAt : Time.Timestamp
deriving DecidableEq, Repr

namespace UserProfile

def schema : Schema where
  name := "UserProfile"
  fields := [
    .required "user_id" .text,
    .required "display_name" .text,
    .withFallback "timezone" .optionalText none,
    .withFallback "notes" .text "",
    .required "created_at" .timestamp]

def toRow (profile : UserProfile) : Row schema.fields :=
  (profile.userId, profile.displayName, profile.timezone, profile.notes, profile.createdAt, ())

def ofRow : Row schema.fields → UserProfile
  | (userId, displayName, timezone, notes, createdAt, ()) =>
      { userId, displayName, timezone, notes, createdAt }

def check (profile : UserProfile) : Except Flaw Unit :=
  require "display_name" profile.displayName

instance : Record UserProfile where
  kind := "profile"
  schema := schema
  toRow := toRow
  ofRow := ofRow
  key := userId
  owner := userId
  timestamp := createdAt
  amendable := "notes"
  amend value profile := { profile with notes := value }
  check := check
  ofRow_toRow _ := rfl
  toRow_ofRow _ := rfl
  isSound_schema := by decide
  toRow_amend _ _ := by simp [Row.setText, schema, toRow, Field.required, Field.withFallback]
  key_amend _ _ := rfl
  owner_amend _ _ := rfl
  timestamp_amend _ _ := rfl

end UserProfile

end RoomLedger
