import RoomLedger.Record.Schema

/-!
Contract: what a collection asks of a kind of record.

Owns:
- `Record`, the class of kinds: a stored form, a key, an owner, a time, one
  field that may change, and a check that new records must pass;
- `Flaw`, the causes for which the check fails, and their wording;
- `Record.write` and `Record.decode?`, a record as a line of JSON;
- the checks that several kinds share.

Does not own: the kinds, and what a collection does with them.
-/

namespace RoomLedger

open RoomLedger.Text (Bytes)

/-- Why a record must not be added. -/
inductive Flaw where
  /-- A field that holds nothing but white space. -/
  | blank (field : String)
  /-- A field with a slash, which would make a composite key ambiguous. -/
  | slash (field : String)
  | noCapacity
  /-- An event that does not begin before it ends. -/
  | endsTooEarly
  /-- A content type without a slash. -/
  | notMimeType (contentType : String)
deriving DecidableEq, Repr

def Flaw.message : Flaw → String
  | .blank field => s!"{field} must not be blank"
  | .slash field => s!"{field} must not contain '/'"
  | .noCapacity => "capacity must be positive"
  | .endsTooEarly => "start_time must be before end_time"
  | .notMimeType contentType => s!"content_type {Text.quoted contentType} is not a MIME type"

/-- A kind of record that a collection can keep. -/
class Record (R : Type) where
  /-- What messages call a record of the kind. -/
  kind : String
  /-- The stored form. -/
  schema : Record.Schema
  toRow : R → Record.Row schema.fields
  ofRow : Record.Row schema.fields → R
  /-- What tells a record from the others of its collection. -/
  key : R → String
  /-- The user that the record belongs to. -/
  owner : R → String
  /-- The time by which records are selected and ordered. -/
  timestamp : R → Time.Timestamp
  /-- The name of the one field that may change. -/
  amendable : String
  /-- The record with a new value in that field. -/
  amend : (value : String) → R → R
  /-- What a new record must satisfy. -/
  check : R → Except Flaw Unit
  ofRow_toRow : ∀ record, ofRow (toRow record) = record
  toRow_ofRow : ∀ row, toRow (ofRow row) = row
  isSound_schema : schema.isSound = true
  toRow_amend :
    ∀ value record,
      toRow (amend value record) = Record.Row.setText amendable value schema.fields (toRow record)
  key_amend : ∀ value record, key (amend value record) = key record
  owner_amend : ∀ value record, owner (amend value record) = owner record
  timestamp_amend : ∀ value record, timestamp (amend value record) = timestamp record

namespace Record

variable {R : Type} [Record R]

attribute [simp] ofRow_toRow toRow_ofRow key_amend owner_amend timestamp_amend

/-- A record as a line of JSON, without the end of the line. -/
def write (record : R) : Bytes :=
  Schema.write (schema (R := R)) (toRow record)

def decode? (bytes : Bytes) : Except Json.Fault R :=
  match Schema.decode (schema (R := R)) bytes with
  | .ok row => .ok (ofRow row)
  | .error fault => .error fault

/-- A field must hold more than white space. -/
def require (field value : String) : Except Flaw Unit :=
  if Text.blank value then .error (.blank field) else .ok ()

/-- A field that is a part of a composite key must hold more than white space,
and no slash. -/
def requireKeyPart (field value : String) : Except Flaw Unit :=
  match require field value with
  | .error flaw => .error flaw
  | .ok () => if value.toList.contains '/' then .error (.slash field) else .ok ()

@[simp] theorem require_eq_ok_iff {field value : String} :
    require field value = .ok () ↔ Text.blank value = false := by
  unfold require
  split <;> simp_all

end Record

end RoomLedger
