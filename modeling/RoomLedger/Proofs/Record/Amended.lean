import RoomLedger.Record.Basic

/-!
Contract: the line of a record whose one mutable field got another value.

Owns:
- `textMember` and `object`, a member with a text and an object of members;
- `hasText`, a list of fields with a text of that name among them;
- `DiffersInText`, lines that differ in the text of one member;
- `differsInText_amend`, by which an amended record is written as such a line.

Members before and after the field are written as they were, and so are those that
are left out, since another value of a text never makes a member come or go.

Does not own: where the line stands in a blob.
-/

namespace RoomLedger.Record

open RoomLedger.Json
open RoomLedger.Text (Bytes)

/-- A member of an object that has a text as its value. -/
def textMember (name value : String) : Bytes :=
  writeString name ++ 0x3A :: writeString value

/-- An object of members that have been written. -/
def object (members : List Bytes) : Bytes :=
  0x7B :: joinMembers members ++ [0x7D]

/-- A text field of that name is among the fields. -/
def hasText (name : String) (fields : List Field) : Bool :=
  fields.any fun field => field.name = name && field.type = .text

/-- Two lines are objects of the same members, but for the text of that name, which has
that value in the second. -/
def DiffersInText (name value : String) (line other : Bytes) : Prop :=
  ∃ front back old,
    line = object (front ++ textMember name old :: back) ∧
    other = object (front ++ textMember name value :: back)

/-- A field that is no text of that name keeps its value. -/
theorem setText_cons_of_not {name : String} {field : Field}
    (apart : (field.name = name && field.type = .text) = false) (value : String)
    {others : List Field} (old : field.type.Value) (rest : Row others) :
    Row.setText name value (field :: others) (old, rest) =
      (old, Row.setText name value others rest) := by
  obtain ⟨fieldName, type, fallback⟩ := field
  cases type with
  | text =>
      have different : fieldName ≠ name := by simpa using apart
      rw [Row.setText, if_neg different]
  | optionalText => rfl
  | flag => rfl
  | count32 => rfl
  | count64 => rfl
  | timestamp => rfl
  | role => rfl
  | memberRole => rfl

/-- The members of a row before and after one of its texts got another value. -/
theorem members_setText {name : String} (value : String) {fields : List Field}
    (isText : hasText name fields = true) (row : Row fields) :
    ∃ front back old,
      Row.members fields row = front ++ textMember name old :: back ∧
      Row.members fields (Row.setText name value fields row) =
        front ++ textMember name value :: back := by
  induction fields with
  | nil => cases isText
  | cons field others inductionHypothesis =>
      obtain ⟨old, rest⟩ := row
      by_cases here : (field.name = name && field.type = .text) = true
      · obtain ⟨fieldName, type, fallback⟩ := field
        simp only [Bool.and_eq_true, decide_eq_true_eq] at here
        obtain ⟨rfl, rfl⟩ := here
        refine ⟨[], Row.members others rest, old, rfl, ?_⟩
        rw [Row.setText, if_pos rfl]
        rfl
      · rw [Bool.not_eq_true] at here
        rw [hasText, List.any_cons, here, Bool.false_or] at isText
        obtain ⟨front, back, text, before, after⟩ := inductionHypothesis isText rest
        rw [setText_cons_of_not here value old rest]
        simp only [Row.members, before, after]
        cases field.type.isLeftOut old with
        | true => exact ⟨front, back, text, rfl, rfl⟩
        | false => exact ⟨_ :: front, back, text, rfl, rfl⟩

/-- An amended record is written as before but for the text of its mutable field. -/
theorem differsInText_amend {R : Type} [Record R]
    (isText : hasText (Record.amendable R) (Record.schema (R := R)).fields = true) (value : String)
    (record : R) :
    DiffersInText (Record.amendable R) value (Record.write record)
      (Record.write (Record.amend value record)) := by
  obtain ⟨front, back, old, before, after⟩ :=
    members_setText value isText (Record.toRow record)
  refine ⟨front, back, old, ?_, ?_⟩
  · rw [Record.write, Schema.write, before, object]
  · rw [Record.write, Schema.write, Record.toRow_amend, after, object]

end RoomLedger.Record
