import Mathlib.Data.List.Nodup
import RoomLedger.Proofs.Record.Values
import RoomLedger.Record.Basic

/-!
Contract: a row is read from every object that presents it, and from the one that it is
written as.

Owns:
- `Member`, a field with its value, and `Member.entry`, its tokens in an object;
- `Presents`, by which an object holds the members of a row among others;
- `Draft.of`, the draft in which the fields of given names have been met;
- `readMembers_entries`, which reads members in any order and passes over the others;
- `decode?_write`, the round trip of a record.

A draft that has met some names is the row cut down to them, so reading a
member is one more name, and the order of the members plays no part.

Does not own: objects that lack a member or have one twice.
-/

namespace RoomLedger.Record

open RoomLedger.Text (Bytes)
open RoomLedger.Json

/-! ## Members -/

/-- A field with its value. -/
structure Member where
  field : Field
  value : field.type.Value

namespace Member

/-- The member as it is written. -/
def write (member : Member) : Bytes :=
  writeString member.field.name ++ 0x3A :: member.field.type.write member.value

/-- The member stands in the written object. -/
def isWritten (member : Member) : Bool :=
  !member.field.type.isLeftOut member.value

/-- The member among the members of an object, with the tokens of its written value. -/
def entry (member : Member) : Entry :=
  ⟨some member.field.name, Token.lex (member.field.type.write member.value)⟩

private theorem entry_eq (member : Member) :
    member.entry = ⟨some member.field.name, [member.field.type.token member.value]⟩ := by
  rw [entry, FieldType.lex_write]

end Member

/-- Every field with its value. -/
def Row.all : (fields : List Field) → Row fields → List Member
  | [], _ => []
  | field :: others, (value, rest) => ⟨field, value⟩ :: Row.all others rest

/-- The members that stand in the written object. -/
def Row.written (fields : List Field) (row : Row fields) : List Member :=
  (Row.all fields row).filter Member.isWritten

private theorem members_eq_map_write (fields : List Field) (row : Row fields) :
    Row.members fields row = (Row.written fields row).map Member.write := by
  induction fields with
  | nil => rfl
  | cons field others inductionHypothesis =>
      obtain ⟨value, rest⟩ := row
      have later := inductionHypothesis rest
      simp only [Row.written] at later
      cases leftOut : field.type.isLeftOut value with
      | true => simp [Row.members, Row.written, Row.all, Member.isWritten, leftOut, later]
      | false =>
          simp [Row.members, Row.written, Row.all, Member.isWritten, Member.write, leftOut, later]

/-! ## Objects -/

/-- An entry of an object that presents a row: a member of the row, or any value under a name
that no field has. -/
inductive Fits {fields : List Field} (row : Row fields) : Entry → Prop
  | member {member : Member} (found : member ∈ Row.all fields row) : Fits row member.entry
  | other {name : String} {value : List Token} (unknown : name ∉ fields.map Field.name)
      (isValue : IsValue value) :
      Fits row ⟨some name, value⟩

/-- The entries are members of a row, none of them twice, in any order and with others between
them; only members that are spared do not come. -/
structure Presents {fields : List Field} (row : Row fields) (spared : Member → Prop)
    (entries : List Entry) : Prop where
  each : ∀ entry ∈ entries, Fits row entry
  once : ∀ name ∈ fields.map Field.name, (entries.map Entry.name).count (some name) ≤ 1
  covered : ∀ member ∈ Row.all fields row,
    some member.field.name ∈ entries.map Entry.name ∨ spared member

theorem Fits.isValue {fields : List Field} {row : Row fields} {entry : Entry}
    (fits : Fits row entry) :
    IsValue entry.value := by
  cases fits with
  | @member member found =>
      rw [member.entry_eq]
      exact FieldType.isValue_token member.field.type member.value
  | other unknown isValue => exact isValue

/-! ## Lexing -/

/-- A spelling of the name and a spelling of the value lay out a member. -/
theorem Member.laysOut (member : Member) {name value : Bytes}
    (nameSpelled : (Token.text (some member.field.name)).IsSpelled name)
    (valueSpelled : (member.field.type.token member.value).IsSpelled value) :
    LaysOut member.entry.tokens (name ++ 0x3A :: value) := by
  rw [member.entry_eq, ← List.append_nil value]
  exact Entry.laysOut nameSpelled (.token valueSpelled .nil)

theorem Member.laysOut_write (member : Member) : LaysOut member.entry.tokens member.write :=
  member.laysOut (Token.isSpelled_writeString member.field.name)
    (FieldType.isSpelled_write member.field.type member.value)

private theorem joinMembers_eq_joined (members : List Bytes) :
    joinMembers members = Text.joined 0x2C members := by
  induction members with
  | nil => rfl
  | cons member others inductionHypothesis =>
      cases others with
      | nil => rfl
      | cons next others => exact congrArg (member ++ 0x2C :: ·) inductionHypothesis

/-- A written object is a layout of its tokens. -/
theorem laysOut_write (schema : Schema) (row : Row schema.fields) :
    LaysOut (objectTokens ((Row.written schema.fields row).map Member.entry))
      (schema.write row) := by
  rw [Schema.write, members_eq_map_write, joinMembers_eq_joined]
  apply laysOut_objectTokens
  rw [List.map_map, List.forall₂_map_left_iff, List.forall₂_map_right_iff, List.forall₂_same]
  exact fun member _ => member.laysOut_write

/-- What is read of an object depends on its tokens alone. -/
theorem decode_eq_ok_iff {schema : Schema} {row : Row schema.fields} {entries : List Entry}
    {bytes : Bytes} (laysOut : LaysOut (objectTokens entries) bytes)
    (each : ∀ entry ∈ entries, IsValue entry.value) :
    schema.decode bytes = .ok row ↔ schema.read (objectTokens entries) = .ok (row, []) := by
  have divided : Divided (objectTokens entries) :=
    divided_objectTokens fun entry member => (each entry member).divided
  rw [Schema.decode, Json.read, lex_of_laysOut laysOut divided]
  rcases schema.read (objectTokens entries) with fault | ⟨found, left⟩
  · simp
  · cases left with
    | nil => simp
    | cons token others => simp

/-! ## Drafts -/

/-- The draft of a row in which the fields of those names have been met. -/
def Draft.of (met : List String) : (fields : List Field) → Row fields → Draft fields
  | [], _ => ()
  | field :: others, (value, rest) =>
      (if field.name ∈ met then some value else none, Draft.of met others rest)

private theorem Draft.of_nil (fields : List Field) (row : Row fields) :
    Draft.of [] fields row = Draft.empty fields := by
  induction fields with
  | nil => rfl
  | cons field others inductionHypothesis =>
      obtain ⟨value, rest⟩ := row
      rw [Draft.of, Draft.empty, inductionHypothesis, if_neg List.not_mem_nil]

/-- A name that none of the fields has makes no difference. -/
theorem Draft.of_cons_of_not_mem {name : String} {fields : List Field}
    (unknown : name ∉ fields.map Field.name) (met : List String) (row : Row fields) :
    Draft.of (name :: met) fields row = Draft.of met fields row := by
  induction fields with
  | nil => rfl
  | cons field others inductionHypothesis =>
      obtain ⟨value, rest⟩ := row
      simp only [List.map_cons, List.mem_cons, not_or] at unknown
      have apart : field.name ≠ name := fun same => unknown.1 same.symm
      simp only [Draft.of, List.mem_cons, apart, false_or, inductionHypothesis unknown.2 rest]

theorem field_mem_of_mem_all {fields : List Field} {row : Row fields} {member : Member}
    (found : member ∈ Row.all fields row) :
    member.field ∈ fields := by
  induction fields with
  | nil => cases found
  | cons field others inductionHypothesis =>
      obtain ⟨value, rest⟩ := row
      rcases List.mem_cons.mp found with rfl | later
      · exact List.mem_cons_self
      · exact List.mem_cons_of_mem _ (inductionHypothesis later)

private theorem Row.map_name_all (fields : List Field) (row : Row fields) :
    (Row.all fields row).map (fun member => member.field.name) = fields.map Field.name := by
  induction fields with
  | nil => rfl
  | cons field others inductionHypothesis =>
      obtain ⟨value, rest⟩ := row
      simp [Row.all, inductionHypothesis]

/-- Reading a member of the row that is new meets one more name. -/
theorem Draft.readMember_of {fields : List Field} {row : Row fields} {met : List String}
    {member : Member} (distinct : (fields.map Field.name).Nodup)
    (found : member ∈ Row.all fields row) (isNew : member.field.name ∉ met) (left : List Token) :
    Draft.readMember fields (Draft.of met fields row) member.field.name
        (.colon :: member.field.type.token member.value :: left) =
      some (.ok (Draft.of (member.field.name :: met) fields row, left)) := by
  induction fields with
  | nil => cases found
  | cons field others inductionHypothesis =>
      obtain ⟨value, rest⟩ := row
      obtain ⟨notLater, distinctOthers⟩ := List.nodup_cons.mp distinct
      rcases List.mem_cons.mp found with rfl | later
      · simp only [Draft.of, isNew, if_false, Draft.readMember, if_true, FieldType.read_token,
          List.mem_cons_self, Draft.of_cons_of_not_mem notLater]
      · have apart : field.name ≠ member.field.name := by
          intro same
          apply notLater
          rw [same]
          exact List.mem_map_of_mem (field_mem_of_mem_all later)
        simp only [Draft.of, Draft.readMember, apart, if_false,
          inductionHypothesis distinctOthers later, List.mem_cons, false_or]

/-- The row of a draft in which every member was met or is its fallback. -/
theorem Draft.complete_of {fields : List Field} {row : Row fields} {met : List String}
    (covered : ∀ member ∈ Row.all fields row,
      member.field.name ∈ met ∨ member.field.fallback = some member.value) :
    Draft.complete fields (Draft.of met fields row) = .ok row := by
  induction fields with
  | nil => rfl
  | cons field others inductionHypothesis =>
      obtain ⟨value, rest⟩ := row
      have later : Draft.complete others (Draft.of met others rest) = .ok rest :=
        inductionHypothesis fun member found => covered member (List.mem_cons_of_mem _ found)
      have chosen : (if field.name ∈ met then some value else none).or field.fallback =
          some value := by
        rcases covered ⟨field, value⟩ List.mem_cons_self with isMet | fallback
        · rw [if_pos isMet]
          rfl
        · split
          · rfl
          · exact fallback
      simp only [Draft.of, Draft.complete, chosen, later]

/-! ## Reading -/

/-- Exactly the names that none of the fields has are read by no field. -/
theorem Draft.readMember_eq_none_iff {name : String} {fields : List Field} (draft : Draft fields)
    (tokens : List Token) :
    Draft.readMember fields draft name tokens = none ↔ name ∉ fields.map Field.name := by
  induction fields with
  | nil => simp [Draft.readMember]
  | cons field others inductionHypothesis =>
      obtain ⟨found, rest⟩ := draft
      have later := inductionHypothesis rest
      by_cases same : field.name = name
      · subst same
        simp only [Draft.readMember, if_true, List.map_cons, List.mem_cons, true_or, not_true,
          iff_false]
        split
        · nofun
        · split <;> nofun
        · nofun
      · have apart : name ≠ field.name := fun equal => same equal.symm
        simp only [Draft.readMember, same, if_false, List.map_cons, List.mem_cons, apart, false_or,
          ← later]
        split <;> simp_all

private theorem Draft.readAnyMember_of_not_mem {name : String} {fields : List Field}
    {value : List Token} (unknown : name ∉ fields.map Field.name) (isValue : IsValue value)
    (draft : Draft fields) (left : List Token) :
    Draft.readAnyMember fields draft name (.colon :: (value ++ left)) = .ok (draft, left) := by
  simp only [Draft.readAnyMember, (Draft.readMember_eq_none_iff draft _).mpr unknown,
    isValue.skipValue_append]

/-- One entry behind a comma. -/
theorem readMembers_comma (fields : List Field) (fuel : Nat) (draft : Draft fields) (entry : Entry)
    (left : List Token) :
    readMembers fields (fuel + 1) false draft (.comma :: (entry.tokens ++ left)) =
      match entry.name with
      | none => .error .malformed
      | some name =>
          match draft.readAnyMember fields name (.colon :: (entry.value ++ left)) with
          | .error fault => .error fault
          | .ok (next, rest) => readMembers fields fuel false next rest := by
  obtain ⟨name, value⟩ := entry
  cases name with
  | none => rfl
  | some name => rfl

/-- Entries that present the row, behind those whose names have been met, give the row. -/
theorem readMembers_entries {fields : List Field} {row : Row fields} {entries : List Entry}
    {met : List String} {fuel : Nat} (distinct : (fields.map Field.name).Nodup)
    (each : ∀ entry ∈ entries, Fits row entry)
    (once : ∀ name ∈ fields.map Field.name,
      (met.map some ++ entries.map Entry.name).count (some name) ≤ 1)
    (covered : ∀ member ∈ Row.all fields row,
      some member.field.name ∈ met.map some ++ entries.map Entry.name ∨
        member.field.fallback = some member.value)
    (enough : entries.length < fuel) (rest : List Token) :
    readMembers fields fuel false (Draft.of met fields row)
        ((entries.map Entry.tokens).flatMap (.comma :: ·) ++ .closeBrace :: rest) =
      .ok (row, rest) := by
  -- Each entry moves its name from those that come to those that were met, which the count of
  -- both does not notice; a name that no field has is in no count.
  induction entries generalizing met fuel with
  | nil =>
      obtain ⟨fuel, rfl⟩ : ∃ before, fuel = before + 1 := ⟨fuel - 1, by simp at enough; omega⟩
      have complete : Draft.complete fields (Draft.of met fields row) = .ok row :=
        Draft.complete_of fun member found => by simpa using covered member found
      show readMembers fields (fuel + 1) false _ (.closeBrace :: rest) = _
      simp only [readMembers, complete]
  | cons entry others inductionHypothesis =>
      obtain ⟨fuel, rfl⟩ : ∃ before, fuel = before + 1 := ⟨fuel - 1, by simp at enough; omega⟩
      have eachOther : ∀ other ∈ others, Fits row other :=
        fun other member => each other (List.mem_cons_of_mem _ member)
      have moved : (met.map some ++ (entry :: others).map Entry.name).Perm
          (entry.name :: (met.map some ++ others.map Entry.name)) := List.perm_middle
      simp only [moved.count_eq] at once
      simp only [moved.mem_iff] at covered
      rw [List.map_cons, List.flatMap_cons, List.cons_append, List.cons_append, List.append_assoc,
        readMembers_comma]
      cases each entry List.mem_cons_self with
      | @member member found =>
          rw [member.entry_eq] at once covered ⊢
          have known : member.field.name ∈ fields.map Field.name :=
            List.mem_map_of_mem (field_mem_of_mem_all found)
          have isNew : member.field.name ∉ met := by
            intro isMet
            have twice := once _ known
            have behind : some member.field.name ∈ met.map some ++ others.map Entry.name :=
              List.mem_append_left _ (List.mem_map_of_mem isMet)
            have counted := List.count_pos_iff.mpr behind
            rw [List.count_cons_self] at twice
            omega
          have read := Draft.readMember_of distinct found isNew
            ((others.map Entry.tokens).flatMap (.comma :: ·) ++ .closeBrace :: rest)
          have later : readMembers fields fuel false
              (Draft.of (member.field.name :: met) fields row)
              ((others.map Entry.tokens).flatMap (.comma :: ·) ++ .closeBrace :: rest) =
                .ok (row, rest) :=
            inductionHypothesis eachOther once covered (by simp at enough; omega)
          simp only [List.cons_append, List.nil_append, Draft.readAnyMember, read, later]
      | @other name value unknown isValue =>
          have later : readMembers fields fuel false (Draft.of met fields row)
              ((others.map Entry.tokens).flatMap (.comma :: ·) ++ .closeBrace :: rest) =
                .ok (row, rest) := by
            refine inductionHypothesis eachOther ?once ?covered (by simp at enough; omega)
            case once =>
              intro known member
              have apart : some name ≠ some known := by
                intro same
                cases same
                exact unknown member
              have counted := once known member
              rwa [List.count_cons_of_ne apart] at counted
            case covered =>
              intro member found
              rcases covered member found with comes | fallback
              · rcases List.mem_cons.mp comes with same | behind
                · cases same
                  exact absurd (List.mem_map_of_mem (field_mem_of_mem_all found)) unknown
                · exact .inl behind
              · exact .inr fallback
          simp only [Draft.readAnyMember_of_not_mem unknown isValue, later]

private theorem readMembers_joined (fields : List Field) (fuel : Nat) (draft : Draft fields)
    (entries : List Entry) (rest : List Token) :
    readMembers fields fuel true draft
        (Text.joined .comma (entries.map Entry.tokens) ++ .closeBrace :: rest) =
      readMembers fields fuel false draft
        ((entries.map Entry.tokens).flatMap (.comma :: ·) ++ .closeBrace :: rest) := by
  cases entries with
  | nil => cases fuel <;> rfl
  | cons entry others =>
      rw [List.map_cons, Text.joined_cons_eq_append_flatMap]
      obtain ⟨name, value⟩ := entry
      cases fuel with
      | zero => rfl
      | succ fuel => cases name <;> rfl

private theorem length_le_length_joined (entries : List Entry) :
    entries.length ≤ (Text.joined .comma (entries.map Entry.tokens)).length := by
  induction entries with
  | nil => exact Nat.zero_le _
  | cons entry others inductionHypothesis =>
      by_cases alone : others = []
      · subst alone
        exact Nat.succ_le_succ (Nat.zero_le _)
      · rw [List.map_cons, Text.joined_cons (by simpa using alone)]
        simp only [List.length_cons, List.length_append]
        omega

/-- An object is read member by member, with a number of steps that suffices. -/
theorem read_objectTokens (schema : Schema) (entries : List Entry) :
    ∃ fuel, entries.length < fuel ∧
      schema.read (objectTokens entries) =
        readMembers schema.fields fuel false (Draft.empty schema.fields)
          ((entries.map Entry.tokens).flatMap (.comma :: ·) ++ [.closeBrace]) := by
  refine ⟨_, ?enough, readMembers_joined schema.fields _ _ entries []⟩
  case enough =>
    have length := length_le_length_joined entries
    show entries.length < (Text.joined Token.comma _ ++ [Token.closeBrace]).length + 1
    rw [List.length_append]
    omega

/-- A row is read from the tokens of an object that presents it. -/
theorem read_of_presents {schema : Schema} {row : Row schema.fields} {entries : List Entry}
    (distinct : (schema.fields.map Field.name).Nodup)
    (presents : Presents row (fun member => member.field.fallback = some member.value) entries) :
    schema.read (objectTokens entries) = .ok (row, []) := by
  obtain ⟨fuel, enough, read⟩ := read_objectTokens schema entries
  rw [read, ← Draft.of_nil schema.fields row]
  apply readMembers_entries distinct presents.each
  case once => exact presents.once
  case covered => exact presents.covered
  case enough => exact enough

/-- A member that is left out is its fallback. -/
theorem Field.fallback_of_isLeftOut {field : Field} {value : field.type.Value}
    (restores : field.restores = true) (leftOut : field.type.isLeftOut value = true) :
    field.fallback = some value := by
  obtain ⟨name, type, fallback⟩ := field
  cases type <;> simp only [FieldType.isLeftOut, Bool.false_eq_true] at leftOut
  have none : value = none := by simpa using leftOut
  rw [none]
  simpa [Field.restores] using restores

/-- A row is presented by the object that it is written as. -/
theorem presents_written {schema : Schema} (sound : schema.isSound = true)
    (row : Row schema.fields) :
    Presents row (fun member => member.field.fallback = some member.value)
      ((Row.written schema.fields row).map Member.entry) := by
  simp only [Schema.isSound, Bool.and_eq_true, decide_eq_true_eq, List.all_eq_true] at sound
  obtain ⟨distinct, restores⟩ := sound
  have names : ((Row.written schema.fields row).map Member.entry).map Entry.name =
      ((Row.written schema.fields row).map fun member => member.field.name).map some := by
    rw [List.map_map, List.map_map]
    rfl
  constructor
  case each =>
    intro entry member
    obtain ⟨written, found, rfl⟩ := List.mem_map.mp member
    exact .member (List.mem_filter.mp found).1
  case once =>
    have all : ((Row.all schema.fields row).map fun member => member.field.name).Nodup := by
      rw [Row.map_name_all]
      exact distinct
    have once : ((Row.written schema.fields row).map fun member => member.field.name).Nodup :=
      all.sublist (List.filter_sublist.map _)
    intro name _
    rw [names]
    exact List.nodup_iff_count_le_one.mp (once.map fun _ _ same => Option.some.inj same) (some name)
  case covered =>
    intro member found
    rw [names]
    cases leftOut : member.field.type.isLeftOut member.value with
    | true =>
        exact Or.inr (Field.fallback_of_isLeftOut (restores _ (field_mem_of_mem_all found)) leftOut)
    | false =>
        have written : member ∈ Row.written schema.fields row :=
          List.mem_filter.mpr ⟨found, by simp [Member.isWritten, leftOut]⟩
        exact Or.inl (List.mem_map_of_mem (List.mem_map.mpr ⟨member, written, rfl⟩))

/-- A row is read back from its object. -/
theorem decode_write {schema : Schema} (sound : schema.isSound = true) (row : Row schema.fields) :
    schema.decode (schema.write row) = .ok row := by
  have distinct : (schema.fields.map Field.name).Nodup := by
    simp only [Schema.isSound, Bool.and_eq_true, decide_eq_true_eq] at sound
    exact sound.1
  have presents := presents_written sound row
  have values : ∀ entry ∈ (Row.written schema.fields row).map Member.entry, IsValue entry.value :=
    fun entry member => (presents.each entry member).isValue
  exact (decode_eq_ok_iff (laysOut_write schema row) values).mpr
    (read_of_presents distinct presents)

/-! ## The bytes of an object -/

private theorem Member.space_le_of_mem_write {member : Member} {byte : UInt8}
    (found : byte ∈ member.write) :
    0x20 ≤ byte := by
  simp only [write, List.mem_append, List.mem_cons] at found
  rcases found with name | rfl | value
  · exact space_le_of_mem_writeString name
  · decide
  · exact FieldType.space_le_of_mem_write value

private theorem space_le_of_mem_joinMembers {members : List Member} {byte : UInt8}
    (found : byte ∈ joinMembers (members.map Member.write)) :
    0x20 ≤ byte := by
  induction members with
  | nil => cases found
  | cons member others inductionHypothesis =>
      cases others with
      | nil => exact Member.space_le_of_mem_write found
      | cons next others =>
          simp only [List.map_cons, joinMembers, List.mem_append, List.mem_cons] at found
          rcases found with first | rfl | later
          · exact Member.space_le_of_mem_write first
          · decide
          · exact inductionHypothesis later

/-- A written object holds no control. -/
theorem space_le_of_mem_write {schema : Schema} {row : Row schema.fields} {byte : UInt8}
    (found : byte ∈ schema.write row) :
    0x20 ≤ byte := by
  simp only [Schema.write, members_eq_map_write, List.cons_append, List.mem_cons,
    List.mem_append, List.not_mem_nil, or_false] at found
  rcases found with rfl | members | rfl
  · decide
  · exact space_le_of_mem_joinMembers members
  · decide

/-- A written object is a text between two braces. -/
theorem write_eq (schema : Schema) (row : Row schema.fields) :
    ∃ inner, schema.write row = 0x7B :: (inner ++ [0x7D]) :=
  ⟨_, rfl⟩

/-! ## Records -/

/-- A record is read back from its line. -/
theorem decode?_write {R : Type} [Record R] (record : R) : decode? (write record) = .ok record := by
  have row := decode_write (Record.isSound_schema (R := R)) (toRow record)
  simp only [decode?, write, row, ofRow_toRow]

end RoomLedger.Record
