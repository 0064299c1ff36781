import RoomLedger.Proofs.Collection.Concatenation
import RoomLedger.Proofs.Record.Accounted
import RoomLedger.Record.Event
import RoomLedger.Record.GroupMember
import RoomLedger.Record.HistoryEntry
import RoomLedger.Record.MediaItem

/-!
Contract: lines that were written by hand, or by another version of the program.

Owns:
- `ReadsObjects`, by which a kind reads every object that presents a record and rejects the
  objects that lack a member or have one twice;
- `handwritten_lines_are_read`, for each kind with the members that may be missing.

Which members may be missing is told by the fields that have a fallback, so the five kinds
differ in a table alone.

Does not own: which fault a rejected line has.
-/

namespace RoomLedger.Collection

open RoomLedger.Text (Bytes)
open RoomLedger.Json
open RoomLedger.Record (Field Fits Member Presents Row Schema)

/-! ## Members that may be missing -/

/-- The values that stand for missing members, as they are written. -/
def fallbacks (schema : Schema) : List (String × Bytes) :=
  schema.fields.filterMap fun field =>
    field.fallback.map fun value => (field.name, field.type.write value)

private theorem fallback_of_mem_fallbacks {schema : Schema} {field : Field}
    {value : field.type.Value} (distinct : (schema.fields.map Field.name).Nodup)
    (known : field ∈ schema.fields)
    (listed : (field.name, field.type.write value) ∈ fallbacks schema) :
    field.fallback = some value := by
  obtain ⟨other, otherKnown, chosen⟩ := List.mem_filterMap.mp listed
  obtain ⟨standing, fallback, same⟩ := Option.map_eq_some_iff.mp chosen
  obtain ⟨sameName, sameBytes⟩ := Prod.mk.inj same
  obtain rfl : other = field := List.inj_on_of_nodup_map distinct otherKnown known sameName
  rw [fallback, Record.FieldType.write_injective sameBytes]

private theorem fallback_eq_none_of_not_mem {schema : Schema} {field : Field}
    (known : field ∈ schema.fields) (unlisted : field.name ∉ (fallbacks schema).map Prod.fst) :
    field.fallback = none := by
  cases fallback : field.fallback with
  | none => rfl
  | some value =>
      have listed : (field.name, field.type.write value) ∈ fallbacks schema :=
        List.mem_filterMap.mpr ⟨field, known, by rw [fallback]; rfl⟩
      exact absurd (List.mem_map_of_mem listed) unlisted

/-! ## Objects on lines -/

variable {R : Type} [Record R]

/-- How a kind of records reads lines that are objects. `defaults` are the members that may be
missing, each with the value that it then has. -/
structure ReadsObjects (R : Type) [Record R] (defaults : List (String × Bytes)) : Prop where
  /-- Members of a record, each once and in any order, among any members of other names and
  with any white space, are read as that record. -/
  reads :
    ∀ (record : R) (entries : List Entry) (line : Bytes),
      newline ∉ line →
      LaysOut (objectTokens entries) line →
      Presents (Record.toRow record)
        (fun member => (member.field.name, member.field.type.write member.value) ∈ defaults)
        entries →
      decode line = .ok [record]
  /-- An object that lacks a member which must not be missing, or has a member of the record
  twice, is rejected, whatever the values are. -/
  rejects :
    ∀ (entries : List Entry) (line : Bytes),
      newline ∉ line →
      LaysOut (objectTokens entries) line →
      (∀ entry ∈ entries, IsValue entry.value) →
      ∀ field ∈ (Record.schema (R := R)).fields,
        (field.name ∉ defaults.map Prod.fst ∧ some field.name ∉ entries.map Entry.name) ∨
          2 ≤ (entries.map Entry.name).count (some field.name) →
        ∃ fault, (decode line : Except LineFault (List R)) = .error ⟨1, fault⟩

private theorem openBrace_mem_of_laysOut {tokens others : List Token} {line : Bytes}
    (laysOut : LaysOut tokens line) (opens : tokens = .openBrace :: others) :
    0x7B ∈ line := by
  induction laysOut with
  | nil => cases opens
  | space _ _ inductionHypothesis => exact List.mem_cons_of_mem _ (inductionHypothesis opens)
  | token spelled _ _ =>
      obtain ⟨rfl, -⟩ := List.cons.inj opens
      apply List.mem_append_left
      cases spelled with
      | @mark _ byte listed =>
          have brace : byte = 0x7B := by simpa [marks] using listed
          exact List.mem_singleton.mpr brace.symm
      | word listed => simp [words] at listed

private theorem isEmptyLine_of_laysOut {entries : List Entry} {line : Bytes}
    (laysOut : LaysOut (objectTokens entries) line) :
    isEmptyLine line = false := by
  apply List.all_eq_false.mpr
  exact ⟨0x7B, openBrace_mem_of_laysOut laysOut rfl, by decide⟩

/-- What a line with an object by itself is read as. -/
theorem decode_of_laysOut {entries : List Entry} {line : Bytes} (single : newline ∉ line)
    (laysOut : LaysOut (objectTokens entries) line) :
    (decode line : Except LineFault (List R)) =
      ((Record.decode? line).map fun record => [record]).mapError (LineFault.mk 1) := by
  rw [decode_of_single single, readLine_eq, isEmptyLine_of_laysOut laysOut]
  rfl

/-- Every kind reads objects in which members with a fallback may be missing. -/
theorem readsObjects_fallbacks : ReadsObjects R (fallbacks (Record.schema (R := R))) := by
  have distinct : ((Record.schema (R := R)).fields.map Field.name).Nodup := by
    have sound := Record.isSound_schema (R := R)
    simp only [Schema.isSound, Bool.and_eq_true, decide_eq_true_eq] at sound
    exact sound.1
  constructor
  case reads =>
    intro record entries line single laysOut presents
    have covered : Presents (Record.toRow record)
        (fun member => member.field.fallback = some member.value) entries := by
      refine ⟨presents.each, presents.once, fun member found => ?_⟩
      rcases presents.covered member found with comes | listed
      · exact .inl comes
      · exact .inr (fallback_of_mem_fallbacks distinct (Record.field_mem_of_mem_all found) listed)
    have row : Schema.decode (Record.schema (R := R)) line = .ok (Record.toRow record) :=
      (Record.decode_eq_ok_iff laysOut fun entry member => (presents.each entry member).isValue).mpr
        (Record.read_of_presents distinct covered)
    rw [decode_of_laysOut single laysOut, Record.decode?, row]
    simp only [Record.ofRow_toRow]
    rfl
  case rejects =>
    intro entries line single laysOut values field known fails
    rw [decode_of_laysOut single laysOut, Record.decode?]
    cases read : Schema.decode (Record.schema (R := R)) line with
    | error fault => exact ⟨fault, rfl⟩
    | ok row =>
        have tokens := (Record.decode_eq_ok_iff laysOut values).mp read
        obtain ⟨present, once⟩ := Record.accounted_of_read distinct values tokens
        rcases fails with ⟨unlisted, missing⟩ | twice
        · exact absurd (present field known (fallback_eq_none_of_not_mem known unlisted)) missing
        · have atMostOnce := once field known
          omega

/-- Lines of every kind are read, however their objects are laid out and ordered and whatever
other members they have; the members with a default may be missing, and no others. -/
theorem handwritten_lines_are_read :
    ReadsObjects Event [] ∧
    ReadsObjects HistoryEntry [] ∧
    ReadsObjects UserProfile [("timezone", Text.bytes "null"), ("notes", Text.bytes "\"\"")] ∧
    ReadsObjects MediaItem [("caption", Text.bytes "\"\"")] ∧
    ReadsObjects GroupMember [("role", Text.bytes "\"member\"")] := by
  refine ⟨readsObjects_fallbacks, readsObjects_fallbacks, ?profile, ?item, ?member⟩
  case profile => exact readsObjects_fallbacks
  case item => exact readsObjects_fallbacks
  case member => exact readsObjects_fallbacks

/-- A member of a group, with an unknown array among its members, its name spelled by a number
and no level. -/
def respelledMember : Bytes :=
  Text.bytes (" \x7b\"joined_at\":\"2016-12-31T23:59:60.500+01:30\", \"mood\":[null,1]," ++
    "\"nickname\":\"\\u0041da\",\"user_id\":\"u-1\",\"chat_room_id\":\"r-1\"\x7d")

/-- The member of that line. -/
def sampleMember : GroupMember where
  chatRoomId := "r-1"
  userId := "u-1"
  nickname := "Ada"
  role := .member
  joinedAt := sampleProfile.createdAt

/-- The members of that line. -/
def sampleEntries : List Entry :=
  [Member.entry ⟨.required "joined_at" .timestamp, sampleMember.joinedAt⟩,
    ⟨some "mood", arrayTokens [[.null], [.number (.ofNat 1)]]⟩,
    Member.entry ⟨.required "nickname" .text, "Ada"⟩,
    Member.entry ⟨.required "user_id" .text, "u-1"⟩,
    Member.entry ⟨.required "chat_room_id" .text, "r-1"⟩]

private theorem laysOut_respelledMember : LaysOut (objectTokens sampleEntries) respelledMember := by
  have joinedAt := Member.laysOut_write ⟨.required "joined_at" .timestamp, sampleMember.joinedAt⟩
  have array : LaysOut (arrayTokens [[.null], [.number (.ofNat 1)]])
      (0x5B :: (Text.bytes "null" ++ 0x2C :: (Decimal.asciiBytes 1 ++ [0x5D]))) :=
    laysOut_mark (by decide) (.token (.word (by decide)) (laysOut_mark (by decide)
      (.token (Token.isSpelled_asciiBytes 1) (laysOut_mark (by decide) .nil))))
  have mood : LaysOut (Entry.tokens ⟨some "mood", arrayTokens [[.null], [.number (.ofNat 1)]]⟩)
      (0x20 :: (writeString "mood" ++ 0x3A :: _)) :=
    .space (by decide) (Entry.laysOut (Token.isSpelled_writeString "mood") array)
  have letters : List.Forall₂ CharacterIsSpelled ['A', 'd', 'a']
      [[0x5C, 0x75, 0x30, 0x30, 0x34, 0x31], [0x64], [0x61]] :=
    .cons (.unit (by decide)) (.cons (characterIsSpelled_flatMap_escapeByte 'd')
      (.cons (characterIsSpelled_flatMap_escapeByte 'a') .nil))
  have ada : Token.IsSpelled (.text (some "Ada")) _ := Token.isSpelled_text letters
  have nickname := Member.laysOut ⟨.required "nickname" .text, "Ada"⟩
    (Token.isSpelled_writeString "nickname") ada
  have userId := Member.laysOut_write ⟨.required "user_id" .text, "u-1"⟩
  have room := Member.laysOut_write ⟨.required "chat_room_id" .text, "r-1"⟩
  have each : List.Forall₂ LaysOut (sampleEntries.map Entry.tokens) [_, _, _, _, _] :=
    .cons joinedAt (.cons mood (.cons nickname (.cons userId (.cons room .nil))))
  have line : LaysOut (objectTokens sampleEntries) (0x20 :: _) :=
    .space (by decide) (laysOut_objectTokens each)
  refine (congrArg (LaysOut (objectTokens sampleEntries)) ?spelling).mp line
  case spelling => decide +kernel

/-- The line is read, and an object without members is not. -/
theorem handwritten_lines_are_read_of_respelled_member :
    decode respelledMember = .ok [sampleMember] ∧
      ∃ fault, (decode [0x7B, 0x7D] : Except LineFault (List GroupMember)) =
        .error ⟨1, fault⟩ := by
  obtain ⟨-, -, -, -, reads, rejects⟩ := handwritten_lines_are_read
  constructor
  · apply reads sampleMember sampleEntries respelledMember (by decide +kernel)
      laysOut_respelledMember
    constructor
    case each =>
      intro entry member
      simp only [sampleEntries, List.mem_cons, List.not_mem_nil, or_false] at member
      rcases member with rfl | rfl | rfl | rfl | rfl
      · exact .member (.tail _ (.tail _ (.tail _ (.tail _ (.head _)))))
      · exact .other (by decide) (.array (by
          intro element member
          simp only [List.mem_cons, List.not_mem_nil, or_false] at member
          rcases member with rfl | rfl
          · exact .null
          · exact .number _))
      · exact .member (.tail _ (.tail _ (.head _)))
      · exact .member (.tail _ (.head _))
      · exact .member (.head _)
    case once =>
      decide
    case covered =>
      decide +kernel
  · have noParts : List.Forall₂ LaysOut ([].map Entry.tokens) [] := .nil
    have empty : LaysOut (objectTokens []) [0x7B, 0x7D] := laysOut_objectTokens noParts
    apply rejects [] [0x7B, 0x7D] (by decide) empty nofun (.required "nickname" .text)
    · exact .tail _ (.tail _ (.head _))
    · exact .inl ⟨by decide, by decide⟩

end RoomLedger.Collection
