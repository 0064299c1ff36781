import RoomLedger.Collection.Lines
import RoomLedger.Proofs.Record.Objects
import RoomLedger.Record.UserProfile

/-!
Contract: records are read back from the lines that they are written as.

Owns:
- the line of a record, which is no empty line and holds no newline;
- `decodeLines_write`, the reading of written lines;
- `decode_encode`, the round trip of a collection;
- `recoding_is_exact`, by which bytes that were read once are settled.

A line is a text between braces without controls, so neither the framing nor the
skipping of empty lines can touch it.

Does not own: the round trip of one record.
-/

namespace RoomLedger.Collection

open RoomLedger.Text (Bytes)

variable {R : Type} [Record R]

/-! ## The line of a record -/

theorem newline_not_mem_write (record : R) : newline ∉ Record.write record := by
  intro found
  have visible : (0x20 : UInt8) ≤ newline := Record.space_le_of_mem_write found
  exact absurd visible (by decide)

private theorem dropReturn_write (record : R) :
    dropReturn (Record.write record) = Record.write record := by
  obtain ⟨inner, between⟩ :=
    Record.write_eq (Record.schema (R := R)) (Record.toRow record)
  have last : (Record.write record).getLast? = some 0x7D := by
    rw [Record.write, between, ← List.cons_append, List.getLast?_concat]
  rw [dropReturn, last]
  exact if_neg (by decide)

private theorem isEmptyLine_write (record : R) : isEmptyLine (Record.write record) = false := by
  obtain ⟨inner, between⟩ :=
    Record.write_eq (Record.schema (R := R)) (Record.toRow record)
  rw [Record.write, between, isEmptyLine, List.all_cons]
  rfl

/-! ## Lines -/

/-- Written lines are read as their records, whatever their numbers. -/
theorem decodeLines_write (number : Nat) (records : List R) :
    decodeLines number (records.map Record.write) = .ok records := by
  induction records generalizing number with
  | nil => rfl
  | cons record others inductionHypothesis =>
      have later := inductionHypothesis (number + 1)
      simp only [List.map_cons, decodeLines, dropReturn_write, isEmptyLine_write,
        Bool.false_eq_true, if_false, Record.decode?_write, later]

/-- A collection is read back from its bytes. -/
theorem decode_encode (records : List R) : decode (encode records) = .ok records := by
  cases records with
  | nil => exact decode_nil
  | cons record others =>
      have framed :
          Text.pieces newline (encode (record :: others)) =
            (record :: others).map Record.write := by
        apply Text.pieces_joined
        · simp
        · intro line found
          obtain ⟨written, -, rfl⟩ := List.mem_map.mp found
          exact newline_not_mem_write written
      rw [decode, framed]
      exact decodeLines_write 1 _

/-! ## Reading and writing again -/

/-- Every collection is read back exactly as it was written. Bytes that are read
at all, however they were spelled, are written in a form that holds the same
records and does not change when it is read and written again. -/
theorem recoding_is_exact :
    (∀ records : List R, decode (encode records) = .ok records) ∧
    ∀ (bytes : Bytes) (records : List R),
      decode bytes = .ok records →
      decode (encode records) = (decode bytes : Except LineFault (List R)) ∧
        (decode (encode records) : Except LineFault (List R)).map encode =
          .ok (encode records) := by
  constructor
  · exact decode_encode
  · intro bytes records found
    have again : decode (encode records) = .ok records := decode_encode records
    constructor
    · rw [again, found]
    · rw [again]
      rfl

/-- A profile between empty lines, with its members in another order, an unknown
member among them, an escaped letter and its time in another spelling. -/
def respelledLines : Bytes :=
  Text.bytes (" \r\n\x7b\"created_at\":\"2016-12-31 23:59:60.50+0130\",\"user_id\":\"u-1\"," ++
    "\"mood\":[1,null],\"display_name\":\"\\u0041da\"\x7d\r\n\n")

/-- The profile of those lines. -/
def sampleProfile : UserProfile where
  userId := "u-1"
  displayName := "Ada"
  timezone := none
  notes := ""
  createdAt := {
    date := ⟨2016, 12, 31, by decide⟩
    time := ⟨23, 59, 60, 500000000, by decide⟩
    offset := ⟨90, by decide⟩
    nameable := by decide }

set_option maxRecDepth 20000 in
theorem recoding_is_exact_for_respelled_lines :
    encode [sampleProfile] ≠ respelledLines ∧
    decode (encode [sampleProfile]) =
      (decode respelledLines : Except LineFault (List UserProfile)) := by
  have read : (decode respelledLines : Except LineFault (List UserProfile)).toOption =
      some [sampleProfile] := by decide +kernel
  have found : decode respelledLines = .ok [sampleProfile] := by
    cases equation : (decode respelledLines : Except LineFault (List UserProfile)) with
    | error fault =>
        rw [equation] at read
        cases read
    | ok records =>
        rw [equation] at read
        exact congrArg Except.ok (Option.some.inj read)
  constructor
  · decide +kernel
  · exact (recoding_is_exact.2 respelledLines [sampleProfile] found).1

end RoomLedger.Collection
