import Mathlib.Logic.Relation
import RoomLedger.Proofs.Collection.RoundTrip
import RoomLedger.Proofs.Collection.Undecodable
import RoomLedger.Proofs.Json.Trailing

/-!
Contract: the bytes of two collections with a newline between them.

Owns:
- `decodeLines_append` and `decode_append_newline`, by which bytes are read piece after
  piece;
- `ChangesLayout`, empty lines and carriage returns that come or go;
- `decode_respects_newlines`, for all byte strings and every kind of records.

Each line is read by itself, and only its number tells where it stands. A carriage return
that is not dropped with the end of its line is white space behind a value.

Does not own: bytes that are divided elsewhere.
-/

namespace RoomLedger.Collection

open RoomLedger.Text (Bytes)

variable {R : Type} [Record R]

/-! ## Lines -/

/-- A fault below so many other lines. -/
def LineFault.below (count : Nat) (found : LineFault) : LineFault :=
  { found with line := found.line + count }

/-- Lines below others are read in the same way, with other numbers. -/
theorem decodeLines_add (number count : Nat) (lines : List Bytes) :
    (decodeLines (number + count) lines : Except LineFault (List R)) =
      (decodeLines number lines).mapError (LineFault.below count) := by
  induction lines generalizing number with
  | nil => rfl
  | cons line lines inductionHypothesis =>
      rw [decodeLines_cons, decodeLines_cons, Nat.add_right_comm, inductionHypothesis]
      cases (readLine line : Except Json.Fault (List R)) with
      | error fault => rfl
      | ok records => cases (decodeLines (number + 1) lines : Except LineFault (List R)) <;> rfl

/-- Lines are read one after another, and the first fault is the answer. -/
theorem decodeLines_append (number : Nat) (left right : List Bytes) :
    (decodeLines number (left ++ right) : Except LineFault (List R)) =
      match (decodeLines number left : Except LineFault (List R)) with
      | .error found => .error found
      | .ok records => (decodeLines (number + left.length) right).map (records ++ ·) := by
  induction left generalizing number with
  | nil =>
      show decodeLines number right = (decodeLines number right).map ([] ++ ·)
      cases (decodeLines number right : Except LineFault (List R)) <;> rfl
  | cons line lines inductionHypothesis =>
      have lower : number + 1 + lines.length = number + (line :: lines).length := by
        rw [List.length_cons]
        omega
      rw [List.cons_append, decodeLines_cons, decodeLines_cons, inductionHypothesis, lower]
      cases (readLine line : Except Json.Fault (List R)) with
      | error fault => rfl
      | ok records =>
          cases (decodeLines (number + 1) lines : Except LineFault (List R)) with
          | error found => rfl
          | ok more =>
              cases (decodeLines (number + (line :: lines).length) right :
                  Except LineFault (List R)) with
              | error found => rfl
              | ok others => exact congrArg Except.ok (List.append_assoc records more others).symm

/-! ## Bytes -/

/-- Two byte strings with a newline between them are read one after the other. -/
theorem decode_append_newline (left right : Bytes) :
    (decode (left ++ newline :: right) : Except LineFault (List R)) =
      match (decode left : Except LineFault (List R)) with
      | .error found => .error found
      | .ok records =>
          match (decode right : Except LineFault (List R)) with
          | .error found => .error (found.below (1 + left.count newline))
          | .ok more => .ok (records ++ more) := by
  have lower : 1 + (Text.pieces newline left).length = 1 + (1 + left.count newline) := by
    rw [Text.length_pieces]
    omega
  simp only [decode]
  rw [Text.pieces_append_separator, decodeLines_append, lower, decodeLines_add]
  cases (decodeLines 1 (Text.pieces newline left) : Except LineFault (List R)) with
  | error found => rfl
  | ok records =>
      cases (decodeLines 1 (Text.pieces newline right) : Except LineFault (List R)) <;> rfl

private theorem decode_append_eq_ok_iff {left right : Bytes} {records : List R} :
    decode (left ++ newline :: right) = .ok records ↔
      ∃ earlier later, decode left = .ok earlier ∧ decode right = .ok later ∧
        records = earlier ++ later := by
  rw [decode_append_newline]
  cases (decode left : Except LineFault (List R)) with
  | error found => simp
  | ok earlier =>
      cases (decode right : Except LineFault (List R)) with
      | error found => simp
      | ok later => simp [eq_comm]

/-! ## Layout -/

private theorem isEmptyLine_concat_return (line : Bytes) :
    isEmptyLine (line ++ [0x0D]) = isEmptyLine line := by
  rw [isEmptyLine, List.all_append]
  exact Bool.and_true _

private theorem decode?_concat_return (line : Bytes) :
    (Record.decode? (line ++ [0x0D]) : Except Json.Fault R) = Record.decode? line := by
  rw [Record.decode?, Record.Schema.decode, Json.read, Json.lex_concat_space (by decide)]
  rfl

/-- Whether a carriage return is dropped makes no difference. -/
theorem readLine_eq (line : Bytes) :
    (readLine line : Except Json.Fault (List R)) =
      if isEmptyLine line then .ok []
      else (Record.decode? line).map fun record => [record] := by
  rw [readLine]
  by_cases closed : line.getLast? = some 0x0D
  · obtain ⟨content, rfl⟩ := List.getLast?_eq_some_iff.mp closed
    rw [dropReturn, if_pos closed, List.dropLast_concat, isEmptyLine_concat_return,
      decode?_concat_return]
  · rw [dropReturn, if_neg closed]

/-- What a line by itself is read as. -/
theorem decode_of_single {line : Bytes} (single : newline ∉ line) :
    (decode line : Except LineFault (List R)) = (readLine line).mapError (LineFault.mk 1) := by
  rw [decode, Text.pieces_of_not_mem single, decodeLines_cons]
  cases (readLine line : Except Json.Fault (List R)) with
  | error fault => rfl
  | ok records => exact congrArg Except.ok (List.append_nil records)

private theorem decode_of_isEmptyLine {line : Bytes} (single : newline ∉ line)
    (empty : isEmptyLine line = true) :
    decode line = .ok ([] : List R) := by
  rw [decode_of_single single, readLine_eq, if_pos empty]
  rfl

/-- One carriage return more at the end of a line makes no difference. -/
theorem readLine_concat_return (line : Bytes) :
    (readLine (line ++ [0x0D]) : Except Json.Fault (List R)) = readLine line := by
  rw [readLine_eq, readLine_eq, isEmptyLine_concat_return, decode?_concat_return]

private theorem decode_concat_return (bytes : Bytes) :
    (decode (bytes ++ [0x0D]) : Except LineFault (List R)) = decode bytes := by
  obtain ⟨front, last, shape⟩ :=
    (List.eq_nil_or_concat (Text.pieces newline bytes)).resolve_left (Text.pieces_ne_nil _ _)
  rw [List.concat_eq_append] at shape
  have noNewline : newline ∉ [(0x0D : UInt8)] := by decide
  rw [decode, decode, Text.pieces_append_of_not_mem shape noNewline, shape, decodeLines_append,
    decodeLines_append, decodeLines_cons, decodeLines_cons, readLine_concat_return]

/-- A line of white space more, before the others, behind them or between two of them, or
a carriage return more at the end of a line. -/
inductive ChangesLayout : (before after : Bytes) → Prop
  | blankFirst {blank : Bytes} (back : Bytes) (single : newline ∉ blank)
      (empty : isEmptyLine blank = true) :
      ChangesLayout back (blank ++ newline :: back)
  | blankLast {blank : Bytes} (front : Bytes) (single : newline ∉ blank)
      (empty : isEmptyLine blank = true) :
      ChangesLayout front (front ++ newline :: blank)
  | blankBetween {blank : Bytes} (front back : Bytes) (single : newline ∉ blank)
      (empty : isEmptyLine blank = true) :
      ChangesLayout (front ++ newline :: back) (front ++ newline :: (blank ++ newline :: back))
  | returnAtEnd (front back : Bytes) :
      ChangesLayout (front ++ newline :: back) (front ++ [0x0D] ++ newline :: back)

private theorem ChangesLayout.decode_iff {before after : Bytes}
    (changes : ChangesLayout before after) (records : List R) :
    decode before = .ok records ↔ decode after = .ok records := by
  cases changes with
  | blankFirst back single empty =>
      simp [decode_append_eq_ok_iff, decode_of_isEmptyLine single empty]
  | blankLast front single empty =>
      simp [decode_append_eq_ok_iff, decode_of_isEmptyLine single empty]
  | blankBetween front back single empty =>
      simp [decode_append_eq_ok_iff, decode_of_isEmptyLine single empty]
  | returnAtEnd front back =>
      rw [decode_append_eq_ok_iff, decode_append_eq_ok_iff, decode_concat_return]

/-- For all byte strings and records of every kind: two byte strings that are read give
their records one after the other if a newline comes between them, and otherwise the first
fault is the answer, at the line where it stands. Any number of empty lines and carriage
returns may come and go without a change of what is read, and of whether it is read. -/
theorem decode_respects_newlines :
    (∀ (left right : Bytes) (records more : List R),
      decode left = .ok records → decode right = .ok more →
      decode (left ++ newline :: right) = .ok (records ++ more)) ∧
    (∀ (left right : Bytes) (found : LineFault),
      (decode left : Except LineFault (List R)) = .error found →
      (decode (left ++ newline :: right) : Except LineFault (List R)) = .error found) ∧
    (∀ (left right : Bytes) (records : List R) (found : LineFault),
      decode left = .ok records → (decode right : Except LineFault (List R)) = .error found →
      (decode (left ++ newline :: right) : Except LineFault (List R)) =
        .error ⟨found.line + 1 + left.count newline, found.fault⟩) ∧
    ∀ before after : Bytes, Relation.EqvGen ChangesLayout before after →
      ∀ records : List R, decode before = .ok records ↔ decode after = .ok records := by
  refine ⟨?both, ?first, ?second, ?layout⟩
  case both =>
    intro left right records more first second
    rw [decode_append_newline, first, second]
  case first =>
    intro left right found first
    rw [decode_append_newline, first]
  case second =>
    intro left right records found first second
    rw [decode_append_newline, first, second, Nat.add_assoc]
    rfl
  case layout =>
    intro before after changed records
    induction changed with
    | rel before after changes => exact changes.decode_iff records
    | refl bytes => exact Iff.rfl
    | symm before after _ inductionHypothesis => exact inductionHypothesis.symm
    | trans before between after _ _ first second => exact first.trans second

/-- A profile with an empty line and a bad one below it. -/
theorem decode_respects_newlines_above_bad_line :
    fault? UserProfile (Text.bytes " \noops") = some ⟨2, .malformed⟩ ∧
      (decode (encode [sampleProfile] ++ newline :: Text.bytes " \noops") :
          Except LineFault (List UserProfile)) =
        .error ⟨3, .malformed⟩ := by
  have bad : fault? UserProfile (Text.bytes " \noops") = some ⟨2, .malformed⟩ := by decide +kernel
  have none : (encode [sampleProfile]).count newline = 0 :=
    List.count_eq_zero.mpr (newline_not_mem_write sampleProfile)
  have read := decode_respects_newlines.2.2.1 _ _ [sampleProfile] _ (decode_encode [sampleProfile])
    (decode_of_fault? bad)
  rw [none] at read
  exact ⟨bad, read⟩

end RoomLedger.Collection
