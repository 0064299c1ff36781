import RoomLedger.Json.Reader
import RoomLedger.Proofs.Json.Grammar
import RoomLedger.Text.Pieces

/-!
Contract: a value of any shape and depth is passed over as a whole.

Owns:
- `Entry`, a member of an object with any name and any value;
- `IsValue`, the sequences of tokens that are values;
- `IsValue.divided`, by which no layout of a value is read as other tokens;
- `laysOut_objectTokens`, by which an object is laid out as its members are;
- `IsValue.skipFrom_append`, by which passing over a value leaves what follows it.

What waits around a value is the same before it and behind it, so the values inside an array
or an object are passed over one by one.

Does not own: values of particular types.
-/

namespace RoomLedger.Json

open RoomLedger.Text (Bytes)

/-! ## Values -/

/-- A member of an object: a name, if it spells a text, and the tokens of a value. -/
structure Entry where
  name : Option String
  value : List Token

def Entry.tokens (entry : Entry) : List Token :=
  .text entry.name :: .colon :: entry.value

def arrayTokens (elements : List (List Token)) : List Token :=
  .openBracket :: Text.joined .comma elements ++ [.closeBracket]

def objectTokens (entries : List Entry) : List Token :=
  .openBrace :: Text.joined .comma (entries.map Entry.tokens) ++ [.closeBrace]

/-- The tokens are those of one value. -/
inductive IsValue : List Token → Prop
  | null : IsValue [.null]
  | boolean (value : Bool) : IsValue [.boolean value]
  | number (numeral : Numeral) : IsValue [.number numeral]
  | text (content : Option String) : IsValue [.text content]
  | array {elements : List (List Token)} (each : ∀ element ∈ elements, IsValue element) :
      IsValue (arrayTokens elements)
  | object {entries : List Entry} (each : ∀ entry ∈ entries, IsValue entry.value) :
      IsValue (objectTokens entries)

/-! ## Division -/

private theorem divided_joined {pieces : List (List Token)}
    (each : ∀ piece ∈ pieces, Divided piece) :
    Divided (Text.joined .comma pieces) := by
  induction pieces with
  | nil => exact .nil
  | cons piece others inductionHypothesis =>
      have later := inductionHypothesis fun other member => each other (by simp [member])
      by_cases alone : others = []
      · subst alone
        exact each piece List.mem_cons_self
      · rw [Text.joined_cons alone, divided_append_mark_iff rfl]
        exact ⟨each piece List.mem_cons_self, later⟩

/-- What stands between two marks is divided from them. -/
theorem divided_between {first last : Token} (opens : first.isMark = true)
    (closes : last.isMark = true) {inner : List Token} (divided : Divided inner) :
    Divided (first :: inner ++ [last]) := by
  have behind : Divided (first :: inner) :=
    (divided_append_mark_iff opens [] inner).mpr ⟨.nil, divided⟩
  exact (divided_append_mark_iff closes _ []).mpr ⟨behind, .nil⟩

private theorem Entry.divided {entry : Entry} (divided : Divided entry.value) :
    Divided entry.tokens := by
  have colon : Token.colon.isMark = true := rfl
  exact (divided_append_mark_iff colon [.text entry.name] entry.value).mpr ⟨.singleton _, divided⟩

theorem divided_objectTokens {entries : List Entry}
    (each : ∀ entry ∈ entries, Divided entry.value) :
    Divided (objectTokens entries) := by
  apply divided_between rfl rfl
  apply divided_joined
  intro piece member
  obtain ⟨entry, found, rfl⟩ := List.mem_map.mp member
  exact Entry.divided (each entry found)

theorem IsValue.divided {tokens : List Token} (isValue : IsValue tokens) : Divided tokens := by
  induction isValue with
  | null => exact .singleton _
  | boolean value => exact .singleton _
  | number numeral => exact .singleton _
  | text content => exact .singleton _
  | array _ inductionHypothesis =>
      exact divided_between rfl rfl (divided_joined inductionHypothesis)
  | object _ inductionHypothesis => exact divided_objectTokens inductionHypothesis

/-! ## Layout -/

private theorem LaysOut.append {left right : List Token} {bytes rest : Bytes}
    (first : LaysOut left bytes) (second : LaysOut right rest) :
    LaysOut (left ++ right) (bytes ++ rest) := by
  induction first with
  | nil => exact second
  | space white _ inductionHypothesis => exact .space white inductionHypothesis
  | token spelled _ inductionHypothesis =>
      rw [List.append_assoc]
      exact .token spelled inductionHypothesis

theorem laysOut_mark {mark : Token} {byte : UInt8} (listed : (mark, byte) ∈ marks)
    {tokens : List Token} {rest : Bytes} (later : LaysOut tokens rest) :
    LaysOut (mark :: tokens) (byte :: rest) :=
  .token (.mark listed) later

private theorem laysOut_joined {pieces : List (List Token)} {parts : List Bytes}
    (each : List.Forall₂ LaysOut pieces parts) :
    LaysOut (Text.joined .comma pieces) (Text.joined 0x2C parts) := by
  induction each with
  | nil => exact .nil
  | @cons piece part pieces parts first others inductionHypothesis =>
      cases others with
      | nil => exact first
      | cons second others => exact first.append (laysOut_mark (by decide) inductionHypothesis)

/-- A name and a value with a colon between them lay out a member. -/
theorem Entry.laysOut {entry : Entry} {name value : Bytes}
    (spelled : (Token.text entry.name).IsSpelled name) (laysOut : LaysOut entry.value value) :
    LaysOut entry.tokens (name ++ 0x3A :: value) :=
  .token spelled (laysOut_mark (by decide) laysOut)

/-- Members with commas between them, inside braces, lay out an object. -/
theorem laysOut_objectTokens {entries : List Entry} {parts : List Bytes}
    (each : List.Forall₂ LaysOut (entries.map Entry.tokens) parts) :
    LaysOut (objectTokens entries) (0x7B :: Text.joined 0x2C parts ++ [0x7D]) :=
  laysOut_mark (by decide) ((laysOut_joined each).append (laysOut_mark (by decide) .nil))

/-! ## Passing over -/

/-- The tokens are passed over as a value, whatever waits around them. -/
def IsPassed (tokens : List Token) : Prop :=
  ∀ (rest : List Token) (waiting : List Bracket),
    skipFrom (tokens ++ rest) waiting = skipAfter rest waiting

private theorem skipAfter_elements {elements : List (List Token)}
    (each : ∀ element ∈ elements, IsPassed element) (rest : List Token) (waiting : List Bracket) :
    skipAfter (elements.flatMap (.comma :: ·) ++ .closeBracket :: rest) (.array :: waiting) =
      skipAfter rest waiting := by
  induction elements with
  | nil => rfl
  | cons element others inductionHypothesis =>
      have later := inductionHypothesis fun other member => each other (by simp [member])
      rw [List.flatMap_cons, List.cons_append, List.cons_append, List.append_assoc, skipAfter,
        each element List.mem_cons_self, later]

private theorem skipAfter_entries {entries : List Entry}
    (each : ∀ entry ∈ entries, IsPassed entry.value) (rest : List Token) (waiting : List Bracket) :
    skipAfter ((entries.map Entry.tokens).flatMap (.comma :: ·) ++ .closeBrace :: rest)
        (.object :: waiting) =
      skipAfter rest waiting := by
  induction entries with
  | nil => rfl
  | cons entry others inductionHypothesis =>
      have later := inductionHypothesis fun other member => each other (by simp [member])
      simp only [List.map_cons, List.flatMap_cons, Entry.tokens, List.cons_append,
        List.append_assoc]
      rw [skipAfter, each entry List.mem_cons_self, later]

/-- No value begins with the bracket that closes an array. -/
theorem IsValue.eq_cons {tokens : List Token} (isValue : IsValue tokens) :
    ∃ first others, tokens = first :: others ∧ first ≠ .closeBracket := by
  cases isValue with
  | null => exact ⟨_, _, rfl, by decide⟩
  | boolean value => exact ⟨_, _, rfl, nofun⟩
  | number numeral => exact ⟨_, _, rfl, nofun⟩
  | text content => exact ⟨_, _, rfl, nofun⟩
  | array each => exact ⟨_, _, rfl, nofun⟩
  | object each => exact ⟨_, _, rfl, nofun⟩

private theorem skipFrom_openBracket {first : Token} (notClosed : first ≠ .closeBracket)
    (others : List Token) (waiting : List Bracket) :
    skipFrom (.openBracket :: first :: others) waiting =
      skipFrom (first :: others) (.array :: waiting) := by
  rw [skipFrom]
  intro rest same
  exact notClosed (List.cons.inj same).1

/-- A value is passed over, whatever its shape and depth. -/
theorem IsValue.skipFrom_append {tokens : List Token} (isValue : IsValue tokens) :
    IsPassed tokens := by
  induction isValue with
  | null => exact fun _ _ => rfl
  | boolean value => exact fun _ _ => rfl
  | number numeral => exact fun _ _ => rfl
  | text content => exact fun _ _ => rfl
  | @array elements each inductionHypothesis =>
      intro rest waiting
      cases elements with
      | nil => rfl
      | cons element others =>
          obtain ⟨first, inner, rfl, notClosed⟩ := (each element List.mem_cons_self).eq_cons
          have passed := inductionHypothesis (first :: inner) List.mem_cons_self
          have later := skipAfter_elements
            (fun other member => inductionHypothesis other (List.mem_cons_of_mem _ member))
            rest waiting
          simp only [arrayTokens, Text.joined_cons_eq_append_flatMap, List.cons_append,
            List.append_assoc, List.nil_append]
          rw [skipFrom_openBracket notClosed, ← List.cons_append, passed, later]
  | @object entries each inductionHypothesis =>
      intro rest waiting
      cases entries with
      | nil => rfl
      | cons entry others =>
          have passed := inductionHypothesis entry List.mem_cons_self
          have later := skipAfter_entries
            (fun other member => inductionHypothesis other (List.mem_cons_of_mem _ member))
            rest waiting
          simp only [objectTokens, List.map_cons, Text.joined_cons_eq_append_flatMap,
            Entry.tokens, List.cons_append, List.append_assoc, List.nil_append]
          rw [skipFrom, passed, later]

@[simp] theorem skipAfter_nil (tokens : List Token) : skipAfter tokens [] = some tokens := by
  cases tokens <;> rfl

/-- Passing over a value leaves what follows it. -/
theorem IsValue.skipValue_append {tokens : List Token} (isValue : IsValue tokens)
    (rest : List Token) :
    skipValue (tokens ++ rest) = .ok rest := by
  rw [skipValue, isValue.skipFrom_append rest [], skipAfter_nil]

end RoomLedger.Json
