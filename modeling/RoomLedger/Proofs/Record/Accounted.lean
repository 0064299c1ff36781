import RoomLedger.Proofs.Record.Objects

/-!
Contract: an object that is read accounts for every field.

Owns:
- `FieldType.skipFrom_of_read`, by which a field's reader takes as much as passing over does;
- `Draft.met`, the names of the fields that a draft has met;
- `accounted_of_read`, by which no field without a fallback is missing and none comes twice.

Whatever the values are, a reader that succeeds goes on behind the value, so the names are met
one entry after another.

Does not own: which fault is the answer otherwise.
-/

namespace RoomLedger.Record

open RoomLedger.Json

/-! ## Values -/

private theorem readTextAs_eq_ok {expected content : String} {tokens left : List Token}
    (read : readTextAs expected tokens = .ok (content, left)) :
    tokens = .text (some content) :: left := by
  unfold readTextAs at read
  split at read
  · cases read
    rfl
  · cases read

private theorem readCount_eq_ok {limit : Nat} {expected : String}
    {value : { value : Nat // value < limit }} {tokens left : List Token}
    (read : readCount limit expected tokens = .ok (value, left)) :
    ∃ numeral, tokens = .number numeral :: left := by
  unfold readCount at read
  split at read
  · rename_i numeral rest
    refine ⟨numeral, ?_⟩
    split at read
    · split at read
      · cases read
        rfl
      · cases read
    · cases read
    · cases read
    · cases read
  · cases read

private theorem readVariant_eq_ok {α : Type} {value : α} {choices : List String}
    {ofName? : String → Option α} {tokens left : List Token}
    (read : readVariant choices ofName? tokens = .ok (value, left)) :
    ∃ name, tokens = .text (some name) :: left ∨
      tokens = .openBrace :: .text (some name) :: .colon :: .null :: .closeBrace :: left := by
  unfold readVariant at read
  split at read
  · rename_i name rest
    refine ⟨name, .inl ?_⟩
    split at read
    · cases read
      rfl
    · cases read
  · rename_i name rest
    refine ⟨name, .inr ?_⟩
    split at read
    · unfold readUnit at read
      split at read
      · cases read
        rfl
      · cases read
      · cases read
      · cases read
    · cases read
  · cases read

/-- The reader of a field that succeeds takes one value off the tokens. -/
theorem FieldType.skipFrom_of_read {type : FieldType} {value : type.Value}
    {tokens left : List Token} (read : type.read tokens = .ok (value, left)) :
    skipFrom tokens [] = some left := by
  have variant : ∀ {α : Type} {value : α} {choices : List String} {ofName? : String → Option α},
      readVariant choices ofName? tokens = .ok (value, left) →
      skipFrom tokens [] = some left := by
    intro α value choices ofName? read
    obtain ⟨name, rfl | rfl⟩ := readVariant_eq_ok read
    · exact skipAfter_nil left
    · exact skipAfter_nil left
  cases type with
  | text =>
      rw [readTextAs_eq_ok read]
      exact skipAfter_nil left
  | optionalText =>
      simp only [FieldType.read, readOptionalText] at read
      split at read
      · cases read
        exact skipAfter_nil left
      · split at read
        · rename_i found
          cases read
          rw [readTextAs_eq_ok found]
          exact skipAfter_nil left
        · cases read
  | flag =>
      simp only [FieldType.read, readFlag] at read
      split at read
      · cases read
        exact skipAfter_nil left
      · cases read
  | count32 =>
      simp only [FieldType.read, readUInt32] at read
      split at read
      · rename_i found
        cases read
        obtain ⟨numeral, rfl⟩ := readCount_eq_ok found
        exact skipAfter_nil left
      · cases read
  | count64 =>
      simp only [FieldType.read, readUInt64] at read
      split at read
      · rename_i found
        cases read
        obtain ⟨numeral, rfl⟩ := readCount_eq_ok found
        exact skipAfter_nil left
      · cases read
  | timestamp =>
      simp only [FieldType.read, readTimestamp] at read
      split at read
      · rename_i found
        split at read
        · cases read
          rw [readTextAs_eq_ok found]
          exact skipAfter_nil left
        · cases read
      · cases read
  | role => exact variant read
  | memberRole => exact variant read

/-! ## Names met -/

/-- The names of the fields that a draft has met. -/
def Draft.met : (fields : List Field) → Draft fields → List String
  | [], _ => []
  | _ :: others, (none, rest) => met others rest
  | field :: others, (some _, rest) => field.name :: met others rest

private theorem Draft.met_empty (fields : List Field) :
    Draft.met fields (Draft.empty fields) = [] := by
  induction fields with
  | nil => rfl
  | cons field others inductionHypothesis => exact inductionHypothesis

private theorem Draft.met_sublist (fields : List Field) (draft : Draft fields) :
    (Draft.met fields draft).Sublist (fields.map Field.name) := by
  induction fields with
  | nil => exact .slnil
  | cons field others inductionHypothesis =>
      obtain ⟨found, rest⟩ := draft
      cases found with
      | none => exact (inductionHypothesis rest).cons field.name
      | some value => exact (inductionHypothesis rest).cons_cons field.name

/-- A draft that makes a row has met every field without a fallback. -/
theorem Draft.mem_met_of_complete {fields : List Field} {draft : Draft fields} {row : Row fields}
    (complete : Draft.complete fields draft = .ok row) {field : Field} (known : field ∈ fields)
    (noFallback : field.fallback = none) :
    field.name ∈ Draft.met fields draft := by
  induction fields with
  | nil => cases known
  | cons first others inductionHypothesis =>
      obtain ⟨found, rest⟩ := draft
      rw [Draft.complete] at complete
      split at complete
      · cases complete
      · rename_i value chosen
        split at complete
        · cases complete
        · rename_i later
          rcases List.mem_cons.mp known with rfl | behind
          · rw [noFallback, Option.or_none] at chosen
            rw [chosen]
            exact List.mem_cons_self
          · have member := inductionHypothesis later behind
            cases found with
            | none => exact member
            | some value => exact List.mem_cons_of_mem _ member

/-- A member of a field that is read meets its name and takes one value. -/
theorem Draft.met_of_readMember {fields : List Field} {draft next : Draft fields} {name : String}
    {tokens left : List Token}
    (read : Draft.readMember fields draft name tokens = some (.ok (next, left))) :
    (Draft.met fields next).Perm (name :: Draft.met fields draft) ∧
      ∃ content, tokens = .colon :: content ∧ skipFrom content [] = some left := by
  induction fields with
  | nil => cases read
  | cons field others inductionHypothesis =>
      obtain ⟨found, rest⟩ := draft
      simp only [Draft.readMember] at read
      split at read
      · rename_i same
        split at read
        · cases read
        · rename_i content
          split at read
          · cases read
          · rename_i value behind taken
            cases read
            rw [← same]
            exact ⟨.refl _, content, rfl, FieldType.skipFrom_of_read taken⟩
        · cases read
      · split at read
        · cases read
        · cases read
        · rename_i later behind readLater
          cases read
          obtain ⟨permutation, taken⟩ := inductionHypothesis readLater
          refine ⟨?_, taken⟩
          cases found with
          | none => exact permutation
          | some value => exact (permutation.cons field.name).trans (.swap _ _ _)

/-- Reading an entry goes on behind its value; it meets the entry's name, or no field has it. -/
theorem Draft.readAnyMember_eq_ok {fields : List Field} {draft next : Draft fields} {name : String}
    {value left rest : List Token} (isValue : IsValue value)
    (read : Draft.readAnyMember fields draft name (.colon :: (value ++ left)) =
      .ok (next, rest)) :
    rest = left ∧ ((Draft.met fields next).Perm (name :: Draft.met fields draft) ∨
      name ∉ fields.map Field.name ∧ next = draft) := by
  rw [Draft.readAnyMember] at read
  split at read
  · rename_i result found
    subst read
    obtain ⟨permutation, content, same, taken⟩ := Draft.met_of_readMember found
    cases same
    rw [isValue.skipFrom_append, skipAfter_nil] at taken
    cases taken
    exact ⟨rfl, .inl permutation⟩
  · rename_i passed
    have unknown := (Draft.readMember_eq_none_iff draft _).mp passed
    simp only [isValue.skipValue_append] at read
    cases read
    exact ⟨rfl, .inr ⟨unknown, rfl⟩⟩

/-! ## Objects -/

/-- Of the entries that are read, behind the names that have been met, none is missing that
has no fallback, and no field comes twice. -/
theorem accounted_of_readMembers {fields : List Field} {draft : Draft fields} {entries : List Entry}
    {fuel : Nat} {rest : List Token} {result : Row fields × List Token}
    (distinct : (fields.map Field.name).Nodup) (each : ∀ entry ∈ entries, IsValue entry.value)
    (read : readMembers fields fuel false draft
        ((entries.map Entry.tokens).flatMap (.comma :: ·) ++ .closeBrace :: rest) =
      .ok result) :
    (∀ field ∈ fields, field.fallback = none →
      some field.name ∈ (Draft.met fields draft).map some ++ entries.map Entry.name) ∧
    ∀ field ∈ fields,
      List.count (some field.name)
        ((Draft.met fields draft).map some ++ entries.map Entry.name) ≤ 1 := by
  -- A draft in which more was met stands for the entries already read, so the count of the names
  -- met and of those that come is the same at every step.
  induction entries generalizing draft fuel with
  | nil =>
      cases fuel with
      | zero => cases read
      | succ fuel =>
          replace read : readMembers fields (fuel + 1) false draft (.closeBrace :: rest) =
            .ok result := read
          rw [readMembers] at read
          split at read
          · cases read
          · rename_i row complete
            have once := ((Draft.met_sublist fields draft).nodup distinct).map
              fun _ _ same => Option.some.inj same
            rw [List.map_nil, List.append_nil]
            constructor
            · intro field known noFallback
              exact List.mem_map_of_mem (Draft.mem_met_of_complete complete known noFallback)
            · intro field _
              exact List.nodup_iff_count_le_one.mp once (some field.name)
  | cons entry others inductionHypothesis =>
      cases fuel with
      | zero => cases read
      | succ fuel =>
          rw [List.map_cons, List.flatMap_cons, List.cons_append, List.cons_append,
            List.append_assoc, readMembers_comma] at read
          split at read
          · cases read
          · rename_i name named
            split at read
            · cases read
            · rename_i next behind readEntry
              have isValue := each entry List.mem_cons_self
              obtain ⟨rfl, meets⟩ := Draft.readAnyMember_eq_ok isValue readEntry
              obtain ⟨present, once⟩ := inductionHypothesis
                (fun other member => each other (List.mem_cons_of_mem _ member)) read
              have moved : ((Draft.met fields draft).map some ++
                    (entry :: others).map Entry.name).Perm
                  (some name :: ((Draft.met fields draft).map some ++ others.map Entry.name)) := by
                rw [List.map_cons, named]
                exact List.perm_middle
              simp only [moved.count_eq, moved.mem_iff]
              rcases meets with permutation | ⟨unknown, rfl⟩
              · have same := (permutation.map some).append_right (others.map Entry.name)
                simp only [same.count_eq, same.mem_iff] at once present
                exact ⟨present, once⟩
              · constructor
                · intro field known noFallback
                  exact List.mem_cons_of_mem _ (present field known noFallback)
                · intro field known
                  have apart : some name ≠ some field.name := by
                    intro same
                    cases same
                    exact unknown (List.mem_map_of_mem known)
                  rw [List.count_cons_of_ne apart]
                  exact once field known

/-- An object that is read has every field that has no fallback, and no field twice. -/
theorem accounted_of_read {schema : Schema} {entries : List Entry}
    {result : Row schema.fields × List Token} (distinct : (schema.fields.map Field.name).Nodup)
    (each : ∀ entry ∈ entries, IsValue entry.value)
    (read : schema.read (objectTokens entries) = .ok result) :
    (∀ field ∈ schema.fields, field.fallback = none →
      some field.name ∈ entries.map Entry.name) ∧
    ∀ field ∈ schema.fields, (entries.map Entry.name).count (some field.name) ≤ 1 := by
  obtain ⟨fuel, -, steps⟩ := read_objectTokens schema entries
  rw [steps] at read
  have accounted := accounted_of_readMembers distinct each read
  rw [Draft.met_empty] at accounted
  exact accounted

end RoomLedger.Record
