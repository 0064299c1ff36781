import RoomLedger.Collection.Basic
import RoomLedger.Index

/-!
Contract: records that are told apart by their keys.

Owns:
- `IsKeyed`, records with distinct keys that hold more than white space;
- `entriesOf`, the records as entries of an index;
- what finding, amending and removing a record mean for these entries.

Does not own: how records are stored.
-/

namespace RoomLedger.Collection

variable {R : Type} [Record R]

/-- Records with distinct keys, each of which holds more than white space. -/
structure IsKeyed (records : List R) : Prop where
  distinct : (records.map Record.key).Nodup
  named : ∀ key ∈ records.map Record.key, Text.blank key = false

/-- The records under their keys. -/
def entriesOf (records : List R) : List (String × R) :=
  records.map fun record => (Record.key record, record)

private theorem map_fst_entriesOf (records : List R) :
    (entriesOf records).map Prod.fst = records.map Record.key := by
  rw [entriesOf, List.map_map]
  rfl

theorem map_snd_entriesOf (records : List R) : (entriesOf records).map Prod.snd = records := by
  rw [entriesOf, List.map_map]
  exact List.map_id records

/-- A record with a new key keeps the keys distinct. -/
theorem nodup_keys_concat {records : List R} {record : R}
    (distinct : (records.map Record.key).Nodup)
    (isNew : Record.key record ∉ records.map Record.key) :
    ((records ++ [record]).map Record.key).Nodup := by
  rw [List.map_append, List.map_singleton]
  refine List.nodup_append.mpr ⟨distinct, by simp, ?_⟩
  intro key member other last
  rw [List.mem_singleton.mp last]
  intro same
  rw [same] at member
  exact isNew member

/-- Where keys are distinct, no other record has the key of a record. -/
theorem key_not_mem_others {before later : List R} {record : R}
    (distinct : ((before ++ record :: later).map Record.key).Nodup) :
    Record.key record ∉ (before ++ later).map Record.key := by
  have first : ((record :: (before ++ later)).map Record.key).Nodup :=
    (List.perm_middle.map Record.key).nodup_iff.mp distinct
  exact (List.nodup_cons.mp first).1

namespace IsKeyed

theorem nil : IsKeyed ([] : List R) where
  distinct := List.nodup_nil
  named := by
    intro key member
    cases member

/-- Records keep their keys apart when some of them go. -/
theorem sublist {records kept : List R} (keyed : IsKeyed records) (fewer : kept.Sublist records) :
    IsKeyed kept where
  distinct := keyed.distinct.sublist (fewer.map Record.key)
  named := fun key member => keyed.named key ((fewer.map Record.key).subset member)

theorem concat {records : List R} {record : R} (keyed : IsKeyed records)
    (isNew : Record.key record ∉ records.map Record.key)
    (named : Text.blank (Record.key record) = false) :
    IsKeyed (records ++ [record]) where
  distinct := nodup_keys_concat keyed.distinct isNew
  named := by
    intro key member
    rw [List.map_append, List.map_singleton] at member
    rcases List.mem_append.mp member with earlier | last
    · exact keyed.named key earlier
    · rw [List.mem_singleton.mp last]
      exact named

theorem of_keys_eq {records changed : List R} (keyed : IsKeyed records)
    (same : changed.map Record.key = records.map Record.key) :
    IsKeyed changed where
  distinct := by
    rw [same]
    exact keyed.distinct
  named := by
    rw [same]
    exact keyed.named

end IsKeyed

/-! ## Finding -/

theorem firstValue?_entriesOf (key : String) (records : List R) :
    Index.firstValue? key (entriesOf records) = find? key records := by
  induction records with
  | nil => rfl
  | cons record others inductionHypothesis =>
      unfold entriesOf find? at inductionHypothesis ⊢
      rw [List.map_cons, Index.firstValue?, List.find?_cons]
      by_cases hit : Record.key record = key
      · simp only [hit, if_true, decide_true]
      · simp only [hit, if_false, decide_false, inductionHypothesis]

theorem find?_eq_none_iff (key : String) (records : List R) :
    find? key records = none ↔ key ∉ records.map Record.key := by
  rw [← firstValue?_entriesOf, ← map_fst_entriesOf]
  exact Index.find?_eq_none_iff key ⟨entriesOf records⟩

/-- A record of a new key comes last. -/
theorem entriesOf_concat {records : List R} {record : R}
    (isNew : Record.key record ∉ records.map Record.key) :
    entriesOf (records ++ [record]) =
      Index.putEntry (Record.key record) record (entriesOf records) := by
  induction records with
  | nil => rfl
  | cons first others inductionHypothesis =>
      rw [List.map_cons, List.mem_cons, not_or] at isNew
      have apart : Record.key first ≠ Record.key record := Ne.symm isNew.1
      have later := inductionHypothesis isNew.2
      simp only [entriesOf, List.cons_append, List.map_cons, Index.putEntry, apart, if_false]
        at later ⊢
      rw [later]

/-! ## Amending -/

theorem amendIn_eq_none {key value : String} {records : List R}
    (missing : find? key records = none) :
    amendIn key value records = none := by
  induction records with
  | nil => rfl
  | cons record others inductionHypothesis =>
      rw [find?_eq_none_iff, List.map_cons, List.mem_cons, not_or] at missing
      have apart : Record.key record ≠ key := Ne.symm missing.1
      have later := inductionHypothesis ((find?_eq_none_iff key others).mpr missing.2)
      rw [amendIn, if_neg apart, later]

/-- An amended record stands in the place of the record that was found. -/
theorem amendIn_eq_some {key : String} {records : List R} {record : R} (value : String)
    (found : find? key records = some record) :
    ∃ changed,
      amendIn key value records = some (Record.amend value record, changed) ∧
      entriesOf changed =
        Index.putEntry key (Record.amend value record) (entriesOf records) := by
  induction records with
  | nil => cases found
  | cons first others inductionHypothesis =>
      by_cases hit : Record.key first = key
      · have same : first = record := by
          rw [find?, List.find?_cons] at found
          simpa only [hit, decide_true, Option.some.injEq] using found
        subst same
        refine ⟨Record.amend value first :: others, ?_, ?_⟩
        · rw [amendIn, if_pos hit]
        · simp only [entriesOf, List.map_cons, Index.putEntry, Record.key_amend, hit, if_true]
      · have later : find? key others = some record := by
          rw [find?, List.find?_cons] at found
          simpa only [hit, decide_false, find?] using found
        obtain ⟨changed, amended, entries⟩ := inductionHypothesis later
        refine ⟨first :: changed, ?_, ?_⟩
        · rw [amendIn, if_neg hit, amended]
        · unfold entriesOf at entries ⊢
          rw [List.map_cons, List.map_cons, entries, Index.putEntry, if_neg hit]

/-- A record in the place of the one that was found changes no key. -/
theorem keys_eq_of_putEntry {key : String} {records changed : List R} {record amended : R}
    (found : find? key records = some record)
    (entries : entriesOf changed = Index.putEntry key amended (entriesOf records)) :
    changed.map Record.key = records.map Record.key := by
  have known : key ∈ records.map Record.key := by
    apply Classical.byContradiction
    intro missing
    rw [(find?_eq_none_iff key records).mpr missing] at found
    cases found
  have keys := Index.keys_put key amended ⟨entriesOf records⟩
  simp only [Index.keys, Index.put, map_fst_entriesOf, known, if_true] at keys
  rw [← keys, ← map_fst_entriesOf, entries]

/-- An amended record stands where the first record of its key stood. -/
theorem split_of_amendIn {key value : String} {records changed : List R} {record : R}
    (amends : amendIn key value records = some (record, changed)) :
    ∃ before found later,
      records = before ++ found :: later ∧
      key ∉ before.map Record.key ∧
      Record.key found = key ∧
      record = Record.amend value found ∧
      changed = before ++ Record.amend value found :: later := by
  induction records generalizing changed with
  | nil => cases amends
  | cons first others inductionHypothesis =>
      by_cases hit : Record.key first = key
      · rw [amendIn, if_pos hit] at amends
        cases amends
        exact ⟨[], first, others, rfl, List.not_mem_nil, hit, rfl, rfl⟩
      · rw [amendIn, if_neg hit] at amends
        cases inner : amendIn key value others with
        | none =>
            rw [inner] at amends
            cases amends
        | some amended =>
            obtain ⟨other, rest⟩ := amended
            rw [inner] at amends
            cases amends
            obtain ⟨before, found, later, rfl, notBefore, isKeyed, rfl, rfl⟩ :=
              inductionHypothesis inner
            refine ⟨first :: before, found, later, rfl, ?_, isKeyed, rfl, rfl⟩
            simpa [Ne.symm hit] using notBefore

/-! ## Removing -/

theorem removeFrom_eq_none {key : String} {records : List R} (missing : find? key records = none) :
    removeFrom key records = none := by
  induction records with
  | nil => rfl
  | cons record others inductionHypothesis =>
      rw [find?_eq_none_iff, List.map_cons, List.mem_cons, not_or] at missing
      have apart : Record.key record ≠ key := Ne.symm missing.1
      have later := inductionHypothesis ((find?_eq_none_iff key others).mpr missing.2)
      rw [removeFrom, if_neg apart, later]

/-- Where keys are distinct, exactly the records of other keys are left. -/
theorem removeFrom_eq_some {key : String} {records : List R} {record : R}
    (distinct : (records.map Record.key).Nodup) (found : find? key records = some record) :
    removeFrom key records =
      some (record, records.filter fun other => Record.key other ≠ key) := by
  induction records with
  | nil => cases found
  | cons first others inductionHypothesis =>
      obtain ⟨notLater, distinctOthers⟩ := List.nodup_cons.mp distinct
      by_cases hit : Record.key first = key
      · have same : first = record := by
          rw [find?, List.find?_cons] at found
          simpa only [hit, decide_true, Option.some.injEq] using found
        subst same
        have kept : others.filter (fun other => Record.key other ≠ key) = others := by
          apply List.filter_eq_self.mpr
          intro other member
          rw [decide_eq_true_eq, ← hit]
          intro equal
          apply notLater
          rw [← equal]
          exact List.mem_map_of_mem member
        rw [removeFrom, if_pos hit, List.filter_cons_of_neg (by simp [hit]), kept]
      · have later : find? key others = some record := by
          rw [find?, List.find?_cons] at found
          simpa only [hit, decide_false, find?] using found
        rw [removeFrom, if_neg hit, inductionHypothesis distinctOthers later,
          List.filter_cons_of_pos (by simp [hit])]

/-- A removed record is the first record of its key. -/
theorem split_of_removeFrom {key : String} {records changed : List R} {record : R}
    (removes : removeFrom key records = some (record, changed)) :
    ∃ before later,
      records = before ++ record :: later ∧
      key ∉ before.map Record.key ∧
      Record.key record = key ∧
      changed = before ++ later := by
  induction records generalizing changed with
  | nil => cases removes
  | cons first others inductionHypothesis =>
      by_cases hit : Record.key first = key
      · rw [removeFrom, if_pos hit] at removes
        cases removes
        exact ⟨[], others, rfl, List.not_mem_nil, hit, rfl⟩
      · rw [removeFrom, if_neg hit] at removes
        cases inner : removeFrom key others with
        | none =>
            rw [inner] at removes
            cases removes
        | some removed =>
            obtain ⟨other, rest⟩ := removed
            rw [inner] at removes
            cases removes
            obtain ⟨before, later, rfl, notBefore, isKeyed, rfl⟩ := inductionHypothesis inner
            refine ⟨first :: before, later, rfl, ?_, isKeyed, rfl⟩
            simpa [Ne.symm hit] using notBefore

theorem entriesOf_filter (selects : R → Bool) (records : List R) :
    entriesOf (records.filter selects) =
      (entriesOf records).filter fun entry => selects entry.2 := by
  rw [entriesOf, entriesOf, List.filter_map]
  rfl

theorem entriesOf_filter_key (key : String) (records : List R) :
    entriesOf (records.filter fun record => Record.key record ≠ key) =
      (entriesOf records).filter fun entry => entry.1 ≠ key := by
  rw [entriesOf, entriesOf, List.filter_map]
  rfl

end RoomLedger.Collection
