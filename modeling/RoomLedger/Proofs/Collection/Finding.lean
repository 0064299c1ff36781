import Mathlib.Data.List.Nodup
import RoomLedger.Proofs.Collection.Keyed
import RoomLedger.Proofs.Collection.Loading

/-!
Contract: what a key finds among records.

Owns:
- `find?_eq_some_iff` and `filter_key_eq`, by which a key finds the one record that has it;
- `find?_eq_of_perm`, by which it does not matter how the records are stored;
- `find?_concat_self`, by which a new record is found;
- `run_get`, by which a get returns what its key finds.

Does not own: changes of records that are there.
-/

namespace RoomLedger.Collection

variable {R : Type} [Record R] {key : String} {records : List R} {record : R}

/-- A record that is found is there, under its key. -/
theorem of_find?_eq_some (found : find? key records = some record) :
    record ∈ records ∧ Record.key record = key := by
  unfold find? at found
  have keyed := List.find?_some found
  exact ⟨List.mem_of_find?_eq_some found, of_decide_eq_true keyed⟩

/-- Where keys are distinct, a key finds the one record that has it. -/
theorem find?_eq_some_iff (distinct : (records.map Record.key).Nodup) :
    find? key records = some record ↔ record ∈ records ∧ Record.key record = key := by
  constructor
  · exact of_find?_eq_some
  · rintro ⟨present, rfl⟩
    cases found : find? (Record.key record) records with
    | none =>
        have missing := (find?_eq_none_iff (Record.key record) records).mp found
        exact absurd (List.mem_map_of_mem present) missing
    | some other =>
        obtain ⟨isThere, sameKey⟩ := of_find?_eq_some found
        rw [List.inj_on_of_nodup_map distinct isThere present sameKey]

/-- Where keys are distinct, a key finds all records that have it. -/
theorem filter_key_eq (distinct : (records.map Record.key).Nodup) :
    (records.filter fun record => Record.key record = key) = (find? key records).toList := by
  induction records with
  | nil => rfl
  | cons first others inductionHypothesis =>
      obtain ⟨notLater, distinctOthers⟩ := List.nodup_cons.mp distinct
      rw [find?, List.find?_cons]
      by_cases own : Record.key first = key
      · subst own
        have missing := (find?_eq_none_iff (Record.key first) others).mpr notLater
        rw [List.filter_cons_of_pos (by simp), inductionHypothesis distinctOthers, missing]
        simp
      · rw [List.filter_cons_of_neg (by simp [own]), inductionHypothesis distinctOthers]
        simp [own, find?]

/-- Where keys are distinct, the same record is found however the records are stored. -/
theorem find?_eq_of_perm {others : List R} (same : records.Perm others)
    (distinct : (records.map Record.key).Nodup) :
    find? key records = find? key others := by
  have distinctOthers : (others.map Record.key).Nodup :=
    (same.map Record.key).nodup_iff.mp distinct
  apply Option.ext
  intro record
  rw [find?_eq_some_iff distinct, find?_eq_some_iff distinctOthers, same.mem_iff]

/-- A new record is found behind the others. -/
theorem find?_concat_self (isNew : Record.key record ∉ records.map Record.key) :
    find? (Record.key record) (records ++ [record]) = some record := by
  have missing := (find?_eq_none_iff (Record.key record) records).mpr isNew
  unfold find? at missing ⊢
  rw [List.find?_append, missing]
  simp

open RoomLedger.Store (BlobStore Version)

/-- A get returns what its key finds, and writes nothing. -/
theorem run_get {S : Type} [BlobStore S] {collection : Collection R} {store : S} {version : Version}
    (finds : BlobStore.read store collection.blobKey = .ok version)
    (holds : decode version.contentOrEmpty = .ok records) (named : Text.blank key = false) :
    (collection.get key).run store =
      ((find? key records).elim (.error (.notFound key)) .ok, store) := by
  have visible : requireKey (Record.kind R) key = .ok () := if_neg (by simp [named])
  rw [Collection.get, visible]
  simp only [Operation.after]
  rw [run_load finds holds]
  cases find? key records with
  | none => rfl
  | some record => rfl

end RoomLedger.Collection
