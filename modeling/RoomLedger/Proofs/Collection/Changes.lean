import Mathlib.Data.List.Basic
import RoomLedger.Proofs.Collection.Keyed
import RoomLedger.Proofs.Collection.Request

/-!
Contract: what requests make of the records of a blob.

Owns:
- `Request.Changes`, the change of the records that a request asks for;
- `changes_of_verdict`, by which a request writes no other change;
- `Changes.isKeyed` and `keyed_of_verdict`, by which keys stay distinct;
- `run_plan_outcome` and `run_plan_cases`, by which a request that has the store for itself
  makes its change or none.

Does not own: requests whose calls mix with others.
-/

namespace RoomLedger.Collection

open RoomLedger.Store (MemoryStore Plan)

variable {R : Type} [Record R]

namespace Request

/-! ## Checks that were passed -/

private theorem named_of_requireKey {kind key : String} (passed : requireKey kind key = .ok ()) :
    Text.blank key = false := by
  unfold requireKey at passed
  cases blank : Text.blank key with
  | false => rfl
  | true =>
      rw [blank, if_pos rfl] at passed
      cases passed

/-- A new record that may be added has a name and passes the check of its kind. -/
theorem sound_of_precheck {record : R} (passed : (create record).precheck = .ok ()) :
    Text.blank (Record.key record) = false ∧ Record.check record = .ok () := by
  rw [precheck] at passed
  cases named : requireKey (Record.kind R) (Record.key record) with
  | error failure =>
      rw [named] at passed
      cases passed
  | ok done =>
      rw [named] at passed
      refine ⟨named_of_requireKey named, ?_⟩
      simp only [requireSound] at passed
      split at passed
      · cases passed
      · assumption

/-! ## Changes -/

/-- The change of the records that a request asks for, and what it then returns. A
request that only reads asks for none. -/
inductive Changes : Request R → (before after : List R) → Reply R → Prop
  /-- The new record comes last. -/
  | create (record : R) (records : List R) (isNew : Record.key record ∉ records.map Record.key) :
      Changes (.create record) records (records ++ [record]) (.record record)
  /-- The first record of the key gets another value in its one mutable field. -/
  | update (key value : String) (before : List R) (found : R) (later : List R)
      (isFirst : key ∉ before.map Record.key) (isKeyed : Record.key found = key) :
      Changes (.update key value) (before ++ found :: later)
        (before ++ Record.amend value found :: later) (.record (Record.amend value found))
  /-- The first record of the key goes. -/
  | remove (key : String) (before : List R) (found : R) (later : List R)
      (isFirst : key ∉ before.map Record.key) (isKeyed : Record.key found = key) :
      Changes (.remove key) (before ++ found :: later) (before ++ later) (.record found)
  /-- The unwanted records go. There is at least one. -/
  | removeWhere (unwanted : R → Bool) (records : List R)
      (some : ∃ record ∈ records, unwanted record = true) :
      Changes (.removeWhere unwanted) records (records.filter fun record => !unwanted record)
        (.count (records.filter unwanted).length)

/-- What a conflict names: the record, or the blob where there is no single record. -/
def subject (collection : Collection R) : Request R → String
  | .create record => Record.key record
  | .get key | .update key _ | .remove key => key
  | .removeWhere _ | .list _ | .all => collection.blobKey

theorem length_sub_length_filter_not {α : Type} (values : List α) (unwanted : α → Bool) :
    values.length - (values.filter fun value => !unwanted value).length =
      (values.filter unwanted).length := by
  have parts := List.length_eq_length_filter_add (l := values) unwanted
  omega

/-- A request writes the change that it asks for, and no other one. -/
theorem changes_of_verdict {collection : Collection R} {request : Request R}
    {records changed : List R} {recordKey : String} {reply : Reply R}
    (decides : request.verdict collection records = .change changed recordKey reply) :
    request.Changes records changed reply ∧ recordKey = request.subject collection := by
  cases request with
  | create record =>
      rw [verdict] at decides
      cases found : find? (Record.key record) records with
      | some other =>
          rw [found] at decides
          cases decides
      | none =>
          rw [found] at decides
          cases decides
          exact ⟨.create record records ((find?_eq_none_iff _ records).mp found), rfl⟩
  | get key =>
      rw [verdict] at decides
      split at decides <;> cases decides
  | update key value =>
      rw [verdict] at decides
      cases amends : amendIn key value records with
      | none =>
          rw [amends] at decides
          cases decides
      | some amended =>
          obtain ⟨record, changed⟩ := amended
          rw [amends] at decides
          cases decides
          obtain ⟨before, found, later, rfl, isFirst, isKeyed, rfl, rfl⟩ := split_of_amendIn amends
          exact ⟨.update _ value before found later isFirst isKeyed, rfl⟩
  | remove key =>
      rw [verdict] at decides
      cases removes : removeFrom key records with
      | none =>
          rw [removes] at decides
          cases decides
      | some removed =>
          obtain ⟨record, others⟩ := removed
          rw [removes] at decides
          cases decides
          obtain ⟨before, later, rfl, isFirst, isKeyed, rfl⟩ := split_of_removeFrom removes
          exact ⟨.remove _ before _ later isFirst isKeyed, rfl⟩
  | removeWhere unwanted =>
      simp only [verdict, length_sub_length_filter_not] at decides
      split at decides
      · cases decides
      case isFalse some =>
        cases decides
        have member : ∃ record ∈ records, unwanted record = true := by
          simpa [List.filter_eq_nil_iff] using some
        exact ⟨.removeWhere unwanted records member, rfl⟩
  | list query => cases decides
  | all => cases decides

/-- A change keeps distinct keys distinct. -/
theorem Changes.distinct {request : Request R} {records changed : List R} {reply : Reply R}
    (changes : request.Changes records changed reply) (distinct : (records.map Record.key).Nodup) :
    (changed.map Record.key).Nodup := by
  cases changes with
  | create record _ isNew => exact nodup_keys_concat distinct isNew
  | update key value before found later isFirst isKeyed =>
      simpa only [List.map_append, List.map_cons, Record.key_amend] using distinct
  | remove key before found later isFirst isKeyed =>
      exact distinct.sublist (((List.sublist_cons_self ..).append_left before).map Record.key)
  | removeWhere unwanted _ some => exact distinct.sublist (List.filter_sublist.map Record.key)

theorem Changes.isKeyed {request : Request R} {records changed : List R} {reply : Reply R}
    (changes : request.Changes records changed reply) (keyed : IsKeyed records)
    (passed : request.precheck = .ok ()) :
    IsKeyed changed := by
  cases changes with
  | create record _ isNew => exact keyed.concat isNew (sound_of_precheck passed).1
  | update key value before found later isFirst isKeyed =>
      apply keyed.of_keys_eq
      simp only [List.map_append, List.map_cons, Record.key_amend]
  | remove key before found later isFirst isKeyed =>
      exact keyed.sublist ((List.sublist_cons_self ..).append_left before)
  | removeWhere unwanted _ some => exact keyed.sublist List.filter_sublist

/-- What a request writes has distinct keys if what it read has. -/
theorem keyed_of_verdict {collection : Collection R} {request : Request R}
    {records changed : List R} {recordKey : String} {reply : Reply R} (keyed : IsKeyed records)
    (passed : request.precheck = .ok ())
    (decides : request.verdict collection records = .change changed recordKey reply) :
    IsKeyed changed :=
  (changes_of_verdict decides).1.isKeyed keyed passed

/-! ## One request that has the store for itself -/

/-- A request leaves the store as it is and then fails or returns what it decides without
a change, or it passes its checks, writes the change that it asks for and succeeds. -/
theorem run_plan_outcome {collection : Collection R} {store : MemoryStore} {records : List R}
    (holds : decode (store.version collection.blobKey).contentOrEmpty = .ok records)
    (request : Request R) :
    (∃ result,
      ((∃ failure, result = .error failure) ∨
        request.verdict collection records = .answer result) ∧
      (request.plan collection).run store = (result, store)) ∨
    ∃ changed reply following,
      request.precheck = .ok () ∧
      request.Changes records changed reply ∧
      (request.plan collection).run store =
        (.ok reply, store.after collection.blobKey ⟨encode changed, contentType, following⟩) := by
  cases passed : request.precheck with
  | error failure =>
      exact Or.inl ⟨_, Or.inl ⟨failure, rfl⟩, run_plan_of_precheck passed store⟩
  | ok done =>
      rw [run_plan_of_decode passed holds]
      cases decides : request.verdict collection records with
      | answer result => exact Or.inl ⟨result, Or.inr rfl, rfl⟩
      | change changed recordKey reply =>
          have changes := (changes_of_verdict decides).1
          rcases MemoryStore.write_cases collection.isKey store contentType (encode changed)
              (store.version collection.blobKey).generation with
            ⟨following, -, -, answer⟩ | ⟨error, answer, -⟩
          · right
            refine ⟨changed, reply, following, rfl, changes, ?_⟩
            simp only [carryOut, commit, Plan.run, answer, settle]
          · left
            refine ⟨collection.settle recordKey reply (.error error), Or.inl ?_, ?_⟩
            · rw [settle]
              split
              · exact ⟨_, rfl⟩
              · exact ⟨_, rfl⟩
            · simp only [carryOut, commit, Plan.run, answer]

/-- A request leaves the store as it is, or it passes its checks, writes the change that
it asks for and succeeds. -/
theorem run_plan_cases {collection : Collection R} {store : MemoryStore} {records : List R}
    (holds : decode (store.version collection.blobKey).contentOrEmpty = .ok records)
    (request : Request R) :
    ((request.plan collection).run store).2 = store ∨
    ∃ changed reply following,
      request.precheck = .ok () ∧
      request.Changes records changed reply ∧
      (request.plan collection).run store =
        (.ok reply, store.after collection.blobKey ⟨encode changed, contentType, following⟩) := by
  rcases request.run_plan_outcome holds with ⟨result, -, run⟩ | written
  · left
    rw [run]
  · exact Or.inr written

/-- Records that cannot be read are not changed. -/
theorem run_plan_of_fault {collection : Collection R} {store : MemoryStore} {found : LineFault}
    (rejected : decode (R := R) (store.version collection.blobKey).contentOrEmpty = .error found)
    (request : Request R) :
    ((request.plan collection).run store).2 = store := by
  rw [plan_eq]
  cases request.precheck with
  | error failure => rfl
  | ok passed =>
      simp only [Operation.after, load, Plan.run, MemoryStore.read_of_isKey collection.isKey,
        snapshot, rejected]
      rfl

end Request

end RoomLedger.Collection
