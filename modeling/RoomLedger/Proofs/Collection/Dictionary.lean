import RoomLedger.Proofs.Collection.Canonical

/-!
Contract: requests one after another treat a collection as a dictionary that keeps
its entries in the order in which they came.

Owns:
- `Dictionary`, records under their keys with the number of changes so far;
- `Dictionary.answer`, what a request returns and makes of a dictionary;
- `Represents`, a store whose blob is the encoding of a dictionary;
- `agrees_of_encoded_records`, by which store and dictionary agree on every request of
  every sequence.

Does not own: requests whose calls mix.
-/

namespace RoomLedger.Collection

open RoomLedger.Store

/-- Records under their keys, and the number of changes so far. -/
structure Dictionary (R : Type) where
  entries : Index String R
  revision : Nat

namespace Dictionary

variable {R : Type}

/-- The records in the order in which their keys came. -/
def values (dictionary : Dictionary R) : List R :=
  dictionary.entries.entries.map Prod.snd

/-- The dictionary after one more change. -/
def change (dictionary : Dictionary R) (entries : Index String R) : Dictionary R where
  entries := entries
  revision := dictionary.revision + 1

variable [Record R]

/-- The dictionary of records after so many changes. -/
def of (records : List R) (revision : Nat) : Dictionary R where
  entries := ⟨entriesOf records⟩
  revision := revision

/-- The record with another text in its one mutable field. -/
def withText (value : String) (record : R) : R :=
  Record.ofRow
    (Record.Row.setText (Record.amendable R) value (Record.schema R).fields (Record.toRow record))

/-- Goes on with the record of a key, if the key is one and has a record. -/
def lookUp (dictionary : Dictionary R) (key : String)
    (next : R → Except Failure (Reply R) × Dictionary R) :
    Except Failure (Reply R) × Dictionary R :=
  if Text.blank key then (.error (.invalid (Record.kind R) .blankKey), dictionary)
  else
    match dictionary.entries.find? key with
    | none => (.error (.notFound key), dictionary)
    | some record => next record

/-- What a request returns and makes of a dictionary. -/
def answer (dictionary : Dictionary R) : Request R → Except Failure (Reply R) × Dictionary R
  | .create record =>
      let key := Record.key record
      if Text.blank key then (.error (.invalid (Record.kind R) .blankKey), dictionary)
      else
        match Record.check record with
        | .error flaw => (.error (.invalid key (.flaw flaw)), dictionary)
        | .ok () =>
            match dictionary.entries.find? key with
            | some _ => (.error (.conflict key .duplicate), dictionary)
            | none => (.ok (.record record), dictionary.change (dictionary.entries.put key record))
  | .get key => dictionary.lookUp key fun record => (.ok (.record record), dictionary)
  | .update key value =>
      dictionary.lookUp key fun record =>
        (.ok (.record (withText value record)),
          dictionary.change (dictionary.entries.put key (withText value record)))
  | .remove key =>
      dictionary.lookUp key fun record =>
        (.ok (.record record), dictionary.change (dictionary.entries.drop key))
  | .removeWhere unwanted =>
      let removed := (dictionary.values.filter unwanted).length
      if removed = 0 then (.ok (.count 0), dictionary)
      else
        (.ok (.count removed),
          dictionary.change ⟨dictionary.entries.entries.filter fun entry => !unwanted entry.2⟩)
  | .list query => (.ok (.records (query.apply dictionary.values)), dictionary)
  | .all => (.ok (.records dictionary.values), dictionary)

private theorem values_of (records : List R) (revision : Nat) :
    (of records revision).values = records :=
  map_snd_entriesOf records

private theorem withText_eq_amend (value : String) (record : R) :
    withText value record = Record.amend value record := by
  rw [withText, ← Record.toRow_amend, Record.ofRow_toRow]

/-! ## The verdicts of requests -/

private theorem find?_of (key : String) (records : List R) (revision : Nat) :
    (of records revision).entries.find? key = find? key records :=
  firstValue?_entriesOf key records

/-- A dictionary answers as the verdict on its records says. -/
theorem answer_of (collection : Collection R) {records : List R}
    (distinct : (records.map Record.key).Nodup) (revision : Nat) (request : Request R) :
    (of records revision).answer request =
      match request.precheck with
      | .error failure => (.error failure, of records revision)
      | .ok () =>
          match request.verdict collection records with
          | .answer result => (result, of records revision)
          | .change changed _ reply => (.ok reply, of changed (revision + 1)) := by
  cases request with
  | create record =>
      simp only [answer, Request.precheck, requireKey, requireSound, find?_of,
        Request.verdict]
      split
      · rfl
      · cases Record.check record with
        | error flaw => rfl
        | ok passed =>
            cases found : find? (Record.key record) records with
            | some other => rfl
            | none =>
                have isNew := (find?_eq_none_iff _ records).mp found
                simp only [change, of, Index.put, entriesOf_concat isNew]
  | get key =>
      simp only [answer, lookUp, Request.precheck, requireKey, find?_of,
        Request.verdict]
      split
      · rfl
      · cases find? key records with
        | none => rfl
        | some record => rfl
  | update key value =>
      simp only [answer, lookUp, Request.precheck, requireKey, find?_of,
        Request.verdict]
      split
      · rfl
      · cases found : find? key records with
        | none => rw [amendIn_eq_none found]
        | some record =>
            obtain ⟨changed, amended, entries⟩ := amendIn_eq_some value found
            rw [amended]
            simp only [change, of, Index.put, withText_eq_amend, entries]
  | remove key =>
      simp only [answer, lookUp, Request.precheck, requireKey, find?_of,
        Request.verdict]
      split
      · rfl
      · cases found : find? key records with
        | none => rw [removeFrom_eq_none found]
        | some record =>
            rw [removeFrom_eq_some distinct found]
            simp only [change, of, Index.drop, entriesOf_filter_key]
  | removeWhere unwanted =>
      simp only [answer, Request.precheck, Request.verdict, values_of,
        Request.length_sub_length_filter_not]
      split
      · rfl
      · simp only [change, of, entriesOf_filter]
  | list query => simp only [answer, Request.precheck, Request.verdict, values_of]
  | all => simp only [answer, Request.precheck, Request.verdict, values_of]

end Dictionary

section Stores

variable {R : Type} [Record R]

/-- The blob of a collection holds what a dictionary holds, and was written as
often as the dictionary was changed. A blob that does not exist holds nothing. -/
structure Represents (collection : Collection R) (store : MemoryStore) (dictionary : Dictionary R) :
    Prop where
  keyed : IsKeyed dictionary.values
  filed : dictionary.entries.entries = entriesOf dictionary.values
  content : (store.version collection.blobKey).contentOrEmpty = encode dictionary.values
  revision : (store.version collection.blobKey).generation.number = dictionary.revision

/-- Store and dictionary agree on every request of a sequence: on what it returns,
on what there is afterwards, and on whether there was a change. Without one the
store is as it was, and with one all other blobs are. -/
def Agrees (collection : Collection R) : List (Request R) → MemoryStore → Dictionary R → Prop
  | [], _, _ => True
  | request :: later, store, dictionary =>
      let (reply, after) := (request.plan collection).run store
      let (expected, next) := dictionary.answer request
      reply = expected ∧
      Represents collection after next ∧
      (next.revision = dictionary.revision → after = store) ∧
      (∀ other, other ≠ collection.blobKey → after.version other = store.version other) ∧
      Agrees collection later after next

namespace Represents

variable {collection : Collection R} {store : MemoryStore} {dictionary : Dictionary R}

private theorem eq_of (represents : Represents collection store dictionary) :
    dictionary = Dictionary.of dictionary.values dictionary.revision := by
  obtain ⟨⟨entries⟩, revision⟩ := dictionary
  exact congrArg (fun filed => Dictionary.mk ⟨filed⟩ revision) represents.filed

private theorem of_records {records : List R} {revision : Nat} (keyed : IsKeyed records)
    (content : (store.version collection.blobKey).contentOrEmpty = encode records)
    (written : (store.version collection.blobKey).generation.number = revision) :
    Represents collection store (Dictionary.of records revision) where
  keyed := by
    rw [Dictionary.values_of]
    exact keyed
  filed := by
    rw [Dictionary.values_of]
    rfl
  content := by
    rw [Dictionary.values_of]
    exact content
  revision := written

/-- One request returns what the dictionary answers, and leaves what the dictionary
becomes. -/
theorem run (represents : Represents collection store dictionary)
    (room : dictionary.revision + 1 < UInt64.size) (request : Request R) :
    ((request.plan collection).run store).1 = (dictionary.answer request).1 ∧
    Represents collection ((request.plan collection).run store).2 (dictionary.answer request).2 ∧
    ((dictionary.answer request).2.revision = dictionary.revision ∧
        ((request.plan collection).run store).2 = store ∨
      (dictionary.answer request).2.revision = dictionary.revision + 1 ∧
        ∀ other, other ≠ collection.blobKey →
          ((request.plan collection).run store).2.version other = store.version other) := by
  have answer := Dictionary.answer_of collection represents.keyed.distinct
    dictionary.revision request
  rw [← represents.eq_of] at answer
  cases passed : request.precheck with
  | error failure =>
      rw [passed] at answer
      rw [answer, Request.run_plan_of_precheck passed]
      exact ⟨rfl, represents, Or.inl ⟨rfl, rfl⟩⟩
  | ok done =>
      have holds : decode (store.version collection.blobKey).contentOrEmpty =
          .ok dictionary.values := by
        rw [represents.content]
        exact decode_encode dictionary.values
      rw [passed] at answer
      rw [Request.run_plan_of_decode passed holds]
      cases decides : request.verdict collection dictionary.values with
      | answer result =>
          rw [decides] at answer
          rw [answer]
          exact ⟨rfl, represents, Or.inl ⟨rfl, rfl⟩⟩
      | change changed recordKey reply =>
          obtain ⟨following, next⟩ : ∃ following,
              (store.version collection.blobKey).generation.next? = some following := by
            apply Generation.exists_next?
            rw [represents.revision]
            exact room
          have number := Generation.number_of_next? next
          rw [represents.revision] at number
          rw [decides] at answer
          rw [answer, Request.carryOut, Request.run_commit next]
          refine ⟨rfl, of_records ?_ ?_ ?_, Or.inr ⟨rfl, ?_⟩⟩
          · exact Request.keyed_of_verdict represents.keyed passed decides
          · rw [MemoryStore.version_after_self]
            rfl
          · rw [MemoryStore.version_after_self]
            exact number
          · intro other apart
            rw [MemoryStore.version_after, if_neg apart]

/-- Store and dictionary agree for as long as there are marks. -/
theorem agrees (represents : Represents collection store dictionary) (requests : List (Request R))
    (room : dictionary.revision + requests.length < UInt64.size) :
    Agrees collection requests store dictionary := by
  induction requests generalizing store dictionary with
  | nil => trivial
  | cons request later inductionHypothesis =>
      rw [List.length_cons] at room
      obtain ⟨reply, after, change⟩ := represents.run (by omega) request
      have still : (dictionary.answer request).2.revision = dictionary.revision →
          ((request.plan collection).run store).2 = store := by
        intro unchanged
        rcases change with ⟨-, same⟩ | ⟨raised, -⟩
        · exact same
        · omega
      have frame : ∀ other, other ≠ collection.blobKey →
          ((request.plan collection).run store).2.version other = store.version other := by
        intro other apart
        rcases change with ⟨-, same⟩ | ⟨-, frame⟩
        · rw [same]
        · exact frame other apart
      have roomLater :
          (dictionary.answer request).2.revision + later.length < UInt64.size := by
        rcases change with ⟨kept, -⟩ | ⟨raised, -⟩
        · omega
        · omega
      exact ⟨reply, after, still, frame, inductionHypothesis after roomLater⟩

end Represents

/-- A blob that does not exist, or holds the encoding of records with distinct keys
that hold more than white space, is to requests one after another a dictionary of
these records in their order. The two agree step by step, and the mark of the blob
rises by one with every change of the dictionary and not otherwise. -/
theorem agrees_of_encoded_records (collection : Collection R) (records : List R)
    (store : MemoryStore) (requests : List (Request R)) (distinct : (records.map Record.key).Nodup)
    (named : ∀ key ∈ records.map Record.key, Text.blank key = false)
    (content : (store.version collection.blobKey).contentOrEmpty = encode records)
    (room :
      (store.version collection.blobKey).generation.number + requests.length < UInt64.size) :
    Agrees collection requests store
      (Dictionary.of records (store.version collection.blobKey).generation.number) := by
  have represents : Represents collection store
      (Dictionary.of records (store.version collection.blobKey).generation.number) :=
    Represents.of_records ⟨distinct, named⟩ content rfl
  exact represents.agrees requests room

end Stores

theorem agrees_of_one_sample :
    Agrees Profiles.collection
      [.create sampleProfile, .update "u-1" "likes tea", .remove "u-2",
        .removeWhere fun _ => true, .all]
      (MemoryStore.empty.after "profiles.jsonl"
        ⟨encode [sampleProfile], contentType, ⟨7⟩⟩)
      (Dictionary.of [sampleProfile] 7) := by
  apply agrees_of_encoded_records Profiles.collection [sampleProfile]
  case distinct => decide +kernel
  case named => decide +kernel
  case content => rfl
  case room => decide +kernel

end RoomLedger.Collection
