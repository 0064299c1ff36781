import RoomLedger.Collection.Basic
import RoomLedger.Proofs.Store.Transaction

/-!
Contract: the operations of a collection as one kind of transaction.

Owns:
- `Request`, a call with its arguments, and `Reply`, what a call returns;
- `Request.precheck`, what a request checks before it reads, and
  `Request.verdict`, what it decides by the records that it reads;
- `plan_eq`, by which every operation is a check, a read, a verdict and at most
  one write;
- `isTransaction_plan`, the same in terms of the store.

Does not own: runs of several requests.
-/

namespace RoomLedger

open RoomLedger.Store (BlobStore Error Generation MemoryStore Plan Version)

namespace Collection

/-- A call of a collection with its arguments. -/
inductive Request (R : Type) where
  | create (record : R)
  | get (key : String)
  | update (key value : String)
  | remove (key : String)
  | removeWhere (unwanted : R → Bool)
  | list (query : Query)
  | all

/-- What a call of a collection returns. -/
inductive Reply (R : Type) where
  | record (value : R)
  | records (values : List R)
  | count (number : Nat)
deriving DecidableEq, Repr

/-- What a request decides by the records that it reads. -/
inductive Verdict (R : Type) where
  | answer (result : Except Failure (Reply R))
  | change (records : List R) (recordKey : String) (reply : Reply R)

end Collection

/-! ## Results passed on -/

namespace Operation

variable {α β γ : Type}

theorem mapResult_after (change : β → γ) (check : Except Failure α) (next : α → Operation β) :
    mapResult change (after check next) =
      after check fun value => mapResult change (next value) := by
  cases check with
  | error failure => rfl
  | ok value => rfl

end Operation

namespace Collection.Request

variable {R : Type} [Record R]

/-- The operation of a request. -/
def plan (collection : Collection R) : Request R → Operation (Reply R)
  | .create record => (collection.create record).mapResult .record
  | .get key => (collection.get key).mapResult .record
  | .update key value => (collection.update key value).mapResult .record
  | .remove key => (collection.remove key).mapResult .record
  | .removeWhere unwanted => (collection.removeWhere unwanted).mapResult .count
  | .list query => (collection.list query).mapResult .records
  | .all => collection.all.mapResult .records

/-- What a request checks before it reads. -/
def precheck : Request R → Except Failure Unit
  | .create record =>
      match requireKey (Record.kind R) (Record.key record) with
      | .error failure => .error failure
      | .ok () => requireSound record
  | .get key => requireKey (Record.kind R) key
  | .update key _ => requireKey (Record.kind R) key
  | .remove key => requireKey (Record.kind R) key
  | .removeWhere _ => .ok ()
  | .list _ => .ok ()
  | .all => .ok ()

/-- What a request decides by the records that it reads. -/
def verdict (collection : Collection R) : Request R → List R → Verdict R
  | .create record, records =>
      match find? (Record.key record) records with
      | some _ => .answer (.error (.conflict (Record.key record) .duplicate))
      | none => .change (records ++ [record]) (Record.key record) (.record record)
  | .get key, records =>
      match find? key records with
      | none => .answer (.error (.notFound key))
      | some record => .answer (.ok (.record record))
  | .update key value, records =>
      match amendIn key value records with
      | none => .answer (.error (.notFound key))
      | some (amended, changed) => .change changed key (.record amended)
  | .remove key, records =>
      match removeFrom key records with
      | none => .answer (.error (.notFound key))
      | some (removed, others) => .change others key (.record removed)
  | .removeWhere unwanted, records =>
      let kept := records.filter fun record => !unwanted record
      let removed := records.length - kept.length
      if removed = 0 then .answer (.ok (.count 0))
      else .change kept collection.blobKey (.count removed)
  | .list query, records => .answer (.ok (.records (query.apply records)))
  | .all, records => .answer (.ok (.records records))

/-- Carries a verdict out at the mark at which the records were read. -/
def carryOut (collection : Collection R) (generation : Generation) : Verdict R → Operation (Reply R)
  | .answer result => .done result
  | .change records recordKey reply => collection.commit records generation recordKey reply

/-! ## One form for all requests -/

theorem mapResult_load {α β : Type} (collection : Collection R) (change : α → β)
    (next : Snapshot R → Operation α) :
    (collection.load next).mapResult change =
      collection.load fun found => (next found).mapResult change := by
  have each : ∀ answer,
      (Operation.after (collection.snapshot answer) next).mapResult change =
        Operation.after (collection.snapshot answer) fun found => (next found).mapResult change :=
    fun answer => Operation.mapResult_after change (collection.snapshot answer) next
  exact congrArg (Plan.read collection.blobKey) (funext each)

private theorem mapResult_commit {α β : Type} (collection : Collection R) (change : α → β)
    (records : List R) (generation : Generation) (recordKey : String) (result : α) :
    (collection.commit records generation recordKey result).mapResult change =
      collection.commit records generation recordKey (change result) := by
  have each : ∀ answer : Except Error Generation,
      Operation.mapResult change (.done (collection.settle recordKey result answer)) =
        .done (collection.settle recordKey (change result) answer) := by
    intro answer
    cases answer with
    | ok generation => rfl
    | error error =>
        simp only [settle]
        split <;> rfl
  exact congrArg (Plan.write collection.blobKey contentType (encode records) generation)
    (funext each)

/-- Every operation checks, reads, decides and carries its verdict out. -/
theorem plan_eq (collection : Collection R) (request : Request R) :
    request.plan collection =
      Operation.after request.precheck fun () =>
        collection.load fun found =>
          carryOut collection found.generation (request.verdict collection found.records) := by
  cases request with
  | create record =>
      simp only [plan, Collection.create, Operation.mapResult_after, mapResult_load]
      cases blank : requireKey (Record.kind R) (Record.key record) with
      | error failure => simp only [precheck, blank, Operation.after]
      | ok passed =>
          simp only [precheck, blank, Operation.after]
          split
          · rfl
          · congr
            funext found
            simp only [verdict]
            cases find? (Record.key record) found.records with
            | some other => rfl
            | none => exact mapResult_commit collection _ _ _ _ _
  | get key =>
      simp only [plan, Collection.get, Operation.mapResult_after, mapResult_load, precheck]
      congr
      funext passed
      congr
      funext found
      simp only [verdict]
      cases find? key found.records with
      | none => rfl
      | some record => rfl
  | update key value =>
      simp only [plan, Collection.update, Operation.mapResult_after, mapResult_load, precheck]
      congr
      funext passed
      congr
      funext found
      simp only [verdict]
      cases amendIn key value found.records with
      | none => rfl
      | some amended => exact mapResult_commit collection _ _ _ _ _
  | remove key =>
      simp only [plan, Collection.remove, Operation.mapResult_after, mapResult_load, precheck]
      congr
      funext passed
      congr
      funext found
      simp only [verdict]
      cases removeFrom key found.records with
      | none => rfl
      | some removed => exact mapResult_commit collection _ _ _ _ _
  | removeWhere unwanted =>
      simp only [plan, Collection.removeWhere, mapResult_load, precheck, Operation.after]
      congr
      funext found
      simp only [verdict]
      split
      · rfl
      · exact mapResult_commit collection _ _ _ _ _
  | list query =>
      simp only [plan, Collection.list, mapResult_load, precheck, Operation.after]
      rfl
  | all =>
      simp only [plan, Collection.all, mapResult_load, precheck, Operation.after]
      rfl

/-! ## Transactions -/

/-- The result tells that the collection changed between the read and the write. -/
def IsStale {α : Type} (result : Except Failure α) : Prop :=
  ∃ recordKey, result = .error (.conflict recordKey .staleGeneration)

omit [Record R] in
private theorem isStale_settle_iff {α : Type} (collection : Collection R) (recordKey : String)
    (result : α) (answer : Except Error Generation) :
    IsStale (collection.settle recordKey result answer) ↔
      ∃ error, answer = .error error ∧ error.isPrecondition = true := by
  cases answer with
  | ok generation => simp [settle, IsStale]
  | error error =>
      by_cases late : error.isPrecondition = true
      · simp [settle, IsStale, late]
      · simp [settle, IsStale, late]

private theorem commits_carryOut (collection : Collection R) (generation : Generation)
    (verdict : Verdict R) :
    (carryOut collection generation verdict).Commits collection.blobKey IsStale generation := by
  cases verdict with
  | answer result => exact Plan.Commits.done result
  | change records recordKey reply =>
      exact Plan.Commits.write contentType (encode records)
        (collection.settle recordKey reply) (isStale_settle_iff collection recordKey reply)

/-- Every operation of a collection is a transaction on its blob. -/
theorem isTransaction_plan (collection : Collection R) (request : Request R) :
    (request.plan collection).IsTransaction collection.blobKey IsStale := by
  rw [plan_eq]
  cases request.precheck with
  | error failure => exact Plan.IsTransaction.done _
  | ok passed =>
      apply Plan.IsTransaction.read
      intro version
      cases decoded : decode (R := R) version.contentOrEmpty with
      | error fault =>
          simp only [snapshot, decoded]
          exact Plan.Commits.done _
      | ok records =>
          simp only [snapshot, decoded]
          exact commits_carryOut collection version.generation _

/-! ## One request that has the store for itself -/

theorem run_plan_of_precheck {collection : Collection R} {request : Request R} {failure : Failure}
    (refused : request.precheck = .error failure) (store : MemoryStore) :
    (request.plan collection).run store = (.error failure, store) := by
  rw [plan_eq, refused]
  rfl

/-- A request decides by the records that the blob holds. -/
theorem run_plan_of_decode {collection : Collection R} {request : Request R} {store : MemoryStore}
    {records : List R} (passed : request.precheck = .ok ())
    (holds : decode (store.version collection.blobKey).contentOrEmpty = .ok records) :
    (request.plan collection).run store =
      (carryOut collection (store.version collection.blobKey).generation
        (request.verdict collection records)).run store := by
  rw [plan_eq, passed]
  simp only [Operation.after, load, Plan.run, MemoryStore.read_of_isKey collection.isKey, snapshot,
    holds]

/-- A change at the present mark is written, unless the marks are used up. -/
theorem run_commit {collection : Collection R} {store : MemoryStore} {following : Generation}
    (next : (store.version collection.blobKey).generation.next? = some following) (records : List R)
    (recordKey : String) (reply : Reply R) :
    (collection.commit records (store.version collection.blobKey).generation recordKey reply).run
        store =
      (.ok reply, store.after collection.blobKey ⟨encode records, contentType, following⟩) := by
  have answer := MemoryStore.write_of_next? collection.isKey next contentType (encode records)
  simp only [commit, Plan.run, answer, settle]

/-- Where the marks are used up, a change is not written. -/
theorem run_commit_of_exhausted {collection : Collection R} {store : MemoryStore}
    (isLast : (store.version collection.blobKey).generation.next? = none) (records : List R)
    (recordKey : String) (reply : Reply R) :
    (collection.commit records (store.version collection.blobKey).generation recordKey reply).run
        store =
      (.error (.store collection.blobKey (.corrupt collection.blobKey .exhausted)), store) := by
  have answer :=
    MemoryStore.write_of_exhausted collection.isKey isLast contentType (encode records)
  simp only [commit, Plan.run, answer]
  rfl

end Collection.Request

end RoomLedger
