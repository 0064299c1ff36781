import RoomLedger.Proofs.Collection.Request
import RoomLedger.Proofs.Store.Once
import RoomLedger.Proofs.Store.Unwritten

/-!
Contract: requests that succeed only if their write is taken.

Owns:
- `Request.returnsUnwritten_plan`, what a request returns of which no write is taken;
- `Request.isChange`, the requests that fail then;
- `Request.endsInWrite_plan`, by which a request is done when its write was answered;
- results that are passed on, which are failures where they were.

Does not own: which writes are taken.
-/

namespace RoomLedger

open RoomLedger.Store (BlobStore Plan)

/-- The result of an operation that failed. -/
def IsFailure {ε α : Type} (result : Except ε α) : Prop :=
  ∃ failure, result = .error failure

private theorem isFailure_map_iff {ε α β : Type} (change : α → β) (result : Except ε α) :
    IsFailure (result.map change) ↔ IsFailure result := by
  cases result with
  | error failure => exact ⟨fun _ => ⟨failure, rfl⟩, fun _ => ⟨failure, rfl⟩⟩
  | ok value =>
      constructor
      · rintro ⟨failure, impossible⟩
        cases impossible
      · rintro ⟨failure, impossible⟩
        cases impossible

section Passed

variable {α β : Type} (operation : Operation α) (change : α → β)

theorem mapResult_eq :
    operation.mapResult change = operation.bind fun result => .done (result.map change) := by
  rw [Operation.mapResult]
  congr
  funext result
  cases result with
  | error failure => rfl
  | ok value => rfl

/-- A result that is passed on is a failure exactly where it was one. -/
theorem returnsUnwritten_mapResult_iff :
    (operation.mapResult change).ReturnsUnwritten IsFailure ↔
      operation.ReturnsUnwritten IsFailure := by
  rw [mapResult_eq, Plan.returnsUnwritten_map_iff]
  simp only [isFailure_map_iff]

theorem isFailure_run_mapResult_iff {S : Type} [BlobStore S] (store : S) :
    IsFailure ((operation.mapResult change).run store).1 ↔
      IsFailure (operation.run store).1 := by
  rw [mapResult_eq, Plan.run_bind]
  exact isFailure_map_iff change _

end Passed

namespace Collection.Request

variable {R : Type} [Record R]

/-- A request of which no write is taken returns a failure, or what it decides without
a change. -/
theorem returnsUnwritten_plan {collection : Collection R} {request : Request R}
    {isAllowed : Except Failure (Reply R) → Prop} (fails : ∀ failure, isAllowed (.error failure))
    (answers : ∀ records result, request.verdict collection records = .answer result →
      isAllowed result) :
    (request.plan collection).ReturnsUnwritten isAllowed := by
  rw [plan_eq]
  cases request.precheck with
  | error failure => exact fails failure
  | ok passed =>
      intro answer
      change (Operation.after (collection.snapshot answer) _).ReturnsUnwritten _
      cases collection.snapshot answer with
      | error failure => exact fails failure
      | ok snapshot =>
          simp only [Operation.after]
          cases decides : request.verdict collection snapshot.records with
          | answer result => exact answers snapshot.records result decides
          | change changed recordKey reply =>
              intro error
              simp only [Plan.ReturnsUnwritten, settle]
              split
              · exact fails _
              · exact fails _

/-- A write is the last call of a request. -/
theorem endsInWrite_plan (collection : Collection R) (request : Request R) :
    (request.plan collection).EndsInWrite := by
  rw [plan_eq]
  cases request.precheck with
  | error failure => trivial
  | ok passed =>
      intro answer
      change (Operation.after (collection.snapshot answer) _).EndsInWrite
      cases collection.snapshot answer with
      | error failure => trivial
      | ok snapshot =>
          simp only [Operation.after]
          cases request.verdict collection snapshot.records with
          | answer result => trivial
          | change changed recordKey reply => exact fun answer => ⟨_, rfl⟩

/-- A request for a change of one record. -/
def isChange : Request R → Bool
  | .create _ | .update _ _ | .remove _ => true
  | _ => false

theorem isFailure_of_verdict {collection : Collection R} {request : Request R} {records : List R}
    {result : Except Failure (Reply R)} (changes : request.isChange = true)
    (decides : request.verdict collection records = .answer result) :
    IsFailure result := by
  cases request with
  | create record =>
      rw [verdict] at decides
      split at decides
      · cases decides
        exact ⟨_, rfl⟩
      · cases decides
  | update key value =>
      rw [verdict] at decides
      split at decides
      · cases decides
        exact ⟨_, rfl⟩
      · cases decides
  | remove key =>
      rw [verdict] at decides
      split at decides
      · cases decides
        exact ⟨_, rfl⟩
      · cases decides
  | get key => cases changes
  | removeWhere unwanted => cases changes
  | list query => cases changes
  | all => cases changes

/-- A request for a change fails unless its write is taken. -/
theorem returnsUnwritten_of_isChange {request : Request R} (changes : request.isChange = true)
    (collection : Collection R) :
    (request.plan collection).ReturnsUnwritten IsFailure :=
  returnsUnwritten_plan (fun failure => ⟨failure, rfl⟩)
    fun _ _ decides => isFailure_of_verdict changes decides

end Collection.Request

end RoomLedger
