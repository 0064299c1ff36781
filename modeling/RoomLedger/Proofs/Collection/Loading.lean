import RoomLedger.Proofs.Collection.Committal

/-!
Contract: operations that only read a collection.

Owns:
- `run_mapResult`, by which a result is passed on and the store is left as the operation
  leaves it;
- `Collection.answering`, an operation that answers with what is made of the records,
  and `Collection.held`, the records that it finds;
- `run_load`, by which an operation goes on with the records that the blob holds;
- `run_list`, by which a list is what the query makes of them, and nothing is written.

The store may be any one that keeps blobs.

Does not own: what queries make of records.
-/

namespace RoomLedger

open RoomLedger.Store (BlobStore Version)

variable {S α β : Type} [BlobStore S]

theorem run_mapResult (operation : Operation α) (change : α → β) (store : S) :
    (operation.mapResult change).run store =
      ((operation.run store).1.map change, (operation.run store).2) := by
  rw [mapResult_eq, Store.Plan.run_bind]
  rfl

namespace Collection

variable {R : Type} [Record R] {collection : Collection R} {store : S} {version : Version}
  {records : List R}

theorem run_load (finds : BlobStore.read store collection.blobKey = .ok version)
    (holds : decode version.contentOrEmpty = .ok records) (next : Snapshot R → Operation α) :
    (collection.load next).run store = (next ⟨records, version.generation⟩).run store := by
  simp only [load, Store.Plan.run, finds, snapshot, holds, Operation.after]

/-- Reads the records and answers with what is made of them. -/
def answering (collection : Collection R) (make : List R → α) : Operation α :=
  collection.load fun found => .done (.ok (make found.records))

theorem list_eq_answering (collection : Collection R) (query : Query) :
    collection.list query = collection.answering query.apply := rfl

theorem mapResult_answering (collection : Collection R) (make : List R → α) (change : α → β) :
    (collection.answering make).mapResult change =
      collection.answering fun records => change (make records) :=
  Request.mapResult_load collection change _

/-- The records that the collection has in a store, or why they cannot be told. -/
def held (collection : Collection R) (store : S) : Except Failure (List R) :=
  (collection.snapshot (BlobStore.read store collection.blobKey)).map Snapshot.records

theorem run_answering (collection : Collection R) (make : List R → α) (store : S) :
    (collection.answering make).run store = ((collection.held store).map make, store) := by
  rw [answering, held]
  simp only [load, Store.Plan.run]
  cases collection.snapshot (BlobStore.read store collection.blobKey) with
  | error failure => rfl
  | ok found => rfl

theorem run_list (finds : BlobStore.read store collection.blobKey = .ok version)
    (holds : decode version.contentOrEmpty = .ok records) (query : Query) :
    (collection.list query).run store = (.ok (query.apply records), store) := by
  rw [list, run_load finds holds]
  rfl

end Collection

end RoomLedger
