import RoomLedger.Store.Plan

/-!
Contract: operations on a store that others use too, or that fails.

Owns:
- `Interference`, a rival write and two failures that an operation may meet;
- `Plan.runAmid`, which also tells the calls that were made;
- `Plan.runAmid_nothing`, by which an operation that meets nothing ends as it does alone.

The rival comes in between the operation's read and its write, at the mark that
the rival's blob has by then. A failure takes the place of the store's answer,
and the call does not reach the store.

Does not own: the order of calls of several operations.
-/

namespace RoomLedger.Store

open RoomLedger.Text (Bytes)

/-- A blob that another writer puts. -/
structure Rival where
  key : String
  contentType : String
  content : Bytes
deriving DecidableEq, Repr

/-- What an operation may meet. -/
structure Interference where
  /-- The writer that comes before the next write. -/
  rival : Option Rival := none
  /-- The answer to every read. -/
  readFailure : Option Error := none
  /-- The answer to every write. -/
  writeFailure : Option Error := none
deriving Repr

/-- An operation that has come to its end. -/
structure Outcome (S α : Type) where
  result : α
  store : S
  /-- The calls that were made, in order. -/
  calls : List Call

variable {S α : Type} [BlobStore S]

/-- Puts a blob at the mark that its key has. -/
def overwrite (rival : Rival) (store : S) : Except Error Generation × S :=
  match BlobStore.generation store rival.key with
  | .error error => (.error error, store)
  | .ok generation =>
      BlobStore.write store rival.key rival.contentType rival.content generation

/-- The store after the rival, if there is one. -/
def Interference.yield (around : Interference) (store : S) : S :=
  match around.rival with
  | none => store
  | some rival => (overwrite rival store).2

def Plan.runAmid : Interference → Plan α → S → Outcome S α
  | _, .done result, store => { result, store, calls := [] }
  | around, .read key next, store =>
      let answer :=
        match around.readFailure with
        | some error => .error error
        | none => BlobStore.read store key
      let rest := runAmid around (next answer) store
      { rest with calls := .read key :: rest.calls }
  | around, .write key contentType content expected next, store =>
      let contested := around.yield store
      let left : Interference := { around with rival := none }
      let (answer, after) :=
        match around.writeFailure with
        | some error => (.error error, contested)
        | none => BlobStore.write contested key contentType content expected
      let rest := runAmid left (next answer) after
      { rest with calls := .write key contentType content expected :: rest.calls }

/-- An operation that meets nothing ends as it does alone. -/
theorem Plan.runAmid_nothing (plan : Plan α) (store : S) :
    ((plan.runAmid {} store).result, (plan.runAmid {} store).store) = plan.run store := by
  induction plan generalizing store with
  | done result => rfl
  | read key next inductionHypothesis => exact inductionHypothesis _ store
  | write key contentType content expected next inductionHypothesis =>
      exact inductionHypothesis _ _

end RoomLedger.Store
