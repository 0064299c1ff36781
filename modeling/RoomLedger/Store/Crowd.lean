import RoomLedger.Store.Plan

/-!
Contract: several operations on one store whose calls mix.

Owns:
- `Crowd`, operations under way and the store that they share;
- `Crowd.advance`, the next call of one of them;
- `Crowd.follow`, calls in the order of a schedule, which names the operation
  whose turn it is;
- `roundRobin`, the schedule in which all take turns.

A call is atomic. An operation that is done lets its turn pass, and so does a
number that names none.

Does not own: the operations.
-/

namespace RoomLedger.Store

/-- Operations under way and the store that they share. -/
structure Crowd (S α : Type) where
  plans : List (Plan α)
  store : S

/-- The result of an operation that is done. -/
def Plan.result? {α : Type} : Plan α → Option α
  | .done result => some result
  | _ => none

namespace Crowd

variable {S α : Type} [BlobStore S]

/-- The crowd after the next call of one operation. -/
def advance (crowd : Crowd S α) (index : Nat) : Crowd S α :=
  match crowd.plans[index]? with
  | none => crowd
  | some plan =>
      let (next, store) := plan.step crowd.store
      { plans := crowd.plans.set index next, store }

/-- The crowd after the calls of a schedule. -/
def follow (crowd : Crowd S α) (schedule : List Nat) : Crowd S α :=
  schedule.foldl advance crowd

/-- The results of the operations that are done. -/
def results (crowd : Crowd S α) : List α :=
  crowd.plans.filterMap Plan.result?

@[simp] theorem follow_nil (crowd : Crowd S α) : crowd.follow [] = crowd := rfl

@[simp] theorem follow_cons (crowd : Crowd S α) (index : Nat) (schedule : List Nat) :
    crowd.follow (index :: schedule) = (crowd.advance index).follow schedule := rfl

/-- What follows one schedule after another follows both. -/
theorem follow_append (crowd : Crowd S α) (first second : List Nat) :
    crowd.follow (first ++ second) = (crowd.follow first).follow second :=
  List.foldl_append

@[simp] theorem length_plans_advance (crowd : Crowd S α) (index : Nat) :
    (crowd.advance index).plans.length = crowd.plans.length := by
  unfold advance
  split <;> simp

end Crowd

/-- So many rounds in which each of so many operations has a turn. -/
def roundRobin (rounds count : Nat) : List Nat :=
  (List.replicate rounds (List.range count)).flatten

end RoomLedger.Store
