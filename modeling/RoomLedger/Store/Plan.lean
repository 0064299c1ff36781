import RoomLedger.Store.Basic

/-!
Contract: operations as the store calls they make.

Owns:
- `Call`, one call of a store;
- `Plan`, an operation that makes calls one after another and decides by their
  answers how to go on;
- `Plan.run`, an operation that has a store for itself;
- `Plan.step`, the next call of an operation whose calls may mix with those of
  other operations.

An operation is a value, so what it calls and what it returns can be told for a
store that answers in any way.

Does not own: the operations.
-/

namespace RoomLedger.Store

open RoomLedger.Text (Bytes)

/-- A call of a store. -/
inductive Call where
  | read (key : String)
  | write (key contentType : String) (content : Bytes) (expected : Generation)
deriving DecidableEq, Repr

def Call.key : Call → String
  | .read key => key
  | .write key _ _ _ => key

def Call.isWrite : Call → Bool
  | .read _ => false
  | .write _ _ _ _ => true

/-- An operation that makes calls and decides by their answers how to go on. -/
inductive Plan (α : Type) where
  | done (result : α)
  | read (key : String) (next : Except Error Version → Plan α)
  | write (key contentType : String) (content : Bytes) (expected : Generation)
      (next : Except Error Generation → Plan α)

namespace Plan

variable {α β γ : Type}

def bind : Plan α → (α → Plan β) → Plan β
  | done result, next => next result
  | read key rest, next => read key fun answer => (rest answer).bind next
  | write key contentType content expected rest, next =>
      write key contentType content expected fun answer => (rest answer).bind next

instance : Monad Plan where
  pure := done
  bind := bind

@[simp] theorem pure_bind_done (result : α) (next : α → Plan β) :
    (done result).bind next = next result := rfl

theorem bind_assoc (plan : Plan α) (next : α → Plan β) (last : β → Plan γ) :
    (plan.bind next).bind last = plan.bind fun result => (next result).bind last := by
  induction plan with
  | done result => rfl
  | read key rest inductionHypothesis =>
    simp only [bind]
    congr
    funext answer
    exact inductionHypothesis answer
  | write key contentType content expected rest inductionHypothesis =>
    simp only [bind]
    congr
    funext answer
    exact inductionHypothesis answer

variable {S : Type} [BlobStore S]

/-- The operation after its next call, and the store after that call. -/
def step : Plan α → S → Plan α × S
  | done result, store => (done result, store)
  | read key next, store => (next (BlobStore.read store key), store)
  | write key contentType content expected next, store =>
      let (answer, after) := BlobStore.write store key contentType content expected
      (next answer, after)

/-- What an operation returns that has the store for itself, and what it leaves
behind. -/
def run : Plan α → S → α × S
  | done result, store => (result, store)
  | read key next, store => (next (BlobStore.read store key)).run store
  | write key contentType content expected next, store =>
      let (answer, after) := BlobStore.write store key contentType content expected
      (next answer).run after

@[simp] theorem run_done (result : α) (store : S) : (done result).run store = (result, store) := rfl

/-- The second of two operations finds what the first one leaves behind. -/
theorem run_bind (plan : Plan α) (next : α → Plan β) (store : S) :
    (plan.bind next).run store = (next (plan.run store).1).run (plan.run store).2 := by
  induction plan generalizing store with
  | done result => rfl
  | read key rest inductionHypothesis => exact inductionHypothesis _ store
  | write key contentType content expected rest inductionHypothesis =>
    exact inductionHypothesis _ _

end Plan

end RoomLedger.Store
