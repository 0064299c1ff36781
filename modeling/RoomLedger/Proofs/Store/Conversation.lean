import RoomLedger.Store.Interference

/-!
Contract: operations whose calls are answered in any way.

Owns:
- `Exchange`, a call of a store with its answer;
- `Respondent`, whoever answers calls, with whatever it keeps in mind;
- `Plan.talk`, the exchanges of an operation with a respondent, and its result;
- `Respondent.ofStore`, by which every store is a respondent, and `Respondent.amid`, by which
  a store is that others use too, or that fails.

A respondent may answer from a store, from memory of what was asked, or with faults
and bytes of its own choice; the same question may get another answer next time.

Does not own: what operations ask.
-/

namespace RoomLedger.Store

open RoomLedger.Text (Bytes)

/-- A call of a store with its answer. -/
inductive Exchange where
  | read (key : String) (answer : Except Error Version)
  | write (key contentType : String) (content : Bytes) (expected : Generation)
      (answer : Except Error Generation)

def Exchange.call : Exchange → Call
  | .read key _ => .read key
  | .write key contentType content expected _ => .write key contentType content expected

def Exchange.isWrite : Exchange → Bool
  | .read _ _ => false
  | .write _ _ _ _ _ => true

/-- Whoever answers the calls of a store. What it keeps in mind is a value of `S`. -/
structure Respondent (S : Type) where
  read : S → (key : String) → Except Error Version × S
  write : S → (key contentType : String) → (content : Bytes) → (expected : Generation) →
    Except Error Generation × S

/-- The calls of an operation with their answers, and what the operation returns. -/
structure Talk (α : Type) where
  exchanges : List Exchange
  result : α

/-- A talk that began with another exchange. -/
def Talk.after {α : Type} (exchange : Exchange) (talk : Talk α) : Talk α where
  exchanges := exchange :: talk.exchanges
  result := talk.result

variable {S α : Type}

/-- What an operation and a respondent have to say to each other. -/
def Plan.talk (respondent : Respondent S) : Plan α → S → Talk α
  | .done result, _ => ⟨[], result⟩
  | .read key next, state =>
      let (answer, after) := respondent.read state key
      ((next answer).talk respondent after).after (.read key answer)
  | .write key contentType content expected next, state =>
      let (answer, after) := respondent.write state key contentType content expected
      ((next answer).talk respondent after).after (.write key contentType content expected answer)

@[simp] theorem Plan.talk_done (respondent : Respondent S) (result : α) (state : S) :
    (Plan.done result).talk respondent state = ⟨[], result⟩ := rfl

@[simp] theorem Plan.talk_read (respondent : Respondent S) (key : String)
    (next : Except Error Version → Plan α) (state : S) :
    (Plan.read key next).talk respondent state =
      ((next (respondent.read state key).1).talk respondent (respondent.read state key).2).after
        (.read key (respondent.read state key).1) := rfl

@[simp] theorem Plan.talk_write (respondent : Respondent S) (key contentType : String)
    (content : Bytes) (expected : Generation) (next : Except Error Generation → Plan α)
    (state : S) :
    let answer := respondent.write state key contentType content expected
    (Plan.write key contentType content expected next).talk respondent state =
      ((next answer.1).talk respondent answer.2).after
        (.write key contentType content expected answer.1) := rfl

/-- A store as a respondent. -/
def Respondent.ofStore (S : Type) [BlobStore S] : Respondent S where
  read store key := (BlobStore.read store key, store)
  write := BlobStore.write

/-- An operation returns to a store what it returns when the store is its respondent. -/
theorem Plan.result_talk_ofStore [BlobStore S] (plan : Plan α) (store : S) :
    (plan.talk (.ofStore S) store).result = (plan.run store).1 := by
  induction plan generalizing store with
  | done result => rfl
  | read key next inductionHypothesis => exact inductionHypothesis _ store
  | write key contentType content expected next inductionHypothesis =>
      exact inductionHypothesis _ _

/-- A store as a respondent, with what an operation on it may meet. -/
def Respondent.amid (S : Type) [BlobStore S] : Respondent (Interference × S) where
  read state key :=
    (match state.1.readFailure with
      | some error => .error error
      | none => BlobStore.read state.2 key, state)
  write state key contentType content expected :=
    let contested := state.1.yield state.2
    let (answer, after) :=
      match state.1.writeFailure with
      | some error => (.error error, contested)
      | none => BlobStore.write contested key contentType content expected
    (answer, { state.1 with rival := none }, after)

/-- Whatever an operation meets, its calls and its result are those of a talk. -/
theorem Plan.talk_amid [BlobStore S] (plan : Plan α) (around : Interference) (store : S) :
    let talk := plan.talk (.amid S) (around, store)
    let outcome := plan.runAmid around store
    talk.result = outcome.result ∧ talk.exchanges.map Exchange.call = outcome.calls := by
  induction plan generalizing around store with
  | done result => exact ⟨rfl, rfl⟩
  | read key next inductionHypothesis =>
      obtain ⟨result, calls⟩ := inductionHypothesis _ around store
      exact ⟨result, congrArg (Call.read key :: ·) calls⟩
  | write key contentType content expected next inductionHypothesis =>
      obtain ⟨result, calls⟩ := inductionHypothesis _ { around with rival := none } _
      exact ⟨result, congrArg (Call.write key contentType content expected :: ·) calls⟩

end RoomLedger.Store
