import RoomLedger.Proofs.Store.History
import RoomLedger.Proofs.Store.Transaction

/-!
Contract: operations that leave a key as it is.

Owns:
- `Plan.IsOn`, an operation all of whose calls name one key;
- `Plan.Spares`, an operation that does not write a key as long as it finds one
  version there, and the sort of its results then;
- `Plan.runAll_of_spares` and `Crowd.follow_of_spares`, by which the key keeps that
  version whether such operations come one after another or their calls mix.

Does not own: why an operation spares a key.
-/

namespace RoomLedger.Store

variable {α β : Type} {key : String} {version : Version}

/-! ## Operations on one key -/

/-- Every call of the operation names that key, whatever the store answers. -/
def Plan.IsOn (key : String) : Plan α → Prop
  | .done _ => True
  | .read place next => place = key ∧ ∀ answer, (next answer).IsOn key
  | .write place _ _ _ next => place = key ∧ ∀ answer, (next answer).IsOn key

theorem Plan.IsOn.bind {plan : Plan α} {next : α → Plan β} (first : plan.IsOn key)
    (second : ∀ result, (next result).IsOn key) :
    (plan.bind next).IsOn key := by
  induction plan with
  | done result => exact second result
  | read place rest inductionHypothesis =>
      exact ⟨first.1, fun answer => inductionHypothesis answer (first.2 answer)⟩
  | write place contentType content expected rest inductionHypothesis =>
      exact ⟨first.1, fun answer => inductionHypothesis answer (first.2 answer)⟩

/-! ## Operations that spare a key -/

/-- As long as every read of the key finds that version, the operation does not write
the key, and what it returns is of the sort. -/
def Plan.Spares (key : String) (version : Version) (isAllowed : α → Prop) : Plan α → Prop
  | .done result => isAllowed result
  | .read place next =>
      ∀ answer, (place = key → answer = .ok version) → (next answer).Spares key version isAllowed
  | .write place _ _ _ next =>
      place ≠ key ∧ ∀ answer, (next answer).Spares key version isAllowed

theorem Plan.Spares.weaken {isAllowed isAccepted : α → Prop} {plan : Plan α}
    (spares : plan.Spares key version isAllowed)
    (accepts : ∀ result, isAllowed result → isAccepted result) :
    plan.Spares key version isAccepted := by
  induction plan with
  | done result => exact accepts result spares
  | read place next inductionHypothesis =>
      intro answer finds
      exact inductionHypothesis answer (spares answer finds)
  | write place contentType content expected next inductionHypothesis =>
      exact ⟨spares.1, fun answer => inductionHypothesis answer (spares.2 answer)⟩

/-- An operation on one key spares every other one. -/
theorem Plan.IsOn.spares {isAllowed : α → Prop} {place : String} {plan : Plan α}
    (isOn : plan.IsOn place) (apart : place ≠ key) (allowed : ∀ result, isAllowed result) :
    plan.Spares key version isAllowed := by
  induction plan with
  | done result => exact allowed result
  | read other next inductionHypothesis =>
      intro answer _
      exact inductionHypothesis answer (isOn.2 answer)
  | write other contentType content expected next inductionHypothesis =>
      obtain ⟨rfl, later⟩ := isOn
      exact ⟨apart, fun answer => inductionHypothesis answer (later answer)⟩

section Memory

variable {isAllowed : α → Prop} {store : MemoryStore}

private theorem Plan.Spares.step {plan : Plan α} (spares : plan.Spares key version isAllowed)
    (finds : BlobStore.read store key = .ok version) :
    (plan.step store).1.Spares key version isAllowed ∧
      BlobStore.read (plan.step store).2 key = .ok version := by
  cases plan with
  | done result => exact ⟨spares, finds⟩
  | read place next =>
      refine ⟨spares _ ?_, finds⟩
      rintro rfl
      exact finds
  | write place contentType content expected next =>
      obtain ⟨apart, later⟩ := spares
      refine ⟨later _, ?_⟩
      exact (MemoryStore.read_write_of_ne apart.symm store contentType content expected).trans finds

/-- An operation that has the store for itself leaves the key as it is. -/
theorem Plan.Spares.run {plan : Plan α} (spares : plan.Spares key version isAllowed)
    (finds : BlobStore.read store key = .ok version) :
    isAllowed (plan.run store).1 ∧ BlobStore.read (plan.run store).2 key = .ok version := by
  induction plan generalizing store with
  | done result => exact ⟨spares, finds⟩
  | read place next inductionHypothesis =>
      have later := spares.step finds
      exact inductionHypothesis _ later.1 later.2
  | write place contentType content expected next inductionHypothesis =>
      have later := spares.step finds
      exact inductionHypothesis _ later.1 later.2

/-- Operations of which each has the store for itself leave a key as it is that all of
them spare. -/
theorem Plan.runAll_of_spares {isAllowed : Nat → α → Prop} {plans : List (Plan α)}
    (spare : ∀ (index : Nat) (plan : Plan α), plans[index]? = some plan →
      plan.Spares key version (isAllowed index))
    (finds : BlobStore.read store key = .ok version) :
    (∀ index result, (Plan.runAll plans store).1[index]? = some result →
      isAllowed index result) ∧
      BlobStore.read (Plan.runAll plans store).2 key = .ok version := by
  induction plans generalizing isAllowed store with
  | nil => exact ⟨fun _ _ returned => (by cases returned), finds⟩
  | cons plan others inductionHypothesis =>
      have first := (spare 0 plan rfl).run finds
      have later := inductionHypothesis (fun index => spare (index + 1)) first.2
      refine ⟨?_, later.2⟩
      intro index result returned
      cases index with
      | zero =>
          cases returned
          exact first.1
      | succ index => exact later.1 index result returned

/-- Operations whose calls mix leave a key as it is that each of them spares. -/
theorem Crowd.follow_of_spares {isAllowed : Nat → α → Prop} {crowd : Crowd MemoryStore α}
    (spare : ∀ (index : Nat) (plan : Plan α), crowd.plans[index]? = some plan →
      plan.Spares key version (isAllowed index))
    (finds : BlobStore.read crowd.store key = .ok version) (schedule : List Nat) :
    (∀ index result, (crowd.follow schedule).result? index = some result →
      isAllowed index result) ∧
      BlobStore.read (crowd.follow schedule).store key = .ok version := by
  induction schedule generalizing crowd with
  | nil =>
      refine ⟨?_, finds⟩
      intro index result done
      obtain ⟨plan, present, settled⟩ := Option.bind_eq_some_iff.mp done
      have allowed := spare index plan present
      cases plan with
      | done other =>
          cases settled
          exact allowed
      | read place next => cases settled
      | write place contentType content expected next => cases settled
  | cons turn schedule inductionHypothesis =>
      rw [Crowd.follow_cons]
      cases present : crowd.plans[turn]? with
      | none =>
          rw [Crowd.advance_of_none present]
          exact inductionHypothesis spare finds
      | some plan =>
          have stepped := (spare turn plan present).step finds
          have store : (crowd.advance turn).store = (plan.step crowd.store).2 := by
            rw [Crowd.advance_of_some present]
          apply inductionHypothesis
          · intro index other there
            by_cases same : index = turn
            · subst same
              rw [Crowd.getElem?_advance_self present] at there
              cases there
              exact stepped.1
            · rw [Crowd.getElem?_advance_of_ne crowd same] at there
              exact spare index other there
          · rw [store]
            exact stepped.2

end Memory

end RoomLedger.Store
