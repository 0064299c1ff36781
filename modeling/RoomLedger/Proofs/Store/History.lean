import RoomLedger.Proofs.Store.Transaction
import RoomLedger.Store.Crowd

/-!
Contract: the calls that a crowd made, in order.

Owns:
- `Act`, a call with the operation that made it, and whether a write was taken;
- `Crowd.history`, the acts of a schedule;
- `winners`, the operations whose writes were taken;
- `Act.Leads`, what an act does to the store.

Does not own: which operations a crowd has.
-/

namespace RoomLedger.Store

/-- A call that an operation of a crowd made. -/
inductive Act where
  | read (index : Nat)
  | write (index : Nat) (isTaken : Bool)
deriving DecidableEq, Repr

/-- The operation that made the call. -/
def Act.index : Act → Nat
  | .read index => index
  | .write index _ => index

/-- The operation, if its call was a write that was taken. -/
def Act.winner? : Act → Option Nat
  | .write index true => some index
  | _ => none

/-- The operations whose writes were taken, in the order of the writes. -/
def winners (history : List Act) : List Nat :=
  history.filterMap Act.winner?

@[simp] theorem winners_append (first second : List Act) :
    winners (first ++ second) = winners first ++ winners second :=
  List.filterMap_append

theorem winners_singleton (act : Act) : winners [act] = act.winner?.toList := by
  unfold winners
  cases found : act.winner? <;> simp [found]

theorem winners_ne_nil_iff (history : List Act) :
    winners history ≠ [] ↔ ∃ index, Act.write index true ∈ history := by
  constructor
  · intro some
    obtain ⟨index, member⟩ := List.exists_mem_of_ne_nil _ some
    obtain ⟨act, found, winner⟩ := List.mem_filterMap.mp member
    refine ⟨index, ?_⟩
    match act, winner with
    | .write _ true, rfl => exact found
  · rintro ⟨index, found⟩ none
    have member : index ∈ winners history := List.mem_filterMap.mpr ⟨_, found, rfl⟩
    rw [none] at member
    cases member

section Calls

variable {S α : Type} [BlobStore S]

/-- The act of the next call, unless the operation is done. -/
def Plan.act? (index : Nat) (store : S) : Plan α → Option Act
  | .done _ => none
  | .read _ _ => some (.read index)
  | .write key contentType content expected _ =>
      some (.write index (BlobStore.write store key contentType content expected).1.isOk)

theorem Plan.index_of_act? {index : Nat} {store : S} {plan : Plan α} {act : Act}
    (made : plan.act? index store = some act) :
    act.index = index := by
  cases plan with
  | done result => cases made
  | read key next =>
      cases made
      rfl
  | write key contentType content expected next =>
      cases made
      rfl

/-- An operation without a next call stays as it is. -/
theorem Plan.step_of_act?_eq_none {index : Nat} {store : S} {plan : Plan α}
    (idle : plan.act? index store = none) :
    plan.step store = (plan, store) := by
  cases plan with
  | done result => rfl
  | read key next => cases idle
  | write key contentType content expected next => cases idle

namespace Crowd

/-- The act of the next call of one operation. -/
def act? (crowd : Crowd S α) (index : Nat) : Option Act :=
  crowd.plans[index]?.bind (Plan.act? index crowd.store)

/-- The acts of a schedule. -/
def history : Crowd S α → (schedule : List Nat) → List Act
  | _, [] => []
  | crowd, index :: schedule =>
      (crowd.act? index).toList ++ (crowd.advance index).history schedule

/-- The result of one operation, if it is done. -/
def result? (crowd : Crowd S α) (index : Nat) : Option α :=
  crowd.plans[index]?.bind Plan.result?

theorem history_append (crowd : Crowd S α) (first second : List Nat) :
    crowd.history (first ++ second) =
      crowd.history first ++ (crowd.follow first).history second := by
  induction first generalizing crowd with
  | nil => rfl
  | cons index first inductionHypothesis =>
      simp only [List.cons_append, history, inductionHypothesis, follow_cons, List.append_assoc]

theorem follow_concat (crowd : Crowd S α) (schedule : List Nat) (index : Nat) :
    crowd.follow (schedule ++ [index]) = (crowd.follow schedule).advance index :=
  crowd.follow_append schedule [index]

theorem history_concat (crowd : Crowd S α) (schedule : List Nat) (index : Nat) :
    crowd.history (schedule ++ [index]) =
      crowd.history schedule ++ ((crowd.follow schedule).act? index).toList := by
  rw [history_append, history, history, List.append_nil]

theorem advance_of_none {crowd : Crowd S α} {index : Nat} (nobody : crowd.plans[index]? = none) :
    crowd.advance index = crowd := by
  unfold advance
  rw [nobody]

theorem advance_of_some {crowd : Crowd S α} {index : Nat} {plan : Plan α}
    (present : crowd.plans[index]? = some plan) :
    crowd.advance index =
      ⟨crowd.plans.set index (plan.step crowd.store).1, (plan.step crowd.store).2⟩ := by
  unfold advance
  rw [present]

theorem act?_of_some {crowd : Crowd S α} {index : Nat} {plan : Plan α}
    (present : crowd.plans[index]? = some plan) :
    crowd.act? index = plan.act? index crowd.store := by
  unfold act?
  rw [present]
  rfl

theorem index_of_act? {crowd : Crowd S α} {index : Nat} {act : Act}
    (made : crowd.act? index = some act) :
    act.index = index := by
  obtain ⟨plan, -, call⟩ := Option.bind_eq_some_iff.mp made
  exact Plan.index_of_act? call

/-- A turn that makes no call changes nothing. -/
theorem advance_of_act?_eq_none {crowd : Crowd S α} {index : Nat} (idle : crowd.act? index = none) :
    crowd.advance index = crowd := by
  cases present : crowd.plans[index]? with
  | none => exact advance_of_none present
  | some plan =>
      rw [act?_of_some present] at idle
      rw [advance_of_some present, Plan.step_of_act?_eq_none idle]
      have same : crowd.plans.set index plan = crowd.plans := by
        obtain ⟨inside, rfl⟩ := List.getElem?_eq_some_iff.mp present
        exact List.set_getElem_self inside
      rw [same]

/-- A turn is one operation's turn. -/
theorem getElem?_advance_of_ne (crowd : Crowd S α) {index other : Nat} (apart : other ≠ index) :
    (crowd.advance index).plans[other]? = crowd.plans[other]? := by
  cases present : crowd.plans[index]? with
  | none => rw [advance_of_none present]
  | some plan =>
      rw [advance_of_some present]
      exact List.getElem?_set_ne apart.symm

theorem getElem?_advance_self {crowd : Crowd S α} {index : Nat} {plan : Plan α}
    (present : crowd.plans[index]? = some plan) :
    (crowd.advance index).plans[index]? = some (plan.step crowd.store).1 := by
  obtain ⟨inside, -⟩ := List.getElem?_eq_some_iff.mp present
  rw [advance_of_some present]
  exact List.getElem?_set_self inside

/-- An operation that makes a call is not done. -/
theorem result?_of_act? {crowd : Crowd S α} {index : Nat} {act : Act}
    (made : crowd.act? index = some act) :
    crowd.result? index = none := by
  obtain ⟨plan, present, call⟩ := Option.bind_eq_some_iff.mp made
  rw [result?, present]
  cases plan with
  | done result => cases call
  | read key next => rfl
  | write key contentType content expected next => rfl

/-- What is done stays done. -/
theorem result?_advance {crowd : Crowd S α} {index : Nat} {result : α}
    (done : crowd.result? index = some result) (turn : Nat) :
    (crowd.advance turn).result? index = some result := by
  unfold result? at done ⊢
  by_cases same : index = turn
  · subst same
    cases present : crowd.plans[index]? with
    | none =>
        rw [present] at done
        cases done
    | some plan =>
        rw [present] at done
        rw [getElem?_advance_self present]
        cases plan with
        | done result => exact done
        | read key next => cases done
        | write key contentType content expected next => cases done
  · rw [getElem?_advance_of_ne crowd same]
    exact done

end Crowd

end Calls

/-- A write that was taken gives the key the next mark, and no other call
changes anything. -/
def Act.Leads (key : String) (act : Act) (before after : MemoryStore) : Prop :=
  match act.winner? with
  | none => after = before
  | some _ =>
      (after.version key).generation.number = (before.version key).generation.number + 1

theorem Crowd.mem_winners_of_act? {S α : Type} [BlobStore S] {crowd : Crowd S α} {before : List Nat}
    {index : Nat} (taken : (crowd.follow before).act? index = some (.write index true))
    (later : List Nat) :
    index ∈ winners (crowd.history (before ++ index :: later)) := by
  rw [history_append, history, taken, winners_append, winners_append]
  exact List.mem_append_right _ (List.mem_append_left _ (List.mem_singleton_self index))

/-- In its turn an operation has its write taken, or nobody has. -/
theorem Crowd.winner_cases {S α : Type} [BlobStore S] (crowd : Crowd S α) (index : Nat) :
    crowd.act? index = some (.write index true) ∨ winners (crowd.act? index).toList = [] := by
  cases made : crowd.act? index with
  | none => exact .inr rfl
  | some act =>
      cases winner : act.winner? with
      | none => exact .inr (by rw [Option.toList_some, winners_singleton, winner]; rfl)
      | some taker =>
          left
          match act, winner with
          | .write _ true, rfl => rw [← index_of_act? made, Act.index]

/-- In its turn an operation has its write taken, or nothing changes in the store. -/
theorem Crowd.turn_cases {α : Type} {key : String} {crowd : Crowd MemoryStore α} {index : Nat}
    (leads : ∀ act, crowd.act? index = some act →
      act.Leads key crowd.store (crowd.advance index).store) :
    crowd.act? index = some (.write index true) ∨
      ((crowd.advance index).store = crowd.store ∧ winners (crowd.act? index).toList = []) := by
  rcases crowd.winner_cases index with taken | nobody
  · exact .inl taken
  · refine .inr ⟨?_, nobody⟩
    cases made : crowd.act? index with
    | none => rw [advance_of_act?_eq_none made]
    | some act =>
        have leads := leads act made
        rw [made, Option.toList_some, winners_singleton] at nobody
        rw [Act.Leads, Option.toList_eq_nil_iff.mp nobody] at leads
        exact leads

end RoomLedger.Store
