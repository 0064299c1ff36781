import RoomLedger.Proofs.Store.History

/-!
Contract: what operations return whose writes are not taken.

Owns:
- `Plan.ReturnsUnwritten`, by which every result is of a sort that the operation
  comes to although the store takes no write of it;
- `Plan.returnsUnwritten_step`, by which a call keeps an operation to that sort
  unless its write is taken.

Does not own: what an operation returns whose write was taken.
-/

namespace RoomLedger.Store

variable {S α : Type} [BlobStore S]

/-- Whatever the store answers, an operation of which no write is taken returns
something of that sort. -/
def Plan.ReturnsUnwritten (isAllowed : α → Prop) : Plan α → Prop
  | .done result => isAllowed result
  | .read _ next => ∀ answer, (next answer).ReturnsUnwritten isAllowed
  | .write _ _ _ _ next => ∀ error, (next (.error error)).ReturnsUnwritten isAllowed

theorem Plan.returnsUnwritten_map_iff {β : Type} {isAllowed : β → Prop} {change : α → β}
    (plan : Plan α) :
    (plan.bind fun result => .done (change result)).ReturnsUnwritten isAllowed ↔
      plan.ReturnsUnwritten fun result => isAllowed (change result) := by
  induction plan with
  | done result => rfl
  | read key next inductionHypothesis => exact forall_congr' inductionHypothesis
  | write key contentType content expected next inductionHypothesis =>
      exact forall_congr' fun error => inductionHypothesis (.error error)

theorem Plan.returnsUnwritten_step {isAllowed : α → Prop} {plan : Plan α} {index : Nat} {store : S}
    (returns : plan.ReturnsUnwritten isAllowed)
    (loses : plan.act? index store ≠ some (.write index true)) :
    (plan.step store).1.ReturnsUnwritten isAllowed := by
  cases plan with
  | done result => exact returns
  | read key next => exact returns _
  | write key contentType content expected next =>
      change (next (BlobStore.write store key contentType content expected).1).ReturnsUnwritten
        isAllowed
      cases answer : (BlobStore.write store key contentType content expected).1 with
      | error error => exact returns error
      | ok generation =>
          exfalso
          apply loses
          simp only [Plan.act?, answer, Except.isOk, Except.toBool]

end RoomLedger.Store
