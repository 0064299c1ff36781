import Mathlib.Data.List.Induction
import Mathlib.Data.List.Nodup
import RoomLedger.Proofs.Store.History

/-!
Contract: operations that write at most once.

Owns:
- `Plan.EndsInWrite`, an operation that is done when its write was answered;
- `Crowd.nodup_winners`, by which no such operation has two writes taken.

Does not own: which writes are taken.
-/

namespace RoomLedger.Store

variable {S α β : Type} [BlobStore S]

/-- An operation makes no call after a write, whatever the answer. -/
def Plan.EndsInWrite : Plan α → Prop
  | .done _ => True
  | .read _ next => ∀ answer, (next answer).EndsInWrite
  | .write _ _ _ _ next => ∀ answer, ∃ result, next answer = .done result

namespace Plan

variable {plan : Plan α}

theorem EndsInWrite.map (change : α → β) (ends : plan.EndsInWrite) :
    (plan.bind fun result => .done (change result)).EndsInWrite := by
  induction plan with
  | done result => trivial
  | read key next inductionHypothesis =>
      exact fun answer => inductionHypothesis answer (ends answer)
  | write key contentType content expected next inductionHypothesis =>
      intro answer
      obtain ⟨result, done⟩ := ends answer
      exact ⟨change result, congrArg (fun last => last.bind fun value => .done (change value)) done⟩

/-- A call is the last one, or a read. -/
theorem EndsInWrite.step (ends : plan.EndsInWrite) (store : S) :
    (∃ result, (plan.step store).1 = .done result) ∨
      (∀ index isTaken, plan.act? index store ≠ some (.write index isTaken)) ∧
        (plan.step store).1.EndsInWrite := by
  cases plan with
  | done result => exact .inl ⟨result, rfl⟩
  | read key next =>
      refine .inr ⟨?_, ends _⟩
      rintro index isTaken ⟨⟩
  | write key contentType content expected next => exact .inl (ends _)

end Plan

namespace Crowd

/-- Every operation that has had a write taken is done, and nobody has had two. -/
structure HaveWrittenOnce (crowd : Crowd S α) (schedule : List Nat) : Prop where
  ends : ∀ plan ∈ (crowd.follow schedule).plans, plan.EndsInWrite
  once : (winners (crowd.history schedule)).Nodup
  done : ∀ index ∈ winners (crowd.history schedule),
    ∃ result, (crowd.follow schedule).result? index = some result

variable {crowd : Crowd S α}

private theorem ends_advance (ends : ∀ plan ∈ crowd.plans, plan.EndsInWrite) (turn : Nat) :
    ∀ plan ∈ (crowd.advance turn).plans, plan.EndsInWrite := by
  cases present : crowd.plans[turn]? with
  | none =>
      rw [advance_of_none present]
      exact ends
  | some plan =>
      rw [advance_of_some present]
      intro other member
      rcases List.mem_or_eq_of_mem_set member with before | rfl
      · exact ends other before
      · rcases (ends plan (List.mem_of_getElem? present)).step crowd.store with
          ⟨result, done⟩ | ⟨-, further⟩
        · rw [done]
          trivial
        · exact further

/-- Who has a write taken is done. -/
theorem result?_advance_of_write {turn : Nat} (ends : ∀ plan ∈ crowd.plans, plan.EndsInWrite)
    (taken : crowd.act? turn = some (.write turn true)) :
    ∃ result, (crowd.advance turn).result? turn = some result := by
  obtain ⟨plan, present, call⟩ := Option.bind_eq_some_iff.mp taken
  rw [result?, getElem?_advance_self present]
  rcases (ends plan (List.mem_of_getElem? present)).step crowd.store with
    ⟨result, done⟩ | ⟨reads, -⟩
  · rw [done]
    exact ⟨result, rfl⟩
  · exact absurd call (reads turn true)

private theorem HaveWrittenOnce.concat {schedule : List Nat}
    (written : crowd.HaveWrittenOnce schedule) (turn : Nat) :
    crowd.HaveWrittenOnce (schedule ++ [turn]) := by
  have stay : ∀ index ∈ winners (crowd.history schedule),
      ∃ result, ((crowd.follow schedule).advance turn).result? index = some result := by
    intro index member
    obtain ⟨result, done⟩ := written.done index member
    exact ⟨result, result?_advance done turn⟩
  have ends := ends_advance written.ends turn
  rw [← follow_concat] at ends stay
  rcases winner_cases (crowd.follow schedule) turn with taken | nobody
  · have winners_concat : winners (crowd.history (schedule ++ [turn])) =
        winners (crowd.history schedule) ++ [turn] := by
      rw [history_concat, taken, winners_append]
      rfl
    refine ⟨ends, ?_, ?_⟩
    · rw [winners_concat, ← List.concat_eq_append, List.nodup_concat]
      refine ⟨?_, written.once⟩
      -- Who has had a write taken is done, and asks nothing.
      intro member
      obtain ⟨result, done⟩ := written.done turn member
      rw [result?_of_act? taken] at done
      cases done
    · rw [winners_concat]
      intro index member
      rcases List.mem_append.mp member with earlier | now
      · exact stay index earlier
      · rw [List.mem_singleton.mp now, follow_concat]
        exact result?_advance_of_write written.ends taken
  · have winners_concat : winners (crowd.history (schedule ++ [turn])) =
        winners (crowd.history schedule) := by
      rw [history_concat, winners_append, nobody, List.append_nil]
    refine ⟨ends, ?_, ?_⟩
    · rw [winners_concat]
      exact written.once
    · rw [winners_concat]
      exact stay

/-- No operation has two writes taken. -/
theorem nodup_winners (crowd : Crowd S α) (ends : ∀ plan ∈ crowd.plans, plan.EndsInWrite)
    (schedule : List Nat) :
    (winners (crowd.history schedule)).Nodup := by
  have written : crowd.HaveWrittenOnce schedule := by
    induction schedule using List.reverseRecOn with
    | nil =>
        refine ⟨ends, List.nodup_nil, ?_⟩
        intro index member
        cases member
    | append_singleton schedule turn inductionHypothesis => exact inductionHypothesis.concat turn
  exact written.once

end Crowd

end RoomLedger.Store
