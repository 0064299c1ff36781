import RoomLedger.Proofs.Collection.Request
import RoomLedger.Proofs.Store.Serial

/-!
Contract: requests to one collection whose calls mix.

Owns:
- `Request.crowd`, requests under way, and `Request.serve`, requests that have the
  store for themselves one after another;
- `crowd_progress`, the invariant of every schedule;
- `interleaving_is_serial`, by which a schedule has the effect of its winners, and
  who loses is told of it.

Does not own: what single requests do.
-/

namespace RoomLedger.Collection.Request

open RoomLedger.Store

variable {R : Type} [Record R]

/-- Requests under way, none of which has made a call. -/
def crowd (collection : Collection R) (requests : List (Request R)) (store : MemoryStore) :
    Crowd MemoryStore (Except Failure (Reply R)) where
  plans := requests.map (plan collection)
  store := store

/-- What requests return one after another, and what they leave behind. -/
def serve (collection : Collection R) (requests : List (Request R)) (store : MemoryStore) :
    List (Except Failure (Reply R)) × MemoryStore :=
  Plan.runAll (requests.map (plan collection)) store

private theorem isTransaction_of_mem_plans {collection : Collection R} {requests : List (Request R)}
    {operation : Operation (Reply R)} (member : operation ∈ requests.map (plan collection)) :
    operation.IsTransaction collection.blobKey IsStale := by
  obtain ⟨request, -, rfl⟩ := List.mem_map.mp member
  exact isTransaction_plan collection request

/-- Every schedule keeps the stages of the requests and the serial run of those
that won. -/
theorem crowd_progress (collection : Collection R) (requests : List (Request R))
    (store : MemoryStore) (schedule : List Nat) :
    Progress collection.blobKey IsStale (requests.map (plan collection)) store
      ((crowd collection requests store).history schedule)
      ((crowd collection requests store).follow schedule) := by
  have start := Progress.start collection.blobKey IsStale (requests.map (plan collection)) store
  exact start.follow collection.isKey (fun _ => isTransaction_of_mem_plans) schedule

/-- Operations found among those of requests are operations of requests found in
the same places. -/
theorem exists_requests_of_plans {collection : Collection R} {requests : List (Request R)}
    {indices : List Nat} {plans : List (Operation (Reply R))}
    (found : indices.map (fun index => (requests.map (plan collection))[index]?) =
      plans.map some) :
    ∃ served : List (Request R),
      indices.map (fun index => requests[index]?) = served.map some ∧
      plans = served.map (plan collection) := by
  induction indices generalizing plans with
  | nil =>
      cases plans with
      | nil => exact ⟨[], rfl, rfl⟩
      | cons first others => cases found
  | cons index indices inductionHypothesis =>
      cases plans with
      | nil => cases found
      | cons first others =>
          rw [List.map_cons, List.map_cons, List.getElem?_map] at found
          obtain ⟨head, tail⟩ := List.cons.inj found
          obtain ⟨request, present, rfl⟩ := Option.map_eq_some_iff.mp head
          obtain ⟨served, same, rfl⟩ := inductionHypothesis tail
          refine ⟨request :: served, ?_, rfl⟩
          rw [List.map_cons, present, same]
          rfl

/-- The requests that won, served alone one after another, give the same replies
and leave the same store. -/
theorem exists_served (collection : Collection R) (requests : List (Request R))
    (store : MemoryStore) (schedule : List Nat) :
    ∃ served replies,
      (winners ((crowd collection requests store).history schedule)).map
          (fun index => requests[index]?) = served.map some ∧
      serve collection served store =
        (replies, ((crowd collection requests store).follow schedule).store) ∧
      (winners ((crowd collection requests store).history schedule)).map
          ((crowd collection requests store).follow schedule).result? = replies.map some := by
  obtain ⟨plans, replies, won, run, results⟩ :=
    (crowd_progress collection requests store schedule).serial
  obtain ⟨served, same, rfl⟩ := exists_requests_of_plans won
  exact ⟨served, replies, same, run, results⟩

/-- Requests whose calls mix, in any order, leave what those of them leave whose
writes were taken, one after another in the order of the writes, and each of
these gives the same reply. The turn of any other request changes nothing. A
request that came to its write is told that its snapshot was stale exactly if
another write was taken after its read.

A client that makes one request after another is several requests, whose turns
do not overlap in the schedule. -/
theorem interleaving_is_serial (collection : Collection R) (requests : List (Request R))
    (store : MemoryStore) (schedule : List Nat) :
    let start := crowd collection requests store
    let history := start.history schedule
    let final := start.follow schedule
    (∃ served replies,
      (winners history).map (fun index => requests[index]?) = served.map some ∧
      serve collection served store = (replies, final.store) ∧
      (winners history).map final.result? = replies.map some) ∧
    (∀ before index later,
      schedule = before ++ index :: later →
      index ∉ winners history →
      ((start.follow before).advance index).store = (start.follow before).store) ∧
    (∀ earlier index isTaken later,
      history = earlier ++ .write index isTaken :: later →
      ∃ result before between,
        final.result? index = some result ∧
        earlier = before ++ .read index :: between ∧
        (∀ act ∈ before ++ between, act.index ≠ index) ∧
        (IsStale result ↔ ∃ other, Act.write other true ∈ between)) := by
  intro start history final
  refine ⟨exists_served collection requests store schedule, ?_, ?_⟩
  · intro before index later split loses
    have progress := crowd_progress collection requests store before
    apply progress.store_advance collection.isKey fun _ => isTransaction_of_mem_plans
    intro act made
    cases winner : act.winner? with
    | none => rfl
    | some taker =>
        exfalso
        apply loses
        have same : taker = index := by
          match act, winner with
          | .write _ true, rfl => exact Crowd.index_of_act? made
        have whole : history = start.history before ++
            (act :: ((start.follow before).advance index).history later) := by
          rw [show history = start.history schedule from rfl, split, Crowd.history_append,
            Crowd.history, made]
          rfl
        rw [whole, winners_append]
        apply List.mem_append_right
        rw [← same]
        exact List.mem_filterMap.mpr ⟨act, List.mem_cons_self, winner⟩
  · intro earlier index isTaken later split
    exact (crowd_progress collection requests store schedule).isConflict_iff split

end RoomLedger.Collection.Request
