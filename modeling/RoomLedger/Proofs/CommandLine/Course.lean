import Mathlib.Data.List.Induction
import RoomLedger.Proofs.CommandLine.Edits
import RoomLedger.Proofs.Store.Serial

/-!
Contract: how far processes have come that change events at the same time.

Owns:
- `HasEvents`, the events that a store has;
- `Course`, how far a process has come after a schedule, with the check that let it
  pass, and `Course.step`, `Course.stay` and `Course.idle`, by which every turn keeps it;
- `areOnCourse`, by which every schedule keeps every process on its course;
- `AreOnCourse.changes_of_taken`, what a write that is taken does to the events.

The check of the creator is a read of its own. What follows it is a transaction, whose
read comes later.

Does not own: whose the events are.
-/

namespace RoomLedger.CommandLine

open RoomLedger.Collection (Reply Request)
open RoomLedger.Store

/-- The events that a store has. -/
def HasEvents {S : Type} [BlobStore S] (store : S) (events : List Event) : Prop :=
  ∃ version,
    BlobStore.read store Events.collection.blobKey = .ok version ∧
    Collection.decode version.contentOrEmpty = .ok events

theorem hasEvents_iff {memory : MemoryStore} {events : List Event} :
    HasEvents memory events ↔
      Collection.decode (memory.version Events.collection.blobKey).contentOrEmpty = .ok events := by
  rw [HasEvents, MemoryStore.read_of_isKey Events.collection.isKey]
  constructor
  · rintro ⟨_, ⟨⟩, holds⟩
    exact holds
  · intro holds
    exact ⟨_, rfl, holds⟩

theorem HasEvents.unique {S : Type} [BlobStore S] {store : S} {events others : List Event}
    (first : HasEvents store events) (second : HasEvents store others) :
    events = others := by
  obtain ⟨version, read, decoded⟩ := first
  obtain ⟨same, readAgain, decodedAgain⟩ := second
  rw [read] at readAgain
  cases readAgain
  rw [decoded] at decodedAgain
  exact Except.ok.inj decodedAgain

/-- Processes none of which has asked anything. -/
def crowd {S : Type} (processes : List Process) (store : S) : Crowd S Result where
  plans := processes.map Process.plan
  store := store

/-! ## The course of a process -/

/-- After a schedule the first event of a room is one that the actor created. -/
structure BelongsTo {S : Type} [BlobStore S] (store : S) (room actor : String) (events : List Event)
    (event : Event) : Prop where
  holds : HasEvents store events
  found : Collection.find? room events = some event
  isCreator : event.creatorId = actor

/-- After that schedule the process at an index may start its edit: it needs no check,
or in the last turn it has read that the event belongs to the one who asks. -/
def MayEdit (start : Crowd MemoryStore Result) (index : Nat) (process : Process)
    (schedule : List Nat) : Prop :=
  ∀ room actor, process.change.guard? = some (room, actor) →
    ∃ before events event,
      schedule = before ++ [index] ∧
      (start.follow schedule).store = (start.follow before).store ∧
      BelongsTo (start.follow before).store room actor events event

/-- How far a process has come after a schedule. -/
inductive Course (start : Crowd MemoryStore Result) (schedule : List Nat) (index : Nat)
    (process : Process) : Plan Result → Prop
  | asking {room actor : String} {lines : Event → List String}
      (guarded : process.change.guard? = some (room, actor)) :
      Course start schedule index process (whenCreator room actor (edit process.action lines))
  | editing {plan : Plan Result} {lines : Event → List String} {earlier since : List Nat}
      (split : schedule = earlier ++ since) (may : MayEdit start index process earlier)
      (stage : Stage Events.collection.blobKey IsLate index (edit process.action lines)
        (start.follow schedule).store ((start.follow earlier).history since) plan)
      (returns : plan.ReturnsUnwritten IsFailure) :
      Course start schedule index process plan
  | failed (problem : Problem) : Course start schedule index process (.done (.error problem))
  | changed (earlier between later : List Nat)
      (split : schedule = earlier ++ between ++ index :: later)
      (may : MayEdit start index process earlier)
      (taken : (start.follow (earlier ++ between)).act? index = some (.write index true))
      (result : Result) :
      Course start schedule index process (.done result)

namespace Course

variable {start : Crowd MemoryStore Result} {schedule : List Nat} {index turn : Nat}
  {process : Process} {plan : Plan Result} {act : Act}

/-- What a process asks leads where the act says. -/
theorem leads (course : Course start schedule index process plan)
    (made : plan.act? index (start.follow schedule).store = some act) :
    act.Leads Events.collection.blobKey (start.follow schedule).store
      (plan.step (start.follow schedule).store).2 := by
  cases course with
  | @asking room actor lines guarded =>
      rcases whenCreator_cases room actor (edit process.action lines) with
        ⟨problem, failed⟩ | ⟨rest, reads, -⟩
      · rw [failed] at made
        cases made
      · rw [reads] at made ⊢
        cases made
        rfl
  | editing split may stage returns =>
      exact stage.leads Events.collection.isKey (isTransaction_edit _ _) made
  | failed problem => cases made
  | changed earlier between later split may taken result => cases made

/-- A process that may edit is at the beginning of its edit. -/
theorem begin (lines : Event → List String) (may : MayEdit start index process schedule) :
    Course start schedule index process (edit process.action lines) := by
  have nobody : ∀ act ∈ (start.follow schedule).history [], act.index ≠ index := by
    intro act member
    cases member
  exact .editing (List.append_nil _).symm may (.untouched nobody) (returnsUnwritten_edit _ _)

/-- An edit goes on in one more turn, by anyone. -/
theorem goOn (lines : Event → List String) {earlier since : List Nat}
    (split : schedule = earlier ++ since) (may : MayEdit start index process earlier)
    (stage : Stage Events.collection.blobKey IsLate index (edit process.action lines)
      (start.follow (schedule ++ [turn])).store
      ((start.follow earlier).history since ++ ((start.follow schedule).act? turn).toList) plan)
    (returns : plan.ReturnsUnwritten IsFailure) :
    Course start (schedule ++ [turn]) index process plan := by
  have splitAfter : schedule ++ [turn] = earlier ++ (since ++ [turn]) := by
    rw [split, List.append_assoc]
  have asked : (start.follow schedule).act? turn =
      ((start.follow earlier).follow since).act? turn := by
    rw [split, Crowd.follow_append]
  rw [asked, ← Crowd.history_concat] at stage
  exact .editing splitAfter may stage returns

/-- A turn in which nothing is asked keeps the course. -/
theorem idle (course : Course start schedule index process plan)
    (nothing : (start.follow schedule).act? turn = none) :
    Course start (schedule ++ [turn]) index process plan := by
  have still : start.follow (schedule ++ [turn]) = start.follow schedule := by
    rw [Crowd.follow_concat, Crowd.advance_of_act?_eq_none nothing]
  cases course with
  | asking guarded => exact .asking guarded
  | @editing _ lines _ _ split may stage returns =>
      refine goOn lines split may ?_ returns
      rw [still, nothing]
      simpa using stage
  | failed problem => exact .failed problem
  | changed earlier between later split may taken result =>
      exact .changed earlier between (later ++ [turn]) (by simp [split]) may taken result

/-- So does the turn of another process. -/
theorem stay (course : Course start schedule index process plan)
    (made : (start.follow schedule).act? turn = some act) (other : turn ≠ index)
    (leads : act.Leads Events.collection.blobKey (start.follow schedule).store
      (start.follow (schedule ++ [turn])).store) :
    Course start (schedule ++ [turn]) index process plan := by
  cases course with
  | asking guarded => exact .asking guarded
  | @editing _ lines _ _ split may stage returns =>
      refine goOn lines split may ?_ returns
      rw [made]
      apply stage.stay ?_ leads
      rw [Crowd.index_of_act? made]
      exact other
  | failed problem => exact .failed problem
  | changed earlier between later split may taken result =>
      exact .changed earlier between (later ++ [turn]) (by simp [split]) may taken result

/-- The check of a process lets it begin its edit, or makes it fail. -/
theorem check {room actor : String} {lines : Event → List String}
    (guarded : process.change.guard? = some (room, actor))
    (present : (start.follow schedule).plans[index]? =
      some (whenCreator room actor (edit process.action lines)))
    (made : (whenCreator room actor (edit process.action lines)).act? index
      (start.follow schedule).store = some act) :
    Course start (schedule ++ [index]) index process
      ((whenCreator room actor (edit process.action lines)).step
        (start.follow schedule).store).1 := by
  rcases whenCreator_cases room actor (edit process.action lines) with
    ⟨problem, failed⟩ | ⟨rest, reads, cases_⟩
  · rw [failed] at made
    cases made
  · -- The check is a read, so the events are still there after it.
    have same : (start.follow (schedule ++ [index])).store = (start.follow schedule).store := by
      rw [Crowd.follow_concat, Crowd.advance_of_some present, reads]
      rfl
    rw [reads]
    simp only [Plan.step, MemoryStore.read_of_isKey Events.collection.isKey]
    rcases cases_ (.ok ((start.follow schedule).store.version Events.collection.blobKey)) with
      ⟨version, events, event, ⟨⟩, holds, found, isCreator, passed⟩ | ⟨problem, failed⟩
    · rw [passed]
      apply begin
      intro otherRoom otherActor otherwise
      rw [guarded] at otherwise
      cases otherwise
      exact ⟨schedule, events, event, rfl, same, hasEvents_iff.mpr holds, found, isCreator⟩
    · rw [failed]
      exact .failed problem

/-- The turn of a process that asks brings it on. -/
theorem step (course : Course start schedule index process plan)
    (present : (start.follow schedule).plans[index]? = some plan)
    (made : plan.act? index (start.follow schedule).store = some act) :
    Course start (schedule ++ [index]) index process
      (plan.step (start.follow schedule).store).1 := by
  cases course with
  | asking guarded => exact check guarded present made
  | @editing _ lines _ _ split may stage returns =>
      by_cases taken : plan.act? index (start.follow schedule).store = some (.write index true)
      · obtain ⟨result, -, done⟩ :=
          stage.run_of_taken Events.collection.isKey (isTransaction_edit _ _) taken
        rw [done]
        refine .changed _ _ [] (by rw [split]) may ?_ result
        rw [← split, Crowd.act?_of_some present]
        exact taken
      · -- Without a write that is taken the edit can only come to a failure.
        refine goOn lines split may ?_ (Plan.returnsUnwritten_step returns taken)
        rw [Crowd.act?_of_some present, made, Crowd.follow_concat, Crowd.advance_of_some present]
        exact stage.step Events.collection.isKey (isTransaction_edit _ _) made
  | failed problem => cases made
  | changed earlier between later split may taken result => cases made

end Course

/-- After a schedule every process is on its course. -/
def AreOnCourse (processes : List Process) (start : Crowd MemoryStore Result)
    (schedule : List Nat) : Prop :=
  ∀ index plan, (start.follow schedule).plans[index]? = some plan →
    ∃ process, processes[index]? = some process ∧ Course start schedule index process plan

namespace AreOnCourse

variable {processes : List Process} {memory : MemoryStore} {start : Crowd MemoryStore Result}
  {schedule : List Nat} {turn : Nat} {act : Act}

private theorem nil (processes : List Process) (memory : MemoryStore) :
    AreOnCourse processes (crowd processes memory) [] := by
  intro index plan present
  change (processes.map Process.plan)[index]? = some plan at present
  rw [List.getElem?_map] at present
  obtain ⟨process, isProcess, rfl⟩ := Option.map_eq_some_iff.mp present
  refine ⟨process, isProcess, ?_⟩
  obtain ⟨lines, asks⟩ := process.plan_cases
  rw [asks]
  cases guard : process.change.guard? with
  | none =>
      have may : MayEdit (crowd processes memory) index process [] := by
        intro room actor guarded
        rw [guard] at guarded
        cases guarded
      exact Course.begin lines may
  | some asked => exact .asking guard

/-- The process whose turn it is, and what its call leads to. -/
theorem course_of_act? (onCourse : AreOnCourse processes start schedule)
    (made : (start.follow schedule).act? turn = some act) :
    ∃ process plan,
      processes[turn]? = some process ∧
      (start.follow schedule).plans[turn]? = some plan ∧
      Course start schedule turn process plan ∧
      plan.act? turn (start.follow schedule).store = some act ∧
      (start.follow (schedule ++ [turn])).store = (plan.step (start.follow schedule).store).2 ∧
      act.Leads Events.collection.blobKey (start.follow schedule).store
        (start.follow (schedule ++ [turn])).store := by
  obtain ⟨plan, present, call⟩ := Option.bind_eq_some_iff.mp made
  obtain ⟨process, isProcess, course⟩ := onCourse turn plan present
  have store : (start.follow (schedule ++ [turn])).store =
      (plan.step (start.follow schedule).store).2 := by
    rw [Crowd.follow_concat, Crowd.advance_of_some present]
  refine ⟨process, plan, isProcess, present, course, call, store, ?_⟩
  rw [store]
  exact course.leads call

private theorem concat (onCourse : AreOnCourse processes start schedule) (turn : Nat) :
    AreOnCourse processes start (schedule ++ [turn]) := by
  intro index plan present
  cases made : (start.follow schedule).act? turn with
  | none =>
      rw [Crowd.follow_concat, Crowd.advance_of_act?_eq_none made] at present
      obtain ⟨process, isProcess, course⟩ := onCourse index plan present
      exact ⟨process, isProcess, course.idle made⟩
  | some act =>
      obtain ⟨process, asking, isProcess, asks, course, call, -, leads⟩ :=
        onCourse.course_of_act? made
      by_cases same : index = turn
      · subst same
        rw [Crowd.follow_concat, Crowd.getElem?_advance_self asks] at present
        cases present
        exact ⟨process, isProcess, course.step asks call⟩
      · rw [Crowd.follow_concat, Crowd.getElem?_advance_of_ne _ same] at present
        obtain ⟨other, isOther, otherCourse⟩ := onCourse index plan present
        exact ⟨other, isOther, otherCourse.stay made (Ne.symm same) leads⟩

end AreOnCourse

/-- Every schedule keeps every process on its course. -/
theorem areOnCourse (processes : List Process) (memory : MemoryStore) (schedule : List Nat) :
    AreOnCourse processes (crowd processes memory) schedule := by
  induction schedule using List.reverseRecOn with
  | nil => exact .nil processes memory
  | append_singleton schedule turn inductionHypothesis => exact inductionHypothesis.concat turn

/-! ## Writes that are taken -/

section Taken

variable {processes : List Process} {start : Crowd MemoryStore Result} {schedule : List Nat}
  {turn : Nat}

/-- In its turn a process has its write taken, or nothing changes in the store. -/
theorem AreOnCourse.turn_cases (onCourse : AreOnCourse processes start schedule) (turn : Nat) :
    (start.follow schedule).act? turn = some (.write turn true) ∨
      ((start.follow (schedule ++ [turn])).store = (start.follow schedule).store ∧
        winners ((start.follow schedule).act? turn).toList = []) := by
  rw [Crowd.follow_concat]
  apply Crowd.turn_cases
  intro act made
  obtain ⟨_, _, -, -, -, -, -, leads⟩ := onCourse.course_of_act? made
  rw [Crowd.follow_concat] at leads
  exact leads

/-- A write that is taken makes the change that its process has come for. -/
theorem AreOnCourse.changes_of_taken (onCourse : AreOnCourse processes start schedule)
    (taken : (start.follow schedule).act? turn = some (.write turn true)) :
    ∃ process events request after reply,
      processes[turn]? = some process ∧
      HasEvents (start.follow schedule).store events ∧
      process.action.request = .ok request ∧
      request.Changes events after reply ∧
      HasEvents (start.follow (schedule ++ [turn])).store after := by
  obtain ⟨process, plan, isProcess, -, course, call, store, leads⟩ := onCourse.course_of_act? taken
  have raised : (start.follow (schedule ++ [turn])).store ≠ (start.follow schedule).store := by
    intro same
    rw [same] at leads
    simp [Act.Leads, Act.winner?] at leads
  cases course with
  | @asking room actor lines guarded =>
      rcases whenCreator_cases room actor (edit process.action lines) with
        ⟨problem, failed⟩ | ⟨rest, reads, -⟩
      · rw [failed] at call
        cases call
      · rw [reads] at call
        cases call
  | @editing _ lines _ _ split may stage returns =>
      obtain ⟨result, alone, -⟩ :=
        stage.run_of_taken Events.collection.isKey (isTransaction_edit _ _) call
      have ran : ((edit process.action lines).run (start.follow schedule).store).2 =
          (start.follow (schedule ++ [turn])).store := by
        rw [alone, store]
      obtain ⟨events, request, after, reply, following, holds, isRequest, -, changes, wrote⟩ :=
        changes_of_edit (ran ▸ raised)
      refine ⟨process, events, request, after, reply, isProcess, hasEvents_iff.mpr holds,
        isRequest, changes, hasEvents_iff.mpr ?_⟩
      rw [← ran, wrote, MemoryStore.version_after_self]
      exact Collection.decode_encode after
  | failed problem => cases call
  | changed earlier between later split may before result => cases call

end Taken

end RoomLedger.CommandLine
