import RoomLedger.CommandLine.Execution
import RoomLedger.Proofs.Collection.Committal
import RoomLedger.Proofs.Service.Ledgers
import RoomLedger.Proofs.Service.Provenance

/-!
Contract: the commands that change the schedule of events, as actions behind a check.

Owns:
- `EventChange`, a command that creates, describes or cancels an event, and `Process`,
  such a command with what it is told of its surroundings;
- `edit`, the action of a command with what is printed of its result, and
  `Process.plan_cases`, by which a command is its edit, behind a check of the creator
  if it needs one;
- `whenCreator_cases`, by which the check is one read, and lets the edit pass or fails;
- what an edit does that has the store for itself.

Does not own: edits whose calls mix with those of others.
-/

namespace RoomLedger.CommandLine

open RoomLedger.Collection (Reply Request contentType)
open RoomLedger.Collection.Request (IsStale)
open RoomLedger.Store (Generation MemoryStore Plan Version)

/-! ## Commands -/

/-- A command that changes the schedule of events. -/
inductive EventChange where
  | create (event : Event)
  | describe (room description actor : String)
  | cancel (room actor : String)

namespace EventChange

def command : EventChange → Command
  | .create event => .createEvent event
  | .describe room description actor => .describeEvent room description actor
  | .cancel room actor => .cancelEvent room actor

/-- The room whose event only its creator may change, and who claims to be that. -/
def guard? : EventChange → Option (String × String)
  | .create _ => none
  | .describe room _ actor => some (room, actor)
  | .cancel room actor => some (room, actor)

/-- What a change leaves of the event that it finds. -/
def left : EventChange → Event → List Event
  | .create _, event => [event]
  | .describe _ description _, event => [{ event with description }]
  | .cancel _ _, _ => []

end EventChange

/-- A process that runs such a command. -/
structure Process where
  around : Surroundings
  change : EventChange

namespace Process

def plan (process : Process) : Plan Result :=
  process.change.command.plan process.around

/-- The action on the schedule that a process has come for. -/
def action (process : Process) : Events.Action :=
  match process.change with
  | .create event => .create process.around.now event
  | .describe room description _ => .updateDescription room description
  | .cancel room _ => .remove room

end Process

/-! ## Edits -/

/-- What is printed of what an action returned. -/
def tell (lines : Event → List String) : Except Failure (Reply Event) → Result
  | .error found => .error (.failure found)
  | .ok (.record event) => .ok (linesText (lines event))
  | .ok _ => .ok ""

/-- An action with what is printed of its result. -/
def edit (action : Events.Action) (lines : Event → List String) : Plan Result :=
  action.operation.bind fun result => .done (tell lines result)

private theorem shown_eq (operation : Operation Event) (lines : Event → List String) :
    shown operation lines =
      (operation.mapResult .record).bind fun result => .done (tell lines result) := by
  rw [shown, mapResult_eq, Plan.bind_assoc]
  congr
  funext result
  cases result with
  | error found => rfl
  | ok event => rfl

/-- A command is its edit, behind a check of the creator if it needs one. -/
theorem Process.plan_cases (process : Process) :
    ∃ lines,
      process.plan =
        match process.change.guard? with
        | none => edit process.action lines
        | some (room, actor) => whenCreator room actor (edit process.action lines) := by
  obtain ⟨around, change⟩ := process
  cases change with
  | create event => exact ⟨_, shown_eq _ _⟩
  | describe room description actor => exact ⟨_, congrArg (whenCreator room actor) (shown_eq _ _)⟩
  | cancel room actor => exact ⟨_, congrArg (whenCreator room actor) (shown_eq _ _)⟩

section Edits

variable (action : Events.Action) (lines : Event → List String)

/-- The result tells that the events changed between the read and the write. -/
def IsLate (result : Result) : Prop :=
  ∃ recordKey, result = .error (.failure (.conflict recordKey .staleGeneration))

private theorem isLate_tell_iff (result : Except Failure (Reply Event)) :
    IsLate (tell lines result) ↔ IsStale result := by
  cases result with
  | error found =>
      simp [tell, IsLate, IsStale]
  | ok reply => cases reply <;> simp [tell, IsLate, IsStale]

private theorem isFailure_tell_iff (result : Except Failure (Reply Event)) :
    IsFailure (tell lines result) ↔ IsFailure result := by
  cases result with
  | error found => exact ⟨fun _ => ⟨found, rfl⟩, fun _ => ⟨.failure found, rfl⟩⟩
  | ok reply => cases reply <;> simp [tell, IsFailure]

theorem isTransaction_edit : (edit action lines).IsTransaction Events.collection.blobKey IsLate :=
  action.isTransaction_operation.map (isLate_tell_iff lines)

/-- An edit fails unless its write is taken. -/
theorem returnsUnwritten_edit : (edit action lines).ReturnsUnwritten IsFailure := by
  have operation : action.operation.ReturnsUnwritten IsFailure := by
    rw [action.operation_eq]
    cases isRequest : action.request with
    | error failure => exact ⟨failure, rfl⟩
    | ok request =>
        apply Request.returnsUnwritten_of_isChange
        cases action with
        | create now event =>
            obtain ⟨-, rfl⟩ := Events.Action.request_create isRequest
            rfl
        | updateDescription room description =>
            cases isRequest
            rfl
        | remove room =>
            cases isRequest
            rfl
  rw [edit, Plan.returnsUnwritten_map_iff]
  simpa only [isFailure_tell_iff] using operation

private theorem endsInWrite_edit : (edit action lines).EndsInWrite := by
  have ends : action.operation.EndsInWrite := by
    rw [action.operation_eq]
    cases action.request with
    | error failure => trivial
    | ok request => exact request.endsInWrite_plan _
  exact ends.map (tell lines)

private theorem isOn_edit : (edit action lines).IsOn Events.collection.blobKey := by
  have keeps : Events.collection.KeepsTo action.operation := by
    cases action with
    | create now event => exact (Services.keepsTo_createEvent now event).mapResult _
    | updateDescription room description =>
        exact (Collection.keepsTo_update room description).mapResult _
    | remove room => exact (Collection.keepsTo_remove room).mapResult _
  exact keeps.isOn.bind fun _ => trivial

variable {action} {lines}

/-- An edit that changes the store has read events, and makes the change of its
request. -/
theorem changes_of_edit {store : MemoryStore}
    (changed : ((edit action lines).run store).2 ≠ store) :
    ∃ events request after reply following,
      Collection.decode (store.version Events.collection.blobKey).contentOrEmpty = .ok events ∧
      action.request = .ok request ∧
      request.precheck = .ok () ∧
      request.Changes events after reply ∧
      ((edit action lines).run store).2 =
        store.after Events.collection.blobKey
          ⟨Collection.encode after, contentType, following⟩ := by
  have run : ((edit action lines).run store).2 = (action.operation.run store).2 := by
    rw [edit, Plan.run_bind]
    rfl
  rw [run] at changed ⊢
  obtain ⟨events, holds⟩ := Events.Action.decode_of_run changed
  rcases action.run_cases holds with
    same | ⟨request, after, reply, following, isRequest, passed, changes, ran⟩
  · exact absurd same changed
  · exact ⟨events, request, after, reply, following, holds, isRequest, passed, changes,
      congrArg Prod.snd ran⟩

end Edits

/-! ## The check of the creator -/

/-- The check fails without a call, or it reads the events once. Then the edit follows
if the first event of the room was created by the one who asks. -/
theorem whenCreator_cases (room actor : String) (next : Plan Result) :
    (∃ problem, whenCreator room actor next = .done (.error problem)) ∨
    ∃ rest, whenCreator room actor next = .read Events.collection.blobKey rest ∧
      ∀ answer,
        (∃ (version : Version) (events : List Event) (event : Event),
          answer = .ok version ∧
          Collection.decode version.contentOrEmpty = .ok events ∧
          Collection.find? room events = some event ∧
          event.creatorId = actor ∧
          rest answer = next) ∨
        ∃ problem, rest answer = .done (.error problem) := by
  simp only [whenCreator, Events.get, Collection.get]
  cases Collection.requireKey (Record.kind Event) room with
  | error failure => exact .inl ⟨.failure failure, rfl⟩
  | ok passed =>
      refine .inr ⟨_, rfl, ?_⟩
      rintro (error | version)
      · exact .inr ⟨_, rfl⟩
      cases decoded : Collection.decode (R := Event) version.contentOrEmpty with
      | error fault =>
          right
          simp only [Collection.snapshot, decoded]
          exact ⟨_, rfl⟩
      | ok events =>
          simp only [Collection.snapshot, decoded, Operation.after]
          cases found : Collection.find? room events with
          | none => exact .inr ⟨_, rfl⟩
          | some event =>
              by_cases isCreator : event.creatorId = actor
              · left
                refine ⟨version, events, event, rfl, decoded, found, isCreator, ?_⟩
                simp [Event.isCreatedBy, isCreator]
              · right
                refine ⟨.notCreator actor room, ?_⟩
                simp [Event.isCreatedBy, isCreator]

/-! ## Processes -/

namespace Process

variable (process : Process)

/-- What holds of edits and of failures, and of a read if it holds of what follows the
read, holds of every process. -/
theorem plan_induction {holds : Plan Result → Prop}
    (edits : ∀ lines, holds (edit process.action lines))
    (fails : ∀ problem, holds (.done (.error problem)))
    (reads : ∀ rest, (∀ answer, holds (rest answer)) →
      holds (.read Events.collection.blobKey rest)) :
    holds process.plan := by
  obtain ⟨lines, asks⟩ := process.plan_cases
  rw [asks]
  split
  case h_1 => exact edits lines
  case h_2 room actor _ =>
    rcases whenCreator_cases room actor (edit process.action lines) with
      ⟨problem, failed⟩ | ⟨rest, check, cases_⟩
    · rw [failed]
      exact fails problem
    · rw [check]
      apply reads
      intro answer
      rcases cases_ answer with ⟨_, _, _, -, -, -, -, passed⟩ | ⟨problem, failed⟩
      · rw [passed]
        exact edits lines
      · rw [failed]
        exact fails problem

/-- Every call of a process is about the events. -/
theorem isOn_plan : process.plan.IsOn Events.collection.blobKey :=
  process.plan_induction (isOn_edit _) (fun _ => trivial) fun _ later => ⟨rfl, later⟩

/-- A process is done when its write was answered. -/
theorem endsInWrite_plan : process.plan.EndsInWrite :=
  process.plan_induction (endsInWrite_edit _) (fun _ => trivial) fun _ later => later

end Process

end RoomLedger.CommandLine
