import RoomLedger.Proofs.CommandLine.Creators
import RoomLedger.Proofs.Store.Bystanders

/-!
Contract: whose events are changed by processes that run at the same time.

Owns:
- `HasChanged`, the check and the write of a process that describes or cancels an event,
  and what they find;
- the same processes on files as in memory;
- `change_follows_check`, for every schedule;
- a schedule in which somebody describes an event that somebody else created.

Between the check and the write the event can be cancelled, and another one of the same
room created. The mark that the edit reads is then the one of the new event, so the
store takes the write.

Does not own: what the store does with a write whose mark is old.
-/

namespace RoomLedger.CommandLine

open RoomLedger.Disk (Path Tree)
open RoomLedger.Store

/-! ## Every schedule -/

private theorem endsInWrite_of_mem_plans {S : Type} {processes : List Process} {store : S} :
    ∀ plan ∈ (crowd processes store).plans, plan.EndsInWrite := by
  intro plan member
  obtain ⟨process, -, rfl⟩ := List.mem_map.mp member
  exact process.endsInWrite_plan

private theorem isOn_of_mem_plans {S : Type} {processes : List Process} {store : S} :
    ∀ plan ∈ (crowd processes store).plans, plan.IsOn Events.collection.blobKey := by
  intro plan member
  obtain ⟨process, -, rfl⟩ := List.mem_map.mp member
  exact process.isOn_plan

/-- A process that needs a check and has succeeded has come to its end by a write that
was taken. -/
theorem split_of_result? {processes : List Process} {memory : MemoryStore} {schedule : List Nat}
    {index : Nat} {process : Process} {room actor text : String}
    (isProcess : processes[index]? = some process)
    (guarded : process.change.guard? = some (room, actor))
    (succeeded : ((crowd processes memory).follow schedule).result? index = some (.ok text)) :
    let start := crowd processes memory
    ∃ before between later checked event,
      schedule = before ++ index :: between ++ index :: later ∧
      (start.follow (before ++ [index])).store = (start.follow before).store ∧
      BelongsTo (start.follow before).store room actor checked event ∧
      (start.follow (before ++ index :: between)).act? index = some (.write index true) := by
  intro start
  obtain ⟨plan, present, ended⟩ := Option.bind_eq_some_iff.mp succeeded
  obtain ⟨other, isOther, course⟩ := areOnCourse processes memory schedule index plan present
  rw [isProcess] at isOther
  cases isOther
  cases course with
  | @asking askedRoom askedActor lines _ =>
      rcases whenCreator_cases askedRoom askedActor (edit process.action lines) with
        ⟨problem, failed⟩ | ⟨rest, reads, -⟩
      · rw [failed] at ended
        cases ended
      · rw [reads] at ended
        cases ended
  | editing split may stage returns =>
      cases plan with
      | done result =>
          cases ended
          obtain ⟨problem, impossible⟩ := returns
          cases impossible
      | read key next => cases ended
      | write key contentType content expected next => cases ended
  | failed problem => cases ended
  | changed earlier between later split may taken result =>
      obtain ⟨before, checked, event, rfl, same, belongs⟩ := may room actor guarded
      refine ⟨before, between, later, checked, event, ?_, same, belongs, ?_⟩
      · rw [split]
        simp
      · simpa using taken

/-- The process at an index has changed an event after a check. -/
structure HasChanged {S : Type} [BlobStore S] (processes : List Process) (start : Crowd S Result)
    (before between : List Nat) (index : Nat) (room actor : String) (left : Event → List Event)
    (checked front : List Event) (changed : Event) (back : List Event) : Prop where
  /-- In the turn of the check the event belonged to the one who asks. -/
  check : ∃ event, BelongsTo (start.follow before).store room actor checked event
  taken : (start.follow (before ++ index :: between)).act? index = some (.write index true)
  found : HasEvents (start.follow (before ++ index :: between)).store (front ++ changed :: back)
  isFirst : room ∉ front.map Event.chatRoomId
  isOfRoom : changed.chatRoomId = room
  leaves : HasEvents (start.follow (before ++ index :: between ++ [index])).store
    (front ++ left changed ++ back)
  /-- In the turn of the write it still does, or it was replaced in between. -/
  owner : changed.creatorId = actor ∨
    IsReplaced processes room (checked.map Event.chatRoomId).Nodup
      (winners ((start.follow (before ++ [index])).history between)) (some changed.creatorId)

section Main

variable {processes : List Process} {memory : MemoryStore} {schedule : List Nat} {index : Nat}
  {process : Process} {room actor text : String}

private theorem hasChanged_in_memory (isProcess : processes[index]? = some process)
    (guarded : process.change.guard? = some (room, actor))
    (succeeded : ((crowd processes memory).follow schedule).result? index = some (.ok text)) :
    ∃ before between later checked front changed back,
      schedule = before ++ index :: between ++ index :: later ∧
      HasChanged processes (crowd processes memory) before between index room actor
        process.change.left checked front changed back := by
  obtain ⟨before, between, later, checked, event, split, same, belongs, taken⟩ :=
    split_of_result? isProcess guarded succeeded
  have onCourse := areOnCourse processes memory
  obtain ⟨other, events, request, after, reply, isOther, holds, isRequest, changes, holdsAfter⟩ :=
    (onCourse _).changes_of_taken taken
  rw [isProcess] at isOther
  cases isOther
  obtain ⟨front, changed, back, rfl, isFirst, isOfRoom, rfl⟩ :=
    split_of_changes guarded isRequest changes
  refine ⟨before, between, later, checked, front, changed, back, split, ⟨event, belongs⟩, taken,
    holds, isFirst, isOfRoom, holdsAfter, ?_⟩
  -- From the check on, the account says who created the event that the write finds.
  have own : creatorOf room checked = some actor := by
    rw [creatorOf, belongs.found, Option.map_some, belongs.isCreator]
  obtain ⟨found, holdsFound, -, accounted⟩ :=
    IsAccounted.follow onCourse (same ▸ belongs.holds) own between
  rw [List.append_assoc, List.singleton_append] at holdsFound
  obtain rfl := holds.unique holdsFound
  have creator : creatorOf room (front ++ changed :: back) = some changed.creatorId := by
    rw [creatorOf_append, (creatorOf_eq_none_iff room front).mpr isFirst, creatorOf_cons,
      if_pos isOfRoom]
    rfl
  rw [creator] at accounted
  exact accounted.imp_left Option.some.inj

end Main

/-! ## Files -/

section Files

variable {place : Path} {store : MountedStore} {memory : MemoryStore}
  (housed : Housed store.files.root Events.collection.blobKey)
  (agrees : Agrees place Events.collection.blobKey store memory) (processes : List Process)

include housed agrees

private theorem result?_on_files (schedule : List Nat) (index : Nat) :
    ((crowd processes store).follow schedule).result? index =
      ((crowd processes memory).follow schedule).result? index := by
  obtain ⟨plans, -⟩ :=
    Agrees.follow (crowd processes store) housed agrees isOn_of_mem_plans schedule
  exact congrArg (fun plans => plans[index]?.bind Plan.result?) plans

private theorem history_on_files (first second : List Nat) :
    ((crowd processes store).follow first).history second =
      ((crowd processes memory).follow first).history second := by
  have whole (schedule : List Nat) :
      (crowd processes store).history schedule = (crowd processes memory).history schedule :=
    (Agrees.follow (crowd processes store) housed agrees isOn_of_mem_plans schedule).2.1
  have longer := whole (first ++ second)
  rw [Crowd.history_append, Crowd.history_append, whole first] at longer
  exact List.append_cancel_left longer

private theorem hasEvents_on_files_iff (schedule : List Nat) (events : List Event) :
    HasEvents ((crowd processes store).follow schedule).store events ↔
      HasEvents ((crowd processes memory).follow schedule).store events := by
  obtain ⟨-, -, files, after⟩ :=
    Agrees.follow (crowd processes store) housed agrees isOn_of_mem_plans schedule
  have read := after.read (files.symm ▸ housed)
  rw [HasEvents, read]
  rfl

private theorem act?_on_files (schedule : List Nat) (index : Nat) :
    ((crowd processes store).follow schedule).act? index =
      ((crowd processes memory).follow schedule).act? index := by
  have next := history_on_files housed agrees processes schedule [index]
  simp only [Crowd.history, List.append_nil] at next
  simpa using congrArg List.head? next

end Files

/-- Processes that create, describe and cancel events in one directory mix their calls.
One that succeeds to describe or cancel the event of a room has one write taken, of the
first event of the room, and leaves every other event as it is. When it checked, the
event of the room was one that its actor had created. When it writes, that is still so,
unless a cancel of the room has had its write taken in between, and, where no two events
share a room, after that a create of the event that is changed. -/
theorem change_follows_check {place : Path} {store : MountedStore} {memory : MemoryStore}
    (housed : Housed store.files.root "events.jsonl")
    (agrees : Agrees place "events.jsonl" store memory) (processes : List Process)
    (schedule : List Nat) {index : Nat} {process : Process} {room actor text : String}
    (isProcess : processes[index]? = some process)
    (guarded : process.change.guard? = some (room, actor))
    (succeeded : ((crowd processes store).follow schedule).result? index = some (.ok text)) :
    let start := crowd processes store
    (winners (start.history schedule)).count index = 1 ∧
    ∃ before between later checked front changed back,
      schedule = before ++ index :: between ++ index :: later ∧
      HasChanged processes start before between index room actor process.change.left checked front
        changed back := by
  intro start
  rw [result?_on_files housed agrees] at succeeded
  obtain ⟨before, between, later, checked, front, changed, back, split, ⟨event, belongs⟩, taken,
    found, isFirst, isOfRoom, leaves, owner⟩ := hasChanged_in_memory isProcess guarded succeeded
  have onFiles := hasEvents_on_files_iff housed agrees processes
  rw [← act?_on_files housed agrees] at taken
  constructor
  · apply List.count_eq_one_of_mem (start.nodup_winners endsInWrite_of_mem_plans schedule)
    rw [split]
    exact Crowd.mem_winners_of_act? taken later
  · refine ⟨before, between, later, checked, front, changed, back, split, ⟨event, ?_⟩, taken,
      (onFiles _ _).mpr found, isFirst, isOfRoom, (onFiles _ _).mpr leaves, ?_⟩
    · exact ⟨(onFiles _ _).mpr belongs.holds, belongs.found, belongs.isCreator⟩
    · rw [history_on_files housed agrees]
      exact owner

/-- The evening before an event, on a terminal without colours. -/
def tonight : Surroundings where
  now := Events.eveOfEvent
  freshId := ""
  colours := false

/-- The event of the room as somebody else creates it. -/
def otherEvent : Event :=
  { Events.sampleEvent with creatorId := "u-2" }

/-- A create, a describe and a cancel by its creator, and another create of the room. -/
def reassignment : List Process :=
  [⟨tonight, .create Events.sampleEvent⟩, ⟨tonight, .describe "C1" "Bring food." "u-1"⟩,
    ⟨tonight, .cancel "C1" "u-1"⟩, ⟨tonight, .create otherEvent⟩]

private theorem hasEvents_of_toOption {memory : MemoryStore} {events : List Event}
    (holds : (Collection.decode
      (memory.version Events.collection.blobKey).contentOrEmpty).toOption = some events) :
    HasEvents memory events := by
  rw [hasEvents_iff]
  cases decoded : Collection.decode (R := Event)
      (memory.version Events.collection.blobKey).contentOrEmpty with
  | ok others =>
      rw [decoded] at holds
      rw [Option.some.inj holds]
  | error found =>
      rw [decoded] at holds
      cases holds

private theorem exists_ok_of_isOk {result : Option Result}
    (isOk : result.map Except.isOk = some true) :
    ∃ text, result = some (.ok text) := by
  cases result with
  | none => cases isOk
  | some outcome =>
      cases outcome with
      | ok text => exact ⟨text, rfl⟩
      | error problem => cases isOk

private theorem housed_events : Housed emptyBlobs.files.root Events.collection.blobKey := by
  decide +kernel

private theorem agrees_emptyBlobs :
    ∃ place, Agrees place Events.collection.blobKey emptyBlobs .empty := by
  obtain ⟨place, found⟩ := find_of_openAt (openAt_blobs {} 0)
  exact ⟨place, agrees_of_isFresh found (Path.ofText_ne "blobs") isFresh_blobs housed_events⟩

/-- The creator describes an event while nobody else changes it. -/
theorem change_follows_check_alone :
    let start := crowd reassignment emptyBlobs
    ∃ before between later checked front changed back,
      [0, 0, 1, 1, 3, 1] = before ++ 1 :: between ++ 1 :: later ∧
      HasChanged reassignment start before between 1 "C1" "u-1"
        (EventChange.describe "C1" "Bring food." "u-1").left checked front changed back := by
  obtain ⟨place, agrees⟩ := agrees_emptyBlobs
  have succeeds : (((crowd reassignment MemoryStore.empty).follow [0, 0, 1, 1, 3, 1]).result? 1).map
      Except.isOk = some true := by
    decide +kernel
  obtain ⟨text, succeeded⟩ := exists_ok_of_isOk succeeds
  rw [← result?_on_files housed_events agrees] at succeeded
  have isProcess : reassignment[1]? = some ⟨tonight, .describe "C1" "Bring food." "u-1"⟩ := rfl
  exact (change_follows_check housed_events agrees reassignment [0, 0, 1, 1, 3, 1] isProcess rfl
    succeeded).2

/-- The creator of an event checks, cancels it in another process, and then describes the
event that somebody else has created in the same room. -/
theorem creator_describes_event_of_other :
    let start := crowd reassignment emptyBlobs
    let schedule := [0, 0, 1, 2, 2, 2, 3, 3, 1]
    (∃ text, (start.follow (schedule ++ [1])).result? 1 = some (.ok text)) ∧
      (start.follow schedule).act? 1 = some (.write 1 true) ∧
      HasEvents (start.follow schedule).store [otherEvent] ∧
      HasEvents (start.follow (schedule ++ [1])).store
        [{ otherEvent with description := "Bring food." }] ∧
      otherEvent.creatorId ≠ "u-1" := by
  intro start schedule
  obtain ⟨place, agrees⟩ := agrees_emptyBlobs
  have succeeds : (((crowd reassignment MemoryStore.empty).follow (schedule ++ [1])).result? 1).map
      Except.isOk = some true := by
    decide +kernel
  rw [act?_on_files housed_events agrees, hasEvents_on_files_iff housed_events agrees,
    hasEvents_on_files_iff housed_events agrees, result?_on_files housed_events agrees]
  refine ⟨exists_ok_of_isOk succeeds, by decide +kernel, ?_, ?_, by decide⟩
  · exact hasEvents_of_toOption (by decide +kernel)
  · exact hasEvents_of_toOption (by decide +kernel)

end RoomLedger.CommandLine
