import RoomLedger.Proofs.CommandLine.Course

/-!
Contract: who created the event of a room, through changes by processes that run at the
same time.

Owns:
- `creatorOf`, and `creatorOf_of_changes`, by which only a cancel and a create of the
  room change it;
- `split_of_changes`, what a change that needs a check does to the events;
- `IsAccounted`, what the writes since a check say of the creator, and
  `IsAccounted.follow`, by which every schedule keeps the account.

Does not own: who may change an event.
-/

namespace RoomLedger.CommandLine

open RoomLedger.Collection (Reply Request)
open RoomLedger.Store

/-! ## The creator of an event -/

/-- Who created the first event of a room, if there is one. -/
def creatorOf (room : String) (events : List Event) : Option String :=
  (Collection.find? room events).map Event.creatorId

/-- A process has come to cancel the event of a room. -/
def Process.Cancels (process : Process) (room : String) : Prop :=
  ∃ actor, process.change = .cancel room actor

/-- A process has come to create an event of a room for a user. -/
def Process.Creates (process : Process) (room creator : String) : Prop :=
  ∃ given, process.change = .create given ∧ given.chatRoomId = room ∧ given.creatorId = creator

section Changes

variable {process : Process} {request : Request Event} {events after : List Event}
  {reply : Reply Event}

theorem creatorOf_append (room : String) (front back : List Event) :
    creatorOf room (front ++ back) = (creatorOf room front).or (creatorOf room back) := by
  rw [creatorOf, Collection.find?, List.find?_append, Option.map_or]
  rfl

theorem creatorOf_cons (room : String) (event : Event) (events : List Event) :
    creatorOf room (event :: events) =
      if event.chatRoomId = room then some event.creatorId else creatorOf room events := by
  rw [creatorOf, Collection.find?, List.find?_cons]
  by_cases same : event.chatRoomId = room
  · simp [Record.key, same]
  · simp [Record.key, same, creatorOf, Collection.find?]

theorem creatorOf_eq_none_iff (room : String) (events : List Event) :
    creatorOf room events = none ↔ room ∉ events.map Event.chatRoomId := by
  rw [creatorOf, Option.map_eq_none_iff]
  exact Collection.find?_eq_none_iff room events

/-- A change leaves the creator of a room's event alone, or it cancels the event, or it
creates one where there is none. -/
theorem creatorOf_of_changes (room : String) (isRequest : process.action.request = .ok request)
    (changes : request.Changes events after reply) :
    creatorOf room after = creatorOf room events ∨
    (process.Cancels room ∧
      ((events.map Event.chatRoomId).Nodup → creatorOf room after = none)) ∨
    ∃ creator, process.Creates room creator ∧
      creatorOf room events = none ∧ creatorOf room after = some creator := by
  obtain ⟨around, change⟩ := process
  cases change with
  | create given =>
      obtain ⟨-, rfl⟩ := Events.Action.request_create isRequest
      cases changes with
      | create _ _ isNew =>
          rw [creatorOf_append, creatorOf_cons]
          by_cases same : given.chatRoomId = room
          · right; right
            have none : creatorOf room events = none := by
              rw [creatorOf_eq_none_iff, ← same]
              exact isNew
            refine ⟨given.creatorId, ⟨given, rfl, same, rfl⟩, none, ?_⟩
            rw [none, if_pos same]
            rfl
          · left
            rw [if_neg same]
            simp [creatorOf, Collection.find?]
  | describe other description actor =>
      cases isRequest
      cases changes with
      | update _ _ before found later isFirst isKeyed =>
          left
          simp only [creatorOf_append, creatorOf_cons]
          rfl
  | cancel other actor =>
      cases isRequest
      cases changes with
      | remove _ before found later isFirst isKeyed =>
          by_cases same : other = room
          · right; left
            subst same
            refine ⟨⟨actor, rfl⟩, fun distinct => ?_⟩
            rw [creatorOf_eq_none_iff, ← isKeyed]
            exact Collection.key_not_mem_others distinct
          · left
            have apart : found.chatRoomId ≠ room := fun here => same (isKeyed.symm.trans here)
            simp only [creatorOf_append, creatorOf_cons, if_neg apart]

/-- A change that needs a check is one of the first event of the room. -/
theorem split_of_changes {room actor : String}
    (guarded : process.change.guard? = some (room, actor))
    (isRequest : process.action.request = .ok request)
    (changes : request.Changes events after reply) :
    ∃ front found back,
      events = front ++ found :: back ∧
      room ∉ front.map Event.chatRoomId ∧
      found.chatRoomId = room ∧
      after = front ++ process.change.left found ++ back := by
  obtain ⟨around, change⟩ := process
  cases change with
  | create given => cases guarded
  | describe other description user =>
      cases guarded
      cases isRequest
      cases changes with
      | update _ _ before found later isFirst isKeyed =>
          refine ⟨before, found, later, rfl, isFirst, isKeyed, ?_⟩
          simp [EventChange.left, Record.amend]
  | cancel other user =>
      cases guarded
      cases isRequest
      cases changes with
      | remove _ before found later isFirst isKeyed =>
          refine ⟨before, found, later, rfl, isFirst, isKeyed, ?_⟩
          simp [EventChange.left]

end Changes

/-! ## The account of the writes -/

/-- The process at an index has come to cancel the event of a room. -/
def CancelsAt (processes : List Process) (room : String) (index : Nat) : Prop :=
  ∃ process, processes[index]? = some process ∧ process.Cancels room

/-- The process at an index has come to create an event of a room for a user. -/
def CreatesAt (processes : List Process) (room creator : String) (index : Nat) : Prop :=
  ∃ process, processes[index]? = some process ∧ process.Creates room creator

/-- After a cancel of the room's event whose write was taken, where no two events share
a room, there is no event of the room, or one that was created later. -/
def IsReplaced (processes : List Process) (room : String) (isDistinct : Prop) (taken : List Nat)
    (creator : Option String) : Prop :=
  ∃ earlier cancel later,
    taken = earlier ++ cancel :: later ∧
    CancelsAt processes room cancel ∧
    (isDistinct → ∀ owner, creator = some owner →
      ∃ create ∈ later, CreatesAt processes room owner create)

/-- What the writes since a check say of the creator of a room's event: it is the one who
asked, or the event was replaced. -/
def IsAccounted (processes : List Process) (room actor : String) (isDistinct : Prop)
    (taken : List Nat) (creator : Option String) : Prop :=
  creator = some actor ∨ IsReplaced processes room isDistinct taken creator

section Accounts

variable {processes : List Process} {room actor : String} {isDistinct : Prop} {taken : List Nat}
  {turn : Nat} {process : Process} {request : Request Event} {events after : List Event}
  {reply : Reply Event}

/-- One more change keeps the account. -/
theorem IsAccounted.change
    (accounted : IsAccounted processes room actor isDistinct taken (creatorOf room events))
    (distinct : isDistinct → (events.map Event.chatRoomId).Nodup)
    (isProcess : processes[turn]? = some process) (isRequest : process.action.request = .ok request)
    (changes : request.Changes events after reply) :
    IsAccounted processes room actor isDistinct (taken ++ [turn]) (creatorOf room after) := by
  rcases creatorOf_of_changes room isRequest changes with
    same | ⟨cancels, gone⟩ | ⟨creator, creates, nobody, created⟩
  · rw [same]
    rcases accounted with own | ⟨earlier, cancel, later, rfl, cancels, replaced⟩
    · exact .inl own
    · refine .inr ⟨earlier, cancel, later ++ [turn], by simp, cancels, ?_⟩
      intro apart owner owns
      obtain ⟨create, member, creates⟩ := replaced apart owner owns
      exact ⟨create, List.mem_append_left _ member, creates⟩
  · refine .inr ⟨taken, turn, [], rfl, ⟨process, isProcess, cancels⟩, ?_⟩
    intro apart owner owns
    rw [gone (distinct apart)] at owns
    cases owns
  · -- A create is taken only where the room has no event, so the one who asked has lost
    -- theirs before.
    rcases accounted with own | ⟨earlier, cancel, later, rfl, cancels, -⟩
    · rw [nobody] at own
      cases own
    · refine .inr ⟨earlier, cancel, later ++ [turn], by simp, cancels, ?_⟩
      intro _ owner owns
      rw [created] at owns
      cases owns
      exact ⟨turn, by simp, process, isProcess, creates⟩

/-- So does every schedule since a check. -/
theorem IsAccounted.follow {start : Crowd MemoryStore Result} {earlier : List Nat}
    (onCourse : ∀ schedule, AreOnCourse processes start schedule)
    (holds : HasEvents (start.follow earlier).store events)
    (own : creatorOf room events = some actor) (since : List Nat) :
    ∃ later,
      HasEvents (start.follow (earlier ++ since)).store later ∧
      ((events.map Event.chatRoomId).Nodup → (later.map Event.chatRoomId).Nodup) ∧
      IsAccounted processes room actor (events.map Event.chatRoomId).Nodup
        (winners ((start.follow earlier).history since)) (creatorOf room later) := by
  induction since using List.reverseRecOn with
  | nil =>
      rw [List.append_nil]
      exact ⟨events, holds, id, .inl own⟩
  | append_singleton since turn inductionHypothesis =>
      obtain ⟨later, holdsLater, distinct, accounted⟩ := inductionHypothesis
      rw [← List.append_assoc, Crowd.history_concat, winners_append, ← Crowd.follow_append]
      rcases (onCourse (earlier ++ since)).turn_cases turn with taken | ⟨same, nobody⟩
      · obtain ⟨process, found, request, after, reply, isProcess, holdsFound, isRequest, changes,
          holdsAfter⟩ := (onCourse (earlier ++ since)).changes_of_taken taken
        obtain rfl := holdsLater.unique holdsFound
        refine ⟨after, holdsAfter, fun apart => changes.distinct (distinct apart), ?_⟩
        rw [taken]
        exact accounted.change distinct isProcess isRequest changes
      · rw [same, nobody, List.append_nil]
        exact ⟨later, holdsLater, distinct, accounted⟩

end Accounts

end RoomLedger.CommandLine
