import RoomLedger.Proofs.Collection.Canonical
import RoomLedger.Proofs.Record.Events
import RoomLedger.Service.Events

/-!
Contract: every stored event is the one that was created, apart from its description.

Owns:
- `Action`, a call that changes the schedule of events, with the time that its caller
  tells;
- `IsOrigin`, the create that an event comes from, with the checks that it passed then;
- `AreTraced`, by which all events have an origin and none was lost, and
  `AreTraced.change`, by which every change keeps it so;
- `Traces.follow`, the same for the events that are stored after a schedule;
- `stored_events_are_as_created`, for every schedule.

The checks are made once, by the create. They are carried along with the event, through
changes of its description, up to a remove.

Does not own: events that were stored by someone else.
-/

namespace RoomLedger

namespace Events

open RoomLedger.Collection (IsKeyed Reply Request contentType)
open RoomLedger.Collection.Request (IsStale)
open RoomLedger.Store (Act Crowd MemoryStore Plan Progress winners)

/-! ## Actions -/

/-- A call that changes the schedule of events. -/
inductive Action where
  | create (now : Time.Timestamp) (event : Event)
  | updateDescription (room description : String)
  | remove (room : String)

namespace Action

def operation : Action → Operation (Reply Event)
  | .create now event => (Events.create now event).mapResult .record
  | .updateDescription room description =>
      (Events.updateDescription room description).mapResult .record
  | .remove room => (Events.remove room).mapResult .record

/-- The action brings the event of a room into being, or ends it. -/
def Settles : Action → (room : String) → Prop
  | .create _ event, room => event.chatRoomId = room
  | .updateDescription _ _, _ => False
  | .remove other, room => other = room

/-- The request of an action, unless it is a create whose event has begun. -/
def request : Action → Except Failure (Request Event)
  | .create now event =>
      if event.startTime ≤ now then
        .error (.invalid event.chatRoomId (.notInFuture event.startTime))
      else .ok (.create event)
  | .updateDescription room description => .ok (.update room description)
  | .remove room => .ok (.remove room)

/-- A create whose event has not begun makes its request. -/
theorem request_create {now : Time.Timestamp} {event : Event} {request : Request Event}
    (isRequest : (create now event).request = .ok request) :
    ¬ event.startTime ≤ now ∧ request = .create event := by
  rw [Action.request] at isRequest
  split at isRequest
  · cases isRequest
  case isFalse isAhead =>
    cases isRequest
    exact ⟨isAhead, rfl⟩

theorem operation_eq (action : Action) :
    action.operation = Operation.after action.request fun request => request.plan collection := by
  cases action with
  | create now event =>
      simp only [operation, Events.create, request]
      split
      · rfl
      · rfl
  | updateDescription room description => rfl
  | remove room => rfl

theorem isTransaction_operation (action : Action) :
    action.operation.IsTransaction collection.blobKey IsStale := by
  rw [operation_eq]
  cases action.request with
  | error failure => exact Plan.IsTransaction.done _
  | ok request => exact request.isTransaction_plan collection

/-- An action that has the store for itself leaves it as it is, or makes the change of
its request and succeeds. -/
theorem run_cases {store : MemoryStore} {events : List Event}
    (holds : Collection.decode (store.version collection.blobKey).contentOrEmpty = .ok events)
    (action : Action) :
    (action.operation.run store).2 = store ∨
    ∃ request changed reply following,
      action.request = .ok request ∧
      request.precheck = .ok () ∧
      request.Changes events changed reply ∧
      action.operation.run store =
        (.ok reply,
          store.after collection.blobKey ⟨Collection.encode changed, contentType, following⟩) := by
  rw [operation_eq]
  cases action.request with
  | error failure => exact Or.inl rfl
  | ok request =>
      rcases request.run_plan_cases holds with
        same | ⟨changed, reply, following, passed, changes, run⟩
      · exact Or.inl same
      · exact Or.inr ⟨request, changed, reply, following, rfl, passed, changes, run⟩

/-- An action that changes the store has read what was there. -/
theorem decode_of_run {store : MemoryStore} {action : Action}
    (changes : (action.operation.run store).2 ≠ store) :
    ∃ events : List Event,
      Collection.decode (store.version collection.blobKey).contentOrEmpty = .ok events := by
  cases holds : Collection.decode (R := Event)
      (store.version collection.blobKey).contentOrEmpty with
  | ok events => exact ⟨events, rfl⟩
  | error found =>
      exfalso
      apply changes
      rw [operation_eq]
      cases action.request with
      | error failure => rfl
      | ok request => exact request.run_plan_of_fault holds

end Action

/-! ## Events and their origin -/

/-- What an event must satisfy to be created at a time. -/
structure IsSound (now : Time.Timestamp) (event : Event) : Prop where
  room : Text.blank event.chatRoomId = false
  creator : Text.blank event.creatorId = false
  title : Text.blank event.title = false
  capacity : 1 ≤ event.capacity
  order : event.startTime < event.endTime
  future : now < event.startTime

theorem isSound_of_create {now : Time.Timestamp} {event : Event} (isAhead : ¬ event.startTime ≤ now)
    (passed : (Request.create event).precheck = .ok ()) :
    IsSound now event := by
  obtain ⟨room, checked⟩ := Request.sound_of_precheck passed
  obtain ⟨creator, title, capacity, order⟩ := (Event.check_eq_ok_iff event).mp checked
  have positive : 1 ≤ event.capacity := by
    have nonzero : event.capacity.toNat ≠ 0 := fun zero => capacity (UInt32.toNat_inj.mp zero)
    rw [UInt32.le_iff_toNat_le, UInt32.toNat_one]
    omega
  rw [Time.Timestamp.le_def, Int.not_le] at order isAhead
  exact ⟨room, creator, title, positive, order, isAhead⟩

/-- The write of the action at an index was taken, and no write that was taken later has
created or removed an event of the room. -/
def IsLast (actions : List Action) (taken : List Nat) (index : Nat) (room : String) : Prop :=
  ∃ before later,
    taken = before ++ index :: later ∧
    ∀ other ∈ later, ∀ action, actions[other]? = some action → ¬ action.Settles room

namespace IsLast

variable {actions : List Action} {taken : List Nat} {index turn : Nat} {room : String}

private theorem concat (actions : List Action) (taken : List Nat) (turn : Nat) (room : String) :
    IsLast actions (taken ++ [turn]) turn room := by
  refine ⟨taken, [], rfl, ?_⟩
  intro other member
  cases member

private theorem stay (isLast : IsLast actions taken index room) {action : Action}
    (isAction : actions[turn]? = some action) (apart : ¬ action.Settles room) :
    IsLast actions (taken ++ [turn]) index room := by
  obtain ⟨before, later, rfl, alone⟩ := isLast
  refine ⟨before, later ++ [turn], by simp, ?_⟩
  intro other member act isAct
  rcases List.mem_append.mp member with earlier | last
  · exact alone other earlier act isAct
  · rw [List.mem_singleton.mp last, isAction] at isAct
    cases isAct
    exact apart

/-- Of a write that is taken now there is no later one, and an earlier one is still the
last if the new one has settled another room or none. -/
theorem of_concat (isLast : IsLast actions (taken ++ [turn]) index room) :
    index = turn ∨
      IsLast actions taken index room ∧
      ∀ action, actions[turn]? = some action → ¬ action.Settles room := by
  obtain ⟨before, later, split, alone⟩ := isLast
  rcases List.eq_nil_or_concat later with rfl | ⟨earlier, last, rfl⟩
  · left
    obtain ⟨-, ends⟩ := List.append_inj' split rfl
    exact (List.cons.inj ends).1.symm
  · right
    rw [List.concat_eq_append] at split alone
    rw [← List.cons_append, ← List.append_assoc] at split
    obtain ⟨same, ends⟩ := List.append_inj' split rfl
    obtain ⟨rfl, -⟩ := List.cons.inj ends
    refine ⟨⟨before, earlier, same, ?_⟩, alone turn (by simp)⟩
    exact fun other member => alone other (List.mem_append_left _ member)

end IsLast

/-- The action at an index has created the event, and nobody has ended it or created
another one of its room since. -/
structure IsOrigin (actions : List Action) (taken : List Nat)
    (results : Nat → Option (Except Failure (Reply Event))) (event : Event) (index : Nat)
    (now : Time.Timestamp) (given : Event) : Prop where
  isCreate : actions[index]? = some (.create now given)
  succeeded : results index = some (.ok (.record given))
  isLast : IsLast actions taken index event.chatRoomId
  sound : IsSound now given
  /-- Apart from its description the event is as it was given. -/
  same : event = { given with description := event.description }

namespace IsOrigin

variable {actions : List Action} {taken : List Nat}
  {results laterResults : Nat → Option (Except Failure (Reply Event))} {event : Event} {index : Nat}
  {now : Time.Timestamp} {given : Event}

private theorem told (origin : IsOrigin actions taken results event index now given)
    (kept : ∀ place result, results place = some result → laterResults place = some result) :
    IsOrigin actions taken laterResults event index now given :=
  { origin with succeeded := kept index _ origin.succeeded }

/-- The origin stays when a write is taken that settles another room or none. -/
theorem stay (origin : IsOrigin actions taken results event index now given) {turn : Nat}
    {action : Action} (isAction : actions[turn]? = some action)
    (apart : ¬ action.Settles event.chatRoomId) :
    IsOrigin actions (taken ++ [turn]) results event index now given where
  isCreate := origin.isCreate
  succeeded := origin.succeeded
  isLast := origin.isLast.stay isAction apart
  sound := origin.sound
  same := origin.same

private theorem amend (origin : IsOrigin actions taken results event index now given)
    (description : String) :
    IsOrigin actions taken results { event with description } index now given where
  isCreate := origin.isCreate
  succeeded := origin.succeeded
  isLast := origin.isLast
  sound := origin.sound
  same := by
    rw [origin.same]

/-- The stored event still satisfies what its create asked for. -/
theorem isSound (origin : IsOrigin actions taken results event index now given) :
    IsSound now event := by
  rw [origin.same]
  exact ⟨origin.sound.room, origin.sound.creator, origin.sound.title, origin.sound.capacity,
    origin.sound.order, origin.sound.future⟩

end IsOrigin

/-! ## What a turn makes of the events -/

/-- Every event has an origin, and every create whose event nobody has ended since is one:
no event has come from elsewhere, and none was lost. -/
structure AreTraced (actions : List Action) (taken : List Nat)
    (results : Nat → Option (Except Failure (Reply Event))) (events : List Event) : Prop where
  keyed : IsKeyed events
  origins : ∀ event ∈ events, ∃ index now given,
    IsOrigin actions taken results event index now given
  kept : ∀ index now given, actions[index]? = some (.create now given) →
    IsLast actions taken index given.chatRoomId →
    given.chatRoomId ∈ events.map Event.chatRoomId

section Changes

variable {actions : List Action} {taken : List Nat}
  {results : Nat → Option (Except Failure (Reply Event))} {turn : Nat} {events changed : List Event}
  {reply : Reply Event}

private theorem origin_of_create {now : Time.Timestamp} {given : Event}
    (isAction : actions[turn]? = some (.create now given)) (isAhead : ¬ given.startTime ≤ now)
    (passed : (Request.create given).precheck = .ok ())
    (changes : (Request.create given).Changes events changed reply)
    (done : results turn = some (.ok reply))
    (origins : ∀ event ∈ events, ∃ index now given,
      IsOrigin actions taken results event index now given) :
    ∀ event ∈ changed, ∃ index now given,
      IsOrigin actions (taken ++ [turn]) results event index now given := by
  cases changes with
  | create _ _ isNew =>
      intro event member
      rcases List.mem_append.mp member with earlier | last
      · obtain ⟨index, before, original, origin⟩ := origins event earlier
        refine ⟨index, before, original, origin.stay isAction ?_⟩
        intro same
        apply isNew
        exact List.mem_map.mpr ⟨event, earlier, same.symm⟩
      · rw [List.mem_singleton.mp last]
        exact ⟨turn, now, given, isAction, done, IsLast.concat actions taken turn _,
          isSound_of_create isAhead passed, rfl⟩

private theorem origin_of_update {room description : String}
    (isAction : actions[turn]? = some (.updateDescription room description))
    (changes : (Request.update room description).Changes events changed reply)
    (origins : ∀ event ∈ events, ∃ index now given,
      IsOrigin actions taken results event index now given) :
    ∀ event ∈ changed, ∃ index now given,
      IsOrigin actions (taken ++ [turn]) results event index now given := by
  have kept : ∀ event ∈ events, ∃ index now given,
      IsOrigin actions (taken ++ [turn]) results event index now given := by
    intro event member
    obtain ⟨index, now, given, origin⟩ := origins event member
    exact ⟨index, now, given, origin.stay isAction fun settles => settles⟩
  cases changes with
  | update _ _ before found later isFirst isKeyed =>
      intro event member
      rcases List.mem_append.mp member with earlier | here
      · exact kept event (List.mem_append_left _ earlier)
      · rcases List.mem_cons.mp here with rfl | after
        · obtain ⟨index, now, given, origin⟩ := kept found (by simp)
          exact ⟨index, now, given, origin.amend description⟩
        · exact kept event (List.mem_append_right _ (List.mem_cons_of_mem _ after))

private theorem origin_of_remove {room : String} (isAction : actions[turn]? = some (.remove room))
    (keyed : IsKeyed events) (changes : (Request.remove room).Changes events changed reply)
    (origins : ∀ event ∈ events, ∃ index now given,
      IsOrigin actions taken results event index now given) :
    ∀ event ∈ changed, ∃ index now given,
      IsOrigin actions (taken ++ [turn]) results event index now given := by
  cases changes with
  | remove _ before found later isFirst isKeyed =>
      intro event member
      have present : event ∈ before ++ found :: later := by
        rcases List.mem_append.mp member with earlier | after
        · exact List.mem_append_left _ earlier
        · exact List.mem_append_right _ (List.mem_cons_of_mem _ after)
      obtain ⟨index, now, given, origin⟩ := origins event present
      refine ⟨index, now, given, origin.stay isAction ?_⟩
      intro same
      apply Collection.key_not_mem_others keyed.distinct
      rw [isKeyed]
      exact List.mem_map.mpr ⟨event, member, same.symm⟩

variable {action : Action} {request : Request Event}

/-- The change of an action keeps the origin of every other event, and is the origin of
what it creates. -/
theorem origin_of_changes (isAction : actions[turn]? = some action)
    (isRequest : action.request = .ok request) (keyed : IsKeyed events)
    (passed : request.precheck = .ok ()) (changes : request.Changes events changed reply)
    (done : results turn = some (.ok reply))
    (origins : ∀ event ∈ events, ∃ index now given,
      IsOrigin actions taken results event index now given) :
    ∀ event ∈ changed, ∃ index now given,
      IsOrigin actions (taken ++ [turn]) results event index now given := by
  cases action with
  | create now given =>
      obtain ⟨isAhead, rfl⟩ := Action.request_create isRequest
      exact origin_of_create isAction isAhead passed changes done origins
  | updateDescription room description =>
      cases isRequest
      exact origin_of_update isAction changes origins
  | remove room =>
      cases isRequest
      exact origin_of_remove isAction keyed changes origins

/-- The change of an action takes no room away that it does not settle. -/
theorem room_mem_of_changes (isRequest : action.request = .ok request)
    (changes : request.Changes events changed reply) {room : String}
    (present : room ∈ events.map Event.chatRoomId) (apart : ¬ action.Settles room) :
    room ∈ changed.map Event.chatRoomId := by
  cases action with
  | create now given =>
      obtain ⟨-, rfl⟩ := Action.request_create isRequest
      cases changes with
      | create _ _ isNew =>
          rw [List.map_append]
          exact List.mem_append_left _ present
  | updateDescription other description =>
      cases isRequest
      cases changes with
      | update _ _ before found later isFirst isKeyed =>
          rw [List.map_append, List.map_cons] at present ⊢
          exact present
  | remove other =>
      cases isRequest
      cases changes with
      | remove _ before found later isFirst isKeyed =>
          rw [List.map_append, List.map_cons] at present
          rw [List.map_append]
          rcases List.mem_append.mp present with earlier | here
          · exact List.mem_append_left _ earlier
          · rcases List.mem_cons.mp here with same | after
            · exact absurd (isKeyed.symm.trans same.symm) apart
            · exact List.mem_append_right _ after

theorem AreTraced.change (traced : AreTraced actions taken results events)
    (isAction : actions[turn]? = some action) (isRequest : action.request = .ok request)
    (passed : request.precheck = .ok ()) (changes : request.Changes events changed reply)
    (done : results turn = some (.ok reply)) :
    AreTraced actions (taken ++ [turn]) results changed where
  keyed := changes.isKeyed traced.keyed passed
  origins :=
    origin_of_changes isAction isRequest traced.keyed passed changes done traced.origins
  kept := by
    intro index now given isCreate isLast
    rcases isLast.of_concat with rfl | ⟨earlier, apart⟩
    · rw [isCreate] at isAction
      cases isAction
      obtain ⟨-, rfl⟩ := Action.request_create isRequest
      cases changes with
      | create _ _ isNew => simp
    · exact room_mem_of_changes isRequest changes (traced.kept index now given isCreate earlier)
        (apart action isAction)

private theorem AreTraced.told {laterResults : Nat → Option (Except Failure (Reply Event))}
    (traced : AreTraced actions taken results events)
    (kept : ∀ place result, results place = some result → laterResults place = some result) :
    AreTraced actions taken laterResults events where
  keyed := traced.keyed
  origins := by
    intro event member
    obtain ⟨index, now, given, origin⟩ := traced.origins event member
    exact ⟨index, now, given, origin.told kept⟩
  kept := traced.kept

end Changes

/-! ## Every schedule -/

/-- Actions under way, none of which has made a call. -/
def crowd (actions : List Action) (store : MemoryStore) :
    Crowd MemoryStore (Except Failure (Reply Event)) where
  plans := actions.map Action.operation
  store := store

private theorem isTransaction_of_mem_operations (actions : List Action) :
    ∀ plan ∈ actions.map Action.operation, plan.IsTransaction collection.blobKey IsStale := by
  intro plan member
  obtain ⟨action, -, rfl⟩ := List.mem_map.mp member
  exact action.isTransaction_operation

/-- The events that are stored are traced. -/
def Traces (actions : List Action) (history : List Act)
    (crowd : Crowd MemoryStore (Except Failure (Reply Event))) : Prop :=
  ∃ events,
    Collection.decode (crowd.store.version collection.blobKey).contentOrEmpty = .ok events ∧
    AreTraced actions (winners history) crowd.result? events

namespace Traces

variable {actions : List Action} {store : MemoryStore} {history : List Act}
  {crowd : Crowd MemoryStore (Except Failure (Reply Event))}

/-- Where there is no blob, there is no event. -/
theorem start (absent : store.version collection.blobKey = .absent) :
    Traces actions [] (Events.crowd actions store) := by
  refine ⟨[], ?_, ⟨IsKeyed.nil, ?_, ?_⟩⟩
  · rw [show (Events.crowd actions store).store = store from rfl, absent]
    exact Collection.decode_nil
  · intro event member
    cases member
  · rintro index now given - ⟨before, later, split, -⟩
    have some : before ++ index :: later ≠ [] := by simp
    exact absurd split.symm some

/-- A turn whose write is taken does what the action would do alone. -/
theorem advance_of_taken
    (progress : Progress collection.blobKey IsStale (actions.map Action.operation) store history
      crowd)
    (traces : Traces actions history crowd) {turn : Nat}
    (taken : crowd.act? turn = some (.write turn true)) :
    Traces actions (history ++ [.write turn true]) (crowd.advance turn) := by
  have transactions := isTransaction_of_mem_operations actions
  obtain ⟨events, holds, traced⟩ := traces
  obtain ⟨plan, result, planned, alone, done⟩ :=
    progress.run_of_taken collection.isKey transactions taken
  rw [List.getElem?_map] at planned
  obtain ⟨action, isAction, rfl⟩ := Option.map_eq_some_iff.mp planned
  rcases action.run_cases holds with
    same | ⟨request, changed, reply, following, isRequest, passed, changes, run⟩
  · -- The mark is another one, so the action has not left the store as it was.
    have raised := progress.generation_advance collection.isKey transactions taken
    rw [alone] at same
    have unchanged : (crowd.advance turn).store = crowd.store := same
    rw [unchanged] at raised
    omega
  · rw [alone] at run
    obtain ⟨rfl, stored⟩ := Prod.mk.inj run
    refine ⟨changed, ?_, ?_⟩
    · rw [stored, MemoryStore.version_after_self]
      exact Collection.decode_encode changed
    · rw [Store.winners_append, Store.winners_singleton]
      have told := traced.told fun _ _ told => Crowd.result?_advance told turn
      exact told.change isAction isRequest passed changes done

/-- Every turn keeps the origins. -/
theorem advance
    (progress : Progress collection.blobKey IsStale (actions.map Action.operation) store history
      crowd)
    (traces : Traces actions history crowd) (turn : Nat) :
    Traces actions (history ++ (crowd.act? turn).toList) (crowd.advance turn) := by
  rcases progress.turn_cases collection.isKey (isTransaction_of_mem_operations actions) turn with
    taken | ⟨same, nobody⟩
  · rw [taken]
    exact traces.advance_of_taken progress taken
  · obtain ⟨events, holds, traced⟩ := traces
    refine ⟨events, ?_, ?_⟩
    · rw [same]
      exact holds
    · rw [Store.winners_append, nobody, List.append_nil]
      exact traced.told fun _ _ told => Crowd.result?_advance told turn

/-- So does every schedule. -/
theorem follow
    (progress : Progress collection.blobKey IsStale (actions.map Action.operation) store history
      crowd)
    (traces : Traces actions history crowd) (schedule : List Nat) :
    Traces actions (history ++ crowd.history schedule) (crowd.follow schedule) := by
  induction schedule generalizing history crowd with
  | nil =>
      rw [Crowd.history, List.append_nil, Crowd.follow_nil]
      exact traces
  | cons turn schedule inductionHypothesis =>
      rw [Crowd.history, ← List.append_assoc, Crowd.follow_cons]
      exact inductionHypothesis
        (progress.advance collection.isKey (isTransaction_of_mem_operations actions) turn)
        (traces.advance progress turn)

end Traces

/-- Creates, updates and removes of events, in any order of their reads and writes and
by any clocks, leave only events that one of the creates has made and nobody has ended
since. Each satisfies what its create asked for, the start after the time of the create
among it, and is as it was given to that create apart from its description. No event is
missing whose create had its write taken and which nobody has ended. -/
theorem stored_events_are_as_created (actions : List Action) (store : MemoryStore)
    (schedule : List Nat) (absent : store.version "events.jsonl" = .absent) :
    let start := crowd actions store
    let final := start.follow schedule
    let taken := winners (start.history schedule)
    ∃ events : List Event,
      Collection.decode (final.store.version "events.jsonl").contentOrEmpty = .ok events ∧
      (events.map Event.chatRoomId).Nodup ∧
      (∀ event ∈ events,
        Text.blank event.chatRoomId = false ∧
        Text.blank event.creatorId = false ∧
        Text.blank event.title = false ∧
        1 ≤ event.capacity ∧
        event.startTime < event.endTime ∧
        ∃ index now given,
          actions[index]? = some (.create now given) ∧
          final.result? index = some (.ok (.record given)) ∧
          IsLast actions taken index event.chatRoomId ∧
          now < event.startTime ∧
          event = { given with description := event.description }) ∧
      ∀ index now given, actions[index]? = some (.create now given) →
        IsLast actions taken index given.chatRoomId →
        given.chatRoomId ∈ events.map Event.chatRoomId := by
  intro start final taken
  have progress : Progress collection.blobKey IsStale (actions.map Action.operation) store []
      start :=
    Progress.start collection.blobKey IsStale (actions.map Action.operation) store
  obtain ⟨events, holds, traced⟩ := (Traces.start absent).follow progress schedule
  refine ⟨events, holds, traced.keyed.distinct, ?_, traced.kept⟩
  intro event member
  obtain ⟨index, now, given, origin⟩ := traced.origins event member
  have sound := origin.isSound
  exact ⟨sound.room, sound.creator, sound.title, sound.capacity, sound.order, index, now, given,
    origin.isCreate, origin.succeeded, origin.isLast, sound.future, origin.same⟩

/-- The evening before an event. -/
def eveOfEvent : Time.Timestamp :=
  { Collection.sampleProfile.createdAt with
    date := ⟨2030, 5, 1, by decide⟩
    nameable := by decide }

/-- An event of one day. -/
def sampleEvent : Event where
  chatRoomId := "C1"
  creatorId := "u-1"
  title := "Picnic"
  startTime := { eveOfEvent with date := ⟨2030, 5, 2, by decide⟩, nameable := by decide }
  endTime := { eveOfEvent with date := ⟨2030, 5, 3, by decide⟩, nameable := by decide }
  fee := ""
  capacity := 12
  description := ""
  showCreator := true

/-- Two creates of one room, a remove, and another create by a clock that is years behind
the first one. -/
def reschedulingActions : List Action :=
  [.create eveOfEvent sampleEvent, .create eveOfEvent { sampleEvent with title := "Dance" },
    .remove "C1",
    .create Collection.sampleProfile.createdAt { sampleEvent with fee := "free" },
    .updateDescription "C1" "Bring food."]

/-- The first two creates race, and the last one is the origin of what is stored. -/
theorem stored_events_are_as_created_after_rescheduling :
    let start := crowd reschedulingActions .empty
    let schedule := [0, 1, 0, 1, 2, 2, 3, 3, 4, 4]
    let final := start.follow schedule
    winners (start.history schedule) = [0, 2, 3, 4] ∧
    ∃ events : List Event,
      Collection.decode (final.store.version "events.jsonl").contentOrEmpty = .ok events ∧
      events.map Event.description = ["Bring food."] ∧
      ∀ event ∈ events, ∃ (index : Nat) (now : Time.Timestamp) (given : Event),
        reschedulingActions[index]? = some (.create now given) ∧
        now < event.startTime ∧
        event = { given with description := event.description } := by
  intro start schedule final
  obtain ⟨events, holds, -, origins, -⟩ :=
    stored_events_are_as_created reschedulingActions .empty schedule rfl
  have described : (Collection.decode (R := Event)
      (final.store.version "events.jsonl").contentOrEmpty).toOption.map
        (List.map Event.description) = some ["Bring food."] := by
    decide +kernel
  rw [holds] at described
  refine ⟨by decide +kernel, events, holds, Option.some.inj described, ?_⟩
  intro event member
  obtain ⟨-, -, -, -, -, index, now, given, isCreate, -, -, ahead, same⟩ := origins event member
  exact ⟨index, now, given, isCreate, ahead, same⟩

end Events

end RoomLedger
