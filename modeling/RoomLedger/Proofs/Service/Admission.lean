import RoomLedger.Proofs.Collection.Finding
import RoomLedger.Proofs.Service.Provenance

/-!
Contract: which events a create admits, and what becomes of the others.

Owns:
- `Objects`, what can be objected to the create of an event;
- `create_of_isSound` and `exists_objection`, by which a create asks the store exactly if
  nothing can be objected;
- `admits_iff_isSound`, what a create that has the store for itself returns and leaves.

The conditions are checked in three places, one after another. The first one that fails is
the objection, and the store is asked after the last.

Does not own: creates whose calls mix with others.
-/

namespace RoomLedger.Events

open RoomLedger.Collection (contentType)
open RoomLedger.Store (MemoryStore Plan)

variable {now : Time.Timestamp} {event : Event}

/-! ## Objections -/

/-- What can be objected to the create of an event, with the key that the objection names. -/
inductive Objects (now : Time.Timestamp) (event : Event) : (key : String) → Objection → Prop
  | hasBegun (begun : event.startTime ≤ now) :
      Objects now event event.chatRoomId (.notInFuture event.startTime)
  | noRoom (blank : Text.blank event.chatRoomId = true) :
      Objects now event "event" .blankKey
  | flaw (found : Flaw) (isFlaw : event.HasFlaw found) :
      Objects now event event.chatRoomId (.flaw found)

/-- Nothing can be objected to a sound event. -/
theorem Objects.not_isSound {key : String} {objection : Objection}
    (objects : Objects now event key objection) :
    ¬ IsSound now event := by
  intro sound
  cases objects with
  | hasBegun begun => exact absurd sound.future (Int.not_lt.mpr begun)
  | noRoom blank => exact absurd sound.room (by simp [blank])
  | flaw found isFlaw =>
      cases isFlaw with
      | noCreator blank => exact absurd sound.creator (by simp [blank])
      | noTitle blank => exact absurd sound.title (by simp [blank])
      | noCapacity none => exact absurd sound.capacity (by simp [none])
      | endsTooEarly order => exact absurd sound.order (Int.not_lt.mpr order)

/-! ## The create -/

/-- The create of a sound event goes on to the store. -/
theorem create_of_isSound (sound : IsSound now event) :
    create now event =
      collection.load fun found =>
        match Collection.find? event.chatRoomId found.records with
        | some _ => Operation.fail (.conflict event.chatRoomId .duplicate)
        | none =>
            collection.commit (found.records ++ [event]) found.generation event.chatRoomId
              event := by
  have ahead : ¬ event.startTime ≤ now := Int.not_le.mpr sound.future
  have named : Collection.requireKey (Record.kind Event) (Record.key event) = .ok () :=
    if_neg (by simp [show Text.blank (Record.key event) = false from sound.room])
  have checked : Record.check event = .ok () := by
    refine (Event.check_eq_ok_iff event).mpr ⟨sound.creator, sound.title, ?_, ?_⟩
    · intro none
      exact absurd sound.capacity (by simp [none])
    · exact Int.not_le.mpr sound.order
  rw [create, if_neg ahead, Collection.create, named]
  simp only [Operation.after, Collection.requireSound, checked,
    show Record.key event = event.chatRoomId from rfl]
  congr
  funext found
  cases Collection.find? event.chatRoomId found.records with
  | none => rfl
  | some other => rfl

/-- The create of any other event fails without a store call, by an objection that there
is. -/
theorem exists_objection (unsound : ¬ IsSound now event) :
    ∃ key objection, Objects now event key objection ∧
      create now event = Operation.fail (.invalid key objection) := by
  by_cases begun : event.startTime ≤ now
  · exact ⟨_, _, .hasBegun begun, if_pos begun⟩
  · rw [create, if_neg begun, Collection.create]
    by_cases blank : Text.blank event.chatRoomId = true
    · refine ⟨_, _, .noRoom blank, ?_⟩
      have refused : Collection.requireKey (Record.kind Event) (Record.key event) =
          .error (.invalid "event" .blankKey) := if_pos blank
      rw [refused]
      rfl
    · have named : Collection.requireKey (Record.kind Event) (Record.key event) = .ok () :=
        if_neg blank
      cases checked : event.check with
      | error flaw =>
          refine ⟨_, _, .flaw flaw (Event.hasFlaw_of_check checked), ?_⟩
          have refused : Collection.requireSound event =
              .error (.invalid event.chatRoomId (.flaw flaw)) := by
            rw [Collection.requireSound, show Record.check event = .error flaw from checked]
            rfl
          rw [named, refused]
          rfl
      | ok passed =>
          have sound : Collection.requireSound event = .ok () := by
            rw [Collection.requireSound, show Record.check event = .ok () from checked]
          have precheck : (Collection.Request.create event).precheck = .ok () := by
            rw [Collection.Request.precheck, named]
            exact sound
          exact absurd (isSound_of_create begun precheck) unsound

/-! ## The create and the get after it -/

section Alone

variable {store : MemoryStore} {events : List Event}

private theorem run_create_of_duplicate
    (holds : Collection.decode (store.version collection.blobKey).contentOrEmpty = .ok events)
    (sound : IsSound now event) (taken : event.chatRoomId ∈ events.map Event.chatRoomId) :
    (create now event).run store =
      (.error (.conflict event.chatRoomId .duplicate), store) := by
  obtain ⟨other, found⟩ : ∃ other, Collection.find? event.chatRoomId events = some other := by
    apply Option.ne_none_iff_exists'.mp
    intro missing
    exact (Collection.find?_eq_none_iff event.chatRoomId events).mp missing taken
  rw [create_of_isSound sound,
    Collection.run_load (MemoryStore.read_of_isKey collection.isKey store) holds]
  simp only [found]
  rfl

private theorem run_create_of_new {following : Store.Generation}
    (holds : Collection.decode (store.version collection.blobKey).contentOrEmpty = .ok events)
    (next : (store.version collection.blobKey).generation.next? = some following)
    (sound : IsSound now event) (isNew : event.chatRoomId ∉ events.map Event.chatRoomId) :
    (create now event).run store =
      (.ok event,
        store.after collection.blobKey
          ⟨Collection.encode (events ++ [event]), contentType, following⟩) := by
  have missing : Collection.find? event.chatRoomId events = none :=
    (Collection.find?_eq_none_iff event.chatRoomId events).mpr isNew
  have answer := MemoryStore.write_of_next? collection.isKey next contentType
    (Collection.encode (events ++ [event]))
  rw [create_of_isSound sound,
    Collection.run_load (MemoryStore.read_of_isKey collection.isKey store) holds]
  simp only [missing, Collection.commit, Plan.run, answer, Collection.settle]

/-- A create that has the store for itself, on any blob that is a list of events, returns the
event exactly if it begins after the time of the create and before it ends, names a room, a
creator and a title, has room for someone, and no stored event has its room. It is stored
behind the others then, and a get of its room returns it. If only the room is taken, the
create is told of the duplicate and leaves the store. In all other cases it is told of an
objection that there is, whatever is stored, since it does not call the store at all. -/
theorem admits_iff_isSound (events : List Event) (store : MemoryStore) (now : Time.Timestamp)
    (event : Event)
    (holds : Collection.decode (store.version "events.jsonl").contentOrEmpty = .ok events)
    (room : (store.version "events.jsonl").generation.number + 1 < UInt64.size) :
    let result := ((create now event).run store).1
    let after := ((create now event).run store).2
    (result = .ok event ↔
      IsSound now event ∧ event.chatRoomId ∉ events.map Event.chatRoomId) ∧
    (result = .ok event →
      Collection.decode (after.version "events.jsonl").contentOrEmpty = .ok (events ++ [event]) ∧
      (get event.chatRoomId).run after = (.ok event, after)) ∧
    (IsSound now event → event.chatRoomId ∈ events.map Event.chatRoomId →
      (create now event).run store =
        (.error (.conflict event.chatRoomId .duplicate), store)) ∧
    (¬ IsSound now event ↔
      ∃ key objection, Objects now event key objection ∧
        create now event = Operation.fail (.invalid key objection)) := by
  intro result after
  have whenTaken : IsSound now event → event.chatRoomId ∈ events.map Event.chatRoomId →
      (create now event).run store = (.error (.conflict event.chatRoomId .duplicate), store) :=
    run_create_of_duplicate holds
  have whenRefused : ¬ IsSound now event → ∃ failure, result = .error failure := by
    intro unsound
    obtain ⟨key, objection, -, refused⟩ := exists_objection unsound
    exact ⟨_, congrArg (fun plan => (plan.run store).1) refused⟩
  have admitted : result = .ok event →
      IsSound now event ∧ event.chatRoomId ∉ events.map Event.chatRoomId := by
    intro succeeded
    by_cases sound : IsSound now event
    · refine ⟨sound, fun taken => ?_⟩
      have failed : result = .error (.conflict event.chatRoomId .duplicate) :=
        congrArg Prod.fst (whenTaken sound taken)
      rw [failed] at succeeded
      cases succeeded
    · obtain ⟨failure, failed⟩ := whenRefused sound
      rw [failed] at succeeded
      cases succeeded
  obtain ⟨following, next⟩ := Store.Generation.exists_next? room
  refine ⟨⟨admitted, ?_⟩, ?_, whenTaken, exists_objection, ?_⟩
  · rintro ⟨sound, isNew⟩
    exact congrArg Prod.fst (run_create_of_new holds next sound isNew)
  · intro succeeded
    obtain ⟨sound, isNew⟩ := admitted succeeded
    have left : after = store.after collection.blobKey
        ⟨Collection.encode (events ++ [event]), contentType, following⟩ :=
      congrArg Prod.snd (run_create_of_new holds next sound isNew)
    have stored : Collection.decode (after.version collection.blobKey).contentOrEmpty =
        .ok (events ++ [event]) := by
      rw [left, MemoryStore.version_after_self]
      exact Collection.decode_encode (events ++ [event])
    have found : Collection.find? event.chatRoomId (events ++ [event]) = some event :=
      Collection.find?_concat_self isNew
    refine ⟨stored, ?_⟩
    rw [get, Collection.run_get (MemoryStore.read_of_isKey collection.isKey after) stored
      sound.room, found]
    rfl
  · rintro ⟨key, objection, objects, -⟩
    exact objects.not_isSound

end Alone

/-- What is left of the leap second in which the sample profile was made, a tenth of a second
after that. -/
def lastCall : Event :=
  { sampleEvent with
    chatRoomId := "C2"
    startTime := {
      Collection.sampleProfile.createdAt with
      time := ⟨22, 29, 60, 600000000, by decide⟩
      offset := .utc
      nameable := by decide }
    endTime := {
      Collection.sampleProfile.createdAt with
      time := ⟨22, 30, 0, 0, by decide⟩
      offset := .utc
      nameable := by decide } }

/-- The create comes in the leap second that is almost over, by a clock in another offset. -/
theorem admits_iff_isSound_in_leap_second :
    let store := MemoryStore.empty.after "events.jsonl"
      ⟨Collection.encode [sampleEvent], contentType, .ofNat 7⟩
    let after := ((create Collection.sampleProfile.createdAt lastCall).run store).2
    ((create Collection.sampleProfile.createdAt lastCall).run store).1 = .ok lastCall ∧
    Collection.decode (after.version "events.jsonl").contentOrEmpty =
      .ok [sampleEvent, lastCall] ∧
    (get "C2").run after = (.ok lastCall, after) := by
  intro store after
  have holds : Collection.decode (store.version "events.jsonl").contentOrEmpty =
      .ok [sampleEvent] := by
    rw [MemoryStore.version_after_self]
    exact Collection.decode_encode [sampleEvent]
  have sound : IsSound Collection.sampleProfile.createdAt lastCall := by
    constructor <;> decide +kernel
  obtain ⟨admitted, stored, -, -⟩ := admits_iff_isSound [sampleEvent] store
    Collection.sampleProfile.createdAt lastCall holds (by decide +kernel)
  have succeeded := admitted.mpr ⟨sound, by decide +kernel⟩
  exact ⟨succeeded, stored succeeded⟩

end RoomLedger.Events
