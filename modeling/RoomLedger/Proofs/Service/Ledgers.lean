import RoomLedger.Proofs.Collection.RoundTrip
import RoomLedger.Proofs.Collection.Undecodable
import RoomLedger.Proofs.Service.Balance
import RoomLedger.Service.Events
import RoomLedger.Service.Groups
import RoomLedger.Service.Histories
import RoomLedger.Service.Media
import RoomLedger.Service.Profiles

/-!
Contract: what the five services do with a blob that is no collection.

Owns:
- `Ledger`, the blobs of the services, and their keys, which are all different;
- `Call`, what can be asked of the services, and its operation;
- `Ledger.Hosts`, by which an operation objects to what it is asked or reads its ledger
  first, and `Call.hosts`, for every call;
- `undecodable_blobs_stay`, by which such a blob makes every call fail and is never
  written.

A call is a value with all that the caller tells, the time and a new id among it.

Does not own: what calls do where the blob is a collection.
-/

namespace RoomLedger

open RoomLedger.Collection (HasFailed KeepsTo LineFault)
open RoomLedger.Store (BlobStore Crowd Generation MemoryStore Plan Version)
open RoomLedger.Text (Bytes)

/-! ## Objections of the services -/

/-- What is no room is objected to under the name that was given. -/
theorem Histories.invalid_of_room {name : String} {failure : Failure}
    (refused : Histories.room name = .error failure) :
    ∃ objection, failure = .invalid name objection := by
  unfold Histories.room at refused
  split at refused
  · cases refused
    exact ⟨_, rfl⟩
  · cases named : Collection.ofKey (R := HistoryEntry) (Histories.blobKey name) with
    | ok collection =>
        rw [named] at refused
        cases refused
    | error other =>
        rw [named] at refused
        unfold Collection.ofKey at named
        split at named
        · cases named
          cases refused
          exact ⟨_, rfl⟩
        · cases named

private theorem Groups.invalid_of_requirePart {field name : String} {failure : Failure}
    (refused : Groups.requirePart field name = .error failure) :
    ∃ key objection, failure = .invalid key objection := by
  unfold Groups.requirePart at refused
  split at refused
  · cases refused
    exact ⟨_, _, rfl⟩
  · cases refused

private theorem Groups.invalid_of_memberKey {room user : String} {failure : Failure}
    (refused : Groups.memberKey room user = .error failure) :
    ∃ key objection, failure = .invalid key objection := by
  unfold Groups.memberKey at refused
  split at refused
  case h_1 other unfit =>
    cases refused
    exact Groups.invalid_of_requirePart unfit
  · split at refused
    case h_1 other unfit =>
      cases refused
      exact Groups.invalid_of_requirePart unfit
    · cases refused

namespace Services

/-! ## Ledgers -/

/-- The blobs of the services. Each room has a history of its own. -/
inductive Ledger where
  | events
  | history (room : String)
  | profiles
  | media
  | groups
deriving DecidableEq, Repr

namespace Ledger

def blobKey : Ledger → String
  | events => Events.collection.blobKey
  | history room => Histories.blobKey room
  | profiles => Profiles.collection.blobKey
  | media => Media.collection.blobKey
  | groups => Groups.collection.blobKey

/-- What is wrong with a line that is neither empty nor a record of the ledger's
kind. -/
def lineFault? : Ledger → Bytes → Option Json.Fault
  | events => Collection.lineFault? Event
  | history _ => Collection.lineFault? HistoryEntry
  | profiles => Collection.lineFault? UserProfile
  | media => Collection.lineFault? MediaItem
  | groups => Collection.lineFault? GroupMember

/-- Why a blob is no collection of the ledger's kind. -/
def fault? : Ledger → Bytes → Option LineFault
  | events => Collection.fault? Event
  | history _ => Collection.fault? HistoryEntry
  | profiles => Collection.fault? UserProfile
  | media => Collection.fault? MediaItem
  | groups => Collection.fault? GroupMember

private theorem fault?_eq_some_iff {ledger : Ledger} {bytes : Bytes} {found : LineFault} :
    ledger.fault? bytes = some found ↔
      ∃ before line later,
        Text.pieces Collection.newline bytes = before ++ line :: later ∧
        found.line = before.length + 1 ∧
        (∀ earlier ∈ before, ledger.lineFault? earlier = none) ∧
        ledger.lineFault? line = some found.fault := by
  cases ledger with
  | events => exact Collection.fault?_eq_some_iff
  | history room => exact Collection.fault?_eq_some_iff
  | profiles => exact Collection.fault?_eq_some_iff
  | media => exact Collection.fault?_eq_some_iff
  | groups => exact Collection.fault?_eq_some_iff

/-- The first letter of the ledger's key. -/
def initial : Ledger → Char
  | events => 'e'
  | history _ => 'h'
  | profiles => 'p'
  | media => 'm'
  | groups => 'g'

theorem toList_blobKey_history (room : String) :
    (history room).blobKey.toList = "history/".toList ++ room.toList ++ ".jsonl".toList := by
  simp [blobKey, Histories.blobKey, toString]

private theorem head?_blobKey (ledger : Ledger) :
    ledger.blobKey.toList.head? = some ledger.initial := by
  cases ledger with
  | history room =>
      rw [toList_blobKey_history]
      rfl
  | events => decide +kernel
  | profiles => decide +kernel
  | media => decide +kernel
  | groups => decide +kernel

/-- Every ledger has a key of its own. -/
theorem blobKey_injective : Function.Injective blobKey := by
  intro left right same
  have initials : left.initial = right.initial := by
    apply Option.some.inj
    rw [← head?_blobKey, ← head?_blobKey, same]
  cases left with
  | history room =>
      cases right with
      | history other =>
          have spelled := congrArg String.toList same
          rw [toList_blobKey_history, toList_blobKey_history] at spelled
          have names := List.append_cancel_left (List.append_cancel_right spelled)
          rw [String.toList_inj.mp names]
      | _ => simp [initial] at initials
  | _ => cases right <;> simp_all [initial]

end Ledger

/-! ## Calls -/

/-- What can be asked of the services. -/
inductive Call where
  | createEvent (now : Time.Timestamp) (event : Event)
  | getEvent (room : String)
  | updateEvent (room description : String)
  | removeEvent (room : String)
  | listEvents (query : Query)
  | upcomingEvents (now : Time.Timestamp) (limit : Nat)
  | appendEntry (now : Time.Timestamp) (freshId room author : String) (role : Role)
      (content : String)
  | getEntry (room id : String)
  | editEntry (room id content : String)
  | removeEntry (room id : String)
  | listEntries (room : String) (query : Query)
  | recentEntries (room : String) (count : Nat)
  | clearHistory (room : String)
  | createProfile (now : Time.Timestamp) (user displayName : String) (timezone : Option String)
  | getProfile (user : String)
  | updateProfile (user notes : String)
  | removeProfile (user : String)
  | listProfiles (query : Query)
  | registerItem (freshId : String) (item : MediaItem)
  | getItem (id : String)
  | updateItem (id caption : String)
  | removeItem (id : String)
  | listItems (query : Query)
  | itemsInRoom (room : String)
  | joinRoom (now : Time.Timestamp) (room user nickname : String) (role : MemberRole)
  | getMember (room user : String)
  | renameMember (room user nickname : String)
  | leaveRoom (room user : String)
  | membersOf (room : String)
  | roomsOf (user : String)

/-- What the services return. -/
inductive Reply where
  | event (event : Event)
  | events (events : List Event)
  | entry (entry : HistoryEntry)
  | entries (entries : List HistoryEntry)
  | count (number : Nat)
  | profile (profile : UserProfile)
  | profiles (profiles : List UserProfile)
  | item (item : MediaItem)
  | items (items : List MediaItem)
  | member (member : GroupMember)
  | members (members : List GroupMember)
  | rooms (rooms : List String)

namespace Call

/-- The ledger that a call is about. -/
def ledger : Call → Ledger
  | createEvent .. | getEvent .. | updateEvent .. | removeEvent .. | listEvents ..
  | upcomingEvents .. => .events
  | appendEntry _ _ room .. | getEntry room .. | editEntry room .. | removeEntry room ..
  | listEntries room .. | recentEntries room .. | clearHistory room => .history room
  | createProfile .. | getProfile .. | updateProfile .. | removeProfile ..
  | listProfiles .. => .profiles
  | registerItem .. | getItem .. | updateItem .. | removeItem .. | listItems ..
  | itemsInRoom .. => .media
  | joinRoom .. | getMember .. | renameMember .. | leaveRoom .. | membersOf ..
  | roomsOf .. => .groups

/-- The operation of a call. -/
def operation : Call → Operation Reply
  | createEvent now event => (Events.create now event).mapResult .event
  | getEvent room => (Events.get room).mapResult .event
  | updateEvent room description => (Events.updateDescription room description).mapResult .event
  | removeEvent room => (Events.remove room).mapResult .event
  | listEvents query => (Events.list query).mapResult .events
  | upcomingEvents now limit => (Events.upcoming now limit).mapResult .events
  | appendEntry now freshId room author role content =>
      (Histories.append now freshId room author role content).mapResult .entry
  | getEntry room id => (Histories.get room id).mapResult .entry
  | editEntry room id content => (Histories.edit room id content).mapResult .entry
  | removeEntry room id => (Histories.remove room id).mapResult .entry
  | listEntries room query => (Histories.list room query).mapResult .entries
  | recentEntries room count => (Histories.recent room count).mapResult .entries
  | clearHistory room => (Histories.clear room).mapResult .count
  | createProfile now user displayName timezone =>
      (Profiles.create now user displayName timezone).mapResult .profile
  | getProfile user => (Profiles.get user).mapResult .profile
  | updateProfile user notes => (Profiles.updateNotes user notes).mapResult .profile
  | removeProfile user => (Profiles.remove user).mapResult .profile
  | listProfiles query => (Profiles.list query).mapResult .profiles
  | registerItem freshId item => (Media.register freshId item).mapResult .item
  | getItem id => (Media.get id).mapResult .item
  | updateItem id caption => (Media.updateCaption id caption).mapResult .item
  | removeItem id => (Media.remove id).mapResult .item
  | listItems query => (Media.list query).mapResult .items
  | itemsInRoom room => (Media.inRoom room).mapResult .items
  | joinRoom now room user nickname role =>
      (Groups.join now room user nickname role).mapResult .member
  | getMember room user => (Groups.member room user).mapResult .member
  | renameMember room user nickname => (Groups.rename room user nickname).mapResult .member
  | leaveRoom room user => (Groups.leave room user).mapResult .member
  | membersOf room => (Groups.members room).mapResult .members
  | roomsOf user => (Groups.roomsOf user).mapResult .rooms

end Call

/-! ## Operations on a ledger -/

/-- An operation that objects to what it is asked, or keeps to a collection of the
ledger's kind at the ledger's key. -/
inductive Ledger.Hosts {α : Type} (ledger : Ledger) : Operation α → Prop
  | objects (key : String) (objection : Objection) :
      Hosts ledger (Operation.fail (.invalid key objection))
  | keeps {R : Type} [Record R] {operation : Operation α} (collection : Collection R)
      (named : collection.blobKey = ledger.blobKey) (judged : ledger.fault? = Collection.fault? R)
      (keepsTo : collection.KeepsTo operation) :
      Hosts ledger operation

namespace Ledger.Hosts

variable {α β : Type} {ledger : Ledger} {operation : Operation α}

private theorem mapResult (hosts : ledger.Hosts operation) (change : α → β) :
    ledger.Hosts (operation.mapResult change) := by
  cases hosts with
  | objects key objection => exact .objects key objection
  | keeps collection named judged keepsTo =>
      exact .keeps collection named judged (keepsTo.mapResult change)

private theorem events (keepsTo : Events.collection.KeepsTo operation) :
    Ledger.events.Hosts operation :=
  .keeps Events.collection rfl rfl keepsTo

private theorem profiles (keepsTo : Profiles.collection.KeepsTo operation) :
    Ledger.profiles.Hosts operation :=
  .keeps Profiles.collection rfl rfl keepsTo

private theorem media (keepsTo : Media.collection.KeepsTo operation) :
    Ledger.media.Hosts operation :=
  .keeps Media.collection rfl rfl keepsTo

private theorem groups (keepsTo : Groups.collection.KeepsTo operation) :
    Ledger.groups.Hosts operation :=
  .keeps Groups.collection rfl rfl keepsTo

/-- What is no room is objected to, and a room has a collection of its own. -/
theorem history {room : String} {next : Collection HistoryEntry → Operation α}
    (keepsTo : ∀ collection : Collection HistoryEntry, collection.KeepsTo (next collection)) :
    (Ledger.history room).Hosts (Operation.after (Histories.room room) next) := by
  cases named : Histories.room room with
  | error failure =>
      obtain ⟨objection, rfl⟩ := Histories.invalid_of_room named
      exact .objects room objection
  | ok collection =>
      exact .keeps collection (Histories.Action.blobKey_of_room named) rfl (keepsTo collection)

theorem isOn (hosts : ledger.Hosts operation) : operation.IsOn ledger.blobKey := by
  cases hosts with
  | objects key objection => trivial
  | keeps collection named judged keepsTo =>
      rw [← named]
      exact keepsTo.isOn

section Undecodable

variable {version : Version} {found : LineFault}

/-- The operation objects without a call, or it fails for the blob and leaves the store
alone. -/
theorem run_of_fault {S : Type} [BlobStore S] {store : S} (hosts : ledger.Hosts operation)
    (rejected : ledger.fault? version.contentOrEmpty = some found)
    (finds : BlobStore.read store ledger.blobKey = .ok version) :
    (∃ key objection, operation = Operation.fail (.invalid key objection)) ∨
      operation.run store = (.error (Collection.undecodable ledger.blobKey found), store) := by
  cases hosts with
  | objects key objection => exact Or.inl ⟨key, objection, rfl⟩
  | keeps collection named judged keepsTo =>
      rw [judged] at rejected
      rw [← named] at finds ⊢
      exact keepsTo.run_of_fault rejected finds

private theorem spares_of_fault (hosts : ledger.Hosts operation)
    (rejected : ledger.fault? version.contentOrEmpty = some found) :
    operation.Spares ledger.blobKey version (HasFailed ledger.blobKey found) := by
  cases hosts with
  | objects key objection => exact Or.inl ⟨key, objection, rfl⟩
  | keeps collection named judged keepsTo =>
      rw [judged] at rejected
      rw [← named]
      exact keepsTo.spares_of_fault rejected

end Undecodable

end Ledger.Hosts

theorem keepsTo_createEvent (now : Time.Timestamp) (event : Event) :
    Events.collection.KeepsTo (Events.create now event) := by
  unfold Events.create
  split
  · exact .objects _ _
  · exact Collection.keepsTo_create event

private theorem keepsTo_memberKey {α : Type} {room user : String} {next : String → Operation α}
    (keeps : ∀ key, Groups.collection.KeepsTo (next key)) :
    Groups.collection.KeepsTo (Operation.after (Groups.memberKey room user) next) :=
  KeepsTo.after (fun _ => Groups.invalid_of_memberKey) fun key _ => keeps key

namespace Call

/-- Every call objects to what it is asked, or keeps to its ledger. -/
theorem hosts (call : Call) : call.ledger.Hosts call.operation := by
  cases call with
  | createEvent now event => exact (Ledger.Hosts.events (keepsTo_createEvent now event)).mapResult _
  | getEvent room => exact (Ledger.Hosts.events (Collection.keepsTo_get room)).mapResult _
  | updateEvent room description =>
      exact (Ledger.Hosts.events (Collection.keepsTo_update room description)).mapResult _
  | removeEvent room => exact (Ledger.Hosts.events (Collection.keepsTo_remove room)).mapResult _
  | listEvents query => exact (Ledger.Hosts.events (Collection.keepsTo_list query)).mapResult _
  | upcomingEvents now limit => exact (Ledger.Hosts.events (Collection.keepsTo_list _)).mapResult _
  | appendEntry now freshId room author role content =>
      exact (Ledger.Hosts.history fun _ => Collection.keepsTo_create _).mapResult _
  | getEntry room id => exact (Ledger.Hosts.history fun _ => Collection.keepsTo_get id).mapResult _
  | editEntry room id content =>
      exact (Ledger.Hosts.history fun _ => Collection.keepsTo_update id content).mapResult _
  | removeEntry room id =>
      exact (Ledger.Hosts.history fun _ => Collection.keepsTo_remove id).mapResult _
  | listEntries room query =>
      exact (Ledger.Hosts.history fun _ => Collection.keepsTo_list query).mapResult _
  | recentEntries room count =>
      exact ((Ledger.Hosts.history fun _ => Collection.keepsTo_list .all).mapResult _).mapResult _
  | clearHistory room =>
      exact (Ledger.Hosts.history fun _ => Collection.keepsTo_removeWhere _).mapResult _
  | createProfile now user displayName timezone =>
      exact (Ledger.Hosts.profiles (Collection.keepsTo_create _)).mapResult _
  | getProfile user => exact (Ledger.Hosts.profiles (Collection.keepsTo_get user)).mapResult _
  | updateProfile user notes =>
      exact (Ledger.Hosts.profiles (Collection.keepsTo_update user notes)).mapResult _
  | removeProfile user => exact (Ledger.Hosts.profiles (Collection.keepsTo_remove user)).mapResult _
  | listProfiles query => exact (Ledger.Hosts.profiles (Collection.keepsTo_list query)).mapResult _
  | registerItem freshId item =>
      exact (Ledger.Hosts.media (Collection.keepsTo_create _)).mapResult _
  | getItem id => exact (Ledger.Hosts.media (Collection.keepsTo_get id)).mapResult _
  | updateItem id caption =>
      exact (Ledger.Hosts.media (Collection.keepsTo_update id caption)).mapResult _
  | removeItem id => exact (Ledger.Hosts.media (Collection.keepsTo_remove id)).mapResult _
  | listItems query => exact (Ledger.Hosts.media (Collection.keepsTo_list query)).mapResult _
  | itemsInRoom room =>
      exact ((Ledger.Hosts.media (Collection.keepsTo_list .all)).mapResult _).mapResult _
  | joinRoom now room user nickname role =>
      exact (Ledger.Hosts.groups (Collection.keepsTo_create _)).mapResult _
  | getMember room user =>
      exact (Ledger.Hosts.groups (keepsTo_memberKey Collection.keepsTo_get)).mapResult _
  | renameMember room user nickname =>
      exact (Ledger.Hosts.groups
        (keepsTo_memberKey fun key => Collection.keepsTo_update key nickname)).mapResult _
  | leaveRoom room user =>
      exact (Ledger.Hosts.groups (keepsTo_memberKey Collection.keepsTo_remove)).mapResult _
  | membersOf room =>
      exact ((Ledger.Hosts.groups (Collection.keepsTo_list .all)).mapResult _).mapResult _
  | roomsOf user =>
      exact ((Ledger.Hosts.groups (Collection.keepsTo_list _)).mapResult _).mapResult _

/-- Calls under way, none of which has asked anything. -/
def crowd (calls : List Call) (store : MemoryStore) : Crowd MemoryStore (Except Failure Reply) where
  plans := calls.map operation
  store := store

/-- Among calls of any sort those on a ledger that cannot be decoded fail, and nobody
writes it. -/
theorem spares_of_fault {ledger : Ledger} {version : Version} {found : LineFault}
    (rejected : ledger.fault? version.contentOrEmpty = some found) (calls : List Call) :
    ∀ (index : Nat) (plan : Operation Reply), (calls.map operation)[index]? = some plan →
      plan.Spares ledger.blobKey version fun result =>
        ∀ call, calls[index]? = some call → call.ledger = ledger →
          HasFailed ledger.blobKey found result := by
  intro index plan present
  rw [List.getElem?_map] at present
  obtain ⟨call, isCall, rfl⟩ := Option.map_eq_some_iff.mp present
  by_cases about : call.ledger = ledger
  · subst about
    exact (call.hosts.spares_of_fault rejected).weaken fun _ failed _ _ _ => failed
  · apply call.hosts.isOn.spares fun keys => about (Ledger.blobKey_injective keys)
    intro result other isOther same
    rw [isCall] at isOther
    cases isOther
    exact absurd same about

end Call

/-- A blob that cannot be decoded has a first line that is neither empty nor a record. A
call on it objects to what it is asked, without looking at the blob, or it fails with the
number of that line, and whatever store keeps the blob is left as it was. No calls on
any ledgers, one after another or mixed, ever write that blob. -/
theorem undecodable_blobs_stay (ledger : Ledger) {version : Version} {found : LineFault}
    (rejected : ledger.fault? version.contentOrEmpty = some found) :
    (∃ before line later,
      Text.pieces Collection.newline version.contentOrEmpty = before ++ line :: later ∧
      found.line = before.length + 1 ∧
      (∀ earlier ∈ before, ledger.lineFault? earlier = none) ∧
      ledger.lineFault? line = some found.fault) ∧
    (∀ (S : Type) [BlobStore S] (store : S) (call : Call),
      call.ledger = ledger →
      BlobStore.read store ledger.blobKey = .ok version →
      (∃ key objection, call.operation = Operation.fail (.invalid key objection)) ∨
        call.operation.run store =
          (.error (.store ledger.blobKey
            (.corrupt ledger.blobKey (.badLine found.line found.fault))), store)) ∧
    (∀ (calls : List Call) (store : MemoryStore),
      BlobStore.read store ledger.blobKey = .ok version →
      let (results, after) := Plan.runAll (calls.map Call.operation) store
      BlobStore.read after ledger.blobKey = .ok version ∧
        ∀ (index : Nat) (call : Call), calls[index]? = some call → call.ledger = ledger →
          ∃ result, results[index]? = some result ∧ HasFailed ledger.blobKey found result) ∧
    (∀ (calls : List Call) (store : MemoryStore) (schedule : List Nat),
      BlobStore.read store ledger.blobKey = .ok version →
      let final := (Call.crowd calls store).follow schedule
      BlobStore.read final.store ledger.blobKey = .ok version ∧
        ∀ (index : Nat) (call : Call) (result : Except Failure Reply),
          calls[index]? = some call → call.ledger = ledger → final.result? index = some result →
          HasFailed ledger.blobKey found result) := by
  refine ⟨Ledger.fault?_eq_some_iff.mp rejected, ?_, ?_, ?_⟩
  · rintro S _ store call rfl finds
    exact call.hosts.run_of_fault rejected finds
  · intro calls store finds
    obtain ⟨failed, stays⟩ := Plan.runAll_of_spares (Call.spares_of_fault rejected calls) finds
    refine ⟨stays, ?_⟩
    intro index call isCall about
    obtain ⟨inside, -⟩ := List.getElem?_eq_some_iff.mp isCall
    have answered : index < (Plan.runAll (calls.map Call.operation) store).1.length := by
      rw [Plan.length_runAll, List.length_map]
      exact inside
    have returned := List.getElem?_eq_getElem answered
    exact ⟨_, returned, failed index _ returned call isCall about⟩
  · intro calls store schedule finds final
    have spare : ∀ (index : Nat) (plan : Operation Reply),
        (Call.crowd calls store).plans[index]? = some plan → _ :=
      Call.spares_of_fault rejected calls
    obtain ⟨failed, stays⟩ := Crowd.follow_of_spares spare finds schedule
    refine ⟨stays, ?_⟩
    intro index call result isCall about returned
    exact failed index result returned call isCall about

/-- A profile, an empty line, a line that is no record, and another one. -/
def spoiledLines : Bytes :=
  Collection.encode [Collection.sampleProfile] ++ Text.bytes "\n \noops\n\x7b\x7d"

def spoiledVersion : Version where
  content := some spoiledLines
  contentType := some Collection.contentType
  generation := ⟨7⟩

def spoiledStore : MemoryStore :=
  MemoryStore.empty.after "profiles.jsonl" ⟨spoiledLines, Collection.contentType, ⟨7⟩⟩

/-- Calls on the profile before the bad line, and calls on other ledgers. -/
def stubbornCalls : List Call :=
  [.getProfile "u-1", .appendEntry Collection.sampleProfile.createdAt "m-1" "r" "u-1" .user "hi",
    .removeProfile "u-1", .clearHistory "r", .listProfiles .all]

theorem undecodable_blobs_stay_behind_good_line :
    Ledger.profiles.fault? spoiledLines = some ⟨3, .malformed⟩ ∧
    let (results, after) := Plan.runAll (stubbornCalls.map Call.operation) spoiledStore
    BlobStore.read after "profiles.jsonl" = .ok spoiledVersion ∧
      ∃ result, results[0]? = some result ∧ HasFailed "profiles.jsonl" ⟨3, .malformed⟩ result := by
  have rejected : Ledger.profiles.fault? spoiledVersion.contentOrEmpty = some ⟨3, .malformed⟩ := by
    decide +kernel
  obtain ⟨stays, failed⟩ :=
    (undecodable_blobs_stay .profiles rejected).2.2.1 stubbornCalls spoiledStore rfl
  exact ⟨rejected, stays, failed 0 (.getProfile "u-1") rfl rfl⟩

end Services

end RoomLedger
