import RoomLedger.Proofs.Collection.Committal
import RoomLedger.Proofs.Service.RoomNames
import RoomLedger.Proofs.Store.Companions

/-!
Contract: rooms that share a directory of files.

Owns:
- `resultsOn`, what the calls on one ledger return among those on others;
- `resultsOn_eq`, by which they return what they return in a memory of their own, if
  no other ledger hampers theirs;
- an entry that cannot be appended because another room's history is there;
- `rooms_are_isolated_iff`, for every two rooms and every sequence of calls on them;
- two rooms of which the second loses its history to the first.

Rooms have blobs of their own, but the names of rooms may hold slashes, and then the
files of one room may need a directory where another has a file.

Does not own: calls whose store calls mix.
-/

namespace RoomLedger

open RoomLedger.Disk (Holder Path Tree)
open RoomLedger.Store

namespace Services

/-! ## The calls on one ledger -/

/-- The results of the calls on a ledger, where calls on any ledgers have the store for
themselves one after another. -/
def resultsOn {S : Type} [BlobStore S] (ledger : Ledger) (calls : List Call) (store : S) :
    List (Except Failure Reply) :=
  ((calls.zip (Plan.runAll (calls.map Call.operation) store).1).filter fun entry =>
    entry.1.ledger = ledger).map Prod.snd

/-- The calls on a ledger, the others left out. -/
def callsOn (ledger : Ledger) (calls : List Call) : List Call :=
  calls.filter fun call => call.ledger = ledger

section Ledgers

variable {place : Path} {ledger : Ledger} {store : MountedStore} {memory : MemoryStore}

/-- The calls on a ledger that no other hampers return what they return in a memory of
their own. -/
theorem resultsOn_eq {calls : List Call} (housed : Housed store.files.root ledger.blobKey)
    (agrees : Agrees place ledger.blobKey store memory)
    (bystand : ∀ call ∈ calls, call.ledger ≠ ledger →
      Bystand (· = ledger.blobKey) call.ledger.blobKey) :
    resultsOn ledger calls store =
      (Plan.runAll ((callsOn ledger calls).map Call.operation) memory).1 := by
  induction calls generalizing store memory with
  | nil => rfl
  | cons call rest inductionHypothesis =>
      have bystandRest := fun other (member : other ∈ rest) => bystand other (by simp [member])
      by_cases own : call.ledger = ledger
      · obtain ⟨result, files, after⟩ := agrees.run housed (own ▸ call.hosts.isOn)
        have later := inductionHypothesis (files.symm ▸ housed) after bystandRest
        have first : resultsOn ledger (call :: rest) store =
            (call.operation.run store).1 :: resultsOn ledger rest (call.operation.run store).2 := by
          simp [resultsOn, Plan.runAll, own]
        rw [first, result, later]
        simp [callsOn, Plan.runAll, own]
      · obtain ⟨files, after⟩ :=
          agrees.run_bystands call.hosts.isOn (bystand call (by simp) own)
        have later := inductionHypothesis (files.symm ▸ housed) after bystandRest
        have first : resultsOn ledger (call :: rest) store =
            resultsOn ledger rest (call.operation.run store).2 := by
          simp [resultsOn, Plan.runAll, own]
        rw [first, later]
        simp [callsOn, own]

/-- So they return what they return with the others left out. -/
theorem resultsOn_eq_callsOn {calls : List Call} (housed : Housed store.files.root ledger.blobKey)
    (agrees : Agrees place ledger.blobKey store memory)
    (bystand : ∀ call ∈ calls, call.ledger ≠ ledger →
      Bystand (· = ledger.blobKey) call.ledger.blobKey) :
    resultsOn ledger calls store =
      (Plan.runAll ((callsOn ledger calls).map Call.operation) store).1 := by
  rw [resultsOn_eq housed agrees bystand, agrees.runAll housed]
  intro plan member
  obtain ⟨call, found, rfl⟩ := List.mem_map.mp member
  have own : call.ledger = ledger := by simpa [callsOn] using (List.mem_filter.mp found).2
  rw [← own]
  exact call.hosts.isOn

end Ledgers

/-! ## An entry in an empty history -/

/-- A room that has a key has a name. -/
theorem blank_of_isKey {name : String} (isKey : isKey (Histories.blobKey name) = true) :
    Text.blank name = false :=
  (Histories.isKey_blobKey_iff.mp isKey).blank_eq_false

/-- A room that has a key is accepted. -/
theorem room_of_isKey {name : String} (isKey : isKey (Histories.blobKey name) = true) :
    ∃ collection, Histories.room name = .ok collection :=
  Histories.room_ok_iff.mpr (Histories.isKey_blobKey_iff.mp isKey)

/-- An entry for a room. -/
def greeting (room : String) : Call :=
  .appendEntry Collection.sampleProfile.createdAt "m-1" room "u-1" .user "hi"

/-- The entry for a room as an action on its history. -/
def greetingAction : Histories.Action :=
  .append Collection.sampleProfile.createdAt "m-1" "u-1" .user "hi"

private theorem precheck_greetingAction {name : String} (named : Text.blank name = false) :
    (greetingAction.request name).precheck = .ok () := by
  have checked : HistoryEntry.check ⟨"m-1", name, "u-1", .user, "hi",
      Collection.sampleProfile.createdAt⟩ = .ok () := by
    have room : Record.require "chat_room_id" name = .ok () := by simp [named]
    have author : Record.require "author_id" "u-1" = .ok () := by simp; decide +kernel
    simp only [HistoryEntry.check, room, author]
    rfl
  have keyed : Collection.requireKey (Record.kind HistoryEntry) "m-1" = .ok () := by
    have id : Text.blank "m-1" = false := by decide +kernel
    rw [Collection.requireKey, id]
    rfl
  simp only [greetingAction, Histories.Action.request, Collection.Request.precheck, Record.key,
    Collection.requireSound, Record.check]
  rw [keyed, checked]

/-- An entry that no write puts into the history is not appended. -/
theorem returnsUnwritten_greeting (name : String) :
    (greeting name).operation.ReturnsUnwritten IsFailure := by
  have asAction : (greetingAction.operation name).ReturnsUnwritten IsFailure := by
    cases found : Histories.room name with
    | error failure =>
        rw [Histories.Action.operation_of_no_room found]
        exact ⟨failure, rfl⟩
    | ok collection =>
        rw [Histories.Action.operation_of_room found]
        exact Collection.Request.returnsUnwritten_of_isChange rfl collection
  exact (returnsUnwritten_mapResult_iff _ _).mpr ((returnsUnwritten_mapResult_iff _ _).mp asAction)

/-- An empty history takes an entry. -/
theorem not_isFailure_greeting {name : String} (isKey : isKey (Histories.blobKey name) = true) :
    ¬ IsFailure ((greeting name).operation.run MemoryStore.empty).1 := by
  obtain ⟨collection, found⟩ := room_of_isKey isKey
  have holds : Collection.decode (MemoryStore.empty.version collection.blobKey).contentOrEmpty =
      .ok ([] : List HistoryEntry) := rfl
  have asAction : ((greetingAction.operation name).run MemoryStore.empty).1 =
      .ok (.record ⟨"m-1", name, "u-1", .user, "hi", Collection.sampleProfile.createdAt⟩) := by
    rw [Histories.Action.operation_of_room found,
      Collection.Request.run_plan_of_decode (precheck_greetingAction (blank_of_isKey isKey)) holds]
    exact congrArg Prod.fst (Collection.Request.run_commit rfl _ _ _)
  intro fails
  have failsAsAction : IsFailure ((greetingAction.operation name).run MemoryStore.empty).1 :=
    (isFailure_run_mapResult_iff _ _ _).mpr ((isFailure_run_mapResult_iff _ _ _).mp fails)
  obtain ⟨failure, failed⟩ := failsAsAction
  rw [asAction] at failed
  cases failed

/-! ## Two rooms -/

section Rooms

variable {place : Path} {store : MountedStore} {first second : String}
  (found : store.tree.find store.files.root = .ok (place, some .directory))
  (spelled : store.files.root ≠ [""]) (fresh : IsFresh store.tree store.files.root)
  (firstHoused : Housed store.files.root (Histories.blobKey first))

include found spelled fresh firstHoused

/-- An entry for one room makes an entry for another fail whose key it hampers. -/
theorem resultsOn_of_hampers (secondHoused : Housed store.files.root (Histories.blobKey second))
    (different : first ≠ second)
    (hampers : Hampers (Histories.blobKey second) (Histories.blobKey first)) :
    let calls := [greeting second, greeting first]
    resultsOn (.history first) calls store ≠
      (Plan.runAll ((callsOn (.history first) calls).map Call.operation) store).1 := by
  have agrees := agrees_of_isFresh found spelled fresh secondHoused
  have isOn := (greeting second).hosts.isOn
  obtain ⟨result, files, after⟩ := agrees.run secondHoused isOn
  have created : IsCreated place (Histories.blobKey second)
      ((greeting second).operation.run store).2.tree := by
    rcases isCreated_of_run agrees.roots secondHoused.valid isOn (returnsUnwritten_greeting second)
      with fails | created
    · rw [result] at fails
      exact absurd fails (not_isFailure_greeting (isKey_iff.mpr secondHoused.valid))
    · exact created
  have fails := created.run_hampered hampers after.roots firstHoused.valid
    (greeting first).hosts.isOn (returnsUnwritten_greeting first)
  obtain ⟨alone, -⟩ := (agrees_of_isFresh found spelled fresh firstHoused).run firstHoused
    (greeting first).hosts.isOn
  have apart : (greeting second).ledger ≠ .history first := fun same =>
    different (Ledger.history.inj same).symm
  have own : (greeting first).ledger = .history first := rfl
  have mixed : resultsOn (.history first) [greeting second, greeting first] store =
      [((greeting first).operation.run ((greeting second).operation.run store).2).1] := by
    simp [resultsOn, Plan.runAll, apart, own]
  have single : callsOn (.history first) [greeting second, greeting first] = [greeting first] := by
    simp [callsOn, apart, own]
  intro calls same
  rw [mixed, single] at same
  rw [List.singleton_inj.mp same, alone] at fails
  exact not_isFailure_greeting (isKey_iff.mpr firstHoused.valid) fails

end Rooms

/-- Two rooms keep their histories in a fresh directory. Whatever is asked of the two,
the calls on the first return what they return with the calls on the second left out,
exactly if the key of the second room does not hamper the key of the first. -/
theorem rooms_are_isolated_iff (spelling : String) {settings : FileSettings}
    {opener holder : Holder} {disk tree : Tree} {files : FileStore}
    (opened : (FileStore.openAt (Path.ofText spelling) settings).run opener disk =
      (.ok files, tree))
    (fresh : IsFresh tree (Path.ofText spelling)) {first second : String}
    (firstHoused : Housed (Path.ofText spelling) (Histories.blobKey first))
    (secondHoused : Housed (Path.ofText spelling) (Histories.blobKey second))
    (different : first ≠ second) :
    let store : MountedStore := ⟨files, tree, holder⟩
    (∀ calls : List Call,
      (∀ call ∈ calls, call.ledger = .history first ∨ call.ledger = .history second) →
      resultsOn (.history first) calls store =
        (Plan.runAll ((callsOn (.history first) calls).map Call.operation) store).1) ↔
      ¬ Hampers (Histories.blobKey second) (Histories.blobKey first) := by
  intro store
  have root : store.files.root = Path.ofText spelling :=
    congrArg FileStore.root (makeDirectories_of_openAt opened).1
  obtain ⟨place, found⟩ := find_of_openAt opened
  have spelled := Path.ofText_ne spelling
  rw [← root] at found spelled fresh firstHoused secondHoused
  constructor
  · intro isolated hampers
    exact resultsOn_of_hampers found spelled fresh firstHoused secondHoused different hampers
      (isolated _ (by simp [greeting, Call.ledger]))
  · intro free calls about
    have agrees : Agrees place (Ledger.history first).blobKey store .empty :=
      agrees_of_isFresh found spelled fresh firstHoused
    apply resultsOn_eq_callsOn firstHoused agrees
    intro call member other
    have isSecond : call.ledger = .history second := (about call member).resolve_left other
    rintro _ rfl
    rw [isSecond]
    exact ⟨firstHoused.valid, fun same =>
      different (Ledger.history.inj (Ledger.blobKey_injective same)), free⟩

/-- A room that is named like a directory of another. -/
theorem rooms_are_isolated_iff_in_directory :
    resultsOn (.history "team/x") [greeting "team", greeting "team/x", .clearHistory "team",
        .recentEntries "team/x" 5] emptyBlobs =
      (Plan.runAll [(greeting "team/x").operation, (Call.recentEntries "team/x" 5).operation]
        emptyBlobs).1 := by
  have firstHoused : Housed (Path.ofText "blobs") (Histories.blobKey "team/x") := by decide +kernel
  have secondHoused : Housed (Path.ofText "blobs") (Histories.blobKey "team") := by decide +kernel
  have free : ¬ Hampers (Histories.blobKey "team") (Histories.blobKey "team/x") := by
    decide +kernel
  exact (rooms_are_isolated_iff "blobs" (openAt_blobs {} 0) isFresh_blobs firstHoused secondHoused
    (by decide)).mpr free _ (by simp [greeting, Call.ledger])

/-- A room that is named like a directory in which another needs its blob. Both are
rooms, and an entry for the second makes an entry for the first fail. -/
theorem room_loses_its_history :
    (FileStore.openAt (Path.ofText "blobs") {}).run 0 Tree.empty =
        (.ok emptyBlobs.files, emptyBlobs.tree) ∧
      IsFresh emptyBlobs.tree emptyBlobs.files.root ∧
      Housed emptyBlobs.files.root (Histories.blobKey "x") ∧
      Housed emptyBlobs.files.root (Histories.blobKey "x.jsonl/y") ∧
      (∃ collection, Histories.room "x" = .ok collection) ∧
      (∃ collection, Histories.room "x.jsonl/y" = .ok collection) ∧
      resultsOn (.history "x") [greeting "x.jsonl/y", greeting "x"] emptyBlobs ≠
        (Plan.runAll [(greeting "x").operation] emptyBlobs).1 := by
  have firstHoused : Housed emptyBlobs.files.root (Histories.blobKey "x") := by decide +kernel
  have secondHoused : Housed emptyBlobs.files.root (Histories.blobKey "x.jsonl/y") := by
    decide +kernel
  have hampers : Hampers (Histories.blobKey "x.jsonl/y") (Histories.blobKey "x") := by
    decide +kernel
  obtain ⟨place, found⟩ := find_of_openAt (openAt_blobs {} 0)
  exact ⟨openAt_blobs {} 0, isFresh_blobs, firstHoused, secondHoused,
    room_of_isKey (isKey_iff.mpr firstHoused.valid),
    room_of_isKey (isKey_iff.mpr secondHoused.valid),
    resultsOn_of_hampers found (Path.ofText_ne "blobs") isFresh_blobs firstHoused secondHoused
      (by decide) hampers⟩

end Services

end RoomLedger
