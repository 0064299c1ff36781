import RoomLedger.Proofs.Service.Ledgers
import RoomLedger.Proofs.Store.KeyForm

/-!
Contract: which texts are rooms, and under which keys their histories are kept.

Owns:
- `components_blobKey`, the names in the key of a history;
- `room_ok_iff`, by which the rooms are the paths of names;
- `Histories.Uses`, the operations on a room as those on its collection;
- `rooms_are_name_paths`, what becomes of the operations on a room, and of its key.

A room is not looked at itself. It stands in its key between a directory and an ending,
so a slash at its end shows as a hidden name, one at its front as two in a row, and an
ending that is kept from keys does not end the key.

Does not own: two rooms in one directory of files.
-/

namespace RoomLedger

open RoomLedger.Disk
open RoomLedger.Store

namespace Histories

/-! ## The key of a room -/

/-- The ending of the blob of a history. -/
def historyEnding : String := ".jsonl"

private theorem toList_blobKey (room : String) :
    (blobKey room).toList = "history".toList ++ '/' :: (room.toList ++ historyEnding.toList) := by
  simp [blobKey, historyEnding, toString]

/-- The names of a history are those of the room with an ending, in one directory. -/
theorem components_blobKey (room : String) :
    components (blobKey room) = "history" :: Path.withEnding (components room) historyEnding := by
  obtain ⟨last, shape⟩ := components_eq_concat room
  generalize Path.parent (components room) = front at shape
  have pieces : Text.pieces '/' room.toList = front.map String.toList ++ [last.toList] := by
    rw [← map_toList_components, shape]
    simp
  have noSlash : '/' ∉ historyEnding.toList := by decide
  have directory : Text.pieces '/' "history".toList = ["history".toList] := by decide +kernel
  rw [components, toList_blobKey, Text.pieces_append_separator, directory,
    Text.pieces_append_of_not_mem pieces noSlash, shape, withEnding_concat]
  simp [Function.comp_def]

private theorem isPlain_withEnding_iff {name : String} :
    Path.IsPlain (name ++ historyEnding) ↔ Path.IsPlain name := by
  constructor
  · rintro ⟨first, rest, spelled, shown⟩
    cases characters : name.toList with
    | nil =>
        rw [String.toList_append, characters] at spelled
        exact absurd (List.cons.inj spelled).1.symm shown
    | cons other others =>
        rw [String.toList_append, characters] at spelled
        exact ⟨other, others, characters, (List.cons.inj spelled).1 ▸ shown⟩
  · exact fun plain => plain.append historyEnding

/-- The key of a room ends in no ending that is kept from keys. -/
theorem not_suffix_blobKey {room ending : String} (reserved : ending ∈ reservedEndings) :
    ¬ ending.toList <:+ (blobKey room).toList := by
  rintro ⟨front, spelled⟩
  have letters := congrArg List.getLast? spelled
  have own : historyEnding.toList.getLast? = some 'l' := by decide
  have lockLetter : lockEnding.toList.getLast? = some 'k' := by decide
  have draftLetter : draftEnding.toList.getLast? = some 'p' := by decide
  rw [toList_blobKey] at letters
  simp only [reservedEndings, List.mem_cons, List.not_mem_nil, or_false] at reserved
  rcases reserved with rfl | rfl
  · simp [List.getLast?_append, List.getLast?_cons, own, lockLetter] at letters
  · simp [List.getLast?_append, List.getLast?_cons, own, draftLetter] at letters

/-- What every character of a room's key satisfies, the room's characters satisfy, and
the other way round if those around the room do. -/
theorem forall_mem_blobKey_iff {isFit : Char → Prop} [DecidablePred isFit]
    (around : "history/.jsonl".toList.all (fun character => decide (isFit character)) = true)
    (room : String) :
    (∀ character ∈ (blobKey room).toList, isFit character) ↔
      ∀ character ∈ room.toList, isFit character := by
  have shape : "history/.jsonl".toList = "history".toList ++ '/' :: historyEnding.toList := by
    decide
  simp only [shape, List.all_eq_true, decide_eq_true_eq, List.mem_append, List.mem_cons] at around
  simp only [toList_blobKey, List.mem_append, List.mem_cons]
  constructor
  · intro fit character member
    exact fit character (.inr (.inr (.inl member)))
  · rintro fit character (front | slash | member | ending)
    · exact around character (.inl front)
    · exact around character (.inr (.inl slash))
    · exact fit character member
    · exact around character (.inr (.inr ending))

private theorem isNamePath_blobKey_iff {room : String} :
    IsNamePath (blobKey room) ↔ IsNamePath room := by
  have spaces : (∀ character ∈ (blobKey room).toList, Text.isBlank character = false) ↔
      ∀ character ∈ room.toList, Text.isBlank character = false :=
    forall_mem_blobKey_iff (by decide) room
  have letters : (∀ character ∈ (blobKey room).toList, character ∉ ['\\', ':', '*', '?']) ↔
      ∀ character ∈ room.toList, character ∉ ['\\', ':', '*', '?'] :=
    forall_mem_blobKey_iff (by decide) room
  have names : (∀ name ∈ components (blobKey room), Path.IsPlain name) ↔
      ∀ name ∈ components room, Path.IsPlain name := by
    obtain ⟨last, shape⟩ := components_eq_concat room
    have directory : Path.IsPlain "history" := ⟨'h', "istory".toList, by decide, by decide⟩
    rw [components_blobKey, shape, withEnding_concat]
    simp only [List.forall_mem_cons, List.forall_mem_append, List.not_mem_nil, false_implies,
      implies_true, and_true, isPlain_withEnding_iff, directory, true_and]
  constructor
  · intro path
    exact ⟨names.mp path.plain, spaces.mp path.unspaced, letters.mp path.allowed⟩
  · intro path
    exact ⟨names.mpr path.plain, spaces.mpr path.unspaced, letters.mpr path.allowed⟩

theorem isKey_blobKey_iff {room : String} : isKey (blobKey room) = true ↔ IsNamePath room := by
  rw [isKey_iff, checkKey_iff, isNamePath_blobKey_iff]
  exact and_iff_left fun _ reserved => not_suffix_blobKey reserved

/-! ## The check of a room -/

/-- The rooms are the paths of names. -/
theorem room_ok_iff {name : String} :
    (∃ collection, room name = .ok collection) ↔ IsNamePath name := by
  rw [← isKey_blobKey_iff]
  constructor
  · rintro ⟨collection, found⟩
    rw [← Action.blobKey_of_room found]
    exact collection.isKey
  · intro isKey
    have path := isKey_blobKey_iff.mp isKey
    rw [room, path.blank_eq_false]
    cases found : Collection.ofKey (R := HistoryEntry) (blobKey name) with
    | ok collection => exact ⟨collection, rfl⟩
    | error failure =>
        unfold Collection.ofKey at found
        split at found
        · rename_i refused
          rw [isKey_iff.mp isKey] at refused
          cases refused
        · cases found

private theorem exists_objection {name : String} (noRoom : ¬ IsNamePath name) :
    ∃ objection, room name = .error (.invalid name objection) := by
  cases found : room name with
  | ok collection => exact absurd (room_ok_iff.mp ⟨collection, found⟩) noRoom
  | error failure =>
      obtain ⟨objection, rfl⟩ := invalid_of_room found
      exact ⟨objection, rfl⟩

/-- The seven operations on a room are those on that collection. -/
structure Uses (name : String) (collection : Collection HistoryEntry) : Prop where
  append : ∀ now freshId author role content,
    append now freshId name author role content =
      collection.create
        { id := freshId, chatRoomId := name, authorId := author, role, content, createdAt := now }
  get : ∀ id, get name id = collection.get id
  edit : ∀ id content, edit name id content = collection.update id content
  remove : ∀ id, remove name id = collection.remove id
  list : ∀ query, list name query = collection.list query
  recent : ∀ count, recent name count = (collection.list Query.all).mapResult (lastOf count)
  clear : clear name = collection.removeWhere fun _ => true

private theorem uses_of_room {name : String} {collection : Collection HistoryEntry}
    (found : room name = .ok collection) :
    Uses name collection where
  append _ _ _ _ _ := by rw [append, found, Operation.after]
  get _ := by rw [get, found, Operation.after]
  edit _ _ := by rw [edit, found, Operation.after]
  remove _ := by rw [remove, found, Operation.after]
  list _ := by rw [list, found, Operation.after]
  recent _ := by rw [recent, list, found, Operation.after]
  clear := by rw [clear, found, Operation.after]

end Histories

namespace Services

/-- A call on the history of what is no room fails as the check of the room does, and
makes no call of the store. -/
theorem Call.operation_of_no_room {name : String} {failure : Failure}
    (refused : Histories.room name = .error failure) {call : Call}
    (about : call.ledger = .history name) :
    call.operation = .done (.error failure) := by
  cases call with
  | appendEntry | getEntry | editEntry | removeEntry | listEntries | recentEntries | clearHistory =>
      obtain rfl := Ledger.history.inj about
      simp only [operation, Histories.append, Histories.get, Histories.edit, Histories.remove,
        Histories.list, Histories.recent, Histories.clear, refused]
      rfl
  | _ => cases about

/-- The rooms are the names between slashes that are not empty and not hidden, without
white space and without four characters, whatever their ending. The operations on a room
are those on a collection under the room's key, and those on any other text fail without
a call of the store, with an objection to the text as it was given. All keys of rooms lie
in one directory, and no other room or service has the key of a room. -/
theorem rooms_are_name_paths (room : String) :
    ((∃ collection, Histories.room room = .ok collection) ↔ IsNamePath room) ∧
    (∀ collection, Histories.room room = .ok collection →
      collection.blobKey = Histories.blobKey room ∧ Histories.Uses room collection) ∧
    (¬ IsNamePath room →
      ∃ objection, Histories.room room = .error (.invalid room objection) ∧
        ∀ call : Call, call.ledger = .history room →
          call.operation = .done (.error (.invalid room objection))) ∧
    "history/".toList <+: (Histories.blobKey room).toList ∧
    ∀ ledger : Ledger, ledger ≠ .history room → ledger.blobKey ≠ Histories.blobKey room := by
  refine ⟨Histories.room_ok_iff, ?accepted, ?refused, ?directory, ?apart⟩
  case accepted =>
    intro collection found
    exact ⟨Histories.Action.blobKey_of_room found, Histories.uses_of_room found⟩
  case refused =>
    intro noRoom
    obtain ⟨objection, refused⟩ := Histories.exists_objection noRoom
    exact ⟨objection, refused, fun _ about => Call.operation_of_no_room refused about⟩
  case directory =>
    have spelled : (Histories.blobKey room).toList =
        "history/".toList ++ room.toList ++ ".jsonl".toList := Ledger.toList_blobKey_history room
    rw [spelled, List.append_assoc]
    exact List.prefix_append _ _
  case apart =>
    intro ledger other same
    exact other (Ledger.blobKey_injective same)

/-- A room with an ending that keys must not have, and a text that ends with a slash. -/
theorem rooms_are_name_paths_of_locked_name :
    (∃ collection, Histories.room "team/x.lock" = .ok collection) ∧
      ¬ IsNamePath "team/" ∧
      ∃ objection, (Call.clearHistory "team/").operation =
        .done (.error (.invalid "team/" objection)) := by
  have accepted : IsNamePath "team/x.lock" := Histories.isKey_blobKey_iff.mp (by decide +kernel)
  have noRoom : ¬ IsNamePath "team/" := by
    rw [← Histories.isKey_blobKey_iff]
    decide +kernel
  refine ⟨(rooms_are_name_paths "team/x.lock").1.mpr accepted, noRoom, ?_⟩
  obtain ⟨objection, -, fails⟩ := (rooms_are_name_paths "team/").2.2.1 noRoom
  exact ⟨objection, fails (.clearHistory "team/") rfl⟩

end Services

end RoomLedger
