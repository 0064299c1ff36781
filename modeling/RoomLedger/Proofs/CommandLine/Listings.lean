import RoomLedger.CommandLine.Execution
import RoomLedger.Proofs.Collection.Arrangement
import RoomLedger.Proofs.Collection.Loading
import RoomLedger.Proofs.Collection.RoundTrip

/-!
Contract: listings that are filtered after they were listed.

Owns:
- `matchingMedia`, the uploads that two optional filters ask for, by time;
- `mediaByUploader`, the listing of uploads by a query for the uploader, whose result is
  filtered by room;
- `listings_hold_matching_records`, by which it is the same to filter a list or to list what
  is left of the records, and what follows for the members of a room, the rooms of a user
  and the uploads that the command line lists.

No query that is filtered afterwards has a cap, so no record is lost before the filter.

Does not own: the order of a list.
-/

namespace RoomLedger

open RoomLedger.Store (BlobStore)

/-- The records that are kept from a list without a cap are the list of those that are kept. -/
theorem Collection.filtered_list_eq_answering {R : Type} [Record R] (collection : Collection R)
    {query : Query} (uncapped : query.effectiveLimit = none) (keeps : R → Bool) :
    ((collection.list query).mapResult fun listed => listed.filter keeps) =
      collection.answering fun stored => query.apply (stored.filter keeps) := by
  rw [list_eq_answering, mapResult_answering]
  congr
  funext stored
  exact Query.filter_apply uncapped stored keeps

/-! ## Members and rooms -/

namespace Groups

private theorem members_eq_answering (room : String) :
    members room = collection.answering fun stored =>
      Query.all.apply (stored.filter fun member => member.chatRoomId = room) :=
  collection.filtered_list_eq_answering rfl fun member => member.chatRoomId == room

private theorem roomsOf_eq_answering (user : String) :
    roomsOf user = collection.answering fun stored =>
      (Query.all.apply (stored.filter fun member => member.userId = user)).map
        GroupMember.chatRoomId := by
  rw [roomsOf, Collection.list_eq_answering, Collection.mapResult_answering]
  congr
  funext stored
  have owned : ∀ member ∈ stored,
      decide (∀ name ∈ some user, Record.owner member = name) = decide (member.userId = user) := by
    intro member _
    apply decide_eq_decide.mpr
    simp only [Option.mem_some_iff, forall_eq']
    rfl
  exact congrArg _ ((Query.apply_of_owner (some user) stored).trans
    (congrArg _ (List.filter_congr owned)))

end Groups

/-! ## Uploads -/

namespace CommandLine

/-- The uploads of a room and of an uploader, where these are given, by time. -/
def matchingMedia (room uploader : Option String) (stored : List MediaItem) : List MediaItem :=
  Query.all.apply (stored.filter fun item =>
    (∀ name ∈ room, item.chatRoomId = name) ∧ ∀ name ∈ uploader, item.uploaderId = name)

/-- The uploads that a query for the uploader lists, and of these the ones of the room. -/
def mediaByUploader (room uploader : Option String) : Operation (List MediaItem) :=
  (Media.list { creatorId := uploader }).mapResult fun items =>
    match room with
    | none => items
    | some room => items.filter fun item => item.chatRoomId == room

private theorem inRoom_eq_answering (room : String) :
    Media.inRoom room = Media.collection.answering fun stored =>
      Query.all.apply (stored.filter fun item => item.chatRoomId = room) :=
  Media.collection.filtered_list_eq_answering rfl fun item => item.chatRoomId == room

private theorem mediaByUploader_eq_answering (room uploader : Option String) :
    mediaByUploader room uploader = Media.collection.answering (matchingMedia room uploader) := by
  cases room with
  | none =>
      have same : ∀ item : MediaItem,
          decide (∀ name ∈ uploader, Record.owner item = name) =
            decide ((∀ name ∈ none, item.chatRoomId = name) ∧
              ∀ name ∈ uploader, item.uploaderId = name) := by
        intro item
        exact decide_eq_decide.mpr (and_iff_right (by simp)).symm
      rw [mediaByUploader, Media.list, Collection.list_eq_answering,
        Collection.mapResult_answering]
      congr
      funext stored
      rw [Query.apply_of_owner, List.filter_congr fun item _ => same item, matchingMedia]
  | some room =>
      have same : ∀ item : MediaItem,
          (decide (∀ name ∈ uploader, Record.owner item = name) && item.chatRoomId == room) =
            decide ((∀ name ∈ some room, item.chatRoomId = name) ∧
              ∀ name ∈ uploader, item.uploaderId = name) := by
        intro item
        simp only [Option.mem_some_iff, forall_eq', Bool.decide_and, Bool.and_comm]
        rfl
      rw [mediaByUploader, Media.list, Collection.filtered_list_eq_answering _ rfl]
      congr
      funext stored
      rw [Query.apply_of_owner, List.filter_filter, List.filter_congr fun item _ => same item,
        matchingMedia]

/-- The listing of a room alone is the one by a query for any uploader. -/
theorem mediaOf_eq_mediaByUploader (room uploader : Option String) :
    mediaOf room uploader = mediaByUploader room uploader := by
  cases room with
  | none => rfl
  | some room =>
      cases uploader with
      | none => rfl
      | some uploader => rfl

end CommandLine

open CommandLine in
/-- To filter a list without a cap is to list the records that pass the filter, in the same
order, for records of any kind, also where keys are repeated. So in every store that can be
read the members of a room, the rooms of a user and the uploads of a room are those of
exactly the records that match, by time and key; where the store cannot be read, all of them
fail alike. And the uploads that the command line lists are those that match, in the same
order, whether it asks for a room alone or goes by a query for the uploader. -/
theorem listings_hold_matching_records :
    (∀ (R : Type) [Record R] (query : Query) (records : List R) (keeps : R → Bool),
      query.effectiveLimit = none →
      (query.apply records).filter keeps = query.apply (records.filter keeps)) ∧
    (∀ (R : Type) [Record R] (records listed : List R),
      IsArranged Precedes records listed ↔ listed = Query.all.apply records) ∧
    (∀ room,
      Groups.members room = Groups.collection.answering fun stored =>
        Query.all.apply (stored.filter fun member => member.chatRoomId = room)) ∧
    (∀ user,
      Groups.roomsOf user = Groups.collection.answering fun stored =>
        (Query.all.apply (stored.filter fun member => member.userId = user)).map
          GroupMember.chatRoomId) ∧
    (∀ room,
      Media.inRoom room = Media.collection.answering fun stored =>
        Query.all.apply (stored.filter fun item => item.chatRoomId = room)) ∧
    (∀ room uploader,
      mediaOf room uploader = Media.collection.answering (matchingMedia room uploader) ∧
      mediaByUploader room uploader = Media.collection.answering (matchingMedia room uploader) ∧
      ∀ around, (Command.listMedia room uploader).plan around =
        shown (Media.collection.answering (matchingMedia room uploader)) fun items =>
          items.map (mediaLine around.colours)) ∧
    ∀ (R α S : Type) [Record R] [BlobStore S] (collection : Collection R) (make : List R → α)
      (store : S),
      (collection.answering make).run store = ((collection.held store).map make, store) := by
  refine ⟨?filtered, ?arranged, Groups.members_eq_answering, Groups.roomsOf_eq_answering,
    inRoom_eq_answering, ?listed, ?run⟩
  case filtered =>
    intro R _ query records keeps uncapped
    exact Query.filter_apply uncapped records keeps
  case arranged =>
    intro R _ records listed
    exact Query.isArranged_iff_eq_apply_all
  case listed =>
    intro room uploader
    have listed := mediaByUploader_eq_answering room uploader
    have branches := mediaOf_eq_mediaByUploader room uploader
    refine ⟨branches.trans listed, listed, ?_⟩
    intro around
    rw [← listed, ← branches]
    rfl
  case run =>
    intro R α S _ _ collection make store
    exact collection.run_answering make store

/-- The sample profile with another name, and one of another user, made at the same time. -/
def sameMomentProfiles : List UserProfile :=
  [{ Collection.sampleProfile with displayName := "Ada L." },
    { Collection.sampleProfile with userId := "u-2" }, Collection.sampleProfile]

/-- In a list that begins with the last record, two records of one key and time stay in the
order in which they are stored. -/
theorem listings_hold_matching_records_of_repeated_key :
    let query := Query.all.upTo Collection.sampleProfile.createdAt
    let ofAda := fun profile : UserProfile => profile.userId == "u-1"
    query.effectiveLimit = none ∧
    query.direction = .descending ∧
    ((query.apply sameMomentProfiles).filter ofAda).map UserProfile.displayName =
      ["Ada L.", "Ada"] := by
  intro query ofAda
  have filtered : (query.apply sameMomentProfiles).filter ofAda =
      query.apply (sameMomentProfiles.filter ofAda) :=
    listings_hold_matching_records.1 UserProfile query sameMomentProfiles ofAda rfl
  have sorted : query.sort (sameMomentProfiles.filter ofAda) = sameMomentProfiles.filter ofAda :=
    List.mergeSort_of_pairwise (by decide +kernel)
  have selected : (sameMomentProfiles.filter ofAda).filter query.selects =
      sameMomentProfiles.filter ofAda := by
    decide +kernel
  refine ⟨rfl, rfl, ?_⟩
  rw [filtered, Query.apply_of_uncapped rfl, selected, sorted]
  decide +kernel

end RoomLedger
