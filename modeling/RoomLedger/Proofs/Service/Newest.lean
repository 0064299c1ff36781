import RoomLedger.Proofs.Collection.Loading
import RoomLedger.Proofs.Collection.RoundTrip
import RoomLedger.Proofs.Collection.Selection
import RoomLedger.Proofs.Service.Balance

/-!
Contract: the newest entries of a history.

Owns:
- `Query.sort_descending`, by which the descending order of records with distinct keys is
  the ascending one from its end;
- `Query.apply_newest`, by which a cap on what came up to a moment leaves the newest records;
- `Histories.newest_entries_agree`, by which both ways to ask for the newest entries give the
  same ones.

Where entries are of one time their ids decide, in both directions, so the two lists are cut
in the same place.

Does not own: entries that share an id.
-/

namespace RoomLedger

/-! ## Both directions -/

namespace Query

variable {R : Type} [Record R] {records : List R} {finish : Time.Timestamp}

/-- The descending order is the ascending one from its end. -/
theorem sort_descending {ascends descends : Query} (up : ascends.direction = .ascending)
    (down : descends.direction = .descending) (distinct : (records.map Record.key).Nodup) :
    descends.sort records = (ascends.sort records).reverse := by
  have same : records.Perm (ascends.sort records).reverse :=
    (ascends.sort_perm records).symm.trans (List.reverse_perm _).symm
  have mirrored := ascends.pairwise_sort records
  rw [up] at mirrored
  apply descends.sort_eq_of_pairwise same distinct
  rw [down]
  exact List.pairwise_reverse.mpr mirrored

/-- A cap on what came up to a moment leaves the end of the whole list, last record first,
if all records came up to then. -/
theorem apply_newest (distinct : (records.map Record.key).Nodup)
    (came : ∀ record ∈ records, Record.timestamp record ≤ finish) (count : Nat) :
    ((Query.all.upTo finish).capped count).apply records =
      ((Query.all.apply records).drop ((Query.all.apply records).length - count)).reverse := by
  let query := (Query.all.upTo finish).capped count
  have mirrored : query.sort records = (Query.all.sort records).reverse :=
    sort_descending rfl rfl distinct
  have whole : records.filter query.selects = records := by
    refine List.filter_eq_self.mpr fun record member => (query.selects_iff record).mpr ?_
    refine ⟨by simp [query, upTo, capped, all], by simp [query, upTo, capped, all], ?_⟩
    intro bound isBound
    cases isBound
    exact came record member
  calc
    query.apply records
    _ = (query.sort records).take count := by
      rw [apply, whole]
      rfl
    _ = (Query.all.sort records).reverse.take count := by
      rw [mirrored]
    _ = ((Query.all.sort records).drop ((Query.all.sort records).length - count)).reverse :=
      List.take_reverse
    _ = _ := by rw [apply_all]

end Query

/-! ## Entries -/

namespace Histories

open RoomLedger.Store (BlobStore MemoryStore Version)

section Room

variable {S : Type} [BlobStore S] {name : String} {collection : Collection HistoryEntry} {store : S}
  {version : Version} {entries : List HistoryEntry}

private theorem run_list (found : room name = .ok collection)
    (finds : BlobStore.read store (blobKey name) = .ok version)
    (holds : Collection.decode version.contentOrEmpty = .ok entries) (query : Query) :
    (list name query).run store = (.ok (query.apply entries), store) := by
  rw [← Action.blobKey_of_room found] at finds
  rw [list, found]
  exact Collection.run_list finds holds query

private theorem run_recent (found : room name = .ok collection)
    (finds : BlobStore.read store (blobKey name) = .ok version)
    (holds : Collection.decode version.contentOrEmpty = .ok entries) (count : Nat) :
    (recent name count).run store = (.ok (lastOf count (Query.all.apply entries)), store) := by
  rw [recent, run_mapResult, run_list found finds holds]
  rfl

/-- In a history of entries with distinct ids, none of which is after some moment, the
newest entries are the end of the whole list, so many of them as are asked for or as there
are. The list up to that moment with a cap holds the same entries, the newest one first. -/
theorem newest_entries_agree (found : room name = .ok collection)
    (finds : BlobStore.read store (blobKey name) = .ok version)
    (holds : Collection.decode version.contentOrEmpty = .ok entries)
    (distinct : (entries.map HistoryEntry.id).Nodup) (count : Nat) (finish : Time.Timestamp)
    (came : ∀ entry ∈ entries, entry.createdAt ≤ finish) :
    ∃ listed older newest : List HistoryEntry,
      (list name Query.all).run store = (.ok listed, store) ∧
      listed.Perm entries ∧
      listed = older ++ newest ∧
      newest.length = min count listed.length ∧
      (recent name count).run store = (.ok newest, store) ∧
      (list name ((Query.all.upTo finish).capped count)).run store =
        (.ok newest.reverse, store) := by
  let listed := Query.all.apply entries
  have same : listed.Perm entries := by
    rw [show listed = Query.all.sort entries from Query.apply_all entries]
    exact Query.all.sort_perm entries
  let older := listed.take (listed.length - count)
  refine ⟨listed, older, lastOf count listed, ?_, same, ?_, ?_, ?_, ?_⟩
  · exact run_list found finds holds Query.all
  · exact (List.take_append_drop _ listed).symm
  · rw [lastOf, List.length_drop]
    omega
  · exact run_recent found finds holds count
  · rw [run_list found finds holds, Query.apply_newest distinct came]
    rfl

end Room

/-- An hour for which no clock has come yet. -/
def hourAhead : Time.Timestamp where
  date := ⟨9999, 12, 31, by decide⟩
  time := ⟨23, 0, 0, 0, by decide⟩
  offset := .utc
  nameable := by decide

/-- Two entries of one moment, and one that is ahead of them. -/
def simultaneousEntries : List HistoryEntry :=
  let entry : HistoryEntry :=
    ⟨"m-1", "C1", "u-1", .user, "hi", Collection.sampleProfile.createdAt⟩
  [{ entry with id := "m-3", createdAt := hourAhead }, { entry with id := "m-2" }, entry]

/-- The cut is between two entries of one moment. -/
theorem newest_entries_agree_at_cut :
    let store := MemoryStore.empty.after (blobKey "C1")
      ⟨Collection.encode simultaneousEntries, Collection.contentType, .ofNat 1⟩
    ∃ newest : List HistoryEntry,
      (recent "C1" 2).run store = (.ok newest, store) ∧
      newest.map HistoryEntry.id = ["m-2", "m-3"] ∧
      (list "C1" ((Query.all.upTo hourAhead).capped 2)).run store =
        (.ok newest.reverse, store) := by
  intro store
  have found : room "C1" = .ok ⟨blobKey "C1", by decide +kernel⟩ := by
    rfl
  have finds : BlobStore.read store (blobKey "C1") = .ok (store.version (blobKey "C1")) :=
    MemoryStore.read_of_isKey (by decide +kernel) store
  have holds : Collection.decode (store.version (blobKey "C1")).contentOrEmpty =
      .ok simultaneousEntries := by
    rw [MemoryStore.version_after_self]
    exact Collection.decode_encode simultaneousEntries
  obtain ⟨-, -, newest, -, -, -, -, recents, upTo⟩ :=
    newest_entries_agree found finds holds (by decide +kernel) 2 hourAhead (by decide +kernel)
  have isLast : newest = lastOf 2 (Query.all.apply simultaneousEntries) := by
    have same := recents.symm.trans (run_recent found finds holds 2)
    exact Except.ok.inj (Prod.mk.inj same).1
  have sorted : Query.all.sort simultaneousEntries = simultaneousEntries.reverse :=
    Query.all.sort_eq_of_pairwise (List.reverse_perm _).symm (by decide +kernel)
      (by decide +kernel)
  refine ⟨newest, recents, ?_, upTo⟩
  rw [isLast, Query.apply_all, sorted]
  rfl

end Histories

end RoomLedger
