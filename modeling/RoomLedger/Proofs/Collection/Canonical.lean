import RoomLedger.Proofs.Collection.Changes
import RoomLedger.Proofs.Collection.Concurrency
import RoomLedger.Proofs.Collection.RoundTrip
import RoomLedger.Service.Profiles

/-!
Contract: the form of a blob that only requests to a collection have written.

Owns:
- `IsCanonical`, a blob that does not exist, or records with distinct keys as they
  are written;
- `isCanonical_run`, by which every request keeps the form, and `isCanonical_follow`, by which
  requests whose calls mix do;
- `isCanonical_of_interleaving`, the same for every schedule of requests.

A duplicate is looked for in a snapshot that may be stale, but what is decided by
a stale snapshot is never written. So it is enough that requests keep the form
when each has the store for itself.

Does not own: blobs that someone else has written.
-/

namespace RoomLedger.Collection.Request

open RoomLedger.Store

variable {R : Type} [Record R]

/-- A version that a collection leaves behind which began without a blob. -/
inductive IsCanonical (R : Type) [Record R] : Version → Prop
  | absent : IsCanonical R .absent
  | written (records : List R) (generation : Generation) (keyed : IsKeyed records) :
      IsCanonical R {
        content := some (encode records)
        contentType := some contentType
        generation }

private theorem IsCanonical.decode {version : Version} (canonical : IsCanonical R version) :
    ∃ records : List R,
      IsKeyed records ∧
      Collection.decode version.contentOrEmpty = .ok records := by
  cases canonical with
  | absent => exact ⟨[], IsKeyed.nil, decode_nil⟩
  | written records generation keyed => exact ⟨records, keyed, decode_encode records⟩

/-! ## One request -/

/-- A request that has the store for itself keeps the form. -/
theorem isCanonical_run {collection : Collection R} {store : MemoryStore}
    (canonical : IsCanonical R (store.version collection.blobKey)) (request : Request R) :
    IsCanonical R (((request.plan collection).run store).2.version collection.blobKey) := by
  obtain ⟨records, keyed, holds⟩ := canonical.decode
  rcases run_plan_cases holds request with
    same | ⟨changed, reply, following, passed, changes, run⟩
  · rw [same]
    exact canonical
  · rw [run, MemoryStore.version_after_self]
    exact IsCanonical.written changed following (changes.isKeyed keyed passed)

/-- So do requests one after another. -/
theorem isCanonical_serve {collection : Collection R} {store : MemoryStore}
    (canonical : IsCanonical R (store.version collection.blobKey)) (requests : List (Request R)) :
    IsCanonical R ((serve collection requests store).2.version collection.blobKey) := by
  induction requests generalizing store with
  | nil => exact canonical
  | cons request later inductionHypothesis =>
      exact inductionHypothesis (isCanonical_run canonical request)

/-! ## Every schedule -/

/-- So do requests whose calls mix. -/
theorem isCanonical_follow {collection : Collection R} {store : MemoryStore}
    (canonical : IsCanonical R (store.version collection.blobKey)) (requests : List (Request R))
    (schedule : List Nat) :
    IsCanonical R
      (((crowd collection requests store).follow schedule).store.version collection.blobKey) := by
  obtain ⟨served, replies, -, run, -⟩ := exists_served collection requests store schedule
  have serial := isCanonical_serve canonical served
  rw [run] at serial
  exact serial

/-- Where no blob was, there is after any schedule of requests none, or one whose
bytes are the encoding of records with distinct keys that hold more than white
space, under the content type of collections. So it can be loaded, and no key is
held by two records. -/
theorem isCanonical_of_interleaving (collection : Collection R) (requests : List (Request R))
    (store : MemoryStore) (schedule : List Nat)
    (absent : store.version collection.blobKey = .absent) :
    let final := ((crowd collection requests store).follow schedule).store
    (final.version collection.blobKey = .absent ∨
      ∃ (records : List R) (generation : Generation),
        final.version collection.blobKey = {
          content := some (encode records)
          contentType := some "application/x-ndjson"
          generation } ∧
        (records.map Record.key).Nodup ∧
        ∀ key ∈ records.map Record.key, Text.blank key = false) ∧
    ∃ found : Snapshot R,
      collection.snapshot (BlobStore.read final collection.blobKey) = .ok found ∧
      (found.records.map Record.key).Nodup := by
  intro final
  have start : IsCanonical R (store.version collection.blobKey) := by
    rw [absent]
    exact IsCanonical.absent
  have canonical : IsCanonical R (final.version collection.blobKey) :=
    isCanonical_follow start requests schedule
  constructor
  · generalize final.version collection.blobKey = version at canonical
    cases canonical with
    | absent => exact Or.inl rfl
    | written records generation keyed =>
        exact Or.inr ⟨records, generation, rfl, keyed.distinct, keyed.named⟩
  · obtain ⟨records, keyed, holds⟩ := canonical.decode
    refine ⟨⟨records, (final.version collection.blobKey).generation⟩, ?_, keyed.distinct⟩
    rw [MemoryStore.read_of_isKey collection.isKey, snapshot, holds]

theorem isCanonical_of_racing_creates :
    let final := ((crowd Profiles.collection [.create sampleProfile, .create sampleProfile]
      .empty).follow [0, 1, 0, 1]).store
    (final.version Profiles.collection.blobKey).isAbsent = false ∧
    ∃ found : Snapshot UserProfile,
      Profiles.collection.snapshot (BlobStore.read final Profiles.collection.blobKey) = .ok found ∧
      (found.records.map Record.key).Nodup := by
  intro final
  constructor
  · decide +kernel
  · exact (isCanonical_of_interleaving Profiles.collection
      [.create sampleProfile, .create sampleProfile] .empty [0, 1, 0, 1] rfl).2

end RoomLedger.Collection.Request
