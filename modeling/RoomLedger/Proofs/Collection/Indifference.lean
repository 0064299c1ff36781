import Mathlib.Data.List.Forall2
import RoomLedger.Proofs.Collection.RoundTrip
import RoomLedger.Proofs.Collection.Selection

/-!
Contract: what the list of a query does not depend on.

Owns:
- `Record.IsRedated`, for a record whose time is written in another way, and `Query.IsRedated`, the
  same for the bounds of a query;
- `Query.IsRedated.exists_apply_map`, by which records and redated ones are listed side by
  side;
- `lists_ignore_storage_and_offsets`, by which neither the order in which records are stored
  nor the offset in which a time is written shows in a list.

Everything that a query looks at is the same for a redated record, so both lists come from
one list of pairs.

Does not own: what a query lists.
-/

namespace RoomLedger

open RoomLedger.Time (Timestamp)

variable {R : Type} [Record R]

/-! ## Times that are written in another way -/

/-- The other record has the same key and owner, and a time of the same moment. -/
structure Record.IsRedated (record other : R) : Prop where
  key : Record.key other = Record.key record
  owner : Record.owner other = Record.owner record
  moment : (Record.timestamp other).moment = (Record.timestamp record).moment

/-- The other query differs at most in how its bounds are written. -/
structure Query.IsRedated (query other : Query) : Prop where
  creatorId : other.creatorId = query.creatorId
  start : other.start.map Timestamp.moment = query.start.map Timestamp.moment
  finish : other.finish.map Timestamp.moment = query.finish.map Timestamp.moment
  limit : other.limit = query.limit

private theorem Record.IsRedated.before_eq {left right otherLeft otherRight : R}
    (redatedLeft : Record.IsRedated left otherLeft)
    (redatedRight : Record.IsRedated right otherRight) (direction : Direction) :
    direction.before otherLeft otherRight = direction.before left right := by
  have forth : inOrder otherLeft otherRight = inOrder left right := by
    simp only [inOrder, redatedLeft.key, redatedRight.key, redatedLeft.moment, redatedRight.moment]
  have back : inOrder otherRight otherLeft = inOrder right left := by
    simp only [inOrder, redatedLeft.key, redatedRight.key, redatedLeft.moment, redatedRight.moment]
  cases direction with
  | ascending => exact forth
  | descending => exact back

namespace Query

omit [Record R] in
/-- A cap counts records and looks at none. -/
theorem map_cap {α : Type} (query : Query) (change : α → R) (items : List α) :
    (query.cap items).map change = query.cap (items.map change) := by
  unfold cap
  cases query.effectiveLimit with
  | none => rfl
  | some limit => exact List.map_take

/-- A bound holds of a moment exactly if the other spelling of it does. -/
theorem forall_bound_iff {bound other : Option Timestamp}
    (same : other.map Timestamp.moment = bound.map Timestamp.moment) (holds : Int → Prop) :
    (∀ time ∈ other, holds time.moment) ↔ ∀ time ∈ bound, holds time.moment := by
  have spelled : ∀ given : Option Timestamp,
      (∀ time ∈ given, holds time.moment) ↔
        ∀ moment ∈ given.map Timestamp.moment, holds moment := by
    intro given
    simp
  rw [spelled, same, ← spelled]

namespace IsRedated

variable {query other : Query}

private theorem direction_eq (redated : query.IsRedated other) :
    other.direction = query.direction := by
  have start : other.start.isSome = query.start.isSome := by
    simpa only [Option.isSome_map] using congrArg Option.isSome redated.start
  have finish : other.finish.isSome = query.finish.isSome := by
    simpa only [Option.isSome_map] using congrArg Option.isSome redated.finish
  rw [Query.direction_eq, Query.direction_eq, ← Option.not_isSome, ← Option.not_isSome, start,
    finish]

private theorem effectiveLimit_eq (redated : query.IsRedated other) :
    other.effectiveLimit = query.effectiveLimit := by
  have start : other.start.isSome = query.start.isSome := by
    simpa only [Option.isSome_map] using congrArg Option.isSome redated.start
  have finish : other.finish.isSome = query.finish.isSome := by
    simpa only [Option.isSome_map] using congrArg Option.isSome redated.finish
  rw [Query.effectiveLimit_eq, Query.effectiveLimit_eq, start, finish, redated.limit]

private theorem selects_eq {record otherRecord : R} (redated : query.IsRedated other)
    (redatedRecord : Record.IsRedated record otherRecord) :
    other.selects otherRecord = query.selects record := by
  have asks : other.Asks otherRecord ↔ query.Asks record := by
    have start := forall_bound_iff redated.start (· ≤ (Record.timestamp record).moment)
    have finish := forall_bound_iff redated.finish ((Record.timestamp record).moment ≤ ·)
    constructor
    · rintro ⟨owner, notBefore, notAfter⟩
      rw [redatedRecord.moment] at notBefore notAfter
      rw [redated.creatorId, redatedRecord.owner] at owner
      exact ⟨owner, start.mp notBefore, finish.mp notAfter⟩
    · rintro ⟨owner, notBefore, notAfter⟩
      rw [← redated.creatorId, ← redatedRecord.owner] at owner
      refine ⟨owner, ?_, ?_⟩
      · rw [redatedRecord.moment]
        exact start.mpr notBefore
      · rw [redatedRecord.moment]
        exact finish.mpr notAfter
  rw [selects_eq_decide, selects_eq_decide]
  exact decide_eq_decide.mpr asks

/-- Records and redated ones are listed side by side. -/
theorem exists_apply_map {pairs : List (R × R)} (redated : query.IsRedated other)
    (each : ∀ pair ∈ pairs, Record.IsRedated pair.1 pair.2) :
    ∃ listed : List (R × R),
      (∀ pair ∈ listed, Record.IsRedated pair.1 pair.2) ∧
      query.apply (pairs.map Prod.fst) = listed.map Prod.fst ∧
      other.apply (pairs.map Prod.snd) = listed.map Prod.snd := by
  let kept := pairs.filter fun pair => query.selects pair.1
  let sorted := kept.mergeSort fun left right => query.direction.before left.1 right.1
  have eachKept : ∀ pair ∈ kept, Record.IsRedated pair.1 pair.2 :=
    fun pair member => each pair (List.mem_filter.mp member).1
  have firsts : sorted.map Prod.fst = query.sort ((pairs.map Prod.fst).filter query.selects) := by
    rw [List.filter_map]
    exact List.map_mergeSort fun _ _ _ _ => rfl
  have seconds : sorted.map Prod.snd = other.sort ((pairs.map Prod.snd).filter other.selects) := by
    have same : pairs.filter (other.selects ∘ Prod.snd) = kept :=
      List.filter_congr fun pair member => redated.selects_eq (each pair member)
    rw [List.filter_map, same, Query.sort, redated.direction_eq]
    exact List.map_mergeSort fun left leftMember right rightMember =>
      ((eachKept left leftMember).before_eq (eachKept right rightMember) _).symm
  refine ⟨query.cap sorted, ?_, ?_, ?_⟩
  · intro pair member
    obtain ⟨left, whole⟩ := query.exists_cap_append sorted
    have inside : pair ∈ sorted := by
      rw [← whole]
      exact List.mem_append_left _ member
    exact eachKept pair (List.mem_mergeSort.mp inside)
  · rw [map_cap, firsts]
    rfl
  · have sameCap : query.cap sorted = other.cap sorted := by
      rw [cap, cap, redated.effectiveLimit_eq]
    rw [sameCap, map_cap, seconds]
    rfl

end IsRedated

end Query

/-! ## Lists -/

/-- Records with distinct keys are listed in the same way in whatever order they are stored.
And where times of records and bounds of the query are written in other offsets, the same
keys are listed in the same order, those of the same records. -/
theorem lists_ignore_storage_and_offsets (R : Type) [Record R] :
    (∀ (query : Query) (records others : List R),
      records.Perm others →
      (records.map Record.key).Nodup →
      query.apply records = query.apply others) ∧
    (∀ (query other : Query) (records others : List R),
      query.IsRedated other →
      List.Forall₂ Record.IsRedated records others →
      (query.apply records).map Record.key = (other.apply others).map Record.key ∧
        List.Forall₂ Record.IsRedated (query.apply records) (other.apply others)) := by
  constructor
  · intro query records others same distinct
    exact query.apply_eq_of_perm same distinct
  · intro query other records others redated each
    obtain ⟨sameLength, eachPair⟩ := List.forall₂_iff_zip.mp each
    obtain ⟨listed, eachListed, firsts, seconds⟩ :=
      redated.exists_apply_map fun pair member => eachPair member
    rw [List.map_fst_zip sameLength.le] at firsts
    rw [List.map_snd_zip sameLength.ge] at seconds
    rw [firsts, seconds]
    constructor
    · rw [List.map_map, List.map_map]
      exact List.map_congr_left fun pair member => (eachListed pair member).key.symm
    · rw [List.forall₂_map_left_iff, List.forall₂_map_right_iff]
      exact List.forall₂_same.mpr eachListed

/-- The leap second in which the sample profile was made, as a clock in UTC shows it. -/
def leapSecondInUtc : Timestamp :=
  { Collection.sampleProfile.createdAt with
    time := ⟨22, 29, 60, 500000000, by decide⟩
    offset := .utc
    nameable := by decide }

/-- A profile that was made in the same leap second. -/
def twinProfile : UserProfile :=
  { Collection.sampleProfile with userId := "u-2" }

/-- Of two records of one moment a cap leaves the one whose key comes last, in whatever
order they are stored and in whichever offset each of their times is written. -/
theorem lists_ignore_storage_and_offsets_at_cut :
    let query := (Query.all.upTo Collection.sampleProfile.createdAt).capped 1
    let other := (Query.all.upTo leapSecondInUtc).capped 1
    let respelled := { Collection.sampleProfile with createdAt := leapSecondInUtc }
    query.apply [Collection.sampleProfile, twinProfile] = [twinProfile] ∧
    query.apply [twinProfile, Collection.sampleProfile] = [twinProfile] ∧
    (other.apply [respelled, twinProfile]).map Record.key = ["u-2"] := by
  intro query other respelled
  have whole : [Collection.sampleProfile, twinProfile].filter query.selects =
      [Collection.sampleProfile, twinProfile] := by
    decide +kernel
  have sorted : query.sort [Collection.sampleProfile, twinProfile] =
      [twinProfile, Collection.sampleProfile] :=
    query.sort_eq_of_pairwise (List.Perm.swap _ _ _) (by decide +kernel) (by decide +kernel)
  have listed : query.apply [Collection.sampleProfile, twinProfile] = [twinProfile] := by
    rw [Query.apply, whole, sorted]
    rfl
  obtain ⟨ignoresStorage, ignoresOffsets⟩ := lists_ignore_storage_and_offsets UserProfile
  have swapped := ignoresStorage query [Collection.sampleProfile, twinProfile]
    [twinProfile, Collection.sampleProfile] (List.Perm.swap _ _ _) (by decide +kernel)
  have redated := ignoresOffsets query other [Collection.sampleProfile, twinProfile]
    [respelled, twinProfile] ⟨rfl, rfl, by decide +kernel, rfl⟩
    (.cons ⟨rfl, rfl, by decide +kernel⟩ (.cons ⟨rfl, rfl, rfl⟩ .nil))
  rw [listed] at swapped redated
  exact ⟨listed, swapped.symm, redated.1.symm⟩

end RoomLedger
