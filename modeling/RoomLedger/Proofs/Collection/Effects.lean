import Mathlib.Data.List.Basic
import RoomLedger.Proofs.Collection.Canonical
import RoomLedger.Proofs.Collection.Finding

/-!
Contract: changes of one record as functions of the records.

Owns:
- `Change`, a create, an update or a remove, with the key that it concerns;
- `Change.answer`, what a change returns by what its key finds, and `Change.effect`, what a
  change that succeeds makes of the records: it revises each of them and may add one;
- `Change.find?_effect_of_ne`, by which no other key finds anything else after a change;
- `Change.effect_of_split`, by which it touches one record, and `Change.verdict_request` and
  `Change.eq_effect_of_changes`, by which a request asks for this effect;
- `Holds`, a blob with records at a mark, and `Holds.run`, by which a change that has the
  store for itself returns its outcome and leaves its result.

Does not own: several changes.
-/

namespace RoomLedger.Collection

open RoomLedger.Store (MemoryStore)

/-- A request for a change of one record. -/
inductive Change (R : Type) where
  | create (record : R)
  | update (key value : String)
  | remove (key : String)

namespace Change

variable {R : Type}

def request : Change R → Request R
  | .create record => .create record
  | .update key value => .update key value
  | .remove key => .remove key

def isCreate : Change R → Bool
  | .create _ => true
  | _ => false

variable [Record R]

/-- The key of the record that a change concerns. -/
def key : Change R → String
  | .create record => Record.key record
  | .update key _ | .remove key => key

/-- What a change returns, by what its key finds. -/
def answer : Change R → (found : Option R) → Except Failure R
  | .create record, none => .ok record
  | .create record, some _ => .error (.conflict (Record.key record) .duplicate)
  | .update key _, none | .remove key, none => .error (.notFound key)
  | .update _ value, some record => .ok (Record.amend value record)
  | .remove _, some record => .ok record

/-- What becomes of a record by a change that succeeds. -/
def revise : Change R → R → Option R
  | .create _, record => some record
  | .update key value, record =>
      if Record.key record = key then some (Record.amend value record) else some record
  | .remove key, record => if Record.key record = key then none else some record

/-- What a change that succeeds puts behind the records. -/
def added : Change R → List R
  | .create record => [record]
  | .update _ _ | .remove _ => []

/-- What a change that succeeds makes of the records. -/
def effect (change : Change R) (records : List R) : List R :=
  records.filterMap change.revise ++ change.added

/-! ## Other records -/

variable {change : Change R} {record changed : R} {records : List R}

/-- A record of another key stays as it is. -/
theorem revise_of_ne (apart : Record.key record ≠ change.key) :
    change.revise record = some record := by
  cases change with
  | create other => rfl
  | update key value => exact if_neg apart
  | remove key => exact if_neg apart

/-- A record never gets another key. -/
theorem key_of_revise (revises : change.revise record = some changed) :
    Record.key changed = Record.key record := by
  cases change with
  | create other =>
      cases revises
      rfl
  | update key value =>
      rw [revise] at revises
      split at revises
      · cases revises
        exact Record.key_amend value record
      · cases revises
        rfl
  | remove key =>
      rw [revise] at revises
      split at revises
      · cases revises
      · cases revises
        rfl

theorem key_of_mem_added (isAdded : record ∈ change.added) : Record.key record = change.key := by
  cases change with
  | create other => rw [List.mem_singleton.mp isAdded, key]
  | update key value => cases isAdded
  | remove key => cases isAdded

theorem filterMap_revise_of_not_mem (missing : change.key ∉ records.map Record.key) :
    records.filterMap change.revise = records := by
  have kept : ∀ record ∈ records, change.revise record = some record := by
    intro record present
    apply revise_of_ne
    intro same
    rw [← same] at missing
    exact missing (List.mem_map_of_mem present)
  rw [List.filterMap_congr kept, List.filterMap_some]

/-- No other key finds anything else after a change. -/
theorem find?_effect_of_ne {other : String} (apart : change.key ≠ other) (records : List R) :
    find? other (change.effect records) = find? other records := by
  have notAdded : find? other change.added = none := by
    rw [find?_eq_none_iff]
    intro isKey
    obtain ⟨record, isAdded, own⟩ := List.mem_map.mp isKey
    exact apart ((key_of_mem_added isAdded).symm.trans own)
  have sameTest : ∀ record : R,
      (change.revise record).any (fun changed => decide (Record.key changed = other)) =
        decide (Record.key record = other) := by
    intro record
    by_cases own : Record.key record = other
    · rw [revise_of_ne (own ▸ apart.symm)]
      rfl
    · cases revises : change.revise record with
      | none => simp [own]
      | some changed => simp [key_of_revise revises]
  unfold find? at notAdded
  rw [effect, find?, List.find?_append, notAdded, Option.or_none, List.find?_filterMap]
  simp only [sameTest]
  change (find? other records).bind change.revise = find? other records
  cases found : find? other records with
  | none => rfl
  | some record =>
      have own : Record.key record = other := (of_find?_eq_some found).2
      exact revise_of_ne (own ▸ apart.symm)

/-! ## The record of the key -/

private theorem revise_create (record : R) : (create record).revise = some := rfl

private theorem effect_create (record : R) (records : List R) :
    (create record).effect records = records ++ [record] := by
  rw [effect, revise_create, List.filterMap_some]
  rfl

/-- Where keys are distinct, an effect touches the one record of the key. -/
theorem effect_of_split (change : Change R) {before later : List R}
    (distinct : ((before ++ record :: later).map Record.key).Nodup)
    (own : Record.key record = change.key) :
    change.effect (before ++ record :: later) =
      before ++ (change.revise record).toList ++ later ++ change.added := by
  have notOther := key_not_mem_others distinct
  rw [own, List.map_append, List.mem_append, not_or] at notOther
  rw [effect, List.filterMap_append, List.filterMap_cons,
    filterMap_revise_of_not_mem notOther.1, filterMap_revise_of_not_mem notOther.2]
  cases change.revise record with
  | none => simp
  | some changed => simp

private theorem effect_update {key : String} {before later : List R}
    (distinct : ((before ++ record :: later).map Record.key).Nodup) (own : Record.key record = key)
    (value : String) :
    (update key value).effect (before ++ record :: later) =
      before ++ Record.amend value record :: later := by
  rw [effect_of_split (update key value) distinct own, revise, if_pos own, added]
  simp

private theorem effect_remove {key : String} {before later : List R}
    (distinct : ((before ++ record :: later).map Record.key).Nodup)
    (own : Record.key record = key) :
    (remove key).effect (before ++ record :: later) = before ++ later := by
  rw [effect_of_split (remove key) distinct own, revise, if_pos own, added]
  simp

/-- Where keys are distinct, what a change asks for is its effect. -/
theorem eq_effect_of_changes {later : List R} {reply : Reply R}
    (changes : change.request.Changes records later reply)
    (distinct : (records.map Record.key).Nodup) :
    later = change.effect records := by
  cases change with
  | create record =>
      cases changes
      exact (effect_create record records).symm
  | update key value =>
      cases changes with
      | update _ _ before found after isFirst isKeyed =>
          exact (effect_update distinct isKeyed value).symm
  | remove key =>
      cases changes with
      | remove _ before found after isFirst isKeyed =>
          exact (effect_remove distinct isKeyed).symm

/-- Where keys are distinct, a change fails or has its effect, by what its key finds. -/
theorem verdict_request (collection : Collection R) (distinct : (records.map Record.key).Nodup)
    (change : Change R) :
    change.request.verdict collection records =
      match change.answer (find? change.key records) with
      | .error failure => .answer (.error failure)
      | .ok record => .change (change.effect records) change.key (.record record) := by
  cases change with
  | create record =>
      simp only [request, Request.verdict, key, effect_create]
      cases find? (Record.key record) records with
      | none => rfl
      | some other => rfl
  | update key value =>
      simp only [request, Request.verdict, Change.key]
      cases found : find? key records with
      | none =>
          rw [amendIn_eq_none found]
          rfl
      | some record =>
          obtain ⟨changed, amends, -⟩ := amendIn_eq_some value found
          obtain ⟨before, own, later, rfl, -, isKeyed, same, rfl⟩ := split_of_amendIn amends
          rw [amends, effect_update distinct isKeyed, answer, same]
  | remove key =>
      simp only [request, Request.verdict, Change.key]
      cases found : find? key records with
      | none =>
          rw [removeFrom_eq_none found]
          rfl
      | some record =>
          have removes := removeFrom_eq_some distinct found
          obtain ⟨before, later, rfl, -, isKeyed, left⟩ := split_of_removeFrom removes
          rw [removes, left, effect_remove distinct isKeyed]
          rfl

/-! ## What a change returns and leaves -/

/-- What a change returns, whose key is checked before it is looked for. -/
def outcome (change : Change R) (records : List R) : Except Failure R :=
  match change.request.precheck with
  | .error failure => .error failure
  | .ok () => change.answer (find? change.key records)

/-- What a change leaves of the records. -/
def result (change : Change R) (records : List R) : List R :=
  match change.outcome records with
  | .error _ => records
  | .ok _ => change.effect records

/-- How many writes of a change are taken. -/
def writes (change : Change R) (records : List R) : Nat :=
  match change.outcome records with
  | .error _ => 0
  | .ok _ => 1

theorem result_of_error {failure : Failure} (failed : change.outcome records = .error failure) :
    change.result records = records := by
  rw [result, failed]

theorem result_of_ok (succeeded : change.outcome records = .ok record) :
    change.result records = change.effect records := by
  rw [result, succeeded]

end Change

/-- The blob of a collection holds records that are told apart by their keys, at the mark
of that number. -/
structure Holds {R : Type} [Record R] (collection : Collection R) (store : MemoryStore)
    (records : List R) (number : Nat) : Prop where
  keyed : IsKeyed records
  content : (store.version collection.blobKey).contentOrEmpty = encode records
  mark : (store.version collection.blobKey).generation.number = number

namespace Holds

variable {R : Type} [Record R] {collection : Collection R} {store : MemoryStore} {records : List R}
  {number : Nat}

theorem decode (holds : Holds collection store records number) :
    Collection.decode (store.version collection.blobKey).contentOrEmpty = .ok records := by
  rw [holds.content]
  exact decode_encode records

/-- A blob that a collection has left holds records. -/
theorem of_isCanonical (canonical : Request.IsCanonical R (store.version collection.blobKey)) :
    ∃ records : List R,
      Holds collection store records (store.version collection.blobKey).generation.number := by
  generalize same : store.version collection.blobKey = version at canonical
  cases canonical with
  | absent =>
      refine ⟨[], IsKeyed.nil, ?_, congrArg (·.generation.number) same⟩
      rw [same]
      rfl
  | written records generation keyed =>
      refine ⟨records, keyed, ?_, congrArg (·.generation.number) same⟩
      rw [same]
      rfl

/-- What a write leaves behind. -/
theorem written {following : Store.Generation} (keyed : IsKeyed records) :
    Holds collection
      (store.after collection.blobKey ⟨encode records, contentType, following⟩)
      records following.number where
  keyed := keyed
  content := by
    rw [MemoryStore.version_after_self]
    rfl
  mark := by
    rw [MemoryStore.version_after_self]
    rfl

/-- A change that has the store for itself returns its outcome and leaves its result. -/
theorem run (holds : Holds collection store records number) (room : number + 1 < UInt64.size)
    (change : Change R) :
    ((change.request.plan collection).run store).1 = (change.outcome records).map .record ∧
    Holds collection ((change.request.plan collection).run store).2 (change.result records)
      (number + change.writes records) := by
  unfold Change.result Change.writes Change.outcome
  cases passed : change.request.precheck with
  | error failure =>
      rw [Request.run_plan_of_precheck passed]
      exact ⟨rfl, holds⟩
  | ok done =>
      have verdict := Change.verdict_request collection holds.keyed.distinct change
      rw [Request.run_plan_of_decode passed holds.decode, verdict]
      cases answers : change.answer (find? change.key records) with
      | error failure => exact ⟨rfl, holds⟩
      | ok record =>
          rw [answers] at verdict
          have roomNow : (store.version collection.blobKey).generation.number + 1 <
              UInt64.size := by
            rw [holds.mark]
            exact room
          obtain ⟨following, next⟩ := Store.Generation.exists_next? roomNow
          simp only [Request.carryOut]
          rw [Request.run_commit next, ← holds.mark, ← Store.Generation.number_of_next? next]
          exact ⟨rfl, written (Request.keyed_of_verdict holds.keyed passed verdict)⟩

end Holds

end RoomLedger.Collection
