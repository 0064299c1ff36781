import RoomLedger.Proofs.Collection.Effects
import RoomLedger.Proofs.Collection.Indifference

/-!
Contract: changes of different records, in either order.

Owns:
- `Change.outcome_result_of_ne`, by which a change returns the same after a change of another
  record;
- `Change.result_perm` and `Change.result_comm`, by which both orders leave the same records;
- `AreAlike`, two stores with the same records at the same mark, and `AreAlike.serve`, by which
  requests cannot tell them apart;
- `independent_changes_commute`, for every collection that began without a blob.

Two creates leave their records in the order in which they came. This is all that is left of
the order, and only a request for all records as they are stored shows it.

Does not own: changes of one record.
-/

namespace RoomLedger.Collection

open RoomLedger.Store (MemoryStore)

variable {R : Type} [Record R]

/-! ## Both orders -/

namespace Change

variable {first second : Change R}

/-- A change returns the same after a change of another record. -/
theorem outcome_result_of_ne (apart : first.key ≠ second.key) (records : List R) :
    second.outcome (first.result records) = second.outcome records := by
  have same : find? second.key (first.result records) = find? second.key records := by
    unfold result
    split
    · rfl
    · exact find?_effect_of_ne apart records
  rw [outcome, outcome, same]

private theorem writes_le_one (change : Change R) (records : List R) :
    change.writes records ≤ 1 := by
  unfold writes
  split
  · exact Nat.zero_le 1
  · exact Nat.le_refl 1

private theorem writes_result_of_ne (apart : first.key ≠ second.key) (records : List R) :
    second.writes (first.result records) = second.writes records := by
  rw [writes, writes, outcome_result_of_ne apart]

/-- What a change makes of a record of another key is left so. -/
theorem bind_revise_of_ne {record : R} (apart : Record.key record ≠ second.key) :
    (first.revise record).bind second.revise = first.revise record := by
  cases revises : first.revise record with
  | none => rfl
  | some changed =>
      have same : Record.key changed = Record.key record := key_of_revise revises
      exact revise_of_ne (same ▸ apart)

/-- No record is of both keys, so at least one of the changes leaves it as it is. -/
theorem revise_comm (apart : first.key ≠ second.key) (record : R) :
    (first.revise record).bind second.revise = (second.revise record).bind first.revise := by
  by_cases own : Record.key record = first.key
  · have other : Record.key record ≠ second.key := own ▸ apart
    rw [bind_revise_of_ne other, revise_of_ne other]
    rfl
  · rw [revise_of_ne own, bind_revise_of_ne own]
    rfl

private theorem effect_effect (apart : first.key ≠ second.key) (records : List R) :
    second.effect (first.effect records) =
      records.filterMap (fun record => (first.revise record).bind second.revise) ++
        (first.added ++ second.added) := by
  have kept : first.added.filterMap second.revise = first.added := by
    apply filterMap_revise_of_not_mem
    intro isKey
    obtain ⟨record, isAdded, own⟩ := List.mem_map.mp isKey
    exact apart ((key_of_mem_added isAdded).symm.trans own)
  rw [effect, effect, List.filterMap_append, List.filterMap_filterMap, kept, List.append_assoc]

/-- Both orders have the same effect, apart from the order of new records. -/
theorem effect_perm (apart : first.key ≠ second.key) (records : List R) :
    (second.effect (first.effect records)).Perm (first.effect (second.effect records)) := by
  rw [effect_effect apart, effect_effect apart.symm]
  simp only [revise_comm apart]
  exact List.perm_append_comm.append_left _

omit [Record R] in
private theorem added_of_isCreate {change : Change R} (noCreate : change.isCreate = false) :
    change.added = [] := by
  cases change with
  | create record => cases noCreate
  | update key value => rfl
  | remove key => rfl

private theorem effect_comm (apart : first.key ≠ second.key)
    (notBoth : first.isCreate = false ∨ second.isCreate = false) (records : List R) :
    second.effect (first.effect records) = first.effect (second.effect records) := by
  have sameAdded : first.added ++ second.added = second.added ++ first.added := by
    rcases notBoth with noCreate | noCreate
    · simp [added_of_isCreate noCreate]
    · simp [added_of_isCreate noCreate]
  rw [effect_effect apart, effect_effect apart.symm, sameAdded]
  simp only [revise_comm apart]

/-- Both orders leave the same, or both changes have their effects. -/
theorem result_result_cases (apart : first.key ≠ second.key) (records : List R) :
    second.result (first.result records) = first.result (second.result records) ∨
    second.result (first.result records) = second.effect (first.effect records) ∧
      first.result (second.result records) = first.effect (second.effect records) := by
  have secondThen := outcome_result_of_ne apart records
  have firstThen := outcome_result_of_ne apart.symm records
  cases firstAlone : first.outcome records with
  | error failure =>
      rw [firstAlone] at firstThen
      left
      rw [result_of_error firstAlone, result_of_error firstThen]
  | ok record =>
      rw [firstAlone] at firstThen
      cases secondAlone : second.outcome records with
      | error failure =>
          rw [secondAlone] at secondThen
          left
          rw [result_of_error secondAlone, result_of_error secondThen]
      | ok other =>
          rw [secondAlone] at secondThen
          right
          rw [result_of_ok secondThen, result_of_ok firstThen, result_of_ok firstAlone,
            result_of_ok secondAlone]
          exact ⟨rfl, rfl⟩

theorem result_perm (apart : first.key ≠ second.key) (records : List R) :
    (second.result (first.result records)).Perm (first.result (second.result records)) := by
  rcases result_result_cases apart records with same | ⟨firstFirst, secondFirst⟩
  · exact List.Perm.of_eq same
  · rw [firstFirst, secondFirst]
    exact effect_perm apart records

theorem result_comm (apart : first.key ≠ second.key)
    (notBoth : first.isCreate = false ∨ second.isCreate = false) (records : List R) :
    second.result (first.result records) = first.result (second.result records) := by
  rcases result_result_cases apart records with same | ⟨firstFirst, secondFirst⟩
  · exact same
  · rw [firstFirst, secondFirst]
    exact effect_comm apart notBoth records

end Change

/-! ## Stores that requests cannot tell apart -/

/-- The blob of a collection holds the same records in both stores, in whatever order, at the
same mark. -/
def AreAlike (collection : Collection R) (left right : MemoryStore) : Prop :=
  ∃ records others number,
    records.Perm others ∧ Holds collection left records number ∧
      Holds collection right others number

namespace Verdict

/-- Verdicts that answer the same, or write the same records in whatever order. -/
inductive AreAlike : Verdict R → Verdict R → Prop
  | answer (result : Except Failure (Reply R)) : AreAlike (.answer result) (.answer result)
  | change {records others : List R} (same : records.Perm others) (recordKey : String)
      (reply : Reply R) :
      AreAlike (.change records recordKey reply) (.change others recordKey reply)

omit [Record R] in
private theorem AreAlike.refl (verdict : Verdict R) : verdict.AreAlike verdict := by
  cases verdict with
  | answer result => exact .answer result
  | change records recordKey reply => exact .change (.refl records) recordKey reply

end Verdict

/-- What a change decides does not show how the records are stored. -/
theorem Change.verdict_of_perm (collection : Collection R) {records others : List R}
    (same : records.Perm others) (distinct : (records.map Record.key).Nodup) (change : Change R) :
    (change.request.verdict collection records).AreAlike
      (change.request.verdict collection others) := by
  have distinctOthers : (others.map Record.key).Nodup :=
    (same.map Record.key).nodup_iff.mp distinct
  have sameFound : find? change.key records = find? change.key others :=
    find?_eq_of_perm same distinct
  rw [change.verdict_request collection distinct, change.verdict_request collection distinctOthers,
    ← sameFound]
  cases change.answer (find? change.key records) with
  | error failure => exact .answer _
  | ok record => exact .change ((same.filterMap change.revise).append_right _) _ _

namespace Request

/-- What a request decides does not show how the records are stored, unless it asks for just
that. -/
theorem verdict_of_perm (collection : Collection R) {records others : List R}
    (same : records.Perm others) (distinct : (records.map Record.key).Nodup) {request : Request R}
    (notAll : request ≠ .all) :
    (request.verdict collection records).AreAlike (request.verdict collection others) := by
  cases request with
  | create record => exact Change.verdict_of_perm collection same distinct (.create record)
  | update key value => exact Change.verdict_of_perm collection same distinct (.update key value)
  | remove key => exact Change.verdict_of_perm collection same distinct (.remove key)
  | get key =>
      rw [verdict, verdict, find?_eq_of_perm same distinct]
      exact .refl _
  | removeWhere unwanted =>
      have kept := same.filter fun record => !unwanted record
      simp only [verdict, same.length_eq, kept.length_eq]
      split
      · exact .answer _
      · exact .change kept _ _
  | list query =>
      rw [verdict, verdict, query.apply_eq_of_perm same distinct]
      exact .answer _
  | all => exact absurd rfl notAll

end Request

namespace AreAlike

variable {collection : Collection R} {left right : MemoryStore}

/-- A request returns the same in stores that are alike, and they stay so. -/
theorem run {request : Request R} (alike : AreAlike collection left right)
    (notAll : request ≠ .all) :
    ((request.plan collection).run left).1 = ((request.plan collection).run right).1 ∧
    AreAlike collection ((request.plan collection).run left).2
      ((request.plan collection).run right).2 := by
  obtain ⟨records, others, number, same, inLeft, inRight⟩ := alike
  have sameMark : (left.version collection.blobKey).generation =
      (right.version collection.blobKey).generation :=
    Store.Generation.eq_of_number (inLeft.mark.trans inRight.mark.symm)
  cases passed : request.precheck with
  | error failure =>
      rw [Request.run_plan_of_precheck passed, Request.run_plan_of_precheck passed]
      exact ⟨rfl, records, others, number, same, inLeft, inRight⟩
  | ok done =>
      have decides := Request.verdict_of_perm collection same inLeft.keyed.distinct notAll
      rw [Request.run_plan_of_decode passed inLeft.decode,
        Request.run_plan_of_decode passed inRight.decode]
      generalize leftVerdict : request.verdict collection records = decidedLeft at decides
      generalize rightVerdict : request.verdict collection others = decidedRight at decides
      cases decides with
      | answer result => exact ⟨rfl, records, others, number, same, inLeft, inRight⟩
      | @change changed otherChanged sameChanged recordKey reply =>
          -- The marks are the same, so both writes are taken or none is.
          simp only [Request.carryOut]
          cases next : (left.version collection.blobKey).generation.next? with
          | none =>
              have nextRight := sameMark ▸ next
              rw [Request.run_commit_of_exhausted next, Request.run_commit_of_exhausted nextRight]
              exact ⟨rfl, records, others, number, same, inLeft, inRight⟩
          | some following =>
              have nextRight := sameMark ▸ next
              rw [Request.run_commit next, Request.run_commit nextRight]
              refine ⟨rfl, changed, otherChanged, following.number, sameChanged, ?_, ?_⟩
              · exact .written (Request.keyed_of_verdict inLeft.keyed passed leftVerdict)
              · exact .written (Request.keyed_of_verdict inRight.keyed passed rightVerdict)

/-- So do requests one after another. -/
theorem serve {requests : List (Request R)} (alike : AreAlike collection left right)
    (noAll : .all ∉ requests) :
    (Request.serve collection requests left).1 = (Request.serve collection requests right).1 := by
  induction requests generalizing left right with
  | nil => rfl
  | cons request later inductionHypothesis =>
      rw [List.mem_cons, not_or] at noAll
      obtain ⟨sameReply, stillAlike⟩ := alike.run (Ne.symm noAll.1)
      have sameLater := inductionHypothesis stillAlike noAll.2
      unfold Request.serve at sameLater ⊢
      simp only [List.map_cons, Store.Plan.runAll, sameReply, sameLater]

end AreAlike

/-! ## Both orders in a store -/

/-- A change and then another one return what each returns alone, and leave what both make of
the records. -/
theorem Holds.run_run {collection : Collection R} {store : MemoryStore} {records : List R}
    {number : Nat} {first second : Change R} (holds : Holds collection store records number)
    (room : number + 2 < UInt64.size) (apart : first.key ≠ second.key) :
    let between := ((first.request.plan collection).run store).2
    ((first.request.plan collection).run store).1 = (first.outcome records).map .record ∧
    ((second.request.plan collection).run between).1 = (second.outcome records).map .record ∧
    Holds collection ((second.request.plan collection).run between).2
      (second.result (first.result records))
      (number + first.writes records + second.writes records) := by
  intro between
  have few := first.writes_le_one records
  obtain ⟨firstReply, inBetween⟩ := holds.run (by omega) first
  obtain ⟨secondReply, inEnd⟩ := inBetween.run (by omega) second
  rw [Change.outcome_result_of_ne apart] at secondReply
  rw [Change.writes_result_of_ne apart] at inEnd
  exact ⟨firstReply, secondReply, inEnd⟩

/-- Changes of different records commute. Whatever requests to a collection, in whatever
schedule, made of a blob that did not exist: each of two changes returns the same in either
order, and both orders end at the same mark with the same records. Only two creates leave them
stored in the order in which they came. So requests that come later return the same after
either order, unless one asks for the records as they are stored. -/
theorem independent_changes_commute (collection : Collection R) (earlier : List (Request R))
    (store : MemoryStore) (schedule : List Nat) (first second : Change R)
    (absent : store.version collection.blobKey = .absent)
    (room : (((Request.crowd collection earlier store).follow schedule).store.version
      collection.blobKey).generation.number + 2 < UInt64.size)
    (apart : first.key ≠ second.key) :
    let reached := ((Request.crowd collection earlier store).follow schedule).store
    let (firstReply, afterFirst) := (first.request.plan collection).run reached
    let (secondThenReply, firstThenSecond) := (second.request.plan collection).run afterFirst
    let (secondReply, afterSecond) := (second.request.plan collection).run reached
    let (firstThenReply, secondThenFirst) := (first.request.plan collection).run afterSecond
    firstThenReply = firstReply ∧
    secondThenReply = secondReply ∧
    (firstThenSecond.version collection.blobKey).generation =
      (secondThenFirst.version collection.blobKey).generation ∧
    (∃ records others : List R,
      decode (firstThenSecond.version collection.blobKey).contentOrEmpty = .ok records ∧
      decode (secondThenFirst.version collection.blobKey).contentOrEmpty = .ok others ∧
      records.Perm others ∧
      (first.isCreate = false ∨ second.isCreate = false → records = others)) ∧
    ∀ later : List (Request R),
      .all ∉ later →
      (Request.serve collection later firstThenSecond).1 =
        (Request.serve collection later secondThenFirst).1 := by
  intro reached
  have start : Request.IsCanonical R (store.version collection.blobKey) := by
    rw [absent]
    exact Request.IsCanonical.absent
  obtain ⟨records, holds⟩ :=
    Holds.of_isCanonical (Request.isCanonical_follow start earlier schedule)
  obtain ⟨firstReply, secondThenReply, firstThenSecond⟩ := holds.run_run room apart
  obtain ⟨secondReply, firstThenReply, secondThenFirst⟩ := holds.run_run room apart.symm
  rw [Nat.add_right_comm] at secondThenFirst
  have same := Change.result_perm apart records
  have alike : AreAlike collection _ _ := ⟨_, _, _, same, firstThenSecond, secondThenFirst⟩
  refine ⟨firstThenReply.trans firstReply.symm, secondThenReply.trans secondReply.symm, ?_,
    ⟨_, _, firstThenSecond.decode, secondThenFirst.decode, same, ?_⟩, ?_⟩
  · exact Store.Generation.eq_of_number (firstThenSecond.mark.trans secondThenFirst.mark.symm)
  · exact fun notBoth => Change.result_comm apart notBoth records
  · exact fun later noAll => alike.serve noAll

/-- Two users whose profiles are of one moment come in either order. Their profiles are stored
in the order in which they came, and a list with a cap has the same two of the three. -/
theorem independent_changes_commute_of_two_creates :
    let collection := Profiles.collection
    let first : Change UserProfile := .create twinProfile
    let second : Change UserProfile := .create { twinProfile with userId := "u-3" }
    let reached := ((Request.crowd collection [.create sampleProfile] .empty).follow [0, 0]).store
    let afterFirst := ((first.request.plan collection).run reached).2
    let firstThenSecond := ((second.request.plan collection).run afterFirst).2
    let afterSecond := ((second.request.plan collection).run reached).2
    let secondThenFirst := ((first.request.plan collection).run afterSecond).2
    let latest : Request UserProfile := .list ((Query.all.upTo sampleProfile.createdAt).capped 2)
    (reached.version collection.blobKey).generation.number + 2 < UInt64.size ∧
    first.key ≠ second.key ∧
    firstThenSecond.version collection.blobKey ≠ secondThenFirst.version collection.blobKey ∧
    (Request.serve collection [latest, .remove "u-2", latest] firstThenSecond).1 =
      (Request.serve collection [latest, .remove "u-2", latest] secondThenFirst).1 := by
  intro collection first second reached afterFirst firstThenSecond afterSecond secondThenFirst
    latest
  have room : (reached.version collection.blobKey).generation.number + 2 < UInt64.size := by
    decide +kernel
  have apart : first.key ≠ second.key := by decide
  have noAll : Request.all ∉ [latest, .remove "u-2", latest] := by simp [latest]
  obtain ⟨-, -, -, -, sameLater⟩ := independent_changes_commute collection
    [.create sampleProfile] .empty [0, 0] first second rfl room apart
  exact ⟨room, apart, by decide +kernel, sameLater _ noAll⟩

end RoomLedger.Collection
