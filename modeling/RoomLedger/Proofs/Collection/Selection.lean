import RoomLedger.Proofs.Collection.Ordering

/-!
Contract: which of the records a query lists.

Owns:
- `Query.Asks`, by which a query asks for a record, and `Query.selects_iff`;
- `Query.Leads`, the order of a query's list, in terms of the bounds that it names;
- `Query.direction_eq`, `Query.before_iff_not_leads` and `Query.effectiveLimit_eq`, by which
  a query's direction and cap are those that its bounds call for;
- `Query.apply_lists_first_asked`, by which a query lists the records that it asks for, in
  its order and the first ones of them.

What a cap leaves out is the rest of the sorted records, so none of it leads a record that
is listed.

Does not own: the records that a query is applied to.
-/

namespace RoomLedger.Query

variable {R : Type} [Record R]

/-! ## What a query asks for -/

/-- The record has the owner that the query names, and its time is within the bounds that
the query names. Both bounds are inclusive. -/
structure Asks (query : Query) (record : R) : Prop where
  owner : ∀ creatorId ∈ query.creatorId, Record.owner record = creatorId
  start : ∀ start ∈ query.start, start.moment ≤ (Record.timestamp record).moment
  finish : ∀ finish ∈ query.finish, (Record.timestamp record).moment ≤ finish.moment

private theorem ownerMatches_iff (query : Query) (record : R) :
    query.ownerMatches record = true ↔
      ∀ creatorId ∈ query.creatorId, Record.owner record = creatorId := by
  unfold ownerMatches
  cases query.creatorId with
  | none => simp
  | some creatorId => simp

private theorem notBefore_iff (query : Query) (record : R) :
    query.notBefore record = true ↔
      ∀ start ∈ query.start, start.moment ≤ (Record.timestamp record).moment := by
  unfold notBefore
  cases query.start with
  | none => simp
  | some start => simp [Time.Timestamp.le_def]

private theorem notAfter_iff (query : Query) (record : R) :
    query.notAfter record = true ↔
      ∀ finish ∈ query.finish, (Record.timestamp record).moment ≤ finish.moment := by
  unfold notAfter
  cases query.finish with
  | none => simp
  | some finish => simp [Time.Timestamp.le_def]

theorem selects_iff (query : Query) (record : R) :
    query.selects record = true ↔ query.Asks record := by
  rw [selects, Bool.and_eq_true, Bool.and_eq_true, ownerMatches_iff, notBefore_iff, notAfter_iff]
  constructor
  · rintro ⟨⟨owner, start⟩, finish⟩
    exact ⟨owner, start, finish⟩
  · rintro ⟨owner, start, finish⟩
    exact ⟨⟨owner, start⟩, finish⟩

instance (query : Query) (record : R) : Decidable (query.Asks record) :=
  decidable_of_iff _ (query.selects_iff record)

theorem selects_eq_decide (query : Query) (record : R) :
    query.selects record = decide (query.Asks record) := by
  rw [Bool.eq_iff_iff, decide_eq_true_iff, selects_iff]

/-! ## The order and the cap of a query -/

/-- The record comes before the other one in the query's list: the later one where only an
end is given, else the earlier one. Records of one time go by the bytes of their keys, in
the same direction. -/
def Leads (query : Query) (left right : R) : Prop :=
  if query.start.isNone ∧ query.finish.isSome then Precedes right left
  else Precedes left right

theorem direction_eq (query : Query) :
    query.direction =
      if query.start.isNone ∧ query.finish.isSome then .descending else .ascending := by
  unfold direction
  cases query.start with
  | none =>
      cases query.finish with
      | none => rfl
      | some finish => rfl
  | some start => rfl

theorem before_iff_not_leads (query : Query) (left right : R) :
    query.direction.before left right = true ↔ ¬ query.Leads right left := by
  rw [direction_eq, Leads]
  split
  · exact inOrder_iff_not_precedes right left
  · exact inOrder_iff_not_precedes left right

theorem effectiveLimit_eq (query : Query) :
    query.effectiveLimit =
      if query.start.isSome ≠ query.finish.isSome then query.limit else none := by
  unfold effectiveLimit
  cases query.start with
  | none =>
      cases query.finish with
      | none => rfl
      | some finish => rfl
  | some start =>
      cases query.finish with
      | none => rfl
      | some finish => rfl

omit [Record R] in
/-- A cap cuts the records off behind the first ones. -/
theorem exists_cap_append (query : Query) (records : List R) :
    ∃ left, query.cap records ++ left = records := by
  unfold cap
  cases query.effectiveLimit with
  | none => exact ⟨[], List.append_nil records⟩
  | some limit => exact ⟨records.drop limit, List.take_append_drop limit records⟩

omit [Record R] in
theorem length_cap (query : Query) (records : List R) :
    (query.cap records).length =
      query.effectiveLimit.elim records.length fun limit => min limit records.length := by
  unfold cap
  cases query.effectiveLimit with
  | none => rfl
  | some limit => exact List.length_take

/-! ## The list -/

/-- A query lists, with those that a cap leaves out, exactly the records that it asks for,
as many times as they are there. No record is listed before one that leads it. The cap
counts exactly where one bound is given and the other is not, and a record that it leaves
out leads none that is listed: with only an end no such record is closer to the end than a
listed one, and with only a start none is closer to the start. -/
theorem apply_lists_first_asked (query : Query) (records : List R) :
    let listed := query.apply records
    let asked := records.filter fun record => query.Asks record
    listed.Pairwise (fun earlier later => ¬ query.Leads later earlier) ∧
    listed.length =
      (if query.start.isSome ≠ query.finish.isSome then query.limit else none).elim
        asked.length (fun limit => min limit asked.length) ∧
    ∃ left : List R,
      (listed ++ left).Perm asked ∧
      ∀ kept ∈ listed, ∀ other ∈ left,
        ¬ query.Leads other kept ∧
        (query.start = none → query.finish.isSome →
          (Record.timestamp other).moment ≤ (Record.timestamp kept).moment) ∧
        (query.start.isSome → query.finish = none →
          (Record.timestamp kept).moment ≤ (Record.timestamp other).moment) := by
  intro listed asked
  have asks : records.filter query.selects = asked :=
    List.filter_congr fun record _ => query.selects_eq_decide record
  have sorted : (query.sort asked).Pairwise fun earlier later => ¬ query.Leads later earlier :=
    (query.pairwise_sort asked).imp (query.before_iff_not_leads _ _).mp
  have capped : listed = query.cap (query.sort asked) := by
    rw [← asks]
    rfl
  obtain ⟨left, whole⟩ := query.exists_cap_append (query.sort asked)
  rw [← capped] at whole
  rw [← whole] at sorted
  obtain ⟨ordered, -, apart⟩ := List.pairwise_append.mp sorted
  refine ⟨ordered, ?_, left, ?_, ?_⟩
  · rw [capped, length_cap, effectiveLimit_eq, (query.sort_perm asked).length_eq]
  · rw [whole]
    exact query.sort_perm asked
  · intro kept isKept other isLeft
    have behind := apart kept isKept other isLeft
    refine ⟨behind, ?_, ?_⟩
    · intro noStart someFinish
      rw [Leads, if_pos ⟨by simp [noStart], someFinish⟩] at behind
      exact Int.not_lt.mp fun later => behind (Or.inl later)
    · intro someStart noFinish
      rw [Leads, if_neg (by simp [noFinish])] at behind
      exact Int.not_lt.mp fun later => behind (Or.inl later)

end RoomLedger.Query
