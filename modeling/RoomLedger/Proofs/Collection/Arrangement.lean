import RoomLedger.Proofs.Collection.Selection

/-!
Contract: a list of records is determined by its order, and filtering commutes with it.

Owns:
- `Tied`, by which two records have the same time and the same key;
- `IsArranged`, by which a list holds given records in an order, and tied ones as they are
  stored;
- `Query.isArranged_sort`, by which the order of a query arranges records;
- `IsArranged.filter` and `IsArranged.unique`, by which a part of an arranged list is the
  arranged part, and there is no other list of it;
- `Query.filter_apply`, by which the records that are kept from an uncapped list are the list
  of those that are kept;
- `Query.isArranged_iff_eq_apply_all`, by which the list of all records is the only one that is
  arranged by time and key;
- `Query.apply_of_owner`, by which a query for an owner lists the records of this owner.

Keys may occur more than once, so neither the order alone nor the records alone determine a
list: where two records are tied, the one that is stored first stays first.

Does not own: lists with a cap.
-/

namespace RoomLedger

variable {R : Type} [Record R]

/-! ## Ties -/

/-- The records have the same time and the same key, so no order sets them apart. -/
def Tied (left right : R) : Prop :=
  (Record.timestamp left).moment = (Record.timestamp right).moment ∧
    Record.key left = Record.key right

instance (left right : R) : Decidable (Tied left right) :=
  inferInstanceAs (Decidable (_ ∧ _))

private theorem inOrder_of_tied {left right : R} (tied : Tied left right) :
    inOrder left right = true :=
  (inOrder_iff left right).mpr (.inr ⟨tied.1, tied.2 ▸ String.le_refl _⟩)

private theorem tied_of_inOrder {left right : R} (forth : inOrder left right = true)
    (back : inOrder right left = true) :
    Tied left right := by
  refine ⟨?_, key_eq_of_inOrder forth back⟩
  rw [inOrder_iff] at forth back
  omega

private theorem Direction.before_of_tied {direction : Direction} {left right : R}
    (tied : Tied left right) :
    direction.before left right = true := by
  cases direction with
  | ascending => exact inOrder_of_tied tied
  | descending => exact inOrder_of_tied ⟨tied.1.symm, tied.2.symm⟩

private theorem Direction.tied_of_before {direction : Direction} {left right : R}
    (forth : direction.before left right = true) (back : direction.before right left = true) :
    Tied left right := by
  cases direction with
  | ascending => exact tied_of_inOrder forth back
  | descending => exact tied_of_inOrder back forth

/-! ## Arranged lists -/

/-- The list holds the records, each as often as it is stored. None of them is listed before
one that leads it, and tied ones are listed in the order in which they are stored. -/
structure IsArranged (leads : R → R → Prop) (records listed : List R) : Prop where
  perm : listed.Perm records
  ordered : listed.Pairwise fun earlier later => ¬ leads later earlier
  tied : ∀ record, listed.filter (fun other => Tied record other) =
    records.filter fun other => Tied record other

/-- Two lists in the same order with the same tied records are the same. -/
theorem eq_of_perm_of_tied {leads : R → R → Prop}
    (settles : ∀ left right, ¬ leads left right → ¬ leads right left → Tied left right)
    {first second : List R} (same : first.Perm second)
    (firstOrdered : first.Pairwise fun earlier later => ¬ leads later earlier)
    (secondOrdered : second.Pairwise fun earlier later => ¬ leads later earlier)
    (tied : ∀ record, first.filter (fun other => Tied record other) =
      second.filter fun other => Tied record other) :
    first = second := by
  induction first generalizing second with
  | nil => exact same.nil_eq
  | cons left front inductionHypothesis =>
      cases second with
      | nil => exact same.eq_nil
      | cons right behind =>
          obtain ⟨leftFirst, frontOrdered⟩ := List.pairwise_cons.mp firstOrdered
          obtain ⟨rightFirst, behindOrdered⟩ := List.pairwise_cons.mp secondOrdered
          -- Both heads are listed before the other one, so they are tied if they differ.
          have isHead : left = right := by
            by_contra apart
            have leftBehind : left ∈ behind :=
              (List.mem_cons.mp (same.mem_iff.mp List.mem_cons_self)).resolve_left apart
            have rightInFront : right ∈ front :=
              (List.mem_cons.mp (same.mem_iff.mpr List.mem_cons_self)).resolve_left
                fun equal => apart equal.symm
            have leftRight : Tied left right :=
              settles left right (rightFirst left leftBehind) (leftFirst right rightInFront)
            have self : Tied left left := ⟨rfl, rfl⟩
            have ofLeft := tied left
            simp only [List.filter_cons, self, leftRight, decide_true, if_true] at ofLeft
            exact apart (List.cons.inj ofLeft).1
          subst isHead
          have tiedBehind : ∀ record, front.filter (fun other => Tied record other) =
              behind.filter fun other => Tied record other := by
            intro record
            have ofRecord := tied record
            simp only [List.filter_cons] at ofRecord
            split at ofRecord
            · exact (List.cons.inj ofRecord).2
            · exact ofRecord
          rw [inductionHypothesis same.cons_inv frontOrdered behindOrdered tiedBehind]

namespace IsArranged

variable {leads : R → R → Prop} {records listed : List R}

/-- The records that are kept from an arranged list are those that are kept, arranged. -/
theorem filter (arranged : IsArranged leads records listed) (keeps : R → Bool) :
    IsArranged leads (records.filter keeps) (listed.filter keeps) where
  perm := arranged.perm.filter keeps
  ordered := arranged.ordered.filter keeps
  tied record := by
    rw [List.filter_comm, arranged.tied record, List.filter_comm]

/-- Records are arranged in one way only. -/
theorem unique {other : List R}
    (settles : ∀ left right, ¬ leads left right → ¬ leads right left → Tied left right)
    (arranged : IsArranged leads records listed) (arrangedToo : IsArranged leads records other) :
    listed = other :=
  eq_of_perm_of_tied settles (arranged.perm.trans arrangedToo.perm.symm) arranged.ordered
    arrangedToo.ordered fun record => (arranged.tied record).trans (arrangedToo.tied record).symm

end IsArranged

/-! ## The lists of queries -/

namespace Query

private theorem tied_of_not_leads (query : Query) (left right : R)
    (notForth : ¬ query.Leads left right) (notBack : ¬ query.Leads right left) :
    Tied left right :=
  Direction.tied_of_before ((query.before_iff_not_leads left right).mpr notBack)
    ((query.before_iff_not_leads right left).mpr notForth)

/-- Sorting leaves tied records in the order in which they are stored. -/
theorem filter_tied_sort (query : Query) (records : List R) (record : R) :
    (query.sort records).filter (fun other => Tied record other) =
      records.filter fun other => Tied record other := by
  let tied := records.filter fun other => Tied record other
  have isTied : ∀ other ∈ tied, Tied record other :=
    fun other member => of_decide_eq_true (List.mem_filter.mp member).2
  have sorted : tied.Pairwise fun earlier later => query.direction.before earlier later = true := by
    refine List.pairwise_of_forall_mem_list fun earlier isEarlier later isLater => ?_
    obtain ⟨sameMoment, sameKey⟩ := isTied earlier isEarlier
    obtain ⟨sameMomentLater, sameKeyLater⟩ := isTied later isLater
    exact Direction.before_of_tied ⟨sameMoment.symm.trans sameMomentLater,
      sameKey.symm.trans sameKeyLater⟩
  have stays : tied.Sublist (query.sort records) := by
    apply List.sublist_mergeSort
    · intro first second third
      exact Direction.before_trans
    · intro left right
      rw [Bool.or_eq_true]
      exact Direction.before_total query.direction left right
    · exact sorted
    · exact List.filter_sublist
  have kept : tied.filter (fun other => Tied record other) = tied :=
    List.filter_eq_self.mpr fun other member => (List.mem_filter.mp member).2
  have inside := stays.filter fun other => Tied record other
  rw [kept] at inside
  exact (inside.eq_of_length ((query.sort_perm records).filter _).length_eq.symm).symm

theorem isArranged_sort (query : Query) (records : List R) :
    IsArranged query.Leads records (query.sort records) where
  perm := query.sort_perm records
  ordered := (query.pairwise_sort records).imp (query.before_iff_not_leads _ _).mp
  tied := query.filter_tied_sort records

/-- The records that are kept from the sorted ones are those that are kept, sorted. -/
theorem filter_sort (query : Query) (records : List R) (keeps : R → Bool) :
    (query.sort records).filter keeps = query.sort (records.filter keeps) :=
  ((query.isArranged_sort records).filter keeps).unique query.tied_of_not_leads
    (query.isArranged_sort (records.filter keeps))

/-- Where a query has no cap, the records that are kept from its list are the list of those
that are kept. -/
theorem filter_apply {query : Query} (uncapped : query.effectiveLimit = none) (records : List R)
    (keeps : R → Bool) :
    (query.apply records).filter keeps = query.apply (records.filter keeps) := by
  rw [apply_of_uncapped uncapped, apply_of_uncapped uncapped, filter_sort, List.filter_comm]

/-- Records are arranged by time, and by key where times are the same, in the list of all and
in no other one. -/
theorem isArranged_iff_eq_apply_all {records listed : List R} :
    IsArranged Precedes records listed ↔ listed = Query.all.apply records := by
  have order : Query.all.Leads (R := R) = Precedes := by
    funext left right
    exact if_neg (by decide)
  rw [apply_all, ← order]
  constructor
  · intro arranged
    exact arranged.unique Query.all.tied_of_not_leads (Query.all.isArranged_sort records)
  · rintro rfl
    exact Query.all.isArranged_sort records

/-- A query for an owner, or for any, lists the records of this owner. -/
theorem apply_of_owner (creatorId : Option String) (records : List R) :
    ({ creatorId } : Query).apply records =
      Query.all.apply (records.filter fun record =>
        decide (∀ name ∈ creatorId, Record.owner record = name)) := by
  have selected : ∀ record ∈ records, ({ creatorId } : Query).selects record =
      decide (∀ name ∈ creatorId, Record.owner record = name) := by
    intro record member
    rw [selects_eq_decide]
    apply decide_eq_decide.mpr
    constructor
    · intro asks
      exact asks.owner
    · intro owner
      exact ⟨owner, by simp, by simp⟩
  rw [apply_of_uncapped rfl, apply_all, List.filter_congr selected]
  rfl

end Query

end RoomLedger
