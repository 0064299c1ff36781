import Mathlib.Data.List.Nodup
import Mathlib.Data.List.Perm.Basic
import RoomLedger.Collection.Query
import RoomLedger.Proofs.Text.ByteOrder

/-!
Contract: the order in which records are listed.

Owns:
- `Precedes`, by which one record lies before another: it is earlier, or the bytes of its
  key come first where the times are the same;
- `inOrder_iff_not_precedes`, by which the ascending order is that one;
- the laws of the order in both directions, and `Direction.eq_of_before`, by which records
  with distinct keys are never tied;
- `Query.pairwise_sort`, by which sorted records are in this order, and
  `Query.sort_eq_of_pairwise`, by which no other list of them is;
- `Query.apply_eq_of_perm` and `Query.apply_perm`, by which the list of a query does not
  depend on how records are stored, and holds all that it selects where it has no cap;
- `Query.apply_of_uncapped` and `Query.apply_all`, by which such a list is sorted whole.

Does not own: which records are listed.
-/

namespace RoomLedger

variable {R : Type} [Record R]

/-! ## The ascending order -/

/-- A record is earlier than another one, or it is of the same time and the bytes of its
key come first. -/
def Precedes (left right : R) : Prop :=
  (Record.timestamp left).moment < (Record.timestamp right).moment ∨
    (Record.timestamp left).moment = (Record.timestamp right).moment ∧
      Text.bytes (Record.key left) < Text.bytes (Record.key right)

theorem inOrder_iff (left right : R) :
    inOrder left right = true ↔
      (Record.timestamp left).moment < (Record.timestamp right).moment ∨
        (Record.timestamp left).moment = (Record.timestamp right).moment ∧
          Record.key left ≤ Record.key right := by
  simp [inOrder]

theorem inOrder_iff_not_precedes (left right : R) :
    inOrder left right = true ↔ ¬ Precedes right left := by
  rw [inOrder_iff, Precedes, Text.bytes_lt_iff, ← String.not_lt]
  by_cases behind : Record.key right < Record.key left
  · simp only [behind, not_true_eq_false, and_false, or_false, and_true]
    omega
  · simp only [behind, not_false_eq_true, and_true, and_false, or_false]
    omega

private theorem inOrder_trans {first second third : R} (earlier : inOrder first second = true)
    (later : inOrder second third = true) :
    inOrder first third = true := by
  rw [inOrder_iff] at earlier later ⊢
  rcases earlier with before | ⟨same, keys⟩
  · left
    omega
  · rcases later with before | ⟨sameLater, keysLater⟩
    · left
      omega
    · exact Or.inr ⟨same.trans sameLater, String.le_trans keys keysLater⟩

private theorem inOrder_total (left right : R) :
    inOrder left right = true ∨ inOrder right left = true := by
  rw [inOrder_iff, inOrder_iff]
  rcases Int.lt_trichotomy (Record.timestamp left).moment (Record.timestamp right).moment with
    before | same | behind
  · exact Or.inl (Or.inl before)
  · rcases String.le_total (Record.key left) (Record.key right) with keys | keys
    · exact Or.inl (Or.inr ⟨same, keys⟩)
    · exact Or.inr (Or.inr ⟨same.symm, keys⟩)
  · exact Or.inr (Or.inl behind)

/-- Records that are in order both ways have the same key. -/
theorem key_eq_of_inOrder {left right : R} (forth : inOrder left right = true)
    (back : inOrder right left = true) :
    Record.key left = Record.key right := by
  rw [inOrder_iff] at forth back
  rcases forth with before | ⟨same, keys⟩
  · rcases back with behind | ⟨same, -⟩
    · omega
    · omega
  · rcases back with behind | ⟨-, keysBack⟩
    · omega
    · exact String.le_antisymm keys keysBack

/-! ## Both directions -/

namespace Direction

theorem before_trans {direction : Direction} {first second third : R}
    (earlier : direction.before first second = true)
    (later : direction.before second third = true) :
    direction.before first third = true := by
  cases direction with
  | ascending => exact inOrder_trans earlier later
  | descending => exact inOrder_trans later earlier

theorem before_total (direction : Direction) (left right : R) :
    direction.before left right = true ∨ direction.before right left = true := by
  cases direction with
  | ascending => exact inOrder_total left right
  | descending => exact inOrder_total right left

private theorem key_eq_of_before {direction : Direction} {left right : R}
    (forth : direction.before left right = true) (back : direction.before right left = true) :
    Record.key left = Record.key right := by
  cases direction with
  | ascending => exact key_eq_of_inOrder forth back
  | descending => exact key_eq_of_inOrder back forth

/-- Among records with distinct keys no two are tied. -/
theorem eq_of_before {direction : Direction} {records : List R} {left right : R}
    (distinct : (records.map Record.key).Nodup) (leftMember : left ∈ records)
    (rightMember : right ∈ records) (forth : direction.before left right = true)
    (back : direction.before right left = true) :
    left = right :=
  List.inj_on_of_nodup_map distinct leftMember rightMember (key_eq_of_before forth back)

/-- Records with distinct keys have only one arrangement in which each is before all that
follow it. -/
theorem eq_of_perm_of_pairwise {direction : Direction} {first second : List R}
    (same : first.Perm second) (distinct : (first.map Record.key).Nodup)
    (firstSorted : first.Pairwise fun earlier later => direction.before earlier later = true)
    (secondSorted : second.Pairwise fun earlier later => direction.before earlier later = true) :
    first = second := by
  refine List.Perm.eq_of_pairwise ?_ firstSorted secondSorted same
  intro left right leftMember rightMember
  exact eq_of_before distinct leftMember (same.mem_iff.mpr rightMember)

end Direction

/-! ## Sorted records -/

namespace Query

theorem sort_perm (query : Query) (records : List R) : (query.sort records).Perm records :=
  List.mergeSort_perm records _

/-- Each record is before all that follow it. -/
theorem pairwise_sort (query : Query) (records : List R) :
    (query.sort records).Pairwise fun earlier later =>
      query.direction.before earlier later = true := by
  apply List.pairwise_mergeSort
  · intro first second third
    exact Direction.before_trans
  · intro left right
    rw [Bool.or_eq_true]
    exact Direction.before_total query.direction left right

/-- Records with distinct keys have one order. -/
theorem sort_eq_of_pairwise (query : Query) {records ordered : List R} (same : records.Perm ordered)
    (distinct : (records.map Record.key).Nodup)
    (inOrder : ordered.Pairwise fun earlier later =>
      query.direction.before earlier later = true) :
    query.sort records = ordered := by
  apply Direction.eq_of_perm_of_pairwise ((query.sort_perm records).trans same)
  · exact ((query.sort_perm records).map Record.key).nodup_iff.mpr distinct
  · exact query.pairwise_sort records
  · exact inOrder

/-- Where keys are distinct, the sorted records do not depend on how they were stored. -/
theorem sort_eq_of_perm (query : Query) {records others : List R} (same : records.Perm others)
    (distinct : (records.map Record.key).Nodup) :
    query.sort records = query.sort others :=
  query.sort_eq_of_pairwise (same.trans (query.sort_perm others).symm) distinct
    (query.pairwise_sort others)

/-- Nor does the list of a query. -/
theorem apply_eq_of_perm (query : Query) {records others : List R} (same : records.Perm others)
    (distinct : (records.map Record.key).Nodup) :
    query.apply records = query.apply others := by
  have selected : (records.filter query.selects).Perm (others.filter query.selects) :=
    same.filter query.selects
  have distinctSelected : ((records.filter query.selects).map Record.key).Nodup :=
    distinct.sublist (List.filter_sublist.map Record.key)
  rw [apply, apply, query.sort_eq_of_perm selected distinctSelected]

theorem apply_of_uncapped {query : Query} (uncapped : query.effectiveLimit = none)
    (records : List R) :
    query.apply records = query.sort (records.filter query.selects) := by
  rw [apply, cap, uncapped]

/-- Where a query has no cap, its list is all that it selects. -/
theorem apply_perm (query : Query) (uncapped : query.effectiveLimit = none) (records : List R) :
    (query.apply records).Perm (records.filter query.selects) := by
  rw [apply_of_uncapped uncapped]
  exact query.sort_perm (records.filter query.selects)

theorem apply_all (records : List R) : Query.all.apply records = Query.all.sort records := by
  have whole : records.filter Query.all.selects = records :=
    List.filter_eq_self.mpr fun _ _ => rfl
  rw [apply_of_uncapped rfl, whole]

end Query

end RoomLedger
