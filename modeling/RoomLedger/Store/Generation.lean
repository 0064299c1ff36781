/-!
Contract: the version marks of stored blobs.

Owns:
- `Generation`, a number of sixty-four bits;
- `Generation.absent`, the mark of a blob that does not exist;
- `Generation.next?`, which has no answer once the numbers are used up;
- the two texts of a mark.

Does not own: which blob a mark belongs to.
-/

namespace RoomLedger.Store

/-- The version mark of a blob. -/
structure Generation where
  value : UInt64
deriving DecidableEq, Repr

namespace Generation

/-- The mark of a blob that does not exist. -/
def absent : Generation := ⟨0⟩

def ofNat (number : Nat) : Generation := ⟨UInt64.ofNat number⟩

def number (generation : Generation) : Nat := generation.value.toNat

/-- The mark is the one of a blob that does not exist. -/
def isAbsent (generation : Generation) : Bool := generation.value == 0

/-- The mark that follows, unless this is the last one. -/
def next? (generation : Generation) : Option Generation :=
  if generation.number + 1 < UInt64.size then some ⟨generation.value + 1⟩ else none

def display (generation : Generation) : String :=
  s!"g{generation.number}"

def describe (generation : Generation) : String :=
  s!"Generation({generation.number})"

theorem number_lt (generation : Generation) : generation.number < UInt64.size :=
  generation.value.toNat_lt

theorem eq_of_number {left right : Generation} (same : left.number = right.number) :
    left = right := by
  cases left
  cases right
  simpa [number, UInt64.toNat_inj] using same

@[simp] theorem number_absent : absent.number = 0 := rfl

@[simp] theorem isAbsent_iff (generation : Generation) :
    generation.isAbsent = true ↔ generation = absent := by
  cases generation
  simp [isAbsent, absent]

/-- The mark that follows has the next number. -/
theorem number_of_next? {generation following : Generation}
    (found : generation.next? = some following) :
    following.number = generation.number + 1 := by
  unfold next? at found
  split at found
  · rename_i small
    cases found
    simp only [number, UInt64.toNat_add] at small ⊢
    have one : (1 : UInt64).toNat = 1 := rfl
    rw [one]
    exact Nat.mod_eq_of_lt small
  · cases found

/-- A mark has one that follows it unless its number is the last one. -/
theorem next?_eq_none_iff (generation : Generation) :
    generation.next? = none ↔ generation.number = UInt64.size - 1 := by
  have small := generation.number_lt
  have size : UInt64.size = 18446744073709551616 := rfl
  unfold next?
  split <;> simp <;> omega

/-- What follows a mark is no mark of absence. -/
theorem ne_absent_of_next? {generation following : Generation}
    (found : generation.next? = some following) :
    following ≠ absent := by
  intro same
  have number := number_of_next? found
  rw [same, number_absent] at number
  omega

end Generation

end RoomLedger.Store
