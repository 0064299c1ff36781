import RoomLedger.Store.Memory
import RoomLedger.Store.Plan

/-!
Contract: operations that read one blob and then write it at the mark they read.

Owns:
- what reads and writes of a key answer in memory, and what a write leaves behind;
- `Plan.IsTransaction`, one read of a key and then at most one write of it, at the
  mark that was read;
- `Plan.runAll`, operations of which each has the store for itself.

Does not own: operations whose calls mix.
-/

namespace RoomLedger.Store

open RoomLedger.Text (Bytes)

/-- A refusal tells of a wrong expectation exactly if there was one. -/
theorem isPrecondition_of_nextMark {key : String} {current expected : Generation} {error : Error}
    (refused : nextMark key current expected = .error error) :
    error.isPrecondition = true ↔ current ≠ expected := by
  unfold nextMark at refused
  by_cases same : current = expected
  · subst same
    have clear : (current.isAbsent && !current.isAbsent) = false := by
      cases current.isAbsent <;> rfl
    rw [clear] at refused
    cases following : current.next? with
    | none =>
        simp only [Bool.false_eq_true, if_false, ne_eq, not_true_eq_false, following] at refused
        cases refused
        simp [Error.isPrecondition]
    | some mark =>
        simp only [Bool.false_eq_true, if_false, ne_eq, not_true_eq_false, following] at refused
        cases refused
  · split at refused
    · cases refused
      simp [Error.isPrecondition, same]
    · cases refused
      simp [Error.isPrecondition, same]

/-- The present mark is refused exactly if no mark follows it. -/
theorem nextMark_eq_exhausted_iff {key : String} {current expected : Generation} :
    nextMark key current expected = .error (.corrupt key .exhausted) ↔
      expected = current ∧ current.number = UInt64.size - 1 := by
  by_cases same : current = expected
  · subst same
    have clear : (current.isAbsent && !current.isAbsent) = false := by
      cases current.isAbsent <;> rfl
    rw [← Generation.next?_eq_none_iff]
    unfold nextMark
    rw [clear]
    cases following : current.next? with
    | none => simp
    | some mark => simp
  · have apart : expected ≠ current := Ne.symm same
    unfold nextMark
    simp only [apart, false_and, iff_false]
    split
    · simp
    · simp

/-- A mark before the last one has one that follows it. -/
theorem Generation.exists_next? {generation : Generation}
    (room : generation.number + 1 < UInt64.size) :
    ∃ following, generation.next? = some following :=
  ⟨_, if_pos room⟩

namespace MemoryStore

/-- The store after a write that was taken. -/
def after (key : String) (blob : Blob) (store : MemoryStore) : MemoryStore where
  blobs := store.blobs.put key blob
  writeCount := store.writeCount + 1

theorem version_after (key other : String) (blob : Blob) (store : MemoryStore) :
    (store.after key blob).version other =
      if other = key then blob.version else store.version other := by
  unfold version after
  rw [Index.find?_put]
  by_cases same : other = key
  · simp only [same, if_true]
  · simp only [same, if_false]

@[simp] theorem version_after_self (key : String) (blob : Blob) (store : MemoryStore) :
    (store.after key blob).version key = blob.version := by
  rw [version_after, if_pos rfl]

variable {key : String}

theorem read_of_isKey (isKey : Store.isKey key = true) (store : MemoryStore) :
    BlobStore.read store key = .ok (store.version key) := by
  have checked : checkKey key = .ok () := isKey_iff.mp isKey
  simp only [BlobStore.read, read, checked]

/-- A write of a key is taken at the present mark, or it is refused and changes
nothing. -/
theorem write_cases (isKey : Store.isKey key = true) (store : MemoryStore) (contentType : String)
    (content : Bytes) (expected : Generation) :
    (∃ following,
      (store.version key).generation = expected ∧
      expected.next? = some following ∧
      BlobStore.write store key contentType content expected =
        (.ok following, store.after key ⟨content, contentType, following⟩)) ∨
    (∃ error,
      BlobStore.write store key contentType content expected = (.error error, store) ∧
      (error.isPrecondition = true ↔ (store.version key).generation ≠ expected)) := by
  have checked : checkKey key = .ok () := isKey_iff.mp isKey
  cases mark : nextMark key (store.version key).generation expected with
  | error error =>
      right
      refine ⟨error, ?_, isPrecondition_of_nextMark mark⟩
      simp only [BlobStore.write, write, checked, mark]
  | ok following =>
      left
      obtain ⟨same, next⟩ := nextMark_eq_ok_iff.mp mark
      refine ⟨following, same.symm, ?_, ?_⟩
      · rw [same]
        exact next
      · simp only [BlobStore.write, write, checked, mark, after]

/-- A write at the present mark is taken if another mark follows. -/
theorem write_of_next? {store : MemoryStore} {following : Generation}
    (isKey : Store.isKey key = true) (next : (store.version key).generation.next? = some following)
    (contentType : String) (content : Bytes) :
    BlobStore.write store key contentType content (store.version key).generation =
      (.ok following, store.after key ⟨content, contentType, following⟩) := by
  have checked : checkKey key = .ok () := isKey_iff.mp isKey
  have mark : nextMark key (store.version key).generation (store.version key).generation =
      .ok following :=
    nextMark_eq_ok_iff.mpr ⟨rfl, next⟩
  simp only [BlobStore.write, write, checked, mark, after]

/-- Behind the last mark no write is taken. -/
theorem write_of_exhausted {store : MemoryStore} (isKey : Store.isKey key = true)
    (isLast : (store.version key).generation.next? = none) (contentType : String)
    (content : Bytes) :
    BlobStore.write store key contentType content (store.version key).generation =
      (.error (.corrupt key .exhausted), store) := by
  have checked : checkKey key = .ok () := isKey_iff.mp isKey
  have number := (Generation.next?_eq_none_iff _).mp isLast
  have mark : nextMark key (store.version key).generation (store.version key).generation =
      .error (.corrupt key .exhausted) :=
    nextMark_eq_exhausted_iff.mpr ⟨rfl, number⟩
  simp only [BlobStore.write, write, checked, mark]

/-- A write changes no other key. -/
theorem read_write_of_ne {other : String} (apart : other ≠ key) (store : MemoryStore)
    (contentType : String) (content : Bytes) (expected : Generation) :
    BlobStore.read (BlobStore.write store key contentType content expected).2 other =
      BlobStore.read store other := by
  cases checked : checkKey key with
  | error fault => simp only [BlobStore.write, write, checked]
  | ok passed =>
      rcases write_cases (isKey_iff.mpr checked) store contentType content expected with
        ⟨following, -, -, taken⟩ | ⟨error, refused, -⟩
      · rw [taken]
        simp only [BlobStore.read, read, version_after, if_neg apart]
      · rw [refused]

end MemoryStore

namespace Plan

variable {α : Type}

/-- An operation that has read a mark: it is done, or the one call that is left
is a write at that mark. It tells a conflict exactly where the mark was not the
present one. -/
inductive Commits (key : String) (isConflict : α → Prop) (generation : Generation) : Plan α → Prop
  | done (result : α) : Commits key isConflict generation (.done result)
  | write (contentType : String) (content : Bytes) (settle : Except Error Generation → α)
      (tells : ∀ answer,
        isConflict (settle answer) ↔
          ∃ error, answer = .error error ∧ error.isPrecondition = true) :
      Commits key isConflict generation
        (.write key contentType content generation fun answer => .done (settle answer))

/-- An operation that is done without a call, or reads a key and commits to the
mark that it read. -/
inductive IsTransaction (key : String) (isConflict : α → Prop) : Plan α → Prop
  | done (result : α) : IsTransaction key isConflict (.done result)
  | read (next : Except Error Version → Plan α)
      (commits : ∀ version, Commits key isConflict version.generation (next (.ok version))) :
      IsTransaction key isConflict (.read key next)

section Mapped

variable {β : Type} {key : String} {isConflict : α → Prop} {isMappedConflict : β → Prop}
  {plan : Plan α} {change : α → β}

private theorem Commits.map {generation : Generation}
    (tells : ∀ result, isMappedConflict (change result) ↔ isConflict result)
    (commits : plan.Commits key isConflict generation) :
    (plan.bind fun result => .done (change result)).Commits key isMappedConflict generation := by
  cases commits with
  | done result => exact .done (change result)
  | write contentType content settle tellsConflict =>
      exact .write contentType content (fun answer => change (settle answer)) fun answer =>
        (tells _).trans (tellsConflict answer)

/-- A transaction whose result is passed on is a transaction. -/
theorem IsTransaction.map (tells : ∀ result, isMappedConflict (change result) ↔ isConflict result)
    (isTransaction : plan.IsTransaction key isConflict) :
    (plan.bind fun result => .done (change result)).IsTransaction key isMappedConflict := by
  cases isTransaction with
  | done result => exact .done (change result)
  | read next commits => exact .read _ fun version => (commits version).map tells

end Mapped

variable {S : Type} [BlobStore S]

/-- What operations return that have the store for themselves one after another,
and what they leave behind. -/
def runAll : List (Plan α) → S → List α × S
  | [], store => ([], store)
  | plan :: others, store =>
      let (result, between) := plan.run store
      let (results, last) := runAll others between
      (result :: results, last)

theorem length_runAll (plans : List (Plan α)) (store : S) :
    (runAll plans store).1.length = plans.length := by
  induction plans generalizing store with
  | nil => rfl
  | cons plan others inductionHypothesis =>
      simp only [runAll, List.length_cons, inductionHypothesis]

theorem runAll_append (first second : List (Plan α)) (store : S) :
    runAll (first ++ second) store =
      ((runAll first store).1 ++ (runAll second (runAll first store).2).1,
        (runAll second (runAll first store).2).2) := by
  induction first generalizing store with
  | nil => rfl
  | cons plan others inductionHypothesis =>
      simp only [List.cons_append, runAll, inductionHypothesis]

/-- One more operation finds what the others leave behind. -/
theorem runAll_concat {plans : List (Plan α)} {plan : Plan α} {store between last : S}
    {results : List α} {result : α} (before : runAll plans store = (results, between))
    (next : plan.run between = (result, last)) :
    runAll (plans ++ [plan]) store = (results ++ [result], last) := by
  rw [runAll_append, before]
  simp only [runAll, next]

end Plan

end RoomLedger.Store
