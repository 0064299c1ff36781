import Mathlib
import RoomLedger.Proofs.Store.Transaction

/-!
Contract: the marks of a store in memory count its writes.

Owns:
- `Put`, a write with its arguments, and runs of them from the empty store;
- `Put.IsDecided`, what becomes of a write by the mark of its key;
- `IsCounted`, the invariant of every run: each mark is the number of the writes of
  its key that were taken, and each of these named the number before it;
- `Tallies`, how reads, keys, marks and the counter of writes then agree;
- `writes_are_tallied`, both for every run.

Does not own: collections, and operations whose calls mix.
-/

namespace RoomLedger.Store

open RoomLedger.Text (Bytes)

/-! ## What decides a write -/

private theorem Generation.isAbsent_eq_decide (generation : Generation) :
    generation.isAbsent = decide (generation.number = 0) := by
  rw [Bool.eq_iff_iff, Generation.isAbsent_iff, decide_eq_true_eq]
  constructor
  · rintro rfl
    rfl
  · intro zero
    exact Generation.eq_of_number zero

section Marks

variable {key : String} {current expected : Generation}

/-- A blob is in the way exactly of a writer who expects none. -/
theorem nextMark_eq_alreadyExists_iff :
    nextMark key current expected = .error (.alreadyExists key) ↔
      expected.number = 0 ∧ 0 < current.number := by
  unfold nextMark
  simp only [Generation.isAbsent_eq_decide]
  split
  case isTrue occupied => simpa [Nat.pos_iff_ne_zero] using occupied
  case isFalse clear =>
    have apart : ¬ (expected.number = 0 ∧ 0 < current.number) := by
      simpa [Nat.pos_iff_ne_zero] using clear
    simp only [apart, iff_false]
    split
    · simp
    · split <;> simp

/-- Any other mark than the present one is refused with both marks. -/
theorem nextMark_eq_generationMismatch_iff :
    nextMark key current expected = .error (.generationMismatch key expected current) ↔
      0 < expected.number ∧ expected ≠ current := by
  unfold nextMark
  simp only [Generation.isAbsent_eq_decide]
  split
  case isTrue occupied =>
    have zero : expected.number = 0 := by
      simp only [Bool.and_eq_true, decide_eq_true_eq] at occupied
      exact occupied.1
    simp [zero]
  case isFalse clear =>
    by_cases same : current = expected
    · subst same
      simp only [ne_eq, not_true_eq_false, if_false, and_false, iff_false]
      split <;> simp
    · have positive : 0 < expected.number := by
        apply Nat.pos_of_ne_zero
        intro zero
        apply same
        apply Generation.eq_of_number
        simpa [zero] using clear
      simp [same, Ne.symm same, positive]

end Marks

/-! ## Runs of writes -/

/-- A write with its arguments. -/
structure Put where
  key : String
  contentType : String
  content : Bytes
  expected : Generation
deriving DecidableEq, Repr

/-- What a write returns, and the store after it. -/
def Put.run (put : Put) (store : MemoryStore) : Except Error Generation × MemoryStore :=
  BlobStore.write store put.key put.contentType put.content put.expected

namespace MemoryStore

/-- The store after writes that come one after another. -/
def afterPuts : List Put → MemoryStore → MemoryStore
  | [], store => store
  | put :: puts, store => afterPuts puts (put.run store).2

/-- Those of the writes that are taken. -/
def takenPuts : List Put → MemoryStore → List Put
  | [], _ => []
  | put :: puts, store =>
      let (answer, after) := put.run store
      if answer.isOk then put :: takenPuts puts after else takenPuts puts after

end MemoryStore

namespace Put

/-- The blob that a write puts under a mark. -/
def blob (put : Put) (generation : Generation) : Blob where
  content := put.content
  contentType := put.contentType
  generation := generation

variable {put : Put} {store : MemoryStore}

private theorem run_of_isKey (isKey : isKey put.key = true) (store : MemoryStore) :
    put.run store =
      match nextMark put.key (store.version put.key).generation put.expected with
      | .error error => (.error error, store)
      | .ok generation => (.ok generation, store.after put.key (put.blob generation)) := by
  have checked : checkKey put.key = .ok () := isKey_iff.mp isKey
  simp only [run, BlobStore.write, MemoryStore.write, checked]
  rfl

private theorem run_of_no_key {fault : KeyFault} (refused : checkKey put.key = .error fault) :
    put.run store = (.error (.invalidKey put.key (.form fault)), store) := by
  simp only [run, BlobStore.write, MemoryStore.write, refused]

/-- A write is taken at the present mark of a key, or it is refused and changes
nothing. -/
theorem run_cases (put : Put) (store : MemoryStore) :
    (∃ following,
      isKey put.key = true ∧
      put.expected = (store.version put.key).generation ∧
      (store.version put.key).generation.next? = some following ∧
      put.run store = (.ok following, store.after put.key (put.blob following))) ∨
    (∃ error, put.run store = (.error error, store)) := by
  cases checked : checkKey put.key with
  | error fault => exact Or.inr ⟨_, run_of_no_key checked⟩
  | ok passed =>
      have isKey : isKey put.key = true := isKey_iff.mpr checked
      have decides := run_of_isKey isKey store
      cases mark : nextMark put.key (store.version put.key).generation put.expected with
      | error error =>
          rw [mark] at decides
          exact Or.inr ⟨error, decides⟩
      | ok following =>
          rw [mark] at decides
          obtain ⟨same, next⟩ := nextMark_eq_ok_iff.mp mark
          exact Or.inl ⟨following, isKey, same, next, decides⟩

/-- What becomes of a write of a key, by the mark that the key has: the four cases
exclude one another, and one of them applies. -/
structure IsDecided (put : Put) (store : MemoryStore) : Prop where
  taken : (put.run store).1.isOk = true ↔
    put.expected = (store.version put.key).generation ∧
      (store.version put.key).generation.number < UInt64.size - 1
  /-- A write that is taken returns the next mark and is read back. -/
  follows : ∀ generation, (put.run store).1 = .ok generation →
    generation.number = (store.version put.key).generation.number + 1 ∧
      BlobStore.read (put.run store).2 put.key = .ok {
        content := some put.content
        contentType := some put.contentType
        generation }
  occupied : (put.run store).1 = .error (.alreadyExists put.key) ↔
    put.expected.number = 0 ∧ 0 < (store.version put.key).generation.number
  mismatched :
    (put.run store).1 =
        .error (.generationMismatch put.key put.expected (store.version put.key).generation) ↔
      0 < put.expected.number ∧ put.expected ≠ (store.version put.key).generation
  exhausted : (put.run store).1 = .error (.corrupt put.key .exhausted) ↔
    put.expected = (store.version put.key).generation ∧
      (store.version put.key).generation.number = UInt64.size - 1

/-- The answer to a write of a key is its mark or the reason why there is none. -/
theorem answer_of_isKey (isKey : isKey put.key = true) (store : MemoryStore) :
    (put.run store).1 = nextMark put.key (store.version put.key).generation put.expected := by
  rw [run_of_isKey isKey]
  cases nextMark put.key (store.version put.key).generation put.expected with
  | error error => rfl
  | ok generation => rfl

private theorem isDecided (isKey : isKey put.key = true) (store : MemoryStore) :
    put.IsDecided store := by
  have answer := answer_of_isKey isKey store
  constructor
  case taken =>
    have small := (store.version put.key).generation.number_lt
    have last := Generation.next?_eq_none_iff (store.version put.key).generation
    rw [answer]
    cases mark : nextMark put.key (store.version put.key).generation put.expected with
    | ok following =>
        obtain ⟨same, next⟩ := nextMark_eq_ok_iff.mp mark
        rw [next] at last
        simp only [Except.isOk, Except.toBool, same, true_and, true_iff]
        simp only [reduceCtorEq, false_iff] at last
        omega
    | error error =>
        simp only [Except.isOk, Except.toBool, Bool.false_eq_true, false_iff, not_and, not_lt]
        intro same
        have none : (store.version put.key).generation.next? = none := by
          apply Option.eq_none_iff_forall_ne_some.mpr
          intro following next
          rw [nextMark_eq_ok_iff.mpr ⟨same, next⟩] at mark
          cases mark
        have number := last.mp none
        omega
  case follows =>
    intro generation returned
    rcases run_cases put store with ⟨following, -, -, next, run⟩ | ⟨error, run⟩
    · rw [run] at returned ⊢
      cases returned
      refine ⟨Generation.number_of_next? next, ?_⟩
      rw [MemoryStore.read_of_isKey isKey, MemoryStore.version_after_self]
      rfl
    · rw [run] at returned
      cases returned
  case occupied =>
    rw [answer]
    exact nextMark_eq_alreadyExists_iff
  case mismatched =>
    rw [answer]
    exact nextMark_eq_generationMismatch_iff
  case exhausted =>
    rw [answer]
    exact nextMark_eq_exhausted_iff

private theorem unchanged_of_error {error : Error} (refused : (put.run store).1 = .error error) :
    (put.run store).2 = store := by
  rcases run_cases put store with ⟨following, -, -, -, run⟩ | ⟨other, run⟩
  · rw [run] at refused
    cases refused
  · rw [run]

/-- A write changes no other key. -/
theorem read_run_of_ne (put : Put) (store : MemoryStore) {other : String}
    (apart : other ≠ put.key) :
    BlobStore.read (put.run store).2 other = BlobStore.read store other :=
  MemoryStore.read_write_of_ne apart store put.contentType put.content put.expected

end Put

/-! ## What the marks count -/

/-- A store that has taken those writes, in this order, since it was empty. -/
structure IsCounted (store : MemoryStore) (taken : List Put) : Prop where
  distinct : store.blobs.keys.Nodup
  known : ∀ key, key ∈ store.blobs.keys ↔ key ∈ taken.map Put.key
  areKeys : ∀ key ∈ taken.map Put.key, isKey key = true
  marks : ∀ key, (store.version key).generation.number = (taken.map Put.key).count key
  turns : ∀ before put later, taken = before ++ put :: later →
    put.expected.number = (before.map Put.key).count put.key
  counter : store.writeCount = UInt64.ofNat taken.length

namespace IsCounted

variable {store : MemoryStore} {taken : List Put}

private theorem empty : IsCounted .empty [] where
  distinct := List.nodup_nil
  known _ := Iff.rfl
  areKeys key member := by cases member
  marks _ := rfl
  turns before put later split := by
    have some : before ++ put :: later ≠ [] := by simp
    exact absurd split.symm some
  counter := rfl

/-- A write that is taken is counted. -/
theorem take (counted : IsCounted store taken) {put : Put} {following : Generation}
    (isKey : isKey put.key = true) (expected : put.expected = (store.version put.key).generation)
    (next : (store.version put.key).generation.next? = some following) :
    IsCounted (store.after put.key (put.blob following)) (taken ++ [put]) := by
  have keys := Index.keys_put put.key (put.blob following) store.blobs
  constructor
  case distinct =>
    change (store.blobs.put put.key (put.blob following)).keys.Nodup
    rw [keys]
    split
    · exact counted.distinct
    case isFalse isNew =>
      refine List.nodup_append.mpr ⟨counted.distinct, List.nodup_singleton _, ?_⟩
      intro key member other last
      rw [List.mem_singleton.mp last]
      exact fun same => isNew (same ▸ member)
  case known =>
    intro key
    change key ∈ (store.blobs.put put.key (put.blob following)).keys ↔ _
    rw [keys, List.map_append, List.map_singleton, List.mem_append, List.mem_singleton,
      ← counted.known key]
    split
    case isTrue known =>
      constructor
      · exact Or.inl
      · rintro (member | rfl)
        · exact member
        · exact known
    case isFalse isNew => rw [List.mem_append, List.mem_singleton]
  case areKeys =>
    intro key member
    rw [List.map_append, List.map_singleton] at member
    rcases List.mem_append.mp member with earlier | last
    · exact counted.areKeys key earlier
    · rw [List.mem_singleton.mp last]
      exact isKey
  case marks =>
    intro key
    rw [MemoryStore.version_after, List.map_append, List.map_singleton, List.count_append]
    by_cases same : key = put.key
    · subst same
      rw [if_pos rfl, List.count_singleton_self, ← counted.marks]
      exact Generation.number_of_next? next
    · rw [if_neg same, List.count_singleton, counted.marks key]
      simp [Ne.symm same]
  case turns =>
    intro before other later split
    rcases List.eq_nil_or_concat later with rfl | ⟨earlier, last, rfl⟩
    · obtain ⟨rfl, same⟩ := List.append_inj' split rfl
      cases same
      rw [expected, counted.marks]
    · have split : taken ++ [put] = (before ++ other :: earlier) ++ [last] := by
        rw [split, List.concat_eq_append, List.append_assoc, List.cons_append]
      obtain ⟨whole, -⟩ := List.append_inj' split rfl
      exact counted.turns before other earlier whole
  case counter =>
    change store.writeCount + 1 = _
    rw [counted.counter, List.length_append, List.length_singleton, UInt64.ofNat_add]
    rfl

/-- Every run of writes is counted. -/
theorem run (counted : IsCounted store taken) (puts : List Put) :
    IsCounted (store.afterPuts puts) (taken ++ store.takenPuts puts) := by
  induction puts generalizing store taken with
  | nil =>
      rw [MemoryStore.takenPuts, List.append_nil]
      exact counted
  | cons put puts inductionHypothesis =>
      rw [MemoryStore.afterPuts, MemoryStore.takenPuts]
      rcases put.run_cases store with ⟨following, isKey, expected, next, run⟩ | ⟨error, run⟩
      · simp only [run, Except.isOk, Except.toBool, if_true]
        rw [List.append_cons]
        exact inductionHypothesis (counted.take isKey expected next)
      · simp only [run, Except.isOk, Except.toBool, Bool.false_eq_true, if_false]
        exact inductionHypothesis counted

end IsCounted

/-- Writes of which each names the number of those before it with its key are told
apart by key and mark. -/
theorem nodup_of_turns {taken : List Put}
    (turns : ∀ before put later, taken = before ++ put :: later →
      put.expected.number = (before.map Put.key).count put.key) :
    (taken.map fun put => (put.key, put.expected)).Nodup := by
  induction taken using List.reverseRecOn with
  | nil => exact List.nodup_nil
  | append_singleton taken last inductionHypothesis =>
      have earlier := inductionHypothesis fun before put later split =>
        turns before put (later ++ [last]) (by rw [split, List.append_assoc, List.cons_append])
      rw [List.map_append, List.map_singleton]
      refine List.nodup_append.mpr ⟨earlier, List.nodup_singleton _, ?_⟩
      rintro mark member _ (_ | ⟨_, ⟨⟩⟩) rfl
      obtain ⟨other, found, same⟩ := List.mem_map.mp member
      obtain ⟨before, later, rfl⟩ := List.append_of_mem found
      obtain ⟨sameKey, sameMark⟩ := Prod.mk.inj same
      have first := turns before other (later ++ [last])
        (by rw [List.append_assoc, List.cons_append])
      have second := turns (before ++ other :: later) last [] rfl
      rw [sameMark, second, sameKey, List.map_append, List.map_cons, List.count_append,
        sameKey, List.count_cons_self] at first
      omega

/-! ## What can be seen of the counts -/

/-- What reads, keys, marks and the counter of a store show of the writes that it took. -/
structure Tallies (store : MemoryStore) (taken : List Put) : Prop where
  /-- No two writes named the same mark of the same key. -/
  once : (taken.map fun put => (put.key, put.expected)).Nodup
  present : ∀ key version, BlobStore.read store key = .ok version →
    (version.content.isSome = true ↔ version.generation.number ≠ 0)
  length : store.length = store.keys.length
  sorted : store.keys.Pairwise (· < ·)
  valid : ∀ key ∈ store.keys, isKey key = true
  marks : ∀ key, (store.version key).generation.number = (taken.map Put.key).count key
  total : store.writeCount.toNat =
    (store.keys.map fun key => (store.version key).generation.number).sum % UInt64.size

namespace IsCounted

variable {store : MemoryStore} {taken : List Put}

private theorem mem_keys_iff (counted : IsCounted store taken) (key : String) :
    key ∈ store.keys ↔ key ∈ taken.map Put.key := by
  rw [MemoryStore.keys, List.mem_mergeSort, counted.known]

private theorem sorted_keys (counted : IsCounted store taken) : store.keys.Pairwise (· < ·) := by
  have ascending : store.keys.Pairwise (· ≤ ·) := by
    have transitive : ∀ first second third : String,
        decide (first ≤ second) = true → decide (second ≤ third) = true →
          decide (first ≤ third) = true := by
      simpa using fun _ _ _ => String.le_trans
    have total : ∀ first second : String,
        (decide (first ≤ second) || decide (second ≤ first)) = true := by
      simpa using String.le_total
    simpa only [decide_eq_true_eq, MemoryStore.keys] using
      List.pairwise_mergeSort transitive total store.blobs.keys
  have distinct : store.keys.Pairwise (· ≠ ·) :=
    (List.mergeSort_perm _ _).nodup_iff.mpr counted.distinct
  exact (ascending.and distinct).imp fun both => lt_of_le_of_ne both.1 both.2

/-- A key has content exactly if its mark is not the one of absence. -/
theorem content_iff (counted : IsCounted store taken) (key : String) :
    (store.version key).content.isSome = true ↔ (store.version key).generation.number ≠ 0 := by
  rw [counted.marks, ← Nat.pos_iff_ne_zero, List.count_pos_iff, ← counted.known]
  have absent := Index.find?_eq_none_iff key store.blobs
  unfold MemoryStore.version
  cases found : store.blobs.find? key with
  | none => simpa [Version.absent] using absent.mp found
  | some blob =>
      rw [found] at absent
      simpa [Blob.version] using absent

/-- The marks of all keys add up to the number of writes. -/
theorem sum_marks (counted : IsCounted store taken) :
    (store.keys.map fun key => (store.version key).generation.number).sum = taken.length := by
  have same : store.keys.Perm (taken.map Put.key).dedup := by
    apply (List.perm_ext_iff_of_nodup _ (List.nodup_dedup _)).mpr
    · intro key
      rw [counted.mem_keys_iff, List.mem_dedup]
    · exact (List.mergeSort_perm _ _).nodup_iff.mpr counted.distinct
  calc
    (store.keys.map fun key => (store.version key).generation.number).sum
    _ = (store.keys.map fun key => (taken.map Put.key).count key).sum := by
      rw [List.map_congr_left fun key _ => counted.marks key]
    _ = ((taken.map Put.key).dedup.map fun key => (taken.map Put.key).count key).sum :=
      (same.map _).sum_eq
    _ = (taken.map Put.key).length := List.sum_map_count_dedup_eq_length _
    _ = taken.length := List.length_map _

private theorem tallies (counted : IsCounted store taken) : Tallies store taken where
  once := nodup_of_turns counted.turns
  present key version read := by
    have same : version = store.version key := by
      cases checked : checkKey key with
      | error fault =>
          simp only [BlobStore.read, MemoryStore.read, checked] at read
          cases read
      | ok passed =>
          rw [MemoryStore.read_of_isKey (isKey_iff.mpr checked)] at read
          cases read
          rfl
    rw [same]
    exact counted.content_iff key
  length := by rw [MemoryStore.keys, List.length_mergeSort, MemoryStore.length]
  sorted := counted.sorted_keys
  valid key member := counted.areKeys key ((counted.mem_keys_iff key).mp member)
  marks := counted.marks
  total := by
    rw [counted.sum_marks, counted.counter]
    exact UInt64.toNat_ofNat'

end IsCounted

/-- In every store that writes have made of the empty one, a write of a key is taken
exactly if it names the present mark and another one follows; of the other cases each
has its own reason. A write that is refused changes nothing, and no write changes
another key. Every mark is the number of the writes of its key that were taken, no two
of these named the same mark, and the counter is the sum of the marks. -/
theorem writes_are_tallied (puts : List Put) :
    let store := MemoryStore.empty.afterPuts puts
    (∀ put : Put, isKey put.key = true → put.IsDecided store) ∧
    (∀ (put : Put) error, (put.run store).1 = .error error → (put.run store).2 = store) ∧
    (∀ (put : Put) other, other ≠ put.key →
      BlobStore.read (put.run store).2 other = BlobStore.read store other) ∧
    Tallies store (MemoryStore.empty.takenPuts puts) := by
  intro store
  refine ⟨?_, ?_, ?_, ?_⟩
  · exact fun put isKey => Put.isDecided isKey store
  · exact fun put error => Put.unchanged_of_error
  · exact fun put other => put.read_run_of_ne store
  · have counted := IsCounted.empty.run puts
    rw [List.nil_append] at counted
    exact counted.tallies

end RoomLedger.Store
