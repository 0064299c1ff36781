import RoomLedger.Proofs.Store.Opening
import RoomLedger.Proofs.Store.Sparing

/-!
Contract: what calls on one key do to the blobs of others, and operations on files
as operations on memory.

Owns:
- `Mirrors.bystands`, by which keys in use do not notice a call on a key that does
  not hamper them, whatever it answers;
- `contentOf_of_isOpen`, a blob that is read as before;
- `Agrees`, a mounted store that has what a memory has at one key;
- operations on that key, alone or in a crowd, which return on files what they
  return in memory.

The key of a call need not be within limits, and its own files may be in the way of
one another. Only what it leaves behind counts.

Does not own: which keys hamper which.
-/

namespace RoomLedger.Store

open RoomLedger.Disk
open RoomLedger.Text (Bytes)

/-! ## Calls on other keys -/

section Bystanders

variable {root place : Path} {inUse : String → Prop} {key : String} {tree after : Tree}
  {memory : MemoryStore}

/-- Keys in use that writes of a key do not hamper. -/
def Bystand (inUse : String → Prop) (key : String) : Prop :=
  ∀ other, inUse other → checkKey other = .ok () ∧ other ≠ key ∧ ¬ Hampers key other

private theorem Mirrors.marked (mirrors : Mirrors root place inUse tree memory)
    (marks : Marks place key tree after) (valid : checkKey key = .ok ())
    (bystand : Bystand inUse key) :
    Mirrors root place inUse after memory := by
  constructor
  case leads => exact mirrors.leads.keep marks.keeps
  case key =>
    intro other used
    obtain ⟨otherValid, different, free⟩ := bystand other used
    obtain ⟨files, shows_, isFree, read⟩ := mirrors.key other used
    exact ⟨files, shows_.marked marks valid otherValid different free, isFree, read⟩

private theorem Mirrors.write_bystands (mirrors : Mirrors root place inUse tree memory)
    (roots : tree.Roots root place) (bystand : Bystand inUse key) (writer : Writer)
    (holder : Holder) :
    Mirrors root place inUse ((writer.script root key).run holder tree).2 memory := by
  cases valid : checkKey key with
  | error fault =>
      rw [Writer.script, FileStore.write, valid]
      exact mirrors
  | ok => exact mirrors.marked (marks_of_write writer holder valid roots) valid bystand

/-- A call on a key that hampers none of the keys in use leaves them as they are. -/
theorem Mirrors.bystands (mirrors : Mirrors root place inUse tree memory)
    (roots : tree.Roots root place) {use : Use} (bystand : Bystand inUse use.question.key) :
    Mirrors root place inUse (use.ask root tree).2 memory := by
  obtain ⟨settings, holder, question⟩ := use
  cases question with
  | read key => exact mirrors
  | generation key => exact mirrors
  | write key contentType content expected =>
      rw [ask_write]
      exact mirrors.write_bystands roots bystand ⟨settings, contentType, content, expected⟩ holder

/-- A blob that stays where it is, in directories that stay, is read as before. -/
theorem contentOf_of_isOpen (valid : checkKey key = .ok ()) (roots : tree.Roots root place)
    (isOpen : tree.IsOpen place (folders key))
    (keeps : ∀ other, tree.node? other = some .directory → after.node? other = some .directory)
    (blob : after.node? (filePlace place key .blob) = tree.node? (filePlace place key .blob)) :
    after.contentOf (filePath root key .blob) = tree.contentOf (filePath root key .blob) := by
  obtain ⟨last, -, names⟩ := fileNames_eq_concat key
  have plain : ∀ name ∈ fileNames key .blob, Path.IsPlain name :=
    fun name found => isPlain_of_mem_fileNames .blob valid found
  apply Tree.contentOf_congr roots (roots.keep keeps) (by simp [names]) plain
  intro front some before
  rw [names] at before
  rcases List.prefix_concat_iff.mp before with rfl | shorter
  · rw [← names]
    exact blob
  · have directory := isOpen front some shorter
    rw [directory, keeps _ directory]

end Bystanders

/-! ## One key by itself -/

/-- The files of a key are not in the way of one another. -/
theorem not_obstructs_self (key : String) : ¬ Obstructs key key := by
  rintro ⟨part, before⟩
  obtain ⟨last, -, names⟩ := fileNames_eq_concat key
  have short := before.length_le
  rw [names, List.length_append, List.length_singleton] at short
  omega

theorem accommodates_single {root : Path} {key : String} (housed : Housed root key) :
    Accommodates root (· = key) := by
  constructor
  · rintro _ rfl
    exact housed
  · rintro _ _ rfl rfl
    exact not_obstructs_self _

/-- A mounted store has at a key what the memory has, and nobody has the lock. -/
def Agrees (place : Path) (key : String) (store : MountedStore) (memory : MemoryStore) : Prop :=
  Mirrors store.files.root place (· = key) store.tree memory

/-- A fresh directory has what an empty memory has. -/
theorem agrees_of_isFresh {place : Path} {key : String} {store : MountedStore}
    (found : store.tree.find store.files.root = .ok (place, some .directory))
    (spelled : store.files.root ≠ [""]) (fresh : IsFresh store.tree store.files.root)
    (housed : Housed store.files.root key) :
    Agrees place key store .empty :=
  mirrors_of_isFresh (accommodates_single housed) found spelled fresh

namespace Agrees

variable {place : Path} {key : String} {store : MountedStore} {memory : MemoryStore}

theorem roots (agrees : Agrees place key store memory) :
    store.tree.Roots store.files.root place := by
  obtain ⟨files, shows_, -⟩ := agrees.key key rfl
  exact shows_.roots

theorem read (housed : Housed store.files.root key) (agrees : Agrees place key store memory) :
    BlobStore.read store key = BlobStore.read memory key :=
  Mirrors.read (accommodates_single housed) agrees key (fun _ => rfl) store.files.settings
    store.holder

private theorem write (housed : Housed store.files.root key)
    (agrees : Agrees place key store memory) (contentType : String) (content : Bytes)
    (expected : Generation) :
    let onFiles := BlobStore.write store key contentType content expected
    let inMemory := BlobStore.write memory key contentType content expected
    onFiles.1 = inMemory.1 ∧ onFiles.2.files = store.files ∧
      Agrees place key onFiles.2 inMemory.2 := by
  intro onFiles inMemory
  let writer : Writer := ⟨store.files.settings, contentType, content, expected⟩
  obtain ⟨after, memoryAfter, ran, written, mirrors⟩ :=
    Mirrors.write (accommodates_single housed) agrees key rfl writer store.holder
  have files : onFiles =
      (((writer.script store.files.root key).run store.holder store.tree).1,
        { store with
          tree := ((writer.script store.files.root key).run store.holder store.tree).2 }) := rfl
  have memory : inMemory = ((writer.outcome key (memory.version key)).1, memoryAfter) := written
  rw [files, memory, ran]
  exact ⟨rfl, rfl, mirrors⟩

variable {α : Type}

/-- The next call of an operation on the key is answered as in memory. -/
theorem step {plan : Plan α} (housed : Housed store.files.root key)
    (agrees : Agrees place key store memory) (isOn : plan.IsOn key) (index : Nat) :
    (plan.step store).1 = (plan.step memory).1 ∧
      (plan.step store).2.files = store.files ∧
      Agrees place key (plan.step store).2 (plan.step memory).2 ∧
      (plan.step store).1.IsOn key ∧
      plan.act? index store = plan.act? index memory := by
  cases plan with
  | done result => exact ⟨rfl, rfl, agrees, isOn, rfl⟩
  | read name next =>
      obtain ⟨rfl, later⟩ := isOn
      exact ⟨congrArg next (agrees.read housed), rfl, agrees, later _, rfl⟩
  | write name contentType content expected next =>
      obtain ⟨rfl, later⟩ := isOn
      obtain ⟨answer, files, after⟩ := agrees.write housed contentType content expected
      refine ⟨congrArg next answer, files, after, later _, ?_⟩
      rw [Plan.act?, Plan.act?, answer]

/-- An operation on the key that has the store for itself returns what it returns in
memory. -/
theorem run {plan : Plan α} (housed : Housed store.files.root key)
    (agrees : Agrees place key store memory) (isOn : plan.IsOn key) :
    (plan.run store).1 = (plan.run memory).1 ∧
      (plan.run store).2.files = store.files ∧
      Agrees place key (plan.run store).2 (plan.run memory).2 := by
  induction plan generalizing store memory with
  | done result => exact ⟨rfl, rfl, agrees⟩
  | read name next inductionHypothesis =>
      obtain ⟨rfl, later⟩ := isOn
      have answer := agrees.read housed
      simp only [Plan.run, answer]
      exact inductionHypothesis _ housed agrees (later _)
  | write name contentType content expected next inductionHypothesis =>
      obtain ⟨rfl, later⟩ := isOn
      obtain ⟨answer, files, after⟩ := agrees.write housed contentType content expected
      simp only [Plan.run, answer]
      have rest := inductionHypothesis (BlobStore.write memory name contentType content expected).1
        (files.symm ▸ housed) after (later _)
      rw [files] at rest
      exact rest

/-- An operation on a key that does not hamper this one leaves it as it is. -/
theorem run_bystands {other : String} {plan : Plan α} (agrees : Agrees place key store memory)
    (isOn : plan.IsOn other) (bystand : Bystand (· = key) other) :
    (plan.run store).2.files = store.files ∧ Agrees place key (plan.run store).2 memory := by
  induction plan generalizing store with
  | done result => exact ⟨rfl, agrees⟩
  | read name next inductionHypothesis => exact inductionHypothesis _ agrees (isOn.2 _)
  | write name contentType content expected next inductionHypothesis =>
      obtain ⟨rfl, later⟩ := isOn
      have after : Agrees place key (BlobStore.write store name contentType content expected).2
          memory :=
        Mirrors.write_bystands agrees agrees.roots bystand
          ⟨store.files.settings, contentType, content, expected⟩ store.holder
      exact inductionHypothesis _ after (later _)

theorem runAll {plans : List (Plan α)} (housed : Housed store.files.root key)
    (agrees : Agrees place key store memory) (isOn : ∀ plan ∈ plans, plan.IsOn key) :
    (Plan.runAll plans store).1 = (Plan.runAll plans memory).1 := by
  induction plans generalizing store memory with
  | nil => rfl
  | cons plan rest inductionHypothesis =>
      obtain ⟨result, files, after⟩ := agrees.run housed (isOn plan (by simp))
      have later := inductionHypothesis (files.symm ▸ housed) after
        fun other member => isOn other (by simp [member])
      simp only [Plan.runAll, result, later]

/-- Operations on the key whose calls mix go on as in memory. -/
theorem follow (crowd : Crowd MountedStore α) {memory : MemoryStore}
    (housed : Housed crowd.store.files.root key) (agrees : Agrees place key crowd.store memory)
    (isOn : ∀ plan ∈ crowd.plans, plan.IsOn key) (schedule : List Nat) :
    let inMemory : Crowd MemoryStore α := ⟨crowd.plans, memory⟩
    (crowd.follow schedule).plans = (inMemory.follow schedule).plans ∧
      crowd.history schedule = inMemory.history schedule ∧
      (crowd.follow schedule).store.files = crowd.store.files ∧
      Agrees place key (crowd.follow schedule).store (inMemory.follow schedule).store := by
  induction schedule generalizing crowd memory with
  | nil => exact ⟨rfl, rfl, rfl, agrees⟩
  | cons index rest inductionHypothesis =>
      intro inMemory
      cases present : crowd.plans[index]? with
      | none =>
          have idle : inMemory.plans[index]? = none := present
          simp only [Crowd.follow_cons, Crowd.history, Crowd.act?, Crowd.advance_of_none present,
            Crowd.advance_of_none idle, present, idle, Option.bind_none]
          obtain ⟨plans, history, files, after⟩ := inductionHypothesis crowd housed agrees isOn
          exact ⟨plans, by rw [history], files, after⟩
      | some plan =>
          have there : inMemory.plans[index]? = some plan := present
          obtain ⟨next, files, after, further, act⟩ :=
            agrees.step housed (isOn plan (List.mem_of_getElem? present)) index
          simp only [Crowd.follow_cons, Crowd.history, Crowd.act?, Crowd.advance_of_some present,
            Crowd.advance_of_some there, present, there, Option.bind_some]
          have isOnAfter : ∀ other ∈ crowd.plans.set index (plan.step crowd.store).1,
              other.IsOn key := by
            intro other member
            rcases List.mem_or_eq_of_mem_set member with before | rfl
            · exact isOn other before
            · exact further
          have later := inductionHypothesis
            ⟨crowd.plans.set index (plan.step crowd.store).1, (plan.step crowd.store).2⟩
            (files.symm ▸ housed) after isOnAfter
          rw [next] at later ⊢
          obtain ⟨plans, history, filesAfter, agreesAfter⟩ := later
          exact ⟨plans, by rw [history]; rw [act], filesAfter.trans files, agreesAfter⟩

end Agrees

end RoomLedger.Store
