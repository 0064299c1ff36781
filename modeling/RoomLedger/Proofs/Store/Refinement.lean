import RoomLedger.Proofs.Store.Alone
import RoomLedger.Proofs.Store.Transaction

/-!
Contract: blobs in files answer as blobs in memory do.

Owns:
- `Question` and `Answer`, the calls of a store and what they return;
- `Use`, a question that is put to one of several stores in one directory;
- `Mirrors`, by which the files of every key in use say what the memory has;
- `files_answer_like_memory`, for every run of calls on a fresh directory.

Between two calls every lock is free. What a refused write leaves behind, the
directories on the way and a lock, is seen by no later call.

Does not own: calls that come at the same time.
-/

namespace RoomLedger.Store

open RoomLedger.Disk
open RoomLedger.Text (Bytes)

/-! ## Runs of calls -/

/-- A call of a store. -/
inductive Question where
  | read (key : String)
  | generation (key : String)
  | write (key contentType : String) (content : Bytes) (expected : Generation)
deriving DecidableEq, Repr

def Question.key : Question → String
  | read key => key
  | generation key => key
  | write key _ _ _ => key

/-- What a call of a store returns. -/
inductive Answer where
  | version (result : Except Error Version)
  | mark (result : Except Error Generation)

/-- What a store returns, and the store after the call. -/
def Question.ask {S : Type} [BlobStore S] : Question → S → Answer × S
  | read key, store => (.version (BlobStore.read store key), store)
  | generation key, store => (.mark (BlobStore.generation store key), store)
  | write key contentType content expected, store =>
      let (result, after) := BlobStore.write store key contentType content expected
      (.mark result, after)

/-- What a store returns to calls that come one after another. -/
def answers {S : Type} [BlobStore S] : List Question → S → List Answer
  | [], _ => []
  | question :: rest, store =>
      let (answer, after) := question.ask store
      answer :: answers rest after

/-- A call through one of several stores that have their blobs in the same
directory. -/
structure Use where
  settings : FileSettings := {}
  holder : Holder := 0
  question : Question
deriving DecidableEq, Repr

def Use.ask (use : Use) (root : Path) (tree : Tree) : Answer × Tree :=
  let store : MountedStore := { files := ⟨root, use.settings⟩, tree, holder := use.holder }
  let (answer, after) := use.question.ask store
  (answer, after.tree)

/-- What the stores return to calls that come one after another, and the tree
after them. -/
def answersOnFiles (root : Path) : List Use → Tree → List Answer × Tree
  | [], tree => ([], tree)
  | use :: rest, tree =>
      let (answer, after) := use.ask root tree
      let (later, last) := answersOnFiles root rest after
      (answer :: later, last)

/-! ## The files of the keys in use -/

/-- The files of every key in use are there for the memory's blob, and the locks
are free. -/
structure Mirrors (root place : Path) (inUse : String → Prop) (tree : Tree) (memory : MemoryStore) :
    Prop where
  leads : tree.Leads root.start.1 root.start.2 place
  key : ∀ key, inUse key → ∃ files,
    Shows root place key tree files ∧ IsFree files ∧
      FileStore.interpret key files.answer = .ok (memory.version key)

/-- The keys in use have files that are within limits and do not obstruct one
another. -/
structure Accommodates (root : Path) (inUse : String → Prop) : Prop where
  housed : ∀ key, inUse key → Housed root key
  free : ∀ key other, inUse key → inUse other → ¬ Obstructs key other

section Steps

variable {root place : Path} {inUse : String → Prop} {tree : Tree} {memory : MemoryStore}

/-- Memory takes and refuses writes as writers of files do. -/
theorem write_of_writer (memory : MemoryStore) {key : String} (valid : checkKey key = .ok ())
    (writer : Writer) :
    ∃ after : MemoryStore,
      BlobStore.write memory key writer.contentType writer.content writer.expected =
        ((writer.outcome key (memory.version key)).1, after) ∧
      after.version key = (writer.outcome key (memory.version key)).2 ∧
      ∀ other, other ≠ key → after.version other = memory.version other := by
  have written : BlobStore.write memory key writer.contentType writer.content writer.expected =
      memory.write key writer.contentType writer.content writer.expected := rfl
  rw [written, MemoryStore.write, valid, Writer.outcome]
  cases nextMark key (memory.version key).generation writer.expected with
  | error error => exact ⟨memory, rfl, rfl, fun _ _ => rfl⟩
  | ok generation =>
      refine ⟨memory.after key ⟨writer.content, writer.contentType, generation⟩, rfl, ?_, ?_⟩
      · rw [MemoryStore.version_after_self]
        rfl
      · intro other different
        rw [MemoryStore.version_after, if_neg different]

/-- A write leaves the files of all keys as the memory has them. -/
theorem Mirrors.write (accommodates : Accommodates root inUse)
    (mirrors : Mirrors root place inUse tree memory) (key : String) (used : inUse key)
    (writer : Writer) (holder : Holder) :
    ∃ after memoryAfter,
      (writer.script root key).run holder tree =
        ((writer.outcome key (memory.version key)).1, after) ∧
      BlobStore.write memory key writer.contentType writer.content writer.expected =
        ((writer.outcome key (memory.version key)).1, memoryAfter) ∧
      Mirrors root place inUse after memoryAfter := by
  have housed := accommodates.housed key used
  obtain ⟨files, shows_, free, read⟩ := mirrors.key key used
  obtain ⟨memoryAfter, written, version, others⟩ :=
    write_of_writer memory housed.valid writer
  obtain ⟨after, filesAfter, ran, leaves, readAfter, freeAfter⟩ :=
    run_write housed shows_ free read
  refine ⟨after, memoryAfter, ran, written, ?_⟩
  constructor
  case leads => exact mirrors.leads.keep leaves.confined.keeps
  case key =>
    intro other otherUsed
    by_cases same : other = key
    · subst same
      refine ⟨filesAfter, leaves.shows_, freeAfter, ?_⟩
      rw [version]
      exact readAfter
    · obtain ⟨otherFiles, otherShows, otherFree, otherRead⟩ := mirrors.key other otherUsed
      refine ⟨otherFiles, ?_, otherFree, ?_⟩
      · exact otherShows.elsewhere leaves.confined housed (accommodates.housed other otherUsed) same
          (accommodates.free key other used otherUsed)
          (accommodates.free other key otherUsed used)
      · rw [others other same]
        exact otherRead

/-- A read of the files answers as a read of the memory. -/
theorem Mirrors.read (accommodates : Accommodates root inUse)
    (mirrors : Mirrors root place inUse tree memory) (key : String)
    (used : isKey key = true → inUse key) (settings : FileSettings) (holder : Holder) :
    BlobStore.read ({ files := ⟨root, settings⟩, tree, holder } : MountedStore) key =
      BlobStore.read memory key := by
  have onFiles : BlobStore.read ({ files := ⟨root, settings⟩, tree, holder } : MountedStore) key =
      ((FileStore.read ⟨root, settings⟩ key).run holder tree).1 := rfl
  rw [onFiles]
  cases valid : checkKey key with
  | error fault =>
      have inMemory : BlobStore.read memory key = memory.read key := rfl
      rw [inMemory, MemoryStore.read, FileStore.read, valid]
      rfl
  | ok =>
      have isKey : isKey key = true := isKey_iff.mpr valid
      have housed := accommodates.housed key (used isKey)
      obtain ⟨files, shows_, -, read⟩ := mirrors.key key (used isKey)
      rw [MemoryStore.read_of_isKey isKey, run_read housed shows_]
      exact read

/-- A call of the files answers as a call of the memory, and leaves the files as
the memory has them. -/
theorem Mirrors.ask (accommodates : Accommodates root inUse)
    (mirrors : Mirrors root place inUse tree memory) (use : Use)
    (used : isKey use.question.key = true → inUse use.question.key) :
    (use.ask root tree).1 = (use.question.ask memory).1 ∧
      Mirrors root place inUse (use.ask root tree).2 (use.question.ask memory).2 := by
  obtain ⟨settings, holder, question⟩ := use
  cases question with
  | read key =>
      have read := mirrors.read accommodates key used settings holder
      exact ⟨congrArg Answer.version read, mirrors⟩
  | generation key =>
      have read := mirrors.read accommodates key used settings holder
      have mark : BlobStore.generation
          ({ files := ⟨root, settings⟩, tree, holder } : MountedStore) key =
            BlobStore.generation memory key := by
        rw [BlobStore.generation, read]
        rfl
      exact ⟨congrArg Answer.mark mark, mirrors⟩
  | write key contentType content expected =>
      let writer : Writer := { settings, contentType, content, expected }
      obtain ⟨result, after, memoryAfter, ran, written, mirrorsAfter⟩ :
          ∃ result after memoryAfter,
            (writer.script root key).run holder tree = (result, after) ∧
            BlobStore.write memory key contentType content expected = (result, memoryAfter) ∧
            Mirrors root place inUse after memoryAfter := by
        cases valid : checkKey key with
        | error fault =>
            refine ⟨.error (.invalidKey key (.form fault)), tree, memory, ?_, ?_, mirrors⟩
            · rw [Writer.script, FileStore.write, valid]
              rfl
            · change memory.write key contentType content expected = _
              rw [MemoryStore.write, valid]
        | ok => exact ⟨_, mirrors.write accommodates key (used (isKey_iff.mpr valid)) writer holder⟩
      have onFiles :
          Use.ask ⟨settings, holder, .write key contentType content expected⟩ root tree =
            (.mark ((writer.script root key).run holder tree).1,
              ((writer.script root key).run holder tree).2) := rfl
      have inMemory : (Question.write key contentType content expected).ask memory =
          (.mark (BlobStore.write memory key contentType content expected).1,
            (BlobStore.write memory key contentType content expected).2) := rfl
      rw [onFiles, inMemory, ran, written]
      exact ⟨rfl, mirrorsAfter⟩

/-- So do all calls of a run. -/
theorem Mirrors.answers (accommodates : Accommodates root inUse)
    (mirrors : Mirrors root place inUse tree memory) {uses : List Use}
    (used : ∀ use ∈ uses, isKey use.question.key = true → inUse use.question.key) :
    (answersOnFiles root uses tree).1 = Store.answers (uses.map Use.question) memory ∧
      ∃ memoryAfter, Mirrors root place inUse (answersOnFiles root uses tree).2 memoryAfter := by
  induction uses generalizing tree memory with
  | nil => exact ⟨rfl, memory, mirrors⟩
  | cons use rest inductionHypothesis =>
      obtain ⟨answer, after⟩ := mirrors.ask accommodates use (used use (by simp))
      obtain ⟨later, memoryAfter, last⟩ :=
        inductionHypothesis after fun other found => used other (by simp [found])
      constructor
      · simp only [answersOnFiles, List.map_cons, Store.answers, answer, later]
      · exact ⟨memoryAfter, last⟩

end Steps

/-! ## A fresh directory -/

/-- The files of no key are there, as an empty memory has it. -/
theorem mirrors_of_isFresh {root place : Path} {inUse : String → Prop} {tree : Tree}
    (accommodates : Accommodates root inUse) (found : tree.find root = .ok (place, some .directory))
    (spelled : root ≠ [""]) (fresh : IsFresh tree root) :
    Mirrors root place inUse tree .empty := by
  constructor
  case leads => exact (Tree.leads_of_find found).2
  case key =>
    intro key used
    refine ⟨fun _ => none, ?_, ?_, rfl⟩
    · exact shows_of_isFresh (accommodates.housed key used) found spelled fresh
    · intro content holder held
      cases held

/-- Whatever is read and written through any number of stores in one fresh
directory, they answer what one store in memory answers, as long as the keys have
files that are within limits and do not obstruct one another. After any such run
another store may be opened, which changes nothing. -/
theorem files_answer_like_memory (spelling : String) {settings : FileSettings} {holder : Holder}
    {disk tree : Tree} {store : FileStore}
    (opened : (FileStore.openAt (Path.ofText spelling) settings).run holder disk =
      (.ok store, tree))
    (fresh : IsFresh tree (Path.ofText spelling)) (uses : List Use)
    (housed : ∀ use ∈ uses, isKey use.question.key = true →
      Housed (Path.ofText spelling) use.question.key)
    (free : ∀ use ∈ uses, ∀ other ∈ uses, isKey use.question.key = true →
      isKey other.question.key = true → ¬ Obstructs use.question.key other.question.key) :
    (answersOnFiles (Path.ofText spelling) uses tree).1 =
        answers (uses.map Use.question) MemoryStore.empty ∧
      ∀ (otherSettings : FileSettings) (otherHolder : Holder),
        (FileStore.openAt (Path.ofText spelling) otherSettings).run otherHolder
            (answersOnFiles (Path.ofText spelling) uses tree).2 =
          (.ok ⟨Path.ofText spelling, otherSettings⟩,
            (answersOnFiles (Path.ofText spelling) uses tree).2) := by
  have made : disk.makeDirectories (Path.ofText spelling) = (.ok (), tree) := by
    rw [FileStore.openAt, Script.run, Request.perform] at opened
    cases answer : disk.makeDirectories (Path.ofText spelling) with
    | mk result after =>
        rw [answer] at opened
        cases result with
        | error fault => cases opened
        | ok =>
            cases opened
            rfl
  obtain ⟨place, found⟩ := Tree.find_of_makeDirectories made
  have accommodates : Accommodates (Path.ofText spelling) fun key =>
      ∃ use ∈ uses, use.question.key = key ∧ isKey key = true := by
    constructor
    · rintro key ⟨use, member, rfl, isKey⟩
      exact housed use member isKey
    · rintro key other ⟨use, member, rfl, isKey⟩ ⟨otherUse, otherMember, rfl, otherIsKey⟩
      exact free use member otherUse otherMember isKey otherIsKey
  have mirrors := mirrors_of_isFresh accommodates found (Path.ofText_ne spelling) fresh
  obtain ⟨same, memoryAfter, last⟩ :=
    mirrors.answers accommodates fun use member isKey => ⟨use, member, rfl, isKey⟩
  constructor
  · exact same
  · intro otherSettings otherHolder
    have still := Tree.makeDirectories_of_find
      (Tree.find_of_leads (Tree.leads_of_find found).1 last.leads)
    rw [FileStore.openAt, Script.run, Request.perform, still]
    rfl

/-- Calls of two stores: a blob is put, read and not put again, a key has none,
and a text is no key. -/
def sampleUses : List Use :=
  [{ holder := 1, question := .write "room/log" "text" [0x61, 0x0A] .absent },
    { settings := { lockTimeout := 30, syncOnWrite := false }, holder := 2,
      question := .read "room/log" },
    { settings := { lockTimeout := 30, syncOnWrite := false }, holder := 2,
      question := .write "room/log" "text" [] .absent },
    { holder := 1, question := .generation "room/profile" },
    { holder := 1, question := .read "room.lock" }]

theorem files_answer_like_memory_of_two_stores :
    (answersOnFiles (Path.ofText "blobs") sampleUses (Tree.single "blobs")).1 =
      answers (sampleUses.map Use.question) MemoryStore.empty := by
  have root : Path.ofText "blobs" = ["blobs"] := by decide +kernel
  have plain : Path.IsPlain "blobs" := ⟨'b', ['l', 'o', 'b', 's'], by decide, by decide⟩
  have fits : Path.fits "blobs" = true := by decide +kernel
  have form : Path.checkForm ["blobs"] = .ok () :=
    (Path.checkForm_eq_ok_iff _).mpr (by decide +kernel)
  have opened : (FileStore.openAt (Path.ofText "blobs") {}).run 1 Tree.empty =
      (.ok ⟨Path.ofText "blobs", {}⟩, Tree.single "blobs") := by
    have missing : Tree.empty.node? ["blobs"] = none := by decide +kernel
    have made : Tree.empty.makeDirectories ["blobs"] = (.ok (), Tree.single "blobs") := by
      simp [Tree.makeDirectories, form, Path.start_of_ne plain.ne_empty, Tree.makeMissing, fits,
        Path.enter_of_isPlain plain, missing, Path.endsInDot, Tree.single]
    rw [root, FileStore.openAt, Script.run, Request.perform, made]
    rfl
  have fresh : IsFresh (Tree.single "blobs") (Path.ofText "blobs") := by
    rw [root]
    exact isFresh_single plain fits form
  have housed : ∀ use ∈ sampleUses, isKey use.question.key = true →
      Housed (Path.ofText "blobs") use.question.key := by
    rw [root]
    decide +kernel
  have free : ∀ use ∈ sampleUses, ∀ other ∈ sampleUses, isKey use.question.key = true →
      isKey other.question.key = true → ¬ Obstructs use.question.key other.question.key := by
    decide +kernel
  exact (files_answer_like_memory "blobs" opened fresh sampleUses housed free).1

end RoomLedger.Store
