import RoomLedger.Proofs.Store.Bystanders
import RoomLedger.Proofs.Store.Unwritten

/-!
Contract: two blobs that are created in one fresh directory.

Owns:
- `Writer.use`, the write of a writer as a call;
- what is read of a blob that was created, after a second one was, or could not be;
- `create_two_blobs`, which tells for every two keys whether both are created;
- the two keys of which the first takes the directory of its lock from the second.

The second key is created exactly if the first does not hamper it. The draft of the
first hampers nobody, since it is gone; the draft of the second hampers itself where
a directory has its name.

Does not own: more than two keys.
-/

namespace RoomLedger.Store

open RoomLedger.Disk
open RoomLedger.Text (Bytes)

/-- The write of a writer as a call through its store. -/
def Writer.use (writer : Writer) (holder : Holder) (key : String) : Use where
  settings := writer.settings
  holder := holder
  question := .write key writer.contentType writer.content writer.expected

/-! ## A blob that was created -/

/-- The files of a blob: itself and the lock, in directories that exist. -/
structure IsCreated (place : Path) (key : String) (tree : Tree) : Prop where
  isOpen : tree.IsOpen place (folders key)
  blob : ∃ content occupant,
    tree.node? (filePlace place key .blob) = some (.file content occupant)
  lock : ∃ content occupant,
    tree.node? (filePlace place key .lock) = some (.file content occupant)

section Creation

variable {root place : Path} {key other : String} {writer : Writer} {holder : Holder}
  {tree after : Tree}

private theorem isCreated_of_ok {generation : Generation} (roots : tree.Roots root place)
    (ran : (writer.script root key).run holder tree = (.ok generation, after)) :
    IsCreated place key after := by
  obtain ⟨_, files, -, done⟩ := isDone_of_ok roots ran
  have node := done.leaves.shows_.node
  obtain ⟨-, occupant, blob⟩ := done.put
  obtain ⟨content, -, lock⟩ := done.lock
  refine ⟨done.isOpen, ⟨writer.file generation, occupant, ?_⟩, ⟨content, none, ?_⟩⟩
  · rw [node, blob]
    rfl
  · rw [node, lock]
    rfl

/-- A blob is read as before if directories stay and its own node does. -/
theorem IsCreated.contentOf (created : IsCreated place key tree) (valid : checkKey key = .ok ())
    (roots : tree.Roots root place)
    (keeps : ∀ other, tree.node? other = some .directory → after.node? other = some .directory)
    (blob : after.node? (filePlace place key .blob) = tree.node? (filePlace place key .blob)) :
    after.contentOf (filePath root key .blob) = tree.contentOf (filePath root key .blob) :=
  contentOf_of_isOpen valid roots created.isOpen keeps blob

/-- What only adds to a tree takes no file away. -/
theorem IsCreated.extend {isAllowed : Path → Node → Prop} (created : IsCreated place key tree)
    (extends_ : Tree.Extends place isAllowed tree after) :
    IsCreated place key after := by
  obtain ⟨content, occupant, blob⟩ := created.blob
  obtain ⟨lockContent, lockOccupant, lock⟩ := created.lock
  exact {
    isOpen := created.isOpen.keep extends_.keeps
    blob := ⟨content, occupant, extends_.node blob⟩
    lock := ⟨lockContent, lockOccupant, extends_.node lock⟩ }

/-! ## A key that is hampered -/

/-- Where the files of a key stand, no blob is put under a key that they hamper. -/
theorem IsCreated.write_fails (writer : Writer) (holder : Holder)
    (created : IsCreated place key tree) (hampers : Hampers key other)
    (valid : checkKey other = .ok ()) (roots : tree.Roots root place) (generation : Generation) :
    ((writer.script root other).run holder tree).1 ≠ .ok generation := by
  intro succeeds
  rcases run_write_cases writer holder valid roots with
    ⟨error, _, failed, -, -⟩ | ⟨_, middle, _, _, -, litters, done⟩
  · rw [failed] at succeeds
    cases succeeds
  · obtain ⟨files, shows_⟩ := done.shows_
    -- A file on the way to the other key is no directory.
    have onWay {part : Part} {content : Bytes} {occupant : Option Holder}
        (before : fileNames key part <+: folders other)
        (file : tree.node? (filePlace place key part) = some (.file content occupant)) : False := by
      obtain ⟨last, -, names⟩ := fileNames_eq_concat key
      have stays := litters.node file
      rcases shows_.clear _ (by simp [names]) before with none | directory
      · rw [filePlace, none] at stays
        cases stays
      · rw [filePlace, directory] at stays
        cases stays
    rcases hampers with blob | lock | ⟨part, before⟩
    · obtain ⟨_, _, file⟩ := created.blob
      exact onWay blob file
    · obtain ⟨_, _, file⟩ := created.lock
      exact onWay lock file
    · obtain ⟨last, -, names⟩ := fileNames_eq_concat other
      have directory := litters.keeps _ (created.isOpen _ (by simp [names]) before)
      have file := shows_.node part
      rw [filePlace, directory] at file
      cases found : files part with
      | none => simp [found] at file
      | some there => simp [found, KeyFile.node] at file

/-- The creation of a blob fails for nothing but a fault of the file system, where
neither a blob nor a lock of its key is a file. -/
theorem eq_io_of_create {error : Error} (valid : checkKey key = .ok ())
    (roots : tree.Roots root place) (creates : writer.expected = .absent)
    (bare : ∀ part : Part, tree.node? (filePlace place key part) = none ∨
      tree.node? (filePlace place key part) = some .directory)
    (failed : ((writer.script root key).run holder tree).1 = .error error) :
    error = .io := by
  rcases run_write_cases writer holder valid roots with
    ⟨_, _, ran, -, cause⟩ | ⟨_, _, _, _, ran, -, -⟩
  · rw [ran] at failed
    cases failed
    rcases cause with io | ⟨middle, litters, ready, ⟨content, occupant, held⟩ | judged⟩
    · exact io
    · rcases litters.own valid .lock with same | directory | ⟨-, free⟩
      · rw [same] at held
        have lock := bare .lock
        rw [held] at lock
        simp at lock
      · rw [directory] at held
        cases held
      · rw [free] at held
        cases held
    · rw [Tree.contentOf, ready.find .blob] at judged
      have blob : middle.node? (filePlace place key .blob) = none ∨
          middle.node? (filePlace place key .blob) = some .directory := by
        rcases litters.own valid .blob with same | directory | ⟨lock, -⟩
        · rw [same]
          exact bare .blob
        · exact .inr directory
        · cases lock
      rcases blob with none | directory
      · have mark : nextMark key Version.absent.generation .absent = .ok ⟨1⟩ :=
          nextMark_eq_ok_iff.mpr ⟨rfl, rfl⟩
        simp only [none, Phase.judging, FileStore.interpret, creates, mark] at judged
        cases judged
      · rw [directory] at judged
        cases judged
        rfl
  · rw [ran] at failed
    cases failed

end Creation

/-! ## Operations that write -/

section Operations

variable {α : Type} {place : Path} {key other : String} {store : MountedStore} {plan : Plan α}
  {isAllowed : α → Prop}

/-- A write of a mounted store fails and litters, or creates the blob. -/
theorem write_cases_of_mounted (valid : checkKey key = .ok ())
    (roots : store.tree.Roots store.files.root place) (contentType : String) (content : Bytes)
    (expected : Generation) :
    (∃ error after,
      BlobStore.write store key contentType content expected =
        (.error error, { store with tree := after }) ∧
      after.Roots store.files.root place ∧ Litters place key store.tree after) ∨
    ∃ generation after,
      BlobStore.write store key contentType content expected =
        (.ok generation, { store with tree := after }) ∧
      after.Roots store.files.root place ∧ IsCreated place key after := by
  let writer : Writer := ⟨store.files.settings, contentType, content, expected⟩
  have written : BlobStore.write store key contentType content expected =
      (((writer.script store.files.root key).run store.holder store.tree).1,
        { store with
          tree := ((writer.script store.files.root key).run store.holder store.tree).2 }) := rfl
  have marks := marks_of_write writer store.holder valid roots
  rcases run_write_cases writer store.holder valid roots with
    ⟨error, after, ran, litters, -⟩ | ⟨generation, _, after, _, ran, -, -⟩
  · left
    rw [ran] at written
    exact ⟨error, after, written, roots.keep litters.keeps, litters⟩
  · right
    rw [ran] at written marks
    exact ⟨generation, after, written, roots.keep marks.keeps, isCreated_of_ok roots ran⟩

/-- A blob that was created stays, whatever is done with it. -/
theorem IsCreated.run (created : IsCreated place key store.tree)
    (roots : store.tree.Roots store.files.root place) (valid : checkKey key = .ok ())
    (isOn : plan.IsOn key) :
    IsCreated place key (plan.run store).2.tree := by
  induction plan generalizing store with
  | done result => exact created
  | read name next inductionHypothesis => exact inductionHypothesis _ created roots (isOn.2 _)
  | write name contentType content expected next inductionHypothesis =>
      obtain ⟨rfl, later⟩ := isOn
      rcases write_cases_of_mounted valid roots contentType content expected with
        ⟨error, after, written, rootsAfter, litters⟩ |
          ⟨generation, after, written, rootsAfter, createdAnew⟩
      · simp only [Plan.run, written]
        exact inductionHypothesis (.error error) (created.extend litters) rootsAfter (later _)
      · simp only [Plan.run, written]
        exact inductionHypothesis (.ok generation) createdAnew rootsAfter (later _)

/-- An operation that returns anything but what it returns unwritten has created the
blob. -/
theorem isCreated_of_run (roots : store.tree.Roots store.files.root place)
    (valid : checkKey key = .ok ()) (isOn : plan.IsOn key)
    (returns : plan.ReturnsUnwritten isAllowed) :
    isAllowed (plan.run store).1 ∨ IsCreated place key (plan.run store).2.tree := by
  induction plan generalizing store with
  | done result => exact .inl returns
  | read name next inductionHypothesis =>
      exact inductionHypothesis _ roots (isOn.2 _) (returns _)
  | write name contentType content expected next inductionHypothesis =>
      obtain ⟨rfl, later⟩ := isOn
      rcases write_cases_of_mounted valid roots contentType content expected with
        ⟨error, after, written, rootsAfter, -⟩ | ⟨generation, after, written, rootsAfter, created⟩
      · simp only [Plan.run, written]
        exact inductionHypothesis (.error error) rootsAfter (later _) (returns error)
      · simp only [Plan.run, written]
        exact .inr (IsCreated.run created rootsAfter valid (later _))

/-- An operation on a key that is hampered by a blob that is there returns what it
returns unwritten. -/
theorem IsCreated.run_hampered (created : IsCreated place key store.tree)
    (hampers : Hampers key other) (roots : store.tree.Roots store.files.root place)
    (valid : checkKey other = .ok ()) (isOn : plan.IsOn other)
    (returns : plan.ReturnsUnwritten isAllowed) :
    isAllowed (plan.run store).1 := by
  induction plan generalizing store with
  | done result => exact returns
  | read name next inductionHypothesis =>
      exact inductionHypothesis _ created roots (isOn.2 _) (returns _)
  | write name contentType content expected next inductionHypothesis =>
      obtain ⟨rfl, later⟩ := isOn
      rcases write_cases_of_mounted valid roots contentType content expected with
        ⟨error, after, written, rootsAfter, litters⟩ | ⟨generation, after, written, -, -⟩
      · simp only [Plan.run, written]
        exact inductionHypothesis (.error error) (created.extend litters) rootsAfter (later _)
          (returns error)
      · exact absurd (congrArg Prod.fst written)
          (created.write_fails ⟨store.files.settings, contentType, content, expected⟩ store.holder
            hampers valid roots generation)

end Operations

/-! ## Two blobs -/

section Pair

variable {root place : Path} {tree : Tree}

/-- Where nothing is, a blob with the first mark is created. -/
theorem ask_create {key : String} {writer : Writer} {holder : Holder}
    (valid : checkKey key = .ok ()) (creates : writer.expected = .absent) :
    (writer.use holder key).question.ask MemoryStore.empty =
      (.mark (.ok ⟨1⟩),
        MemoryStore.empty.after key ⟨writer.content, writer.contentType, ⟨1⟩⟩) := by
  have next : (MemoryStore.empty.version key).generation.next? = some ⟨1⟩ := rfl
  have taken := MemoryStore.write_of_next? (isKey_iff.mpr valid) next writer.contentType
    writer.content
  rw [Writer.use, Question.ask, creates]
  exact congrArg (fun answer => (Answer.mark answer.1, answer.2)) taken

/-- A key of which a fresh directory has nothing yet is created there. -/
theorem create_of_fresh {key : String} {writer : Writer} (housed : Housed root key)
    (mirrors : Mirrors root place (· = key) tree .empty) (creates : writer.expected = .absent)
    (holder : Holder) :
    let made := (writer.use holder key).ask root tree
    made.1 = .mark (.ok ⟨1⟩) ∧ made.2.Roots root place ∧ IsCreated place key made.2 ∧
      ∀ settings holder, (Use.ask ⟨settings, holder, .read key⟩ root made.2).1 =
        .version (.ok (writer.version ⟨1⟩)) := by
  intro made
  obtain ⟨answer, after⟩ := mirrors.ask (accommodates_single housed) (writer.use holder key)
    fun _ => rfl
  rw [ask_create housed.valid creates] at answer after
  obtain ⟨_, shows_, -⟩ := mirrors.key key rfl
  obtain ⟨_, showsAfter, -⟩ := after.key key rfl
  have ran : ((writer.script root key).run holder tree).1 = .ok ⟨1⟩ := by
    have mark : Answer.mark ((writer.script root key).run holder tree).1 = .mark (.ok ⟨1⟩) :=
      answer
    exact Answer.mark.inj mark
  refine ⟨answer, showsAfter.roots, ?_, ?_⟩
  · exact isCreated_of_ok shows_.roots (Prod.ext ran rfl)
  · intro settings reader
    obtain ⟨read, -⟩ := after.ask (accommodates_single housed) ⟨settings, reader, .read key⟩
      fun _ => rfl
    rw [read, Question.ask, MemoryStore.read_of_isKey (isKey_iff.mpr housed.valid),
      MemoryStore.version_after_self]
    rfl

/-- After a second blob was created, or could not be, the first one is read as
before. -/
theorem read_after_second {first second : String} (writer : Writer) (holder : Holder)
    (created : IsCreated place first tree) (roots : tree.Roots root place)
    (valid : checkKey first = .ok ()) (secondValid : checkKey second = .ok ())
    (different : first ≠ second) (settings : FileSettings) (reader : Holder) :
    let after := ((writer.use holder second).ask root tree).2
    ¬ fileNames first .blob <+: folders second ∨
        (∃ error, ((writer.script root second).run holder tree).1 = .error error) →
      (Use.ask ⟨settings, reader, .read first⟩ root after).1 =
        (Use.ask ⟨settings, reader, .read first⟩ root tree).1 := by
  intro after cause
  have marks : Marks place second tree after := marks_of_write writer holder secondValid roots
  have blob : after.node? (filePlace place first .blob) =
      tree.node? (filePlace place first .blob) := by
    rcases cause with free | ⟨error, failed⟩
    · rcases marks.node_of_other secondValid valid different .blob with same | ⟨-, onWay⟩
      · exact same
      · exact absurd onWay free
    · obtain ⟨content, occupant, file⟩ := created.blob
      rcases run_write_cases writer holder secondValid roots with
        ⟨_, _, ran, litters, -⟩ | ⟨_, _, _, _, ran, -, -⟩
      · have node := litters.node file
        have there : after = ((writer.script root second).run holder tree).2 := rfl
        rw [there, ran, node, file]
      · rw [ran] at failed
        cases failed
  rw [ask_read root after settings reader valid, ask_read root tree settings reader valid,
    created.contentOf valid roots marks.keeps blob]

/-- The creation of two blobs, after which both are read. -/
def creations (first second : String) (firstWriter secondWriter : Writer)
    (firstHolder secondHolder reader : Holder) (settings : FileSettings) : List Use :=
  [firstWriter.use firstHolder first, secondWriter.use secondHolder second,
    ⟨settings, reader, .read first⟩, ⟨settings, reader, .read second⟩]

section Fresh

variable {first second : String} {firstWriter secondWriter : Writer}
  (found : tree.find root = .ok (place, some .directory)) (spelled : root ≠ [""])
  (fresh : IsFresh tree root) (firstHoused : Housed root first) (secondHoused : Housed root second)
  (different : first ≠ second) (firstCreates : firstWriter.expected = .absent)
  (secondCreates : secondWriter.expected = .absent) (firstHolder secondHolder reader : Holder)
  (settings : FileSettings)

include found spelled fresh firstHoused secondHoused different firstCreates secondCreates

private theorem answers_of_not_hampers (free : ¬ Hampers first second) :
    (answersOnFiles root (creations first second firstWriter secondWriter firstHolder secondHolder
      reader settings) tree).1 =
      [.mark (.ok ⟨1⟩), .mark (.ok ⟨1⟩), .version (.ok (firstWriter.version ⟨1⟩)),
        .version (.ok (secondWriter.version ⟨1⟩))] := by
  obtain ⟨made, roots, created, read⟩ :=
    create_of_fresh firstHoused (mirrors_of_isFresh (accommodates_single firstHoused) found spelled
      fresh) firstCreates firstHolder
  have bystand : Bystand (· = second) first := by
    rintro _ rfl
    exact ⟨secondHoused.valid, different.symm, free⟩
  have mirrors : Mirrors root place (· = second)
      ((firstWriter.use firstHolder first).ask root tree).2 .empty :=
    (mirrors_of_isFresh (accommodates_single secondHoused) found spelled fresh).bystands
      (Tree.roots_of_find found spelled) bystand
  obtain ⟨madeToo, -, -, readToo⟩ :=
    create_of_fresh secondHoused mirrors secondCreates secondHolder
  have stays := read_after_second secondWriter secondHolder created roots firstHoused.valid
    secondHoused.valid different settings reader (.inl fun onWay => free (.inl onWay))
  simp only [creations, answersOnFiles]
  rw [made, madeToo, stays, read]
  exact congrArg (fun answer => [_, _, _, answer]) (readToo settings reader)

private theorem answers_of_hampers (hampers : Hampers first second) :
    (answersOnFiles root (creations first second firstWriter secondWriter firstHolder secondHolder
      reader settings) tree).1.take 3 =
      [.mark (.ok ⟨1⟩), .mark (.error .io), .version (.ok (firstWriter.version ⟨1⟩))] := by
  obtain ⟨made, roots, created, read⟩ :=
    create_of_fresh firstHoused (mirrors_of_isFresh (accommodates_single firstHoused) found spelled
      fresh) firstCreates firstHolder
  have marks : Marks place first tree ((firstWriter.use firstHolder first).ask root tree).2 :=
    marks_of_write firstWriter firstHolder firstHoused.valid (Tree.roots_of_find found spelled)
  have bare (part : Part) :
      ((firstWriter.use firstHolder first).ask root tree).2.node? (filePlace place second part) =
          none ∨
        ((firstWriter.use firstHolder first).ask root tree).2.node? (filePlace place second part) =
          some .directory := by
    obtain ⟨last, -, names⟩ := fileNames_eq_concat second
    have none := fresh place found (fileNames second part) (by simp [names])
      (secondHoused.isPlain part)
    rcases marks.node_of_other firstHoused.valid secondHoused.valid different.symm part with
      same | ⟨directory, -⟩
    · left
      rw [same]
      exact none
    · exact .inr directory
  cases ran : ((secondWriter.script root second).run secondHolder
      ((firstWriter.use firstHolder first).ask root tree).2).1 with
  | ok generation =>
      exact absurd ran
        (created.write_fails secondWriter secondHolder hampers secondHoused.valid roots generation)
  | error error =>
      obtain rfl := eq_io_of_create secondHoused.valid roots secondCreates bare ran
      have failed : ((secondWriter.use secondHolder second).ask root
          ((firstWriter.use firstHolder first).ask root tree).2).1 = .mark (.error .io) :=
        congrArg Answer.mark ran
      have stays := read_after_second secondWriter secondHolder created roots firstHoused.valid
        secondHoused.valid different settings reader (.inr ⟨.io, ran⟩)
      simp only [creations, answersOnFiles, List.take_succ_cons, List.take_zero]
      rw [made, failed, stays, read]

end Fresh

end Pair

/-- Two blobs are created one after the other in a fresh directory. The first is
created, and stays. The second is created exactly if the first does not hamper its
key, and fails for a fault of the file system otherwise; what was created is read
back. -/
theorem create_two_blobs (spelling : String) {settings : FileSettings} {holder : Holder}
    {disk tree : Tree} {store : FileStore}
    (opened : (FileStore.openAt (Path.ofText spelling) settings).run holder disk =
      (.ok store, tree))
    (fresh : IsFresh tree (Path.ofText spelling)) {first second : String}
    (firstHoused : Housed (Path.ofText spelling) first)
    (secondHoused : Housed (Path.ofText spelling) second) (different : first ≠ second)
    {firstWriter secondWriter : Writer} (firstCreates : firstWriter.expected = .absent)
    (secondCreates : secondWriter.expected = .absent) (firstHolder secondHolder reader : Holder)
    (readerSettings : FileSettings) :
    let answers := (answersOnFiles (Path.ofText spelling) (creations first second firstWriter
      secondWriter firstHolder secondHolder reader readerSettings) tree).1
    (¬ Hampers first second → answers =
      [.mark (.ok ⟨1⟩), .mark (.ok ⟨1⟩), .version (.ok (firstWriter.version ⟨1⟩)),
        .version (.ok (secondWriter.version ⟨1⟩))]) ∧
    (Hampers first second → answers.take 3 =
      [.mark (.ok ⟨1⟩), .mark (.error .io), .version (.ok (firstWriter.version ⟨1⟩))]) := by
  obtain ⟨place, found⟩ := find_of_openAt opened
  have spelled := Path.ofText_ne spelling
  exact ⟨answers_of_not_hampers found spelled fresh firstHoused secondHoused different firstCreates
      secondCreates firstHolder secondHolder reader readerSettings,
    answers_of_hampers found spelled fresh firstHoused secondHoused different firstCreates
      secondCreates firstHolder secondHolder reader readerSettings⟩

/-- A writer that expects nothing to be there. -/
def sampleCreator : Writer where
  contentType := "text"
  content := [0x61, 0x0A]
  expected := .absent

/-- The draft of the first key has the name of a directory of the second. -/
theorem create_two_blobs_beside_draft :
    (answersOnFiles (Path.ofText "blobs") (creations "a" "a.tmp/b" sampleCreator sampleCreator 1 2
        3 {}) (Tree.single "blobs")).1 =
      [.mark (.ok ⟨1⟩), .mark (.ok ⟨1⟩), .version (.ok (sampleCreator.version ⟨1⟩)),
        .version (.ok (sampleCreator.version ⟨1⟩))] := by
  have firstHoused : Housed (Path.ofText "blobs") "a" := by decide +kernel
  have secondHoused : Housed (Path.ofText "blobs") "a.tmp/b" := by decide +kernel
  have free : ¬ Hampers "a" "a.tmp/b" := by decide +kernel
  exact (create_two_blobs "blobs" (openAt_blobs {} 0) isFresh_blobs firstHoused secondHoused
    (by decide) rfl rfl 1 2 3 {}).1 free

/-- A directory of the first key has the name of the lock of the second, and neither
key is a directory of the other. The second is not created. -/
theorem key_loses_its_lock :
    (FileStore.openAt (Path.ofText "blobs") {}).run 0 Tree.empty =
        (.ok ⟨Path.ofText "blobs", {}⟩, Tree.single "blobs") ∧
      IsFresh (Tree.single "blobs") (Path.ofText "blobs") ∧
      Housed (Path.ofText "blobs") "a.lock/b" ∧ Housed (Path.ofText "blobs") "a" ∧
      ¬ components "a.lock/b" <+: components "a" ∧ ¬ components "a" <+: components "a.lock/b" ∧
      (answersOnFiles (Path.ofText "blobs") (creations "a.lock/b" "a" sampleCreator sampleCreator 1
          2 3 {}) (Tree.single "blobs")).1.take 3 =
        [.mark (.ok ⟨1⟩), .mark (.error .io), .version (.ok (sampleCreator.version ⟨1⟩))] := by
  have firstHoused : Housed (Path.ofText "blobs") "a.lock/b" := by decide +kernel
  have secondHoused : Housed (Path.ofText "blobs") "a" := by decide +kernel
  have hampers : Hampers "a.lock/b" "a" := by decide +kernel
  obtain ⟨place, found⟩ := find_of_openAt (openAt_blobs {} 0)
  refine ⟨openAt_blobs {} 0, isFresh_blobs, firstHoused, secondHoused, ?_, ?_, ?_⟩
  · decide +kernel
  · decide +kernel
  · exact answers_of_hampers found (Path.ofText_ne "blobs") isFresh_blobs firstHoused secondHoused
      (by decide) rfl rfl 1 2 3 {} hampers

end RoomLedger.Store
