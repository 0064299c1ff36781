import RoomLedger.Proofs.Store.FileFormat
import RoomLedger.Proofs.Store.Requests

/-!
Contract: a write as a machine that goes from phase to phase.

Owns:
- `Writer`, what a writer puts, and `Writer.script`, the requests it makes;
- `Phase`, how far a writer has come, and `Phase.script`, what is still to do;
- `Phase.turn`, the next phase and the files after it;
- `step_script`, by which the next request of a writer is that turn.

The turn speaks of the files of the key alone, so what is proved about writers
that take turns need not look at trees.

Does not own: several writers.
-/

namespace RoomLedger.Store

open RoomLedger.Disk
open RoomLedger.Text (Bytes)

/-- What a writer puts under a key, and how. -/
structure Writer where
  settings : FileSettings := {}
  contentType : String
  content : Bytes
  expected : Generation
deriving DecidableEq, Repr

namespace Writer

/-- The directory of blobs as the writer has opened it. -/
def store (writer : Writer) (root : Path) : FileStore :=
  ⟨root, writer.settings⟩

def script (writer : Writer) (root : Path) (key : String) : Script (Except Error Generation) :=
  (writer.store root).write key writer.contentType writer.content writer.expected

/-- What a reader finds once the writer has put its blob. -/
def version (writer : Writer) (generation : Generation) : Version where
  content := some writer.content
  contentType := some writer.contentType
  generation := generation

/-- The content of the file in which the writer puts its blob. -/
def file (writer : Writer) (generation : Generation) : Bytes :=
  encodeFile generation writer.contentType writer.content

/-- The pieces in which the content of the file is written. -/
def chunks (writer : Writer) (generation : Generation) : List Bytes :=
  [(headerOf generation writer.contentType writer.content).write, [0x0A], writer.content]

private theorem flatten_chunks (writer : Writer) (generation : Generation) :
    (writer.chunks generation).flatten = writer.file generation := by
  simp [chunks, file, encodeFile]

section Paths

variable (writer : Writer) {root : Path} {key : String}

theorem blobPath_eq : (writer.store root).blobPath key = filePath root key .blob :=
  FileStore.blobPath_eq _ key

theorem lockPath_eq : (writer.store root).lockPath key = filePath root key .lock :=
  FileStore.lockPath_eq _ key

theorem draftPath_eq : (writer.store root).draftPath key = filePath root key .draft :=
  FileStore.draftPath_eq _ key

theorem parent_blobPath : ((writer.store root).blobPath key).parent = root.join (folders key) :=
  FileStore.parent_blobPath _ key

end Paths

end Writer

/-! ## Phases -/

/-- How far a writer has come. -/
inductive Phase where
  | starting
  | opening
  | locking
  | reading
  | creating (generation : Generation)
  /-- A piece of the draft and those after it are still to be written. -/
  | pouring (generation : Generation) (chunk : Bytes) (rest : List Bytes)
  | syncing (generation : Generation)
  | publishing (generation : Generation)
  | releasing (result : Except Error Generation)
  | finished (result : Except Error Generation)

namespace FileStore

/-- Writes pieces of the draft, and moves it. -/
def pour (store : FileStore) (key : String) (generation : Generation) :
    List Bytes → Script (Except Error Generation)
  | [] => store.settle key generation
  | chunk :: rest =>
      .ask (.append (store.draftPath key) chunk) fun answer =>
        store.proceed key answer (store.pour key generation rest)

/-- Takes the lock, and goes on if it was free. -/
def lock (store : FileStore) (key contentType : String) (content : Bytes) (expected : Generation) :
    Script (Except Error Generation) :=
  .ask (.takeLock (store.lockPath key) store.settings.lockTimeout) fun taken =>
    match taken with
    | .error _ => .done (.error .io)
    | .ok false => .done (.error (.lockTimeout key))
    | .ok true => store.replace key contentType content expected

end FileStore

/-- What a writer that has come so far is still to do. -/
def Phase.script (root : Path) (key : String) (writer : Writer) :
    Phase → Script (Except Error Generation)
  | starting => writer.script root key
  | opening =>
      .ask (.openFile ((writer.store root).lockPath key)) fun opened =>
        match opened with
        | .error _ => .done (.error .io)
        | .ok () =>
            (writer.store root).lock key writer.contentType writer.content writer.expected
  | locking => (writer.store root).lock key writer.contentType writer.content writer.expected
  | reading => (writer.store root).replace key writer.contentType writer.content writer.expected
  | creating generation =>
      (writer.store root).fill key writer.contentType writer.content generation
  | pouring generation chunk rest => (writer.store root).pour key generation (chunk :: rest)
  | syncing generation =>
      .ask (.sync ((writer.store root).draftPath key)) fun answer =>
        (writer.store root).proceed key answer ((writer.store root).publish key generation)
  | publishing generation => (writer.store root).publish key generation
  | releasing result => (writer.store root).release key result
  | finished result => .done result

/-- The phase of a writer whose draft is whole. -/
def Phase.settling (writer : Writer) (generation : Generation) : Phase :=
  if writer.settings.syncOnWrite then syncing generation else publishing generation

/-- The phase of a writer that has those pieces of its draft still to write. -/
def Phase.filling (writer : Writer) (generation : Generation) : List Bytes → Phase
  | [] => settling writer generation
  | chunk :: rest => pouring generation chunk rest

/-- The phase of a writer that has got that answer about the blob's file. -/
def Phase.judging (key : String) (writer : Writer) (answer : Except Fault Bytes) : Phase :=
  match FileStore.interpret key answer with
  | .error error => releasing (.error error)
  | .ok version =>
      match nextMark key version.generation writer.expected with
      | .error error => releasing (.error error)
      | .ok generation => creating generation

/-- The phase after the next request, and the files after it, where a directory
for them exists. -/
def Phase.turn (key : String) (writer : Writer) (holder : Holder) :
    Phase → KeyFiles → Phase × KeyFiles
  | starting, files => (opening, files)
  | opening, files =>
      (locking, Function.update files .lock (some ((files .lock).getD ⟨[], none⟩)))
  | locking, files =>
      match files .lock with
      | some ⟨content, none⟩ =>
          (reading, Function.update files .lock (some ⟨content, some holder⟩))
      | _ => (finished (.error (.lockTimeout key)), files)
  | reading, files => (judging key writer files.answer, files)
  | creating generation, files =>
      (filling writer generation (writer.chunks generation),
        Function.update files .draft (some ⟨[], (files .draft).bind KeyFile.holder⟩))
  | pouring generation chunk rest, files =>
      (filling writer generation rest,
        Function.update files .draft
          ((files .draft).map fun file => ⟨file.content ++ chunk, file.holder⟩))
  | syncing generation, files => (publishing generation, files)
  | publishing generation, files =>
      (releasing (.ok generation),
        Function.update (Function.update files .draft none) .blob (files .draft))
  | releasing result, files =>
      (finished result,
        Function.update files .lock ((files .lock).map fun file => ⟨file.content, none⟩))
  | finished result, files => (finished result, files)

/-! ### The turns that go more than one way -/

theorem filling_cases (writer : Writer) (generation : Generation) (chunks : List Bytes) :
    (∃ chunk rest, chunks = chunk :: rest ∧
      Phase.filling writer generation chunks = .pouring generation chunk rest) ∨
    chunks = [] ∧
      (Phase.filling writer generation chunks = .syncing generation ∨
        Phase.filling writer generation chunks = .publishing generation) := by
  cases chunks with
  | cons chunk rest => exact .inl ⟨chunk, rest, rfl, rfl⟩
  | nil =>
      right
      rw [Phase.filling, Phase.settling]
      split
      · exact ⟨rfl, .inl rfl⟩
      · exact ⟨rfl, .inr rfl⟩

theorem judging_cases (key : String) (writer : Writer) (answer : Except Fault Bytes) :
    (∃ error, Phase.judging key writer answer = .releasing (.error error)) ∨
      ∃ generation, Phase.judging key writer answer = .creating generation := by
  rw [Phase.judging]
  cases FileStore.interpret key answer with
  | error error => exact .inl ⟨error, rfl⟩
  | ok version =>
      simp only
      cases nextMark key version.generation writer.expected with
      | error error => exact .inl ⟨error, rfl⟩
      | ok generation => exact .inr ⟨generation, rfl⟩

/-- A lock that exists is taken if it is free, and waited for in vain if not. -/
theorem turn_locking (key : String) (writer : Writer) (holder : Holder) {files : KeyFiles}
    (exists_ : files .lock ≠ none) :
    (∃ content, files .lock = some ⟨content, none⟩ ∧
      Phase.turn key writer holder .locking files =
        (.reading, Function.update files .lock (some ⟨content, some holder⟩))) ∨
    ∃ content occupant, files .lock = some ⟨content, some occupant⟩ ∧
      Phase.turn key writer holder .locking files =
        (.finished (.error (.lockTimeout key)), files) := by
  obtain ⟨⟨content, occupant⟩, found⟩ := Option.ne_none_iff_exists'.mp exists_
  cases occupant with
  | none =>
      left
      refine ⟨content, found, ?_⟩
      simp only [Phase.turn, found]
  | some occupant =>
      right
      refine ⟨content, occupant, found, ?_⟩
      simp only [Phase.turn, found]

section Scripts

variable {root : Path} {key : String} {writer : Writer}

private theorem script_filling (generation : Generation) (chunks : List Bytes) :
    (Phase.filling writer generation chunks).script root key writer =
      (writer.store root).pour key generation chunks := by
  cases chunks with
  | cons chunk rest => rfl
  | nil =>
      rw [Phase.filling, Phase.settling, FileStore.pour, FileStore.settle]
      change (if writer.settings.syncOnWrite then _ else _ : Phase).script root key writer =
        if writer.settings.syncOnWrite then _ else _
      split <;> rfl

theorem script_judging (answer : Except Fault Bytes) :
    (Phase.judging key writer answer).script root key writer =
      match FileStore.interpret key answer with
      | .error error => (writer.store root).release key (.error error)
      | .ok version =>
          match nextMark key version.generation writer.expected with
          | .error error => (writer.store root).release key (.error error)
          | .ok generation =>
              (writer.store root).fill key writer.contentType writer.content generation := by
  rw [Phase.judging]
  cases FileStore.interpret key answer with
  | error error => rfl
  | ok version =>
      simp only
      cases nextMark key version.generation writer.expected <;> rfl

theorem script_starting (valid : checkKey key = .ok ()) :
    Phase.starting.script root key writer =
      .ask (.makeDirectories ((writer.store root).blobPath key).parent) fun made =>
        match made with
        | .error _ => .done (.error .io)
        | .ok () => Phase.opening.script root key writer := by
  rw [Phase.script, Writer.script, FileStore.write, valid]
  simp only
  congr
  funext made
  cases made with
  | error fault => rfl
  | ok =>
      simp only [Phase.script]
      congr
      funext opened
      cases opened with
      | error fault => rfl
      | ok => rfl

end Scripts

/-! ## Turns -/

/-- A writer has the lock of its key. -/
def IsLocked (files : KeyFiles) (holder : Holder) : Prop :=
  ∃ content, files .lock = some ⟨content, some holder⟩

/-- There is a draft with that content. -/
def IsDrafted (files : KeyFiles) (content : Bytes) : Prop :=
  ∃ holder, files .draft = some ⟨content, holder⟩

/-- What a writer that has come so far can rely on, where a reader finds that
version. -/
def Phase.Stands (key : String) (writer : Writer) (holder : Holder) (files : KeyFiles)
    (version : Version) : Phase → Prop
  | starting => True
  | opening => True
  | locking => files .lock ≠ none
  | reading => IsLocked files holder
  | creating generation =>
      IsLocked files holder ∧ nextMark key version.generation writer.expected = .ok generation
  | pouring generation chunk rest =>
      IsLocked files holder ∧ nextMark key version.generation writer.expected = .ok generation ∧
        ∃ written, IsDrafted files written ∧
          written ++ (chunk :: rest).flatten = writer.file generation
  | syncing generation =>
      IsLocked files holder ∧ nextMark key version.generation writer.expected = .ok generation ∧
        IsDrafted files (writer.file generation)
  | publishing generation =>
      IsLocked files holder ∧ nextMark key version.generation writer.expected = .ok generation ∧
        IsDrafted files (writer.file generation)
  | releasing _ => IsLocked files holder
  | finished _ => True

theorem step_ask {α : Type} {holder : Holder} {request : Request} {next : request.Answer → Script α}
    {tree after : Tree} {answer : request.Answer}
    (performed : request.perform holder tree = (answer, after)) :
    (Script.ask request next).step holder tree = (next answer, after) := by
  rw [Script.step, performed]

section Turns

variable {root place : Path} {key : String} {writer : Writer} {holder : Holder} {tree : Tree}
  {files : KeyFiles} {version : Version}

/-- Once the directories exist, the next request of a writer is its turn. -/
theorem step_script_of_isOpen (housed : Housed root key) (shows_ : Shows root place key tree files)
    (isOpen : tree.IsOpen place (folders key)) {phase : Phase} (started : phase ≠ .starting)
    (stands : phase.Stands key writer holder files version) :
    ∃ after,
      (phase.script root key writer).step holder tree =
        ((phase.turn key writer holder files).1.script root key writer, after) ∧
      Leaves root place key tree after (phase.turn key writer holder files).2 := by
  cases phase with
  | starting => exact absurd rfl started
  | opening =>
      obtain ⟨after, performed, leaves⟩ := perform_openFile holder housed shows_ isOpen .lock
      rw [← writer.lockPath_eq] at performed
      exact ⟨after, step_ask performed, leaves⟩
  | locking =>
      rcases turn_locking key writer holder stands with
        ⟨content, found, turned⟩ | ⟨content, occupant, found, turned⟩
      · obtain ⟨after, performed, leaves⟩ :=
          perform_takeLock holder housed shows_ isOpen writer.settings.lockTimeout found
        rw [← writer.lockPath_eq] at performed
        rw [turned]
        exact ⟨after, step_ask performed, leaves⟩
      · have performed := perform_takeLock_of_held holder housed shows_ isOpen
          writer.settings.lockTimeout found
        rw [← writer.lockPath_eq] at performed
        rw [turned]
        exact ⟨tree, step_ask performed, shows_.stay⟩
  | reading =>
      have performed := perform_read holder housed shows_
      rw [← writer.blobPath_eq] at performed
      refine ⟨tree, ?_, shows_.stay⟩
      simp only [Phase.turn, script_judging]
      exact step_ask performed
  | creating generation =>
      obtain ⟨after, performed, leaves⟩ := perform_create holder housed shows_ isOpen .draft
      rw [← writer.draftPath_eq] at performed
      refine ⟨after, ?_, leaves⟩
      simp only [Phase.turn, script_filling]
      exact step_ask performed
  | pouring generation chunk rest =>
      obtain ⟨-, -, written, ⟨occupant, found⟩, -⟩ := stands
      obtain ⟨after, performed, leaves⟩ :=
        perform_append holder housed shows_ isOpen chunk found
      rw [← writer.draftPath_eq] at performed
      refine ⟨after, ?_, ?_⟩
      · simp only [Phase.turn, script_filling]
        exact step_ask performed
      · simpa only [Phase.turn, found, Option.map_some] using leaves
  | syncing generation =>
      exact ⟨tree, rfl, shows_.stay⟩
  | publishing generation =>
      obtain ⟨-, -, occupant, found⟩ := stands
      obtain ⟨after, performed, leaves⟩ := perform_rename holder housed shows_ isOpen found
      rw [← writer.draftPath_eq,
        ← writer.blobPath_eq] at performed
      refine ⟨after, step_ask performed, ?_⟩
      simpa only [Phase.turn, found] using leaves
  | releasing result =>
      obtain ⟨content, found⟩ := stands
      obtain ⟨after, performed, leaves⟩ := perform_dropLock holder housed shows_ isOpen found
      rw [← writer.lockPath_eq] at performed
      refine ⟨after, step_ask performed, ?_⟩
      simpa only [Phase.turn, found, Option.map_some] using leaves
  | finished result => exact ⟨tree, rfl, shows_.stay⟩

/-- The next request of a writer is its turn. -/
theorem step_script (housed : Housed root key) (shows_ : Shows root place key tree files)
    {phase : Phase} (reached : phase = .starting ∨ tree.IsOpen place (folders key))
    (stands : phase.Stands key writer holder files version) :
    ∃ after,
      (phase.script root key writer).step holder tree =
        ((phase.turn key writer holder files).1.script root key writer, after) ∧
      after.IsOpen place (folders key) ∧
      Leaves root place key tree after (phase.turn key writer holder files).2 := by
  by_cases starts : phase = .starting
  · subst starts
    obtain ⟨after, performed, isOpen, leaves⟩ := perform_makeDirectories holder housed shows_
    rw [← writer.parent_blobPath] at performed
    rw [script_starting housed.valid]
    exact ⟨after, step_ask performed, isOpen, leaves⟩
  · have isOpen := reached.resolve_left starts
    obtain ⟨after, stepped, leaves⟩ :=
      step_script_of_isOpen housed shows_ isOpen starts stands
    exact ⟨after, stepped, leaves.isOpen isOpen, leaves⟩

end Turns

/-! ## What a turn keeps -/

/-- What a reader finds after the turn of a writer that has come so far. -/
def Phase.versionAfter (writer : Writer) (version : Version) : Phase → Version
  | publishing generation => writer.version generation
  | _ => version

section Keeps

variable {key : String} {writer : Writer} {holder : Holder} {files : KeyFiles} {version : Version}

/-- The file that a writer puts is read as its blob. -/
theorem interpret_file {generation : Generation}
    (marked : nextMark key version.generation writer.expected = .ok generation) :
    FileStore.interpret key (.ok (writer.file generation)) = .ok (writer.version generation) := by
  have present : generation ≠ .absent :=
    Generation.ne_absent_of_next? (nextMark_eq_ok_iff.mp marked).2
  simp only [FileStore.interpret, Writer.file, decodeFile_encodeFile present]
  rfl

theorem answer_update_of_ne (part : Part) (apart : part ≠ .blob) (file : Option KeyFile) :
    KeyFiles.answer (Function.update files part file) = files.answer := by
  rw [KeyFiles.answer, Function.update_of_ne apart.symm]
  rfl

theorem isLocked_update_of_ne (part : Part) (apart : part ≠ .lock) (file : Option KeyFile)
    (locked : IsLocked files holder) :
    IsLocked (Function.update files part file) holder := by
  obtain ⟨content, found⟩ := locked
  exact ⟨content, by rwa [Function.update_of_ne apart.symm]⟩

private theorem stands_filling {generation : Generation} {written : Bytes} {chunks : List Bytes}
    (locked : IsLocked files holder)
    (marked : nextMark key version.generation writer.expected = .ok generation)
    (drafted : IsDrafted files written)
    (whole : written ++ chunks.flatten = writer.file generation) :
    (Phase.filling writer generation chunks).Stands key writer holder files version := by
  rcases filling_cases writer generation chunks with
    ⟨chunk, rest, rfl, filling⟩ | ⟨rfl, filling | filling⟩
  · rw [filling]
    exact ⟨locked, marked, written, drafted, whole⟩
  · rw [List.flatten_nil, List.append_nil] at whole
    rw [filling, Phase.Stands, ← whole]
    exact ⟨locked, marked, drafted⟩
  · rw [List.flatten_nil, List.append_nil] at whole
    rw [filling, Phase.Stands, ← whole]
    exact ⟨locked, marked, drafted⟩

private theorem stands_judging (locked : IsLocked files holder)
    (read : FileStore.interpret key files.answer = .ok version) :
    (Phase.judging key writer files.answer).Stands key writer holder files version := by
  rw [Phase.judging, read]
  simp only
  cases marked : nextMark key version.generation writer.expected with
  | error error => exact locked
  | ok generation => exact ⟨locked, marked⟩

/-- A turn leads to a phase that can rely on what it finds. -/
theorem stands_turn {phase : Phase} (stands : phase.Stands key writer holder files version)
    (read : FileStore.interpret key files.answer = .ok version) :
    (phase.turn key writer holder files).1.Stands key writer holder
      (phase.turn key writer holder files).2 (phase.versionAfter writer version) := by
  cases phase with
  | starting => trivial
  | opening => simp [Phase.turn, Phase.Stands]
  | locking =>
      rcases turn_locking key writer holder stands with
        ⟨content, -, turned⟩ | ⟨content, occupant, -, turned⟩
      · rw [turned]
        exact ⟨content, by simp⟩
      · rw [turned]
        trivial
  | reading => exact stands_judging stands read
  | creating generation =>
      obtain ⟨locked, marked⟩ := stands
      have drafted : IsDrafted (Phase.turn key writer holder (.creating generation) files).2 [] :=
        ⟨(files .draft).bind KeyFile.holder, by simp [Phase.turn]⟩
      have whole : [] ++ (writer.chunks generation).flatten = writer.file generation := by
        rw [List.nil_append, writer.flatten_chunks]
      exact stands_filling (isLocked_update_of_ne .draft (by decide) _ locked) marked drafted whole
  | pouring generation chunk rest =>
      obtain ⟨locked, marked, written, ⟨occupant, found⟩, whole⟩ := stands
      have drafted :
          IsDrafted (Phase.turn key writer holder (.pouring generation chunk rest) files).2
            (written ++ chunk) :=
        ⟨occupant, by simp [Phase.turn, found]⟩
      have others : written ++ chunk ++ rest.flatten = writer.file generation := by
        rw [List.append_assoc, ← whole, List.flatten_cons]
      exact stands_filling (isLocked_update_of_ne .draft (by decide) _ locked) marked drafted others
  | syncing generation => exact stands
  | publishing generation =>
      obtain ⟨locked, -, -⟩ := stands
      have moved : IsLocked (Function.update files .draft none) holder :=
        isLocked_update_of_ne .draft (by decide) none locked
      exact isLocked_update_of_ne .blob (by decide) (files .draft) moved
  | releasing result => trivial
  | finished result => trivial

/-- After a turn a reader finds the blob before, or that of the writer that has
published. -/
theorem read_turn {phase : Phase} (stands : phase.Stands key writer holder files version)
    (read : FileStore.interpret key files.answer = .ok version) :
    FileStore.interpret key (phase.turn key writer holder files).2.answer =
      .ok (phase.versionAfter writer version) := by
  cases phase with
  | starting => exact read
  | opening =>
      simp only [Phase.turn, answer_update_of_ne .lock (by decide)]
      exact read
  | locking =>
      rcases turn_locking key writer holder stands with
        ⟨content, -, turned⟩ | ⟨content, occupant, -, turned⟩
      · rw [turned, answer_update_of_ne .lock (by decide)]
        exact read
      · rw [turned]
        exact read
  | reading => exact read
  | creating generation =>
      simp only [Phase.turn, answer_update_of_ne .draft (by decide)]
      exact read
  | pouring generation chunk rest =>
      simp only [Phase.turn, answer_update_of_ne .draft (by decide)]
      exact read
  | syncing generation => exact read
  | publishing generation =>
      obtain ⟨-, marked, occupant, found⟩ := stands
      have answer : (Phase.publishing generation).turn key writer holder files |>.2.answer =
          .ok (writer.file generation) := by
        simp [Phase.turn, KeyFiles.answer, found]
      rw [answer]
      exact interpret_file marked
  | releasing result =>
      simp only [Phase.turn, answer_update_of_ne .lock (by decide)]
      exact read
  | finished result => exact read

end Keeps

end RoomLedger.Store
