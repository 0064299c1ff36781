import RoomLedger.Proofs.Disk.Growth
import RoomLedger.Proofs.Store.Alone

/-!
Contract: what a write leaves behind in any tree.

Owns:
- `Litters`, what a write that fails may add to a tree;
- `Marks`, what a write may change, whether it fails or not;
- `run_write_cases`, by which a write fails and litters, or is done on the files
  of its key;
- what writes leave of the files of other keys.

Nothing is asked of the tree but that the root leads to a directory. Directories
may stand where the files of the key belong, and files where its directories
belong; then the write fails.

Does not own: writers that take turns.
-/

namespace RoomLedger.Store

open RoomLedger.Disk
open RoomLedger.Text (Bytes)

/-! ## What writes may change -/

/-- A directory on the way to the files of a key, or its lock when it was just
made. -/
def IsLitter (key : String) (names : Path) (node : Node) : Prop :=
  names <+: folders key ∧ node = .directory ∨
    names = fileNames key .lock ∧ node = .file [] none

/-- What a writer that fails may leave behind. -/
abbrev Litters (place : Path) (key : String) (tree after : Tree) : Prop :=
  Tree.Extends place (IsLitter key) tree after

/-- What a writer may change. A draft is gone at the end. -/
structure Marks (place : Path) (key : String) (tree after : Tree) : Prop where
  keeps : ∀ other, tree.node? other = some .directory → after.node? other = some .directory
  elsewhere : ∀ other,
    after.node? other = tree.node? other ∨
      after.node? other = some .directory ∧
        (∃ front, front ≠ [] ∧ front <+: folders key ∧ other = place ++ front) ∨
      other = filePlace place key .blob ∨
      other = filePlace place key .lock ∨
      other = filePlace place key .draft ∧ after.node? other = none

private theorem Litters.marks {place : Path} {key : String} {tree after : Tree}
    (litters : Litters place key tree after) :
    Marks place key tree after := by
  refine ⟨litters.keeps, fun other => ?_⟩
  rcases litters other with same | ⟨-, directories, last, node, rfl, found, litter, -⟩
  · exact .inl same
  · rcases litter with ⟨before, rfl⟩ | ⟨names, -⟩
    · exact .inr (.inl ⟨found, directories ++ [last], by simp, before, rfl⟩)
    · rw [names]
      exact .inr (.inr (.inr (.inl rfl)))

/-- A file of the key itself stays as it is, or a directory or an empty lock is made
in its place. -/
theorem Litters.own {place : Path} {key : String} {tree after : Tree}
    (litters : Litters place key tree after) (valid : checkKey key = .ok ()) (part : Part) :
    after.node? (filePlace place key part) = tree.node? (filePlace place key part) ∨
      after.node? (filePlace place key part) = some .directory ∨
      part = .lock ∧ after.node? (filePlace place key part) = some (.file [] none) := by
  rcases litters (filePlace place key part) with
    same | ⟨-, directories, last, node, equal, found, litter, -⟩
  · exact .inl same
  · right
    rcases litter with ⟨-, rfl⟩ | ⟨lock, rfl⟩
    · exact .inl found
    · rw [← List.append_cancel_left equal] at lock
      exact .inr ⟨(fileNames_injective valid valid lock).2, found⟩

/-- A write on the files of its key that leaves no draft. -/
theorem Marks.of_leaves {root place : Path} {key : String} {tree middle after : Tree}
    {files : KeyFiles} (litters : Litters place key tree middle)
    (leaves : Leaves root place key middle after files) (draftless : files .draft = none) :
    Marks place key tree after := by
  constructor
  case keeps => exact fun other found => leaves.confined.keeps other (litters.keeps other found)
  case elsewhere =>
    intro other
    by_cases own : ∃ part : Part, other = filePlace place key part
    · obtain ⟨part, rfl⟩ := own
      cases part with
      | blob => exact .inr (.inr (.inl rfl))
      | lock => exact .inr (.inr (.inr (.inl rfl)))
      | draft =>
          refine .inr (.inr (.inr (.inr ⟨rfl, ?_⟩)))
          rw [leaves.shows_.node .draft, draftless]
          rfl
    · rcases leaves.confined.elsewhere other fun part equal => own ⟨part, equal⟩ with same | made
      · rw [same]
        exact litters.marks.elsewhere other
      · exact .inr (.inl made)

/-! ## Up to the lock -/

private theorem run_ask {α : Type} {holder : Holder} {request : Request}
    {next : request.Answer → Script α} {tree after : Tree} {answer : request.Answer}
    (performed : request.perform holder tree = (answer, after)) :
    (Script.ask request next).run holder tree = (next answer).run holder after :=
  run_of_step (step_ask performed)

/-- A writer can wait for the lock: the directories of the key's files exist, and
so does the lock. -/
structure IsReady (root place : Path) (key : String) (tree : Tree) : Prop where
  housed : Housed root key
  roots : tree.Roots root place
  isOpen : tree.IsOpen place (folders key)
  lock : ∃ content occupant,
    tree.node? (filePlace place key .lock) = some (.file content occupant)

section Writes

variable {root place : Path} {key : String} {tree : Tree}

/-- A lock that is opened is there, or nothing is changed. -/
theorem openFile_lock_cases (valid : checkKey key = .ok ()) (roots : tree.Roots root place) :
    (∃ fault, tree.openFile (filePath root key .lock) = (.error fault, tree)) ∨
      ∃ after, tree.openFile (filePath root key .lock) = (.ok (), after) ∧
        Litters place key tree after ∧ IsReady root place key after := by
  obtain ⟨last, -, names⟩ := fileNames_eq_concat key
  have plain : ∀ name ∈ fileNames key .lock, Path.IsPlain name :=
    fun name found => isPlain_of_mem_fileNames .lock valid found
  have lockPlace : filePlace place key .lock =
      place ++ (folders key ++ [last ++ Part.lock.ending]) := by
    rw [filePlace, names]
  rw [names] at plain
  rcases Tree.find_join_cases roots plain with ⟨fault, lost⟩ | ⟨found, isOpen, form, fits⟩
  · rw [← names] at lost
    exact .inl ⟨fault, by rw [Tree.openFile, filePath, lost]⟩
  · rw [← names] at found form fits
    rw [← filePlace] at found
    have housed : Housed root key := ⟨valid, form, fits⟩
    cases node : tree.node? (filePlace place key .lock) with
    | none =>
        right
        have litters : Litters place key tree
            (tree.put (filePlace place key .lock) (.file [] none)) := by
          rw [lockPlace] at node ⊢
          refine .put ?_ node isOpen (.inr ⟨(names .lock).symm, rfl⟩)
          rw [← lockPlace]
          exact housed.isGiven_filePlace place .lock
        refine ⟨_, by simp [Tree.openFile, filePath, found, node], litters, ?_⟩
        exact {
          housed
          roots := roots.keep litters.keeps
          isOpen := isOpen.keep litters.keeps
          lock := ⟨[], none, by simp [Tree.node?_put (housed.isGiven_filePlace place .lock)]⟩ }
    | some there =>
        cases there with
        | directory => exact .inl ⟨.isADirectory, by simp [Tree.openFile, filePath, found, node]⟩
        | file content occupant =>
            right
            refine ⟨tree, by simp [Tree.openFile, filePath, found, node], .of_same fun _ => rfl, ?_⟩
            exact ⟨housed, roots, isOpen, content, occupant, node⟩

variable (writer : Writer) (holder : Holder)

/-- A writer fails before it waits for the lock, or can wait for it. -/
theorem run_until_lock (valid : checkKey key = .ok ()) (roots : tree.Roots root place) :
    (∃ after, (writer.script root key).run holder tree = (.error .io, after) ∧
      Litters place key tree after) ∨
    ∃ middle,
      (writer.script root key).run holder tree =
        (Phase.locking.script root key writer).run holder middle ∧
      Litters place key tree middle ∧ IsReady root place key middle := by
  have plain : ∀ name ∈ folders key, Path.IsPlain name :=
    fun name found => isPlain_of_mem_folders valid found
  change (∃ after, (Phase.starting.script root key writer).run holder tree = _ ∧ _) ∨
    ∃ middle, (Phase.starting.script root key writer).run holder tree = _ ∧ _
  rw [script_starting valid, writer.parent_blobPath]
  cases made : tree.makeDirectories (root.join (folders key)) with
  | mk result middle =>
      obtain ⟨extends_, -⟩ := Tree.makeDirectories_extends roots plain made
      have litters : Litters place key tree middle := extends_.mono fun _ _ => .inl
      have performed : Request.perform holder (.makeDirectories (root.join (folders key))) tree =
          (result, middle) := made
      rw [run_ask performed]
      cases result with
      | error fault => exact .inl ⟨middle, rfl, litters⟩
      | ok =>
          rcases openFile_lock_cases valid (roots.keep litters.keeps) with
            ⟨fault, failed⟩ | ⟨after, opened, more, ready⟩
          · left
            rw [← writer.lockPath_eq] at failed
            have performed :
                Request.perform holder (.openFile ((writer.store root).lockPath key)) middle =
                  (.error fault, middle) := failed
            exact ⟨middle, run_ask performed, litters⟩
          · right
            rw [← writer.lockPath_eq] at opened
            have performed :
                Request.perform holder (.openFile ((writer.store root).lockPath key)) middle =
                  (.ok (), after) := opened
            exact ⟨after, run_ask performed, litters.trans more, ready⟩

/-! ## With the lock -/

theorem IsReady.find (ready : IsReady root place key tree) (part : Part) :
    tree.find (filePath root key part) =
      .ok (filePlace place key part, tree.node? (filePlace place key part)) := by
  obtain ⟨last, -, names⟩ := fileNames_eq_concat key
  have plain := ready.housed.isPlain part
  have form := ready.housed.form_part part
  have fits := ready.housed.fits_part part
  rw [filePath, filePlace, names] at *
  exact Tree.find_join_of_isOpen ready.roots plain form fits ready.isOpen

/-- Where the directories of a key are, a writer makes none, and waits for the lock
that it opened. -/
theorem run_of_openFile_lock {after : Tree} (housed : Housed root key)
    (roots : tree.Roots root place) (isOpen : tree.IsOpen place (folders key))
    (opened : tree.openFile (filePath root key .lock) = (.ok (), after)) :
    (writer.script root key).run holder tree =
      (Phase.locking.script root key writer).run holder after := by
  have leads := Tree.leads_of_isOpen isOpen housed.isPlain_folders housed.fits_folders
  have made : tree.makeDirectories (root.join (folders key)) = (.ok (), tree) := by
    rw [Tree.makeDirectories_join roots housed.isPlain_folders housed.form_folders,
      ← List.append_nil (folders key), Tree.makeMissing_append leads]
    rfl
  rw [← writer.parent_blobPath] at made
  rw [← writer.lockPath_eq] at opened
  have first : Request.perform holder (.makeDirectories ((writer.store root).blobPath key).parent)
      tree = (.ok (), tree) := made
  have second : Request.perform holder (.openFile ((writer.store root).lockPath key)) tree =
      (.ok (), after) := opened
  change (Phase.starting.script root key writer).run holder tree = _
  rw [script_starting housed.valid, run_ask first]
  exact run_ask second

/-- The tree while a writer has the lock. -/
def withLock (place : Path) (key : String) (content : Bytes) (holder : Holder) (tree : Tree) :
    Tree :=
  tree.put (filePlace place key .lock) (.file content (some holder))

section Locked

variable (ready : IsReady root place key tree) (content : Bytes)

include ready

private theorem IsReady.node?_withLock (other : Path) :
    (withLock place key content holder tree).node? other =
      if other = filePlace place key .lock then some (.file content (some holder))
      else tree.node? other :=
  Tree.node?_put (ready.housed.isGiven_filePlace place .lock) tree _ other

private theorem IsReady.withLock :
    IsReady root place key (withLock place key content holder tree) := by
  have node := ready.node?_withLock holder content
  have keeps : ∀ other, tree.node? other = some .directory →
      (Store.withLock place key content holder tree).node? other = some .directory := by
    intro other directory
    rw [node, if_neg]
    · exact directory
    · rintro rfl
      obtain ⟨_, _, file⟩ := ready.lock
      rw [file] at directory
      cases directory
  exact {
    housed := ready.housed
    roots := ready.roots.keep keeps
    isOpen := ready.isOpen.keep keeps
    lock := ⟨content, some holder, by rw [node, if_pos rfl]⟩ }

/-- The blob and the draft are found where they were. -/
theorem IsReady.find_withLock (part : Part) (apart : part ≠ .lock) :
    (Store.withLock place key content holder tree).find (filePath root key part) =
      .ok (filePlace place key part, tree.node? (filePlace place key part)) := by
  have otherPlace : filePlace place key part ≠ filePlace place key .lock :=
    fun same => apart (filePlace_injective ready.housed same)
  rw [(ready.withLock holder content).find part, ready.node?_withLock, if_neg otherPlace]

variable {content}

theorem run_locking_of_free
    (free : tree.node? (filePlace place key .lock) = some (.file content none)) :
    (Phase.locking.script root key writer).run holder tree =
      (Phase.reading.script root key writer).run holder
        (withLock place key content holder tree) := by
  have found := ready.find .lock
  rw [free, ← writer.lockPath_eq] at found
  have performed : Request.perform holder (.takeLock ((writer.store root).lockPath key)
      writer.settings.lockTimeout) tree = (.ok true, withLock place key content holder tree) := by
    simp [Request.perform, Tree.takeLock, found, withLock]
  exact run_ask performed

theorem run_locking_of_held {occupant : Holder}
    (held : tree.node? (filePlace place key .lock) = some (.file content (some occupant))) :
    (Phase.locking.script root key writer).run holder tree =
      (.error (.lockTimeout key), tree) := by
  have found := ready.find .lock
  rw [held, ← writer.lockPath_eq] at found
  have performed : Request.perform holder (.takeLock ((writer.store root).lockPath key)
      writer.settings.lockTimeout) tree = (.ok false, tree) := by
    simp [Request.perform, Tree.takeLock, found]
  exact run_ask performed

variable (content)

/-- A writer with the lock goes on as it is told about the blob's file. -/
theorem run_reading :
    (Phase.reading.script root key writer).run holder (withLock place key content holder tree) =
      ((Phase.judging key writer (tree.contentOf (filePath root key .blob))).script root key
        writer).run holder (withLock place key content holder tree) := by
  have found : (withLock place key content holder tree).contentOf (filePath root key .blob) =
      tree.contentOf (filePath root key .blob) := by
    rw [Tree.contentOf, Tree.contentOf, ready.find .blob,
      ready.find_withLock holder content .blob (by decide)]
  rw [← writer.blobPath_eq] at found
  have performed : Request.perform holder (.read ((writer.store root).blobPath key))
      (withLock place key content holder tree) =
        (tree.contentOf ((writer.store root).blobPath key),
          withLock place key content holder tree) := by
    rw [Request.perform, found]
  rw [script_judging, ← writer.blobPath_eq]
  exact run_ask performed

/-- Where a directory has the name of the draft, the write fails. -/
theorem run_creating_of_directory
    (directory : tree.node? (filePlace place key .draft) = some .directory)
    (generation : Generation) :
    ((Phase.creating generation).script root key writer).run holder
        (withLock place key content holder tree) =
      ((writer.store root).release key (.error .io)).run holder
        (withLock place key content holder tree) := by
  have found := ready.find_withLock holder content .draft (by decide)
  rw [directory, ← writer.draftPath_eq] at found
  have performed : Request.perform holder (.create ((writer.store root).draftPath key))
      (withLock place key content holder tree) =
        (.error .isADirectory, withLock place key content holder tree) := by
    simp [Request.perform, Tree.createFile, found]
  exact run_ask performed

/-- A lock that was taken and is given up is as it was. -/
theorem run_release (free : tree.node? (filePlace place key .lock) = some (.file content none))
    (result : Except Error Generation) :
    ∃ after,
      ((writer.store root).release key result).run holder
          (withLock place key content holder tree) = (result, after) ∧
      ∀ other, after.node? other = tree.node? other := by
  have notGiven := ready.housed.isGiven_filePlace place .lock
  have found := (ready.withLock holder content).find .lock
  rw [ready.node?_withLock, if_pos rfl, ← writer.lockPath_eq] at found
  refine ⟨_, by simp [FileStore.release, Script.run, Request.perform, Tree.dropLock, found]; rfl,
    ?_⟩
  intro other
  rw [Tree.node?_put notGiven, ready.node?_withLock]
  split
  · rename_i here
    rw [here, free]
  · rfl

end Locked

/-- The files of a key at their places. A directory is no file. -/
def filesAt (place : Path) (key : String) (tree : Tree) : KeyFiles :=
  fun part =>
    match tree.node? (filePlace place key part) with
    | some (.file content occupant) => some ⟨content, occupant⟩
    | _ => none

private theorem IsReady.shows_ (ready : IsReady root place key tree)
    (files : ∀ part : Part, tree.node? (filePlace place key part) ≠ some .directory) :
    Shows root place key tree (filesAt place key tree) := by
  constructor
  case roots => exact ready.roots
  case clear => exact ready.isOpen.isClear
  case node =>
    intro part
    rw [filesAt]
    cases node : tree.node? (filePlace place key part) with
    | none => rfl
    | some there =>
        cases there with
        | directory => exact absurd node (files part)
        | file content occupant => rfl
  case reached => exact .inl ready.isOpen

/-- The blob's file is the one that a writer laid out, and its draft is gone. -/
def HasPut (writer : Writer) (generation : Generation) (files : KeyFiles) : Prop :=
  files .draft = none ∧ ∃ occupant, files .blob = some ⟨writer.file generation, occupant⟩

/-- What is left by a writer that has moved its draft. -/
def Phase.IsPut (writer : Writer) : Phase → KeyFiles → Prop
  | releasing (.ok generation), files => HasPut writer generation files
  | finished (.ok generation), files => HasPut writer generation files
  | _, _ => True

private theorem isPut_filling (writer : Writer) (generation : Generation) (chunks : List Bytes)
    (files : KeyFiles) :
    (Phase.filling writer generation chunks).IsPut writer files := by
  rcases filling_cases writer generation chunks with
    ⟨chunk, rest, -, filling⟩ | ⟨-, filling | filling⟩
  · rw [filling]
    trivial
  · rw [filling]
    trivial
  · rw [filling]
    trivial

/-- The draft that is moved is the whole file. -/
theorem isPut_turn {phase : Phase} {files : KeyFiles} {version : Version}
    (stands : phase.Stands key writer holder files version) (put : phase.IsPut writer files) :
    (phase.turn key writer holder files).1.IsPut writer (phase.turn key writer holder files).2 := by
  cases phase with
  | starting => trivial
  | opening => trivial
  | locking =>
      rw [Phase.turn]
      split <;> trivial
  | reading =>
      rw [Phase.turn]
      rcases judging_cases key writer files.answer with ⟨error, judged⟩ | ⟨generation, judged⟩
      · rw [judged]
        trivial
      · rw [judged]
        trivial
  | creating generation => exact isPut_filling writer generation (writer.chunks generation) _
  | pouring generation chunk rest => exact isPut_filling writer generation rest _
  | syncing generation => trivial
  | publishing generation =>
      obtain ⟨-, -, occupant, drafted⟩ := stands
      simp [Phase.turn, Phase.IsPut, HasPut, drafted]
  | releasing result =>
      cases result with
      | error error => trivial
      | ok generation => simpa [Phase.turn, Phase.IsPut, HasPut] using put
  | finished result => exact put

/-- There is a lock with that content, whoever has it. -/
def HasLock (content : Bytes) (files : KeyFiles) : Prop :=
  ∃ occupant, files .lock = some ⟨content, occupant⟩

/-- A lock that is there stays there, with the content that it has. -/
theorem hasLock_turn {content : Bytes} {files : KeyFiles} (hasLock : HasLock content files)
    (phase : Phase) :
    HasLock content (phase.turn key writer holder files).2 := by
  obtain ⟨occupant, lock⟩ := hasLock
  cases phase with
  | starting => exact ⟨occupant, lock⟩
  | opening => exact ⟨occupant, by simp [Phase.turn, lock]⟩
  | locking =>
      cases occupant with
      | none => exact ⟨some holder, by simp [Phase.turn, lock]⟩
      | some other => exact ⟨some other, by simp [Phase.turn, lock]⟩
  | reading => exact ⟨occupant, lock⟩
  | creating generation => exact ⟨occupant, by simp [Phase.turn, lock]⟩
  | pouring generation chunk rest => exact ⟨occupant, by simp [Phase.turn, lock]⟩
  | syncing generation => exact ⟨occupant, lock⟩
  | publishing generation => exact ⟨occupant, by simp [Phase.turn, lock]⟩
  | releasing result => exact ⟨none, by simp [Phase.turn, lock]⟩
  | finished result => exact ⟨occupant, lock⟩

/-- The lock keeps its content, and a draft that was moved is the blob. -/
def Phase.IsTidy (writer : Writer) (content : Bytes) (phase : Phase) (files : KeyFiles) : Prop :=
  phase.IsPut writer files ∧ HasLock content files

private theorem isTidy_turn {content : Bytes} {phase : Phase} {files : KeyFiles} {version : Version}
    (stands : phase.Stands key writer holder files version)
    (tidy : phase.IsTidy writer content files) :
    (phase.turn key writer holder files).1.IsTidy writer content
      (phase.turn key writer holder files).2 :=
  ⟨isPut_turn writer holder stands tidy.1, hasLock_turn writer holder tidy.2 phase⟩

/-- A write that was done on the files of its key. -/
structure IsDone (root place : Path) (key : String) (writer : Writer) (generation : Generation)
    (tree after : Tree) (filesAfter : KeyFiles) : Prop where
  housed : Housed root key
  shows_ : ∃ files, Shows root place key tree files
  isOpen : after.IsOpen place (folders key)
  leaves : Leaves root place key tree after filesAfter
  read : FileStore.interpret key filesAfter.answer = .ok (writer.version generation)
  /-- The lock was free, and is free again. -/
  lock : ∃ content, tree.node? (filePlace place key .lock) = some (.file content none) ∧
    filesAfter .lock = some ⟨content, none⟩
  put : HasPut writer generation filesAfter

/-- A writer that is let on by what it is told, and can make its draft, puts its
blob. -/
theorem run_locking_of_creating (ready : IsReady root place key tree) {content : Bytes}
    {generation : Generation}
    (free : tree.node? (filePlace place key .lock) = some (.file content none))
    (judged : Phase.judging key writer (tree.contentOf (filePath root key .blob)) =
      .creating generation)
    (draft : tree.node? (filePlace place key .draft) ≠ some .directory) :
    ∃ after filesAfter,
      (Phase.locking.script root key writer).run holder tree = (.ok generation, after) ∧
      IsDone root place key writer generation tree after filesAfter := by
  have blob : tree.node? (filePlace place key .blob) ≠ some .directory := by
    intro directory
    have refused : tree.contentOf (filePath root key .blob) = .error .isADirectory := by
      rw [Tree.contentOf, ready.find .blob, directory]
    rw [refused] at judged
    cases judged
  have shows_ := ready.shows_ fun part => by
    cases part with
    | blob => exact blob
    | lock => simp [free]
    | draft => exact draft
  have lock : filesAt place key tree .lock = some ⟨content, none⟩ := by simp [filesAt, free]
  have answer : tree.contentOf (filePath root key .blob) = (filesAt place key tree).answer :=
    congrArg Prod.fst (perform_read holder ready.housed shows_)
  rw [answer, Phase.judging] at judged
  cases read : FileStore.interpret key (filesAt place key tree).answer with
  | error error => simp [read] at judged
  | ok version =>
      simp only [read] at judged
      cases marked : nextMark key version.generation writer.expected with
      | error error => simp [marked] at judged
      | ok next =>
          simp only [marked, Phase.creating.injEq] at judged
          subst judged
          have alone : Phase.locking.IsAlone (filesAt place key tree) := by
            intro other occupant held
            rw [lock] at held
            cases held
          have stands :
              Phase.locking.Stands key writer holder (filesAt place key tree) version := by
            simp [Phase.Stands, lock]
          obtain ⟨after, filesAfter, ran, leaves, found, freeAfter, put, occupant, lockAfter⟩ :=
            run_script_keeps ready.housed shows_ .locking (.inr ready.isOpen) stands alone read
              (Phase.IsTidy writer content)
              (fun _ _ _ stands tidy => isTidy_turn writer holder stands tidy)
              ⟨trivial, none, lock⟩
          simp only [Phase.outcome, Writer.outcome, marked] at ran found put
          have released : occupant = none := by
            cases occupant with
            | none => rfl
            | some other => exact absurd lockAfter (freeAfter content other)
          rw [released] at lockAfter
          exact ⟨after, filesAfter, ran, {
            housed := ready.housed
            shows_ := ⟨_, shows_⟩
            isOpen := leaves.isOpen ready.isOpen
            leaves
            read := found
            lock := ⟨content, free, lockAfter⟩
            put }⟩

/-- Someone has the lock that a writer waits for, or the writer is refused by what it
is told about the blob's file. -/
def IsRefused (root place : Path) (key : String) (writer : Writer) (tree : Tree) (error : Error) :
    Prop :=
  (∃ content occupant,
    tree.node? (filePlace place key .lock) = some (.file content (some occupant))) ∨
  Phase.judging key writer (tree.contentOf (filePath root key .blob)) = .releasing (.error error)

/-- A writer that can wait for the lock fails and leaves everything as it is, or
puts its blob. -/
theorem run_locking_cases (ready : IsReady root place key tree) :
    (∃ error after,
      (Phase.locking.script root key writer).run holder tree = (.error error, after) ∧
      (∀ other, after.node? other = tree.node? other) ∧
      (error = .io ∨ IsRefused root place key writer tree error)) ∨
    ∃ generation after filesAfter,
      (Phase.locking.script root key writer).run holder tree = (.ok generation, after) ∧
      IsDone root place key writer generation tree after filesAfter := by
  obtain ⟨content, occupant, lock⟩ := ready.lock
  cases occupant with
  | some other =>
      have held := run_locking_of_held writer holder ready lock
      exact .inl ⟨_, tree, held, fun _ => rfl, .inr (.inl ⟨content, other, lock⟩)⟩
  | none =>
      have told := (run_locking_of_free writer holder ready lock).trans
        (run_reading writer holder ready content)
      rcases judging_cases key writer (tree.contentOf (filePath root key .blob)) with
        ⟨error, judged⟩ | ⟨generation, judged⟩
      · left
        obtain ⟨after, released, same⟩ :=
          run_release writer holder ready content lock (.error error)
        rw [judged] at told
        exact ⟨error, after, told.trans released, same, .inr (.inr judged)⟩
      · by_cases directory : tree.node? (filePlace place key .draft) = some .directory
        · left
          have created := run_creating_of_directory writer holder ready content directory generation
          obtain ⟨after, released, same⟩ :=
            run_release writer holder ready content lock (.error .io)
          rw [judged] at told
          exact ⟨.io, after, told.trans (created.trans released), same, .inl rfl⟩
        · right
          obtain ⟨after, filesAfter, ran, done⟩ :=
            run_locking_of_creating writer holder ready lock judged directory
          exact ⟨generation, after, filesAfter, ran, done⟩

/-! ## The whole write -/

/-- A write fails and leaves nothing but litter, or is done on the files of its
key, after nothing but litter was added to the tree. -/
theorem run_write_cases (valid : checkKey key = .ok ()) (roots : tree.Roots root place) :
    (∃ error after,
      (writer.script root key).run holder tree = (.error error, after) ∧
      Litters place key tree after ∧
      (error = .io ∨ ∃ middle, Litters place key tree middle ∧ IsReady root place key middle ∧
        IsRefused root place key writer middle error)) ∨
    ∃ generation middle after filesAfter,
      (writer.script root key).run holder tree = (.ok generation, after) ∧
      Litters place key tree middle ∧
      IsDone root place key writer generation middle after filesAfter := by
  rcases run_until_lock writer holder valid roots with
    ⟨after, failed, litters⟩ | ⟨middle, ran, litters, ready⟩
  · exact .inl ⟨.io, after, failed, litters, .inl rfl⟩
  · rw [ran]
    rcases run_locking_cases writer holder ready with
      ⟨error, after, failed, same, cause⟩ | ⟨generation, after, filesAfter, done, isDone⟩
    · refine .inl ⟨error, after, failed, litters.trans (.of_same same), ?_⟩
      rcases cause with io | refused
      · exact .inl io
      · exact .inr ⟨middle, litters, ready, refused⟩
    · exact .inr ⟨generation, middle, after, filesAfter, done, litters, isDone⟩

variable {writer holder}

/-- A write that answers with a mark was done on the files of a key within limits. -/
theorem isDone_of_ok {generation : Generation} {after : Tree} (roots : tree.Roots root place)
    (ran : (writer.script root key).run holder tree = (.ok generation, after)) :
    ∃ middle filesAfter,
      Litters place key tree middle ∧
      IsDone root place key writer generation middle after filesAfter := by
  cases valid : checkKey key with
  | error fault =>
      rw [Writer.script, FileStore.write, valid] at ran
      cases ran
  | ok =>
      rcases run_write_cases writer holder valid roots with
        ⟨error, _, failed, -, -⟩ | ⟨_, middle, _, filesAfter, succeeded, litters, done⟩
      · rw [failed] at ran
        cases ran
      · rw [succeeded] at ran
        cases ran
        exact ⟨middle, filesAfter, litters, done⟩

/-- A write that fails leaves litter of its key at most. -/
theorem litters_of_error {error : Error} {after : Tree} (roots : tree.Roots root place)
    (ran : (writer.script root key).run holder tree = (.error error, after)) :
    Litters place key tree after := by
  cases valid : checkKey key with
  | error fault =>
      rw [Writer.script, FileStore.write, valid] at ran
      cases ran
      exact .of_same fun _ => rfl
  | ok =>
      rcases run_write_cases writer holder valid roots with
        ⟨_, _, failed, litters, -⟩ | ⟨_, _, _, _, succeeded, -, -⟩
      · rw [failed] at ran
        cases ran
        exact litters
      · rw [succeeded] at ran
        cases ran

variable (writer holder)

theorem marks_of_write (valid : checkKey key = .ok ()) (roots : tree.Roots root place) :
    Marks place key tree ((writer.script root key).run holder tree).2 := by
  rcases run_write_cases writer holder valid roots with
    ⟨error, after, ran, litters, -⟩ | ⟨generation, middle, after, filesAfter, ran, litters, done⟩
  · rw [ran]
    exact litters.marks
  · rw [ran]
    exact .of_leaves litters done.leaves done.put.1

end Writes

private theorem IsDone.isGrown {root place : Path} {key : String} {writer : Writer}
    {generation : Generation} {tree after : Tree} {filesAfter : KeyFiles}
    (done : IsDone root place key writer generation tree after filesAfter)
    (grown : tree.IsGrown place) :
    after.IsGrown place := by
  intro directories last plain some
  by_cases own : ∃ part : Part, place ++ (directories ++ [last]) = filePlace place key part
  · obtain ⟨part, equal⟩ := own
    obtain ⟨name, -, names⟩ := fileNames_eq_concat key
    have concat := List.append_cancel_left equal
    rw [names part] at concat
    rw [(List.append_singleton_inj.mp concat).1]
    exact done.isOpen
  · rcases done.leaves.confined.elsewhere _ fun part equal => own ⟨part, equal⟩ with
      same | ⟨-, front, -, before, equal⟩
    · rw [same] at some
      exact (grown directories last plain some).keep done.leaves.confined.keeps
    · rw [← List.append_cancel_left equal] at before
      exact done.isOpen.mono ((List.prefix_append directories [last]).trans before)

/-- Whatever a write answers, every node still lies in a directory. -/
theorem isGrown_of_write {root place : Path} {key : String} {tree : Tree} (writer : Writer)
    (holder : Holder) (roots : tree.Roots root place) (grown : tree.IsGrown place) :
    ((writer.script root key).run holder tree).2.Roots root place ∧
      ((writer.script root key).run holder tree).2.IsGrown place := by
  cases valid : checkKey key with
  | error fault =>
      rw [Writer.script, FileStore.write, valid]
      exact ⟨roots, grown⟩
  | ok =>
      refine ⟨roots.keep (marks_of_write writer holder valid roots).keeps, ?_⟩
      rcases run_write_cases writer holder valid roots with
        ⟨error, after, ran, litters, -⟩ |
          ⟨generation, middle, after, filesAfter, ran, litters, done⟩
      · rw [ran]
        exact litters.isGrown grown
      · rw [ran]
        exact done.isGrown (litters.isGrown grown)

/-! ## Other keys -/

/-- What writes of a key leave behind takes the place of a directory on the way to
the files of another, or needs a directory in the place of one of those. A draft
that is gone is in nobody's way. -/
def Hampers (key other : String) : Prop :=
  fileNames key .blob <+: folders other ∨ fileNames key .lock <+: folders other ∨
    Obstructs other key

instance (key other : String) : Decidable (Hampers key other) :=
  inferInstanceAs (Decidable (_ ∨ _ ∨ _))

/-- A file of another key stays as it is, or a directory was made in its place. -/
theorem Marks.node_of_other {place : Path} {key other : String} {tree after : Tree}
    (marks : Marks place key tree after) (valid : checkKey key = .ok ())
    (otherValid : checkKey other = .ok ()) (different : other ≠ key) (part : Part) :
    after.node? (filePlace place other part) = tree.node? (filePlace place other part) ∨
      after.node? (filePlace place other part) = some .directory ∧
        fileNames other part <+: folders key := by
  have apart (own : Part) : filePlace place other part ≠ filePlace place key own :=
    fun equal => different
      (fileNames_injective otherValid valid (List.append_cancel_left equal)).1
  rcases marks.elsewhere (filePlace place other part) with
    same | ⟨made, front, -, before, equal⟩ | blob | lock | ⟨draft, -⟩
  · exact .inl same
  · rw [← List.append_cancel_left equal] at before
    exact .inr ⟨made, before⟩
  · exact absurd blob (apart .blob)
  · exact absurd lock (apart .lock)
  · exact absurd draft (apart .draft)

/-- Writes of a key change nothing about the files of another that they do not
hamper. -/
theorem Shows.marked {root place : Path} {key other : String} {tree after : Tree} {files : KeyFiles}
    (shows_ : Shows root place other tree files) (marks : Marks place key tree after)
    (valid : checkKey key = .ok ()) (otherValid : checkKey other = .ok ()) (different : other ≠ key)
    (free : ¬ Hampers key other) :
    Shows root place other after files := by
  constructor
  case roots => exact shows_.roots.keep marks.keeps
  case clear =>
    intro front some before
    have apart (part : Part) (found : place ++ front = filePlace place key part) :
        fileNames key part <+: folders other := by
      rwa [← List.append_cancel_left found]
    rcases marks.elsewhere (place ++ front) with same | ⟨made, -⟩ | blob | lock | ⟨-, gone⟩
    · rw [same]
      exact shows_.clear front some before
    · exact .inr made
    · exact absurd (.inl (apart .blob blob)) free
    · exact absurd (.inr (.inl (apart .lock lock))) free
    · exact .inl gone
  case node =>
    intro part
    rcases marks.node_of_other valid otherValid different part with same | ⟨-, before⟩
    · rw [same]
      exact shows_.node part
    · exact absurd (.inr (.inr ⟨part, before⟩)) free
  case reached =>
    rcases shows_.reached with isOpen | none
    · exact .inl (isOpen.keep marks.keeps)
    · exact .inr none

end RoomLedger.Store
