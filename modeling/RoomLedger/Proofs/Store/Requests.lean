import Mathlib.Logic.Function.Basic
import RoomLedger.Proofs.Store.KeyFiles

/-!
Contract: what the requests of a writer do to the files of its key.

Owns:
- `Shows`, what a tree has at the places of a key's files;
- `Confined`, a change that touches nothing but the files of one key and the
  directories on their way;
- one law for each request: what it answers, and what the files are after it;
- what the requests of a writer leave of the files of other keys, and what the
  end of a holder does.

The laws say all that a script needs to know of a tree, so what is proved about
scripts does not look at paths.

Does not own: the order of the requests.
-/

namespace RoomLedger.Store

open RoomLedger.Disk
open RoomLedger.Text (Bytes)

/-! ## Files in a tree -/

/-- A file that belongs to a key, as it is in a tree. -/
structure KeyFile where
  content : Bytes
  holder : Option Holder
deriving DecidableEq, Repr

def KeyFile.node (file : KeyFile) : Node :=
  .file file.content file.holder

abbrev KeyFiles := Part → Option KeyFile

/-- The answer to a request for the content of the blob's file. -/
def KeyFiles.answer (files : KeyFiles) : Except Fault Bytes :=
  match files .blob with
  | none => .error .notFound
  | some file => .ok file.content

/-- What a tree has at the places of a key's files. Where a directory on the way
is missing there are none. -/
structure Shows (root place : Path) (key : String) (tree : Tree) (files : KeyFiles) : Prop where
  roots : tree.Roots root place
  clear : tree.IsClear place (folders key)
  node : ∀ part : Part, tree.node? (filePlace place key part) = (files part).map KeyFile.node
  reached : tree.IsOpen place (folders key) ∨ ∀ part : Part, files part = none

/-- A change that touches nothing but the files of a key and makes no directory
but those on their way. -/
structure Confined (place : Path) (key : String) (tree after : Tree) : Prop where
  keeps : ∀ other, tree.node? other = some .directory → after.node? other = some .directory
  elsewhere : ∀ other, (∀ part : Part, other ≠ filePlace place key part) →
    after.node? other = tree.node? other ∨
      after.node? other = some .directory ∧
        ∃ front, front ≠ [] ∧ front <+: folders key ∧ other = place ++ front

private theorem Confined.refl (place : Path) (key : String) (tree : Tree) :
    Confined place key tree tree :=
  ⟨fun _ found => found, fun _ _ => .inl rfl⟩

private theorem Confined.trans {place : Path} {key : String} {tree middle after : Tree}
    (first : Confined place key tree middle) (second : Confined place key middle after) :
    Confined place key tree after := by
  constructor
  case keeps => exact fun other found => second.keeps other (first.keeps other found)
  case elsewhere =>
    intro other apart
    rcases second.elsewhere other apart with same | made
    · rw [same]
      exact first.elsewhere other apart
    · exact .inr made

/-- The tree after a change of the files of one key. -/
structure Leaves (root place : Path) (key : String) (tree after : Tree) (files : KeyFiles) :
    Prop where
  shows_ : Shows root place key after files
  confined : Confined place key tree after

theorem Leaves.isOpen {root place : Path} {key : String} {tree after : Tree} {files : KeyFiles}
    (leaves : Leaves root place key tree after files) (isOpen : tree.IsOpen place (folders key)) :
    after.IsOpen place (folders key) := by
  intro front some before
  exact leaves.confined.keeps _ (isOpen front some before)

theorem Leaves.trans {root place : Path} {key : String} {tree middle after : Tree}
    {first second : KeyFiles} (before : Leaves root place key tree middle first)
    (later : Leaves root place key middle after second) :
    Leaves root place key tree after second :=
  ⟨later.shows_, before.confined.trans later.confined⟩

section Requests

variable {root place : Path} {key : String} {tree after : Tree} {files filesAfter : KeyFiles}

theorem Shows.stay (shows_ : Shows root place key tree files) :
    Leaves root place key tree tree files :=
  ⟨shows_, .refl place key tree⟩

/-- A change of the files alone. -/
theorem Shows.change (shows_ : Shows root place key tree files)
    (isOpen : tree.IsOpen place (folders key))
    (here : ∀ part : Part,
      after.node? (filePlace place key part) = (filesAfter part).map KeyFile.node)
    (elsewhere : ∀ other, (∀ part : Part, other ≠ filePlace place key part) →
      after.node? other = tree.node? other) :
    Leaves root place key tree after filesAfter := by
  have keeps : ∀ other, tree.node? other = some .directory →
      after.node? other = some .directory := by
    intro other directory
    rw [elsewhere]
    · exact directory
    · rintro part rfl
      rw [shows_.node part] at directory
      cases found : files part with
      | none => simp [found] at directory
      | some file => simp [found, KeyFile.node] at directory
  have stays : after.IsOpen place (folders key) := by
    intro front some before
    exact keeps _ (isOpen front some before)
  constructor
  case shows_ =>
    exact {
      roots := shows_.roots.keep keeps
      clear := stays.isClear
      node := here
      reached := .inl stays }
  case confined => exact ⟨keeps, fun other apart => .inl (elsewhere other apart)⟩

theorem filePlace_injective (housed : Housed root key) {left right : Part}
    (same : filePlace place key left = filePlace place key right) :
    left = right :=
  (fileNames_injective housed.valid housed.valid (List.append_cancel_left same)).2

private theorem Shows.put (housed : Housed root key) (shows_ : Shows root place key tree files)
    (isOpen : tree.IsOpen place (folders key)) (part : Part) (file : KeyFile) :
    Leaves root place key tree (tree.put (filePlace place key part) file.node)
      (Function.update files part (some file)) := by
  apply shows_.change isOpen
  · intro other
    rw [Tree.node?_put (housed.isGiven_filePlace place part)]
    by_cases same : other = part
    · subst same
      simp
    · have apart : filePlace place key other ≠ filePlace place key part := by
        intro equal
        exact same (filePlace_injective housed equal)
      rw [if_neg apart, Function.update_of_ne same, shows_.node other]
  · intro other apart
    rw [Tree.node?_put (housed.isGiven_filePlace place part), if_neg (apart part)]

theorem find_filePath (housed : Housed root key) (shows_ : Shows root place key tree files)
    (isOpen : tree.IsOpen place (folders key)) (part : Part) :
    tree.find (filePath root key part) =
      .ok (filePlace place key part, (files part).map KeyFile.node) := by
  obtain ⟨last, -, names⟩ := fileNames_eq_concat key
  have plain := housed.isPlain part
  have fits := housed.fits_part part
  have found := Tree.find_join shows_.roots (by simp [names]) plain (housed.form_part part)
  rw [names] at plain fits
  have walked := Tree.walk_of_isOpen isOpen plain fits
  rw [← names] at walked
  rw [filePath, found, walked]
  exact congrArg (fun node => Except.ok (filePlace place key part, node)) (shows_.node part)

/-- Where a directory on the way may be missing, a file is found or nothing is. -/
theorem find_filePath_of_isClear (housed : Housed root key)
    (shows_ : Shows root place key tree files) (part : Part) :
    tree.find (filePath root key part) =
        .ok (filePlace place key part, (files part).map KeyFile.node) ∨
      tree.find (filePath root key part) = .error .notFound := by
  obtain ⟨last, -, names⟩ := fileNames_eq_concat key
  have plain := housed.isPlain part
  have fits := housed.fits_part part
  have found := Tree.find_join shows_.roots (by simp [names]) plain (housed.form_part part)
  rw [names] at plain fits
  rcases Tree.walk_of_isClear shows_.clear plain fits with reached | missing
  · left
    rw [← names] at reached
    rw [filePath, found, reached]
    exact congrArg (fun node => Except.ok (filePlace place key part, node)) (shows_.node part)
  · right
    rw [← names] at missing
    rw [filePath, found, missing]

/-! ## Requests -/

variable (holder : Holder)

/-- The directories on the way are made where they are missing. -/
theorem perform_makeDirectories (housed : Housed root key)
    (shows_ : Shows root place key tree files) :
    ∃ after,
      Request.perform holder (.makeDirectories (root.join (folders key))) tree = (.ok (), after) ∧
      after.IsOpen place (folders key) ∧ Leaves root place key tree after files := by
  obtain ⟨last, -, names⟩ := fileNames_eq_concat key
  obtain ⟨after, made, isOpen, elsewhere⟩ :=
    Tree.makeMissing_of_isClear shows_.clear housed.isPlain_folders housed.fits_folders
  have everywhere : ∀ other, after.node? other = tree.node? other ∨
      ∃ front, front ≠ [] ∧ front <+: folders key ∧ other = place ++ front := by
    intro other
    by_cases onWay : ∃ front, front ≠ [] ∧ front <+: folders key ∧ other = place ++ front
    · exact .inr onWay
    · left
      apply elsewhere
      intro front some before equal
      exact onWay ⟨front, some, before, equal⟩
  have keeps : ∀ other, tree.node? other = some .directory →
      after.node? other = some .directory := by
    intro other directory
    rcases everywhere other with same | ⟨front, some, before, rfl⟩
    · rw [same]
      exact directory
    · exact isOpen front some before
  have node : ∀ part : Part,
      after.node? (filePlace place key part) = (files part).map KeyFile.node := by
    intro part
    rw [elsewhere]
    · exact shows_.node part
    · intro front _ before equal
      have lengths := congrArg List.length (List.append_cancel_left equal)
      have short := before.length_le
      rw [names, List.length_append, List.length_singleton] at lengths
      omega
  refine ⟨after, ?_, isOpen, ?_, ?_⟩
  · rw [← made]
    exact Tree.makeDirectories_join shows_.roots housed.isPlain_folders housed.form_folders
  · exact {
      roots := shows_.roots.keep keeps
      clear := isOpen.isClear
      node
      reached := .inl isOpen }
  · refine ⟨keeps, fun other _ => ?_⟩
    rcases everywhere other with same | ⟨front, some, before, rfl⟩
    · exact .inl same
    · exact .inr ⟨isOpen front some before, front, some, before, rfl⟩

/-- A reader finds what the blob's file holds, also where directories on the way
are missing. -/
theorem perform_read (housed : Housed root key) (shows_ : Shows root place key tree files) :
    Request.perform holder (.read (filePath root key .blob)) tree = (files.answer, tree) := by
  have content : tree.contentOf (filePath root key .blob) = files.answer := by
    rcases shows_.reached with isOpen | none
    · rw [Tree.contentOf, find_filePath housed shows_ isOpen, KeyFiles.answer]
      cases files .blob <;> rfl
    · rw [KeyFiles.answer, none .blob, Tree.contentOf]
      rcases find_filePath_of_isClear housed shows_ .blob with found | missing
      · rw [found, none .blob]
        rfl
      · rw [missing]
  rw [Request.perform, content]

section Open

variable (housed : Housed root key) (shows_ : Shows root place key tree files)
  (isOpen : tree.IsOpen place (folders key))

include housed shows_ isOpen

/-- A file that is opened is there afterwards. -/
theorem perform_openFile (part : Part) :
    ∃ after,
      Request.perform holder (.openFile (filePath root key part)) tree = (.ok (), after) ∧
      Leaves root place key tree after
        (Function.update files part (some ((files part).getD ⟨[], none⟩))) := by
  have find := find_filePath housed shows_ isOpen part
  cases found : files part with
  | some file =>
      refine ⟨tree, ?_, ?_⟩
      · simp [Request.perform, Tree.openFile, find, found, KeyFile.node]
      · rw [Option.getD_some, ← found, Function.update_eq_self]
        exact shows_.stay
  | none =>
      refine ⟨_, ?_, shows_.put housed isOpen part ⟨[], none⟩⟩
      simp [Request.perform, Tree.openFile, find, found, KeyFile.node]

theorem perform_takeLock {part : Part} {content : Bytes} (patience : Nat)
    (found : files part = some ⟨content, none⟩) :
    ∃ after,
      Request.perform holder (.takeLock (filePath root key part) patience) tree =
        (.ok true, after) ∧
      Leaves root place key tree after
        (Function.update files part (some ⟨content, some holder⟩)) := by
  have find := find_filePath housed shows_ isOpen part
  refine ⟨_, ?_, shows_.put housed isOpen part ⟨content, some holder⟩⟩
  simp [Request.perform, Tree.takeLock, find, found, KeyFile.node]

theorem perform_takeLock_of_held {part : Part} {content : Bytes} {other : Holder} (patience : Nat)
    (found : files part = some ⟨content, some other⟩) :
    Request.perform holder (.takeLock (filePath root key part) patience) tree =
      (.ok false, tree) := by
  have find := find_filePath housed shows_ isOpen part
  simp [Request.perform, Tree.takeLock, find, found, KeyFile.node]

theorem perform_dropLock {part : Part} {content : Bytes}
    (found : files part = some ⟨content, some holder⟩) :
    ∃ after,
      Request.perform holder (.dropLock (filePath root key part)) tree = ((), after) ∧
      Leaves root place key tree after
        (Function.update files part (some ⟨content, none⟩)) := by
  have find := find_filePath housed shows_ isOpen part
  refine ⟨_, ?_, shows_.put housed isOpen part ⟨content, none⟩⟩
  simp [Request.perform, Tree.dropLock, find, found, KeyFile.node]

/-- A file that is created anew keeps nothing but its lock. -/
theorem perform_create (part : Part) :
    ∃ after,
      Request.perform holder (.create (filePath root key part)) tree = (.ok (), after) ∧
      Leaves root place key tree after
        (Function.update files part (some ⟨[], (files part).bind KeyFile.holder⟩)) := by
  have find := find_filePath housed shows_ isOpen part
  refine ⟨_, ?_, shows_.put housed isOpen part ⟨[], (files part).bind KeyFile.holder⟩⟩
  cases found : files part <;>
    simp [Request.perform, Tree.createFile, find, found, KeyFile.node]

theorem perform_append {part : Part} {file : KeyFile} (content : Bytes)
    (found : files part = some file) :
    ∃ after,
      Request.perform holder (.append (filePath root key part) content) tree = (.ok (), after) ∧
      Leaves root place key tree after
        (Function.update files part (some ⟨file.content ++ content, file.holder⟩)) := by
  have find := find_filePath housed shows_ isOpen part
  refine ⟨_, ?_, shows_.put housed isOpen part ⟨file.content ++ content, file.holder⟩⟩
  simp [Request.perform, Tree.appendFile, find, found, KeyFile.node]

/-- A draft that is moved takes the place of the blob. -/
theorem perform_rename {file : KeyFile} (found : files .draft = some file) :
    ∃ after,
      Request.perform holder
          (.rename (filePath root key .draft) (filePath root key .blob)) tree = (.ok (), after) ∧
      Leaves root place key tree after
        (Function.update (Function.update files .draft none) .blob (some file)) := by
  have source := find_filePath housed shows_ isOpen .draft
  have target := find_filePath housed shows_ isOpen .blob
  refine ⟨Tree.put ⟨tree.nodes.drop (filePlace place key .draft)⟩ (filePlace place key .blob)
    file.node, ?_, ?_⟩
  · simp [Request.perform, Tree.renameFile, source, target, found, KeyFile.node, Tree.put]
  · have after := Tree.node?_drop_put (housed.isGiven_filePlace place .draft)
      (housed.isGiven_filePlace place .blob) tree file.node
    apply shows_.change isOpen
    · intro part
      rw [after]
      by_cases blob : part = .blob
      · subst blob
        simp
      · rw [if_neg fun equal => blob (filePlace_injective housed equal),
          Function.update_of_ne blob]
        by_cases draft : part = .draft
        · subst draft
          simp
        · rw [if_neg fun equal => draft (filePlace_injective housed equal),
            Function.update_of_ne draft, shows_.node part]
    · intro other apart
      rw [after, if_neg (apart .blob), if_neg (apart .draft)]

end Open

end Requests

/-! ## A fresh directory -/

/-- Nothing lies below the directory of a path. -/
def IsFresh (tree : Tree) (root : Path) : Prop :=
  ∀ place, tree.find root = .ok (place, some .directory) →
    ∀ names, names ≠ [] → (∀ name ∈ names, Path.IsPlain name) → tree.node? (place ++ names) = none

/-- In a fresh directory no key has any files. -/
theorem shows_of_isFresh {root place : Path} {key : String} {tree : Tree} (housed : Housed root key)
    (found : tree.find root = .ok (place, some .directory)) (spelled : root ≠ [""])
    (fresh : IsFresh tree root) :
    Shows root place key tree fun _ => none := by
  have bare := fresh place found
  constructor
  case roots => exact Tree.roots_of_find found spelled
  case clear =>
    intro front some before
    left
    apply bare front some
    intro name member
    exact housed.isPlain_folders name (before.subset member)
  case node =>
    intro part
    obtain ⟨last, -, names⟩ := fileNames_eq_concat key
    exact bare (fileNames key part) (by simp [names]) (housed.isPlain part)
  case reached => exact .inr fun _ => rfl

theorem isFresh_single {name : String} (plain : Path.IsPlain name) (fits : Path.fits name = true)
    (form : Path.checkForm [name] = .ok ()) :
    IsFresh (Tree.single name) [name] := by
  intro place found names nonempty plainNames
  rw [Tree.find_single plain fits form] at found
  cases found
  rw [Tree.single, Tree.node?_put_directory, if_neg]
  · rw [Tree.node?, Path.isGiven_append [name] nonempty plainNames]
    rfl
  · intro equal
    exact nonempty (List.append_cancel_left (equal.trans (List.append_nil [name]).symm))

/-! ## Other keys -/

/-- A file of a key has the name of a directory on the way to the files of
another. -/
def Obstructs (key other : String) : Prop :=
  ∃ part : Part, fileNames key part <+: folders other

private theorem obstructs_iff (key other : String) :
    Obstructs key other ↔
      fileNames key .blob <+: folders other ∨ fileNames key .lock <+: folders other ∨
        fileNames key .draft <+: folders other := by
  constructor
  · rintro ⟨part, before⟩
    cases part with
    | blob => exact .inl before
    | lock => exact .inr (.inl before)
    | draft => exact .inr (.inr before)
  · rintro (blob | lock | draft)
    · exact ⟨.blob, blob⟩
    · exact ⟨.lock, lock⟩
    · exact ⟨.draft, draft⟩

instance (key other : String) : Decidable (Obstructs key other) :=
  decidable_of_iff _ (obstructs_iff key other).symm

/-- What is done to the files of a key does not change those of another. -/
theorem Shows.elsewhere {root place : Path} {key other : String} {tree after : Tree}
    {files : KeyFiles} (shows_ : Shows root place other tree files)
    (confined : Confined place key tree after) (housed : Housed root key)
    (otherHoused : Housed root other) (different : other ≠ key) (free : ¬ Obstructs key other)
    (otherFree : ¬ Obstructs other key) :
    Shows root place other after files := by
  constructor
  case roots => exact shows_.roots.keep confined.keeps
  case clear =>
    intro front some before
    have apart : ∀ part : Part, place ++ front ≠ filePlace place key part := by
      intro part equal
      apply free
      refine ⟨part, ?_⟩
      rwa [← List.append_cancel_left equal]
    rcases confined.elsewhere _ apart with same | ⟨made, -⟩
    · rw [same]
      exact shows_.clear front some before
    · exact .inr made
  case node =>
    intro part
    have apart : ∀ ownPart : Part, filePlace place other part ≠ filePlace place key ownPart := by
      intro ownPart equal
      exact different
        (fileNames_injective otherHoused.valid housed.valid (List.append_cancel_left equal)).1
    rcases confined.elsewhere _ apart with same | ⟨-, front, -, before, equal⟩
    · rw [same]
      exact shows_.node part
    · exfalso
      apply otherFree
      refine ⟨part, ?_⟩
      rwa [List.append_cancel_left equal]
  case reached =>
    rcases shows_.reached with isOpen | none
    · left
      intro front some before
      exact confined.keeps _ (isOpen front some before)
    · exact .inr none

/-! ## Holders that are no more -/

/-- A file after a holder has given up all locks. -/
def KeyFile.freed (holder : Holder) (file : KeyFile) : KeyFile :=
  if file.holder = some holder then { file with holder := none } else file

def KeyFiles.freed (holder : Holder) (files : KeyFiles) : KeyFiles :=
  fun part => (files part).map (KeyFile.freed holder)

private theorem freed_node (holder : Holder) (file : KeyFile) :
    Node.freed holder file.node = (file.freed holder).node := by
  obtain ⟨content, _ | other⟩ := file
  · rfl
  · simp only [KeyFile.node, Node.freed, KeyFile.freed, Option.some.injEq]
    split <;> rfl

theorem Shows.dropLocks {root place : Path} {key : String} {tree : Tree} {files : KeyFiles}
    (shows_ : Shows root place key tree files) (holder : Holder) :
    Shows root place key (tree.dropLocks holder) (files.freed holder) := by
  have keeps : ∀ other, tree.node? other = some .directory →
      (tree.dropLocks holder).node? other = some .directory := by
    intro other directory
    rw [Tree.node?_dropLocks, directory]
    rfl
  constructor
  case roots => exact shows_.roots.keep keeps
  case clear =>
    intro front some before
    rcases shows_.clear front some before with none | directory
    · left
      rw [Tree.node?_dropLocks, none]
      rfl
    · exact .inr (keeps _ directory)
  case node =>
    intro part
    rw [Tree.node?_dropLocks, shows_.node part, KeyFiles.freed]
    cases files part with
    | none => rfl
    | some file => simp [freed_node]
  case reached =>
    rcases shows_.reached with isOpen | none
    · left
      intro front some before
      exact keeps _ (isOpen front some before)
    · right
      intro part
      rw [KeyFiles.freed, none part]
      rfl

end RoomLedger.Store
