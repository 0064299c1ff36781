import Mathlib.Data.Option.Basic
import RoomLedger.Proofs.Store.Alone

/-!
Contract: writers of one key whose requests mix, and who may die.

Owns:
- `Contest`, writers under way and the tree that they share;
- `Turn`, what happens next: a writer makes a request, or gets a part of a piece
  written, or dies, or a reader looks at the blob;
- `Contest.history`, the publications and the looks of a run;
- `Phase.partly`, the turn of a writer that gets a part of a piece written.

Every writer is the holder of its own lock, whether it shares a process with
others or not. A process that dies is the death of all its writers.

Does not own: what the turn of one writer means for the others.
-/

namespace RoomLedger.Disk.Script

open RoomLedger.Text (Bytes)

variable {α : Type}

/-- The operation after a part of what it asks to be appended was written, and
the tree after that. Nothing happens where it asks for something else. -/
def stepPartly (holder : Holder) (count : Nat) : Script α → Tree → Script α × Tree
  | ask (.append path content) next, tree =>
      match (Request.append path (content.take count)).perform holder tree with
      | (.ok (), after) => (ask (.append path (content.drop count)) next, after)
      | (.error fault, after) => (next (.error fault), after)
  | script, tree => (script, tree)

/-- The next request moves a file. -/
def moves (tree : Tree) : Script α → Bool
  | ask (.rename source target) _ => (tree.renameFile source target).1.isOk
  | _ => false

end RoomLedger.Disk.Script

namespace RoomLedger.Store

open RoomLedger.Disk
open RoomLedger.Text (Bytes)

/-! ## Contests -/

/-- Writers of one key under way, and the tree that they share. -/
structure Contest where
  /-- What each writer is still to do; nothing for one that has died. -/
  scripts : List (Option (Script (Except Error Generation)))
  tree : Tree

/-- What happens next. -/
inductive Turn where
  | request (index : Nat)
  /-- So many bytes of the piece that the writer is at are written. -/
  | part (index count : Nat)
  | death (index : Nat)
  /-- A reader looks at the blob. -/
  | look
deriving DecidableEq, Repr

/-- What a turn shows. -/
inductive Incident where
  /-- A writer has moved its draft into the place of the blob. -/
  | published (index : Nat)
  | saw (answer : Except Error Version)

/-- The writer that has published. -/
def Incident.publisher? : Incident → Option Nat
  | published index => some index
  | saw _ => none

/-- The writers that have published, in order. -/
def publishers (history : List Incident) : List Nat :=
  history.filterMap Incident.publisher?

@[simp] theorem publishers_nil : publishers [] = [] := rfl

@[simp] theorem publishers_append (first second : List Incident) :
    publishers (first ++ second) = publishers first ++ publishers second :=
  List.filterMap_append

namespace Contest

/-- All writers before their first request. -/
def start (root : Path) (key : String) (writers : List Writer) (tree : Tree) : Contest where
  scripts := writers.map fun writer => some (writer.script root key)
  tree := tree

/-- What a writer that is alive is still to do. -/
def script? (contest : Contest) (index : Nat) : Option (Script (Except Error Generation)) :=
  contest.scripts[index]?.join

def advance (root : Path) (key : String) (contest : Contest) : Turn → Contest × Option Incident
  | .request index =>
      match contest.script? index with
      | none => (contest, none)
      | some script =>
          let (next, after) := script.step index contest.tree
          (⟨contest.scripts.set index (some next), after⟩,
            if script.moves contest.tree then some (.published index) else none)
  | .part index count =>
      match contest.script? index with
      | none => (contest, none)
      | some script =>
          let (next, after) := script.stepPartly index count contest.tree
          (⟨contest.scripts.set index (some next), after⟩, none)
  | .death index => (⟨contest.scripts.set index none, contest.tree.dropLocks index⟩, none)
  | .look => (contest, some (.saw ((FileStore.read ⟨root, {}⟩ key).run 0 contest.tree).1))

/-- The contest after some turns. -/
def follow (root : Path) (key : String) : Contest → List Turn → Contest
  | contest, [] => contest
  | contest, turn :: turns => follow root key (contest.advance root key turn).1 turns

/-- What some turns show. -/
def history (root : Path) (key : String) : Contest → List Turn → List Incident
  | _, [] => []
  | contest, turn :: turns =>
      (contest.advance root key turn).2.toList ++
        history root key (contest.advance root key turn).1 turns

theorem script?_start {root : Path} {key : String} {writers : List Writer} {tree : Tree}
    {index : Nat} {script : Script (Except Error Generation)}
    (found : (start root key writers tree).script? index = some script) :
    ∃ writer, writers[index]? = some writer ∧ script = writer.script root key := by
  simp only [script?, start, List.getElem?_map, Option.join_eq_some_iff, Option.map_eq_some_iff,
    Option.some.injEq] at found
  obtain ⟨writer, there, same⟩ := found
  exact ⟨writer, there, same.symm⟩

section Scripts

variable {contest : Contest} {tree : Tree} {index : Nat}

theorem script?_set {script : Script (Except Error Generation)}
    (found : contest.script? index = some script) (next : Script (Except Error Generation))
    (other : Nat) :
    (⟨contest.scripts.set index (some next), tree⟩ : Contest).script? other =
      if other = index then some next else contest.script? other := by
  have present : index < contest.scripts.length := by
    by_contra beyond
    simp [script?, List.getElem?_eq_none (Nat.le_of_not_lt beyond)] at found
  by_cases same : other = index
  · subst same
    simp [script?, present]
  · simp [script?, List.getElem?_set_ne (fun equal => same equal.symm), same]

theorem script?_set_none (other : Nat) :
    (⟨contest.scripts.set index none, tree⟩ : Contest).script? other =
      if other = index then none else contest.script? other := by
  by_cases same : other = index
  · subst same
    by_cases present : other < contest.scripts.length
    · simp [script?, present]
    · have beyond : (contest.scripts.set other none)[other]? = none :=
        List.getElem?_eq_none (by simpa using Nat.le_of_not_lt present)
      simp [script?, beyond]
  · simp [script?, List.getElem?_set_ne (fun equal => same equal.symm), same]

end Scripts

end Contest

/-! ## Turns of a writer -/

/-- The phase after so many bytes of a piece were written, and the files after
that. -/
def Phase.partly (count : Nat) : Phase → KeyFiles → Phase × KeyFiles
  | pouring generation chunk rest, files =>
      (pouring generation (chunk.drop count) rest,
        Function.update files .draft
          ((files .draft).map fun file => ⟨file.content ++ chunk.take count, file.holder⟩))
  | phase, files => (phase, files)

/-- The next request of a writer publishes its draft. -/
def Phase.isPublishing : Phase → Bool
  | publishing _ => true
  | _ => false

section Turns

variable {root place : Path} {key : String} {writer : Writer} {holder : Holder} {tree : Tree}
  {files : KeyFiles} {version : Version}

theorem moves_script (housed : Housed root key) (shows_ : Shows root place key tree files)
    {phase : Phase} (reached : phase = .starting ∨ tree.IsOpen place (folders key))
    (stands : phase.Stands key writer holder files version) :
    (phase.script root key writer).moves tree = phase.isPublishing := by
  cases phase with
  | starting =>
      rw [script_starting housed.valid]
      rfl
  | publishing generation =>
      have isOpen := reached.resolve_left (by simp)
      obtain ⟨-, -, occupant, found⟩ := stands
      obtain ⟨after, performed, -⟩ := perform_rename holder housed shows_ isOpen found
      rw [← writer.draftPath_eq, ← writer.blobPath_eq, Request.perform] at performed
      change (tree.renameFile _ _).1.isOk = true
      rw [performed]
      rfl
  | _ => rfl

/-- A writer that gets a part of a piece written takes that turn. -/
theorem stepPartly_script (housed : Housed root key) (shows_ : Shows root place key tree files)
    {phase : Phase} (reached : phase = .starting ∨ tree.IsOpen place (folders key))
    (stands : phase.Stands key writer holder files version) (count : Nat) :
    ∃ after,
      (phase.script root key writer).stepPartly holder count tree =
        ((phase.partly count files).1.script root key writer, after) ∧
      Leaves root place key tree after (phase.partly count files).2 := by
  cases phase with
  | starting =>
      refine ⟨tree, ?_, shows_.stay⟩
      have stays : Phase.starting.partly count files = (.starting, files) := rfl
      rw [stays, script_starting housed.valid]
      rfl
  | pouring generation chunk rest =>
      have isOpen := reached.resolve_left (by simp)
      obtain ⟨-, -, written, ⟨occupant, found⟩, -⟩ := stands
      obtain ⟨after, performed, leaves⟩ :=
        perform_append holder housed shows_ isOpen (chunk.take count) found
      rw [← writer.draftPath_eq] at performed
      refine ⟨after, ?_, ?_⟩
      · rw [Phase.script, FileStore.pour, Script.stepPartly, performed]
        rfl
      · simpa only [Phase.partly, found, Option.map_some] using leaves
  | _ => exact ⟨tree, rfl, shows_.stay⟩

theorem stands_partly {phase : Phase} (stands : phase.Stands key writer holder files version)
    (count : Nat) :
    (phase.partly count files).1.Stands key writer holder (phase.partly count files).2 version := by
  cases phase with
  | pouring generation chunk rest =>
      obtain ⟨locked, marked, written, ⟨occupant, found⟩, whole⟩ := stands
      refine ⟨isLocked_update_of_ne .draft (by decide) _ locked, marked,
        written ++ chunk.take count, ⟨occupant, by simp [Phase.partly, found]⟩, ?_⟩
      rw [← whole, List.flatten_cons, List.flatten_cons, List.append_assoc,
        ← List.append_assoc (chunk.take count), List.take_append_drop]
  | _ => exact stands

theorem answer_partly (phase : Phase) (count : Nat) :
    KeyFiles.answer (phase.partly count files).2 = files.answer := by
  cases phase with
  | pouring generation chunk rest => exact answer_update_of_ne .draft (by decide) _
  | _ => rfl

end Turns

end RoomLedger.Store
