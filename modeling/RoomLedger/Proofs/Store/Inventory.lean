import Mathlib.Data.List.Induction
import RoomLedger.Proofs.Store.Layout

/-!
Contract: the files that there are after any run of calls on one directory.

Owns:
- `Occurrence`, what may happen to a directory of blobs while nobody dies and nobody
  else changes a file;
- `Scene`, the tree with the blob that was last put under each key;
- `Stocks`, by which every file is that of a blob or an empty lock;
- `files_are_blobs_and_locks`, for every run on a directory without files.

The blobs that were put are told from the calls and their answers alone. Others may
take the lock of any file and give it up, so that writers wait for it in vain.

Does not own: calls that come at the same time.
-/

namespace RoomLedger.Store

open RoomLedger.Disk
open RoomLedger.Text (Bytes)

/-! ## What may happen -/

/-- A store is opened, a call is made through one of the stores, or someone takes or
gives up the lock of a file. -/
inductive Occurrence where
  | opens (settings : FileSettings) (holder : Holder)
  | call (use : Use)
  | takeLock (holder : Holder) (path : Path)
  | dropLock (holder : Holder) (path : Path)

/-- The blobs that were put last, after one more call. -/
def noted (put : String → Option Version) : Question → Answer → String → Option Version
  | .write key contentType content _, .mark (.ok generation) =>
      Function.update put key
        (some { content := some content, contentType := some contentType, generation })
  | _, _ => put

/-- A tree, and the blob that was last put under each key. -/
structure Scene where
  tree : Tree
  put : String → Option Version := fun _ => none

/-- The scene after something happened. -/
def Scene.happen (root : Path) (scene : Scene) : Occurrence → Scene
  | .opens settings holder =>
      { scene with tree := ((FileStore.openAt root settings).run holder scene.tree).2 }
  | .call use =>
      let (answer, tree) := use.ask root scene.tree
      { tree, put := noted scene.put use.question answer }
  | .takeLock holder path => { scene with tree := (scene.tree.takeLock holder path).2 }
  | .dropLock holder path => { scene with tree := scene.tree.dropLock holder path }

/-- A write of the key was among the calls. -/
def IsTried (occurrences : List Occurrence) (key : String) : Prop :=
  ∃ settings holder contentType content expected,
    .call ⟨settings, holder, .write key contentType content expected⟩ ∈ occurrences

/-- The blobs that were put last have their files, and there is no other file but
empty locks of keys on which a write was tried. No two keys have the same components,
so there is one file for each blob. -/
structure Stocks (place : Path) (tried : String → Prop) (scene : Scene) : Prop where
  blob : ∀ key version, scene.put key = some version →
    checkKey key = .ok () ∧ ∃ content occupant,
      scene.tree.node? (place ++ components key) = some (.file content occupant) ∧
      decodeFile content = .ok version
  file : ∀ names content occupant,
    scene.tree.node? (place ++ names) = some (.file content occupant) →
    (∃ key version, scene.put key = some version ∧ names = components key) ∨
      ∃ key, tried key ∧ checkKey key = .ok () ∧
        names = Path.withEnding (components key) lockEnding ∧ content = []

private theorem Stocks.mono {place : Path} {tried triedToo : String → Prop} {scene : Scene}
    (stocks : Stocks place tried scene) (wider : ∀ key, tried key → triedToo key) :
    Stocks place triedToo scene := by
  refine ⟨stocks.blob, fun names content occupant found => ?_⟩
  rcases stocks.file names content occupant found with blob | ⟨key, wasTried, lock⟩
  · exact .inl blob
  · exact .inr ⟨key, wider key wasTried, lock⟩

/-! ## Locks that others take -/

/-- The nodes are the same, whoever has their locks. -/
def SharesContent (tree after : Tree) : Prop :=
  ∀ other, after.node? other = tree.node? other ∨
    ∃ content before later, tree.node? other = some (.file content before) ∧
      after.node? other = some (.file content later)

section Locks

variable {tree after : Tree}

private theorem SharesContent.keeps (shares : SharesContent tree after) (other : Path)
    (directory : tree.node? other = some .directory) :
    after.node? other = some .directory := by
  rcases shares other with same | ⟨_, _, _, file, -⟩
  · rw [same]
    exact directory
  · rw [file] at directory
    cases directory

/-- A file that is put with its own content changes hands only. -/
theorem sharesContent_put {path place : Path} {content : Bytes} {before : Option Holder}
    (found : tree.find path = .ok (place, some (.file content before))) (later : Option Holder) :
    SharesContent tree (tree.put place (.file content later)) := by
  have file : tree.node? place = some (.file content before) := by
    rw [Tree.find] at found
    cases located : tree.locate path with
    | error fault => simp [located] at found
    | ok there =>
        simp only [located, Except.ok.injEq, Prod.mk.injEq] at found
        obtain ⟨rfl, node⟩ := found
        exact node
  have notGiven : place.isGiven = false := by
    rw [Bool.eq_false_iff]
    intro given
    rw [Tree.node?, if_pos given] at file
    cases file
  intro other
  rw [Tree.node?_put notGiven]
  by_cases here : other = place
  · subst here
    exact .inr ⟨content, before, later, file, if_pos rfl⟩
  · exact .inl (if_neg here)

private theorem sharesContent_takeLock (tree : Tree) (holder : Holder) (path : Path) :
    SharesContent tree (tree.takeLock holder path).2 := by
  rw [Tree.takeLock]
  split
  · exact fun _ => .inl rfl
  · exact fun _ => .inl rfl
  · exact fun _ => .inl rfl
  · exact fun _ => .inl rfl
  · rename_i found
    exact sharesContent_put found (some holder)

private theorem sharesContent_dropLock (tree : Tree) (holder : Holder) (path : Path) :
    SharesContent tree (tree.dropLock holder path) := by
  rw [Tree.dropLock]
  split
  · rename_i found
    split
    · exact sharesContent_put found none
    · exact fun _ => .inl rfl
  · exact fun _ => .inl rfl

end Locks

/-! ## One step -/

section Steps

variable {root place : Path} {tried : String → Prop} {tree after : Tree}
  {put : String → Option Version}

private theorem Stocks.shares (stocks : Stocks place tried ⟨tree, put⟩)
    (shares : SharesContent tree after) :
    Stocks place tried ⟨after, put⟩ := by
  constructor
  case blob =>
    intro key version known
    obtain ⟨valid, content, occupant, node, decoded⟩ := stocks.blob key version known
    refine ⟨valid, content, ?_⟩
    rcases shares (place ++ components key) with same | ⟨_, _, later, before, now⟩
    · exact ⟨occupant, same.trans node, decoded⟩
    · rw [before] at node
      cases node
      exact ⟨later, now, decoded⟩
  case file =>
    intro names content occupant found
    rcases shares (place ++ names) with same | ⟨_, before, _, node, now⟩
    · exact stocks.file names content occupant (same.symm.trans found)
    · have contents := now.symm.trans found
      cases contents
      exact stocks.file names content before node

/-- What a write that failed leaves behind is at most an empty lock. -/
theorem Stocks.litters {key : String} (stocks : Stocks place tried ⟨tree, put⟩)
    (litters : Litters place key tree after) (valid : checkKey key = .ok ())
    (wasTried : tried key) :
    Stocks place tried ⟨after, put⟩ := by
  constructor
  case blob =>
    intro other version known
    obtain ⟨otherValid, content, occupant, node, decoded⟩ := stocks.blob other version known
    exact ⟨otherValid, content, occupant, litters.node node, decoded⟩
  case file =>
    intro names content occupant found
    rcases litters (place ++ names) with
      same | ⟨-, directories, last, node, equal, now, litter, -⟩
    · exact stocks.file names content occupant (same.symm.trans found)
    · have added := now.symm.trans found
      cases added
      rcases litter with ⟨-, isDirectory⟩ | ⟨lock, isFile⟩
      · cases isDirectory
      · cases isFile
        refine .inr ⟨key, wasTried, valid, ?_, rfl⟩
        rw [List.append_cancel_left equal, lock]
        rfl

section Done

variable {key : String} {writer : Writer} {generation : Generation} {filesAfter : KeyFiles}
  (done : IsDone root place key writer generation tree after filesAfter)

include done

/-- A write that is done leaves the files of other keys as they are. -/
theorem IsDone.file_iff {other : Path} (apart : ∀ part : Part, other ≠ filePlace place key part)
    (content : Bytes) (occupant : Option Holder) :
    after.node? other = some (.file content occupant) ↔
      tree.node? other = some (.file content occupant) := by
  rcases done.leaves.confined.elsewhere other apart with same | ⟨made, front, some, before, rfl⟩
  · rw [same]
  · -- A directory on the way to the key was one before, or was missing.
    obtain ⟨_, shows_⟩ := done.shows_
    rcases shows_.clear front some before with missing | directory
    · simp [made, missing]
    · simp [made, directory]

private theorem IsDone.decodeFile_file :
    decodeFile (writer.file generation) = .ok (writer.version generation) := by
  obtain ⟨-, occupant, blob⟩ := done.put
  have read := done.read
  rw [KeyFiles.answer, blob, FileStore.interpret] at read
  cases decoded : decodeFile (writer.file generation) with
  | error damage => simp [decoded] at read
  | ok version => simpa [decoded] using read

/-- Whatever is a file after a write that is done is the blob of its key, or was one
before, the lock of the key among them. -/
theorem IsDone.file_cases {names : Path} {content : Bytes} {occupant : Option Holder}
    (found : after.node? (place ++ names) = some (.file content occupant)) :
    names = components key ∨
      names ≠ components key ∧
        ∃ before, tree.node? (place ++ names) = some (.file content before) := by
  by_cases apart : ∀ part : Part, place ++ names ≠ filePlace place key part
  · right
    refine ⟨?_, occupant, (done.file_iff apart content occupant).mp found⟩
    rintro rfl
    exact apart .blob (by rw [filePlace, fileNames_blob])
  · simp only [not_forall, not_not] at apart
    obtain ⟨part, equal⟩ := apart
    have here := List.append_cancel_left equal
    have node := done.leaves.shows_.node part
    rw [← equal, found] at node
    cases part with
    | blob => exact .inl (by rw [here, fileNames_blob])
    | draft =>
        rw [done.put.1] at node
        cases node
    | lock =>
        obtain ⟨lockContent, before, lockAfter⟩ := done.lock
        rw [lockAfter] at node
        cases node
        refine .inr ⟨?_, none, by rw [equal, before]⟩
        intro same
        rw [here, ← fileNames_blob] at same
        cases (fileNames_injective done.housed.valid done.housed.valid same).2

private theorem Stocks.written (stocks : Stocks place tried ⟨tree, put⟩) :
    Stocks place tried
      ⟨after, Function.update put key (some (writer.version generation))⟩ := by
  have valid := done.housed.valid
  constructor
  case blob =>
    intro other version known
    change Function.update put key _ other = some version at known
    by_cases same : other = key
    · subst same
      rw [Function.update_self, Option.some.injEq] at known
      subst known
      obtain ⟨occupant, node⟩ := done.node?_blob
      rw [filePlace, fileNames_blob] at node
      exact ⟨valid, _, occupant, node, done.decodeFile_file⟩
    · rw [Function.update_of_ne same] at known
      obtain ⟨otherValid, content, occupant, node, found⟩ := stocks.blob other version known
      refine ⟨otherValid, content, occupant, ?_, found⟩
      rw [done.file_iff _ content occupant]
      · exact node
      · intro part equal
        rw [← fileNames_blob other] at equal
        exact same (fileNames_injective otherValid valid (List.append_cancel_left equal)).1
  case file =>
    intro names content occupant found
    rcases done.file_cases found with own | ⟨different, held, before⟩
    · exact .inl ⟨key, _, Function.update_self .., own⟩
    · rcases stocks.file names content held before with ⟨other, version, put_, equal⟩ | lock
      · have otherKey : other ≠ key := by
          rintro rfl
          exact different equal
        exact .inl ⟨other, version, (Function.update_of_ne otherKey ..).trans put_, equal⟩
      · exact .inr lock

end Done

/-- Directories stay through whatever happens, and the files are still those of
blobs and empty locks. -/
theorem Stocks.happen (occurrence : Occurrence)
    (found : tree.find root = .ok (place, some .directory)) (spelled : root ≠ [""])
    (stocks : Stocks place tried ⟨tree, put⟩)
    (wasTried : ∀ key, IsTried [occurrence] key → tried key) :
    let scene := Scene.happen root ⟨tree, put⟩ occurrence
    (∀ other, tree.node? other = some .directory → scene.tree.node? other = some .directory) ∧
      Stocks place tried scene := by
  cases occurrence with
  | opens settings holder =>
      have same : Scene.happen root ⟨tree, put⟩ (.opens settings holder) = ⟨tree, put⟩ := by
        simp only [Scene.happen, FileStore.openAt, Script.run, Request.perform,
          Tree.makeDirectories_of_find found]
      rw [same]
      exact ⟨fun _ directory => directory, stocks⟩
  | takeLock holder path =>
      have shares := sharesContent_takeLock tree holder path
      exact ⟨shares.keeps, stocks.shares shares⟩
  | dropLock holder path =>
      have shares := sharesContent_dropLock tree holder path
      exact ⟨shares.keeps, stocks.shares shares⟩
  | call use =>
      obtain ⟨settings, holder, question⟩ := use
      cases question with
      | read key => exact ⟨fun _ directory => directory, stocks⟩
      | generation key => exact ⟨fun _ directory => directory, stocks⟩
      | write key contentType content expected =>
          let writer : Writer := ⟨settings, contentType, content, expected⟩
          have roots := Tree.roots_of_find found spelled
          have tries : tried key := wasTried key ⟨settings, holder, contentType, content, expected,
            List.mem_singleton.mpr rfl⟩
          have told : ∀ result after, (writer.script root key).run holder tree = (result, after) →
              Scene.happen root ⟨tree, put⟩
                  (.call ⟨settings, holder, .write key contentType content expected⟩) =
                ⟨after, noted put (.write key contentType content expected) (.mark result)⟩ := by
            intro result after ran
            simp only [Scene.happen, ask_write]
            rw [ran]
          cases valid : checkKey key with
          | error fault =>
              have refused : (writer.script root key).run holder tree =
                  (.error (.invalidKey key (.form fault)), tree) := by
                rw [Writer.script, FileStore.write, valid]
                rfl
              rw [told _ _ refused]
              exact ⟨fun _ directory => directory, stocks⟩
          | ok =>
              have marks := marks_of_write writer holder valid roots
              rcases run_write_cases writer holder valid roots with
                ⟨error, after, ran, litters, -⟩ | ⟨generation, middle, after, _, ran, litters, done⟩
              · rw [told _ _ ran]
                exact ⟨litters.keeps, stocks.litters litters valid tries⟩
              · rw [ran] at marks
                rw [told _ _ ran]
                exact ⟨marks.keeps, (stocks.litters litters valid tries).written done⟩

end Steps

/-! ## Runs -/

/-- No file lies below a place. -/
def HasNoFile (place : Path) (tree : Tree) : Prop :=
  ∀ names content occupant, tree.node? (place ++ names) ≠ some (.file content occupant)

section Runs

variable {root place : Path} {tree : Tree}

/-- The induction is on the run from its end. -/
theorem Stocks.run (found : tree.find root = .ok (place, some .directory)) (spelled : root ≠ [""])
    (bare : HasNoFile place tree) (occurrences : List Occurrence) :
    let scene := occurrences.foldl (Scene.happen root) { tree }
    scene.tree.find root = .ok (place, some .directory) ∧
      Stocks place (IsTried occurrences) scene := by
  induction occurrences using List.reverseRecOn with
  | nil =>
      refine ⟨found, ?_, ?_⟩
      · intro key version known
        cases known
      · intro names content occupant file
        exact absurd file (bare names content occupant)
  | append_singleton before last inductionHypothesis =>
      obtain ⟨stillFound, stocks⟩ := inductionHypothesis
      have wider (key : String) (tried : IsTried before key) : IsTried (before ++ [last]) key := by
        obtain ⟨settings, holder, contentType, content, expected, member⟩ := tried
        exact ⟨settings, holder, contentType, content, expected, List.mem_append_left _ member⟩
      have own (key : String) (tried : IsTried [last] key) : IsTried (before ++ [last]) key := by
        obtain ⟨settings, holder, contentType, content, expected, member⟩ := tried
        exact ⟨settings, holder, contentType, content, expected, List.mem_append_right _ member⟩
      obtain ⟨keeps, stocksAfter⟩ := (stocks.mono wider).happen last stillFound spelled own
      rw [List.foldl_append, List.foldl_cons, List.foldl_nil]
      exact ⟨Tree.find_of_keeps stillFound keeps, stocksAfter⟩

/-- Neither a blob nor a lock has the ending of a draft. -/
theorem Stocks.not_draft {tried : String → Prop} {scene : Scene} {front : Path} {last : String}
    {content : Bytes} {occupant : Option Holder} (stocks : Stocks place tried scene)
    (file : scene.tree.node? (place ++ (front ++ [last])) = some (.file content occupant)) :
    ¬ draftEnding.toList <:+ last.toList := by
  intro isDraft
  rcases stocks.file _ _ _ file with ⟨key, version, put, names⟩ | ⟨key, -, -, names, -⟩
  · have valid := (stocks.blob key version put).1
    exact (isGoodKey_of_checkKey valid).unreserved draftEnding (by simp [reservedEndings])
      (isDraft.trans (suffix_of_components names.symm))
  · obtain ⟨name, shape⟩ := components_eq_concat key
    rw [shape, withEnding_concat] at names
    obtain ⟨start, spelled⟩ := isDraft
    have ending : name ++ lockEnding = String.ofList start ++ draftEnding := by
      rw [← (List.append_singleton_inj.mp names).2, ← String.toList_inj, ← spelled,
        String.toList_append, String.toList_ofList]
    exact append_lockEnding_ne _ _ ending

end Runs

/-- Whatever is read and written through any number of stores in one directory in which
no file was, the files below it are one for each key that was put, which holds the blob
that was put last, and empty locks of keys on which a write was tried. None of them has
the ending of a draft. A write that fails, there or in any other tree, leaves every file
as it is, and adds at most directories on the way to its key and its own empty lock. -/
theorem files_are_blobs_and_locks (spelling : String) {tree : Tree} {place : Path}
    (found : tree.find (Path.ofText spelling) = .ok (place, some .directory))
    (bare : HasNoFile place tree) (occurrences : List Occurrence) :
    let root := Path.ofText spelling
    let scene := occurrences.foldl (Scene.happen root) { tree }
    scene.tree.find root = .ok (place, some .directory) ∧
      Stocks place (IsTried occurrences) scene ∧
      (∀ front last content occupant,
        scene.tree.node? (place ++ (front ++ [last])) = some (.file content occupant) →
        ¬ draftEnding.toList <:+ last.toList) ∧
      ∀ settings holder key contentType content expected disk error after,
        disk.find root = .ok (place, some .directory) →
        (FileStore.write ⟨root, settings⟩ key contentType content expected).run holder disk =
          (.error error, after) →
        Litters place key disk after := by
  intro root scene
  have spelled := Path.ofText_ne spelling
  obtain ⟨foundAfter, stocks⟩ := Stocks.run found spelled bare occurrences
  refine ⟨foundAfter, stocks, fun _ _ _ _ file => stocks.not_draft file, ?_⟩
  intro settings holder key contentType content expected disk error after directory ran
  let writer : Writer := ⟨settings, contentType, content, expected⟩
  have failed : (writer.script root key).run holder disk = (.error error, after) := ran
  exact litters_of_error (Tree.roots_of_find directory spelled) failed

/-- A blob is put twice. In between someone else has its lock, a key is tried whose
directory would have the blob's name, and an old mark is expected. -/
def busyRun : List Occurrence :=
  [.opens {} 1,
    .call ⟨{}, 1, .write "a" "text" [0x61] .absent⟩,
    .takeLock 7 ["blobs", "a.lock"],
    .call ⟨{}, 1, .write "a" "text" [0x62] ⟨1⟩⟩,
    .dropLock 7 ["blobs", "a.lock"],
    .call ⟨{}, 2, .write "a/b" "text" [] .absent⟩,
    .call ⟨{}, 2, .write "c/d" "text" [] ⟨3⟩⟩,
    .call ⟨{}, 2, .write "a" "json" [0x62, 0x0A] ⟨1⟩⟩,
    .call ⟨{}, 1, .read "a"⟩]

theorem files_are_blobs_and_locks_of_busy_run :
    let scene := busyRun.foldl (Scene.happen (Path.ofText "blobs")) { tree := Tree.single "blobs" }
    HasNoFile ["blobs"] (Tree.single "blobs") ∧
      scene.put "a" =
        some { content := some [0x62, 0x0A], contentType := some "json", generation := ⟨2⟩ } ∧
      scene.tree.nodes.keys =
        [["blobs"], ["blobs", "a.lock"], ["blobs", "a"], ["blobs", "c"],
          ["blobs", "c", "d.lock"]] ∧
      Stocks ["blobs"] (IsTried busyRun) scene := by
  intro scene
  have bare : HasNoFile ["blobs"] (Tree.single "blobs") := by
    intro names content occupant
    rw [Tree.single, Tree.node?_put_directory]
    split
    · simp
    · rw [Tree.node?]
      split <;> simp [Tree.empty, Index.find?_empty]
  have found : (Tree.single "blobs").find (Path.ofText "blobs") =
      .ok (["blobs"], some .directory) := by
    rw [ofText_blobs]
    exact Tree.find_single isPlain_blobs fits_blobs checkForm_blobs
  have spelled : scene =
      busyRun.foldl (Scene.happen ["blobs"]) { tree := Tree.single "blobs" } := by
    rw [← ofText_blobs]
  obtain ⟨-, stocks, -, -⟩ := files_are_blobs_and_locks "blobs" found bare busyRun
  refine ⟨bare, ?_, ?_, stocks⟩
  · rw [spelled]
    decide +kernel
  · rw [spelled]
    decide +kernel

end RoomLedger.Store
