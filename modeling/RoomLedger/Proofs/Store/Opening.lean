import RoomLedger.Proofs.Store.Footprint
import RoomLedger.Proofs.Store.Refinement

/-!
Contract: a directory of blobs that was just opened, and the calls after it.

Owns:
- `makeDirectories_of_openAt` and `find_of_openAt`, by which a store that was opened has
  a root that leads to a directory;
- what a fresh directory has, and that calls keep it grown;
- the opening of a directory in an empty tree.

Does not own: what the calls answer.
-/

namespace RoomLedger.Store

open RoomLedger.Disk
open RoomLedger.Text (Bytes)

section Opened

variable {root : Path} {settings : FileSettings} {holder : Holder} {disk tree : Tree}
  {store : FileStore}

/-- The opening of a store makes its root and the directories on the way to it. -/
theorem makeDirectories_of_openAt
    (opened : (FileStore.openAt root settings).run holder disk = (.ok store, tree)) :
    store = ⟨root, settings⟩ ∧ disk.makeDirectories root = (.ok (), tree) := by
  rw [FileStore.openAt, Script.run, Request.perform] at opened
  cases made : disk.makeDirectories root with
  | mk result after =>
      rw [made] at opened
      cases result with
      | error fault => cases opened
      | ok =>
          cases opened
          exact ⟨rfl, rfl⟩

/-- A root that was opened leads to a directory. -/
theorem find_of_openAt
    (opened : (FileStore.openAt root settings).run holder disk = (.ok store, tree)) :
    ∃ place, tree.find root = .ok (place, some .directory) :=
  Tree.find_of_makeDirectories (makeDirectories_of_openAt opened).2

end Opened

section Runs

variable {root place : Path} {tree : Tree}

theorem isGrown_of_isFresh (found : tree.find root = .ok (place, some .directory))
    (fresh : IsFresh tree root) :
    tree.IsGrown place := by
  intro directories last plain some
  exact absurd (fresh place found (directories ++ [last]) (by simp) plain) some

/-- A call through a store that writes is the write of a writer. -/
theorem ask_write (settings : FileSettings) (holder : Holder) (key contentType : String)
    (content : Bytes) (expected : Generation) :
    let writer : Writer := ⟨settings, contentType, content, expected⟩
    Use.ask ⟨settings, holder, .write key contentType content expected⟩ root tree =
      (.mark ((writer.script root key).run holder tree).1,
        ((writer.script root key).run holder tree).2) :=
  rfl

/-- A call through a store that reads is told what the content of the blob's file
says. -/
theorem ask_read (root : Path) (tree : Tree) {key : String} (settings : FileSettings)
    (holder : Holder) (valid : checkKey key = .ok ()) :
    (Use.ask ⟨settings, holder, .read key⟩ root tree).1 =
      .version (FileStore.interpret key (tree.contentOf (filePath root key .blob))) := by
  have answer : (Use.ask ⟨settings, holder, .read key⟩ root tree).1 =
      .version ((FileStore.read ⟨root, settings⟩ key).run holder tree).1 := rfl
  rw [answer, FileStore.read, valid, FileStore.blobPath_eq]
  rfl

/-- A call leaves the root where it is, and every node in a directory. -/
theorem isGrown_of_ask (use : Use) (roots : tree.Roots root place) (grown : tree.IsGrown place) :
    (use.ask root tree).2.Roots root place ∧ (use.ask root tree).2.IsGrown place := by
  obtain ⟨settings, holder, question⟩ := use
  cases question with
  | read key => exact ⟨roots, grown⟩
  | generation key => exact ⟨roots, grown⟩
  | write key contentType content expected =>
      rw [ask_write]
      exact isGrown_of_write ⟨settings, contentType, content, expected⟩ holder roots grown

/-- So do all calls of a run. -/
theorem isGrown_of_answers (uses : List Use) (roots : tree.Roots root place)
    (grown : tree.IsGrown place) :
    (answersOnFiles root uses tree).2.Roots root place ∧
      (answersOnFiles root uses tree).2.IsGrown place := by
  induction uses generalizing tree with
  | nil => exact ⟨roots, grown⟩
  | cons use rest inductionHypothesis =>
      obtain ⟨rootsAfter, grownAfter⟩ := isGrown_of_ask use roots grown
      exact inductionHypothesis rootsAfter grownAfter

end Runs

/-! ## A directory in an empty tree -/

theorem ofText_blobs : Path.ofText "blobs" = ["blobs"] := by
  decide +kernel

theorem isPlain_blobs : Path.IsPlain "blobs" :=
  ⟨'b', ['l', 'o', 'b', 's'], by decide, by decide⟩

theorem fits_blobs : Path.fits "blobs" = true := by
  decide +kernel

theorem checkForm_blobs : Path.checkForm ["blobs"] = .ok () :=
  (Path.checkForm_eq_ok_iff _).mpr (by decide +kernel)

theorem openAt_blobs (settings : FileSettings) (holder : Holder) :
    (FileStore.openAt (Path.ofText "blobs") settings).run holder Tree.empty =
      (.ok ⟨Path.ofText "blobs", settings⟩, Tree.single "blobs") := by
  have missing : Tree.empty.node? ["blobs"] = none := by decide +kernel
  have made : Tree.empty.makeDirectories ["blobs"] = (.ok (), Tree.single "blobs") := by
    simp [Tree.makeDirectories, checkForm_blobs, Path.start_of_ne isPlain_blobs.ne_empty,
      Tree.makeMissing, fits_blobs, Path.enter_of_isPlain isPlain_blobs, missing, Path.endsInDot,
      Tree.single]
  rw [ofText_blobs, FileStore.openAt, Script.run, Request.perform, made]
  rfl

theorem isFresh_blobs : IsFresh (Tree.single "blobs") (Path.ofText "blobs") := by
  rw [ofText_blobs]
  exact isFresh_single isPlain_blobs fits_blobs checkForm_blobs

/-- A store of which nothing was asked. -/
def emptyBlobs : MountedStore where
  files := ⟨Path.ofText "blobs", {}⟩
  tree := Tree.single "blobs"

end RoomLedger.Store
