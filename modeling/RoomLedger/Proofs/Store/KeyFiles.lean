import RoomLedger.Proofs.Disk.Root
import RoomLedger.Proofs.Store.Key
import RoomLedger.Store.Files

/-!
Contract: the names, paths and places of the files that belong to a key.

Owns:
- `Part`, the three files of a key;
- `fileNames`, `filePath` and `filePlace`, and that no two files share a name;
- `Housed`, a key whose files have names and paths that can be looked up.

The three files lie in one directory, and the name of the lock is the longest.

Does not own: what is in the files.
-/

namespace RoomLedger.Store

open RoomLedger.Disk
open RoomLedger.Text (Bytes)

/-! ## Files of a key -/

/-- A file that belongs to a key. -/
inductive Part where
  | blob
  | lock
  | draft
deriving DecidableEq, Repr

def Part.ending : Part → String
  | .blob => ""
  | .lock => lockEnding
  | .draft => draftEnding

private theorem Part.ending_mem (part : Part) : part.ending ∈ ownEndings := by
  cases part <;> simp [ending, ownEndings]

private theorem Part.ending_injective {left right : Part} (same : left.ending = right.ending) :
    left = right := by
  revert same
  cases left <;> cases right <;> decide

/-- The directories in which the files of a key are. -/
def folders (key : String) : Path :=
  Path.parent (components key)

/-- The names of a file of a key. -/
def fileNames (key : String) (part : Part) : Path :=
  Path.withEnding (components key) part.ending

/-- The path of a file of a key. -/
def filePath (root : Path) (key : String) (part : Part) : Path :=
  root.join (fileNames key part)

/-- The place of a file of a key, where the root leads to that place. -/
def filePlace (place : Path) (key : String) (part : Part) : Path :=
  place ++ fileNames key part

theorem fileNames_injective {left right : String} {leftPart rightPart : Part}
    (leftValid : checkKey left = .ok ()) (rightValid : checkKey right = .ok ())
    (same : fileNames left leftPart = fileNames right rightPart) :
    left = right ∧ leftPart = rightPart := by
  obtain ⟨keys, endings⟩ :=
    withEnding_injective leftValid rightValid leftPart.ending_mem rightPart.ending_mem same
  exact ⟨keys, Part.ending_injective endings⟩

/-- The names of the files of a key differ in the last one. -/
theorem fileNames_eq_concat (key : String) :
    ∃ last, components key = folders key ++ [last] ∧
      ∀ part : Part, fileNames key part = folders key ++ [last ++ part.ending] := by
  obtain ⟨last, shape⟩ := components_eq_concat key
  refine ⟨last, shape, fun part => ?_⟩
  rw [fileNames, shape, withEnding_concat]
  rfl

theorem fileNames_blob (key : String) : fileNames key .blob = components key := by
  obtain ⟨last, shape, names⟩ := fileNames_eq_concat key
  rw [names, shape]
  simp [Part.ending]

/-- The names of the files of a key are plain. -/
theorem isPlain_of_mem_fileNames {key name : String} (part : Part) (valid : checkKey key = .ok ())
    (found : name ∈ fileNames key part) :
    Path.IsPlain name := by
  obtain ⟨last, shape, names⟩ := fileNames_eq_concat key
  have plain : ∀ name ∈ folders key ++ [last], Path.IsPlain name := by
    rw [← shape]
    exact fun name found => isPlain_of_mem_components valid found
  rw [names] at found
  rcases List.mem_append.mp found with before | here
  · exact plain name (by simp [before])
  · rw [List.mem_singleton.mp here]
    exact (plain last (by simp)).append _

theorem isPlain_of_mem_folders {key name : String} (valid : checkKey key = .ok ())
    (found : name ∈ folders key) :
    Path.IsPlain name := by
  obtain ⟨last, -, names⟩ := fileNames_eq_concat key
  exact isPlain_of_mem_fileNames .blob valid (by simp [names, found])

private theorem withEnding_join (root : Path) (key ending : String) :
    Path.withEnding (root.join (components key)) ending =
      root.join (Path.withEnding (components key) ending) := by
  obtain ⟨last, shape⟩ := components_eq_concat key
  rw [shape, Path.join_append, ← List.append_assoc, withEnding_concat, withEnding_concat,
    Path.join_append root (_ ++ _), List.append_assoc]

namespace FileStore

variable (store : FileStore) (key : String)

theorem blobPath_eq : store.blobPath key = filePath store.root key .blob := by
  rw [filePath, fileNames_blob, blobPath]

theorem lockPath_eq : store.lockPath key = filePath store.root key .lock :=
  withEnding_join store.root key lockEnding

theorem draftPath_eq : store.draftPath key = filePath store.root key .draft :=
  withEnding_join store.root key draftEnding

theorem parent_blobPath : (store.blobPath key).parent = store.root.join (folders key) := by
  obtain ⟨last, shape⟩ := components_eq_concat key
  rw [blobPath, shape, Path.join_append, ← List.append_assoc, Path.parent, List.dropLast_concat,
    Path.join_append store.root (folders key)]
  rfl

end FileStore

/-! ## Keys within limits -/

/-- The files of a key have names and paths that are short enough. The lock's
are the longest. -/
structure Housed (root : Path) (key : String) : Prop where
  valid : checkKey key = .ok ()
  form : (filePath root key .lock).checkForm = .ok ()
  fits : ∀ name ∈ fileNames key .lock, Path.fits name = true

private theorem housed_iff (root : Path) (key : String) :
    Housed root key ↔
      isKey key = true ∧
        ((∀ name ∈ filePath root key .lock, '\x00' ∉ name.toList) ∧
          (Path.text (filePath root key .lock)).utf8ByteSize ≤ Path.pathLimit) ∧
        ∀ name ∈ fileNames key .lock, Path.fits name = true := by
  rw [isKey_iff, ← Path.checkForm_eq_ok_iff]
  constructor
  · intro housed
    exact ⟨housed.valid, housed.form, housed.fits⟩
  · rintro ⟨valid, form, fits⟩
    exact ⟨valid, form, fits⟩

instance (root : Path) (key : String) : Decidable (Housed root key) :=
  decidable_of_iff _ (housed_iff root key).symm

private theorem Part.utf8ByteSize_ending_le (part : Part) :
    part.ending.utf8ByteSize ≤ Part.lock.ending.utf8ByteSize := by
  cases part <;> decide

private theorem Part.not_mem_ending (part : Part) : '\x00' ∉ part.ending.toList := by
  cases part <;> decide

namespace Housed

variable {root : Path} {key : String}

theorem isPlain (housed : Housed root key) (part : Part) :
    ∀ name ∈ fileNames key part, Path.IsPlain name :=
  fun _ found => isPlain_of_mem_fileNames part housed.valid found

theorem isPlain_folders (housed : Housed root key) : ∀ name ∈ folders key, Path.IsPlain name :=
  fun _ found => isPlain_of_mem_folders housed.valid found

theorem fits_part (housed : Housed root key) (part : Part) :
    ∀ name ∈ fileNames key part, Path.fits name = true := by
  obtain ⟨last, -, names⟩ := fileNames_eq_concat key
  have fits := housed.fits
  rw [names] at fits ⊢
  intro name found
  rcases List.mem_append.mp found with before | here
  · exact fits name (by simp [before])
  · have longest := fits (last ++ Part.lock.ending) (by simp)
    have shorter := part.utf8ByteSize_ending_le
    rw [List.mem_singleton.mp here]
    simp only [Path.fits, decide_eq_true_eq, String.utf8ByteSize_append] at longest ⊢
    omega

theorem fits_folders (housed : Housed root key) : ∀ name ∈ folders key, Path.fits name = true := by
  obtain ⟨last, -, names⟩ := fileNames_eq_concat key
  intro name found
  exact housed.fits_part .blob name (by simp [names, found])

theorem form_part (housed : Housed root key) (part : Part) :
    (filePath root key part).checkForm = .ok () := by
  obtain ⟨last, -, names⟩ := fileNames_eq_concat key
  have form := housed.form
  have shorter := part.utf8ByteSize_ending_le
  rw [filePath, names, Path.join_append, ← List.append_assoc] at form ⊢
  refine Path.checkForm_concat_of_le form ?_ ?_
  · have clean := ((Path.checkForm_eq_ok_iff _).mp form).1 (last ++ Part.lock.ending) (by simp)
    simp only [String.toList_append, List.mem_append, not_or] at clean ⊢
    exact ⟨clean.1, part.not_mem_ending⟩
  · simp only [String.utf8ByteSize_append]
    omega

theorem form_folders (housed : Housed root key) : (root.join (folders key)).checkForm = .ok () := by
  obtain ⟨last, -, names⟩ := fileNames_eq_concat key
  have form := housed.form
  rw [filePath, names, Path.join_append, ← List.append_assoc] at form
  rw [Path.join_append]
  exact Path.checkForm_of_concat form

theorem isGiven_filePlace (housed : Housed root key) (place : Path) (part : Part) :
    (filePlace place key part).isGiven = false := by
  refine Path.isGiven_append place ?_ (housed.isPlain part)
  obtain ⟨last, -, names⟩ := fileNames_eq_concat key
  simp [names]

end Housed

end RoomLedger.Store
