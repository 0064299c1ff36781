import RoomLedger.Proofs.Store.Opening

/-!
Contract: the file that a write lays out.

Owns:
- `contentOf_blob_iff`, what is read at a key;
- `contentOf_of_ok`, by which a write that is done leaves the whole file;
- `written_files_are_read_back`, for every content type, payload and mark.

The header's line is the only part of the file in which something is spelled. Its
spelling holds no newline, so the first newline of the file is the one that ends the
line, whatever the payload holds.

Does not own: files that were changed later.
-/

namespace RoomLedger.Store

open RoomLedger.Disk
open RoomLedger.Text (Bytes)

section Content

variable {root place : Path} {key : String} {writer : Writer} {holder : Holder}
  {generation : Generation} {tree after : Tree}

/-- What is read at a key is the content of the file in its place, in a directory that
is there. -/
theorem contentOf_blob_iff {content : Bytes} (valid : checkKey key = .ok ())
    (roots : tree.Roots root place) :
    tree.contentOf (filePath root key .blob) = .ok content ↔
      ((filePath root key .blob).checkForm = .ok () ∧
        (∀ name ∈ fileNames key .blob, Path.fits name = true) ∧
        tree.IsOpen place (folders key)) ∧
      ∃ occupant, tree.node? (filePlace place key .blob) = some (.file content occupant) := by
  obtain ⟨last, -, names⟩ := fileNames_eq_concat key
  have plain : ∀ name ∈ fileNames key .blob, Path.IsPlain name :=
    fun name found => isPlain_of_mem_fileNames .blob valid found
  rw [filePath, filePlace, names] at *
  exact Tree.contentOf_join_eq_ok_iff roots plain content

/-- A write that is done leaves the file that the writer lays out. -/
theorem IsDone.node?_blob {filesAfter : KeyFiles}
    (done : IsDone root place key writer generation tree after filesAfter) :
    ∃ occupant, after.node? (filePlace place key .blob) =
      some (.file (writer.file generation) occupant) := by
  obtain ⟨-, occupant, blob⟩ := done.put
  have node := done.leaves.shows_.node .blob
  rw [blob] at node
  exact ⟨occupant, node⟩

theorem contentOf_of_ok (roots : tree.Roots root place)
    (ran : (writer.script root key).run holder tree = (.ok generation, after)) :
    after.contentOf (filePath root key .blob) = .ok (writer.file generation) := by
  obtain ⟨_, _, -, done⟩ := isDone_of_ok roots ran
  obtain ⟨occupant, node⟩ := done.node?_blob
  exact (contentOf_blob_iff done.housed.valid done.leaves.shows_.roots).mpr
    ⟨⟨done.housed.form_part .blob, done.housed.fits_part .blob, done.isOpen⟩, occupant, node⟩

end Content

/-- Whatever the content type and the payload hold, the file of a blob is a line without
a newline, a newline and the payload. It is split there, its line is read as the header
that was written, and the file as the blob that was put; and every write that is done
leaves this file. -/
theorem written_files_are_read_back {generation : Generation} (present : generation ≠ .absent)
    (key contentType : String) (payload : Bytes) :
    let file := encodeFile generation contentType payload
    (∃ line, 0x0A ∉ line ∧ file = line ++ 0x0A :: payload ∧
        splitHeader? file = some (line, payload) ∧
        Header.decode? line = .ok (headerOf generation contentType payload)) ∧
      decodeFile file =
        .ok { content := some payload, contentType := some contentType, generation } ∧
      ∀ (spelling : String) (settings : FileSettings) (holder : Holder) (expected : Generation)
        (disk written : Tree) (place : Path),
        disk.find (Path.ofText spelling) = .ok (place, some .directory) →
        (FileStore.write ⟨Path.ofText spelling, settings⟩ key contentType payload expected).run
            holder disk = (.ok generation, written) →
        written.contentOf (FileStore.blobPath ⟨Path.ofText spelling, settings⟩ key) =
          .ok file := by
  intro file
  refine ⟨?_, decodeFile_encodeFile present contentType payload, ?_⟩
  · have single := Header.newline_not_mem_write (headerOf generation contentType payload)
    exact ⟨_, single, rfl, splitHeader?_append payload single, Header.decode?_write _⟩
  · intro spelling settings holder expected disk written place found ran
    let writer : Writer := ⟨settings, contentType, payload, expected⟩
    have roots := Tree.roots_of_find found (Path.ofText_ne spelling)
    have done : (writer.script (Path.ofText spelling) key).run holder disk =
        (.ok generation, written) := ran
    have content := contentOf_of_ok roots done
    rw [FileStore.blobPath_eq]
    exact content

/-- A content type of a quote, a backslash and a newline, and a payload that begins with
a newline. -/
theorem written_files_are_read_back_of_odd_content :
    let write := FileStore.write ⟨Path.ofText "blobs", {}⟩ "a/b" "\"\\\n" [0x0A, 0x7B] .absent
    let file := encodeFile ⟨1⟩ "\"\\\n" [0x0A, 0x7B]
    (⟨1⟩ : Generation) ≠ .absent ∧
      (write.run 1 (Tree.single "blobs")).1 = .ok ⟨1⟩ ∧
      (write.run 1 (Tree.single "blobs")).2.contentOf ["blobs", "a", "b"] = .ok file ∧
      decodeFile file =
        .ok { content := some [0x0A, 0x7B], contentType := some "\"\\\n", generation := ⟨1⟩ } := by
  intro write file
  have present : (⟨1⟩ : Generation) ≠ .absent := by decide
  obtain ⟨-, decoded, lays⟩ :=
    written_files_are_read_back present "a/b" "\"\\\n" [0x0A, 0x7B]
  have ran : (write.run 1 (Tree.single "blobs")).1 = .ok ⟨1⟩ := by
    change ((FileStore.write ⟨Path.ofText "blobs", {}⟩ "a/b" _ _ _).run 1 _).1 = _
    rw [ofText_blobs]
    rfl
  have found : (Tree.single "blobs").find (Path.ofText "blobs") =
      .ok (["blobs"], some .directory) := by
    rw [ofText_blobs]
    exact Tree.find_single isPlain_blobs fits_blobs checkForm_blobs
  have content := lays "blobs" {} 1 .absent _ _ _ found (Prod.ext ran rfl)
  have path : FileStore.blobPath ⟨Path.ofText "blobs", {}⟩ "a/b" = ["blobs", "a", "b"] := by
    rw [ofText_blobs]
    decide +kernel
  rw [path] at content
  exact ⟨present, ran, content, decoded⟩

end RoomLedger.Store
