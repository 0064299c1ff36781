import RoomLedger.Proofs.Store.Layout

/-!
Contract: files that were torn or changed after they were written.

Owns:
- `IsDamage`, the ways in which a file may be damaged;
- what the reader says of each, and that it never finds a blob in a damaged file;
- `refusesWrites`, by which no write gets past a file in which no blob is found;
- `damaged_files_are_refused`, for every damage and every tree with such a file.

The line of a header is ended by a newline and tells the length of the payload. A
file that was cut within its line has no newline; one that was cut or extended
behind it has a payload of another length. The digest plays a part only where the
payload was exchanged for one of the same length.

Does not own: changes of the header's line.
-/

namespace RoomLedger.Store

open RoomLedger.Disk
open RoomLedger.Digest
open RoomLedger.Text (Bytes)

/-- What a file may hold after it was torn, extended, or its payload exchanged. Two
payloads of one length must not have the same digest. -/
inductive IsDamage (generation : Generation) (contentType : String) (payload : Bytes) :
    Bytes → Prop where
  | torn {front rest : Bytes} (some : rest ≠ [])
      (whole : front ++ rest = encodeFile generation contentType payload) :
      IsDamage generation contentType payload front
  | extended {extra : Bytes} (some : extra ≠ []) :
      IsDamage generation contentType payload (encodeFile generation contentType payload ++ extra)
  | resized {other : Bytes} (lengths : other.length ≠ payload.length) :
      IsDamage generation contentType payload
        ((headerOf generation contentType payload).write ++ 0x0A :: other)
  | altered {other : Bytes} (lengths : other.length = payload.length) (differs : other ≠ payload)
      (noCollision : Blake3.digest other = Blake3.digest payload → other = payload) :
      IsDamage generation contentType payload
        ((headerOf generation contentType payload).write ++ 0x0A :: other)

/-! ## What the reader says -/

private theorem splitHeader?_of_not_mem {content : Bytes} (single : 0x0A ∉ content) :
    splitHeader? content = none := by
  induction content with
  | nil => rfl
  | cons byte rest inductionHypothesis =>
      simp only [List.mem_cons, not_or] at single
      have differs : byte ≠ 0x0A := fun same => single.1 same.symm
      rw [splitHeader?, if_neg differs, inductionHypothesis single.2]

/-- Lengths that a byte string in memory can have are told apart by their counts. -/
theorem ofNat_ne_of_lt {left right : Nat} (leftSmall : left < UInt64.size)
    (rightSmall : right < UInt64.size) (differ : left ≠ right) :
    UInt64.ofNat left ≠ UInt64.ofNat right := by
  intro same
  have counts := congrArg UInt64.toNat same
  rw [UInt64.toNat_ofNat_of_lt' leftSmall, UInt64.toNat_ofNat_of_lt' rightSmall] at counts
  exact differ counts

section Reader

variable (generation : Generation) (contentType : String) {payload other : Bytes}

private theorem decodeFile_of_missing_newline (single : 0x0A ∉ other) :
    decodeFile other = .error .missingHeader := by
  rw [decodeFile, splitHeader?_of_not_mem single]

/-- A payload of another length is told by the length alone. -/
theorem decodeFile_of_length_ne (inMemory : payload.length < UInt64.size)
    (otherInMemory : other.length < UInt64.size) (differ : other.length ≠ payload.length) :
    decodeFile ((headerOf generation contentType payload).write ++ 0x0A :: other) =
      .error (.wrongLength other.length payload.length) := by
  have counts : UInt64.ofNat other.length ≠ (headerOf generation contentType payload).length :=
    ofNat_ne_of_lt otherInMemory inMemory differ
  have stated : (headerOf generation contentType payload).length.toNat = payload.length :=
    UInt64.toNat_ofNat_of_lt' inMemory
  rw [decodeFile_write_append, checkPayload, if_pos counts, stated]

/-- A payload of the same length is told by its digest. -/
theorem decodeFile_of_digest_ne (lengths : other.length = payload.length)
    (differ : Blake3.digest other ≠ Blake3.digest payload) :
    decodeFile ((headerOf generation contentType payload).write ++ 0x0A :: other) =
      .error .wrongDigest := by
  have counts : UInt64.ofNat other.length = (headerOf generation contentType payload).length :=
    congrArg UInt64.ofNat lengths
  rw [decodeFile_write_append, checkPayload, if_neg (not_not_intro counts), ofHex?_digest]
  simp only [if_pos differ]

variable {generation contentType}

/-- A front part of a file ends within the line, or has a shorter payload. -/
theorem torn_cases {line front rest : Bytes} (some : rest ≠ [])
    (whole : front ++ rest = line ++ 0x0A :: payload) :
    front <+: line ∨
      ∃ shorter, front = line ++ 0x0A :: shorter ∧ shorter.length < payload.length := by
  rcases List.append_eq_append_iff.mp whole with ⟨gap, rfl, -⟩ | ⟨gap, rfl, behind⟩
  · exact .inl (List.prefix_append front gap)
  · cases gap with
    | nil =>
        rw [List.append_nil]
        exact .inl List.prefix_rfl
    | cons byte shorter =>
        rw [List.cons_append] at behind
        obtain ⟨rfl, rfl⟩ := List.cons.inj behind
        refine .inr ⟨shorter, rfl, ?_⟩
        have longer := List.length_pos_iff.mpr some
        rw [List.length_append]
        omega

/-- In a damaged file no blob is found. -/
theorem IsDamage.decodeFile {damaged : Bytes}
    (isDamage : IsDamage generation contentType payload damaged)
    (inMemory : payload.length < UInt64.size) (damagedInMemory : damaged.length < UInt64.size) :
    ∃ damage, decodeFile damaged = .error damage := by
  have single := Header.newline_not_mem_write (headerOf generation contentType payload)
  have small {other : Bytes}
      (whole : ((headerOf generation contentType payload).write ++ 0x0A :: other).length <
        UInt64.size) :
      other.length < UInt64.size := by
    rw [List.length_append, List.length_cons] at whole
    omega
  cases isDamage with
  | torn some whole =>
      rcases torn_cases some whole with within | ⟨shorter, rfl, less⟩
      · exact ⟨_, decodeFile_of_missing_newline fun found => single (within.subset found)⟩
      · exact ⟨_, decodeFile_of_length_ne generation contentType inMemory (small damagedInMemory)
          (Nat.ne_of_lt less)⟩
  | @extended extra some =>
      rw [encodeFile, List.append_assoc, List.cons_append] at damagedInMemory ⊢
      have longer : (payload ++ extra).length ≠ payload.length := by
        have added := List.length_pos_iff.mpr some
        rw [List.length_append]
        omega
      exact ⟨_, decodeFile_of_length_ne generation contentType inMemory (small damagedInMemory)
        longer⟩
  | resized lengths =>
      exact ⟨_, decodeFile_of_length_ne generation contentType inMemory (small damagedInMemory)
        lengths⟩
  | altered lengths differs noCollision =>
      exact ⟨_, decodeFile_of_digest_ne generation contentType lengths fun same =>
        differs (noCollision same)⟩

end Reader

/-! ## Writes on a damaged file -/

section Writes

variable {root place : Path} {key : String} {tree after : Tree} {content : Bytes}

/-- The lock of a key can be opened, or made, and nobody has it. -/
def IsLockable (root : Path) (key : String) (tree : Tree) : Prop :=
  ∃ opened, tree.openFile (filePath root key .lock) = (.ok (), opened) ∧
    ∀ holder, (opened.takeLock holder (filePath root key .lock)).1 = .ok true

/-- No write of the key is done, and the file of its blob keeps its content. If the lock
can be had, every write fails with that error. -/
def RefusesWrites (root place : Path) (key : String) (content : Bytes) (error : Error)
    (tree : Tree) : Prop :=
  ∀ (settings : FileSettings) (holder : Holder) (contentType : String) (payload : Bytes)
    (expected : Generation),
    ∃ told after,
      (FileStore.write ⟨root, settings⟩ key contentType payload expected).run holder tree =
        (.error told, after) ∧
      Litters place key tree after ∧
      after.contentOf (filePath root key .blob) = .ok content ∧
      (IsLockable root key tree → told = error)

/-- What a write that failed leaves behind is not in the way of a file. -/
theorem Litters.contentOf_blob (litters : Litters place key tree after)
    (valid : checkKey key = .ok ()) (roots : tree.Roots root place)
    (found : tree.contentOf (filePath root key .blob) = .ok content) :
    after.contentOf (filePath root key .blob) = .ok content := by
  obtain ⟨⟨form, fits, isOpen⟩, occupant, node⟩ := (contentOf_blob_iff valid roots).mp found
  exact (contentOf_blob_iff valid (roots.keep litters.keeps)).mpr
    ⟨⟨form, fits, isOpen.keep litters.keeps⟩, occupant, litters.node node⟩

variable (writer : Writer) (holder : Holder)

/-- Where the lock can be had, every writer comes to wait for it, and has it at once. -/
theorem run_of_isLockable (valid : checkKey key = .ok ()) (roots : tree.Roots root place)
    (isOpen : tree.IsOpen place (folders key)) (lockable : IsLockable root key tree) :
    ∃ middle,
      (writer.script root key).run holder tree =
        (Phase.locking.script root key writer).run holder middle ∧
      Litters place key tree middle ∧ IsReady root place key middle ∧
      ∃ lockContent,
        middle.node? (filePlace place key .lock) = some (.file lockContent none) := by
  obtain ⟨middle, opened, taken⟩ := lockable
  rcases openFile_lock_cases valid roots with ⟨fault, failed⟩ | ⟨_, openedToo, litters, ready⟩
  · rw [failed] at opened
    cases opened
  · rw [opened] at openedToo
    cases openedToo
    refine ⟨middle, run_of_openFile_lock writer holder ready.housed roots isOpen opened, litters,
      ready, ?_⟩
    obtain ⟨lockContent, occupant, node⟩ := ready.lock
    cases occupant with
    | none => exact ⟨lockContent, node⟩
    | some other =>
        have refused := taken holder
        rw [Tree.takeLock, ready.find .lock, node] at refused
        cases refused

variable {lockContent : Bytes} {error : Error}

/-- A writer with the lock that finds no blob in the file gives up the lock and has
changed nothing. -/
theorem run_locking_of_refused (ready : IsReady root place key tree)
    (free : tree.node? (filePlace place key .lock) = some (.file lockContent none))
    (found : tree.contentOf (filePath root key .blob) = .ok content)
    (refused : FileStore.interpret key (.ok content) = .error error) :
    ∃ after,
      (Phase.locking.script root key writer).run holder tree = (.error error, after) ∧
      ∀ other, after.node? other = tree.node? other := by
  have told := (run_locking_of_free writer holder ready free).trans
    (run_reading writer holder ready lockContent)
  rw [found, Phase.judging, refused] at told
  obtain ⟨after, released, same⟩ := run_release writer holder ready lockContent free (.error error)
  exact ⟨after, told.trans released, same⟩

/-- Whoever has the lock, and whether it can be opened or not, no write gets past a file
in which no blob is found. -/
theorem refusesWrites (valid : checkKey key = .ok ()) (roots : tree.Roots root place)
    (found : tree.contentOf (filePath root key .blob) = .ok content)
    (refused : FileStore.interpret key (.ok content) = .error error) :
    RefusesWrites root place key content error tree := by
  intro settings holder contentType payload expected
  let writer : Writer := ⟨settings, contentType, payload, expected⟩
  have stays {after : Tree} (litters : Litters place key tree after) :
      after.contentOf (filePath root key .blob) = .ok content :=
    litters.contentOf_blob valid roots found
  by_cases lockable : IsLockable root key tree
  · have isOpen := ((contentOf_blob_iff valid roots).mp found).1.2.2
    obtain ⟨middle, ran, litters, ready, lockContent, free⟩ :=
      run_of_isLockable writer holder valid roots isOpen lockable
    obtain ⟨after, failed, same⟩ :=
      run_locking_of_refused writer holder ready free (stays litters) refused
    have all := litters.trans (.of_same same)
    exact ⟨error, after, ran.trans failed, all, stays all, fun _ => rfl⟩
  · rcases run_until_lock writer holder valid roots with
      ⟨after, failed, litters⟩ | ⟨middle, ran, litters, ready⟩
    · exact ⟨.io, after, failed, litters, stays litters, fun can => absurd can lockable⟩
    · obtain ⟨lockContent, occupant, node⟩ := ready.lock
      cases occupant with
      | some other =>
          have failed := ran.trans (run_locking_of_held writer holder ready node)
          exact ⟨_, middle, failed, litters, stays litters, fun can => absurd can lockable⟩
      | none =>
          obtain ⟨after, failed, same⟩ :=
            run_locking_of_refused writer holder ready node (stays litters) refused
          have all := litters.trans (.of_same same)
          exact ⟨error, after, ran.trans failed, all, stays all, fun _ => rfl⟩

end Writes

/-- A file that a write has laid out and that was torn at any place, extended, or got
another payload, is told to be corrupt, for whatever key it is read. Where it is the
file of a key, every write of the key is refused with this damage, whatever mark it
expects, unless the lock cannot be had; and in any case the file stays as it is. -/
theorem damaged_files_are_refused {generation : Generation} {contentType : String}
    {payload damaged : Bytes} (isDamage : IsDamage generation contentType payload damaged)
    (inMemory : payload.length < UInt64.size) (damagedInMemory : damaged.length < UInt64.size) :
    ∃ damage,
      decodeFile damaged = .error damage ∧
      (∀ key, FileStore.interpret key (.ok damaged) = .error (.corrupt key damage)) ∧
      ∀ (spelling key : String) (tree : Tree) (place : Path),
        tree.find (Path.ofText spelling) = .ok (place, some .directory) →
        checkKey key = .ok () →
        tree.contentOf (filePath (Path.ofText spelling) key .blob) = .ok damaged →
        RefusesWrites (Path.ofText spelling) place key damaged (.corrupt key damage) tree := by
  obtain ⟨damage, refused⟩ := isDamage.decodeFile inMemory damagedInMemory
  have corrupt (key : String) :
      FileStore.interpret key (.ok damaged) = .error (.corrupt key damage) := by
    rw [FileStore.interpret, refused]
  refine ⟨damage, refused, corrupt, ?_⟩
  intro spelling key tree place directory valid found
  have roots := Tree.roots_of_find directory (Path.ofText_ne spelling)
  exact refusesWrites valid roots found (corrupt key)

/-- One letter of the payload was changed, and the lock is not there any more. -/
theorem damaged_files_are_refused_of_altered_letter :
    let damaged := (headerOf ⟨1⟩ "text" [0x61]).write ++ [0x0A, 0x62]
    let tree := (Tree.single "blobs").put ["blobs", "a"] (.file damaged none)
    IsDamage ⟨1⟩ "text" [0x61] damaged ∧
      tree.contentOf (filePath ["blobs"] "a" .blob) = .ok damaged ∧
      IsLockable ["blobs"] "a" tree ∧
      ∃ damage, decodeFile damaged = .error damage ∧
        RefusesWrites (Path.ofText "blobs") ["blobs"] "a" damaged (.corrupt "a" damage) tree := by
  intro damaged tree
  have isDamage : IsDamage ⟨1⟩ "text" [0x61] damaged := by
    refine .altered rfl (by decide) ?_
    decide +kernel
  have directory : tree.find (Path.ofText "blobs") = .ok (["blobs"], some .directory) := by
    rw [ofText_blobs]
    rfl
  have found : tree.contentOf (filePath (Path.ofText "blobs") "a" .blob) = .ok damaged := by
    rw [ofText_blobs]
    rfl
  have lockable : IsLockable ["blobs"] "a" tree := ⟨_, rfl, fun _ => rfl⟩
  obtain ⟨damage, corrupt, -, refuses⟩ :=
    damaged_files_are_refused isDamage (by decide) (by decide +kernel)
  have refused := refuses "blobs" "a" tree ["blobs"] directory rfl found
  rw [ofText_blobs] at found
  exact ⟨isDamage, found, lockable, damage, corrupt, refused⟩

end RoomLedger.Store
