import RoomLedger.Proofs.Store.Opening

/-!
Contract: what a reader sees of a write that failed.

Owns:
- `MeetsRemains`, a key on whose way lies what failed writes of another leave;
- `contentOf_of_litters`, what a reader finds before and after;
- `read_after_failed_call`, for every call that fails after any run of calls on a
  fresh directory, and for every key that is read;
- the run in which a refused write turns an absent blob into a fault.

A failed write leaves directories and a lock. Neither holds a blob, but a
directory may stand where a blob was absent, and a lock where a directory was.

Does not own: what a write that is done changes.
-/

namespace RoomLedger.Store

open RoomLedger.Disk
open RoomLedger.Text (Bytes)

/-- A directory for the files of a key has the name of another key's blob, or its
lock that of a directory on the way to the other. -/
def MeetsRemains (key other : String) : Prop :=
  fileNames other .blob <+: folders key ∨ fileNames key .lock <+: folders other

instance (key other : String) : Decidable (MeetsRemains key other) :=
  inferInstanceAs (Decidable (_ ∨ _))

example : MeetsRemains "a/b" "a" ∧ MeetsRemains "a" "a.lock/b" ∧ ¬ MeetsRemains "a" "a/b" := by
  decide +kernel

section Lookups

variable {root place : Path} {key other : String} {tree after : Tree}

/-- Where there was nothing before a write failed, there is still nothing, unless
what it left is in the way. -/
theorem contentOf_of_missing (rootsAfter : after.Roots root place)
    (litters : Litters place key tree after) (valid : checkKey key = .ok ())
    (otherValid : checkKey other = .ok ()) (form : (filePath root other .blob).checkForm = .ok ())
    (fits : ∀ name ∈ fileNames other .blob, Path.fits name = true)
    (clear : tree.IsClear place (folders other))
    (missing : tree.node? (filePlace place other .blob) = none) :
    after.contentOf (filePath root other .blob) = .error .notFound ∨
      (∃ fault, fault ≠ .notFound ∧
        after.contentOf (filePath root other .blob) = .error fault) ∧
      MeetsRemains key other := by
  obtain ⟨last, -, names⟩ := fileNames_eq_concat other
  have plain : ∀ name ∈ fileNames other .blob, Path.IsPlain name :=
    fun name found => isPlain_of_mem_fileNames .blob otherValid found
  have apart : fileNames other .blob ≠ fileNames key .lock :=
    fun same => by cases (fileNames_injective otherValid valid same).2
  rw [filePath, filePlace, names] at *
  by_cases clearAfter : after.IsClear place (folders other)
  · by_cases same : after.node? (place ++ (folders other ++ [last ++ Part.blob.ending])) =
        tree.node? (place ++ (folders other ++ [last ++ Part.blob.ending]))
    · left
      rw [missing] at same
      exact Tree.contentOf_of_isClear rootsAfter plain form fits clearAfter same
    · right
      obtain ⟨-, isOpen, node, found, ⟨onWay, rfl⟩ | ⟨lock, -⟩⟩ := litters.of_ne same
      · have directory := Tree.contentOf_of_directory rootsAfter plain form fits isOpen found
        refine ⟨⟨.isADirectory, by decide, directory⟩, .inl ?_⟩
        rw [names]
        exact onWay
      · exact absurd lock apart
  · right
    simp only [Tree.IsClear, not_forall, not_or] at clearAfter
    obtain ⟨front, some, onWay, notNone, notDirectory⟩ := clearAfter
    obtain ⟨directories, name, rfl⟩ := (List.eq_nil_or_concat front).resolve_left some
    rw [List.concat_eq_append] at *
    have differs : after.node? (place ++ (directories ++ [name])) ≠
        tree.node? (place ++ (directories ++ [name])) := by
      intro same
      rw [same] at notNone notDirectory
      exact (clear _ some onWay).elim notNone notDirectory
    obtain ⟨-, isOpen, node, found, ⟨-, rfl⟩ | ⟨lock, rfl⟩⟩ := litters.of_ne differs
    · exact absurd found notDirectory
    · have file := Tree.contentOf_of_file rootsAfter plain form fits onWay isOpen found
      refine ⟨⟨.notADirectory, by decide, file⟩, .inr ?_⟩
      rw [← lock]
      exact onWay

/-- What is found at a key before and after a write of another failed. -/
theorem contentOf_of_litters (roots : tree.Roots root place) (grown : tree.IsGrown place)
    (litters : Litters place key tree after) (valid : checkKey key = .ok ())
    (otherValid : checkKey other = .ok ()) (form : (filePath root other .blob).checkForm = .ok ())
    (fits : ∀ name ∈ fileNames other .blob, Path.fits name = true) :
    after.contentOf (filePath root other .blob) = tree.contentOf (filePath root other .blob) ∨
      tree.contentOf (filePath root other .blob) = .error .notFound ∧
        (∃ fault, fault ≠ .notFound ∧
          after.contentOf (filePath root other .blob) = .error fault) ∧
        MeetsRemains key other := by
  obtain ⟨last, -, names⟩ := fileNames_eq_concat other
  have rootsAfter := roots.keep litters.keeps
  have plain : ∀ name ∈ fileNames other .blob, Path.IsPlain name :=
    fun name found => isPlain_of_mem_fileNames .blob otherValid found
  by_cases same : ∀ front, front ≠ [] → front <+: fileNames other .blob →
      after.node? (place ++ front) = tree.node? (place ++ front)
  · exact .inl (Tree.contentOf_congr roots rootsAfter (by simp [names]) plain same)
  · simp only [not_forall] at same
    obtain ⟨front, some, before, differs⟩ := same
    have shape := names .blob
    have plainToo := plain
    rw [shape] at plainToo before
    obtain ⟨clear, missing⟩ := litters.isClear_of_ne grown plainToo some before differs
    have notFound : tree.contentOf (filePath root other .blob) = .error .notFound := by
      rw [filePath, shape] at form ⊢
      rw [shape] at fits
      exact Tree.contentOf_of_isClear roots plainToo form fits clear missing
    rw [← shape] at missing
    rcases contentOf_of_missing rootsAfter litters valid otherValid form fits clear missing with
      stillNotFound | ⟨found, meets⟩
    · left
      rw [notFound, stillNotFound]
    · exact .inr ⟨notFound, found, meets⟩

end Lookups

/-! ## Reads before and after -/

private theorem interpret_of_ne {fault : Fault} (key : String) (found : fault ≠ .notFound) :
    FileStore.interpret key (.error fault) = .error .io := by
  cases fault <;> first | rfl | exact absurd rfl found

/-- A call that fails leaves litter of its key. -/
theorem litters_of_failed {root place : Path} {tree : Tree} {use : Use} {error : Error}
    (roots : tree.Roots root place) (failed : (use.ask root tree).1 = .mark (.error error)) :
    (use.ask root tree).2 = tree ∨
      checkKey use.question.key = .ok () ∧
        Litters place use.question.key tree (use.ask root tree).2 := by
  obtain ⟨settings, holder, question⟩ := use
  cases question with
  | read key => exact .inl rfl
  | generation key => exact .inl rfl
  | write key contentType content expected =>
      rw [ask_write] at failed ⊢
      simp only [Question.key]
      cases valid : checkKey key with
      | error fault =>
          left
          rw [Writer.script, FileStore.write, valid]
          rfl
      | ok =>
          simp only [Answer.mark.injEq] at failed
          exact .inr ⟨rfl, litters_of_error roots (Prod.ext failed rfl)⟩

/-- Whatever was read and written through any number of stores in one fresh
directory, a call that fails changes what is read at a key in one way only: an
absent blob is told as a fault, and only if what the call left behind meets the
names of the key. -/
theorem read_after_failed_call (spelling : String) {settings : FileSettings} {holder : Holder}
    {disk tree : Tree} {store : FileStore}
    (opened : (FileStore.openAt (Path.ofText spelling) settings).run holder disk =
      (.ok store, tree))
    (fresh : IsFresh tree (Path.ofText spelling)) (uses : List Use) {use : Use} {error : Error}
    (failed : (use.ask (Path.ofText spelling)
      (answersOnFiles (Path.ofText spelling) uses tree).2).1 = .mark (.error error))
    {other : String} (form : (filePath (Path.ofText spelling) other .blob).checkForm = .ok ())
    (fits : ∀ name ∈ fileNames other .blob, Path.fits name = true) (readerSettings : FileSettings)
    (readerHolder : Holder) :
    let root := Path.ofText spelling
    let before := (answersOnFiles root uses tree).2
    let after := (use.ask root before).2
    let answer := fun tree => (Use.ask ⟨readerSettings, readerHolder, .read other⟩ root tree).1
    answer after = answer before ∨
      answer before = .version (.ok .absent) ∧ answer after = .version (.error .io) ∧
        MeetsRemains use.question.key other := by
  intro root before after answer
  obtain ⟨place, found⟩ := find_of_openAt opened
  obtain ⟨roots, grown⟩ := isGrown_of_answers uses
    (Tree.roots_of_find found (Path.ofText_ne spelling)) (isGrown_of_isFresh found fresh)
  rcases litters_of_failed roots failed with same | ⟨valid, litters⟩
  · exact .inl (congrArg answer same)
  · cases otherValid : checkKey other with
    | error fault =>
        left
        have refused (tree : Tree) :
            answer tree = .version (.error (.invalidKey other (.form fault))) := by
          change Answer.version ((FileStore.read _ other).run _ tree).1 = _
          rw [FileStore.read, otherValid]
          rfl
        rw [refused, refused]
    | ok =>
        have told (tree : Tree) := ask_read root tree readerSettings readerHolder otherValid
        rcases contentOf_of_litters roots grown litters valid otherValid form fits with
          same | ⟨missing, ⟨fault, present, failedToo⟩, meets⟩
        · left
          simp only [answer, told]
          exact congrArg (fun content => Answer.version (FileStore.interpret other content)) same
        · right
          refine ⟨?_, ?_, meets⟩
          · simp only [answer, told]
            exact congrArg (fun content => Answer.version (FileStore.interpret other content))
              missing
          · simp only [answer, told]
            rw [← interpret_of_ne other present]
            exact congrArg (fun content => Answer.version (FileStore.interpret other content))
              failedToo

/-- A write that is taken, of a blob beside the directory of the next one. -/
def takenWrite : Use :=
  { question := .write "notes" "text" [0x62] .absent }

/-- A write that expects a blob where there is none. -/
def refusedWrite : Use :=
  { holder := 1, question := .write "room/log" "text" [0x61, 0x0A] ⟨1⟩ }

/-- After a write that was taken, one that is refused turns an absent blob into a fault. -/
theorem read_after_failed_call_of_refused :
    let before := (answersOnFiles (Path.ofText "blobs") [takenWrite] (Tree.single "blobs")).2
    let after := (refusedWrite.ask (Path.ofText "blobs") before).2
    let answer := fun tree => (Use.ask ⟨{}, 2, .read "room"⟩ (Path.ofText "blobs") tree).1
    answer before = .version (.ok .absent) ∧ answer after = .version (.error .io) ∧
      MeetsRemains "room/log" "room" := by
  intro before after answer
  have form : (filePath (Path.ofText "blobs") "room" .blob).checkForm = .ok () :=
    (Path.checkForm_eq_ok_iff _).mpr (by decide +kernel)
  have fits : ∀ name ∈ fileNames "room" .blob, Path.fits name = true := by decide +kernel
  have failed : (refusedWrite.ask (Path.ofText "blobs") before).1 =
      .mark (.error (.generationMismatch "room/log" ⟨1⟩ .absent)) := by
    simp only [before, ofText_blobs]
    rfl
  have differs : answer after ≠ answer before := by
    have absent : answer before = .version (.ok .absent) := by
      simp only [answer, before, ofText_blobs]
      rfl
    have fault : answer after = .version (.error .io) := by
      simp only [answer, after, before, ofText_blobs]
      rfl
    rw [absent, fault]
    nofun
  rcases read_after_failed_call "blobs" (openAt_blobs {} 0) isFresh_blobs [takenWrite] failed form
    fits {} 2 with same | becomes
  · exact absurd same differs
  · exact becomes

/-- A refused write makes a directory where another key's blob could be. Until then
a reader of that key is told that there is none; from then on it is told of a
fault. -/
theorem absent_blob_becomes_fault :
    (FileStore.openAt (Path.ofText "blobs") {}).run 0 Tree.empty =
        (.ok ⟨Path.ofText "blobs", {}⟩, Tree.single "blobs") ∧
      IsFresh (Tree.single "blobs") (Path.ofText "blobs") ∧
      Housed (Path.ofText "blobs") "a" ∧ Housed (Path.ofText "blobs") "a/b" ∧
      (answersOnFiles (Path.ofText "blobs")
          [{ question := .read "a" }, { question := .write "a/b" "text" [0x61] ⟨1⟩ },
            { question := .read "a" }] (Tree.single "blobs")).1 =
        [.version (.ok .absent), .mark (.error (.generationMismatch "a/b" ⟨1⟩ .absent)),
          .version (.error .io)] := by
  refine ⟨openAt_blobs {} 0, isFresh_blobs, ?_, ?_, ?_⟩
  · decide +kernel
  · decide +kernel
  · rw [ofText_blobs]
    rfl

end RoomLedger.Store
