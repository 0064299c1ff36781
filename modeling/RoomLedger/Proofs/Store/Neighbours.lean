import RoomLedger.Proofs.Store.Contest

/-!
Contract: what the turn of one writer means for the others.

Owns:
- `Spares`, a change by which nobody loses the lock and nobody gets it;
- that turns and deaths of a writer spare all others;
- `Phase.isInside` and `Phase.taken?`, by which a writer has the lock and has
  published.

Who has the lock is alone with the draft and the blob: every other writer is at
a phase in which its turn does not touch them.

Does not own: the order of the turns.
-/

namespace RoomLedger.Store

open RoomLedger.Disk
open RoomLedger.Text (Bytes)

/-! ## What a turn leaves to the others -/

/-- The writer has the lock, unless it was taken from it. -/
def Phase.isInside : Phase → Bool
  | starting => false
  | opening => false
  | locking => false
  | finished _ => false
  | _ => true

/-- The mark that a writer has given to its blob. -/
def Phase.taken? : Phase → Option Generation
  | releasing (.ok generation) => some generation
  | finished (.ok generation) => some generation
  | _ => none

/-- The files of a key and what a reader finds, before and after the turn of
another: who has the lock is not disturbed, and nobody gets it by that. -/
structure Spares (holder : Holder) (files after : KeyFiles) (version versionAfter : Version) :
    Prop where
  held : IsLocked files holder →
    IsLocked after holder ∧ versionAfter = version ∧
      ∀ content, IsDrafted files content → IsDrafted after content
  lock : files .lock ≠ none → after .lock ≠ none
  taken : IsLocked after holder → IsLocked files holder

section Others

variable {key : String} {writer : Writer} {holder other : Holder} {files after : KeyFiles}
  {version versionAfter : Version}

theorem Spares.refl (holder : Holder) (files : KeyFiles) (version : Version) :
    Spares holder files files version version where
  held locked := ⟨locked, rfl, fun _ drafted => drafted⟩
  lock some := some
  taken locked := locked

private theorem isLocked_unique (left : IsLocked files holder) (right : IsLocked files other) :
    holder = other := by
  obtain ⟨content, found⟩ := left
  obtain ⟨otherContent, otherFound⟩ := right
  rw [found] at otherFound
  simp only [Option.some.injEq, KeyFile.mk.injEq] at otherFound
  exact otherFound.2

/-- What a writer can rely on stays, whatever others do that spare it. -/
theorem Phase.Stands.spared {phase : Phase} (stands : phase.Stands key writer holder files version)
    (spares : Spares holder files after version versionAfter) :
    phase.Stands key writer holder after versionAfter := by
  cases phase with
  | starting => trivial
  | opening => trivial
  | locking => exact spares.lock stands
  | reading => exact (spares.held stands).1
  | creating generation =>
      obtain ⟨locked, marked⟩ := stands
      obtain ⟨still, rfl, -⟩ := spares.held locked
      exact ⟨still, marked⟩
  | pouring generation chunk rest =>
      obtain ⟨locked, marked, written, drafted, whole⟩ := stands
      obtain ⟨still, rfl, drafts⟩ := spares.held locked
      exact ⟨still, marked, written, drafts written drafted, whole⟩
  | syncing generation =>
      obtain ⟨locked, marked, drafted⟩ := stands
      obtain ⟨still, rfl, drafts⟩ := spares.held locked
      exact ⟨still, marked, drafts _ drafted⟩
  | publishing generation =>
      obtain ⟨locked, marked, drafted⟩ := stands
      obtain ⟨still, rfl, drafts⟩ := spares.held locked
      exact ⟨still, marked, drafts _ drafted⟩
  | releasing result => exact (spares.held stands).1
  | finished result => trivial

/-- Who has the lock may do with the files what it likes, as long as it passes
the lock to nobody. -/
theorem spares_of_isLocked (different : other ≠ holder) (locked : IsLocked files holder)
    (kept : after .lock = files .lock ∨ ∃ content, after .lock = some ⟨content, none⟩) :
    Spares other files after version versionAfter := by
  have notOther : ¬ IsLocked files other := by
    intro otherLocked
    exact different (isLocked_unique otherLocked locked)
  constructor
  case held => exact fun otherLocked => absurd otherLocked notOther
  case lock =>
    intro some
    rcases kept with same | ⟨content, free⟩
    · rwa [same]
    · simp [free]
  case taken =>
    rintro ⟨otherContent, found⟩
    rcases kept with same | ⟨content, free⟩
    · rw [same] at found
      exact ⟨otherContent, found⟩
    · simp [free] at found

private theorem spares_opening (files : KeyFiles) (version : Version) :
    Spares other files
      (Function.update files .lock (some ((files .lock).getD ⟨[], none⟩))) version version := by
  cases found : files .lock with
  | some file =>
      rw [Option.getD_some, ← found, Function.update_eq_self]
      exact .refl other files version
  | none =>
      constructor
      case held =>
        rintro ⟨content, held⟩
        simp [found] at held
      case lock => simp
      case taken =>
        rintro ⟨content, held⟩
        simp at held

/-- The turn of a writer spares the others. -/
theorem spares_turn (different : other ≠ holder) {phase : Phase}
    (stands : phase.Stands key writer holder files version) :
    Spares other files (phase.turn key writer holder files).2 version
      (phase.versionAfter writer version) := by
  cases phase with
  | starting => exact .refl other files version
  | opening => exact spares_opening files version
  | locking =>
      rcases turn_locking key writer holder stands with
        ⟨content, found, turned⟩ | ⟨content, occupant, -, turned⟩
      · rw [turned]
        constructor
        case held =>
          rintro ⟨otherContent, held⟩
          simp [found] at held
        case lock => simp
        case taken =>
          rintro ⟨otherContent, held⟩
          simp only [Function.update_self, Option.some.injEq, KeyFile.mk.injEq] at held
          exact absurd held.2.symm different
      · rw [turned]
        exact .refl other files version
  | reading => exact .refl other files version
  | creating generation =>
      refine spares_of_isLocked different stands.1 (.inl ?_)
      simp [Phase.turn]
  | pouring generation chunk rest =>
      refine spares_of_isLocked different stands.1 (.inl ?_)
      simp [Phase.turn]
  | syncing generation => exact .refl other files version
  | publishing generation =>
      refine spares_of_isLocked different stands.1 (.inl ?_)
      simp [Phase.turn]
  | releasing result =>
      refine spares_of_isLocked different stands (.inr ?_)
      obtain ⟨content, found⟩ := stands
      exact ⟨content, by simp [Phase.turn, found]⟩
  | finished result => exact .refl other files version

theorem spares_partly (different : other ≠ holder) {phase : Phase}
    (stands : phase.Stands key writer holder files version) (count : Nat) :
    Spares other files (phase.partly count files).2 version version := by
  cases phase with
  | pouring generation chunk rest =>
      refine spares_of_isLocked different stands.1 (.inl ?_)
      simp [Phase.partly]
  | _ => exact .refl other files version

private theorem content_freed (holder : Holder) (file : KeyFile) :
    (file.freed holder).content = file.content := by
  rw [KeyFile.freed]
  split <;> rfl

theorem answer_freed (holder : Holder) (files : KeyFiles) :
    (files.freed holder).answer = files.answer := by
  rw [KeyFiles.answer, KeyFiles.answer, KeyFiles.freed]
  cases files .blob with
  | none => rfl
  | some file => exact congrArg Except.ok (content_freed holder file)

theorem not_isLocked_freed (holder : Holder) (files : KeyFiles) :
    ¬ IsLocked (files.freed holder) holder := by
  rintro ⟨content, found⟩
  simp only [KeyFiles.freed, Option.map_eq_some_iff, KeyFile.freed] at found
  obtain ⟨file, -, freed⟩ := found
  split at freed
  · cases freed
  · rename_i kept
    rw [freed] at kept
    exact kept rfl

/-- The end of a writer spares the others. -/
theorem spares_freed (different : other ≠ holder) (files : KeyFiles) (version : Version) :
    Spares other files (files.freed holder) version version := by
  constructor
  case held =>
    rintro ⟨content, found⟩
    refine ⟨⟨content, ?_⟩, rfl, ?_⟩
    · simp [KeyFiles.freed, found, KeyFile.freed, different]
    · rintro draft ⟨occupant, drafted⟩
      refine ⟨(KeyFile.freed holder ⟨draft, occupant⟩).holder, ?_⟩
      rw [KeyFiles.freed, drafted, Option.map_some, Option.some.injEq]
      rw [KeyFile.freed]
      split <;> rfl
  case lock => simp [KeyFiles.freed]
  case taken =>
    rintro ⟨content, found⟩
    simp only [KeyFiles.freed, Option.map_eq_some_iff, KeyFile.freed] at found
    obtain ⟨file, there, freed⟩ := found
    split at freed
    · cases freed
    · rw [freed] at there
      exact ⟨content, there⟩

end Others

/-! ## The lock and the mark of a writer -/

section Own

variable {key : String} {writer : Writer} {holder : Holder} {files : KeyFiles} {version : Version}

private theorem isInside_filling (writer : Writer) (generation : Generation) (chunks : List Bytes) :
    (Phase.filling writer generation chunks).isInside = true := by
  rcases filling_cases writer generation chunks with
    ⟨chunk, rest, -, filling⟩ | ⟨-, filling | filling⟩
  · rw [filling]
    rfl
  · rw [filling]
    rfl
  · rw [filling]
    rfl

private theorem taken?_filling (writer : Writer) (generation : Generation) (chunks : List Bytes) :
    (Phase.filling writer generation chunks).taken? = none := by
  rcases filling_cases writer generation chunks with
    ⟨chunk, rest, -, filling⟩ | ⟨-, filling | filling⟩
  · rw [filling]
    rfl
  · rw [filling]
    rfl
  · rw [filling]
    rfl

/-- A writer that has the lock after its turn is inside. -/
theorem isInside_turn {phase : Phase} (stands : phase.Stands key writer holder files version)
    (inside : IsLocked files holder → phase.isInside = true)
    (locked : IsLocked (phase.turn key writer holder files).2 holder) :
    (phase.turn key writer holder files).1.isInside = true := by
  cases phase with
  | starting => exact absurd (inside locked) (by simp [Phase.isInside])
  | opening =>
      have before := (spares_opening files version).taken locked
      exact absurd (inside before) (by simp [Phase.isInside])
  | locking =>
      rcases turn_locking key writer holder stands with
        ⟨content, -, turned⟩ | ⟨content, occupant, -, turned⟩
      · rw [turned]
        rfl
      · rw [turned] at locked
        exact absurd (inside locked) (by simp [Phase.isInside])
  | reading =>
      change (Phase.judging key writer files.answer).isInside = true
      rcases judging_cases key writer files.answer with ⟨error, judged⟩ | ⟨generation, judged⟩
      · rw [judged]
        rfl
      · rw [judged]
        rfl
  | creating generation => exact isInside_filling writer generation (writer.chunks generation)
  | pouring generation chunk rest => exact isInside_filling writer generation rest
  | syncing generation => rfl
  | publishing generation => rfl
  | releasing result =>
      obtain ⟨content, found⟩ := locked
      obtain ⟨before, held⟩ := stands
      simp [Phase.turn, held] at found
  | finished result => exact absurd (inside locked) (by simp [Phase.isInside])

/-- A mark is given by the turn that publishes, and by no other. -/
theorem taken?_turn {phase : Phase} (stands : phase.Stands key writer holder files version) :
    (phase.turn key writer holder files).1.taken? =
      match phase with
      | .publishing generation => some generation
      | phase => phase.taken? := by
  cases phase with
  | locking =>
      rcases turn_locking key writer holder stands with
        ⟨content, -, turned⟩ | ⟨content, occupant, -, turned⟩
      · rw [turned]
        rfl
      · rw [turned]
        rfl
  | reading =>
      change (Phase.judging key writer files.answer).taken? = none
      rcases judging_cases key writer files.answer with ⟨error, judged⟩ | ⟨generation, judged⟩
      · rw [judged]
        rfl
      · rw [judged]
        rfl
  | creating generation => exact taken?_filling writer generation (writer.chunks generation)
  | pouring generation chunk rest => exact taken?_filling writer generation rest
  | releasing result => cases result <;> rfl
  | _ => rfl

end Own

end RoomLedger.Store
