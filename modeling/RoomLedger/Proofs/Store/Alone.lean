import RoomLedger.Proofs.Store.Writing

/-!
Contract: a reader and a writer that have the tree for themselves.

Owns:
- `Phase.outcome`, what a writer comes to if nobody comes in between;
- `run_read` and `run_write`, what reads and writes on files answer, and what
  they leave behind.

What other writers left behind, locks that are free and drafts that are torn,
is of no account.

Does not own: readers and writers that take turns.
-/

namespace RoomLedger.Store

open RoomLedger.Disk
open RoomLedger.Text (Bytes)

/-- Nobody has the lock of a key. -/
def IsFree (files : KeyFiles) : Prop :=
  ∀ content holder, files .lock ≠ some ⟨content, some holder⟩

/-- What a write answers that finds that version, and what a reader finds after
it. -/
def Writer.outcome (key : String) (writer : Writer) (version : Version) :
    Except Error Generation × Version :=
  match nextMark key version.generation writer.expected with
  | .error error => (.error error, version)
  | .ok generation => (.ok generation, writer.version generation)

namespace Phase

/-- What a writer that has come so far comes to if nobody comes in between. -/
def outcome (key : String) (writer : Writer) (version : Version) :
    Phase → Except Error Generation × Version
  | starting => writer.outcome key version
  | opening => writer.outcome key version
  | locking => writer.outcome key version
  | reading => writer.outcome key version
  | creating generation => (.ok generation, writer.version generation)
  | pouring generation _ _ => (.ok generation, writer.version generation)
  | syncing generation => (.ok generation, writer.version generation)
  | publishing generation => (.ok generation, writer.version generation)
  | releasing result => (result, version)
  | finished result => (result, version)

/-- Where a writer does not have the lock, nobody else has it. -/
def IsAlone (files : KeyFiles) : Phase → Prop
  | starting => IsFree files
  | opening => IsFree files
  | locking => IsFree files
  | finished _ => IsFree files
  | _ => True

/-- A bound on the requests that are still to be made. -/
def remaining : Phase → Nat
  | finished _ => 0
  | releasing _ => 1
  | publishing _ => 2
  | syncing _ => 3
  | pouring _ _ rest => 4 + rest.length
  | creating _ => 7
  | reading => 8
  | locking => 9
  | opening => 10
  | starting => 11

end Phase

section Alone

variable {key : String} {writer : Writer} {holder : Holder} {files : KeyFiles} {version : Version}

private theorem outcome_filling (generation : Generation) (chunks : List Bytes) :
    (Phase.filling writer generation chunks).outcome key writer version =
      (.ok generation, writer.version generation) := by
  rcases filling_cases writer generation chunks with
    ⟨chunk, rest, -, filling⟩ | ⟨-, filling | filling⟩
  · rw [filling]
    rfl
  · rw [filling]
    rfl
  · rw [filling]
    rfl

private theorem isAlone_filling (writer : Writer) (files : KeyFiles) (generation : Generation)
    (chunks : List Bytes) :
    (Phase.filling writer generation chunks).IsAlone files := by
  rcases filling_cases writer generation chunks with
    ⟨chunk, rest, -, filling⟩ | ⟨-, filling | filling⟩
  · rw [filling]
    trivial
  · rw [filling]
    trivial
  · rw [filling]
    trivial

private theorem remaining_filling_le (writer : Writer) (generation : Generation)
    (chunks : List Bytes) :
    (Phase.filling writer generation chunks).remaining ≤ 3 + chunks.length := by
  rcases filling_cases writer generation chunks with
    ⟨chunk, rest, rfl, filling⟩ | ⟨-, filling | filling⟩
  · rw [filling, Phase.remaining, List.length_cons]
    omega
  · rw [filling, Phase.remaining]
    omega
  · rw [filling, Phase.remaining]
    omega

/-- A turn does not change what a writer comes to. -/
theorem outcome_turn {phase : Phase} (stands : phase.Stands key writer holder files version)
    (alone : phase.IsAlone files) (read : FileStore.interpret key files.answer = .ok version) :
    (phase.turn key writer holder files).1.outcome key writer
        (phase.versionAfter writer version) =
      phase.outcome key writer version := by
  cases phase with
  | starting => rfl
  | opening => rfl
  | locking =>
      rcases turn_locking key writer holder stands with
        ⟨content, -, turned⟩ | ⟨content, occupant, found, -⟩
      · rw [turned]
        rfl
      · exact absurd found (alone content occupant)
  | reading =>
      simp only [Phase.turn, Phase.judging, read, Phase.versionAfter, Phase.outcome, Writer.outcome]
      cases nextMark key version.generation writer.expected <;> rfl
  | creating generation => exact outcome_filling generation (writer.chunks generation)
  | pouring generation chunk rest => exact outcome_filling generation rest
  | syncing generation => rfl
  | publishing generation => rfl
  | releasing result => rfl
  | finished result => rfl

private theorem isAlone_turn {phase : Phase} (stands : phase.Stands key writer holder files version)
    (alone : phase.IsAlone files) :
    (phase.turn key writer holder files).1.IsAlone (phase.turn key writer holder files).2 := by
  cases phase with
  | starting => exact alone
  | opening =>
      intro content other held
      simp only [Phase.turn, Function.update_self, Option.some.injEq] at held
      cases found : files .lock with
      | none => simp [found] at held
      | some file =>
          rw [found, Option.getD_some] at held
          exact alone content other (by rw [found, held])
  | locking =>
      rcases turn_locking key writer holder stands with
        ⟨content, -, turned⟩ | ⟨content, occupant, found, -⟩
      · rw [turned]
        trivial
      · exact absurd found (alone content occupant)
  | reading =>
      rw [Phase.turn]
      rcases judging_cases key writer files.answer with ⟨error, judged⟩ | ⟨generation, judged⟩
      · rw [judged]
        trivial
      · rw [judged]
        trivial
  | creating generation => exact isAlone_filling writer _ generation (writer.chunks generation)
  | pouring generation chunk rest => exact isAlone_filling writer _ generation rest
  | syncing generation => trivial
  | publishing generation => trivial
  | releasing result =>
      intro content other held
      obtain ⟨locked, found⟩ := stands
      simp [Phase.turn, found] at held
  | finished result => exact alone

/-- A writer that has not finished comes closer to its end. -/
theorem remaining_turn_lt (key : String) (writer : Writer) (holder : Holder) (files : KeyFiles)
    {phase : Phase} (unfinished : 0 < phase.remaining) :
    (phase.turn key writer holder files).1.remaining < phase.remaining := by
  cases phase with
  | starting => simp [Phase.turn, Phase.remaining]
  | opening => simp [Phase.turn, Phase.remaining]
  | locking =>
      simp only [Phase.turn]
      split <;> simp [Phase.remaining]
  | reading =>
      rw [Phase.turn]
      rcases judging_cases key writer files.answer with ⟨error, judged⟩ | ⟨generation, judged⟩
      · rw [judged]
        simp [Phase.remaining]
      · rw [judged]
        simp [Phase.remaining]
  | creating generation =>
      have closer := remaining_filling_le writer generation (writer.chunks generation)
      exact Nat.lt_succ_of_le closer
  | pouring generation chunk rest =>
      have closer := remaining_filling_le writer generation rest
      change (Phase.filling writer generation rest).remaining < 4 + rest.length
      omega
  | syncing generation => simp [Phase.turn, Phase.remaining]
  | publishing generation => simp [Phase.turn, Phase.remaining]
  | releasing result => simp [Phase.turn, Phase.remaining]
  | finished result => exact absurd unfinished (Nat.lt_irrefl 0)

end Alone

theorem run_of_step {α : Type} {holder : Holder} {script next : Script α} {tree after : Tree}
    (step : script.step holder tree = (next, after)) :
    script.run holder tree = next.run holder after := by
  cases script with
  | done result =>
      cases step
      rfl
  | ask request rest =>
      cases step
      rfl

section Runs

variable {root place : Path} {key : String} {writer : Writer} {holder : Holder} {tree : Tree}
  {files : KeyFiles} {version : Version}

/-- A writer that has come so far comes to its outcome, leaves the lock free and
keeps what every turn keeps. The induction is on the requests that are still to be
made. -/
theorem run_script_keeps (housed : Housed root key) (shows_ : Shows root place key tree files)
    (phase : Phase) (reached : phase = .starting ∨ tree.IsOpen place (folders key))
    (stands : phase.Stands key writer holder files version) (alone : phase.IsAlone files)
    (read : FileStore.interpret key files.answer = .ok version) (Keeps : Phase → KeyFiles → Prop)
    (turns : ∀ phase files version, phase.Stands key writer holder files version →
      Keeps phase files →
      Keeps (phase.turn key writer holder files).1 (phase.turn key writer holder files).2)
    (keeps : Keeps phase files) :
    ∃ after filesAfter,
      (phase.script root key writer).run holder tree =
        ((phase.outcome key writer version).1, after) ∧
      Leaves root place key tree after filesAfter ∧
      FileStore.interpret key filesAfter.answer = .ok (phase.outcome key writer version).2 ∧
      IsFree filesAfter ∧
      Keeps (.finished (phase.outcome key writer version).1) filesAfter := by
  induction bound : phase.remaining using Nat.strongRecOn
    generalizing phase tree files version with
  | ind count inductionHypothesis =>
      by_cases unfinished : 0 < phase.remaining
      · obtain ⟨middle, step, isOpen, leaves⟩ := step_script housed shows_ reached stands
        have closer := remaining_turn_lt key writer holder files unfinished
        rw [bound] at closer
        obtain ⟨after, filesAfter, ran, later, found, free, kept⟩ :=
          inductionHypothesis _ closer leaves.shows_ _ (.inr isOpen) (stands_turn stands read)
            (isAlone_turn stands alone) (read_turn stands read)
            (turns phase files version stands keeps) rfl
        rw [outcome_turn stands alone read] at ran found kept
        exact ⟨after, filesAfter, (run_of_step step).trans ran, leaves.trans later, found, free,
          kept⟩
      · cases phase with
        | finished result => exact ⟨tree, files, rfl, shows_.stay, read, alone, keeps⟩
        | _ => simp [Phase.remaining] at unfinished

/-- A write with a free lock answers as the mark rule says, and leaves the blob
that it puts, or the one before. -/
theorem run_write (housed : Housed root key) (shows_ : Shows root place key tree files)
    (free : IsFree files) (read : FileStore.interpret key files.answer = .ok version) :
    ∃ after filesAfter,
      (writer.script root key).run holder tree = ((writer.outcome key version).1, after) ∧
      Leaves root place key tree after filesAfter ∧
      FileStore.interpret key filesAfter.answer = .ok (writer.outcome key version).2 ∧
      IsFree filesAfter := by
  obtain ⟨after, filesAfter, ran, leaves, found, freeAfter, -⟩ :=
    run_script_keeps housed shows_ .starting (.inl rfl) trivial free read (fun _ _ => True)
      (fun _ _ _ _ keeps => keeps) trivial
  exact ⟨after, filesAfter, ran, leaves, found, freeAfter⟩

/-- A read answers what the blob's file says, and changes nothing. -/
theorem run_read (housed : Housed root key) (shows_ : Shows root place key tree files)
    (settings : FileSettings) :
    (FileStore.read ⟨root, settings⟩ key).run holder tree =
      (FileStore.interpret key files.answer, tree) := by
  have performed := perform_read holder housed shows_
  rw [← FileStore.blobPath_eq ⟨root, settings⟩ key] at performed
  rw [FileStore.read, housed.valid]
  simp only [Script.run, performed]

end Runs

end RoomLedger.Store
