import RoomLedger.Proofs.Collection.Protocol
import RoomLedger.Proofs.Store.Sparing

/-!
Contract: what operations do with a blob that is no collection.

Owns:
- `readLine`, what a line adds to the records, and `decodeLines_cons`, by which each line is
  read by itself;
- `lineFault?`, what is wrong with a line, and `fault?`, what is wrong with a blob;
- `fault?_eq_some_iff`, by which the fault of a blob is that of its first bad line;
- `KeepsTo`, an operation that objects to what it is asked, or else begins with the
  read of its collection and goes on with that key only, and the proof for each
  operation;
- `KeepsTo.run_of_fault` and `KeepsTo.spares_of_fault`, what becomes of such an operation
  where the blob cannot be decoded.

Does not own: which services there are.
-/

namespace RoomLedger.Collection

open RoomLedger.Store (BlobStore Error Generation Plan Version)
open RoomLedger.Text (Bytes)

/-! ## The first bad line -/

section Lines

variable {R : Type} [Record R]

/-- What a line adds to the records: nothing or one record. -/
def readLine (line : Bytes) : Except Json.Fault (List R) :=
  if isEmptyLine (dropReturn line) then .ok []
  else (Record.decode? (dropReturn line)).map fun record => [record]

theorem decodeLines_cons (number : Nat) (line : Bytes) (lines : List Bytes) :
    (decodeLines number (line :: lines) : Except LineFault (List R)) =
      match readLine line with
      | .error fault => .error ⟨number, fault⟩
      | .ok records => (decodeLines (number + 1) lines).map (records ++ ·) := by
  rw [decodeLines, readLine]
  by_cases empty : isEmptyLine (dropReturn line) = true
  · simp only [empty, if_true]
    cases (decodeLines (number + 1) lines : Except LineFault (List R)) <;> rfl
  · simp only [empty, Bool.false_eq_true, if_false]
    cases (Record.decode? (dropReturn line) : Except Json.Fault R) with
    | error fault => rfl
    | ok record => cases (decodeLines (number + 1) lines : Except LineFault (List R)) <;> rfl

/-- What is wrong with a line that is neither empty nor a record of that kind. -/
def lineFault? (R : Type) [Record R] (line : Bytes) : Option Json.Fault :=
  if isEmptyLine (dropReturn line) then none
  else
    match (Record.decode? (dropReturn line) : Except Json.Fault R) with
    | .error fault => some fault
    | .ok _ => none

/-- Why a blob is no collection of that kind. -/
def fault? (R : Type) [Record R] (bytes : Bytes) : Option LineFault :=
  match (decode bytes : Except LineFault (List R)) with
  | .error found => some found
  | .ok _ => none

theorem decode_of_fault? {bytes : Bytes} {found : LineFault}
    (rejected : fault? R bytes = some found) :
    (decode bytes : Except LineFault (List R)) = .error found := by
  unfold fault? at rejected
  split at rejected
  · cases rejected
    assumption
  · cases rejected

private theorem lineFault?_eq_some_iff {line : Bytes} {fault : Json.Fault} :
    lineFault? R line = some fault ↔
      (readLine line : Except Json.Fault (List R)) = .error fault := by
  rw [lineFault?, readLine]
  by_cases empty : isEmptyLine (dropReturn line) = true
  · simp [empty]
  · simp only [empty, Bool.false_eq_true, if_false]
    cases (Record.decode? (dropReturn line) : Except Json.Fault R) <;> simp [Except.map]

private theorem decodeLines_of_bad {line : Bytes} {fault : Json.Fault}
    (bad : lineFault? R line = some fault) (number : Nat) (later : List Bytes) :
    (decodeLines number (line :: later) : Except LineFault (List R)) = .error ⟨number, fault⟩ := by
  rw [decodeLines_cons, lineFault?_eq_some_iff.mp bad]

private theorem decodeLines_of_good {line : Bytes} (good : lineFault? R line = none) (number : Nat)
    (later : List Bytes) (found : LineFault) :
    (decodeLines number (line :: later) : Except LineFault (List R)) = .error found ↔
      (decodeLines (number + 1) later : Except LineFault (List R)) = .error found := by
  rw [decodeLines_cons]
  cases read : (readLine line : Except Json.Fault (List R)) with
  | error fault =>
      rw [lineFault?_eq_some_iff.mpr read] at good
      cases good
  | ok records =>
      cases (decodeLines (number + 1) later : Except LineFault (List R)) <;> simp [Except.map]

/-- Lines are rejected for the first bad one among them. -/
theorem decodeLines_eq_error_iff {number : Nat} {lines : List Bytes} {found : LineFault} :
    (decodeLines number lines : Except LineFault (List R)) = .error found ↔
      ∃ before line later,
        lines = before ++ line :: later ∧
        found.line = number + before.length ∧
        (∀ earlier ∈ before, lineFault? R earlier = none) ∧
        lineFault? R line = some found.fault := by
  constructor
  · intro rejected
    induction lines generalizing number with
    | nil => cases rejected
    | cons line later inductionHypothesis =>
        cases judged : lineFault? R line with
        | some fault =>
            rw [decodeLines_of_bad judged] at rejected
            cases rejected
            exact ⟨[], line, later, rfl, rfl, by simp, judged⟩
        | none =>
            rw [decodeLines_of_good judged] at rejected
            obtain ⟨before, bad, rest, rfl, place, good, faulty⟩ := inductionHypothesis rejected
            refine ⟨line :: before, bad, rest, rfl, ?_, ?_, faulty⟩
            · rw [place, List.length_cons]
              omega
            · simpa only [List.forall_mem_cons] using ⟨judged, good⟩
  · rintro ⟨before, line, later, rfl, place, good, faulty⟩
    induction before generalizing number with
    | nil =>
        rw [List.nil_append, decodeLines_of_bad faulty]
        cases found
        simp_all
    | cons first before inductionHypothesis =>
        obtain ⟨goodFirst, goodLater⟩ := List.forall_mem_cons.mp good
        rw [List.cons_append, decodeLines_of_good goodFirst]
        apply inductionHypothesis _ goodLater
        rw [place, List.length_cons]
        omega

/-- A blob is rejected for its first line that is neither empty nor a record. -/
theorem fault?_eq_some_iff {bytes : Bytes} {found : LineFault} :
    fault? R bytes = some found ↔
      ∃ before line later,
        Text.pieces newline bytes = before ++ line :: later ∧
        found.line = before.length + 1 ∧
        (∀ earlier ∈ before, lineFault? R earlier = none) ∧
        lineFault? R line = some found.fault := by
  have spelled : fault? R bytes = some found ↔
      (decode bytes : Except LineFault (List R)) = .error found := by
    unfold fault?
    split <;> simp [*]
  rw [spelled, decode, decodeLines_eq_error_iff]
  simp only [Nat.add_comm 1]

end Lines

/-! ## Operations on one collection -/

section Keeping

variable {R α β : Type} [Record R]

/-- The failure of an operation on a blob that cannot be decoded. -/
def undecodable (blobKey : String) (found : LineFault) : Failure :=
  .store blobKey (.corrupt blobKey (.badLine found.line found.fault))

/-- The operation failed: it objected to what it was asked, or it could not decode the
blob. -/
def HasFailed (blobKey : String) (found : LineFault) (result : Except Failure α) : Prop :=
  (∃ key objection, result = .error (.invalid key objection)) ∨
    result = .error (undecodable blobKey found)

/-- An operation that objects to what it is asked, or else begins with the read of a
collection and goes on with the key of that collection only. -/
inductive KeepsTo (collection : Collection R) : Operation α → Prop
  | objects (key : String) (objection : Objection) :
      KeepsTo collection (Operation.fail (.invalid key objection))
  | loads (next : Snapshot R → Operation α)
      (stays : ∀ found, (next found).IsOn collection.blobKey) :
      KeepsTo collection (collection.load next)

private theorem isOn_commit (collection : Collection R) (records : List R) (generation : Generation)
    (recordKey : String) (result : α) :
    (collection.commit records generation recordKey result).IsOn collection.blobKey :=
  ⟨rfl, fun _ => trivial⟩

private theorem isOn_after {key : String} (check : Except Failure α) {next : α → Operation β}
    (stays : ∀ value, (next value).IsOn key) :
    (Operation.after check next).IsOn key := by
  cases check with
  | error failure => trivial
  | ok value => exact stays value

variable {collection : Collection R}

theorem KeepsTo.isOn {operation : Operation α} (keeps : collection.KeepsTo operation) :
    operation.IsOn collection.blobKey := by
  cases keeps with
  | objects key objection => trivial
  | loads next stays => exact ⟨rfl, fun answer => isOn_after _ stays⟩

/-- A check that can only object stays before the read. -/
theorem KeepsTo.after {check : Except Failure α} {next : α → Operation β}
    (objects : ∀ failure, check = .error failure →
      ∃ key objection, failure = .invalid key objection)
    (keeps : ∀ value, check = .ok value → collection.KeepsTo (next value)) :
    collection.KeepsTo (Operation.after check next) := by
  cases check with
  | error failure =>
      obtain ⟨key, objection, rfl⟩ := objects failure rfl
      exact .objects key objection
  | ok value => exact keeps value rfl

theorem KeepsTo.mapResult {operation : Operation α} (change : α → β)
    (keeps : collection.KeepsTo operation) :
    collection.KeepsTo (operation.mapResult change) := by
  cases keeps with
  | objects key objection => exact .objects key objection
  | loads next stays =>
      rw [Request.mapResult_load]
      apply KeepsTo.loads
      intro found
      apply (stays found).bind
      intro result
      cases result with
      | error failure => trivial
      | ok value => trivial

private theorem KeepsTo.after_requireKey {kind key : String} {operation : Operation α}
    (keeps : collection.KeepsTo operation) :
    collection.KeepsTo (Operation.after (requireKey kind key) fun () => operation) :=
  KeepsTo.after (fun _ => invalid_of_requireKey) fun _ _ => keeps

theorem keepsTo_create (record : R) : collection.KeepsTo (collection.create record) := by
  apply KeepsTo.after_requireKey
  apply KeepsTo.after fun _ => invalid_of_requireSound
  intro _ _
  apply KeepsTo.loads
  intro found
  split
  · trivial
  · exact isOn_commit ..

theorem keepsTo_get (key : String) : collection.KeepsTo (collection.get key) := by
  apply KeepsTo.after_requireKey
  apply KeepsTo.loads
  intro found
  split
  · trivial
  · trivial

theorem keepsTo_update (key value : String) : collection.KeepsTo (collection.update key value) := by
  apply KeepsTo.after_requireKey
  apply KeepsTo.loads
  intro found
  split
  · trivial
  · exact isOn_commit ..

theorem keepsTo_remove (key : String) : collection.KeepsTo (collection.remove key) := by
  apply KeepsTo.after_requireKey
  apply KeepsTo.loads
  intro found
  split
  · trivial
  · exact isOn_commit ..

theorem keepsTo_list (query : Query) : collection.KeepsTo (collection.list query) :=
  .loads _ fun _ => trivial

theorem keepsTo_removeWhere (unwanted : R → Bool) :
    collection.KeepsTo (collection.removeWhere unwanted) := by
  apply KeepsTo.loads
  intro found
  show Plan.IsOn collection.blobKey (ite _ _ _)
  split
  · trivial
  · exact isOn_commit ..

/-! ## Blobs that cannot be decoded -/

variable {version : Version} {found : LineFault}

private theorem snapshot_of_fault (rejected : fault? R version.contentOrEmpty = some found) :
    collection.snapshot (.ok version) = .error (undecodable collection.blobKey found) := by
  simp only [snapshot, decode_of_fault? rejected, undecodable]

/-- The operation objects without a call, or it fails for the blob and leaves the store
alone. -/
theorem KeepsTo.run_of_fault {S : Type} [BlobStore S] {store : S} {operation : Operation α}
    (keeps : collection.KeepsTo operation) (rejected : fault? R version.contentOrEmpty = some found)
    (finds : BlobStore.read store collection.blobKey = .ok version) :
    (∃ key objection, operation = Operation.fail (.invalid key objection)) ∨
      operation.run store = (.error (undecodable collection.blobKey found), store) := by
  cases keeps with
  | objects key objection => exact Or.inl ⟨key, objection, rfl⟩
  | loads next stays =>
      right
      simp only [load, Plan.run, finds, snapshot_of_fault rejected, Operation.after,
        Operation.fail]

/-- As long as the blob is what it was, such an operation fails and does not write it. -/
theorem KeepsTo.spares_of_fault {operation : Operation α} (keeps : collection.KeepsTo operation)
    (rejected : fault? R version.contentOrEmpty = some found) :
    operation.Spares collection.blobKey version (HasFailed collection.blobKey found) := by
  cases keeps with
  | objects key objection => exact Or.inl ⟨key, objection, rfl⟩
  | loads next stays =>
      intro answer finds
      simp only [finds rfl, snapshot_of_fault rejected]
      exact Or.inr rfl

end Keeping

end RoomLedger.Collection
