import RoomLedger.Store.Crowd

/-!
Contract: checks that a blob store does what is expected of every store.

Owns:
- `Check`, a run on a store with its verdict;
- one check for each expectation, each under a key of its own;
- `Check.named?`, the checks by their names, and `Check.all`.

A check expects a store in which its key has not been written.

Does not own: the stores.
-/

namespace RoomLedger.Store

open RoomLedger.Text (Bytes)

/-- A run on a store, which tells whether the expectation was met. -/
abbrev Check : Type 1 := {S : Type} → [BlobStore S] → S → Bool × S

namespace Check

/-- The content type of the blobs that checks write. -/
def contentType : String :=
  "application/octet-stream"

/-- The key of the blob that a check writes. -/
def key (name : String) : String :=
  "contract/" ++ name

def put (name : String) (content : Bytes) (expected : Generation) :
    Plan (Except Error Generation) :=
  .write (key name) contentType content expected .done

def fetch (name : String) : Plan (Except Error Version) :=
  .read (key name) .done

def holds (content : Bytes) (generation : Generation) : Except Error Version → Bool
  | .error _ => false
  | .ok version => version.content == some content && version.generation == generation

def isMissing : Except Error Version → Bool
  | .error _ => false
  | .ok version => version.isAbsent && version.content.isNone

/-- A write was refused for exactly that cause. -/
def failsWith (expected : Error) : Except Error Generation → Bool
  | .error error => error = expected
  | .ok _ => false

/-- Goes on with the mark of a write that must be taken. -/
def whenTaken (answer : Except Error Generation) (next : Generation → Plan Bool) : Plan Bool :=
  match answer with
  | .error _ => .done false
  | .ok generation => next generation

/-- A key that was never written has no blob, and that is no failure. -/
def absentPlan : Plan Bool := do
  let found ← fetch "absent"
  let again ← fetch "absent"
  return isMissing found && isMissing again

/-- A new blob can be read at the mark that the write returned. -/
def createPlan : Plan Bool := do
  let created ← put "create" (Text.bytes "hello") .absent
  whenTaken created fun generation => do
    let found ← fetch "create"
    let typed := match found with
      | .error _ => false
      | .ok version => version.contentType == some contentType
    return !generation.isAbsent && holds (Text.bytes "hello") generation found && typed

/-- A second new blob under one key is refused and changes nothing. -/
def duplicatePlan : Plan Bool := do
  let created ← put "dup" (Text.bytes "first") .absent
  whenTaken created fun generation => do
    let second ← put "dup" (Text.bytes "second") .absent
    let found ← fetch "dup"
    return failsWith (.alreadyExists (key "dup")) second &&
      holds (Text.bytes "first") generation found

/-- A write that names another mark is refused and changes nothing. -/
def stalePlan : Plan Bool := do
  let created ← put "stale" (Text.bytes "v1") .absent
  whenTaken created fun first => do
    let updated ← put "stale" (Text.bytes "v2") first
    whenTaken updated fun second => do
      let late ← put "stale" (Text.bytes "v3") first
      let strange ← put "stale" (Text.bytes "v4") (.ofNat (second.number + 1000))
      let found ← fetch "stale"
      let refused := match strange with
        | .error error => error.isPrecondition
        | .ok _ => false
      return failsWith (.generationMismatch (key "stale") first second) late && refused &&
        holds (Text.bytes "v2") second found

/-- A write that names a mark where there is no blob is refused and makes
none. -/
def ghostPlan : Plan Bool := do
  let written ← put "ghost" (Text.bytes "x") (.ofNat 1)
  let found ← fetch "ghost"
  let refused := match written with
    | .error (.generationMismatch _ _ _) => true
    | _ => false
  return refused && isMissing found

/-- So many writes in a row, each at the mark of the one before; the marks must
rise. -/
def rapidFrom : (left : Nat) → (index : Nat) → Generation → Plan Bool
  | 0, index, generation => do
      let found ← fetch "rapid"
      return holds [UInt8.ofNat (index - 1)] generation found
  | left + 1, index, generation =>
      (put "rapid" [UInt8.ofNat index] generation).bind fun written =>
        whenTaken written fun following =>
          if generation.number < following.number then rapidFrom left (index + 1) following
          else .done false

/-- Writes in a row never have a mark again. -/
def rapidPlan : Plan Bool :=
  rapidFrom 20 0 .absent

def emptyPlan : Plan Bool := do
  let created ← put "empty" [] .absent
  whenTaken created fun generation => do
    let found ← fetch "empty"
    return holds [] generation found

def ofPlan (plan : Plan Bool) : Check := fun store => plan.run store

def writers : Nat := 8

/-- Exactly one write of a race was taken, and the others came too late. -/
def oneWinner (answers : List (Except Error Generation)) : Bool :=
  let taken := answers.filter fun answer => match answer with
    | .ok _ => true
    | .error _ => false
  let late := answers.filter fun answer => match answer with
    | .ok _ => false
    | .error error => error.isPrecondition
  taken.length == 1 && late.length == answers.length - 1

def race {S : Type} [BlobStore S] (name : String) (expected : Generation) (store : S) : Bool × S :=
  let plans := (List.range writers).map fun writer => put name [UInt8.ofNat writer] expected
  let finished := (Crowd.mk plans store).follow (roundRobin 1 writers)
  (oneWinner finished.results && finished.results.length == writers, finished.store)

/-- Of several new blobs under one key exactly one is taken. -/
def createRace : Check := fun store => race "race-create" .absent store

/-- Of several writes at one mark exactly one is taken. -/
def updateRace : Check := fun store =>
  match (put "race-update" (Text.bytes "base") .absent).run store with
  | (.error _, after) => (false, after)
  | (.ok base, after) =>
      let (won, finished) := race "race-update" base after
      match (fetch "race-update").run finished with
      | (.error _, last) => (false, last)
      | (.ok version, last) => (won && version.generation != base, last)

/-- The checks with their names, in the order in which they run. -/
def table : List (String × Check) := [
  ("absent_read_is_not_an_error", ofPlan absentPlan),
  ("create_then_read", ofPlan createPlan),
  ("create_fails_when_present", ofPlan duplicatePlan),
  ("stale_generation_is_rejected", ofPlan stalePlan),
  ("update_of_absent_key_is_rejected", ofPlan ghostPlan),
  ("generations_strictly_increase", ofPlan rapidPlan),
  ("empty_payload_is_present", ofPlan emptyPlan),
  ("concurrent_creates_have_one_winner", createRace),
  ("concurrent_updates_have_one_winner", updateRace)]

/-- Checks one after another; one that fails is the last. -/
def inTurn : List (String × Check) → Check
  | [], _, _, store => (true, store)
  | (_, check) :: rest, _, _, store =>
      match check store with
      | (false, after) => (false, after)
      | (true, after) => inTurn rest after

def all : Check := inTurn table

def named? (name : String) : Option Check :=
  if name = "all" then some all
  else (table.find? fun entry => entry.1 == name).map Prod.snd

/-- The blobs that checks write, by their names without the common part. -/
def blobNames : List String :=
  ["absent", "create", "dup", "stale", "ghost", "rapid", "empty", "race-create", "race-update"]

end Check

end RoomLedger.Store
