import RoomLedger.Collection.Failure
import RoomLedger.Collection.Lines
import RoomLedger.Collection.Query
import RoomLedger.Store.Plan

/-!
Contract: the records of one blob, and the operations on them.

Owns:
- `Collection`, the key of a blob that holds records of one kind;
- `create`, `get`, `update`, `remove`, `list`, `all` and `removeWhere`, each as
  a plan of store calls.

An operation reads the blob once, and writes it at most once, at the mark that
it read. Nothing is kept between operations and nothing is tried again: who
loses a race is told of a conflict.

Does not own: the store.
-/

namespace RoomLedger

open RoomLedger.Store (Error Generation Plan Version)

/-- The key of a blob that holds records of one kind. -/
structure Collection (R : Type) where
  blobKey : String
  isKey : Store.isKey blobKey = true

abbrev Operation (α : Type) : Type := Plan (Except Failure α)

/-- An operation that fails without a store call. -/
def Operation.fail {α : Type} (failure : Failure) : Operation α :=
  .done (.error failure)

/-- What there is after a check, or the failure of the check. -/
def Operation.after {α β : Type} (check : Except Failure α) (next : α → Operation β) :
    Operation β :=
  match check with
  | .error failure => Operation.fail failure
  | .ok value => next value

/-- An operation whose result is passed on through a function. -/
def Operation.mapResult {α β : Type} (change : α → β) (operation : Operation α) : Operation β :=
  operation.bind fun
    | .error failure => Operation.fail failure
    | .ok value => .done (.ok (change value))

/-- The records of a blob and the mark at which they were read. -/
structure Snapshot (R : Type) where
  records : List R
  generation : Generation

namespace Collection

variable {R α : Type} [Record R]

/-- The collection of a blob, if the text is a key. -/
def ofKey (blobKey : String) : Except Failure (Collection R) :=
  match checked : Store.checkKey blobKey with
  | .error fault => .error (.invalid blobKey (.blobKey fault))
  | .ok () => .ok ⟨blobKey, Store.isKey_iff.2 checked⟩

/-- The text that names a collection in a log. -/
def describe (collection : Collection R) : String :=
  s!"Collection \x7b blob_key: {Text.quoted collection.blobKey}, .. \x7d"

/-! ## The read and the write -/

/-- The records of what was read. A blob that does not exist has none. -/
def snapshot (collection : Collection R) (answer : Except Error Version) :
    Except Failure (Snapshot R) :=
  match answer with
  | .error error => .error (.store collection.blobKey error)
  | .ok version =>
      match decode version.contentOrEmpty with
      | .error found =>
          .error (.store collection.blobKey
            (.corrupt collection.blobKey (.badLine found.line found.fault)))
      | .ok records => .ok { records, generation := version.generation }

def load (collection : Collection R) (next : Snapshot R → Operation α) : Operation α :=
  .read collection.blobKey fun answer => Operation.after (collection.snapshot answer) next

/-- What the answer to a write means for the record with that key. -/
def settle (collection : Collection R) (recordKey : String) (result : α) :
    Except Error Generation → Except Failure α
  | .ok _ => .ok result
  | .error error =>
      if error.isPrecondition then .error (.conflict recordKey .staleGeneration)
      else .error (.store collection.blobKey error)

/-- Writes the records at the mark at which they were read. -/
def commit (collection : Collection R) (records : List R) (generation : Generation)
    (recordKey : String) (result : α) : Operation α :=
  .write collection.blobKey contentType (encode records) generation fun answer =>
    .done (collection.settle recordKey result answer)

/-! ## Finding records -/

def find? (key : String) (records : List R) : Option R :=
  records.find? fun record => Record.key record = key

/-- The record with that key in its new form, and all records with it. -/
def amendIn (key value : String) : List R → Option (R × List R)
  | [] => none
  | record :: rest =>
      if Record.key record = key then
        let amended := Record.amend value record
        some (amended, amended :: rest)
      else
        match amendIn key value rest with
        | none => none
        | some (amended, others) => some (amended, record :: others)

/-- The record with that key, and all records without it. -/
def removeFrom (key : String) : List R → Option (R × List R)
  | [] => none
  | record :: rest =>
      if Record.key record = key then some (record, rest)
      else
        match removeFrom key rest with
        | none => none
        | some (removed, others) => some (removed, record :: others)

/-! ## Operations -/

def requireKey (kind key : String) : Except Failure Unit :=
  if Text.blank key then .error (.invalid kind .blankKey) else .ok ()

def requireSound (record : R) : Except Failure Unit :=
  match Record.check record with
  | .error flaw => .error (.invalid (Record.key record) (.flaw flaw))
  | .ok () => .ok ()

/-- Adds a record behind the others. Its key must be new. -/
def create (collection : Collection R) (record : R) : Operation R :=
  let key := Record.key record
  Operation.after (requireKey (Record.kind R) key) fun () =>
    Operation.after (requireSound record) fun () =>
      collection.load fun found =>
        match find? key found.records with
        | some _ => Operation.fail (.conflict key .duplicate)
        | none => collection.commit (found.records ++ [record]) found.generation key record

def get (collection : Collection R) (key : String) : Operation R :=
  Operation.after (requireKey (Record.kind R) key) fun () =>
    collection.load fun found =>
      match find? key found.records with
      | none => Operation.fail (.notFound key)
      | some record => .done (.ok record)

/-- Gives the record with that key a new value in the field that may change. -/
def update (collection : Collection R) (key value : String) : Operation R :=
  Operation.after (requireKey (Record.kind R) key) fun () =>
    collection.load fun found =>
      match amendIn key value found.records with
      | none => Operation.fail (.notFound key)
      | some (amended, records) => collection.commit records found.generation key amended

/-- Takes the record with that key out of the collection. -/
def remove (collection : Collection R) (key : String) : Operation R :=
  Operation.after (requireKey (Record.kind R) key) fun () =>
    collection.load fun found =>
      match removeFrom key found.records with
      | none => Operation.fail (.notFound key)
      | some (removed, records) => collection.commit records found.generation key removed

def list (collection : Collection R) (query : Query) : Operation (List R) :=
  collection.load fun found => .done (.ok (query.apply found.records))

/-- All records in the order in which they are stored. -/
def all (collection : Collection R) : Operation (List R) :=
  collection.load fun found => .done (.ok found.records)

/-- Takes all records of a sort out of the collection, and tells how many they
were. Where there are none, nothing is written. -/
def removeWhere (collection : Collection R) (unwanted : R → Bool) : Operation Nat :=
  collection.load fun found =>
    let kept := found.records.filter fun record => !unwanted record
    let removed := found.records.length - kept.length
    if removed = 0 then .done (.ok 0)
    else collection.commit kept found.generation collection.blobKey removed

end Collection

end RoomLedger
