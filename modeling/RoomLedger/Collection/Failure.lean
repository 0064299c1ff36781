import RoomLedger.Record.Basic
import RoomLedger.Store.Error

/-!
Contract: why an operation on a collection failed.

Owns:
- `Objection`, why a request cannot be used;
- `Conflict`, which change of someone else stands in the way;
- `Failure`, the causes, each with the key that it concerns;
- their wording, for a log and for a person.

Does not own: when each of them arises.
-/

namespace RoomLedger

/-- Why a request cannot be used. -/
inductive Objection where
  | blankKey
  | flaw (found : Flaw)
  /-- The key of the blob is none. -/
  | blobKey (fault : Store.KeyFault)
  /-- An event whose start has passed. -/
  | notInFuture (start : Time.Timestamp)
  /-- Any other objection, in words. -/
  | described (reason : String)
deriving DecidableEq, Repr

def Objection.message : Objection → String
  | .blankKey => "key must not be blank"
  | .flaw found => found.message
  | .blobKey fault => fault.message
  | .notInFuture start => s!"start_time {start.rfc3339} is not in the future"
  | .described reason => reason

/-- Which change of someone else stands in the way. -/
inductive Conflict where
  /-- A record with this key is there. -/
  | duplicate
  /-- The collection changed between the read and the write. -/
  | staleGeneration
deriving DecidableEq, Repr

def Conflict.message : Conflict → String
  | .duplicate => "already exists"
  | .staleGeneration => "was modified concurrently"

/-- Why an operation on a collection failed. -/
inductive Failure where
  | invalid (key : String) (objection : Objection)
  | conflict (key : String) (cause : Conflict)
  | notFound (key : String)
  | store (key : String) (error : Store.Error)
deriving DecidableEq, Repr

namespace Failure

def key : Failure → String
  | invalid key _ => key
  | conflict key _ => key
  | notFound key => key
  | store key _ => key

def message : Failure → String
  | invalid key objection => s!"invalid {key}: {objection.message}"
  | conflict key cause => s!"{key} {cause.message}"
  | notFound key => s!"{key} not found"
  | store key error => s!"storage failure for {key}: {error.message}"

/-- The wording of a failure for the person who made the request. -/
def userMessage : Failure → String
  | invalid key objection => s!"Sorry, that request for {key} is not valid: {objection.message}."
  | conflict key .duplicate => s!"Sorry, {key} already exists."
  | conflict key .staleGeneration =>
      s!"Sorry, {key} was changed by someone else at the same time. Please try again."
  | notFound key => s!"Sorry, I could not find {key}."
  | store _ _ => "Sorry, something went wrong while saving. Please try again later."

/-- Another try may succeed. After a failure of the store nobody knows what
became of the blob, so such a failure is not one of these. -/
def isRetryable : Failure → Bool
  | conflict _ _ => true
  | _ => false

/-- Someone else's change stands in the way. -/
def isConflict : Failure → Bool
  | conflict _ _ => true
  | _ => false

def isNotFound : Failure → Bool
  | notFound _ => true
  | _ => false

end Failure

end RoomLedger
