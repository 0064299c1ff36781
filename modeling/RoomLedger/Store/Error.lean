import RoomLedger.Json.Fault
import RoomLedger.Store.Generation
import RoomLedger.Store.Key
import RoomLedger.Text.Hex

/-!
Contract: why an operation of a blob store failed.

Owns:
- `Damage`, the causes for which stored data are of no use;
- `Store.Error`, the causes, each with the key it concerns;
- `Error.isPrecondition`, the failures of writers who came too late;
- the wording of all of them.

Does not own: when each of them arises.
-/

namespace RoomLedger.Store

/-- Why stored data are of no use. -/
inductive Damage where
  | missingHeader
  | badHeader (fault : Json.Fault)
  /-- The payload has another length than its header says. -/
  | wrongLength (actual stated : Nat)
  | badDigest (fault : Text.HexFault)
  | wrongDigest
  /-- The header carries the mark of a blob that does not exist. -/
  | zeroGeneration
  /-- No mark follows the one that is stored. -/
  | exhausted
  /-- The payload is no collection; a line of it is no record. -/
  | badLine (line : Nat) (fault : Json.Fault)
  /-- Any other damage, in words. -/
  | described (reason : String)
deriving DecidableEq, Repr

def Damage.message : Damage → String
  | .missingHeader => "missing header line"
  | .badHeader fault => s!"bad header: {fault.message}"
  | .wrongLength actual stated => s!"length {actual} does not match header {stated}"
  | .badDigest fault => s!"bad digest encoding: {fault.message}"
  | .wrongDigest => "payload digest mismatch"
  | .zeroGeneration => "stored generation is zero"
  | .exhausted => "generation counter exhausted"
  | .badLine line fault => s!"line {line}: {fault.message}"
  | .described reason => reason

/-- Why a key was refused: by its form, or in words. -/
inductive KeyRefusal where
  | form (fault : KeyFault)
  | described (reason : String)
deriving DecidableEq, Repr

def KeyRefusal.message : KeyRefusal → String
  | .form fault => fault.message
  | .described reason => reason

/-- Why an operation of a blob store failed. -/
inductive Error where
  /-- A new blob was to be written under a key that has one. -/
  | alreadyExists (key : String)
  /-- The blob has another mark than the writer expected. -/
  | generationMismatch (key : String) (expected actual : Generation)
  | invalidKey (key : String) (refusal : KeyRefusal)
  | corrupt (key : String) (damage : Damage)
  /-- Another writer kept the lock for too long. -/
  | lockTimeout (key : String)
  | backend (reason : String)
  /-- The place of storage failed. -/
  | io
deriving DecidableEq, Repr

namespace Error

def message : Error → String
  | alreadyExists key => s!"blob already exists: {key}"
  | generationMismatch key expected actual =>
      s!"generation mismatch for {key}: expected {expected.display}, found {actual.display}"
  | invalidKey key refusal => s!"invalid blob key {Text.quoted key}: {refusal.message}"
  | corrupt key damage => s!"corrupt blob {key}: {damage.message}"
  | lockTimeout key => s!"timed out waiting for write lock on {key}"
  | backend reason => s!"store backend error: {reason}"
  | io => "I/O error"

/-- The write was refused because its expectation did not hold. Such a failure
changes no blob. -/
def isPrecondition : Error → Bool
  | alreadyExists _ => true
  | generationMismatch _ _ _ => true
  | _ => false

end Error

end RoomLedger.Store
