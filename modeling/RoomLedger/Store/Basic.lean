import RoomLedger.Store.Error

/-!
Contract: what every blob store does.

Owns:
- `Version`, what a read of a key finds, also where there is no blob;
- `BlobStore`, the two calls of a store;
- `nextMark`, the rule by which a write is taken or refused.

A writer names the mark that it expects to find. The write is taken only if the
blob has that mark, and gives it the next one.

Does not own: where blobs are kept.
-/

namespace RoomLedger.Store

open RoomLedger.Text (Bytes)

/-- What a read of a key finds. -/
structure Version where
  content : Option Bytes := none
  contentType : Option String := none
  generation : Generation := .absent
deriving DecidableEq, Repr

namespace Version

def absent : Version := {}

def isAbsent (version : Version) : Bool :=
  version.generation.isAbsent

/-- The content of the blob, which is empty where there is none. -/
def contentOrEmpty (version : Version) : Bytes :=
  version.content.getD []

@[simp] theorem contentOrEmpty_absent : absent.contentOrEmpty = [] := rfl

@[simp] theorem isAbsent_absent : absent.isAbsent = true := rfl

end Version

/-- The calls of a store whose state is a value of `S`. -/
class BlobStore (S : Type) where
  /-- What there is under a key. -/
  read : S → (key : String) → Except Error Version
  /-- Puts a blob under a key, provided that the key has the expected mark. -/
  write : S → (key contentType : String) → (content : Bytes) → (expected : Generation) →
    Except Error Generation × S

def BlobStore.generation {S : Type} [BlobStore S] (store : S) (key : String) :
    Except Error Generation :=
  match BlobStore.read store key with
  | .error error => .error error
  | .ok version => .ok version.generation

/-- The mark that a write gives to a blob, or why the write is refused. -/
def nextMark (key : String) (current expected : Generation) : Except Error Generation :=
  if expected.isAbsent && !current.isAbsent then .error (.alreadyExists key)
  else if current ≠ expected then .error (.generationMismatch key expected current)
  else
    match current.next? with
    | none => .error (.corrupt key .exhausted)
    | some following => .ok following

/-- A write is taken exactly if it names the present mark and another one
follows it. -/
theorem nextMark_eq_ok_iff {key : String} {current expected following : Generation} :
    nextMark key current expected = .ok following ↔
      expected = current ∧ current.next? = some following := by
  unfold nextMark
  by_cases same : current = expected
  · subst same
    have clear : (current.isAbsent && !current.isAbsent) = false := by
      cases current.isAbsent <;> rfl
    simp only [clear]
    cases found : current.next? <;> simp
  · have apart : expected ≠ current := fun equal => same equal.symm
    simp only [apart, false_and, iff_false]
    split <;> simp

end RoomLedger.Store
