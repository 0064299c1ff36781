import RoomLedger.Disk.Basic

/-!
Contract: operations as the requests they make of the file system.

Owns:
- `Request`, one request, and the type of its answer;
- `Script`, an operation that makes requests one after another and decides by
  their answers how to go on;
- `Request.perform`, what a request answers and what it does to a tree;
- `Script.run`, an operation that has a tree for itself, and `Script.step`, the
  next request of one whose requests may mix with those of others.

A writer that waits for a lock makes one request, which is answered when it has
the lock or its patience is over.

Does not own: the operations.
-/

namespace RoomLedger.Disk

open RoomLedger.Text (Bytes)

/-- A request to the file system. -/
inductive Request where
  | makeDirectories (path : Path)
  | read (path : Path)
  /-- Opens a file, and makes it if there is none. -/
  | openFile (path : Path)
  /-- Waits for the lock of a file, at most so many milliseconds. -/
  | takeLock (path : Path) (patience : Nat)
  | dropLock (path : Path)
  /-- Opens a file without any content. -/
  | create (path : Path)
  | append (path : Path) (content : Bytes)
  /-- Waits until a file has reached the medium. -/
  | sync (path : Path)
  | rename (source target : Path)
deriving DecidableEq, Repr

abbrev Request.Answer : Request → Type
  | makeDirectories _ => Except Fault Unit
  | read _ => Except Fault Bytes
  | openFile _ => Except Fault Unit
  | takeLock _ _ => Except Fault Bool
  | dropLock _ => Unit
  | create _ => Except Fault Unit
  | append _ _ => Except Fault Unit
  | sync _ => Except Fault Unit
  | rename _ _ => Except Fault Unit

/-- What a request of a holder answers, and the tree after it. A lock that is
not free is answered as one that did not become free in time. -/
def Request.perform (holder : Holder) : (request : Request) → Tree → request.Answer × Tree
  | makeDirectories path, tree => tree.makeDirectories path
  | read path, tree => (tree.contentOf path, tree)
  | openFile path, tree => tree.openFile path
  | takeLock path _, tree => tree.takeLock holder path
  | dropLock path, tree => ((), tree.dropLock holder path)
  | create path, tree => tree.createFile path
  | append path content, tree => tree.appendFile path content
  | sync _, tree => (.ok (), tree)
  | rename source target, tree => tree.renameFile source target

/-- An operation that makes requests and decides by their answers how to go
on. -/
inductive Script (α : Type) where
  | done (result : α)
  | ask (request : Request) (next : request.Answer → Script α)

namespace Script

variable {α β γ : Type}

def bind : Script α → (α → Script β) → Script β
  | done result, next => next result
  | ask request rest, next => ask request fun answer => (rest answer).bind next

instance : Monad Script where
  pure := done
  bind := bind

/-- The operation after its next request, and the tree after that request. -/
def step (holder : Holder) : Script α → Tree → Script α × Tree
  | done result, tree => (done result, tree)
  | ask request next, tree =>
      let (answer, after) := request.perform holder tree
      (next answer, after)

/-- What an operation returns that has the tree for itself, and what it leaves
behind. -/
def run (holder : Holder) : Script α → Tree → α × Tree
  | done result, tree => (result, tree)
  | ask request next, tree =>
      let (answer, after) := request.perform holder tree
      (next answer).run holder after

@[simp] theorem run_done (holder : Holder) (result : α) (tree : Tree) :
    (done result).run holder tree = (result, tree) := rfl

end Script

end RoomLedger.Disk
