import RoomLedger.Disk.Path
import RoomLedger.Index

/-!
Contract: files and directories, and what requests do to them.

Owns:
- `Tree`, the files and directories, seen from the working directory;
- `Tree.locate`, the place that a path leads to;
- the requests that a writer of files makes, with their faults;
- `Tree.listing`, the names below a directory.

Nodes are kept by their places. A path is walked from the left, and the first
name on the way that does not lead on decides the fault. A lock belongs to a
file; who renames another file into its place leaves the lock behind.

Does not own: the order in which requests are made.
-/

namespace RoomLedger.Disk

open RoomLedger.Text (Bytes)

abbrev Holder := Nat

/-- What there is at a path. -/
inductive Node where
  | directory
  | file (content : Bytes) (holder : Option Holder)
deriving DecidableEq, Repr

/-- The files and directories, by their places. -/
structure Tree where
  nodes : Index Path Node := .empty
deriving DecidableEq, Repr

namespace Tree

/-- A tree in which nothing exists but the working directory. -/
def empty : Tree := {}

def node? (tree : Tree) (place : Path) : Option Node :=
  if place.isGiven then some .directory else tree.nodes.find? place

def put (tree : Tree) (place : Path) (node : Node) : Tree :=
  ⟨tree.nodes.put place node⟩

/-- The tree without the node at a place and without all that lies below it. -/
def remove (tree : Tree) (place : Path) : Tree :=
  ⟨⟨tree.nodes.entries.filter fun entry => !place.isPrefixOf entry.1⟩⟩

/-! ## Looking up -/

/-- The place that names lead to from a directory. Every name but the last one
must lead to a directory. -/
def walk (tree : Tree) : (here : Path) → (names : Path) → Except Fault Path
  | here, [] => .ok here
  | here, [last] => if Path.fits last then .ok (here.enter last) else .error .nameTooLong
  | here, name :: rest =>
      if !Path.fits name then .error .nameTooLong
      else
        match tree.node? (here.enter name) with
        | none => .error .notFound
        | some (.file _ _) => .error .notADirectory
        | some .directory => walk tree (here.enter name) rest

/-- The place of a path, where a node is or could be. -/
def locate (tree : Tree) (path : Path) : Except Fault Path :=
  match path.checkForm with
  | .error fault => .error fault
  | .ok () => tree.walk path.start.1 path.start.2

def find (tree : Tree) (path : Path) : Except Fault (Path × Option Node) :=
  match tree.locate path with
  | .error fault => .error fault
  | .ok place => .ok (place, tree.node? place)

/-! ## Requests -/

/-- Makes the directories of the names that do not exist. What was made before a
fault stays. A name with nothing but a dot after it is not made. -/
def makeMissing : (here : Path) → (names : Path) → Tree → Except Fault Unit × Tree
  | _, [], tree => (.ok (), tree)
  | here, name :: rest, tree =>
      if !Path.fits name then (.error .nameTooLong, tree)
      else
        match tree.node? (here.enter name) with
        | some .directory => makeMissing (here.enter name) rest tree
        | some (.file _ _) => (.error .notADirectory, tree)
        | none =>
            if Path.endsInDot rest then (.error .notFound, tree)
            else makeMissing (here.enter name) rest (tree.put (here.enter name) .directory)

/-- Makes a directory and those it lies in, as far as they do not exist. -/
def makeDirectories (path : Path) (tree : Tree) : Except Fault Unit × Tree :=
  match path.checkForm with
  | .error fault => (.error fault, tree)
  | .ok () => makeMissing path.start.1 path.start.2 tree

def contentOf (path : Path) (tree : Tree) : Except Fault Bytes :=
  match tree.find path with
  | .error fault => .error fault
  | .ok (_, none) => .error .notFound
  | .ok (_, some .directory) => .error .isADirectory
  | .ok (_, some (.file content _)) => .ok content

/-- Opens a file for writing without changing it, and makes it if there is
none. -/
def openFile (path : Path) (tree : Tree) : Except Fault Unit × Tree :=
  match tree.find path with
  | .error fault => (.error fault, tree)
  | .ok (_, some .directory) => (.error .isADirectory, tree)
  | .ok (_, some (.file _ _)) => (.ok (), tree)
  | .ok (place, none) => (.ok (), tree.put place (.file [] none))

/-- Opens a file for writing without any content, and makes it if there is
none. -/
def createFile (path : Path) (tree : Tree) : Except Fault Unit × Tree :=
  match tree.find path with
  | .error fault => (.error fault, tree)
  | .ok (_, some .directory) => (.error .isADirectory, tree)
  | .ok (place, some (.file _ holder)) => (.ok (), tree.put place (.file [] holder))
  | .ok (place, none) => (.ok (), tree.put place (.file [] none))

def appendFile (path : Path) (content : Bytes) (tree : Tree) : Except Fault Unit × Tree :=
  match tree.find path with
  | .error fault => (.error fault, tree)
  | .ok (_, none) => (.error .notFound, tree)
  | .ok (_, some .directory) => (.error .isADirectory, tree)
  | .ok (place, some (.file before holder)) =>
      (.ok (), tree.put place (.file (before ++ content) holder))

/-- Takes the lock of a file, unless someone holds it. -/
def takeLock (holder : Holder) (path : Path) (tree : Tree) : Except Fault Bool × Tree :=
  match tree.find path with
  | .error fault => (.error fault, tree)
  | .ok (_, none) => (.error .notFound, tree)
  | .ok (_, some .directory) => (.error .isADirectory, tree)
  | .ok (_, some (.file _ (some _))) => (.ok false, tree)
  | .ok (place, some (.file content none)) =>
      (.ok true, tree.put place (.file content (some holder)))

/-- Gives up the lock of a file. Nothing happens to a lock of someone else. -/
def dropLock (holder : Holder) (path : Path) (tree : Tree) : Tree :=
  match tree.find path with
  | .ok (place, some (.file content (some other))) =>
      if other = holder then tree.put place (.file content none) else tree
  | _ => tree

/-- Gives up all locks of a holder that is no more. -/
def dropLocks (holder : Holder) (tree : Tree) : Tree :=
  ⟨⟨tree.nodes.entries.map fun entry =>
    match entry.2 with
    | .file content (some other) =>
        if other = holder then (entry.1, .file content none) else entry
    | _ => entry⟩⟩

/-- Moves a file to another path, where it replaces a file. -/
def renameFile (source target : Path) (tree : Tree) : Except Fault Unit × Tree :=
  match tree.find source, tree.find target with
  | .error fault, _ => (.error fault, tree)
  | .ok _, .error fault => (.error fault, tree)
  | .ok (_, none), .ok _ => (.error .notFound, tree)
  | .ok (_, some .directory), .ok _ => (.error .failed, tree)
  | .ok (_, some (.file _ _)), .ok (_, some .directory) => (.error .isADirectory, tree)
  | .ok (left, some (.file content holder)), .ok (place, _) =>
      (.ok (), ⟨(tree.nodes.drop left).put place (.file content holder)⟩)

/-! ## Listing -/

/-- The names below a directory in ascending order, those of directories with a
slash behind them. -/
def listing (root : Path) (tree : Tree) : List String :=
  let below := tree.nodes.entries.filter fun entry => root.isPrefixOf entry.1 && entry.1 ≠ root
  let names := below.map fun entry =>
    let name := Path.text (entry.1.drop root.length)
    match entry.2 with
    | .directory => name ++ "/"
    | .file _ _ => name
  names.mergeSort fun left right => decide (left ≤ right)

end Tree

end RoomLedger.Disk
