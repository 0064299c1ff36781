import RoomLedger.Text.Bytes
import RoomLedger.Text.Pieces

/-!
Contract: the names by which files and directories are reached.

Owns:
- `Path`, the names from the working directory on;
- `Path.ofText`, `Path.text` and `Path.join`;
- `Path.enter`, where a name leads from a directory;
- the limits on names and paths, and `Path.checkForm`.

The path of an absolute text begins with an empty name. A path may make detours:
a single dot and an empty name further on lead nowhere, and two dots lead to the
directory above. A path without detours is called a place.

Does not own: what there is at a path.
-/

namespace RoomLedger.Disk

/-- Why a request to the file system failed. -/
inductive Fault where
  /-- A name on the way does not exist. -/
  | notFound
  /-- A name on the way is a file. -/
  | notADirectory
  | isADirectory
  | nameTooLong
  /-- A name holds the character with the code zero. -/
  | invalidName
  /-- Any other failure. -/
  | failed
deriving DecidableEq, Repr

/-- The names that lead from the working directory to a place. -/
abbrev Path := List String

namespace Path

/-- The path of a text. An empty name at the front stands for the root, and one
at the end asks for a directory; slashes in a row have empty names between
them. -/
def ofText (text : String) : Path :=
  if text.isEmpty then []
  else (Text.pieces '/' text.toList).map String.ofList

def text (path : Path) : String :=
  "/".intercalate path

/-- The path of names from a directory on. A slash at the end of the directory's
text is the one that divides them. -/
def join (directory names : Path) : Path :=
  if directory.getLast? = some "" then directory.dropLast ++ names
  else directory ++ names

def parent (path : Path) : Path :=
  path.dropLast

/-- The path whose last name has an ending added. -/
def withEnding (path : Path) (ending : String) : Path :=
  match path.getLast? with
  | none => [ending]
  | some name => path.dropLast ++ [name ++ ending]

/-! ## Detours -/

/-- A name that leads nowhere from a directory. -/
def isStay (name : String) : Bool :=
  name == "" || name == "."

/-- The directory above a place. There is always one above the working
directory; the root lies in itself. -/
def above (place : Path) : Path :=
  match place.getLast? with
  | none => [".."]
  | some "" => place
  | some ".." => place ++ [".."]
  | some _ => place.dropLast

/-- The place that a name leads to from a directory. -/
def enter (place : Path) (name : String) : Path :=
  if isStay name then place
  else if name = ".." then above place
  else place ++ [name]

/-- Where a walk along a path begins, and the names that it follows from there:
at the root for an absolute path, else at the working directory. -/
def start : Path → Path × Path
  | "" :: names => ([""], names)
  | names => ([], names)

/-- The root, the working directory and the directories above it exist. -/
def isGiven (place : Path) : Bool :=
  place = [""] || place.all (· == "..")

/-- Names that stay where they are, one of them as a dot. -/
def endsInDot (names : Path) : Bool :=
  names.all isStay && names.contains "."

/-! ## Limits -/

def nameLimit : Nat := 255

def pathLimit : Nat := 4095

/-- A name is short enough for a directory. -/
def fits (name : String) : Bool :=
  name.utf8ByteSize ≤ nameLimit

/-- Whether a path can be looked up at all. -/
def checkForm (path : Path) : Except Fault Unit :=
  if path.any fun name => name.toList.contains '\x00' then .error .invalidName
  else if pathLimit < (text path).utf8ByteSize then .error .nameTooLong
  else .ok ()

end Path

end RoomLedger.Disk
