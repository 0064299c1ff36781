import RoomLedger.Text.Blank
import RoomLedger.Text.Pieces
import RoomLedger.Text.Quoted

/-!
Contract: the names under which blobs are stored.

Owns:
- `KeyFault`, the causes for which a text is no key, and their wording;
- `checkKey`, which names the first cause that applies.

Keys are used as relative paths, so no component of a key may be empty or begin
with a dot, and two endings are kept for the files beside a blob's own.

Does not own: the length of names, which is a limit of the place of storage.
-/

namespace RoomLedger.Store

/-- Why a text is no key. -/
inductive KeyFault where
  | empty
  | blank
  | forbidden (character : Char)
  /-- A slash at the front or at the end. -/
  | outerSlash
  /-- Two slashes in a row. -/
  | doubleSlash
  | hidden (component : String)
  | reserved (ending : String)
deriving DecidableEq, Repr

def KeyFault.message : KeyFault → String
  | .empty => "key must not be empty"
  | .blank => "must not contain whitespace"
  | .forbidden character => s!"contains forbidden character: {Text.quotedChar character}"
  | .outerSlash => "must not start or end with '/'"
  | .doubleSlash => "must not contain consecutive slashes '//'"
  | .hidden component => s!"component must not start with '.': {Text.quoted component}"
  | .reserved ending => s!"must not end with {Text.quoted ending}"

/-- The characters that no key has, in the order in which they are looked for. -/
def forbiddenCharacters : List Char := ['\\', ':', '*', '?']

/-- The ending of the file that a writer locks. -/
def lockEnding : String := ".lock"

/-- The ending of the file that a writer fills. -/
def draftEnding : String := ".tmp"

def reservedEndings : List String := [lockEnding, draftEnding]

def components (key : String) : List String :=
  (Text.pieces '/' key.toList).map String.ofList

def hasDoubleSlash : List Char → Bool
  | '/' :: '/' :: _ => true
  | _ :: rest => hasDoubleSlash rest
  | [] => false

/-- Whether a text is a key; otherwise the first cause why not. -/
def checkKey (key : String) : Except KeyFault Unit :=
  let characters := key.toList
  if characters.isEmpty then .error .empty
  else if characters.any Text.isBlank then .error .blank
  else
    match forbiddenCharacters.find? characters.contains with
    | some character => .error (.forbidden character)
    | none =>
        if characters.head? = some '/' || characters.getLast? = some '/' then .error .outerSlash
        else if hasDoubleSlash characters then .error .doubleSlash
        else
          match (Text.pieces '/' characters).find? (·.head? = some '.') with
          | some component => .error (.hidden (String.ofList component))
          | none =>
              match reservedEndings.find? fun ending => ending.toList.isSuffixOf characters with
              | some ending => .error (.reserved ending)
              | none => .ok ()

def isKey (key : String) : Bool :=
  match checkKey key with
  | .ok () => true
  | .error _ => false

@[simp] theorem isKey_iff {key : String} : isKey key = true ↔ checkKey key = .ok () := by
  unfold isKey
  split <;> simp_all

end RoomLedger.Store
