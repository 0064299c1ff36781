import RoomLedger.Text.Blank

/-!
Contract: the roles that records carry.

Owns:
- `Role`, who produced a history entry, with its names and the reader of text
  that a person entered;
- `MemberRole`, the level of a membership, with its names.

Does not own: the records.
-/

namespace RoomLedger

/-- Who produced a history entry. -/
inductive Role where
  /-- A participant of the chat room. -/
  | user
  /-- The assistant itself. -/
  | assistant
  /-- A note from the host. -/
  | system
deriving DecidableEq, Repr

namespace Role

def name : Role → String
  | user => "user"
  | assistant => "assistant"
  | system => "system"

/-- The roles in the order in which messages list them. -/
def all : List Role := [user, assistant, system]

def ofName? (text : String) : Option Role :=
  all.find? fun role => role.name = text

@[simp] theorem ofName?_name (role : Role) : ofName? role.name = some role := by
  cases role <;> decide

/-- A role that a person entered, in any case and with white space around it or
not; otherwise the text that was compared. -/
def parse (text : String) : Except String Role :=
  let entered := String.ofList ((Text.trim text.toList).map Char.toLower)
  match ofName? entered with
  | some role => .ok role
  | none => .error entered

/-- The message for a text that is no role. -/
def unknownMessage (entered : String) : String :=
  s!"unknown role: {entered}"

end Role

/-- The level of a membership in a simulated group. -/
inductive MemberRole where
  | admin
  | member
deriving DecidableEq, Repr

namespace MemberRole

def name : MemberRole → String
  | admin => "admin"
  | member => "member"

/-- The levels in the order in which messages list them. -/
def all : List MemberRole := [admin, member]

def ofName? (text : String) : Option MemberRole :=
  all.find? fun role => role.name = text

@[simp] theorem ofName?_name (role : MemberRole) : ofName? role.name = some role := by
  cases role <;> decide

/-- The level of a membership that names none. -/
instance : Inhabited MemberRole := ⟨member⟩

end MemberRole

end RoomLedger
