import RoomLedger.Decimal.Digits
import RoomLedger.Record.Role
import RoomLedger.Time.Strict

/-!
Contract: the form of a command line.

Owns:
- `UsageFault`, why a command line is not carried out, and its wording;
- `ArgumentType` and `Argument`, the types of values and the values;
- `OptionForm`, an option with its names, and `CommandForm`, a tree of commands
  whose leaves say what their arguments mean;
- `Values`, the arguments that were given to a command;
- `Grammar`, the tree with the options that every command takes.

Does not own: the order in which arguments are read.
-/

namespace RoomLedger.CommandLine

/-- Why a command line is not carried out. -/
inductive UsageFault where
  /-- Help was asked for. -/
  | helpAsked
  /-- The version was asked for. -/
  | versionAsked
  /-- A command that only has commands below it was given nothing at all. -/
  | nothingGiven
  /-- No command was named. -/
  | missingCommand
  /-- There is no command of that name. -/
  | unknownCommand
  /-- There is no option of that name, or no place for an argument. -/
  | unknownArgument
  /-- An option was given no value, or an empty path. -/
  | emptyValue
  /-- A value is not of its type. -/
  | badValue
  /-- A switch was given a value. -/
  | unneededValue
  /-- An option was given twice. -/
  | repeated
  /-- An argument that must be given was not. -/
  | missingArgument
deriving DecidableEq, Repr

/-- Only help or the version was asked for. -/
def UsageFault.isAnswer : UsageFault → Bool
  | .helpAsked => true
  | .versionAsked => true
  | _ => false

def UsageFault.message : UsageFault → String
  | .helpAsked => "help was asked for"
  | .versionAsked => "the version was asked for"
  | .nothingGiven => "no command was given"
  | .missingCommand => "a command is missing"
  | .unknownCommand => "there is no such command"
  | .unknownArgument => "an argument was not expected"
  | .emptyValue => "a value is missing"
  | .badValue => "a value is not valid"
  | .unneededValue => "an option takes no value"
  | .repeated => "an option was given twice"
  | .missingArgument => "a required argument is missing"

/-- The value of an argument. -/
inductive Argument where
  | text (value : String)
  | number (value : Nat)
  | timestamp (value : Time.Timestamp)
  | role (value : Role)
deriving DecidableEq, Repr

/-- The types of arguments. -/
inductive ArgumentType where
  | text
  /-- A text that is not empty. -/
  | path
  /-- A whole number of thirty-two bits, written with a sign or not. -/
  | count32
  /-- A whole number of sixty-four bits, written with a plus or not. -/
  | count64
  | timestamp
  | role
deriving DecidableEq, Repr

/-- The number of a run of digits with any sign, if it is not below zero. -/
def signedValue? : List Char → Option Nat
  | '-' :: digits =>
      match Decimal.ofDigits? digits with
      | some 0 => some 0
      | _ => none
  | characters => Decimal.ofUnsigned? characters

def numberBelow (limit : Nat) : Option Nat → Except UsageFault Argument
  | none => .error .badValue
  | some number => if number < limit then .ok (.number number) else .error .badValue

def ArgumentType.read (type : ArgumentType) (given : String) : Except UsageFault Argument :=
  match type with
  | .text => .ok (.text given)
  | .path => if given.isEmpty then .error .emptyValue else .ok (.text given)
  | .count32 => numberBelow UInt32.size (signedValue? given.toList)
  | .count64 => numberBelow UInt64.size (Decimal.ofUnsigned? given.toList)
  | .timestamp =>
      match Time.Timestamp.parse? given with
      | .ok moment => .ok (.timestamp moment)
      | .error _ => .error .badValue
  | .role =>
      match Role.parse given with
      | .ok found => .ok (.role found)
      | .error _ => .error .badValue

/-- An option with its names. Without a type it is a switch. -/
structure OptionForm where
  name : String
  letter : Option Char := none
  type : Option ArgumentType := none
deriving DecidableEq, Repr

/-- The arguments that were given to a command. -/
structure Values where
  /-- The options with their values; a switch has none. -/
  options : List (String × Option Argument) := []
  operands : List String := []
deriving DecidableEq, Repr

namespace Values

def has (values : Values) (name : String) : Bool :=
  values.options.any fun entry => entry.1 == name

def value? (values : Values) (name : String) : Option Argument :=
  (values.options.lookup name).join

def text? (values : Values) (name : String) : Option String :=
  match values.value? name with
  | some (.text value) => some value
  | _ => none

def number? (values : Values) (name : String) : Option Nat :=
  match values.value? name with
  | some (.number value) => some value
  | _ => none

def timestamp? (values : Values) (name : String) : Option Time.Timestamp :=
  match values.value? name with
  | some (.timestamp value) => some value
  | _ => none

def role? (values : Values) (name : String) : Option Role :=
  match values.value? name with
  | some (.role value) => some value
  | _ => none

end Values

/-- A tree of commands. A leaf says what its arguments mean; there is no meaning
exactly where an argument that must be given is missing. -/
inductive CommandForm (α : Type) where
  | group (members : List (String × CommandForm α))
  | leaf (options : List OptionForm) (operands : Nat) (meaning : Values → Option α)

namespace CommandForm

variable {α : Type}

/-- The command of that name below this one. -/
def member? (name : String) : CommandForm α → Option (CommandForm α)
  | group members => members.lookup name
  | leaf _ _ _ => none

def isGroup : CommandForm α → Bool
  | group _ => true
  | leaf _ _ _ => false

def options : CommandForm α → List OptionForm
  | group _ => []
  | leaf options _ _ => options

def operandCount : CommandForm α → Nat
  | group _ => 0
  | leaf _ count _ => count

end CommandForm

mutual

/-- The words that lead to the leaves of a command. -/
def CommandForm.paths {α : Type} : CommandForm α → List (List String)
  | .group members => memberPaths members
  | .leaf _ _ _ => [[]]

/-- The words that lead to the leaves of named commands. -/
def memberPaths {α : Type} : List (String × CommandForm α) → List (List String)
  | [] => []
  | (name, form) :: rest => form.paths.map (fun path => name :: path) ++ memberPaths rest

end

/-- A tree of commands with the options that every one of them takes. -/
structure Grammar (α : Type) where
  root : CommandForm α
  shared : List OptionForm

end RoomLedger.CommandLine
