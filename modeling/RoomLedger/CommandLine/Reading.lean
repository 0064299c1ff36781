import RoomLedger.CommandLine.Grammar

/-!
Contract: reading a command line by its form.

Owns:
- `Frame`, what has been read for one command on the way to the leaf;
- `Frame.accept`, which takes one argument;
- `readArguments`, which takes all of them.

A value that follows its option is checked only when the next option or operand
comes, or at the end, so that an unknown option further on is found first. A
value that is attached to its option is checked at once. At the end the leaf is
looked at before the commands above it. After two dashes every argument is an
operand.

Does not own: the commands there are.
-/

namespace RoomLedger.CommandLine

/-- The name of the command and of the option that ask for help. -/
def helpName : String := "help"

/-- The name of the option that asks for the version. -/
def versionName : String := "version"

/-- What has been read for one command. -/
structure Frame (α : Type) where
  form : CommandForm α
  /-- The options that the command takes. -/
  options : List OptionForm
  /-- Only the command at the top tells the version. -/
  isTop : Bool
  values : Values := {}
  /-- An option that has been read, with its value if that has come. -/
  pending : Option (OptionForm × Option String) := none

namespace Frame

variable {α : Type}

/-- The next argument may be the value of an option. -/
def awaitsValue (frame : Frame α) : Bool :=
  match frame.pending with
  | some (_, none) => true
  | _ => false

/-- The frame with an option and its value. No option comes twice. -/
def add (frame : Frame α) (name : String) (value : Except UsageFault (Option Argument)) :
    Except UsageFault (Frame α) :=
  if frame.values.has name then .error .repeated
  else
    match value with
    | .error fault => .error fault
    | .ok argument =>
        .ok { frame with
          values := { frame.values with options := frame.values.options ++ [(name, argument)] } }

def readValue (option : OptionForm) (given : String) : Except UsageFault (Option Argument) :=
  match option.type with
  | none => .error .unneededValue
  | some type =>
      match type.read given with
      | .error fault => .error fault
      | .ok argument => .ok (some argument)

/-- The frame after the option that waits has been looked at. -/
def settle (frame : Frame α) : Except UsageFault (Frame α) :=
  match frame.pending with
  | none => .ok frame
  | some (_, none) => .error .emptyValue
  | some (option, some given) =>
      { frame with pending := none }.add option.name (readValue option given)

/-- Goes on once the option that waits has been looked at. -/
def settled (frame : Frame α) (next : Frame α → Except UsageFault (Frame α)) :
    Except UsageFault (Frame α) :=
  match frame.settle with
  | .error fault => .error fault
  | .ok ready => next ready

def takeSwitch (frame : Frame α) (option : OptionForm) : Except UsageFault (Frame α) :=
  frame.settled fun ready => ready.add option.name (.ok none)

/-- Takes an option whose value is attached to it. -/
def takeAttached (frame : Frame α) (option : OptionForm) (given : String) :
    Except UsageFault (Frame α) :=
  frame.settled fun ready => ready.add option.name (readValue option given)

/-- Takes an option whose value is still to come. -/
def takeOpen (frame : Frame α) (option : OptionForm) : Except UsageFault (Frame α) :=
  frame.settled fun ready => .ok { ready with pending := some (option, none) }

/-- Answers a request for help or for the version. -/
def answer (frame : Frame α) (fault : UsageFault) : Except UsageFault (Frame α) :=
  frame.settled fun _ => .error fault

def named? (frame : Frame α) (name : String) : Option OptionForm :=
  frame.options.find? fun option => option.name == name

def lettered? (frame : Frame α) (letter : Char) : Option OptionForm :=
  frame.options.find? fun option => option.letter == some letter

/-- Takes a name after two dashes, with a value after an equals sign or not. -/
def takeLong (frame : Frame α) (name : String) (attached : Option String) :
    Except UsageFault (Frame α) :=
  match frame.named? name, attached with
  | some option, some given =>
      if option.type.isNone then .error .unneededValue else frame.takeAttached option given
  | some option, none =>
      if option.type.isNone then frame.takeSwitch option else frame.takeOpen option
  | none, attached =>
      if name = helpName ∨ (name = versionName ∧ frame.isTop) then
        if attached.isSome then .error .unneededValue
        else frame.answer (if name = helpName then .helpAsked else .versionAsked)
      else .error .unknownArgument

/-- Takes letters after one dash. What follows the letter of an option with a
value is that value. -/
def takeLetters : List Char → Frame α → Except UsageFault (Frame α)
  | [], frame => .ok frame
  | letter :: rest, frame =>
      match frame.lettered? letter with
      | some option =>
          if option.type.isNone then
            match frame.takeSwitch option with
            | .error fault => .error fault
            | .ok next => takeLetters rest next
          else
            match rest with
            | [] => frame.takeOpen option
            | '=' :: given => frame.takeAttached option (String.ofList given)
            | given => frame.takeAttached option (String.ofList given)
      | none =>
          if letter = 'h' then frame.answer .helpAsked
          else if letter = 'V' ∧ frame.isTop then frame.answer .versionAsked
          else .error .unknownArgument

/-- The name of a command below this one, or the name that asks for help. -/
def isCommandName (frame : Frame α) (name : String) : Bool :=
  frame.form.isGroup && (name == helpName || (frame.form.member? name).isSome)

/-- Takes an operand. A command that has commands below it takes none. -/
def takeOperand (frame : Frame α) (isTrailing : Bool) (operand : String) :
    Except UsageFault (Frame α) :=
  if frame.values.operands.length < frame.form.operandCount then
    frame.settled fun ready =>
      .ok { ready with
        values := { ready.values with operands := ready.values.operands ++ [operand] } }
  else if !frame.form.isGroup then .error .unknownArgument
  else if isTrailing && frame.isCommandName operand then .error .unknownArgument
  else .error .unknownCommand

end Frame

/-- An argument by its dashes. -/
inductive Shape where
  /-- Two dashes alone. -/
  | escape
  | long (name : String) (attached : Option String)
  | letters (letters : List Char)
  | plain

def shapeOf (argument : String) : Shape :=
  match argument.toList with
  | ['-', '-'] => .escape
  | '-' :: '-' :: rest =>
      let name := String.ofList (rest.takeWhile (· != '='))
      match rest.dropWhile (· != '=') with
      | [] => .long name none
      | _ :: given => .long name (some (String.ofList given))
  | '-' :: letter :: rest => .letters (letter :: rest)
  | _ => .plain

/-- What becomes of an argument. -/
inductive Move (α : Type) where
  /-- The command goes on. -/
  | stay (frame : Frame α)
  /-- A command below it begins. -/
  | descend (form : CommandForm α)
  /-- All that follows are operands. -/
  | escape
  /-- All that follows names the command that help is asked for. -/
  | help

/-- The frame as what becomes of an argument. -/
def Move.ofFrame {α : Type} : Except UsageFault (Frame α) → Except UsageFault (Move α)
  | .error fault => .error fault
  | .ok frame => .ok (.stay frame)

namespace Frame

variable {α : Type}

/-- Takes an argument that names no command. -/
def acceptOther (frame : Frame α) (argument : String) : Except UsageFault (Move α) :=
  match shapeOf argument with
  | .escape => .ok .escape
  | .long name attached => Move.ofFrame (frame.takeLong name attached)
  | .letters letters => Move.ofFrame (takeLetters letters frame)
  | .plain =>
      match frame.pending with
      | some (option, none) => .ok (.stay { frame with pending := some (option, some argument) })
      | _ => Move.ofFrame (frame.takeOperand false argument)

def accept (frame : Frame α) (isTrailing : Bool) (argument : String) : Except UsageFault (Move α) :=
  if isTrailing then Move.ofFrame (frame.takeOperand true argument)
  else if frame.awaitsValue then frame.acceptOther argument
  else
    match frame.form.member? argument with
    | some form => .ok (.descend form)
    | none =>
        if frame.form.isGroup && argument == helpName then .ok .help
        else frame.acceptOther argument

end Frame

/-- The answer to a request for help on the command that the names lead to. -/
def helpOn {α : Type} : CommandForm α → List String → UsageFault
  | _, [] => .helpAsked
  | form, name :: rest =>
      match form.member? name with
      | some member => helpOn member rest
      | none =>
          if form.isGroup && name == helpName && rest.isEmpty then .helpAsked
          else .unknownCommand

/-- The meaning of the command at the end, whose arguments have all been read. -/
def Frame.meaning {α : Type} (frame : Frame α) : Except UsageFault α :=
  match frame.form with
  | .group _ => .error (if frame.values.options.isEmpty then .nothingGiven else .missingCommand)
  | .leaf _ _ meaning =>
      match meaning frame.values with
      | none => .error .missingArgument
      | some value => .ok value

/-- What a command line means, with the values of every command on the way, the
innermost first. -/
structure Reading (α : Type) where
  meaning : α
  values : List Values

/-- Looks at what waits in the frames above the leaf. -/
def settleAll {α : Type} : List (Frame α) → Except UsageFault (List Values)
  | [] => .ok []
  | frame :: outer =>
      match frame.settle with
      | .error fault => .error fault
      | .ok ready =>
          match settleAll outer with
          | .error fault => .error fault
          | .ok values => .ok (ready.values :: values)

def finish {α : Type} (outer : List (Frame α)) (frame : Frame α) : Except UsageFault (Reading α) :=
  match frame.settle with
  | .error fault => .error fault
  | .ok ready =>
      match ready.meaning with
      | .error fault => .error fault
      | .ok meaning =>
          match settleAll outer with
          | .error fault => .error fault
          | .ok values => .ok { meaning, values := ready.values :: values }

/-- Reads the arguments that are left, below the commands that have been read. -/
def readFrom {α : Type} (shared : List OptionForm) :
    (outer : List (Frame α)) → (frame : Frame α) → (isTrailing : Bool) → List String →
    Except UsageFault (Reading α)
  | outer, frame, _, [] => finish outer frame
  | outer, frame, isTrailing, argument :: rest =>
      match frame.accept isTrailing argument with
      | .error fault => .error fault
      | .ok (.stay next) => readFrom shared outer next isTrailing rest
      | .ok .escape => readFrom shared outer frame true rest
      | .ok .help => .error (helpOn frame.form rest)
      | .ok (.descend form) =>
          readFrom shared (frame :: outer)
            { form, options := form.options ++ shared, isTop := false } false rest

def readArguments {α : Type} (grammar : Grammar α) (arguments : List String) :
    Except UsageFault (Reading α) :=
  readFrom grammar.shared []
    { form := grammar.root, options := grammar.root.options ++ grammar.shared, isTop := true }
    false arguments

end RoomLedger.CommandLine
