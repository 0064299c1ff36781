import RoomLedger.CommandLine.Reading
import RoomLedger.Collection.Query
import RoomLedger.Record.Event

/-!
Contract: the commands that a person can give.

Owns:
- `Command`, the commands with their arguments;
- `grammar`, the words by which they are given;
- `Invocation`, a command with what every command takes, and `Invocation.read?`.

Does not own: what a command does.
-/

namespace RoomLedger.CommandLine

/-- What is told of an upload. -/
structure Upload where
  room : String
  uploader : String
  fileName : String
  contentType : String
  size : UInt64
  storageRef : String
  caption : String
deriving DecidableEq, Repr

/-- The commands. -/
inductive Command where
  | createEvent (event : Event)
  | showEvent (room : String)
  | listEvents (query : Query)
  | describeEvent (room description actor : String)
  | cancelEvent (room actor : String)
  | createProfile (user name : String) (timezone : Option String)
  | showProfile (user : String)
  | noteProfile (user notes : String)
  | removeProfile (user : String)
  | listProfiles
  | appendHistory (room content author : String) (role : Role)
  | showHistory (room : String) (limit : Nat)
  | clearHistory (room : String)
  | addMedia (upload : Upload)
  | showMedia (id : String)
  | captionMedia (id caption : String)
  | removeMedia (id : String)
  | listMedia (room uploader : Option String)
  | joinGroup (room user nickname : String) (role : MemberRole)
  | leaveGroup (room user : String)
  | listMembers (room : String)
  | renameMember (room user nickname : String)
deriving DecidableEq, Repr

/-! ## Words -/

def valued (name : String) (type : ArgumentType) : OptionForm :=
  { name, type := some type }

def switch (name : String) : OptionForm :=
  { name }

def limitOption : OptionForm :=
  { name := "limit", letter := some 'n', type := some .count64 }

/-- A leaf whose operands are all its arguments. -/
def operandsOnly (count : Nat) (meaning : List String → Option Command) : CommandForm Command :=
  .leaf [] count fun values => meaning values.operands

def one (meaning : String → Command) : List String → Option Command
  | [first] => some (meaning first)
  | _ => none

def two (meaning : String → String → Command) : List String → Option Command
  | [first, second] => some (meaning first second)
  | _ => none

def three (meaning : String → String → String → Command) : List String → Option Command
  | [first, second, third] => some (meaning first second third)
  | _ => none

def eventOf (values : Values) : Option Command := do
  let chatRoomId ← values.text? "room"
  let creatorId ← values.text? "creator"
  let title ← values.text? "title"
  let startTime ← values.timestamp? "start"
  let endTime ← values.timestamp? "end"
  let capacity ← values.number? "capacity"
  return .createEvent
    { chatRoomId, creatorId, title, startTime, endTime,
      fee := (values.text? "fee").getD "",
      capacity := UInt32.ofNat capacity,
      description := (values.text? "description").getD "",
      showCreator := !values.has "hide-creator" }

def eventCommands : CommandForm Command := .group [
  ("create", .leaf
    [valued "room" .text, valued "creator" .text, valued "title" .text,
      valued "start" .timestamp, valued "end" .timestamp, valued "fee" .text,
      valued "capacity" .count32, valued "description" .text, switch "hide-creator"]
    0 eventOf),
  ("get", operandsOnly 1 (one .showEvent)),
  ("list", .leaf
    [valued "creator" .text, valued "start" .timestamp, valued "end" .timestamp, limitOption]
    0 fun values => some (.listEvents
      { creatorId := values.text? "creator",
        start := values.timestamp? "start",
        finish := values.timestamp? "end",
        limit := values.number? "limit" })),
  ("update", .leaf [valued "as" .text] 2 fun values => do
    let actor ← values.text? "as"
    two (fun room description => .describeEvent room description actor) values.operands),
  ("remove", .leaf [valued "as" .text] 1 fun values => do
    let actor ← values.text? "as"
    one (fun room => .cancelEvent room actor) values.operands)]

def profileCommands : CommandForm Command := .group [
  ("create", .leaf [valued "timezone" .text] 2 fun values =>
    two (fun user name => .createProfile user name (values.text? "timezone")) values.operands),
  ("get", operandsOnly 1 (one .showProfile)),
  ("notes", operandsOnly 2 (two .noteProfile)),
  ("remove", operandsOnly 1 (one .removeProfile)),
  ("list", operandsOnly 0 fun _ => some .listProfiles)]

def historyCommands : CommandForm Command := .group [
  ("append", .leaf [valued "author" .text, valued "role" .role] 2 fun values => do
    let author ← values.text? "author"
    let role := (values.role? "role").getD .user
    two (fun room content => .appendHistory room content author role) values.operands),
  ("show", .leaf [limitOption] 1 fun values =>
    one (fun room => .showHistory room ((values.number? "limit").getD 20)) values.operands),
  ("clear", operandsOnly 1 (one .clearHistory))]

def uploadOf (values : Values) : Option Command := do
  let room ← values.text? "room"
  let uploader ← values.text? "uploader"
  let fileName ← values.text? "file"
  let contentType ← values.text? "content-type"
  let storageRef ← values.text? "storage-ref"
  return .addMedia
    { room, uploader, fileName, contentType, storageRef,
      size := UInt64.ofNat ((values.number? "size").getD 0),
      caption := (values.text? "caption").getD "" }

def mediaCommands : CommandForm Command := .group [
  ("add", .leaf
    [valued "room" .text, valued "uploader" .text, valued "file" .text,
      valued "content-type" .text, valued "size" .count64, valued "storage-ref" .text,
      valued "caption" .text]
    0 uploadOf),
  ("get", operandsOnly 1 (one .showMedia)),
  ("caption", operandsOnly 2 (two .captionMedia)),
  ("remove", operandsOnly 1 (one .removeMedia)),
  ("list", .leaf [valued "room" .text, valued "uploader" .text] 0 fun values =>
    some (.listMedia (values.text? "room") (values.text? "uploader")))]

def groupCommands : CommandForm Command := .group [
  ("join", .leaf [switch "admin"] 3 fun values =>
    let role : MemberRole := if values.has "admin" then .admin else .member
    three (fun room user nickname => .joinGroup room user nickname role) values.operands),
  ("leave", operandsOnly 2 (two .leaveGroup)),
  ("members", operandsOnly 1 (one .listMembers)),
  ("rename", operandsOnly 3 (three .renameMember))]

def grammar : Grammar Command where
  root := .group [
    ("event", eventCommands),
    ("profile", profileCommands),
    ("history", historyCommands),
    ("media", mediaCommands),
    ("group", groupCommands)]
  shared := [
    { name := "verbose", letter := some 'v' },
    valued "config" .path,
    valued "data-dir" .path]

/-! ## Invocations -/

/-- A command with what every command takes. -/
structure Invocation where
  command : Command
  isVerbose : Bool
  settingsPath : Option String
  dataDirectory : Option String
deriving DecidableEq, Repr

/-- The text of an option in the innermost command that was given it. -/
def innermostText? (name : String) (values : List Values) : Option String :=
  values.findSome? fun given => given.text? name

def Invocation.read (arguments : List String) : Except UsageFault Invocation :=
  match readArguments grammar arguments with
  | .error fault => .error fault
  | .ok reading => .ok
      { command := reading.meaning,
        isVerbose := reading.values.any fun values => values.has "verbose",
        settingsPath := innermostText? "config" reading.values,
        dataDirectory := innermostText? "data-dir" reading.values }

end RoomLedger.CommandLine
