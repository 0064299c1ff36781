import RoomLedger.CommandLine.Command
import RoomLedger.CommandLine.Style
import RoomLedger.Service.Events
import RoomLedger.Service.Groups
import RoomLedger.Service.Histories
import RoomLedger.Service.Media
import RoomLedger.Service.Profiles
import RoomLedger.Settings.Basic
import RoomLedger.Store.Files

/-!
Contract: what a command does and what it prints.

Owns:
- `Problem`, why a command that was understood failed, and its wording;
- `Command.plan`, the store calls of a command and what it prints at the end;
- `Invocation.script`, which also finds the settings and opens the store.

Only the creator of an event may change or cancel it. That is asked by a read of
its own before the operation.

Does not own: the time, the id of a new record and whether the terminal shows
colours, which the caller tells.
-/

namespace RoomLedger.CommandLine

open RoomLedger.Disk (Script)
open RoomLedger.Store (FileSettings FileStore Plan)

/-- Why a command that was understood failed. -/
inductive Problem where
  | failure (found : Failure)
  /-- The store cannot be opened. -/
  | unopened (error : Store.Error)
  | settings (fault : SettingsFault)
  /-- Someone else created the event. -/
  | notCreator (actor room : String)
deriving DecidableEq, Repr

def Problem.message : Problem → String
  | .failure found => found.message
  | .unopened error => error.message
  | .settings fault => fault.message
  | .notCreator actor room => s!"{actor} did not create the event in {room}"

/-- What a command prints, or why it failed. -/
abbrev Result : Type := Except Problem String

/-- What a command is told of its surroundings. -/
structure Surroundings where
  now : Time.Timestamp
  /-- The id of a record that comes without one. -/
  freshId : String
  /-- The terminal shows colours. -/
  colours : Bool

/-! ## Printing -/

def linesText (lines : List String) : String :=
  String.join (lines.map fun line => line ++ "\n")

/-- A line that says that something was done. -/
def doneLine (colours : Bool) (text : String) : String :=
  let mark := (Style.bold ++ Style.green).paint colours "✓"
  s!"{mark} {text}"

def eventLines (colours : Bool) (event : Event) : List String :=
  let room := (Style.bold ++ Style.yellow).paint colours event.chatRoomId
  let creator :=
    if event.showCreator then [s!"  Creator: {Style.cyan.paint colours event.creatorId}"] else []
  let description := if event.description = "" then [] else [s!"  {event.description}"]
  [s!"{room}  {Style.bold.paint colours event.title}",
    s!"  {event.startTime.rfc3339} → {event.endTime.rfc3339}"] ++
    creator ++ [s!"  Capacity: {event.capacity}  Fee: {event.fee}"] ++ description

def eventLine (colours : Bool) (event : Event) : String :=
  let start := Style.dimmed.paint colours event.startTime.rfc3339
  s!"{start}  {Style.yellow.paint colours event.chatRoomId}  {event.title}"

def profileLines (colours : Bool) (profile : UserProfile) : List String :=
  let user := (Style.bold ++ Style.cyan).paint colours profile.userId
  let timezone :=
    match profile.timezone with
    | none => []
    | some name => [s!"  Timezone: {name}"]
  let notes := if profile.notes = "" then [] else [s!"  Notes: {profile.notes}"]
  [s!"{user}  {profile.displayName}"] ++ timezone ++ notes

/-- The style in which the author of an entry is shown. -/
def roleStyle : Role → Style
  | .user => .cyan
  | .assistant => .green
  | .system => .magenta

def entryLine (colours : Bool) (entry : HistoryEntry) : String :=
  let time := Style.dimmed.paint colours entry.createdAt.minuteText
  s!"{time} {(roleStyle entry.role).paint colours entry.authorId}: {entry.content}"

def mediaLines (colours : Bool) (item : MediaItem) : List String :=
  let id := (Style.bold ++ Style.yellow).paint colours item.mediaId
  let uploader := Style.cyan.paint colours item.uploaderId
  let caption := if item.caption = "" then [] else [s!"  {item.caption}"]
  [s!"{id}  {Style.bold.paint colours item.fileName}",
    s!"  {item.contentType} ({item.sizeBytes} bytes)",
    s!"  Room: {item.chatRoomId}  Uploader: {uploader}",
    s!"  Stored at: {item.storageRef}"] ++ caption

def mediaLine (colours : Bool) (item : MediaItem) : String :=
  let marker := Style.dimmed.paint colours (if item.isImage then " img" else "file")
  s!"{Style.yellow.paint colours item.mediaId}  {marker}  {item.fileName}"

def memberLine (colours : Bool) (member : GroupMember) : String :=
  let user := Style.cyan.paint colours member.userId
  s!"{user}  {member.nickname}  {Style.dimmed.paint colours member.role.name}"

/-! ## Commands -/

/-- An operation with the lines that its result is printed as. -/
def shown {α : Type} (operation : Operation α) (lines : α → List String) : Plan Result :=
  operation.bind fun
    | .error found => .done (.error (.failure found))
    | .ok value => .done (.ok (linesText (lines value)))

/-- An operation on a room's event that only its creator may carry out. -/
def whenCreator (room actor : String) (next : Plan Result) : Plan Result :=
  (Events.get room).bind fun
    | .error found => .done (.error (.failure found))
    | .ok event =>
        if event.isCreatedBy actor then next else .done (.error (.notCreator actor room))

/-- The uploads of a room, of an uploader, of both or all of them. -/
def mediaOf : (room uploader : Option String) → Operation (List MediaItem)
  | some room, none => Media.inRoom room
  | room, uploader =>
      let query : Query := { creatorId := uploader }
      (Media.list query).mapResult fun items =>
        match room with
        | none => items
        | some room => items.filter fun item => item.chatRoomId == room

def Upload.item (now : Time.Timestamp) (upload : Upload) : MediaItem where
  mediaId := ""
  chatRoomId := upload.room
  uploaderId := upload.uploader
  fileName := upload.fileName
  contentType := upload.contentType
  sizeBytes := upload.size
  storageRef := upload.storageRef
  caption := upload.caption
  uploadedAt := now

/-- The store calls of a command, and what it prints. -/
def Command.plan (around : Surroundings) (command : Command) : Plan Result :=
  let colours := around.colours
  let done := doneLine colours
  let bold := Style.bold.paint colours
  let yellow := Style.yellow.paint colours
  let cyan := Style.cyan.paint colours
  match command with
  | .createEvent event =>
      shown (Events.create around.now event) fun created =>
        done "Event scheduled" :: eventLines colours created
  | .showEvent room => shown (Events.get room) (eventLines colours)
  | .listEvents query =>
      shown (Events.list query) fun events =>
        if events.isEmpty then ["No events."] else events.map (eventLine colours)
  | .describeEvent room description actor =>
      whenCreator room actor <|
        shown (Events.updateDescription room description) fun event =>
          done "Description updated" :: eventLines colours event
  | .cancelEvent room actor =>
      whenCreator room actor <|
        shown (Events.remove room) fun event => [done s!"Cancelled {bold event.title}"]
  | .createProfile user name timezone =>
      shown (Profiles.create around.now user name timezone) fun profile =>
        [done s!"Profile created for {cyan profile.userId}"]
  | .showProfile user => shown (Profiles.get user) (profileLines colours)
  | .noteProfile user notes =>
      shown (Profiles.updateNotes user notes) fun _ => [done "Notes updated"]
  | .removeProfile user =>
      shown (Profiles.remove user) fun _ => [done s!"Removed {cyan user}"]
  | .listProfiles =>
      shown (Profiles.list Query.all) fun profiles =>
        profiles.map fun profile => s!"{cyan profile.userId}  {profile.displayName}"
  | .appendHistory room content author role =>
      shown (Histories.append around.now around.freshId room author role content) fun entry =>
        [done (Style.dimmed.paint colours entry.id)]
  | .showHistory room limit =>
      shown (Histories.recent room limit) fun entries => entries.map (entryLine colours)
  | .clearHistory room =>
      shown (Histories.clear room) fun count => [done s!"Cleared {count} messages"]
  | .addMedia upload =>
      shown (Media.register around.freshId (upload.item around.now)) fun item =>
        [done s!"Registered {yellow item.mediaId}"]
  | .showMedia id => shown (Media.get id) (mediaLines colours)
  | .captionMedia id caption =>
      shown (Media.updateCaption id caption) fun _ => [done "Caption updated"]
  | .removeMedia id => shown (Media.remove id) fun _ => [done s!"Removed {yellow id}"]
  | .listMedia room uploader =>
      shown (mediaOf room uploader) fun items => items.map (mediaLine colours)
  | .joinGroup room user nickname role =>
      shown (Groups.join around.now room user nickname role) fun member =>
        [done s!"{bold member.nickname} joined {yellow member.chatRoomId} as {member.role.name}"]
  | .leaveGroup room user =>
      shown (Groups.leave room user) fun _ => [done s!"{cyan user} left {yellow room}"]
  | .listMembers room =>
      shown (Groups.members room) fun members => members.map (memberLine colours)
  | .renameMember room user nickname =>
      shown (Groups.rename room user nickname) fun _ => [done "Nickname updated"]

/-! ## Invocations -/

/-- The settings of an invocation, whose level is not looked at where the
invocation asks for all that can be told. -/
def Invocation.settle (invocation : Invocation) (settings : Settings) :
    Except SettingsFault Settings :=
  let chosen :=
    match invocation.dataDirectory with
    | none => settings
    | some path => { settings with dataDirectory := path }
  if invocation.isVerbose then .ok chosen
  else
    match chosen.level with
    | .error fault => .error fault
    | .ok _ => .ok chosen

/-- The requests of an invocation, and what it prints. -/
def Invocation.script (around : Surroundings) (invocation : Invocation) : Script Result :=
  (Settings.resolve invocation.settingsPath).bind fun
    | .error fault => .done (.error (.settings fault))
    | .ok found =>
        match invocation.settle found with
        | .error fault => .done (.error (.settings fault))
        | .ok settings =>
            let root := Disk.Path.ofText settings.dataDirectory
            (FileStore.openAt root { lockTimeout := settings.lockTimeout }).bind fun
              | .error error => .done (.error (.unopened error))
              | .ok files => (invocation.command.plan around).onFiles files

end RoomLedger.CommandLine
