import RoomLedger.Decimal.Digits
import RoomLedger.Disk.Script
import RoomLedger.Settings.Toml
import RoomLedger.Text.Quoted

/-!
Contract: the settings of the command line program.

Owns:
- `Settings`, with the values that count where a file names none;
- `Settings.ofText?`, the settings of a document, in which every key must be
  known and come once;
- `Settings.resolve`, which looks for the document;
- `LogLevel` and its names;
- `SettingsFault`, the causes for which there are no settings.

Does not own: what the settings are used for.
-/

namespace RoomLedger

open RoomLedger.Disk (Script)
open RoomLedger.Text (Bytes)

/-- How much a program tells of its work. -/
inductive LogLevel where
  | error
  | warn
  | info
  | debug
  | trace
deriving DecidableEq, Repr

namespace LogLevel

/-- The levels, from the one that tells the least. -/
def all : List LogLevel := [error, warn, info, debug, trace]

def name : LogLevel → String
  | error => "ERROR"
  | warn => "WARN"
  | info => "INFO"
  | debug => "DEBUG"
  | trace => "TRACE"

/-- The level of a text: its name in any case, or its place among the levels,
counted from one. -/
def ofText? (text : String) : Option LogLevel :=
  match Decimal.ofUnsigned? text.toList with
  | some number => if number = 0 then none else all[number - 1]?
  | none => all.find? fun level => level.name.toList = text.toList.map Char.toUpper

end LogLevel

/-- The settings of the command line program. -/
structure Settings where
  /-- The directory of the blobs. -/
  dataDirectory : String := ".huddle"
  logLevel : String := "warn"
  /-- How many milliseconds a writer waits for a lock. -/
  lockTimeout : Nat := 2000
deriving DecidableEq, Repr

/-- Why there are no settings. -/
inductive SettingsFault where
  /-- The document cannot be read. -/
  | unreadable (path : String)
  /-- The document does not hold settings. -/
  | malformed (path : String)
  /-- The level has no such name. -/
  | badLevel (text : String)
deriving DecidableEq, Repr

def SettingsFault.message : SettingsFault → String
  | .unreadable path => s!"reading config {path}"
  | .malformed path => s!"parsing config {path}"
  | .badLevel text => s!"invalid log_level {Text.quoted text}"

namespace Settings

/-- The document that is looked for where no other one is named. -/
def defaultPath : String := "huddle.toml"

/-- The settings with the value of one key. -/
def set? (key : String) (value : Toml.Scalar) (settings : Settings) : Option Settings :=
  match key, value with
  | "data_dir", .text path => some { settings with dataDirectory := path }
  | "log_level", .text level => some { settings with logLevel := level }
  | "lock_timeout_ms", .whole millis =>
      if millis < 0 then none else some { settings with lockTimeout := millis.toNat }
  | _, _ => none

/-- The settings with the values of all keys. -/
def setAll? : List (String × Toml.Scalar) → Settings → Option Settings
  | [], settings => some settings
  | (key, value) :: rest, settings =>
      match settings.set? key value with
      | none => none
      | some changed => setAll? rest changed

def ofText? (text : String) : Option Settings :=
  match Toml.pairs? text with
  | none => none
  | some pairs => if (pairs.map Prod.fst).Nodup then setAll? pairs {} else none

/-- The settings of a document that was read. -/
def ofBytes (path : String) (content : Bytes) : Except SettingsFault Settings :=
  match Text.ofBytes? content with
  | none => .error (.unreadable path)
  | some text =>
      match ofText? text with
      | none => .error (.malformed path)
      | some settings => .ok settings

/-- The settings of the named document, which must exist. Where none is named,
those of the default document, if it exists. -/
def resolve : (named : Option String) → Script (Except SettingsFault Settings)
  | some path =>
      .ask (.read (Disk.Path.ofText path)) fun
        | .error _ => .done (.error (.unreadable path))
        | .ok content => .done (ofBytes path content)
  | none =>
      .ask (.read (Disk.Path.ofText defaultPath)) fun
        | .error .notFound => .done (.ok {})
        | .error _ => .done (.error (.unreadable defaultPath))
        | .ok content => .done (ofBytes defaultPath content)

def level (settings : Settings) : Except SettingsFault LogLevel :=
  match LogLevel.ofText? settings.logLevel with
  | none => .error (.badLevel settings.logLevel)
  | some level => .ok level

end Settings

end RoomLedger
