import RoomLedger.CommandLine.Execution
import RoomLedger.Record.Identifier
import Std.Time.DateTime.Timestamp

/-!
Contract: the command line program on the machine it runs on.

Owns:
- `Machine.run`, which carries out the requests of a script;
- the readings of the clock, of random bits and of the terminal;
- `main`, which prints what a command says and tells by its exit code whether it
  was carried out: 0 if so, 1 if it failed, 2 if it was not understood.

Does not own: any decision on a command.
-/

namespace RoomLedger.Machine

open RoomLedger.CommandLine
open RoomLedger.Disk

/-- The files that are open for their locks. -/
abbrev Opened := List (Path × IO.FS.Handle)

/-- The name by which the system knows a path. -/
def placeOf (path : Path) : String :=
  match path with
  | [] => "."
  | [""] => "/"
  | names => Path.text names

/-- The fault that the system's error stands for. -/
def faultOf : IO.Error → Fault
  | .noFileOrDirectory _ _ _ => .notFound
  | _ => .failed

/-- An action on a path that can be looked up. -/
def attempt {α : Type} (path : Path) (action : String → IO α) : IO (Except Fault α) :=
  match path.checkForm with
  | .error fault => return .error fault
  | .ok () =>
      try
        return .ok (← action (placeOf path))
      catch error =>
        return .error (faultOf error)

/-- How many milliseconds a waiting writer sleeps between two looks at a lock. -/
def lockInterval : Nat := 5

/-- Takes a lock once it is free, if that happens in time. -/
partial def waitForLock (handle : IO.FS.Handle) (deadline : Nat) : IO Bool := do
  if ← handle.tryLock then
    return true
  let now ← IO.monoMsNow
  if deadline ≤ now then
    return false
  IO.sleep (UInt32.ofNat (min lockInterval (deadline - now)))
  waitForLock handle deadline

/-- Carries out a request. A lock is given up with the file it belongs to. -/
def perform : (request : Request) → Opened → IO (request.Answer × Opened)
  | .makeDirectories path, opened => do
      return (← attempt path fun place => IO.FS.createDirAll place, opened)
  | .read path, opened => do
      let content ← attempt path fun place => IO.FS.readBinFile place
      return (content.map fun bytes => bytes.data.toList, opened)
  | .openFile path, opened => do
      match ← attempt path fun place => IO.FS.Handle.mk place .append with
      | .error fault => return (.error fault, opened)
      | .ok handle => return (.ok (), (path, handle) :: opened)
  | .takeLock path patience, opened => do
      match opened.lookup path with
      | none => return (.error .notFound, opened)
      | some handle =>
          let deadline := (← IO.monoMsNow) + patience
          return (← attempt path fun _ => waitForLock handle deadline, opened)
  | .dropLock path, opened => do
      if let some handle := opened.lookup path then
        handle.unlock
      return ((), opened.filter fun entry => entry.1 ≠ path)
  | .create path, opened => do
      return (← attempt path fun place => IO.FS.writeFile place "", opened)
  | .append path content, opened => do
      return (← attempt path fun place => do
        let handle ← IO.FS.Handle.mk place .append
        handle.write ⟨content.toArray⟩
        handle.flush, opened)
  | .sync path, opened => do
      return (← attempt path fun place => do
        (← IO.FS.Handle.mk place .append).flush, opened)
  | .rename source target, opened => do
      return (← attempt source fun place => IO.FS.rename place (placeOf target), opened)

def run {α : Type} : Script α → Opened → IO α
  | .done result, _ => return result
  | .ask request next, opened => do
      let (answer, left) ← perform request opened
      run (next answer) left

def perSecond : Int := 1000000000

/-- The time of the machine in UTC, and its milliseconds since 1970. -/
def readClock : IO (Time.Timestamp × Nat) := do
  let nanos := (← Std.Time.Timestamp.now).toNanosecondsSinceUnixEpoch.val
  match Time.Timestamp.ofLocalSecond? (nanos / perSecond) (nanos % perSecond).toNat .utc with
  | none => throw (IO.userError "the calendar cannot name the time of the machine")
  | some now => return (now, (nanos / 1000000).toNat)

def randomNumber : IO Nat := do
  return (← IO.getRandomBytes 10).foldl (fun number byte => 256 * number + byte.toNat) 0

/-- Whether the terminal is to show colours: what the environment insists on,
else whether there is a terminal. -/
def wantsColours : IO Bool := do
  let isOn (name : String) : IO (Option Bool) :=
    return (← IO.getEnv name).map fun value => value ≠ "0"
  if (← isOn "CLICOLOR_FORCE") = some true then
    return true
  if (← IO.getEnv "NO_COLOR").isSome then
    return false
  if (← isOn "CLICOLOR") = some false then
    return false
  (← IO.getStdout).isTty

def helpText : String :=
  linesText ("Usage: room-ledger [OPTIONS] COMMAND" :: "" ::
    grammar.root.paths.map fun path => "  " ++ " ".intercalate path)

/-- Answers a command line that is not carried out. -/
def explain (fault : UsageFault) : IO UInt32 := do
  match fault with
  | .helpAsked =>
      IO.print helpText
      return 0
  | .versionAsked =>
      IO.println "room-ledger 0.1.0"
      return 0
  | .nothingGiven =>
      IO.eprint helpText
      return 2
  | other =>
      IO.eprintln s!"error: {other.message}"
      return 2

/-- Carries out a command and prints what it says. -/
def carryOut (invocation : Invocation) : IO UInt32 := do
  let (now, millis) ← readClock
  let freshId := Identifier.ofMoment millis (← randomNumber)
  let around : Surroundings := { now, freshId, colours := ← wantsColours }
  match ← run (invocation.script around) [] with
  | .ok printed =>
      IO.print printed
      return 0
  | .error problem =>
      IO.eprintln s!"Error: {problem.message}"
      return 1

end RoomLedger.Machine

def main (arguments : List String) : IO UInt32 :=
  match RoomLedger.CommandLine.Invocation.read arguments with
  | .error fault => RoomLedger.Machine.explain fault
  | .ok invocation => RoomLedger.Machine.carryOut invocation
