/-
FreshTag/Main.lean

The program.  It reads its settings and then serves or cleans up, with the
database at the other end of its standard streams: requests go out on the
output, replies and messages come in on the input, and the end of the input
tells it to stop.  The log goes to the error stream.
-/
import FreshTag.CommandLine.Usage
import FreshTag.Database.Address
import FreshTag.Database.Exchange
import FreshTag.Etag.HttpDate
import FreshTag.Service.Run
import FreshTag.Telemetry.Filter
import FreshTag.Telemetry.Line

namespace FreshTag.Main

open FreshTag.Database (Incoming Request)
open FreshTag.Service (Running Signal)

/-- The streams of the program. -/
structure Terminal where
  /-- what came in while a reply was awaited -/
  inbox : IO.Ref (List Incoming)
  /-- how many records of the log were looked at -/
  written : IO.Ref Nat
  filter : Log.Filter
  form : Settings.LogForm

/-- Waits for a reply and puts what comes before it into the inbox. -/
partial def awaitReply (terminal : Terminal) : IO (Except String (List Json.Value)) := do
  let line ← (← IO.getStdin).getLine
  if line.isEmpty then return .error "the connection was closed"
  match Incoming.ofLine? line with
  | some (.rows rows) => return .ok rows
  | some (.refused cause) => return .error cause
  | some incoming =>
    terminal.inbox.modify (· ++ [incoming])
    awaitReply terminal
  | none => return .error "a reply was not understood"

/-- Sends a request and waits for the reply. -/
def ask (terminal : Terminal) (r : Request) : IO (Except String (List Json.Value)) := do
  let output ← IO.getStdout
  output.putStrLn r.line
  output.flush
  awaitReply terminal

/-- The database at the other end of the streams. -/
def database (terminal : Terminal) : Database IO :=
  .ofReplies (ask terminal)

/-- The signal of a line that came in, unless it is a reply that nobody awaits. -/
def signal? (terminal : Terminal) : Incoming → IO (Option Signal)
  | .payload payload second =>
    return some (.wake (.notification payload (HttpDate.text second)))
  | .disconnected => return some (.wake (← Listener.reconnect (database terminal)))
  | .rows _ | .refused _ => return none

/-- What comes in next: first what the inbox holds; none at the end of the input. -/
partial def nextIncoming (terminal : Terminal) : IO (Option Incoming) := do
  match ← terminal.inbox.get with
  | incoming :: rest =>
    terminal.inbox.set rest
    return some incoming
  | [] =>
    let line ← (← IO.getStdin).getLine
    if line.isEmpty then return none
    match Incoming.ofLine? line with
    | some incoming => return some incoming
    | none => nextIncoming terminal

/-- The next signal; the end of the input tells the program to stop. -/
partial def nextSignal (terminal : Terminal) : IO Signal := do
  match ← nextIncoming terminal with
  | none => return .terminate
  | some incoming =>
    match ← signal? terminal incoming with
    | some signal => return signal
    | none => nextSignal terminal

/-- Writes the records that are new and that the filter shows. -/
def writeLog (terminal : Terminal) (t : Telemetry) : IO Unit := do
  for r in t.log.drop (← terminal.written.get) do
    if terminal.filter.shows r then
      IO.eprintln (match terminal.form with
        | .json => r.json.text
        | .compact => r.words)
  terminal.written.set t.log.length

/-- What the service reaches through the streams; it cannot reach a Redis server. -/
def surroundings (terminal : Terminal) : Service.Surroundings IO where
  connect url _ :=
    return if (Database.Address.ofText? url).isSome then .ok () else .error "a bad address"
  database := database terminal
  redis _ _ _ := return .error (.unavailable "no connection to a server")

/-- Takes signals until the program stops. -/
partial def takeSignals (terminal : Terminal) (r : Running) : IO Running := do
  writeLog terminal r.telemetry
  match r.take (← nextSignal terminal) with
  | (r, true) => return r
  | (r, false) => takeSignals terminal r

/-- Serves until the end of the input. -/
def serve (terminal : Terminal) (settings : Settings) : Service.Setup IO Unit := do
  let s := surroundings terminal
  let running ← Service.startServing s settings
  Service.finish s (← (takeSignals terminal running : IO Running))

/-- The file of a name, if it is there. -/
def readFile? (name : String) : IO (Option (String × Settings.ConfigFile)) := do
  try
    return some (name, .ofText (← IO.FS.readFile name))
  catch _ => return none

/-- The variables of the environment that hold settings. -/
def environment : IO (List (String × String)) := do
  let values ← Settings.variableNames.mapM fun name => do return (name, ← IO.getEnv name)
  return values.filterMap fun (name, value) => value.map fun s => (name, s)

/-- The layers of settings for a command line. -/
def layersFor (arguments : CommandLine.Arguments) : IO Settings.Layers := do
  let paths := [Settings.basePath, Settings.sitePath] ++ arguments.configFile.toList
  let files ← (paths.flatMap Settings.fileNames).filterMapM readFile?
  return .ofFiles files arguments.configFile (← environment)

/-- Runs a command with its settings. -/
def runWith (command : CommandLine.Command) (settings : Settings) : IO UInt32 := do
  let directives ← IO.getEnv "FEATURETAG_LOG"
  let some filter := Log.Filter.ofSettings? settings.logging.threshold directives
    | return Service.noLogCode.toUInt32
  let terminal : Terminal :=
    { inbox := ← IO.mkRef [], written := ← IO.mkRef 0, filter, form := settings.logging.form }
  let steps := match command with
    | .serve => serve terminal settings
    | .cleanup => Service.cleanUp (surroundings terminal) settings
  let (code, t) ← Service.exitCode steps
  writeLog terminal t
  return code.toUInt32

end FreshTag.Main

open FreshTag in
/-- Reads the command line and the settings, and runs the command. -/
def main (words : List String) : IO UInt32 := do
  match CommandLine.parse (← IO.getEnv "FEATURETAG_CONFIG_FILE") words with
  | .error refusal =>
    if refusal.isMistake then IO.eprintln refusal.text else IO.println refusal.text
    return refusal.exitCode.toUInt32
  | .ok arguments =>
    match Settings.load (← Main.layersFor arguments) arguments.overrides with
    | .error cause =>
      IO.eprintln (Service.Error.settings cause).message
      return 1
    | .ok settings => Main.runWith (arguments.command.getD .serve) settings
