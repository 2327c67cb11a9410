import ChatClient.Console.Conversation
import Std.Time.Format

/-!
# The console program

Reads settings from the environment and from the environment file, and holds a
conversation on the standard streams. The replies of the service come from a
recording with one JSON object per line: `events` with the events of a stream and
perhaps `fail` with the message of a break after them, or `raise` with the
message of a refused call.
-/

namespace ChatClient.Console

/-- The name of the recording. -/
def recordingFile : String := "replies.jsonl"

/-- The text of a file, if it can be read. -/
def readText? (path : String) : IO (Option String) := do
  try
    return some (← IO.FS.readFile path)
  catch _ => return none

/-- The variable of an entry `NAME=VALUE`. -/
def variableOf (entry : String) : Option (String × String) :=
  let name := entry.toList.takeWhile (· ≠ '=')
  match entry.toList.dropWhile (· ≠ '=') with
  | _ :: value => some (String.ofList name, String.ofList value)
  | [] => none

/-- The variables that the program was started with. -/
def readEnvironment : IO Environment := do
  let text ← readText? "/proc/self/environ"
  return ((text.getD "").splitOn "\x00").filterMap variableOf

/-- The reply that a line of the recording describes. -/
def recorded? (line : String) : Option Opening :=
  match Json.read line with
  | .ok (.obj fields) =>
    match Entries.get? fields "raise", Entries.get? fields "events" with
    | some (.str message), _ => some (.refused message)
    | _, some (.arr events) =>
      some (.accepted events (match Entries.get? fields "fail" with
        | some (.str message) => some message
        | _ => none))
    | _, _ => none
  | _ => none

/-- What the system says about a log file, which is opened once for that. -/
def openLogFile (path : String) : IO (Except OutsideFault String) := do
  try
    IO.FS.withFile path .append fun _ => pure ()
    return .ok (← IO.FS.realPath path).toString
  catch fault => return .error ⟨"OSError", some fault.toString⟩

/-- The system as the console finds it. A log file is opened only if settings can be
loaded, and the recorded replies ask for no more than a key. -/
def readPlatform (sources : SettingsSources) (arguments : Arguments) : IO Platform := do
  match (sources.load []).outcome, arguments.logFile with
  | .ok _, some path =>
    let answer ← openLogFile path
    return ⟨fun _ => answer, .keyed⟩
  | _, _ => return ⟨.ok, .keyed⟩

/-- The time that log lines carry. -/
def timeStamp : IO String := do
  let now ← Std.Time.PlainDateTime.now
  return now.format "uuuu-MM-dd HH:mm:ss"

/-- Log entries are shown, and written to the log files. -/
def showEntries (handlers : List LogHandler) (entries : List LogEntry) : IO Unit := do
  let time ← timeStamp
  let text := String.join (entries.map (·.text time))
  IO.eprint text
  for handler in handlers do
    match handler with
    | .console => pure ()
    | .file name => IO.FS.withFile name .append fun file => file.putStr text

/-- What is said about a failure. -/
def failureText (failure : Failure) : String :=
  failure.message?.getD "The value is not valid."

/-- The conversation, line by line, until the input or the service ends it. -/
partial def interact (input : IO.FS.Stream) (conversation : Conversation)
    (replies : List Opening) : IO UInt32 := do
  IO.print prompt
  (← IO.getStdout).flush
  let line ← input.getLine
  if line.isEmpty then
    IO.print farewell
    return 0
  let line := if line.endsWith "\n" then (line.dropEnd 1).toString else line
  let (turn, conversation) := conversation.turn line (replies.head?.getD noReply)
  IO.print turn.output
  showEntries conversation.logging.handlers turn.entries
  match turn.failure with
  | some failure =>
    IO.eprintln (failureText failure)
    return 1
  | none => interact input conversation replies.tail

end ChatClient.Console

open ChatClient Console in
/-- Runs the console with the given arguments. -/
def main (arguments : List String) : IO UInt32 := do
  match Invocation.ofArguments arguments with
  | .help =>
    IO.print (String.join (helpLines.map (· ++ "\n")))
    return 0
  | .refused message =>
    IO.eprint (String.join ((refusalLines message).map (· ++ "\n")))
    return 2
  | .run arguments =>
    let sources : SettingsSources := ⟨← readEnvironment, ← readText? SettingsRules.environmentFile⟩
    let start := start (← readPlatform sources arguments) sources arguments
    showEntries [] start.entries
    match start.outcome with
    | .error failure =>
      IO.eprintln (failureText failure)
      return 1
    | .ok conversation =>
      showEntries conversation.logging.handlers []
      IO.print greeting
      let recording ← readText? recordingFile
      let replies := (inputLines (recording.getD "")).filterMap recorded?
      interact (← IO.getStdin) conversation replies
