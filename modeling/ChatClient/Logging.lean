import ChatClient.Logging.Level
import ChatClient.Text.Lines

/-!
# Logging

Records go to the handlers that a setup has attached. The first setup that finds
no handlers attaches its own and then sets the level; a setup that finds handlers
changes nothing, though its log file is created. Without handlers, records from
warnings on go to the console as bare messages. Whether a log file can be opened is
for the system to say.
-/

namespace ChatClient

/-- What is logged, on which channel and how serious it is. -/
structure LogRecord where
  channel : String
  level : LogLevel
  message : String
  deriving DecidableEq, Repr

namespace LogRecord

/-- The record of a notice. -/
def ofNotice (notice : Notice) : LogRecord where
  channel := notice.channel
  level := .ofSeverity notice.severity
  message := notice.message

/-- The channel that a value names. What counts as nothing names the outermost one. -/
def channelOf : Json → Except Failure String
  | .str name => .ok name
  | value => if value.isFalsy then .ok "" else .error .channelNotText

/-- The level that a value gives a record. -/
def levelOf (value : Json) : Except Failure LogLevel :=
  match LogLevel.ofJson? value with
  | some level => .ok level
  | none => .error .levelNotInteger

/-- The record that is asked for by values. Any value can be its message. -/
def ofValues (channel level message : Json) : Except Failure LogRecord := do
  let channel ← channelOf channel
  let level ← levelOf level
  return ⟨channel, level, message.told⟩

/-- The name of the channel, which the outermost one has too. -/
def channelName (record : LogRecord) : String :=
  if record.channel.isEmpty then "root" else record.channel

/-- A record in one line, without the time. -/
def line (record : LogRecord) : String :=
  s!"{record.channelName}:{record.level.name}:{record.message}"

end LogRecord

/-- What a log shows of a record: the time and the record, or its message alone. -/
inductive LogEntry where
  | stamped (record : LogRecord)
  | bare (message : String)
  deriving DecidableEq, Repr

namespace LogEntry

/-- The text of an entry, where the time is given. -/
def text (time : String) : LogEntry → String
  | .stamped record => s!"{time}:{record.line}\n"
  | .bare message => message ++ "\n"

/-- The lines of an entry, without the time. -/
def lines : LogEntry → List String
  | .stamped record => Text.lines (record.line ++ "\n")
  | .bare message => Text.lines (message ++ "\n")

end LogEntry

/-- What the system says when a log file is to be opened: the name of the file to which
the path leads, or why it cannot be opened. -/
abbrev LogDisk := String → Except OutsideFault String

/-- Where records go. -/
inductive LogHandler where
  | console
  | file (name : String)
  deriving DecidableEq, Repr

/-- The state of logging: the least level that is shown, the handlers, and the files
with the records that were added to them. -/
structure Logging where
  level : LogLevel
  handlers : List LogHandler
  files : Entries (List LogRecord)
  deriving DecidableEq, Repr

namespace Logging

/-- The pattern of a line, as it is documented. -/
def linePattern : String := "%(asctime)s:%(name)s:%(levelname)s:%(message)s"

/-- The pattern of a time, as it is documented. -/
def timePattern : String := "%Y-%m-%d %H:%M:%S"

/-- Nothing has been set up, and nothing was added to the files that are there. -/
def initial (files : List String) : Logging where
  level := .ofSeverity .warning
  handlers := []
  files := files.map fun name => (name, [])

/-- The level of a setup that gives none. -/
def defaultLevel : Json := .int Severity.info.number

/-! ## Setup -/

/-- The handlers of a setup, and the files with its own, which is created. What counts
as nothing asks for no file. -/
def prepare (disk : LogDisk) (files : Entries (List LogRecord)) (file : Json) :
    Except Failure (List LogHandler × Entries (List LogRecord)) :=
  if file.isFalsy then .ok ([.console], files)
  else
    match file with
    | .str path =>
      match disk path with
      | .ok name =>
        .ok ([.console, .file name], files.set name ((files.get? name).getD []))
      | .error fault => .error (.outside fault)
    | value => .error (.fileNotText value)

/-- A setup, with the level and the log file that it asks for. -/
def setup (logging : Logging) (disk : LogDisk) (level file : Json) :
    Logging × Except Failure Unit :=
  match prepare disk logging.files file with
  | .error failure => (logging, .error failure)
  | .ok (handlers, files) =>
    if logging.handlers.isEmpty then
      match logging.level.choose level with
      | .ok level => (⟨level, handlers, files⟩, .ok ())
      | .error failure => ({ logging with handlers, files }, .error failure)
    else ({ logging with files }, .ok ())

/-- A setup with a list of arguments: the level and the file, which may be missing. -/
def configure (logging : Logging) (disk : LogDisk) : List Json → Logging × Except Failure Unit
  | [] => logging.setup disk defaultLevel .null
  | [level] => logging.setup disk level .null
  | [level, file] => logging.setup disk level file
  | arguments => (logging, .error (.setupArguments arguments.length))

/-! ## Records -/

/-- A record is shown from the level of the logging on, if it has a level at all. -/
def isShown (logging : Logging) (record : LogRecord) : Bool :=
  0 < record.level.value && logging.level.value ≤ record.level.value

/-- The log files with a record that goes to one handler. -/
def write (files : Entries (List LogRecord)) (record : LogRecord) :
    LogHandler → Entries (List LogRecord)
  | .console => files
  | .file name => files.set name ((files.get? name).getD [] ++ [record])

/-- What one handler shows on the console. -/
def shownBy (record : LogRecord) : LogHandler → Option LogEntry
  | .console => some (.stamped record)
  | .file _ => none

/-- A record is logged. -/
def log (logging : Logging) (record : LogRecord) : Logging × List LogEntry :=
  if !logging.isShown record then (logging, [])
  else if logging.handlers.isEmpty then
    (logging, if Severity.warning.number ≤ record.level.value then [.bare record.message] else [])
  else
    ({ logging with
        files := logging.handlers.foldl (write · record ·) logging.files },
      logging.handlers.filterMap (shownBy record))

/-- Notices are logged, in their order. -/
def report (logging : Logging) : List Notice → Logging × List LogEntry
  | [] => (logging, [])
  | notice :: notices =>
    let (logging, first) := logging.log (.ofNotice notice)
    let (logging, rest) := logging.report notices
    (logging, first ++ rest)

end Logging

end ChatClient
