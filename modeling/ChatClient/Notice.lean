import ChatClient.Json.Display

/-!
# Notices

What the client reports while it works. A notice is a cause; its channel, its
severity and its wording follow from it.
-/

namespace ChatClient

/-- The severities of log records, with the numbers that order them. -/
inductive Severity where
  | debug
  | info
  | warning
  | error
  | critical
  deriving DecidableEq, Repr

namespace Severity

/-- All severities, mildest first. -/
def all : List Severity := [.debug, .info, .warning, .error, .critical]

/-- The number of a severity. -/
def number : Severity → Int
  | .debug => 10
  | .info => 20
  | .warning => 30
  | .error => 40
  | .critical => 50

/-- The name of a severity. -/
def name : Severity → String
  | .debug => "DEBUG"
  | .info => "INFO"
  | .warning => "WARNING"
  | .error => "ERROR"
  | .critical => "CRITICAL"

end Severity

/-- What the client reports. -/
inductive Notice where
  /-- A finish reason outside the known ones was read as absent. -/
  | unknownFinishReason (value : Json)
  /-- A completion is asked for in one piece. -/
  | completionRequested (model : Option String)
  /-- A completion is asked for as a stream. -/
  | streamRequested (model : Option String)
  /-- The chunks of one tool call are about to be merged. -/
  | callMerged (chunks : Nat)
  /-- A line of a settings file was skipped. -/
  | lineSkipped (line : Nat)
  deriving DecidableEq, Repr

namespace Notice

/-- The channel on which a notice is reported. -/
def channel : Notice → String
  | .unknownFinishReason _ => "baichuan.completion"
  | .completionRequested _ | .streamRequested _ => "baichuan.provider"
  | .callMerged _ => "baichuan.streaming"
  | .lineSkipped _ => "dotenv.main"

/-- How serious a notice is. -/
def severity : Notice → Severity
  | .unknownFinishReason _ | .lineSkipped _ => .warning
  | .completionRequested _ | .streamRequested _ | .callMerged _ => .debug

/-- A model as a notice names it. -/
def modelName (model : Option String) : String := model.getD "None"

/-- The wording of a notice. -/
def message : Notice → String
  | .unknownFinishReason value => s!"Unknown finish_reason {value.shown}, treating as null"
  | .completionRequested model => "Chat completion request for model " ++ modelName model
  | .streamRequested model =>
    "Streaming chat completion request for model " ++ modelName model
  | .callMerged chunks => s!"Merging {chunks} chunks of a streamed tool call"
  | .lineSkipped line => s!"python-dotenv could not parse statement starting at line {line}"

/-- A notice on one line: channel, severity and wording. -/
def line (notice : Notice) : String :=
  s!"{notice.channel}:{notice.severity.name}:{notice.message}"

end Notice

end ChatClient
