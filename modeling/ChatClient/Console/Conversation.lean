import ChatClient.Console.Arguments
import ChatClient.Exchange.Stream
import ChatClient.Logging
import ChatClient.Settings.Load

/-!
# Conversations on the console

In a conversation, every line of the user makes one turn: it is added to the
history, the history is sent, and the reply is shown while it arrives and then
added to the history too. A failure ends the conversation.

The service is given by its replies: the first call gets the first one, the next
call the next one, and there is none after the last.
-/

namespace ChatClient.Console

/-! ## What is shown -/

/-- A text, or the word for a missing one. -/
def orNone (text : Option String) : String := text.getD "None"

/-- A line for every tool call that has a function. -/
def callLines (calls : List ToolCall) : List String :=
  calls.filterMap fun call =>
    call.function.map fun function =>
      s!"[tool call] {orNone function.name}({orNone function.arguments})"

/-- What a chunk adds to the reply: the text in its first choice. -/
def replyText (chunk : Chunk) : String :=
  match (chunk.firstChoice?.bind ChunkChoice.delta).bind Message.content with
  | some (.text s) => s
  | _ => ""

/-- What is shown of a chunk: its text, and then its tool calls. -/
def shownText (chunk : Chunk) : String :=
  replyText chunk ++
    String.join ((callLines chunk.fragments).map fun line => "\n" ++ line ++ "\n")

/-- The reply that chunks add up to. -/
def reply (chunks : List Chunk) : String := String.join (chunks.map replyText)

/-! ## Options -/

/-- The schema of the weather tool: an object with the name of a city. -/
def weatherParameters : Members :=
  [("type", .str "object"), ("properties", .obj [("city", .obj [("type", .str "string")])]),
    ("required", .arr [.str "city"])]

/-- The tool that the console offers. -/
def weatherTool : FunctionTool where
  type := "function"
  function :=
    { description := some "Get the current weather in a given city."
      name := "get_weather"
      parameters := weatherParameters }

/-- The options with a model that the arguments name, if its name is not empty. -/
def withModel (options : ChatOptions) : Option String → ChatOptions
  | none => options
  | some model => if model.isEmpty then options else { options with model }

/-- The options with the weather tool, for the model to use or not. -/
def withWeather (options : ChatOptions) : ChatOptions :=
  { options with
    tools := some [.value (weatherTool.dump .omitted)]
    toolChoice := some (.str ToolChoice.auto) }

/-- The options that the arguments ask for. -/
def chosenOptions (options : ChatOptions) (arguments : Arguments) : ChatOptions :=
  let options := withModel options arguments.model
  if arguments.tools then withWeather options else options

/-! ## Turns -/

/-- A conversation between two turns. -/
structure Conversation where
  options : ChatOptions
  history : List Message
  logging : Logging
  deriving DecidableEq, Repr

/-- What a turn left behind. -/
structure Turn where
  output : String
  entries : List LogEntry
  calls : List Members
  closes : Nat
  failure : Option Failure
  deriving Repr

namespace Conversation

/-- The conversation with a message added to its history. -/
def add (conversation : Conversation) (role : Role) (text : String) : Conversation :=
  { conversation with history := conversation.history ++ [.say role text] }

/-- The request that the history makes. -/
def request (conversation : Conversation) : Except Failure Request :=
  (conversation.options.toRequest conversation.history (.bool true)).check .request

/-- The turn in which a request is answered. -/
def answer (conversation : Conversation) (stream : ChatStream) : Turn × Conversation :=
  let reading := stream.read none
  let (logging, entries) := conversation.logging.report reading.journal.notices
  let conversation := { conversation with logging }
  let shown := "Assistant: " ++ String.join (reading.items.map shownText)
  let turn (output : String) (failure : Option Failure) : Turn :=
    ⟨output, entries, reading.journal.calls, reading.journal.closes, failure⟩
  match reading.ending with
  | .failed failure => (turn shown (some failure), conversation)
  | .ended | .stopped =>
    (turn (shown ++ "\n\n") none, conversation.add .assistant (reply reading.items))

/-- The turn that a line of the user makes. -/
def turn (conversation : Conversation) (line : String) (opening : Opening) :
    Turn × Conversation :=
  let conversation := conversation.add .user line
  match conversation.request >>= (ChatStream.start · opening) with
  | .ok stream => conversation.answer stream
  | .error failure => (⟨"", [], [], 0, some failure⟩, conversation)

end Conversation

/-! ## Whole conversations -/

/-- How the console came to its end. -/
inductive Finish where
  | completed
  | exited (code : Nat)
  | failed (failure : Failure)
  deriving Repr

/-- What a run of the console left behind. -/
structure Transcript where
  output : String
  entries : List LogEntry
  calls : List Members
  /-- How often the stream of each call was closed. -/
  closes : List Nat
  files : Entries (List LogRecord)
  finish : Finish
  deriving Repr

/-- What is shown first. -/
def greeting : String := "Baichuan chat\n\n"

/-- What asks for a line. -/
def prompt : String := "You: "

/-- What is shown when no line follows. -/
def farewell : String := "\nGoodbye!\n"

/-- The reply to a call beyond the last one. -/
def noReply : Opening := .refused "no reply left"

/-- The conversation that the lines of the user make. -/
def converse (conversation : Conversation) : List String → List Opening → Transcript
  | [], _ =>
    ⟨prompt ++ farewell, [], [], [], conversation.logging.files, .completed⟩
  | line :: lines, replies =>
    let (turn, conversation) := conversation.turn line (replies.head?.getD noReply)
    match turn.failure with
    | some failure =>
      ⟨prompt ++ turn.output, turn.entries, turn.calls, [turn.closes],
        conversation.logging.files, .failed failure⟩
    | none =>
      let rest := converse conversation lines replies.tail
      { rest with
        output := prompt ++ turn.output ++ rest.output
        entries := turn.entries ++ rest.entries
        calls := turn.calls ++ rest.calls
        closes := turn.closes :: rest.closes }

/-! ## Starting -/

/-- What came of starting the console. -/
structure Start where
  entries : List LogEntry
  files : Entries (List LogRecord)
  outcome : Except Failure Conversation
  deriving Repr

/-- What the console runs on: where log files are, and what carries its requests. -/
structure Platform where
  disk : LogDisk
  transport : Transport

/-- Settings are loaded, logging is set up, and the endpoint is settled, before
anything is shown. -/
def start (platform : Platform) (sources : SettingsSources) (arguments : Arguments) : Start :=
  let loading := sources.load []
  let files := if sources.file.isSome then [SettingsRules.environmentFile] else []
  let (logging, entries) := (Logging.initial files).report loading.notices
  match loading.outcome with
  | .error failure => ⟨entries, logging.files, .error failure⟩
  | .ok settings =>
    let (logging, outcome) := logging.setup platform.disk (.str settings.logLevel)
      (.ofOption (arguments.logFile.map .str))
    let conversation : Conversation :=
      ⟨chosenOptions settings.chat.options arguments, [], logging⟩
    ⟨entries, logging.files, do
      outcome
      let _ ← settings.endpoint platform.transport sources.environment
      return conversation⟩

/-- A run of the console, with the lines of the user and the replies of the
service. -/
def run (platform : Platform) (sources : SettingsSources) (arguments lines : List String)
    (replies : List Opening) : Transcript :=
  match Invocation.ofArguments arguments with
  | .help => ⟨String.join (helpLines.map (· ++ "\n")), [], [], [], [], .exited 0⟩
  | .refused message =>
    ⟨"", (refusalLines message).map .bare, [], [], [], .exited 2⟩
  | .run arguments =>
    let start := start platform sources arguments
    match start.outcome with
    | .error failure => ⟨"", start.entries, [], [], start.files, .failed failure⟩
    | .ok conversation =>
      let rest := converse conversation lines replies
      { rest with
        output := greeting ++ rest.output
        entries := start.entries ++ rest.entries }

/-- The lines of a text. The last one need not be ended. -/
def inputLines (text : String) : List String :=
  match (text.splitOn "\n").reverse with
  | "" :: rest => rest.reverse
  | lines => lines.reverse

end ChatClient.Console
