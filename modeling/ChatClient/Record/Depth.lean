import ChatClient.Failure
import ChatClient.Json.Depth

/-!
# Depths of records

Some fields of records take values of any form: the parts of a content, tools, the choice
among them, and the parameters of a function. A dump in JSON follows such a value down to a
limit and is refused if there is more below it. Where a record is written as text, a
content counts as one such value, and not each of its parts. A record may stand in the
place of a value of any form. It counts as one level, and its fields as none, so its own
values of any form lie right below it. What the program keeps to itself is dumped without
a limit.
-/

namespace ChatClient.RecordKind

open Json (PathStep)

/-- The depth to which a value of any form is followed. -/
def greatestDepth : Nat := 255

/-- What a dump in JSON is made for. -/
inductive DumpForm where
  | value
  | text
  deriving DecidableEq, Repr

/-- The paths to the values of any form in a message. -/
def messagePaths : DumpForm → List (List PathStep)
  | .value => [[.member "content", .each]]
  | .text => [[.member "content"]]

/-- The paths to the values of any form in the description of a function. -/
def functionPaths : List (List PathStep) := [[.member "parameters", .each]]

/-- The paths to the values of any form in options. -/
def optionPaths : List (List PathStep) :=
  [[.member "tools", .each], [.member "tool_choice"]]

/-- The paths to the values of any form in a record. -/
def freePaths (form : DumpForm) : RecordKind → List (List PathStep)
  | .message => messagePaths form
  | .request => (messagePaths form).map ([.member "messages", .each] ++ ·) ++ optionPaths
  | .choice => (messagePaths form).map (.member "message" :: ·)
  | .completion =>
    (messagePaths form).map ([.member "choices", .each, .member "message"] ++ ·)
  | .chunkChoice => (messagePaths form).map (.member "delta" :: ·)
  | .chunk => (messagePaths form).map ([.member "choices", .each, .member "delta"] ++ ·)
  | .toolFunction => functionPaths
  | .functionTool => functionPaths.map (.member "function" :: ·)
  | .chatOptions => optionPaths
  | .chatProperties => optionPaths.map (.member "options" :: ·)
  | .settings => optionPaths.map ([.member "chat", .member "options"] ++ ·)
  | .functionCall | .toolCall | .usage | .cite | .mark | .markedText | .knowledgeBase
  | .retrieval | .retrievalTool | .webSearch | .webSearchTool => []

/-- The values of any form in a dump. -/
def freeParts (kind : RecordKind) (form : DumpForm) (dump : Json) : List Json :=
  (kind.freePaths form).flatMap dump.partsAlong

/-- A dump does not go deeper than it is followed. -/
def isWithinDepth (kind : RecordKind) (form : DumpForm) (dump : Json) : Bool :=
  (kind.freeParts form dump).all fun value => value.depth ≤ greatestDepth

/-- A dump in JSON as a value, if it is not too deep. -/
def dumped (kind : RecordKind) (dump : Json) : Except Failure Json :=
  if kind.isWithinDepth .value dump then .ok dump else .error .tooDeep

/-- A dump in JSON as text, if it is not too deep. Floats that JSON has no text for are
`null`. -/
def written (kind : RecordKind) (dump : Json) : Except Failure String :=
  if kind.isWithinDepth .value dump && kind.isWithinDepth .text dump then
    .ok dump.finite.compact
  else .error .tooDeepForText

end ChatClient.RecordKind

namespace ChatClient

/-- The kind of a tool record. -/
def ToolRecord.kind : ToolRecord → RecordKind
  | .function _ => .toolFunction
  | .functionTool _ => .functionTool
  | .retrieval _ => .retrieval
  | .retrievalTool _ => .retrievalTool
  | .webSearch _ => .webSearch
  | .webSearchTool _ => .webSearchTool

/-- The depth of a record in the place of a value of any form: one more than the deepest of
its own values of any form. -/
def ToolRecord.depth (record : ToolRecord) : Nat :=
  1 + Json.depthOfItems (record.kind.freeParts .value (record.dump .shown))

/-- The depth of an offered tool. -/
def OfferedTool.depth : OfferedTool → Nat
  | .value given => given.depth
  | .record described => described.depth

namespace Request

/-- How deep the values of any form in a request are. -/
def freeDepths (request : Request) : List Nat :=
  (request.messages.flatMap fun message =>
      RecordKind.message.freeParts .value (message.dump .omitted)).map Json.depth ++
    (request.tools.getD []).map OfferedTool.depth ++ request.toolChoice.toList.map Json.depth

/-- The request is not too deep to be sent. -/
def isSendable (request : Request) : Bool :=
  request.freeDepths.all (· ≤ RecordKind.greatestDepth)

/-- The dump of a request in JSON as a value, if it is not too deep. -/
def dumped (nulls : NullFields) (request : Request) : Except Failure Json :=
  if request.isSendable then .ok (request.dump nulls) else .error .tooDeep

end Request

end ChatClient
