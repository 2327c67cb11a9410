import ChatClient.Decode

/-!
# Messages

A conversation is a list of messages. A message of the assistant may ask for
functions to be called; in a stream such a call arrives in fragments, which are
messages of the same type with most fields empty. Every field may be absent.
-/

namespace ChatClient

/-- The author of a message. -/
inductive Role where
  | system
  | user
  | assistant
  | tool
  deriving DecidableEq, Repr

namespace Role

/-- All roles. -/
def all : List Role := [.system, .user, .assistant, .tool]

/-- The name of a role as it is sent. -/
def name : Role → String
  | .system => "system"
  | .user => "user"
  | .assistant => "assistant"
  | .tool => "tool"

/-- The role of a name. -/
def ofName? (name : String) : Option Role := all.find? (·.name = name)

/-- A role, given by its name and by nothing else. -/
def decode : Decoder Role
  | .str name =>
    match ofName? name with
    | some role => .value role
    | none => .defect .unknownName
  | _ => .defect .unknownName

end Role

/-- What is called: the name of a function and the text of its arguments. -/
structure FunctionCall where
  name : Option String
  arguments : Option String
  deriving DecidableEq, Repr

namespace FunctionCall

/-- The call of a JSON object. -/
def decode : Decoder FunctionCall :=
  .record fun fields =>
    FunctionCall.mk
      <$> fields.optional "name" Decoder.text
      <*> fields.optional "arguments" Decoder.text

/-- The JSON object of a call. -/
def dump (nulls : NullFields) (call : FunctionCall) : Json :=
  nulls.record [("name", call.name.map .str), ("arguments", call.arguments.map .str)]

end FunctionCall

/-- A tool call, or one fragment of it. Only fragments carry an index; those
with the same index belong to the same call. -/
structure ToolCall where
  index : Option Int
  id : Option String
  type : Option String
  function : Option FunctionCall
  deriving DecidableEq, Repr

namespace ToolCall

/-- The tool call of a JSON object. -/
def decode : Decoder ToolCall :=
  .record fun fields =>
    ToolCall.mk
      <$> fields.optional "index" Decoder.int
      <*> fields.optional "id" Decoder.text
      <*> fields.optional "type" Decoder.text
      <*> fields.optional "function" FunctionCall.decode

/-- The JSON object of a tool call. -/
def dump (nulls : NullFields) (call : ToolCall) : Json :=
  nulls.record
    [("index", call.index.map .int), ("id", call.id.map .str), ("type", call.type.map .str),
      ("function", call.function.map (·.dump nulls))]

/-- The call as it is sent back in a request. -/
def withoutIndex (call : ToolCall) : ToolCall := { call with index := none }

end ToolCall

/-- The content of a message: a text, or a list of parts of any kind. -/
inductive Content where
  | text (value : String)
  | parts (items : List Json)
  deriving DecidableEq, Repr

namespace Content

/-- The content of a JSON value. -/
def decode : Decoder Content := fun value =>
  .orElse (.text, text <$> Decoder.text value) (.list, parts <$> Decoder.list Decoder.any value)

/-- The JSON value of a content. -/
def dump : Content → Json
  | .text s => .str s
  | .parts items => .arr (items.map Json.finite)

end Content

/-- A message of a conversation, or a fragment of one. -/
structure Message where
  content : Option Content
  role : Option Role
  name : Option String
  toolCallId : Option String
  toolCalls : Option (List ToolCall)
  deriving DecidableEq, Repr

namespace Message

/-- The message of a JSON object. -/
def decode : Decoder Message :=
  .record fun fields =>
    Message.mk
      <$> fields.optional "content" Content.decode
      <*> fields.optional "role" Role.decode
      <*> fields.optional "name" Decoder.text
      <*> fields.optional "tool_call_id" Decoder.text
      <*> fields.optional "tool_calls" (Decoder.list ToolCall.decode)

/-- The JSON object of a message. -/
def dump (nulls : NullFields) (message : Message) : Json :=
  nulls.record
    [("content", message.content.map Content.dump),
      ("role", message.role.map fun role => .str role.name),
      ("name", message.name.map .str),
      ("tool_call_id", message.toolCallId.map .str),
      ("tool_calls", message.toolCalls.map fun calls => .arr (calls.map (·.dump nulls)))]

/-- A message with a role and a text, and nothing else. -/
def say (role : Role) (text : String) : Message :=
  ⟨some (.text text), some role, none, none, none⟩

/-- The message as it is sent back in a request: without the indexes that only
fragments carry. -/
def withoutIndexes (message : Message) : Message :=
  { message with toolCalls := message.toolCalls.map (·.map ToolCall.withoutIndex) }

end Message

end ChatClient
