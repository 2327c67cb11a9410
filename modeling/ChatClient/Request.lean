import ChatClient.Message
import ChatClient.Tool

/-!
# Requests

A request is built from a draft, whose parts may still be undecoded JSON values.
The presets fill in the sampling values that the service recommends.

What is sent differs from the dump of a request in three ways: null fields and
the indexes of tool calls are dropped, the stream flag is left to the call, and
`top_k`, which the transport does not know, travels in the extra body.
-/

namespace ChatClient

/-- The models that the service is known to offer. -/
inductive ChatModel where
  | baichuan4Turbo
  | baichuan4Air
  | baichuan4
  | baichuan3Turbo
  | baichuan3Turbo128k
  | baichuan2Turbo
  deriving DecidableEq, Repr

namespace ChatModel

/-- All known models. -/
def all : List ChatModel :=
  [.baichuan4Turbo, .baichuan4Air, .baichuan4, .baichuan3Turbo, .baichuan3Turbo128k,
    .baichuan2Turbo]

/-- The name of a model as it is sent. -/
def name : ChatModel → String
  | .baichuan4Turbo => "Baichuan4-Turbo"
  | .baichuan4Air => "Baichuan4-Air"
  | .baichuan4 => "Baichuan4"
  | .baichuan3Turbo => "Baichuan3_turbo"
  | .baichuan3Turbo128k => "Baichuan3-turbo-128k"
  | .baichuan2Turbo => "Baichuan2_Turbo"

/-- The model of a name. -/
def ofName? (name : String) : Option ChatModel := all.find? (·.name = name)

/-- The name of the model that is used where none is given. -/
def default : String := baichuan4Air.name

end ChatModel

/-- What is asked of the service. -/
structure Request where
  messages : List Message
  model : Option String
  stream : Option Bool
  temperature : Option Binary64
  topP : Option Binary64
  topK : Option Int
  maxTokens : Option Int
  tools : Option (List OfferedTool)
  toolChoice : Option Json
  deriving DecidableEq, Repr

/-- Messages that are decoded already, or a JSON value that holds them. -/
inductive OfferedMessages where
  | records (messages : List Message)
  | value (value : Json)
  deriving DecidableEq, Repr

/-- Tools that are listed already, or a JSON value that holds them. -/
inductive OfferedTools where
  | tools (tools : List OfferedTool)
  | value (value : Json)
  deriving DecidableEq, Repr

/-- The parts of a request as they are given. A part that is not given takes
its default. -/
structure RequestDraft where
  messages : Option OfferedMessages := none
  model : Option Json := none
  stream : Option Json := none
  temperature : Option Json := none
  topP : Option Json := none
  topK : Option Json := none
  maxTokens : Option Json := none
  tools : Option OfferedTools := none
  toolChoice : Option Json := none
  deriving DecidableEq, Repr

namespace RequestDraft

/-- The draft that a JSON object gives. -/
def ofMembers (fields : Members) : RequestDraft where
  messages := (fields.get? "messages").map .value
  model := fields.get? "model"
  stream := fields.get? "stream"
  temperature := fields.get? "temperature"
  topP := fields.get? "top_p"
  topK := fields.get? "top_k"
  maxTokens := fields.get? "max_tokens"
  tools := (fields.get? "tools").map .value
  toolChoice := fields.get? "tool_choice"

/-- The temperature of a plain request, 0.3. -/
def presetTemperature : Binary64 := .ofDecimal false 3 (-1)

/-- The `top_p` of every preset, 0.85. -/
def presetTopP : Json := .float (.ofDecimal false 85 (-2))

/-- The `top_k` of every preset. -/
def presetTopK : Json := .int 5

/-- A plain request. -/
def plain (messages : List Message) (model : Json := .str ChatModel.default)
    (temperature : Json := .float presetTemperature) (stream : Json := .bool false) :
    RequestDraft where
  messages := some (.records messages)
  model := some model
  stream := some stream
  temperature := some temperature
  topP := some presetTopP
  topK := some presetTopK

/-- A request that offers tools. -/
def withTools (messages : List Message) (model : Json) (tools : OfferedTools)
    (toolChoice : Json := .null) : RequestDraft where
  messages := some (.records messages)
  model := some model
  topP := some presetTopP
  topK := some presetTopK
  tools := some tools
  toolChoice := some toolChoice

/-- A request for a stream. -/
def streaming (messages : List Message) (stream : Json := .bool true) : RequestDraft where
  messages := some (.records messages)
  stream := some stream
  topP := some presetTopP
  topK := some presetTopK

/-- The messages of a draft. -/
def decodeMessages : Option OfferedMessages → Decoded (List Message)
  | some (.records messages) => .value messages
  | some (.value value) => (Decoder.list Message.decode value).under (.name "messages")
  | none => (Decoded.defect .missing).under (.name "messages")

/-- A list of tools of any kind. -/
def decodeToolList : Decoder (List OfferedTool) := fun value =>
  List.map OfferedTool.value <$> Decoder.list Decoder.any value

/-- The tools of a draft. -/
def decodeTools : Option OfferedTools → Decoded (Option (List OfferedTool))
  | some (.tools tools) => .value (some tools)
  | some (.value value) => (Decoder.nullable decodeToolList value).under (.name "tools")
  | none => .value none

/-- A part that may be `null`. -/
def part {α : Type} (name : String) (decode : Decoder α) (value : Option Json) :
    Decoded (Option α) :=
  Decoder.given name none (Decoder.nullable decode) value

/-- The request of a draft. -/
def decode (draft : RequestDraft) : Decoded Request :=
  Request.mk
    <$> decodeMessages draft.messages
    <*> Decoder.given "model" (some ChatModel.default) (Decoder.nullable Decoder.text) draft.model
    <*> part "stream" Decoder.flag draft.stream
    <*> part "temperature" Decoder.number draft.temperature
    <*> part "top_p" Decoder.number draft.topP
    <*> part "top_k" (Decoder.intFrom 0) draft.topK
    <*> part "max_tokens" Decoder.int draft.maxTokens
    <*> decodeTools draft.tools
    <*> part "tool_choice" Decoder.any draft.toolChoice

end RequestDraft

namespace Request

/-- The request of a JSON object. -/
def decode : Decoder Request := .record fun fields => (RequestDraft.ofMembers fields).decode

/-- The fields of a request. -/
def fields (nulls : NullFields) (request : Request) : List (String × Option Json) :=
  [("messages", some (.arr (request.messages.map (·.dump nulls)))),
    ("model", request.model.map .str), ("stream", request.stream.map .bool),
    ("temperature", request.temperature.map .float), ("top_p", request.topP.map .float),
    ("top_k", request.topK.map .int), ("max_tokens", request.maxTokens.map .int),
    ("tools", request.tools.map fun tools => .arr (tools.map (·.dump nulls))),
    ("tool_choice", request.toolChoice.map Json.finite)]

/-- The JSON object of a request. -/
def dump (nulls : NullFields) (request : Request) : Json :=
  nulls.record (request.fields nulls)

/-- The part of a request that goes into the body of a call by name. -/
def sent (request : Request) : Request :=
  { request with
    messages := request.messages.map Message.withoutIndexes
    stream := none
    topK := none }

/-- The arguments of the call that sends a request. -/
def callArguments (request : Request) : Members :=
  NullFields.omitted.members (request.sent.fields .omitted) ++
    match request.topK with
    | some k => [("extra_body", .obj [("top_k", .int k)])]
    | none => []

/-- The arguments of the call that opens a stream. -/
def streamArguments (request : Request) : Members :=
  ("stream", .bool true) :: request.callArguments

end Request

/-- The options of a conversation, from which each of its requests is built. -/
structure ChatOptions where
  model : String
  temperature : Option Binary64
  topP : Option Binary64
  topK : Option Int
  maxTokens : Option Int
  tools : Option (List OfferedTool)
  toolChoice : Option Json
  deriving DecidableEq, Repr

namespace ChatOptions

/-- The temperature of a conversation that sets none, 0.7. -/
def defaultTemperature : Binary64 := .ofDecimal false 7 (-1)

/-- The options of a JSON object, with tools that are listed already in the
place of its own. -/
def ofFields (fields : Members) (tools : Option OfferedTools) : Decoded ChatOptions :=
  ChatOptions.mk
    <$> fields.withDefault "model" ChatModel.default Decoder.text
    <*> fields.withDefault "temperature" (some defaultTemperature)
      (Decoder.nullable Decoder.number)
    <*> fields.optional "top_p" Decoder.number
    <*> fields.optional "top_k" Decoder.int
    <*> fields.optional "max_tokens" Decoder.int
    <*> RequestDraft.decodeTools tools
    <*> fields.optional "tool_choice" Decoder.any

/-- The options of a JSON object. -/
def decode : Decoder ChatOptions :=
  .record fun fields => ofFields fields ((fields.get? "tools").map .value)

/-- The JSON object of options. -/
def dump (nulls : NullFields) (options : ChatOptions) : Json :=
  nulls.record
    [("model", some (.str options.model)), ("temperature", options.temperature.map .float),
      ("top_p", options.topP.map .float), ("top_k", options.topK.map .int),
      ("max_tokens", options.maxTokens.map .int),
      ("tools", options.tools.map fun tools => .arr (tools.map (·.dump nulls))),
      ("tool_choice", options.toolChoice.map Json.finite)]

/-- The draft of a request with these options. Tools are given as plain values,
with their null fields. -/
def draft (options : ChatOptions) (messages : List Message) (stream : Json) : RequestDraft where
  messages := some (.records messages)
  model := some (.str options.model)
  stream := some stream
  temperature := some (.ofOption (options.temperature.map .float))
  topP := some (.ofOption (options.topP.map .float))
  topK := some (.ofOption (options.topK.map .int))
  maxTokens := some (.ofOption (options.maxTokens.map .int))
  tools := some (.value (.ofOption (options.tools.map fun tools => .arr (tools.map (·.plain)))))
  toolChoice := some (.ofOption options.toolChoice)

/-- The request with these options. -/
def toRequest (options : ChatOptions) (messages : List Message)
    (stream : Json := .bool false) : Decoded Request :=
  (options.draft messages stream).decode

end ChatOptions

/-- Whether conversations are offered, and with which options. -/
structure ChatProperties where
  enabled : Bool
  options : ChatOptions
  deriving DecidableEq, Repr

namespace ChatProperties

/-- The options that no setting changes. -/
def defaultOptions : ChatOptions :=
  ⟨ChatModel.default, some ChatOptions.defaultTemperature, none, none, none, none, none⟩

/-- The properties that no setting changes. -/
def default : ChatProperties := ⟨true, defaultOptions⟩

/-- The properties of a JSON object. -/
def decode : Decoder ChatProperties :=
  .record fun fields =>
    ChatProperties.mk
      <$> fields.withDefault "enabled" true Decoder.flag
      <*> fields.withDefault "options" defaultOptions ChatOptions.decode

/-- The JSON object of properties. -/
def dump (nulls : NullFields) (properties : ChatProperties) : Json :=
  nulls.record
    [("enabled", some (.bool properties.enabled)),
      ("options", some (properties.options.dump nulls))]

end ChatProperties

end ChatClient
