import ChatClient.Decode
import ChatClient.Json.Nesting
import ChatClient.Json.Writer

/-!
# Tools

The tools that a request offers: functions of the caller, retrieval from
knowledge bases, and web search. A function is described by a JSON schema for
its parameters, which may be given as a text.
-/

namespace ChatClient

/-- A function that the model may ask for. -/
structure ToolFunction where
  description : Option String
  name : String
  parameters : Members
  deriving DecidableEq, Repr

namespace ToolFunction

/-- The function of a record with the given fields. -/
def ofFields (fields : Members) : Decoded ToolFunction :=
  ToolFunction.mk
    <$> fields.optional "description" Decoder.text
    <*> fields.required "name" Decoder.text
    <*> fields.withDefault "parameters" [] Decoder.object

/-- The function of a JSON object. -/
def decode : Decoder ToolFunction := .record ofFields

/-- The JSON object of a function. -/
def dump (nulls : NullFields) (function : ToolFunction) : Json :=
  nulls.record
    [("description", function.description.map .str), ("name", some (.str function.name)),
      ("parameters", some (.obj (Json.finiteMembers function.parameters)))]

/-- The function whose parameters are described by a schema text. The text is
read before anything is decoded, and its containers must not be nested too deep. -/
def ofSchema (description name : Json) (schema : String) :
    Except Json.ReadError (Decoded ToolFunction) := do
  let parameters ← Json.readNested schema
  return ofFields [("description", description), ("name", name), ("parameters", parameters)]

end ToolFunction

/-- The tool that offers a function. -/
structure FunctionTool where
  type : String
  function : ToolFunction
  deriving DecidableEq, Repr

namespace FunctionTool

/-- The tool of a JSON object. -/
def decode : Decoder FunctionTool :=
  .record fun fields =>
    FunctionTool.mk
      <$> fields.withDefault "type" "function" Decoder.text
      <*> fields.required "function" ToolFunction.decode

/-- The JSON object of a tool. -/
def dump (nulls : NullFields) (tool : FunctionTool) : Json :=
  nulls.record [("type", some (.str tool.type)), ("function", some (tool.function.dump nulls))]

end FunctionTool

/-- Where to look for an answer, and what to do when nothing is found. -/
structure Retrieval where
  knowledgeBases : List String
  answerMode : Option String
  deriving DecidableEq, Repr

namespace Retrieval

/-- The retrieval of a JSON object. -/
def decode : Decoder Retrieval :=
  .record fun fields =>
    Retrieval.mk
      <$> fields.required "kb_ids" (Decoder.list Decoder.text)
      <*> fields.optional "answer_mode" Decoder.text

/-- The JSON object of a retrieval. -/
def dump (nulls : NullFields) (retrieval : Retrieval) : Json :=
  nulls.record
    [("kb_ids", some (.arr (retrieval.knowledgeBases.map .str))),
      ("answer_mode", retrieval.answerMode.map .str)]

end Retrieval

/-- The tool that offers retrieval. -/
structure RetrievalTool where
  type : String
  retrieval : Retrieval
  deriving DecidableEq, Repr

namespace RetrievalTool

/-- The tool of a JSON object. -/
def decode : Decoder RetrievalTool :=
  .record fun fields =>
    RetrievalTool.mk
      <$> fields.withDefault "type" "retrieval" Decoder.text
      <*> fields.required "retrieval" Retrieval.decode

/-- The JSON object of a tool. -/
def dump (nulls : NullFields) (tool : RetrievalTool) : Json :=
  nulls.record [("type", some (.str tool.type)), ("retrieval", some (tool.retrieval.dump nulls))]

end RetrievalTool

/-- Whether the model may search the web, and how. -/
structure WebSearch where
  enable : Bool
  searchMode : String
  deriving DecidableEq, Repr

namespace WebSearch

/-- The search mode where none is given. -/
def defaultMode : String := "performance_first"

/-- The flag of a search, off where it is `null`. -/
def decodeEnable : Decoder Bool
  | .null => .value false
  | value => Decoder.flag value

/-- The mode of a search, the default one where it is `null` or blank. Anything else than
a text is written as one to see that, which fails for an integer of too many digits. -/
def decodeMode : Decoder String
  | .null => .value defaultMode
  | .str mode => .value (if Text.isBlankText mode then defaultMode else mode)
  | value => if value.isShowable then Decoder.text value else .defect .unshowable

/-- The web search of a JSON object. -/
def decode : Decoder WebSearch :=
  .record fun fields =>
    WebSearch.mk
      <$> fields.withDefault "enable" false decodeEnable
      <*> fields.withDefault "search_mode" defaultMode decodeMode

/-- The JSON object of a web search. -/
def dump (nulls : NullFields) (search : WebSearch) : Json :=
  nulls.record
    [("enable", some (.bool search.enable)), ("search_mode", some (.str search.searchMode))]

end WebSearch

/-- The tool that offers web search. -/
structure WebSearchTool where
  type : String
  webSearch : WebSearch
  deriving DecidableEq, Repr

namespace WebSearchTool

/-- The tool of a JSON object. -/
def decode : Decoder WebSearchTool :=
  .record fun fields =>
    WebSearchTool.mk
      <$> fields.withDefault "type" "web_search" Decoder.text
      <*> fields.required "web_search" WebSearch.decode

/-- The JSON object of a tool. -/
def dump (nulls : NullFields) (tool : WebSearchTool) : Json :=
  nulls.record
    [("type", some (.str tool.type)), ("web_search", some (tool.webSearch.dump nulls))]

end WebSearchTool

/-- A record that describes a tool or a part of one. -/
inductive ToolRecord where
  | function (record : ToolFunction)
  | functionTool (record : FunctionTool)
  | retrieval (record : Retrieval)
  | retrievalTool (record : RetrievalTool)
  | webSearch (record : WebSearch)
  | webSearchTool (record : WebSearchTool)
  deriving DecidableEq, Repr

namespace ToolRecord

/-- The JSON object of a record. -/
def dump (nulls : NullFields) : ToolRecord → Json
  | .function record => record.dump nulls
  | .functionTool record => record.dump nulls
  | .retrieval record => record.dump nulls
  | .retrievalTool record => record.dump nulls
  | .webSearch record => record.dump nulls
  | .webSearchTool record => record.dump nulls

end ToolRecord

/-- A tool as a caller may give it: a JSON value, which is sent as it is, or a
record, whose null fields are not sent. -/
inductive OfferedTool where
  | value (value : Json)
  | record (record : ToolRecord)
  deriving DecidableEq, Repr

namespace OfferedTool

/-- The JSON value of an offered tool. -/
def dump (nulls : NullFields) : OfferedTool → Json
  | .value given => given.finite
  | .record described => described.dump nulls

/-- The JSON value of an offered tool with all its null fields. -/
def plain : OfferedTool → Json
  | .value given => given
  | .record described => described.dump .shown

end OfferedTool

/-! ## Choosing a tool -/

namespace ToolChoice

/-- The model chooses between a message and a tool. -/
def auto : String := "auto"

/-- The model calls no tool. -/
def none : String := "none"

/-- The model calls the named function. -/
def function (name : Json) : Json :=
  .obj [("type", .str "function"), ("function", .obj [("name", name)])]

end ToolChoice

end ChatClient
