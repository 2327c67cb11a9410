import ChatClient.Json.Writer
import ChatClient.Message

/-!
# Completions

The answer to a request that is not streamed: one or more choices, the count of
tokens, and the sources that the answer cites. A finish reason that is not known
is read as absent and reported, so a new reason never makes an answer unreadable, unless
it cannot be shown in the report.
-/

namespace ChatClient

/-- Why the model stopped. -/
inductive FinishReason where
  | stop
  | length
  | contentFilter
  | toolCalls
  | functionCall
  | toolCall
  deriving DecidableEq, Repr

namespace FinishReason

/-- All finish reasons. -/
def all : List FinishReason :=
  [.stop, .length, .contentFilter, .toolCalls, .functionCall, .toolCall]

/-- The name of a finish reason as it is sent. -/
def name : FinishReason → String
  | .stop => "stop"
  | .length => "length"
  | .contentFilter => "content_filter"
  | .toolCalls => "tool_calls"
  | .functionCall => "function_call"
  | .toolCall => "tool_call"

/-- The finish reason of a name. -/
def ofName? (name : String) : Option FinishReason := all.find? (·.name = name)

/-- The reason says that the model wants tools to be called. -/
def isToolCall : FinishReason → Bool
  | .toolCalls | .functionCall | .toolCall => true
  | .stop | .length | .contentFilter => false

/-- The finish reason of a JSON value. What is neither a known name, nor empty, nor `null`
is reported and dropped. The report shows it, which fails for an integer of too many
digits, as no text holds. -/
def decode : Decoder (Option FinishReason)
  | .null => .value none
  | .str "" => .value none
  | .str name =>
    match ofName? name with
    | some reason => .value (some reason)
    | none => (Decoded.value none).noting (.unknownFinishReason (.str name))
  | value =>
    if value.isShowable then (Decoded.value none).noting (.unknownFinishReason value)
    else .defect .unshowable

/-- The optional field that holds a finish reason. -/
def field (fields : Members) : Decoded (Option FinishReason) :=
  fields.withDefault "finish_reason" none decode

/-- The JSON value of a finish reason. -/
def dump (reason : FinishReason) : Json := .str reason.name

end FinishReason

/-- The tokens that a completion took. -/
structure Usage where
  promptTokens : Option Int
  totalTokens : Option Int
  completionTokens : Option Int
  deriving DecidableEq, Repr

namespace Usage

/-- The usage of a JSON object. -/
def decode : Decoder Usage :=
  .record fun fields =>
    Usage.mk
      <$> fields.optional "prompt_tokens" Decoder.int
      <*> fields.optional "total_tokens" Decoder.int
      <*> fields.optional "completion_tokens" Decoder.int

/-- The JSON object of a usage. -/
def dump (nulls : NullFields) (usage : Usage) : Json :=
  nulls.record
    [("prompt_tokens", usage.promptTokens.map .int),
      ("total_tokens", usage.totalTokens.map .int),
      ("completion_tokens", usage.completionTokens.map .int)]

/-- A count of tokens in a description. -/
def count (tokens : Option Int) : String :=
  match tokens with
  | some n => toString n
  | none => "None"

/-- A usage in one line. -/
def describe (usage : Usage) : String :=
  s!"Usage(prompt_tokens={count usage.promptTokens}, total_tokens={count usage.totalTokens}, " ++
    s!"completion_tokens={count usage.completionTokens})"

end Usage

/-- A document that an answer cites. -/
structure Cite where
  title : Option String
  fileId : Option String
  content : Option String
  deriving DecidableEq, Repr

namespace Cite

/-- The citation of a JSON object. -/
def decode : Decoder Cite :=
  .record fun fields =>
    Cite.mk
      <$> fields.optional "title" Decoder.text
      <*> fields.optional "file_id" Decoder.text
      <*> fields.optional "content" Decoder.text

/-- The JSON object of a citation. -/
def dump (nulls : NullFields) (cite : Cite) : Json :=
  nulls.record
    [("title", cite.title.map .str), ("file_id", cite.fileId.map .str),
      ("content", cite.content.map .str)]

end Cite

/-- A place in an answer, as a number or as the service wrote it. -/
inductive Offset where
  | number (offset : Int)
  | text (offset : String)
  deriving DecidableEq, Repr

namespace Offset

/-- The offset of a JSON value. A text stays a text, even one of digits. -/
def decode : Decoder Offset := fun value =>
  match value with
  | .str s => .value (.text s)
  | _ => .orElse (.integer, number <$> Decoder.int value) (.text, text <$> Decoder.text value)

/-- The JSON value of an offset. -/
def dump : Offset → Json
  | .number n => .int n
  | .text s => .str s

end Offset

/-- A mark in an answer that stands for a citation. -/
structure Mark where
  type : Option String
  text : Option String
  startIndex : Option Offset
  endIndex : Option Offset
  fileCitation : Option String
  deriving DecidableEq, Repr

namespace Mark

/-- The mark of a JSON object. -/
def decode : Decoder Mark :=
  .record fun fields =>
    Mark.mk
      <$> fields.optional "type" Decoder.text
      <*> fields.optional "text" Decoder.text
      <*> fields.optional "start_index" Offset.decode
      <*> fields.optional "end_index" Offset.decode
      <*> fields.optional "file_citation" Decoder.text

/-- The JSON object of a mark. -/
def dump (nulls : NullFields) (mark : Mark) : Json :=
  nulls.record
    [("type", mark.type.map .str), ("text", mark.text.map .str),
      ("start_index", mark.startIndex.map Offset.dump),
      ("end_index", mark.endIndex.map Offset.dump),
      ("file_citation", mark.fileCitation.map .str)]

end Mark

/-- An answer with its citation marks. -/
structure MarkedText where
  value : Option String
  marks : Option (List Mark)
  deriving DecidableEq, Repr

namespace MarkedText

/-- The marked answer of a JSON object. -/
def decode : Decoder MarkedText :=
  .record fun fields =>
    MarkedText.mk
      <$> fields.optional "value" Decoder.text
      <*> fields.optional "annotations" (Decoder.list Mark.decode)

/-- The JSON object of a marked answer. -/
def dump (nulls : NullFields) (text : MarkedText) : Json :=
  nulls.record
    [("value", text.value.map .str),
      ("annotations", text.marks.map fun marks => .arr (marks.map (·.dump nulls)))]

end MarkedText

/-- What an answer took from a knowledge base. -/
structure KnowledgeBase where
  cites : Option (List Cite)
  markedText : Option MarkedText
  deriving DecidableEq, Repr

namespace KnowledgeBase

/-- The knowledge base part of a JSON object. -/
def decode : Decoder KnowledgeBase :=
  .record fun fields =>
    KnowledgeBase.mk
      <$> fields.optional "cites" (Decoder.list Cite.decode)
      <*> fields.optional "cite_annotation" MarkedText.decode

/-- The JSON object of a knowledge base part. -/
def dump (nulls : NullFields) (base : KnowledgeBase) : Json :=
  nulls.record
    [("cites", base.cites.map fun cites => .arr (cites.map (·.dump nulls))),
      ("cite_annotation", base.markedText.map (·.dump nulls))]

end KnowledgeBase

/-- One answer of a completion. -/
structure Choice where
  index : Option Int
  message : Option Message
  finishReason : Option FinishReason
  deriving DecidableEq, Repr

namespace Choice

/-- The choice of a JSON object. -/
def decode : Decoder Choice :=
  .record fun fields =>
    Choice.mk
      <$> fields.optional "index" Decoder.int
      <*> fields.optional "message" Message.decode
      <*> FinishReason.field fields

/-- The JSON object of a choice. -/
def dump (nulls : NullFields) (choice : Choice) : Json :=
  nulls.record
    [("index", choice.index.map .int), ("message", choice.message.map (·.dump nulls)),
      ("finish_reason", choice.finishReason.map FinishReason.dump)]

end Choice

/-- The answer to a request. -/
structure Completion where
  id : Option String
  object : Option String
  created : Option Int
  model : Option String
  choices : Option (List Choice)
  usage : Option Usage
  knowledgeBase : Option KnowledgeBase
  deriving DecidableEq, Repr

namespace Completion

/-- The completion of a JSON object. -/
def decode : Decoder Completion :=
  .record fun fields =>
    Completion.mk
      <$> fields.optional "id" Decoder.text
      <*> fields.optional "object" Decoder.text
      <*> fields.optional "created" Decoder.int
      <*> fields.optional "model" Decoder.text
      <*> fields.optional "choices" (Decoder.list Choice.decode)
      <*> fields.optional "usage" Usage.decode
      <*> fields.optional "knowledge_base" KnowledgeBase.decode

/-- The JSON object of a completion. -/
def dump (nulls : NullFields) (completion : Completion) : Json :=
  nulls.record
    [("id", completion.id.map .str), ("object", completion.object.map .str),
      ("created", completion.created.map .int), ("model", completion.model.map .str),
      ("choices", completion.choices.map fun choices => .arr (choices.map (·.dump nulls))),
      ("usage", completion.usage.map (·.dump nulls)),
      ("knowledge_base", completion.knowledgeBase.map (·.dump nulls))]

end Completion

end ChatClient
