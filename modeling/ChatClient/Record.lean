import ChatClient.Chunk
import ChatClient.Request
import ChatClient.Json.Writer

/-!
# Kinds of records

Every record type has a kind. A kind knows how its records are decoded and
dumped, so laws that hold for all of them can be stated once.
-/

namespace ChatClient

/-- The kinds of records. -/
inductive RecordKind where
  | functionCall
  | toolCall
  | message
  | usage
  | request
  | cite
  | mark
  | markedText
  | knowledgeBase
  | choice
  | completion
  | chunkChoice
  | chunk
  | toolFunction
  | functionTool
  | retrieval
  | retrievalTool
  | webSearch
  | webSearchTool
  | chatOptions
  | chatProperties
  | settings
  deriving DecidableEq, Repr

namespace RecordKind

/-- The dump of the record that a value decodes to. Settings are not decoded
from one value, so no value is one. -/
def redump (kind : RecordKind) (nulls : NullFields) (value : Json) : Decoded Json :=
  match kind with
  | .functionCall => FunctionCall.dump nulls <$> FunctionCall.decode value
  | .toolCall => ToolCall.dump nulls <$> ToolCall.decode value
  | .message => Message.dump nulls <$> Message.decode value
  | .usage => Usage.dump nulls <$> Usage.decode value
  | .request => Request.dump nulls <$> Request.decode value
  | .cite => Cite.dump nulls <$> Cite.decode value
  | .mark => Mark.dump nulls <$> Mark.decode value
  | .markedText => MarkedText.dump nulls <$> MarkedText.decode value
  | .knowledgeBase => KnowledgeBase.dump nulls <$> KnowledgeBase.decode value
  | .choice => Choice.dump nulls <$> Choice.decode value
  | .completion => Completion.dump nulls <$> Completion.decode value
  | .chunkChoice => ChunkChoice.dump nulls <$> ChunkChoice.decode value
  | .chunk => Chunk.dump nulls <$> Chunk.decode value
  | .toolFunction => ToolFunction.dump nulls <$> ToolFunction.decode value
  | .functionTool => FunctionTool.dump nulls <$> FunctionTool.decode value
  | .retrieval => Retrieval.dump nulls <$> Retrieval.decode value
  | .retrievalTool => RetrievalTool.dump nulls <$> RetrievalTool.decode value
  | .webSearch => WebSearch.dump nulls <$> WebSearch.decode value
  | .webSearchTool => WebSearchTool.dump nulls <$> WebSearchTool.decode value
  | .chatOptions => ChatOptions.dump nulls <$> ChatOptions.decode value
  | .chatProperties => ChatProperties.dump nulls <$> ChatProperties.decode value
  | .settings => .defect .notRecord

/-- The tool record that a value decodes to, for the kinds that describe tools. -/
def tool? (kind : RecordKind) (value : Json) : Option (Decoded ToolRecord) :=
  match kind with
  | .toolFunction => some (.function <$> ToolFunction.decode value)
  | .functionTool => some (.functionTool <$> FunctionTool.decode value)
  | .retrieval => some (.retrieval <$> Retrieval.decode value)
  | .retrievalTool => some (.retrievalTool <$> RetrievalTool.decode value)
  | .webSearch => some (.webSearch <$> WebSearch.decode value)
  | .webSearchTool => some (.webSearchTool <$> WebSearchTool.decode value)
  | _ => none

end RecordKind

end ChatClient
