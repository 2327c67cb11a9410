import ChatClient.Completion

/-!
# Chunks

A streamed completion arrives as a sequence of chunks. Each holds, for every
choice, the fragment of the message that is new. All chunks of one completion
share their identity fields.
-/

namespace ChatClient

/-- The fragment of one choice. -/
structure ChunkChoice where
  index : Option Int
  delta : Option Message
  finishReason : Option FinishReason
  usage : Option Usage
  deriving DecidableEq, Repr

namespace ChunkChoice

/-- The fragment of a JSON object. -/
def decode : Decoder ChunkChoice :=
  .record fun fields =>
    ChunkChoice.mk
      <$> fields.optional "index" Decoder.int
      <*> fields.optional "delta" Message.decode
      <*> FinishReason.field fields
      <*> fields.optional "usage" Usage.decode

/-- The JSON object of a fragment. -/
def dump (nulls : NullFields) (choice : ChunkChoice) : Json :=
  nulls.record
    [("index", choice.index.map .int), ("delta", choice.delta.map (·.dump nulls)),
      ("finish_reason", choice.finishReason.map FinishReason.dump),
      ("usage", choice.usage.map (·.dump nulls))]

end ChunkChoice

/-- One event of a streamed completion. -/
structure Chunk where
  id : Option String
  object : Option String
  created : Option Int
  model : Option String
  choices : Option (List ChunkChoice)
  deriving DecidableEq, Repr

namespace Chunk

/-- The chunk that says nothing. -/
def empty : Chunk := ⟨none, none, none, none, none⟩

/-- The chunk of a JSON object. -/
def decode : Decoder Chunk :=
  .record fun fields =>
    Chunk.mk
      <$> fields.optional "id" Decoder.text
      <*> fields.optional "object" Decoder.text
      <*> fields.optional "created" Decoder.int
      <*> fields.optional "model" Decoder.text
      <*> fields.optional "choices" (Decoder.list ChunkChoice.decode)

/-- The JSON object of a chunk. -/
def dump (nulls : NullFields) (chunk : Chunk) : Json :=
  nulls.record
    [("id", chunk.id.map .str), ("object", chunk.object.map .str),
      ("created", chunk.created.map .int), ("model", chunk.model.map .str),
      ("choices", chunk.choices.map fun choices => .arr (choices.map (·.dump nulls)))]

/-- The first choice of a chunk, the only one that streaming looks at. -/
def firstChoice? (chunk : Chunk) : Option ChunkChoice :=
  chunk.choices.bind List.head?

/-- The fragments of tool calls in the first choice of a chunk. -/
def fragments (chunk : Chunk) : List ToolCall :=
  ((chunk.firstChoice?.bind ChunkChoice.delta).bind Message.toolCalls).getD []

end Chunk

end ChatClient
