import ChatClient.Chunk

/-!
# Merging chunks

Merging folds one chunk into another. Identity fields keep their first value,
texts are concatenated in the order of arrival, finish reason and usage take
their latest value. Only the first choice is merged; further choices are those
of the later chunk.

Fragments of tool calls are matched by key: their index, or their position in
the chunk when they carry none. A slot table says where the call of a key
stands; it is built from the calls merged so far and grows while the fragments
of one chunk are placed.
-/

namespace ChatClient

/-- Two texts one after the other; a missing one is empty, unless both are missing. -/
def concat? : Option String → Option String → Option String
  | none, none => none
  | previous, current => some (previous.getD "" ++ current.getD "")

namespace Content

/-- A content as a list of parts; a text is one part. -/
def asParts : Content → List Json
  | .text s => [.str s]
  | .parts items => items

/-- Two contents one after the other. Texts stay a text; once there are parts,
everything is a part. -/
def merge : Option Content → Option Content → Option Content
  | none, none => none
  | some (.text a), none => some (.text a)
  | none, some (.text b) => some (.text b)
  | some (.text a), some (.text b) => some (.text (a ++ b))
  | previous, current =>
    some (.parts ((previous.map asParts).getD [] ++ (current.map asParts).getD []))

end Content

namespace FunctionCall

/-- Two fragments of one call. -/
def merge : Option FunctionCall → Option FunctionCall → Option FunctionCall
  | none, none => none
  | previous, current =>
    some
      { name := (previous.bind name).or (current.bind name)
        arguments := concat? (previous.bind arguments) (current.bind arguments) }

end FunctionCall

namespace ToolCall

/-- Two fragments of one tool call. -/
def merge (previous current : ToolCall) : ToolCall where
  index := previous.index.or current.index
  id := previous.id.or current.id
  type := previous.type.or current.type
  function := FunctionCall.merge previous.function current.function

/-- What a fragment at a position of its chunk is matched by. -/
def key (fragment : ToolCall) (position : Nat) : Int := fragment.index.getD position

end ToolCall

/-- Calls merged so far, and for keys the position of their call. Of two entries
with one key the first counts. -/
structure SlotTable where
  calls : List ToolCall
  slots : List (Int × Nat)
  deriving DecidableEq, Repr

namespace SlotTable

/-- The table of a list of calls: of two calls with one key, the last has the slot. -/
def ofCalls (calls : List ToolCall) : SlotTable where
  calls
  slots := (calls.zipIdx.map fun (call, position) => (call.key position, position)).reverse

/-- A fragment is merged into the call of its key, or becomes a call of its own. -/
def place (table : SlotTable) (fragment : ToolCall) (position : Nat) : SlotTable :=
  let key := fragment.key position
  match table.slots.lookup key with
  | some slot => { table with calls := table.calls.modify slot (·.merge fragment) }
  | none =>
    { calls := table.calls ++ [fragment]
      slots := (key, table.calls.length) :: table.slots }

/-- All fragments of a chunk are placed, in their order. -/
def placeAll (table : SlotTable) (fragments : List ToolCall) : SlotTable :=
  fragments.zipIdx.foldl (fun table (fragment, position) => table.place fragment position) table

end SlotTable

namespace ToolCall

/-- The calls after the fragments of another chunk. -/
def mergeAll : Option (List ToolCall) → Option (List ToolCall) → Option (List ToolCall)
  | none, current => current
  | some [], current => current
  | some (call :: calls), none => some (call :: calls)
  | some (call :: calls), some [] => some (call :: calls)
  | some (call :: calls), some (fragment :: fragments) =>
    some ((SlotTable.ofCalls (call :: calls)).placeAll (fragment :: fragments)).calls

end ToolCall

namespace Message

/-- Two fragments of one message. -/
def merge : Option Message → Option Message → Option Message
  | none, current => current
  | some previous, none => some previous
  | some previous, some current =>
    some
      { content := Content.merge previous.content current.content
        role := previous.role.or current.role
        name := previous.name.or current.name
        toolCallId := previous.toolCallId.or current.toolCallId
        toolCalls := ToolCall.mergeAll previous.toolCalls current.toolCalls }

end Message

namespace ChunkChoice

/-- Two fragments of one choice: the latest reason and usage win. -/
def merge (previous current : ChunkChoice) : ChunkChoice where
  index := previous.index.or current.index
  delta := Message.merge previous.delta current.delta
  finishReason := current.finishReason.or previous.finishReason
  usage := current.usage.or previous.usage

/-- The choices after those of another chunk. -/
def mergeAll :
    Option (List ChunkChoice) → Option (List ChunkChoice) → Option (List ChunkChoice)
  | none, current => current
  | some [], current => current
  | some (choice :: choices), none => some (choice :: choices)
  | some (choice :: choices), some [] => some (choice :: choices)
  | some (previous :: _), some (current :: further) => some (previous.merge current :: further)

end ChunkChoice

namespace Chunk

/-- A chunk with the next one folded into it. -/
def merge (accumulated incoming : Chunk) : Chunk where
  id := accumulated.id.or incoming.id
  object := accumulated.object.or incoming.object
  created := accumulated.created.or incoming.created
  model := accumulated.model.or incoming.model
  choices := ChunkChoice.mergeAll accumulated.choices incoming.choices

/-- All chunks of a window in one, folded from the chunk that says nothing. -/
def reduce (window : List Chunk) : Chunk := window.foldl merge empty

/-- A window is reduced part by part. -/
theorem reduce_append (first second : List Chunk) :
    reduce (first ++ second) = second.foldl merge (reduce first) := by
  simp [reduce, List.foldl_append]

/-- The empty chunk is neutral on the left. -/
theorem merge_empty_left (chunk : Chunk) : merge empty chunk = chunk := by
  simp [merge, empty, ChunkChoice.mergeAll]

end Chunk

end ChatClient
