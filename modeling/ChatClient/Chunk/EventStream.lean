import ChatClient.Chunk.Window
import ChatClient.Record.Depth

/-!
# Event streams

Chunks are handed on as server-sent events of one data line each. A last event
that is no chunk says that the stream is complete. A chunk whose content is too
deep to be written ends the stream before that.
-/

namespace ChatClient

namespace Chunk

/-- The compact text of a chunk, without its null fields. -/
def text (chunk : Chunk) : Except Failure String :=
  RecordKind.chunk.written (chunk.dump .omitted)

/-- The event of a chunk: one data line, ended by a blank line. -/
def event (chunk : Chunk) : Except Failure String :=
  chunk.text.map fun text => "data: " ++ text ++ "\n\n"

end Chunk

/-- The event that ends a complete stream. -/
def doneEvent : String := "data: [DONE]\n\n"

/-- Events, and what kept them from being complete. -/
structure EventStream where
  events : List String
  failure : Option Failure
  deriving DecidableEq, Repr

/-- The events of a stream, up to the first chunk that cannot be written. -/
def eventStream : List Chunk → EventStream
  | [] => ⟨[doneEvent], none⟩
  | chunk :: chunks =>
    match chunk.event with
    | .error failure => ⟨[], some failure⟩
    | .ok event =>
      let rest := eventStream chunks
      ⟨event :: rest.events, rest.failure⟩

end ChatClient
