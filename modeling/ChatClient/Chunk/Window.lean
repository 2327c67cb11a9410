import ChatClient.Chunk.Merge

/-!
# Windows

A stream of chunks is cut into windows. A chunk whose first choice carries
arguments of a tool call opens a window, which a chunk with a tool-call finish
reason closes; outside of a call every chunk is a window of its own. A stream
that ends inside a call leaves its last window open.

Merging a stream gives one chunk per window, so a tool call arrives whole.
-/

namespace ChatClient

namespace ToolCall

/-- The fragment carries arguments, if only empty ones. -/
def hasArguments (call : ToolCall) : Bool :=
  (call.function.bind FunctionCall.arguments).isSome

end ToolCall

namespace Chunk

/-- The chunk carries arguments of a tool call. -/
def startsCall (chunk : Chunk) : Bool := chunk.fragments.any ToolCall.hasArguments

/-- The chunk says that the model has finished a tool call. -/
def finishesCall (chunk : Chunk) : Bool :=
  ((chunk.firstChoice?.bind ChunkChoice.finishReason).map FinishReason.isToolCall).getD false

end Chunk

/-- Whether the stream is inside a tool call. -/
structure WindowState where
  inside : Bool
  deriving DecidableEq, Repr

namespace WindowState

/-- Before the first chunk. -/
def outside : WindowState := ⟨false⟩

/-- The state after a chunk, and whether the chunk closes its window. -/
def advance (state : WindowState) (chunk : Chunk) : WindowState × Bool :=
  let inside := state.inside || chunk.startsCall
  if inside && chunk.finishesCall then (outside, true) else (⟨inside⟩, !inside)

end WindowState

/-- The chunks of the window that is being read, last first, and the state
after them. -/
structure OpenWindow where
  state : WindowState
  chunks : List Chunk
  deriving DecidableEq, Repr

namespace OpenWindow

/-- No chunk has been read. -/
def start : OpenWindow := ⟨.outside, []⟩

/-- The window with one more chunk, which is given out if the chunk closes it. -/
def push (window : OpenWindow) (chunk : Chunk) : Option (List Chunk) × OpenWindow :=
  let chunks := chunk :: window.chunks
  match window.state.advance chunk with
  | (state, true) => (some chunks.reverse, ⟨state, []⟩)
  | (state, false) => (none, ⟨state, chunks⟩)

/-- The window at the end of the stream, if it holds anything. -/
def rest? (window : OpenWindow) : Option (List Chunk) :=
  if window.chunks.isEmpty then none else some window.chunks.reverse

end OpenWindow

namespace Chunk

/-- The windows of a stream that continues an open window. -/
def windowsFrom (window : OpenWindow) : List Chunk → List (List Chunk)
  | [] => window.rest?.toList
  | chunk :: chunks =>
    let (closed, window) := window.push chunk
    closed.toList ++ windowsFrom window chunks

/-- The windows of a stream. -/
def windows (chunks : List Chunk) : List (List Chunk) := windowsFrom .start chunks

/-- One chunk per window of a stream. -/
def mergeStream (chunks : List Chunk) : List Chunk := (windows chunks).map reduce

/-- The notice that goes with the merging of a window, if it is more than a chunk. -/
def mergeNotice (window : List Chunk) : List Notice :=
  if 1 < window.length then [.callMerged window.length] else []

/-! ## Merging while reading -/

/-- What a chunk leaves behind where every chunk is merged as soon as it is
read: the state, whether a window closed, and the merge of its chunks so far. -/
structure Trace where
  state : WindowState
  closes : Bool
  merged : Chunk
  deriving DecidableEq, Repr

/-- The traces of a stream, from a state and the merge of the window so far.
After a window has closed, the merge begins anew. -/
def traces (state : WindowState) (merged : Chunk) : List Chunk → List Trace
  | [] => []
  | chunk :: chunks =>
    let (state, closes) := state.advance chunk
    let merged := merged.merge chunk
    ⟨state, closes, merged⟩ :: traces state (if closes then empty else merged) chunks

end Chunk

end ChatClient
