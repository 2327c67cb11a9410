import ChatClient.Chunk.EventStream
import ChatClient.Exchange.Journal

/-!
# Streamed exchanges

A stream is driven by its reader: nothing happens before the first item is asked
for, and events are taken from the service only until the next item is complete.
Every way in which a stream can come to its end closes the stream of the service:
its last event, an event that is no chunk, a failure of the service, and a reader
who stops early.
-/

namespace ChatClient

/-- What the service does with the call that opens a stream: it refuses it, or
hands over events one by one and perhaps breaks off after them. -/
inductive Opening where
  | refused (message : String)
  | accepted (events : List Json) (failure : Option String)
  deriving DecidableEq, Repr

namespace Opening

/-- The number of events that are handed over. -/
def eventCount : Opening → Nat
  | .refused _ => 0
  | .accepted events _ => events.length

end Opening

/-- What a reader gets who asks for an item. -/
inductive Answer (α : Type) where
  | item (value : α)
  | ended
  | failed (failure : Failure)
  deriving DecidableEq, Repr

/-- How far a stream has been read. -/
inductive Phase where
  /-- No item has been asked for. -/
  | fresh
  /-- These events are still to come, after the chunks of an open window. -/
  | reading (events : List Json) (failure : Option String) (window : OpenWindow)
  /-- The stream of the service is closed. -/
  | over
  deriving DecidableEq, Repr

/-- A stream of merged chunks. -/
structure ChatStream where
  request : Request
  opening : Opening
  phase : Phase
  deriving DecidableEq, Repr

namespace ChatStream

/-- The stream that a request asks for. -/
def start (request : Request) (opening : Opening) : Except Failure ChatStream :=
  if request.stream = some true then .ok ⟨request, opening, .fresh⟩ else .error .mustStream

/-- Events are taken until a window is complete. -/
def advance (failure : Option String) : OpenWindow → List Json → Answer Chunk × Journal × Phase
  | window, [] =>
    match failure, window.rest? with
    | some message, _ => (.failed (.service message), .closed, .over)
    | none, some chunks =>
      (.item (Chunk.reduce chunks), .closed ++ .noted (Chunk.mergeNotice chunks), .over)
    | none, none => (.ended, .closed, .over)
  | window, event :: events =>
    let decoded := Chunk.decode event
    match decoded.outcome with
    | .error problems =>
      (.failed (.invalid .chunk problems), .noted decoded.notices ++ .closed, .over)
    | .ok chunk =>
      match window.push chunk with
      | (some chunks, window) =>
        (.item (Chunk.reduce chunks),
          .noted decoded.notices ++ .noted (Chunk.mergeNotice chunks),
          .reading events failure window)
      | (none, window) =>
        let (answer, journal, phase) := advance failure window events
        (answer, .noted decoded.notices ++ journal, phase)

/-- The first item. It makes the call, if the request can be sent. -/
def first (request : Request) (opening : Opening) : Answer Chunk × Journal × Phase :=
  if request.isSendable then
    let called := Journal.noted [.streamRequested request.model] ++
      Journal.call request.streamArguments
    match opening with
    | .refused message => (.failed (.service message), called, .over)
    | .accepted events failure =>
      let (answer, journal, phase) := advance failure .start events
      (answer, called ++ journal, phase)
  else (.failed .tooDeep, .empty, .over)

/-- The next item. -/
def next (stream : ChatStream) : Answer Chunk × Journal × ChatStream :=
  match stream.phase with
  | .fresh =>
    let (answer, journal, phase) := first stream.request stream.opening
    (answer, journal, { stream with phase })
  | .reading events failure window =>
    let (answer, journal, phase) := advance failure window events
    (answer, journal, { stream with phase })
  | .over => (.ended, .empty, stream)

/-- The reader stops. -/
def close (stream : ChatStream) : Journal :=
  match stream.phase with
  | .reading .. => .closed
  | .fresh | .over => .empty

end ChatStream

/-- A stream handed on as events, and whether its last event has been given. -/
structure EventReader where
  source : ChatStream
  complete : Bool
  deriving DecidableEq, Repr

namespace EventReader

/-- The events of a stream. -/
def start (source : ChatStream) : EventReader := ⟨source, false⟩

/-- The next event. When the chunks have come to their end, the last event follows.
A chunk that cannot be written is the end of the events, but not of the chunks. -/
def next (reader : EventReader) : Answer String × Journal × EventReader :=
  if reader.complete then (.ended, .empty, reader)
  else
    match reader.source.next with
    | (.item chunk, journal, source) =>
      match chunk.event with
      | .ok event => (.item event, journal, ⟨source, false⟩)
      | .error failure => (.failed failure, journal, ⟨source, true⟩)
    | (.ended, journal, source) => (.item doneEvent, journal, ⟨source, true⟩)
    | (.failed failure, journal, source) => (.failed failure, journal, ⟨source, true⟩)

/-- The reader stops. -/
def close (reader : EventReader) : Journal := reader.source.close

end EventReader

/-! ## Readers -/

/-- How a reading came to its end. -/
inductive Ending where
  | ended
  | failed (failure : Failure)
  /-- The reader had as many items as were wanted. -/
  | stopped
  deriving DecidableEq, Repr

/-- What a reader got. -/
structure Reading (α : Type) where
  items : List α
  ending : Ending
  journal : Journal
  deriving DecidableEq, Repr

/-- Reads up to a number of items and then closes. -/
def readUpTo {σ α : Type} (next : σ → Answer α × Journal × σ) (close : σ → Journal) :
    Nat → σ → Reading α
  | 0, source => ⟨[], .stopped, close source⟩
  | count + 1, source =>
    match next source with
    | (.item value, journal, source) =>
      let rest := readUpTo next close count source
      ⟨value :: rest.items, rest.ending, journal ++ rest.journal⟩
    | (.ended, journal, source) => ⟨[], .ended, journal ++ close source⟩
    | (.failed failure, journal, source) => ⟨[], .failed failure, journal ++ close source⟩

namespace ChatStream

/-- Reads up to a number of chunks, or all of them. A stream has at most one
chunk per event, so one more than that reaches the end. -/
def read (stream : ChatStream) (wanted : Option Nat) : Reading Chunk :=
  readUpTo next close (wanted.getD (stream.opening.eventCount + 1)) stream

end ChatStream

namespace EventReader

/-- Reads up to a number of events, or all of them, the last one included. -/
def read (reader : EventReader) (wanted : Option Nat) : Reading String :=
  readUpTo next close (wanted.getD (reader.source.opening.eventCount + 2)) reader

end EventReader

end ChatClient
