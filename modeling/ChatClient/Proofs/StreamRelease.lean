import ChatClient.Exchange.Stream

/-!
# Every stream is closed once

A stream that the service has opened is closed once, however it is read: to its
end, into a failure, or only in part. What carries this is one step: once an item
has been asked for, the next item followed by a stop has the same effects as a
stop at once. So the effects of a reading are those of its first item and a stop,
no matter how many items follow. A reader of the events of a stream has the
effects of a reader of its chunks.
-/

namespace ChatClient

namespace Journal

/-- The calls and closes of a journal, without its notices. -/
def effects (journal : Journal) : Journal := { journal with notices := [] }

@[simp] theorem effects_empty : empty.effects = empty := rfl

@[simp] theorem effects_closed : closed.effects = closed := rfl

@[simp] theorem effects_call (arguments : Members) :
    (call arguments).effects = call arguments := rfl

@[simp] theorem effects_noted (notices : List Notice) : (noted notices).effects = empty := rfl

@[simp] theorem effects_append (first second : Journal) :
    (first ++ second).effects = first.effects ++ second.effects := rfl

@[simp] theorem append_empty (journal : Journal) : journal ++ empty = journal := by
  show append journal empty = journal
  simp [append, empty]

@[simp] theorem empty_append (journal : Journal) : empty ++ journal = journal := by
  show append empty journal = journal
  simp [append, empty]

theorem append_assoc (first second third : Journal) :
    first ++ second ++ third = first ++ (second ++ third) := by
  show append (append first second) third = append first (append second third)
  simp only [append, List.append_assoc, Nat.add_assoc]

end Journal

/-! ## Readings of any kind -/

section Reading

variable {σ α : Type} {next : σ → Answer α × Journal × σ} {close : σ → Journal}

/-- One more item has the effects of a stop after it, if what follows has those of a stop. -/
theorem effects_readUpTo_succ {count : Nat} {source : σ}
    (hrest : (readUpTo next close count (next source).2.2).journal.effects =
      (close (next source).2.2).effects) :
    (readUpTo next close (count + 1) source).journal.effects =
      ((next source).2.1 ++ close (next source).2.2).effects := by
  rcases hnext : next source with ⟨answer, journal, source'⟩
  rw [hnext] at hrest
  cases answer with
  | item value => simp [readUpTo, hnext, hrest]
  | ended => simp [readUpTo, hnext]
  | failed failure => simp [readUpTo, hnext]

/-- Where an item and a stop have the effects of a stop, any number of items has. -/
theorem effects_readUpTo {started : σ → Prop}
    (hstep : ∀ source, started source → started (next source).2.2 ∧
      ((next source).2.1 ++ close (next source).2.2).effects = (close source).effects)
    (count : Nat) {source : σ} (hstarted : started source) :
    (readUpTo next close count source).journal.effects = (close source).effects := by
  induction count generalizing source with
  | zero => rfl
  | succ count ih =>
    obtain ⟨hnext, heffects⟩ := hstep source hstarted
    rw [effects_readUpTo_succ (ih hnext), heffects]

/-- A reading that asks for more items than there are left is not stopped by its reader. -/
theorem ending_readUpTo {left : σ → Nat}
    (hstep : ∀ source value, (next source).1 = .item value →
      left (next source).2.2 < left source)
    {count : Nat} {source : σ} (hcount : left source < count) :
    (readUpTo next close count source).ending ≠ .stopped := by
  induction count generalizing source with
  | zero => omega
  | succ count ih =>
    have hleft := hstep source
    rcases hnext : next source with ⟨answer, journal, source'⟩
    rw [hnext] at hleft
    cases answer with
    | item value =>
      have hless : left source' < left source := hleft value rfl
      have hrest : (readUpTo next close count source').ending ≠ .stopped := ih (by omega)
      simpa [readUpTo, hnext] using hrest
    | ended => simp [readUpTo, hnext]
    | failed failure => simp [readUpTo, hnext]

end Reading

namespace OpenWindow

/-- A window that is closed leaves nothing behind. -/
theorem chunks_of_push_eq_some {window next : OpenWindow} {chunk : Chunk} {closed : List Chunk}
    (hpush : window.push chunk = (some closed, next)) : next.chunks = [] := by
  unfold push at hpush
  split at hpush
  · simp only [Prod.mk.injEq] at hpush
    rw [← hpush.2]
  · simp at hpush

/-- A chunk that closes no window is held with the others. -/
theorem chunks_of_push_eq_none {window held : OpenWindow} {chunk : Chunk}
    (hpush : window.push chunk = (none, held)) : held.chunks = chunk :: window.chunks := by
  unfold push at hpush
  split at hpush
  · simp at hpush
  · simp only [Prod.mk.injEq] at hpush
    rw [← hpush.2]

end OpenWindow

namespace ChatStream

/-! ## One item -/

section Advance

variable {failure : Option String} {window : OpenWindow} {event : Json} {chunk : Chunk}

/-- An event that is no chunk ends the stream. -/
theorem advance_cons_of_error {problems : List Problem}
    (hevent : (Chunk.decode event).outcome = .error problems) (events : List Json) :
    advance failure window (event :: events) =
      (.failed (.invalid .chunk problems),
        .noted (Chunk.decode event).notices ++ .closed, .over) := by
  simp only [advance, hevent]

/-- A chunk that closes the window is the end of the item. -/
theorem advance_cons_of_closed {next : OpenWindow} {closed : List Chunk}
    (hevent : (Chunk.decode event).outcome = .ok chunk)
    (hpush : window.push chunk = (some closed, next)) (events : List Json) :
    advance failure window (event :: events) =
      (.item (Chunk.reduce closed),
        .noted (Chunk.decode event).notices ++ .noted (Chunk.mergeNotice closed),
        .reading events failure next) := by
  simp only [advance, hevent, hpush]

/-- After a chunk that closes no window the item is still to come. -/
theorem advance_cons_of_held {held : OpenWindow}
    (hevent : (Chunk.decode event).outcome = .ok chunk)
    (hpush : window.push chunk = (none, held)) (events : List Json) :
    advance failure window (event :: events) =
      ((advance failure held events).1,
        .noted (Chunk.decode event).notices ++ (advance failure held events).2.1,
        (advance failure held events).2.2) := by
  simp only [advance, hevent, hpush]

end Advance

variable (request : Request) (opening : Opening)

/-- An item has been asked for. -/
def Started (stream : ChatStream) : Prop := stream.phase ≠ .fresh

/-- Taking events for an item and stopping then closes the stream once, in whatever
way the item comes to its end. -/
theorem effects_advance (failure : Option String) (window : OpenWindow) (events : List Json) :
    (advance failure window events).2.2 ≠ .fresh ∧
      ((advance failure window events).2.1 ++
        close ⟨request, opening, (advance failure window events).2.2⟩).effects = .closed := by
  induction events generalizing window with
  | nil =>
    cases failure with
    | some message => simp [advance, close]
    | none => cases hrest : window.rest? <;> simp [advance, hrest, close]
  | cons event events ih =>
    cases hevent : (Chunk.decode event).outcome with
    | error problems => simp [advance_cons_of_error hevent, close]
    | ok chunk =>
      rcases hpush : window.push chunk with ⟨_ | closed, after⟩
      · simpa [advance_cons_of_held hevent hpush] using ih after
      · simp [advance_cons_of_closed hevent hpush, close]

/-- Once an item has been asked for, another one and a stop have the effects of a stop. -/
theorem Started.next {stream : ChatStream} (hstarted : stream.Started) :
    stream.next.2.2.Started ∧
      (stream.next.2.1 ++ stream.next.2.2.close).effects = stream.close.effects := by
  obtain ⟨request, opening, _ | ⟨events, failure, window⟩ | _⟩ := stream
  · exact absurd rfl hstarted
  · exact effects_advance request opening failure window events
  · exact ⟨hstarted, rfl⟩

/-- The calls and closes of a stream that is read: one call, if the request can be
sent, and one close, if the service does not refuse it. -/
def footprint : Journal :=
  if request.isSendable then
    match opening with
    | .refused _ => .call request.streamArguments
    | .accepted .. => .call request.streamArguments ++ .closed
  else .empty

/-- The first item and a stop make the call and close the stream. -/
theorem next_fresh :
    (next ⟨request, opening, .fresh⟩).2.2.Started ∧
      ((next ⟨request, opening, .fresh⟩).2.1 ++
        close (next ⟨request, opening, .fresh⟩).2.2).effects = footprint request opening := by
  by_cases hsend : request.isSendable
  · cases opening with
    | refused message => simp [next, first, hsend, Started, close, footprint]
    | accepted events failure =>
      obtain ⟨hstarted, heffects⟩ :=
        effects_advance request (.accepted events failure) failure .start events
      refine ⟨by simpa [next, first, hsend, Started] using hstarted, ?_⟩
      rw [footprint, if_pos hsend, ← heffects]
      simp [next, first, hsend, Journal.append_assoc]
  · simp [next, first, hsend, Started, close, footprint]

/-- The most items that a stream can still give: one per event, and one for a
window that is held. -/
def left (stream : ChatStream) : Nat :=
  match stream.phase with
  | .fresh => stream.opening.eventCount
  | .reading events _ window => events.length + if window.chunks = [] then 0 else 1
  | .over => 0

/-- Every item of an advance leaves fewer to come. -/
theorem left_advance {failure : Option String} {window : OpenWindow} {events : List Json}
    {chunk : Chunk} (hitem : (advance failure window events).1 = .item chunk) :
    left ⟨request, opening, (advance failure window events).2.2⟩ <
      events.length + if window.chunks = [] then 0 else 1 := by
  induction events generalizing window with
  | nil =>
    cases failure with
    | some message => simp [advance] at hitem
    | none =>
      by_cases hnone : window.chunks = []
      · simp [advance, OpenWindow.rest?, hnone] at hitem
      · simp [advance, OpenWindow.rest?, hnone, left]
  | cons event events ih =>
    cases hevent : (Chunk.decode event).outcome with
    | error problems => simp [advance_cons_of_error hevent] at hitem
    | ok decoded =>
      rcases hpush : window.push decoded with ⟨_ | closed, after⟩
      · simp only [advance_cons_of_held hevent hpush, List.length_cons] at hitem ⊢
        have hless := ih hitem
        split at hless <;> omega
      · rw [advance_cons_of_closed hevent hpush]
        simp only [left, OpenWindow.chunks_of_push_eq_some hpush, if_true, List.length_cons]
        omega

/-- Every item of a stream leaves fewer to come. -/
theorem left_next (stream : ChatStream) (chunk : Chunk) (hitem : stream.next.1 = .item chunk) :
    stream.next.2.2.left < stream.left := by
  obtain ⟨request, opening, _ | ⟨events, failure, window⟩ | _⟩ := stream
  · by_cases hsend : request.isSendable
    · cases opening with
      | refused message => simp [next, first, hsend] at hitem
      | accepted events failure =>
        have hadvance : (advance failure .start events).1 = .item chunk := by
          simpa [next, first, hsend] using hitem
        have hless := left_advance request (.accepted events failure) hadvance
        simpa [next, first, hsend, left, Opening.eventCount, OpenWindow.start] using hless
    · simp [next, first, hsend] at hitem
  · exact left_advance request opening hitem
  · simp [next] at hitem

end ChatStream

namespace EventReader

/-- An event is asked for by asking for a chunk, unless the events are complete. -/
theorem next_journal {reader : EventReader} (hcomplete : reader.complete = false) :
    reader.next.2.1 = reader.source.next.2.1 ∧
      reader.next.2.2.source = reader.source.next.2.2 := by
  rcases hnext : reader.source.next with ⟨_ | _ | _, journal, source⟩
  · rename_i chunk
    cases hevent : chunk.event <;> simp [next, hcomplete, hnext, hevent]
  · simp [next, hcomplete, hnext]
  · simp [next, hcomplete, hnext]

/-- An event has been asked for. -/
def Started (reader : EventReader) : Prop := reader.source.Started

/-- Once an event has been asked for, another one and a stop have the effects of a stop. -/
theorem Started.next {reader : EventReader} (hstarted : reader.Started) :
    reader.next.2.2.Started ∧
      (reader.next.2.1 ++ reader.next.2.2.close).effects = reader.close.effects := by
  cases hcomplete : reader.complete with
  | true => simp [EventReader.next, hcomplete, hstarted]
  | false =>
    obtain ⟨hjournal, hsource⟩ := next_journal hcomplete
    rw [Started, close, close, hjournal, hsource]
    exact ChatStream.Started.next hstarted

/-- The first event and a stop have the effects of the first chunk and a stop. -/
theorem next_fresh (request : Request) (opening : Opening) :
    (next (.start ⟨request, opening, .fresh⟩)).2.2.Started ∧
      ((next (.start ⟨request, opening, .fresh⟩)).2.1 ++
        close (next (.start ⟨request, opening, .fresh⟩)).2.2).effects =
          ChatStream.footprint request opening := by
  have hstart : (start ⟨request, opening, .fresh⟩).complete = false := rfl
  obtain ⟨hjournal, hsource⟩ := next_journal hstart
  rw [Started, close, hjournal, hsource]
  simp only [start]
  exact ChatStream.next_fresh request opening

/-- The most events that a reader can still get: one per chunk, and the last one. -/
def left (reader : EventReader) : Nat := if reader.complete then 0 else reader.source.left + 1

/-- Every event leaves fewer to come. -/
theorem left_next (reader : EventReader) (event : String) (hitem : reader.next.1 = .item event) :
    reader.next.2.2.left < reader.left := by
  cases hcomplete : reader.complete with
  | true => simp [next, hcomplete] at hitem
  | false =>
    have hsource := reader.source.left_next
    rcases hnext : reader.source.next with ⟨_ | _ | _, journal, source⟩
    · rename_i chunk
      have hless : source.left < reader.source.left := by simpa [hnext] using hsource chunk
      cases hevent : chunk.event with
      | ok event' => simpa [next, hcomplete, hnext, hevent, left] using hless
      | error failure => simp [next, hcomplete, hnext, hevent] at hitem
    · simp [next, hcomplete, hnext, left]
    · simp [next, hcomplete, hnext] at hitem

end EventReader

/-! ## Release -/

/-- What a reading that wanted some number of items, or all, must leave behind. -/
structure Released {α : Type} (request : Request) (opening : Opening) (wanted : Option Nat)
    (reading : Reading α) : Prop where
  /-- The first item makes the only call, unless the request cannot be sent. -/
  calls : reading.journal.calls =
    if wanted = some 0 ∨ request.isSendable = false then [] else [request.streamArguments]
  /-- An accepted call is answered by a stream that is closed once, a refused one by none. -/
  closes : reading.journal.closes =
    match opening with
    | .refused _ => 0
    | .accepted .. => reading.journal.calls.length
  /-- A reader who wants all items gets to the end, or to a failure. -/
  complete : wanted = none → reading.ending ≠ .stopped

/-- A reading is released if it has the effects of its first item and a stop. -/
theorem Released.of_effects {α : Type} {request : Request} {opening : Opening}
    {wanted : Option Nat} {reading : Reading α}
    (hnothing : wanted = some 0 → reading.journal.effects = .empty)
    (hsome : wanted ≠ some 0 → reading.journal.effects = ChatStream.footprint request opening)
    (hcomplete : wanted = none → reading.ending ≠ .stopped) :
    Released request opening wanted reading := by
  have hcalls : reading.journal.calls = reading.journal.effects.calls := rfl
  have hcloses : reading.journal.closes = reading.journal.effects.closes := rfl
  by_cases hzero : wanted = some 0
  · refine ⟨?_, ?_, hcomplete⟩
    · simp [hcalls, hnothing hzero, hzero, Journal.empty]
    · cases opening <;> simp [hcalls, hcloses, hnothing hzero, Journal.empty]
  · cases hsend : request.isSendable <;> cases opening <;> refine ⟨?_, ?_, hcomplete⟩ <;>
      simp [hcalls, hcloses, hsome hzero, hzero, hsend, ChatStream.footprint, Journal.empty,
        Journal.call, Journal.closed]

/-- A source is read with its release if a stop before the first item does nothing,
one after it leaves the footprint, and more items change nothing about that. -/
theorem Released.of_steps {σ α : Type} {next : σ → Answer α × Journal × σ} {close : σ → Journal}
    {started : σ → Prop} {left : σ → Nat} {request : Request} {opening : Opening} {source : σ}
    (hstep : ∀ source, started source → started (next source).2.2 ∧
      ((next source).2.1 ++ close (next source).2.2).effects = (close source).effects)
    (hleft : ∀ source value, (next source).1 = .item value →
      left (next source).2.2 < left source)
    (hclose : close source = .empty)
    (hfirst : started (next source).2.2 ∧
      ((next source).2.1 ++ close (next source).2.2).effects =
        ChatStream.footprint request opening)
    {enough : Nat} (henough : left source < enough) (wanted : Option Nat) :
    Released request opening wanted (readUpTo next close (wanted.getD enough) source) := by
  refine .of_effects ?_ ?_ ?_
  · rintro rfl
    simp [readUpTo, hclose]
  · intro hsome
    obtain ⟨count, hcount⟩ : ∃ count, wanted.getD enough = count + 1 := by
      rcases wanted with _ | _ | count
      · exact ⟨enough - 1, by simp only [Option.getD_none]; omega⟩
      · exact absurd rfl hsome
      · exact ⟨count, rfl⟩
    rw [hcount, effects_readUpTo_succ (effects_readUpTo hstep count hfirst.1), hfirst.2]
  · rintro rfl
    exact ending_readUpTo hleft henough

/-- A stream from which no item has been asked for is read with its release. -/
theorem ChatStream.released_read (request : Request) (opening : Opening) (wanted : Option Nat) :
    Released request opening wanted (read ⟨request, opening, .fresh⟩ wanted) :=
  .of_steps (fun _ => Started.next) left_next rfl (next_fresh request opening)
    (Nat.lt_succ_self _) wanted

/-- So are its events. -/
theorem EventReader.released_read (request : Request) (opening : Opening) (wanted : Option Nat) :
    Released request opening wanted (read (.start ⟨request, opening, .fresh⟩) wanted) :=
  .of_steps (fun _ => Started.next) left_next rfl (next_fresh request opening)
    (Nat.lt_succ_self _) wanted

/-- **Release.** However much of a stream is read, as chunks or as events, it is opened by
one call with the first item, and closed once if the service has opened it. Nothing is
called or closed if no item is asked for or the call is refused. -/
theorem read_released {request : Request} (hstream : request.stream = some true)
    (opening : Opening) (wanted : Option Nat) :
    ∃ stream, ChatStream.start request opening = .ok stream ∧
      Released request opening wanted (stream.read wanted) ∧
      Released request opening wanted ((EventReader.start stream).read wanted) :=
  ⟨⟨request, opening, .fresh⟩, by rw [ChatStream.start, if_pos hstream],
    ChatStream.released_read request opening wanted,
    EventReader.released_read request opening wanted⟩

/-- A request for a stream, with one message. -/
def Request.greeting : Request :=
  { messages := [.say .user "Hi"], model := some ChatModel.default, stream := some true
    temperature := none, topP := none, topK := none, maxTokens := none, tools := none
    toolChoice := none }

/-- A stream whose second event is no chunk. -/
def Opening.broken : Opening := .accepted [.obj [], .null, .obj []] none

/-- Readers who stop after one item of a stream close it, before it breaks. -/
theorem read_released_broken :
    Request.greeting.stream = some true ∧
      ∃ stream, ChatStream.start .greeting .broken = .ok stream ∧
        (stream.read (some 1)).journal.calls = [Request.greeting.streamArguments] ∧
        (stream.read (some 1)).journal.closes = 1 ∧
        ((EventReader.start stream).read (some 1)).journal.closes = 1 := by
  have hstream : Request.greeting.stream = some true := rfl
  have hsend : Request.greeting.isSendable = true := by decide
  obtain ⟨stream, hstart, hchunks, hevents⟩ := read_released hstream .broken (some 1)
  have hcalls : (stream.read (some 1)).journal.calls = [Request.greeting.streamArguments] := by
    rw [hchunks.calls]
    simp [hsend]
  refine ⟨hstream, stream, hstart, hcalls, ?_, ?_⟩
  · rw [hchunks.closes]
    simp [Opening.broken, hcalls]
  · rw [hevents.closes]
    simp [Opening.broken, hevents.calls, hsend]

end ChatClient
