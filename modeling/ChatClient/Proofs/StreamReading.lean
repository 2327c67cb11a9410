import ChatClient.Proofs.OpenWindow
import ChatClient.Proofs.StreamRelease

/-!
# Reading a stream to its end

A reader who takes the chunks of a stream one by one gets what merging the whole
list of chunks would give. Where the stream breaks off, at an event that is no
chunk or with a failure of the service, the windows closed before are all that
arrives: nothing of a call that is still open is given out.
-/

namespace ChatClient

open Chunk (closedFrom closedWindows mergeStream reduce windowsFrom)

/-- The chunks that events bring, and the failure with which they break off. -/
structure Arrivals where
  chunks : List Chunk
  failure : Option Failure
  deriving DecidableEq, Repr

/-- What events bring, in front of a failure of the service. The first event that
is no chunk breaks them off. -/
def arrivals (failure : Option String) : List Json → Arrivals
  | [] => ⟨[], failure.map .service⟩
  | event :: events =>
    match (Chunk.decode event).outcome with
    | .error problems => ⟨[], some (.invalid .chunk problems)⟩
    | .ok chunk =>
      let rest := arrivals failure events
      ⟨chunk :: rest.chunks, rest.failure⟩

namespace Arrivals

/-- The merged chunks of complete arrivals, or those of the windows that were
closed before the arrivals broke off, and the failure. -/
def merged (arrivals : Arrivals) : List Chunk × Ending :=
  match arrivals.failure with
  | none => (mergeStream arrivals.chunks, .ended)
  | some failure => ((closedWindows arrivals.chunks).map reduce, .failed failure)

/-- The same where an open window is held already. -/
def mergedFrom (window : OpenWindow) (arrivals : Arrivals) : List Chunk × Ending :=
  match arrivals.failure with
  | none => ((windowsFrom window arrivals.chunks).map reduce, .ended)
  | some failure => ((closedFrom window arrivals.chunks).map reduce, .failed failure)

/-- At the start no window is held. -/
theorem mergedFrom_start (arrivals : Arrivals) : arrivals.mergedFrom .start = arrivals.merged := by
  obtain ⟨chunks, failure⟩ := arrivals
  cases failure with
  | none => rfl
  | some failure => simp only [mergedFrom, merged, Chunk.closedWindows_eq]

/-- A chunk that closes the window is followed by what arrives after it. -/
theorem mergedFrom_cons_closed {window next : OpenWindow} {chunk : Chunk} {closed : List Chunk}
    (hpush : window.push chunk = (some closed, next)) (chunks : List Chunk)
    (failure : Option Failure) :
    mergedFrom window ⟨chunk :: chunks, failure⟩ =
      (reduce closed :: (mergedFrom next ⟨chunks, failure⟩).1,
        (mergedFrom next ⟨chunks, failure⟩).2) := by
  cases failure <;> simp [mergedFrom, windowsFrom, closedFrom, hpush]

/-- A chunk that closes no window is held. -/
theorem mergedFrom_cons_held {window held : OpenWindow} {chunk : Chunk}
    (hpush : window.push chunk = (none, held)) (chunks : List Chunk)
    (failure : Option Failure) :
    mergedFrom window ⟨chunk :: chunks, failure⟩ = mergedFrom held ⟨chunks, failure⟩ := by
  cases failure <;> simp [mergedFrom, windowsFrom, closedFrom, hpush]

end Arrivals

namespace ChatStream

variable {request : Request} {opening : Opening} {failure : Option String}

/-- Reading on from an open window gives the merged arrivals, if more items are
asked for than there can be. -/
theorem readUpTo_reading {window : OpenWindow} (hsound : window.Sound) (events : List Json)
    {count : Nat} (hcount : left ⟨request, opening, .reading events failure window⟩ < count) :
    ((readUpTo next close count ⟨request, opening, .reading events failure window⟩).items,
      (readUpTo next close count ⟨request, opening, .reading events failure window⟩).ending) =
      (arrivals failure events).mergedFrom window := by
  simp only [left] at hcount
  induction events generalizing window count with
  | nil =>
    obtain ⟨count, rfl⟩ : ∃ n, count = n + 1 := ⟨count - 1, by omega⟩
    cases failure with
    | some message => rfl
    | none =>
      rcases hsound with rfl | ⟨_, hopen⟩
      · rfl
      · have hne : window.chunks ≠ [] := by simpa using hopen.ne_nil
        rw [if_neg hne] at hcount
        obtain ⟨count, rfl⟩ : ∃ n, count = n + 1 := ⟨count - 1, by simp at hcount; omega⟩
        simp [readUpTo, next, advance, OpenWindow.rest?, hne, arrivals, Arrivals.mergedFrom,
          windowsFrom]
  | cons event events ih =>
    obtain ⟨count, rfl⟩ : ∃ n, count = n + 1 := ⟨count - 1, by omega⟩
    rw [List.length_cons] at hcount
    cases hevent : (Chunk.decode event).outcome with
    | error problems =>
      simp [readUpTo, next, advance_cons_of_error hevent, arrivals, hevent, Arrivals.mergedFrom,
        closedFrom]
    | ok chunk =>
      have harrivals : arrivals failure (event :: events) =
          ⟨chunk :: (arrivals failure events).chunks, (arrivals failure events).failure⟩ := by
        simp only [arrivals, hevent]
      rw [harrivals]
      rcases hsound.push_cases chunk with ⟨closed, hpush, _⟩ | ⟨held, hpush, hheld, hne⟩
      · -- the item is complete, and the others are those that follow it
        have hempty : OpenWindow.start.chunks = [] := rfl
        have hfewer : events.length + (if OpenWindow.start.chunks = [] then 0 else 1) < count := by
          rw [if_pos hempty]
          omega
        rw [Arrivals.mergedFrom_cons_closed hpush, ← ih OpenWindow.sound_start hfewer]
        simp [readUpTo, next, advance_cons_of_closed hevent hpush]
      · -- the item is still to come, so as many are asked for as before
        have hfewer : events.length + (if held.chunks = [] then 0 else 1) < count + 1 := by
          rw [if_neg hne]
          omega
        rw [Arrivals.mergedFrom_cons_held hpush, ← ih hheld hfewer]
        simp only [readUpTo, next, advance_cons_of_held hevent hpush]
        rcases advance failure held events with ⟨_ | _ | _, _, _⟩ <;> rfl

/-- A stream that the service opens gives its merged arrivals, if its request can be sent. -/
theorem read_fresh (hsend : request.isSendable = true) (events : List Json) :
    ((read ⟨request, .accepted events failure, .fresh⟩ none).items,
      (read ⟨request, .accepted events failure, .fresh⟩ none).ending) =
      (arrivals failure events).merged := by
  have hcount : left ⟨request, .accepted events failure, .reading events failure .start⟩ <
      events.length + 1 := Nat.lt_succ_self _
  rw [← Arrivals.mergedFrom_start, ← readUpTo_reading OpenWindow.sound_start events hcount]
  simp only [read, Option.getD_none, Opening.eventCount, readUpTo, next, first, hsend, if_true]
  rcases advance failure .start events with ⟨_ | _ | _, _, _⟩ <;> rfl

end ChatStream

/-- **Reading to the end.** A stream that the service opens makes one call, and its
reader gets what merging the list of its chunks gives, or what was closed before
the arrivals broke off. -/
theorem read_eq_merged {request : Request} (hstream : request.stream = some true)
    (hsend : request.isSendable = true) (events : List Json) (failure : Option String) :
    ∃ stream, ChatStream.start request (.accepted events failure) = .ok stream ∧
      (stream.read none).journal.calls = [request.streamArguments] ∧
      ((stream.read none).items, (stream.read none).ending) =
        (arrivals failure events).merged := by
  refine ⟨⟨request, .accepted events failure, .fresh⟩, by rw [ChatStream.start, if_pos hstream],
    ?_, ChatStream.read_fresh hsend events⟩
  rw [(ChatStream.released_read request _ none).calls]
  simp [hsend]

/-- The event of a text, the event of a fragment that starts a call, and an event
that is no chunk. -/
def brokenCall : List Json :=
  [.obj [("id", .str "a")],
    .obj [("choices", .arr [.obj [("delta", .obj [("tool_calls", .arr [.obj
      [("index", .int 0), ("function", .obj [("arguments", .str "1")])]])])]])],
    .null]

/-- A stream that breaks off inside a call gives what came before the call. -/
theorem read_eq_merged_brokenCall :
    Request.greeting.stream = some true ∧ Request.greeting.isSendable = true ∧
      ∃ stream, ChatStream.start .greeting (.accepted brokenCall none) = .ok stream ∧
        (stream.read none).journal.calls = [Request.greeting.streamArguments] ∧
        (stream.read none).items = [{ Chunk.empty with id := some "a" }] ∧
        (stream.read none).ending = .failed (.invalid .chunk [⟨[], .notRecord⟩]) := by
  have hstream : Request.greeting.stream = some true := rfl
  have hsend : Request.greeting.isSendable = true := by decide
  refine ⟨hstream, hsend, ?_⟩
  obtain ⟨stream, hstart, hcalls, hread⟩ := read_eq_merged hstream hsend brokenCall none
  have hmerged : (arrivals none brokenCall).merged =
      ([{ Chunk.empty with id := some "a" }], .failed (.invalid .chunk [⟨[], .notRecord⟩])) := by
    decide +kernel
  rw [hmerged, Prod.mk.injEq] at hread
  exact ⟨stream, hstart, hcalls, hread⟩

/-- A request with a content that is too deep to be sent. -/
def Request.deep : Request :=
  { Request.greeting with
    messages := [{ content := some (.parts [.nested 300]), role := some .user, name := none
                   toolCallId := none, toolCalls := none }] }

/-- Not every request for a stream is called with: one that is too deep is not sent. -/
theorem not_forall_read_eq_merged :
    ¬∀ (request : Request) (events : List Json) (failure : Option String),
      request.stream = some true →
      ∃ stream, ChatStream.start request (.accepted events failure) = .ok stream ∧
        (stream.read none).journal.calls = [request.streamArguments] ∧
        ((stream.read none).items, (stream.read none).ending) =
          (arrivals failure events).merged := by
  intro hall
  obtain ⟨stream, hstart, hcalls, _⟩ := hall .deep [] none rfl
  have hstream : stream = ⟨.deep, .accepted [] none, .fresh⟩ := by
    simpa [ChatStream.start, Request.deep, Request.greeting] using hstart.symm
  have hsend : Request.deep.isSendable = false := by decide +kernel
  rw [hstream, (ChatStream.released_read .deep _ none).calls, if_pos (Or.inr hsend)] at hcalls
  exact absurd hcalls (by simp)

end ChatClient
