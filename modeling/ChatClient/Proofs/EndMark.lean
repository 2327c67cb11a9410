import ChatClient.Proofs.ChunkText
import ChatClient.Proofs.StreamReading

/-!
# The last event means that the stream is complete

A reader of events who stops early, or whose stream breaks off, has the events of the
first chunks and no others. The last event follows only the events of all chunks, so a
reader who has it has been given everything: each event of the service was read and
decoded, and each window was handed on.

A reading that is cut short has the first items of the whole reading. So the whole
reading of the events is compared with that of the chunks, and all others follow.
-/

namespace ChatClient

open Chunk (mergeStream)

/-! ## Readings that are cut short -/

section Reading

variable {σ α : Type} {next : σ → Answer α × Journal × σ} {close : σ → Journal}
  {source source' : σ} {journal : Journal}

/-- An item is the first one of a reading. -/
theorem readUpTo_of_item {value : α} (hnext : next source = (.item value, journal, source'))
    (count : Nat) :
    readUpTo next close (count + 1) source =
      ⟨value :: (readUpTo next close count source').items,
        (readUpTo next close count source').ending,
        journal ++ (readUpTo next close count source').journal⟩ := by
  simp only [readUpTo, hnext]

/-- The end of a source is the end of a reading. -/
theorem readUpTo_of_ended (hnext : next source = (.ended, journal, source')) (count : Nat) :
    readUpTo next close (count + 1) source = ⟨[], .ended, journal ++ close source'⟩ := by
  simp only [readUpTo, hnext]

/-- So is a failure. -/
theorem readUpTo_of_failed {failure : Failure}
    (hnext : next source = (.failed failure, journal, source')) (count : Nat) :
    readUpTo next close (count + 1) source = ⟨[], .failed failure, journal ++ close source'⟩ := by
  simp only [readUpTo, hnext]

/-- A reader who wants some number of items gets the first ones of a whole reading, and
is stopped unless that has fewer. -/
theorem readUpTo_eq_take {enough : Nat}
    (hwhole : (readUpTo next close enough source).ending ≠ .stopped) (count : Nat) :
    (readUpTo next close count source).items =
        (readUpTo next close enough source).items.take count ∧
      (readUpTo next close count source).ending =
        if count ≤ (readUpTo next close enough source).items.length then .stopped
        else (readUpTo next close enough source).ending := by
  induction count generalizing enough source with
  | zero => exact ⟨rfl, by rw [if_pos (Nat.zero_le _)]; rfl⟩
  | succ count ih =>
    cases enough with
    | zero => exact absurd rfl hwhole
    | succ enough =>
      rcases hnext : next source with ⟨answer, journal, source'⟩
      cases answer with
      | item value =>
        rw [readUpTo_of_item hnext] at hwhole ⊢
        obtain ⟨hitems, hending⟩ := ih hwhole
        rw [readUpTo_of_item hnext, hitems, hending, List.take_succ_cons, List.length_cons]
        simp only [Nat.add_le_add_iff_right, true_and]
      | ended => simp [readUpTo_of_ended hnext]
      | failed failure => simp [readUpTo_of_failed hnext]

end Reading

/-! ## Events of chunks -/

namespace Chunk

/-- The events of chunks, up to the first chunk that cannot be written. -/
def events : List Chunk → List String
  | [] => []
  | chunk :: chunks =>
    match chunk.event with
    | .ok event => event :: events chunks
    | .error _ => []

/-- No event of a chunk is the last event, as a chunk is written as an object. -/
theorem event_ne_done {chunk : Chunk} {event : String} (hevent : chunk.event = .ok event) :
    event ≠ doneEvent := by
  obtain ⟨members, hmembers⟩ : ∃ members, (chunk.dump .omitted).finite = .obj members := ⟨_, rfl⟩
  have hdone : doneEvent = "data: " ++ "[DONE]" ++ "\n\n" := by decide
  rintro rfl
  rw [Chunk.event, text, RecordKind.written] at hevent
  split at hevent
  · have htext : "data: " ++ (chunk.dump .omitted).finite.compact ++ "\n\n" = doneEvent :=
      Except.ok.inj hevent
    rw [hdone, String.append_left_inj, String.append_right_inj, hmembers] at htext
    have hhead := Json.head?_compact_obj members
    rw [htext] at hhead
    exact absurd hhead (by decide)
  · cases hevent

/-- So the last event is none of the events of chunks. -/
theorem done_not_mem_events (chunks : List Chunk) : doneEvent ∉ events chunks := by
  induction chunks with
  | nil => exact List.not_mem_nil
  | cons chunk chunks ih =>
    cases hevent : chunk.event with
    | error failure => simp [events, hevent]
    | ok event =>
      rw [events, hevent, List.mem_cons, not_or]
      exact ⟨(event_ne_done hevent).symm, ih⟩

end Chunk

/-- What a reader of all events has, where the chunks come to an ending. -/
inductive Announced (chunks : List Chunk) (ending : Ending) (events : Reading String) : Prop
  /-- All chunks are written, and the last event follows them. -/
  | complete (hended : ending = .ended)
      (hwritten : chunks.map Chunk.event = (Chunk.events chunks).map .ok)
      (hitems : events.items = Chunk.events chunks ++ [doneEvent])
      (hending : events.ending = .ended)
  /-- All chunks are written, and the failure follows them. -/
  | broken {failure : Failure} (hfailed : ending = .failed failure)
      (hitems : events.items = Chunk.events chunks)
      (hending : events.ending = .failed failure)
  /-- A chunk cannot be written, and what follows it is not read. -/
  | unwritten {chunk : Chunk} {failure : Failure} (hmem : chunk ∈ chunks)
      (hevent : chunk.event = .error failure)
      (hitems : events.items = Chunk.events chunks)
      (hending : events.ending = .failed failure)

namespace Announced

variable {chunks : List Chunk} {ending : Ending} {events : Reading String}

/-- A reader who has all events is not stopped. -/
theorem ending_ne_stopped (hannounced : Announced chunks ending events) :
    events.ending ≠ .stopped := by
  cases hannounced with
  | complete _ _ _ hending | broken _ _ hending | unwritten _ _ _ hending =>
    rw [hending]
    exact Ending.noConfusion

/-- Nothing is announced but the events of the chunks and the last event. -/
theorem items_prefix (hannounced : Announced chunks ending events) :
    events.items <+: Chunk.events chunks ++ [doneEvent] := by
  cases hannounced with
  | complete _ _ hitems => exact hitems ▸ List.prefix_rfl
  | broken _ hitems | unwritten _ _ hitems => exact hitems ▸ List.prefix_append _ _

/-- The last event is announced where the chunks have come to their end, after the events
of all of them. -/
theorem complete_of_done_mem (hannounced : Announced chunks ending events)
    (hdone : doneEvent ∈ events.items) :
    ending = .ended ∧ chunks.map Chunk.event = (Chunk.events chunks).map .ok ∧
      events.items = Chunk.events chunks ++ [doneEvent] := by
  cases hannounced with
  | complete hended hwritten hitems => exact ⟨hended, hwritten, hitems⟩
  | broken _ hitems | unwritten _ _ hitems =>
    rw [hitems] at hdone
    exact absurd hdone (Chunk.done_not_mem_events chunks)

/-- A reader who comes to the end has the last event. -/
theorem done_mem_of_ended (hannounced : Announced chunks ending events)
    (hended : events.ending = .ended) : doneEvent ∈ events.items := by
  cases hannounced with
  | complete _ _ hitems => simp [hitems]
  | broken _ _ hending | unwritten _ _ _ hending =>
    rw [hended] at hending
    cases hending

/-- A failure is that of the chunks, unless one of them cannot be written. -/
theorem failed_or_unwritten (hannounced : Announced chunks ending events) {failure : Failure}
    (hfailed : events.ending = .failed failure) :
    doneEvent ∉ events.items ∧
      (ending = .failed failure ∨ ∃ chunk ∈ chunks, chunk.event = .error failure) := by
  have hnew := Chunk.done_not_mem_events chunks
  cases hannounced with
  | complete _ _ _ hending =>
    rw [hfailed] at hending
    cases hending
  | broken hstream hitems hending =>
    obtain rfl := Ending.failed.inj (hfailed.symm.trans hending)
    exact ⟨hitems ▸ hnew, Or.inl hstream⟩
  | unwritten hmem hevent hitems hending =>
    obtain rfl := Ending.failed.inj (hfailed.symm.trans hending)
    exact ⟨hitems ▸ hnew, Or.inr ⟨_, hmem, hevent⟩⟩

/-- A chunk that is written adds its event. -/
theorem cons {chunk : Chunk} {event : String} (hevent : chunk.event = .ok event)
    (journal : Journal) (hrest : Announced chunks ending events) :
    Announced (chunk :: chunks) ending ⟨event :: events.items, events.ending, journal⟩ := by
  have hevents : Chunk.events (chunk :: chunks) = event :: Chunk.events chunks := by
    rw [Chunk.events, hevent]
  cases hrest with
  | complete hended hwritten hitems hending =>
    refine .complete hended ?_ ?_ hending
    · rw [List.map_cons, hevents, List.map_cons, hevent, hwritten]
    · rw [hevents, hitems, List.cons_append]
  | broken hfailed hitems hending => exact .broken hfailed (by rw [hevents, hitems]) hending
  | unwritten hmem hother hitems hending =>
    exact .unwritten (List.mem_cons_of_mem _ hmem) hother (by rw [hevents, hitems]) hending

end Announced

namespace EventReader

/-- Reading all events of a stream announces its chunks, with one event more than there
are chunks. -/
theorem announced_readUpTo {count : Nat} {source : ChatStream}
    (hwhole : (readUpTo ChatStream.next ChatStream.close count source).ending ≠ .stopped) :
    Announced (readUpTo ChatStream.next ChatStream.close count source).items
      (readUpTo ChatStream.next ChatStream.close count source).ending
      (readUpTo next close (count + 1) (start source)) := by
  induction count generalizing source with
  | zero => exact absurd rfl hwhole
  | succ count ih =>
    rcases hnext : source.next with ⟨answer, journal, source'⟩
    cases answer with
    | item chunk =>
      rw [readUpTo_of_item hnext] at hwhole ⊢
      cases hevent : chunk.event with
      | ok event =>
        have hreader : next (start source) = (.item event, journal, start source') := by
          simp [next, start, hnext, hevent]
        rw [readUpTo_of_item hreader]
        exact (ih hwhole).cons hevent _
      | error failure =>
        have hreader : next (start source) = (.failed failure, journal, ⟨source', true⟩) := by
          simp [next, start, hnext, hevent]
        rw [readUpTo_of_failed hreader]
        exact .unwritten List.mem_cons_self hevent (by rw [Chunk.events, hevent]) rfl
    | ended =>
      have hreader : next (start source) = (.item doneEvent, journal, ⟨source', true⟩) := by
        simp [next, start, hnext]
      rw [readUpTo_of_ended hnext, readUpTo_of_item hreader]
      exact .complete rfl rfl rfl rfl
    | failed failure =>
      have hreader : next (start source) = (.failed failure, journal, ⟨source', true⟩) := by
        simp [next, start, hnext]
      rw [readUpTo_of_failed hnext, readUpTo_of_failed hreader]
      exact .broken rfl rfl rfl

end EventReader

/-! ## Streams of requests -/

namespace Request

variable (request : Request) (opening : Opening)

/-- What a reader gets who wants all chunks of the stream that a request asks for. -/
def delivered : List Chunk × Ending :=
  if request.stream ≠ some true then ([], .failed .mustStream)
  else if request.isSendable = false then ([], .failed .tooDeep)
  else
    match opening with
    | .refused message => ([], .failed (.service message))
    | .accepted events failure => (arrivals failure events).merged

/-- What a reader gets of the events of the stream that a request asks for. -/
def streamEvents (wanted : Option Nat) : Reading String :=
  match ChatStream.start request opening with
  | .ok stream => (EventReader.start stream).read wanted
  | .error failure => ⟨[], .failed failure, .empty⟩

end Request

/-- A stream delivers all its chunks to a reader who wants them. -/
theorem ChatStream.read_eq_delivered {request : Request} (hstream : request.stream = some true)
    (opening : Opening) :
    ((read ⟨request, opening, .fresh⟩ none).items,
      (read ⟨request, opening, .fresh⟩ none).ending) = request.delivered opening := by
  simp only [Request.delivered, hstream, ne_eq, not_true_eq_false, if_false]
  cases hsend : request.isSendable with
  | false => simp [read, readUpTo, next, first, hsend]
  | true =>
    cases opening with
    | refused message => simp [read, readUpTo, next, first, hsend]
    | accepted events failure => simpa using read_fresh hsend events

/-- So its events announce the delivered chunks. -/
theorem EventReader.announced_read {request : Request} (hstream : request.stream = some true)
    (opening : Opening) :
    Announced (request.delivered opening).1 (request.delivered opening).2
      (read (start ⟨request, opening, .fresh⟩) none) := by
  rw [← ChatStream.read_eq_delivered hstream]
  exact announced_readUpTo ((ChatStream.released_read request opening none).complete rfl)

/-- Arrivals do not break off if every event decodes and the service does not fail. -/
theorem map_outcome_of_arrivals {failure : Option String} {events : List Json}
    (hcomplete : (arrivals failure events).failure = none) :
    failure = none ∧ events.map (fun event => (Chunk.decode event).outcome) =
      (arrivals failure events).chunks.map .ok := by
  induction events with
  | nil => exact ⟨by simpa [arrivals] using hcomplete, rfl⟩
  | cons event events ih =>
    cases hevent : (Chunk.decode event).outcome with
    | error problems => simp [arrivals, hevent] at hcomplete
    | ok chunk =>
      simp only [arrivals, hevent] at hcomplete ⊢
      obtain ⟨hnone, hevents⟩ := ih hcomplete
      exact ⟨hnone, by rw [List.map_cons, List.map_cons, hevent, hevents]⟩

/-- A stream comes to its end only if every event decodes and the service does not fail,
and then it delivers the merged chunks. -/
theorem Request.exists_of_delivered_ended {request : Request} {opening : Opening}
    (hended : (request.delivered opening).2 = .ended) :
    ∃ events chunks, opening = .accepted events none ∧
      events.map (fun event => (Chunk.decode event).outcome) = chunks.map .ok ∧
      (request.delivered opening).1 = mergeStream chunks := by
  unfold delivered at hended ⊢
  split at hended
  · cases hended
  · split at hended
    · cases hended
    · rename_i hstream hsend
      rw [if_neg hstream, if_neg hsend]
      cases opening with
      | refused message => cases hended
      | accepted events failure =>
        cases hfailure : (arrivals failure events).failure with
        | some cause => simp [Arrivals.merged, hfailure] at hended
        | none =>
          obtain ⟨rfl, hevents⟩ := map_outcome_of_arrivals hfailure
          exact ⟨events, _, rfl, hevents, by simp [Arrivals.merged, hfailure]⟩

/-! ## The last event -/

/-- What the events say that a reader gets who wants some number of them, or all. -/
structure Truthful (request : Request) (opening : Opening) (wanted : Option Nat)
    (reading : Reading String) : Prop where
  /-- They are the first ones of the events of the chunks and the last event. -/
  items_prefix : reading.items <+: Chunk.events (request.delivered opening).1 ++ [doneEvent]
  /-- None of the events of the chunks is taken for the last event. -/
  done_not_mem : doneEvent ∉ Chunk.events (request.delivered opening).1
  /-- A reader is stopped by nothing but the number of events that are wanted. -/
  stopped : reading.ending = .stopped → wanted = some reading.items.length
  /-- A reader with the last event has the events of all windows before it, all events of
  the service were decoded, and the service did not fail. -/
  complete : doneEvent ∈ reading.items → ∃ events chunks sent,
    opening = .accepted events none ∧
    events.map (fun event => (Chunk.decode event).outcome) = chunks.map .ok ∧
    (request.delivered opening).1 = mergeStream chunks ∧
    (mergeStream chunks).map Chunk.event = sent.map .ok ∧
    reading.items = sent ++ [doneEvent]
  /-- A reader whose events come to their end has the last event. -/
  ended : reading.ending = .ended → (request.delivered opening).2 = .ended ∧
    doneEvent ∈ reading.items
  /-- A failure is that of the stream, unless a chunk before it cannot be written. -/
  failed : ∀ failure, reading.ending = .failed failure → doneEvent ∉ reading.items ∧
    ((request.delivered opening).2 = .failed failure ∨
      ∃ chunk ∈ (request.delivered opening).1, chunk.event = .error failure)

/-- The first items of a list that ends with a new one hold it only if they are all. -/
theorem take_concat_of_mem {α : Type} {items : List α} {last : α} {count : Nat}
    (hnew : last ∉ items) (hmem : last ∈ (items ++ [last]).take count) :
    (items ++ [last]).take count = items ++ [last] := by
  rcases Nat.lt_or_ge items.length count with hmore | hfewer
  · exact List.take_of_length_le (by rw [List.length_append]; exact hmore)
  · rw [List.take_append_of_le_length hfewer] at hmem
    exact absurd (List.mem_of_mem_take hmem) hnew

/-- A reading is truthful that has the first events of a whole one. -/
theorem Truthful.of_announced {request : Request} {opening : Opening} {wanted : Option Nat}
    {whole reading : Reading String} {count : Nat}
    (hwhole : Announced (request.delivered opening).1 (request.delivered opening).2 whole)
    (hitems : reading.items = whole.items.take count)
    (hending : reading.ending = if count ≤ whole.items.length then .stopped else whole.ending)
    (hwanted : reading.ending = .stopped → wanted = some count) :
    Truthful request opening wanted reading := by
  have hnew := Chunk.done_not_mem_events (request.delivered opening).1
  have hpart {event : String} (hmem : event ∈ reading.items) : event ∈ whole.items := by
    rw [hitems] at hmem
    exact List.mem_of_mem_take hmem
  -- a reader who is not stopped has what a reader of all events has
  have hall (hstopped : reading.ending ≠ .stopped) :
      reading.ending = whole.ending ∧ reading.items = whole.items := by
    by_cases hcount : count ≤ whole.items.length
    · exact absurd (hending.trans (if_pos hcount)) hstopped
    · exact ⟨hending.trans (if_neg hcount), hitems.trans (List.take_of_length_le (by omega))⟩
  refine ⟨?_, hnew, fun hstopped => ?_, fun hdone => ?_, fun hended => ?_,
    fun failure hfailed => ?_⟩
  · rw [hitems]
    exact (List.take_prefix _ _).trans hwhole.items_prefix
  · have hcount : count ≤ whole.items.length := by
      by_contra hless
      rw [if_neg hless, hstopped] at hending
      exact hwhole.ending_ne_stopped hending.symm
    rw [hwanted hstopped, hitems, List.length_take, Nat.min_eq_left hcount]
  · obtain ⟨hended, hwritten, hevents⟩ := hwhole.complete_of_done_mem (hpart hdone)
    obtain ⟨events, chunks, hopening, hdecoded, hchunks⟩ :=
      Request.exists_of_delivered_ended hended
    refine ⟨events, chunks, _, hopening, hdecoded, hchunks, hchunks ▸ hwritten, ?_⟩
    rw [hitems, hevents] at hdone
    rw [hitems, hevents, take_concat_of_mem hnew hdone, hchunks]
  · obtain ⟨hsame, hevents⟩ := hall (by simp [hended])
    have hdone := hwhole.done_mem_of_ended (hsame.symm.trans hended)
    exact ⟨(hwhole.complete_of_done_mem hdone).1, hevents ▸ hdone⟩
  · obtain ⟨hsame, hevents⟩ := hall (by simp [hfailed])
    rw [hevents]
    exact hwhole.failed_or_unwritten (hsame.symm.trans hfailed)

/-- **The last event.** However much is read of the events of the stream that a request
asks for, and whatever the service does, the last event is read only where everything has
been delivered. A stream that breaks off fails, and has no last event. -/
theorem streamEvents_truthful (request : Request) (opening : Opening) (wanted : Option Nat) :
    Truthful request opening wanted (request.streamEvents opening wanted) := by
  by_cases hstream : request.stream = some true
  · have hreading : request.streamEvents opening wanted =
        (EventReader.start ⟨request, opening, .fresh⟩).read wanted := by
      rw [Request.streamEvents, ChatStream.start, if_pos hstream]
    have hannounced := EventReader.announced_read hstream opening
    obtain ⟨hitems, hending⟩ := readUpTo_eq_take hannounced.ending_ne_stopped
      (wanted.getD (opening.eventCount + 2))
    rw [hreading]
    refine .of_announced hannounced hitems hending fun hstopped => ?_
    cases wanted with
    | none => exact absurd hstopped hannounced.ending_ne_stopped
    | some count => rfl
  · have hdelivered : request.delivered opening = ([], .failed .mustStream) := by
      simp [Request.delivered, hstream]
    have hreading : request.streamEvents opening wanted = ⟨[], .failed .mustStream, .empty⟩ := by
      rw [Request.streamEvents, ChatStream.start, if_neg hstream]
    have hwhole : Announced (request.delivered opening).1 (request.delivered opening).2
        ⟨[], .failed .mustStream, .empty⟩ := by
      rw [hdelivered]
      exact .broken rfl rfl rfl
    have hnone : ([] : List String) = [].take 1 := rfl
    rw [hreading]
    exact .of_announced hwhole hnone rfl fun hstopped => Ending.noConfusion hstopped

end ChatClient
