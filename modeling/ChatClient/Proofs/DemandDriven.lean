import ChatClient.Proofs.StreamReading

/-!
# Streams are driven by demand

A reader who wants as many items as windows are closed by the first events of a stream
gets them from these events alone. What would follow is not looked at: it may be an
event that is no chunk, a failure of the service, or nothing at all. The items, the
notices, the call and the close are the same, and the events that follow are left as
they are.
-/

namespace ChatClient

open Chunk (ClosedWindow reduce windows windowsFrom)

/-! ## Windows that are held -/

namespace Chunk

/-- Chunks that are held belong to some window. -/
theorem windowsFrom_ne_nil {window : OpenWindow} (hheld : window.chunks ≠ [])
    (chunks : List Chunk) : windowsFrom window chunks ≠ [] := by
  induction chunks generalizing window with
  | nil => simp [windowsFrom, OpenWindow.rest?, hheld]
  | cons chunk chunks ih =>
    rcases hpush : window.push chunk with ⟨_ | closed, held⟩
    · have hmore : held.chunks ≠ [] := by simp [OpenWindow.chunks_of_push_eq_none hpush]
      simpa [windowsFrom, hpush] using ih hmore
    · simp [windowsFrom, hpush]

/-- Nothing is held where all windows are closed and no chunk is left. -/
theorem eq_start_of_windowsFrom_nil {window : OpenWindow} (hsound : window.Sound)
    (hclosed : ∀ w ∈ windowsFrom window [], ClosedWindow w) : window = .start := by
  rcases hsound with rfl | ⟨_, hopen⟩
  · rfl
  · have hrest : window.rest? = some window.chunks.reverse := by
      simpa [OpenWindow.rest?] using hopen.ne_nil
    exact absurd hopen (hclosed _ (by simp [windowsFrom, hrest])).not_unfinishedWindow

end Chunk

/-! ## Delays -/

section Delay

variable {σ α : Type} {next : σ → Answer α × Journal × σ} {close : σ → Journal}

/-- A source whose next answer is that of another, with more noted before, is read as the
other one. -/
theorem readUpTo_of_next_eq {source other : σ} {journal : Journal}
    (hnext : next source = ((next other).1, journal ++ (next other).2.1, (next other).2.2))
    (count : Nat) :
    readUpTo next close (count + 1) source =
      { readUpTo next close (count + 1) other with
        journal := journal ++ (readUpTo next close (count + 1) other).journal } := by
  rw [readUpTo, readUpTo, hnext]
  rcases next other with ⟨_ | _ | _, _, _⟩ <;> simp [Journal.append_assoc]

end Delay

namespace ChatStream

/-- The stream after a number of items. -/
def after : Nat → ChatStream → ChatStream
  | 0, stream => stream
  | count + 1, stream => after count stream.next.2.2

section Step

variable (request : Request) (opening : Opening) (failure : Option String)
  {window : OpenWindow} {event : Json} {chunk : Chunk}

/-- An event that closes the window gives an item at once. -/
theorem next_cons_of_closed {after : OpenWindow} {closed : List Chunk}
    (hevent : (Chunk.decode event).outcome = .ok chunk)
    (hpush : window.push chunk = (some closed, after)) (events : List Json) :
    next ⟨request, opening, .reading (event :: events) failure window⟩ =
      (.item (reduce closed),
        .noted (Chunk.decode event).notices ++ .noted (Chunk.mergeNotice closed),
        ⟨request, opening, .reading events failure after⟩) := by
  simp only [next, advance_cons_of_closed hevent hpush]

/-- An event that closes no window adds its notices to the next answer. -/
theorem next_cons_of_held {held : OpenWindow}
    (hevent : (Chunk.decode event).outcome = .ok chunk)
    (hpush : window.push chunk = (none, held)) (events : List Json) :
    next ⟨request, opening, .reading (event :: events) failure window⟩ =
      let rest : ChatStream := ⟨request, opening, .reading events failure held⟩
      (rest.next.1, .noted (Chunk.decode event).notices ++ rest.next.2.1, rest.next.2.2) := by
  simp only [next, advance_cons_of_held hevent hpush]

/-- To open a stream adds nothing to the first answer but the call. -/
theorem next_fresh_of_isSendable (hsend : request.isSendable = true) (events : List Json) :
    next ⟨request, .accepted events failure, .fresh⟩ =
      let rest : ChatStream :=
        ⟨request, .accepted events failure, .reading events failure .start⟩
      (rest.next.1, .noted [.streamRequested request.model] ++ .call request.streamArguments ++
        rest.next.2.1, rest.next.2.2) := by
  simp only [next, first, hsend, if_true]

end Step

/-! ## The first events of a stream -/

section Reading

variable (request : Request)

/-- The windows that the first events of a stream close are read from these events. -/
theorem readUpTo_reading_append {window : OpenWindow} (hsound : window.Sound)
    {events : List Json} {chunks : List Chunk}
    (hdecode : events.map (fun event => (Chunk.decode event).outcome) = chunks.map .ok)
    (hclosed : ∀ w ∈ windowsFrom window chunks, ClosedWindow w) :
    ∃ journal, ∀ (opening : Opening) (later : List Json) (failure : Option String),
      readUpTo next close (windowsFrom window chunks).length
          ⟨request, opening, .reading (events ++ later) failure window⟩ =
        ⟨(windowsFrom window chunks).map reduce, .stopped, journal⟩ ∧
      after (windowsFrom window chunks).length
          ⟨request, opening, .reading (events ++ later) failure window⟩ =
        ⟨request, opening, .reading later failure .start⟩ := by
  induction events generalizing window chunks with
  | nil =>
    obtain rfl : chunks = [] := by simpa using hdecode.symm
    obtain rfl : window = .start := Chunk.eq_start_of_windowsFrom_nil hsound hclosed
    exact ⟨.closed, fun opening later failure => ⟨rfl, rfl⟩⟩
  | cons event events ih =>
    cases chunks with
    | nil => simp at hdecode
    | cons chunk chunks =>
      rw [List.map_cons, List.map_cons, List.cons.injEq] at hdecode
      obtain ⟨hevent, hevents⟩ := hdecode
      rcases hsound.push_cases chunk with ⟨closed, hpush, _⟩ | ⟨held, hpush, hheld, hne⟩
      · -- the item is complete, and those after it are read from the events after this one
        have hwindows : windowsFrom window (chunk :: chunks) =
            closed :: windowsFrom .start chunks := by
          simp [windowsFrom, hpush]
        rw [hwindows] at hclosed ⊢
        obtain ⟨journal, hrest⟩ := ih OpenWindow.sound_start hevents
          fun w hw => hclosed w (List.mem_cons_of_mem _ hw)
        refine ⟨.noted (Chunk.decode event).notices ++ .noted (Chunk.mergeNotice closed) ++ journal,
          fun opening later failure => ?_⟩
        obtain ⟨hread, hafter⟩ := hrest opening later failure
        rw [List.cons_append, List.length_cons, readUpTo, after,
          next_cons_of_closed request opening failure hevent hpush]
        exact ⟨by simp only [hread, List.map_cons], hafter⟩
      · -- the item is still to come, so nothing but notices is added
        have hwindows : windowsFrom window (chunk :: chunks) = windowsFrom held chunks := by
          simp [windowsFrom, hpush]
        rw [hwindows] at hclosed ⊢
        obtain ⟨count, hcount⟩ : ∃ count, (windowsFrom held chunks).length = count + 1 :=
          Nat.exists_eq_add_one_of_ne_zero (by simpa using Chunk.windowsFrom_ne_nil hne chunks)
        obtain ⟨journal, hrest⟩ := ih hheld hevents hclosed
        refine ⟨.noted (Chunk.decode event).notices ++ journal, fun opening later failure => ?_⟩
        obtain ⟨hread, hafter⟩ := hrest opening later failure
        have hnext := next_cons_of_held request opening failure hevent hpush (events ++ later)
        rw [hcount] at hread hafter ⊢
        rw [List.cons_append, readUpTo_of_next_eq hnext, hread, after, hnext]
        exact ⟨rfl, hafter⟩

/-- A stream gives the windows that its first events close from these events alone, and
leaves the others as they are. -/
theorem read_append {events : List Json} {chunks : List Chunk}
    (hdecode : events.map (fun event => (Chunk.decode event).outcome) = chunks.map .ok)
    (hclosed : ∀ w ∈ windows chunks, ClosedWindow w) :
    ∃ reading : Reading Chunk,
      (request.isSendable = true →
        reading.items = (windows chunks).map reduce ∧ reading.ending = .stopped) ∧
      ∀ (later : List Json) (failure : Option String),
        read ⟨request, .accepted (events ++ later) failure, .fresh⟩
            (some (windows chunks).length) = reading ∧
          (request.isSendable = true → windows chunks ≠ [] →
            after (windows chunks).length ⟨request, .accepted (events ++ later) failure, .fresh⟩ =
              ⟨request, .accepted (events ++ later) failure, .reading later failure .start⟩) := by
  by_cases hnone : windows chunks = []
  · -- no item is asked for, so nothing happens
    refine ⟨⟨[], .stopped, .empty⟩, by simp [hnone], fun later failure => ⟨?_, ?_⟩⟩
    · rw [hnone]
      rfl
    · exact fun _ hsome => absurd hnone hsome
  · obtain ⟨count, hcount⟩ : ∃ count, (windows chunks).length = count + 1 :=
      Nat.exists_eq_add_one_of_ne_zero (by simpa using hnone)
    by_cases hsend : request.isSendable = true
    · obtain ⟨journal, hrest⟩ :=
        readUpTo_reading_append request OpenWindow.sound_start hdecode hclosed
      refine ⟨⟨(windows chunks).map reduce, .stopped, .noted [.streamRequested request.model] ++
        .call request.streamArguments ++ journal⟩, by simp, fun later failure => ?_⟩
      obtain ⟨hread, hafter⟩ := hrest (.accepted (events ++ later) failure) later failure
      have hnext := next_fresh_of_isSendable request failure hsend (events ++ later)
      rw [← windows, hcount] at hread hafter
      rw [read, Option.getD_some, hcount, readUpTo_of_next_eq hnext, hread, after, hnext]
      exact ⟨rfl, fun _ _ => hafter⟩
    · refine ⟨⟨[], .failed .tooDeep, .empty⟩, fun h => absurd h hsend, fun later failure => ?_⟩
      rw [read, Option.getD_some, hcount]
      simp [readUpTo, next, first, hsend, close]

end Reading

end ChatStream

/-- **Demand.** Two streams that agree in the events up to the one that closes some
window are read alike by a reader who wants the items up to this window: the items, the
notices, the call and the close are the same, whatever follows. If the request can be
sent, the items are the merged windows, and all that follows is left unread. -/
theorem read_eq_read_of_append {request : Request} (hstream : request.stream = some true)
    {events : List Json} {chunks : List Chunk}
    (hdecode : events.map (fun event => (Chunk.decode event).outcome) = chunks.map .ok)
    (hclosed : ∀ window ∈ windows chunks, ClosedWindow window) (later later' : List Json)
    (failure failure' : Option String) :
    ∃ stream stream',
      ChatStream.start request (.accepted (events ++ later) failure) = .ok stream ∧
      ChatStream.start request (.accepted (events ++ later') failure') = .ok stream' ∧
      stream.read (some (windows chunks).length) = stream'.read (some (windows chunks).length) ∧
      (request.isSendable = true →
        (stream.read (some (windows chunks).length)).items = (windows chunks).map reduce ∧
        (stream.read (some (windows chunks).length)).ending = .stopped ∧
        (windows chunks ≠ [] →
          (stream.after (windows chunks).length).phase = .reading later failure .start)) := by
  obtain ⟨reading, hitems, hreading⟩ := ChatStream.read_append request hdecode hclosed
  have hstart (opening : Opening) :
      ChatStream.start request opening = .ok ⟨request, opening, .fresh⟩ := by
    rw [ChatStream.start, if_pos hstream]
  obtain ⟨hread, hafter⟩ := hreading later failure
  obtain ⟨hread', _⟩ := hreading later' failure'
  refine ⟨_, _, hstart _, hstart _, hread.trans hread'.symm, fun hsend => ?_⟩
  rw [hread]
  exact ⟨(hitems hsend).1, (hitems hsend).2, fun hsome => by rw [hafter hsend hsome]⟩

/-- The events of a call: one that starts it, and one that finishes it. -/
def shortCall : List Json :=
  [.obj [("choices", .arr [.obj [("delta", .obj [("tool_calls", .arr [.obj
      [("index", .int 0), ("function", .obj [("arguments", .str "1")])]])])]])],
    .obj [("choices", .arr [.obj [("finish_reason", .str "tool_calls")]])]]

/-- The call arrives alike, whether an event follows that is no chunk, or the service
breaks off. -/
theorem read_eq_read_of_append_shortCall :
    Request.greeting.stream = some true ∧
      ∃ chunks, shortCall.map (fun event => (Chunk.decode event).outcome) = chunks.map .ok ∧
        (∀ window ∈ windows chunks, ClosedWindow window) ∧ (windows chunks).length = 1 ∧
        ∃ stream stream',
          ChatStream.start .greeting (.accepted (shortCall ++ [.null]) none) = .ok stream ∧
          ChatStream.start .greeting (.accepted (shortCall ++ []) (some "reset")) = .ok stream' ∧
          stream.read (some 1) = stream'.read (some 1) ∧
          (stream.read (some 1)).ending = .stopped := by
  have hstream : Request.greeting.stream = some true := rfl
  have hsend : Request.greeting.isSendable = true := by decide
  let started : Chunk := ⟨none, none, none, none, some [⟨none, some ⟨none, none, none, none,
    some [⟨some 0, none, none, some ⟨none, some "1"⟩⟩]⟩, none, none⟩]⟩
  let finished : Chunk := ⟨none, none, none, none, some [⟨none, none, some .toolCalls, none⟩]⟩
  have hdecode : shortCall.map (fun event => (Chunk.decode event).outcome) =
      [started, finished].map .ok := by rfl
  have hwindows : windows [started, finished] = [[started, finished]] := by decide
  have hclosed : ∀ window ∈ windows [started, finished], ClosedWindow window := by
    rw [hwindows, List.forall_mem_singleton]
    exact Or.inr ⟨⟨started, rfl, by decide⟩, ⟨finished, rfl, by decide⟩, by decide⟩
  have hlength : (windows [started, finished]).length = 1 := by rw [hwindows]; rfl
  obtain ⟨stream, stream', hstart, hstart', hread, hrest⟩ :=
    read_eq_read_of_append hstream hdecode hclosed [.null] [] none (some "reset")
  rw [hlength] at hread hrest
  exact ⟨hstream, _, hdecode, hclosed, hlength, stream, stream', hstart, hstart', hread,
    (hrest hsend).2.1⟩

end ChatClient
