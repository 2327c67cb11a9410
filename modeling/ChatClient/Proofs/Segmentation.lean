import ChatClient.Chunk.Window

/-!
# The only segmentation of a stream

The windows of a stream are described here without the state that finds them:
a window is one plain chunk or one whole call, and only the last one may be a
call that the stream never finishes. Every stream has exactly one segmentation
of this kind, the one that `windows` computes.
-/

namespace ChatClient

namespace Chunk

/-- A window outside of a call: one chunk that starts none. -/
def PlainWindow (window : List Chunk) : Prop :=
  ∃ chunk, window = [chunk] ∧ chunk.startsCall = false

/-- A window that holds one whole call. One chunk may both start and finish it. -/
structure CallWindow (window : List Chunk) : Prop where
  /-- The first chunk starts the call. -/
  starts : ∃ chunk ∈ window.head?, chunk.startsCall = true
  /-- The last chunk finishes it. -/
  finishes : ∃ chunk ∈ window.getLast?, chunk.finishesCall = true
  /-- No chunk before the last finishes it. -/
  pending : ∀ chunk ∈ window.dropLast, chunk.finishesCall = false

/-- A window that holds a call which never ends. -/
structure UnfinishedWindow (window : List Chunk) : Prop where
  /-- The first chunk starts the call. -/
  starts : ∃ chunk ∈ window.head?, chunk.startsCall = true
  /-- No chunk finishes it. -/
  pending : ∀ chunk ∈ window, chunk.finishesCall = false

/-- A window to which nothing that arrives later can belong. -/
def ClosedWindow (window : List Chunk) : Prop := PlainWindow window ∨ CallWindow window

/-- A stream cut into consecutive windows, of which only the last may be unfinished. -/
structure Segmentation (windows : List (List Chunk)) (stream : List Chunk) : Prop where
  /-- Nothing is lost, duplicated or reordered. -/
  flatten_eq : windows.flatten = stream
  /-- No window is empty. -/
  nonempty : ∀ window ∈ windows, window ≠ []
  /-- Every window before the last is closed. -/
  closed : ∀ window ∈ windows.dropLast, ClosedWindow window
  /-- The last window is closed or unfinished. -/
  last : ∀ window ∈ windows.getLast?, ClosedWindow window ∨ UnfinishedWindow window

/-! ## Single windows -/

/-- A whole call ends with its only finish. -/
theorem CallWindow.eq_concat {window : List Chunk} (hcall : CallWindow window) :
    ∃ pending final, window = pending ++ [final] ∧ final.finishesCall = true ∧
      ∀ chunk ∈ pending, chunk.finishesCall = false := by
  obtain ⟨final, hlast, hfinal⟩ := hcall.finishes
  obtain ⟨pending, rfl⟩ := List.getLast?_eq_some_iff.mp hlast
  refine ⟨pending, final, rfl, hfinal, ?_⟩
  simpa using hcall.pending

/-- A closed window holds at least one chunk. -/
theorem ClosedWindow.ne_nil {window : List Chunk} (hclosed : ClosedWindow window) :
    window ≠ [] := by
  rcases hclosed with ⟨chunk, rfl, _⟩ | hcall
  · simp
  · obtain ⟨pending, final, rfl, _⟩ := hcall.eq_concat
    simp

/-- An unfinished call holds at least one chunk. -/
theorem UnfinishedWindow.ne_nil {window : List Chunk} (hopen : UnfinishedWindow window) :
    window ≠ [] := by
  obtain ⟨chunk, hhead, _⟩ := hopen.starts
  rintro rfl
  simp at hhead

/-! ## Reading one window -/

/-- Inside a call, a chunk that does not finish it is collected. -/
theorem windowsFrom_inside_cons_pending {chunk : Chunk} (hpending : chunk.finishesCall = false)
    (read rest : List Chunk) :
    windowsFrom ⟨⟨true⟩, read⟩ (chunk :: rest) = windowsFrom ⟨⟨true⟩, chunk :: read⟩ rest := by
  simp [windowsFrom, OpenWindow.push, WindowState.advance, hpending]

/-- Inside a call, a chunk that finishes it closes the window. -/
theorem windowsFrom_inside_cons_final {chunk : Chunk} (hfinal : chunk.finishesCall = true)
    (read rest : List Chunk) :
    windowsFrom ⟨⟨true⟩, read⟩ (chunk :: rest) = (read.reverse ++ [chunk]) :: windows rest := by
  simp [windowsFrom, windows, OpenWindow.push, WindowState.advance, hfinal, OpenWindow.start,
    WindowState.outside]

/-- A chunk that starts a call is read as if the call had begun before it. -/
theorem windows_eq_inside {stream : List Chunk}
    (hstarts : ∃ chunk ∈ stream.head?, chunk.startsCall = true) :
    windows stream = windowsFrom ⟨⟨true⟩, []⟩ stream := by
  obtain ⟨chunk, hhead, hstart⟩ := hstarts
  obtain ⟨rest, rfl⟩ := List.head?_eq_some_iff.mp hhead
  simp [windows, windowsFrom, OpenWindow.start, OpenWindow.push, WindowState.outside,
    WindowState.advance, hstart]

/-- Outside of a call, a chunk that starts none is a window of its own. -/
theorem windows_cons_plain {chunk : Chunk} (hplain : chunk.startsCall = false)
    (rest : List Chunk) : windows (chunk :: rest) = [chunk] :: windows rest := by
  simp [windows, windowsFrom, OpenWindow.start, OpenWindow.push, WindowState.outside,
    WindowState.advance, hplain]

/-- Inside a call, all chunks are collected that come before its finish. -/
theorem windowsFrom_inside_append {pending : List Chunk}
    (hpending : ∀ chunk ∈ pending, chunk.finishesCall = false) (read rest : List Chunk) :
    windowsFrom ⟨⟨true⟩, read⟩ (pending ++ rest) =
      windowsFrom ⟨⟨true⟩, pending.reverse ++ read⟩ rest := by
  induction pending generalizing read with
  | nil => rfl
  | cons chunk pending ih =>
    have hchunk : chunk.finishesCall = false := hpending chunk (by simp)
    have hrest : ∀ c ∈ pending, c.finishesCall = false := fun c hc => hpending c (by simp [hc])
    rw [List.cons_append, windowsFrom_inside_cons_pending hchunk, ih hrest, List.reverse_cons,
      List.append_assoc, List.singleton_append]

/-- A closed window at the beginning of a stream is its first window, whatever
follows it. -/
theorem windows_append_closed {window : List Chunk} (hclosed : ClosedWindow window)
    (rest : List Chunk) : windows (window ++ rest) = window :: windows rest := by
  rcases hclosed with ⟨chunk, rfl, hplain⟩ | hcall
  · exact windows_cons_plain hplain rest
  · obtain ⟨pending, final, heq, hfinal, hpending⟩ := hcall.eq_concat
    obtain ⟨chunk, hhead, hstart⟩ := hcall.starts
    have hhead' : (window ++ rest).head? = some chunk := by
      rw [List.head?_append, hhead, Option.some_or]
    rw [windows_eq_inside ⟨chunk, hhead', hstart⟩, heq, List.append_assoc,
      windowsFrom_inside_append hpending, List.singleton_append,
      windowsFrom_inside_cons_final hfinal]
    simp

/-- An unfinished call at the beginning of a stream is all of it. -/
theorem windows_unfinished {window : List Chunk} (hopen : UnfinishedWindow window) :
    windows window = [window] := by
  have hread := windowsFrom_inside_append hopen.pending [] []
  rw [List.append_nil, List.append_nil] at hread
  rw [windows_eq_inside hopen.starts, hread]
  simp [windowsFrom, OpenWindow.rest?, hopen.ne_nil]

/-! ## Cutting a stream -/

/-- A stream that is not empty begins with a closed window, or is one unfinished call. -/
theorem exists_closed_or_unfinished {stream : List Chunk} (hne : stream ≠ []) :
    (∃ window rest, stream = window ++ rest ∧ ClosedWindow window) ∨
      UnfinishedWindow stream := by
  obtain ⟨first, later, rfl⟩ := List.exists_cons_of_ne_nil hne
  cases hstart : first.startsCall with
  | false => exact Or.inl ⟨[first], later, rfl, Or.inl ⟨first, rfl, hstart⟩⟩
  | true =>
    cases hfind : (first :: later).find? finishesCall with
    | none =>
      right
      refine ⟨⟨first, rfl, hstart⟩, fun chunk hchunk => ?_⟩
      simpa using List.find?_eq_none.mp hfind chunk hchunk
    | some final =>
      left
      obtain ⟨hfinal, pending, rest, heq, hpending⟩ := List.find?_eq_some_iff_append.mp hfind
      -- The first chunk stays the first one, even where it is also the one that finishes.
      have hhead : (pending ++ [final]).head? = some first := by
        have hcons := congrArg List.head? heq
        cases pending <;> simpa [eq_comm] using hcons
      refine ⟨pending ++ [final], rest, by simpa using heq, Or.inr ?_⟩
      exact
        { starts := ⟨first, hhead, hstart⟩
          finishes := ⟨final, by simp, hfinal⟩
          pending := fun chunk hchunk => by simpa using hpending chunk (by simpa using hchunk) }

/-- A property of streams holds of all if it holds of the empty one and of every
unfinished call, and if a closed window can be put in front. -/
theorem stream_induction {motive : List Chunk → Prop} (nil : motive [])
    (unfinished : ∀ window, UnfinishedWindow window → motive window)
    (append : ∀ window rest, ClosedWindow window → motive rest → motive (window ++ rest))
    (stream : List Chunk) : motive stream := by
  induction hlength : stream.length using Nat.strongRecOn generalizing stream with
  | ind length ih =>
    by_cases hne : stream = []
    · rwa [hne]
    · rcases exists_closed_or_unfinished hne with ⟨window, rest, rfl, hclosed⟩ | hopen
      · -- The closed window holds a chunk, so what follows it is shorter.
        have hpos : 0 < window.length := List.length_pos_iff.mpr hclosed.ne_nil
        have hshorter : rest.length < length := by
          rw [← hlength, List.length_append]
          omega
        exact append window rest hclosed (ih rest.length hshorter rest rfl)
      · exact unfinished stream hopen

/-! ## Segmentations -/

/-- The empty stream has the empty segmentation. -/
theorem Segmentation.nil : Segmentation [] [] := by
  constructor <;> simp

/-- An unfinished call is a segmentation of itself. -/
theorem Segmentation.unfinished {window : List Chunk} (hopen : UnfinishedWindow window) :
    Segmentation [window] window where
  flatten_eq := by simp
  nonempty := by simpa using hopen.ne_nil
  closed := by simp
  last := by simpa using Or.inr hopen

/-- A closed window can be put before every segmentation. -/
theorem Segmentation.cons {window : List Chunk} {windows : List (List Chunk)}
    {stream : List Chunk} (hclosed : ClosedWindow window) (hrest : Segmentation windows stream) :
    Segmentation (window :: windows) (window ++ stream) where
  flatten_eq := by rw [List.flatten_cons, hrest.flatten_eq]
  nonempty := by
    intro w hw
    rcases List.mem_cons.mp hw with rfl | hw
    · exact hclosed.ne_nil
    · exact hrest.nonempty w hw
  closed := by
    intro w hw
    cases windows with
    | nil => simp at hw
    | cons next windows =>
      rw [List.dropLast_cons_cons] at hw
      rcases List.mem_cons.mp hw with rfl | hw
      · exact hclosed
      · exact hrest.closed w hw
  last := by
    intro w hw
    cases windows with
    | nil =>
      obtain rfl : window = w := by simpa using hw
      exact Or.inl hclosed
    | cons next windows =>
      rw [List.getLast?_cons_cons] at hw
      exact hrest.last w hw

/-- The first window of a segmentation is closed and followed by a segmentation
of the rest, or it is unfinished and the only one. -/
theorem Segmentation.cases_cons {window : List Chunk} {windows : List (List Chunk)}
    {stream : List Chunk} (hseg : Segmentation (window :: windows) stream) :
    (ClosedWindow window ∧ ∃ rest, stream = window ++ rest ∧ Segmentation windows rest) ∨
      (UnfinishedWindow window ∧ windows = [] ∧ stream = window) := by
  have hstream : stream = window ++ windows.flatten := by
    rw [← hseg.flatten_eq, List.flatten_cons]
  cases windows with
  | nil =>
    rcases hseg.last window (by simp) with hclosed | hopen
    · exact Or.inl ⟨hclosed, [], hstream, Segmentation.nil⟩
    · exact Or.inr ⟨hopen, rfl, by simpa using hstream⟩
  | cons next windows =>
    left
    refine ⟨hseg.closed window (by simp), _, hstream, ?_⟩
    exact
      { flatten_eq := rfl
        nonempty := fun w hw => hseg.nonempty w (List.mem_cons_of_mem _ hw)
        closed := fun w hw => hseg.closed w (by
          rw [List.dropLast_cons_cons]
          exact List.mem_cons_of_mem _ hw)
        last := fun w hw => hseg.last w (by rwa [List.getLast?_cons_cons]) }

/-- The windows of a stream are a segmentation of it. -/
theorem segmentation_windows (stream : List Chunk) : Segmentation (windows stream) stream := by
  induction stream using stream_induction with
  | nil => exact Segmentation.nil
  | unfinished window hopen =>
    rw [windows_unfinished hopen]
    exact Segmentation.unfinished hopen
  | append window rest hclosed ih =>
    rw [windows_append_closed hclosed]
    exact Segmentation.cons hclosed ih

/-- A segmentation of a stream consists of its windows: each is read back from
the front of what it precedes. -/
theorem Segmentation.eq_windows {segments : List (List Chunk)} {stream : List Chunk}
    (hseg : Segmentation segments stream) : segments = windows stream := by
  induction segments generalizing stream with
  | nil =>
    obtain rfl : [] = stream := hseg.flatten_eq
    rfl
  | cons window segments ih =>
    rcases hseg.cases_cons with ⟨hclosed, rest, rfl, hrest⟩ | ⟨hopen, rfl, rfl⟩
    · rw [windows_append_closed hclosed, ← ih hrest]
    · rw [windows_unfinished hopen]

/-- A list of windows is a segmentation of a stream exactly if it is the list
that `windows` computes. -/
theorem segmentation_iff_eq_windows (segments : List (List Chunk)) (stream : List Chunk) :
    Segmentation segments stream ↔ segments = windows stream := by
  constructor
  · exact Segmentation.eq_windows
  · rintro rfl
    exact segmentation_windows stream

end Chunk

end ChatClient
