import ChatClient.Chunk.Window

/-!
# Merging while reading

A stream can be merged without holding its chunks: each is folded into one chunk as it is
read, and that chunk is given out when its window closes, or at the end if it has not. Such
a reader knows of the open window no more than the state and the merge of its chunks, and
this is all that it needs: it gives out one chunk for each window, the same that merging the
whole windows gives.
-/

namespace ChatClient

namespace Chunk

/-- What is given out while a stream is traced: the merge of each window that closes, and at
the end the merge of the window that the last chunk has left open. -/
def givenOut (traces : List Trace) : List Chunk :=
  (traces.filter Trace.closes).map Trace.merged ++
    ((traces.getLast?.filter fun last => !last.closes).map Trace.merged).toList

/-- The last trace gives out its merge, whether it closes a window or not. -/
theorem givenOut_singleton (last : Trace) : givenOut [last] = [last.merged] := by
  cases hcloses : last.closes <;> simp [givenOut, hcloses, Option.filter]

/-- A trace before others gives out its merge where it closes a window. -/
theorem givenOut_cons_cons (first second : Trace) (traces : List Trace) :
    givenOut (first :: second :: traces) =
      (if first.closes then [first.merged] else []) ++ givenOut (second :: traces) := by
  cases hcloses : first.closes <;>
    simp [givenOut, hcloses, List.filter_cons, List.getLast?_cons_cons]

end Chunk

namespace OpenWindow

open Chunk (Trace reduce empty)

/-- What the chunks of the window are merged to. -/
def merged (window : OpenWindow) : Chunk := reduce window.chunks.reverse

/-- The trace that a chunk leaves behind in the window. -/
def trace (window : OpenWindow) (chunk : Chunk) : Trace :=
  ⟨(window.state.advance chunk).1, (window.state.advance chunk).2, window.merged.merge chunk⟩

variable {window : OpenWindow} {chunk : Chunk}

/-- The chunk is folded into the merge of those before it. -/
theorem merged_trace (window : OpenWindow) (chunk : Chunk) :
    reduce (chunk :: window.chunks).reverse = (window.trace chunk).merged := by
  rw [List.reverse_cons, Chunk.reduce_append]
  rfl

/-- A chunk that closes the window gives it out, and nothing is left of it. -/
theorem push_of_closes (hcloses : (window.trace chunk).closes = true) :
    window.push chunk =
      (some (chunk :: window.chunks).reverse, ⟨(window.trace chunk).state, []⟩) := by
  simp only [trace] at hcloses ⊢
  rw [push]
  cases hadvance : window.state.advance chunk with
  | mk state closes =>
    rw [hadvance] at hcloses
    obtain rfl : closes = true := hcloses
    rfl

/-- A chunk that does not close the window is held in it. -/
theorem push_of_not_closes (hopen : (window.trace chunk).closes = false) :
    window.push chunk = (none, ⟨(window.trace chunk).state, chunk :: window.chunks⟩) := by
  simp only [trace] at hopen ⊢
  rw [push]
  cases hadvance : window.state.advance chunk with
  | mk state closes =>
    rw [hadvance] at hopen
    obtain rfl : closes = false := hopen
    rfl

end OpenWindow

namespace Chunk

/-- A chunk leaves its trace in the window, and the next one that in the window after it. -/
theorem traces_cons (window : OpenWindow) (chunk : Chunk) (chunks : List Chunk) :
    traces window.state window.merged (chunk :: chunks) =
      window.trace chunk ::
        traces (window.push chunk).2.state (window.push chunk).2.merged chunks := by
  have hnext : traces window.state window.merged (chunk :: chunks) =
      window.trace chunk :: traces (window.trace chunk).state
        (if (window.trace chunk).closes then empty else (window.trace chunk).merged) chunks := rfl
  cases hcloses : (window.trace chunk).closes with
  | true =>
    rw [hnext, hcloses, OpenWindow.push_of_closes hcloses]
    rfl
  | false =>
    rw [hnext, hcloses, OpenWindow.push_of_not_closes hcloses, ← OpenWindow.merged_trace]
    rfl

/-- From any window on, what is given out are the merges of the windows. -/
theorem givenOut_traces_cons (window : OpenWindow) (chunk : Chunk) (chunks : List Chunk) :
    givenOut (traces window.state window.merged (chunk :: chunks)) =
      (windowsFrom window (chunk :: chunks)).map reduce := by
  induction chunks generalizing window chunk with
  | nil =>
    rw [traces_cons, traces, givenOut_singleton, ← OpenWindow.merged_trace, windowsFrom]
    cases hcloses : (window.trace chunk).closes with
    | true => simp [OpenWindow.push_of_closes hcloses, windowsFrom, OpenWindow.rest?]
    | false => simp [OpenWindow.push_of_not_closes hcloses, windowsFrom, OpenWindow.rest?]
  | cons next chunks ih =>
    have hrest := ih (window.push chunk).2 next
    have hclosed : (if (window.trace chunk).closes then [(window.trace chunk).merged] else []) =
        (window.push chunk).1.toList.map reduce := by
      rw [← OpenWindow.merged_trace]
      cases hcloses : (window.trace chunk).closes with
      | true => simp [OpenWindow.push_of_closes hcloses]
      | false => simp [OpenWindow.push_of_not_closes hcloses]
    rw [windowsFrom, List.map_append, ← hrest, ← hclosed, traces_cons, traces_cons,
      givenOut_cons_cons]

/-- **Merging while reading.** What is given out while a stream is traced from its beginning
on is the merged stream. -/
theorem givenOut_traces (chunks : List Chunk) :
    givenOut (traces .outside empty chunks) = mergeStream chunks := by
  cases chunks with
  | nil => rfl
  | cons chunk chunks => exact givenOut_traces_cons .start chunk chunks

end Chunk

end ChatClient
