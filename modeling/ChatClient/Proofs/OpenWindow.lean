import ChatClient.Proofs.Segmentation

/-!
# The window that is being read

While a stream is read, its chunks are held back until their window is closed.
This file says what is held at any time, nothing or an unfinished call, and what
one more chunk does to it. The windows that are closed along the way are the
closed windows of the stream; what is held at its end is its unfinished window,
if there is one.
-/

namespace ChatClient

namespace Chunk

instance (window : List Chunk) : Decidable (UnfinishedWindow window) :=
  decidable_of_iff
    ((∃ chunk ∈ window.head?, chunk.startsCall = true) ∧
      ∀ chunk ∈ window, chunk.finishesCall = false)
    ⟨fun h => ⟨h.1, h.2⟩, fun h => ⟨h.starts, h.pending⟩⟩

/-- No closed window is unfinished. -/
theorem ClosedWindow.not_unfinishedWindow {window : List Chunk} (hclosed : ClosedWindow window) :
    ¬UnfinishedWindow window := by
  intro hopen
  rcases hclosed with ⟨chunk, rfl, hplain⟩ | hcall
  · obtain ⟨first, hhead, hstart⟩ := hopen.starts
    obtain rfl : chunk = first := by simpa using hhead
    exact Bool.false_ne_true (hplain.symm.trans hstart)
  · obtain ⟨pending, final, rfl, hfinal, _⟩ := hcall.eq_concat
    exact Bool.false_ne_true ((hopen.pending final (by simp)).symm.trans hfinal)

/-- The windows of a stream to which nothing that arrives later can belong. -/
def closedWindows (chunks : List Chunk) : List (List Chunk) :=
  (windows chunks).filter fun window => ¬UnfinishedWindow window

end Chunk

namespace OpenWindow

open Chunk (ClosedWindow UnfinishedWindow)

/-- What is held between two chunks: nothing, or a call that is not finished. -/
def Sound (window : OpenWindow) : Prop :=
  window = start ∨ (window.state = ⟨true⟩ ∧ UnfinishedWindow window.chunks.reverse)

/-- Nothing is held before the first chunk. -/
theorem sound_start : Sound start := Or.inl rfl

/-- What one chunk can do: it closes the window, which is given out whole, or the
window with the chunk is an unfinished call. -/
theorem Sound.push_cases {window : OpenWindow} (hsound : window.Sound) (chunk : Chunk) :
    (∃ closed, window.push chunk = (some closed, start) ∧ ClosedWindow closed) ∨
      ∃ held, window.push chunk = (none, held) ∧ held.Sound ∧ held.chunks ≠ [] := by
  rcases hsound with rfl | ⟨hinside, hopen⟩
  · cases hstart : chunk.startsCall with
    | false =>
      left
      refine ⟨[chunk], ?_, Or.inl ⟨chunk, rfl, hstart⟩⟩
      simp [push, start, WindowState.advance, WindowState.outside, hstart]
    | true =>
      cases hfinish : chunk.finishesCall with
      | true =>
        left
        refine ⟨[chunk], ?_, Or.inr ⟨⟨chunk, rfl, hstart⟩, ⟨chunk, rfl, hfinish⟩, by simp⟩⟩
        simp [push, start, WindowState.advance, WindowState.outside, hstart, hfinish]
      | false =>
        right
        refine ⟨⟨⟨true⟩, [chunk]⟩, ?_, Or.inr ⟨rfl, ⟨chunk, rfl, hstart⟩, ?_⟩, by simp⟩
        · simp [push, start, WindowState.advance, WindowState.outside, hstart, hfinish]
        · simpa using hfinish
  · obtain ⟨state, chunks⟩ := window
    obtain rfl : state = ⟨true⟩ := hinside
    obtain ⟨first, hhead, hstart⟩ := hopen.starts
    have hhead' : first ∈ (chunks.reverse ++ [chunk]).head? := by
      rw [List.head?_append, Option.mem_def.mp hhead]
      rfl
    cases hfinish : chunk.finishesCall with
    | true =>
      left
      refine ⟨chunks.reverse ++ [chunk], ?_, Or.inr ⟨⟨first, hhead', hstart⟩, ?_, ?_⟩⟩
      · simp [push, start, WindowState.advance, WindowState.outside, hfinish]
      · exact ⟨chunk, by simp, hfinish⟩
      · simpa using hopen.pending
    | false =>
      right
      refine ⟨⟨⟨true⟩, chunk :: chunks⟩, ?_, Or.inr ⟨rfl, ?_⟩, by simp⟩
      · simp [push, WindowState.advance, hfinish]
      · rw [List.reverse_cons]
        refine ⟨⟨first, hhead', hstart⟩, fun c hc => ?_⟩
        rcases List.mem_append.mp hc with hc | hc
        · exact hopen.pending c hc
        · obtain rfl : c = chunk := by simpa using hc
          exact hfinish

/-- What is held at the end of a stream is an unfinished call. -/
theorem Sound.unfinishedWindow_of_rest? {window : OpenWindow} (hsound : window.Sound)
    {held : List Chunk} (hheld : window.rest? = some held) : UnfinishedWindow held := by
  rcases hsound with rfl | ⟨_, hopen⟩
  · simp [rest?, start] at hheld
  · rw [rest?, if_neg (by simpa using hopen.ne_nil), Option.some.injEq] at hheld
    rwa [← hheld]

end OpenWindow

namespace Chunk

/-- The windows that chunks close, read after those that are held. -/
def closedFrom (window : OpenWindow) : List Chunk → List (List Chunk)
  | [] => []
  | chunk :: chunks =>
    let (closed, window) := window.push chunk
    closed.toList ++ closedFrom window chunks

/-- All windows that chunks close, are closed windows of the stream, in their
order, and no others are. -/
theorem filter_windowsFrom {window : OpenWindow} (hsound : window.Sound) (chunks : List Chunk) :
    (windowsFrom window chunks).filter (fun window => ¬UnfinishedWindow window) =
      closedFrom window chunks := by
  induction chunks generalizing window with
  | nil =>
    cases hheld : window.rest? with
    | none => simp [windowsFrom, closedFrom, hheld]
    | some held =>
      have hopen := hsound.unfinishedWindow_of_rest? hheld
      simp [windowsFrom, closedFrom, hheld, hopen]
  | cons chunk chunks ih =>
    rcases hsound.push_cases chunk with ⟨closed, hpush, hclosed⟩ | ⟨held, hpush, hheld, _⟩
    · simp only [windowsFrom, closedFrom, hpush, Option.toList_some, List.singleton_append]
      rw [List.filter_cons_of_pos (by simpa using hclosed.not_unfinishedWindow),
        ih OpenWindow.sound_start]
    · simp only [windowsFrom, closedFrom, hpush, Option.toList_none, List.nil_append]
      exact ih hheld

/-- The closed windows of a stream are those that its chunks close. -/
theorem closedWindows_eq (chunks : List Chunk) : closedWindows chunks = closedFrom .start chunks :=
  filter_windowsFrom OpenWindow.sound_start chunks

end Chunk

end ChatClient
