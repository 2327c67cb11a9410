import ChatClient.Proofs.MergedStream
import ChatClient.Proofs.OpenWindow

/-!
# Streams that go on

A stream that has been read so far leaves two things behind: the windows that are
closed, and the chunks that are held for a window that is still open. What is read
later belongs to the chunks that are held or to what follows them, so the closed
windows stay as they are, and nothing but the chunks that are held has to be known
to read on.
-/

namespace ChatClient

namespace Chunk

/-- The chunks that are held at the end of a stream, those of its unfinished window. -/
def held (chunks : List Chunk) : List Chunk :=
  ((windows chunks).filter fun window => UnfinishedWindow window).flatten

/-! ## Closed windows and what is held -/

section Parts

variable {window : List Chunk}

/-- A closed window in front is one of the closed windows. -/
theorem closedWindows_append_closed (hclosed : ClosedWindow window) (rest : List Chunk) :
    closedWindows (window ++ rest) = window :: closedWindows rest := by
  rw [closedWindows, windows_append_closed hclosed,
    List.filter_cons_of_pos (by simpa using hclosed.not_unfinishedWindow), closedWindows]

/-- A closed window in front is not held. -/
theorem held_append_closed (hclosed : ClosedWindow window) (rest : List Chunk) :
    held (window ++ rest) = held rest := by
  rw [held, windows_append_closed hclosed,
    List.filter_cons_of_neg (by simpa using hclosed.not_unfinishedWindow), held]

/-- No window is closed within an unfinished call. -/
theorem closedWindows_unfinished (hopen : UnfinishedWindow window) : closedWindows window = [] := by
  simp [closedWindows, windows_unfinished hopen, hopen]

/-- All of an unfinished call is held. -/
theorem held_unfinished (hopen : UnfinishedWindow window) : held window = window := by
  simp [held, windows_unfinished hopen, hopen]

end Parts

/-- A stream that goes on has the windows that were closed before, and then those of
what is held and what follows. -/
theorem windows_append (first second : List Chunk) :
    windows (first ++ second) = closedWindows first ++ windows (held first ++ second) := by
  induction first using stream_induction with
  | nil => rfl
  | unfinished window hopen =>
    rw [closedWindows_unfinished hopen, held_unfinished hopen, List.nil_append]
  | append window rest hclosed ih =>
    rw [List.append_assoc, windows_append_closed hclosed, ih, closedWindows_append_closed hclosed,
      held_append_closed hclosed, List.cons_append]

/-- The closed windows of a stream are closed, and what is held is an unfinished call. -/
theorem windows_cases (chunks : List Chunk) :
    (∀ window ∈ closedWindows chunks, ClosedWindow window) ∧
      ((held chunks = [] ∧ windows chunks = closedWindows chunks) ∨
        (UnfinishedWindow (held chunks) ∧
          windows chunks = closedWindows chunks ++ [held chunks])) := by
  induction chunks using stream_induction with
  | nil => exact ⟨by simp [closedWindows, windows, windowsFrom, OpenWindow.rest?, OpenWindow.start],
      Or.inl ⟨rfl, rfl⟩⟩
  | unfinished window hopen =>
    rw [closedWindows_unfinished hopen, held_unfinished hopen, windows_unfinished hopen]
    exact ⟨by simp, Or.inr ⟨hopen, rfl⟩⟩
  | append window rest hclosed ih =>
    obtain ⟨hall, hcases⟩ := ih
    rw [closedWindows_append_closed hclosed, held_append_closed hclosed,
      windows_append_closed hclosed]
    refine ⟨by simpa using And.intro hclosed hall, hcases.imp ?_ ?_⟩
    · rintro ⟨hnone, hwindows⟩
      exact ⟨hnone, by rw [hwindows]⟩
    · rintro ⟨hopen, hwindows⟩
      exact ⟨hopen, by rw [hwindows, List.cons_append]⟩

/-! ## The last window -/

section Last

variable {chunks : List Chunk}

/-- Nothing is held where the last window is closed, or there is none. -/
theorem held_of_last_closed (hlast : ∀ window ∈ (windows chunks).getLast?, ClosedWindow window) :
    closedWindows chunks = windows chunks ∧ held chunks = [] := by
  obtain ⟨_, ⟨hnone, hwindows⟩ | ⟨hopen, hwindows⟩⟩ := windows_cases chunks
  · exact ⟨hwindows.symm, hnone⟩
  · have hclosed : ClosedWindow (held chunks) := hlast _ (by simp [hwindows])
    exact absurd hopen hclosed.not_unfinishedWindow

/-- The last window is held where it is open, and the others are closed. -/
theorem held_of_last_open {window : List Chunk} (hlast : window ∈ (windows chunks).getLast?)
    (hopen : ¬ClosedWindow window) :
    closedWindows chunks = (windows chunks).dropLast ∧ held chunks = window := by
  obtain ⟨hall, ⟨_, hwindows⟩ | ⟨_, hwindows⟩⟩ := windows_cases chunks
  · have hmem : window ∈ closedWindows chunks := by
      rw [← hwindows]
      exact List.mem_of_getLast? hlast
    exact absurd (hall window hmem) hopen
  · rw [hwindows, List.getLast?_concat, Option.mem_some] at hlast
    exact ⟨by rw [hwindows, List.dropLast_concat], hlast⟩

end Last

/-- **Splitting.** A stream that goes on where its last window is closed has the windows
of both parts; where its last window is open, this one is read on together with what
follows. The windows that a reader has been given, and the chunks that they are merged to,
stay as they are. -/
theorem windows_append_split (first second : List Chunk) :
    ((∀ window ∈ (windows first).getLast?, ClosedWindow window) →
      windows (first ++ second) = windows first ++ windows second ∧
      mergeStream (first ++ second) = mergeStream first ++ mergeStream second) ∧
    (∀ window ∈ (windows first).getLast?, ¬ClosedWindow window →
      windows (first ++ second) = (windows first).dropLast ++ windows (window ++ second) ∧
      mergeStream (first ++ second) =
        (mergeStream first).dropLast ++ mergeStream (window ++ second)) ∧
    closedFrom .start first <+: windows (first ++ second) ∧
    (closedFrom .start first).map reduce <+: mergeStream (first ++ second) := by
  have hwindows := windows_append first second
  refine ⟨fun hlast => ?_, fun window hlast hopen => ?_, ?_, ?_⟩
  · obtain ⟨hclosed, hnone⟩ := held_of_last_closed hlast
    rw [hclosed, hnone, List.nil_append] at hwindows
    exact ⟨hwindows, by simp only [mergeStream, hwindows, List.map_append]⟩
  · obtain ⟨hclosed, hheld⟩ := held_of_last_open hlast hopen
    rw [hclosed, hheld] at hwindows
    exact ⟨hwindows, by simp only [mergeStream, hwindows, List.map_append, List.map_dropLast]⟩
  · rw [← closedWindows_eq, hwindows]
    exact List.prefix_append _ _
  · rw [← closedWindows_eq, mergeStream, hwindows, List.map_append]
    exact List.prefix_append _ _

/-- A stream of a text and the beginning of a call goes on with the rest of the call and
another text, and the stream that ends with the call goes on with the text. -/
theorem windows_append_split_insideCall :
    let text := { empty with id := some "text" }
    let started := { empty with choices := some [⟨none, some ⟨none, none, none, none,
      some [⟨some 0, none, none, some ⟨none, some "1"⟩⟩]⟩, none, none⟩] }
    let finished := { empty with choices := some [⟨none, none, some .toolCalls, none⟩] }
    ([started] ∈ (windows [text, started]).getLast? ∧ ¬ClosedWindow [started] ∧
      windows ([text, started] ++ [finished, text]) =
        [[text]] ++ windows ([started] ++ [finished, text])) ∧
    (∀ window ∈ (windows [text, started, finished]).getLast?, ClosedWindow window) ∧
      windows ([text, started, finished] ++ [text]) =
        [[text], [started, finished]] ++ windows [text] := by
  intro text started finished
  have hlast : [started] ∈ (windows [text, started]).getLast? := by decide
  have hunfinished : UnfinishedWindow [started] := by decide
  have hopen : ¬ClosedWindow [started] := fun hclosed =>
    hclosed.not_unfinishedWindow hunfinished
  have hwindows : windows [text, started, finished] = [[text], [started, finished]] := by decide
  have hclosed : ∀ window ∈ (windows [text, started, finished]).getLast?, ClosedWindow window := by
    rw [hwindows]
    rintro window ⟨⟩
    exact Or.inr ⟨⟨started, rfl, by decide⟩, ⟨finished, rfl, by decide⟩, by decide⟩
  obtain ⟨_, hsplit, _⟩ := windows_append_split [text, started] [finished, text]
  obtain ⟨hjoin, _⟩ := windows_append_split [text, started, finished] [text]
  exact ⟨⟨hlast, hopen, (hsplit _ hlast hopen).1⟩, hclosed, (hjoin hclosed).1⟩

end Chunk

end ChatClient
