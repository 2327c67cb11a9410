import ChatClient.Proofs.FirstChoice
import ChatClient.Proofs.Segmentation

/-!
# Merged streams stay as they are

A window is reduced to one chunk that plays the same part in a stream: a plain
chunk is its own reduction, a whole call becomes a chunk that starts and
finishes a call, and an unfinished call becomes a chunk that only starts one.
A merged stream therefore has one window per chunk, and merging it again
changes nothing.
-/

namespace ChatClient

namespace ToolCall

/-- Merged fragments carry arguments if one of them does. -/
theorem hasArguments_merge (previous current : ToolCall) :
    (previous.merge current).hasArguments =
      (previous.hasArguments || current.hasArguments) := by
  obtain ⟨_, _, _, previous⟩ := previous
  obtain ⟨_, _, _, current⟩ := current
  rcases previous with _ | ⟨_, previous⟩ <;> rcases current with _ | ⟨_, current⟩
  · rfl
  · cases current <;> rfl
  · cases previous <;> rfl
  · cases previous <;> cases current <;> rfl

/-- Where one call is merged with a fragment, arguments come from the calls or
from the fragment. -/
theorem any_hasArguments_modify {calls : List ToolCall} {slot : Nat}
    (hslot : slot < calls.length) (fragment : ToolCall) :
    (calls.modify slot (·.merge fragment)).any hasArguments =
      (calls.any hasArguments || fragment.hasArguments) := by
  induction calls generalizing slot with
  | nil => simp at hslot
  | cons call calls ih =>
    cases slot with
    | zero =>
      rw [List.modify_zero_cons, List.any_cons, List.any_cons, hasArguments_merge, Bool.or_assoc,
        Bool.or_comm fragment.hasArguments, ← Bool.or_assoc]
    | succ slot =>
      have hslot' : slot < calls.length := by simpa using hslot
      rw [List.modify_succ_cons, List.any_cons, List.any_cons, ih hslot', Bool.or_assoc]

/-- Entering fragments loses no arguments and makes none up. -/
theorem any_hasArguments_enterAll {table : SlotTable} {keys : List Int}
    (hkeys : table.Locates keys) (arrivals : List (Int × ToolCall)) :
    (arrivals.foldl SlotTable.enter table).calls.any hasArguments =
      (table.calls.any hasArguments || (arrivals.map Prod.snd).any hasArguments) := by
  induction arrivals generalizing table keys with
  | nil => simp
  | cons arrival arrivals ih =>
    obtain ⟨key, fragment⟩ := arrival
    rw [List.foldl_cons, List.map_cons, List.any_cons, ← Bool.or_assoc]
    rcases hkeys.enter_cases key fragment with
      ⟨slot, _, hslot, hcalls, hkeys'⟩ | ⟨_, hcalls, hkeys'⟩
    · rw [ih hkeys', hcalls, any_hasArguments_modify hslot]
    · rw [ih hkeys', hcalls, List.any_append, List.any_cons, List.any_nil, Bool.or_false]

/-- Calls have arguments after a chunk if they had some before, or the chunk brings some. -/
theorem any_hasArguments_absorb (calls fragments : List ToolCall) :
    (absorb calls fragments).any hasArguments =
      (calls.any hasArguments || fragments.any hasArguments) := by
  by_cases hcalls : calls = []
  · simp [hcalls]
  · rw [absorb_of_ne_nil hcalls, any_hasArguments_enterAll (SlotTable.locates_ofCalls calls),
      arrivals_map_snd]
    rfl

end ToolCall

namespace Chunk

/-- A merged chunk starts a call if one of the two does. -/
theorem startsCall_merge (accumulated incoming : Chunk) :
    (merge accumulated incoming).startsCall =
      (accumulated.startsCall || incoming.startsCall) := by
  rw [startsCall, fragments_merge, ToolCall.any_hasArguments_absorb]
  rfl

/-- A reduced window starts a call if one of its chunks does. -/
theorem startsCall_reduce (window : List Chunk) :
    (reduce window).startsCall = window.any startsCall := by
  induction window using List.reverseRecOn with
  | nil => rfl
  | append_singleton window chunk ih =>
    rw [reduce_concat, startsCall_merge, ih, List.any_append, List.any_cons, List.any_nil,
      Bool.or_false]

/-- A chunk finishes a call if its finish reason says so. -/
theorem finishesCall_eq (chunk : Chunk) :
    chunk.finishesCall = (chunk.finishReason?.map FinishReason.isToolCall).getD false := rfl

/-- A reduced window finishes a call if the last finish reason in it says so. -/
theorem finishesCall_reduce (window : List Chunk) :
    (reduce window).finishesCall =
      ((window.filterMap finishReason?).getLast?.map FinishReason.isToolCall).getD false := by
  rw [finishesCall_eq, finishReason?_reduce]

/-- **Starts and finishes of reductions.** A reduced window starts a call exactly where one
of its chunks does, and it finishes a call exactly where the last finish reason in it is
that of a tool call. -/
theorem startsCall_and_finishesCall_reduce (window : List Chunk) :
    ((reduce window).startsCall = true ↔ ∃ chunk ∈ window, chunk.startsCall = true) ∧
    ((reduce window).finishesCall = true ↔
      ∃ reason ∈ (window.filterMap finishReason?).getLast?, reason.isToolCall = true) := by
  constructor
  · rw [startsCall_reduce, List.any_eq_true]
  · rw [finishesCall_reduce]
    cases (window.filterMap finishReason?).getLast? with
    | none => simp
    | some reason => simp

/-- A window that begins with the start of a call is reduced to a start. -/
theorem startsCall_reduce_of_head {window : List Chunk}
    (hstarts : ∃ chunk ∈ window.head?, chunk.startsCall = true) :
    (reduce window).startsCall = true := by
  obtain ⟨chunk, hhead, hstart⟩ := hstarts
  rw [startsCall_reduce, List.any_eq_true]
  exact ⟨chunk, List.mem_of_mem_head? hhead, hstart⟩

/-- A window that ends with the finish of a call is reduced to a finish. -/
theorem finishesCall_reduce_concat (pending : List Chunk) {final : Chunk}
    (hfinal : final.finishesCall = true) :
    (reduce (pending ++ [final])).finishesCall = true := by
  rw [finishesCall_eq] at hfinal ⊢
  rw [finishReason?_reduce]
  cases hreason : final.finishReason? with
  | none => simp [hreason] at hfinal
  | some reason => simpa [hreason] using hfinal

/-- A window in which no call is finished is not reduced to a finish. -/
theorem finishesCall_reduce_of_pending {window : List Chunk}
    (hpending : ∀ chunk ∈ window, chunk.finishesCall = false) :
    (reduce window).finishesCall = false := by
  rw [finishesCall_reduce]
  cases hlast : (window.filterMap finishReason?).getLast? with
  | none => rfl
  | some reason =>
    obtain ⟨chunk, hchunk, hreason⟩ := List.mem_filterMap.mp (List.mem_of_getLast? hlast)
    simpa [finishesCall_eq, hreason] using hpending chunk hchunk

/-- The reduction of a closed window is a closed window. -/
theorem ClosedWindow.reduce {window : List Chunk} (hclosed : ClosedWindow window) :
    ClosedWindow [Chunk.reduce window] := by
  rcases hclosed with ⟨chunk, rfl, hplain⟩ | hcall
  · exact Or.inl ⟨chunk, by rw [reduce_singleton], hplain⟩
  · right
    obtain ⟨pending, final, heq, hfinal, _⟩ := hcall.eq_concat
    exact
      { starts := ⟨_, rfl, startsCall_reduce_of_head hcall.starts⟩
        finishes := ⟨_, rfl, by rw [heq]; exact finishesCall_reduce_concat pending hfinal⟩
        pending := by simp }

/-- The reduction of an unfinished call is an unfinished call. -/
theorem UnfinishedWindow.reduce {window : List Chunk} (hopen : UnfinishedWindow window) :
    UnfinishedWindow [Chunk.reduce window] where
  starts := ⟨_, rfl, startsCall_reduce_of_head hopen.starts⟩
  pending := by simpa using finishesCall_reduce_of_pending hopen.pending

/-- A closed window at the beginning of a stream is merged to the first chunk. -/
theorem mergeStream_append_closed {window : List Chunk} (hclosed : ClosedWindow window)
    (rest : List Chunk) : mergeStream (window ++ rest) = reduce window :: mergeStream rest := by
  rw [mergeStream, windows_append_closed hclosed, List.map_cons, mergeStream]

/-- An unfinished call is merged to one chunk. -/
theorem mergeStream_unfinished {window : List Chunk} (hopen : UnfinishedWindow window) :
    mergeStream window = [reduce window] := by
  rw [mergeStream, windows_unfinished hopen, List.map_singleton]

/-- A merged stream has one window for each of its chunks. -/
theorem windows_mergeStream (stream : List Chunk) :
    windows (mergeStream stream) = (mergeStream stream).map fun chunk => [chunk] := by
  induction stream using stream_induction with
  | nil => rfl
  | unfinished window hopen =>
    rw [mergeStream_unfinished hopen, windows_unfinished hopen.reduce, List.map_singleton]
  | append window rest hclosed ih =>
    have hfirst := windows_append_closed hclosed.reduce (mergeStream rest)
    rw [List.singleton_append] at hfirst
    rw [mergeStream_append_closed hclosed, hfirst, ih, List.map_cons]

/-- Merging a merged stream gives it back, and each of its chunks is a window of
its own, the last one too where the stream ended inside a call. -/
theorem mergeStream_mergeStream (stream : List Chunk) :
    mergeStream (mergeStream stream) = mergeStream stream ∧
      windows (mergeStream stream) = (mergeStream stream).map fun chunk => [chunk] := by
  refine ⟨?_, windows_mergeStream stream⟩
  calc mergeStream (mergeStream stream)
      = (windows (mergeStream stream)).map reduce := rfl
    _ = ((mergeStream stream).map fun chunk => [chunk]).map reduce := by
      rw [windows_mergeStream]
    _ = mergeStream stream := by simp [Function.comp_def]

end Chunk

end ChatClient
