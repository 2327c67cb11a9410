import ChatClient.Chunk.Window
import ChatClient.Proofs.SlotTable
import Mathlib.Data.List.Induction

/-!
# The first choice of a merged chunk

Streaming reads only the first choice of a chunk: its finish reason and the
fragments of its tool calls. This file says what both are after chunks have
been merged, one at a time and over a whole window. The finish reason is the
latest one, and the fragments are those of the window, absorbed chunk by chunk.
-/

namespace ChatClient

namespace ToolCall

/-- The calls after the fragments of another chunk. The first fragments become
calls as they are; where there are calls, fragments are placed among them. -/
def absorb (calls fragments : List ToolCall) : List ToolCall :=
  if calls = [] then fragments else ((SlotTable.ofCalls calls).placeAll fragments).calls

/-- Before the first fragments there are no calls. -/
@[simp] theorem absorb_nil (fragments : List ToolCall) : absorb [] fragments = fragments := rfl

/-- A chunk without fragments leaves the calls as they are. -/
@[simp] theorem absorb_nil_right (calls : List ToolCall) : absorb calls [] = calls := by
  by_cases hcalls : calls = []
  · simp [hcalls]
  · simp [absorb, hcalls, SlotTable.placeAll, SlotTable.ofCalls]

/-- Calls that are there absorb fragments in the order of their arrival. -/
theorem absorb_of_ne_nil {calls : List ToolCall} (hcalls : calls ≠ [])
    (fragments : List ToolCall) :
    absorb calls fragments =
      ((arrivals fragments).foldl SlotTable.enter (SlotTable.ofCalls calls)).calls := by
  rw [absorb, if_neg hcalls, SlotTable.placeAll_eq_foldl]

/-- Merging absorbs; a missing list counts as an empty one. -/
theorem mergeAll_getD (previous current : Option (List ToolCall)) :
    (mergeAll previous current).getD [] = absorb (previous.getD []) (current.getD []) := by
  rcases previous with _ | _ | ⟨call, calls⟩
  · rfl
  · rfl
  · rcases current with _ | _ | ⟨fragment, fragments⟩
    · exact (absorb_nil_right (call :: calls)).symm
    · exact (absorb_nil_right (call :: calls)).symm
    · simp [mergeAll, absorb]

end ToolCall

namespace Chunk

/-- The finish reason of the first choice. -/
def finishReason? (chunk : Chunk) : Option FinishReason :=
  chunk.firstChoice?.bind ChunkChoice.finishReason

/-- The tool calls of the first choice, where it has a list of them. -/
def toolCalls? (chunk : Chunk) : Option (List ToolCall) :=
  (chunk.firstChoice?.bind ChunkChoice.delta).bind Message.toolCalls

/-- The fragments of a chunk are its tool calls, if there is a list of them. -/
theorem fragments_eq_getD (chunk : Chunk) : chunk.fragments = chunk.toolCalls?.getD [] := rfl

/-- The first choice of a merged chunk is merged from the first choices. -/
theorem firstChoice?_merge (accumulated incoming : Chunk) :
    (merge accumulated incoming).firstChoice? =
      Option.merge ChunkChoice.merge accumulated.firstChoice? incoming.firstChoice? := by
  obtain ⟨_, _, _, _, accumulated⟩ := accumulated
  obtain ⟨_, _, _, _, incoming⟩ := incoming
  rcases accumulated with _ | _ | ⟨previous, _⟩ <;> rcases incoming with _ | _ | ⟨current, _⟩ <;>
    rfl

/-- The latest finish reason wins. -/
theorem finishReason?_merge (accumulated incoming : Chunk) :
    (merge accumulated incoming).finishReason? =
      incoming.finishReason?.or accumulated.finishReason? := by
  rw [finishReason?, firstChoice?_merge, finishReason?, finishReason?]
  cases accumulated.firstChoice? <;> cases incoming.firstChoice? <;>
    simp [ChunkChoice.merge]

/-- The calls of a merged chunk absorb the fragments of the later one. -/
theorem fragments_merge (accumulated incoming : Chunk) :
    (merge accumulated incoming).fragments =
      ToolCall.absorb accumulated.fragments incoming.fragments := by
  rw [fragments, firstChoice?_merge, fragments, fragments]
  cases accumulated.firstChoice? with
  | none => simp
  | some previous =>
    cases incoming.firstChoice? with
    | none => simp
    | some current =>
      obtain ⟨_, previous, _, _⟩ := previous
      obtain ⟨_, current, _, _⟩ := current
      cases previous <;> cases current <;>
        simp [ChunkChoice.merge, Message.merge, ToolCall.mergeAll_getD]

/-- A single chunk is its own reduction. -/
@[simp] theorem reduce_singleton (chunk : Chunk) : reduce [chunk] = chunk :=
  merge_empty_left chunk

/-- A later chunk is merged into the reduction of those before it. -/
theorem reduce_concat (window : List Chunk) (chunk : Chunk) :
    reduce (window ++ [chunk]) = merge (reduce window) chunk := by
  rw [reduce_append, List.foldl_cons, List.foldl_nil]

/-- The reduction of a window has the last finish reason of its chunks. -/
theorem finishReason?_reduce (window : List Chunk) :
    (reduce window).finishReason? = (window.filterMap finishReason?).getLast? := by
  induction window using List.reverseRecOn with
  | nil => rfl
  | append_singleton window chunk ih =>
    rw [reduce_concat, finishReason?_merge, ih, List.filterMap_append, List.getLast?_append]
    cases hreason : chunk.finishReason? <;> simp [hreason]

/-- The calls of a reduced window have absorbed its fragments chunk by chunk. -/
theorem fragments_reduce (window : List Chunk) :
    (reduce window).fragments = (window.map fragments).foldl ToolCall.absorb [] := by
  induction window using List.reverseRecOn with
  | nil => rfl
  | append_singleton window chunk ih =>
    rw [reduce_concat, fragments_merge, ih, List.map_append, List.foldl_append, List.map_singleton,
      List.foldl_cons, List.foldl_nil]

end Chunk

end ChatClient
