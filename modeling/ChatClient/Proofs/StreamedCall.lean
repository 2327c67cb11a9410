import ChatClient.Proofs.MergedStream
import ChatClient.Proofs.Reassembly
import Mathlib.Data.List.TakeWhile

/-!
# How a streamed call arrives

A service streams a tool call as a run of chunks with one fragment each and lets
a chunk without fragments finish it. Only a chunk that carries arguments opens a
window, so the chunks of the run that come before the first arguments pass as
they are. All others are merged with the finish into one chunk, which brings one
call: it has the whole arguments, and of its identity what arrived with the
first arguments or after them.
-/

namespace ChatClient

namespace ToolCall

/-- Fragments that arrive under one key are one call. -/
theorem grouped_of_one_key (key : Int) {fragments : List ToolCall} (hne : fragments ≠ []) :
    grouped (fragments.map fun fragment => (key, fragment)) = [assemble fragments] := by
  have hkeys : callKeys (fragments.map fun fragment => (key, fragment)) = [key] := by
    induction fragments using List.reverseRecOn with
    | nil => contradiction
    | append_singleton fragments fragment ih =>
      rw [List.map_append, List.map_singleton]
      by_cases hfirst : fragments = []
      · simp [hfirst, callKeys, List.eraseDups_cons]
      · rw [callKeys_concat_of_mem (by simp [ih hfirst]), ih hfirst]
  have hfragments :
      fragmentsOf key (fragments.map fun fragment => (key, fragment)) = fragments := by
    simp [fragmentsOf, List.filter_map, Function.comp_def]
  rw [grouped, hkeys, List.map_singleton, hfragments]

/-- A call has the first identity among its fragments. -/
theorem assemble_function_bind_name (fragments : List ToolCall) :
    (assemble fragments).function.bind FunctionCall.name =
      fragments.findSome? fun fragment => fragment.function.bind FunctionCall.name := by
  rw [assemble, FunctionCall.assemble_bind_name, List.findSome?_map]
  rfl

/-- A call has the arguments of its fragments if one of them carries some. -/
theorem assemble_function_bind_arguments {fragments : List ToolCall}
    (hargued : fragments.any hasArguments = true) :
    (assemble fragments).function.bind FunctionCall.arguments =
      some (String.join
        (fragments.filterMap fun fragment => fragment.function.bind FunctionCall.arguments)) := by
  obtain ⟨fragment, hfragment, hsome⟩ := List.any_eq_true.mp hargued
  have hpresent : ¬(fragments.map fun f => f.function.bind FunctionCall.arguments).all
      Option.isNone = true := by
    intro hall
    have hnone := List.all_eq_true.mp hall _ (List.mem_map_of_mem hfragment)
    rw [hasArguments, Option.isSome_iff_ne_none] at hsome
    exact hsome (Option.isNone_iff_eq_none.mp hnone)
  rw [assemble, FunctionCall.assemble_bind_arguments, List.map_map]
  change joinTexts? (fragments.map fun f => f.function.bind FunctionCall.arguments) = _
  rw [joinTexts?, if_neg hpresent, List.filterMap_map]
  rfl

end ToolCall

namespace Chunk

/-- The chunks of one streamed call. -/
structure CallRun (index : Option Int) (run : List Chunk) : Prop where
  /-- Every chunk brings one fragment, and all have the same index, or none has one. -/
  single : ∀ chunk ∈ run, chunk.fragments.map ToolCall.index = [index]
  /-- No chunk has a finish reason. -/
  pending : ∀ chunk ∈ run, chunk.finishReason? = none
  /-- Some chunk carries arguments. -/
  argued : ∃ chunk ∈ run, chunk.startsCall = true

/-- The fragment of a chunk that brings one. -/
theorem exists_fragment {chunk : Chunk} {index : Option Int}
    (hsingle : chunk.fragments.map ToolCall.index = [index]) :
    ∃ fragment, chunk.fragments = [fragment] ∧ fragment.index = index := by
  simpa [List.map_eq_singleton_iff] using hsingle

/-- The chunks of a run that come before the first arguments. -/
def preamble (run : List Chunk) : List Chunk := run.takeWhile (!·.startsCall)

/-- The chunks of a run from the first arguments on. -/
def body (run : List Chunk) : List Chunk := run.dropWhile (!·.startsCall)

/-- All fragments that chunks bring, in their order. -/
def allFragments (chunks : List Chunk) : List ToolCall := chunks.flatMap fragments

/-- All arguments that chunks bring, one after the other. -/
def allArguments (chunks : List Chunk) : String :=
  String.join ((allFragments chunks).filterMap fun fragment =>
    fragment.function.bind FunctionCall.arguments)

/-- A chunk without fragments starts no call. -/
theorem startsCall_of_fragments_eq_nil {chunk : Chunk} (hnone : chunk.fragments = []) :
    chunk.startsCall = false := by
  rw [startsCall, hnone, List.any_nil]

/-- Chunks that start no call pass as they are, up to what follows them. -/
theorem mergeStream_append_plain {plain : List Chunk}
    (hplain : ∀ chunk ∈ plain, chunk.startsCall = false) (rest : List Chunk) :
    mergeStream (plain ++ rest) = plain ++ mergeStream rest := by
  induction plain with
  | nil => rfl
  | cons chunk plain ih =>
    have hclosed : ClosedWindow [chunk] := Or.inl ⟨chunk, rfl, hplain chunk (by simp)⟩
    have hrest := ih fun c hc => hplain c (by simp [hc])
    rw [List.cons_append, ← List.singleton_append, mergeStream_append_closed hclosed, hrest,
      reduce_singleton, List.cons_append]

/-- A stream in which no call is started stays as it is. -/
theorem mergeStream_plain {plain : List Chunk}
    (hplain : ∀ chunk ∈ plain, chunk.startsCall = false) : mergeStream plain = plain := by
  have hpassed := mergeStream_append_plain hplain []
  rw [List.append_nil] at hpassed
  exact hpassed.trans (List.append_nil plain)

/-! ## Runs -/

/-- A run is what comes before the first arguments, and the rest. -/
theorem preamble_append_body (run : List Chunk) : preamble run ++ body run = run :=
  List.takeWhile_append_dropWhile

/-- The rest of a run belongs to it. -/
theorem mem_of_mem_body {run : List Chunk} {chunk : Chunk} (hchunk : chunk ∈ body run) :
    chunk ∈ run := (List.dropWhile_sublist _).subset hchunk

/-- Before the first arguments no call is started. -/
theorem startsCall_of_mem_preamble {run : List Chunk} {chunk : Chunk}
    (hchunk : chunk ∈ preamble run) : chunk.startsCall = false := by
  simpa using List.mem_takeWhile_imp hchunk

/-- What comes before the first arguments adds none. -/
theorem allArguments_body (run : List Chunk) : allArguments (body run) = allArguments run := by
  have hnone : (allFragments (preamble run)).filterMap
      (fun fragment => fragment.function.bind FunctionCall.arguments) = [] := by
    rw [List.filterMap_eq_nil_iff]
    intro fragment hfragment
    obtain ⟨chunk, hchunk, hmem⟩ := List.mem_flatMap.mp hfragment
    have hplain := startsCall_of_mem_preamble hchunk
    rw [startsCall, List.any_eq_false] at hplain
    simpa [ToolCall.hasArguments] using hplain fragment hmem
  calc allArguments (body run)
      = String.join ((allFragments (preamble run) ++ allFragments (body run)).filterMap
          fun fragment => fragment.function.bind FunctionCall.arguments) := by
        rw [List.filterMap_append, hnone, List.nil_append, allArguments]
    _ = allArguments run := by
        rw [allFragments, allFragments, ← List.flatMap_append, preamble_append_body]
        rfl

/-- Some chunk of a run carries the first arguments. -/
theorem CallRun.head?_body {index : Option Int} {run : List Chunk} (hrun : CallRun index run) :
    ∃ chunk ∈ (body run).head?, chunk.startsCall = true := by
  obtain ⟨started, hstarted, hstart⟩ := hrun.argued
  cases hrest : body run with
  | nil =>
    have hplain := List.dropWhile_eq_nil_iff.mp hrest started hstarted
    simp [hstart] at hplain
  | cons chunk later =>
    have hchunk := List.head?_dropWhile_not (fun c : Chunk => !c.startsCall) run
    rw [← body, hrest] at hchunk
    exact ⟨chunk, rfl, by simpa using hchunk⟩

/-- From the first arguments on, a run and its finish are one window. -/
theorem CallRun.callWindow {index : Option Int} {run : List Chunk} (hrun : CallRun index run)
    {final : Chunk} (hfinal : final.finishesCall = true) :
    CallWindow (body run ++ [final]) where
  starts := by
    obtain ⟨chunk, hhead, hstart⟩ := hrun.head?_body
    exact ⟨chunk, by simp [List.head?_append, Option.mem_def.mp hhead], hstart⟩
  finishes := ⟨final, by simp, hfinal⟩
  pending := by
    intro chunk hchunk
    have hmem : chunk ∈ run := mem_of_mem_body (by simpa using hchunk)
    rw [finishesCall_eq, hrun.pending chunk hmem]
    rfl

/-- The fragments of a run arrive under one key. -/
theorem arrivals_of_single {index : Option Int} {chunks : List Chunk}
    (hsingle : ∀ chunk ∈ chunks, chunk.fragments.map ToolCall.index = [index]) :
    arrivals chunks = (allFragments chunks).map fun fragment => (index.getD 0, fragment) := by
  induction chunks with
  | nil => rfl
  | cons chunk chunks ih =>
    obtain ⟨fragment, hfragments, hindex⟩ := exists_fragment (hsingle chunk (by simp))
    have hrest := ih fun c hc => hsingle c (by simp [hc])
    have hkey : fragment.key 0 = index.getD 0 := by rw [ToolCall.key, hindex]; rfl
    calc arrivals (chunk :: chunks)
        = ToolCall.arrivals chunk.fragments ++ arrivals chunks := rfl
      _ = (index.getD 0, fragment) ::
            (allFragments chunks).map fun fragment => (index.getD 0, fragment) := by
        rw [hfragments, hrest, ← hkey]
        rfl
      _ = (allFragments (chunk :: chunks)).map fun fragment => (index.getD 0, fragment) := by
        rw [allFragments, allFragments, List.flatMap_cons, hfragments]
        rfl

/-- Chunks with at most one fragment each, all of one index, can be told apart
by their keys. -/
theorem indexedApart_or_unindexed {index : Option Int} {window : List Chunk}
    (hsingle : ∀ chunk ∈ window, chunk.fragments = [] ∨
      chunk.fragments.map ToolCall.index = [index]) :
    IndexedApart window ∨ Unindexed window := by
  cases index with
  | none =>
    right
    intro chunk hchunk fragment hfragment
    rcases hsingle chunk hchunk with hnone | hone
    · simp [hnone] at hfragment
    · obtain ⟨only, hfragments, hindex⟩ := exists_fragment hone
      obtain rfl : fragment = only := by simpa [hfragments] using hfragment
      exact hindex
  | some index =>
    left
    intro chunk hchunk
    rcases hsingle chunk hchunk with hnone | hone
    · simp [hnone, ToolCall.Indexed]
    · obtain ⟨only, hfragments, hindex⟩ := exists_fragment hone
      simp [hfragments, ToolCall.Indexed, hindex]

/-- The window of a run has one call, assembled from the fragments of the run. -/
theorem CallRun.toolCalls?_reduce {index : Option Int} {run : List Chunk}
    (hrun : CallRun index run) {final : Chunk} (hfinal : final.fragments = []) :
    (reduce (body run ++ [final])).toolCalls? =
      some [ToolCall.assemble (allFragments (body run))] := by
  have hsingle : ∀ chunk ∈ body run, chunk.fragments.map ToolCall.index = [index] :=
    fun chunk hchunk => hrun.single chunk (mem_of_mem_body hchunk)
  have hwindow : ∀ chunk ∈ body run ++ [final], chunk.fragments = [] ∨
      chunk.fragments.map ToolCall.index = [index] := by
    intro chunk hchunk
    rcases List.mem_append.mp hchunk with hmem | hmem
    · exact Or.inr (hsingle chunk hmem)
    · obtain rfl : chunk = final := by simpa using hmem
      exact Or.inl hfinal
  have hne : allFragments (body run) ≠ [] := by
    obtain ⟨chunk, hhead, _⟩ := hrun.head?_body
    have hchunk := List.mem_of_mem_head? hhead
    obtain ⟨fragment, hfragments, _⟩ := exists_fragment (hsingle chunk hchunk)
    have hfragment : fragment ∈ chunk.fragments := by simp [hfragments]
    exact List.ne_nil_of_mem (List.mem_flatMap.mpr ⟨chunk, hchunk, hfragment⟩)
  have hfragments : (reduce (body run ++ [final])).fragments =
      [ToolCall.assemble (allFragments (body run))] := by
    rw [fragments_reduce_of_keys (indexedApart_or_unindexed hwindow), arrivals_concat, hfinal,
      arrivals_of_single hsingle]
    simpa [ToolCall.arrivals] using ToolCall.grouped_of_one_key (index.getD 0) hne
  rw [fragments_eq_getD] at hfragments
  cases hcalls : (reduce (body run ++ [final])).toolCalls? with
  | none => simp [hcalls] at hfragments
  | some calls => simpa [hcalls] using hfragments

/-- From the first arguments on, the fragments of a run carry some. -/
theorem CallRun.any_hasArguments {index : Option Int} {run : List Chunk}
    (hrun : CallRun index run) : (allFragments (body run)).any ToolCall.hasArguments = true := by
  obtain ⟨chunk, hhead, hstart⟩ := hrun.head?_body
  rw [allFragments, List.any_flatMap, List.any_eq_true]
  exact ⟨chunk, List.mem_of_mem_head? hhead, hstart⟩

/-! ## Streams -/

/-- **Delivery of a call.** Around a streamed call all chunks pass as they are,
and so do those of its chunks that come before the first arguments. The others
arrive as one chunk that brings one call: with the first identity among them, and
with all arguments of the call. -/
theorem mergeStream_callRun {index : Option Int} {before run after : List Chunk} {final : Chunk}
    (hbefore : ∀ chunk ∈ before, chunk.fragments = []) (hrun : CallRun index run)
    (hfinal : final.fragments = [] ∧ final.finishesCall = true)
    (hafter : ∀ chunk ∈ after, chunk.fragments = []) :
    ∃ merged call,
      mergeStream (before ++ run ++ [final] ++ after) =
        before ++ preamble run ++ [merged] ++ after ∧
      merged.toolCalls? = some [call] ∧
      call.id = (allFragments (body run)).findSome? ToolCall.id ∧
      (call.function.bind FunctionCall.name =
        (allFragments (body run)).findSome? fun fragment =>
          fragment.function.bind FunctionCall.name) ∧
      call.function.bind FunctionCall.arguments = some (allArguments run) := by
  refine ⟨reduce (body run ++ [final]), ToolCall.assemble (allFragments (body run)), ?_,
    hrun.toolCalls?_reduce hfinal.1, rfl, ToolCall.assemble_function_bind_name _, ?_⟩
  · have hplain : ∀ chunk ∈ before ++ preamble run, chunk.startsCall = false := by
      intro chunk hchunk
      rcases List.mem_append.mp hchunk with hmem | hmem
      · exact startsCall_of_fragments_eq_nil (hbefore chunk hmem)
      · exact startsCall_of_mem_preamble hmem
    have hrest : ∀ chunk ∈ after, chunk.startsCall = false := fun chunk hchunk =>
      startsCall_of_fragments_eq_nil (hafter chunk hchunk)
    have hclosed : ClosedWindow (body run ++ [final]) := Or.inr (hrun.callWindow hfinal.2)
    calc mergeStream (before ++ run ++ [final] ++ after)
        = mergeStream ((before ++ preamble run) ++ ((body run ++ [final]) ++ after)) := by
          nth_rewrite 1 [← preamble_append_body run]
          simp only [List.append_assoc]
      _ = (before ++ preamble run) ++ (reduce (body run ++ [final]) :: mergeStream after) := by
          rw [mergeStream_append_plain hplain, mergeStream_append_closed hclosed]
      _ = before ++ preamble run ++ [reduce (body run ++ [final])] ++ after := by
          rw [mergeStream_plain hrest, List.append_assoc _ _ after, List.singleton_append]
  · rw [ToolCall.assemble_function_bind_arguments hrun.any_hasArguments, ← allArguments_body]
    rfl

/-- A run whose first chunk has the identity of the call, and only the second one arguments. -/
def lateArguments : List Chunk :=
  [ofFragments [⟨some 0, some "a", some "function", some ⟨some "f", none⟩⟩],
    ofFragments [⟨some 0, none, none, some ⟨none, some "1"⟩⟩],
    ofFragments [⟨some 0, some "b", none, some ⟨some "g", some "2"⟩⟩]]

/-- A chunk that says that a call is finished, and nothing else. -/
def finishOnly : Chunk :=
  { empty with choices := some [⟨none, none, some .toolCalls, none⟩] }

/-- A text before the run and one after it pass, and so does the first chunk of the run. -/
theorem mergeStream_lateArguments :
    (∀ chunk ∈ [empty], chunk.fragments = []) ∧ CallRun (some 0) lateArguments ∧
      (finishOnly.fragments = [] ∧ finishOnly.finishesCall = true) ∧
      ∃ merged call,
        mergeStream ([empty] ++ lateArguments ++ [finishOnly] ++ [empty]) =
          [empty] ++ preamble lateArguments ++ [merged] ++ [empty] ∧
        merged.toolCalls? = some [call] ∧ call.id = some "b" ∧
        call.function.bind FunctionCall.name = some "g" ∧
        call.function.bind FunctionCall.arguments = some "12" := by
  have hplain : ∀ chunk ∈ [empty], chunk.fragments = [] := by decide
  have hrun : CallRun (some 0) lateArguments := ⟨by decide, by decide, by decide⟩
  have hfinal : finishOnly.fragments = [] ∧ finishOnly.finishesCall = true := by decide
  refine ⟨hplain, hrun, hfinal, ?_⟩
  obtain ⟨merged, call, hstream, hcalls, hid, hname, harguments⟩ :=
    mergeStream_callRun hplain hrun hfinal hplain
  exact ⟨merged, call, hstream, hcalls, hid.trans (by decide), hname.trans (by decide),
    harguments.trans (by decide)⟩

/-- Not every streamed call arrives as one chunk with its identity. -/
theorem not_forall_mergeStream_whole :
    ¬∀ (index : Option Int) (before run after : List Chunk) (final : Chunk),
      (∀ chunk ∈ before, chunk.fragments = []) → CallRun index run →
      (final.fragments = [] ∧ final.finishesCall = true) →
      (∀ chunk ∈ after, chunk.fragments = []) →
      ∃ merged call,
        mergeStream (before ++ run ++ [final] ++ after) = before ++ [merged] ++ after ∧
        merged.toolCalls? = some [call] ∧
        call.id = (allFragments run).findSome? ToolCall.id ∧
        (call.function.bind FunctionCall.name =
          (allFragments run).findSome? fun fragment =>
            fragment.function.bind FunctionCall.name) ∧
        call.function.bind FunctionCall.arguments = some (allArguments run) := by
  intro hall
  obtain ⟨merged, _, hstream, _⟩ := hall (some 0) [] lateArguments [] finishOnly (by simp)
    ⟨by decide, by decide, by decide⟩ (by decide) (by simp)
  have htwo : (mergeStream ([] ++ lateArguments ++ [finishOnly] ++ [])).length = 2 := by decide
  rw [hstream] at htwo
  exact absurd htwo (by simp)

end Chunk

end ChatClient
