import ChatClient.Proofs.Grouping

/-!
# The calls of a reduced window

Entering fragments in a table that stands for grouped arrivals groups one more
arrival at a time. Between two chunks the table is built anew from the calls,
which is no loss where every call still shows the key of its fragments. This
holds for windows whose fragments all carry an index and for windows in which
none does, so the reduction of such a window groups its fragments by key.
-/

namespace ChatClient

namespace ToolCall

/-- Entering arrivals in a table of grouped calls groups them with those before. -/
theorem enterAll_grouped {table : SlotTable} {before : List (Int × ToolCall)}
    (hkeys : table.Locates (callKeys before)) (hcalls : table.calls = grouped before)
    (arrivals : List (Int × ToolCall)) :
    (arrivals.foldl SlotTable.enter table).calls = grouped (before ++ arrivals) := by
  induction arrivals generalizing table before with
  | nil => simpa using hcalls
  | cons arrival arrivals ih =>
    obtain ⟨key, fragment⟩ := arrival
    rw [List.foldl_cons, List.append_cons]
    rcases hkeys.enter_cases key fragment with
      ⟨slot, hslot, _, hcalls', hkeys'⟩ | ⟨hnew, hcalls', hkeys'⟩
    · apply ih
      · rwa [callKeys_concat_of_mem (List.mem_of_getElem? hslot)]
      · rw [hcalls', hcalls, grouped_concat_of_mem hslot]
    · apply ih
      · rwa [callKeys_concat_of_not_mem hnew]
      · rw [hcalls', hcalls, grouped_concat_of_not_mem hnew]

/-- A chunk is grouped with the chunks before it if the calls show the keys of
their fragments, and if the keys of the first fragments differ. -/
theorem absorb_grouped {before : List (Int × ToolCall)} {fragments : List ToolCall}
    (hkeys : keys (grouped before) = callKeys before)
    (hfirst : before = [] → (keys fragments).Nodup) :
    absorb (grouped before) fragments = grouped (before ++ arrivals fragments) := by
  by_cases hbefore : before = []
  · have hnodup : ((arrivals fragments).map Prod.fst).Nodup := hfirst hbefore
    rw [hbefore, List.nil_append, grouped_of_nodup hnodup, arrivals_map_snd]
    rfl
  · have hcalls : grouped before ≠ [] := by rwa [ne_eq, grouped_eq_nil_iff]
    rw [absorb_of_ne_nil hcalls]
    apply enterAll_grouped _ rfl
    rw [← hkeys]
    exact SlotTable.locates_ofCalls (grouped before)

/-- Calls show the keys of their fragments if the fragments of every key agree on
an index that yields the key, where a missing one yields the place of the call. -/
theorem keys_grouped {arrivals : List (Int × ToolCall)}
    (hplaces : ∀ (place : Nat) (key : Int), (callKeys arrivals)[place]? = some key →
      ∃ index : Option Int, index.getD place = key ∧
        ∀ fragment, (key, fragment) ∈ arrivals → fragment.index = index) :
    keys (grouped arrivals) = callKeys arrivals := by
  apply List.ext_getElem?
  intro place
  rw [keys_getElem?, grouped, List.getElem?_map]
  cases hplace : (callKeys arrivals)[place]? with
  | none => rfl
  | some key =>
    obtain ⟨index, hkey, hindex⟩ := hplaces place key hplace
    have hne : fragmentsOf key arrivals ≠ [] := by
      rw [ne_eq, fragmentsOf_eq_nil_iff, not_not]
      exact List.mem_of_getElem? hplace
    have hcall := index_assemble hne fun fragment h => hindex fragment (mem_fragmentsOf.mp h)
    rw [Option.map_some, Option.map_some, ToolCall.key, hcall, hkey]

end ToolCall

namespace Chunk

/-- The fragments of a window in the order of their arrival, each with its key. -/
def arrivals (window : List Chunk) : List (Int × ToolCall) :=
  window.flatMap fun chunk => ToolCall.arrivals chunk.fragments

/-- Every fragment carries an index, and those of one chunk carry different ones. -/
def IndexedApart (window : List Chunk) : Prop :=
  ∀ chunk ∈ window, ToolCall.Indexed chunk.fragments ∧
    (chunk.fragments.map ToolCall.index).Nodup

instance (window : List Chunk) : Decidable (IndexedApart window) :=
  inferInstanceAs (Decidable (∀ chunk ∈ window, _ ∧ _))

/-- No fragment carries an index. -/
def Unindexed (window : List Chunk) : Prop :=
  ∀ chunk ∈ window, ∀ fragment ∈ chunk.fragments, fragment.index = none

instance (window : List Chunk) : Decidable (Unindexed window) :=
  inferInstanceAs (Decidable (∀ chunk ∈ window, ∀ fragment ∈ chunk.fragments, _))

/-- The chunks of a window arrive one after the other. -/
theorem arrivals_concat (window : List Chunk) (chunk : Chunk) :
    arrivals (window ++ [chunk]) = arrivals window ++ ToolCall.arrivals chunk.fragments := by
  simp [arrivals]

/-- A reduced window groups its fragments if, after each of its chunks, the calls
show the keys of their fragments, and no chunk repeats a key. -/
theorem fragments_reduce_grouped {window : List Chunk}
    (hshown : ∀ before, before <+: window →
      ToolCall.keys (ToolCall.grouped (arrivals before)) = ToolCall.callKeys (arrivals before))
    (hnodup : ∀ chunk ∈ window, (ToolCall.keys chunk.fragments).Nodup) :
    (reduce window).fragments = ToolCall.grouped (arrivals window) := by
  induction window using List.reverseRecOn with
  | nil => rfl
  | append_singleton window chunk ih =>
    have hbefore := ih (fun before h => hshown before (h.trans (List.prefix_append _ _)))
      (fun c hc => hnodup c (List.mem_append_left _ hc))
    rw [reduce_concat, fragments_merge, hbefore, arrivals_concat]
    exact ToolCall.absorb_grouped (hshown window (List.prefix_append _ _))
      (fun _ => hnodup chunk (by simp))

/-! ## Fragments with an index -/

/-- With an index, calls show the keys of their fragments. -/
theorem keys_grouped_of_indexed {window : List Chunk} (hindexed : IndexedApart window) :
    ToolCall.keys (ToolCall.grouped (arrivals window)) = ToolCall.callKeys (arrivals window) := by
  apply ToolCall.keys_grouped
  intro place key _
  refine ⟨some key, rfl, fun fragment harrival => ?_⟩
  obtain ⟨chunk, hchunk, hmem⟩ := List.mem_flatMap.mp harrival
  exact (hindexed chunk hchunk).1.index_of_mem_arrivals hmem

/-- Different indexes are different keys. -/
theorem nodup_keys_of_indexed {fragments : List ToolCall} (hindexed : ToolCall.Indexed fragments)
    (hnodup : (fragments.map ToolCall.index).Nodup) : (ToolCall.keys fragments).Nodup := by
  rw [← hindexed.map_some_keys] at hnodup
  exact hnodup.of_map some

/-! ## Fragments without an index -/

/-- The keys of the first positions of a chunk. -/
def positions (count : Nat) : List Int := (List.range count).map Int.ofNat

/-- The next position comes last. -/
theorem positions_succ (count : Nat) :
    positions (count + 1) = positions count ++ [(count : Int)] := by
  simp [positions, List.range_succ]

/-- Positions are counted from zero. -/
theorem mem_positions {count position : Nat} :
    (position : Int) ∈ positions count ↔ position < count := by
  rw [positions, List.mem_map]
  constructor
  · rintro ⟨place, hplace, heq⟩
    obtain rfl : place = position := Int.ofNat.inj heq
    exact List.mem_range.mp hplace
  · intro hlt
    exact ⟨position, List.mem_range.mpr hlt, rfl⟩

/-- Every place holds its own position. -/
theorem eq_of_getElem?_positions {count place : Nat} {key : Int}
    (hkey : (positions count)[place]? = some key) : key = place := by
  rw [positions, List.getElem?_map] at hkey
  obtain ⟨position, hposition, rfl⟩ := Option.map_eq_some_iff.mp hkey
  obtain ⟨_, rfl⟩ := List.getElem?_eq_some_iff.mp hposition
  simp

/-- No position occurs twice. -/
theorem nodup_positions (count : Nat) : (positions count).Nodup :=
  List.nodup_range.map fun _ _ => Int.ofNat.inj

/-- Without an index, the keys of a chunk are its positions. -/
theorem keys_of_unindexed {fragments : List ToolCall}
    (hunindexed : ∀ fragment ∈ fragments, fragment.index = none) :
    ToolCall.keys fragments = positions fragments.length := by
  induction fragments using List.reverseRecOn with
  | nil => rfl
  | append_singleton fragments fragment ih =>
    have hbefore := ih fun f hf => hunindexed f (List.mem_append_left _ hf)
    have hindex : fragment.index = none := hunindexed fragment (by simp)
    rw [ToolCall.keys] at hbefore ⊢
    rw [ToolCall.arrivals_concat, List.map_append, hbefore, List.map_singleton, List.length_append,
      List.length_singleton, positions_succ]
    simp [ToolCall.key, hindex]

/-- Where positions have arrived, a chunk without indexes adds those that it
reaches beyond them. -/
theorem callKeys_append_of_unindexed {before : List (Int × ToolCall)} {count : Nat}
    (hbefore : ToolCall.callKeys before = positions count) {fragments : List ToolCall}
    (hunindexed : ∀ fragment ∈ fragments, fragment.index = none) :
    ToolCall.callKeys (before ++ ToolCall.arrivals fragments) =
      positions (max count fragments.length) := by
  induction fragments using List.reverseRecOn with
  | nil => simpa [ToolCall.arrivals] using hbefore
  | append_singleton fragments fragment ih =>
    have hkeys := ih fun f hf => hunindexed f (List.mem_append_left _ hf)
    have hindex : fragment.index = none := hunindexed fragment (by simp)
    have hkey : fragment.key fragments.length = (fragments.length : Int) := by
      rw [ToolCall.key, hindex, Option.getD_none]
    rw [ToolCall.arrivals_concat, ← List.append_assoc, hkey, List.length_append,
      List.length_singleton]
    by_cases hlt : fragments.length < count
    · have hmem : (fragments.length : Int) ∈
          ToolCall.callKeys (before ++ ToolCall.arrivals fragments) := by
        rw [hkeys, mem_positions]
        omega
      rw [ToolCall.callKeys_concat_of_mem hmem, hkeys]
      congr 1
      omega
    · have hmax : max count fragments.length = fragments.length := by omega
      have hmem : (fragments.length : Int) ∉
          ToolCall.callKeys (before ++ ToolCall.arrivals fragments) := by
        rw [hkeys, mem_positions]
        omega
      rw [ToolCall.callKeys_concat_of_not_mem hmem, hkeys, hmax, ← positions_succ]
      congr 1
      omega

/-- Without indexes, the calls of a window come in the order of the positions. -/
theorem callKeys_of_unindexed {window : List Chunk} (hunindexed : Unindexed window) :
    ∃ count, ToolCall.callKeys (arrivals window) = positions count := by
  induction window using List.reverseRecOn with
  | nil => exact ⟨0, rfl⟩
  | append_singleton window chunk ih =>
    obtain ⟨count, hcount⟩ := ih fun c hc => hunindexed c (List.mem_append_left _ hc)
    rw [arrivals_concat]
    exact ⟨_, callKeys_append_of_unindexed hcount (hunindexed chunk (by simp))⟩

/-- Without an index, calls show the keys of their fragments by where they stand. -/
theorem keys_grouped_of_unindexed {window : List Chunk} (hunindexed : Unindexed window) :
    ToolCall.keys (ToolCall.grouped (arrivals window)) = ToolCall.callKeys (arrivals window) := by
  obtain ⟨count, hcount⟩ := callKeys_of_unindexed hunindexed
  apply ToolCall.keys_grouped
  intro place key hplace
  rw [hcount] at hplace
  refine ⟨none, (eq_of_getElem?_positions hplace).symm, fun fragment harrival => ?_⟩
  obtain ⟨chunk, hchunk, hmem⟩ := List.mem_flatMap.mp harrival
  exact hunindexed chunk hchunk fragment (ToolCall.snd_mem_of_mem_arrivals hmem)

/-! ## Windows -/

/-- A reduced window groups its fragments where all have an index, which differs
within a chunk, and where none has one. -/
theorem fragments_reduce_of_keys {window : List Chunk}
    (hkeys : IndexedApart window ∨ Unindexed window) :
    (reduce window).fragments = ToolCall.grouped (arrivals window) := by
  rcases hkeys with hindexed | hunindexed
  · apply fragments_reduce_grouped
    · intro before hbefore
      exact keys_grouped_of_indexed fun chunk hchunk => hindexed chunk (hbefore.subset hchunk)
    · intro chunk hchunk
      exact nodup_keys_of_indexed (hindexed chunk hchunk).1 (hindexed chunk hchunk).2
  · apply fragments_reduce_grouped
    · intro before hbefore
      exact keys_grouped_of_unindexed fun chunk hchunk => hunindexed chunk (hbefore.subset hchunk)
    · intro chunk hchunk
      rw [keys_of_unindexed (hunindexed chunk hchunk)]
      exact nodup_positions _

/-- **Reassembly.** The tool calls of a reduced window are one call for each key
of its fragments, in the order in which the keys first arrive, and every call is
assembled from the fragments of its key in the order of their arrival. The key
is the index of a fragment, or its position in windows without indexes. -/
theorem toolCalls?_reduce_eq_grouped {window : List Chunk}
    (hkeys : IndexedApart window ∨ Unindexed window)
    (hsome : ∃ chunk ∈ window, chunk.fragments ≠ []) :
    (reduce window).toolCalls? =
      some ((ToolCall.callKeys (arrivals window)).map fun key =>
        ToolCall.assemble (ToolCall.fragmentsOf key (arrivals window))) := by
  have hfragments : (reduce window).toolCalls?.getD [] = ToolCall.grouped (arrivals window) := by
    rw [← fragments_eq_getD, fragments_reduce_of_keys hkeys]
  cases hcalls : (reduce window).toolCalls? with
  | some calls =>
    rw [hcalls, Option.getD_some] at hfragments
    rw [hfragments]
    rfl
  | none =>
    rw [hcalls, Option.getD_none, eq_comm, ToolCall.grouped_eq_nil_iff, arrivals,
      List.flatMap_eq_nil_iff] at hfragments
    obtain ⟨chunk, hchunk, hne⟩ := hsome
    have hempty := congrArg (List.map Prod.snd) (hfragments chunk hchunk)
    rw [ToolCall.arrivals_map_snd] at hempty
    exact absurd hempty hne

/-- A chunk that carries fragments of tool calls and nothing else. -/
def ofFragments (fragments : List ToolCall) : Chunk :=
  { empty with choices := some [⟨none, some ⟨none, none, none, none, some fragments⟩, none, none⟩] }

/-- Three calls whose fragments interleave, with indexes that are neither dense nor in order. -/
def interleaved : List Chunk :=
  [ofFragments [⟨some 7, some "a", none, none⟩,
      ⟨some 2, some "b", none, some ⟨some "g", some "1"⟩⟩],
    ofFragments [⟨some 2, some "c", none, some ⟨none, some "2"⟩⟩, ⟨some 9, none, none, none⟩],
    ofFragments [⟨some 7, none, none, some ⟨some "f", some "3"⟩⟩, ⟨some 2, none, none, none⟩]]

/-- Two calls without indexes, of which the second first arrives with the second chunk. -/
def widening : List Chunk :=
  [ofFragments [⟨none, some "a", none, some ⟨some "f", some "1"⟩⟩],
    ofFragments [⟨none, none, none, some ⟨none, some "2"⟩⟩, ⟨none, some "b", none, none⟩],
    ofFragments [⟨none, none, none, none⟩, ⟨none, none, none, some ⟨some "g", none⟩⟩]]

/-- The calls of both windows, as they are reassembled. -/
theorem toolCalls?_reduce_interleaved_widening :
    (IndexedApart interleaved ∧
      (reduce interleaved).toolCalls? =
        some
          [⟨some 7, some "a", none, some ⟨some "f", some "3"⟩⟩,
            ⟨some 2, some "b", none, some ⟨some "g", some "12"⟩⟩, ⟨some 9, none, none, none⟩]) ∧
      (Unindexed widening ∧
        (reduce widening).toolCalls? =
          some
            [⟨none, some "a", none, some ⟨some "f", some "12"⟩⟩,
              ⟨none, some "b", none, some ⟨some "g", none⟩⟩]) := by
  have hinterleaved : IndexedApart interleaved := by decide
  have hwidening : Unindexed widening := by decide
  refine ⟨⟨hinterleaved, ?_⟩, hwidening, ?_⟩
  · rw [toolCalls?_reduce_eq_grouped (Or.inl hinterleaved) ⟨_, List.mem_cons_self, by decide⟩]
    decide
  · rw [toolCalls?_reduce_eq_grouped (Or.inr hwidening) ⟨_, List.mem_cons_self, by decide⟩]
    decide

end Chunk

end ChatClient
