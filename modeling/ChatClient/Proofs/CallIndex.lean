import ChatClient.Proofs.Reassembly

/-!
# One call for each index

Fragments that share an index should belong to one call. Placing a fragment
keeps to this: the indexes of the calls stay as they are, or a new one is added
that no call has. The first fragments of a window are not placed, however, but
become calls as they are. Where every fragment has an index, the calls of a
reduced window therefore have different indexes exactly if the first chunk that
brings fragments brings different ones.
-/

namespace ChatClient

namespace ToolCall

/-- Merging a fragment into calls that have an index changes no index. -/
theorem map_index_modify {calls : List ToolCall} (hindexed : Indexed calls) (slot : Nat)
    (fragment : ToolCall) :
    (calls.modify slot (·.merge fragment)).map index = calls.map index := by
  apply List.ext_getElem?
  intro place
  rw [List.getElem?_map, List.getElem?_modify, List.getElem?_map]
  cases hcall : calls[place]? with
  | none => rfl
  | some call =>
    obtain ⟨index, hindex⟩ :=
      Option.ne_none_iff_exists'.mp (hindexed call (List.mem_of_getElem? hcall))
    by_cases hslot : slot = place <;> simp [hslot, merge, hindex]

/-- Calls have an index if their indexes are keys. -/
theorem indexed_of_map_index {calls : List ToolCall} {keys : List Int}
    (hindex : calls.map index = keys.map some) : Indexed calls := by
  intro call hcall
  have hmem : call.index ∈ keys.map some := hindex ▸ List.mem_map_of_mem hcall
  obtain ⟨key, _, hkey⟩ := List.mem_map.mp hmem
  rw [← hkey]
  exact Option.some_ne_none key

/-- Entering fragments under their indexes adds only indexes that no call has. -/
theorem map_index_enterAll {table : SlotTable} {keys : List Int} (hkeys : table.Locates keys)
    (hindex : table.calls.map index = keys.map some) {arrivals : List (Int × ToolCall)}
    (harrivals : ∀ arrival ∈ arrivals, arrival.2.index = some arrival.1) :
    ∃ later : List Int,
      (arrivals.foldl SlotTable.enter table).calls.map index = (keys ++ later).map some ∧
        ((keys ++ later).Nodup ↔ keys.Nodup) := by
  induction arrivals generalizing table keys with
  | nil => exact ⟨[], by simpa using hindex, by rw [List.append_nil]⟩
  | cons arrival arrivals ih =>
    obtain ⟨key, fragment⟩ := arrival
    have hfragment : fragment.index = some key := harrivals (key, fragment) (by simp)
    have hrest : ∀ a ∈ arrivals, a.2.index = some a.1 := fun a ha => harrivals a (by simp [ha])
    rw [List.foldl_cons]
    rcases hkeys.enter_cases key fragment with
      ⟨slot, _, _, hcalls, hkeys'⟩ | ⟨hnew, hcalls, hkeys'⟩
    · refine ih hkeys' ?_ hrest
      rw [hcalls, map_index_modify (indexed_of_map_index hindex), hindex]
    · have hindex' : (table.enter (key, fragment)).calls.map index = (keys ++ [key]).map some := by
        rw [hcalls, List.map_append, List.map_append, hindex, List.map_singleton,
          List.map_singleton, hfragment]
      obtain ⟨later, hmap, hnodup⟩ := ih hkeys' hindex' hrest
      have hkey : (keys ++ [key]).Nodup ↔ keys.Nodup := by
        rw [List.nodup_append_comm, List.singleton_append, List.nodup_cons]
        exact and_iff_right hnew
      rw [← List.append_cons] at hmap hnodup
      exact ⟨key :: later, hmap, hnodup.trans hkey⟩

/-- Calls that have an index each absorb fragments that have one without getting
a repeated index; one that is repeated stays so. -/
theorem absorb_of_indexed {calls fragments : List ToolCall} (hne : calls ≠ [])
    (hcalls : Indexed calls) (hfragments : Indexed fragments) :
    absorb calls fragments ≠ [] ∧ Indexed (absorb calls fragments) ∧
      (((absorb calls fragments).map index).Nodup ↔ (calls.map index).Nodup) := by
  have hindex : (SlotTable.ofCalls calls).calls.map index = (keys calls).map some :=
    hcalls.map_some_keys.symm
  obtain ⟨later, hmap, hnodup⟩ := map_index_enterAll (SlotTable.locates_ofCalls calls) hindex
    fun _ harrival => hfragments.index_of_mem_arrivals harrival
  rw [absorb_of_ne_nil hne]
  refine ⟨?_, indexed_of_map_index hmap, ?_⟩
  · intro hnil
    have hlength := congrArg List.length hmap
    have hpos : 0 < calls.length := List.length_pos_iff.mpr hne
    rw [hnil, List.length_map, List.length_map, List.length_append, length_keys,
      List.length_nil] at hlength
    omega
  · have hinjective := Option.some_injective Int
    rw [hmap, ← hcalls.map_some_keys, List.nodup_map_iff hinjective,
      List.nodup_map_iff hinjective]
    exact hnodup

/-- Once there are calls, no later chunk changes whether an index is repeated. -/
theorem nodup_index_foldl_absorb {calls : List ToolCall} (hne : calls ≠ [])
    (hcalls : Indexed calls) {chunks : List (List ToolCall)}
    (hchunks : ∀ fragments ∈ chunks, Indexed fragments) :
    ((chunks.foldl absorb calls).map index).Nodup ↔ (calls.map index).Nodup := by
  induction chunks generalizing calls with
  | nil => exact Iff.rfl
  | cons fragments chunks ih =>
    obtain ⟨hne', hcalls', hnodup⟩ := absorb_of_indexed hne hcalls (hchunks fragments (by simp))
    have hrest := ih hne' hcalls' fun f hf => hchunks f (by simp [hf])
    exact hrest.trans hnodup

end ToolCall

namespace Chunk

/-- The fragments of the first chunk that brings any. -/
def firstFragments (window : List Chunk) : List ToolCall :=
  ((window.map fragments).find? (· ≠ [])).getD []

/-- **One call for each index.** Where every fragment has an index, no two calls
of a reduced window have the same one if and only if no two of the first
fragments have: those of the first chunk that brings any. -/
theorem nodup_index_reduce_iff {window : List Chunk}
    (hindexed : ∀ chunk ∈ window, ToolCall.Indexed chunk.fragments) :
    ((reduce window).fragments.map ToolCall.index).Nodup ↔
      ((firstFragments window).map ToolCall.index).Nodup := by
  rw [fragments_reduce]
  induction window with
  | nil => exact Iff.rfl
  | cons chunk window ih =>
    have hrest : ∀ c ∈ window, ToolCall.Indexed c.fragments := fun c hc =>
      hindexed c (by simp [hc])
    rw [List.map_cons, List.foldl_cons, ToolCall.absorb_nil]
    by_cases hempty : chunk.fragments = []
    · have hfirst : firstFragments (chunk :: window) = firstFragments window := by
        simp [firstFragments, hempty]
      rw [hempty, hfirst]
      exact ih hrest
    · have hfirst : firstFragments (chunk :: window) = chunk.fragments := by
        simp [firstFragments, hempty]
      rw [hfirst]
      apply ToolCall.nodup_index_foldl_absorb hempty (hindexed chunk (by simp))
      intro fragments hfragments
      obtain ⟨c, hc, rfl⟩ := List.mem_map.mp hfragments
      exact hrest c hc

/-- A chunk that brings two fragments of one call. -/
def twoFragments : Chunk :=
  ofFragments
    [⟨some 0, some "a", none, some ⟨some "f", some "1"⟩⟩,
      ⟨some 0, none, none, some ⟨none, some "2"⟩⟩]

/-- After a chunk with fragments of another call, the two are one call. -/
theorem nodup_index_reduce_twoFragments_later :
    (∀ chunk ∈ [ofFragments [⟨some 1, none, none, none⟩], twoFragments],
      ToolCall.Indexed chunk.fragments) ∧
      ((reduce [ofFragments [⟨some 1, none, none, none⟩], twoFragments]).fragments.map
        ToolCall.index).Nodup := by
  have hindexed : ∀ chunk ∈ [ofFragments [⟨some 1, none, none, none⟩], twoFragments],
      ToolCall.Indexed chunk.fragments := by decide
  exact ⟨hindexed, (nodup_index_reduce_iff hindexed).mpr (by decide)⟩

/-- As the first fragments, the two are two calls with one index. -/
theorem not_forall_nodup_index_reduce :
    ¬∀ window : List Chunk, (∀ chunk ∈ window, ToolCall.Indexed chunk.fragments) →
      ((reduce window).fragments.map ToolCall.index).Nodup := by
  intro hall
  have hindexed : ∀ chunk ∈ [twoFragments], ToolCall.Indexed chunk.fragments := by decide
  exact absurd (hall [twoFragments] hindexed) (by decide)

end Chunk

end ChatClient
