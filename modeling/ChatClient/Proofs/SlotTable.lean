import ChatClient.Chunk.Merge
import Mathlib.Data.Option.Basic

/-!
# What a slot table locates

Every call of a slot table stands for one key. A table locates a list of keys,
one for each call, if its look-up finds a call exactly for the keys of the list
and answers with the place of the key. Tables built from calls have this
property, whatever the calls, and placing a fragment keeps it: the fragment
goes to a call of its key, or it becomes a new call where there is none. What
merging preserves is derived from these two cases.
-/

namespace ChatClient

namespace ToolCall

/-- The fragments of a chunk, each with the key by which it is matched. -/
def arrivals (fragments : List ToolCall) : List (Int × ToolCall) :=
  fragments.zipIdx.map fun (fragment, position) => (fragment.key position, fragment)

/-- The keys of the fragments of a chunk. -/
def keys (fragments : List ToolCall) : List Int := (arrivals fragments).map Prod.fst

/-- A fragment arrives after those before it, at the position that they leave. -/
theorem arrivals_concat (fragments : List ToolCall) (fragment : ToolCall) :
    arrivals (fragments ++ [fragment]) =
      arrivals fragments ++ [(fragment.key fragments.length, fragment)] := by
  simp [arrivals, List.zipIdx_append]

/-- The fragments of a chunk arrive in their order. -/
theorem arrivals_map_snd (fragments : List ToolCall) :
    (arrivals fragments).map Prod.snd = fragments := by
  simp [arrivals, Function.comp_def]

/-- The key of a fragment comes after those before it. -/
theorem keys_concat (fragments : List ToolCall) (fragment : ToolCall) :
    keys (fragments ++ [fragment]) = keys fragments ++ [fragment.key fragments.length] := by
  rw [keys, arrivals_concat, List.map_append]
  rfl

/-- What arrives is a fragment of the chunk. -/
theorem snd_mem_of_mem_arrivals {fragments : List ToolCall} {arrival : Int × ToolCall}
    (harrival : arrival ∈ arrivals fragments) : arrival.2 ∈ fragments := by
  rw [← arrivals_map_snd fragments]
  exact List.mem_map_of_mem harrival

/-- There is one key for each fragment. -/
theorem length_keys (fragments : List ToolCall) : (keys fragments).length = fragments.length := by
  simp [keys, arrivals]

/-- The key of a fragment is its index, or its position where it has none. -/
theorem keys_getElem? (fragments : List ToolCall) (position : Nat) :
    (keys fragments)[position]? = fragments[position]?.map (·.key position) := by
  simp [keys, arrivals, List.getElem?_zipIdx, Function.comp_def]

/-- Every fragment of a list carries an index. -/
def Indexed (fragments : List ToolCall) : Prop := ∀ fragment ∈ fragments, fragment.index ≠ none

instance (fragments : List ToolCall) : Decidable (Indexed fragments) :=
  inferInstanceAs (Decidable (∀ fragment ∈ fragments, _))

/-- A fragment that carries an index arrives under it. -/
theorem Indexed.index_of_mem_arrivals {fragments : List ToolCall} (hindexed : Indexed fragments)
    {arrival : Int × ToolCall} (harrival : arrival ∈ arrivals fragments) :
    arrival.2.index = some arrival.1 := by
  obtain ⟨⟨fragment, position⟩, hentry, rfl⟩ := List.mem_map.mp harrival
  obtain ⟨index, hindex⟩ :=
    Option.ne_none_iff_exists'.mp (hindexed fragment (List.fst_mem_of_mem_zipIdx hentry))
  simp [key, hindex]

/-- The keys of fragments that carry an index are their indexes. -/
theorem Indexed.map_some_keys {fragments : List ToolCall} (hindexed : Indexed fragments) :
    (keys fragments).map some = fragments.map index := by
  calc (keys fragments).map some
      = (arrivals fragments).map (some ∘ Prod.fst) := by rw [keys, List.map_map]
    _ = (arrivals fragments).map (index ∘ Prod.snd) :=
      List.map_congr_left fun _ harrival => (hindexed.index_of_mem_arrivals harrival).symm
    _ = fragments.map index := by rw [← List.map_map, arrivals_map_snd]

end ToolCall

namespace SlotTable

/-- A table locates a list of keys: the key of every call, in the order of the calls. -/
structure Locates (table : SlotTable) (keys : List Int) : Prop where
  /-- Every call has a key. -/
  length_eq : keys.length = table.calls.length
  /-- A slot that is found belongs to the key. -/
  of_some : ∀ key slot, table.slots.lookup key = some slot → keys[slot]? = some key
  /-- A key for which no slot is found is the key of no call. -/
  of_none : ∀ key, table.slots.lookup key = none → key ∉ keys

/-- A table built from calls locates their keys. -/
theorem locates_ofCalls (calls : List ToolCall) :
    (ofCalls calls).Locates (ToolCall.keys calls) where
  length_eq := ToolCall.length_keys calls
  of_some := by
    intro key slot hlookup
    obtain ⟨_, _, hslots, _⟩ := List.lookup_eq_some_iff.mp hlookup
    have hmem : (key, slot) ∈ (ofCalls calls).slots := by simp [hslots]
    obtain ⟨⟨call, position⟩, hcall, heq⟩ : ∃ entry ∈ calls.zipIdx,
        (entry.1.key entry.2, entry.2) = (key, slot) := by simpa [ofCalls] using hmem
    obtain ⟨rfl, rfl⟩ := Prod.mk.inj heq
    rw [ToolCall.keys_getElem?, List.mem_zipIdx_iff_getElem?.mp hcall, Option.map_some]
  of_none := by
    intro key hlookup hkey
    obtain ⟨position, hposition⟩ := List.getElem?_of_mem hkey
    rw [ToolCall.keys_getElem?] at hposition
    obtain ⟨call, hcall, hcallKey⟩ := Option.map_eq_some_iff.mp hposition
    have hmem : (key, position) ∈ (ofCalls calls).slots := by
      simp only [ofCalls, List.mem_reverse, List.mem_map]
      exact ⟨(call, position), List.mem_zipIdx_iff_getElem?.mpr hcall, by rw [hcallKey]⟩
    have hmiss := List.lookup_eq_none_iff.mp hlookup _ hmem
    simp at hmiss

/-- A fragment is entered under its key. -/
def enter (table : SlotTable) (arrival : Int × ToolCall) : SlotTable :=
  match table.slots.lookup arrival.1 with
  | some slot => { table with calls := table.calls.modify slot (·.merge arrival.2) }
  | none =>
    { calls := table.calls ++ [arrival.2]
      slots := (arrival.1, table.calls.length) :: table.slots }

/-- To place the fragments of a chunk is to enter their arrivals one after the other. -/
theorem placeAll_eq_foldl (table : SlotTable) (fragments : List ToolCall) :
    table.placeAll fragments = (ToolCall.arrivals fragments).foldl enter table := by
  rw [ToolCall.arrivals, List.foldl_map]
  rfl

/-- What one step can do: the fragment is merged into a call of its key, or it
becomes the last call and brings a key that was not there. -/
theorem Locates.enter_cases {table : SlotTable} {keys : List Int} (hkeys : table.Locates keys)
    (key : Int) (fragment : ToolCall) :
    (∃ slot, keys[slot]? = some key ∧ slot < table.calls.length ∧
      (table.enter (key, fragment)).calls = table.calls.modify slot (·.merge fragment) ∧
      (table.enter (key, fragment)).Locates keys) ∨
    (key ∉ keys ∧ (table.enter (key, fragment)).calls = table.calls ++ [fragment] ∧
      (table.enter (key, fragment)).Locates (keys ++ [key])) := by
  cases hlookup : table.slots.lookup key with
  | some slot =>
    left
    have hslot := hkeys.of_some key slot hlookup
    have hlt : slot < table.calls.length := by
      rw [← hkeys.length_eq]
      exact (List.getElem?_eq_some_iff.mp hslot).1
    refine ⟨slot, hslot, hlt, by simp [enter, hlookup], ?_⟩
    simp only [enter, hlookup]
    exact { hkeys with length_eq := by simpa using hkeys.length_eq }
  | none =>
    right
    refine ⟨hkeys.of_none key hlookup, by simp [enter, hlookup], ?_⟩
    simp only [enter, hlookup]
    refine ⟨by simp [hkeys.length_eq], ?_, ?_⟩
    · intro k slot hk
      rw [List.lookup_cons] at hk
      split at hk
      · next heq =>
        obtain rfl := eq_of_beq heq
        obtain rfl := Option.some.inj hk
        simp [← hkeys.length_eq]
      · have hold := hkeys.of_some k slot hk
        rw [List.getElem?_append_left (List.getElem?_eq_some_iff.mp hold).1]
        exact hold
    · intro k hk
      rw [List.lookup_cons] at hk
      split at hk
      · contradiction
      · next hne =>
        have hold := hkeys.of_none k hk
        simpa [hold] using hne

end SlotTable

end ChatClient
