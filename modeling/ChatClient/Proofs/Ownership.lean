import ChatClient.Proofs.Reassembly
import Mathlib.Logic.Function.Basic

/-!
# Every fragment belongs to one call

Indexes may be missing, repeated or equal to the position of another fragment,
and then the calls of a window are not the groups of its keys. Still nothing is
lost, doubled or mixed up: every fragment can be assigned to a call so that each
call is assembled from the fragments assigned to it. A tally of the fragments
read so far, each with the place of its call, carries this through a window. One
more fragment is merged into a call that is there, or it becomes the last call,
and both ways the tally goes on.
-/

namespace ChatClient

/-- An entry that is added to a list gets the value of its place, and the others
keep theirs. -/
theorem mapIdx_concat_update {α β γ : Type} (f : γ → α → β) (values : Nat → γ) (value : γ)
    (entries : List α) (entry : α) :
    (entries ++ [entry]).mapIdx
        (fun place => f (Function.update values entries.length value place)) =
      entries.mapIdx (fun place => f (values place)) ++ [f value entry] := by
  rw [List.mapIdx_concat, Function.update_self]
  congr 1
  rw [List.mapIdx_eq_mapIdx_iff]
  intro place hplace
  rw [Function.update_of_ne (by omega)]

namespace ToolCall

/-- The fragments of a chunk, each with the place of the call that is assigned to
its position. -/
def shares (owner : Nat → Nat) (fragments : List ToolCall) : List (Int × ToolCall) :=
  fragments.mapIdx fun position fragment => ((owner position : Int), fragment)

/-- A fragment at the end of a chunk is assigned by its own position. -/
theorem shares_concat (owner : Nat → Nat) (slot : Nat) (fragments : List ToolCall)
    (fragment : ToolCall) :
    shares (Function.update owner fragments.length slot) (fragments ++ [fragment]) =
      shares owner fragments ++ [((slot : Int), fragment)] :=
  mapIdx_concat_update (fun (place : Nat) fragment => ((place : Int), fragment)) owner slot
    fragments fragment

/-- Fragments of a chunk that have different keys are assigned to different calls. -/
def Apart (owner : Nat → Nat) (fragments : List ToolCall) : Prop :=
  ∀ first < fragments.length, ∀ second < fragments.length,
    (keys fragments)[first]? ≠ (keys fragments)[second]? → owner first ≠ owner second

/-- Calls, and the fragments that they were assembled from, each with the place of
its call. -/
structure Tally (shares : List (Int × ToolCall)) (calls : List ToolCall) : Prop where
  /-- There is one call for each place, assembled from its fragments. -/
  grouped_eq : grouped shares = calls
  /-- The first fragments of the calls arrive in the order of the calls. -/
  callKeys_eq : callKeys shares = Chunk.positions calls.length

namespace Tally

variable {before : List (Int × ToolCall)} {calls : List ToolCall}

/-- A fragment may be merged into a call that is there. -/
theorem merge (htally : Tally before calls) {slot : Nat} (hslot : slot < calls.length)
    (fragment : ToolCall) :
    Tally (before ++ [((slot : Int), fragment)]) (calls.modify slot (·.merge fragment)) := by
  have hplace : (callKeys before)[slot]? = some (slot : Int) := by
    rw [htally.callKeys_eq, Chunk.positions, List.getElem?_map, List.getElem?_range hslot]
    rfl
  constructor
  · rw [grouped_concat_of_mem hplace, htally.grouped_eq]
  · rw [callKeys_concat_of_mem (List.mem_of_getElem? hplace), htally.callKeys_eq,
      List.length_modify]

/-- A fragment may become the last call. -/
theorem concat (htally : Tally before calls) (fragment : ToolCall) :
    Tally (before ++ [((calls.length : Int), fragment)]) (calls ++ [fragment]) := by
  have hnew : (calls.length : Int) ∉ callKeys before := by
    rw [htally.callKeys_eq, Chunk.mem_positions]
    omega
  constructor
  · rw [grouped_concat_of_not_mem hnew, htally.grouped_eq]
  · rw [callKeys_concat_of_not_mem hnew, htally.callKeys_eq, List.length_append,
      List.length_singleton, Chunk.positions_succ]

/-- Fragments that become calls as they are, each have a call of their own. -/
theorem ofFragments (fragments : List ToolCall) :
    Tally (shares (fun position => position) fragments) fragments := by
  induction fragments using List.reverseRecOn with
  | nil => exact ⟨rfl, rfl⟩
  | append_singleton fragments fragment ih =>
    rw [shares, List.mapIdx_concat]
    exact ih.concat fragment

/-- Entering a fragment assigns it to a call of its key, which may be a new one. -/
theorem enter {table : SlotTable} {keys : List Int} (hkeys : table.Locates keys)
    (htally : Tally before table.calls) (key : Int) (fragment : ToolCall) :
    ∃ (slot : Nat) (later : List Int),
      (table.enter (key, fragment)).Locates (keys ++ later) ∧
        Tally (before ++ [((slot : Int), fragment)]) (table.enter (key, fragment)).calls ∧
        (keys ++ later)[slot]? = some key := by
  rcases hkeys.enter_cases key fragment with
    ⟨slot, hkey, hslot, hcalls, hkeys'⟩ | ⟨_, hcalls, hkeys'⟩
  · refine ⟨slot, [], by rwa [List.append_nil], ?_, by rwa [List.append_nil]⟩
    rw [hcalls]
    exact htally.merge hslot fragment
  · refine ⟨table.calls.length, [key], hkeys', ?_, ?_⟩
    · rw [hcalls]
      exact htally.concat fragment
    · rw [← hkeys.length_eq, List.getElem?_concat_length]

/-- Entering the fragments of a chunk assigns each of them to a call of its key. -/
theorem enterAll {table : SlotTable} {keys : List Int} (hkeys : table.Locates keys)
    (htally : Tally before table.calls) (fragments : List ToolCall) :
    ∃ (owner : Nat → Nat) (located : List Int),
      ((arrivals fragments).foldl SlotTable.enter table).Locates located ∧
        Tally (before ++ shares owner fragments)
          ((arrivals fragments).foldl SlotTable.enter table).calls ∧
        ∀ position < fragments.length,
          located[owner position]? = (ToolCall.keys fragments)[position]? := by
  induction fragments using List.reverseRecOn with
  | nil =>
    exact ⟨fun position => position, keys, hkeys, by simpa [shares, arrivals] using htally,
      by simp⟩
  | append_singleton fragments fragment ih =>
    obtain ⟨owner, located, hlocated, hbefore, howner⟩ := ih
    obtain ⟨slot, later, hlater, hafter, hslot⟩ :=
      enter hlocated hbefore (fragment.key fragments.length) fragment
    rw [arrivals_concat, List.foldl_append]
    refine ⟨Function.update owner fragments.length slot, located ++ later, hlater, ?_, ?_⟩
    · rw [shares_concat, ← List.append_assoc]
      exact hafter
    · intro position hposition
      rw [keys_concat]
      by_cases hlast : position = fragments.length
      · rw [hlast, Function.update_self, hslot, ← length_keys, List.getElem?_concat_length]
      · rw [List.length_append, List.length_singleton] at hposition
        have hearlier : position < (ToolCall.keys fragments).length := by
          rw [length_keys]
          omega
        have hsame := howner position (by omega)
        rw [Function.update_of_ne hlast, List.getElem?_append_left hearlier, ← hsame]
        rw [List.getElem?_eq_getElem hearlier] at hsame
        exact List.getElem?_append_left (List.getElem?_eq_some_iff.mp hsame).1

/-- The fragments of one more chunk are assigned to calls, different keys to
different ones. -/
theorem absorb (htally : Tally before calls) (fragments : List ToolCall) :
    ∃ owner : Nat → Nat,
      Tally (before ++ shares owner fragments) (ToolCall.absorb calls fragments) ∧
        Apart owner fragments := by
  by_cases hcalls : calls = []
  · have hbefore : before = [] := by
      rw [← grouped_eq_nil_iff, htally.grouped_eq, hcalls]
    rw [hbefore, hcalls]
    refine ⟨fun position => position, ofFragments fragments,
      fun first _ second _ hkeys heq => hkeys ?_⟩
    obtain rfl : first = second := heq
    rfl
  · obtain ⟨owner, located, _, hafter, howner⟩ :=
      enterAll (SlotTable.locates_ofCalls calls) htally fragments
    rw [absorb_of_ne_nil hcalls]
    refine ⟨owner, hafter, fun first hfirst second hsecond hkeys heq => hkeys ?_⟩
    rw [← howner first hfirst, ← howner second hsecond, heq]

end Tally

end ToolCall

namespace Chunk

/-- The fragments of a window in the order of their arrival, each with the place of
the call that is assigned to the number of its chunk and its position there. -/
def shares (owner : Nat → Nat → Nat) (window : List Chunk) : List (Int × ToolCall) :=
  (window.mapIdx fun number chunk => ToolCall.shares (owner number) chunk.fragments).flatten

/-- A chunk at the end of a window is assigned by its own number. -/
theorem shares_concat (owner : Nat → Nat → Nat) (last : Nat → Nat) (window : List Chunk)
    (chunk : Chunk) :
    shares (Function.update owner window.length last) (window ++ [chunk]) =
      shares owner window ++ ToolCall.shares last chunk.fragments := by
  rw [shares, mapIdx_concat_update (fun owner (chunk : Chunk) =>
    ToolCall.shares owner chunk.fragments), List.flatten_append, List.flatten_singleton, shares]

/-- An assignment of the fragments of a window that accounts for calls. -/
structure Accounts (owner : Nat → Nat → Nat) (window : List Chunk) (calls : List ToolCall) :
    Prop where
  /-- Every fragment is assigned to one of the calls. -/
  owned : ∀ (number : Nat) (chunk : Chunk), window[number]? = some chunk →
    ∀ position < chunk.fragments.length, owner number position < calls.length
  /-- The calls stand in the order in which their first fragments arrive. -/
  ordered : ToolCall.callKeys (shares owner window) = positions calls.length
  /-- Every call has fragments and is assembled from them in the order of their arrival. -/
  assembled : ∀ (place : Nat) (call : ToolCall), calls[place]? = some call →
    ToolCall.fragmentsOf place (shares owner window) ≠ [] ∧
      call = ToolCall.assemble (ToolCall.fragmentsOf place (shares owner window))
  /-- Fragments of one chunk with different keys are assigned to different calls. -/
  apart : ∀ (number : Nat) (chunk : Chunk), window[number]? = some chunk →
    ToolCall.Apart (owner number) chunk.fragments

/-- A tally of all fragments of a window accounts for the calls. -/
theorem Accounts.of_tally {owner : Nat → Nat → Nat} {window : List Chunk} {calls : List ToolCall}
    (htally : ToolCall.Tally (shares owner window) calls)
    (hapart : ∀ (number : Nat) (chunk : Chunk), window[number]? = some chunk →
      ToolCall.Apart (owner number) chunk.fragments) :
    Accounts owner window calls where
  owned := by
    intro number chunk hchunk position hposition
    have hshare : ((owner number position : Int), chunk.fragments[position]) ∈
        shares owner window := by
      refine List.mem_flatten.mpr ⟨ToolCall.shares (owner number) chunk.fragments, ?_, ?_⟩
      · obtain ⟨hnumber, rfl⟩ := List.getElem?_eq_some_iff.mp hchunk
        exact List.mem_mapIdx.mpr ⟨number, hnumber, rfl⟩
      · exact List.mem_mapIdx.mpr ⟨position, hposition, rfl⟩
    rw [← mem_positions, ← htally.callKeys_eq]
    exact ToolCall.mem_callKeys.mpr ⟨_, hshare⟩
  ordered := htally.callKeys_eq
  assembled := by
    intro place call hcall
    rw [← htally.grouped_eq, ToolCall.grouped, List.getElem?_map] at hcall
    obtain ⟨key, hkey, rfl⟩ := Option.map_eq_some_iff.mp hcall
    obtain rfl : key = place := eq_of_getElem?_positions (htally.callKeys_eq ▸ hkey)
    refine ⟨?_, rfl⟩
    rw [ne_eq, ToolCall.fragmentsOf_eq_nil_iff, not_not]
    exact List.mem_of_getElem? hkey
  apart := hapart

/-- The fragments of every window can be tallied, chunk by chunk. -/
theorem exists_tally_reduce (window : List Chunk) :
    ∃ owner : Nat → Nat → Nat,
      ToolCall.Tally (shares owner window) (reduce window).fragments ∧
        ∀ (number : Nat) (chunk : Chunk), window[number]? = some chunk →
          ToolCall.Apart (owner number) chunk.fragments := by
  induction window using List.reverseRecOn with
  | nil => exact ⟨fun _ position => position, ⟨rfl, rfl⟩, by simp⟩
  | append_singleton window chunk ih =>
    obtain ⟨owner, hbefore, hapart⟩ := ih
    obtain ⟨last, hafter, hlast⟩ := hbefore.absorb chunk.fragments
    refine ⟨Function.update owner window.length last, ?_, ?_⟩
    · rw [reduce_concat, fragments_merge, shares_concat]
      exact hafter
    · intro number found hfound
      rcases Nat.lt_trichotomy number window.length with hlt | rfl | hgt
      · rw [List.getElem?_append_left hlt] at hfound
        rw [Function.update_of_ne (by omega)]
        exact hapart number found hfound
      · rw [List.getElem?_concat_length, Option.some.injEq] at hfound
        rwa [Function.update_self, ← hfound]
      · rw [List.getElem?_eq_none (by simp; omega)] at hfound
        contradiction

/-- **Ownership.** Whatever the indexes are, the fragments of a window can be
assigned to the calls of the reduced window: every fragment belongs to one call,
every call is assembled from its fragments in the order of their arrival, the calls
stand in the order of their first fragments, and fragments of one chunk that have
different keys belong to different calls. -/
theorem exists_accounts_reduce (window : List Chunk) :
    ∃ owner : Nat → Nat → Nat, Accounts owner window (reduce window).fragments := by
  obtain ⟨owner, htally, hapart⟩ := exists_tally_reduce window
  exact ⟨owner, Accounts.of_tally htally hapart⟩

end Chunk

end ChatClient
