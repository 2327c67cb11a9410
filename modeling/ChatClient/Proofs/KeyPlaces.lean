import ChatClient.Proofs.Ownership

/-!
# Where the fragments of a key go

Between two chunks the slot table is built anew from the calls. A call that was
started by a fragment without an index shows its place as its key then, whatever
the key was under which it was stored. Where the two are the same for every such
call, the calls of a window stand for the keys of its fragments, and all
fragments of one key go to one call. Where they differ for one of the calls, its
key is lost: the call shows its place for the rest of the window, and the next
fragment that carries the key as its index goes elsewhere.
-/

namespace ChatClient

/-- A call shows the same key after a fragment of this key was merged into it. -/
theorem ToolCall.key_merge {call fragment : ToolCall} {place : Nat} {key : Int}
    (hcall : call.key place = key)
    (hfragment : fragment.index = none ∨ fragment.index = some key) :
    (call.merge fragment).key place = key := by
  cases hindex : call.index with
  | none =>
    rw [ToolCall.key, hindex, Option.getD_none] at hcall
    rcases hfragment with hnone | hsome
    · simp [ToolCall.key, ToolCall.merge, hindex, hnone, hcall]
    · simp [ToolCall.key, ToolCall.merge, hindex, hsome]
  | some index =>
    rw [ToolCall.key, hindex, Option.getD_some] at hcall
    simp [ToolCall.key, ToolCall.merge, hindex, hcall]

/-! ## Tables -/

namespace SlotTable

/-- The place of the call for a key: its slot, or the end of the calls where it has none. -/
def placeOf (table : SlotTable) (key : Int) : Nat :=
  (table.slots.lookup key).getD table.calls.length

/-- The place to which the arrival at a position goes, when those before it have been
entered. -/
def placeAt (table : SlotTable) (arrivals : List (Int × ToolCall)) (position : Nat) : Nat :=
  ((arrivals.take position).foldl enter table).placeOf ((arrivals.map Prod.fst)[position]?.getD 0)

/-- The keys of the calls after one more arrival: a new key comes last. -/
def keysWith (keys : List Int) (key : Int) : List Int :=
  if key ∈ keys then keys else keys ++ [key]

/-- Keys that are there keep their places. -/
theorem getElem?_keysWith {keys : List Int} {place : Nat} {old : Int}
    (hold : keys[place]? = some old) (key : Int) : (keysWith keys key)[place]? = some old := by
  rw [keysWith]
  split
  · exact hold
  · rwa [List.getElem?_append_left (List.getElem?_eq_some_iff.mp hold).1]

/-- Keys that are there keep their places, however many arrive. -/
theorem getElem?_foldl_keysWith {keys : List Int} {place : Nat} {old : Int}
    (hold : keys[place]? = some old) (later : List Int) :
    (later.foldl keysWith keys)[place]? = some old := by
  induction later generalizing keys with
  | nil => exact hold
  | cons key later ih => exact ih (getElem?_keysWith hold key)

section Locates

variable {table : SlotTable} {keys : List Int}

/-- Entering a fragment adds its key where it is new. -/
theorem Locates.enter (hkeys : table.Locates keys) (arrival : Int × ToolCall) :
    (table.enter arrival).Locates (keysWith keys arrival.1) := by
  rcases hkeys.enter_cases arrival.1 arrival.2 with ⟨slot, hslot, _, _, hkeys'⟩ | ⟨hnew, _, hkeys'⟩
  · rwa [keysWith, if_pos (List.mem_of_getElem? hslot)]
  · rwa [keysWith, if_neg hnew]

/-- The place for a key is that of a call which stands for it, or the key is new and the
place is the end of the calls. -/
theorem Locates.placeOf_cases (hkeys : table.Locates keys) (key : Int) :
    keys[table.placeOf key]? = some key ∨
      (key ∉ keys ∧ table.placeOf key = table.calls.length) := by
  cases hlookup : table.slots.lookup key with
  | some slot =>
    left
    rw [placeOf, hlookup, Option.getD_some]
    exact hkeys.of_some key slot hlookup
  | none =>
    right
    rw [placeOf, hlookup, Option.getD_none]
    exact ⟨hkeys.of_none key hlookup, rfl⟩

/-- After a fragment was entered, its key has the place to which it went. -/
theorem Locates.getElem?_placeOf (hkeys : table.Locates keys) (key : Int) :
    (keysWith keys key)[table.placeOf key]? = some key := by
  rcases hkeys.placeOf_cases key with hold | ⟨hnew, hplace⟩
  · exact getElem?_keysWith hold key
  · rw [keysWith, if_neg hnew, hplace, ← hkeys.length_eq, List.getElem?_concat_length]

/-- Entering fragments adds their keys where they are new. -/
theorem Locates.enterAll (hkeys : table.Locates keys) (arrivals : List (Int × ToolCall)) :
    (arrivals.foldl SlotTable.enter table).Locates
      ((arrivals.map Prod.fst).foldl keysWith keys) := by
  induction arrivals generalizing table keys with
  | nil => exact hkeys
  | cons arrival arrivals ih => exact ih (hkeys.enter arrival)

/-- The key of every arrival has the place to which it went. -/
theorem Locates.getElem?_placeAt (hkeys : table.Locates keys) {arrivals : List (Int × ToolCall)}
    {position : Nat} (hposition : position < arrivals.length) :
    ((arrivals.map Prod.fst).foldl keysWith keys)[table.placeAt arrivals position]? =
      (arrivals.map Prod.fst)[position]? := by
  have hkey : (arrivals.map Prod.fst)[position]? = some arrivals[position].1 := by
    simp [hposition]
  have hsplit : arrivals.map Prod.fst =
      (arrivals.take position).map Prod.fst ++
        arrivals[position].1 :: (arrivals.drop (position + 1)).map Prod.fst := by
    rw [← List.map_cons, ← List.map_append, ← List.drop_eq_getElem_cons, List.take_append_drop]
  rw [placeAt, hkey, Option.getD_some, hsplit, List.foldl_append, List.foldl_cons]
  exact getElem?_foldl_keysWith ((hkeys.enterAll _).getElem?_placeOf _) _

/-- A call that shows its place as its key goes on showing it where a fragment is entered
that is not matched with the call under another key. -/
theorem Locates.shown_enter (hkeys : table.Locates keys) {place : Nat} {stored : Int}
    (hstored : keys[place]? = some stored)
    (hshown : (ToolCall.keys table.calls)[place]? = some (place : Int))
    {arrival : Int × ToolCall}
    (hindex : arrival.2.index = none ∨ arrival.2.index = some arrival.1)
    (hmatched : arrival.1 = stored → stored = place) :
    (ToolCall.keys (table.enter arrival).calls)[place]? = some (place : Int) := by
  rw [ToolCall.keys_getElem?] at hshown ⊢
  obtain ⟨call, hcall, hkey⟩ := Option.map_eq_some_iff.mp hshown
  rcases hkeys.enter_cases arrival.1 arrival.2 with ⟨slot, hslot, _, hcalls, _⟩ | ⟨_, hcalls, _⟩
  · rw [hcalls, List.getElem?_modify, hcall]
    by_cases hplace : slot = place
    · -- the fragment is merged into the call, so its key is the place
      have hsame : arrival.1 = stored := by
        rw [hplace, hstored, Option.some.injEq] at hslot
        exact hslot.symm
      have harrival : arrival.1 = place := hsame.trans (hmatched hsame)
      rw [harrival] at hindex
      simpa [hplace] using ToolCall.key_merge hkey hindex
    · simpa [hplace] using hkey
  · have hlt : place < table.calls.length := (List.getElem?_eq_some_iff.mp hcall).1
    rw [hcalls, List.getElem?_append_left hlt, hcall, Option.map_some, hkey]

/-- A call that shows its place goes on showing it while fragments are entered. -/
theorem Locates.shown_enterAll (hkeys : table.Locates keys) {place : Nat} {stored : Int}
    (hstored : keys[place]? = some stored)
    (hshown : (ToolCall.keys table.calls)[place]? = some (place : Int))
    {arrivals : List (Int × ToolCall)}
    (hindex : ∀ arrival ∈ arrivals, arrival.2.index = none ∨ arrival.2.index = some arrival.1)
    (hmatched : ∀ arrival ∈ arrivals, arrival.1 = stored → stored = place) :
    (ToolCall.keys (arrivals.foldl SlotTable.enter table).calls)[place]? = some (place : Int) := by
  induction arrivals generalizing table keys with
  | nil => exact hshown
  | cons arrival arrivals ih =>
    have hshown' := hkeys.shown_enter hstored hshown (hindex arrival (by simp))
      (hmatched arrival (by simp))
    exact ih (hkeys.enter arrival) (getElem?_keysWith hstored arrival.1) hshown'
      (fun later hlater => hindex later (by simp [hlater]))
      (fun later hlater => hmatched later (by simp [hlater]))

/-- A call that is started by a fragment without an index shows its place. -/
theorem Locates.shown_enter_of_new (hkeys : table.Locates keys) {arrival : Int × ToolCall}
    (hindex : arrival.2.index = none) (hnew : arrival.1 ∉ keys) :
    (ToolCall.keys (table.enter arrival).calls)[keys.length]? = some (keys.length : Int) := by
  rcases hkeys.enter_cases arrival.1 arrival.2 with ⟨_, hslot, _⟩ | ⟨_, hcalls, _⟩
  · exact absurd (List.mem_of_getElem? hslot) hnew
  · rw [hcalls, ToolCall.keys_concat, hkeys.length_eq, ← ToolCall.length_keys,
      List.getElem?_concat_length, ToolCall.key, hindex, Option.getD_none]

/-- A new key has the place at the end of the calls. -/
theorem Locates.placeAt_of_new (hkeys : table.Locates keys) {arrival : Int × ToolCall}
    {earlier rest : List (Int × ToolCall)}
    (hnew : arrival.1 ∉ (earlier.map Prod.fst).foldl keysWith keys) :
    table.placeAt (earlier ++ arrival :: rest) earlier.length =
      ((earlier.map Prod.fst).foldl keysWith keys).length := by
  have hbefore := hkeys.enterAll earlier
  have hplace : table.placeAt (earlier ++ arrival :: rest) earlier.length =
      (earlier.foldl SlotTable.enter table).placeOf arrival.1 := by
    simp [placeAt]
  rcases hbefore.placeOf_cases arrival.1 with hold | ⟨_, hend⟩
  · exact absurd (List.mem_of_getElem? hold) hnew
  · rw [hplace, hend, hbefore.length_eq]

end Locates

end SlotTable

/-! ## Chunks -/

namespace ToolCall

/-- The place to which the fragment at a position of a chunk goes, after the given calls.
The first fragments become calls as they are. -/
def placeIn (calls fragments : List ToolCall) (position : Nat) : Nat :=
  if calls = [] then position
  else (SlotTable.ofCalls calls).placeAt (arrivals fragments) position

/-- Every fragment of a chunk arrives once. -/
theorem length_arrivals (fragments : List ToolCall) :
    (arrivals fragments).length = fragments.length := by
  rw [← length_keys, keys, List.length_map]

/-- What arrives carries its key as its index, or no index. -/
theorem index_of_mem_arrivals {fragments : List ToolCall} {arrival : Int × ToolCall}
    (harrival : arrival ∈ arrivals fragments) :
    arrival.2.index = none ∨ arrival.2.index = some arrival.1 := by
  obtain ⟨⟨fragment, position⟩, _, rfl⟩ := List.mem_map.mp harrival
  cases hindex : fragment.index with
  | none => exact Or.inl rfl
  | some index =>
    right
    simp [key, hindex]

/-- What arrives without an index has its position as its key. -/
theorem fst_of_index_eq_none {fragments : List ToolCall} {earlier rest : List (Int × ToolCall)}
    {arrival : Int × ToolCall} (harrivals : arrivals fragments = earlier ++ arrival :: rest)
    (hindex : arrival.2.index = none) : arrival.1 = earlier.length := by
  have hfragment : fragments[earlier.length]? = some arrival.2 := by
    rw [← arrivals_map_snd fragments, harrivals]
    simp
  have hkey : (keys fragments)[earlier.length]? = some arrival.1 := by
    rw [keys, harrivals]
    simp
  rw [keys_getElem?, hfragment, Option.map_some, Option.some.injEq, ToolCall.key, hindex,
    Option.getD_none] at hkey
  exact hkey.symm

/-- Shares are the same where the positions of the chunk have the same places. -/
theorem shares_congr {owner other : Nat → Nat} {fragments : List ToolCall}
    (hsame : ∀ position < fragments.length, owner position = other position) :
    shares owner fragments = shares other fragments := by
  rw [shares, shares, List.mapIdx_eq_mapIdx_iff]
  intro position hposition
  rw [hsame position hposition]

namespace Tally

variable {before : List (Int × ToolCall)} {calls : List ToolCall}

/-- Entering a fragment assigns it to the place for its key. -/
theorem enter_placeOf {table : SlotTable} {keys : List Int} (hkeys : table.Locates keys)
    (htally : Tally before table.calls) (arrival : Int × ToolCall) :
    Tally (before ++ [(((table.placeOf arrival.1 : Nat) : Int), arrival.2)])
      (table.enter arrival).calls := by
  cases hlookup : table.slots.lookup arrival.1 with
  | some slot =>
    have hslot : slot < table.calls.length := by
      rw [← hkeys.length_eq]
      exact (List.getElem?_eq_some_iff.mp (hkeys.of_some arrival.1 slot hlookup)).1
    simpa [SlotTable.placeOf, SlotTable.enter, hlookup] using htally.merge hslot arrival.2
  | none => simpa [SlotTable.placeOf, SlotTable.enter, hlookup] using htally.concat arrival.2

/-- Entering the fragments of a chunk assigns each of them to the place for its key. -/
theorem enterAll_placeAt {table : SlotTable} {keys : List Int} (hkeys : table.Locates keys)
    (htally : Tally before table.calls) (fragments : List ToolCall) :
    Tally (before ++ shares (table.placeAt (arrivals fragments)) fragments)
      ((arrivals fragments).foldl SlotTable.enter table).calls := by
  induction fragments using List.reverseRecOn with
  | nil => simpa [shares, arrivals] using htally
  | append_singleton fragments fragment ih =>
    have hafter := enter_placeOf (hkeys.enterAll (arrivals fragments)) ih
      (fragment.key fragments.length, fragment)
    have hbefore : shares (table.placeAt (arrivals (fragments ++ [fragment]))) fragments =
        shares (table.placeAt (arrivals fragments)) fragments := by
      apply shares_congr
      intro position hposition
      rw [arrivals_concat, SlotTable.placeAt, SlotTable.placeAt,
        List.take_append_of_le_length (by rw [length_arrivals]; omega), List.map_append,
        List.getElem?_append_left (by rwa [List.length_map, length_arrivals])]
    have hlast : table.placeAt (arrivals (fragments ++ [fragment])) fragments.length =
        ((arrivals fragments).foldl SlotTable.enter table).placeOf
          (fragment.key fragments.length) := by
      rw [arrivals_concat, ← length_arrivals fragments]
      simp [SlotTable.placeAt]
    rw [shares, List.mapIdx_concat, ← shares, hbefore, hlast, ← List.append_assoc,
      arrivals_concat, List.foldl_append]
    exact hafter

/-- The fragments of one more chunk are assigned to the places to which they go. -/
theorem absorb_placeIn (htally : Tally before calls) (fragments : List ToolCall) :
    Tally (before ++ shares (placeIn calls fragments) fragments)
      (ToolCall.absorb calls fragments) := by
  by_cases hcalls : calls = []
  · have hbefore : before = [] := by
      rw [← grouped_eq_nil_iff, htally.grouped_eq, hcalls]
    have hplaces : shares (placeIn calls fragments) fragments =
        shares (fun position => position) fragments :=
      shares_congr fun position _ => if_pos hcalls
    rw [hplaces, hbefore, hcalls]
    exact ofFragments fragments
  · have hplaces : shares (placeIn calls fragments) fragments =
        shares ((SlotTable.ofCalls calls).placeAt (arrivals fragments)) fragments :=
      shares_congr fun position _ => if_neg hcalls
    rw [hplaces, absorb_of_ne_nil hcalls]
    exact enterAll_placeAt (SlotTable.locates_ofCalls calls) htally fragments

end Tally

/-- Fragments of a chunk with different keys go to different places. -/
theorem apart_placeIn (calls fragments : List ToolCall) :
    Apart (placeIn calls fragments) fragments := by
  intro first hfirst second hsecond hkeys hplaces
  apply hkeys
  by_cases hcalls : calls = []
  · rw [placeIn, placeIn, if_pos hcalls, if_pos hcalls] at hplaces
    rw [hplaces]
  · have hlocates := SlotTable.locates_ofCalls calls
    rw [← length_arrivals] at hfirst hsecond
    rw [placeIn, placeIn, if_neg hcalls, if_neg hcalls] at hplaces
    rw [keys, ← hlocates.getElem?_placeAt hfirst, ← hlocates.getElem?_placeAt hsecond, hplaces]

end ToolCall

/-! ## Windows -/

namespace Chunk

/-- The place of the call to which the fragment at a position of a chunk goes, where the
chunk is given by its number in the window. -/
def place (window : List Chunk) (number position : Nat) : Nat :=
  ToolCall.placeIn (reduce (window.take number)).fragments
    ((window[number]?.map fragments).getD []) position

/-- The places of a chunk depend on the chunks before it only. -/
theorem place_append (earlier : List Chunk) (chunk : Chunk) (later : List Chunk) :
    place (earlier ++ chunk :: later) earlier.length =
      ToolCall.placeIn (reduce earlier).fragments chunk.fragments := by
  funext position
  simp [place]

/-- A chunk at the end of a window changes no places. -/
theorem place_concat_of_lt {window : List Chunk} {number : Nat} (hnumber : number < window.length)
    (chunk : Chunk) : place (window ++ [chunk]) number = place window number := by
  funext position
  rw [place, place, List.take_append_of_le_length (by omega), List.getElem?_append_left hnumber]

/-- The fragments of a window with their places, one more chunk of them. -/
theorem shares_place_concat (window : List Chunk) (chunk : Chunk) :
    shares (place (window ++ [chunk])) (window ++ [chunk]) =
      shares (place window) window ++
        ToolCall.shares (ToolCall.placeIn (reduce window).fragments chunk.fragments)
          chunk.fragments := by
  have hbefore : window.mapIdx
        (fun number chunk' => ToolCall.shares (place (window ++ [chunk]) number)
          chunk'.fragments) =
      window.mapIdx (fun number chunk' => ToolCall.shares (place window number)
        chunk'.fragments) := by
    rw [List.mapIdx_eq_mapIdx_iff]
    intro number hnumber
    rw [place_concat_of_lt hnumber]
  rw [shares, List.mapIdx_concat, hbefore, place_append, List.flatten_append,
    List.flatten_singleton, shares]

/-- The places to which the fragments of a window go account for its calls. -/
theorem accounts_place (window : List Chunk) :
    Accounts (place window) window (reduce window).fragments := by
  apply Accounts.of_tally
  · induction window using List.reverseRecOn with
    | nil => exact ⟨rfl, rfl⟩
    | append_singleton window chunk ih =>
      rw [reduce_concat, fragments_merge, shares_place_concat]
      exact ih.absorb_placeIn chunk.fragments
  · intro number chunk hchunk
    have hplace : place window number =
        ToolCall.placeIn (reduce (window.take number)).fragments chunk.fragments := by
      funext position
      rw [place, hchunk, Option.map_some, Option.getD_some]
    rw [hplace]
    exact ToolCall.apart_placeIn _ _

end Chunk

end ChatClient
