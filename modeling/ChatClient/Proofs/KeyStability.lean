import ChatClient.Proofs.KeyPlaces

/-!
# Stable keys

Fragments of different chunks that have one key should go to one call. They do,
whatever chunk comes next, if and only if every call that a fragment without an
index started stands at the position of this fragment. One direction says that
the calls stand for the keys of the fragments then. For the other one, the first
call that stands elsewhere is followed to the end of the window: it shows its
place, and a fragment that carries its key misses it.
-/

namespace ChatClient

namespace ToolCall

/-- Every fragment that starts a call and carries no index starts it at the place that is
its key. -/
def StartsInPlace (arrivals : List (Int × ToolCall)) : Prop :=
  ∀ number < arrivals.length, ∀ arrival ∈ arrivals[number]?, arrival.2.index = none →
    arrival.1 ∉ callKeys (arrivals.take number) →
      arrival.1 = (callKeys (arrivals.take number)).length

instance (arrivals : List (Int × ToolCall)) : Decidable (StartsInPlace arrivals) :=
  inferInstanceAs (Decidable (∀ number < arrivals.length, ∀ arrival ∈ arrivals[number]?, _))

/-- One more arrival starts its call in its place, or it starts none. -/
theorem startsInPlace_concat {arrivals : List (Int × ToolCall)} {arrival : Int × ToolCall} :
    StartsInPlace (arrivals ++ [arrival]) ↔
      StartsInPlace arrivals ∧
        (arrival.2.index = none → arrival.1 ∉ callKeys arrivals →
          arrival.1 = (callKeys arrivals).length) := by
  constructor
  · intro hplace
    constructor
    · intro number hnumber earlier hearlier
      have hsame := hplace number (by simp; omega) earlier
        (by rwa [List.getElem?_append_left hnumber])
      rwa [List.take_append_of_le_length (by omega)] at hsame
    · have hlast := hplace arrivals.length (by simp) arrival (by simp)
      rwa [List.take_left' rfl] at hlast
  · rintro ⟨hbefore, hlast⟩ number hnumber earlier hearlier
    rw [List.length_append, List.length_singleton] at hnumber
    by_cases hnew : number = arrivals.length
    · obtain rfl : arrival = earlier := by simpa [hnew] using hearlier
      rwa [hnew, List.take_left' rfl]
    · have hlt : number < arrivals.length := by omega
      rw [List.getElem?_append_left hlt] at hearlier
      rw [List.take_append_of_le_length (by omega)]
      exact hbefore number hlt earlier hearlier

/-- What holds of arrivals holds of the first of them. -/
theorem StartsInPlace.of_append {before later : List (Int × ToolCall)}
    (hplace : StartsInPlace (before ++ later)) : StartsInPlace before := by
  induction later using List.reverseRecOn with
  | nil => rwa [List.append_nil] at hplace
  | append_singleton later arrival ih =>
    rw [← List.append_assoc] at hplace
    exact ih (startsInPlace_concat.mp hplace).1

/-- If not all calls are started in their places, there is a first one that is not. -/
theorem exists_first_elsewhere {before later : List (Int × ToolCall)}
    (hbefore : StartsInPlace before) (hlater : ¬StartsInPlace (before ++ later)) :
    ∃ (earlier : List (Int × ToolCall)) (arrival : Int × ToolCall) (rest : List (Int × ToolCall)),
      later = earlier ++ arrival :: rest ∧ StartsInPlace (before ++ earlier) ∧
        arrival.2.index = none ∧ arrival.1 ∉ callKeys (before ++ earlier) ∧
          arrival.1 ≠ (callKeys (before ++ earlier)).length := by
  induction later using List.reverseRecOn with
  | nil => exact absurd (by rwa [List.append_nil]) hlater
  | append_singleton later arrival ih =>
    by_cases hplace : StartsInPlace (before ++ later)
    · rw [← List.append_assoc, startsInPlace_concat, not_and] at hlater
      have hlast := hlater hplace
      simp only [Classical.not_imp] at hlast
      obtain ⟨hindex, hnew, helsewhere⟩ := hlast
      exact ⟨later, arrival, [], rfl, hplace, hindex, hnew, helsewhere⟩
    · obtain ⟨earlier, first, rest, rfl, hrest⟩ := ih hplace
      exact ⟨earlier, first, rest ++ [arrival], by simp, hrest⟩

/-- The keys of arrivals are those of the arrivals before, with new ones at the end. -/
theorem callKeys_append (before later : List (Int × ToolCall)) :
    callKeys (before ++ later) =
      (later.map Prod.fst).foldl SlotTable.keysWith (callKeys before) := by
  induction later using List.reverseRecOn with
  | nil => rw [List.append_nil, List.map_nil, List.foldl_nil]
  | append_singleton later arrival ih =>
    rw [← List.append_assoc, List.map_append, List.map_singleton, List.foldl_append,
      List.foldl_cons, List.foldl_nil, ← ih, SlotTable.keysWith]
    split
    · next hkey => exact callKeys_concat_of_mem hkey arrival.2
    · next hkey => exact callKeys_concat_of_not_mem hkey arrival.2

/-- Different keys are listed as they arrive. -/
theorem callKeys_of_nodup {arrivals : List (Int × ToolCall)}
    (hnodup : (arrivals.map Prod.fst).Nodup) : callKeys arrivals = arrivals.map Prod.fst := by
  induction arrivals using List.reverseRecOn with
  | nil => rfl
  | append_singleton arrivals arrival ih =>
    rw [List.map_append, List.nodup_append] at hnodup
    obtain ⟨hbefore, _, hnew⟩ := hnodup
    have hkey : arrival.1 ∉ callKeys arrivals := by
      intro hkey
      rw [ih hbefore] at hkey
      exact hnew arrival.1 hkey arrival.1 (by simp) rfl
    rw [callKeys_concat_of_not_mem hkey, ih hbefore, List.map_append,
      List.map_singleton]

/-- Calls that are started in their places show the keys of their fragments. -/
theorem keys_grouped_of_startsInPlace {arrivals : List (Int × ToolCall)}
    (hindex : ∀ arrival ∈ arrivals, arrival.2.index = none ∨ arrival.2.index = some arrival.1)
    (hplace : StartsInPlace arrivals) : keys (grouped arrivals) = callKeys arrivals := by
  induction arrivals using List.reverseRecOn with
  | nil => rfl
  | append_singleton arrivals arrival ih =>
    obtain ⟨key, fragment⟩ := arrival
    obtain ⟨hbefore, hlast⟩ := startsInPlace_concat.mp hplace
    have hshown := ih (fun earlier hearlier => hindex earlier (by simp [hearlier])) hbefore
    have hfragment := hindex (key, fragment) (by simp)
    by_cases hkey : key ∈ callKeys arrivals
    · obtain ⟨slot, hslot⟩ := List.getElem?_of_mem hkey
      rw [callKeys_concat_of_mem hkey, grouped_concat_of_mem hslot, ← hshown]
      apply List.ext_getElem?
      intro place
      rw [keys_getElem?, keys_getElem?, List.getElem?_modify]
      cases hcall : (grouped arrivals)[place]? with
      | none => rfl
      | some call =>
        by_cases hsame : slot = place
        · -- the call shows the key already, and the fragment agrees with it
          have hcallKey : call.key place = key := by
            rw [← hshown, hsame, keys_getElem?, hcall, Option.map_some, Option.some.injEq] at hslot
            exact hslot
          simp [hsame, hcallKey, key_merge hcallKey hfragment]
        · simp [hsame]
    · have hcount : (grouped arrivals).length = (callKeys arrivals).length := by
        rw [grouped, List.length_map]
      rw [callKeys_concat_of_not_mem hkey, grouped_concat_of_not_mem hkey, keys_concat, hshown,
        hcount]
      congr 2
      rcases hfragment with hnone | hsome
      · rw [ToolCall.key, hnone, Option.getD_none]
        exact (hlast hnone hkey).symm
      · rw [ToolCall.key, hsome, Option.getD_some]

/-- Where the calls show the keys of their fragments, the key of a further fragment has the
place to which it goes. -/
theorem getElem?_callKeys_placeIn {before : List (Int × ToolCall)} {fragments : List ToolCall}
    (hshown : keys (grouped before) = callKeys before) (hnodup : (keys fragments).Nodup)
    {position : Nat} (hposition : position < fragments.length) :
    (callKeys (before ++ arrivals fragments))[placeIn (grouped before) fragments position]? =
      (keys fragments)[position]? := by
  by_cases hbefore : before = []
  · have hfirst : callKeys (arrivals fragments) = keys fragments := callKeys_of_nodup hnodup
    have hcalls : grouped before = [] := grouped_eq_nil_iff.mpr hbefore
    rw [placeIn, if_pos hcalls, hbefore, List.nil_append, hfirst]
  · have hcalls : grouped before ≠ [] := by rwa [ne_eq, grouped_eq_nil_iff]
    have hlocates := SlotTable.locates_ofCalls (grouped before)
    rw [hshown] at hlocates
    rw [callKeys_append, placeIn, if_neg hcalls,
      hlocates.getElem?_placeAt (by rwa [length_arrivals]), keys]

/-- A call that shows its place goes on showing it when a chunk is absorbed. -/
theorem shown_absorb {calls : List ToolCall} {place : Nat}
    (hshown : (keys calls)[place]? = some (place : Int)) (fragments : List ToolCall) :
    (keys (absorb calls fragments))[place]? = some (place : Int) := by
  have hcalls : calls ≠ [] := by
    rintro rfl
    simp [keys, arrivals] at hshown
  rw [absorb_of_ne_nil hcalls]
  exact (SlotTable.locates_ofCalls calls).shown_enterAll hshown hshown
    (fun _ => index_of_mem_arrivals) (fun _ _ _ => rfl)

/-- The first call of a chunk that is not started in its place shows its place instead of
its key. -/
theorem exists_shown_elsewhere {before : List (Int × ToolCall)} {fragments : List ToolCall}
    (hshown : keys (grouped before) = callKeys before) (hnodup : (keys fragments).Nodup)
    (hbefore : StartsInPlace before)
    (helsewhere : ¬StartsInPlace (before ++ arrivals fragments)) :
    ∃ (position place : Nat) (key : Int), (keys fragments)[position]? = some key ∧
      placeIn (grouped before) fragments position = place ∧ key ≠ place ∧
        (keys (absorb (grouped before) fragments))[place]? = some (place : Int) := by
  obtain ⟨earlier, arrival, rest, harrivals, _, hindex, hnew, hne⟩ :=
    exists_first_elsewhere hbefore helsewhere
  have hkeys : keys fragments = earlier.map Prod.fst ++ arrival.1 :: rest.map Prod.fst := by
    rw [keys, harrivals, List.map_append, List.map_cons]
  have hkey : (keys fragments)[earlier.length]? = some arrival.1 := by
    rw [hkeys]
    simp
  rw [hkeys, List.nodup_append, List.nodup_cons] at hnodup
  obtain ⟨hearlier, ⟨hrest, _⟩, _⟩ := hnodup
  have hcalls : grouped before ≠ [] := by
    -- fragments that come first are in their places
    intro hnil
    obtain rfl := grouped_eq_nil_iff.mp hnil
    rw [List.nil_append, callKeys_of_nodup hearlier, List.length_map] at hne
    exact hne (fst_of_index_eq_none harrivals hindex)
  have hlocates := SlotTable.locates_ofCalls (grouped before)
  rw [hshown] at hlocates
  have htable := hlocates.enterAll earlier
  rw [← callKeys_append] at htable
  refine ⟨earlier.length, (callKeys (before ++ earlier)).length, arrival.1, hkey, ?_, hne, ?_⟩
  · rw [callKeys_append] at hnew
    rw [placeIn, if_neg hcalls, harrivals, hlocates.placeAt_of_new hnew, callKeys_append]
  · rw [absorb_of_ne_nil hcalls, harrivals, List.foldl_append, List.foldl_cons]
    have hstored : (SlotTable.keysWith (callKeys (before ++ earlier)) arrival.1)[
        (callKeys (before ++ earlier)).length]? = some arrival.1 := by
      rw [SlotTable.keysWith, if_neg hnew, List.getElem?_concat_length]
    apply (htable.enter arrival).shown_enterAll hstored (htable.shown_enter_of_new hindex hnew)
    · intro later hlater
      have hmem : later ∈ arrivals fragments := by
        rw [harrivals]
        simp [hlater]
      exact index_of_mem_arrivals hmem
    · -- no later fragment of the chunk has the key again
      intro later hlater heq
      exact absurd (List.mem_map_of_mem hlater) (heq ▸ hrest)

end ToolCall

namespace Chunk

/-- No chunk carries two fragments of one key. -/
def KeysApart (window : List Chunk) : Prop :=
  ∀ chunk ∈ window, (ToolCall.keys chunk.fragments).Nodup

instance (window : List Chunk) : Decidable (KeysApart window) :=
  inferInstanceAs (Decidable (∀ chunk ∈ window, _))

/-- Fragments of different chunks that have the same key are assigned to the same call. -/
def KeysStable (owner : Nat → Nat → Nat) (window : List Chunk) : Prop :=
  ∀ (first second : Nat) (earlier later : Chunk), first ≠ second →
    window[first]? = some earlier → window[second]? = some later →
      ∀ (position other : Nat) (key : Int),
        (ToolCall.keys earlier.fragments)[position]? = some key →
          (ToolCall.keys later.fragments)[other]? = some key →
            owner first position = owner second other

/-- What arrives with a window carries its key as its index, or no index. -/
theorem index_of_mem_arrivals {window : List Chunk} {arrival : Int × ToolCall}
    (harrival : arrival ∈ arrivals window) :
    arrival.2.index = none ∨ arrival.2.index = some arrival.1 := by
  obtain ⟨chunk, _, hmem⟩ := List.mem_flatMap.mp harrival
  exact ToolCall.index_of_mem_arrivals hmem

/-- Where the calls are started in their places, a window groups its fragments by key. -/
theorem fragments_reduce_of_startsInPlace {window : List Chunk} (hapart : KeysApart window)
    (hplace : ToolCall.StartsInPlace (arrivals window)) :
    (reduce window).fragments = ToolCall.grouped (arrivals window) ∧
      ToolCall.keys (ToolCall.grouped (arrivals window)) = ToolCall.callKeys (arrivals window) := by
  have hshown : ∀ before, before <+: window →
      ToolCall.keys (ToolCall.grouped (arrivals before)) =
        ToolCall.callKeys (arrivals before) := by
    rintro before ⟨later, rfl⟩
    rw [arrivals, List.flatMap_append] at hplace
    exact ToolCall.keys_grouped_of_startsInPlace (fun _ => index_of_mem_arrivals) hplace.of_append
  exact ⟨fragments_reduce_grouped hshown hapart, hshown window List.prefix_rfl⟩

/-- Where the calls before a chunk are started in their places, the key of a fragment of the
chunk has the place to which the fragment goes. -/
theorem getElem?_callKeys_place {earlier : List Chunk} {chunk : Chunk}
    (hapart : KeysApart (earlier ++ [chunk]))
    (hplace : ToolCall.StartsInPlace (arrivals earlier)) (later : List Chunk) {position : Nat}
    {key : Int} (hkey : (ToolCall.keys chunk.fragments)[position]? = some key) :
    (ToolCall.callKeys (arrivals (earlier ++ chunk :: later)))[
        place (earlier ++ chunk :: later) earlier.length position]? = some key := by
  obtain ⟨hcalls, hshown⟩ := fragments_reduce_of_startsInPlace
    (fun c hc => hapart c (List.mem_append_left _ hc)) hplace
  have hposition : position < chunk.fragments.length := by
    rw [← ToolCall.length_keys]
    exact (List.getElem?_eq_some_iff.mp hkey).1
  have hhome := ToolCall.getElem?_callKeys_placeIn hshown (hapart chunk (by simp)) hposition
  rw [hkey] at hhome
  have harrivals : arrivals (earlier ++ chunk :: later) =
      arrivals earlier ++ ToolCall.arrivals chunk.fragments ++ arrivals later := by
    simp [arrivals]
  rw [place_append, hcalls, harrivals, ToolCall.callKeys_append]
  exact SlotTable.getElem?_foldl_keysWith hhome _

/-- Where all calls are started in their places, the keys of the window are stable. -/
theorem keysStable_of_startsInPlace {window : List Chunk} {next : Chunk}
    (hapart : KeysApart (window ++ [next]))
    (hplace : ToolCall.StartsInPlace (arrivals window)) :
    KeysStable (place (window ++ [next])) (window ++ [next]) := by
  -- every fragment goes to the one place at which its key stands in the end
  have hhome : ∀ (number : Nat) (chunk : Chunk), (window ++ [next])[number]? = some chunk →
      ∀ (position : Nat) (key : Int), (ToolCall.keys chunk.fragments)[position]? = some key →
        (ToolCall.callKeys (arrivals (window ++ [next])))[
          place (window ++ [next]) number position]? = some key := by
    intro number chunk hchunk position key hkey
    obtain ⟨hnumber, rfl⟩ := List.getElem?_eq_some_iff.mp hchunk
    have hsplit : window ++ [next] = (window ++ [next]).take number ++
        (window ++ [next])[number] :: (window ++ [next]).drop (number + 1) := by
      rw [← List.drop_eq_getElem_cons, List.take_append_drop]
    have hcount : ((window ++ [next]).take number).length = number := by
      rw [List.length_take]
      omega
    have hbefore : (window ++ [next]).take number = window.take number := by
      rw [List.length_append, List.length_singleton] at hnumber
      exact List.take_append_of_le_length (by omega)
    have harrivals : ToolCall.StartsInPlace (arrivals ((window ++ [next]).take number)) := by
      rw [← List.take_append_drop number window, arrivals, List.flatMap_append] at hplace
      rw [hbefore]
      exact hplace.of_append
    have hprefix : KeysApart ((window ++ [next]).take number ++ [(window ++ [next])[number]]) := by
      intro c hc
      rw [List.take_append_getElem] at hc
      exact hapart c (List.mem_of_mem_take hc)
    have hat := getElem?_callKeys_place hprefix harrivals
      ((window ++ [next]).drop (number + 1)) hkey
    rwa [← hsplit, hcount] at hat
  intro first second earlier later _ hfirst hsecond position other key hkey hother
  have hone := hhome first earlier hfirst position key hkey
  have htwo := hhome second later hsecond other key hother
  have hlt := (List.getElem?_eq_some_iff.mp hone).1
  exact (List.getElem?_inj hlt (ToolCall.nodup_callKeys _)).mp (hone.trans htwo.symm)

/-- If not all calls are started in their places, one of them shows another key than that of
the fragment which started it, to the end of the window. -/
theorem exists_lost_key {window : List Chunk} (hapart : KeysApart window)
    (helsewhere : ¬ToolCall.StartsInPlace (arrivals window)) :
    ∃ (number position slot : Nat) (chunk : Chunk) (key : Int),
      window[number]? = some chunk ∧ (ToolCall.keys chunk.fragments)[position]? = some key ∧
        place window number position = slot ∧ key ≠ slot ∧
          (ToolCall.keys (reduce window).fragments)[slot]? = some (slot : Int) := by
  induction window using List.reverseRecOn with
  | nil => exact absurd (by decide) helsewhere
  | append_singleton window chunk ih =>
    have hbefore : KeysApart window := fun c hc => hapart c (List.mem_append_left _ hc)
    rw [reduce_concat, fragments_merge]
    by_cases hplace : ToolCall.StartsInPlace (arrivals window)
    · obtain ⟨hcalls, hshown⟩ := fragments_reduce_of_startsInPlace hbefore hplace
      rw [arrivals_concat] at helsewhere
      obtain ⟨position, slot, key, hkey, hgoes, hne, hlast⟩ :=
        ToolCall.exists_shown_elsewhere hshown (hapart chunk (by simp)) hplace helsewhere
      refine ⟨window.length, position, slot, chunk, key, by simp, hkey, ?_, hne, ?_⟩
      · rw [place_append, hcalls, hgoes]
      · rw [hcalls, hlast]
    · obtain ⟨number, position, slot, found, key, hfound, hkey, hgoes, hne, hshown⟩ :=
        ih hbefore hplace
      have hnumber : number < window.length := (List.getElem?_eq_some_iff.mp hfound).1
      refine ⟨number, position, slot, found, key, ?_, hkey, ?_, hne, ?_⟩
      · rwa [List.getElem?_append_left hnumber]
      · rw [place_concat_of_lt hnumber, hgoes]
      · exact ToolCall.shown_absorb hshown chunk.fragments

/-- A call that shows its place is missed by a fragment that carries another key. -/
theorem place_ofFragments_ne {window : List Chunk} {slot : Nat} {key : Int}
    (hshown : (ToolCall.keys (reduce window).fragments)[slot]? = some (slot : Int))
    (hne : key ≠ slot) :
    place (window ++ [ofFragments [⟨some key, none, none, none⟩]]) window.length 0 ≠ slot := by
  have hcalls : (reduce window).fragments ≠ [] := by
    intro hnil
    simp [hnil, ToolCall.keys, ToolCall.arrivals] at hshown
  have hgoes : place (window ++ [ofFragments [⟨some key, none, none, none⟩]]) window.length 0 =
      (SlotTable.ofCalls (reduce window).fragments).placeOf key := by
    rw [place_append, ToolCall.placeIn, if_neg hcalls]
    rfl
  have hlocates := SlotTable.locates_ofCalls (reduce window).fragments
  rw [hgoes]
  intro heq
  rcases hlocates.placeOf_cases key with hold | ⟨_, hend⟩
  · rw [heq, hshown, Option.some.injEq] at hold
    exact hne hold.symm
  · have hlt := (List.getElem?_eq_some_iff.mp hshown).1
    rw [ToolCall.length_keys, ← heq, hend] at hlt
    exact absurd hlt (Nat.lt_irrefl _)

/-- **Stable keys.** In a window whose chunks repeat no key, every call is assembled from the
fragments that go to it. Fragments of different chunks that have one key go to one call,
whatever chunk comes next, if and only if every fragment that starts a call and carries no
index starts it at its own position. -/
theorem keysStable_iff_startsInPlace {window : List Chunk} (hapart : KeysApart window) :
    Accounts (place window) window (reduce window).fragments ∧
      (ToolCall.StartsInPlace (arrivals window) ↔
        ∀ next : Chunk, (ToolCall.keys next.fragments).Nodup →
          KeysStable (place (window ++ [next])) (window ++ [next])) := by
  refine ⟨accounts_place window, fun hplace next hnext => ?_, fun hstable => ?_⟩
  · apply keysStable_of_startsInPlace _ hplace
    intro chunk hchunk
    rcases List.mem_append.mp hchunk with hbefore | hlast
    · exact hapart chunk hbefore
    · rwa [List.mem_singleton.mp hlast]
  · by_contra helsewhere
    obtain ⟨number, position, slot, chunk, key, hchunk, hkey, hgoes, hne, hshown⟩ :=
      exists_lost_key hapart helsewhere
    have hnumber : number < window.length := (List.getElem?_eq_some_iff.mp hchunk).1
    -- the next chunk carries the key as its index
    have hsame := hstable (ofFragments [⟨some key, none, none, none⟩]) (List.nodup_singleton key)
      number window.length chunk _ (by omega) (by rwa [List.getElem?_append_left hnumber])
      (List.getElem?_concat_length ..) position 0 key hkey rfl
    rw [place_concat_of_lt hnumber, hgoes] at hsame
    exact place_ofFragments_ne hshown hne hsame.symm

/-- Two calls of which the second was started in its place, so that it is found by its
position and by an index. -/
def mixedKeys : List Chunk :=
  [ofFragments
      [⟨some 7, some "a", none, some ⟨some "f", some "1"⟩⟩,
        ⟨none, some "b", none, some ⟨some "g", some "x"⟩⟩],
    ofFragments [⟨some 7, none, none, some ⟨none, some "2"⟩⟩, ⟨none, none, none, none⟩],
    ofFragments [⟨some 1, none, none, some ⟨none, some "y"⟩⟩]]

/-- The second call is started at the place of the first, and gets the fragment that carries
the index of the first. -/
def misplacedKeys : List Chunk :=
  [ofFragments [⟨some 1, some "a", none, some ⟨some "f", some "1"⟩⟩],
    ofFragments [⟨none, some "b", none, some ⟨some "g", some "x"⟩⟩],
    ofFragments [⟨some 1, none, none, some ⟨none, some "2"⟩⟩]]

/-- The first window keeps its keys with any next chunk, the second does not. -/
theorem keysStable_mixedKeys_misplacedKeys :
    (KeysApart mixedKeys ∧ Accounts (place mixedKeys) mixedKeys (reduce mixedKeys).fragments ∧
      ∀ next : Chunk, (ToolCall.keys next.fragments).Nodup →
        KeysStable (place (mixedKeys ++ [next])) (mixedKeys ++ [next])) ∧
    (KeysApart misplacedKeys ∧
      ¬∀ next : Chunk, (ToolCall.keys next.fragments).Nodup →
        KeysStable (place (misplacedKeys ++ [next])) (misplacedKeys ++ [next])) := by
  have hmixed : KeysApart mixedKeys := by decide
  have hmisplaced : KeysApart misplacedKeys := by decide
  obtain ⟨haccounts, hstable⟩ := keysStable_iff_startsInPlace hmixed
  obtain ⟨_, hunstable⟩ := keysStable_iff_startsInPlace hmisplaced
  refine ⟨⟨hmixed, haccounts, hstable.mp (by decide)⟩, hmisplaced, fun hall => ?_⟩
  exact absurd (hunstable.mpr hall) (by decide)

/-- In the second window, no assignment that accounts for the calls assigns the two fragments
of index one to one call. -/
theorem not_forall_keysStable :
    ¬∀ window : List Chunk, KeysApart window →
      ∃ owner : Nat → Nat → Nat,
        Accounts owner window (reduce window).fragments ∧ KeysStable owner window := by
  intro hall
  obtain ⟨owner, haccounts, hstable⟩ := hall misplacedKeys (by decide)
  have hsame : owner 0 0 = owner 2 0 :=
    hstable 0 2 _ _ (by decide) rfl rfl 0 0 1 (by decide) (by decide)
  have hfirst : owner 0 0 < 2 := haccounts.owned 0 _ rfl 0 (by decide)
  have hsecond : owner 1 0 < 2 := haccounts.owned 1 _ rfl 0 (by decide)
  have hgiven : shares owner misplacedKeys =
      shares (fun number _ => [owner 0 0, owner 1 0, owner 2 0].getD number 0) misplacedKeys := rfl
  have hordered := haccounts.ordered
  obtain ⟨_, hcall⟩ := haccounts.assembled 0 _ rfl
  rw [hgiven, ← hsame] at hordered hcall
  -- the first call has the arguments of one fragment only
  have hnone : ∀ first < 2, ∀ second < 2,
      ToolCall.callKeys (shares (fun number _ => [first, second, first].getD number 0)
          misplacedKeys) = positions (reduce misplacedKeys).fragments.length →
        (reduce misplacedKeys).fragments[0]? ≠
          some (ToolCall.assemble (ToolCall.fragmentsOf 0
            (shares (fun number _ => [first, second, first].getD number 0) misplacedKeys))) := by
    decide
  exact hnone _ hfirst _ hsecond hordered (congrArg some hcall)

end Chunk

end ChatClient
