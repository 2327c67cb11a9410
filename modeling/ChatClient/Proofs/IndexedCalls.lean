import ChatClient.Proofs.CallIndex

/-!
# Calls that absorb fragments in parts

Where all fragments carry an index, it makes no difference to the calls whether
two lists of fragments are absorbed one after the other, or put together before.
A table then need not be built anew for every chunk: each fragment alone is
inserted into the calls. Inserting a fragment that was put together from two is
inserting the two, and fragments of different calls can change places once the
first of them has its call.
-/

namespace ChatClient

/-! ## One call -/

@[simp] theorem concat?_none_left (text : Option String) : concat? none text = text := by
  cases text <;> simp [concat?]

@[simp] theorem concat?_none_right (text : Option String) : concat? text none = text := by
  cases text <;> simp [concat?]

/-- Texts are put together in any grouping. -/
theorem concat?_assoc (first second third : Option String) :
    concat? (concat? first second) third = concat? first (concat? second third) := by
  cases first with
  | none => simp
  | some first =>
    cases second with
    | none => simp
    | some second => cases third <;> simp [concat?, String.append_assoc]

namespace FunctionCall

@[simp] theorem merge_none_left (call : Option FunctionCall) : merge none call = call := by
  cases call <;> simp [merge]

@[simp] theorem merge_none_right (call : Option FunctionCall) : merge call none = call := by
  cases call <;> simp [merge]

/-- What is called is put together in any grouping. -/
theorem merge_assoc (first second third : Option FunctionCall) :
    merge (merge first second) third = merge first (merge second third) := by
  cases first with
  | none => simp
  | some first =>
    cases second with
    | none => simp
    | some second => cases third <;> simp [merge, concat?_assoc, Option.or_assoc]

end FunctionCall

namespace ToolCall

/-- The fragments of a call are put together in any grouping. -/
theorem merge_assoc (first second third : ToolCall) :
    (first.merge second).merge third = first.merge (second.merge third) := by
  simp [merge, Option.or_assoc, FunctionCall.merge_assoc]

/-- A fragment that carries an index is matched by it, wherever it stands. -/
theorem key_of_index {fragment : ToolCall} {key : Int} (hindex : fragment.index = some key)
    (position : Nat) : fragment.key position = key := by
  rw [ToolCall.key, hindex, Option.getD_some]

/-- Every indexed fragment has an index. -/
theorem Indexed.exists_index {fragments : List ToolCall} (hindexed : Indexed fragments)
    {fragment : ToolCall} (hfragment : fragment ∈ fragments) :
    ∃ key, fragment.index = some key :=
  Option.ne_none_iff_exists'.mp (hindexed fragment hfragment)

/-! ## Slots -/

/-- The place of the call that a table of the calls has for a key. -/
def slotOf? (calls : List ToolCall) (key : Int) : Option Nat :=
  (SlotTable.ofCalls calls).slots.lookup key

/-- Slots depend only on the keys of the calls. -/
theorem slots_ofCalls (calls : List ToolCall) :
    (SlotTable.ofCalls calls).slots = (keys calls).zipIdx.reverse := by
  rw [SlotTable.ofCalls, List.reverse_inj]
  apply List.ext_getElem?
  intro place
  simp [List.getElem?_zipIdx, keys_getElem?, Function.comp_def]

/-- One more call takes the slot of its key and leaves the others. -/
theorem slotOf?_concat (calls : List ToolCall) (call : ToolCall) (key : Int) :
    slotOf? (calls ++ [call]) key =
      if key = call.key calls.length then some calls.length else slotOf? calls key := by
  rw [slotOf?, slots_ofCalls, keys_concat, List.zipIdx_append, List.reverse_append, length_keys,
    slotOf?, slots_ofCalls]
  simp only [List.zipIdx_singleton, List.reverse_singleton, List.singleton_append,
    List.lookup_cons, Nat.zero_add]
  split <;> simp_all

/-- Calls that have the indexes of others have their slots. -/
theorem slots_of_map_index {calls others : List ToolCall} (hothers : Indexed others)
    (hindex : calls.map index = others.map index) :
    Indexed calls ∧ (SlotTable.ofCalls calls).slots = (SlotTable.ofCalls others).slots := by
  have hcalls : Indexed calls := indexed_of_map_index (hindex.trans hothers.map_some_keys.symm)
  refine ⟨hcalls, ?_⟩
  have hkeys : (keys calls).map some = (keys others).map some := by
    rw [hcalls.map_some_keys, hothers.map_some_keys, hindex]
  rw [slots_ofCalls, slots_ofCalls, List.map_injective_iff.mpr (Option.some_injective Int) hkeys]

/-! ## One fragment -/

/-- The last call is modified at the place that follows the others. -/
theorem modify_concat_length (calls : List ToolCall) (call : ToolCall)
    (change : ToolCall → ToolCall) :
    (calls ++ [call]).modify calls.length change = calls ++ [change call] := by
  induction calls with
  | nil => rfl
  | cons first calls ih =>
    rw [List.cons_append, List.length_cons, List.modify_succ_cons, ih, List.cons_append]

/-- A call before the last is modified as if the last were not there. -/
theorem modify_concat_of_lt {calls : List ToolCall} {slot : Nat} (hslot : slot < calls.length)
    (call : ToolCall) (change : ToolCall → ToolCall) :
    (calls ++ [call]).modify slot change = calls.modify slot change ++ [call] := by
  induction calls generalizing slot with
  | nil => contradiction
  | cons first calls ih =>
    cases slot with
    | zero => rfl
    | succ slot =>
      rw [List.cons_append, List.modify_succ_cons, ih (Nat.lt_of_succ_lt_succ hslot),
        List.modify_succ_cons, List.cons_append]

/-- The calls after one more fragment. -/
def insert (calls : List ToolCall) (fragment : ToolCall) : List ToolCall :=
  ((SlotTable.ofCalls calls).enter (fragment.key calls.length, fragment)).calls

section Insert

variable {calls : List ToolCall} {fragment : ToolCall} {key : Int}

/-- A fragment is merged into the call that has the slot of its index. -/
theorem insert_of_slot (hindex : fragment.index = some key) {slot : Nat}
    (hslot : slotOf? calls key = some slot) :
    insert calls fragment = calls.modify slot (·.merge fragment) := by
  rw [slotOf?] at hslot
  rw [insert, key_of_index hindex, SlotTable.enter, hslot]
  rfl

/-- A fragment whose index has no slot becomes the last call. -/
theorem insert_of_new (hindex : fragment.index = some key) (hnew : slotOf? calls key = none) :
    insert calls fragment = calls ++ [fragment] := by
  rw [slotOf?] at hnew
  rw [insert, key_of_index hindex, SlotTable.enter, hnew]
  rfl

/-- Merging a fragment into a call changes neither that the calls are indexed nor
their slots. -/
theorem slots_modify (hcalls : Indexed calls) (slot : Nat) (fragment : ToolCall) :
    Indexed (calls.modify slot (·.merge fragment)) ∧
      (SlotTable.ofCalls (calls.modify slot (·.merge fragment))).slots =
        (SlotTable.ofCalls calls).slots :=
  slots_of_map_index hcalls (map_index_modify hcalls slot fragment)

/-- Calls stay indexed where a fragment with an index is inserted. -/
theorem indexed_insert (hcalls : Indexed calls) (hindex : fragment.index = some key) :
    Indexed (insert calls fragment) := by
  cases hslot : slotOf? calls key with
  | some slot =>
    rw [insert_of_slot hindex hslot]
    exact (slots_modify hcalls slot fragment).1
  | none =>
    rw [insert_of_new hindex hslot]
    intro call hcall
    rcases List.mem_append.mp hcall with hold | hnew
    · exact hcalls call hold
    · obtain rfl : call = fragment := by simpa using hnew
      simp [hindex]

/-- Where a fragment is inserted, its index gets a slot if it has none. -/
theorem slotOf?_insert (hcalls : Indexed calls) (hindex : fragment.index = some key)
    (other : Int) :
    slotOf? (insert calls fragment) other =
      (slotOf? calls other).or (if other = key then some calls.length else none) := by
  cases hslot : slotOf? calls key with
  | some slot =>
    have hsame : slotOf? (insert calls fragment) other = slotOf? calls other := by
      rw [insert_of_slot hindex hslot, slotOf?, (slots_modify hcalls slot fragment).2, slotOf?]
    rw [hsame]
    split
    · next heq => simp [heq, hslot]
    · simp
  | none =>
    rw [insert_of_new hindex hslot, slotOf?_concat, key_of_index hindex]
    split
    · next heq => simp [heq, hslot]
    · simp

/-- A table that is built from the calls stays so while fragments are entered. -/
theorem enter_ofCalls (hcalls : Indexed calls) (hindex : fragment.index = some key) :
    (SlotTable.ofCalls calls).enter (key, fragment) =
      SlotTable.ofCalls (insert calls fragment) := by
  cases hslot : slotOf? calls key with
  | some slot =>
    have hslots := (slots_modify hcalls slot fragment).2
    rw [insert_of_slot hindex hslot]
    rw [slotOf?] at hslot
    rw [SlotTable.enter, hslot]
    exact congrArg (SlotTable.mk _) hslots.symm
  | none =>
    rw [insert_of_new hindex hslot]
    rw [slotOf?] at hslot
    rw [SlotTable.enter, hslot]
    simp [SlotTable.ofCalls, List.zipIdx_append, key_of_index hindex]

/-- Inserting what was put together from two fragments is inserting the two. -/
theorem insert_merge (hcalls : Indexed calls) {first second : ToolCall}
    (hfirst : first.index = some key) (hsecond : second.index = some key) :
    insert calls (first.merge second) = insert (insert calls first) second := by
  have hmerged : (first.merge second).index = some key := by simp [ToolCall.merge, hfirst]
  have hafter := slotOf?_insert hcalls hfirst key
  cases hslot : slotOf? calls key with
  | some slot =>
    rw [hslot, Option.some_or] at hafter
    rw [insert_of_slot hsecond hafter, insert_of_slot hfirst hslot, insert_of_slot hmerged hslot,
      List.modify_modify_eq]
    simp only [Function.comp_def, merge_assoc]
  | none =>
    rw [hslot, Option.none_or, if_pos rfl] at hafter
    rw [insert_of_slot hsecond hafter, insert_of_new hfirst hslot, insert_of_new hmerged hslot,
      modify_concat_length]

/-- Fragments of different calls can change places once the second has its call. -/
theorem insert_comm (hcalls : Indexed calls) {other : Int} (hne : key ≠ other)
    {first second : ToolCall} (hfirst : first.index = some key)
    (hsecond : second.index = some other) {slot : Nat} (hslot : slotOf? calls other = some slot) :
    insert (insert calls first) second = insert (insert calls second) first := by
  have hlocates := SlotTable.locates_ofCalls calls
  have hsecondAfter : slotOf? (insert calls first) other = some slot := by
    rw [slotOf?_insert hcalls hfirst, hslot, Option.some_or]
  have hfirstAfter : slotOf? (insert calls second) key = slotOf? calls key := by
    rw [slotOf?_insert hcalls hsecond, if_neg hne, Option.or_none]
  have hplace := hlocates.of_some other slot hslot
  rw [insert_of_slot hsecond hsecondAfter]
  cases hfirstSlot : slotOf? calls key with
  | some place =>
    rw [hfirstSlot] at hfirstAfter
    have hapart : place ≠ slot := by
      rintro rfl
      have hkey := hlocates.of_some key place hfirstSlot
      rw [hkey, Option.some.injEq] at hplace
      exact hne hplace
    rw [insert_of_slot hfirst hfirstAfter, insert_of_slot hfirst hfirstSlot,
      insert_of_slot hsecond hslot, List.modify_modify_ne _ _ _ hapart]
  | none =>
    rw [hfirstSlot] at hfirstAfter
    have hlt : slot < calls.length := by
      rw [← length_keys]
      exact (List.getElem?_eq_some_iff.mp hplace).1
    rw [insert_of_new hfirst hfirstAfter, insert_of_new hfirst hfirstSlot,
      insert_of_slot hsecond hslot, modify_concat_of_lt hlt]

end Insert

/-! ## Lists of fragments -/

/-- Indexed calls stay indexed where indexed fragments are inserted. -/
theorem indexed_insertAll {calls fragments : List ToolCall} (hcalls : Indexed calls)
    (hfragments : Indexed fragments) : Indexed (fragments.foldl insert calls) := by
  induction fragments generalizing calls with
  | nil => exact hcalls
  | cons fragment fragments ih =>
    obtain ⟨key, hindex⟩ := hfragments.exists_index (by simp : fragment ∈ _)
    exact ih (indexed_insert hcalls hindex) fun later hlater => hfragments later (by simp [hlater])

/-- The index of a fragment that was inserted has a slot. -/
theorem isSome_slotOf?_insertAll {calls fragments : List ToolCall} (hcalls : Indexed calls)
    (hfragments : Indexed fragments) {key : Int} (hslot : (slotOf? fragments key).isSome) :
    (slotOf? (fragments.foldl insert calls) key).isSome := by
  induction fragments using List.reverseRecOn with
  | nil => simp [slotOf?, SlotTable.ofCalls] at hslot
  | append_singleton fragments fragment ih =>
    obtain ⟨other, hindex⟩ := hfragments.exists_index (by simp : fragment ∈ _)
    have hbefore : Indexed fragments := fun earlier hearlier =>
      hfragments earlier (by simp [hearlier])
    rw [List.foldl_append, List.foldl_cons, List.foldl_nil,
      slotOf?_insert (indexed_insertAll hcalls hbefore) hindex]
    rw [slotOf?_concat, key_of_index hindex] at hslot
    by_cases heq : key = other
    · simp [heq]
    · rw [if_neg heq] at hslot
      simp [ih hbefore hslot]

/-- A fragment may be inserted into the fragments first, or afterwards. -/
theorem insertAll_insert {calls fragments : List ToolCall} (hcalls : Indexed calls)
    (hfragments : Indexed fragments) {last : ToolCall} {key : Int}
    (hlast : last.index = some key) :
    (insert fragments last).foldl insert calls = insert (fragments.foldl insert calls) last := by
  induction fragments using List.reverseRecOn with
  | nil =>
    rw [insert_of_new hlast rfl]
    rfl
  | append_singleton fragments fragment ih =>
    obtain ⟨other, hindex⟩ := hfragments.exists_index (by simp : fragment ∈ _)
    have hbefore : Indexed fragments := fun earlier hearlier =>
      hfragments earlier (by simp [hearlier])
    have hinserted : Indexed (fragments.foldl insert calls) := indexed_insertAll hcalls hbefore
    have hslot := slotOf?_concat fragments fragment key
    rw [key_of_index hindex] at hslot
    by_cases heq : key = other
    · -- the fragment before is of the same call, so the two are put together
      subst heq
      rw [if_pos rfl] at hslot
      rw [insert_of_slot hlast hslot, modify_concat_length, List.foldl_append, List.foldl_append]
      exact insert_merge hinserted hindex hlast
    · rw [if_neg heq] at hslot
      cases hearlier : slotOf? fragments key with
      | some slot =>
        -- the call is an earlier one, so the last fragment moves to the front of the one before
        have hlt : slot < fragments.length := by
          have hplace := (SlotTable.locates_ofCalls fragments).of_some key slot hearlier
          rw [← length_keys]
          exact (List.getElem?_eq_some_iff.mp hplace).1
        have hknown : (slotOf? (fragments.foldl insert calls) key).isSome :=
          isSome_slotOf?_insertAll hcalls hbefore (by simp [hearlier])
        obtain ⟨place, hplace⟩ := Option.isSome_iff_exists.mp hknown
        rw [insert_of_slot hlast (hslot.trans hearlier), modify_concat_of_lt hlt,
          ← insert_of_slot hlast hearlier, List.foldl_append, List.foldl_append, ih hbefore]
        exact (insert_comm hinserted (Ne.symm heq) hindex hlast hplace).symm
      | none =>
        rw [insert_of_new hlast (hslot.trans hearlier), List.foldl_append]
        rfl

/-- Fragments may be put together first, or inserted one after the other. -/
theorem insertAll_insertAll {calls fragments later : List ToolCall} (hcalls : Indexed calls)
    (hfragments : Indexed fragments) (hlater : Indexed later) :
    (later.foldl insert fragments).foldl insert calls =
      later.foldl insert (fragments.foldl insert calls) := by
  induction later generalizing fragments with
  | nil => rfl
  | cons fragment later ih =>
    obtain ⟨key, hindex⟩ := hlater.exists_index (by simp : fragment ∈ _)
    have hrest : Indexed later := fun other hother => hlater other (by simp [hother])
    rw [List.foldl_cons, ih (indexed_insert hfragments hindex) hrest,
      insertAll_insert hcalls hfragments hindex, List.foldl_cons]

/-- Entering indexed fragments in a table of indexed calls is inserting them. -/
theorem enterAll_ofCalls {calls : List ToolCall} (hcalls : Indexed calls)
    {arrivals : List (Int × ToolCall)}
    (harrivals : ∀ arrival ∈ arrivals, arrival.2.index = some arrival.1) :
    arrivals.foldl SlotTable.enter (SlotTable.ofCalls calls) =
      SlotTable.ofCalls ((arrivals.map Prod.snd).foldl insert calls) := by
  induction arrivals generalizing calls with
  | nil => rfl
  | cons arrival arrivals ih =>
    obtain ⟨key, fragment⟩ := arrival
    have hindex : fragment.index = some key := harrivals (key, fragment) (by simp)
    rw [List.foldl_cons, enter_ofCalls hcalls hindex,
      ih (indexed_insert hcalls hindex) fun later hlater => harrivals later (by simp [hlater])]
    rfl

/-- Indexed calls absorb indexed fragments by inserting them. -/
theorem absorb_eq_insertAll {calls fragments : List ToolCall} (hne : calls ≠ [])
    (hcalls : Indexed calls) (hfragments : Indexed fragments) :
    absorb calls fragments = fragments.foldl insert calls := by
  rw [absorb_of_ne_nil hne, enterAll_ofCalls hcalls fun arrival harrival =>
    hfragments.index_of_mem_arrivals harrival, arrivals_map_snd]
  rfl

/-- Indexed calls stay indexed where they absorb indexed fragments. -/
theorem indexed_absorb {calls fragments : List ToolCall} (hcalls : Indexed calls)
    (hfragments : Indexed fragments) : Indexed (absorb calls fragments) := by
  by_cases hne : calls = []
  · rwa [hne, absorb_nil]
  · exact (absorb_of_indexed hne hcalls hfragments).2.1

/-- Indexed fragments are absorbed in any grouping. -/
theorem absorb_assoc {first second third : List ToolCall} (hfirst : Indexed first)
    (hsecond : Indexed second) (hthird : Indexed third) :
    absorb (absorb first second) third = absorb first (absorb second third) := by
  by_cases hfirstNil : first = []
  · rw [hfirstNil, absorb_nil, absorb_nil]
  by_cases hsecondNil : second = []
  · rw [hsecondNil, absorb_nil_right, absorb_nil]
  obtain ⟨hne, hindexed, _⟩ := absorb_of_indexed hfirstNil hfirst hsecond
  calc absorb (absorb first second) third
      = third.foldl insert (second.foldl insert first) := by
        rw [absorb_eq_insertAll hne hindexed hthird, absorb_eq_insertAll hfirstNil hfirst hsecond]
    _ = (third.foldl insert second).foldl insert first :=
        (insertAll_insertAll hfirst hsecond hthird).symm
    _ = absorb first (absorb second third) := by
        rw [← absorb_eq_insertAll hsecondNil hsecond hthird,
          absorb_eq_insertAll hfirstNil hfirst (indexed_absorb hsecond hthird)]

end ToolCall

end ChatClient
