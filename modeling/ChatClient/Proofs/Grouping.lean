import ChatClient.Proofs.Assembly
import Mathlib.Data.List.Nodup

/-!
# Fragments grouped by key

Arrivals are grouped here into one call for each key, in the order in which the
keys first arrive. Nothing is said yet about tables or windows: the file
describes what one more arrival does to the groups. Under a known key it is
merged into the call at the place of the key, under a new key it becomes the
last call.
-/

namespace ChatClient

namespace ToolCall

/-- The keys of arrivals, in the order in which they first arrive. -/
def callKeys (arrivals : List (Int × ToolCall)) : List Int := (arrivals.map Prod.fst).eraseDups

/-- The fragments that arrive under one key. -/
def fragmentsOf (key : Int) (arrivals : List (Int × ToolCall)) : List ToolCall :=
  (arrivals.filter (·.1 = key)).map Prod.snd

/-- One call for each key. -/
def grouped (arrivals : List (Int × ToolCall)) : List ToolCall :=
  (callKeys arrivals).map fun key => assemble (fragmentsOf key arrivals)

/-- A key is known as soon as a fragment has arrived under it. -/
theorem mem_callKeys {key : Int} {arrivals : List (Int × ToolCall)} :
    key ∈ callKeys arrivals ↔ ∃ fragment, (key, fragment) ∈ arrivals := by
  simp [callKeys, List.mem_eraseDups]

/-- A key that is known already is not repeated. -/
theorem callKeys_concat_of_mem {key : Int} {arrivals : List (Int × ToolCall)}
    (hkey : key ∈ callKeys arrivals) (fragment : ToolCall) :
    callKeys (arrivals ++ [(key, fragment)]) = callKeys arrivals := by
  have hmem : key ∈ arrivals.map Prod.fst := List.mem_eraseDups.mp hkey
  rw [callKeys, List.map_append, List.eraseDups_append]
  simp [callKeys, List.cons_removeAll, hmem]

/-- A new key comes last. -/
theorem callKeys_concat_of_not_mem {key : Int} {arrivals : List (Int × ToolCall)}
    (hkey : key ∉ callKeys arrivals) (fragment : ToolCall) :
    callKeys (arrivals ++ [(key, fragment)]) = callKeys arrivals ++ [key] := by
  have hmem : key ∉ arrivals.map Prod.fst := fun hmem => hkey (List.mem_eraseDups.mpr hmem)
  rw [callKeys, List.map_append, List.eraseDups_append]
  simp only [List.map_singleton, List.cons_removeAll]
  simp [callKeys, hmem, List.eraseDups_cons]

/-- No key is listed twice. -/
theorem nodup_callKeys (arrivals : List (Int × ToolCall)) : (callKeys arrivals).Nodup := by
  induction arrivals using List.reverseRecOn with
  | nil => exact List.nodup_nil
  | append_singleton arrivals arrival ih =>
    obtain ⟨key, fragment⟩ := arrival
    by_cases hkey : key ∈ callKeys arrivals
    · rwa [callKeys_concat_of_mem hkey]
    · rw [callKeys_concat_of_not_mem hkey, List.nodup_append]
      refine ⟨ih, List.nodup_singleton key, ?_⟩
      intro old hold new hnew heq
      obtain rfl : new = key := by simpa using hnew
      exact hkey (heq ▸ hold)

/-- An arrival adds to the fragments of its own key. -/
theorem fragmentsOf_concat_self (key : Int) (arrivals : List (Int × ToolCall))
    (fragment : ToolCall) :
    fragmentsOf key (arrivals ++ [(key, fragment)]) = fragmentsOf key arrivals ++ [fragment] := by
  simp [fragmentsOf]

/-- An arrival leaves the fragments of other keys as they are. -/
theorem fragmentsOf_concat_of_ne {key other : Int} (hne : key ≠ other)
    (arrivals : List (Int × ToolCall)) (fragment : ToolCall) :
    fragmentsOf other (arrivals ++ [(key, fragment)]) = fragmentsOf other arrivals := by
  simp [fragmentsOf, hne]

/-- The fragments of a key are those that arrive under it. -/
theorem mem_fragmentsOf {key : Int} {arrivals : List (Int × ToolCall)} {fragment : ToolCall} :
    fragment ∈ fragmentsOf key arrivals ↔ (key, fragment) ∈ arrivals := by
  simp [fragmentsOf]

/-- A key is known exactly if it has fragments. -/
theorem fragmentsOf_eq_nil_iff {key : Int} {arrivals : List (Int × ToolCall)} :
    fragmentsOf key arrivals = [] ↔ key ∉ callKeys arrivals := by
  simp [List.eq_nil_iff_forall_not_mem, mem_fragmentsOf, mem_callKeys]

/-- A fragment of a known key is merged into the call at the place of the key. -/
theorem grouped_concat_of_mem {key : Int} {arrivals : List (Int × ToolCall)} {slot : Nat}
    (hslot : (callKeys arrivals)[slot]? = some key) (fragment : ToolCall) :
    grouped (arrivals ++ [(key, fragment)]) =
      (grouped arrivals).modify slot (·.merge fragment) := by
  rw [grouped, callKeys_concat_of_mem (List.mem_of_getElem? hslot)]
  apply List.ext_getElem?
  intro place
  rw [List.getElem?_modify, List.getElem?_map, grouped, List.getElem?_map]
  cases hplace : (callKeys arrivals)[place]? with
  | none => simp
  | some other =>
    by_cases heq : slot = place
    · obtain rfl : key = other := by simpa [heq, hplace] using hslot.symm
      simp [heq, fragmentsOf_concat_self, assemble_concat]
    · -- Keys are not repeated, so another place has another key.
      have hne : key ≠ other := by
        rintro rfl
        obtain ⟨hlt, hget⟩ := List.getElem?_eq_some_iff.mp hslot
        obtain ⟨hlt', hget'⟩ := List.getElem?_eq_some_iff.mp hplace
        exact heq ((nodup_callKeys arrivals).getElem_inj_iff.mp (hget.trans hget'.symm))
      simp [heq, fragmentsOf_concat_of_ne hne]

/-- A fragment of a new key becomes the last call. -/
theorem grouped_concat_of_not_mem {key : Int} {arrivals : List (Int × ToolCall)}
    (hkey : key ∉ callKeys arrivals) (fragment : ToolCall) :
    grouped (arrivals ++ [(key, fragment)]) = grouped arrivals ++ [fragment] := by
  have hothers : ∀ other ∈ callKeys arrivals,
      assemble (fragmentsOf other (arrivals ++ [(key, fragment)])) =
        assemble (fragmentsOf other arrivals) := by
    intro other hother
    have hne : key ≠ other := by
      rintro rfl
      exact hkey hother
    rw [fragmentsOf_concat_of_ne hne]
  rw [grouped, callKeys_concat_of_not_mem hkey, List.map_append, List.map_congr_left hothers,
    List.map_singleton, fragmentsOf_concat_self, fragmentsOf_eq_nil_iff.mpr hkey, List.nil_append,
    assemble_singleton, grouped]

/-- Fragments with different keys are calls of their own. -/
theorem grouped_of_nodup {arrivals : List (Int × ToolCall)}
    (hnodup : (arrivals.map Prod.fst).Nodup) : grouped arrivals = arrivals.map Prod.snd := by
  induction arrivals using List.reverseRecOn with
  | nil => rfl
  | append_singleton arrivals arrival ih =>
    obtain ⟨key, fragment⟩ := arrival
    rw [List.map_append, List.nodup_append] at hnodup
    obtain ⟨hbefore, _, hnew⟩ := hnodup
    have hkey : key ∉ callKeys arrivals := by
      intro hkey
      exact hnew key (List.mem_eraseDups.mp hkey) key (by simp) rfl
    rw [grouped_concat_of_not_mem hkey, ih hbefore, List.map_append, List.map_singleton]

/-- There are no calls only where nothing has arrived. -/
theorem grouped_eq_nil_iff {arrivals : List (Int × ToolCall)} :
    grouped arrivals = [] ↔ arrivals = [] := by
  constructor
  · intro hnil
    rw [grouped, List.map_eq_nil_iff] at hnil
    rw [List.eq_nil_iff_forall_not_mem]
    rintro ⟨key, fragment⟩ harrival
    have hkey : key ∈ callKeys arrivals := mem_callKeys.mpr ⟨fragment, harrival⟩
    simp [hnil] at hkey
  · rintro rfl
    rfl

end ToolCall

end ChatClient
