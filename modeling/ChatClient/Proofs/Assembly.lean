import ChatClient.Proofs.FirstChoice

/-!
# A call put together from its fragments

A tool call is described here by the fragments that belong to it, without the
order of merges that puts it together: identity fields are the first that
arrive, the arguments are all that arrive, one after the other. Merging one
more fragment into an assembled call is assembling one more fragment.
-/

namespace ChatClient

/-- Texts as one text, in their order; there is none if all are missing. -/
def joinTexts? (texts : List (Option String)) : Option String :=
  if texts.all Option.isNone then none else some (String.join (texts.filterMap id))

/-- One more text is put at the end. -/
theorem joinTexts?_concat (texts : List (Option String)) (text : Option String) :
    joinTexts? (texts ++ [text]) = concat? (joinTexts? texts) text := by
  cases text with
  | none =>
    have hsame : joinTexts? (texts ++ [none]) = joinTexts? texts := by simp [joinTexts?]
    rw [hsame]
    cases joinTexts? texts <;> simp [concat?]
  | some text =>
    have hsome : ¬(texts ++ [some text]).all Option.isNone = true := by simp
    have hlast : [some text].filterMap id = [text] := rfl
    rw [joinTexts?, if_neg hsome, List.filterMap_append, hlast, String.join_append]
    by_cases hnone : texts.all Option.isNone = true
    · have hempty : texts.filterMap id = [] := by
        rw [List.filterMap_eq_nil_iff]
        intro missing hmissing
        exact Option.isNone_iff_eq_none.mp (List.all_eq_true.mp hnone missing hmissing)
      rw [hempty, joinTexts?, if_pos hnone]
      simp [concat?, String.join_cons]
    · rw [joinTexts?, if_neg hnone]
      simp [concat?, String.join_cons]

namespace FunctionCall

/-- What is called, from the fragments of one call. -/
def assemble (fragments : List (Option FunctionCall)) : Option FunctionCall :=
  if fragments.all Option.isNone then none
  else
    some
      { name := fragments.findSome? (·.bind name)
        arguments := joinTexts? (fragments.map (·.bind arguments)) }

/-- The name is the first that arrives. -/
theorem assemble_bind_name (fragments : List (Option FunctionCall)) :
    (assemble fragments).bind name = fragments.findSome? (·.bind name) := by
  by_cases hnone : fragments.all Option.isNone = true
  · rw [assemble, if_pos hnone, Option.bind_none, eq_comm, List.findSome?_eq_none_iff]
    intro fragment hfragment
    have hmissing := List.all_eq_true.mp hnone fragment hfragment
    rw [Option.isNone_iff_eq_none.mp hmissing, Option.bind_none]
  · rw [assemble, if_neg hnone, Option.bind_some]

/-- The arguments are all that arrive. -/
theorem assemble_bind_arguments (fragments : List (Option FunctionCall)) :
    (assemble fragments).bind arguments = joinTexts? (fragments.map (·.bind arguments)) := by
  by_cases hnone : fragments.all Option.isNone = true
  · have hmissing : (fragments.map (·.bind arguments)).all Option.isNone = true := by
      rw [List.all_map, List.all_eq_true]
      intro fragment hfragment
      have hfragment' := List.all_eq_true.mp hnone fragment hfragment
      simp [Option.isNone_iff_eq_none.mp hfragment']
    rw [assemble, if_pos hnone, Option.bind_none, joinTexts?, if_pos hmissing]
  · rw [assemble, if_neg hnone, Option.bind_some]

/-- Nothing is called if no fragment says what. -/
theorem assemble_eq_none_iff (fragments : List (Option FunctionCall)) :
    assemble fragments = none ↔ ∀ fragment ∈ fragments, fragment = none := by
  rw [assemble]
  split
  · next hnone => simpa using hnone
  · next hsome => simpa using hsome

/-- Two fragments of which one says something are merged field by field. -/
theorem merge_of_ne_none {previous current : Option FunctionCall}
    (hne : previous ≠ none ∨ current ≠ none) :
    merge previous current =
      some
        { name := (previous.bind name).or (current.bind name)
          arguments := concat? (previous.bind arguments) (current.bind arguments) } := by
  cases previous <;> cases current
  · simp at hne
  · rfl
  · rfl
  · rfl

/-- One more fragment is merged into what is there. -/
theorem assemble_concat (fragments : List (Option FunctionCall)) (fragment : Option FunctionCall) :
    assemble (fragments ++ [fragment]) = merge (assemble fragments) fragment := by
  by_cases hnone : assemble fragments = none ∧ fragment = none
  · obtain ⟨hbefore, rfl⟩ := hnone
    have hall : assemble (fragments ++ [none]) = none := by
      rw [assemble_eq_none_iff] at hbefore ⊢
      simpa [or_imp, forall_and] using hbefore
    rw [hall, hbefore]
    rfl
  · have hafter : ¬(fragments ++ [fragment]).all Option.isNone = true := by
      intro hall
      apply hnone
      rw [assemble_eq_none_iff]
      simpa [or_imp, forall_and] using hall
    rw [merge_of_ne_none (by rwa [not_and_or] at hnone), assemble_bind_name,
      assemble_bind_arguments, assemble, if_neg hafter, List.findSome?_append, List.map_append,
      List.map_singleton, joinTexts?_concat]
    simp

end FunctionCall

namespace ToolCall

/-- A call from its fragments, in the order of their arrival. -/
def assemble (fragments : List ToolCall) : ToolCall where
  index := fragments.findSome? index
  id := fragments.findSome? id
  type := fragments.findSome? type
  function := FunctionCall.assemble (fragments.map function)

/-- One more fragment is merged into what is there. -/
theorem assemble_concat (fragments : List ToolCall) (fragment : ToolCall) :
    assemble (fragments ++ [fragment]) = (assemble fragments).merge fragment := by
  simp [assemble, merge, List.findSome?_append, FunctionCall.assemble_concat]

/-- Fragments that agree on their index make a call of this index. -/
theorem index_assemble {fragments : List ToolCall} (hne : fragments ≠ []) {index : Option Int}
    (hindex : ∀ fragment ∈ fragments, fragment.index = index) :
    (assemble fragments).index = index := by
  obtain ⟨first, later, rfl⟩ := List.exists_cons_of_ne_nil hne
  cases index with
  | none => exact List.findSome?_eq_none_iff.mpr hindex
  | some index =>
    have hfirst := hindex first (by simp)
    simp [assemble, hfirst]

/-- A fragment that is alone is the whole call. -/
theorem assemble_singleton (fragment : ToolCall) : assemble [fragment] = fragment := by
  obtain ⟨_, _, _, function⟩ := fragment
  rcases function with _ | ⟨_, _ | arguments⟩ <;>
    simp [assemble, FunctionCall.assemble, joinTexts?, String.join_cons]

end ToolCall

end ChatClient
