/-!
# Named entries

A list of entries in which a name has one entry. A name keeps the place where it
first occurred, whatever value it takes later, so the order of the entries is the
order in which their names appeared.
-/

namespace ChatClient

/-- Entries by name, in the order of their names. -/
abbrev Entries (α : Type) := List (String × α)

namespace Entries

variable {α : Type}

/-- The value of an entry. -/
def get? (entries : Entries α) (name : String) : Option α := entries.lookup name

/-- An entry with a new value: in its old place, or at the end if it is new. -/
def set : Entries α → String → α → Entries α
  | [], name, value => [(name, value)]
  | (key, old) :: rest, name, value =>
    if key = name then (key, value) :: rest else (key, old) :: set rest name value

/-- The entries without one name. -/
def erase (entries : Entries α) (name : String) : Entries α :=
  entries.filter fun entry => entry.1 ≠ name

@[simp] theorem get?_nil (name : String) : get? ([] : Entries α) name = none := rfl

/-- The first entry answers for its own name only. -/
theorem get?_cons (key name : String) (value : α) (rest : Entries α) :
    get? ((key, value) :: rest) name = if name = key then some value else rest.get? name := by
  simp only [get?, List.lookup_cons]
  split <;> split <;> simp_all

/-- A value that is found is an entry. -/
theorem mem_of_get? {entries : Entries α} {name : String} {value : α}
    (hvalue : entries.get? name = some value) : (name, value) ∈ entries := by
  induction entries with
  | nil => cases hvalue
  | cons entry rest ih =>
    obtain ⟨key, first⟩ := entry
    rw [get?_cons] at hvalue
    split at hvalue
    · rename_i hname
      cases hname
      cases hvalue
      exact List.mem_cons_self
    · exact List.mem_cons_of_mem _ (ih hvalue)

/-- A new value changes the look-up of its own name only. -/
theorem get?_set (entries : Entries α) (name other : String) (value : α) :
    (entries.set name value).get? other =
      if other = name then some value else entries.get? other := by
  induction entries with
  | nil => simp [set, get?_cons]
  | cons entry rest ih =>
    obtain ⟨key, old⟩ := entry
    by_cases h : key = name
    · subst h
      by_cases ho : other = key <;> simp [set, get?_cons, ho]
    · by_cases ho : other = key
      · subst ho
        simp [set, h, get?_cons]
      · simp [set, h, get?_cons, ho, ih]

/-- Erasing a name changes the look-up of that name only. -/
theorem get?_erase (entries : Entries α) (name other : String) :
    (entries.erase name).get? other = if other = name then none else entries.get? other := by
  induction entries with
  | nil => simp [erase]
  | cons entry rest ih =>
    obtain ⟨key, old⟩ := entry
    have ih : get? (List.filter (fun entry => entry.1 ≠ name) rest) other =
      if other = name then none else get? rest other := ih
    by_cases h : key = name
    · subst h
      by_cases ho : other = key <;> simp_all [erase, get?_cons]
    · by_cases ho : other = key
      · subst ho
        simp [erase, h, get?_cons]
      · by_cases hn : other = name <;> simp_all [erase, get?_cons]

end Entries

end ChatClient
