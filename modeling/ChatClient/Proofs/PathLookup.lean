import ChatClient.Json.Overlay
import Mathlib.Data.List.Nodup

/-!
# Values at paths

A path of names leads from an object to a value inside of it. Laying objects
over one another and grafting a value at a path are described by what is found
at paths then: the value of the upper object counts where it has one, and a
graft changes what is found at its own path only. Both ask that a path can be
followed: whatever lies on the way is an object that has every name once.
-/

namespace ChatClient

namespace Entries

variable {α : Type}

/-- A name is listed where it has a value, and nowhere else. -/
theorem get?_eq_none_iff {entries : Entries α} {name : String} :
    entries.get? name = none ↔ name ∉ entries.map Prod.fst := by
  induction entries with
  | nil => simp
  | cons entry entries ih =>
    obtain ⟨key, value⟩ := entry
    rw [get?_cons]
    by_cases hname : name = key
    · simp [hname]
    · simp [hname, ih]

/-- An entry is found where every name has one. -/
theorem get?_of_mem {entries : Entries α} (hnodup : (entries.map Prod.fst).Nodup) {name : String}
    {value : α} (hmem : (name, value) ∈ entries) : entries.get? name = some value := by
  induction entries with
  | nil => contradiction
  | cons entry entries ih =>
    obtain ⟨key, old⟩ := entry
    rw [List.map_cons, List.nodup_cons] at hnodup
    rw [get?_cons]
    rcases List.mem_cons.mp hmem with hfirst | hrest
    · obtain ⟨rfl, rfl⟩ := Prod.mk.inj hfirst
      rw [if_pos rfl]
    · have hne : name ≠ key := by
        rintro rfl
        exact hnodup.1 (List.mem_map.mpr ⟨_, hrest, rfl⟩)
      rw [if_neg hne, ih hnodup.2 hrest]

/-- A new value keeps the names, and a new name comes last. -/
theorem map_fst_set (entries : Entries α) (name : String) (value : α) :
    (entries.set name value).map Prod.fst =
      if name ∈ entries.map Prod.fst then entries.map Prod.fst
      else entries.map Prod.fst ++ [name] := by
  induction entries with
  | nil => simp [set]
  | cons entry entries ih =>
    obtain ⟨key, old⟩ := entry
    by_cases hname : key = name
    · simp [set, hname]
    · rw [set, if_neg hname, List.map_cons, ih]
      split
      · next hmem => simp [hmem]
      · next hmem => simp [hmem, Ne.symm hname]

/-- Names that are listed once stay so. -/
theorem nodup_set {entries : Entries α} (hnodup : (entries.map Prod.fst).Nodup) (name : String)
    (value : α) : ((entries.set name value).map Prod.fst).Nodup := by
  rw [map_fst_set]
  split
  · exact hnodup
  · next hname =>
    rw [List.nodup_append_comm]
    exact List.nodup_cons.mpr ⟨hname, hnodup⟩

/-- Entries that are made for names hold what was made for their own one. -/
theorem get?_filterMap {make : String → Option (String × α)}
    (hmake : ∀ name, ∀ entry ∈ make name, entry.1 = name) (names : List String) (name : String) :
    get? (names.filterMap make) name =
      if name ∈ names then (make name).map Prod.snd else none := by
  induction names with
  | nil => rfl
  | cons first names ih =>
    rw [List.filterMap_cons]
    cases hfirst : make first with
    | none =>
      simp only [ih, List.mem_cons]
      by_cases hname : name = first
      · simp [hname, hfirst]
      · simp [hname]
    | some entry =>
      obtain ⟨key, value⟩ := entry
      obtain rfl : key = first := hmake first _ hfirst
      simp only [get?_cons, ih, List.mem_cons]
      by_cases hname : name = key
      · simp [hname, hfirst]
      · simp [hname]

/-- Entries that are made for names keep the order of the names. -/
theorem map_fst_filterMap_sublist {make : String → Option (String × α)}
    (hmake : ∀ name, ∀ entry ∈ make name, entry.1 = name) (names : List String) :
    ((names.filterMap make).map Prod.fst).Sublist names := by
  induction names with
  | nil => exact List.Sublist.slnil
  | cons first names ih =>
    rw [List.filterMap_cons]
    cases hfirst : make first with
    | none => exact ih.cons first
    | some entry =>
      obtain rfl : entry.1 = first := hmake first entry hfirst
      exact ih.cons_cons entry.1

end Entries

namespace Json

/-- The value at the end of a path of names. -/
def at? : Json → List String → Option Json
  | value, [] => some value
  | .obj members, name :: path => (Entries.get? members name).bind (at? · path)
  | _, _ :: _ => none

/-- A path can be followed as far as it leads: what lies on the way is an object that has
every name once. -/
def IsOpenAlong : Json → List String → Prop
  | _, [] => True
  | .obj members, name :: path =>
    (members.map Prod.fst).Nodup ∧
      ∀ value, Entries.get? members name = some value → value.IsOpenAlong path
  | _, _ :: _ => False

instance IsOpenAlong.decidable : (value : Json) → (path : List String) →
    Decidable (value.IsOpenAlong path)
  | _, [] => isTrue (by simp only [IsOpenAlong])
  | .obj members, name :: path =>
    have _ := fun value => decidable value path
    inferInstanceAs (Decidable ((members.map Prod.fst).Nodup ∧
      ∀ value ∈ Entries.get? members name, value.IsOpenAlong path))
  | .null, _ :: _ | .bool _, _ :: _ | .int _, _ :: _ | .float _, _ :: _ | .str _, _ :: _
  | .arr _, _ :: _ => isFalse id

/-- Every path can be followed in the empty object. -/
theorem isOpenAlong_empty (path : List String) : (Json.obj []).IsOpenAlong path := by
  cases path with
  | nil => exact trivial
  | cons name path => exact ⟨List.nodup_nil, by simp⟩

/-- Where a path can be followed that does not end at once, there is an object. -/
theorem IsOpenAlong.exists_members {value : Json} {name : String} {path : List String}
    (hopen : value.IsOpenAlong (name :: path)) :
    ∃ members, value = .obj members ∧ (members.map Prod.fst).Nodup ∧
      ∀ found, Entries.get? members name = some found → found.IsOpenAlong path := by
  cases value with
  | obj members => exact ⟨members, rfl, hopen⟩
  | _ => exact hopen.elim

/-! ## Laying over -/

/-- What lies over members is laid over the values of its names, and the others stay. -/
theorem get?_overlayMembers {below above : Members} (hnodup : (above.map Prod.fst).Nodup)
    (name : String) :
    Entries.get? (overlayMembers below above) name =
      match Entries.get? above name, Entries.get? below name with
      | some value, some old => some (old.overlay value)
      | some value, none => some value
      | none, found => found := by
  induction above generalizing below with
  | nil => rfl
  | cons member above ih =>
    obtain ⟨key, value⟩ := member
    rw [List.map_cons, List.nodup_cons] at hnodup
    rw [overlayMembers, ih hnodup.2, Entries.get?_set, Entries.get?_cons]
    by_cases hname : name = key
    · rw [if_pos hname, if_pos hname, hname, Entries.get?_eq_none_iff.mpr hnodup.1]
      cases Entries.get? below key <;> rfl
    · rw [if_neg hname, if_neg hname]

/-- Members that have every name once have so after others are laid over them. -/
theorem nodup_overlayMembers {below : Members} (hnodup : (below.map Prod.fst).Nodup)
    (above : Members) : ((overlayMembers below above).map Prod.fst).Nodup := by
  induction above generalizing below with
  | nil => exact hnodup
  | cons member above ih =>
    obtain ⟨key, value⟩ := member
    exact ih (Entries.nodup_set hnodup key _)

/-- What is no object is replaced. -/
theorem overlay_of_ne_obj {below : Json} (hbelow : ∀ members, below ≠ .obj members)
    (above : Json) : below.overlay above = above := by
  cases above with
  | obj members =>
    cases below with
    | obj base => exact absurd rfl (hbelow base)
    | _ => rfl
  | _ => rfl

/-- At a path that can be followed in both, the upper value counts where there is one, unless
objects meet there. -/
theorem at?_overlay {below above : Json} {path : List String} (hbelow : below.IsOpenAlong path)
    (habove : above.IsOpenAlong path) (hleaf : ∀ members, below.at? path ≠ some (.obj members)) :
    (below.overlay above).at? path = (above.at? path).or (below.at? path) ∧
      (below.overlay above).IsOpenAlong path := by
  induction path generalizing below above with
  | nil =>
    have hreplaced : below.overlay above = above :=
      overlay_of_ne_obj (fun members heq => hleaf members (congrArg some heq)) above
    rw [hreplaced]
    exact ⟨rfl, trivial⟩
  | cons name path ih =>
    obtain ⟨base, rfl, hbase, hbelow⟩ := hbelow.exists_members
    obtain ⟨members, rfl, hmembers, habove⟩ := habove.exists_members
    have hfound : Entries.get? (overlayMembers base members) name = _ :=
      get?_overlayMembers hmembers name
    have hnodup := nodup_overlayMembers hbase members
    rw [at?] at hleaf
    simp only [overlay, at?, IsOpenAlong, hfound]
    cases hupper : Entries.get? members name with
    | none => exact ⟨by simp, hnodup, hbelow⟩
    | some value =>
      cases hlower : Entries.get? base name with
      | none =>
        refine ⟨by simp, hnodup, ?_⟩
        rintro found ⟨⟩
        exact habove value hupper
      | some old =>
        rw [hlower, Option.bind_some] at hleaf
        obtain ⟨hat, hopen⟩ := ih (hbelow old hlower) (habove value hupper) hleaf
        refine ⟨by simpa using hat, hnodup, ?_⟩
        rintro found ⟨⟩
        exact hopen

/-! ## Grafting -/

/-- A graft is found at its own path. -/
theorem at?_graft_self {tree : Json} {path : List String} (hopen : tree.IsOpenAlong path)
    (value : Json) : (tree.graft path value).at? path = some value := by
  induction path generalizing tree with
  | nil => cases tree <;> rfl
  | cons name path ih =>
    obtain ⟨members, rfl, _, hinside⟩ := hopen.exists_members
    rw [graft, at?, Entries.get?_set, if_pos rfl, Option.bind_some]
    cases hfound : Entries.get? members name with
    | none => exact ih (isOpenAlong_empty path)
    | some found => exact ih (hinside found hfound)

/-- A graft changes nothing at a path that goes another way. -/
theorem at?_graft_of_apart (tree : Json) {path other : List String} (hpath : ¬path <+: other)
    (hother : ¬other <+: path) (value : Json) :
    (tree.graft path value).at? other = tree.at? other := by
  induction path generalizing tree other with
  | nil => exact absurd List.nil_prefix hpath
  | cons name path ih =>
    cases other with
    | nil => exact absurd List.nil_prefix hother
    | cons first other =>
      cases tree with
      | obj members =>
        rw [graft, at?, at?, Entries.get?_set]
        by_cases hname : first = name
        · subst hname
          rw [List.cons_prefix_cons, not_and] at hpath hother
          have hbelow := fun tree => ih tree (hpath rfl) (hother rfl)
          rw [if_pos rfl, Option.bind_some, hbelow]
          cases Entries.get? members first with
          | none =>
            cases other with
            | nil => exact absurd List.nil_prefix (hother rfl)
            | cons second other => rfl
          | some found => rfl
        · rw [if_neg hname]
      | _ => rfl

end Json

end ChatClient
