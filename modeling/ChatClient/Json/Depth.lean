import ChatClient.Json.Basic

/-!
# Depths of values

How deep a value is: one for a value without parts, and one more than its deepest part
for an array or an object. The parts of a value are found by paths.
-/

namespace ChatClient.Json

mutual

/-- The depth of a value. -/
def depth : Json → Nat
  | .arr items => 1 + depthOfItems items
  | .obj members => 1 + depthOfMembers members
  | _ => 1

/-- The depth of the deepest item. -/
def depthOfItems : List Json → Nat
  | [] => 0
  | x :: xs => max (depth x) (depthOfItems xs)

/-- The depth of the deepest member. -/
def depthOfMembers : List (String × Json) → Nat
  | [] => 0
  | (_, x) :: xs => max (depth x) (depthOfMembers xs)

end

/-- An item is not as deep as its array. -/
theorem depth_lt_of_mem {x : Json} {items : List Json} (h : x ∈ items) :
    depth x < depth (.arr items) := by
  induction items with
  | nil => simp at h
  | cons y ys ih =>
    simp only [depth, depthOfItems] at ih ⊢
    rcases List.mem_cons.1 h with rfl | h
    · omega
    · have := ih h
      omega

/-- A member is not as deep as its object. -/
theorem depth_lt_of_mem_members {name : String} {x : Json} {members : Members}
    (h : (name, x) ∈ members) : depth x < depth (.obj members) := by
  induction members with
  | nil => simp at h
  | cons y ys ih =>
    obtain ⟨other, y⟩ := y
    simp only [depth, depthOfMembers] at ih ⊢
    rcases List.mem_cons.1 h with heq | h
    · cases heq
      omega
    · have := ih h
      omega

/-- Every value has a depth. -/
theorem depth_pos (value : Json) : 0 < value.depth := by
  cases value <;> simp only [depth] <;> omega

/-- Items are as deep as the deepest of them. -/
theorem depthOfItems_le {items : List Json} {limit : Nat}
    (hitems : ∀ x ∈ items, x.depth ≤ limit) : depthOfItems items ≤ limit := by
  induction items with
  | nil => exact Nat.zero_le limit
  | cons x items ih =>
    exact Nat.max_le.mpr ⟨hitems x (by simp), ih fun y hy => hitems y (by simp [hy])⟩

/-- Members are as deep as the deepest of them. -/
theorem depthOfMembers_le {members : Members} {limit : Nat}
    (hmembers : ∀ member ∈ members, member.2.depth ≤ limit) : depthOfMembers members ≤ limit := by
  induction members with
  | nil => exact Nat.zero_le limit
  | cons member members ih =>
    obtain ⟨name, x⟩ := member
    exact Nat.max_le.mpr ⟨hmembers (name, x) (by simp),
      ih fun member hmember => hmembers member (by simp [hmember])⟩

/-- Empty arrays in arrays, as deep as wanted. -/
def nested : Nat → Json
  | 0 => .arr []
  | count + 1 => .arr [nested count]

/-- A step of a path: to the member of a name, or to each item or member. -/
inductive PathStep where
  | member (name : String)
  | each
  deriving DecidableEq, Repr

/-- The values that one step leads to. -/
def partsAt : PathStep → Json → List Json
  | .member name, .obj members => (Entries.get? members name).toList
  | .each, .arr items => items
  | .each, .obj members => members.map (·.2)
  | _, _ => []

/-- What one step leads to is a member or an item. -/
theorem exists_of_mem_partsAt {step : PathStep} {value part : Json}
    (hpart : part ∈ partsAt step value) :
    (∃ name members, value = .obj members ∧ (name, part) ∈ members) ∨
      ∃ items, value = .arr items ∧ part ∈ items := by
  match step, value with
  | .member name, .obj members =>
    exact .inl ⟨name, members, rfl, Entries.mem_of_get? (Option.mem_toList.mp hpart)⟩
  | .each, .arr items => exact .inr ⟨items, rfl, hpart⟩
  | .each, .obj members =>
    obtain ⟨⟨name, _⟩, hmember, rfl⟩ := List.mem_map.mp hpart
    exact .inl ⟨name, members, rfl, hmember⟩
  | .member _, .null | .member _, .bool _ | .member _, .int _ | .member _, .float _
  | .member _, .str _ | .member _, .arr _ => cases hpart
  | .each, .null | .each, .bool _ | .each, .int _ | .each, .float _ | .each, .str _ =>
    cases hpart

/-- What one step leads to is not as deep. -/
theorem depth_lt_of_mem_partsAt {step : PathStep} {value part : Json}
    (hpart : part ∈ partsAt step value) : part.depth < value.depth := by
  obtain ⟨_, _, rfl, hmember⟩ | ⟨_, rfl, hitem⟩ := exists_of_mem_partsAt hpart
  · exact depth_lt_of_mem_members hmember
  · exact depth_lt_of_mem hitem

/-- The values that a path leads to. -/
def partsAlong (path : List PathStep) (value : Json) : List Json :=
  path.foldl (fun values step => values.flatMap (partsAt step)) [value]

end ChatClient.Json
