import ChatClient.Entries
import ChatClient.Number.Binary64

/-!
# JSON values

Integers and floats are different values, as `1` and `1.0` are different texts.
The members of an object keep the order in which their names first occurred,
and `Entries.set` is the one operation that adds to them, so names stay distinct.
-/

namespace ChatClient

/-- A JSON value. -/
inductive Json where
  | null
  | bool (value : Bool)
  | int (value : Int)
  | float (value : Binary64)
  | str (value : String)
  | arr (items : List Json)
  | obj (members : List (String × Json))
  deriving Repr, Inhabited

/-- The members of an object. -/
abbrev Members := Entries Json

namespace Json

mutual

/-- Equality of values, decided from the outside in. -/
def decideEq : (a b : Json) → Decidable (a = b)
  | .null, .null => isTrue rfl
  | .bool a, .bool b => decidable_of_iff (a = b) (by simp)
  | .int a, .int b => decidable_of_iff (a = b) (by simp)
  | .float a, .float b => decidable_of_iff (a = b) (by simp)
  | .str a, .str b => decidable_of_iff (a = b) (by simp)
  | .arr a, .arr b =>
    have := decideEqItems a b
    decidable_of_iff (a = b) (by simp)
  | .obj a, .obj b =>
    have := decideEqMembers a b
    decidable_of_iff (a = b) (by simp)
  | .null, .bool _ | .null, .int _ | .null, .float _ | .null, .str _ | .null, .arr _
  | .null, .obj _ | .bool _, .null | .bool _, .int _ | .bool _, .float _ | .bool _, .str _
  | .bool _, .arr _ | .bool _, .obj _ | .int _, .null | .int _, .bool _ | .int _, .float _
  | .int _, .str _ | .int _, .arr _ | .int _, .obj _ | .float _, .null | .float _, .bool _
  | .float _, .int _ | .float _, .str _ | .float _, .arr _ | .float _, .obj _ | .str _, .null
  | .str _, .bool _ | .str _, .int _ | .str _, .float _ | .str _, .arr _ | .str _, .obj _
  | .arr _, .null | .arr _, .bool _ | .arr _, .int _ | .arr _, .float _ | .arr _, .str _
  | .arr _, .obj _ | .obj _, .null | .obj _, .bool _ | .obj _, .int _ | .obj _, .float _
  | .obj _, .str _ | .obj _, .arr _ => isFalse (by simp)

/-- Equality of lists of items. -/
def decideEqItems : (a b : List Json) → Decidable (a = b)
  | [], [] => isTrue rfl
  | [], _ :: _ => isFalse (by simp)
  | _ :: _, [] => isFalse (by simp)
  | x :: xs, y :: ys =>
    have := decideEq x y
    have := decideEqItems xs ys
    decidable_of_iff (x = y ∧ xs = ys) (by simp)

/-- Equality of lists of members. -/
def decideEqMembers : (a b : List (String × Json)) → Decidable (a = b)
  | [], [] => isTrue rfl
  | [], _ :: _ => isFalse (by simp)
  | _ :: _, [] => isFalse (by simp)
  | (j, x) :: xs, (k, y) :: ys =>
    have := decideEq x y
    have := decideEqMembers xs ys
    decidable_of_iff ((j = k ∧ x = y) ∧ xs = ys) (by simp)

end

instance : DecidableEq Json := decideEq

/-- The value is `null`. -/
def isNull : Json → Bool
  | .null => true
  | _ => false

/-- The value counts as nothing: `null`, what is false or zero, and what is empty. -/
def isFalsy : Json → Bool
  | .null => true
  | .bool b => !b
  | .int n => n = 0
  | .float (.finite _ m _) => m = 0
  | .float _ => false
  | .str s => s.isEmpty
  | .arr items => items.isEmpty
  | .obj members => members.isEmpty

/-- `null` is absence. -/
def toOption : Json → Option Json
  | .null => none
  | value => some value

/-- Absence is `null`. -/
def ofOption : Option Json → Json
  | none => .null
  | some value => value

mutual

/-- The value with every infinite or undefined float replaced by `null`, which
is what JSON can say of such a float. -/
def finite : Json → Json
  | .float x => if x.isFinite then .float x else .null
  | .arr items => .arr (finiteItems items)
  | .obj members => .obj (finiteMembers members)
  | value => value

/-- The items of an array, each made finite. -/
def finiteItems : List Json → List Json
  | [] => []
  | x :: xs => x.finite :: finiteItems xs

/-- The members of an object, each made finite. -/
def finiteMembers : List (String × Json) → List (String × Json)
  | [] => []
  | (k, x) :: xs => (k, x.finite) :: finiteMembers xs

end

end Json

end ChatClient
