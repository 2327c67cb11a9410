import ChatClient.Notice
import ChatClient.Number.Numeral

/-!
# Decoding records

A decoder turns a JSON value into a value of a record type. It does not stop at
the first problem: every field and every item is visited, and all problems are
listed in the order of the fields, each with the path that leads to it. Notices
are given in the same order, also where the decoding as a whole fails.

Scalars are decoded leniently: a number may come as text, a flag as a number or
a word, an integer as a float without a fraction.
-/

namespace ChatClient

/-- The kinds of value that a field of mixed kind can take. -/
inductive Alternative where
  | text
  | integer
  | list
  deriving DecidableEq, Repr

/-- One step of a path into a value: a field, an item, or one of the kinds that
a field of mixed kind was tried as. -/
inductive Step where
  | name (name : String)
  | index (index : Nat)
  | alternative (kind : Alternative)
  deriving DecidableEq, Repr

/-- What is wrong with a value. -/
inductive Defect where
  | missing
  | notRecord
  | notList
  | notObject
  | notText
  | notInteger
  | unreadableInteger
  | overlongInteger
  | fractionalInteger
  | infiniteInteger
  | notNumber
  | unreadableNumber
  | notFlag
  | unreadableFlag
  | unknownName
  | belowMinimum
  | unshowable
  deriving DecidableEq, Repr

/-- A defect, and the path to it. -/
structure Problem where
  path : List Step
  defect : Defect
  deriving DecidableEq, Repr

/-- The result of decoding: the notices given on the way, and the value or all
problems. -/
structure Decoded (α : Type) where
  notices : List Notice
  outcome : Except (List Problem) α

namespace Decoded

/-- A value that needs no decoding. -/
def value {α : Type} (a : α) : Decoded α := ⟨[], .ok a⟩

/-- A problem at the place itself. -/
def defect {α : Type} (d : Defect) : Decoded α := ⟨[], .error [⟨[], d⟩]⟩

/-- A function applied to the decoded value. -/
def map {α β : Type} (f : α → β) (x : Decoded α) : Decoded β :=
  ⟨x.notices, x.outcome.map f⟩

/-- A decoded function applied to a decoded value. The problems of both are kept. -/
def seq {α β : Type} (f : Decoded (α → β)) (x : Decoded α) : Decoded β where
  notices := f.notices ++ x.notices
  outcome := match f.outcome, x.outcome with
    | .ok f, .ok a => .ok (f a)
    | .ok _, .error problems => .error problems
    | .error problems, .ok _ => .error problems
    | .error first, .error second => .error (first ++ second)

instance : Applicative Decoded where
  pure := value
  map := map
  seq f x := seq f (x ())

/-- The same result, found one step further inside. -/
def under {α : Type} (step : Step) (x : Decoded α) : Decoded α :=
  ⟨x.notices, x.outcome.mapError (·.map fun p => { p with path := step :: p.path })⟩

/-- The same result with a notice before it. -/
def noting {α : Type} (notice : Notice) (x : Decoded α) : Decoded α :=
  ⟨notice :: x.notices, x.outcome⟩

/-- The first result if it is a value, the second result if that is one, and
otherwise the problems of both, each under its kind. -/
def orElse {α : Type} (first second : Alternative × Decoded α) : Decoded α :=
  match first.2.outcome, second.2.outcome with
  | .ok a, _ | .error _, .ok a => .value a
  | .error _, .error _ =>
    (fun (_ b : α) => b) <$> first.2.under (.alternative first.1) <*>
      second.2.under (.alternative second.1)

end Decoded

/-- A decoder. -/
abbrev Decoder (α : Type) := Json → Decoded α

namespace Decoder

/-- Any value, as it is. -/
def any : Decoder Json := .value

/-- A text. -/
def text : Decoder String
  | .str s => .value s
  | _ => .defect .notText

/-- The magnitude from which on an integer is too great for a word of 64 bits. -/
def wordBound : Nat := Binary64.powerOfTwo 63

/-- The integer is one of 64 bits. -/
def fitsWord (n : Int) : Bool := -(wordBound : Int) ≤ n && n < wordBound

/-- The integer that a float equals, if its magnitude is below the bound. -/
def wordOfFloat? (x : Binary64) : Option Int :=
  x.toInt?.filter fun n => n.natAbs < wordBound

/-- An integer: also a flag, a float of a magnitude below 2 ^ 63 without a
fraction, or a text. -/
def int : Decoder Int
  | .int n => .value n
  | .bool b => .value (if b then 1 else 0)
  | .float x =>
    if !x.isFinite then .defect .infiniteInteger
    else if x.toInt?.isNone then .defect .fractionalInteger
    else
      match wordOfFloat? x with
      | some n => .value n
      | none => .defect .overlongInteger
  | .str s =>
    match Numeral.int s with
    | .ok n => .value n
    | .error .notNumeral => .defect .unreadableInteger
    | .error .tooLong => .defect .overlongInteger
  | _ => .defect .notInteger

/-- An integer of at least `low`. -/
def intFrom (low : Int) : Decoder Int := fun value =>
  match int value with
  | ⟨notices, .ok n⟩ => if n < low then .defect .belowMinimum else ⟨notices, .ok n⟩
  | other => other

/-- A float: also an integer within range, a flag, or a text. -/
def number : Decoder Binary64
  | .float x => .value x
  | .int n =>
    let x := Binary64.ofInt n
    if x.isFinite then .value x else .defect .notNumber
  | .bool b => .value (.ofInt (if b then 1 else 0))
  | .str s =>
    match Numeral.float? s with
    | some x => .value x
    | none => .defect .unreadableNumber
  | _ => .defect .notNumber

/-- The flag of a number. -/
def flagOfInt (n : Int) : Decoded Bool :=
  if n = 0 then .value false else if n = 1 then .value true else .defect .unreadableFlag

/-- The words for a flag that is off. -/
def offWords : List String := ["0", "off", "f", "false", "n", "no"]

/-- The words for a flag that is on. -/
def onWords : List String := ["1", "on", "t", "true", "y", "yes"]

/-- The flag of a word, in any case of its letters. -/
def flagOfWord (word : String) : Decoded Bool :=
  let word := String.ofList (word.toList.map Char.toLower)
  if offWords.contains word then .value false
  else if onWords.contains word then .value true
  else .defect .unreadableFlag

/-- A flag: also a zero or a one, or a word. Other numbers cannot be read if they
are integers of 64 bits, and are no flags at all if they are not. -/
def flag : Decoder Bool
  | .bool b => .value b
  | .int n => if fitsWord n then flagOfInt n else .defect .notFlag
  | .float x =>
    match wordOfFloat? x with
    | some n => flagOfInt n
    | none => .defect .notFlag
  | .str s => flagOfWord s
  | _ => .defect .notFlag

/-- A value that may be `null`. -/
def nullable {α : Type} (decode : Decoder α) : Decoder (Option α)
  | .null => .value none
  | value => some <$> decode value

/-- The items of a list, counted from `start`. -/
def itemsFrom {α : Type} (decode : Decoder α) : Nat → List Json → Decoded (List α)
  | _, [] => .value []
  | start, x :: xs =>
    List.cons <$> (decode x).under (.index start) <*> itemsFrom decode (start + 1) xs

/-- A list. -/
def list {α : Type} (decode : Decoder α) : Decoder (List α)
  | .arr items => itemsFrom decode 0 items
  | _ => .defect .notList

/-- An object with members of any kind. -/
def object : Decoder Members
  | .obj members => .value members
  | _ => .defect .notObject

/-- A field that takes a default when it is not given. -/
def given {α : Type} (name : String) (default : α) (decode : Decoder α) :
    Option Json → Decoded α
  | some value => (decode value).under (.name name)
  | none => .value default

/-- A record, decoded from its members. Members without a field are ignored. -/
def record {α : Type} (decode : Members → Decoded α) : Decoder α
  | .obj members => decode members
  | _ => .defect .notRecord

end Decoder

namespace Members

/-- A field that must be given. -/
def required {α : Type} (members : Members) (name : String) (decode : Decoder α) : Decoded α :=
  match members.get? name with
  | some value => (decode value).under (.name name)
  | none => (Decoded.defect .missing).under (.name name)

/-- A field that takes a default when it is not given. -/
def withDefault {α : Type} (members : Members) (name : String) (default : α)
    (decode : Decoder α) : Decoded α :=
  Decoder.given name default decode (members.get? name)

/-- A field that may be absent or `null`. -/
def optional {α : Type} (members : Members) (name : String) (decode : Decoder α) :
    Decoded (Option α) :=
  members.withDefault name none (Decoder.nullable decode)

end Members

/-! ## Dumping records -/

/-- What a dump does with the fields of a record that have no value. -/
inductive NullFields where
  | shown
  | omitted
  deriving DecidableEq, Repr

namespace NullFields

/-- The member of one field, if it is written. -/
def member? (nulls : NullFields) : String × Option Json → Option (String × Json)
  | (name, some value) => some (name, value)
  | (name, none) =>
    match nulls with
    | .shown => some (name, .null)
    | .omitted => none

/-- The members of a record with the given fields, in their order. -/
def members (nulls : NullFields) (fields : List (String × Option Json)) : Members :=
  fields.filterMap nulls.member?

/-- The object of a record with the given fields. -/
def record (nulls : NullFields) (fields : List (String × Option Json)) : Json :=
  .obj (nulls.members fields)

end NullFields

end ChatClient
