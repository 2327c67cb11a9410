import ChatClient.Json.Token

/-!
# Reading JSON

A reader takes one token after the other. Between two tokens it holds the
containers that are still open, innermost first, and what may come next. Reading
a text is a left fold of `step` over its tokens, so what a prefix of the text
leaves behind is a value that can be reasoned about.

A name that occurs twice in an object keeps its first place and takes its last
value.
-/

namespace ChatClient

/-- Where two steps one after the other give a value, the first one gives one to the second. -/
theorem exists_of_bind_eq_ok {ε α β : Type} {first : Except ε α} {second : α → Except ε β} {b : β}
    (hbind : first >>= second = .ok b) : ∃ a, first = .ok a ∧ second a = .ok b := by
  cases first with
  | error failure => cases hbind
  | ok a => exact ⟨a, rfl, hbind⟩

namespace Json

/-- A container around the value that is read next. -/
inductive Container where
  | array (items : List Json)
  | object (members : Members) (name : String)
  deriving DecidableEq, Repr

/-- What may come next. Items are held last first. -/
inductive Expectation where
  | value
  | firstItem
  | firstName
  | name (members : Members)
  | colon (members : Members) (name : String)
  | afterItem (items : List Json)
  | afterMember (members : Members)
  | nothing (value : Json)
  deriving DecidableEq, Repr

/-- The state between two tokens. -/
structure Reader where
  around : List Container
  expected : Expectation
  deriving DecidableEq, Repr

namespace Reader

/-- Before the first token. -/
def start : Reader := ⟨[], .value⟩

/-- A value is complete: it goes into the innermost container, if there is one. -/
def complete (value : Json) : List Container → Reader
  | [] => ⟨[], .nothing value⟩
  | .array items :: around => ⟨around, .afterItem (value :: items)⟩
  | .object members name :: around => ⟨around, .afterMember (members.set name value)⟩

/-- The first token of a value. -/
def beginValue (around : List Container) (placed : Placed) : Except Misreading Reader :=
  match placed.token with
  | .null => .ok (complete .null around)
  | .bool b => .ok (complete (.bool b) around)
  | .int n => .ok (complete (.int n) around)
  | .float x => .ok (complete (.float x) around)
  | .str s => .ok (complete (.str s) around)
  | .openArray => .ok ⟨around, .firstItem⟩
  | .openObject => .ok ⟨around, .firstName⟩
  | .brokenString misreading | .brokenInteger misreading => .error misreading
  | _ => .error ⟨.valueExpected, placed.place⟩

/-- The name of a member. -/
def beginMember (around : List Container) (members : Members) (placed : Placed) :
    Except Misreading Reader :=
  match placed.token with
  | .str name => .ok ⟨around, .colon members name⟩
  | .brokenString misreading => .error misreading
  | _ => .error ⟨.nameExpected, placed.place⟩

/-- One token. -/
def step (reader : Reader) (placed : Placed) : Except Misreading Reader :=
  let around := reader.around
  match reader.expected, placed.token with
  | .value, _ => beginValue around placed
  | .firstItem, .closeArray => .ok (complete (.arr []) around)
  | .firstItem, _ => beginValue (.array [] :: around) placed
  | .firstName, .closeObject => .ok (complete (.obj []) around)
  | .firstName, _ => beginMember around [] placed
  | .name members, _ => beginMember around members placed
  | .colon members name, .colon => .ok ⟨.object members name :: around, .value⟩
  | .colon .., _ => .error ⟨.colonExpected, placed.place⟩
  | .afterItem items, .comma => .ok ⟨.array items :: around, .value⟩
  | .afterItem items, .closeArray => .ok (complete (.arr items.reverse) around)
  | .afterItem _, _ => .error ⟨.commaExpected, placed.place⟩
  | .afterMember members, .comma => .ok ⟨around, .name members⟩
  | .afterMember members, .closeObject => .ok (complete (.obj members) around)
  | .afterMember _, _ => .error ⟨.commaExpected, placed.place⟩
  | .nothing _, _ => .error ⟨.extraData, placed.place⟩

/-- All tokens of a text. -/
def run (reader : Reader) (placed : List Placed) : Except Misreading Reader :=
  placed.foldlM step reader

/-- The value that was read when the text ends here. -/
def finish (reader : Reader) : Except Misreading Json :=
  match reader.expected with
  | .nothing value => .ok value
  | .value | .firstItem => .error ⟨.valueExpected, []⟩
  | .firstName | .name _ => .error ⟨.nameExpected, []⟩
  | .colon .. => .error ⟨.colonExpected, []⟩
  | .afterItem _ | .afterMember _ => .error ⟨.commaExpected, []⟩

/-- Tokens are read part by part. -/
theorem run_append (reader : Reader) (first second : List Placed) :
    run reader (first ++ second) = run reader first >>= (run · second) := by
  simp [run, List.foldlM_append]

end Reader

/-! ## Places of faults -/

/-- Why a text is not JSON, and where: offsets count characters from zero,
lines and columns from one. -/
structure ReadError where
  fault : Fault
  offset : Nat
  line : Nat
  column : Nat
  deriving DecidableEq, Repr

namespace ReadError

/-- The place of a misreading within its text. -/
def locate (text : List Char) (misreading : Misreading) : ReadError :=
  let offset := text.length - misreading.rest.length
  let before := text.take offset
  { fault := misreading.fault
    offset
    line := before.count '\n' + 1
    column := (before.reverse.takeWhile (· ≠ '\n')).length + 1 }

/-- What a container is called in a message. -/
def containerName (inArray : Bool) : String := if inArray then "array" else "object"

/-- The wording of a fault. -/
def wording : Fault → String
  | .byteOrderMark => "Unexpected UTF-8 BOM (decode using utf-8-sig)"
  | .valueExpected => "Expecting value"
  | .nameExpected => "Expecting property name enclosed in double quotes"
  | .colonExpected => "Expecting ':' delimiter"
  | .commaExpected => "Expecting ',' delimiter"
  | .extraData => "Extra data"
  | .unterminatedString => "Unterminated string starting at"
  | .controlCharacter => "Invalid control character at"
  | .badEscape => "Invalid \\escape"
  | .badCodePoint => "Invalid \\uXXXX escape"
  | .loneHalf => "Lone surrogate"
  | .overlongInteger digits =>
    s!"Exceeds the limit ({Numeral.longest} digits) for integer string conversion: " ++
      s!"value has {digits} digits; use sys.set_int_max_str_digits() to increase the limit"
  | .tooNested inArray =>
    s!"maximum recursion depth exceeded while decoding a JSON {containerName inArray} " ++
      "from a unicode string"

/-- The whole message: the wording and the place, but for the length of a number and
the nesting of containers, which are no matters of place. -/
def message (error : ReadError) : String :=
  match error.fault with
  | .overlongInteger _ | .tooNested _ => wording error.fault
  | fault => s!"{wording fault}: line {error.line} column {error.column} (char {error.offset})"

end ReadError

/-- The value that a text denotes. Integers have at most as many digits as the
limit says, if there is one. -/
def read (text : String) (limit : Option Nat := some Numeral.longest) : Except ReadError Json :=
  let cs := text.toList
  let outcome : Except Misreading Json :=
    if cs.head? = some '\uFEFF' then .error ⟨.byteOrderMark, cs⟩
    else Reader.start.run (tokens limit cs) >>= Reader.finish
  outcome.mapError (ReadError.locate cs)

end Json

end ChatClient
