import ChatClient.Proofs.OptionTools
import ChatClient.Proofs.ReaderLimits
import ChatClient.Proofs.ShallowRecords
import Mathlib.Algebra.Group.Int.Defs

/-!
# Functions from the texts of their schemas

The text that a function is written as holds the text of its parameters. A function that
is made from that text is the function again, with the names in their order, and so it is
where blanks stand between the tokens. There are two limits: parameters that are nested
too deep have no text, and an integer of too many digits is written, but not read.
-/

namespace ChatClient

/-- A power of ten has more digits than its exponent says. -/
theorem Json.lt_digitCount_pow {n : Nat} (hn : 0 < n) : n < digitCount (10 ^ n) := by
  by_contra hle
  rw [Nat.not_lt, digitCount, Int.natAbs_pow] at hle
  exact lt_irrefl _ ((Nat.length_toDigits_le_iff (by decide) hn).mp hle)

namespace ToolFunction

open Json (Token digitCount)

/-- The parameters of a function, as a value. -/
def schema (function : ToolFunction) : Json := .obj function.parameters

/-- No parameter is deeper than a dump is followed. -/
def IsShallow (function : ToolFunction) : Prop :=
  ∀ parameter ∈ function.parameters, parameter.2.depth ≤ RecordKind.greatestDepth

instance : DecidablePred IsShallow := fun function =>
  inferInstanceAs (Decidable (∀ parameter ∈ function.parameters, parameter.2.depth ≤ _))

/-- The text of a function, from the text of its parameters. -/
def textWith (function : ToolFunction) (schemaText : String) : String :=
  "\x7b\"description\":" ++ (Json.ofOption (function.description.map .str)).compact ++
    ",\"name\":" ++ (Json.str function.name).compact ++ ",\"parameters\":" ++ schemaText ++ "\x7d"

/-- The function that is made from a text of parameters, with the description and the name
of this one. -/
def remade (function : ToolFunction) (schemaText : String) :
    Except Json.ReadError (Decoded ToolFunction) :=
  ofSchema (.ofOption (function.description.map .str)) (.str function.name) schemaText

section Written

variable {function : ToolFunction} (hplain : function.schema.isPlain = true)

include hplain in
/-- The dump of a function with plain parameters has them as they are. -/
theorem dump_shown_of_isPlain :
    function.dump .shown =
      .obj [("description", .ofOption (function.description.map .str)),
        ("name", .str function.name), ("parameters", function.schema)] := by
  have hfinite := Json.finite_of_isPlain hplain
  rw [schema, Json.finite] at hfinite
  rw [dump, NullFields.record_shown, hfinite]
  rfl

include hplain in
/-- The dump of a function is followed into its parameters and nowhere else. -/
theorem isWithinDepth_dump_iff (form : RecordKind.DumpForm) :
    RecordKind.toolFunction.isWithinDepth form (function.dump .shown) = true ↔
      function.IsShallow := by
  have hparts : Json.partsAt (.member "parameters") (function.dump .shown) = [function.schema] := by
    rw [dump_shown_of_isPlain hplain]
    rfl
  rw [RecordKind.isWithinDepth_iff]
  simp only [RecordKind.freePaths, RecordKind.functionPaths, List.forall_mem_singleton,
    Json.isShallowAlong_cons, hparts, Json.isShallowAlong_nil]
  exact List.forall_mem_map

include hplain in
/-- The compact text of a function holds that of its parameters. -/
theorem compact_dump :
    (function.dump .shown).compact = function.textWith function.schema.compact := by
  have hdescription : Token.spell .compact (.str "description") = "\"description\"".toList := by
    decide +kernel
  have hname : Token.spell .compact (.str "name") = "\"name\"".toList := by decide +kernel
  have hparameters : Token.spell .compact (.str "parameters") = "\"parameters\"".toList := by
    decide +kernel
  -- The literal texts are only unfolded, as `rw` would evaluate them.
  unfold textWith
  rw [dump_shown_of_isPlain hplain]
  generalize Json.ofOption (function.description.map .str) = description
  generalize Json.str function.name = name
  apply String.toList_inj.mp
  simp only [Json.compact, Json.write, Json.spelling, Json.spellingMembers, List.flatMap_cons,
    List.flatMap_append, List.flatMap_nil, String.toList_ofList, String.toList_append,
    hdescription, hname, hparameters]
  simp [Token.spell]

include hplain in
/-- A function has a text if it is shallow, and the text holds that of its parameters. -/
theorem written_dump :
    RecordKind.toolFunction.written (function.dump .shown) =
      if function.IsShallow then .ok (function.textWith function.schema.compact)
      else .error .tooDeepForText := by
  by_cases hshallow : function.IsShallow
  · have hwithin form := (isWithinDepth_dump_iff hplain form).mpr hshallow
    rw [if_pos hshallow, RecordKind.written, hwithin, hwithin, finite_dump, compact_dump hplain]
    rfl
  · have hwithin : ¬ RecordKind.toolFunction.isWithinDepth .value (function.dump .shown) = true :=
      fun hwithin => hshallow ((isWithinDepth_dump_iff hplain .value).mp hwithin)
    rw [if_neg hshallow, RecordKind.written, Bool.eq_false_iff.mpr hwithin]
    rfl

end Written

/-- Shallow parameters are not nested too deep to be read. -/
theorem IsShallow.depth_schema_le {function : ToolFunction} (hshallow : function.IsShallow) :
    function.schema.depth ≤ Json.greatestNesting := by
  have hle := Json.depthOfMembers_le hshallow
  rw [schema, Json.depth]
  rw [RecordKind.greatestDepth] at hle
  rw [Json.greatestNesting]
  omega

/-- The fields of a function make the function. -/
theorem ofFields_schema (function : ToolFunction) :
    ofFields [("description", .ofOption (function.description.map .str)),
      ("name", .str function.name), ("parameters", function.schema)] = .value function := by
  cases function with
  | mk description name parameters => cases description <;> rfl

/-- A function with plain parameters is read back from its dump. -/
theorem decode_dump_of_isPlain {function : ToolFunction} (hplain : function.schema.isPlain = true)
    (nulls : NullFields) : decode (function.dump nulls) = .value function := by
  rw [schema, Json.isPlain, Bool.and_eq_true] at hplain
  rw [decode_dump, normal, Json.finiteMembers_of_areMembersPlain hplain.2]

/-- What is read as the parameters of a function makes the function. -/
theorem remade_of_read {function : ToolFunction} {text : String}
    (hread : Json.readNested text = .ok function.schema) :
    function.remade text = .ok (.value function) := by
  rw [remade, ofSchema, hread, ← ofFields_schema]
  rfl

/-- What is not read makes no function. -/
theorem remade_of_not_read {function : ToolFunction} {text : String} {error : Json.ReadError}
    (hread : Json.readNested text = .error error) : function.remade text = .error error := by
  rw [remade, ofSchema, hread]
  rfl

/-- **Schema texts.** A function has a text exactly where its parameters are shallow, and that
text holds the compact text of its parameters. From it the same function is made, also with
blanks between the tokens, if no integer has too many digits. If one has, the first such is
what the text is refused for. -/
theorem remade_of_isSpacing (function : ToolFunction) (hplain : function.schema.isPlain = true) :
    RecordKind.toolFunction.written (function.dump .shown) =
        (if function.IsShallow then .ok (function.textWith function.schema.compact)
          else .error .tooDeepForText) ∧
      function.schema.IsSpacing function.schema.compact ∧
      (function.IsShallow → ∀ text, function.schema.IsSpacing text →
        (function.schema.HasShortIntegers → function.remade text = .ok (.value function)) ∧
        (¬ function.schema.HasShortIntegers → ∃ n error,
          Token.int n ∈ function.schema.spelling ∧ Numeral.longest < digitCount n ∧
          function.remade text = .error error ∧
          error.fault = .overlongInteger (digitCount n))) := by
  refine ⟨written_dump hplain, Json.isSpacing_compact _, fun hshallow text htext => ⟨?_, ?_⟩⟩
  · exact fun hshort =>
      remade_of_read (htext.readNested_eq_ok hplain hshallow.depth_schema_le hshort)
  · intro hlong
    obtain ⟨n, error, hmem, hn, hread, hfault⟩ :=
      htext.readNested_eq_error hplain hshallow.depth_schema_le hlong
    exact ⟨n, error, hmem, hn, remade_of_not_read hread, hfault⟩

/-- A function with an integer, an escape and empty braces in its parameters. -/
def sample : ToolFunction :=
  { description := none, name := "f"
    parameters := [("a", .arr [.int (-12), .str "\u00e9\n"]), ("b", .obj [])] }

/-- The text of the parameters, with blanks of all kinds. -/
def spacedSample : String :=
  " \x7b\"a\":\n[-12 ,\"\u00e9\\n\"]\t,\"b\" : \x7b \x7d\x7d\r"

/-- The sample has a text, and from the text with blanks in it the sample is made again. -/
theorem remade_of_isSpacing_sample :
    sample.schema.isPlain = true ∧ sample.schema.IsSpacing spacedSample ∧
      RecordKind.toolFunction.written (sample.dump .shown) = .ok ("\x7b\"description\":null," ++
        "\"name\":\"f\",\"parameters\":\x7b\"a\":[-12,\"\u00e9\\n\"],\"b\":\x7b\x7d\x7d\x7d") ∧
      sample.remade spacedSample = .ok (.value sample) := by
  have hplain : sample.schema.isPlain = true := by decide +kernel
  have hshallow : sample.IsShallow := by decide +kernel
  have hshort : sample.schema.HasShortIntegers :=
    (Json.hasShortIntegers_iff hplain).mpr (by decide +kernel)
  -- The gaps are left to `simp`: a decision may go through all characters there are.
  have hspacing : sample.schema.IsSpacing spacedSample :=
    ⟨[([' '], .openObject), ([], .str "a"), ([], .colon), (['\n'], .openArray), ([], .int (-12)),
      ([' '], .comma), ([], .str "\u00e9\n"), ([], .closeArray), (['\t'], .comma), ([], .str "b"),
      ([' '], .colon), ([' '], .openObject), ([' '], .closeObject), ([], .closeObject)], ['\r'],
      by decide +kernel, by simp [Json.isGap], by simp [Json.isGap], by decide +kernel⟩
  obtain ⟨hwritten, -, hremade⟩ := remade_of_isSpacing sample hplain
  refine ⟨hplain, hspacing, ?_, (hremade hshallow _ hspacing).1 hshort⟩
  rw [hwritten, if_pos hshallow]
  decide +kernel

/-- A function with a parameter that is nested too deep. -/
def tooDeep : ToolFunction :=
  { description := none, name := "f", parameters := [("a", .nested 299)] }

/-- A function with an integer of one digit more than is read. -/
def tooLong : ToolFunction :=
  { description := none, name := "f", parameters := [("a", .int (10 ^ Numeral.longest))] }

/-- Not every function survives its schema text: one that is too deep has no text, and an
integer that is too long cannot be read from the text it is in. -/
theorem not_forall_remade :
    (¬∀ function : ToolFunction, (∃ value, decode value = .value function) →
      function.schema.isPlain = true →
      ∃ text, RecordKind.toolFunction.written (function.dump .shown) = .ok text) ∧
    (¬∀ function : ToolFunction, (∃ value, decode value = .value function) →
      function.schema.isPlain = true → ∀ text,
      RecordKind.toolFunction.written (function.dump .shown) = .ok (function.textWith text) →
      function.remade text = .ok (.value function)) := by
  constructor
  · intro hall
    have hplain : tooDeep.schema.isPlain = true := by decide +kernel
    obtain ⟨text, htext⟩ := hall tooDeep ⟨_, decode_dump_of_isPlain hplain .shown⟩ hplain
    rw [written_dump hplain, if_neg (by decide +kernel)] at htext
    cases htext
  · intro hall
    have hplain : tooLong.schema.isPlain = true := by decide +kernel
    have hshallow : tooLong.IsShallow := by decide +kernel
    have hlong : ¬ tooLong.schema.HasShortIntegers := fun hshort =>
      absurd (hshort (10 ^ Numeral.longest) (by simp [tooLong, schema, Json.spelling]))
        (Nat.not_le_of_lt (Json.lt_digitCount_pow (by decide)))
    have hremade := hall tooLong ⟨_, decode_dump_of_isPlain hplain .shown⟩ hplain _
      (by rw [written_dump hplain, if_pos hshallow])
    obtain ⟨_, _, _, _, hread, _⟩ := (Json.isSpacing_compact _).readNested_eq_error hplain
      hshallow.depth_schema_le hlong
    rw [remade_of_not_read hread] at hremade
    cases hremade

end ToolFunction

end ChatClient
