import ChatClient.Json.Depth
import ChatClient.Json.Nesting
import ChatClient.Proofs.ReadBack

/-!
# The limits of reading

A text that is not trusted is read up to two limits: its containers must not be nested
too deep, and its integers must not have too many digits. Within the limits, the text of
a value is read back whatever blanks there are between its tokens. The first integer of
too many digits is where the reading ends.
-/

namespace ChatClient.Json

/-! ## One token -/

/-- The value that a token is the whole text of. -/
def Token.scalar? : Token → Option Json
  | .null => some .null
  | .bool b => some (.bool b)
  | .int n => some (.int n)
  | .float x => some (.float x)
  | .str s => some (.str s)
  | _ => none

namespace Reader

/-- All that one token can do. The first item of an array is begun like any other one, and
so is the name of the first member of an object. -/
inductive Steps : Reader → Token → Reader → Prop
  | scalar {token : Token} {value : Json} (around : List Container)
    (htoken : token.scalar? = some value) : Steps ⟨around, .value⟩ token (complete value around)
  | openArray (around : List Container) : Steps ⟨around, .value⟩ .openArray ⟨around, .firstItem⟩
  | openObject (around : List Container) :
    Steps ⟨around, .value⟩ .openObject ⟨around, .firstName⟩
  | emptyArray (around : List Container) :
    Steps ⟨around, .firstItem⟩ .closeArray (complete (.arr []) around)
  | firstItem {around : List Container} {token : Token} {next : Reader}
    (hitem : Steps ⟨.array [] :: around, .value⟩ token next) : Steps ⟨around, .firstItem⟩ token next
  | nextItem (around : List Container) (items : List Json) :
    Steps ⟨around, .afterItem items⟩ .comma ⟨.array items :: around, .value⟩
  | closeArray (around : List Container) (items : List Json) :
    Steps ⟨around, .afterItem items⟩ .closeArray (complete (.arr items.reverse) around)
  | emptyObject (around : List Container) :
    Steps ⟨around, .firstName⟩ .closeObject (complete (.obj []) around)
  | firstName {around : List Container} {token : Token} {next : Reader}
    (hname : Steps ⟨around, .name []⟩ token next) : Steps ⟨around, .firstName⟩ token next
  | name (around : List Container) (members : Members) (name : String) :
    Steps ⟨around, .name members⟩ (.str name) ⟨around, .colon members name⟩
  | colon (around : List Container) (members : Members) (name : String) :
    Steps ⟨around, .colon members name⟩ .colon ⟨.object members name :: around, .value⟩
  | nextMember (around : List Container) (members : Members) :
    Steps ⟨around, .afterMember members⟩ .comma ⟨around, .name members⟩
  | closeObject (around : List Container) (members : Members) :
    Steps ⟨around, .afterMember members⟩ .closeObject (complete (.obj members) around)

/-- A token that begins a value is the whole of it, or opens it. -/
theorem steps_of_beginValue {around : List Container} {placed : Placed} {next : Reader}
    (hnext : beginValue around placed = .ok next) :
    Steps ⟨around, .value⟩ placed.token next := by
  obtain ⟨token, place⟩ := placed
  cases token with
  | null | bool | int | float | str =>
    cases hnext
    exact .scalar around rfl
  | openArray =>
    cases hnext
    exact .openArray around
  | openObject =>
    cases hnext
    exact .openObject around
  | closeArray | closeObject | colon | comma | brokenString | brokenInteger | unknown =>
    cases hnext

/-- A token that begins a member is its name. -/
theorem steps_of_beginMember {around : List Container} {members : Members} {placed : Placed}
    {next : Reader} (hnext : beginMember around members placed = .ok next) :
    Steps ⟨around, .name members⟩ placed.token next := by
  obtain ⟨token, place⟩ := placed
  cases token with
  | str name =>
    cases hnext
    exact .name around members name
  | null | bool | int | float | openArray | openObject | closeArray | closeObject | colon | comma
  | brokenString | brokenInteger | unknown => cases hnext

/-- What a token that is read has done. -/
theorem steps_of_step {reader next : Reader} {placed : Placed}
    (hnext : reader.step placed = .ok next) : Steps reader placed.token next := by
  obtain ⟨around, expected⟩ := reader
  cases expected with
  | value => exact steps_of_beginValue hnext
  | firstItem =>
    by_cases hclose : placed.token = .closeArray
    · obtain ⟨token, place⟩ := placed
      cases hclose
      cases hnext
      exact .emptyArray around
    · rw [step_firstItem hclose] at hnext
      exact .firstItem (steps_of_beginValue hnext)
  | firstName =>
    by_cases hclose : placed.token = .closeObject
    · obtain ⟨token, place⟩ := placed
      cases hclose
      cases hnext
      exact .emptyObject around
    · rw [step_firstName hclose] at hnext
      exact .firstName (steps_of_beginMember hnext)
  | name members => exact steps_of_beginMember hnext
  | colon members name =>
    obtain ⟨token, place⟩ := placed
    cases token <;> cases hnext
    exact .colon around members name
  | afterItem items =>
    obtain ⟨token, place⟩ := placed
    cases token <;> cases hnext
    · exact .closeArray around items
    · exact .nextItem around items
  | afterMember members =>
    obtain ⟨token, place⟩ := placed
    cases token <;> cases hnext
    · exact .closeObject around members
    · exact .nextMember around members
  | nothing value => cases hnext

end Reader

/-! ## Nesting -/

/-- How many containers are open behind a token, from how many are open before it. -/
def Token.level (count : Nat) : Token → Nat
  | .openArray | .openObject => count + 1
  | .closeArray | .closeObject => count - 1
  | .colon | .comma | .null | .bool _ | .int _ | .float _ | .str _ | .brokenString _
  | .brokenInteger _ | .unknown => count

/-- A token that is a value opens and closes nothing. -/
theorem Token.level_of_scalar? {token : Token} {value : Json}
    (hvalue : token.scalar? = some value) (count : Nat) : token.level count = count := by
  cases token with
  | openArray | openObject | closeArray | closeObject | colon | comma | brokenString
  | brokenInteger | unknown => cases hvalue
  | null | bool | int | float | str => rfl

/-- Behind none of the tokens more containers are open than the limit says. -/
def StaysWithin (limit : Nat) : Nat → List Token → Prop
  | _, [] => True
  | count, token :: tokens =>
    token.level count ≤ limit ∧ StaysWithin limit (token.level count) tokens

/-- A token that opens and closes nothing may stand anywhere. -/
theorem StaysWithin.cons_same {limit count : Nat} {token : Token} {tokens : List Token}
    (hlevel : token.level count = count) (hcount : count ≤ limit)
    (htokens : StaysWithin limit count tokens) : StaysWithin limit count (token :: tokens) := by
  rw [StaysWithin, hlevel]
  exact ⟨hcount, htokens⟩

/-- Tokens stay within the limit up to one of them, whatever else stands there without
opening or closing anything. -/
theorem StaysWithin.interrupt {limit count : Nat} {before after : List Token} {token last : Token}
    (htokens : StaysWithin limit count (before ++ token :: after))
    (hlevel : ∀ count, last.level count = token.level count) :
    StaysWithin limit count (before ++ [last]) := by
  induction before generalizing count with
  | nil => exact ⟨(hlevel count).trans_le htokens.1, trivial⟩
  | cons first before ih => exact ⟨htokens.1, ih htokens.2⟩

namespace Reader

/-- A value that is complete leaves the containers around it open. -/
theorem openCount_complete (value : Json) (around : List Container) :
    (complete value around).openCount = around.length := by
  cases around with
  | nil => rfl
  | cons container around => cases container <;> rfl

/-- **One token.** Where it is read, it opens and closes what it says. -/
theorem Steps.openCount {reader next : Reader} {token : Token} (hsteps : Steps reader token next) :
    next.openCount = token.level reader.openCount := by
  induction hsteps with
  | scalar around hvalue =>
    exact (openCount_complete _ around).trans (Token.level_of_scalar? hvalue around.length).symm
  | openArray | openObject | nextItem | name | colon | nextMember => rfl
  | emptyArray | closeArray | emptyObject | closeObject => exact openCount_complete _ _
  | firstItem _ ih | firstName _ ih => exact ih

/-- **All tokens.** None of them opens a container too many, if they stay within the limit. -/
theorem overdeep?_eq_none {reader : Reader} {placed : List Placed}
    (hwithin : StaysWithin greatestNesting reader.openCount (placed.map Placed.token)) :
    reader.overdeep? placed = none := by
  induction placed generalizing reader with
  | nil => rfl
  | cons first placed ih =>
    rw [overdeep?]
    cases hstep : reader.step first with
    | error misreading => rfl
    | ok next =>
      have hcount := (steps_of_step hstep).openCount
      obtain ⟨hle, hrest⟩ := hwithin
      rw [← hcount] at hle hrest
      simp only [if_neg (Nat.not_lt_of_le hle)]
      exact ih hrest

end Reader

mutual

/-- The tokens of a value stay within a limit that it is not deeper than, in whatever
containers it is. -/
theorem staysWithin_spelling {limit : Nat} {rest : List Token} : ∀ (value : Json) (count : Nat),
    count + value.depth ≤ limit → StaysWithin limit count rest →
      StaysWithin limit count (value.spelling ++ rest)
  | .null, _, hdepth, hrest => .cons_same rfl (Nat.le_of_add_right_le hdepth) hrest
  | .bool _, _, hdepth, hrest => .cons_same rfl (Nat.le_of_add_right_le hdepth) hrest
  | .int _, _, hdepth, hrest => .cons_same rfl (Nat.le_of_add_right_le hdepth) hrest
  | .float _, _, hdepth, hrest => .cons_same rfl (Nat.le_of_add_right_le hdepth) hrest
  | .str _, _, hdepth, hrest => .cons_same rfl (Nat.le_of_add_right_le hdepth) hrest
  | .arr [], _, hdepth, hrest => ⟨hdepth, Nat.le_of_add_right_le hdepth, hrest⟩
  | .arr (x :: xs), count, hdepth, hrest => by
    rw [depth, depthOfItems] at hdepth
    have hcount : count ≤ limit := by omega
    have hopen : count + 1 ≤ limit := by omega
    have hclose : StaysWithin limit (count + 1) (.closeArray :: rest) := ⟨hcount, hrest⟩
    have hitems := staysWithin_spellingItems xs (count + 1) (by omega) hclose
    have hfirst := staysWithin_spelling x (count + 1) (by omega) hitems
    rw [spelling, List.cons_append, List.append_assoc, List.append_assoc]
    exact ⟨hopen, hfirst⟩
  | .obj [], _, hdepth, hrest => ⟨hdepth, Nat.le_of_add_right_le hdepth, hrest⟩
  | .obj ((_, x) :: xs), count, hdepth, hrest => by
    rw [depth, depthOfMembers] at hdepth
    have hcount : count ≤ limit := by omega
    have hopen : count + 1 ≤ limit := by omega
    have hclose : StaysWithin limit (count + 1) (.closeObject :: rest) := ⟨hcount, hrest⟩
    have hmembers := staysWithin_spellingMembers xs (count + 1) (by omega) hclose
    have hfirst := staysWithin_spelling x (count + 1) (by omega) hmembers
    rw [spelling, List.cons_append, List.cons_append, List.cons_append, List.append_assoc,
      List.append_assoc]
    exact ⟨hopen, .cons_same rfl hopen (.cons_same rfl hopen hfirst)⟩

/-- So do those of further items. -/
theorem staysWithin_spellingItems {limit : Nat} {rest : List Token} : ∀ (xs : List Json)
    (count : Nat), count + depthOfItems xs ≤ limit → StaysWithin limit count rest →
      StaysWithin limit count (spellingItems xs ++ rest)
  | [], _, _, hrest => hrest
  | x :: xs, count, hdepth, hrest => by
    rw [depthOfItems] at hdepth
    have hcount : count ≤ limit := by omega
    have hitems := staysWithin_spellingItems xs count (by omega) hrest
    have hfirst := staysWithin_spelling x count (by omega) hitems
    rw [spellingItems, List.cons_append, List.append_assoc]
    exact .cons_same rfl hcount hfirst

/-- So do those of further members. -/
theorem staysWithin_spellingMembers {limit : Nat} {rest : List Token} :
    ∀ (xs : List (String × Json)) (count : Nat), count + depthOfMembers xs ≤ limit →
      StaysWithin limit count rest → StaysWithin limit count (spellingMembers xs ++ rest)
  | [], _, _, hrest => hrest
  | (_, x) :: xs, count, hdepth, hrest => by
    rw [depthOfMembers] at hdepth
    have hcount : count ≤ limit := by omega
    have hmembers := staysWithin_spellingMembers xs count (by omega) hrest
    have hfirst := staysWithin_spelling x count (by omega) hmembers
    rw [spellingMembers, List.cons_append, List.cons_append, List.cons_append, List.append_assoc]
    exact .cons_same rfl hcount (.cons_same rfl hcount (.cons_same rfl hcount hfirst))

end

/-! ## Integers of too many digits -/

namespace Reader

/-- Where an integer is read, a broken one is a fault. -/
theorem step_brokenInteger {reader next : Reader} {n : Int} {place : List Char}
    (hnext : reader.step ⟨.int n, place⟩ = .ok next) (misreading : Misreading)
    (there : List Char) : reader.step ⟨.brokenInteger misreading, there⟩ = .error misreading := by
  obtain ⟨around, expected⟩ := reader
  cases expected with
  | value | firstItem => rfl
  | firstName | name | colon | afterItem | afterMember | nothing => cases hnext

/-- Tokens that are read with an integer among them are read up to it where it is broken. -/
theorem Reads.run_brokenInteger {reader last : Reader} {before after : List Token} {n : Int}
    (hreads : Reads reader (before ++ .int n :: after) last) {misreading : Misreading}
    {placed : List Placed}
    (hplaced : placed.map Placed.token = before ++ [.brokenInteger misreading]) :
    reader.run placed = .error misreading := by
  obtain ⟨first, rest, rfl, hfirst, hrest⟩ := List.map_eq_append_iff.mp hplaced
  obtain ⟨⟨_, there⟩, _, rfl, rfl, hnil⟩ := List.map_eq_cons_iff.mp hrest
  obtain rfl := List.map_eq_nil_iff.mp hnil
  -- The places of tokens are of no account, so the whole tokens may stand anywhere.
  have hwhole := hreads (first ++ ⟨.int n, []⟩ :: after.map (⟨·, []⟩))
    (by simp [hfirst, Function.comp_def])
  rw [run_append] at hwhole ⊢
  obtain ⟨middle, hmiddle, hrest⟩ := exists_of_bind_eq_ok hwhole
  obtain ⟨next, hnext, _⟩ := exists_of_bind_eq_ok hrest
  rw [hmiddle]
  change (middle.step ⟨.brokenInteger misreading, there⟩ >>= fun next => next.run []) = _
  rw [step_brokenInteger hnext]
  rfl

end Reader

/-- An integer of too many digits is the last token of a text, and a broken one. -/
theorem tokens_gap_overlong {limit : Option Nat} {gap rest : List Char} {n : Int}
    (hgap : ∀ c ∈ gap, isGap c = true) (hlong : limit.any (· < digitCount n) = true)
    (hrest : EndsNumber rest) :
    (tokens limit (gap ++ (intText n ++ rest))).map Placed.token =
      [.brokenInteger ⟨.overlongInteger (digitCount n), intText n ++ rest⟩] := by
  have hwhole : (Token.int n).isReadable none = true := rfl
  obtain ⟨c, cs, hspell, hblank, _⟩ := exists_spell_eq_cons hwhole .compact
  have htext : intText n ++ rest = c :: (cs ++ rest) := by
    rw [← List.cons_append, ← hspell, Token.spell]
  have hscan := scan_intText limit n hrest
  rw [integerRead, if_pos hlong, htext] at hscan
  rw [htext, tokens_gap_append limit hgap hblank, hscan, tokens_gap limit (by simp)]
  rfl

/-- What can be read at all, and not up to the limit, is an integer of too many digits. -/
theorem Token.exists_of_not_isReadable {limit : Nat} {token : Token}
    (hreadable : token.isReadable none = true) (hlimit : token.isReadable (some limit) = false) :
    ∃ n, token = .int n ∧ limit < digitCount n := by
  cases token with
  | int n => exact ⟨n, rfl, by simpa [isReadable, digitCount] using hlimit⟩
  | openArray | closeArray | openObject | closeObject | colon | comma | null | bool | str =>
    cases hlimit
  | float | brokenString | brokenInteger | unknown => cases hreadable

/-- If not all tokens of a plain value are read up to the limit, there is a first integer
of too many digits. -/
theorem exists_spelling_eq_append {value : Json} (hplain : value.isPlain = true) {limit : Nat}
    (hlong : ¬ ∀ token ∈ value.spelling, token.isReadable (some limit) = true) :
    ∃ before n after, value.spelling = before ++ .int n :: after ∧ limit < digitCount n ∧
      ∀ token ∈ before, token.isReadable (some limit) = true := by
  have hsome : (value.spelling.find? fun token => !token.isReadable (some limit)).isSome := by
    simpa [List.find?_isSome] using hlong
  obtain ⟨token, hfind⟩ := Option.isSome_iff_exists.mp hsome
  obtain ⟨htoken, before, after, hspelling, hbefore⟩ := List.find?_eq_some_iff_append.mp hfind
  have hmem : token ∈ value.spelling := by
    rw [hspelling]
    exact List.mem_append_right _ (List.mem_cons_self)
  obtain ⟨n, rfl, hn⟩ := Token.exists_of_not_isReadable
    (isReadable_of_mem_spelling value hplain token hmem) (by simpa using htoken)
  exact ⟨before, n, after, hspelling, hn, by simpa using hbefore⟩

/-- Up to the first integer of too many digits the tokens of a text are read back. -/
theorem map_token_tokens_overlong {limit : Nat} (layout : Layout)
    {parts : List (List Char × Token)} {tail : List Char} {before after : List Token} {n : Int}
    (hparts : parts.map Prod.snd = before ++ .int n :: after)
    (hgaps : ∀ part ∈ parts, ∀ c ∈ part.1, isGap c = true) (htail : ∀ c ∈ tail, isGap c = true)
    (hreadable : ∀ part ∈ parts, part.2.isReadable none = true)
    (hapart : Apart (parts.map Prod.snd))
    (hbefore : ∀ token ∈ before, token.isReadable (some limit) = true)
    (hn : limit < digitCount n) :
    ∃ rest, (tokens (some limit) (spaced layout parts ++ tail)).map Placed.token =
      before ++ [.brokenInteger ⟨.overlongInteger (digitCount n), rest⟩] := by
  obtain ⟨first, more, rfl, rfl, hmore⟩ := List.map_eq_append_iff.mp hparts
  obtain ⟨⟨gap, _⟩, last, rfl, rfl, rfl⟩ := List.map_eq_cons_iff.mp hmore
  rw [hparts] at hapart
  obtain ⟨hapart₁, hapart₂, hlast⟩ := List.isChain_append.mp hapart
  have hends : EndsNumber (spaced layout last ++ tail) := by
    refine endsNumber_spaced_append layout (fun part hpart => hgaps part (by simp [hpart]))
      (fun part hpart => hreadable part (by simp [hpart])) (fun token htoken => ?_)
      (fun _ => endsNumber_gap htail)
    exact (List.isChain_cons.mp hapart₂).1 token htoken rfl
  have htext : spaced layout (first ++ (gap, .int n) :: last) ++ tail =
      spaced layout first ++ (gap ++ (intText n ++ (spaced layout last ++ tail))) := by
    simp [spaced, Token.spell]
  refine ⟨intText n ++ (spaced layout last ++ tail), ?_⟩
  -- What stands before an integer is no number, so nothing has to end it.
  have hnumber : ∀ token ∈ (first.map Prod.snd).getLast?, token.isNumber = true →
      EndsNumber (gap ++ (intText n ++ (spaced layout last ++ tail))) :=
    fun token htoken hnumber => absurd (hlast token htoken _ rfl hnumber) (by simp [Token.isNumber])
  have hfirst := map_token_tokens_append layout (fun part hpart => hgaps part (by simp [hpart]))
    (fun part hpart => hbefore part.2 (List.mem_map_of_mem hpart)) hapart₁ hnumber
  rw [htext, hfirst, tokens_gap_overlong (hgaps (gap, .int n) (by simp)) (by simpa using hn) hends]

/-! ## Whole texts -/

/-- A text holds the tokens of a value one after the other, with blanks between them. -/
def IsSpacing (value : Json) (text : String) : Prop :=
  ∃ (parts : List (List Char × Token)) (tail : List Char), parts.map Prod.snd = value.spelling ∧
    (∀ part ∈ parts, ∀ c ∈ part.1, isGap c = true) ∧ (∀ c ∈ tail, isGap c = true) ∧
    text = String.ofList (spaced .compact parts ++ tail)

/-- The compact text of a value holds no blanks. -/
theorem isSpacing_compact (value : Json) : value.IsSpacing value.compact :=
  ⟨value.spelling.map ([], ·), [], by simp [Function.comp_def], by simp, by simp,
    compact_eq_spaced value⟩

/-- A text is not refused for its nesting whose tokens stay within the limit. -/
theorem checkNesting_eq_ok {text : String}
    (hwithin : StaysWithin greatestNesting 0
      ((tokens (some Numeral.longest) text.toList).map Placed.token)) :
    checkNesting text = .ok () := by
  have hnone : Reader.start.overdeep? (tokens (some Numeral.longest) text.toList) = none :=
    Reader.overdeep?_eq_none hwithin
  simp only [checkNesting, hnone]

/-- The tokens of a value that is not too deep are not nested too deep. -/
theorem staysWithin_of_depth_le {value : Json} (hdepth : value.depth ≤ greatestNesting) :
    StaysWithin greatestNesting 0 value.spelling := by
  have hwithin : StaysWithin greatestNesting 0 (value.spelling ++ []) :=
    staysWithin_spelling value 0 (by omega) trivial
  rwa [List.append_nil] at hwithin

/-- No integer in the value has more digits than are read. -/
def HasShortIntegers (value : Json) : Prop :=
  ∀ n, Token.int n ∈ value.spelling → digitCount n ≤ Numeral.longest

/-- The integers of a plain value are short where all its tokens are read. -/
theorem hasShortIntegers_iff {value : Json} (hplain : value.isPlain = true) :
    value.HasShortIntegers ↔
      ∀ token ∈ value.spelling, token.isReadable (some Numeral.longest) = true := by
  constructor
  · intro hshort token htoken
    by_contra hlong
    obtain ⟨n, rfl, hn⟩ := Token.exists_of_not_isReadable
      (isReadable_of_mem_spelling value hplain token htoken) (by simpa using hlong)
    exact absurd (hshort n htoken) (Nat.not_le_of_lt hn)
  · intro hreadable n hn
    simpa [Token.isReadable, digitCount] using hreadable _ hn

section Spacing

variable {value : Json} {text : String} (htext : value.IsSpacing text)
  (hplain : value.isPlain = true) (hdepth : value.depth ≤ greatestNesting)

include htext hplain hdepth

/-- **Within the limits.** A value is read from its tokens with blanks between them. -/
theorem IsSpacing.readNested_eq_ok (hshort : value.HasShortIntegers) :
    readNested text = .ok value := by
  obtain ⟨parts, tail, hparts, hgaps, htail, rfl⟩ := htext
  have hreadable := (hasShortIntegers_iff hplain).mp hshort
  have htokens := map_token_tokens_spaced .compact hgaps htail
    (fun part hpart => hreadable part.2 (hparts ▸ List.mem_map_of_mem hpart))
    (hparts ▸ value.apart_spelling_self)
  have hcheck : checkNesting (String.ofList (spaced .compact parts ++ tail)) = .ok () := by
    refine checkNesting_eq_ok ?_
    rw [String.toList_ofList, htokens, hparts]
    exact staysWithin_of_depth_le hdepth
  rw [readNested, hcheck]
  exact read_spaced hplain .compact hparts hgaps htail hreadable

/-- **Beyond the limit of digits.** The first integer of too many digits is what a text is
refused for. -/
theorem IsSpacing.readNested_eq_error (hlong : ¬ value.HasShortIntegers) :
    ∃ n error, Token.int n ∈ value.spelling ∧ Numeral.longest < digitCount n ∧
      readNested text = .error error ∧ error.fault = .overlongInteger (digitCount n) := by
  obtain ⟨parts, tail, hparts, hgaps, htail, rfl⟩ := htext
  rw [hasShortIntegers_iff hplain] at hlong
  obtain ⟨before, n, after, hspelling, hn, hbefore⟩ := exists_spelling_eq_append hplain hlong
  have hreadable : ∀ part ∈ parts, part.2.isReadable none = true := fun part hpart =>
    isReadable_of_mem_spelling value hplain part.2 (hparts ▸ List.mem_map_of_mem hpart)
  obtain ⟨rest, htokens⟩ := map_token_tokens_overlong .compact (hparts.trans hspelling) hgaps
    htail hreadable (hparts ▸ value.apart_spelling_self) hbefore hn
  have hcheck : checkNesting (String.ofList (spaced .compact parts ++ tail)) = .ok () := by
    have hwithin := staysWithin_of_depth_le hdepth
    rw [hspelling] at hwithin
    refine checkNesting_eq_ok ?_
    rw [String.toList_ofList, htokens]
    exact hwithin.interrupt fun _ => rfl
  have hreads := reads_spelling value hplain []
  rw [hspelling] at hreads
  have hrun : Reader.start.run (tokens (some Numeral.longest) (spaced .compact parts ++ tail)) =
      .error ⟨.overlongInteger (digitCount n), rest⟩ := hreads.run_brokenInteger htokens
  have hmark := head?_spaced_append_ne .compact hgaps htail hreadable
  refine ⟨n, .locate (spaced .compact parts ++ tail) ⟨.overlongInteger (digitCount n), rest⟩,
    by simp [hspelling], hn, ?_, rfl⟩
  rw [readNested, hcheck]
  change read _ = _
  rw [read, String.toList_ofList]
  simp only [hmark, if_false, hrun]
  rfl

end Spacing

end ChatClient.Json
