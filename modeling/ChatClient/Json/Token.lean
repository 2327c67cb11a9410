import ChatClient.Json.Basic
import ChatClient.Number.Layout
import ChatClient.Number.Numeral
import ChatClient.Text.Hex

/-!
# JSON tokens

A text is a sequence of tokens with gaps of blanks between them. `Token.spell`
writes one token, `scan` reads one from the front of a text, and `tokens` reads
them all. A place where no token can be read becomes a token too, the last one,
so that a reader that stops earlier for another reason never sees it.

Strings are Unicode texts. An escape can write half of a pair of code units alone,
which is no character: that is a fault of its own here, and nothing is said about
what becomes of such a half elsewhere.
-/

namespace ChatClient.Json

/-- What can be wrong with a text. -/
inductive Fault where
  | byteOrderMark
  | valueExpected
  | nameExpected
  | colonExpected
  | commaExpected
  | extraData
  | unterminatedString
  | controlCharacter
  | badEscape
  | badCodePoint
  | loneHalf
  | overlongInteger (digits : Nat)
  | tooNested (inArray : Bool)
  deriving DecidableEq, Repr

/-- A fault, and the text from the place of the fault on. -/
structure Misreading where
  fault : Fault
  rest : List Char
  deriving DecidableEq, Repr

/-- The parts of a JSON text. -/
inductive Token where
  | openArray
  | closeArray
  | openObject
  | closeObject
  | colon
  | comma
  | null
  | bool (value : Bool)
  | int (value : Int)
  | float (value : Binary64)
  | str (value : String)
  | brokenString (misreading : Misreading)
  | brokenInteger (misreading : Misreading)
  | unknown
  deriving DecidableEq, Repr

/-- A blank between tokens. -/
def isGap (c : Char) : Bool := c = ' ' || c = '\t' || c = '\n' || c = '\r'

/-! ## Writing -/

/-- One character inside a string. Only what must be escaped is. -/
def escapeChar (c : Char) : List Char :=
  if c = '"' then ['\\', '"']
  else if c = '\\' then ['\\', '\\']
  else if c = '\x08' then ['\\', 'b']
  else if c = '\x0c' then ['\\', 'f']
  else if c = '\n' then ['\\', 'n']
  else if c = '\r' then ['\\', 'r']
  else if c = '\t' then ['\\', 't']
  else if c.toNat < 0x20 then '\\' :: 'u' :: Text.hexDigits 4 c.toNat
  else [c]

/-- A string with its quotation marks. -/
def stringText (s : String) : List Char :=
  '"' :: (s.toList.flatMap escapeChar ++ ['"'])

/-- An integer in decimal digits. -/
def intText (n : Int) : List Char :=
  (if n < 0 then ['-'] else []) ++ Nat.toDigits 10 n.natAbs

/-- The number of digits that an integer is written with. -/
def digitCount (n : Int) : Nat := (Nat.toDigits 10 n.natAbs).length

/-- A float, or `null` for one that has no decimal. -/
def floatText (layout : Layout) (x : Binary64) : List Char :=
  if x.isFinite then layout.number x else ['n', 'u', 'l', 'l']

/-- The text of a token. Broken tokens have none. -/
def Token.spell (layout : Layout) : Token → List Char
  | .openArray => ['[']
  | .closeArray => [']']
  | .openObject => ['\x7b']
  | .closeObject => ['\x7d']
  | .colon => [':']
  | .comma => [',']
  | .null => ['n', 'u', 'l', 'l']
  | .bool true => ['t', 'r', 'u', 'e']
  | .bool false => ['f', 'a', 'l', 's', 'e']
  | .int n => intText n
  | .float x => floatText layout x
  | .str s => stringText s
  | .brokenString _ | .brokenInteger _ | .unknown => []

/-! ## Reading -/

/-- The character that a one-letter escape stands for. -/
def unescape? : Char → Option Char
  | '"' => some '"'
  | '\\' => some '\\'
  | '/' => some '/'
  | 'b' => some '\x08'
  | 'f' => some '\x0c'
  | 'n' => some '\n'
  | 'r' => some '\r'
  | 't' => some '\t'
  | _ => none

/-- The first half of a pair of code units. -/
def isLeading (unit : Nat) : Bool := 0xD800 ≤ unit && unit ≤ 0xDBFF

/-- The second half of a pair of code units. -/
def isTrailing (unit : Nat) : Bool := 0xDC00 ≤ unit && unit ≤ 0xDFFF

/-- The character of a single code unit, and the text behind it. -/
def ofUnit (unit : Nat) (after : List Char) : Except Misreading (Char × List Char) :=
  if isLeading unit || isTrailing unit then .error ⟨.loneHalf, after⟩
  else .ok (Char.ofNat unit, after)

/-- The character of a pair of code units. -/
def ofPair (leading trailing : Nat) : Char :=
  Char.ofNat (0x10000 + (leading - 0xD800) * 0x400 + (trailing - 0xDC00))

/-- A character put in front of what a scan found. -/
def found (c : Char) : List Char × List Char → List Char × List Char
  | (content, rest) => (c :: content, rest)

/-- The character that a code unit and the text behind it begin with: the first
half of a pair takes the second half with it, if that stands behind it and does
not end the text. -/
def unitOf (unit : Nat) (after : List Char) : Except Misreading (Char × List Char) :=
  match isLeading unit, after with
  | true, '\\' :: 'u' :: e :: f :: g :: h :: beyond =>
    if beyond.isEmpty then ofUnit unit after
    else
      match Text.hexQuad? e f g h with
      | some next =>
        if isTrailing next then .ok (ofPair unit next, beyond) else ofUnit unit after
      | none => .error ⟨.badCodePoint, 'u' :: e :: f :: g :: h :: beyond⟩
  | _, _ => ofUnit unit after

/-- The character that an escape stands for, read from behind its backslash, and
the text behind it. A code unit must not end the text. -/
def escapeOf (start : List Char) : List Char → Except Misreading (Char × List Char)
  | [] => .error ⟨.unterminatedString, start⟩
  | 'u' :: a :: b :: c :: d :: after =>
    match after.isEmpty, Text.hexQuad? a b c d with
    | false, some unit => unitOf unit after
    | _, _ => .error ⟨.badCodePoint, 'u' :: a :: b :: c :: d :: after⟩
  | letter :: after =>
    if letter = 'u' then .error ⟨.badCodePoint, letter :: after⟩
    else
      match unescape? letter with
      | some c => .ok (c, after)
      | none => .error ⟨.badEscape, '\\' :: letter :: after⟩

theorem length_of_ofUnit {unit : Nat} {after rest : List Char} {c : Char}
    (h : ofUnit unit after = .ok (c, rest)) : rest.length ≤ after.length := by
  unfold ofUnit at h
  split at h <;> simp_all

theorem length_of_unitOf {unit : Nat} {after rest : List Char} {c : Char}
    (h : unitOf unit after = .ok (c, rest)) : rest.length ≤ after.length := by
  unfold unitOf at h
  split at h
  · split at h
    · exact length_of_ofUnit h
    · split at h
      · split at h
        · simp only [Except.ok.injEq, Prod.mk.injEq] at h
          simp only [← h.2, List.length_cons]
          omega
        · exact length_of_ofUnit h
      · simp at h
  · exact length_of_ofUnit h

theorem length_of_escapeOf {start cs rest : List Char} {c : Char}
    (h : escapeOf start cs = .ok (c, rest)) : rest.length < cs.length := by
  unfold escapeOf at h
  split at h
  · simp at h
  · split at h
    · have := length_of_unitOf h
      simp only [List.length_cons]
      omega
    · simp at h
  · split at h
    · simp at h
    · split at h <;> simp_all

/-- The content of a string and the text behind its closing mark. `start` is
the text from the opening mark on. -/
def scanString (start : List Char) : List Char → Except Misreading (List Char × List Char)
  | [] => .error ⟨.unterminatedString, start⟩
  | c :: text =>
    if c = '"' then .ok ([], text)
    else if c = '\\' then
      match _ : escapeOf start text with
      | .ok (c, rest) => (scanString start rest).map (found c)
      | .error misreading => .error misreading
    else if c.toNat < 0x20 then .error ⟨.controlCharacter, c :: text⟩
    else (scanString start text).map (found c)
termination_by cs => cs.length
decreasing_by
  · have := length_of_escapeOf (by assumption)
    simp only [List.length_cons]
    omega
  · simp

/-- The digits at the front of a text. -/
def digitsOf (cs : List Char) : List Char × List Char :=
  (cs.takeWhile Char.isDigit, cs.dropWhile Char.isDigit)

/-- The digits of the whole part: a zero alone, or digits that begin with none. -/
def wholeOf : List Char → List Char × List Char
  | '0' :: rest => (['0'], rest)
  | cs => digitsOf cs

/-- A point and at least one digit, or nothing. -/
def fractionOf (cs : List Char) : List Char × List Char :=
  match cs with
  | '.' :: rest =>
    let (digits, after) := digitsOf rest
    if digits.isEmpty then ([], cs) else (digits, after)
  | _ => ([], cs)

/-- An exponent mark, a sign if there is one and at least one digit, or nothing. -/
def exponentOf (cs : List Char) : Option Int × List Char :=
  match cs with
  | c :: rest =>
    if c = 'e' ∨ c = 'E' then
      let (negative, body) := Numeral.signed rest
      let (digits, after) := digitsOf body
      if digits.isEmpty then (none, cs)
      else
        let n : Int := Numeral.ofDigits digits
        (some (if negative then -n else n), after)
    else (none, cs)
  | [] => (none, cs)

/-- A minus sign, if there is one, and what follows it. -/
def minusOf : List Char → Bool × List Char
  | '-' :: rest => (true, rest)
  | cs => (false, cs)

/-- A number at the front of a text: an integer unless it has a fraction or an
exponent. An integer of more digits than the limit, if there is one, is broken. -/
def scanNumber (limit : Option Nat) (cs : List Char) : Option (Token × List Char) :=
  let (negative, body) := minusOf cs
  let (whole, rest) := wholeOf body
  if whole.isEmpty then none
  else
    let (fraction, rest) := fractionOf rest
    let (exponent, rest) := exponentOf rest
    if fraction.isEmpty && exponent.isNone then
      if limit.any (· < whole.length) then
        some (.brokenInteger ⟨.overlongInteger whole.length, cs⟩, [])
      else
        let n : Int := Numeral.ofDigits whole
        some (.int (if negative then -n else n), rest)
    else
      let digits := Numeral.ofDigits (whole ++ fraction)
      some (.float (.ofDecimal negative digits (exponent.getD 0 - fraction.length)), rest)

/-- The words that are tokens. -/
def words : List (String × Token) :=
  [("null", .null), ("true", .bool true), ("false", .bool false), ("NaN", .float .nan),
    ("Infinity", .float (.infinite false)), ("-Infinity", .float (.infinite true))]

/-- A word at the front of a text. -/
def scanWord (cs : List Char) : Option (Token × List Char) :=
  words.findSome? fun (word, token) =>
    if word.toList.isPrefixOf cs then some (token, cs.drop word.toList.length) else none

/-- The token at the front of a text, and the text behind it. -/
def scan (limit : Option Nat) : List Char → Token × List Char
  | [] => (.unknown, [])
  | '[' :: rest => (.openArray, rest)
  | ']' :: rest => (.closeArray, rest)
  | '\x7b' :: rest => (.openObject, rest)
  | '\x7d' :: rest => (.closeObject, rest)
  | ':' :: rest => (.colon, rest)
  | ',' :: rest => (.comma, rest)
  | '"' :: rest =>
    match scanString ('"' :: rest) rest with
    | .ok (content, rest) => (.str (String.ofList content), rest)
    | .error misreading => (.brokenString misreading, [])
  | cs =>
    match scanWord cs with
    | some found => found
    | none => (scanNumber limit cs).getD (.unknown, [])

/-! ### Every scan makes progress -/

theorem length_of_scanString {start cs content rest : List Char}
    (h : scanString start cs = .ok (content, rest)) : rest.length < cs.length := by
  fun_induction scanString start cs generalizing content rest with
  | case1 => simp at h
  | case2 text => simp_all
  | case3 text c' rest' hescape _ ih =>
    have := length_of_escapeOf hescape
    cases hscan : scanString start rest' with
    | error e => simp [hscan, Except.map] at h
    | ok found =>
      obtain ⟨more, after⟩ := found
      have := ih hscan
      simp only [hscan, Except.map, ChatClient.Json.found, Except.ok.injEq, Prod.mk.injEq] at h
      simp only [← h.2, List.length_cons]
      omega
  | case4 => simp at h
  | case5 => simp at h
  | case6 c text _ _ _ ih =>
    cases hscan : scanString start text with
    | error e => simp [hscan, Except.map] at h
    | ok found =>
      obtain ⟨more, after⟩ := found
      have := ih hscan
      simp only [hscan, Except.map, ChatClient.Json.found, Except.ok.injEq, Prod.mk.injEq] at h
      simp only [← h.2, List.length_cons]
      omega

theorem length_digitsOf (cs : List Char) :
    (digitsOf cs).1.length + (digitsOf cs).2.length = cs.length := by
  rw [← List.length_append]
  simp [digitsOf]

theorem length_wholeOf (cs : List Char) :
    (wholeOf cs).1.length + (wholeOf cs).2.length = cs.length := by
  unfold wholeOf
  split
  · simp; omega
  · exact length_digitsOf cs

theorem length_fractionOf (cs : List Char) : (fractionOf cs).2.length ≤ cs.length := by
  unfold fractionOf
  split
  · have := length_digitsOf ‹_›
    simp only
    split
    · simp
    · simp only [List.length_cons]
      omega
  · simp

theorem length_signed (cs : List Char) : (Numeral.signed cs).2.length ≤ cs.length := by
  unfold Numeral.signed
  split <;> simp

theorem length_exponentOf (cs : List Char) : (exponentOf cs).2.length ≤ cs.length := by
  unfold exponentOf
  split
  · rename_i c rest
    split
    · have hsigned := length_signed rest
      have hdigits := length_digitsOf (Numeral.signed rest).2
      simp only
      split
      · simp
      · simp only [List.length_cons]
        omega
    · simp
  · simp

theorem length_minusOf (cs : List Char) : (minusOf cs).2.length ≤ cs.length := by
  unfold minusOf
  split <;> simp

theorem length_of_scanNumber {limit : Option Nat} {cs rest : List Char} {token : Token}
    (h : scanNumber limit cs = some (token, rest)) : rest.length < cs.length := by
  have hbody := length_minusOf cs
  unfold scanNumber at h
  generalize minusOf cs = start at h hbody
  obtain ⟨negative, body⟩ := start
  have hwhole := length_wholeOf body
  have hfraction := length_fractionOf (wholeOf body).2
  have hexponent := length_exponentOf (fractionOf (wholeOf body).2).2
  simp only at h hbody
  split at h
  · simp at h
  · rename_i hne
    have hpos : 0 < (wholeOf body).1.length := by
      cases hw : (wholeOf body).1 with
      | nil => simp [hw] at hne
      | cons => simp
    split at h
    · split at h
      · simp only [Option.some.injEq, Prod.mk.injEq] at h
        simp only [← h.2, List.length_nil]
        omega
      · simp only [Option.some.injEq, Prod.mk.injEq] at h
        rw [← h.2]
        omega
    · simp only [Option.some.injEq, Prod.mk.injEq] at h
      rw [← h.2]
      omega

theorem length_of_scanWord {cs rest : List Char} {token : Token}
    (h : scanWord cs = some (token, rest)) : rest.length < cs.length := by
  simp only [scanWord, List.findSome?_eq_some_iff] at h
  obtain ⟨_, ⟨word, token'⟩, _, hwords, hfound, _⟩ := h
  split at hfound
  · rename_i hprefix
    have hmem : (word, token') ∈ words := by rw [hwords]; simp
    have hword : 0 < word.toList.length := by
      simp only [words, List.mem_cons, Prod.mk.injEq, List.not_mem_nil, or_false] at hmem
      rcases hmem with h | h | h | h | h | h <;> rw [h.1] <;> decide
    have hlength := (List.isPrefixOf_iff_prefix.mp hprefix).length_le
    simp only [Option.some.injEq, Prod.mk.injEq] at hfound hlength
    rw [← hfound.2, List.length_drop]
    omega
  · simp at hfound

theorem length_scan (limit : Option Nat) (c : Char) (cs : List Char) :
    (scan limit (c :: cs)).2.length ≤ cs.length := by
  unfold scan
  split
  all_goals (try (simp_all; done))
  · rename_i rest heq
    obtain ⟨_, rfl⟩ := List.cons.inj heq
    split
    · rename_i content after hscan
      exact Nat.le_of_lt (length_of_scanString hscan)
    · simp
  · split
    · rename_i found hfound
      obtain ⟨token, rest⟩ := found
      have := length_of_scanWord hfound
      simp only [List.length_cons] at this ⊢
      omega
    · cases hnumber : scanNumber limit (c :: cs) with
      | none => simp
      | some found =>
        obtain ⟨token, rest⟩ := found
        have := length_of_scanNumber hnumber
        simp only [List.length_cons] at this
        simp only [Option.getD_some]
        omega

/-! ### All tokens -/

/-- A token, and the text from its place on. -/
structure Placed where
  token : Token
  place : List Char
  deriving DecidableEq, Repr

/-- The tokens of a text, without the gaps between them. -/
def tokens (limit : Option Nat) (cs : List Char) : List Placed :=
  match _ : cs.dropWhile isGap with
  | [] => []
  | c :: rest => ⟨(scan limit (c :: rest)).1, c :: rest⟩ :: tokens limit (scan limit (c :: rest)).2
termination_by cs.length
decreasing_by
  have := length_scan limit c rest
  have hle : (cs.dropWhile isGap).length ≤ cs.length := (List.dropWhile_sublist _).length_le
  rw [‹cs.dropWhile isGap = c :: rest›, List.length_cons] at hle
  omega

end ChatClient.Json
