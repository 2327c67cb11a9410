import ChatClient.Json.Token
import Mathlib.Data.List.Chain
import Mathlib.Data.List.TakeWhile

/-!
# Tokens are read back

A token that is written is read back from the front of a text, whatever follows
it. Only a number must not be followed by something that continues it. Floats are
left out here, as their texts are those of their decimals.
-/

namespace ChatClient

namespace Text

/-- A hexadecimal digit has the value that it is written for. -/
theorem hexValue?_digitChar : ∀ n < 16, hexValue? (Nat.digitChar n) = some n := by decide

/-- Four hexadecimal digits have the value that they are written for. -/
theorem hexQuad?_hexDigits {n : Nat} (hn : n < 0x10000) :
    ∃ a b c d, hexDigits 4 n = [a, b, c, d] ∧ hexQuad? a b c d = some n := by
  refine ⟨_, _, _, _, rfl, ?_⟩
  have hdigit (k : Nat) : hexValue? (Nat.digitChar (k % 16)) = some (k % 16) :=
    hexValue?_digitChar _ (Nat.mod_lt _ (by decide))
  simp only [hexQuad?, hdigit, Option.bind_eq_bind, Option.bind_some, Option.pure_def,
    Option.some.injEq]
  omega

end Text

namespace Json

/-! ## Strings -/

/-- The escape of a control character stands for it, unless it ends the text. -/
theorem escapeOf_hexDigits (start : List Char) {c : Char} (hc : c.toNat < 0x20)
    {rest : List Char} (hrest : rest ≠ []) :
    escapeOf start ('u' :: (Text.hexDigits 4 c.toNat ++ rest)) = .ok (c, rest) := by
  obtain ⟨e, f, g, h, hdigits, hquad⟩ := Text.hexQuad?_hexDigits (n := c.toNat) (by omega)
  have hempty : rest.isEmpty = false := by simpa using hrest
  have hleading : isLeading c.toNat = false := by simp [isLeading]; omega
  have htrailing : isTrailing c.toNat = false := by simp [isTrailing]; omega
  rw [hdigits]
  simp only [List.cons_append, List.nil_append, escapeOf, hempty, hquad, unitOf, hleading, ofUnit,
    htrailing]
  simp [Char.ofNat_toNat]

/-- An escape of one letter stands for its character. -/
theorem escapeOf_letter (start : List Char) {letter c : Char} (hletter : letter ≠ 'u')
    (hc : unescape? letter = some c) (rest : List Char) :
    escapeOf start (letter :: rest) = .ok (c, rest) := by
  rw [escapeOf]
  · simp [hletter, hc]
  · intro _ _ _ _ _ hu _
    exact hletter hu

/-- Behind a backslash an escape is read. -/
theorem scanString_backslash {start text rest : List Char} {c : Char}
    (hescape : escapeOf start text = .ok (c, rest)) :
    scanString start ('\\' :: text) = (scanString start rest).map (found c) := by
  rw [scanString, if_neg (by decide), if_pos rfl]
  split
  · rename_i c' rest' h
    rw [hescape] at h
    cases h
    rfl
  · rename_i h
    rw [hescape] at h
    cases h

/-- A character is read back from its escape, or from itself where it needs none. -/
theorem scanString_escapeChar (start : List Char) (c : Char) {rest : List Char}
    (hrest : rest ≠ []) :
    scanString start (escapeChar c ++ rest) = (scanString start rest).map (found c) := by
  have hletter {letter : Char} (hne : letter ≠ 'u') (hc : unescape? letter = some c) :
      scanString start (['\\', letter] ++ rest) = (scanString start rest).map (found c) :=
    scanString_backslash (escapeOf_letter start hne hc rest)
  unfold escapeChar
  split_ifs with hquote hslash hback hform hline hreturn htab hcontrol
  · exact hletter (by decide) (by rw [hquote]; rfl)
  · exact hletter (by decide) (by rw [hslash]; rfl)
  · exact hletter (by decide) (by rw [hback]; rfl)
  · exact hletter (by decide) (by rw [hform]; rfl)
  · exact hletter (by decide) (by rw [hline]; rfl)
  · exact hletter (by decide) (by rw [hreturn]; rfl)
  · exact hletter (by decide) (by rw [htab]; rfl)
  · exact scanString_backslash (escapeOf_hexDigits start hcontrol hrest)
  · rw [List.singleton_append, scanString, if_neg hquote, if_neg hslash, if_neg hcontrol]

/-- The content of a string is read back from its escapes. -/
theorem scanString_flatMap (start cs rest : List Char) :
    scanString start (cs.flatMap escapeChar ++ '"' :: rest) = .ok (cs, rest) := by
  induction cs with
  | nil => rw [List.flatMap_nil, List.nil_append, scanString, if_pos rfl]
  | cons c cs ih =>
    rw [List.flatMap_cons, List.append_assoc, scanString_escapeChar start c (by simp), ih]
    rfl

/-! ## Integers -/

/-- The text does not continue a number. -/
def EndsNumber (rest : List Char) : Prop :=
  ∀ c ∈ rest.head?, c.isDigit = false ∧ c ≠ '.' ∧ c ≠ 'e' ∧ c ≠ 'E'

/-- Digits are read up to the end of the number. -/
theorem digitsOf_append {digits rest : List Char} (hdigits : ∀ c ∈ digits, c.isDigit = true)
    (hrest : EndsNumber rest) : digitsOf (digits ++ rest) = (digits, rest) := by
  have hstop : rest.takeWhile Char.isDigit = [] ∧ rest.dropWhile Char.isDigit = rest := by
    cases rest with
    | nil => simp
    | cons c rest => simp [(hrest c rfl).1]
  rw [digitsOf, List.takeWhile_append_of_pos hdigits, List.dropWhile_append_of_pos hdigits,
    hstop.1, hstop.2, List.append_nil]

/-- A number but zero is not written with a zero in front. -/
theorem head?_toDigits_ne {n : Nat} (hn : n ≠ 0) : (Nat.toDigits 10 n).head? ≠ some '0' := by
  induction n using Nat.strongRecOn with
  | ind n ih =>
    by_cases hlt : n < 10
    · have hdigit : ∀ d < 10, d ≠ 0 → Nat.digitChar d ≠ '0' := by decide
      rw [Nat.toDigits_of_lt_base hlt]
      simpa using hdigit n hlt hn
    · rw [Nat.toDigits_of_base_le (by decide) (by omega),
        List.head?_append_of_ne_nil _ Nat.toDigits_ne_nil]
      exact ih (n / 10) (by omega) (by omega)

/-- The digits of a number are its whole part. -/
theorem wholeOf_toDigits (n : Nat) {rest : List Char} (hrest : EndsNumber rest) :
    wholeOf (Nat.toDigits 10 n ++ rest) = (Nat.toDigits 10 n, rest) := by
  by_cases hn : n = 0
  · subst hn
    rfl
  · have hdigits : ∀ c ∈ Nat.toDigits 10 n, c.isDigit = true :=
      fun c hc => Nat.isDigit_of_mem_toDigits (by decide) (by decide) hc
    have hhead := head?_toDigits_ne hn
    rw [← digitsOf_append hdigits hrest]
    cases htext : Nat.toDigits 10 n with
    | nil => exact absurd htext Nat.toDigits_ne_nil
    | cons c cs =>
      rw [htext] at hhead
      have hzero : c ≠ '0' := by simpa using hhead
      rw [List.cons_append, wholeOf]
      rintro rest' ⟨⟩
      exact hzero rfl

/-- The digits of a number begin with a digit. -/
theorem exists_toDigits_eq_cons (n : Nat) :
    ∃ c cs, Nat.toDigits 10 n = c :: cs ∧ c.isDigit = true := by
  cases htext : Nat.toDigits 10 n with
  | nil => exact absurd htext Nat.toDigits_ne_nil
  | cons c cs =>
    have hc : c ∈ Nat.toDigits 10 n := by rw [htext]; simp
    exact ⟨c, cs, rfl, Nat.isDigit_of_mem_toDigits (by decide) (by decide) hc⟩

/-- Nothing that ends a number is a fraction. -/
theorem fractionOf_of_endsNumber {rest : List Char} (hrest : EndsNumber rest) :
    fractionOf rest = ([], rest) := by
  cases rest with
  | nil => rfl
  | cons c rest =>
    rw [fractionOf]
    rintro rest' ⟨⟩
    exact (hrest '.' rfl).2.1 rfl

/-- Nothing that ends a number is an exponent. -/
theorem exponentOf_of_endsNumber {rest : List Char} (hrest : EndsNumber rest) :
    exponentOf rest = (none, rest) := by
  cases rest with
  | nil => rfl
  | cons c rest =>
    obtain ⟨_, _, he, hE⟩ := hrest c rfl
    simp only [exponentOf, he, hE, or_self, if_false]

/-- What is read from the text of an integer with a rest behind it: the integer, or a broken
one where the digits are too many. -/
def integerRead (limit : Option Nat) (n : Int) (rest : List Char) : Token × List Char :=
  if limit.any (· < digitCount n) then
    (.brokenInteger ⟨.overlongInteger (digitCount n), intText n ++ rest⟩, [])
  else (.int n, rest)

/-- Behind its sign, an integer is read from its digits. -/
theorem scanNumber_of_sign {limit : Option Nat} {cs rest : List Char} {negative : Bool} {n : Nat}
    (hsign : minusOf cs = (negative, Nat.toDigits 10 n ++ rest)) (hrest : EndsNumber rest) :
    scanNumber limit cs =
      if limit.any (· < (Nat.toDigits 10 n).length) then
        some (.brokenInteger ⟨.overlongInteger (Nat.toDigits 10 n).length, cs⟩, [])
      else some (.int (if negative then -n else n), rest) := by
  have hne : (Nat.toDigits 10 n).isEmpty = false := by simp
  have hvalue : Numeral.ofDigits (Nat.toDigits 10 n) = n :=
    Nat.ofDigitChars_toDigits (by decide) (by decide)
  unfold scanNumber
  rw [hsign]
  simp only [wholeOf_toDigits n hrest, hne, fractionOf_of_endsNumber hrest,
    exponentOf_of_endsNumber hrest, hvalue]
  simp

/-- An integer is read from its text. -/
theorem scanNumber_intText (limit : Option Nat) (n : Int) {rest : List Char}
    (hrest : EndsNumber rest) :
    scanNumber limit (intText n ++ rest) = some (integerRead limit n rest) := by
  rw [integerRead, apply_ite some, digitCount]
  by_cases hneg : n < 0
  · have htext : intText n ++ rest = '-' :: (Nat.toDigits 10 n.natAbs ++ rest) := by
      simp [intText, hneg]
    have hn : (if true then -(n.natAbs : Int) else n.natAbs) = n := by
      rw [if_pos rfl]
      omega
    rw [htext, scanNumber_of_sign rfl hrest, hn]
  · obtain ⟨c, cs, hdigits, hdigit⟩ := exists_toDigits_eq_cons n.natAbs
    have htext : intText n ++ rest = c :: (cs ++ rest) := by
      simp [intText, hneg, hdigits]
    have hsign : minusOf (c :: (cs ++ rest)) = (false, Nat.toDigits 10 n.natAbs ++ rest) := by
      rw [hdigits, List.cons_append, minusOf]
      rintro rest' ⟨⟩
      exact absurd hdigit (by decide)
    have hn : (if false then -(n.natAbs : Int) else n.natAbs) = n := by
      rw [if_neg (by decide)]
      omega
    rw [htext, scanNumber_of_sign hsign hrest, hn]

/-! ## Any token -/

/-- There is no digit among the first letters of a word. -/
theorem scanWord_of_isDigit {cs : List Char} {c : Char} {k : Nat} (hk : k < 3)
    (hc : cs[k]? = some c) (hdigit : c.isDigit = true) : scanWord cs = none := by
  have hletters : ∀ entry ∈ words, ∀ k < 3,
      entry.1.toList[k]?.map Char.isDigit = some false := by decide
  rw [scanWord, List.findSome?_eq_none_iff]
  intro entry hentry
  refine if_neg fun hprefix => ?_
  obtain ⟨rest, rfl⟩ := List.isPrefixOf_iff_prefix.mp hprefix
  have hletter := hletters entry hentry k hk
  have hlength : k < entry.1.toList.length := by
    by_contra hlong
    rw [List.getElem?_eq_none (by omega)] at hletter
    simp at hletter
  rw [List.getElem?_append_left hlength] at hc
  rw [hc] at hletter
  simp [hdigit] at hletter

/-- What begins with a sign or a digit, and is no word, is read as a number. -/
theorem scan_eq_scanNumber (limit : Option Nat) {c : Char} (hstart : c = '-' ∨ c.isDigit = true)
    {cs : List Char} (hword : scanWord (c :: cs) = none) :
    scan limit (c :: cs) = (scanNumber limit (c :: cs)).getD (.unknown, []) := by
  have hpunctuation : c ∉ ['[', ']', '\x7b', '\x7d', ':', ',', '"'] := by
    intro hmem
    rcases hstart with rfl | hdigit
    · exact absurd hmem (by decide)
    · have hnone : ['[', ']', '\x7b', '\x7d', ':', ',', '"'].all (!·.isDigit) = true := by decide
      simpa [hdigit] using List.all_eq_true.mp hnone c hmem
  rw [scan, hword]
  · intro heq
    cases heq
  all_goals
    rintro rest ⟨⟩
    exact hpunctuation (by decide)

/-- An integer is read from the front of a text. -/
theorem scan_intText (limit : Option Nat) (n : Int) {rest : List Char}
    (hrest : EndsNumber rest) : scan limit (intText n ++ rest) = integerRead limit n rest := by
  have hnumber := scanNumber_intText limit n hrest
  obtain ⟨c, cs, hdigits, hdigit⟩ := exists_toDigits_eq_cons n.natAbs
  by_cases hneg : n < 0
  · have htext : intText n ++ rest = '-' :: c :: (cs ++ rest) := by
      simp [intText, hneg, hdigits]
    have hword : scanWord ('-' :: c :: (cs ++ rest)) = none :=
      scanWord_of_isDigit (k := 1) (by decide) rfl hdigit
    rw [htext] at hnumber ⊢
    rw [scan_eq_scanNumber limit (.inl rfl) hword, hnumber, Option.getD_some]
  · have htext : intText n ++ rest = c :: (cs ++ rest) := by
      simp [intText, hneg, hdigits]
    have hword : scanWord (c :: (cs ++ rest)) = none :=
      scanWord_of_isDigit (k := 0) (by decide) rfl hdigit
    rw [htext] at hnumber ⊢
    rw [scan_eq_scanNumber limit (.inr hdigit) hword, hnumber, Option.getD_some]

/-- A string is read back from the front of a text. -/
theorem scan_stringText (limit : Option Nat) (s : String) (rest : List Char) :
    scan limit (stringText s ++ rest) = (.str s, rest) := by
  have htext : stringText s ++ rest = '"' :: (s.toList.flatMap escapeChar ++ '"' :: rest) := by
    simp [stringText]
  rw [htext, scan, scanString_flatMap]
  simp

namespace Token

/-- The token is read back from its text: it is no float, and no integer of more digits
than are read. -/
def isReadable (limit : Option Nat) : Token → Bool
  | .int n => !limit.any (· < (Nat.toDigits 10 n.natAbs).length)
  | .float _ | .brokenString _ | .brokenInteger _ | .unknown => false
  | .openArray | .closeArray | .openObject | .closeObject | .colon | .comma | .null | .bool _
  | .str _ => true

/-- The token is a number, which must not be followed by what continues it. -/
def isNumber : Token → Bool
  | .int _ | .float _ => true
  | .openArray | .closeArray | .openObject | .closeObject | .colon | .comma | .null | .bool _
  | .str _ | .brokenString _ | .brokenInteger _ | .unknown => false

end Token

/-- A token is read back from the front of a text. -/
theorem scan_spell {limit : Option Nat} {token : Token} (hreadable : token.isReadable limit = true)
    (layout : Layout) {rest : List Char} (hrest : token.isNumber = true → EndsNumber rest) :
    scan limit (token.spell layout ++ rest) = (token, rest) := by
  cases token with
  | openArray | closeArray | openObject | closeObject | colon | comma | null => rfl
  | bool value => cases value <;> rfl
  | int n =>
    have hshort : limit.any (· < digitCount n) = false := by
      rw [digitCount]
      simpa [Token.isReadable] using hreadable
    rw [Token.spell, scan_intText limit n (hrest rfl), integerRead, hshort]
    rfl
  | str s => exact scan_stringText limit s rest
  | float _ | brokenString _ | brokenInteger _ | unknown => cases hreadable

/-- The text of a token begins with no blank and with no mark of a byte order. -/
theorem exists_spell_eq_cons {limit : Option Nat} {token : Token}
    (hreadable : token.isReadable limit = true) (layout : Layout) :
    ∃ c cs, token.spell layout = c :: cs ∧ isGap c = false ∧ c ≠ '\uFEFF' := by
  cases token with
  | openArray | closeArray | openObject | closeObject | colon | comma | null =>
    exact ⟨_, _, rfl, by decide, by decide⟩
  | bool value => cases value <;> exact ⟨_, _, rfl, by decide, by decide⟩
  | int n =>
    obtain ⟨c, cs, hdigits, hdigit⟩ := exists_toDigits_eq_cons n.natAbs
    by_cases hneg : n < 0
    · exact ⟨'-', c :: cs, by simp [Token.spell, intText, hneg, hdigits], by decide, by decide⟩
    · refine ⟨c, cs, by simp [Token.spell, intText, hneg, hdigits], ?_, ?_⟩
      · by_contra hgap
        simp only [isGap, Bool.not_eq_false, Bool.or_eq_true, decide_eq_true_eq] at hgap
        rcases hgap with ((rfl | rfl) | rfl) | rfl <;> exact absurd hdigit (by decide)
      · rintro rfl
        exact absurd hdigit (by decide)
  | str s => exact ⟨_, _, rfl, by decide, by decide⟩
  | float _ | brokenString _ | brokenInteger _ | unknown => cases hreadable

/-- A token that is no number ends the number before it. -/
theorem endsNumber_spell_append {limit : Option Nat} {token : Token}
    (hreadable : token.isReadable limit = true) (hnumber : token.isNumber = false)
    (layout : Layout) (rest : List Char) : EndsNumber (token.spell layout ++ rest) := by
  cases token with
  | openArray | closeArray | openObject | closeObject | colon | comma | null | str =>
    rintro c ⟨⟩
    decide
  | bool value => cases value <;> rintro c ⟨⟩ <;> decide
  | int _ | float _ => cases hnumber
  | brokenString _ | brokenInteger _ | unknown => cases hreadable

/-- A gap ends a number, and what follows it may end one too. -/
theorem endsNumber_gap_append {gap rest : List Char} (hgap : ∀ c ∈ gap, isGap c = true)
    (hrest : EndsNumber rest) : EndsNumber (gap ++ rest) := by
  cases gap with
  | nil => exact hrest
  | cons c gap =>
    have hblank := hgap c (by simp)
    simp only [isGap, Bool.or_eq_true, decide_eq_true_eq] at hblank
    rintro c' ⟨⟩
    rcases hblank with ((rfl | rfl) | rfl) | rfl <;> decide

/-- A gap at the end of a text ends a number. -/
theorem endsNumber_gap {gap : List Char} (hgap : ∀ c ∈ gap, isGap c = true) :
    EndsNumber gap := by
  have hnothing : EndsNumber [] := by rintro c ⟨⟩
  simpa using endsNumber_gap_append hgap hnothing

/-! ## All tokens -/

/-- Behind a gap, the first token is the one that is read from the text there. -/
theorem tokens_gap_append (limit : Option Nat) {gap : List Char}
    (hgap : ∀ c ∈ gap, isGap c = true) {c : Char} (hc : isGap c = false) (cs : List Char) :
    tokens limit (gap ++ c :: cs) =
      ⟨(scan limit (c :: cs)).1, c :: cs⟩ :: tokens limit (scan limit (c :: cs)).2 := by
  have hdrop : (gap ++ c :: cs).dropWhile isGap = c :: cs := by
    rw [List.dropWhile_append_of_pos hgap, List.dropWhile_cons_of_neg (by simp [hc])]
  rw [tokens]
  split
  · rename_i heq
    rw [hdrop] at heq
    cases heq
  · rename_i heq
    rw [hdrop] at heq
    cases heq
    rfl

/-- Behind a gap, a token is the first one of a text. -/
theorem tokens_gap_spell {limit : Option Nat} {token : Token}
    (hreadable : token.isReadable limit = true) (layout : Layout) {gap rest : List Char}
    (hgap : ∀ c ∈ gap, isGap c = true) (hrest : token.isNumber = true → EndsNumber rest) :
    tokens limit (gap ++ (token.spell layout ++ rest)) =
      ⟨token, token.spell layout ++ rest⟩ :: tokens limit rest := by
  obtain ⟨c, cs, hspell, hblank, _⟩ := exists_spell_eq_cons hreadable layout
  have hscan := scan_spell hreadable layout hrest
  rw [hspell, List.cons_append] at hscan ⊢
  rw [tokens_gap_append limit hgap hblank, hscan]

/-- There is no token in a gap. -/
theorem tokens_gap (limit : Option Nat) {gap : List Char} (hgap : ∀ c ∈ gap, isGap c = true) :
    tokens limit gap = [] := by
  have hdrop : gap.dropWhile isGap = [] := List.dropWhile_eq_nil_iff.mpr hgap
  rw [tokens]
  split
  · rfl
  · rename_i heq
    rw [hdrop] at heq
    cases heq

/-- The text of tokens, each behind a gap. -/
def spaced (layout : Layout) (parts : List (List Char × Token)) : List Char :=
  parts.flatMap fun part => part.1 ++ part.2.spell layout

/-- Neither tokens nor gaps begin with a mark of a byte order. -/
theorem head?_spaced_append_ne {limit : Option Nat} (layout : Layout)
    {parts : List (List Char × Token)} {tail : List Char}
    (hgaps : ∀ part ∈ parts, ∀ c ∈ part.1, isGap c = true) (htail : ∀ c ∈ tail, isGap c = true)
    (hreadable : ∀ part ∈ parts, part.2.isReadable limit = true) :
    (spaced layout parts ++ tail).head? ≠ some '\uFEFF' := by
  intro hmark
  cases parts with
  | nil =>
    have hblank := htail '\uFEFF' (List.mem_of_mem_head? (by simpa [spaced] using hmark))
    exact absurd hblank (by decide)
  | cons part parts =>
    obtain ⟨gap, token⟩ := part
    obtain ⟨c, cs, hspell, _, hc⟩ := exists_spell_eq_cons (hreadable (gap, token) (by simp)) layout
    cases gap with
    | nil => exact hc (by simpa [spaced, hspell] using hmark)
    | cons blank gap =>
      have hblank := hgaps (blank :: gap, token) (by simp) blank (by simp)
      obtain rfl : blank = '\uFEFF' := by simpa [spaced] using hmark
      exact absurd hblank (by decide)

/-- No number directly follows another. -/
def Apart (tokens : List Token) : Prop :=
  tokens.IsChain fun first second => first.isNumber = true → second.isNumber = false

/-- Tokens that begin with no number end the number before them. -/
theorem endsNumber_spaced_append {limit : Option Nat} (layout : Layout)
    {parts : List (List Char × Token)} {rest : List Char}
    (hgaps : ∀ part ∈ parts, ∀ c ∈ part.1, isGap c = true)
    (hreadable : ∀ part ∈ parts, part.2.isReadable limit = true)
    (hhead : ∀ token ∈ (parts.map Prod.snd).head?, token.isNumber = false)
    (hrest : parts = [] → EndsNumber rest) : EndsNumber (spaced layout parts ++ rest) := by
  cases parts with
  | nil => exact hrest rfl
  | cons part parts =>
    have hspell := endsNumber_spell_append (hreadable part (by simp)) (hhead part.2 (by simp))
      layout (spaced layout parts ++ rest)
    simpa [spaced] using endsNumber_gap_append (hgaps part (by simp)) hspell

/-- The tokens of a text are read back up to a rest, whatever gaps there are between them. -/
theorem map_token_tokens_append {limit : Option Nat} (layout : Layout)
    {parts : List (List Char × Token)} {rest : List Char}
    (hgaps : ∀ part ∈ parts, ∀ c ∈ part.1, isGap c = true)
    (hreadable : ∀ part ∈ parts, part.2.isReadable limit = true)
    (hapart : Apart (parts.map Prod.snd))
    (hrest : ∀ token ∈ (parts.map Prod.snd).getLast?, token.isNumber = true → EndsNumber rest) :
    (tokens limit (spaced layout parts ++ rest)).map Placed.token =
      parts.map Prod.snd ++ (tokens limit rest).map Placed.token := by
  induction parts with
  | nil => simp [spaced]
  | cons part parts ih =>
    obtain ⟨gap, token⟩ := part
    have htext : spaced layout ((gap, token) :: parts) ++ rest =
        gap ++ (token.spell layout ++ (spaced layout parts ++ rest)) := by
      simp [spaced]
    have hgap : ∀ c ∈ gap, isGap c = true := hgaps (gap, token) (by simp)
    have hends : token.isNumber = true → EndsNumber (spaced layout parts ++ rest) := by
      intro hnumber
      refine endsNumber_spaced_append layout (fun p hp => hgaps p (by simp [hp]))
        (fun p hp => hreadable p (by simp [hp])) (fun next hnext => ?_) (fun hnil => ?_)
      · exact (List.isChain_cons.mp hapart).1 next hnext hnumber
      · exact hrest token (by simp [hnil]) hnumber
    have hlast : ∀ last ∈ (parts.map Prod.snd).getLast?, last.isNumber = true →
        EndsNumber rest := by
      intro last hlast
      apply hrest last
      rw [List.map_cons, List.getLast?_cons, Option.mem_def.mp hlast]
      rfl
    have hparts := ih (fun p hp => hgaps p (by simp [hp])) (fun p hp => hreadable p (by simp [hp]))
      (List.IsChain.tail hapart) hlast
    rw [htext, tokens_gap_spell (hreadable (gap, token) (by simp)) layout hgap hends,
      List.map_cons, List.map_cons, hparts, List.cons_append]

/-- All tokens of a text are read back, whatever gaps there are between them. -/
theorem map_token_tokens_spaced {limit : Option Nat} (layout : Layout)
    {parts : List (List Char × Token)} {tail : List Char}
    (hgaps : ∀ part ∈ parts, ∀ c ∈ part.1, isGap c = true)
    (htail : ∀ c ∈ tail, isGap c = true)
    (hreadable : ∀ part ∈ parts, part.2.isReadable limit = true)
    (hapart : Apart (parts.map Prod.snd)) :
    (tokens limit (spaced layout parts ++ tail)).map Placed.token = parts.map Prod.snd := by
  rw [map_token_tokens_append layout hgaps hreadable hapart fun _ _ _ => endsNumber_gap htail,
    tokens_gap limit htail, List.map_nil, List.append_nil]

end Json

end ChatClient
