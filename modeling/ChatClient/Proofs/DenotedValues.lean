import ChatClient.Proofs.ReaderLimits
import Mathlib.Algebra.Group.Nat.Defs

/-!
# What texts denote

A JSON value is what some JSON text denotes. A text does not denote every value that a
program can build: an integer of more digits than are read is refused, so in what is read
all integers are short. Whatever is read can therefore be shown in a message.

The reader holds parts of the value between two tokens. That they can be shown is the
invariant that one token keeps, and so do all tokens of a text.
-/

namespace ChatClient.Json

/-- Some text denotes the value. -/
def IsDenoted (value : Json) : Prop := ∃ text, read text = .ok value

/-! ## Parts of values that can be shown -/

/-- Further items can be shown exactly if each of them can. -/
theorem all_isShort_spellingItems (items : List Json) :
    (spellingItems items).all Token.isShort = items.all isShowable := by
  induction items with
  | nil => rfl
  | cons x items ih =>
    rw [spellingItems, List.all_cons, List.all_append, ih, List.all_cons, isShowable]
    rfl

/-- Further members can be shown exactly if the value of each of them can. -/
theorem all_isShort_spellingMembers (members : Members) :
    (spellingMembers members).all Token.isShort =
      members.all fun member => member.2.isShowable := by
  induction members with
  | nil => rfl
  | cons member members ih =>
    obtain ⟨name, x⟩ := member
    rw [spellingMembers, List.all_cons, List.all_cons, List.all_cons, List.all_append, ih,
      List.all_cons, isShowable]
    rfl

/-- An array can be shown exactly if its items can. -/
theorem isShowable_arr (items : List Json) : (arr items).isShowable = items.all isShowable := by
  cases items with
  | nil => rfl
  | cons x items =>
    rw [isShowable, spelling, List.all_cons, List.all_append, List.all_append,
      all_isShort_spellingItems, List.all_cons]
    simp [Token.isShort, isShowable]

/-- An object can be shown exactly if the values of its members can. -/
theorem isShowable_obj (members : Members) :
    (obj members).isShowable = members.all fun member => member.2.isShowable := by
  cases members with
  | nil => rfl
  | cons member members =>
    obtain ⟨name, x⟩ := member
    rw [isShowable, spelling, List.all_cons, List.all_cons, List.all_cons, List.all_append,
      List.all_append, all_isShort_spellingMembers, List.all_cons]
    simp [Token.isShort, isShowable]

/-- What can be shown has parts that can. -/
theorem isShowable_of_mem_partsAt {value part : Json} (hvalue : value.isShowable = true)
    (step : PathStep) (hpart : part ∈ partsAt step value) :
    part.isShowable = true := by
  obtain ⟨_, _, rfl, hmember⟩ | ⟨_, rfl, hitem⟩ := exists_of_mem_partsAt hpart
  · rw [isShowable_obj, List.all_eq_true] at hvalue
    exact hvalue _ hmember
  · rw [isShowable_arr, List.all_eq_true] at hvalue
    exact hvalue part hitem

/-! ## Tokens -/

/-- Digits denote a number below the power of ten with their number. -/
theorem ofDigits_lt {digits : List Char} (hdigits : ∀ c ∈ digits, c.isDigit = true) :
    Numeral.ofDigits digits < 10 ^ digits.length := by
  suffices hfrom : ∀ start, Nat.ofDigitChars 10 digits start < (start + 1) * 10 ^ digits.length by
    simpa [Numeral.ofDigits] using hfrom 0
  induction digits with
  | nil => simp
  | cons c digits ih =>
    intro start
    have hc : c.toNat - '0'.toNat < 10 := by
      have hdigit := hdigits c (by simp)
      simp only [Char.isDigit, Bool.and_eq_true, decide_eq_true_eq,
        UInt32.le_iff_toNat_le] at hdigit
      have hnine : c.toNat ≤ 57 := hdigit.2
      have hzero : '0'.toNat = 48 := rfl
      omega
    have hrest := ih (fun d hd => hdigits d (by simp [hd])) (10 * start + (c.toNat - '0'.toNat))
    rw [Nat.ofDigitChars_cons, List.length_cons, Nat.pow_succ']
    refine hrest.trans_le ?_
    rw [← Nat.mul_assoc]
    exact Nat.mul_le_mul_right _ (by omega)

/-- An integer has no more digits than it is read from. -/
theorem digitCount_ofDigits_le {digits : List Char} (hne : digits ≠ [])
    (hdigits : ∀ c ∈ digits, c.isDigit = true) (negative : Bool) :
    digitCount (if negative then -(Numeral.ofDigits digits : Int) else Numeral.ofDigits digits) ≤
      digits.length := by
  have habs : (if negative then -(Numeral.ofDigits digits : Int)
      else Numeral.ofDigits digits).natAbs = Numeral.ofDigits digits := by
    cases negative <;> simp
  rw [digitCount, habs,
    Nat.length_toDigits_le_iff (by decide) (List.length_pos_of_ne_nil hne)]
  exact ofDigits_lt hdigits

/-- The whole part of a number consists of digits. -/
theorem isDigit_of_mem_wholeOf {cs : List Char} {c : Char} (hc : c ∈ (wholeOf cs).1) :
    c.isDigit = true := by
  unfold wholeOf at hc
  split at hc
  · obtain rfl := List.mem_singleton.mp hc
    decide
  · exact List.mem_takeWhile_imp hc

/-- An integer that is read within the limit is short. -/
theorem isShort_scanNumber {cs rest : List Char} {token : Token}
    (hscan : scanNumber (some Numeral.longest) cs = some (token, rest)) :
    token.isShort = true := by
  unfold scanNumber at hscan
  simp only at hscan
  split at hscan
  · cases hscan
  · rename_i hwhole
    split at hscan
    · split at hscan
      · cases hscan
        rfl
      · rename_i hlong
        cases hscan
        have hlength : (wholeOf (minusOf cs).2).1.length ≤ Numeral.longest := by
          simpa using hlong
        have hne : (wholeOf (minusOf cs).2).1 ≠ [] := by simpa using hwhole
        have hcount := digitCount_ofDigits_le hne (fun c => isDigit_of_mem_wholeOf)
          (minusOf cs).1
        exact decide_eq_true (hcount.trans hlength)
    · cases hscan
      rfl

/-- A token that is read within the limit is short. -/
theorem isShort_scan (cs : List Char) :
    (scan (some Numeral.longest) cs).1.isShort = true := by
  unfold scan
  split
  all_goals (try rfl)
  · split <;> rfl
  · split
    · rename_i found hfound
      obtain ⟨⟨word, token⟩, hmem, hword⟩ := List.exists_of_findSome?_eq_some hfound
      have hwords : ∀ entry ∈ words, entry.2.isShort = true := by decide
      obtain ⟨_, hfound⟩ := Option.ite_none_right_eq_some.mp hword
      cases hfound
      exact hwords _ hmem
    · cases hnumber : scanNumber (some Numeral.longest) _ with
      | none => rfl
      | some found => exact isShort_scanNumber hnumber

/-- All tokens that are read within the limit are short. -/
theorem isShort_of_mem_tokens {cs : List Char} {placed : Placed}
    (hplaced : placed ∈ tokens (some Numeral.longest) cs) : placed.token.isShort = true := by
  fun_induction tokens (some Numeral.longest) cs with
  | case1 => cases hplaced
  | case2 cs c rest hrest ih =>
    rcases List.mem_cons.mp hplaced with rfl | hlater
    · exact isShort_scan _
    · exact ih hlater

/-! ## Readers -/

namespace Reader

/-- The values that a container holds. -/
def heldIn : Container → List Json
  | .array items => items
  | .object members _ => members.map Prod.snd

/-- The values that are held in what is expected. -/
def heldBy : Expectation → List Json
  | .name members | .colon members _ | .afterMember members => members.map Prod.snd
  | .afterItem items => items
  | .nothing value => [value]
  | .value | .firstItem | .firstName => []

/-- The values that a reader holds between two tokens. -/
def held (reader : Reader) : List Json := reader.around.flatMap heldIn ++ heldBy reader.expected

/-- All that a reader holds can be shown. -/
def IsShowable (reader : Reader) : Prop := ∀ value ∈ reader.held, value.isShowable = true

/-- What is held in the containers and in what is expected is all that is held. -/
theorem isShowable_mk {around : List Container} {expected : Expectation} :
    IsShowable ⟨around, expected⟩ ↔
      (∀ container ∈ around, ∀ value ∈ heldIn container, value.isShowable = true) ∧
        ∀ value ∈ heldBy expected, value.isShowable = true := by
  simp only [IsShowable, held, List.forall_mem_append, List.forall_mem_flatMap]

/-- A member that is set brings in its own value only. -/
theorem isShowable_of_mem_set {members : Members} {name : String} {value : Json}
    (hmembers : ∀ x ∈ members.map Prod.snd, x.isShowable = true)
    (hvalue : value.isShowable = true) :
    ∀ x ∈ (Entries.set members name value).map Prod.snd, x.isShowable = true := by
  induction members with
  | nil => simpa [Entries.set] using hvalue
  | cons member members ih =>
    obtain ⟨key, old⟩ := member
    obtain ⟨hold, hrest⟩ := List.forall_mem_cons.mp hmembers
    rw [Entries.set]
    split
    · exact List.forall_mem_cons.mpr ⟨hvalue, hrest⟩
    · exact List.forall_mem_cons.mpr ⟨hold, ih hrest⟩

/-- A value that is complete goes where all can be shown. -/
theorem isShowable_complete {around : List Container} {value : Json}
    (haround : ∀ container ∈ around, ∀ value ∈ heldIn container, value.isShowable = true)
    (hvalue : value.isShowable = true) : (complete value around).IsShowable := by
  cases around with
  | nil => exact isShowable_mk.mpr ⟨by simp, by simpa [heldBy] using hvalue⟩
  | cons container around =>
    obtain ⟨hcontainer, hrest⟩ := List.forall_mem_cons.mp haround
    cases container with
    | array items => exact isShowable_mk.mpr ⟨hrest, List.forall_mem_cons.mpr ⟨hvalue, hcontainer⟩⟩
    | object members name =>
      exact isShowable_mk.mpr ⟨hrest, isShowable_of_mem_set hcontainer hvalue⟩

/-- A value that is one token can be shown if the token is short. -/
theorem isShowable_of_scalar? {token : Token} {value : Json}
    (hvalue : token.scalar? = some value) (hshort : token.isShort = true) :
    value.isShowable = true := by
  cases token with
  | openArray | openObject | closeArray | closeObject | colon | comma | brokenString
  | brokenInteger | unknown => cases hvalue
  | null | bool | float | str =>
    cases hvalue
    rfl
  | int n =>
    cases hvalue
    simpa [isShowable, spelling] using hshort

/-- **One token.** Where it is short, the reader still holds only what can be shown. -/
theorem Steps.isShowable {reader next : Reader} {token : Token} (hsteps : Steps reader token next)
    (hshort : token.isShort = true) (hreader : reader.IsShowable) : next.IsShowable := by
  induction hsteps with
  | scalar around hvalue =>
    exact isShowable_complete (isShowable_mk.mp hreader).1 (isShowable_of_scalar? hvalue hshort)
  | openArray | openObject | name | nextMember => exact hreader
  | emptyArray | emptyObject => exact isShowable_complete (isShowable_mk.mp hreader).1 rfl
  | firstItem _ ih =>
    have haround := (isShowable_mk.mp hreader).1
    exact ih hshort (isShowable_mk.mpr ⟨List.forall_mem_cons.mpr ⟨by simp [heldIn], haround⟩,
      by simp [heldBy]⟩)
  | firstName _ ih => exact ih hshort hreader
  | nextItem | colon =>
    obtain ⟨haround, hheld⟩ := isShowable_mk.mp hreader
    exact isShowable_mk.mpr ⟨List.forall_mem_cons.mpr ⟨hheld, haround⟩, by simp [heldBy]⟩
  | closeArray around items =>
    obtain ⟨haround, hheld⟩ := isShowable_mk.mp hreader
    refine isShowable_complete haround ?_
    rw [isShowable_arr, List.all_reverse, List.all_eq_true]
    exact hheld
  | closeObject around members =>
    obtain ⟨haround, hheld⟩ := isShowable_mk.mp hreader
    refine isShowable_complete haround ?_
    rw [isShowable_obj, List.all_eq_true]
    exact List.forall_mem_map.mp hheld

/-- **All tokens.** Where they are short, the reader holds only what can be shown in the end. -/
theorem IsShowable.run {reader last : Reader} {placed : List Placed} (hreader : reader.IsShowable)
    (hshort : ∀ token ∈ placed, token.token.isShort = true)
    (hlast : reader.run placed = .ok last) : last.IsShowable := by
  induction placed generalizing reader with
  | nil =>
    cases hlast
    exact hreader
  | cons first placed ih =>
    obtain ⟨hfirst, hplaced⟩ := List.forall_mem_cons.mp hshort
    obtain ⟨next, hnext, hrest⟩ := exists_of_bind_eq_ok hlast
    exact ih ((steps_of_step hnext).isShowable hfirst hreader) hplaced hrest

end Reader

/-! ## Whole texts -/

/-- A value that is read is what the tokens of the text end with. -/
theorem exists_run_of_read_eq_ok {text : String} {limit : Option Nat} {value : Json}
    (hread : read text limit = .ok value) :
    ∃ last, Reader.start.run (tokens limit text.toList) = .ok last ∧
      last.finish = .ok value := by
  rw [read] at hread
  split at hread
  · cases hread
  · cases hrun : Reader.start.run (tokens limit text.toList) >>= Reader.finish with
    | error misreading =>
      rw [hrun] at hread
      cases hread
    | ok found =>
      rw [hrun] at hread
      cases hread
      exact exists_of_bind_eq_ok hrun

/-- **What is read can be shown.** No text denotes a value with an integer of so many digits
that a message could not show it. -/
theorem IsDenoted.isShowable {value : Json} (hvalue : value.IsDenoted) :
    value.isShowable = true := by
  obtain ⟨text, hread⟩ := hvalue
  obtain ⟨last, hrun, hfinish⟩ := exists_run_of_read_eq_ok hread
  have hstart : Reader.start.IsShowable := by
    simp [Reader.IsShowable, Reader.held, Reader.start, Reader.heldBy]
  have hlast : last.IsShowable := hstart.run (fun _ hplaced => isShort_of_mem_tokens hplaced) hrun
  obtain ⟨around, expected⟩ := last
  cases expected with
  | nothing held =>
    cases hfinish
    exact (Reader.isShowable_mk.mp hlast).2 value (by simp [Reader.heldBy])
  | value | firstItem | firstName | name | colon | afterItem | afterMember => cases hfinish

/-- Among the plain values, those that can be shown are denoted. -/
theorem isDenoted_of_isPlain {value : Json} (hplain : value.isPlain = true)
    (hshow : value.isShowable = true) : value.IsDenoted := by
  refine ⟨value.compact, ?_⟩
  rw [compact_eq_spaced]
  refine read_spaced hplain .compact (by simp [Function.comp_def]) (by simp) (by simp) ?_
  refine (hasShortIntegers_iff hplain).mp fun n hn => ?_
  simpa [Token.isShort] using List.all_eq_true.mp hshow (.int n) hn

end ChatClient.Json
