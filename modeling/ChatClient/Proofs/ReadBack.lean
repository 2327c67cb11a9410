import ChatClient.Json.Reader
import ChatClient.Json.Writer
import ChatClient.Proofs.TokenText

/-!
# Values are read back

The text that a value is written as denotes that value, also with blanks between
its tokens. The reader is followed over the tokens of the value, from the state
that waits for a value to the state in which the value is complete, whatever
containers are open around it.
-/

namespace ChatClient

/-- A new name is entered behind the others. -/
theorem Entries.set_of_not_mem {α : Type} {entries : Entries α} {name : String}
    (hname : name ∉ entries.map Prod.fst) (value : α) :
    entries.set name value = entries ++ [(name, value)] := by
  induction entries with
  | nil => rfl
  | cons entry entries ih =>
    obtain ⟨key, old⟩ := entry
    simp only [List.map_cons, List.mem_cons, not_or] at hname
    rw [set, if_neg (Ne.symm hname.1), ih hname.2, List.cons_append]

namespace Json

mutual

/-- The value holds no float, and each of its objects has every name once, as the
objects have that can be built. -/
def isPlain : Json → Bool
  | .float _ => false
  | .arr items => arePlain items
  | .obj members => decide (members.map Prod.fst).Nodup && areMembersPlain members
  | .null | .bool _ | .int _ | .str _ => true

/-- All items are plain. -/
def arePlain : List Json → Bool
  | [] => true
  | x :: xs => isPlain x && arePlain xs

/-- The values of all members are plain. -/
def areMembersPlain : List (String × Json) → Bool
  | [] => true
  | (_, x) :: xs => isPlain x && areMembersPlain xs

end

namespace Reader

/-- The reader takes tokens one after the other and gets from one state to another,
wherever the tokens stand. -/
def Reads (reader : Reader) (tokens : List Token) (after : Reader) : Prop :=
  ∀ placed : List Placed, placed.map Placed.token = tokens → reader.run placed = .ok after

theorem Reads.nil (reader : Reader) : Reads reader [] reader := by
  intro placed hplaced
  rw [List.map_eq_nil_iff.mp hplaced]
  rfl

/-- One token more in front. -/
theorem Reads.cons {reader next after : Reader} {token : Token} {tokens : List Token}
    (hstep : ∀ place, reader.step ⟨token, place⟩ = .ok next) (hrest : Reads next tokens after) :
    Reads reader (token :: tokens) after := by
  intro placed hplaced
  obtain ⟨⟨_, place⟩, rest, rfl, rfl, htokens⟩ := List.map_eq_cons_iff.mp hplaced
  have hrun := hrest rest htokens
  rw [run] at hrun
  simp only [run, List.foldlM_cons, hstep place, bind, Except.bind]
  exact hrun

/-- Tokens are read part by part. -/
theorem Reads.append {reader middle after : Reader} {first second : List Token}
    (hfirst : Reads reader first middle) (hsecond : Reads middle second after) :
    Reads reader (first ++ second) after := by
  intro placed hplaced
  obtain ⟨placed₁, placed₂, rfl, htokens₁, htokens₂⟩ := List.map_eq_append_iff.mp hplaced
  rw [run_append, hfirst placed₁ htokens₁]
  exact hsecond placed₂ htokens₂

/-- What does not close an array begins its first item. -/
theorem step_firstItem {around : List Container} {placed : Placed}
    (hplaced : placed.token ≠ .closeArray) :
    step ⟨around, .firstItem⟩ placed = beginValue (.array [] :: around) placed := by
  obtain ⟨token, place⟩ := placed
  cases token <;> first | rfl | exact absurd rfl hplaced

/-- What does not close an object is the name of its first member. -/
theorem step_firstName {around : List Container} {placed : Placed}
    (hplaced : placed.token ≠ .closeObject) :
    step ⟨around, .firstName⟩ placed = beginMember around [] placed := by
  obtain ⟨token, place⟩ := placed
  cases token <;> first | rfl | exact absurd rfl hplaced

/-- The first item of an array is read like any other one. -/
theorem reads_firstItem {around : List Container} {token : Token} {tokens : List Token}
    {after : Reader} (htoken : token ≠ .closeArray)
    (hreads : Reads ⟨.array [] :: around, .value⟩ (token :: tokens) after) :
    Reads ⟨around, .firstItem⟩ (token :: tokens) after := by
  intro placed hplaced
  have hrun := hreads placed hplaced
  obtain ⟨first, rest, rfl, hfirst, _⟩ := List.map_eq_cons_iff.mp hplaced
  have hstep : step ⟨around, .firstItem⟩ first = step ⟨.array [] :: around, .value⟩ first :=
    step_firstItem (hfirst ▸ htoken)
  rw [run, List.foldlM_cons] at hrun ⊢
  rwa [hstep]

end Reader

/-- A value begins with a token that closes no array. -/
theorem exists_spelling_eq_cons (value : Json) :
    ∃ token tokens, value.spelling = token :: tokens ∧ token ≠ .closeArray := by
  cases value with
  | null | bool | int | float | str => exact ⟨_, _, by rw [spelling], by simp⟩
  | arr items => cases items <;> exact ⟨_, _, by rw [spelling], by simp⟩
  | obj members => cases members <;> exact ⟨_, _, by rw [spelling], by simp⟩

open Reader

mutual

/-- Where a value is expected, the tokens of a value complete it. -/
theorem reads_spelling : ∀ (value : Json), value.isPlain = true → ∀ around : List Container,
    Reads ⟨around, .value⟩ value.spelling (complete value around)
  | .null, _, around => .cons (fun _ => rfl) (.nil _)
  | .bool _, _, around => .cons (fun _ => rfl) (.nil _)
  | .int _, _, around => .cons (fun _ => rfl) (.nil _)
  | .str _, _, around => .cons (fun _ => rfl) (.nil _)
  | .arr [], _, around => .cons (fun _ => rfl) (.cons (fun _ => rfl) (.nil _))
  | .arr (x :: xs), hplain, around => by
    obtain ⟨hx, hxs⟩ : x.isPlain = true ∧ arePlain xs = true := by
      simpa [isPlain, arePlain] using hplain
    obtain ⟨token, tokens, hspelling, htoken⟩ := exists_spelling_eq_cons x
    have hitem := reads_spelling x hx (.array [] :: around)
    rw [hspelling] at hitem
    have hfirst := reads_firstItem htoken hitem
    have hrest := reads_spellingItems xs hxs around [x]
    rw [spelling, hspelling, List.append_assoc]
    exact .cons (fun _ => rfl) (hfirst.append hrest)
  | .obj [], _, around => .cons (fun _ => rfl) (.cons (fun _ => rfl) (.nil _))
  | .obj ((name, x) :: xs), hplain, around => by
    obtain ⟨hnodup, hx, hxs⟩ : (((name, x) :: xs).map Prod.fst).Nodup ∧ x.isPlain = true ∧
        areMembersPlain xs = true := by
      simpa [isPlain, areMembersPlain] using hplain
    have hfirst := reads_spelling x hx (.object [] name :: around)
    have hrest := reads_spellingMembers xs hxs around [(name, x)] hnodup
    rw [spelling, List.append_assoc]
    exact .cons (fun _ => rfl) (.cons (fun _ => rfl) (.cons (fun _ => rfl)
      (hfirst.append hrest)))

/-- Behind an item, further items and the end of the array complete the array. -/
theorem reads_spellingItems : ∀ (xs : List Json), arePlain xs = true →
    ∀ (around : List Container) (read : List Json),
      Reads ⟨around, .afterItem read⟩ (spellingItems xs ++ [.closeArray])
        (complete (.arr (read.reverse ++ xs)) around)
  | [], _, around, read => by
    rw [spellingItems, List.nil_append, List.append_nil]
    exact .cons (fun _ => rfl) (.nil _)
  | x :: xs, hplain, around, read => by
    obtain ⟨hx, hxs⟩ : x.isPlain = true ∧ arePlain xs = true := by
      simpa [arePlain] using hplain
    have hitem := reads_spelling x hx (.array read :: around)
    have hrest := reads_spellingItems xs hxs around (x :: read)
    rw [List.reverse_cons, List.append_assoc, List.singleton_append] at hrest
    rw [spellingItems, List.cons_append, List.append_assoc]
    exact .cons (fun _ => rfl) (hitem.append hrest)

/-- Behind a member, further members and the end of the object complete the object. -/
theorem reads_spellingMembers : ∀ (xs : List (String × Json)), areMembersPlain xs = true →
    ∀ (around : List Container) (read : Members), ((read ++ xs).map Prod.fst).Nodup →
      Reads ⟨around, .afterMember read⟩ (spellingMembers xs ++ [.closeObject])
        (complete (.obj (read ++ xs)) around)
  | [], _, around, read, _ => by
    rw [spellingMembers, List.nil_append, List.append_nil]
    exact .cons (fun _ => rfl) (.nil _)
  | (name, x) :: xs, hplain, around, read, hnodup => by
    obtain ⟨hx, hxs⟩ : x.isPlain = true ∧ areMembersPlain xs = true := by
      simpa [areMembersPlain] using hplain
    have hnew : name ∉ read.map Prod.fst := by
      rw [List.map_append, List.map_cons] at hnodup
      exact fun hmem => (List.nodup_append.mp hnodup).2.2 name hmem name (by simp) rfl
    have hmember := reads_spelling x hx (.object read name :: around)
    rw [complete, Entries.set_of_not_mem hnew] at hmember
    have happend : read ++ (name, x) :: xs = read ++ [(name, x)] ++ xs := by simp
    rw [happend] at hnodup ⊢
    have hrest := reads_spellingMembers xs hxs around (read ++ [(name, x)]) hnodup
    rw [spellingMembers, List.cons_append, List.cons_append, List.cons_append,
      List.append_assoc]
    exact .cons (fun _ => rfl) (.cons (fun _ => rfl) (.cons (fun _ => rfl)
      (hmember.append hrest)))

end

/-! ## The tokens of a value -/

/-- A token may stand before others, unless both it and the next one are numbers. -/
theorem Apart.cons {token : Token} {tokens : List Token}
    (hnext : token.isNumber = true → ∀ next ∈ tokens.head?, next.isNumber = false)
    (hapart : Apart tokens) : Apart (token :: tokens) := by
  cases tokens with
  | nil => exact .singleton _
  | cons next tokens => exact .cons_cons (fun hnumber => hnext hnumber next rfl) hapart

/-- What is no number may stand before everything. -/
theorem Apart.cons_of_not_isNumber {token : Token} {tokens : List Token}
    (htoken : token.isNumber = false) (hapart : Apart tokens) : Apart (token :: tokens) :=
  .cons (fun hnumber => absurd (htoken.symm.trans hnumber) Bool.false_ne_true) hapart

mutual

/-- The numbers of a value are apart, also from what follows the value. -/
theorem apart_spelling : ∀ (value : Json) {rest : List Token}, Apart rest →
    (∀ token ∈ rest.head?, token.isNumber = false) → Apart (value.spelling ++ rest)
  | .null, _, hrest, _ => .cons_of_not_isNumber rfl hrest
  | .bool _, _, hrest, _ => .cons_of_not_isNumber rfl hrest
  | .int _, _, hrest, hhead => .cons (fun _ => hhead) hrest
  | .float _, _, hrest, hhead => .cons (fun _ => hhead) hrest
  | .str _, _, hrest, _ => .cons_of_not_isNumber rfl hrest
  | .arr [], _, hrest, _ => .cons_of_not_isNumber rfl (.cons_of_not_isNumber rfl hrest)
  | .arr (x :: xs), rest, hrest, _ => by
    have hclose : Apart (.closeArray :: rest) := hrest.cons_of_not_isNumber rfl
    obtain ⟨hitems, hhead⟩ := apart_spellingItems xs hclose (by simp [Token.isNumber])
    rw [spelling, List.cons_append, List.append_assoc, List.append_assoc]
    exact (apart_spelling x hitems hhead).cons_of_not_isNumber rfl
  | .obj [], _, hrest, _ => .cons_of_not_isNumber rfl (.cons_of_not_isNumber rfl hrest)
  | .obj ((_, x) :: xs), rest, hrest, _ => by
    have hclose : Apart (.closeObject :: rest) := hrest.cons_of_not_isNumber rfl
    obtain ⟨hmembers, hhead⟩ := apart_spellingMembers xs hclose (by simp [Token.isNumber])
    rw [spelling, List.cons_append, List.cons_append, List.cons_append, List.append_assoc,
      List.append_assoc]
    exact .cons_of_not_isNumber rfl (.cons_of_not_isNumber rfl (.cons_of_not_isNumber rfl
      (apart_spelling x hmembers hhead)))

/-- So are those of further items, which begin with no number. -/
theorem apart_spellingItems : ∀ (xs : List Json) {rest : List Token}, Apart rest →
    (∀ token ∈ rest.head?, token.isNumber = false) →
    Apart (spellingItems xs ++ rest) ∧
      ∀ token ∈ (spellingItems xs ++ rest).head?, token.isNumber = false
  | [], _, hrest, hhead => ⟨hrest, hhead⟩
  | x :: xs, rest, hrest, hhead => by
    obtain ⟨hitems, hhead'⟩ := apart_spellingItems xs hrest hhead
    rw [spellingItems, List.cons_append, List.append_assoc]
    exact ⟨(apart_spelling x hitems hhead').cons_of_not_isNumber rfl, by simp [Token.isNumber]⟩

/-- So are those of further members, which begin with no number. -/
theorem apart_spellingMembers : ∀ (xs : List (String × Json)) {rest : List Token}, Apart rest →
    (∀ token ∈ rest.head?, token.isNumber = false) →
    Apart (spellingMembers xs ++ rest) ∧
      ∀ token ∈ (spellingMembers xs ++ rest).head?, token.isNumber = false
  | [], _, hrest, hhead => ⟨hrest, hhead⟩
  | (_, x) :: xs, rest, hrest, hhead => by
    obtain ⟨hmembers, hhead'⟩ := apart_spellingMembers xs hrest hhead
    rw [spellingMembers, List.cons_append, List.cons_append, List.cons_append,
      List.append_assoc]
    exact ⟨.cons_of_not_isNumber rfl (.cons_of_not_isNumber rfl (.cons_of_not_isNumber rfl
      (apart_spelling x hmembers hhead'))), by simp [Token.isNumber]⟩

end

/-- The numbers of a value are apart. -/
theorem apart_spelling_self (value : Json) : Apart value.spelling := by
  simpa using apart_spelling value (List.IsChain.nil) (by simp)

mutual

/-- The tokens of a plain value can be read, if no integer is too long for a reader. -/
theorem isReadable_of_mem_spelling : ∀ (value : Json), value.isPlain = true →
    ∀ token ∈ value.spelling, token.isReadable none = true
  | .null, _ => by simp [spelling, Token.isReadable]
  | .bool _, _ => by simp [spelling, Token.isReadable]
  | .int _, _ => by simp [spelling, Token.isReadable]
  | .str _, _ => by simp [spelling, Token.isReadable]
  | .arr [], _ => by simp [spelling, Token.isReadable]
  | .arr (x :: xs), hplain => by
    obtain ⟨hx, hxs⟩ : x.isPlain = true ∧ arePlain xs = true := by
      simpa [isPlain, arePlain] using hplain
    have hfirst := isReadable_of_mem_spelling x hx
    have hrest := isReadable_of_mem_spellingItems xs hxs
    intro token htoken
    simp only [spelling, List.mem_cons, List.mem_append, List.not_mem_nil, or_false] at htoken
    rcases htoken with rfl | (htoken | htoken) | rfl
    · rfl
    · exact hfirst token htoken
    · exact hrest token htoken
    · rfl
  | .obj [], _ => by simp [spelling, Token.isReadable]
  | .obj ((_, x) :: xs), hplain => by
    obtain ⟨_, hx, hxs⟩ : (((_, x) :: xs).map Prod.fst).Nodup ∧ x.isPlain = true ∧
        areMembersPlain xs = true := by
      simpa [isPlain, areMembersPlain] using hplain
    have hfirst := isReadable_of_mem_spelling x hx
    have hrest := isReadable_of_mem_spellingMembers xs hxs
    intro token htoken
    simp only [spelling, List.mem_cons, List.mem_append, List.not_mem_nil, or_false] at htoken
    rcases htoken with rfl | rfl | rfl | (htoken | htoken) | rfl
    · rfl
    · rfl
    · rfl
    · exact hfirst token htoken
    · exact hrest token htoken
    · rfl

/-- So can those of further items. -/
theorem isReadable_of_mem_spellingItems : ∀ (xs : List Json), arePlain xs = true →
    ∀ token ∈ spellingItems xs, token.isReadable none = true
  | [], _ => by simp [spellingItems]
  | x :: xs, hplain => by
    obtain ⟨hx, hxs⟩ : x.isPlain = true ∧ arePlain xs = true := by
      simpa [arePlain] using hplain
    have hfirst := isReadable_of_mem_spelling x hx
    have hrest := isReadable_of_mem_spellingItems xs hxs
    intro token htoken
    simp only [spellingItems, List.mem_cons, List.mem_append] at htoken
    rcases htoken with rfl | htoken | htoken
    · rfl
    · exact hfirst token htoken
    · exact hrest token htoken

/-- So can those of further members. -/
theorem isReadable_of_mem_spellingMembers : ∀ (xs : List (String × Json)),
    areMembersPlain xs = true → ∀ token ∈ spellingMembers xs, token.isReadable none = true
  | [], _ => by simp [spellingMembers]
  | (_, x) :: xs, hplain => by
    obtain ⟨hx, hxs⟩ : x.isPlain = true ∧ areMembersPlain xs = true := by
      simpa [areMembersPlain] using hplain
    have hfirst := isReadable_of_mem_spelling x hx
    have hrest := isReadable_of_mem_spellingMembers xs hxs
    intro token htoken
    simp only [spellingMembers, List.mem_cons, List.mem_append] at htoken
    rcases htoken with rfl | rfl | rfl | htoken | htoken
    · rfl
    · rfl
    · rfl
    · exact hfirst token htoken
    · exact hrest token htoken

end

/-! ## Whole texts -/

/-- The text of a value is read back, whatever gaps there are between its tokens. -/
theorem read_spaced {value : Json} (hplain : value.isPlain = true) (layout : Layout)
    {limit : Option Nat} {parts : List (List Char × Token)} {tail : List Char}
    (hparts : parts.map Prod.snd = value.spelling)
    (hgaps : ∀ part ∈ parts, ∀ c ∈ part.1, isGap c = true) (htail : ∀ c ∈ tail, isGap c = true)
    (hreadable : ∀ token ∈ value.spelling, token.isReadable limit = true) :
    read (String.ofList (spaced layout parts ++ tail)) limit = .ok value := by
  have hreadable' : ∀ part ∈ parts, part.2.isReadable limit = true := fun part hpart =>
    hreadable part.2 (hparts ▸ List.mem_map_of_mem hpart)
  have hmark := head?_spaced_append_ne layout hgaps htail hreadable'
  have htokens := map_token_tokens_spaced layout hgaps htail hreadable'
    (hparts ▸ value.apart_spelling_self)
  have hrun := reads_spelling value hplain [] _ (htokens.trans hparts)
  rw [read, String.toList_ofList]
  simp only [hmark, if_false]
  rw [Reader.start, hrun]
  rfl

/-- The compact text of a value has its tokens with no gap between them. -/
theorem compact_eq_spaced (value : Json) :
    value.compact = String.ofList (spaced .compact (value.spelling.map ([], ·)) ++ []) := by
  simp [spaced, List.flatMap_map, compact, write]

/-- The compact text of a plain value is read back. -/
theorem read_compact {value : Json} (hplain : value.isPlain = true) :
    read value.compact none = .ok value := by
  rw [compact_eq_spaced]
  exact read_spaced hplain .compact (by simp [Function.comp_def]) (by simp) (by simp)
    (isReadable_of_mem_spelling value hplain)

end Json

end ChatClient
