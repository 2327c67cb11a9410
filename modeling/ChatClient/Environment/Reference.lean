import ChatClient.Environment

/-!
# References to variables

A value may refer to variables. `${NAME}` stands for the value of a variable, and
`${NAME:-TEXT}` stands for the text when there is no such variable. Whatever only
looks like a reference stands for itself.
-/

namespace ChatClient.Environment

/-- A reference, and what follows it. -/
structure Reference where
  name : List Char
  fallback : List Char
  rest : List Char
  deriving DecidableEq, Repr

/-- The end of a reference. -/
def closing : Char := '\x7d'

/-- A character of the name in a reference. -/
def inName (c : Char) : Bool := c ≠ closing && c ≠ ':'

/-- The reference whose name begins a text. -/
def reference? (cs : List Char) : Option Reference :=
  let name := cs.takeWhile inName
  match cs.dropWhile inName with
  | ':' :: '-' :: behind =>
    match behind.dropWhile (· ≠ closing) with
    | _ :: rest => some ⟨name, behind.takeWhile (· ≠ closing), rest⟩
    | [] => none
  | c :: rest => if c = closing then some ⟨name, [], rest⟩ else none
  | [] => none

/-- A reference takes at least its closing character. -/
theorem length_rest_lt {cs : List Char} {reference : Reference}
    (h : reference? cs = some reference) : reference.rest.length < cs.length := by
  have hname := (List.dropWhile_suffix inName (l := cs)).length_le
  simp only [reference?] at h
  split at h
  · rename_i behind hdrop
    have hbehind := (List.dropWhile_suffix (· ≠ closing) (l := behind)).length_le
    rw [hdrop] at hname
    split at h
    · rename_i c rest hrest
      rw [hrest] at hbehind
      cases h
      simp only [List.length_cons] at hname hbehind ⊢
      omega
    · cases h
  · rename_i c rest _ hdrop
    rw [hdrop] at hname
    split at h
    · cases h
      simp only [List.length_cons] at hname ⊢
      omega
    · cases h
  · cases h

/-- What a reference stands for. -/
def resolve (value : String → Option String) (reference : Reference) : List Char :=
  match value (String.ofList reference.name) with
  | some text => text.toList
  | none => reference.fallback

/-- A text with all its references resolved. -/
def expand (value : String → Option String) (cs : List Char) : List Char :=
  match cs with
  | [] => []
  | '$' :: '\x7b' :: rest =>
    match _h : reference? rest with
    | some reference => resolve value reference ++ expand value reference.rest
    | none => '$' :: expand value ('\x7b' :: rest)
  | c :: rest => c :: expand value rest
termination_by cs.length
decreasing_by
  · have := length_rest_lt _h
    simp only [List.length_cons]
    omega
  · simp
  · simp

end ChatClient.Environment
