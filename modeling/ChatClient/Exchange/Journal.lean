import ChatClient.Failure

/-!
# Journals

What an exchange with the service leaves behind besides its answer: the calls
that were made, the notices given, and how often the stream was closed.
-/

namespace ChatClient

/-- The effects of an exchange, each kind in its order. -/
structure Journal where
  /-- The arguments of each call. -/
  calls : List Members
  /-- The notices given. -/
  notices : List Notice
  /-- How often the stream of the service was closed. -/
  closes : Nat
  deriving DecidableEq, Repr

namespace Journal

/-- Nothing happened. -/
def empty : Journal := ⟨[], [], 0⟩

/-- A call was made. -/
def call (arguments : Members) : Journal := ⟨[arguments], [], 0⟩

/-- Notices were given. -/
def noted (notices : List Notice) : Journal := ⟨[], notices, 0⟩

/-- The stream was closed. -/
def closed : Journal := ⟨[], [], 1⟩

/-- One journal after the other. -/
def append (first second : Journal) : Journal where
  calls := first.calls ++ second.calls
  notices := first.notices ++ second.notices
  closes := first.closes + second.closes

instance : Append Journal := ⟨append⟩

@[simp] theorem calls_append (first second : Journal) :
    (first ++ second).calls = first.calls ++ second.calls := rfl

@[simp] theorem notices_append (first second : Journal) :
    (first ++ second).notices = first.notices ++ second.notices := rfl

@[simp] theorem closes_append (first second : Journal) :
    (first ++ second).closes = first.closes + second.closes := rfl

end Journal

end ChatClient
