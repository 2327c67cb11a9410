import ChatClient.Json.Basic

/-!
# Laying values over one another

Objects are merged member by member, at any depth; every other value replaces
what lies below it. A value can also be grafted into an object at a path, where
the objects on the way are made as needed.
-/

namespace ChatClient

namespace Json

mutual

/-- One value laid over another. -/
def overlay (below : Json) : Json → Json
  | .obj members =>
    match below with
    | .obj base => .obj (overlayMembers base members)
    | _ => .obj members
  | value => value

/-- Members laid over others, one after the other. -/
def overlayMembers (below : Members) : List (String × Json) → Members
  | [] => below
  | (name, value) :: rest =>
    let laid := match below.get? name with
      | some old => overlay old value
      | none => value
    overlayMembers (below.set name laid) rest

end

/-- The tree with a value put at a path. Where the path leads through something
that is no object, nothing is put. -/
def graft : (tree : Json) → (path : List String) → (value : Json) → Json
  | _, [], value => value
  | .obj members, name :: path, value =>
    .obj (Entries.set members name
      (graft ((Entries.get? members name).getD (.obj [])) path value))
  | other, _ :: _, _ => other

end Json

/-- Members laid over others. -/
def Members.overlay (below above : Members) : Members := Json.overlayMembers below above

end ChatClient
